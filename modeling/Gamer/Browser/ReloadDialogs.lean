import Gamer.Browser.Transport

/-! What an automatic confirmation rests on. The permission for an operation is there from the moment
    its command is armed, and the command is written before the loop reads the next message, so a
    dialog finds only permissions whose command has been written, with nothing since that would have
    taken them away:

        log   … armed op ─ wrote op ─ (no intent, navigation or cancellation) ─ accepted op       -/

namespace Gamer.Browser
open Gamer.Lib

/-- What may happen after a reload was written without ending its permission. -/
def TransportEvent.keeps : TransportEvent → Bool
  | .wrote _ _ intent => !intent
  | .cancelled _ | .navigated => false
  | .armed .. | .accepted .. | .gaveUp _ => true

/-- The reload's command was written, and no navigation, input or cancellation came after it. -/
def WrittenSince (log : List TransportEvent) (operation : Nat) : Prop :=
  ∃ after before, log = after ++ .wrote operation true false :: before ∧
    ∀ e ∈ after, e.keeps = true

theorem WrittenSince.append {log : List TransportEvent} {operation : Nat}
    (h : WrittenSince log operation) {es : List TransportEvent} (hes : ∀ e ∈ es, e.keeps = true) :
    WrittenSince (es ++ log) operation := by
  obtain ⟨after, before, rfl, hkeeps⟩ := h
  refine ⟨es ++ after, before, (List.append_assoc ..).symm, fun e he => ?_⟩
  rcases List.mem_append.mp he with he | he
  · exact hes e he
  · exact hkeeps e he

/-- What holds when a dialog is confirmed; `earlier` is what has happened before. -/
structure Permitted (earlier : List TransportEvent) (operation : Nat) (kind : String) (at_ : Nat) :
    Prop where
  beforeunload : kind = "beforeunload"
  written : WrittenSince earlier operation
  inTime : ∃ armed, .armed operation armed ∈ earlier ∧ at_ < armed + RELOAD_DIALOG_TIMEOUT
  kept : .gaveUp operation ∉ earlier
  uncancelled : ∀ barrier, .cancelled barrier ∈ earlier → barrier < operation
  first : ∀ kind at_, .accepted operation kind at_ ∉ earlier

/-- Every confirmation in the log was permitted. -/
def Accepts : List TransportEvent → Prop
  | [] => True
  | e :: earlier =>
    (∀ operation kind at_, e = .accepted operation kind at_ →
      Permitted earlier operation kind at_) ∧ Accepts earlier

theorem Accepts.permitted {log : List TransportEvent} (h : Accepts log)
    {later earlier : List TransportEvent} {operation : Nat} {kind : String} {at_ : Nat}
    (hlog : log = later ++ .accepted operation kind at_ :: earlier) :
    Permitted earlier operation kind at_ := by
  subst hlog
  induction later with
  | nil => exact h.1 operation kind at_ rfl
  | cons e later ih => exact ih h.2

/-- A call goes on, and its command does not come back. -/
structure TransportCall.Follows (c' c : TransportCall) : Prop where
  method : c'.method = c.method
  explicitReload : c'.explicitReload = c.explicitReload
  command : c.command = .taken → c'.command = .taken

theorem TransportCall.Follows.isIntent {c' c : TransportCall} (h : c'.Follows c) :
    c'.isIntent = c.isIntent := by
  rw [TransportCall.isIntent, TransportCall.isIntent, h.method, h.explicitReload]

namespace Transport

/-- What a permission rests on. -/
structure Granted (s : Transport) (a : ReloadAttempt) : Prop where
  deadline : ∃ armed, .armed a.operation armed ∈ s.log ∧
    a.deadline = armed + RELOAD_DIALOG_TIMEOUT
  kept : .gaveUp a.operation ∉ s.log
  uncancelled : ∀ barrier, .cancelled barrier ∈ s.log → barrier < a.operation
  first : a.accepted = false → ∀ kind at_, .accepted a.operation kind at_ ∉ s.log
  written : WrittenSince s.log a.operation ∨
    s.handling = some (a.operation, .armed) ∨ s.handling = some (a.operation, .ready)

/-- INVARIANT -/
structure Inv (s : Transport) : Prop where
  granted : ∀ a, s.reloadDialogs.active = some a → s.Granted a
  gaveUp : ∀ k, .gaveUp k ∈ s.log → k ≤ s.reloadDialogs.retiredThrough
  cancelled : ∀ barrier, .cancelled barrier ∈ s.log → barrier ≤ s.reloadDialogs.retiredThrough
  known : ∀ k c, s.calls.get k = some c → k < s.next
  armed : ∀ k at_, .armed k at_ ∈ s.log →
    ∃ c, s.calls.get k = some c ∧ c.command = .taken ∧ c.explicitReload = true
  accepted : ∀ k kind at_, .accepted k kind at_ ∈ s.log →
    ∃ c, s.calls.get k = some c ∧ c.command = .taken
  handled : ∀ k stage, s.handling = some (k, stage) → ∃ c, s.calls.get k = some c ∧
    c.command = .taken ∧ (stage = .armed → c.explicitReload = true)
  early : ∀ k stage, s.handling = some (k, stage) → stage = .received ∨ stage = .admitted →
    ∀ kind at_, .accepted k kind at_ ∉ s.log
  intent : ∀ k c, s.handling = some (k, .ready) → s.calls.get k = some c → c.isIntent = true →
    s.reloadDialogs.active = none
  accepts : Accepts s.log

theorem Inv.init : Inv {} where
  granted := by simp
  gaveUp := by simp
  cancelled := by simp
  known := by simp
  armed := by simp
  accepted := by simp
  handled := by simp
  early := by simp
  intent := by simp
  accepts := trivial

/-! ### Calls -/

/-- FRAME: calls come and go on; the permissions do not change. -/
theorem Inv.calls {s : Transport} (h : s.Inv) {next : Nat} {calls : Table Nat TransportCall}
    (hknown : ∀ k c, calls.get k = some c → k < next)
    (hcalls : ∀ k c, s.calls.get k = some c → ∃ c', calls.get k = some c' ∧ c'.Follows c) :
    Inv { s with next := next, calls := calls } where
  granted := fun a ha => ⟨(h.granted a ha).deadline, (h.granted a ha).kept,
    (h.granted a ha).uncancelled, (h.granted a ha).first, (h.granted a ha).written⟩
  gaveUp := h.gaveUp
  cancelled := h.cancelled
  known := hknown
  armed := by
    intro k at_ hmem
    obtain ⟨c, hc, htaken, hreload⟩ := h.armed k at_ hmem
    obtain ⟨c', hc', hfollows⟩ := hcalls k c hc
    exact ⟨c', hc', hfollows.command htaken, hfollows.explicitReload.trans hreload⟩
  accepted := by
    intro k kind at_ hmem
    obtain ⟨c, hc, htaken⟩ := h.accepted k kind at_ hmem
    obtain ⟨c', hc', hfollows⟩ := hcalls k c hc
    exact ⟨c', hc', hfollows.command htaken⟩
  handled := by
    intro k stage hk
    obtain ⟨c, hc, htaken, hreload⟩ := h.handled k stage hk
    obtain ⟨c', hc', hfollows⟩ := hcalls k c hc
    exact ⟨c', hc', hfollows.command htaken,
      fun hstage => hfollows.explicitReload.trans (hreload hstage)⟩
  early := h.early
  intent := by
    intro k c' hk hc' hintent
    obtain ⟨c, hc, -⟩ := h.handled k .ready hk
    obtain ⟨c'', hc'', hfollows⟩ := hcalls k c hc
    obtain rfl := Option.some.inj (hc'.symm.trans hc'')
    exact h.intent k c hk hc (hfollows.isIntent ▸ hintent)
  accepts := h.accepts

/-- STEP: a call is made. -/
theorem Inv.begin_ {s : Transport} (h : s.Inv) (c : TransportCall) : (s.begin_ c).Inv := by
  refine h.calls (fun k c' hc' => ?_) fun k c' hc' => ⟨c', ?_, ⟨rfl, rfl, id⟩⟩
  · rw [Table.get_set] at hc'
    split at hc'
    · omega
    · exact Nat.lt_succ_of_lt (h.known k c' hc')
  · rw [Table.get_set_ne]
    · exact hc'
    · exact Nat.ne_of_lt (h.known k c' hc')

/-- STEP: one call goes on. -/
theorem Inv.update {s : Transport} (h : s.Inv) (k : Nat) {f : TransportCall → TransportCall}
    (hf : ∀ c, s.calls.get k = some c → (f c).Follows c) : (s.update k f).Inv := by
  refine h.calls (fun j c' hc' => ?_) fun j c hc => ?_
  · rw [Table.get_modify] at hc'
    split at hc'
    · rename_i hj
      obtain ⟨c, hc, -⟩ := Option.map_eq_some_iff.mp hc'
      exact hj ▸ h.known k c hc
    · exact h.known j c' hc'
  · rw [Table.get_modify]
    split
    · rename_i hj
      subst hj
      exact ⟨f c, by rw [hc]; rfl, hf c hc⟩
    · exact ⟨c, hc, rfl, rfl, id⟩

/-- FRAME: the clock, the revision and the cancellations that wait change nothing. -/
theorem Inv.beside {s : Transport} (h : s.Inv) (now revision : Nat) (barriers : List Nat)
    (alive : Bool) : Inv { s with
      now := now, revision := revision, barriers := barriers, alive := alive } :=
  ⟨fun a ha => ⟨(h.granted a ha).deadline, (h.granted a ha).kept, (h.granted a ha).uncancelled,
    (h.granted a ha).first, (h.granted a ha).written⟩, h.gaveUp, h.cancelled, h.known, h.armed,
    h.accepted, h.handled, h.early, h.intent, h.accepts⟩

theorem follows_reply (c : TransportCall) (ok : Bool) : (c.reply ok).Follows c := ⟨rfl, rfl, id⟩

/-! ### Permissions that end -/

/-- STEP: the permission is taken away or left alone, with the events that say why. -/
theorem Inv.retire {s : Transport} (h : s.Inv) {d : ReloadDialogs} {es : List TransportEvent}
    (hactive : ∀ a, d.active = some a → s.reloadDialogs.active = some a ∧
      ∀ e ∈ es, e ≠ .gaveUp a.operation ∧ e.keeps = true)
    (hle : s.reloadDialogs.retiredThrough ≤ d.retiredThrough)
    (hes : ∀ e ∈ es, (∃ k, e = .gaveUp k ∧ k ≤ d.retiredThrough) ∨
      (∃ barrier, e = .cancelled barrier ∧ barrier ≤ d.retiredThrough) ∨ e = .navigated) :
    Inv { s with reloadDialogs := d, log := es ++ s.log } := by
  have hold : ∀ e ∈ es ++ s.log, (∀ k, e = .gaveUp k → k ≤ d.retiredThrough) ∧
      (∀ barrier, e = .cancelled barrier → barrier ≤ d.retiredThrough) ∧
      (∀ k at_, e = .armed k at_ → e ∈ s.log) ∧
      ∀ k kind at_, e = .accepted k kind at_ → e ∈ s.log := by
    intro e he
    rcases List.mem_append.mp he with he | he
    · rcases hes e he with ⟨k, rfl, hk⟩ | ⟨barrier, rfl, hb⟩ | rfl <;> simp [*]
    · refine ⟨?_, ?_, fun _ _ _ => he, fun _ _ _ _ => he⟩
      · rintro k rfl
        exact Nat.le_trans (h.gaveUp k he) hle
      · rintro barrier rfl
        exact Nat.le_trans (h.cancelled barrier he) hle
  refine ⟨fun a ha => ?_, fun k hk => (hold _ hk).1 k rfl, fun b hb => (hold _ hb).2.1 b rfl,
    h.known, fun k at_ hk => h.armed k at_ ((hold _ hk).2.2.1 k at_ rfl),
    fun k kind at_ hk => h.accepted k kind at_ ((hold _ hk).2.2.2 k kind at_ rfl), h.handled,
    fun k stage hk hstage kind at_ hmem =>
      h.early k stage hk hstage kind at_ ((hold _ hmem).2.2.2 k kind at_ rfl),
    fun k c hk hc hintent => ?_, ?_⟩
  · obtain ⟨ha, hharmless⟩ := hactive a ha
    have hgranted := h.granted a ha
    obtain ⟨armed, harmed, hdeadline⟩ := hgranted.deadline
    refine ⟨⟨armed, List.mem_append_right _ harmed, hdeadline⟩, fun hmem => ?_, fun b hmem => ?_,
      fun hfirst kind at_ hmem => ?_, hgranted.written.imp_left fun hwritten => ?_⟩
    · rcases List.mem_append.mp hmem with hmem | hmem
      · exact (hharmless _ hmem).1 rfl
      · exact hgranted.kept hmem
    · rcases List.mem_append.mp hmem with hmem | hmem
      · cases (hharmless _ hmem).2
      · exact hgranted.uncancelled b hmem
    · exact hgranted.first hfirst kind at_ ((hold _ hmem).2.2.2 _ kind at_ rfl)
    · exact hwritten.append fun e he => (hharmless e he).2
  · cases hd : d.active with
    | none => rfl
    | some a =>
      have hnone := h.intent k c hk hc hintent
      rw [(hactive a hd).1] at hnone
      cases hnone
  · clear hold hactive
    induction es with
    | nil => exact h.accepts
    | cons e es ih =>
      refine ⟨?_, ih fun e' he' => hes e' (List.mem_cons_of_mem _ he')⟩
      rintro op kind at_ rfl
      rcases hes _ List.mem_cons_self with ⟨k, hk, -⟩ | ⟨b, hb, -⟩ | hn
      · cases hk
      · cases hb
      · cases hn

/-- STEP: no permission is left. -/
theorem Inv.clear {s : Transport} (h : s.Inv) : Inv { s with
    reloadDialogs := s.reloadDialogs.clear } :=
  h.retire (d := s.reloadDialogs.clear) (fun a ha => by cases ha) (Nat.le_refl _)
    (List.forall_mem_nil _)

theorem Inv.cancelThrough {s : Transport} (h : s.Inv) (k : Nat) : Inv { s with
    reloadDialogs := s.reloadDialogs.cancelThrough k } :=
  h.retire (d := s.reloadDialogs.cancelThrough k) (fun a ha => by cases ha)
    (Nat.le_max_left _ _) (List.forall_mem_nil _)

theorem Inv.expire {s : Transport} (h : s.Inv) : Inv { s with
    reloadDialogs := s.reloadDialogs.expire s.now } := by
  rw [ReloadDialogs.expire]
  split
  · split
    · exact h.clear
    · exact h
  · exact h

theorem finish_active {d : ReloadDialogs} {k : Nat} {a : ReloadAttempt}
    (h : (d.finish k).active = some a) : d.active = some a ∧ a.operation ≠ k := by
  rw [ReloadDialogs.finish] at h
  dsimp only at h
  split at h
  · cases h
  · rename_i hany
    refine ⟨h, fun heq => hany ?_⟩
    rw [h]
    simp [heq]

theorem retiredThrough_finish (d : ReloadDialogs) (k : Nat) :
    (d.finish k).retiredThrough = max d.retiredThrough k := by
  rw [ReloadDialogs.finish]
  dsimp only
  split <;> rfl

/-- STEP: an operation is over. -/
theorem Inv.finish {s : Transport} (h : s.Inv) (k : Nat) {es : List TransportEvent}
    (hes : ∀ e ∈ es, e = .gaveUp k) : Inv { s with
    reloadDialogs := s.reloadDialogs.finish k, log := es ++ s.log } := by
  have hmax := retiredThrough_finish s.reloadDialogs k
  refine h.retire (fun a ha => ?_) ?_ fun e he => .inl ⟨k, hes e he, ?_⟩
  · obtain ⟨hactive, hne⟩ := finish_active ha
    refine ⟨hactive, fun e he => ?_⟩
    obtain rfl := hes e he
    exact ⟨fun heq => hne (TransportEvent.gaveUp.inj heq).symm, rfl⟩
  · rw [hmax]
    exact Nat.le_max_left _ _
  · rw [hmax]
    exact Nat.le_max_right _ _

theorem Inv.giveUp {s : Transport} (h : s.Inv) (k : Nat) (c : TransportCall) :
    (s.giveUp k c).Inv := by
  rw [Transport.giveUp]
  split
  · exact h.finish k (List.forall_mem_singleton.mpr rfl)
  · exact h

/-! ### The loop -/

/-- STEP: the loop goes on to another command or leaves one that has no permission. -/
theorem Inv.handle {s : Transport} (h : s.Inv) {handling : Option (Nat × HandlingStage)}
    (hknown : ∀ k stage, handling = some (k, stage) → ∃ c, s.calls.get k = some c ∧
      c.command = .taken ∧ (stage = .armed → c.explicitReload = true))
    (hearly : ∀ k stage, handling = some (k, stage) → stage = .received ∨ stage = .admitted →
      ∀ kind at_, .accepted k kind at_ ∉ s.log)
    (hintent : ∀ k c, handling = some (k, .ready) → s.calls.get k = some c → c.isIntent = true →
      s.reloadDialogs.active = none)
    (hwritten : ∀ a, s.reloadDialogs.active = some a →
      s.handling = some (a.operation, .armed) ∨ s.handling = some (a.operation, .ready) →
      WrittenSince s.log a.operation ∨ handling = some (a.operation, .armed) ∨
        handling = some (a.operation, .ready)) :
    Inv { s with handling := handling } where
  granted := by
    intro a ha
    obtain ⟨hdeadline, hkept, huncancelled, hfirst, hw⟩ := h.granted a ha
    refine ⟨hdeadline, hkept, huncancelled, hfirst, ?_⟩
    rcases hw with hw | hw
    · exact .inl hw
    · exact hwritten a ha hw
  gaveUp := h.gaveUp
  cancelled := h.cancelled
  known := h.known
  armed := h.armed
  accepted := h.accepted
  handled := hknown
  early := hearly
  intent := hintent
  accepts := h.accepts

/-- STEP: the loop leaves a command that is not armed. -/
theorem Inv.idle {s : Transport} (h : s.Inv)
    (hwritten : ∀ a, s.reloadDialogs.active = some a →
      s.handling ≠ some (a.operation, .armed) ∧ s.handling ≠ some (a.operation, .ready)) :
    s.idle.Inv := by
  refine h.handle (fun k stage hk => by cases hk) (fun k stage hk => by cases hk)
    (fun k c hk => by cases hk) fun a ha hor => ?_
  rcases hor with hor | hor
  · exact absurd hor (hwritten a ha).1
  · exact absurd hor (hwritten a ha).2

/-- STEP: a reload is armed. -/
theorem Inv.arm {s : Transport} (h : s.Inv) {k : Nat} {c : TransportCall} {d : ReloadDialogs}
    (hhandling : s.handling = some (k, .admitted)) (hc : s.calls.get k = some c)
    (hreload : c.explicitReload = true) (harm : s.reloadDialogs.arm k s.now = some d) :
    Inv { s with
      reloadDialogs := d
      handling := some (k, .armed)
      log := .armed k s.now :: s.log } := by
  obtain ⟨c', hc', htaken, -⟩ := h.handled k _ hhandling
  obtain rfl := Option.some.inj (hc.symm.trans hc')
  rw [ReloadDialogs.arm] at harm
  split at harm
  · cases harm
  rename_i hlt
  cases harm
  refine ⟨fun a ha => ?_, fun j hj => ?_, fun b hb => ?_, h.known, fun j at_ hj => ?_,
    fun j kind at_ hj => ?_, fun j stage hj => ?_, fun j stage hj hstage => ?_,
    fun j c hj => (by cases hj), ⟨fun op kind at_ he => (by cases he), h.accepts⟩⟩
  · cases ha
    refine ⟨⟨s.now, List.mem_cons_self, rfl⟩, fun hmem => ?_, fun b hmem => ?_,
      fun _ kind at_ hmem => ?_, .inr (.inl rfl)⟩
    · rcases List.mem_cons.mp hmem with hmem | hmem
      · cases hmem
      · exact hlt (h.gaveUp k hmem)
    · rcases List.mem_cons.mp hmem with hmem | hmem
      · cases hmem
      · have := h.cancelled b hmem
        dsimp only
        omega
    · rcases List.mem_cons.mp hmem with hmem | hmem
      · cases hmem
      · exact h.early k _ hhandling (.inr rfl) kind at_ hmem
  · rcases List.mem_cons.mp hj with hj | hj
    · cases hj
    · exact h.gaveUp j hj
  · rcases List.mem_cons.mp hb with hb | hb
    · cases hb
    · exact h.cancelled b hb
  · rcases List.mem_cons.mp hj with hj | hj
    · cases hj
      exact ⟨c, hc, htaken, hreload⟩
    · exact h.armed j at_ hj
  · rcases List.mem_cons.mp hj with hj | hj
    · cases hj
    · exact h.accepted j kind at_ hj
  · cases hj
    exact ⟨c, hc, htaken, fun _ => hreload⟩
  · cases hj
    rcases hstage with hstage | hstage <;> cases hstage

/-- STEP: a command is written. -/
theorem Inv.write {s : Transport} (h : s.Inv) {k : Nat} {c : TransportCall}
    (hhandling : s.handling = some (k, .ready)) (hc : s.calls.get k = some c) :
    (s.idle.emit (.wrote k c.explicitReload c.isIntent)).Inv := by
  refine ⟨fun a ha => ?_, fun j hj => ?_, fun b hb => ?_, h.known, fun j at_ hj => ?_,
    fun j kind at_ hj => ?_, fun j stage hj => (by cases hj), fun j stage hj => (by cases hj),
    fun j c hj => (by cases hj), ⟨fun op kind at_ he => (by cases he), h.accepts⟩⟩
  · have hintent : c.isIntent = false := by
      cases hi : c.isIntent with
      | false => rfl
      | true =>
        have hnone := h.intent k c hhandling hc hi
        rw [show s.reloadDialogs.active = some a from ha] at hnone
        cases hnone
    obtain ⟨⟨armed, harmed, hdeadline⟩, hkept, huncancelled, hfirst, hwritten⟩ := h.granted a ha
    refine ⟨⟨armed, List.mem_cons_of_mem _ harmed, hdeadline⟩, fun hmem => ?_, fun b hmem => ?_,
      fun hf kind at_ hmem => ?_, .inl ?_⟩
    · rcases List.mem_cons.mp hmem with hmem | hmem
      · cases hmem
      · exact hkept hmem
    · rcases List.mem_cons.mp hmem with hmem | hmem
      · cases hmem
      · exact huncancelled b hmem
    · rcases List.mem_cons.mp hmem with hmem | hmem
      · cases hmem
      · exact hfirst hf kind at_ hmem
    · rcases hwritten with hwritten | hbusy
      · exact hwritten.append (List.forall_mem_singleton.mpr (by
          rw [TransportEvent.keeps, hintent]
          rfl))
      · -- the permission is that of the command itself
        have hk : k = a.operation := by
          rcases hbusy with hbusy | hbusy <;> rw [hhandling] at hbusy <;> cases hbusy
          rfl
        subst hk
        obtain ⟨c', hc', -, hreload⟩ := h.armed a.operation armed harmed
        obtain rfl := Option.some.inj (hc.symm.trans hc')
        rw [hintent, hreload]
        exact ⟨[], s.log, rfl, List.forall_mem_nil _⟩
  · rcases List.mem_cons.mp hj with hj | hj
    · cases hj
    · exact h.gaveUp j hj
  · rcases List.mem_cons.mp hb with hb | hb
    · cases hb
    · exact h.cancelled b hb
  · rcases List.mem_cons.mp hj with hj | hj
    · cases hj
    · exact h.armed j at_ hj
  · rcases List.mem_cons.mp hj with hj | hj
    · cases hj
    · exact h.accepted j kind at_ hj

/-- STEP: a dialog is confirmed. -/
theorem Inv.accept {s : Transport} (h : s.Inv) (hidle : s.handling = none) {a : ReloadAttempt}
    (hactive : s.reloadDialogs.active = some a) (hfirst : a.accepted = false)
    (htime : s.now < a.deadline) :
    Inv { s with
      reloadDialogs := { s.reloadDialogs with active := some { a with accepted := true } }
      log := .accepted a.operation "beforeunload" s.now :: s.log } := by
  have hgranted := h.granted a hactive
  obtain ⟨armed, harmed, hdeadline⟩ := hgranted.deadline
  have hwritten : WrittenSince s.log a.operation := by
    rcases hgranted.written with hwritten | hbusy | hbusy
    · exact hwritten
    · rw [hidle] at hbusy
      cases hbusy
    · rw [hidle] at hbusy
      cases hbusy
  obtain ⟨c, hc, htaken, -⟩ := h.armed a.operation armed harmed
  refine ⟨fun b hb => ?_, fun j hj => ?_, fun b hb => ?_, h.known, fun j at_ hj => ?_,
    fun j kind at_ hj => ?_, h.handled, fun j stage hj => ?_, fun j c hj => ?_,
    ⟨fun op kind at_ he => ?_, h.accepts⟩⟩
  · cases hb
    refine ⟨⟨armed, List.mem_cons_of_mem _ harmed, hdeadline⟩, fun hmem => ?_, fun b hmem => ?_,
      fun hf => (by cases hf), .inl (hwritten.append (List.forall_mem_singleton.mpr rfl))⟩
    · rcases List.mem_cons.mp hmem with hmem | hmem
      · cases hmem
      · exact hgranted.kept hmem
    · rcases List.mem_cons.mp hmem with hmem | hmem
      · cases hmem
      · exact hgranted.uncancelled b hmem
  · rcases List.mem_cons.mp hj with hj | hj
    · cases hj
    · exact h.gaveUp j hj
  · rcases List.mem_cons.mp hb with hb | hb
    · cases hb
    · exact h.cancelled b hb
  · rcases List.mem_cons.mp hj with hj | hj
    · cases hj
    · exact h.armed j at_ hj
  · rcases List.mem_cons.mp hj with hj | hj
    · cases hj
      exact ⟨c, hc, htaken⟩
    · exact h.accepted j kind at_ hj
  · rw [hidle] at hj
    cases hj
  · rw [hidle] at hj
    cases hj
  · cases he
    exact ⟨rfl, hwritten, ⟨armed, harmed, hdeadline ▸ htime⟩, hgranted.kept,
      hgranted.uncancelled, hgranted.first hfirst⟩

/-- STEP: a dialog opens. -/
theorem Inv.openDialog {s : Transport} (h : s.Inv) (hidle : s.handling = none) (kind : String) :
    (s.openDialog kind).Inv := by
  have hexpired := h.expire
  rw [Transport.openDialog, ReloadDialogs.dialog]
  by_cases hkind : kind = "beforeunload"
  · subst hkind
    rw [if_neg (not_not_intro rfl)]
    cases hactive : (s.reloadDialogs.expire s.now).active with
    | none => exact hexpired
    | some a =>
      have htime : s.now < a.deadline := by
        rw [ReloadDialogs.expire] at hactive
        split at hactive
        · rename_i scope hscope
          split at hactive
          · cases hactive
          · rw [hscope] at hactive
            cases hactive
            omega
        · rename_i hnone
          rw [hnone] at hactive
          cases hactive
      dsimp only
      cases hfirst : a.accepted with
      | true => exact hexpired
      | false => exact hexpired.accept hidle hactive hfirst htime
  · rw [if_pos hkind]
    exact hexpired.clear

/-- STEP: the loop answers the command it is at without having armed it. -/
theorem Inv.refuse {s : Transport} (h : s.Inv) {k : Nat} {stage : HandlingStage}
    (hhandling : s.handling = some (k, stage)) (hstage : stage = .received ∨ stage = .admitted)
    {f : TransportCall → TransportCall} (hf : ∀ c, (f c).Follows c) : (s.update k f).idle.Inv := by
  refine (h.update k fun c _ => hf c).idle fun a _ => ⟨fun hbusy => ?_, fun hbusy => ?_⟩ <;>
    rw [show (s.update k f).handling = some (k, stage) from hhandling] at hbusy <;>
    rcases hstage with rfl | rfl <;> cases hbusy

/-- STEP: the loop arms its command, or goes on with one that needs no permission. -/
theorem Inv.armCommand {s : Transport} (h : s.Inv) {k : Nat} {c : TransportCall}
    (hhandling : s.handling = some (k, .admitted)) (hc : s.calls.get k = some c) :
    (s.armCommand k c).Inv := by
  obtain ⟨c', hc', htaken, -⟩ := h.handled k _ hhandling
  rw [Transport.armCommand]
  split
  · rename_i hreload
    cases harm : s.reloadDialogs.arm k s.now with
    | none => exact h.refuse hhandling (.inr rfl) fun c => follows_reply c false
    | some d => exact h.arm hhandling hc hreload harm
  · split
    · refine (h.cancelThrough k).handle (fun j stage hj => ?_) (fun j stage hj hstage => ?_)
        (fun _ _ _ _ _ => rfl) fun a ha => by cases ha
      · cases hj
        exact ⟨c', hc', htaken, fun hstage => by cases hstage⟩
      · cases hj
        rcases hstage with hstage | hstage <;> cases hstage
    · rename_i hintent
      refine h.handle (fun j stage hj => ?_) (fun j stage hj hstage => ?_)
        (fun j c' hj hc' hi => ?_) fun a ha hor => ?_
      · cases hj
        exact ⟨c', hc', htaken, fun hstage => by cases hstage⟩
      · cases hj
        rcases hstage with hstage | hstage <;> cases hstage
      · cases hj
        obtain rfl := Option.some.inj (hc.symm.trans hc')
        exact absurd hi hintent
      · rw [hhandling] at hor
        rcases hor with hor | hor <;> cases hor

/-- STEP: the caller may have gone while its reload was armed. -/
theorem Inv.recheck {s : Transport} (h : s.Inv) {k : Nat} {c : TransportCall}
    (hhandling : s.handling = some (k, .armed)) (hc : s.calls.get k = some c) :
    (if c.closed then
      ({ s with reloadDialogs := s.reloadDialogs.finish k }.update k TransportCall.forget).idle
    else { s with handling := some (k, .ready) }).Inv := by
  obtain ⟨c₀, hc₀, htaken, hreload⟩ := h.handled k _ hhandling
  obtain rfl := Option.some.inj (hc.symm.trans hc₀)
  split
  · have hfinish := h.finish k (List.forall_mem_nil _)
    have hforget := hfinish.update k (f := TransportCall.forget) fun _ _ => ⟨rfl, rfl, id⟩
    refine hforget.idle fun a ha => ?_
    have hne := (finish_active ha).2
    refine ⟨fun hbusy => ?_, fun hbusy => ?_⟩
    · rw [show _ = some (k, HandlingStage.armed) from hhandling] at hbusy
      cases hbusy
      exact hne rfl
    · rw [show _ = some (k, HandlingStage.armed) from hhandling] at hbusy
      cases hbusy
  · refine h.handle (fun j stage hj => ?_) (fun j stage hj hstage => ?_)
      (fun j c' hj hc' hi => ?_) fun a ha hor => ?_
    · cases hj
      exact ⟨c, hc, htaken, fun hstage => by cases hstage⟩
    · cases hj
      rcases hstage with hstage | hstage <;> cases hstage
    · cases hj
      obtain rfl := Option.some.inj (hc.symm.trans hc')
      rw [TransportCall.isIntent, hreload rfl] at hi
      cases hi
    · rw [hhandling] at hor
      rcases hor with hor | hor <;> cases hor
      exact .inr (.inr rfl)

theorem callerStep_eq_some {s s' : Transport} {k : Nat} {f : TransportCall → Option Transport} :
    s.callerStep k f = some s' ↔ ∃ c, s.calls.get k = some c ∧ f c = some s' :=
  Option.bind_eq_some_iff

theorem loopStep_eq_some {s s' : Transport} {stage : HandlingStage}
    {f : Nat → TransportCall → Option Transport} (h : s.loopStep stage f = some s') :
    ∃ k c, s.handling = some (k, stage) ∧ s.calls.get k = some c ∧ f k c = some s' := by
  rw [loopStep] at h
  split at h
  · rename_i k at_ hhandling
    split at h
    · rename_i hstage
      subst hstage
      obtain ⟨c, hc, hf⟩ := Option.bind_eq_some_iff.mp h
      exact ⟨k, c, hhandling, hc, hf⟩
    · cases h
  · cases h

theorem readStep_eq_some {s t s' : Transport} (h : s.readStep t = some s') :
    s.handling = none ∧ t = s' := by
  rw [readStep] at h
  split at h
  · rename_i hidle
    exact ⟨hidle.2, Option.some.inj h⟩
  · cases h

/-- STEP -/
theorem Inv.step {s s' : Transport} {m : TransportMove} (h : s.Inv) (hstep : s.step m = some s') :
    s'.Inv := by
  cases m with
  | beginReload revision =>
    cases hstep
    exact h.begin_ _
  | beginCall method revision =>
    cases hstep
    exact h.begin_ _
  | insert k =>
    obtain ⟨c, hc, hf⟩ := callerStep_eq_some.mp hstep
    split at hf
    · cases hf
      exact h.update k fun _ _ => ⟨rfl, rfl, id⟩
    · cases hf
  | send k =>
    obtain ⟨c, hc, hf⟩ := callerStep_eq_some.mp hstep
    split at hf
    · rename_i hguard
      cases hf
      refine h.update k fun c' hc' => ⟨rfl, rfl, fun htaken => ?_⟩
      obtain rfl := Option.some.inj (hc.symm.trans hc')
      rw [hguard.2] at htaken
      cases htaken
    · cases hf
  | sendFails k =>
    obtain ⟨c, hc, hf⟩ := callerStep_eq_some.mp hstep
    split at hf
    · cases hf
      exact h.update k fun _ _ => ⟨rfl, rfl, id⟩
    · cases hf
  | timeout k =>
    obtain ⟨c, hc, hf⟩ := callerStep_eq_some.mp hstep
    split at hf
    · cases hf
      exact h.update k fun _ _ => ⟨rfl, rfl, id⟩
    · cases hf
  | finish k =>
    obtain ⟨c, hc, hf⟩ := callerStep_eq_some.mp hstep
    split at hf
    · cases hf
      exact h.update k fun _ _ => ⟨rfl, rfl, id⟩
    · cases hf
      refine Inv.giveUp ?_ k c
      exact h.update k fun _ _ => ⟨rfl, rfl, id⟩
    · cases hf
      refine Inv.giveUp ?_ k c
      exact h.update k fun _ _ => ⟨rfl, rfl, id⟩
    · cases hf
  | drop k =>
    obtain ⟨c, hc, hf⟩ := callerStep_eq_some.mp hstep
    split at hf
    · cases hf
    · cases hf
    · cases hf
      refine Inv.giveUp ?_ k c
      exact h.update k fun _ _ => ⟨rfl, rfl, id⟩
  | takeBarrier =>
    cases hstep
    exact (h.beside s.now s.revision (s.next :: s.barriers) s.alive).calls
      (fun k c hc => Nat.lt_succ_of_lt (h.known k c hc)) fun k c hc => ⟨c, hc, rfl, rfl, id⟩
  | applyBarrier barrier =>
    rw [Transport.step] at hstep
    split at hstep
    · cases hstep
      refine (h.beside s.now s.revision (s.barriers.erase barrier) s.alive).retire
        (d := s.reloadDialogs.cancelThrough barrier) (fun a ha => by cases ha)
        (Nat.le_max_left _ _) (List.forall_mem_singleton.mpr (.inr (.inl ?_)))
      exact ⟨barrier, rfl, Nat.le_max_right _ _⟩
    · cases hstep
  | tick d =>
    cases hstep
    exact h.beside (s.now + d) s.revision s.barriers s.alive
  | expire =>
    obtain ⟨hidle, rfl⟩ := readStep_eq_some hstep
    exact h.expire
  | receive k =>
    rw [Transport.step] at hstep
    split at hstep
    · rename_i hidle
      obtain ⟨c, hc, hf⟩ := callerStep_eq_some.mp hstep
      split at hf
      · rename_i hchannel
        cases hf
        have htake := h.update k (f := fun c => { c with command := .taken })
          fun _ _ => ⟨rfl, rfl, fun _ => rfl⟩
        refine htake.handle (fun j stage hj => ?_) (fun j stage hj _ kind at_ hmem => ?_)
          (fun j c hj => by cases hj) fun a _ hor => ?_
        · cases hj
          refine ⟨{ c with command := .taken }, ?_, rfl, fun hstage => by cases hstage⟩
          rw [Transport.update, Table.get_modify, if_pos rfl, hc]
          rfl
        · cases hj
          obtain ⟨c', hc', htaken⟩ := h.accepted k kind at_ hmem
          obtain rfl := Option.some.inj (hc.symm.trans hc')
          rw [hchannel] at htaken
          cases htaken
        · rw [show (s.update k _).handling = none from hidle.2] at hor
          rcases hor with hor | hor <;> cases hor
      · cases hf
    · cases hstep
  | check =>
    obtain ⟨k, c, hhandling, hc, hf⟩ := loopStep_eq_some hstep
    split at hf
    · cases hf
      exact h.refuse hhandling (.inl rfl) fun _ => ⟨rfl, rfl, id⟩
    · split at hf
      · cases hf
        exact h.refuse hhandling (.inl rfl) fun c => follows_reply c false
      · cases hf
        refine h.handle (fun j stage hj => ?_) (fun j stage hj _ => ?_)
          (fun j c hj => by cases hj) fun a _ hor => ?_
        · cases hj
          obtain ⟨c', hc', htaken, -⟩ := h.handled k _ hhandling
          exact ⟨c', hc', htaken, fun hstage => by cases hstage⟩
        · cases hj
          exact h.early k _ hhandling (.inl rfl)
        · rw [hhandling] at hor
          rcases hor with hor | hor <;> cases hor
  | arm =>
    obtain ⟨k, c, hhandling, hc, hf⟩ := loopStep_eq_some hstep
    cases hf
    exact h.armCommand hhandling hc
  | recheck =>
    obtain ⟨k, c, hhandling, hc, hf⟩ := loopStep_eq_some hstep
    have hrecheck := h.recheck hhandling hc
    split at hf
    · rename_i hclosed
      cases hf
      rwa [if_pos hclosed] at hrecheck
    · rename_i hopen
      cases hf
      rwa [if_neg hopen] at hrecheck
  | write =>
    obtain ⟨k, c, hhandling, hc, hf⟩ := loopStep_eq_some hstep
    cases hf
    exact h.write hhandling hc
  | stop =>
    rw [Transport.step] at hstep
    split at hstep
    · cases hstep
      have hended := (h.cancelThrough U64_MAX).idle fun a ha => by cases ha
      refine (hended.beside s.now s.revision s.barriers false).calls (fun k c hc => ?_)
        fun k c hc => ?_
      · rw [Table.get_map] at hc
        obtain ⟨c', hc', -⟩ := Option.map_eq_some_iff.mp hc
        exact h.known k c' hc'
      · have hget : s.calls.get k = some c := hc
        exact ⟨c.reply false, by rw [Table.get_map, hget]; rfl, follows_reply c false⟩
    · cases hstep
  | dropTransport =>
    cases hstep
    exact h.cancelThrough U64_MAX
  | respond k ok =>
    obtain ⟨hidle, rfl⟩ := readStep_eq_some hstep
    exact h.update k fun c _ => follows_reply c ok
  | acceptRefused operation =>
    obtain ⟨hidle, rfl⟩ := readStep_eq_some hstep
    exact h.finish operation (List.forall_mem_nil _)
  | dialog kind =>
    obtain ⟨hidle, rfl⟩ := readStep_eq_some hstep
    exact h.openDialog hidle kind
  | dialogClosed result =>
    obtain ⟨hidle, rfl⟩ := readStep_eq_some hstep
    split
    · exact h
    · exact h.clear
  | navigated =>
    obtain ⟨hidle, rfl⟩ := readStep_eq_some hstep
    exact (h.beside s.now (s.revision + 1) s.barriers s.alive).retire
      (d := s.reloadDialogs.clear) (fun a ha => by cases ha) (Nat.le_refl _)
      (List.forall_mem_singleton.mpr (.inr (.inr rfl)))
  | pageChanged =>
    obtain ⟨hidle, rfl⟩ := readStep_eq_some hstep
    exact h.beside s.now (s.revision + 1) s.barriers s.alive

/-- RUN: the invariant holds in every state that can be reached. -/
theorem Inv.reaches {s : Transport} (h : Machine.Reaches Transport.step {} s) : s.Inv :=
  h.invariant (fun _ _ _ hinv hstep => hinv.step hstep) Inv.init

/-- SAFETY: a dialog is confirmed only for the reload that is armed: one whose command was written,
    at most 20 seconds after it was armed, that its caller has not given up and nobody has cancelled,
    with no navigation, no input and no commit since; and for one reload at most once. -/
theorem accepted_permitted {s : Transport} (hrun : Machine.Reaches step {} s)
    {later earlier : List TransportEvent} {operation : Nat} {kind : String} {at_ : Nat}
    (hlog : s.log = later ++ .accepted operation kind at_ :: earlier) :
    Permitted earlier operation kind at_ :=
  (Inv.reaches hrun).accepts.permitted hlog

/-- A reload that is asked for, written and confirmed, and its caller gone afterwards. -/
theorem reload_accepted : ∃ s, Machine.Reaches step {} s ∧
    s.log = [.gaveUp 1, .accepted 1 "beforeunload" 7, .wrote 1 true false, .armed 1 0] ∧
    Permitted [.wrote 1 true false, .armed 1 0] 1 "beforeunload" 7 := by
  have hrun : ∃ s, Machine.exec step {} [.beginReload 1, .insert 1, .send 1, .receive 1, .check,
      .arm, .recheck, .write, .tick 7, .dialog "beforeunload", .drop 1] = some s ∧
      s.log = [.gaveUp 1, .accepted 1 "beforeunload" 7, .wrote 1 true false, .armed 1 0] :=
    Machine.exec_eval (by decide +kernel)
  obtain ⟨s, hs, hlog⟩ := hrun
  refine ⟨s, ⟨_, hs⟩, hlog, ?_⟩
  have hsplit : s.log =
      [.gaveUp 1] ++ .accepted 1 "beforeunload" 7 :: [.wrote 1 true false, .armed 1 0] := by
    rw [hlog]
    rfl
  exact accepted_permitted ⟨_, hs⟩ hsplit

end Transport

end Gamer.Browser
