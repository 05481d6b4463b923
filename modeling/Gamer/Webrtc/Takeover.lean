import Gamer.Webrtc.Viewer

/-! Who may end whose viewer. Each of three windows lets another session in:

        offer without force:   occupied? no ─────┊────▶ insert          (another has registered)
        exit:                  mine? yes ────────┊────▶ remove          (another has registered)
        exit:                  mine? no ─────────┊────▶ gone            (not stopped yet)

    A run in which nobody comes in is exactly one in which viewers are taken over by force only, a
    session's exit ends its own viewer only, and no viewer outlives its session. -/

namespace Gamer.Webrtc
open Gamer.Lib

/-- The sessions whose viewer may be the registered one. -/
def SessionPhase.shown : SessionPhase → Bool
  | .replacing _ | .watching | .leaving | .removing => true
  | .reading | .creating _ | .created _ | .tearing _ | .ended => false

/-- The sessions that have no viewer yet. -/
def SessionPhase.early : SessionPhase → Bool
  | .reading | .creating _ => true
  | _ => false

/-- INVARIANT of one session. -/
structure Session.Sound (registered : Option Nat) (log : List ViewerEvent) (k : Nat)
    (se : Session) : Prop where
  shown : registered = some k → se.phase.shown = true
  early : se.phase.early = true → se.viewer = none
  tearing : ∀ t, se.phase = .tearing t → .tornDown k t.viewer ∈ log
  stopped : ∀ t, se.phase = .tearing t → t.viewer = k → t.stage ≠ .taken → se.isRunning = false

/-- No session has ended with its viewer running. -/
def Session.Quiet (se : Session) : Prop := se.phase = .ended → se.isRunning = false

@[simp] theorem Session.isRunning_stop (se : Session) (reason : ViewerDisconnectReason) :
    (se.stop reason).isRunning = false := by
  cases hv : se.viewer <;> simp [Session.isRunning, Session.stop, hv]

@[simp] theorem Session.isRunning_closePeer (se : Session) : se.closePeer.isRunning = false := by
  cases hv : se.viewer <;> simp [Session.isRunning, Session.closePeer, hv]

namespace Hub

/-- INVARIANT of every run. -/
structure Inv (s : Hub) : Prop where
  known : ∀ k, s.registered = some k → k < s.sessions.length
  sessions : ∀ (k : Nat) (se : Session), s.sessions[k]? = some se → se.Sound s.registered s.log k

/-- What has been done to viewers was allowed. -/
structure Allowed (log : List ViewerEvent) : Prop where
  exits : ∀ k v, .tornDown k v ∈ log → v = k
  takeovers : ∀ k force old, .takenOver k force old true ∈ log → force = true

def Quiet (s : Hub) : Prop := ∀ (k : Nat) (se : Session), s.sessions[k]? = some se → se.Quiet

/-- The viewers are in order: (a) a session's exit tears down its own viewer only, (b) a running
    viewer is taken over by force only, (c) a running viewer is the registered one or its session
    goes on; at the end nothing is left. -/
structure Orderly (s : Hub) : Prop where
  exits : ∀ k v, .tornDown k v ∈ s.log → v = k
  takeovers : ∀ k force old, .takenOver k force old true ∈ s.log → force = true
  held : ∀ (k : Nat) (se : Session), s.sessions[k]? = some se → se.isRunning = true →
    s.registered = some k ∨ se.phase ≠ .ended
  cleared : (∀ se ∈ s.sessions, se.phase = .ended) →
    s.registered = none ∧ ∀ se ∈ s.sessions, se.isRunning = false

/-- Nobody has come in. -/
def Undisturbed (s : Hub) : HubMove → Prop
  | .register k => s.phase k = some (.created false) → s.occupied = false
  | .check k => s.registered = some k ∨ s.running k = false
  | .remove k => s.registered = some k ∨ (s.registered = none ∧ s.running k = false)
  | _ => True

instance Undisturbed.decidable (s : Hub) : ∀ m, Decidable (s.Undisturbed m)
  | .register k => inferInstanceAs
      (Decidable (s.phase k = some (.created false) → s.occupied = false))
  | .check k => inferInstanceAs (Decidable (s.registered = some k ∨ s.running k = false))
  | .remove k => inferInstanceAs
      (Decidable (s.registered = some k ∨ (s.registered = none ∧ s.running k = false)))
  | .connect | .offer .. | .quit _ | .create .. | .leave .. | .tear _ | .disconnect
  | .tearDisconnect _ | .fail _ => inferInstanceAs (Decidable True)

/-! ### Edits -/

theorem getElem?_edit (s : Hub) (k j : Nat) (f : Session → Session) :
    (s.edit k f).sessions[j]? = (s.sessions[j]?).map fun se => if j = k then f se else se := by
  simp only [edit, List.getElem?_modify, Option.map_eq_map, eq_comm (a := j)]

theorem phase_eq_some {s : Hub} {k : Nat} {p : SessionPhase} :
    s.phase k = some p ↔ ∃ se, s.sessions[k]? = some se ∧ se.phase = p := by
  simp [phase, Option.map_eq_some_iff]

theorem running_of_get {s : Hub} {k : Nat} {se : Session} (h : s.sessions[k]? = some se) :
    s.running k = se.isRunning := by
  simp [running, h]

/-- STEP: one session changes, and what is registered and logged with it. -/
theorem Inv.edit {s : Hub} (h : s.Inv) {k : Nat} {f : Session → Session} {registered : Option Nat}
    {log : List ViewerEvent} (hlog : ∀ e ∈ s.log, e ∈ log)
    (hreg : ∀ j, registered = some j → s.registered = some j ∨ (j = k ∧ k < s.sessions.length))
    (hf : ∀ se, s.sessions[k]? = some se → se.Sound s.registered s.log k →
      (f se).Sound registered log k) :
    Inv { s.edit k f with registered := registered, log := log } := by
  refine ⟨fun j hj => ?_, fun j se hse => ?_⟩
  · have hlen : (s.edit k f).sessions.length = s.sessions.length := by simp [Hub.edit]
    rw [hlen]
    rcases hreg j hj with hj | ⟨rfl, hk⟩
    · exact h.known j hj
    · exact hk
  · rw [getElem?_edit] at hse
    obtain ⟨se₀, hse₀, rfl⟩ := Option.map_eq_some_iff.mp hse
    have hsound := h.sessions j se₀ hse₀
    by_cases hjk : j = k
    · subst hjk
      simpa using hf se₀ hse₀ hsound
    · rw [if_neg hjk]
      refine ⟨fun hj => hsound.shown ?_, hsound.early,
        fun t ht => hlog _ (hsound.tearing t ht), hsound.stopped⟩
      rcases hreg j hj with hj | ⟨hj, _⟩
      · exact hj
      · exact absurd hj hjk

/-- The sessions stay quiet exactly if the one that changes does. -/
theorem Quiet.edit_iff {s : Hub} (h : s.Quiet) {k : Nat} {se : Session}
    (hse : s.sessions[k]? = some se) (f : Session → Session) :
    (s.edit k f).Quiet ↔ (f se).Quiet := by
  constructor
  · intro hq
    exact hq k (f se) (by simp [getElem?_edit, hse])
  · intro hq j se' hse'
    rw [getElem?_edit] at hse'
    obtain ⟨se₀, hse₀, rfl⟩ := Option.map_eq_some_iff.mp hse'
    by_cases hjk : j = k
    · subst hjk
      obtain rfl := Option.some.inj (hse.symm.trans hse₀)
      simpa using hq
    · simpa [hjk] using h j se₀ hse₀

/-- Edits of a viewer that never make it run keep the sessions quiet. -/
theorem Quiet.edit {s : Hub} (h : s.Quiet) {k : Nat} {f : Session → Session}
    (hf : ∀ se : Session, se.Quiet → (f se).Quiet) : (s.edit k f).Quiet := by
  intro j se hse
  rw [getElem?_edit] at hse
  obtain ⟨se₀, hse₀, rfl⟩ := Option.map_eq_some_iff.mp hse
  by_cases hjk : j = k
  · simpa [hjk] using hf se₀ (h j se₀ hse₀)
  · simpa [hjk] using h j se₀ hse₀

/-! ### One part of a teardown -/

/-- STEP: a teardown changes the viewer it is about, and that only to stop it. -/
theorem Inv.tear {s : Hub} (h : s.Inv) (t : Teardown) : (s.tear t).1.Inv := by
  have hstill : ∀ f : Session → Session, (∀ se, (f se).phase = se.phase) →
      (∀ se, se.viewer = none → (f se).viewer = none) → (∀ se, (f se).isRunning = false) →
      (s.edit t.viewer f).Inv := by
    intro f hphase hviewer hrunning
    refine h.edit (fun e he => he) (fun j hj => Or.inl hj) fun se hse hsound => ?_
    refine ⟨fun hk => hphase se ▸ hsound.shown hk, fun he => hviewer se (hsound.early ?_),
      fun t ht => hsound.tearing t ?_, fun t _ _ _ => hrunning se⟩
    · rwa [hphase se] at he
    · rwa [hphase se] at ht
  simp only [Hub.tear]
  split
  · exact hstill _ (fun _ => rfl) (fun se hv => by simp [Session.stop, hv]) (by simp)
  · exact h
  · exact hstill _ (fun _ => rfl) (fun se hv => by simp [Session.closePeer, hv]) (by simp)

theorem Quiet.tear {s : Hub} (h : s.Quiet) (t : Teardown) : (s.tear t).1.Quiet := by
  simp only [Hub.tear]
  split
  · exact h.edit fun se _ _ => by simp
  · exact h
  · exact h.edit fun se _ _ => by simp

/-- FRAME: a teardown leaves the registry, the log and the phases alone. -/
theorem tear_frame (s : Hub) (t : Teardown) : (s.tear t).1.registered = s.registered ∧
    (s.tear t).1.log = s.log ∧ (s.tear t).1.disconnects = s.disconnects ∧
    ∀ k se, s.sessions[k]? = some se → ∃ se', (s.tear t).1.sessions[k]? = some se' ∧
      se'.phase = se.phase ∧ (k = t.viewer → t.stage = .taken → se'.isRunning = false) ∧
      (se.isRunning = false → se'.isRunning = false) := by
  have hedit : ∀ f : Session → Session, (∀ se, (f se).phase = se.phase) →
      (∀ se, (f se).isRunning = false) → ∀ k se, s.sessions[k]? = some se →
      ∃ se', (s.edit t.viewer f).sessions[k]? = some se' ∧ se'.phase = se.phase ∧
        (k = t.viewer → t.stage = .taken → se'.isRunning = false) ∧
        (se.isRunning = false → se'.isRunning = false) := by
    intro f hphase hrunning k se hse
    refine ⟨_, by rw [getElem?_edit, hse]; rfl, ?_⟩
    by_cases hk : k = t.viewer <;> simp [hk, hphase, hrunning]
  simp only [Hub.tear]
  split
  · exact ⟨rfl, rfl, rfl, hedit _ (fun _ => rfl) (by simp)⟩
  · rename_i hstage
    exact ⟨rfl, rfl, rfl, fun k se hse => ⟨se, hse, rfl, by simp [hstage], id⟩⟩
  · exact ⟨rfl, rfl, rfl, hedit _ (fun _ => rfl) (by simp)⟩

theorem tear_next {s : Hub} {t t' : Teardown} (h : (s.tear t).2 = some t') :
    t'.viewer = t.viewer ∧ t'.stage ≠ .taken := by
  simp only [Hub.tear] at h
  split at h <;> cases h <;> simp

theorem tear_last {s : Hub} {t : Teardown} (h : (s.tear t).2 = none) : t.stage = .released := by
  simp only [Hub.tear] at h
  split at h
  · cases h
  · cases h
  · assumption

/-! ### The invariant -/

/-- STEP: a session enters another phase, but not a teardown of its exit. -/
theorem Inv.enter {s : Hub} (h : s.Inv) {k : Nat} {p : SessionPhase}
    (hshown : s.registered = some k → p.shown = true)
    (hearly : p.early = true → ∃ p₀, s.phase k = some p₀ ∧ p₀.early = true)
    (hp : ∀ t, p ≠ .tearing t) : (s.enter k p).Inv := by
  refine h.edit (fun e he => he) (fun j hj => Or.inl hj) fun se hse hsound => ?_
  refine ⟨hshown, fun he => hsound.early ?_, fun t ht => absurd ht (hp t),
    fun t ht => absurd ht (hp t)⟩
  obtain ⟨p₀, hp₀, he₀⟩ := hearly he
  obtain ⟨se₀, hse₀, rfl⟩ := phase_eq_some.mp hp₀
  obtain rfl := Option.some.inj (hse.symm.trans hse₀)
  exact he₀

/-- A session whose phase does not show its viewer has none registered. -/
theorem Inv.not_registered {s : Hub} (h : s.Inv) {k : Nat} {p : SessionPhase}
    (hp : s.phase k = some p) (hshown : p.shown = false) : s.registered ≠ some k := by
  intro hreg
  obtain ⟨se, hse, rfl⟩ := phase_eq_some.mp hp
  simp [(h.sessions k se hse).shown hreg] at hshown

theorem Inv.connect {s : Hub} (h : s.Inv) : Inv { s with sessions := s.sessions ++ [{}] } := by
  refine ⟨fun k hk => ?_, fun k se hse => ?_⟩
  · have hlt := h.known k hk
    simp only [List.length_append, List.length_singleton]
    omega
  · rcases Nat.lt_trichotomy k s.sessions.length with hlt | rfl | hgt
    · rw [List.getElem?_append_left hlt] at hse
      exact h.sessions k se hse
    · obtain rfl : {} = se := by simpa using hse
      exact ⟨fun hreg => absurd (h.known _ hreg) (Nat.lt_irrefl _), fun _ => rfl, by simp, by simp⟩
    · rw [List.getElem?_eq_none (by simp; omega)] at hse
      cases hse

/-- STEP: a viewer is registered. -/
theorem Inv.register {s : Hub} (h : s.Inv) {k : Nat} {force : Bool}
    (hp : s.phase k = some (.created force)) : (s.register k force).Inv := by
  obtain ⟨se₀, hse₀, _⟩ := phase_eq_some.mp hp
  have hlt : k < s.sessions.length := (List.getElem?_eq_some_iff.mp hse₀).1
  simp only [Hub.register]
  split
  · refine h.edit (fun e he => he) (fun j hj => Or.inr ⟨by cases hj; rfl, hlt⟩) fun se _ _ => ?_
    exact ⟨by simp [SessionPhase.shown], by simp [SessionPhase.early], by simp, by simp⟩
  · refine h.edit (fun e he => List.mem_cons_of_mem _ he)
      (fun j hj => Or.inr ⟨by cases hj; rfl, hlt⟩) fun se _ _ => ?_
    exact ⟨by simp [SessionPhase.shown], by simp [SessionPhase.early], by simp, by simp⟩

/-- STEP: a session's exit removes what is registered. -/
theorem Inv.remove {s : Hub} (h : s.Inv) (k : Nat) : (s.remove k).Inv := by
  simp only [Hub.remove]
  split
  · rename_i hnone
    exact h.enter (by simp [hnone]) (by simp [SessionPhase.early]) (by simp)
  · refine h.edit (fun e he => List.mem_cons_of_mem _ he) (by simp) fun se _ _ => ?_
    refine ⟨by simp, by simp [SessionPhase.early], ?_, ?_⟩
    · rintro t ht
      cases ht
      exact List.mem_cons_self
    · rintro t ht _ hstage
      cases ht
      exact absurd rfl hstage

/-- STEP: a session goes on with the teardown in its hands. -/
theorem Inv.tearing {s : Hub} (h : s.Inv) {k : Nat} {t : Teardown}
    (hp : s.phase k = some (.tearing t)) :
    ((s.tear t).1.enter k ((s.tear t).2.elim .ended .tearing)).Inv := by
  obtain ⟨hreg, hlog, _, hafter⟩ := s.tear_frame t
  obtain ⟨se₀, hse₀, hphase⟩ := phase_eq_some.mp hp
  have hnot := h.not_registered hp rfl
  cases hnext : (s.tear t).2 with
  | none =>
    exact (h.tear t).enter (by simp [hreg, hnot]) (by simp [SessionPhase.early]) (by simp)
  | some t' =>
    obtain ⟨hv, hstage⟩ := tear_next hnext
    refine (h.tear t).edit (fun e he => he) (fun j hj => Or.inl hj) fun se hse hsound => ?_
    obtain ⟨se', hse', hphase', hstop, hkeep⟩ := hafter k se₀ hse₀
    obtain rfl := Option.some.inj (hse.symm.trans hse')
    refine ⟨fun hk => absurd (hreg ▸ hk) hnot, by simp [SessionPhase.early], ?_, ?_⟩
    · rintro t₁ ht₁
      cases ht₁
      rw [hv]
      exact hsound.tearing t (hphase'.trans hphase)
    · rintro t₁ ht₁ hk _
      cases ht₁
      rw [hv] at hk
      by_cases htaken : t.stage = .taken
      · exact hstop hk.symm htaken
      · exact hkeep ((h.sessions k se₀ hse₀).stopped t hphase hk htaken)

/-- INVARIANT: kept by every move. -/
theorem Inv.step {s s' : Hub} {m : HubMove} (h : s.Inv) (hs : s.step m = some s') : s'.Inv := by
  cases m with
  | connect =>
    obtain rfl := Option.some.inj hs
    exact h.connect
  | offer k force =>
    simp only [Hub.step, Option.ite_none_right_eq_some, Option.some.injEq] at hs
    obtain ⟨hp, rfl⟩ := hs
    split
    · exact h
    · exact h.enter (fun hk => absurd hk (h.not_registered hp rfl)) (fun _ => ⟨_, hp, rfl⟩) (by simp)
  | quit k =>
    simp only [Hub.step, Option.ite_none_right_eq_some, Option.some.injEq] at hs
    obtain ⟨hp, rfl⟩ := hs
    exact h.enter (fun hk => absurd hk (h.not_registered hp rfl)) (by simp [SessionPhase.early])
      (by simp)
  | create k ok =>
    simp only [Hub.step] at hs
    split at hs
    · rename_i force hp
      obtain rfl := Option.some.inj hs
      have hnot := h.not_registered hp rfl
      refine h.edit (fun e he => he) (fun j hj => Or.inl hj) fun se _ _ => ?_
      cases ok
      · exact ⟨fun hk => absurd hk hnot, by simp [SessionPhase.early], by simp, by simp⟩
      · exact ⟨fun hk => absurd hk hnot, by simp [SessionPhase.early], by simp, by simp⟩
    · cases hs
  | register k =>
    simp only [Hub.step] at hs
    split at hs
    · rename_i force hp
      obtain rfl := Option.some.inj hs
      exact h.register hp
    · cases hs
  | leave k cause =>
    simp only [Hub.step, Option.ite_none_right_eq_some, Option.some.injEq] at hs
    obtain ⟨_, rfl⟩ := hs
    exact h.enter (fun _ => rfl) (by simp [SessionPhase.early]) (by simp)
  | check k =>
    simp only [Hub.step, Option.ite_none_right_eq_some, Option.some.injEq] at hs
    obtain ⟨_, rfl⟩ := hs
    split
    · exact h.enter (fun _ => rfl) (by simp [SessionPhase.early]) (by simp)
    · rename_i hreg
      exact h.enter (fun hk => absurd hk hreg) (by simp [SessionPhase.early]) (by simp)
  | remove k =>
    simp only [Hub.step, Option.ite_none_right_eq_some, Option.some.injEq] at hs
    obtain ⟨_, rfl⟩ := hs
    exact h.remove k
  | tear k =>
    simp only [Hub.step] at hs
    split at hs
    · rename_i t hp
      obtain rfl := Option.some.inj hs
      refine (h.tear t).enter (fun _ => ?_) ?_ ?_
      all_goals cases (s.tear t).2 <;> simp [SessionPhase.shown, SessionPhase.early]
    · rename_i t hp
      obtain rfl := Option.some.inj hs
      exact h.tearing hp
    · cases hs
  | disconnect =>
    simp only [Hub.step] at hs
    split at hs
    · obtain rfl := Option.some.inj hs
      exact h
    · obtain rfl := Option.some.inj hs
      refine ⟨by simp, fun k se hse => ?_⟩
      have hsound := h.sessions k se hse
      exact ⟨by simp, hsound.early, hsound.tearing, hsound.stopped⟩
  | tearDisconnect i =>
    simp only [Hub.step] at hs
    split at hs
    · cases hs
    · rename_i t _
      obtain rfl := Option.some.inj hs
      have hinv := h.tear t
      exact ⟨hinv.known, hinv.sessions⟩
  | fail k =>
    obtain rfl := Option.some.inj hs
    refine h.edit (fun e he => he) (fun j hj => Or.inl hj) fun se _ hsound => ?_
    refine ⟨hsound.shown, fun he => ?_, hsound.tearing, fun _ _ _ _ => by simp⟩
    simp [Session.closePeer, hsound.early he]

/-! ### What a move keeps, exactly -/

theorem Quiet.enter {s : Hub} (h : s.Quiet) {k : Nat} {p : SessionPhase} (hp : p ≠ .ended) :
    (s.enter k p).Quiet :=
  h.edit fun _ _ he => absurd he hp

theorem Quiet.end_iff {s : Hub} (h : s.Quiet) {k : Nat} {p : SessionPhase}
    (hp : s.phase k = some p) : (s.enter k .ended).Quiet ↔ s.running k = false := by
  obtain ⟨se, hse, _⟩ := phase_eq_some.mp hp
  rw [Hub.enter, h.edit_iff hse, running_of_get hse]
  simp [Session.Quiet, Session.isRunning]

/-- A session without a viewer runs none. -/
theorem Inv.not_running {s : Hub} (h : s.Inv) {k : Nat} {p : SessionPhase}
    (hp : s.phase k = some p) (he : p.early = true) : s.running k = false := by
  obtain ⟨se, hse, rfl⟩ := phase_eq_some.mp hp
  simp [running_of_get hse, Session.isRunning, (h.sessions k se hse).early he]

theorem allowed_takenOver_iff {log : List ViewerEvent} (h : Allowed log) {k old : Nat}
    {force running : Bool} :
    Allowed (.takenOver k force old running :: log) ↔ (running = true → force = true) := by
  constructor
  · rintro ha rfl
    exact ha.takeovers k force old List.mem_cons_self
  · intro hforce
    refine ⟨fun j v hj => h.exits j v (by simpa using hj), fun j f o hj => ?_⟩
    simp only [List.mem_cons, ViewerEvent.takenOver.injEq] at hj
    rcases hj with ⟨rfl, rfl, rfl, hrun⟩ | hj
    · exact hforce hrun.symm
    · exact h.takeovers j f o hj

theorem allowed_tornDown_iff {log : List ViewerEvent} (h : Allowed log) {k v : Nat} :
    Allowed (.tornDown k v :: log) ↔ v = k := by
  constructor
  · intro ha
    exact ha.exits k v List.mem_cons_self
  · rintro rfl
    refine ⟨fun j w hj => ?_, fun j f o hj => h.takeovers j f o (by simpa using hj)⟩
    simp only [List.mem_cons, ViewerEvent.tornDown.injEq] at hj
    rcases hj with ⟨rfl, rfl⟩ | hj
    · rfl
    · exact h.exits j w hj

/-- STEP: the end of a session's own teardown. -/
theorem Quiet.tearing {s : Hub} (h : s.Quiet) (hinv : s.Inv) (ha : Allowed s.log) {k : Nat}
    {t : Teardown} (hp : s.phase k = some (.tearing t)) :
    ((s.tear t).1.enter k ((s.tear t).2.elim .ended .tearing)).Quiet := by
  cases hnext : (s.tear t).2 with
  | some t' => exact (h.tear t).enter (by simp)
  | none =>
    obtain ⟨_, _, _, hafter⟩ := s.tear_frame t
    obtain ⟨se, hse, hphase⟩ := phase_eq_some.mp hp
    obtain ⟨se', hse', _, _, hkeep⟩ := hafter k se hse
    have hsound := hinv.sessions k se hse
    have hown : t.viewer = k := ha.exits k _ (hsound.tearing t hphase)
    have hstop : se.isRunning = false :=
      hsound.stopped t hphase hown (by simp [tear_last hnext])
    refine ((h.tear t).end_iff (k := k) (phase_eq_some.mpr ⟨se', hse', rfl⟩)).mpr ?_
    rw [running_of_get hse']
    exact hkeep hstop

/-- STEP: a move keeps the viewers in order exactly if nobody has come in. -/
theorem step_iff {s s' : Hub} {m : HubMove} (hinv : s.Inv) (ha : Allowed s.log) (hq : s.Quiet)
    (hs : s.step m = some s') : Allowed s'.log ∧ s'.Quiet ↔ s.Undisturbed m := by
  cases m with
  | connect =>
    obtain rfl := Option.some.inj hs
    refine iff_of_true ⟨ha, fun k se hse => ?_⟩ trivial
    rcases List.mem_append.mp (List.mem_of_getElem? hse) with hmem | hmem
    · obtain ⟨j, hj⟩ := List.mem_iff_getElem?.mp hmem
      exact hq j se hj
    · simp only [List.mem_singleton] at hmem
      subst hmem
      exact fun _ => rfl
  | offer k force =>
    simp only [Hub.step, Option.ite_none_right_eq_some, Option.some.injEq] at hs
    obtain ⟨hp, rfl⟩ := hs
    split
    · exact iff_of_true ⟨ha, hq⟩ trivial
    · exact iff_of_true ⟨ha, hq.enter (by simp)⟩ trivial
  | quit k =>
    simp only [Hub.step, Option.ite_none_right_eq_some, Option.some.injEq] at hs
    obtain ⟨hp, rfl⟩ := hs
    exact iff_of_true ⟨ha, (hq.end_iff hp).mpr (hinv.not_running hp rfl)⟩ trivial
  | create k ok =>
    simp only [Hub.step] at hs
    split at hs
    · rename_i force hp
      obtain rfl := Option.some.inj hs
      refine iff_of_true ⟨ha, ?_⟩ trivial
      cases ok with
      | false => exact (hq.end_iff hp).mpr (hinv.not_running hp rfl)
      | true => exact hq.edit fun se _ he => by simp at he
    · cases hs
  | register k =>
    simp only [Hub.step] at hs
    split at hs
    · rename_i force hp
      obtain rfl := Option.some.inj hs
      simp only [Hub.register, Undisturbed, hp, Option.some.injEq, SessionPhase.created.injEq]
      cases hreg : s.registered with
      | none =>
        exact iff_of_true ⟨ha, hq.enter (by simp)⟩ fun _ => by simp [occupied, hreg]
      | some old =>
        have hquiet : (s.enter k (.replacing ⟨old, .takenOver, .taken⟩)).Quiet :=
          hq.enter (by simp)
        refine ⟨fun h hforce => ?_, fun h => ⟨(allowed_takenOver_iff ha).mpr fun hrun => ?_, hquiet⟩⟩
        · have hallowed := (allowed_takenOver_iff ha).mp h.1
          cases hrun : s.running old <;> simp_all [occupied]
        · cases force <;> simp_all [occupied]
    · cases hs
  | leave k cause =>
    simp only [Hub.step, Option.ite_none_right_eq_some, Option.some.injEq] at hs
    obtain ⟨_, rfl⟩ := hs
    exact iff_of_true ⟨ha, hq.enter (by simp)⟩ trivial
  | check k =>
    simp only [Hub.step, Option.ite_none_right_eq_some, Option.some.injEq] at hs
    obtain ⟨hp, rfl⟩ := hs
    by_cases hreg : s.registered = some k
    · rw [if_pos hreg]
      exact iff_of_true ⟨ha, hq.enter (by simp)⟩ (Or.inl hreg)
    · rw [if_neg hreg]
      simp only [Undisturbed, hreg, false_or]
      rw [← hq.end_iff hp]
      exact and_iff_right ha
  | remove k =>
    simp only [Hub.step, Option.ite_none_right_eq_some, Option.some.injEq] at hs
    obtain ⟨hp, rfl⟩ := hs
    simp only [Hub.remove, Undisturbed]
    cases hreg : s.registered with
    | none =>
      simp only [true_and, reduceCtorEq, false_or]
      rw [← hq.end_iff hp]
      exact and_iff_right ha
    | some v =>
      have hquiet : (s.enter k (.tearing ⟨v, .peerClosed, .taken⟩)).Quiet := hq.enter (by simp)
      simp only [Option.some.injEq, reduceCtorEq, false_and, or_false]
      exact (and_iff_left hquiet).trans (allowed_tornDown_iff ha)
  | tear k =>
    simp only [Hub.step] at hs
    split at hs
    · rename_i t hp
      obtain rfl := Option.some.inj hs
      obtain ⟨_, hlog, _, _⟩ := s.tear_frame t
      refine iff_of_true ⟨?_, ?_⟩ trivial
      · exact hlog.symm ▸ ha
      · exact (hq.tear t).enter (by cases (s.tear t).2 <;> simp)
    · rename_i t hp
      obtain rfl := Option.some.inj hs
      obtain ⟨_, hlog, _, _⟩ := s.tear_frame t
      exact iff_of_true ⟨hlog.symm ▸ ha, hq.tearing hinv ha hp⟩ trivial
    · cases hs
  | disconnect =>
    simp only [Hub.step] at hs
    split at hs <;> obtain rfl := Option.some.inj hs <;> exact iff_of_true ⟨ha, hq⟩ trivial
  | tearDisconnect i =>
    simp only [Hub.step] at hs
    split at hs
    · cases hs
    · rename_i t _
      obtain rfl := Option.some.inj hs
      obtain ⟨_, hlog, _, _⟩ := s.tear_frame t
      exact iff_of_true ⟨hlog.symm ▸ ha, hq.tear t⟩ trivial
  | fail k =>
    obtain rfl := Option.some.inj hs
    exact iff_of_true ⟨ha, hq.edit fun se _ _ => by simp⟩ trivial

/-- The viewers are in order exactly if what was done to them was allowed and no session has ended
    with its viewer running. -/
theorem Inv.orderly_iff {s : Hub} (h : s.Inv) : s.Orderly ↔ Allowed s.log ∧ s.Quiet := by
  constructor
  · intro ho
    refine ⟨⟨ho.exits, ho.takeovers⟩, fun k se hse hend => ?_⟩
    by_contra hrun
    rcases ho.held k se hse (by simpa using hrun) with hreg | hne
    · have hshown := (h.sessions k se hse).shown hreg
      simp [hend, SessionPhase.shown] at hshown
    · exact hne hend
  · rintro ⟨ha, hq⟩
    refine ⟨ha.exits, ha.takeovers, fun k se hse hrun => Or.inr fun hend => ?_, fun hall => ?_⟩
    · simp [hq k se hse hend] at hrun
    · constructor
      · cases hreg : s.registered with
        | none => rfl
        | some k =>
          have hget := List.getElem?_eq_getElem (h.known k hreg)
          have hshown := (h.sessions k _ hget).shown hreg
          simp [hall _ (List.getElem_mem _), SessionPhase.shown] at hshown
      · intro se hmem
        obtain ⟨k, hk⟩ := List.mem_iff_getElem?.mp hmem
        exact hq k se hk (hall se hmem)

theorem inv_start : Inv {} := ⟨by simp, by simp⟩

theorem orderly_start : Orderly {} := ⟨by simp, by simp, by simp, by simp⟩

/-- Two pages one after the other; the second takes over by force, then the first leaves. -/
def forcedRun : List HubMove :=
  [.connect, .offer 0 false, .create 0 true, .register 0, .connect, .offer 1 false, .offer 1 true,
    .create 1 true, .register 1, .tear 1, .tear 1, .tear 1, .leave 0 .peerClosed, .check 0,
    .leave 1 .socketClosed, .check 1, .remove 1, .tear 1, .tear 1, .tear 1]

end Hub

end Gamer.Webrtc
