import Mathlib.Data.List.Basic
import Mathlib.Data.List.Count
import Gamer.Browser.Idle
import Gamer.Lib.Locks
import Gamer.Lib.Machine
import Gamer.Lib.Table
import Gamer.Lib.Token

/-! What a pass closes has been out of use for the whole grace, as long as the timer has seen every
    use that ended:

        last use ≤ since ≤ since + grace ≤ now of the pass ≤ time of the closing                  -/

namespace Gamer.Browser.Idle
open Gamer.Lib Gamer.Lib.Machine Gamer.Lib.Locks

/-- The session was out of use when it was closed, and had been for the whole grace. -/
def Closing.Rested (c : Closing) : Prop :=
  c.used = false ∧ ∀ u, c.lastUse = some u → u + ofSecs c.secs ≤ c.time

instance (c : Closing) : Decidable c.Rested :=
  match hu : c.lastUse with
  | none => decidable_of_iff (c.used = false) (by simp [Closing.Rested, hu])
  | some u => decidable_of_iff (c.used = false ∧ u + ofSecs c.secs ≤ c.time)
      (by simp [Closing.Rested, hu])

namespace Manager

/-- SAFETY: what was closed was idle; a session counts the leases that are not cleaned up; no lease
    and no stream of a closed session is handed out. -/
structure Promise (s : Manager) : Prop where
  idle : ∀ c ∈ s.closings, c.Rested
  counted : ∀ (k : Nat) c, s.sessions[k]? = some c → c.runs = (s.leases k : Int)
  live : ∀ h ∈ s.handed, h.reclaimed = false

/-! ### The condition -/

/-- The timer of the session's target runs. -/
def timerRuns (s : Manager) (k : Nat) (id : String) : Bool :=
  decide (s.current.get id = some k) && ((s.idle.get id).bind (·.since)).isSome

/-- The step does not end the use of a session whose timer runs. -/
def seenAt (s s₁ : Manager) (k : Nat) : Bool :=
  match s.sessions[k]?, s₁.sessions[k]? with
  | some c, some c' => !s.used k c || s₁.used k c' || !s.timerRuns k c.id
  | _, _ => true

/-- The use of a session ends only where no timer runs: a pass has seen the use, or the beginning of
    the use stopped the timer. -/
def seen (s : Manager) (m : Move) : Bool :=
  (s.act m).all fun s₁ => (List.range s.sessions.length).all (s.seenAt s₁)

/-- The visit that the step goes on with. -/
def visitOf (s : Manager) : Move → Option (Nat × Visit)
  | .step i _ =>
    match s.tasks[i]? with
    | some (.reclaiming now _ (some v)) => some (now, v)
    | _ => none
  | _ => none

/-- The clock with which a pass starts a timer is not older than the end of the last use, and no
    external consumer has come since the last question for one. -/
def timelyVisit (s : Manager) (now : Nat) (v : Visit) (c : CdpSession) : Bool :=
  match v.stage with
  | .timing false => s.used v.session c || c.lastUse.all (· ≤ now)
  | .sealing => !s.external.contains v.id
  | _ => true

def timely (s : Manager) (m : Move) : Bool :=
  (s.visitOf m).all fun x => s.sessions[x.2.session]?.all (s.timelyVisit x.1 x.2)

def Kept (s : Manager) (m : Move) : Prop := s.seen m = true ∧ s.timely m = true

instance (s : Manager) (m : Move) : Decidable (s.Kept m) :=
  inferInstanceAs (Decidable (_ ∧ _))

theorem seen_spec {s s₁ : Manager} {m : Move} (h : s.seen m = true) (hact : s.act m = some s₁)
    {k : Nat} {c c' : CdpSession} (hc : s.sessions[k]? = some c) (hc' : s₁.sessions[k]? = some c')
    (hused : s.used k c = true) (hended : s₁.used k c' = false) :
    s.timerRuns k c.id = false := by
  rw [seen, hact] at h
  have hk : k ∈ List.range s.sessions.length :=
    List.mem_range.mpr (List.getElem?_eq_some_iff.mp hc).1
  have hat := List.all_eq_true.mp h k hk
  simpa [seenAt, hc, hc', hused, hended] using hat

theorem timely_sample {s : Manager} {m : Move} {now : Nat} {v : Visit} {c : CdpSession}
    (h : s.timely m = true) (hv : s.visitOf m = some (now, v))
    (hc : s.sessions[v.session]? = some c) (hstage : v.stage = .timing false) :
    s.used v.session c = true ∨ ∀ u, c.lastUse = some u → u ≤ now := by
  simp only [timely, hv, Option.all_some, hc, timelyVisit, hstage, Bool.or_eq_true] at h
  refine h.imp id fun hlast u hu => ?_
  rw [hu] at hlast
  exact of_decide_eq_true hlast

theorem timely_sealing {s : Manager} {m : Move} {now : Nat} {v : Visit} {c : CdpSession}
    (h : s.timely m = true) (hv : s.visitOf m = some (now, v))
    (hc : s.sessions[v.session]? = some c) (hstage : v.stage = .sealing) :
    s.external.contains v.id = false := by
  simpa [timely, hv, hc, timelyVisit, hstage] using h

end Manager

/-! ### The timer -/

theorem IdleTimer.ready_fst {timer : IdleTimer} {now timeout : Nat} {busy : Bool}
    (h : (timer.ready now timeout busy).1 = true) :
    ∃ t, (timer.ready now timeout busy).2 = ⟨some t⟩ ∧ t + timeout ≤ now := by
  unfold IdleTimer.ready at h ⊢
  split at h
  · cases h
  · next hbusy =>
    rw [if_neg hbusy]
    have hle := of_decide_eq_true h
    simp only [Bool.or_eq_true, decide_eq_true_eq, not_or] at hbusy
    exact ⟨_, rfl, by omega⟩

/-- A timer that runs behind a sample ran before it, or was started by it. -/
theorem IdleTimer.ready_snd {timer : IdleTimer} {now timeout t : Nat} {busy : Bool}
    (h : (timer.ready now timeout busy).2 = ⟨some t⟩) :
    busy = false ∧ (timer.since = some t ∨ (timer.since = none ∧ t = now)) := by
  unfold IdleTimer.ready at h
  split at h
  · cases h
  · next hbusy =>
    simp only [Bool.or_eq_true, not_or, Bool.not_eq_true] at hbusy
    refine ⟨hbusy.1, ?_⟩
    cases hs : timer.since with
    | none =>
      rw [hs] at h
      exact Or.inr ⟨rfl, (Option.some.inj (IdleTimer.mk.inj h)).symm⟩
    | some u =>
      rw [hs] at h
      exact Or.inl (IdleTimer.mk.inj h)

/-! ### The calls of a session -/

namespace StreamOp
variable {op : StreamOp} {c c' : CdpSession}

/-- A session that a stream may still be handed out of. -/
theorem enter_hands (h : op.enter c = some c') (hop : op.hands = true) :
    c.isAlive = true ∨ c.hasStreamConsumers = true := by
  cases op
  case startPreview =>
    simp only [enter] at h
    split at h
    · next halive => exact Or.inl halive
    · cases h
  case startRecording =>
    simp only [enter] at h
    split at h
    · next halive =>
      simp only [Bool.and_eq_true] at halive
      exact Or.inl halive.1
    · cases h
  case refreshRecording =>
    simp only [enter] at h
    split at h
    · next hactive =>
      exact Or.inr (by simp [CdpSession.hasStreamConsumers, CdpSession.isFullResolutionActive,
        hactive])
    · cases h
  case refreshMediaOutput =>
    simp only [enter] at h
    split at h
    · next hactive =>
      exact Or.inr (by simp [CdpSession.hasStreamConsumers, CdpSession.isFullResolutionActive,
        hactive])
    · cases h
  all_goals cases hop

theorem enter_runs (h : op.enter c = some c') : c'.runs = c.runs := by
  cases op <;> simp only [enter] at h
  case stopPreview | stopRecording | reconcileMediaOutput =>
    cases h
    rfl
  all_goals
    split at h
    · cases h
      rfl
    · cases h

end StreamOp

/-- A change of a session that a closed session without consumers survives as one. -/
structure Mild (c c' : CdpSession) : Prop where
  id : c'.id = c.id
  lastUse : c'.lastUse = c.lastUse
  reclaimed : c'.reclaimed = c.reclaimed
  closed : c.closed = true → c'.closed = true
  consumers : c.closed = true → c.hasStreamConsumers = false → c'.hasStreamConsumers = false

namespace Mild
variable {c c' : CdpSession}

theorem close : Mild c c.close := ⟨rfl, rfl, rfl, fun _ => rfl, fun _ h => h⟩

theorem runs (n : Int) : Mild c { c with runs := n } := ⟨rfl, rfl, rfl, fun h => h, fun _ h => h⟩

theorem addOutput (h : c.isAlive = true) : Mild c c.addOutput := by
  refine ⟨rfl, rfl, rfl, fun h => h, fun hclosed => ?_⟩
  simp [CdpSession.isAlive, hclosed] at h

theorem dropOutput : Mild c c.dropOutput := by
  refine ⟨rfl, rfl, rfl, fun h => h, fun _ h => ?_⟩
  simp only [CdpSession.hasStreamConsumers, CdpSession.isFullResolutionActive, Bool.or_eq_false_iff,
    decide_eq_false_iff_not, CdpSession.dropOutput] at h ⊢
  obtain ⟨hpreview, hrecording, houtputs⟩ := h
  exact ⟨hpreview, hrecording, decide_eq_false fun h =>
    houtputs (Nat.lt_of_lt_of_le h (Nat.sub_le _ _))⟩

theorem enter {op : StreamOp} (h : op.enter c = some c') : Mild c c' := by
  have hsame : Mild c c := ⟨rfl, rfl, rfl, fun h => h, fun _ h => h⟩
  cases op <;> simp only [StreamOp.enter] at h
  case startPreview =>
    split at h
    · next halive =>
      cases h
      refine ⟨rfl, rfl, rfl, fun h => h, fun hclosed => ?_⟩
      simp [CdpSession.isAlive, hclosed] at halive
    · cases h
  case startRecording =>
    split at h
    · next halive =>
      cases h
      refine ⟨rfl, rfl, rfl, fun h => h, fun hclosed => ?_⟩
      simp [CdpSession.isAlive, hclosed] at halive
    · cases h
  case stopPreview =>
    cases h
    refine ⟨rfl, rfl, rfl, fun h => h, fun _ h => ?_⟩
    simp only [CdpSession.hasStreamConsumers, Bool.or_eq_false_iff] at h ⊢
    exact ⟨trivial, h.2⟩
  case stopRecording =>
    cases h
    refine ⟨rfl, rfl, rfl, fun h => h, fun _ h => ?_⟩
    simp only [CdpSession.hasStreamConsumers, CdpSession.isFullResolutionActive,
      Bool.or_eq_false_iff] at h ⊢
    exact ⟨h.1, trivial, h.2.2⟩
  case reconcileMediaOutput =>
    cases h
    exact hsame
  all_goals
    split at h
    · cases h
      exact hsame
    · cases h

theorem leave {op : StreamOp} {ok : Bool} : Mild c (op.leave ok c) := by
  cases op <;> cases ok
  case startPreview.false =>
    refine ⟨rfl, rfl, rfl, fun h => h, fun _ h => ?_⟩
    simp only [CdpSession.hasStreamConsumers, Bool.or_eq_false_iff, StreamOp.leave] at h ⊢
    exact ⟨by simp, h.2⟩
  case startRecording.false =>
    refine ⟨rfl, rfl, rfl, fun h => h, fun _ h => ?_⟩
    simp only [CdpSession.hasStreamConsumers, CdpSession.isFullResolutionActive,
      Bool.or_eq_false_iff, StreamOp.leave] at h ⊢
    exact ⟨h.1, by simp, h.2.2⟩
  all_goals exact ⟨rfl, rfl, rfl, fun h => h, fun _ h => h⟩

end Mild

/-! ### What the tasks know -/

namespace Manager

/-- No pass has closed the session. -/
def Lives (s : Manager) (k : Nat) : Prop :=
  ∃ c, s.sessions[k]? = some c ∧ c.reclaimed = false

end Manager

/-- The sample has let the grace end, and nothing is closed yet. -/
def VisitStage.ready : VisitStage → Bool
  | .probing _ | .timing _ | .closing => false
  | _ => true

/-- The visit's target still has the session, and behind the sample its timer runs. -/
structure Visit.Fits (s : Manager) (now : Nat) (v : Visit) : Prop where
  current : s.current.get v.id = some v.session
  ready : v.stage.ready = true →
    ∃ t, s.idle.get v.id = some ⟨some t⟩ ∧ t + ofSecs v.secs ≤ now

def Task.Fits (s : Manager) : Task → Prop
  | .preparing id true => s.idle.get id = none
  | .acquiring id (some k) => ∃ c, s.sessions[k]? = some c ∧ c.id = id ∧ c.reclaimed = false
  | .starting _ k => s.Lives k
  | .streaming op k true => op.hands = true → s.Lives k
  | .lease k _ => k < s.sessions.length
  | .reclaiming now _ v => now ≤ s.now ∧ ∀ v', v = some v' → v'.Fits s now
  | _ => True

namespace Manager
variable {s s₁ s₂ : Manager} {held : List Lock}

def Sealed (s : Manager) : Prop :=
  ∀ (k : Nat) c, s.sessions[k]? = some c → c.reclaimed = true →
    c.closed = true ∧ c.hasStreamConsumers = false

def Targeted (s : Manager) : Prop :=
  ∀ id k, s.current.get id = some k → ∃ c, s.sessions[k]? = some c ∧ c.id = id

/-- FRAME: what a step that has only these locks leaves of the rest. -/
structure Frame (held : List Lock) (s s₁ : Manager) : Prop where
  now : s.now ≤ s₁.now
  sessions : ∀ (k : Nat) c, s.sessions[k]? = some c → ∃ c', s₁.sessions[k]? = some c' ∧
    c'.id = c.id ∧ c'.lastUse = c.lastUse ∧
      (c'.reclaimed = true → c.reclaimed = true ∨
        (Lock.stream k ∈ held ∧ Lock.lifecycle c.id ∈ held))
  tables : ∀ id, Lock.lifecycle id ∉ held → s₁.current.get id = s.current.get id ∧
    (s₁.idle.get id = s.idle.get id ∨ (Lock.pass ∈ held ∧ s₁.idle.get id = none))

theorem Frame.refl : Frame held s s :=
  ⟨Nat.le_refl _, fun _ c hc => ⟨c, hc, rfl, rfl, Or.inl⟩, fun _ _ => ⟨rfl, Or.inl rfl⟩⟩

theorem Frame.trans (h : Frame held s s₁) (h₁ : Frame held s₁ s₂) : Frame held s s₂ := by
  refine ⟨Nat.le_trans h.now h₁.now, ?_, ?_⟩
  · intro k c hc
    obtain ⟨c₁, hc₁, hid, huse, hmark⟩ := h.sessions k c hc
    obtain ⟨c₂, hc₂, hid₁, huse₁, hmark₁⟩ := h₁.sessions k c₁ hc₁
    refine ⟨c₂, hc₂, hid₁.trans hid, huse₁.trans huse, fun hr => ?_⟩
    rcases hmark₁ hr with hr | hlocks
    · exact hmark hr
    · exact Or.inr (hid ▸ hlocks)
  · intro id hid
    obtain ⟨hcurrent, hidle⟩ := h.tables id hid
    obtain ⟨hcurrent₁, hidle₁⟩ := h₁.tables id hid
    refine ⟨hcurrent₁.trans hcurrent, ?_⟩
    rcases hidle₁ with hidle₁ | hnone
    · rw [hidle₁]
      exact hidle
    · exact Or.inr hnone

theorem Frame.lives (h : Frame held s s₁) {k : Nat} (hk : s.Lives k)
    (hlock : Lock.stream k ∉ held) : s₁.Lives k := by
  obtain ⟨c, hc, hlive⟩ := hk
  obtain ⟨c', hc', _, _, hmark⟩ := h.sessions k c hc
  refine ⟨c', hc', Bool.eq_false_iff.mpr fun hr => ?_⟩
  rcases hmark hr with hr | hlocks
  · rw [hlive] at hr
    cases hr
  · exact hlock hlocks.1

/-- FRAME: a task with other locks still knows what it knew. -/
theorem Frame.fits (h : Frame held s s₁) {t : Task} (hlocks : ∀ l ∈ t.locks, l ∉ held)
    (ht : t.Fits s) : t.Fits s₁ := by
  cases t with
  | preparing id launching =>
    cases launching with
    | false => trivial
    | true =>
      have hmine := hlocks (.lifecycle id) (by simp [Task.locks])
      rcases (h.tables id hmine).2 with hidle | hnone
      · exact hidle.trans ht
      · exact hnone.2
  | acquiring id k =>
    cases k with
    | none => trivial
    | some k =>
      obtain ⟨c, hc, hid, hlive⟩ := ht
      obtain ⟨c', hc', hid', _, hmark⟩ := h.sessions k c hc
      refine ⟨c', hc', hid'.trans hid, Bool.eq_false_iff.mpr fun hr => ?_⟩
      rcases hmark hr with hr | hheld
      · rw [hlive] at hr
        cases hr
      · exact hlocks (.lifecycle id) (by simp [Task.locks]) (hid ▸ hheld.2)
  | starting id k => exact h.lives ht (hlocks (.stream k) (by simp [Task.locks]))
  | streaming op k entered =>
    cases entered with
    | false => trivial
    | true => exact fun hop => h.lives (ht hop) (hlocks (.stream k) (by simp [Task.locks]))
  | lease k cleaning =>
    obtain ⟨c', hc', _⟩ := h.sessions k _ (List.getElem?_eq_getElem ht)
    exact (List.getElem?_eq_some_iff.mp hc').1
  | reclaiming now left v =>
    refine ⟨Nat.le_trans ht.1 h.now, fun v' hv => ?_⟩
    subst hv
    have hfits := ht.2 v' rfl
    have hmine := hlocks (.lifecycle v'.id) (by simp [Task.locks, Visit.locks])
    have hpass := hlocks .pass (by simp [Task.locks])
    obtain ⟨hcurrent, hidle⟩ := h.tables v'.id hmine
    refine ⟨hcurrent.trans hfits.current, fun hready => ?_⟩
    rcases hidle with hidle | hnone
    · rw [hidle]
      exact hfits.ready hready
    · exact absurd hnone.1 hpass
  | _ => trivial

theorem fits_setTasks {t : Task} {tasks : List Task} (h : t.Fits s) :
    t.Fits { s with tasks := tasks } := by
  cases t with
  | preparing id launching => cases launching <;> exact h
  | acquiring id k => cases k <;> exact h
  | streaming op k entered => cases entered <;> exact h
  | reclaiming now left v => exact ⟨h.1, fun v' hv => ⟨(h.2 v' hv).1, (h.2 v' hv).2⟩⟩
  | _ => exact h

/-! ### The invariant -/

/-- A timer that runs behind the step ran before it. -/
def Quiet (s s₁ : Manager) : Prop :=
  ∀ id k t, s₁.current.get id = some k → s₁.idle.get id = some ⟨some t⟩ →
    s.current.get id = some k ∧ s.idle.get id = some ⟨some t⟩

/-- Where a timer runs, the session is in use or was not in use since the timer began. -/
def Timed (s : Manager) : Prop :=
  ∀ id k c t, s.current.get id = some k → s.sessions[k]? = some c →
    s.idle.get id = some ⟨some t⟩ → s.used k c = true ∨ ∀ u, c.lastUse = some u → u ≤ t

/-- INVARIANT: all but the timers. -/
structure Base (s : Manager) : Prop where
  sole : Sole Task.locks s.tasks
  fits : ∀ (i : Nat) t, s.tasks[i]? = some t → t.Fits s
  target : s.Targeted
  closed : s.Sealed
  promise : s.Promise

/-- What a step does to everything but the tasks and the counts of the leases. -/
structure Change (held : List Lock) (s s₁ : Manager) : Prop where
  tasks : s₁.tasks = s.tasks
  frame : Frame held s s₁
  target : s.Targeted → s₁.Targeted
  closed : s.Sealed → s₁.Sealed
  closings : (∀ c ∈ s.closings, c.Rested) → ∀ c ∈ s₁.closings, c.Rested
  handed : (∀ h ∈ s.handed, h.reclaimed = false) → ∀ h ∈ s₁.handed, h.reclaimed = false

theorem Change.refl : Change held s s :=
  ⟨rfl, .refl, fun h => h, fun h => h, fun h => h, fun h => h⟩

theorem Change.trans (h : Change held s s₁) (h₁ : Change held s₁ s₂) : Change held s s₂ :=
  ⟨h₁.tasks.trans h.tasks, h.frame.trans h₁.frame, fun hs => h₁.target (h.target hs),
    fun hs => h₁.closed (h.closed hs), fun hs => h₁.closings (h.closings hs),
    fun hs => h₁.handed (h.handed hs)⟩

theorem Quiet.refl : Quiet s s := fun _ _ _ hc hi => ⟨hc, hi⟩

theorem Quiet.trans (h : Quiet s s₁) (h₁ : Quiet s₁ s₂) : Quiet s s₂ := by
  intro id k t hc hi
  obtain ⟨hc, hi⟩ := h₁ id k t hc hi
  exact h id k t hc hi

/-- The sessions count as before, and new ones count nothing. -/
def SameRuns (s s₁ : Manager) : Prop :=
  ∀ (k : Nat) c', s₁.sessions[k]? = some c' →
    (∃ c, s.sessions[k]? = some c ∧ c'.runs = c.runs) ∨ (s.sessions.length ≤ k ∧ c'.runs = 0)

theorem SameRuns.refl : SameRuns s s := fun _ c hc => Or.inl ⟨c, hc, rfl⟩

/-! ### The changes -/

theorem getElem?_modify {k j : Nat} {f : CdpSession → CdpSession} {c' : CdpSession}
    (h : (s.modify k f).sessions[j]? = some c') :
    ∃ c, s.sessions[j]? = some c ∧ c' = if k = j then f c else c := by
  simp only [modify, List.getElem?_modify] at h
  obtain ⟨c, hc, rfl⟩ := Option.map_eq_some_iff.mp h
  refine ⟨c, hc, ?_⟩
  split <;> rfl

theorem Change.modify {k : Nat} {f : CdpSession → CdpSession}
    (hf : ∀ c, s.sessions[k]? = some c → Mild c (f c)) : Change held s (s.modify k f) := by
  have hmild : ∀ (j : Nat) c, s.sessions[j]? = some c → Mild c (if k = j then f c else c) := by
    intro j c hc
    split
    · next hj =>
      subst hj
      exact hf c hc
    · exact ⟨rfl, rfl, rfl, fun h => h, fun _ h => h⟩
  have hget : ∀ (j : Nat) c, s.sessions[j]? = some c →
      (s.modify k f).sessions[j]? = some (if k = j then f c else c) := by
    intro j c hc
    simp only [Manager.modify, List.getElem?_modify, hc, Option.map_eq_map, Option.map_some]
  refine ⟨rfl, ⟨Nat.le_refl _, fun j c hc => ?_, fun _ _ => ⟨rfl, Or.inl rfl⟩⟩, ?_, ?_,
    fun h => h, fun h => h⟩
  · have h := hmild j c hc
    exact ⟨_, hget j c hc, h.id, h.lastUse, fun hr => Or.inl (h.reclaimed ▸ hr)⟩
  · intro ht id j hj
    obtain ⟨c, hc, hid⟩ := ht id j hj
    exact ⟨_, hget j c hc, (hmild j c hc).id.trans hid⟩
  · intro hs j c' hc' hr
    obtain ⟨c, hc, rfl⟩ := getElem?_modify hc'
    have h := hmild j c hc
    obtain ⟨hclosed, hconsumers⟩ := hs j c hc (h.reclaimed ▸ hr)
    exact ⟨h.closed hclosed, h.consumers hclosed hconsumers⟩

theorem Quiet.modify {k : Nat} {f : CdpSession → CdpSession} : Quiet s (s.modify k f) :=
  fun _ _ _ hc hi => ⟨hc, hi⟩

theorem SameRuns.modify {k : Nat} {f : CdpSession → CdpSession}
    (hf : ∀ c, s.sessions[k]? = some c → (f c).runs = c.runs) : SameRuns s (s.modify k f) := by
  intro j c' hc'
  obtain ⟨c, hc, rfl⟩ := getElem?_modify hc'
  refine Or.inl ⟨c, hc, ?_⟩
  split
  · next hj =>
    subst hj
    exact hf c hc
  · rfl

theorem Change.stopTimer {id : String} (h : Lock.lifecycle id ∈ held) :
    Change held s (s.stopTimer id) := by
  refine ⟨rfl, ⟨Nat.le_refl _, fun _ c hc => ⟨c, hc, rfl, rfl, Or.inl⟩, fun id' hid => ?_⟩,
    fun h => h, fun h => h, fun h => h, fun h => h⟩
  have hne : id' ≠ id := by
    rintro rfl
    exact hid h
  exact ⟨rfl, Or.inl (by simp [Manager.stopTimer, Table.get_del, hne])⟩

theorem Quiet.stopTimer {id : String} : Quiet s (s.stopTimer id) := by
  intro id' k t hc hi
  simp only [Manager.stopTimer, Table.get_del] at hc hi
  split at hi
  · cases hi
  · exact ⟨hc, hi⟩

/-- The target loses its session. -/
theorem Change.forget {id : String} (h : Lock.lifecycle id ∈ held) :
    Change held s { s with current := s.current.del id } := by
  refine ⟨rfl, ⟨Nat.le_refl _, fun _ c hc => ⟨c, hc, rfl, rfl, Or.inl⟩, fun id' hid => ?_⟩,
    fun ht id' k hk => ?_, fun h => h, fun h => h, fun h => h⟩
  · have hne : id' ≠ id := by
      rintro rfl
      exact hid h
    exact ⟨by simp [Table.get_del, hne], Or.inl rfl⟩
  · simp only [Table.get_del] at hk
    split at hk
    · cases hk
    · exact ht id' k hk

theorem Quiet.forget {id : String} : Quiet s { s with current := s.current.del id } := by
  intro id' k t hc hi
  simp only [Table.get_del] at hc
  split at hc
  · cases hc
  · exact ⟨hc, hi⟩

theorem Change.closeInner {id : String} (h : Lock.lifecycle id ∈ held) :
    Change held s (s.closeInner id) := by
  unfold Manager.closeInner
  split
  · next k hk =>
    exact (Change.stopTimer h).trans ((Change.modify fun _ _ => Mild.close).trans
      (Change.forget (s := (s.stopTimer id).modify k .close) h))
  · exact Change.stopTimer h

theorem Quiet.closeInner {id : String} : Quiet s (s.closeInner id) := by
  unfold Manager.closeInner
  split
  · next k hk =>
    exact Quiet.stopTimer.trans (Quiet.modify.trans
      (Quiet.forget (s := (s.stopTimer id).modify k .close)))
  · exact Quiet.stopTimer

theorem SameRuns.closeInner {id : String} : SameRuns s (s.closeInner id) := by
  unfold Manager.closeInner
  split
  · next k hk => exact SameRuns.modify (s := s.stopTimer id) fun _ _ => rfl
  · exact SameRuns.refl

/-- A new session of a target whose timer does not run. -/
theorem Change.insertSession {id : String} (h : Lock.lifecycle id ∈ held) :
    Change held s (s.insertSession id) := by
  refine ⟨rfl, ⟨Nat.le_refl _, fun k c hc => ?_, fun id' hid => ?_⟩, fun ht id' k hk => ?_,
    fun hs k c hc hr => ?_, fun h => h, fun h => h⟩
  · exact ⟨c, by
      rw [Manager.insertSession, List.getElem?_append_left (List.getElem?_eq_some_iff.mp hc).1]
      exact hc, rfl, rfl, Or.inl⟩
  · have hne : id' ≠ id := by
      rintro rfl
      exact hid h
    exact ⟨Table.get_set_ne hne _ _, Or.inl rfl⟩
  · simp only [Manager.insertSession, Table.get_set] at hk ⊢
    split at hk
    · next heq =>
      cases hk
      exact ⟨{ id := id }, by simp, heq.symm⟩
    · obtain ⟨c, hc, hid⟩ := ht id' k hk
      exact ⟨c, Token.getElem?_push_eq_some.mpr (Or.inl hc), hid⟩
  · rcases Token.getElem?_push_eq_some.mp hc with hc | ⟨_, rfl⟩
    · exact hs k c hc hr
    · cases hr

theorem SameRuns.insertSession {id : String} : SameRuns s (s.insertSession id) := by
  intro k c hc
  rcases Token.getElem?_push_eq_some.mp hc with hc | ⟨rfl, rfl⟩
  · exact Or.inl ⟨c, hc, rfl⟩
  · exact Or.inr ⟨Nat.le_refl _, rfl⟩

theorem Change.hand {k : Nat} (h : s.Lives k) : Change held s (s.hand k) := by
  obtain ⟨c, hc, hlive⟩ := h
  refine ⟨rfl,
    ⟨Nat.le_refl _, fun _ c hc => ⟨c, hc, rfl, rfl, Or.inl⟩, fun _ _ => ⟨rfl, Or.inl rfl⟩⟩,
    fun h => h, fun h => h, fun h => h, fun hs h hh => ?_⟩
  simp only [Manager.hand, hc, Option.map_some, Option.toList_some, List.singleton_append,
    List.mem_cons] at hh
  rcases hh with rfl | hh
  · exact hlive
  · exact hs h hh

/-! ### A step of a task -/

/-- SPEC: what a step of a task is for the invariant. -/
structure Advance (held : List Lock) (s : Manager) (t : Task) (r : Manager × Task) : Prop where
  change : Change held s r.1
  /-- The locks of the step itself. -/
  within : ∀ l ∈ held, l ∈ t.locks ∨ s.free l = true
  taken : ∀ l ∈ r.2.locks, l ∈ t.locks ∨ s.free l = true
  fits : r.2.Fits r.1
  counted : ∀ (k : Nat) c', r.1.sessions[k]? = some c' →
    (∃ c, s.sessions[k]? = some c ∧
      c'.runs + (if t.isLease k then 1 else 0) = c.runs + (if r.2.isLease k then 1 else 0)) ∨
    (s.sessions.length ≤ k ∧ c'.runs = 0 ∧ r.2.isLease k = false)

theorem Advance.of_sameRuns {t : Task} {r : Manager × Task} (change : Change held s r.1)
    (within : ∀ l ∈ held, l ∈ t.locks ∨ s.free l = true)
    (taken : ∀ l ∈ r.2.locks, l ∈ t.locks ∨ s.free l = true) (fits : r.2.Fits r.1)
    (hruns : SameRuns s r.1) (ht : ∀ k, t.isLease k = false)
    (hr : ∀ k, r.2.isLease k = false) : Advance held s t r := by
  refine ⟨change, within, taken, fits, fun k c' hc' => ?_⟩
  rcases hruns k c' hc' with ⟨c, hc, h⟩ | ⟨hlen, h⟩
  · exact Or.inl ⟨c, hc, by simp [ht, hr, h]⟩
  · exact Or.inr ⟨hlen, h, hr k⟩

/-- The task goes on and the manager stays as it is. -/
theorem Advance.stay {t t' : Task} (taken : ∀ l ∈ t'.locks, l ∈ t.locks ∨ s.free l = true)
    (fits : t'.Fits s) (ht : ∀ k, t.isLease k = false) (hr : ∀ k, t'.isLease k = false) :
    Advance [] s t (s, t') :=
  .of_sameRuns .refl (fun _ hl => by cases hl) taken fits .refl ht hr

/-- The task ends and the manager stays as it is. -/
theorem Advance.stop {t : Task} (ht : ∀ k, t.isLease k = false) : Advance [] s t (s, .done) :=
  .stay (fun _ hl => by cases hl) trivial ht fun _ => rfl

/-- The count of the leases follows the step. -/
theorem leases_set {t : Task} (t' : Task) (k : Nat) {i : Nat} {tasks : List Task}
    (ht : tasks[i]? = some t) :
    (((tasks.set i t').countP (Task.isLease k) : Nat) : Int) + (if t.isLease k then 1 else 0) =
      (tasks.countP (Task.isLease k) : Int) + (if t'.isLease k then 1 else 0) := by
  obtain ⟨hi, hget⟩ := List.getElem?_eq_some_iff.mp ht
  have hset := List.countP_set (p := Task.isLease k) (a := t') hi
  rw [hget] at hset
  have hpos : (if t.isLease k then 1 else 0) ≤ tasks.countP (Task.isLease k) := by
    split
    · next hlease =>
      exact List.countP_pos_iff.mpr ⟨t, List.mem_of_getElem? ht, hlease⟩
    · exact Nat.zero_le _
  have hcast : ∀ b : Bool, (if b = true then (1 : Int) else 0) =
      ((if b = true then 1 else 0 : Nat) : Int) := by
    intro b
    cases b <;> rfl
  rw [hset, hcast, hcast]
  generalize (if t.isLease k = true then 1 else 0) = before at hpos ⊢
  generalize (if t'.isLease k = true then 1 else 0) = after
  omega

/-- A session that is not there has no lease. -/
theorem Base.leases_eq_zero (h : Base s) {k : Nat} (hk : s.sessions.length ≤ k) :
    s.leases k = 0 := by
  refine List.countP_eq_zero.mpr fun t ht hlease => ?_
  obtain ⟨i, hi⟩ := List.mem_iff_getElem?.mp ht
  cases t with
  | lease j cleaning =>
    have hlt : j < s.sessions.length := h.fits i _ hi
    have hj : j = k := of_decide_eq_true hlease
    omega
  | _ => cases hlease

/-- STEP: what a step of a task is keeps the invariant. -/
theorem Base.advance (h : Base s) {i : Nat} {t : Task} {r : Manager × Task}
    (ht : s.tasks[i]? = some t) (ha : Advance held s t r) :
    Base { r.1 with tasks := r.1.tasks.set i r.2 } := by
  have hsole : Sole Task.locks (s.tasks.set i r.2) := h.sole.set ht fun l hl =>
    (ha.taken l hl).imp id fun hfree j u hu => not_mem_of_free hfree hu
  have hfits : ∀ (j : Nat) u, (s.tasks.set i r.2)[j]? = some u → u.Fits r.1 := by
    intro j u hu
    rcases (Token.getElem?_set_eq_some ht).mp hu with ⟨rfl, rfl⟩ | ⟨hne, hold⟩
    · exact ha.fits
    · refine ha.change.frame.fits (fun l hl hheld => ?_) (h.fits j u hold)
      rcases ha.within l hheld with hmine | hfree
      · exact hne (h.sole hold ht hl hmine)
      · exact not_mem_of_free hfree hold hl
  have htasks := ha.change.tasks
  refine ⟨by rw [htasks]; exact hsole, fun j u hu => ?_, ha.change.target h.target,
    ha.change.closed h.closed, ⟨ha.change.closings h.promise.idle, fun k c' hc' => ?_,
      ha.change.handed h.promise.live⟩⟩
  · rw [htasks] at hu
    exact fits_setTasks (hfits j u hu)
  · have hset := leases_set r.2 k ht
    simp only [leases, htasks]
    rcases ha.counted k c' hc' with ⟨c, hc, hruns⟩ | ⟨hlen, hruns, hlease⟩
    · have hold := h.promise.counted k c hc
      simp only [leases] at hold
      omega
    · have hzero := h.leases_eq_zero hlen
      simp only [leases] at hzero
      simp only [hzero, hlease, Bool.false_eq_true, if_false] at hset
      rw [hruns]
      split at hset <;> omega

/-- STEP: a change outside of the tasks keeps the invariant. -/
theorem Base.change (h : Base s) (hc : Change [] s s₁) (hruns : SameRuns s s₁) : Base s₁ := by
  refine ⟨by rw [hc.tasks]; exact h.sole, fun i t ht => ?_, hc.target h.target, hc.closed h.closed,
    ⟨hc.closings h.promise.idle, fun k c' hc' => ?_, hc.handed h.promise.live⟩⟩
  · rw [hc.tasks] at ht
    exact hc.frame.fits (fun _ _ hl => by cases hl) (h.fits i t ht)
  · simp only [leases, hc.tasks]
    rcases hruns k c' hc' with ⟨c, hold, heq⟩ | ⟨hlen, heq⟩
    · rw [heq]
      exact h.promise.counted k c hold
    · have hzero := h.leases_eq_zero hlen
      simp only [leases] at hzero
      rw [heq, hzero]
      rfl

/-- STEP: a task that comes with nothing keeps the invariant. -/
theorem Base.push (h : Base s) {t : Task} (hlocks : ∀ l ∈ t.locks, s.free l = true)
    (hfits : t.Fits s) (hlease : ∀ k, t.isLease k = false) : Base (s.push t) := by
  refine ⟨h.sole.push fun l hl _ _ hu => not_mem_of_free (hlocks l hl) hu, fun i u hu => ?_,
    h.target, h.closed,
    ⟨h.promise.idle, fun k c hc => ?_, h.promise.live⟩⟩
  · rcases Token.getElem?_push_eq_some.mp hu with hu | ⟨_, rfl⟩
    · exact fits_setTasks (h.fits i u hu)
    · exact fits_setTasks hfits
  · rw [h.promise.counted k c hc]
    simp [leases, Manager.push, hlease]

/-! ### The steps -/

/-- A step that keeps the invariant and starts no timer. -/
def Steps (s : Manager) (t : Task) (r : Manager × Task) : Prop :=
  (∃ held, Advance held s t r) ∧ Quiet s r.1

theorem Steps.stay {t t' : Task} (taken : ∀ l ∈ t'.locks, l ∈ t.locks ∨ s.free l = true)
    (fits : t'.Fits s) (ht : ∀ k, t.isLease k = false) (hr : ∀ k, t'.isLease k = false) :
    Steps s t (s, t') :=
  ⟨⟨_, .stay taken fits ht hr⟩, .refl⟩

theorem Steps.stop {t : Task} (ht : ∀ k, t.isLease k = false) : Steps s t (s, .done) :=
  ⟨⟨_, .stop ht⟩, .refl⟩

/-- The task takes a free lock and goes on. -/
theorem Steps.lock {t t' : Task} {l : Lock} (hfree : s.free l = true)
    (hlocks : ∀ l' ∈ t'.locks, l' ∈ t.locks ∨ l' = l) (fits : t'.Fits s)
    (ht : ∀ k, t.isLease k = false) (hr : ∀ k, t'.isLease k = false) : Steps s t (s, t') :=
  .stay (fun l' hl => (hlocks l' hl).imp id fun heq => (by rw [heq]; exact hfree)) fits ht hr

/-- A step inside of the target's lifecycle gate. -/
theorem Steps.gated {t : Task} {r : Manager × Task} {id : String}
    (hgate : Lock.lifecycle id ∈ t.locks ∨ s.free (.lifecycle id) = true)
    (hchange : Change [.lifecycle id] s r.1) (hlocks : ∀ l ∈ r.2.locks, l = .lifecycle id)
    (fits : r.2.Fits r.1) (hruns : SameRuns s r.1) (ht : ∀ k, t.isLease k = false)
    (hr : ∀ k, r.2.isLease k = false) (hquiet : Quiet s r.1) : Steps s t r :=
  ⟨⟨_, .of_sameRuns hchange (fun _ hl => List.mem_singleton.mp hl ▸ hgate)
    (fun l hl => hlocks l hl ▸ hgate) fits hruns ht hr⟩, hquiet⟩

/-- A step that only changes a session, mildly. -/
theorem Steps.modify {t t' : Task} {k : Nat} {f : CdpSession → CdpSession}
    (hf : ∀ c, s.sessions[k]? = some c → Mild c (f c))
    (hruns : ∀ c, s.sessions[k]? = some c → (f c).runs = c.runs)
    (taken : ∀ l ∈ t'.locks, l ∈ t.locks ∨ s.free l = true) (fits : t'.Fits (s.modify k f))
    (ht : ∀ k, t.isLease k = false) (hr : ∀ k, t'.isLease k = false) :
    Steps s t (s.modify k f, t') :=
  ⟨⟨[], .of_sameRuns (.modify hf) (fun _ hl => by cases hl) taken fits (.modify hruns) ht hr⟩,
    .modify⟩

theorem idle_stopTimer (id : String) : (s.stopTimer id).idle.get id = none := by
  simp [stopTimer, Table.get_del]

theorem idle_closeInner (id : String) : (s.closeInner id).idle.get id = none := by
  unfold closeInner
  split
  · exact idle_stopTimer id
  · exact idle_stopTimer id

theorem prepare_steps {id : String} (hfree : s.free (.lifecycle id) = true) :
    Steps s (.preparing id false) (s.prepare id) := by
  have hmem : Lock.lifecycle id ∈ [Lock.lifecycle id] := List.mem_singleton.mpr rfl
  have hstopped : Steps s (.preparing id false) (s.stopTimer id, .done) :=
    .gated (.inr hfree) (.stopTimer hmem) (fun _ hl => by cases hl) trivial .refl (fun _ => rfl)
      (fun _ => rfl) .stopTimer
  unfold prepare
  split
  · exact .stop fun _ => rfl
  · split
    · exact .gated (.inr hfree) (.stopTimer hmem) (fun _ hl => List.mem_singleton.mp hl)
        (idle_stopTimer id) .refl (fun _ => rfl) (fun _ => rfl) .stopTimer
    · split
      · exact hstopped
      · split
        · exact hstopped
        · exact .gated (.inr hfree) (.closeInner hmem) (fun _ hl => List.mem_singleton.mp hl)
            (idle_closeInner id) .closeInner (fun _ => rfl) (fun _ => rfl) .closeInner

theorem close_steps {id : String} {forced ok : Bool} (hfree : s.free (.lifecycle id) = true) :
    Steps s (.closing id forced false) (s.close id forced ok) := by
  have hmem : Lock.lifecycle id ∈ [Lock.lifecycle id] := List.mem_singleton.mpr rfl
  have hclosed : Steps s (.closing id forced false) (s.closeInner id, .closing id forced true) :=
    .gated (.inr hfree) (.closeInner hmem) (fun _ hl => List.mem_singleton.mp hl) trivial
      .closeInner (fun _ => rfl) (fun _ => rfl) .closeInner
  have hstop : Steps s (.closing id forced false) (s, .done) := .stop fun _ => rfl
  unfold close
  split
  · split
    · exact hclosed
    · exact hstop
  · split
    · exact hclosed
    · exact hstop

/-- A new session behind the gate, where no timer runs. -/
theorem Quiet.insertSession {id : String} (h : s.idle.get id = none) :
    Quiet s (s.insertSession id) := by
  intro id' k t hc hi
  simp only [Manager.insertSession, Table.get_set] at hc hi
  split at hc
  · next heq =>
    subst heq
    rw [h] at hi
    cases hi
  · exact ⟨hc, hi⟩

theorem Quiet.replace {id : String} : Quiet s ((s.insertSession id).stopTimer id) := by
  intro id' k t hc hi
  simp only [Manager.insertSession, Manager.stopTimer, Table.get_set, Table.get_del] at hc hi
  split at hi
  · cases hi
  · next hne =>
    rw [if_neg hne] at hc
    exact ⟨hc, hi⟩

theorem Lives.of_sealed (hs : s.Sealed) {k : Nat} {c : CdpSession} (hc : s.sessions[k]? = some c)
    (h : c.isAlive = true ∨ c.hasStreamConsumers = true) : s.Lives k := by
  refine ⟨c, hc, Bool.eq_false_iff.mpr fun hr => ?_⟩
  obtain ⟨hclosed, hconsumers⟩ := hs k c hc hr
  rcases h with h | h
  · simp [CdpSession.isAlive, hclosed] at h
  · rw [hconsumers] at h
    cases h

theorem Lives.modify {k : Nat} {f : CdpSession → CdpSession} (h : s.Lives k)
    (hf : ∀ c, (f c).reclaimed = c.reclaimed) : (s.modify k f).Lives k := by
  obtain ⟨c, hc, hlive⟩ := h
  refine ⟨f c, ?_, (hf c).trans hlive⟩
  simp [Manager.modify, hc]

theorem acquire_steps (hb : Base s) {id : String} (hfree : s.free (.lifecycle id) = true) :
    Steps s (.acquiring id none) (s, s.acquire id) := by
  unfold acquire
  split
  · exact .stop fun _ => rfl
  · split
    · exact .stop fun _ => rfl
    · next k hk =>
      split
      · next halive =>
        obtain ⟨c, hc, hid⟩ := hb.target id k hk
        rw [hc] at halive
        obtain ⟨c', hc', hlive⟩ := Lives.of_sealed hb.closed hc (Or.inl halive)
        obtain rfl : c = c' := Option.some.inj (hc.symm.trans hc')
        exact .lock hfree (fun l hl => Or.inr (List.mem_singleton.mp hl)) ⟨c, hc, hid, hlive⟩
          (fun _ => rfl) fun _ => rfl
      · exact .stop fun _ => rfl

/-- The lease is handed out behind the gate. -/
theorem acquired_steps {id : String} {k : Nat} (hfits : Task.Fits s (.acquiring id (some k))) :
    Steps s (.acquiring id (some k))
      (((s.hand k).modify k fun c => { c with runs := c.runs + 1 }).stopTimer id,
        .lease k false) := by
  obtain ⟨c, hc, hid, hlive⟩ := hfits
  have hmem : Lock.lifecycle id ∈ [Lock.lifecycle id] := List.mem_singleton.mpr rfl
  have hchange : Change [.lifecycle id] s
      (((s.hand k).modify k fun c => { c with runs := c.runs + 1 }).stopTimer id) :=
    (Change.hand ⟨c, hc, hlive⟩).trans ((Change.modify fun c _ => .runs (c.runs + 1)).trans
      (.stopTimer hmem))
  have hquiet : Quiet s
      (((s.hand k).modify k fun c => { c with runs := c.runs + 1 }).stopTimer id) :=
    Quiet.stopTimer (s := (s.hand k).modify k fun c => { c with runs := c.runs + 1 })
  refine ⟨⟨_, hchange, fun l hl => Or.inl (by simpa [Task.locks] using hl),
    fun _ hl => (by cases hl), ?_, fun j c' hc' => ?_⟩, hquiet⟩
  · obtain ⟨c', hc', _⟩ := hchange.frame.sessions k c hc
    exact (List.getElem?_eq_some_iff.mp hc').1
  · obtain ⟨c₀, hc₀, rfl⟩ := getElem?_modify (s := s.hand k) hc'
    refine Or.inl ⟨c₀, hc₀, ?_⟩
    by_cases hj : k = j
    · simp [Task.isLease, hj]
    · simp [Task.isLease, hj]

/-- The lease is cleaned up. -/
theorem cleaned_steps {k : Nat} :
    Steps s (.lease k true) (s.modify k fun c => { c with runs := c.runs - 1 }, .done) := by
  refine ⟨⟨[], Change.modify fun c _ => .runs (c.runs - 1), fun _ hl => (by cases hl),
    fun _ hl => (by cases hl), trivial, fun j c' hc' => ?_⟩, .modify⟩
  obtain ⟨c₀, hc₀, rfl⟩ := getElem?_modify hc'
  refine Or.inl ⟨c₀, hc₀, ?_⟩
  by_cases hj : k = j
  · simp [Task.isLease, hj]
  · simp [Task.isLease, hj]

theorem Quiet.hand {k : Nat} : Quiet s (s.hand k) := fun _ _ _ hc hi => ⟨hc, hi⟩

/-- The timers are forgotten. -/
theorem Change.clear (h : Lock.pass ∈ held) : Change held s { s with idle := ∅ } :=
  ⟨rfl, ⟨Nat.le_refl _, fun _ c hc => ⟨c, hc, rfl, rfl, Or.inl⟩,
      fun _ _ => ⟨rfl, Or.inr ⟨h, rfl⟩⟩⟩,
    fun h => h, fun h => h, fun h => h, fun h => h⟩

theorem Quiet.clear : Quiet s { s with idle := ∅ } := fun _ _ _ _ hi => by cases hi

theorem visitNext_steps {now : Nat} {left : List (String × Nat)} (hnow : now ≤ s.now) :
    Steps s (.reclaiming now left none) (s.visitNext now left) := by
  have hgo : ∀ left', Steps s (.reclaiming now left none) (s, .reclaiming now left' none) :=
    fun left' => .stay (fun _ hl => Or.inl hl) ⟨hnow, fun _ hv => by cases hv⟩ (fun _ => rfl)
      fun _ => rfl
  unfold visitNext
  split
  · exact .stop fun _ => rfl
  · next id k left =>
    split
    · exact hgo _
    · next hfree =>
      simp only [Bool.not_eq_true, Bool.not_eq_false'] at hfree
      split
      · exact ⟨⟨[.pass], .of_sameRuns (.clear (List.mem_singleton.mpr rfl))
          (fun _ hl => Or.inl hl) (fun _ hl => by cases hl) trivial (SameRuns.refl (s := s))
          (fun _ => rfl) fun _ => rfl⟩, .clear⟩
      · split
        · next hcurrent =>
          refine .lock hfree (fun l hl => ?_) ⟨hnow, fun v hv => ?_⟩ (fun _ => rfl) fun _ => rfl
          · simpa [Task.locks, Visit.locks] using hl
          · cases hv
            exact ⟨hcurrent, fun hready => by cases hready⟩
        · exact hgo _

theorem alive_of_any {k : Nat} (h : s.sessions[k]?.any (·.isAlive) = true) :
    ∃ c, s.sessions[k]? = some c ∧ c.isAlive = true := by
  cases hc : s.sessions[k]? with
  | none =>
    rw [hc] at h
    cases h
  | some c =>
    rw [hc] at h
    exact ⟨c, rfl, h⟩

/-- STEP: every task but a visit. -/
theorem stepTask_steps (hb : Base s) {t : Task} {ok : Bool} {r : Manager × Task}
    (hfits : t.Fits s) (hvisit : ∀ now left v, t ≠ .reclaiming now left (some v))
    (h : s.stepTask ok t = some r) : Steps s t r := by
  cases t with
  | done => cases h
  | preparing id launching =>
    cases launching with
    | false =>
      simp only [stepTask] at h
      split at h
      · next hfree =>
        cases h
        exact prepare_steps hfree
      · cases h
    | true =>
      simp only [stepTask, Option.some.injEq] at h
      subst h
      cases ok with
      | false => exact .stop fun _ => rfl
      | true =>
        have hmem : Lock.lifecycle id ∈ Task.locks (.preparing id true) :=
          List.mem_singleton.mpr rfl
        exact .gated (.inl hmem) (.insertSession (List.mem_singleton.mpr rfl))
          (fun _ hl => by cases hl) trivial .insertSession (fun _ => rfl) (fun _ => rfl)
          (.insertSession hfits)
  | outputting id =>
    simp only [stepTask] at h
    split at h
    · cases h
    · next hfree =>
      simp only [Bool.not_eq_true, Bool.not_eq_false'] at hfree
      split at h
      · cases h
        exact .lock hfree (fun _ hl => Or.inr (List.mem_singleton.mp hl)) trivial (fun _ => rfl)
          fun _ => rfl
      · cases h
        exact .stop fun _ => rfl
  | opening id k =>
    simp only [stepTask] at h
    split at h
    · cases h
    · next hfree =>
      simp only [Bool.not_eq_true, Bool.not_eq_false'] at hfree
      split at h
      · next halive =>
        cases h
        obtain ⟨c, hc, hc'⟩ := alive_of_any halive
        refine .modify (fun c₁ hc₁ => ?_) (fun _ _ => rfl) (fun l hl => ?_) ?_ (fun _ => rfl)
          fun _ => rfl
        · obtain rfl : c = c₁ := Option.some.inj (hc.symm.trans hc₁)
          exact .addOutput hc'
        · simp only [Task.locks, List.mem_cons, List.not_mem_nil, or_false] at hl ⊢
          rcases hl with rfl | rfl
          · exact Or.inl rfl
          · exact Or.inr hfree
        · exact (Lives.of_sealed hb.closed hc (Or.inl hc')).modify fun _ => rfl
      · cases h
        exact .stop fun _ => rfl
  | starting id k =>
    simp only [stepTask] at h
    split at h
    · cases h
      have hmem : Lock.lifecycle id ∈ Task.locks (.starting id k) := List.mem_cons_self ..
      exact .gated (.inl hmem) ((Change.hand hfits).trans (.stopTimer (List.mem_singleton.mpr rfl)))
        (fun _ hl => by cases hl) trivial (.refl (s := s)) (fun _ => rfl) (fun _ => rfl)
        (Quiet.stopTimer (s := s.hand k))
    · cases h
      exact .modify (fun _ _ => .dropOutput) (fun _ _ => rfl) (fun _ hl => by cases hl) trivial
        (fun _ => rfl) fun _ => rfl
  | closing id forced entered =>
    cases entered with
    | false =>
      simp only [stepTask] at h
      split at h
      · next hfree =>
        cases h
        exact close_steps hfree
      · cases h
    | true =>
      cases h
      exact .stop fun _ => rfl
  | rebinding id =>
    simp only [stepTask] at h
    split at h
    · cases h
    · next hfree =>
      simp only [Bool.not_eq_true, Bool.not_eq_false'] at hfree
      split at h
      · cases h
        exact .lock hfree (fun _ hl => Or.inr (List.mem_singleton.mp hl)) trivial (fun _ => rfl)
          fun _ => rfl
      · cases h
        exact .stop fun _ => rfl
  | binding id k gated =>
    cases gated with
    | false =>
      simp only [stepTask] at h
      split at h
      · cases h
      · next hfree =>
        simp only [Bool.not_eq_true, Bool.not_eq_false'] at hfree
        split at h
        · cases h
          refine .lock hfree (fun l hl => ?_) trivial (fun _ => rfl) fun _ => rfl
          simpa [Task.locks] using hl
        · cases h
          exact .stop fun _ => rfl
    | true =>
      simp only [stepTask] at h
      split at h
      · cases h
        refine .modify (fun _ _ => .close) (fun _ _ => rfl) (fun l hl => Or.inl ?_) trivial
          (fun _ => rfl) fun _ => rfl
        simp only [Task.locks, List.mem_singleton] at hl ⊢
        simp [hl]
      · cases h
        exact .stop fun _ => rfl
  | swapping id =>
    cases h
    have hmem : Lock.lifecycle id ∈ [Lock.lifecycle id] := List.mem_singleton.mpr rfl
    exact .gated (.inl hmem) ((Change.insertSession hmem).trans (.stopTimer hmem))
      (fun _ hl => by cases hl) trivial SameRuns.insertSession (fun _ => rfl)
      (fun _ => rfl) .replace
  | saving id entered =>
    cases entered with
    | false =>
      simp only [stepTask] at h
      split at h
      · next hfree =>
        cases h
        exact .lock hfree (fun _ hl => Or.inr (List.mem_singleton.mp hl)) trivial (fun _ => rfl)
          fun _ => rfl
      · cases h
    | true =>
      cases h
      exact .stop fun _ => rfl
  | acquiring id k =>
    cases k with
    | none =>
      simp only [stepTask] at h
      split at h
      · next hfree =>
        cases h
        exact acquire_steps hb hfree
      · cases h
        exact .stop fun _ => rfl
    | some k =>
      cases h
      exact acquired_steps hfits
  | lease k cleaning =>
    cases cleaning with
    | false =>
      cases h
      refine ⟨⟨[], .refl, fun _ hl => (by cases hl), fun _ hl => (by cases hl), hfits,
        fun j c hc => Or.inl ⟨c, hc, rfl⟩⟩, .refl⟩
    | true =>
      cases h
      exact cleaned_steps
  | viewer k attached =>
    cases attached with
    | false =>
      simp only [stepTask] at h
      split at h
      · cases h
      · next hfree =>
        simp only [Bool.not_eq_true, Bool.not_eq_false'] at hfree
        cases h
        split
        · exact .lock hfree (fun _ hl => Or.inr (List.mem_singleton.mp hl)) trivial (fun _ => rfl)
            fun _ => rfl
        · exact .stop fun _ => rfl
    | true =>
      cases h
      exact .stop fun _ => rfl
  | streaming op k entered =>
    cases entered with
    | false =>
      simp only [stepTask] at h
      split at h
      · cases h
      · next hfree =>
        simp only [Bool.not_eq_true, Bool.not_eq_false'] at hfree
        split at h
        · next c' henter =>
          cases h
          obtain ⟨c, hc, hc'⟩ := Option.bind_eq_some_iff.mp henter
          have hsame : ∀ c₁, s.sessions[k]? = some c₁ → c = c₁ := fun c₁ hc₁ =>
            Option.some.inj (hc.symm.trans hc₁)
          refine .modify (fun c₁ hc₁ => hsame c₁ hc₁ ▸ .enter hc') (fun c₁ hc₁ => ?_)
            (fun l hl => Or.inr (List.mem_singleton.mp hl ▸ hfree)) (fun hop => ?_) (fun _ => rfl)
            fun _ => rfl
          · exact hsame c₁ hc₁ ▸ StreamOp.enter_runs hc'
          · obtain ⟨c₁, hc₁, hlive⟩ := Lives.of_sealed hb.closed hc (StreamOp.enter_hands hc' hop)
            obtain rfl := hsame c₁ hc₁
            exact ⟨c', by simp [Manager.modify, hc], (Mild.enter hc').reclaimed.trans hlive⟩
        · cases h
          exact .stop fun _ => rfl
    | true =>
      simp only [stepTask, Option.some.injEq] at h
      subst h
      have hleave : ∀ c : CdpSession, (op.leave ok c).runs = c.runs := by
        intro c
        cases op <;> cases ok <;> rfl
      split
      · next hhand =>
        simp only [Bool.and_eq_true] at hhand
        refine ⟨⟨[], .of_sameRuns ((Change.hand (hfits hhand.2)).trans
          (.modify fun _ _ => .leave)) (fun _ hl => by cases hl) (fun _ hl => by cases hl) trivial
            (SameRuns.modify (s := s.hand k) fun c _ => hleave c) (fun _ => rfl) fun _ => rfl⟩,
          Quiet.modify (s := s.hand k)⟩
      · exact .modify (fun _ _ => .leave) (fun c _ => hleave c) (fun _ hl => by cases hl) trivial
          (fun _ => rfl) fun _ => rfl
  | input k entered =>
    cases entered with
    | false =>
      simp only [stepTask] at h
      split at h
      · next hfree =>
        cases h
        exact .lock hfree (fun _ hl => Or.inr (List.mem_singleton.mp hl)) trivial (fun _ => rfl)
          fun _ => rfl
      · cases h
    | true =>
      cases h
      exact .stop fun _ => rfl
  | reclaiming now left v =>
    cases v with
    | some v => exact absurd rfl (hvisit now left v)
    | none =>
      cases h
      exact visitNext_steps hfits.1

/-! ### The steps of a visit -/

/-- The visit holds the viewer, so nobody views. -/
theorem not_viewed (hb : Base s) {i : Nat} {t : Task} {k : Nat} (ht : s.tasks[i]? = some t)
    (hlock : Lock.viewer k ∈ t.locks) (hnot : t.isViewer k = false) :
    s.tasks.any (Task.isViewer k) = false := by
  refine List.any_eq_false.mpr fun u hu hview => ?_
  obtain ⟨j, hj⟩ := List.mem_iff_getElem?.mp hu
  cases u with
  | viewer k' attached =>
    cases attached with
    | false => cases hview
    | true =>
      obtain rfl : k' = k := of_decide_eq_true hview
      obtain rfl := hb.sole hj ht (List.mem_singleton.mpr rfl) hlock
      rw [hj] at ht
      cases ht
      rw [hview] at hnot
      cases hnot
  | _ => cases hview

/-- SAFETY: what the last step finds in order has been out of use for the grace. -/
theorem rested_of_sealing (hb : Base s) (htimed : Timed s) {i now : Nat}
    {left : List (String × Nat)} {v : Visit} {c : CdpSession}
    (ht : s.tasks[i]? = some (.reclaiming now left (some v))) (hc : s.sessions[v.session]? = some c)
    (hstage : v.stage = .sealing) (hexternal : s.external.contains v.id = false)
    (hconsumers : c.hasStreamConsumers = false) (hruns : c.runs = 0)
    (howner : s.owners.contains v.id = false) :
    Closing.Rested ⟨v.session, s.now, v.secs, s.used v.session c, c.lastUse⟩ := by
  obtain ⟨hnow, hfits⟩ := hb.fits i _ ht
  have hv := hfits v rfl
  have hid : c.id = v.id := by
    obtain ⟨c', hc', hid⟩ := hb.target _ _ hv.current
    obtain rfl : c = c' := Option.some.inj (hc.symm.trans hc')
    exact hid
  have hview : s.tasks.any (Task.isViewer v.session) = false :=
    not_viewed hb ht (by simp [Task.locks, Visit.locks, hstage]) rfl
  have hused : s.used v.session c = false := by
    simp only [used, hruns, hconsumers, hview, hid, howner, hexternal]
    rfl
  obtain ⟨t, hidle, hle⟩ := hv.ready (by rw [hstage]; rfl)
  refine ⟨hused, fun u hu => ?_⟩
  rcases htimed v.id v.session c t hv.current hc hidle with hbusy | hlast
  · rw [hused] at hbusy
    cases hbusy
  · have hut := hlast u hu
    have hnow' : now ≤ s.now := hnow
    change u + ofSecs v.secs ≤ s.now
    omega

theorem Change.markClosed {v : Visit} {c : CdpSession} (hc : s.sessions[v.session]? = some c)
    (hid : c.id = v.id) (hconsumers : c.hasStreamConsumers = false)
    (hrested : Closing.Rested ⟨v.session, s.now, v.secs, s.used v.session c, c.lastUse⟩) :
    Change [.lifecycle v.id, .stream v.session] s (s.markClosed v c) := by
  have hget : ∀ (k : Nat) c₀, s.sessions[k]? = some c₀ → (s.markClosed v c).sessions[k]? =
      some (if v.session = k then { c₀.close with reclaimed := true } else c₀) := by
    intro k c₀ hc₀
    simp only [Manager.markClosed, Manager.modify, List.getElem?_modify, hc₀, Option.map_eq_map,
      Option.map_some]
  refine ⟨rfl, ⟨Nat.le_refl _, fun k c₀ hc₀ => ?_, fun _ _ => ⟨rfl, Or.inl rfl⟩⟩,
    fun ht id k hk => ?_, fun hs k c' hc' hr => ?_, fun hall c' hc' => ?_, fun h => h⟩
  · refine ⟨_, hget k c₀ hc₀, ?_⟩
    split
    · next hk =>
      subst hk
      obtain rfl : c = c₀ := Option.some.inj (hc.symm.trans hc₀)
      exact ⟨rfl, rfl, fun _ => Or.inr ⟨by simp, by simp [hid]⟩⟩
    · exact ⟨rfl, rfl, Or.inl⟩
  · obtain ⟨c₀, hc₀, hid₀⟩ := ht id k hk
    refine ⟨_, hget k c₀ hc₀, ?_⟩
    split
    · exact hid₀
    · exact hid₀
  · obtain ⟨c₀, hc₀, rfl⟩ := getElem?_modify (s := s) hc'
    split at hr
    · next hk =>
      subst hk
      obtain rfl : c = c₀ := Option.some.inj (hc.symm.trans hc₀)
      rw [if_pos rfl]
      exact ⟨rfl, hconsumers⟩
    · next hk =>
      rw [if_neg hk]
      exact hs k c₀ hc₀ hr
  · rcases List.mem_cons.mp hc' with rfl | hold
    · exact hrested
    · exact hall c' hold

/-- The sample is written into the timer. -/
theorem Change.setTimer {id : String} {timer : IdleTimer} (h : Lock.lifecycle id ∈ held) :
    Change held s { s with idle := s.idle.set id timer } := by
  refine ⟨rfl, ⟨Nat.le_refl _, fun _ c hc => ⟨c, hc, rfl, rfl, Or.inl⟩, fun id' hid => ?_⟩,
    fun h => h, fun h => h, fun h => h, fun h => h⟩
  have hne : id' ≠ id := by
    rintro rfl
    exact hid h
  exact ⟨rfl, Or.inl (Table.get_set_ne hne _ _)⟩

/-- STEP: a visit. -/
theorem visit_advance (hb : Base s) (htimed : Timed s) {i now : Nat} {left : List (String × Nat)}
    {v : Visit} {c : CdpSession} (ht : s.tasks[i]? = some (.reclaiming now left (some v)))
    (hc : s.sessions[v.session]? = some c)
    (hexternal : v.stage = .sealing → s.external.contains v.id = false) :
    ∃ held, Advance held s (.reclaiming now left (some v)) (s.visitStep now left v c) := by
  obtain ⟨hnow, hfits⟩ := hb.fits i _ ht
  obtain ⟨hcurrent, hready⟩ := hfits v rfl
  have hgate : Lock.lifecycle v.id ∈ Task.locks (.reclaiming now left (some v)) := by
    simp [Task.locks, Visit.locks]
  have hmem : Lock.lifecycle v.id ∈ [Lock.lifecycle v.id] := List.mem_singleton.mpr rfl
  have hone : ∀ l ∈ [Lock.lifecycle v.id],
      l ∈ Task.locks (.reclaiming now left (some v)) ∨ s.free l = true := fun l hl =>
    Or.inl (List.mem_singleton.mp hl ▸ hgate)
  have hpass : ∀ l ∈ Task.locks (.reclaiming now left none),
      l ∈ Task.locks (.reclaiming now left (some v)) ∨ s.free l = true := fun l hl =>
    Or.inl (List.mem_singleton.mp hl ▸ List.mem_cons_self ..)
  have hgiveUp : ∃ held, Advance held s (.reclaiming now left (some v)) (s.giveUp now left v) :=
    ⟨_, .of_sameRuns (.stopTimer hmem) hone hpass ⟨hnow, fun _ hv => by cases hv⟩ .refl
      (fun _ => rfl) fun _ => rfl⟩
  -- a stage that changes nothing but what the visit holds
  have hstay : ∀ stage,
      (∀ l ∈ Visit.locks { v with stage := stage }, l ∈ v.locks ∨ s.free l = true) →
      (stage.ready = true → v.stage.ready = true) →
      ∃ held, Advance held s (.reclaiming now left (some v))
        (s, .reclaiming now left (some { v with stage := stage })) := by
    intro stage hlocks hstage
    refine ⟨[], .stay (fun l hl => ?_) ⟨hnow, fun v' hv' => ?_⟩ (fun _ => rfl) fun _ => rfl⟩
    · rcases List.mem_cons.mp hl with rfl | hl
      · exact Or.inl (List.mem_cons_self ..)
      · exact (hlocks l hl).imp (List.mem_cons_of_mem _) id
    · cases hv'
      exact ⟨hcurrent, fun h => hready (hstage h)⟩
  unfold visitStep
  cases hstage : v.stage with
  | probing probes =>
    cases probes with
    | nil =>
      exact hstay _ (fun l hl => Or.inl (by simpa [Visit.locks, hstage] using hl))
        fun h => by cases h
    | cons p probes =>
      simp only
      split
      · exact hstay _ (fun l hl => Or.inl (by simpa [Visit.locks, hstage] using hl))
          fun h => by cases h
      · exact hstay _ (fun l hl => Or.inl (by simpa [Visit.locks, hstage] using hl))
          fun h => by cases h
  | timing busy =>
    simp only
    refine ⟨[.lifecycle v.id], .of_sameRuns (.setTimer hmem) hone (fun l hl => ?_)
      ⟨hnow, fun v' hv' => ?_⟩ (SameRuns.refl (s := s)) (fun _ => rfl) fun _ => rfl⟩
    · split at hl
      · exact Or.inl (by simpa [Task.locks, Visit.locks, hstage] using hl)
      · exact hpass l hl
    · split at hv'
      · next hover =>
        cases hv'
        obtain ⟨t, htimer, hle⟩ := IdleTimer.ready_fst hover
        exact ⟨hcurrent, fun _ => ⟨t, by rw [Table.get_set_self, sample, htimer], hle⟩⟩
      · cases hv'
  | reserving =>
    simp only
    split
    · next hfree =>
      refine hstay _ (fun l hl => ?_) fun _ => by rw [hstage]; rfl
      simp only [Visit.locks, hstage, List.mem_cons, List.not_mem_nil, or_false] at hl ⊢
      rcases hl with rfl | rfl
      · exact Or.inl rfl
      · exact Or.inr hfree
    · exact hgiveUp
  | checking =>
    simp only
    split
    · exact hgiveUp
    · exact hstay _ (fun l hl => Or.inl (by simpa [Visit.locks, hstage] using hl))
        fun _ => by rw [hstage]; rfl
  | streaming =>
    simp only
    split
    · next hfree =>
      refine hstay _ (fun l hl => ?_) fun _ => by rw [hstage]; rfl
      simp only [Visit.locks, hstage, List.mem_cons, List.not_mem_nil, or_false] at hl ⊢
      rcases hl with rfl | rfl | rfl
      · exact Or.inl (Or.inl rfl)
      · exact Or.inl (Or.inr rfl)
      · exact Or.inr hfree
    · exact hgiveUp
  | gating =>
    simp only
    split
    · next hfree =>
      refine hstay _ (fun l hl => ?_) fun _ => by rw [hstage]; rfl
      simp only [Visit.locks, hstage, List.mem_cons, List.not_mem_nil, or_false] at hl ⊢
      rcases hl with rfl | rfl | rfl | rfl
      · exact Or.inl (Or.inl rfl)
      · exact Or.inl (Or.inr (Or.inl rfl))
      · exact Or.inl (Or.inr (Or.inr rfl))
      · exact Or.inr hfree
    · exact hgiveUp
  | sealing =>
    simp only
    split
    · exact hgiveUp
    · next hclear =>
      simp only [Bool.or_eq_true, Bool.not_eq_true', not_or, Bool.not_eq_false, Bool.not_eq_true,
        decide_eq_true_eq, ne_eq, not_not] at hclear
      obtain ⟨⟨⟨_, hconsumers⟩, hruns⟩, howner⟩ := hclear
      have hid : c.id = v.id := by
        obtain ⟨c', hc', hid⟩ := hb.target _ _ hcurrent
        obtain rfl : c = c' := Option.some.inj (hc.symm.trans hc')
        exact hid
      have hrested := rested_of_sealing hb htimed ht hc hstage (hexternal hstage) hconsumers hruns
        howner
      refine ⟨_, .of_sameRuns (.markClosed hc hid hconsumers hrested) (fun l hl => ?_)
        (fun l hl => ?_) ⟨hnow, fun v' hv' => ?_⟩ (fun k c' hc' => ?_) (fun _ => rfl) fun _ => rfl⟩
      · simp only [List.mem_cons, List.not_mem_nil, or_false] at hl
        rcases hl with rfl | rfl
        · exact Or.inl hgate
        · exact Or.inl (by simp [Task.locks, Visit.locks, hstage])
      · refine Or.inl ?_
        simp only [Task.locks, Visit.locks, hstage, List.mem_cons, List.not_mem_nil,
          or_false] at hl ⊢
        rcases hl with rfl | rfl | rfl | rfl
        · exact Or.inl rfl
        · exact Or.inr (Or.inl rfl)
        · exact Or.inr (Or.inr (Or.inl rfl))
        · exact Or.inr (Or.inr (Or.inr (Or.inl rfl)))
      · cases hv'
        exact ⟨hcurrent, fun h => by cases h⟩
      · obtain ⟨c₀, hc₀, rfl⟩ := getElem?_modify (s := s) hc'
        refine Or.inl ⟨c₀, hc₀, ?_⟩
        split
        · rfl
        · rfl
  | closing =>
    exact ⟨_, .of_sameRuns ((Change.stopTimer hmem).trans
      (.forget (s := s.stopTimer v.id) hmem)) hone hpass ⟨hnow, fun _ hv => by cases hv⟩
        (SameRuns.refl (s := s)) (fun _ => rfl) fun _ => rfl⟩

/-- Only an idle sample starts a timer. -/
theorem visit_quiet {now : Nat} {left : List (String × Nat)} {v : Visit} {c : CdpSession}
    (hstage : v.stage ≠ .timing false) : Quiet s (s.visitStep now left v c).1 := by
  unfold visitStep
  cases h : v.stage with
  | probing probes =>
    cases probes with
    | nil => exact .refl
    | cons p probes => exact .refl
  | timing busy =>
    cases busy with
    | false => exact absurd h hstage
    | true =>
      intro id k t hcurrent hidle
      simp only [Table.get_set] at hidle
      split at hidle
      · cases (IdleTimer.ready_snd (Option.some.inj hidle)).1
      · exact ⟨hcurrent, hidle⟩
  | reserving =>
    simp only
    split
    · exact .refl
    · exact .stopTimer
  | checking =>
    simp only
    split
    · exact .stopTimer
    · exact .refl
  | streaming =>
    simp only
    split
    · exact .refl
    · exact .stopTimer
  | gating =>
    simp only
    split
    · exact .refl
    · exact .stopTimer
  | sealing =>
    simp only
    split
    · exact .stopTimer
    · exact fun _ _ _ hc hi => ⟨hc, hi⟩
  | closing => exact Quiet.stopTimer.trans (.forget (s := s.stopTimer v.id))

/-! ### The timers over a step -/

theorem timed_of_quiet (hb : Base s) (htimed : Timed s) (hframe : Frame held s s₁)
    (hquiet : Quiet s s₁)
    (hseen : ∀ (k : Nat) c c', s.sessions[k]? = some c → s₁.sessions[k]? = some c' →
      s.used k c = true → s₁.used k c' = false → s.timerRuns k c.id = false) : Timed s₁ := by
  intro id k c' t hcurrent hc' hidle
  obtain ⟨hcurrent₀, hidle₀⟩ := hquiet id k t hcurrent hidle
  obtain ⟨c, hc, hid⟩ := hb.target id k hcurrent₀
  obtain ⟨c₁, hc₁, _, huse, _⟩ := hframe.sessions k c hc
  obtain rfl : c' = c₁ := Option.some.inj (hc'.symm.trans hc₁)
  cases hused : s₁.used k c' with
  | true => exact Or.inl rfl
  | false =>
    rcases htimed id k c t hcurrent₀ hc hidle₀ with hbusy | hlast
    · have hruns := hseen k c c' hc hc' hbusy hused
      simp [timerRuns, hid, hcurrent₀, hidle₀] at hruns
    · exact Or.inr (huse ▸ hlast)

/-- A task that views neither before nor after changes no use. -/
theorem used_set {i : Nat} {t t' : Task} (ht : s.tasks[i]? = some t)
    (hview : ∀ k, t.isViewer k = false) (hview' : ∀ k, t'.isViewer k = false)
    {table : Table String IdleTimer} (k : Nat) (c : CdpSession) :
    ({ s with idle := table, tasks := s.tasks.set i t' } : Manager).used k c = s.used k c := by
  have hany : (s.tasks.set i t').any (Task.isViewer k) = s.tasks.any (Task.isViewer k) := by
    refine Bool.eq_iff_iff.mpr ?_
    simp only [List.any_eq_true]
    constructor
    · rintro ⟨u, hu, hviews⟩
      obtain ⟨j, hj⟩ := List.mem_iff_getElem?.mp hu
      rcases (Token.getElem?_set_eq_some ht).mp hj with ⟨_, rfl⟩ | ⟨_, hold⟩
      · rw [hview' k] at hviews
        cases hviews
      · exact ⟨u, List.mem_of_getElem? hold, hviews⟩
    · rintro ⟨u, hu, hviews⟩
      obtain ⟨j, hj⟩ := List.mem_iff_getElem?.mp hu
      by_cases hi : j = i
      · subst hi
        rw [ht] at hj
        cases hj
        rw [hview k] at hviews
        cases hviews
      · exact ⟨u, List.mem_of_getElem? ((Token.getElem?_set_eq_some ht).mpr (Or.inr ⟨hi, hj⟩)),
          hviews⟩
  simp only [used, hany]

/-- The idle sample of a visit starts its timer no earlier than the last use. -/
theorem timed_of_sample (hb : Base s) (htimed : Timed s) {i now : Nat}
    {left : List (String × Nat)} {v : Visit} {c : CdpSession} {t' : Task}
    (ht : s.tasks[i]? = some (.reclaiming now left (some v)))
    (hview : ∀ k, t'.isViewer k = false) (hc : s.sessions[v.session]? = some c)
    (htimely : s.used v.session c = true ∨ ∀ u, c.lastUse = some u → u ≤ now) :
    Timed { s with
      idle := s.idle.set v.id (s.sample now v false).2
      tasks := s.tasks.set i t' } := by
  have hfits := (hb.fits i _ ht).2 v rfl
  intro id k c' t hcurrent hc' hidle
  rw [used_set ht (fun _ => rfl) hview]
  simp only [Table.get_set] at hidle
  split at hidle
  · next heq =>
    subst heq
    obtain rfl : k = v.session := Option.some.inj (hcurrent.symm.trans hfits.current)
    obtain rfl : c = c' := Option.some.inj (hc.symm.trans hc')
    rcases (IdleTimer.ready_snd (Option.some.inj hidle)).2 with hsince | ⟨_, rfl⟩
    · refine htimed v.id v.session c t hfits.current hc ?_
      cases hold : s.idle.get v.id with
      | none =>
        rw [hold] at hsince
        cases hsince
      | some timer =>
        rw [hold] at hsince
        obtain ⟨since⟩ := timer
        exact congrArg (fun x => some (IdleTimer.mk x)) hsince
    · exact htimely
  · exact htimed id k c' t hcurrent hc' hidle

/-! ### The invariant over a step -/

/-- INVARIANT -/
structure Inv (s : Manager) : Prop where
  base : Base s
  timed : Timed s

theorem Frame.setTasks (h : Frame held s s₁) (tasks : List Task) :
    Frame held s { s₁ with tasks := tasks } :=
  ⟨h.now, h.sessions, h.tables⟩

/-- STEP: a change outside of the tasks. -/
theorem Inv.change (h : Inv s) {m : Move} (hkept : s.Kept m) (hact : s.act m = some s₁)
    (hc : Change [] s s₁) (hruns : SameRuns s s₁) (hquiet : Quiet s s₁) : Inv s₁ :=
  ⟨h.base.change hc hruns, timed_of_quiet h.base h.timed hc.frame hquiet fun _ _ _ =>
    seen_spec hkept.1 hact⟩

/-- STEP: a task that comes. -/
theorem Inv.push (h : Inv s) {m : Move} {t : Task} (hkept : s.Kept m)
    (hact : s.act m = some (s.push t)) (hlocks : ∀ l ∈ t.locks, s.free l = true)
    (hfits : t.Fits s) (hlease : ∀ k, t.isLease k = false) : Inv (s.push t) :=
  have hframe : Frame [] s (s.push t) := .setTasks .refl _
  ⟨h.base.push hlocks hfits hlease, timed_of_quiet h.base h.timed hframe
    (fun _ _ _ hc hi => ⟨hc, hi⟩) fun _ _ _ => seen_spec hkept.1 hact⟩

theorem Call.task_spec (call : Call) : call.task.locks = [] ∧ (∀ s, call.task.Fits s) ∧
    ∀ k, call.task.isLease k = false := by
  cases call <;> exact ⟨rfl, fun _ => trivial, fun _ => rfl⟩

/-- STEP: a task that goes on without a timer's start. -/
theorem Inv.steps (h : Inv s) {m : Move} {i : Nat} {t : Task} {r : Manager × Task}
    (hkept : s.Kept m) (hact : s.act m = some { r.1 with tasks := r.1.tasks.set i r.2 })
    (ht : s.tasks[i]? = some t) (hs : Steps s t r) :
    Inv { r.1 with tasks := r.1.tasks.set i r.2 } := by
  obtain ⟨⟨held, ha⟩, hquiet⟩ := hs
  exact ⟨h.base.advance ht ha, timed_of_quiet h.base h.timed (ha.change.frame.setTasks _)
    (fun id k t hc hi => hquiet id k t hc hi) fun _ _ _ => seen_spec hkept.1 hact⟩

/-- A future that is dropped lets its locks go. -/
theorem dropTask_steps {t t' : Task} (hfits : t.Fits s) (h : dropTask t = some t') :
    Steps s t (s, t') := by
  have hlease : ∀ k cleaning, Steps s (.lease k cleaning) (s, .lease k true) ∨
      ¬ k < s.sessions.length := by
    intro k cleaning
    by_cases hk : k < s.sessions.length
    · exact Or.inl ⟨⟨[], .refl, fun _ hl => (by cases hl), fun _ hl => (by cases hl), hk,
        fun j c hc => Or.inl ⟨c, hc, rfl⟩⟩, .refl⟩
    · exact Or.inr hk
  cases t with
  | done => cases h
  | acquiring id k => cases h
  | lease k cleaning =>
    cases h
    rcases hlease k cleaning with hs | hnot
    · exact hs
    · exact absurd hfits hnot
  | reclaiming now left v =>
    cases v with
    | none => cases h
    | some v =>
      simp only [dropTask] at h
      split at h
      · cases h
        exact .stop fun _ => rfl
      · cases h
  | _ =>
    cases h
    exact .stop fun _ => rfl

/-- STEP: of a visit. -/
theorem Inv.visit (h : Inv s) {i now : Nat} {left : List (String × Nat)} {v : Visit}
    {c : CdpSession} {ok : Bool} (hkept : s.Kept (.step i ok))
    (ht : s.tasks[i]? = some (.reclaiming now left (some v)))
    (hc : s.sessions[v.session]? = some c)
    (hact : s.act (.step i ok) = some
      { (s.visitStep now left v c).1 with
        tasks := (s.visitStep now left v c).1.tasks.set i (s.visitStep now left v c).2 }) :
    Inv { (s.visitStep now left v c).1 with
      tasks := (s.visitStep now left v c).1.tasks.set i (s.visitStep now left v c).2 } := by
  have hvisit : s.visitOf (.step i ok) = some (now, v) := by simp [visitOf, ht]
  obtain ⟨held, ha⟩ := visit_advance h.base h.timed ht hc (timely_sealing hkept.2 hvisit hc)
  by_cases hstage : v.stage = .timing false
  · refine ⟨h.base.advance ht ha, ?_⟩
    have hstep : s.visitStep now left v c =
        ({ s with idle := s.idle.set v.id (s.sample now v false).2 }, .reclaiming now left
          (if (s.sample now v false).1 then some { v with stage := .reserving } else none)) := by
      simp only [visitStep, hstage]
    rw [hstep]
    exact timed_of_sample h.base h.timed ht (fun _ => rfl) hc
      (timely_sample hkept.2 hvisit hc hstage)
  · exact h.steps hkept hact ht ⟨⟨held, ha⟩, visit_quiet hstage⟩

/-- STEP: of anybody. -/
theorem Inv.act (h : Inv s) {m : Move} (hkept : s.Kept m) (hact : s.act m = some s₁) :
    Inv s₁ := by
  have hquiet : ∀ {s₁ : Manager}, s₁.current = s.current → s₁.idle = s.idle → Quiet s s₁ :=
    fun hc hi id k t h₁ h₂ => ⟨hc ▸ h₁, hi ▸ h₂⟩
  have hplain : ∀ {s₁ : Manager}, s₁.tasks = s.tasks → s₁.sessions = s.sessions →
      s₁.current = s.current → s₁.idle = s.idle → s₁.closings = s.closings →
      s₁.handed = s.handed → s.now ≤ s₁.now → Change [] s s₁ := by
    intro s₁ htasks hsessions hcurrent hidle hclosings hhanded hnow
    refine ⟨htasks, ⟨hnow, fun k c hc => ⟨c, hsessions ▸ hc, rfl, rfl, Or.inl⟩,
      fun id _ => ⟨by rw [hcurrent], Or.inl (by rw [hidle])⟩⟩, fun ht => ?_, fun hs => ?_,
      fun h => hclosings ▸ h, fun h => hhanded ▸ h⟩
    · intro id k hk
      rw [hcurrent] at hk
      rw [hsessions]
      exact ht id k hk
    · intro k c hc
      rw [hsessions] at hc
      exact hs k c hc
  have hsame : ∀ {s₁ : Manager}, s₁.sessions = s.sessions → SameRuns s s₁ := fun hs k c hc =>
    Or.inl ⟨c, hs ▸ hc, rfl⟩
  cases m with
  | tick elapsed =>
    have hact₀ := hact
    cases hact
    exact h.change hkept hact₀ (hplain rfl rfl rfl rfl rfl rfl (Nat.le_add_right _ _)) (hsame rfl)
      (hquiet rfl rfl)
  | fail k =>
    have hact₀ := hact
    cases hact
    exact h.change hkept hact₀ (.modify fun _ _ => .close) (.modify fun _ _ => rfl) .modify
  | releaseOutput k =>
    have hact₀ := hact
    cases hact
    exact h.change hkept hact₀ (.modify fun _ _ => .dropOutput) (.modify fun _ _ => rfl) .modify
  | shutdown id =>
    have hact₀ := hact
    cases hact
    exact h.push hkept hact₀ (fun _ hl => by cases hl) trivial fun _ => rfl
  | call call =>
    have hact₀ := hact
    cases hact
    obtain ⟨hlocks, hfits, hlease⟩ := Call.task_spec call
    exact h.push hkept hact₀ (fun _ hl => by rw [hlocks] at hl; cases hl) (hfits s) hlease
  | reclaimIdle =>
    have hact₀ := hact
    simp only [Manager.act, reclaimIdle] at hact
    split at hact
    · cases hact
    · next hfree =>
      simp only [Bool.not_eq_true, Bool.not_eq_false'] at hfree
      split at hact
      · cases hact
        refine ⟨⟨h.base.sole, fun i t ht => ?_, h.base.target, h.base.closed,
          ⟨h.base.promise.idle, h.base.promise.counted, h.base.promise.live⟩⟩,
          fun _ _ _ _ _ _ hi => by cases hi⟩
        refine (Change.clear (List.mem_singleton.mpr rfl)).frame.fits (fun l hl hheld => ?_)
          (h.base.fits i t ht)
        rw [List.mem_singleton.mp hheld] at hl
        exact not_mem_of_free hfree ht hl
      · cases hact
        refine h.push hkept hact₀ (fun l hl => ?_) ⟨Nat.le_refl _, fun _ hv => by cases hv⟩
          fun _ => rfl
        exact List.mem_singleton.mp hl ▸ hfree
  | step i ok =>
    have hact₀ := hact
    simp only [Manager.act] at hact
    obtain ⟨t, ht, hact⟩ := Option.bind_eq_some_iff.mp hact
    obtain ⟨r, hr, rfl⟩ := Option.map_eq_some_iff.mp hact
    by_cases hvisit : ∃ now left v, t = .reclaiming now left (some v)
    · obtain ⟨now, left, v, rfl⟩ := hvisit
      obtain ⟨c, hc, rfl⟩ := Option.map_eq_some_iff.mp hr
      exact h.visit hkept ht hc hact₀
    · exact h.steps hkept hact₀ ht (stepTask_steps h.base (h.base.fits i t ht)
        (fun now left v heq => hvisit ⟨now, left, v, heq⟩) hr)
  | drop i =>
    have hact₀ := hact
    simp only [Manager.act] at hact
    obtain ⟨t, ht, hact⟩ := Option.bind_eq_some_iff.mp hact
    obtain ⟨t', ht', rfl⟩ := Option.map_eq_some_iff.mp hact
    exact h.steps (r := (s, t')) hkept hact₀ ht (dropTask_steps (h.base.fits i t ht) ht')
  | _ =>
    have hact₀ := hact
    cases hact
    exact h.change hkept hact₀ (hplain rfl rfl rfl rfl rfl rfl (Nat.le_refl _)) (hsame rfl)
      (hquiet rfl rfl)

/-! ### The runs -/

theorem getElem?_observe (k : Nat) :
    s.observe.sessions[k]? = s.sessions[k]?.map (s.observed k) :=
  List.getElem?_mapIdx

theorem observe_get {k : Nat} {c' : CdpSession} (h : s.observe.sessions[k]? = some c') :
    ∃ c, s.sessions[k]? = some c ∧ c' = s.observed k c := by
  rw [getElem?_observe] at h
  obtain ⟨c, hc, rfl⟩ := Option.map_eq_some_iff.mp h
  exact ⟨c, hc, rfl⟩

theorem observe_of_get {k : Nat} {c : CdpSession} (h : s.sessions[k]? = some c) :
    s.observe.sessions[k]? = some (s.observed k c) := by
  rw [getElem?_observe, h]
  rfl

/-- FRAME: a task reads nothing that the observation changes. -/
theorem fits_observe {t : Task} (h : t.Fits s) : t.Fits s.observe := by
  have hlives : ∀ {k}, s.Lives k → s.observe.Lives k := fun ⟨c, hc, hlive⟩ =>
    ⟨_, observe_of_get hc, hlive⟩
  cases t with
  | preparing id launching => cases launching <;> exact h
  | acquiring id k =>
    cases k with
    | none => trivial
    | some k =>
      obtain ⟨c, hc, hid, hlive⟩ := h
      exact ⟨_, observe_of_get hc, hid, hlive⟩
  | starting id k => exact hlives h
  | streaming op k entered =>
    cases entered with
    | false => trivial
    | true => exact fun hop => hlives (h hop)
  | lease k cleaning =>
    have hlen : s.observe.sessions.length = s.sessions.length := List.length_mapIdx
    exact Nat.lt_of_lt_of_eq h hlen.symm
  | reclaiming now left v => exact ⟨h.1, fun v' hv => ⟨(h.2 v' hv).1, (h.2 v' hv).2⟩⟩
  | _ => trivial

/-- STEP: the observation. -/
theorem Inv.observe (h : Inv s) : Inv s.observe := by
  refine ⟨⟨h.base.sole, fun i t ht => fits_observe (h.base.fits i t ht), fun id k hk => ?_,
    fun k c' hc' hr => ?_, ⟨h.base.promise.idle, fun k c' hc' => ?_, h.base.promise.live⟩⟩,
    fun id k c' t hcurrent hc' hidle => ?_⟩
  · obtain ⟨c, hc, hid⟩ := h.base.target id k hk
    exact ⟨_, observe_of_get hc, hid⟩
  · obtain ⟨c, hc, rfl⟩ := observe_get hc'
    exact h.base.closed k c hc hr
  · obtain ⟨c, hc, rfl⟩ := observe_get hc'
    exact h.base.promise.counted k c hc
  · obtain ⟨c, hc, rfl⟩ := observe_get hc'
    have hsame : s.observe.used k (s.observed k c) = s.used k c := rfl
    rw [hsame]
    cases hused : s.used k c with
    | true => exact Or.inl rfl
    | false =>
      rcases h.timed id k c t hcurrent hc hidle with hbusy | hlast
      · rw [hused] at hbusy
        cases hbusy
      · exact Or.inr (by simpa [observed, hused] using hlast)

theorem Inv.step {s s' : Manager} {m : Move} (h : Inv s) (hkept : s.Kept m)
    (hs : s.step m = some s') : Inv s' := by
  obtain ⟨s₁, hact, rfl⟩ := Option.map_eq_some_iff.mp hs
  exact (h.act hkept hact).observe

/-- No browser is open. -/
def start (secs : Nat) : Manager := { secs := secs }

theorem Inv.start (secs : Nat) : Inv (start secs) := by
  refine ⟨⟨.nil, fun i t ht => ?_, fun id k hk => (by cases hk), fun k c hc => ?_,
    ⟨fun c hc => (by cases hc), fun k c hc => ?_, fun h hh => (by cases hh)⟩⟩,
    fun id k c t hk => (by cases hk)⟩
  · simp [Manager.start] at ht
  · simp [Manager.start] at hc
  · simp [Manager.start] at hc

/-- SAFETY: in every run whose timers see every use that ends, no pass closes a browser in use, the
    leases are counted, and nothing of a closed browser is handed out. -/
theorem promise_of_seen {secs : Nat} {moves : List Move} {s : Manager}
    (hrun : exec Manager.step (start secs) moves = some s)
    (hkept : Along Manager.step Kept (start secs) moves) : s.Promise :=
  (ReachesBy.invariant (I := Inv) ⟨moves, hrun, hkept⟩
    (fun _ _ _ h hk hs => h.step hk hs) (Inv.start secs)).base.promise

/-- A browser is launched. -/
def launched : List Move := [.call (.prepare "browser-a"), .step 0 true, .step 0 true]

/-- A whole pass, as the task `i`. -/
def wholePass (i steps : Nat) : List Move := .reclaimIdle :: List.replicate steps (.step i true)

/-- A page is open for 20 seconds and over a pass; a minute after it the browser is closed. -/
def viewedRun : List Move :=
  launched ++ wholePass 1 13 ++ [.call (.viewer 0), .step 2 true, .tick (ofSecs 20)] ++
    wholePass 3 10 ++ [.step 2 true] ++ wholePass 4 13 ++ [.tick (ofSecs 60)] ++ wholePass 5 19

theorem promise_of_seen_viewed : ∃ s, exec Manager.step (start 60) viewedRun = some s ∧
    s.closings.length = 1 ∧ s.Promise := by
  obtain ⟨s, hs, hclosed⟩ : ∃ s, exec Manager.step (start 60) viewedRun = some s ∧
      s.closings.length = 1 := exec_eval (by decide +kernel)
  exact ⟨s, hs, hclosed, promise_of_seen hs (by decide +kernel)⟩

/-- Between two passes a page is open from the 20th to the 30th second. -/
def hiddenPreview : List Move :=
  launched ++ wholePass 1 13 ++ [.tick (ofSecs 20), .call (.viewer 0), .step 2 true,
    .call (.stream .startPreview 0), .step 3 true, .step 3 true, .tick (ofSecs 10),
    .call (.stream .stopPreview 0), .step 4 true, .step 4 true, .step 2 true,
    .tick (ofSecs 30)] ++ wholePass 5 19

/-- The browser is closed half a minute after the page, where the setting says a minute. -/
theorem not_promise_hidden : ¬ ∀ (secs : Nat) (moves : List Move) (s : Manager),
    exec Manager.step (start secs) moves = some s → s.Promise := by
  intro h
  obtain ⟨s, hs, hshort⟩ : ∃ s, exec Manager.step (start 60) hiddenPreview = some s ∧
      ∃ c ∈ s.closings, ¬ c.Rested := exec_eval (by decide +kernel)
  obtain ⟨c, hc, hnot⟩ := hshort
  exact hnot ((h 60 hiddenPreview s hs).idle c hc)

end Manager

end Gamer.Browser.Idle
