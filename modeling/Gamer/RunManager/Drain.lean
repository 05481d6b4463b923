import Gamer.RunManager.Slots

/-! Draining. `begin_shutdown` closes the gate and waits until no run is active; `submit` looks at
    the gate before it locks the device slots and inserts its run later. A submission between the
    two when the count is found to be zero is the one way a run gets in behind the gate:

        submit          passed the gate ──────────────────▶ lock, insert
        begin_shutdown          close the gate, count 0 ─▶

    Nothing else does, so the drain is sound exactly if there is none. -/

namespace Gamer.RunManager
open Gamer.Lib

/-- The submission is past the gate and its run is not inserted. -/
def SubmitPhase.behindGate : SubmitPhase → Bool
  | .passed .. | .admitted .. => true
  | _ => false

/-- From here on no run is inserted, and every submission still to be answered is refused. -/
def Drained (s : State) : Prop :=
  ∀ s', Machine.Reaches State.step s s' → s'.inserted = s.inserted ∧
    ∀ c reply, s'.submits.get c = some (.answered reply) →
      s.submits.get c = some (.answered reply) ∨ reply = .error .shuttingDown

/-- INVARIANT of the gate: a shutdown call has closed it, and it stays closed. -/
theorem Reachable.draining {s : State} (h : Reachable s) {c : Caller} {p : ShutdownPhase}
    (hc : s.shutdowns.get c = some p) : s.draining = true := by
  have hgate : ∀ c p, s.shutdowns.get c = some p → s.draining = true := by
    refine Machine.Reaches.invariant
      (I := fun s => ∀ c p, s.shutdowns.get c = some p → s.draining = true) h ?_
      (fun c p hc => by cases hc)
    intro s a s' hgate hs c p hc
    cases step_effect hs with
    | task id t input now s' ht h =>
      rw [h.frame.draining]
      rw [h.frame.shutdowns] at hc
      exact hgate c p hc
    | cancel id =>
      rcases s.cancel_cases id with ⟨hs, _⟩ | ⟨_, e, he, hn, hs⟩ <;> rw [hs] at hc ⊢ <;>
        exact hgate c p hc
    | shutdown a d m sh hd hnew hi =>
      cases hold : s.shutdowns.get c with
      | none => exact hnew c p hc hold
      | some q => exact hd (hgate c q hold)
    | force c' id ids hc' =>
      have hdrain : s.draining = true := hgate c' _ hc'
      rcases s.cancel_cases id with ⟨hs, _⟩ | ⟨_, e, he, hn, hs⟩ <;> rw [hs] <;> exact hdrain
    | _ => exact hgate c p hc
  exact hgate c p hc

/-- Behind a closed gate with no submission in flight. -/
structure Closed (s₀ s : State) : Prop where
  draining : s.draining = true
  inserted : s.inserted = s₀.inserted
  answered : ∀ c p, s.submits.get c = some p → ∃ reply, p = .answered reply ∧
    (s₀.submits.get c = some (.answered reply) ∨ reply = .error .shuttingDown)

/-- STEP: the gate lets no submission through. -/
theorem Closed.step {s₀ s s' : State} {a : Action} (h : Closed s₀ s) (hs : s.step a = some s') :
    Closed s₀ s' := by
  cases step_effect hs with
  | refuseNow c req h' hc hd =>
    refine ⟨h.draining, h.inserted, fun c' p hp => ?_⟩
    have hp' : (s.submits.set c (.answered (.error .shuttingDown))).get c' = some p := hp
    rw [Table.get_set] at hp'
    split at hp'
    · cases hp'; exact ⟨_, rfl, Or.inr rfl⟩
    · exact h.answered c' p hp'
  | pass c req h' hc hd => rw [h.draining] at hd; cases hd
  | refuse c req h' e hl hc => obtain ⟨reply, hr, _⟩ := h.answered c _ hc; cases hr
  | admits c req h' slots hl hc hghost hslots =>
    obtain ⟨reply, hr, _⟩ := h.answered c _ hc
    cases hr
  | insertRun c req h' id now hc hid => obtain ⟨reply, hr, _⟩ := h.answered c _ hc; cases hr
  | insertSlot c req h' r hc => obtain ⟨reply, hr, _⟩ := h.answered c _ hc; cases hr
  | task id t input now s' ht heff =>
    exact ⟨by rw [heff.frame.draining]; exact h.draining,
      by rw [heff.frame.inserted]; exact h.inserted,
      by rw [heff.frame.submits]; exact h.answered⟩
  | cancel id =>
    rcases s.cancel_cases id with ⟨hs, _⟩ | ⟨_, e, he, hn, hs⟩ <;> rw [hs] <;>
      exact ⟨h.draining, h.inserted, h.answered⟩
  | shutdown a d m sh hd hnew hi => exact ⟨hd h.draining, h.inserted, h.answered⟩
  | force c id ids hc =>
    rcases s.cancel_cases id with ⟨hs, _⟩ | ⟨_, e, he, hn, hs⟩ <;> rw [hs] <;>
      exact ⟨h.draining, h.inserted, h.answered⟩
  | _ => exact ⟨h.draining, h.inserted, h.answered⟩

theorem Closed.drained {s : State} (h : Closed s s) : Drained s := by
  intro s' hrun
  have hclosed : Closed s s' :=
    Machine.Reaches.invariant (I := Closed s) hrun (fun _ _ _ hc hs => hc.step hs) h
  refine ⟨hclosed.inserted, fun c reply hc => ?_⟩
  obtain ⟨reply', hr, hor⟩ := hclosed.answered c _ hc
  cases hr
  exact hor

/-- An admitted submission inserts its run. -/
theorem not_drained_of_admitted {s : State} {c : Caller} {req : StartRequest} {h : Bool}
    (hc : s.submits.get c = some (.admitted req h)) : ¬ Drained s := by
  intro hdrained
  obtain ⟨id, hid⟩ := exists_fresh s.inserted
  obtain ⟨s₁, hstep, hin⟩ : ∃ s₁, s.step (.insertRun c id 0) = some s₁ ∧ id ∈ s₁.inserted := by
    refine ⟨_, by simp only [State.step, hc]; exact if_neg hid, ?_⟩
    simp
  rw [(hdrained s₁ (.single hstep)).1] at hin
  exact hid hin

theorem Drained.mono {s s' : State} (h : Drained s) (hrun : Machine.Reaches State.step s s')
    (hsub : s'.submits = s.submits) : Drained s' := by
  intro s'' hrun'
  obtain ⟨hin, hans⟩ := h s'' (hrun.trans hrun')
  exact ⟨hin.trans (h s' hrun).1.symm, fun c reply hc => by rw [hsub]; exact hans c reply hc⟩

/-- A submission past the gate gets in once nobody else is in its way. -/
theorem not_drained_of_passed {s : State} (h : Reachable s) (hnone : s.noneActive = true)
    {c : Caller} {req : StartRequest} {f : Bool} (hc : s.submits.get c = some (.passed req f)) :
    ¬ Drained s := by
  intro hdrained
  have hempty : ∀ id, s.runs.get id = none := Table.get_eq_none_of_isEmpty hnone
  cases hl : s.devLock with
  | some c' =>
    obtain ⟨p, hp, hh⟩ := h.inv.locked.held c' hl
    cases p with
    | passed req h => cases hh
    | answered r => cases hh
    | admitted req h => exact not_drained_of_admitted hp hdrained
    | inserted req f' r =>
      obtain ⟨_, e, he, _⟩ := h.inv.inserting c' req f' r hp
      rw [hempty] at he; cases he
  | none =>
    -- maintenance ends, the slots are free, and the submission is admitted
    have hslot : s.activeByDevice.get req.deviceId = none := by
      cases hs : s.activeByDevice.get req.deviceId with
      | none => rfl
      | some id =>
        obtain ⟨e, he, _⟩ := h.slots.mapped _ id hs
        rw [hempty] at he; cases he
    have hend : s.step .endMaintenance = some { s with maintenance := false } := rfl
    have hdrained' : Drained { s with maintenance := false } :=
      hdrained.mono (.single hend) rfl
    obtain ⟨s₁, hstep, hc₁, hin⟩ : ∃ s₁, State.step { s with maintenance := false }
        (.lockDevices c) = some s₁ ∧ s₁.submits.get c = some (.admitted req f) ∧
        s₁.inserted = s.inserted := by
      refine ⟨{ s with
        maintenance := false
        devLock := some c
        submits := s.submits.set c (.admitted req f) }, ?_, Table.get_set_self _ _ _, rfl⟩
      simp only [State.step, hl, hc, State.admitRun, hslot]
      rfl
    obtain ⟨id, hid⟩ := exists_fresh s.inserted
    obtain ⟨s₂, hstep₂, hin₂⟩ : ∃ s₂, s₁.step (.insertRun c id 0) = some s₂ ∧
        id ∈ s₂.inserted := by
      refine ⟨_, by simp only [State.step, hc₁]; exact if_neg (by rw [hin]; exact hid), ?_⟩
      simp
    have hsame := (hdrained' s₂ ((Machine.Reaches.single hstep).trans (.single hstep₂))).1
    rw [hsame] at hin₂
    exact hid hin₂

/-- DRAIN: once `begin_shutdown` has found no active run, none is inserted any more and every
    submission still open is refused, exactly if no submission was past the gate by then. -/
theorem drained_iff {s s' : State} {c : Caller} (h : Reachable s)
    (hs : s.step (.pollActive c) = some s') (hidle : s'.shutdowns.get c = some .idle) :
    Drained s' ↔ ∀ c' p, s.submits.get c' = some p → p.behindGate = false := by
  have h' : Reachable s' := Machine.Reaches.trans h (.single hs)
  have hdraining : s'.draining = true := h'.draining hidle
  obtain ⟨hnone, rfl⟩ : s.noneActive = true ∧
      s' = { s with shutdowns := s.shutdowns.set c .idle } := by
    simp only [State.step] at hs
    split at hs
    · next hc =>
      split at hs <;> cases hs
      · next hn => exact ⟨hn, rfl⟩
      · rw [hc] at hidle; cases hidle
    · cases hs
  have hempty : ∀ id, s.runs.get id = none := Table.get_eq_none_of_isEmpty hnone
  constructor
  · intro hdrained c' p hp
    cases p with
    | passed req f => exact absurd hdrained (not_drained_of_passed h' hnone hp)
    | admitted req f => exact absurd hdrained (not_drained_of_admitted hp)
    | _ => rfl
  · intro hopen
    refine Closed.drained ⟨hdraining, rfl, fun c' p hp => ?_⟩
    cases p with
    | answered reply => exact ⟨reply, rfl, Or.inl hp⟩
    | inserted req f r =>
      obtain ⟨_, e, he, _⟩ := h.inv.inserting c' req f r hp
      rw [hempty] at he; cases he
    | _ => cases hopen c' _ hp

/-- `begin_shutdown` leaves its loop by the branch that found no run. -/
def State.leavesIdle (s : State) (c : Caller) : Bool :=
  match s.shutdowns.get c with
  | some .waiting => s.noneActive
  | _ => false

theorem State.step_of_leavesIdle {s : State} {c : Caller} (h : s.leavesIdle c = true) :
    ∃ s', s.step (.pollActive c) = some s' ∧ s'.shutdowns.get c = some .idle := by
  unfold State.leavesIdle at h
  split at h
  · next hc =>
    exact ⟨_, by simp only [State.step, hc]; exact if_pos h, Table.get_set_self _ _ _⟩
  · cases h

/-- A shutdown after which a submission is refused. -/
theorem drained_iff_refused :
    ∃ s s', Machine.exec State.step init [.beginShutdown 1, .submit 0 phoneRequest true] = some s ∧
      s.step (.pollActive 1) = some s' ∧ Drained s' := by
  obtain ⟨s, hs, hleaves, hopen⟩ : ∃ s, Machine.exec State.step init
      [.beginShutdown 1, .submit 0 phoneRequest true] = some s ∧ s.leavesIdle 1 = true ∧
      ∀ p ∈ s.submits.values, p.behindGate = false :=
    Machine.exec_eval (by decide)
  obtain ⟨s', hs', hidle⟩ := State.step_of_leavesIdle hleaves
  exact ⟨s, s', hs, hs', (drained_iff ⟨_, hs⟩ hs' hidle).mpr fun c p hp =>
    hopen p (Table.mem_values_of_get hp)⟩

/-- A submission that passed the gate just before it was closed gets its run in. -/
theorem not_drained_behind_gate :
    ¬ ∀ (s s' : State) (c : Caller), Reachable s → s.step (.pollActive c) = some s' →
      s'.shutdowns.get c = some .idle → Drained s' := by
  intro hall
  obtain ⟨s, hs, hleaves, hins⟩ : ∃ s, Machine.exec State.step init
      [.submit 0 phoneRequest true, .beginShutdown 1] = some s ∧ s.leavesIdle 1 = true ∧
      ((s.step (.pollActive 1)).bind fun s' =>
        (Machine.exec State.step s' [.lockDevices 0, .insertRun 0 "r1" 0]).map fun s'' =>
          decide (s''.inserted = s'.inserted)) = some false :=
    Machine.exec_eval (by decide)
  obtain ⟨s', hs', hidle⟩ := State.step_of_leavesIdle hleaves
  rw [hs', Option.bind_some] at hins
  obtain ⟨s'', hs'', hne⟩ := Option.map_eq_some_iff.mp hins
  have hsame := (hall s s' 1 ⟨_, hs⟩ hs' hidle s'' ⟨_, hs''⟩).1
  exact absurd hsame (of_decide_eq_false hne)

end Gamer.RunManager
