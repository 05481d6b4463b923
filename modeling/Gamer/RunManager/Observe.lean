import Gamer.RunManager.Slots

/-! What an observer sees of a run through `get_run`. The documented order

        starting ──▶ running ──▶ stopping ──▶ success / failed / cancelled

    is kept by every action but one: `run_task` marks the entry `running` without a look at the
    cancellation, so a cancel accepted after the first check is shown as `stopping` and then as
    `running`. Terminal states are stable in every run. -/

namespace Gamer.RunManager
open Gamer.Lib

/-- The place of a state in the documented order. -/
def RunState.rank : RunState → Nat
  | .starting => 0
  | .running => 1
  | .stopping => 2
  | .success | .failed | .cancelled => 3

/-- A later observation is the same state or, before the end, one further on. -/
def RunState.Forward (a b : RunState) : Prop :=
  a = b ∨ (a.isTerminal = false ∧ a.rank ≤ b.rank)

theorem RunState.Forward.refl (a : RunState) : a.Forward a := Or.inl rfl

theorem RunState.Forward.trans {a b c : RunState} (h₁ : a.Forward b) (h₂ : b.Forward c) :
    a.Forward c := by
  rcases h₁ with rfl | ⟨hn, hle⟩
  · exact h₂
  · rcases h₂ with rfl | ⟨_, hle'⟩
    · exact Or.inr ⟨hn, hle⟩
    · exact Or.inr ⟨hn, hle.trans hle'⟩

theorem RunState.rank_le_of_terminal {a b : RunState} (h : b.isTerminal = true) :
    a.rank ≤ b.rank := by
  cases a <;> cases b <;> first | (cases h; done) | decide

/-! ### One life -/

/-- The state an observer is shown. -/
def Life.shown (v : Life) : Option RunState :=
  match v.entry with
  | some e => some e.record.state
  | none => v.archived.head?.map (·.state)

/-- The step marks a cancelled run `running`. -/
def Life.Revives (v v' : Life) : Prop :=
  v.cancelled = true ∧ (∃ t, v.task = some t ∧ t.phase = .acquired) ∧
    ∃ t, v'.task = some t ∧ t.phase = .marked

theorem ActiveRun.close_forward (e : ActiveRun) (now : Time) :
    e.record.state.Forward (e.close now).state := by
  unfold ActiveRun.close
  split
  · exact .refl _
  · next h =>
    refine Or.inr ⟨by simpa using h, RunState.rank_le_of_terminal ?_⟩
    dsimp only
    split <;> rfl

/-- STEP: unless it revives a cancelled run, a step shows the same state or one further on. -/
theorem LifeStep.forward {id : RunId} {v v' : Life} (h : LifeStep id v v') (hv : v.Sound id)
    (hg : ¬ v.Revives v') {a : RunState} (ha : v.shown = some a) :
    ∃ b, v'.shown = some b ∧ a.Forward b := by
  cases h with
  | insert w r hid hr => cases ha
  | cancel e he hn =>
    simp only [Life.shown, he, Option.some.injEq] at ha
    subst ha
    refine ⟨.stopping, rfl, Or.inr ⟨hn, ?_⟩⟩
    cases hs : e.record.state <;> simp [hs, RunState.isTerminal] at hn <;> decide
  | markRunning t now ht hp =>
    obtain ⟨e, he, hn⟩ := ((Life.at_undecided rfl).mp (hv.at_phase ht hp)).entry
    simp only [Life.shown, he, Option.some.injEq] at ha
    subst ha
    refine ⟨.running, by simp [Life.shown, he, ActiveRun.mark], Or.inr ⟨hn, ?_⟩⟩
    have hc : v.cancelled = false := by
      cases hc : v.cancelled with
      | false => rfl
      | true => exact absurd ⟨hc, ⟨t, ht, hp⟩, _, rfl, rfl⟩ hg
    have hstop := (hv.kept e he).stopping hc
    cases hs : e.record.state <;> simp [hs, RunState.isTerminal] at hn hstop <;> decide
  | settle t o o' entry now ht hp he =>
    obtain ⟨e, hentry, hn⟩ := ((Life.at_undecided rfl).mp (hv.at_phase ht hp)).entry
    simp only [Life.shown, hentry, Option.some.injEq] at ha
    subst ha
    obtain ⟨rfl, _⟩ := he e hentry hn
    exact ⟨_, rfl, Or.inr ⟨hn, RunState.rank_le_of_terminal (e.terminal_terminal o)⟩⟩
  | archive t e now ht hp he =>
    obtain ⟨harch, _⟩ := hv.at_phase ht hp
    simp only [Life.shown, he, Option.some.injEq] at ha
    subst ha
    exact ⟨_, by simp [Life.shown, harch], e.close_forward now⟩
  | _ => exact ⟨a, ha, .refl a⟩

/-- STABLE: no step at all changes a terminal state. -/
theorem LifeStep.terminal {id : RunId} {v v' : Life} (h : LifeStep id v v') (hv : v.Sound id)
    {a : RunState} (ha : v.shown = some a) (hterm : a.isTerminal = true) : v'.shown = some a := by
  have hopen : ∀ {t : Task} {p : Phase}, v.Open t p → False := by
    intro t p hopen
    obtain ⟨e, he, hn⟩ := hopen.entry
    simp only [Life.shown, he, Option.some.injEq] at ha
    rw [ha, hterm] at hn; cases hn
  by_cases hg : v.Revives v'
  · obtain ⟨_, ⟨t, ht, hp⟩, _⟩ := hg
    exact (hopen ((Life.at_undecided rfl).mp (hv.at_phase ht hp))).elim
  · obtain ⟨b, hb, rfl | ⟨hn, _⟩⟩ := h.forward hv hg ha
    · exact hb
    · rw [hterm] at hn; cases hn

/-! ### The observations of `get_run` -/

/-- The action is `mark_state(Running)` of run `id`. -/
def State.marksRunning (s : State) (id : RunId) : Action → Bool
  | .task id' _ _ => id' == id && match s.tasks.get id with
    | some ⟨_, _, .acquired, _⟩ => true
    | _ => false
  | _ => false

/-- The action does not mark run `id` `running` once its cancellation is requested. -/
def Ordered (id : RunId) (s : State) (a : Action) : Prop :=
  s.marksRunning id a = true → s.isCancelled id = false

instance (id : RunId) (s : State) (a : Action) : Decidable (Ordered id s a) :=
  inferInstanceAs (Decidable (_ → _))

/-- Only an action against the order revives the life of a cancelled run. -/
theorem Ordered.not_revives {s s' : State} {a : Action} {id : RunId} (hg : Ordered id s a)
    (h : s.step a = some s') (hinv : Inv s) : ¬ (s.life id).Revives (s'.life id) := by
  rintro ⟨hc, ⟨t, ht, hp⟩, t', ht', hp'⟩
  have ht₀ : s.tasks.get id = some t := ht
  have ht₀' : s'.tasks.get id = some t' := ht'
  cases htask : a.isTaskOf id with
  | true =>
    have hmark : s.marksRunning id a = true := by
      obtain ⟨req, given, phase, onFinish⟩ := t
      cases hp
      cases a <;> simp_all [Action.isTaskOf, State.marksRunning]
    obtain ⟨e, he, _⟩ := ((Life.at_undecided rfl).mp ((hinv.sound id).at_phase ht hp)).entry
    have hflag : e.cancelRequested = true := ((hinv.sound id).kept e he).flag.trans hc
    have hcancel := State.isCancelled_iff.mpr ⟨e, he, hflag⟩
    rw [hg hmark] at hcancel; cases hcancel
  | false =>
    rcases (step_effect h).task_still hinv htask with hsame | hnone
    · rw [hsame, ht₀] at ht₀'; cases ht₀'
      rw [hp] at hp'; cases hp'
    · rw [hnone] at ht₀; cases ht₀

/-- What an observation through `get_run` saw was shown at one of its two looks. -/
theorem Inv.shown_of_getRun {s s' : State} (h : Reachable s)
    (hrun : Machine.Reaches State.step s s') {id : RunId} {r : RunRecord}
    (hr : State.getRun s s' id = some r) :
    (s.life id).shown = some r.state ∨ (s'.life id).shown = some r.state := by
  cases he : s.runs.get id with
  | some e =>
    simp only [State.getRun, he, Option.some.injEq] at hr
    subst hr
    exact Or.inl (by simp [Life.shown, State.life, he])
  | none =>
    right
    have h' : Reachable s' := Machine.Reaches.trans h hrun
    simp only [State.getRun, he] at hr
    have hkey : r.runId = id := by simpa using List.find?_some hr
    have hmem : r ∈ s'.archived.filter fun r => r.runId = id :=
      List.mem_filter.mpr ⟨h'.history_subset (List.mem_of_find?_eq_some hr), by simpa using hkey⟩
    have hsound := h'.inv.sound id
    have harch : (s'.life id).archived = s'.archived.filter fun r => r.runId = id := rfl
    have hid : id ∈ s'.inserted := by
      by_contra hid
      have hblank := congrArg Life.archived (h'.inv.fresh id hid)
      rw [harch] at hblank
      rw [hblank] at hmem; cases hmem
    rcases h'.placed hid with ⟨_, hnil⟩ | ⟨hnone, r', hone⟩
    · rw [hnil] at hmem; cases hmem
    · rw [hone] at hmem
      obtain rfl := List.mem_singleton.mp hmem
      have hentry : (s'.life id).entry = none := hnone
      simp [Life.shown, hentry, harch, hone]

/-- ORDER: along ordered actions the shown state moves forward. -/
theorem shown_forward {s s' : State} {id : RunId} (h : Reachable s)
    (hrun : Machine.ReachesBy State.step (Ordered id) s s') {a : RunState}
    (ha : (s.life id).shown = some a) : ∃ b, (s'.life id).shown = some b ∧ a.Forward b := by
  have hboth : Inv s' ∧ ∃ b, (s'.life id).shown = some b ∧ a.Forward b := by
    refine hrun.invariant (I := fun m => Inv m ∧ ∃ b, (m.life id).shown = some b ∧ a.Forward b) ?_
      ⟨h.inv, a, ha, .refl a⟩
    rintro m act m' ⟨hinv, b, hb, hab⟩ hg hs
    refine ⟨hinv.step hs, ?_⟩
    cases (step_effect hs).moves hinv id with
    | still hm => exact ⟨b, by rw [hm]; exact hb, hab⟩
    | watch hm => exact ⟨b, by rw [hm]; exact hb, hab⟩
    | lives _ hm =>
      obtain ⟨c, hc, hbc⟩ := hm.forward (hinv.sound id) (hg.not_revives hs hinv) hb
      exact ⟨c, hc, hab.trans hbc⟩
  exact hboth.2

/-- STABLE: in every run, a terminal state shown once is shown ever after. -/
theorem shown_terminal {s s' : State} {id : RunId} (h : Reachable s)
    (hrun : Machine.Reaches State.step s s') {a : RunState} (ha : (s.life id).shown = some a)
    (hterm : a.isTerminal = true) : (s'.life id).shown = some a := by
  have hboth : Inv s' ∧ (s'.life id).shown = some a := by
    refine hrun.invariant (I := fun m => Inv m ∧ (m.life id).shown = some a) ?_ ⟨h.inv, ha⟩
    rintro m act m' ⟨hinv, hb⟩ hs
    refine ⟨hinv.step hs, ?_⟩
    cases (step_effect hs).moves hinv id with
    | still hm => rw [hm]; exact hb
    | watch hm => rw [hm]; exact hb
    | lives _ hm => exact hm.terminal (hinv.sound id) hb hterm
  exact hboth.2

/-- What a later observation may show: after `stopping` neither `starting` nor `running`, after a
    terminal state that state. -/
def Onward (r r' : RunRecord) : Prop :=
  (r.state = .stopping → r'.state ≠ .starting ∧ r'.state ≠ .running) ∧
  (r.state.isTerminal = true → r'.state = r.state)

theorem RunState.Forward.onward {r r' : RunRecord} (h : r.state.Forward r'.state) :
    Onward r r' := by
  rcases h with heq | ⟨hn, hle⟩
  · exact ⟨fun hs => by rw [← heq, hs]; exact ⟨by simp, by simp⟩, fun _ => heq.symm⟩
  · refine ⟨fun hs => ?_, fun hterm => by rw [hn] at hterm; cases hterm⟩
    rw [hs] at hle
    constructor <;> (intro h; rw [h] at hle; revert hle; decide)

/-- OBSERVATIONS of a run whose actions are ordered only move forward. -/
theorem observations_move_forward {id : RunId} {s₁ s₂ s₃ s₄ : State} {r r' : RunRecord}
    (h₁ : Reachable s₁) (h₁₂ : Machine.ReachesBy State.step (Ordered id) s₁ s₂)
    (h₂₃ : Machine.ReachesBy State.step (Ordered id) s₂ s₃)
    (h₃₄ : Machine.ReachesBy State.step (Ordered id) s₃ s₄)
    (hr : State.getRun s₁ s₂ id = some r) (hr' : State.getRun s₃ s₄ id = some r') :
    Onward r r' := by
  have h₂ : Reachable s₂ := Machine.Reaches.trans h₁ h₁₂.reaches
  have h₃ : Reachable s₃ := Machine.Reaches.trans h₂ h₂₃.reaches
  -- whichever looks found the run, the later one is further on
  have hforward : ∀ {s s' : State}, Reachable s → Machine.ReachesBy State.step (Ordered id) s s' →
      (s.life id).shown = some r.state → (s'.life id).shown = some r'.state →
      r.state.Forward r'.state := by
    intro s s' h hrun hshown hshown'
    obtain ⟨b, hb, hab⟩ := shown_forward h hrun hshown
    rw [hshown'] at hb
    cases hb
    exact hab
  have h₁₃ : Machine.ReachesBy State.step (Ordered id) s₁ s₃ := h₁₂.trans h₂₃
  have h₂₄ : Machine.ReachesBy State.step (Ordered id) s₂ s₄ := h₂₃.trans h₃₄
  refine RunState.Forward.onward ?_
  rcases Inv.shown_of_getRun h₁ h₁₂.reaches hr with hs | hs <;>
    rcases Inv.shown_of_getRun h₃ h₃₄.reaches hr' with hs' | hs'
  · exact hforward h₁ h₁₃ hs hs'
  · exact hforward h₁ (h₁₃.trans h₃₄) hs hs'
  · exact hforward h₂ h₂₃ hs hs'
  · exact hforward h₂ h₂₄ hs hs'

/-- Up to the lease: the next action of the task marks the entry `running`. -/
def untilAcquired : List Action :=
  acceptRun "r1" ++ [.task "r1" .tick 1, .task "r1" .tick 1, .task "r1" .prepareOk 2,
    .task "r1" .acquireOk 3]

/-- A run that is cancelled only once it executes: first `stopping`, then `cancelled`. -/
theorem observations_move_forward_executing :
    ∃ s s' r r', Machine.exec State.step init
        (untilAcquired ++ [.task "r1" .tick 4, .cancel "r1"]) = some s ∧
      Machine.exec State.step s
        [.task "r1" .tick 5, .task "r1" .released 6, .task "r1" .tick 7] = some s' ∧
      State.getRun s s "r1" = some r ∧ State.getRun s' s' "r1" = some r' ∧
      r.state = .stopping ∧ r'.state = .cancelled ∧ Onward r r' := by
  obtain ⟨s, hs, hstop, hend⟩ : ∃ s, Machine.exec State.step init
      (untilAcquired ++ [.task "r1" .tick 4, .cancel "r1"]) = some s ∧
      (State.getRun s s "r1").map (·.state) = some .stopping ∧
      (Machine.Along State.step (Ordered "r1") s
          [.task "r1" .tick 5, .task "r1" .released 6, .task "r1" .tick 7] ∧
        ((Machine.exec State.step s
          [.task "r1" .tick 5, .task "r1" .released 6, .task "r1" .tick 7]).bind fun s' =>
            (State.getRun s' s' "r1").map (·.state)) = some .cancelled) :=
    Machine.exec_eval (by decide)
  obtain ⟨r, hr, hstate⟩ := Option.map_eq_some_iff.mp hstop
  obtain ⟨s', hs', hend'⟩ := Option.bind_eq_some_iff.mp hend.2
  obtain ⟨r', hr', hstate'⟩ := Option.map_eq_some_iff.mp hend'
  refine ⟨s, s', r, r', hs, hs', hr, hr', hstate, hstate', ?_⟩
  exact observations_move_forward ⟨_, hs⟩ (.refl s) ⟨_, hs', hend.1⟩ (.refl s') hr hr'

/-- A run that has been cancelled is shown so while its task comes to its end. -/
theorem shown_terminal_cancelled :
    ∃ s s', Machine.exec State.step init
        (untilAcquired ++ [.task "r1" .tick 4, .cancel "r1", .task "r1" .tick 5,
          .task "r1" .released 6, .task "r1" .tick 7]) = some s ∧
      Machine.exec State.step s [.task "r1" .tick 8, .task "r1" .tick 9] = some s' ∧
      (s'.life "r1").shown = some .cancelled := by
  obtain ⟨s, hs, hshown, hend⟩ : ∃ s, Machine.exec State.step init
      (untilAcquired ++ [.task "r1" .tick 4, .cancel "r1", .task "r1" .tick 5,
        .task "r1" .released 6, .task "r1" .tick 7]) = some s ∧
      (s.life "r1").shown = some .cancelled ∧
      (Machine.exec State.step s [.task "r1" .tick 8, .task "r1" .tick 9]).isSome = true :=
    Machine.exec_eval (by decide)
  obtain ⟨s', hs'⟩ := Option.isSome_iff_exists.mp hend
  exact ⟨s, s', hs, hs', shown_terminal ⟨_, hs⟩ ⟨_, hs'⟩ hshown (by decide)⟩

/-- The order is broken by a cancel between the lease and the mark. -/
theorem observations_move_backward :
    ¬ ∀ (id : RunId) (s₁ s₂ s₃ s₄ : State) (r r' : RunRecord), Reachable s₁ →
      Machine.Reaches State.step s₁ s₂ → Machine.Reaches State.step s₂ s₃ →
      Machine.Reaches State.step s₃ s₄ → State.getRun s₁ s₂ id = some r →
      State.getRun s₃ s₄ id = some r' → Onward r r' := by
  intro hall
  obtain ⟨s, hs, hstop, hrun⟩ : ∃ s, Machine.exec State.step init
      (untilAcquired ++ [.cancel "r1"]) = some s ∧
      (State.getRun s s "r1").map (·.state) = some .stopping ∧
      ((s.step (.task "r1" .tick 4)).bind fun s' => (State.getRun s' s' "r1").map (·.state)) =
        some .running :=
    Machine.exec_eval (by decide)
  obtain ⟨r, hr, hstate⟩ := Option.map_eq_some_iff.mp hstop
  obtain ⟨s', hs', hrun'⟩ := Option.bind_eq_some_iff.mp hrun
  obtain ⟨r', hr', hstate'⟩ := Option.map_eq_some_iff.mp hrun'
  have honward := hall "r1" s s s' s' r r' ⟨_, hs⟩ (.refl s) (.single hs') (.refl s') hr hr'
  exact (honward.1 hstate).2 hstate'

end Gamer.RunManager
