import Gamer.Timer.Core

/-! The runs `TimerCore` holds as active. A submission registers its run when it returns, the
    completion of the run takes it out again, and one that completes first leaves its id for the
    registration to find:

        submit ──▶ accepted ──▶ returned    register, or take the id out of the hand-off set
                      └───────▶ completed   remove, or put the id into the hand-off set

    The runs of a multi-input trigger have a completion hook of their own and are never
    registered. -/

namespace Gamer.Timer
open Gamer.Lib

/-! ### The bookkeeping of one run -/

/-- The operations that submit runs. -/
inductive Entry where | dispatch | submitNow

/-- The path an operation takes for a task. -/
def Entry.path (t : Task) : Entry → Path
  | .dispatch => if (taskEffectiveInputs t).length ≤ 1 then .single else .dispatchMulti
  | .submitNow => if 1 < (taskEffectiveInputs t).length then .submitNowMulti else .single

namespace Core

/-- What an operation does with the active runs when `submit` returns a run. -/
def submitReturned (c : Core) (path : Path) (id runId : String) : Core :=
  if path = .single then c.registerActiveRun id runId else c

/-- What a completion callback does with them. -/
def runCompleted (c : Core) (path : Path) (id runId : String) : Core :=
  if path = .single then c.completeRun id runId else c

/-- The run `cancel_task` asks the runner to cancel. -/
def cancelRequest (c : Core) (id : String) : Option String := c.activeRuns.get id

end Core

section
variable (b b' : Batch) (due : Option Int) (i : Nat) (runId : String) (c : Core)

/-- A trigger whose submission returns does this to the active runs. -/
theorem Batch.report_returned :
    (b.report b' due (.resolve i none) runId c).1 = c.submitReturned b.path b.task.id runId := by
  unfold Batch.report Core.submitReturned
  cases b.path <;> dsimp only
  · rfl
  all_goals split <;> rfl

/-- And this when its run completes. -/
theorem Batch.report_completed (outcome : TimerOutcome) :
    (b.report b' due (.complete i outcome) runId c).1 =
      c.runCompleted b.path b.task.id runId := by
  unfold Batch.report Core.runCompleted
  cases b.path <;> dsimp only
  · rfl
  all_goals split <;> rfl

/-- `cancel_task` asks for the one run it finds. -/
theorem Op.cancelTask_step (ans : Answer) (id : String) : (Op.cancelTask id).step ans c =
    (c, [(c.cancelRequest id).elim (.cancelWrite id) (.cancelRun id)]) := by
  unfold Op.step Core.cancelRequest
  dsimp only
  cases c.activeRuns.get id <;> rfl

end

/-! ### All runs together -/

/-- A run the runner accepted: whether its `submit` has returned it, and whether its completion
    was delivered. -/
structure Submission where
  task : String
  path : Path
  returned : Bool
  completed : Bool
  deriving DecidableEq

/-- The core, and all runs that were accepted by their id. -/
structure Ledger where
  core : Core
  runs : Table String Submission

inductive RunEvent where
  | accepted (entry : Entry) (t : Task) (runId : String)
  | returned (runId : String)
  | completed (runId : String)
  | cancelTask (id : String)

namespace Ledger

def start (db : Db) : Ledger := ⟨⟨db, ∅, []⟩, ∅⟩

/-- Run ids are distinct, a submission returns once, and a completion is delivered once. -/
def step (s : Ledger) : RunEvent → Option Ledger
  | .accepted entry t runId => match s.runs.get runId with
    | some _ => none
    | none => some { s with runs := s.runs.set runId ⟨t.id, entry.path t, false, false⟩ }
  | .returned runId => match s.runs.get runId with
    | some run =>
      if run.returned then none
      else some ⟨s.core.submitReturned run.path run.task runId,
        s.runs.set runId { run with returned := true }⟩
    | none => none
  | .completed runId => match s.runs.get runId with
    | some run =>
      if run.completed then none
      else some ⟨s.core.runCompleted run.path run.task runId,
        s.runs.set runId { run with completed := true }⟩
    | none => none
  | .cancelTask _ => some s

/-- Every run has completed and every submission has returned. -/
def Over (s : Ledger) : Prop :=
  ∀ runId run, s.runs.get runId = some run → run.returned ∧ run.completed

/-- SAFETY: a cancellation would reach every run that was returned and has not completed, and when
    all is over nothing is left behind. -/
structure Sound (s : Ledger) : Prop where
  cancels : ∀ runId run, s.runs.get runId = some run → run.returned → run.completed = false →
    s.core.cancelRequest run.task = some runId
  clean : s.Over → s.core.activeRuns = ∅ ∧ s.core.completedBeforeRegistration = []

/-- A cancellation that is made reaches every accepted run of the task that has not completed. -/
def Reached (s : Ledger) : RunEvent → Prop
  | .cancelTask id => ∀ runId run, s.runs.get runId = some run → run.task = id →
      run.completed = false → s.core.cancelRequest id = some runId
  | _ => True

/-- A submission that returns a run still running is of a single input, and returns it after the
    runs of its task that were returned before it have completed. -/
def Alone (s : Ledger) : RunEvent → Prop
  | .returned runId => ∀ run, s.runs.get runId = some run → run.completed = false →
      run.path = .single ∧ ∀ other run', s.runs.get other = some run' → other ≠ runId →
        run'.task = run.task → run'.returned → run'.completed
  | _ => True

/-- A task is not cancelled while a submission of it has a run accepted and not yet returned. -/
def Landed (s : Ledger) : RunEvent → Prop
  | .cancelTask id => ∀ runId run, s.runs.get runId = some run → run.task = id →
      run.completed = false → run.returned
  | _ => True

/-- INVARIANT: the map holds runs that run, and the hand-off set those that completed before they
    were returned. -/
structure Inv (s : Ledger) : Prop where
  active : ∀ id runId, s.core.activeRuns.get id = some runId → ∃ run,
    s.runs.get runId = some run ∧ run.task = id ∧ run.path = .single ∧ run.returned ∧
      run.completed = false
  early : ∀ runId, runId ∈ s.core.completedBeforeRegistration ↔ ∃ run,
    s.runs.get runId = some run ∧ run.path = .single ∧ run.completed ∧ run.returned = false

theorem Inv.start (db : Db) : Inv (start db) where
  active _ _ h := by cases h
  early runId := by simp [Ledger.start]

/-- Nothing is left behind of runs that are over. -/
theorem Inv.clean {s : Ledger} (h : Inv s) (hover : s.Over) :
    s.core.activeRuns = ∅ ∧ s.core.completedBeforeRegistration = [] := by
  constructor
  · refine Table.eq_empty_of_get fun id => ?_
    cases hget : s.core.activeRuns.get id with
    | none => rfl
    | some runId =>
      obtain ⟨run, hrun, -, -, -, hopen⟩ := h.active id runId hget
      exact absurd (hover runId run hrun).2 (by simp [hopen])
  · refine List.eq_nil_iff_forall_not_mem.mpr fun runId hmem => ?_
    obtain ⟨run, hrun, -, -, hopen⟩ := (h.early runId).mp hmem
    exact absurd (hover runId run hrun).1 (by simp [hopen])

/-! ### What each event does -/

section
variable {s : Ledger} {runId : String}

/-- STEP: an accepted run is not held yet. -/
theorem accepted_sound (hI : Inv s) (hS : Sound s) (hfresh : s.runs.get runId = none)
    {run : Submission} (hreturned : run.returned = false) (hcompleted : run.completed = false) :
    let s' : Ledger := { s with runs := s.runs.set runId run }
    Sound s' ∧ Inv s' := by
  intro s'
  have hother : ∀ other run', s.runs.get other = some run' → s'.runs.get other = some run' := by
    intro other run' h
    have hne : other ≠ runId := by
      rintro rfl
      rw [hfresh] at h
      cases h
    rwa [Table.get_set_ne hne]
  have hI' : Inv s' := by
    constructor
    · intro id r h
      obtain ⟨run', hrun', hrest⟩ := hI.active id r h
      exact ⟨run', hother r run' hrun', hrest⟩
    · intro r
      rw [hI.early r]
      constructor
      · rintro ⟨run', hrun', hrest⟩
        exact ⟨run', hother r run' hrun', hrest⟩
      · rintro ⟨run', hrun', hrest⟩
        rw [Table.get_set] at hrun'
        split at hrun'
        · obtain rfl := Option.some.inj hrun'
          exact absurd hrest.2.1 (by simp [hcompleted])
        · exact ⟨run', hrun', hrest⟩
  refine ⟨⟨fun r run' h hret hopen => ?_, hI'.clean⟩, hI'⟩
  rw [Table.get_set] at h
  split at h
  · obtain rfl := Option.some.inj h
    rw [hreturned] at hret
    cases hret
  · exact hS.cancels r run' h hret hopen

/-- STEP: a submission that returns a run already completed takes its id out of the hand-off set,
    and one on a multi-input path leaves the bookkeeping alone. -/
theorem returned_completed (hI : Inv s) (hS : Sound s) {run : Submission}
    (hrun : s.runs.get runId = some run) (hreturned : run.returned = false)
    (hcompleted : run.completed) :
    let s' : Ledger := ⟨s.core.submitReturned run.path run.task runId,
      s.runs.set runId { run with returned := true }⟩
    Sound s' ∧ Inv s' := by
  intro s'
  have hactive : s'.core.activeRuns = s.core.activeRuns := by
    show (s.core.submitReturned run.path run.task runId).activeRuns = _
    unfold Core.submitReturned Core.registerActiveRun
    split
    · next hpath =>
      rw [if_pos ((hI.early runId).mpr ⟨run, hrun, hpath, hcompleted, hreturned⟩)]
    · rfl
  have hearly : ∀ r, r ∈ s'.core.completedBeforeRegistration ↔
      r ∈ s.core.completedBeforeRegistration ∧ r ≠ runId := by
    intro r
    show r ∈ (s.core.submitReturned run.path run.task runId).completedBeforeRegistration ↔ _
    unfold Core.submitReturned Core.registerActiveRun
    split
    · next hpath =>
      rw [if_pos ((hI.early runId).mpr ⟨run, hrun, hpath, hcompleted, hreturned⟩)]
      simp
    · next hpath =>
      refine ⟨fun h => ⟨h, ?_⟩, fun h => h.1⟩
      rintro rfl
      obtain ⟨run', hrun', hsingle, -⟩ := (hI.early r).mp h
      obtain rfl := Option.some.inj (hrun.symm.trans hrun')
      exact hpath hsingle
  have hI' : Inv s' := by
    constructor
    · intro id r h
      rw [hactive] at h
      obtain ⟨run', hrun', hrest⟩ := hI.active id r h
      refine ⟨run', ?_, hrest⟩
      have hne : r ≠ runId := by
        rintro rfl
        obtain rfl := Option.some.inj (hrun.symm.trans hrun')
        simp [hreturned] at hrest
      rwa [Table.get_set_ne hne]
    · intro r
      rw [hearly, hI.early r]
      constructor
      · rintro ⟨⟨run', hrun', hrest⟩, hne⟩
        exact ⟨run', by rwa [Table.get_set_ne hne], hrest⟩
      · rintro ⟨run', hrun', hsingle, hdone, hopen⟩
        rw [Table.get_set] at hrun'
        split at hrun'
        · obtain rfl := Option.some.inj hrun'
          cases hopen
        · next hne => exact ⟨⟨run', hrun', hsingle, hdone, hopen⟩, hne⟩
  refine ⟨⟨fun r run' h hret hopen => ?_, hI'.clean⟩, hI'⟩
  rw [Table.get_set] at h
  split at h
  · obtain rfl := Option.some.inj h
    exact absurd hcompleted (by simpa using hopen)
  · rw [Core.cancelRequest, hactive]
    exact hS.cancels r run' h hret hopen

/-- STEP: a submission that returns a run still running registers it over whatever run of the task
    is there, which is sound exactly if none is and the run can be registered at all. -/
theorem returned_running (hI : Inv s) (hS : Sound s) {run : Submission}
    (hrun : s.runs.get runId = some run) (hreturned : run.returned = false)
    (hrunning : run.completed = false) :
    let s' : Ledger := ⟨s.core.submitReturned run.path run.task runId,
      s.runs.set runId { run with returned := true }⟩
    (Sound s' ↔ Alone s (.returned runId)) ∧ (Sound s' → Inv s') := by
  intro s'
  have hnot : runId ∉ s.core.completedBeforeRegistration := by
    intro h
    obtain ⟨run', hrun', -, hdone, -⟩ := (hI.early runId).mp h
    obtain rfl := Option.some.inj (hrun.symm.trans hrun')
    rw [hrunning] at hdone
    cases hdone
  have hself : s'.runs.get runId = some { run with returned := true } := Table.get_set_self ..
  have hothers : ∀ r, r ≠ runId → s'.runs.get r = s.runs.get r := fun r hne => Table.get_set_ne hne ..
  have hpathOf : Sound s' → run.path = .single := by
    intro h
    by_contra hpath
    have hcore : s'.core = s.core := if_neg hpath
    have hheld := h.cancels runId _ hself rfl hrunning
    rw [hcore] at hheld
    obtain ⟨run', hrun', -, hsingle, -⟩ := hI.active _ _ hheld
    obtain rfl := Option.some.inj (hrun.symm.trans hrun')
    exact hpath hsingle
  have hcore : run.path = .single →
      s'.core = { s.core with activeRuns := s.core.activeRuns.set run.task runId } := by
    intro hpath
    show s.core.submitReturned run.path run.task runId = _
    rw [Core.submitReturned, if_pos hpath, Core.registerActiveRun, if_neg hnot]
  have hinv : run.path = .single → Inv s' := by
    intro hpath
    constructor
    · intro id r h
      rw [hcore hpath, Table.get_set] at h
      split at h
      · next heq =>
        obtain rfl := Option.some.inj h
        exact ⟨_, hself, heq.symm, hpath, rfl, hrunning⟩
      · obtain ⟨run', hrun', hrest⟩ := hI.active id r h
        have hne : r ≠ runId := by
          rintro rfl
          obtain rfl := Option.some.inj (hrun.symm.trans hrun')
          simp [hreturned] at hrest
        exact ⟨run', (hothers r hne).trans hrun', hrest⟩
    · intro r
      rw [hcore hpath, hI.early r]
      constructor
      · rintro ⟨run', hrun', hrest⟩
        have hne : r ≠ runId := by
          rintro rfl
          obtain rfl := Option.some.inj (hrun.symm.trans hrun')
          simp [hrunning] at hrest
        exact ⟨run', (hothers r hne).trans hrun', hrest⟩
      · rintro ⟨run', hrun', hrest⟩
        by_cases hne : r = runId
        · obtain rfl := hne
          obtain rfl := Option.some.inj (hself.symm.trans hrun')
          simp at hrest
        · exact ⟨run', (hothers r hne).symm.trans hrun', hrest⟩
  refine ⟨⟨fun h => ?_, fun h => ?_⟩, fun h => hinv (hpathOf h)⟩
  · rintro run' hrun' -
    obtain rfl := Option.some.inj (hrun.symm.trans hrun')
    refine ⟨hpathOf h, fun other run'' hother hne htask hret => ?_⟩
    by_contra hopen
    have hheld := h.cancels other run'' ((hothers other hne).trans hother) hret (by simpa using hopen)
    rw [Core.cancelRequest, hcore (hpathOf h), htask, Table.get_set_self] at hheld
    exact hne (Option.some.inj hheld).symm
  · obtain ⟨hpath, hapart⟩ := h run hrun hrunning
    refine ⟨fun r run' hrun' hret hopen => ?_, (hinv hpath).clean⟩
    rw [Core.cancelRequest, hcore hpath]
    by_cases hne : r = runId
    · obtain rfl := hne
      obtain rfl := Option.some.inj (hself.symm.trans hrun')
      exact Table.get_set_self ..
    · have hold := (hothers r hne).symm.trans hrun'
      have htask : run'.task ≠ run.task := fun htask => by
        rw [hapart r run' hold hne htask hret] at hopen
        cases hopen
      rw [Table.get_set_ne htask]
      exact hS.cancels r run' hold hret hopen

/-- STEP: a completion takes its run out of the map, or leaves its id in the hand-off set. -/
theorem completed_sound (hI : Inv s) (hS : Sound s) {run : Submission}
    (hrun : s.runs.get runId = some run) (hrunning : run.completed = false) :
    let s' : Ledger := ⟨s.core.runCompleted run.path run.task runId,
      s.runs.set runId { run with completed := true }⟩
    Sound s' ∧ Inv s' := by
  intro s'
  have hself : s'.runs.get runId = some { run with completed := true } := Table.get_set_self ..
  have hothers : ∀ r, r ≠ runId → s'.runs.get r = s.runs.get r := fun r hne => Table.get_set_ne hne ..
  have hholder : ∀ id, s.core.activeRuns.get id = some runId →
      run.path = .single ∧ run.returned ∧ id = run.task := by
    intro id h
    obtain ⟨run', hrun', htask, hpath, hret, -⟩ := hI.active _ _ h
    obtain rfl := Option.some.inj (hrun.symm.trans hrun')
    exact ⟨hpath, hret, htask.symm⟩
  have hactive : ∀ id r, s'.core.activeRuns.get id = some r ↔
      s.core.activeRuns.get id = some r ∧ r ≠ runId := by
    intro id r
    show (s.core.runCompleted run.path run.task runId).activeRuns.get id = some r ↔ _
    by_cases hheld : s.core.activeRuns.get run.task = some runId
    · have hpath := (hholder _ hheld).1
      rw [Core.runCompleted, if_pos hpath, Core.completeRun, if_pos hheld, Table.get_del]
      split
      · next heq =>
        rw [heq, hheld]
        simp
        exact fun h => h.symm
      · next hne =>
        refine ⟨fun h => ⟨h, ?_⟩, fun h => h.1⟩
        rintro rfl
        exact hne (hholder id h).2.2
    · have hsame : (s.core.runCompleted run.path run.task runId).activeRuns = s.core.activeRuns := by
        rw [Core.runCompleted, Core.completeRun, if_neg hheld]
        split <;> rfl
      rw [hsame]
      refine ⟨fun h => ⟨h, ?_⟩, fun h => h.1⟩
      rintro rfl
      exact hheld ((hholder id h).2.2 ▸ h)
  have hearly : ∀ r, r ∈ s'.core.completedBeforeRegistration ↔
      r ∈ s.core.completedBeforeRegistration ∨
        r = runId ∧ run.path = .single ∧ run.returned = false := by
    intro r
    show r ∈ (s.core.runCompleted run.path run.task runId).completedBeforeRegistration ↔ _
    unfold Core.runCompleted Core.completeRun
    by_cases hpath : run.path = .single
    · rw [if_pos hpath]
      cases hret : run.returned with
      | true =>
        have hheld : s.core.activeRuns.get run.task = some runId :=
          hS.cancels runId run hrun hret hrunning
        simp [hheld]
      | false =>
        have hnot : s.core.activeRuns.get run.task ≠ some runId := fun h => by
          rw [(hholder _ h).2.1] at hret
          cases hret
        simp [hnot, hpath, or_comm]
    · simp [hpath]
  have hI' : Inv s' := by
    constructor
    · intro id r h
      obtain ⟨hold, hne⟩ := (hactive id r).mp h
      obtain ⟨run', hrun', hrest⟩ := hI.active id r hold
      exact ⟨run', (hothers r hne).trans hrun', hrest⟩
    · intro r
      rw [hearly, hI.early r]
      by_cases hne : r = runId
      · obtain rfl := hne
        simp [hself, hrun, hrunning]
      · simp [hothers r hne, hne]
  refine ⟨⟨fun r run' hrun' hret hopen => ?_, hI'.clean⟩, hI'⟩
  have hne : r ≠ runId := by
    rintro rfl
    obtain rfl := Option.some.inj (hself.symm.trans hrun')
    cases hopen
  exact (hactive _ r).mpr ⟨hS.cancels r run' ((hothers r hne).symm.trans hrun') hret hopen, hne⟩

end

/-! ### All interleavings -/

/-- STEP: an event keeps everything sound exactly if the run it registers is alone. -/
theorem step_sound {s s' : Ledger} {e : RunEvent} (hI : Inv s) (hS : Sound s)
    (hstep : s.step e = some s') : (Sound s' ↔ Alone s e) ∧ (Sound s' → Inv s') := by
  have hkept : ∀ {t : Ledger} {e : RunEvent}, Sound t ∧ Inv t → Alone s e →
      (Sound t ↔ Alone s e) ∧ (Sound t → Inv t) :=
    fun h halone => ⟨⟨fun _ => halone, fun _ => h.1⟩, fun _ => h.2⟩
  cases e with
  | accepted entry t runId =>
    simp only [step] at hstep
    split at hstep
    · cases hstep
    · next hfresh =>
      obtain rfl := Option.some.inj hstep
      exact hkept (accepted_sound hI hS hfresh rfl rfl) trivial
  | returned runId =>
    simp only [step] at hstep
    split at hstep
    · next run hrun =>
      split at hstep
      · cases hstep
      · next hreturned =>
        obtain rfl := Option.some.inj hstep
        have hreturned : run.returned = false := by simpa using hreturned
        by_cases hcompleted : run.completed = true
        · refine hkept (returned_completed hI hS hrun hreturned hcompleted) fun run' hrun' hopen => ?_
          obtain rfl := Option.some.inj (hrun.symm.trans hrun')
          rw [hcompleted] at hopen
          cases hopen
        · exact returned_running hI hS hrun hreturned (by simpa using hcompleted)
    · cases hstep
  | completed runId =>
    simp only [step] at hstep
    split at hstep
    · next run hrun =>
      split at hstep
      · cases hstep
      · next hrunning =>
        obtain rfl := Option.some.inj hstep
        exact hkept (completed_sound hI hS hrun (by simpa using hrunning)) trivial
    · cases hstep
  | cancelTask id =>
    obtain rfl := Option.some.inj hstep
    exact hkept ⟨hS, hI⟩ trivial

/-- A cancellation of a sound core reaches what the task runs exactly if all of it was returned. -/
theorem reached_iff_landed {s : Ledger} (e : RunEvent) (h : Sound s ∧ Inv s) :
    Reached s e ↔ Landed s e := by
  cases e with
  | cancelTask id =>
    constructor
    · intro hreached runId run hrun htask hopen
      obtain ⟨run', hrun', -, -, hret, -⟩ := h.2.active _ _ (hreached runId run hrun htask hopen)
      obtain rfl := Option.some.inj (hrun.symm.trans hrun')
      exact hret
    · rintro hlanded runId run hrun rfl hopen
      exact h.1.cancels runId run hrun (hlanded runId run hrun rfl hopen) hopen
  | _ => exact Iff.rfl

theorem Sound.start (db : Db) : Sound (start db) where
  cancels _ _ h := by cases h
  clean _ := ⟨rfl, rfl⟩

/-- Whatever the interleaving: a cancellation would reach at every moment every run its submission
    has returned, nothing is left behind when all is over, and every cancellation made reaches
    every run, exactly if each run still running when its submission returns is of a single input
    and alone of its task, and no task is cancelled between a run and the return of its
    submission. -/
theorem active_runs_iff (db : Db) {events : List RunEvent} {s : Ledger}
    (hrun : Machine.exec step (start db) events = some s) :
    (Machine.Throughout step Sound (start db) events ∧
      Machine.Along step Reached (start db) events) ↔
    (Machine.Along step Alone (start db) events ∧
      Machine.Along step Landed (start db) events) := by
  have hexact : Machine.Throughout step Sound (start db) events ↔
      Machine.Along step Alone (start db) events :=
    Machine.throughout_iff_along (A := fun _ _ => True)
      (fun s a s' hI hS _ hstep => step_sound hI hS hstep) hrun (.of_forall fun _ _ => trivial)
      (Inv.start db) (Sound.start db)
  have hboth : Machine.Along step Alone (start db) events →
      Machine.Throughout step (fun s => Sound s ∧ Inv s) (start db) events :=
    fun h => h.throughout (fun s a s' hI hG hstep =>
      have hsound := (step_sound hI.2 hI.1 hstep).1.mpr hG
      ⟨hsound, (step_sound hI.2 hI.1 hstep).2 hsound⟩) ⟨Sound.start db, Inv.start db⟩
  rw [hexact]
  refine and_congr_right fun halone => ?_
  refine Machine.Throughout.along_iff ?_ (hboth halone)
  exact fun s e h => reached_iff_landed e h

/-- One run of a task, cancelled while it runs. -/
def single : List RunEvent :=
  [.accepted .dispatch (phoneTask []) "r1", .returned "r1", .cancelTask (phoneTask []).id,
    .completed "r1"]

/-- Its cancellation reaches it, and nothing of it stays. -/
theorem active_runs_single : ∃ s, Machine.exec step (start ⟨∅, ∅⟩) single = some s ∧
    ((Machine.Throughout step Sound (start ⟨∅, ∅⟩) single ∧
      Machine.Along step Reached (start ⟨∅, ∅⟩) single) ↔
    (Machine.Along step Alone (start ⟨∅, ∅⟩) single ∧
      Machine.Along step Landed (start ⟨∅, ∅⟩) single)) := by
  obtain ⟨s, hrun, -⟩ : ∃ s, Machine.exec step (start ⟨∅, ∅⟩) single = some s ∧
      s.core.completedBeforeRegistration = [] := Machine.exec_eval (by decide +kernel)
  exact ⟨s, hrun, active_runs_iff ⟨∅, ∅⟩ hrun⟩

/-- A task submitted again while its first run goes on. -/
def overlapping : List RunEvent :=
  [.accepted .submitNow (phoneTask []) "r1", .returned "r1",
    .accepted .dispatch (phoneTask []) "r2", .returned "r2"]

/-- The first run is out of reach of a cancellation from then on. -/
theorem active_runs_overwritten :
    ¬ ∀ (db : Db) (events : List RunEvent) (s : Ledger),
      Machine.exec step (start db) events = some s →
      Machine.Throughout step Sound (start db) events ∧
        Machine.Along step Reached (start db) events := by
  intro h
  obtain ⟨s, hrun, hget, hheld⟩ : ∃ s, Machine.exec step (start ⟨∅, ∅⟩) overlapping = some s ∧
      s.runs.get "r1" = some ⟨(phoneTask []).id, .single, true, false⟩ ∧
      s.core.activeRuns.get (phoneTask []).id = some "r2" := Machine.exec_eval (by decide +kernel)
  have hsound := (h ⟨∅, ∅⟩ overlapping s hrun).1.finish hrun
  have hreached := hsound.cancels "r1" _ hget rfl rfl
  rw [Core.cancelRequest, hheld] at hreached
  exact absurd (Option.some.inj hreached) (by decide)

end Ledger

end Gamer.Timer
