import Gamer.Timer.Core

/-! What keeps a cancelled task cancelled. `cancel_task` writes the state last of all, so whatever
    comes after finds it in the row; but five of the statements that write the `state` column do
    not look at the row, and the calls behind them decided on an older one:

        cancelled ──set_timer_task_dependency_missing──▶ dependencyMissing ──resume_task──▶ active
        cancelled ──suspend_timer_task────────────────▶ suspended ─────────resume_task──▶ active
        cancelled ──set_timer_task_state Active (resume_task read the task before)──────▶ active -/

namespace Gamer.Timer
open Gamer.Lib Gamer.Core

/-- The task whose row the next step saves or deletes. -/
def Op.replaces : Op → Option String
  | .saveTask t => some t.id
  | .deleteTask id => some id
  | _ => none

/-- The task whose `state` column the next step writes without looking at it: the missing runner
    of `dispatch` and `submit_now`, a runner's missing dependency and `reject_schedule`
    (`markMissing`, `markMissingNow`), `suspend_task`, the uninstalled package and the write of
    `resume_task`. A request the database fails writes nothing. -/
def Op.overwrites (ans : Answer) : Op → Option String
  | .markMissing t _ _ | .markMissingNow t _ | .suspendEach (t :: _) =>
    if ans.db then some t.id else none
  | .suspendTask id _ | .resumeWrite id _ => if ans.db then some id else none
  | _ => none

/-- The action neither saves nor deletes the task. -/
def Keeps (id : String) (s : State) : Action → Prop
  | .answer k _ => (s.ops[k]?.bind Op.replaces) ≠ some id
  | _ => True

/-- The action is none of the unguarded writes to the task's row. -/
def Spares (id : String) (s : State) : Action → Prop
  | .answer k ans => (s.ops[k]?.bind (Op.overwrites ans)) ≠ some id
  | _ => True

def Cancelled (id : String) (s : State) : Prop := s.stateOf id = some .cancelled

instance (id : String) (s : State) : DecidablePred (Keeps id s)
  | .answer _ _ => inferInstanceAs (Decidable (_ ≠ _))
  | .call _ | .trigger .. => inferInstanceAs (Decidable True)

instance (id : String) (s : State) : DecidablePred (Spares id s)
  | .answer _ _ => inferInstanceAs (Decidable (_ ≠ _))
  | .call _ | .trigger .. => inferInstanceAs (Decidable True)

instance (id : String) : DecidablePred (Cancelled id) := fun s =>
  inferInstanceAs (Decidable (s.stateOf id = some .cancelled))

/-! ### One step -/

/-- What a step may do to the `state` column, by the task it overwrites and the one it replaces. -/
inductive StateEffect (db db' : Db) : Option String → Option String → Prop
  | kept (h : ∀ id, db.stateOf id = some .cancelled → db'.stateOf id = some .cancelled) :
      StateEffect db db' none none
  | overwritten (id : String) (state : TaskState) (hne : state ≠ .cancelled)
      (h : ∀ id', db'.stateOf id' =
        if id' = id then (db.stateOf id).map fun _ => state else db.stateOf id') :
      StateEffect db db' (some id) none
  | replaced (id : String) (h : ∀ id', id' ≠ id → db'.stateOf id' = db.stateOf id') :
      StateEffect db db' none (some id)

namespace StateEffect
variable {c : Core} {f : Db → Db} {ok : Bool}

theorem of_eq {db db' : Db} (h : ∀ id, db'.stateOf id = db.stateOf id) :
    StateEffect db db' none none :=
  .kept fun id hid => by rw [h, hid]

theorem write_kept
    (h : ∀ id, c.db.stateOf id = some .cancelled → (f c.db).stateOf id = some .cancelled) :
    StateEffect c.db (c.write ok f).db none none := by
  refine .kept fun id hid => ?_
  rw [Core.write_db]
  split
  · exact h id hid
  · exact hid

theorem write_eq (h : ∀ id, (f c.db).stateOf id = c.db.stateOf id) :
    StateEffect c.db (c.write ok f).db none none :=
  write_kept fun id hid => by rw [h, hid]

theorem write_overwritten {id : String} {state : TaskState} (hne : state ≠ .cancelled)
    (h : ∀ id', (f c.db).stateOf id' =
      if id' = id then (c.db.stateOf id).map fun _ => state else c.db.stateOf id') :
    StateEffect c.db (c.write ok f).db (if ok then some id else none) none := by
  rw [Core.write_db]
  cases ok with
  | true => exact .overwritten id state hne h
  | false => exact .of_eq fun _ => rfl

theorem write_replaced {id : String}
    (h : ∀ id', id' ≠ id → (f c.db).stateOf id' = c.db.stateOf id') :
    StateEffect c.db (c.write ok f).db none (some id) := by
  refine .replaced id fun id' hne => ?_
  rw [Core.write_db]
  split
  · exact h id' hne
  · rfl

/-- A cancelled row stays so across a step exactly if the step does not overwrite it. -/
theorem cancelled_iff {db db' : Db} {written repl : Option String} {id : String}
    (heff : StateEffect db db' written repl) (h : db.stateOf id = some .cancelled)
    (hkeep : repl ≠ some id) : db'.stateOf id = some .cancelled ↔ written ≠ some id := by
  cases heff with
  | kept hkept => exact ⟨fun _ => by simp, fun _ => hkept id h⟩
  | overwritten id' state hne hover =>
    rw [hover]
    by_cases heq : id = id'
    · subst heq
      simp [h, hne]
    · simp [heq, h, Ne.symm heq]
  | replaced id' hrepl =>
    rw [hrepl id fun heq => hkeep (by rw [heq])]
    simp [h]

end StateEffect

/-- STEP: what the step of a call does to the `state` column. -/
theorem Op.step_effect (op : Op) (ans : Answer) (c : Core) :
    StateEffect c.db (op.step ans c).1.db (op.overwrites ans) op.replaces := by
  cases op with
  | dispatch t due =>
    cases due with
    | none => exact .of_eq fun _ => rfl
    | some due =>
      refine .of_eq fun id => ?_
      simp only [Op.step]
      split
      · exact Db.stateOf_claimScheduledRun c.db t.id id due
      · rfl
  | route t due =>
    refine .of_eq fun id => ?_
    simp only [Op.step]
    split
    · rfl
    · split <;> rfl
  | submitNow t =>
    refine .of_eq fun id => ?_
    simp only [Op.step]
    split
    · rfl
    · split
      · rfl
      · split <;> rfl
  | trigger b due => exact .of_eq fun _ => rfl
  | attach id due runId => exact .write_eq fun _ => rfl
  | finish id due state => exact .write_eq fun _ => rfl
  | finishRejected t due state =>
    cases due with
    | none => exact .of_eq fun _ => rfl
    | some due => exact .write_eq fun _ => rfl
  | completed t due runId outcome =>
    cases due with
    | none => exact .of_eq fun _ => rfl
    | some due => exact .write_eq fun _ => rfl
  | result id label => exact .write_eq fun id' => Db.stateOf_updateTimerTaskResult _ id id' label
  | missingResult t reason => exact .write_eq fun id => Db.stateOf_updateTimerTaskResult _ t.id id _
  | setWakeup id next | resumeWakeup id next =>
    exact .write_eq fun id' => Db.stateOf_setTimerTaskWakeup _ id id' next
  | markMissing t due reason | markMissingNow t reason =>
    exact .write_overwritten (by decide) fun id =>
      Db.stateOf_setTimerTaskDependencyMissing _ t.id id reason
  | suspendTask id reason =>
    exact .write_overwritten (by decide) fun id' => Db.stateOf_suspendTimerTask _ id id' reason
  | suspendEach ts =>
    cases ts with
    | nil => exact .of_eq fun _ => rfl
    | cons t ts =>
      exact .write_overwritten (by decide) fun id => Db.stateOf_suspendTimerTask _ t.id id _
  | resumeWrite id next =>
    exact .write_overwritten (by decide) fun id' => Db.stateOf_setTimerTaskState _ id id' _ _ _
  | cancelTask id =>
    refine .of_eq fun id' => ?_
    simp only [Op.step]
    split <;> rfl
  | cancelRun id runId => exact .of_eq fun _ => rfl
  | cancelWrite id =>
    -- the one unguarded write that leaves a cancelled row cancelled
    refine .write_kept fun id' hid => ?_
    rw [Db.stateOf_setTimerTaskState]
    split
    · next heq => subst heq; simp [hid]
    · exact hid
  | resumeTask id =>
    refine .of_eq fun id' => ?_
    simp only [Op.step]
    split <;> rfl
  | uninstalled package => exact .of_eq fun _ => rfl
  | suspendMissing runnerId =>
    exact .write_kept fun _ hid => Db.stateOf_suspendActive_cancelled hid runnerId
  | resumeMissing runnerId => exact .of_eq fun _ => rfl
  | resumeEach runnerId ts =>
    cases ts with
    | nil => exact .of_eq fun _ => rfl
    | cons t ts =>
      simp only [Op.step]
      split
      · exact .of_eq fun _ => rfl
      · next next _ =>
        exact .write_kept fun _ hid =>
          Db.stateOf_resumeFromMissing_cancelled hid t.id runnerId next
  | saveTask t =>
    exact .write_replaced fun id hne => by rw [Db.stateOf_upsertTimerTask, if_neg hne]
  | deleteTask id =>
    exact .write_replaced fun id' hne => by rw [Db.stateOf_deleteTimerTask, if_neg hne]

/-- STEP: a step of the system out of a state where the task is cancelled. -/
theorem step_cancelled_iff {id : String} {s s' : State} {a : Action} (h : Cancelled id s)
    (hkeep : Keeps id s a) (hstep : step s a = some s') : Cancelled id s' ↔ Spares id s a := by
  cases a with
  | call call =>
    cases hstep
    exact ⟨fun _ => trivial, fun _ => h⟩
  | answer k ans =>
    simp only [step] at hstep
    split at hstep
    · cases hstep
    · cases hstep
    · next op _ hop =>
      cases hstep
      simp only [Keeps, hop, Option.bind_some] at hkeep
      simp only [Spares, hop, Option.bind_some]
      exact (op.step_effect ans s.core).cancelled_iff h hkeep
  | trigger k a runId =>
    simp only [step] at hstep
    split at hstep
    · next b due hop =>
      obtain ⟨b', _, rfl⟩ := Option.map_eq_some_iff.mp hstep
      refine ⟨fun _ => trivial, fun _ => ?_⟩
      unfold Cancelled State.stateOf
      rw [Batch.report_db]
      exact h
    · cases hstep

/-! ### Runs -/

/-- A cancelled task stays cancelled through a run that neither saves nor deletes it exactly if no
    step of the run is an unguarded write to its row. -/
theorem stays_cancelled_iff {id : String} {s s' : State} {as : List Action}
    (hrun : Machine.exec step s as = some s') (hkeep : Machine.Along step (Keeps id) s as)
    (h : Cancelled id s) :
    Machine.Throughout step (Cancelled id) s as ↔ Machine.Along step (Spares id) s as :=
  Machine.throughout_iff_along (I := fun _ => True)
    (fun _ _ _ _ hs hk hstep => ⟨step_cancelled_iff hs hk hstep, fun _ => trivial⟩)
    hrun hkeep trivial h

/-- A store with one task, cancelled. -/
def cancelledTask : Task := { phoneTask [] with id := "a", state := .cancelled, enabled := false }

def cancelledDb : Db := ⟨Table.set ∅ "a" cancelledTask, ∅⟩

def granted : Answer := ⟨true, true, true, .ok (some 60)⟩

/-- Its runner goes and comes back, and its owner tries to resume it. -/
def guardedRun : List Action :=
  [.call (.suspendTasksMissingRunner "script"), .answer 0 granted,
   .call (.resumeTasksMissingRunner "script"), .answer 0 granted, .answer 0 granted,
   .call (.resumeTask "a"), .answer 0 granted]

theorem stays_cancelled_iff_guarded :
    Machine.Throughout step (Cancelled "a") (.start cancelledDb) guardedRun := by
  have hend : ∃ s', Machine.exec step (.start cancelledDb) guardedRun = some s' ∧
      s'.ops.length = 0 := Machine.exec_eval (by decide)
  obtain ⟨s', hrun, _⟩ := hend
  exact (stays_cancelled_iff hrun (by decide) (by decide)).mpr (by decide)

/-- `submit_now` finds the runner missing, and `resume_task` the task no longer cancelled. -/
def reopeningRun : List Action :=
  [.call (.submitNow cancelledTask),
   .answer 0 { granted with supports := false }, .answer 0 granted, .answer 0 granted,
   .answer 0 granted, .answer 0 granted,
   .call (.resumeTask "a"), .answer 0 granted, .answer 0 granted]

theorem cancelled_task_reopened :
    ¬ ∀ (db : Db) (id : String) (s s' : State) (as : List Action),
      Machine.Reaches step (.start db) s → Machine.exec step s as = some s' →
      Machine.Along step (Keeps id) s as → Cancelled id s →
      Machine.Throughout step (Cancelled id) s as := by
  intro hall
  have hend : ∃ s', Machine.exec step (.start cancelledDb) reopeningRun = some s' ∧
      s'.stateOf "a" = some .active := Machine.exec_eval (by decide)
  obtain ⟨s', hrun, hactive⟩ := hend
  have hstays := hall cancelledDb "a" _ s' reopeningRun (.refl _) hrun (by decide) (by decide)
  have hend : s'.stateOf "a" = some .cancelled := hstays.finish hrun
  rw [hactive] at hend
  cases hend

end Gamer.Timer
