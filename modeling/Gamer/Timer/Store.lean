import Gamer.Lib.Table
import Gamer.Timer.Task

/-! The two tables of the timer and the statements `store.rs` runs on them. Every statement is one
    request to the database worker, so each of these functions is atomic. Which rows an `UPDATE`
    touches is its `WHERE` clause; only two of those that write the `state` column look at the
    state the row is in:

        set_timer_task_state                               WHERE id
        set_timer_task_dependency_missing                  WHERE id
        suspend_timer_task                                 WHERE id
        suspend_active_timer_tasks_for_runner              WHERE runner AND state AND enabled
        resume_timer_task_from_dependency_missing          WHERE id AND state AND reason -/

namespace Gamer.Timer
open Gamer.Lib

/-- A row of `scheduled_runs`: one claimed occurrence. -/
structure ScheduledRun where
  state : String
  runId : Option String
  deriving DecidableEq

/-- `timer_tasks` by id and `scheduled_runs` by task and occurrence. -/
structure Db where
  tasks : Table String Task
  scheduled : Table (String × Int) ScheduledRun

/-- The reason of a task whose runner or schedule provider is gone. -/
def missingDependency (dependency : String) : String := "missing_dependency=" ++ dependency

namespace Db

def getTimerTask (db : Db) (id : String) : Option Task := db.tasks.get id

def listTimerTasks (db : Db) : List Task := db.tasks.values

def upsertTimerTask (db : Db) (t : Task) : Db := { db with tasks := db.tasks.set t.id t }

def deleteTimerTask (db : Db) (id : String) : Db := { db with tasks := db.tasks.del id }

/-- An `UPDATE timer_tasks … WHERE id`. -/
def updateTask (db : Db) (id : String) (f : Task → Task) : Db :=
  { db with tasks := db.tasks.modify id f }

def setTimerTaskWakeup (db : Db) (id : String) (next : Option Int) : Db :=
  db.updateTask id fun t => { t with nextWakeup := next }

def setTimerTaskState (db : Db) (id : String) (state : TaskState) (enabled : Bool)
    (reason : Option String) : Db :=
  db.updateTask id fun t => { t with
    state := state, enabled := enabled, nextWakeup := none, suspendReason := reason }

def setTimerTaskDependencyMissing (db : Db) (id reason : String) : Db :=
  db.updateTask id fun t => { t with
    state := .dependencyMissing, suspendReason := some reason, nextWakeup := none }

def suspendTimerTask (db : Db) (id reason : String) : Db :=
  db.updateTask id fun t => { t with
    state := .suspended, enabled := false, nextWakeup := none, suspendReason := some reason }

def suspendActiveTimerTasksForRunner (db : Db) (runnerId : String) : Db :=
  { db with tasks := db.tasks.map fun t =>
      if t.runnerId = runnerId ∧ t.state = .active ∧ t.enabled then
        { t with
          state := .dependencyMissing
          suspendReason := some (missingDependency runnerId)
          nextWakeup := none }
      else t }

def listTimerTasksMissingRunner (db : Db) (runnerId : String) : List Task :=
  db.listTimerTasks.filter fun t => t.runnerId = runnerId ∧ t.state = .dependencyMissing ∧
    t.suspendReason = some (missingDependency runnerId)

def resumeTimerTaskFromDependencyMissing (db : Db) (id runnerId : String) (next : Option Int) :
    Db :=
  db.updateTask id fun t =>
    if t.state = .dependencyMissing ∧ t.suspendReason = some (missingDependency runnerId) then
      { t with state := .active, suspendReason := none, nextWakeup := next }
    else t

/-- `update_timer_task_result`, and `update_timer_task_result_summary` up to the summary text. -/
def updateTimerTaskResult (db : Db) (id result : String) : Db :=
  db.updateTask id fun t => { t with lastResult := some result }

/-- The occurrence is claimed if it was not; the answer says who won. -/
def claimScheduledRun (db : Db) (id : String) (due : Int) : Db × Bool :=
  match db.scheduled.get (id, due) with
  | none => ({ db with scheduled := db.scheduled.set (id, due) ⟨"running", none⟩ }, true)
  | some _ => (db, false)

/-- An `UPDATE scheduled_runs … WHERE task_id AND scheduled_at AND state = 'running'`. -/
def updateRunning (db : Db) (id : String) (due : Int) (f : ScheduledRun → ScheduledRun) : Db :=
  { db with scheduled := db.scheduled.modify (id, due) fun r =>
      if r.state = "running" then f r else r }

def finishScheduledRun (db : Db) (id : String) (due : Int) (state : String)
    (runId : Option String) : Db :=
  db.updateRunning id due fun r => { r with state := state, runId := runId <|> r.runId }

def attachScheduledRun (db : Db) (id : String) (due : Int) (runId : String) : Db :=
  db.updateRunning id due fun r => { r with runId := some runId }

/-! ### The state column -/

/-- The persisted state of a task. -/
def stateOf (db : Db) (id : String) : Option TaskState := (db.tasks.get id).map Task.state

theorem stateOf_updateTask (db : Db) (id id' : String) (f : Task → Task) :
    (db.updateTask id f).stateOf id' =
      if id' = id then (db.tasks.get id).map fun t => (f t).state else db.stateOf id' := by
  unfold stateOf updateTask
  rw [Table.get_modify]
  split <;> simp [Function.comp_def]

/-- FRAME: an update that keeps the state of the row it is applied to keeps all states. -/
theorem stateOf_updateTask_same (db : Db) (id id' : String) {f : Task → Task}
    (hf : ∀ t, (f t).state = t.state) : (db.updateTask id f).stateOf id' = db.stateOf id' := by
  rw [stateOf_updateTask]
  split
  · next h => subst h; simp only [hf]; rfl
  · rfl

@[simp] theorem stateOf_setTimerTaskWakeup (db : Db) (id id' : String) (next : Option Int) :
    (db.setTimerTaskWakeup id next).stateOf id' = db.stateOf id' :=
  stateOf_updateTask_same db id id' fun _ => rfl

@[simp] theorem stateOf_updateTimerTaskResult (db : Db) (id id' result : String) :
    (db.updateTimerTaskResult id result).stateOf id' = db.stateOf id' :=
  stateOf_updateTask_same db id id' fun _ => rfl

@[simp] theorem stateOf_claimScheduledRun (db : Db) (id id' : String) (due : Int) :
    (db.claimScheduledRun id due).1.stateOf id' = db.stateOf id' := by
  unfold claimScheduledRun
  split <;> rfl

/-- An update that sets the state of the row of `id`. -/
theorem stateOf_updateTask_to (db : Db) (id id' : String) {f : Task → Task} {state : TaskState}
    (hf : ∀ t, (f t).state = state) :
    (db.updateTask id f).stateOf id' =
      if id' = id then (db.stateOf id).map fun _ => state else db.stateOf id' := by
  rw [stateOf_updateTask]
  simp [hf, stateOf, Function.comp_def]

theorem stateOf_setTimerTaskState (db : Db) (id id' : String) (state : TaskState)
    (enabled : Bool) (reason : Option String) :
    (db.setTimerTaskState id state enabled reason).stateOf id' =
      if id' = id then (db.stateOf id).map fun _ => state else db.stateOf id' :=
  stateOf_updateTask_to db id id' fun _ => rfl

theorem stateOf_setTimerTaskDependencyMissing (db : Db) (id id' reason : String) :
    (db.setTimerTaskDependencyMissing id reason).stateOf id' =
      if id' = id then (db.stateOf id).map fun _ => .dependencyMissing else db.stateOf id' :=
  stateOf_updateTask_to db id id' fun _ => rfl

theorem stateOf_suspendTimerTask (db : Db) (id id' reason : String) :
    (db.suspendTimerTask id reason).stateOf id' =
      if id' = id then (db.stateOf id).map fun _ => .suspended else db.stateOf id' :=
  stateOf_updateTask_to db id id' fun _ => rfl

theorem stateOf_upsertTimerTask (db : Db) (t : Task) (id' : String) :
    (db.upsertTimerTask t).stateOf id' = if id' = t.id then some t.state else db.stateOf id' := by
  unfold stateOf upsertTimerTask
  rw [Table.get_set]
  split <;> rfl

theorem stateOf_deleteTimerTask (db : Db) (id id' : String) :
    (db.deleteTimerTask id).stateOf id' = if id' = id then none else db.stateOf id' := by
  unfold stateOf deleteTimerTask
  rw [Table.get_del]
  split <;> rfl

/-- GUARDED: the two statements that look at the state leave a cancelled row alone. -/
theorem stateOf_suspendActive_cancelled {db : Db} {id : String}
    (h : db.stateOf id = some .cancelled) (runnerId : String) :
    (db.suspendActiveTimerTasksForRunner runnerId).stateOf id = some .cancelled := by
  obtain ⟨t, ht, hstate⟩ := Option.map_eq_some_iff.mp h
  unfold stateOf suspendActiveTimerTasksForRunner
  rw [Table.get_map, ht]
  simp [hstate]

theorem stateOf_resumeFromMissing_cancelled {db : Db} {id : String}
    (h : db.stateOf id = some .cancelled) (id' runnerId : String) (next : Option Int) :
    (db.resumeTimerTaskFromDependencyMissing id' runnerId next).stateOf id = some .cancelled := by
  unfold resumeTimerTaskFromDependencyMissing
  rw [stateOf_updateTask]
  split
  · next heq =>
    subst heq
    obtain ⟨t, ht, hstate⟩ := Option.map_eq_some_iff.mp h
    simp [ht, hstate]
  · exact h

end Db

end Gamer.Timer
