import Gamer.Timer.Inputs
import Gamer.Timer.Store

/-! `TimerCore` as a transition system. A call runs from one answer of the database, the runner or
    the schedule extension to the next, so a call in flight is the list of what is left of it, and
    the calls interleave at those points:

        dispatch            claim ──▶ route ─┬─▶ markMissing ──▶ finishRejected ──▶ result
                                             └─▶ trigger (one Batch) ─▶ attach | markMissing | …
        submit_now          ─┬─▶ markMissingNow ──▶ missingResult ──▶ finishRejected ──▶ result
                             └─▶ trigger
        cancel_task         read active run ──▶ cancelRun ──▶ cancelWrite
        resume_task         read task ──▶ resumeWrite ──▶ resumeWakeup
        uninstalled         list ──▶ suspendEach …
        runner came back    list ──▶ resumeEach …

    The task a call works with is the one it was given or read, however old. -/

namespace Gamer.Timer
open Gamer.Lib Gamer.Core

/-- What is left of a call. -/
inductive Op where
  | dispatch (t : Task) (due : Option Int)
  | route (t : Task) (due : Option Int)
  | trigger (b : Batch) (due : Option Int)
  | attach (id : String) (due : Int) (runId : String)
  | markMissing (t : Task) (due : Option Int) (reason : String)
  | finishRejected (t : Task) (due : Option Int) (state : String)
  | completed (t : Task) (due : Option Int) (runId : String) (outcome : TimerOutcome)
  | finish (id : String) (due : Int) (state : String)
  | result (id label : String)
  | submitNow (t : Task)
  | markMissingNow (t : Task) (reason : String)
  | missingResult (t : Task) (reason : String)
  | cancelTask (id : String)
  | cancelRun (id runId : String)
  | cancelWrite (id : String)
  | suspendTask (id reason : String)
  | resumeTask (id : String)
  | resumeWrite (id : String) (next : Option Int)
  | resumeWakeup (id : String) (next : Option Int)
  | uninstalled (package : String)
  | suspendEach (ts : List Task)
  | suspendMissing (runnerId : String)
  | resumeMissing (runnerId : String)
  | resumeEach (runnerId : String) (ts : List Task)
  | setWakeup (id : String) (next : Option Int)
  | saveTask (t : Task)
  | deleteTask (id : String)

/-- The operations of `TimerCore`. `setWakeup` is the cursor the run loop writes. -/
inductive Call where
  | dispatch (t : Task) (due : Option Int)
  | submitNow (t : Task)
  | rejectSchedule (t : Task)
  | cancelTask (id : String)
  | suspendTask (id reason : String)
  | resumeTask (id : String)
  | suspendTasksMissingRunner (runnerId : String)
  | resumeTasksMissingRunner (runnerId : String)
  | onAppPackageUninstalled (package : String)
  | setWakeup (id : String) (next : Option Int)
  | saveTask (t : Task)
  | deleteTask (id : String)

def Call.op : Call → Op
  | .dispatch t due => .dispatch t due
  | .submitNow t => .submitNow t
  | .rejectSchedule t => .markMissing t none (missingDependency t.schedule.providerId)
  | .cancelTask id => .cancelTask id
  | .suspendTask id reason => .suspendTask id reason
  | .resumeTask id => .resumeTask id
  | .suspendTasksMissingRunner runnerId => .suspendMissing runnerId
  | .resumeTasksMissingRunner runnerId => .resumeMissing runnerId
  | .onAppPackageUninstalled package => .uninstalled package
  | .setWakeup id next => .setWakeup id next
  | .saveTask t => .saveTask t
  | .deleteTask id => .deleteTask id

/-- What the world answers at one point of a call: whether the database carries the request out,
    whether the runner is registered, whether it cancels the run, and the schedule's next time. -/
structure Answer where
  db : Bool
  supports : Bool
  cancel : Bool
  next : Except String (Option Int)

/-- The database, the runs registered as active and those that completed before they were. -/
structure Core where
  db : Db
  activeRuns : Table String String
  completedBeforeRegistration : List String

namespace Core

def registerActiveRun (c : Core) (id runId : String) : Core :=
  if runId ∈ c.completedBeforeRegistration then
    { c with completedBeforeRegistration := c.completedBeforeRegistration.filter (· ≠ runId) }
  else { c with activeRuns := c.activeRuns.set id runId }

/-- The synchronous part of the completion hook. -/
def completeRun (c : Core) (id runId : String) : Core :=
  if c.activeRuns.get id = some runId then { c with activeRuns := c.activeRuns.del id }
  else { c with completedBeforeRegistration := runId :: c.completedBeforeRegistration }

/-- A database request: carried out, or failed without effect. -/
def write (c : Core) (ok : Bool) (f : Db → Db) : Core := if ok then { c with db := f c.db } else c

end Core

/-! ### What follows an answer -/

/-- `handle_runner_error`. -/
def handleRunnerError (t : Task) (due : Option Int) : TimerRunnerError → Op
  | .conflict _ | .shuttingDown => .finishRejected t due "skipped"
  | .dependencyMissing message => .markMissing t due message
  | .invalid _ | .invalidDetail .. | .other _ => .finishRejected t due "failed"

/-- The final state of the occurrence and the label of the task when its only run completes. -/
def completionLabels : TimerOutcome → String × String
  | .success => ("success", "成功")
  | .failed _ => ("failed", "失败")
  | .cancelled => ("skipped", "取消")

/-- `MultiFinisher::ordered_summary`, the state column: one row per input in declaration order,
    each taking the first record left under the input's id. -/
def orderedStates : List Json → List (String × String) → List String
  | [], _ => []
  | input :: inputs, remaining =>
    let id := (input.getStr "id").getD ""
    match remaining.find? fun row => row.1 = id with
    | some row => row.2 :: orderedStates inputs (remaining.eraseP fun row => row.1 = id)
    | none => "failed" :: orderedStates inputs remaining

/-- `MultiFinisher::finalize`: the label folded from the rows, and the occurrence's state. -/
def foldedLabels (states : List String) : String × String :=
  let total := max states.length 1
  let ok := states.count "success"
  let failed := total - ok
  (if failed = 0 then "success" else "failed",
   if failed = 0 then "成功" else if ok = 0 then "失败"
   else "部分成功 " ++ toString ok ++ "/" ++ toString total)

namespace Batch

/-- The rows recorded so far, by input id. -/
def rows (b : Batch) : List (String × String) :=
  b.records.map fun x => (((b.inputs[x.1]?.bind (Json.getStr · "id")).getD ""), x.2.state)

/-- The two writes of the aggregator, spawned when the last expected record arrives. -/
def finalize (b : Batch) (due : Option Int) : List Op :=
  let (state, label) := foldedLabels (orderedStates b.task.inputs b.rows)
  .result b.task.id label :: (due.map fun d => Op.finish b.task.id d state).toList

/-- What an action of a trigger has the core do: the single path reports each answer by itself,
    the multi-input paths report once through the aggregator. `runId` is the run the action is
    about. -/
def report (b b' : Batch) (due : Option Int) (a : BatchAction) (runId : String) (c : Core) :
    Core × List Op :=
  match b.path, a with
  | .single, .read => match b.task.runRequest with
    | .ok _ => (c, [])
    -- `handle_runner_error` of an invalid request
    | .error _ => (c, [.finishRejected b.task due "failed"])
  | .single, .resolve _ none =>
    (c.registerActiveRun b.task.id runId, (due.map fun d => Op.attach b.task.id d runId).toList)
  | .single, .resolve _ (some e) => (c, [handleRunnerError b.task due e])
  | .single, .complete _ outcome =>
    (c.completeRun b.task.id runId, [.completed b.task due runId outcome])
  | .single, _ => (c, [])
  | _, _ =>
    let attached := match b.path, a with
      | .dispatchMulti, .resolve _ none => (due.map fun d => Op.attach b.task.id d runId).toList
      | _, _ => []
    let expected := b.inputs.length
    if b.records.length < expected ∧ expected ≤ b'.records.length then
      (c, attached ++ b'.finalize due)
    else (c, attached)

end Batch

/-! ### One step of a call -/

/-- The step of a call up to its next wait: the core after it and what is left. -/
def Op.step (ans : Answer) (c : Core) : Op → Core × List Op
  | .dispatch t none => (c, [.route t none])
  | .dispatch t (some due) =>
    if ans.db then
      let (db, won) := c.db.claimScheduledRun t.id due
      ({ c with db := db }, if won then [.route t (some due)] else [])
    else (c, [])
  | .route t due =>
    if !ans.supports then (c, [.markMissing t due (missingDependency t.runnerId)])
    else if (taskEffectiveInputs t).length ≤ 1 then (c, [.trigger (.new t .single) due])
    else (c, [.trigger (.new t .dispatchMulti) due])
  | .trigger b due => (c, [.trigger b due])
  | .attach id due runId => (c.write ans.db (·.attachScheduledRun id due runId), [])
  | .markMissing t due reason =>
    (c.write ans.db (·.setTimerTaskDependencyMissing t.id reason),
      [.finishRejected t due "failed"])
  | .finishRejected t none state =>
    (c, [.result t.id (if state = "success" then "成功" else "失败")])
  | .finishRejected t (some due) state =>
    (c.write ans.db (·.finishScheduledRun t.id due state none),
      [.result t.id (if state = "success" then "成功" else "失败")])
  | .completed t none _ outcome => (c, [.result t.id (completionLabels outcome).2])
  | .completed t (some due) runId outcome =>
    (c.write ans.db (·.finishScheduledRun t.id due (completionLabels outcome).1 (some runId)),
      [.result t.id (completionLabels outcome).2])
  | .finish id due state => (c.write ans.db (·.finishScheduledRun id due state none), [])
  | .result id label => (c.write ans.db (·.updateTimerTaskResult id label), [])
  | .submitNow t =>
    if !ans.supports then (c, [.markMissingNow t (missingDependency t.runnerId)])
    else if !t.isSchedulable then (c, [])
    else if 1 < (taskEffectiveInputs t).length then (c, [.trigger (.new t .submitNowMulti) none])
    else (c, [.trigger (.new t .single) none])
  | .markMissingNow t reason =>
    (c.write ans.db (·.setTimerTaskDependencyMissing t.id reason),
      if ans.db then [.missingResult t reason] else [])
  | .missingResult t _ =>
    (c.write ans.db (·.updateTimerTaskResult t.id "失败"),
      if ans.db then [.finishRejected t none "failed"] else [])
  | .cancelTask id => match c.activeRuns.get id with
    | some runId => (c, [.cancelRun id runId])
    | none => (c, [.cancelWrite id])
  | .cancelRun id _ => (c, if ans.cancel then [.cancelWrite id] else [])
  | .cancelWrite id => (c.write ans.db (·.setTimerTaskState id .cancelled false none), [])
  | .suspendTask id reason => (c.write ans.db (·.suspendTimerTask id reason), [])
  | .resumeTask id => match c.db.getTimerTask id, ans.next with
    | some t, .ok next =>
      (c, if ans.db ∧ t.state ≠ .cancelled then [.resumeWrite id next] else [])
    | _, _ => (c, [])
  | .resumeWrite id next =>
    (c.write ans.db (·.setTimerTaskState id .active true none),
      if ans.db then [.resumeWakeup id next] else [])
  | .resumeWakeup id next => (c.write ans.db (·.setTimerTaskWakeup id next), [])
  | .uninstalled package =>
    (c, if ans.db then [.suspendEach (c.db.listTimerTasks.filter fun t => t.isSchedulable &&
      (t.app.contentPackage.any (·.value = package) ||
        t.app.androidPackage.any (·.value = package)))] else [])
  | .suspendEach [] => (c, [])
  | .suspendEach (t :: ts) =>
    (c.write ans.db (·.suspendTimerTask t.id "app package unavailable"),
      if ans.db then [.suspendEach ts] else [])
  | .suspendMissing runnerId =>
    (c.write ans.db (·.suspendActiveTimerTasksForRunner runnerId), [])
  | .resumeMissing runnerId =>
    (c, if ans.db then [.resumeEach runnerId (c.db.listTimerTasksMissingRunner runnerId)] else [])
  | .resumeEach _ [] => (c, [])
  | .resumeEach runnerId (t :: ts) => match ans.next with
    | .error _ => (c, [.resumeEach runnerId ts])
    | .ok next =>
      (c.write ans.db (·.resumeTimerTaskFromDependencyMissing t.id runnerId next),
        if ans.db then [.resumeEach runnerId ts] else [])
  | .setWakeup id next => (c.write ans.db (·.setTimerTaskWakeup id next), [])
  | .saveTask t => (c.write ans.db (·.upsertTimerTask t), [])
  | .deleteTask id => (c.write ans.db (·.deleteTimerTask id), [])

/-! ### The system -/

/-- The core and the calls in flight. -/
structure State where
  core : Core
  ops : List Op

/-- A call begins; call `k` gets an answer; the trigger at `k` takes a step of its own. -/
inductive Action where
  | call (c : Call)
  | answer (k : Nat) (ans : Answer)
  | trigger (k : Nat) (a : BatchAction) (runId : String)

def step (s : State) : Action → Option State
  | .call c => some { s with ops := s.ops ++ [c.op] }
  | .answer k ans => match s.ops[k]? with
    | none | some (.trigger ..) => none
    | some op =>
      let (core, rest) := op.step ans s.core
      some ⟨core, s.ops.eraseIdx k ++ rest⟩
  | .trigger k a runId => match s.ops[k]? with
    | some (.trigger b due) => (b.step a).map fun b' =>
        let (core, rest) := b.report b' due a runId s.core
        ⟨core, s.ops.set k (.trigger b' due) ++ rest⟩
    | _ => none

/-- The process starts on a database left by an earlier one. -/
def State.start (db : Db) : State := ⟨⟨db, ∅, []⟩, []⟩

/-- The persisted state of a task. -/
def State.stateOf (s : State) (id : String) : Option TaskState := s.core.db.stateOf id

/-! ### What does not touch the database -/

theorem Core.write_db (c : Core) (ok : Bool) (f : Db → Db) :
    (c.write ok f).db = if ok then f c.db else c.db := by
  unfold Core.write
  split <;> rfl

/-- FRAME: the core's bookkeeping of a trigger does not touch the database. -/
theorem Batch.report_db (b b' : Batch) (due : Option Int) (a : BatchAction) (runId : String)
    (c : Core) : (b.report b' due a runId c).1.db = c.db := by
  have hregister : (c.registerActiveRun b.task.id runId).db = c.db := by
    unfold Core.registerActiveRun
    split <;> rfl
  have hcomplete : (c.completeRun b.task.id runId).db = c.db := by
    unfold Core.completeRun
    split <;> rfl
  unfold Batch.report
  split
  · split <;> rfl
  · exact hregister
  · rfl
  · exact hcomplete
  · rfl
  · dsimp only
    split <;> rfl

end Gamer.Timer
