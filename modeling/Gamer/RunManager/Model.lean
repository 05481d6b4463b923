import Gamer.Lib.Table
import Gamer.Lib.Machine
import Gamer.Core.Models

/-! The run registry of `run_manager.rs` as a transition system. Every action is one stretch of
    code that holds a lock (or touches one atomic), so the runs of the system are the interleavings
    of any number of `submit`, `cancel`, `begin_shutdown` and maintenance calls with the run tasks.

        submit ──▶ starting ──▶ running ──▶ success / failed
                      │            └─ cancel ──▶ stopping ──▶ cancelled
                      └─ cancel (never enters the executor) ─▶ cancelled

    `submit` keeps `active_by_device` locked from its admission checks to the insertion of the
    slot, and locks `runs` for the insertion of the entry only; the model keeps the lock holder in
    the state for that reason. Every other critical section is one action. The executor is
    outside: the results of `prepare`, `acquire` and `execute`, and an unwinding panic (or a
    dropped future) at any of its await points, are inputs of the task's actions. -/

namespace Gamer.RunManager
open Gamer.Lib Gamer.Core

abbrev RunId := String
abbrev DeviceId := String
/-- One concurrent call of `submit` or `begin_shutdown`. -/
abbrev Caller := Nat
abbrev Time := Nat
abbrev Logs := List (String × String)

inductive RunSource where | manual | scheduled | taskNow
  deriving DecidableEq

inductive RunState where | starting | running | stopping | success | failed | cancelled
  deriving DecidableEq

namespace RunState

def isTerminal : RunState → Bool
  | .success | .failed | .cancelled => true
  | _ => false

def isActive (s : RunState) : Bool := !s.isTerminal

end RunState

structure RunRecord where
  runId : RunId
  deviceId : DeviceId
  runnerId : String
  entrypoint : String
  contentPackage : Option String
  scriptId : String
  source : RunSource
  taskId : Option String
  scheduledAt : Option Int
  state : RunState
  startedAt : Time
  finishedAt : Option Time
  error : Option String
  deriving DecidableEq

structure StartRequest where
  request : RunRequest
  source : RunSource
  taskId : Option String
  scheduledAt : Option Int
  realtimeLogs : Bool

def StartRequest.deviceId (req : StartRequest) : DeviceId := req.request.deviceId.value

def StartRequest.displayLabel (req : StartRequest) : String := req.request.entrypoint

inductive RunOutcome where
  | success (logs : Logs)
  | failed (message : String) (logs : Logs)
  | cancelled (logs : Logs)
  deriving DecidableEq

namespace RunOutcome

def logs : RunOutcome → Logs
  | .success l | .failed _ l | .cancelled l => l

/-- The state a run ends in by this outcome alone: `RunOutcomeClass`. -/
def outcomeClass : RunOutcome → RunState
  | .success _ => .success
  | .failed .. => .failed
  | .cancelled _ => .cancelled

/-- The error text `FinishGuard::complete` records. -/
def error : RunOutcome → Option String
  | .failed message _ => some message
  | _ => none

end RunOutcome

inductive StartError where
  | conflict (record : RunRecord)
  | shuttingDown
  | maintenance

inductive CancelOutcome where
  | accepted
  | notFound
  | alreadyFinished (state : RunState)
  deriving DecidableEq

structure ActiveRun where
  record : RunRecord
  stop : Bool
  cancelRequested : Bool

def historyCap : Nat := 256

/-- Where the run task stands: each constructor names what it does next. -/
inductive Phase where
  | spawned
  | guarded
  | preparing
  | prepareFailed (error : String)
  | prepared
  | acquired
  | marked
  | entering
  | executing
  | executed (result : Except String Logs)
  | releasing (outcome : RunOutcome)
  | completing (outcome : RunOutcome)
  | hooking (outcome : RunOutcome)
  | dropping
  | observing (record : RunRecord)
  | dropHook (record : RunRecord)
  | done

/-- A run task. `onFinish` says whether its guard still holds the hook (`Option::take`), `given`
    whether the caller of `submit` passed one; no step reads `given`. -/
structure Task where
  req : StartRequest
  given : Bool
  phase : Phase
  onFinish : Bool

inductive SubmitPhase where
  | passed (req : StartRequest) (onFinish : Bool)
  | admitted (req : StartRequest) (onFinish : Bool)
  | inserted (req : StartRequest) (onFinish : Bool) (record : RunRecord)
  | answered (reply : Except StartError RunRecord)

inductive ShutdownPhase where
  | waiting
  | forcing (ids : List RunId)
  | forced
  | idle

/-- One call of a completion hook. -/
structure HookCall where
  runId : RunId
  record : RunRecord
  outcome : RunOutcome
  deriving DecidableEq

/-- The registry, its callers and its tasks. The last seven fields are bookkeeping that no
    action reads: what was inserted, accepted, cancelled, archived and deleted so far, and the
    hook calls made. -/
structure State where
  activeByDevice : Table DeviceId RunId
  devLock : Option Caller
  runs : Table RunId ActiveRun
  history : List RunRecord
  draining : Bool
  maintenance : Bool
  resultHook : Bool
  inflight : Nat
  tasks : Table RunId Task
  submits : Table Caller SubmitPhase
  shutdowns : Table Caller ShutdownPhase
  inserted : List RunId
  accepted : List RunId
  cancelAccepted : List RunId
  archived : List RunRecord
  deleted : List RunId
  hookCalls : List HookCall
  observerCalls : List HookCall

/-- `RunManager::new`. -/
def init : State where
  activeByDevice := ∅
  devLock := none
  runs := ∅
  history := []
  draining := false
  maintenance := false
  resultHook := false
  inflight := 0
  tasks := ∅
  submits := ∅
  shutdowns := ∅
  inserted := []
  accepted := []
  cancelAccepted := []
  archived := []
  deleted := []
  hookCalls := []
  observerCalls := []

/-! ### One entry, one record -/

def ActiveRun.mark (e : ActiveRun) (state : RunState) (error : Option String) (now : Time) :
    ActiveRun :=
  { e with record := { e.record with
      state := state, error := error,
      finishedAt := if state.isTerminal then some now else e.record.finishedAt } }

/-- The terminal state an outcome of class `cls` leads to: a requested cancellation wins. -/
def ActiveRun.terminal (e : ActiveRun) (cls : RunState) : RunState :=
  if e.cancelRequested then .cancelled else cls

/-- The entry `mark_terminal_checked` leaves behind. -/
def ActiveRun.settle (e : ActiveRun) (cls : RunState) (error : Option String) (now : Time) :
    ActiveRun :=
  { e with record := { e.record with
      state := e.terminal cls
      error := if e.terminal cls = .cancelled then none else error
      finishedAt := some now } }

/-- The entry an accepted `cancel` leaves behind. -/
def ActiveRun.requestCancel (e : ActiveRun) : ActiveRun :=
  { e with
    cancelRequested := true
    stop := true
    record := { e.record with state := .stopping } }

def abnormalExit : String := "执行异常终止（panic 或未正常收尾）"

/-- The record `finalize` archives: a terminal one as it is, any other classified by whether a
    cancellation was requested. -/
def ActiveRun.close (e : ActiveRun) (now : Time) : RunRecord :=
  if e.record.state.isTerminal then e.record
  else { e.record with
    state := if e.cancelRequested then .cancelled else .failed
    error := e.record.error.or (some (if e.cancelRequested then "已停止" else abnormalExit))
    finishedAt := some now }

/-- The bounded archive: the oldest record makes room once `HISTORY_CAP` are there. -/
def pushHistory (history : List RunRecord) (record : RunRecord) : List RunRecord :=
  (if historyCap ≤ history.length then history.tail else history) ++ [record]

/-- The record `submit_inner` creates. -/
def newRecord (req : StartRequest) (id : RunId) (now : Time) : RunRecord where
  runId := id
  deviceId := req.deviceId
  runnerId := req.request.runnerId
  entrypoint := req.request.entrypoint
  contentPackage := req.request.app.contentPackage.map (·.value)
  scriptId := req.displayLabel
  source := req.source
  taskId := req.taskId
  scheduledAt := req.scheduledAt
  state := .starting
  startedAt := now
  finishedAt := none
  error := none

/-- The outcome `FinishGuard::drop` reads off the archived record. -/
def dropOutcome (record : RunRecord) : RunOutcome :=
  match record.state with
  | .success => .success []
  | .cancelled => .cancelled []
  | _ => .failed (record.error.getD abnormalExit) []

/-! ### The actions -/

/-- What the world outside the registry answers a task's next action with. -/
inductive Input where
  | tick
  | prepareOk
  | prepareErr (error : String)
  | acquireOk
  | acquireErr (error : String)
  | executeOk (logs : Logs)
  | executeErr (error : String)
  | released
  | unwind

inductive Action where
  | submit (c : Caller) (req : StartRequest) (onFinish : Bool)
  | lockDevices (c : Caller)
  | insertRun (c : Caller) (id : RunId) (now : Time)
  | insertSlot (c : Caller)
  | task (id : RunId) (input : Input) (now : Time)
  | cancel (id : RunId)
  | setResultHook
  | deleteTerminalRecords (ids : List RunId) (retained dbOk : Bool)
  | tryIdleMaintenance
  | endMaintenance
  | beginShutdown (c : Caller)
  | pollActive (c : Caller)
  | deadline (c : Caller)
  | forceCancel (c : Caller)

namespace State

/-! ### Queries -/

/-- `get_run` looks into `runs` first and, when the run is not there, into `history` under
    another lock: `s` and `s'` are the states at the two looks. -/
def getRun (s s' : State) (id : RunId) : Option RunRecord :=
  match s.runs.get id with
  | some e => some e.record
  | none => s'.history.find? fun r => r.runId = id

def activeForDevice (s s' : State) (dev : DeviceId) : Option RunRecord :=
  (s.activeByDevice.get dev).bind fun id => (s'.runs.get id).map (·.record)

/-- `active_count() == 0`. -/
def noneActive (s : State) : Bool := s.runs.isEmpty

/-! ### Short critical sections on one entry -/

def withEntry (s : State) (id : RunId) (f : ActiveRun → ActiveRun) : State :=
  { s with runs := s.runs.modify id f }

def isCancelled (s : State) (id : RunId) : Bool :=
  match s.runs.get id with
  | some e => e.cancelRequested
  | none => false

def markState (s : State) (id : RunId) (state : RunState) (error : Option String) (now : Time) :
    State :=
  s.withEntry id fun e => e.mark state error now

/-- `mark_terminal_checked`: whether the run is (now) cancelled. -/
def markTerminalChecked (s : State) (id : RunId) (cls : RunState) (error : Option String)
    (now : Time) : State × Bool :=
  match s.runs.get id with
  | none => (s, false)
  | some e =>
    if e.record.state.isTerminal then (s, decide (e.record.state = .cancelled))
    else ({ s with runs := s.runs.set id (e.settle cls error now) },
      decide (e.terminal cls = .cancelled))

/-- `cancel`, up to the end of its critical section on `runs`. A run that is not active is looked
    up in `history` afterwards, which changes nothing. -/
def cancel (s : State) (id : RunId) : State × CancelOutcome :=
  match s.runs.get id with
  | some e =>
    if e.record.state.isTerminal then (s, .alreadyFinished e.record.state)
    else ({ s with
      runs := s.runs.set id e.requestCancel
      cancelAccepted := s.cancelAccepted ++ [id] }, .accepted)
  | none =>
    match s.history.find? fun r => r.runId = id with
    | some r => (s, .alreadyFinished r.state)
    | none => (s, .notFound)

def snapshotOrPlaceholder (s : State) (id : RunId) (now : Time) : RunRecord :=
  (getRun s s id).getD
    { runId := id, deviceId := "", runnerId := "", entrypoint := "", contentPackage := none,
      scriptId := "", source := .manual, taskId := none, scheduledAt := none, state := .failed,
      startedAt := now, finishedAt := some now, error := some "record vanished" }

/-! ### Archiving -/

/-- `finalize`: the entry leaves `runs`, its own slot leaves `active_by_device` and the record
    enters `history` in one critical section. -/
def finalize (s : State) (id : RunId) (now : Time) : Option (State × RunRecord) :=
  (s.runs.get id).map fun e =>
    let record := e.close now
    ({ s with
        runs := s.runs.del id
        activeByDevice :=
          if s.activeByDevice.get record.deviceId = some id then
            s.activeByDevice.del record.deviceId
          else s.activeByDevice
        history := pushHistory s.history record
        archived := s.archived ++ [record] }, record)

/-! ### The run task -/

def setPhase (s : State) (id : RunId) (t : Task) (phase : Phase) : State :=
  { s with tasks := s.tasks.set id { t with phase := phase } }

/-- One step of `run_task`, `execute` or the drop of its `FinishGuard`. -/
def taskStep (s : State) (id : RunId) (t : Task) (input : Input) (now : Time) : Option State :=
  match t.phase, input with
  | .spawned, .tick => some ({ s with inflight := s.inflight + 1 }.setPhase id t .guarded)
  | .guarded, .tick =>
    some (s.setPhase id t (if isCancelled s id then .completing (.cancelled []) else .preparing))
  | .preparing, .prepareOk => some (s.setPhase id t .prepared)
  | .preparing, .prepareErr error => some (s.setPhase id t (.prepareFailed error))
  | .preparing, .unwind => some (s.setPhase id t .dropping)
  | .prepareFailed error, .tick =>
    some (s.setPhase id t (.completing
      (if isCancelled s id then .cancelled [] else .failed ("连接失败: " ++ error) [])))
  | .prepared, .acquireOk => some (s.setPhase id t .acquired)
  | .prepared, .acquireErr error =>
    some (s.setPhase id t (.completing (.failed ("设备活动租约获取失败: " ++ error) [])))
  | .prepared, .unwind => some (s.setPhase id t .dropping)
  -- the entry is marked running whatever state it is in
  | .acquired, .tick => some ((markState s id .running none now).setPhase id t .marked)
  | .marked, .tick =>
    some (s.setPhase id t (if isCancelled s id then .releasing (.cancelled []) else .entering))
  | .entering, .tick =>
    some (s.setPhase id t (match s.runs.get id with
      | some _ => .executing
      | none => .releasing (.failed "注册表条目丢失" [])))
  | .executing, .executeOk logs => some (s.setPhase id t (.executed (.ok logs)))
  | .executing, .executeErr error => some (s.setPhase id t (.executed (.error error)))
  | .executing, .unwind => some (s.setPhase id t .dropping)
  | .executed (.ok logs), .tick =>
    some (s.setPhase id t (.releasing
      (if isCancelled s id then .cancelled logs else .success logs)))
  | .executed (.error error), .tick =>
    some (s.setPhase id t (.releasing
      (if isCancelled s id then .cancelled [] else .failed error [])))
  | .releasing outcome, .released => some (s.setPhase id t (.completing outcome))
  | .releasing _, .unwind => some (s.setPhase id t .dropping)
  -- `FinishGuard::complete`: the terminal state, then the hook
  | .completing outcome, .tick =>
    let (s', cancelled) := markTerminalChecked s id outcome.outcomeClass outcome.error now
    some (s'.setPhase id t (.hooking (if cancelled then .cancelled outcome.logs else outcome)))
  | .hooking outcome, .tick =>
    let call : HookCall := ⟨id, snapshotOrPlaceholder s id now, outcome⟩
    some { s with
      hookCalls := if t.onFinish then s.hookCalls ++ [call] else s.hookCalls
      tasks := s.tasks.set id { t with phase := .dropping, onFinish := false } }
  -- `FinishGuard::drop`: archive, then the observer, then the hook if it is still there
  | .dropping, .tick =>
    if s.devLock.isSome then none
    else match finalize s id now with
      | none => some ({ s with inflight := s.inflight - 1 }.setPhase id t .done)
      | some (s', record) => some (s'.setPhase id t (.observing record))
  | .observing record, .tick =>
    let call : HookCall := ⟨id, record, dropOutcome record⟩
    some ({ s with observerCalls :=
      if s.resultHook then s.observerCalls ++ [call] else s.observerCalls }.setPhase id t
        (.dropHook record))
  | .dropHook record, .tick =>
    let call : HookCall := ⟨id, record, dropOutcome record⟩
    some { s with
      hookCalls := if t.onFinish then s.hookCalls ++ [call] else s.hookCalls
      inflight := s.inflight - 1
      tasks := s.tasks.set id { t with phase := .done, onFinish := false } }
  | _, _ => none

/-! ### Submission -/

def answer (s : State) (c : Caller) (reply : Except StartError RunRecord) : State :=
  { s with submits := s.submits.set c (.answered reply) }

/-- The admission checks made once `active_by_device` is locked. -/
def admitRun (s : State) (c : Caller) (req : StartRequest) (onFinish : Bool) : State :=
  let locked : State :=
    { s with devLock := some c, submits := s.submits.set c (.admitted req onFinish) }
  if s.maintenance then s.answer c (.error .maintenance)
  else match s.activeByDevice.get req.deviceId with
    | none => locked
    | some existing => match s.runs.get existing with
      | some e => s.answer c (.error (.conflict e.record))
      -- a slot without an entry is reclaimed
      | none => { locked with activeByDevice := s.activeByDevice.del req.deviceId }

/-- One atomic step. `insertRun` takes the id `Uuid::new_v4` returned, which is a new one. -/
def step (s : State) : Action → Option State
  | .submit c req onFinish =>
    match s.submits.get c with
    | some _ => none
    | none =>
      if s.draining then some (s.answer c (.error .shuttingDown))
      else some { s with submits := s.submits.set c (.passed req onFinish) }
  | .lockDevices c =>
    match s.devLock, s.submits.get c with
    | none, some (.passed req onFinish) => some (s.admitRun c req onFinish)
    | _, _ => none
  | .insertRun c id now =>
    match s.submits.get c with
    | some (.admitted req onFinish) =>
      if id ∈ s.inserted then none
      else
        let record := newRecord req id now
        some { s with
          runs := s.runs.set id { record := record, stop := false, cancelRequested := false }
          inserted := s.inserted ++ [id]
          submits := s.submits.set c (.inserted req onFinish record) }
    | _ => none
  | .insertSlot c =>
    match s.submits.get c with
    | some (.inserted req onFinish record) =>
      some { s with
        activeByDevice := s.activeByDevice.set req.deviceId record.runId
        devLock := none
        tasks := s.tasks.set record.runId ⟨req, onFinish, .spawned, onFinish⟩
        accepted := s.accepted ++ [record.runId]
        submits := s.submits.set c (.answered (.ok record)) }
    | _ => none
  | .task id input now => (s.tasks.get id).bind fun t => s.taskStep id t input now
  | .cancel id => some (s.cancel id).1
  | .setResultHook => some { s with resultHook := true }
  | .deleteTerminalRecords ids retained dbOk =>
    if (ids.any fun id => (s.runs.get id).isSome) || retained || !dbOk then some s
    else some { s with
      history := s.history.filter fun r => !ids.contains r.runId
      deleted := s.deleted ++ (s.history.map (·.runId)).filter ids.contains }
  | .tryIdleMaintenance =>
    if s.devLock.isSome then none
    else if !s.activeByDevice.isEmpty || s.draining || s.maintenance then some s
    else some { s with maintenance := true }
  | .endMaintenance => some { s with maintenance := false }
  | .beginShutdown c =>
    match s.shutdowns.get c with
    | some _ => none
    | none => some { s with draining := true, shutdowns := s.shutdowns.set c .waiting }
  | .pollActive c =>
    match s.shutdowns.get c with
    | some .waiting =>
      if noneActive s then some { s with shutdowns := s.shutdowns.set c .idle } else some s
    | _ => none
  | .deadline c =>
    match s.shutdowns.get c with
    | some .waiting =>
      let active := s.runs.values.filter fun e => e.record.state.isActive
      some { s with shutdowns := s.shutdowns.set c (.forcing (active.map (·.record.runId))) }
    | _ => none
  | .forceCancel c =>
    match s.shutdowns.get c with
    | some (.forcing []) => some { s with shutdowns := s.shutdowns.set c .forced }
    | some (.forcing (id :: ids)) =>
      some { (s.cancel id).1 with shutdowns := s.shutdowns.set c (.forcing ids) }
    | _ => none

end State

/-- The states some interleaving of calls leads to. -/
def Reachable (s : State) : Prop := Machine.Reaches State.step init s

/-- A manual run on the device `phone`, for the concrete runs below. -/
def phoneRequest : StartRequest where
  request :=
    { deviceId := ⟨"phone", "phone", by decide⟩
      app := ⟨⟨"phone", "phone", by decide⟩, none, none⟩
      runnerId := "script"
      entrypoint := "main"
      payload := .null
      executionPolicy := none }
  source := .manual
  taskId := none
  scheduledAt := none
  realtimeLogs := false

/-- The actions that accept run `id` for caller 0. -/
def acceptRun (id : RunId) : List Action :=
  [.submit 0 phoneRequest true, .lockDevices 0, .insertRun 0 id 0, .insertSlot 0]

end Gamer.RunManager
