import Gamer.Timer.Core

/-! The scheduler: `TimerCore` with its run loop, the runner registry and the calls in flight. A
    call is a thread that keeps its place in the list when it returns, so that the run loop can
    wait for the dispatch it called; what a call leaves behind (the completions of a run, the
    submissions of several inputs) is a thread of its own.

        run_loop   listing ──▶ looking ─┬─▶ storing ───────────────▶ looking
                                        ├─▶ advancing ──▶ waiting ──▶ looking     dispatch
                                        └─▶ waiting ───────────────▶ looking     reject_schedule

    The loop works through the tasks it listed. The clock it reads and the answers of the schedule
    extension are part of the move. Instants are in nanoseconds, the columns of the store in
    seconds. -/

namespace Gamer.Timer
open Gamer.Lib Gamer.Core

/-! ### Schedules -/

def second : Int := 1000000000

/-- `DateTime::timestamp`. -/
def timestamp (instant : Int) : Int := instant / second

/-- The instant a cursor of the store stands for. -/
def instantOf (seconds : Int) : Int := seconds * second

def lookback : Int := 3600 * second

/-- A schedule provider: the next occurrence after an instant, and the latest one due at an
    instant within the lookback. -/
structure ScheduleExtension where
  nextAfter : TaskSchedule → Int → Except String (Option Int)
  latestDue : TaskSchedule → Int → Int → Except String (Option Int)

/-- What the extension answers about one task at one instant. -/
structure ScheduleAnswer where
  latest : Except String (Option Int)
  next : Except String (Option Int)
  deriving DecidableEq

def ScheduleExtension.answer (ext : ScheduleExtension) (schedule : TaskSchedule) (now : Int) :
    ScheduleAnswer := ⟨ext.latestDue schedule now lookback, ext.nextAfter schedule now⟩

/-- What the loop does about a task it listed. -/
inductive Decision where
  | sleep
  | reject
  | store (next : Int)
  | fire (due : Int) (next : Option Int)

/-- An occurrence is known: it is fired once it is due, and the cursor moves on. -/
def Decision.onDue (now due : Int) (ans : ScheduleAnswer) : Decision :=
  if now < due then .sleep
  else match ans.next with
    | .ok next => .fire due next
    | .error _ => .reject

/-- The cursor is missing or left behind: the extension is asked for the latest occurrence. -/
def Decision.lookBack (now : Int) (ans : ScheduleAnswer) : Decision :=
  match ans.latest with
  | .ok (some due) => .onDue now due ans
  | .ok none => match ans.next with
    | .ok (some next) => .store next
    | .ok none => .sleep
    | .error _ => .reject
  | .error _ => .reject

def Task.decision (t : Task) (now : Int) (ans : ScheduleAnswer) : Decision :=
  if !t.isSchedulable then .sleep
  else match t.nextWakeup with
    | none => .lookBack now ans
    | some cursor =>
      if instantOf cursor ≤ now ∧ now - lookback ≤ instantOf cursor then
        .onDue now (instantOf cursor) ans
      else if instantOf cursor < now - lookback then .lookBack now ans
      else .sleep

/-! ### Threads -/

/-- Why a task was put into `DependencyMissing`: `runner.supports` said no, the registry had no
    such runner at the submission, the runner was unregistered, the schedule was rejected, or the
    runner itself said so. The server does not keep this. -/
inductive Cause where | unsupported | unavailable | gone | schedule | runner
  deriving DecidableEq

/-- The runner of the task was not registered. -/
def Cause.runnerMissing : Cause → Bool
  | .unsupported | .unavailable | .gone => true
  | .schedule | .runner => false

/-- A call in flight, with the cause it will record if it marks a task. -/
inductive Thread where
  | running (op : Op) (why : Cause)
  | unregistering (runners : List String)
  | returned
  | panicked

inductive Loop where
  | listing
  | looking (now : Int) (rest : List Task)
  | storing (now : Int) (id : String) (next : Int) (rest : List Task)
  | advancing (now : Int) (t : Task) (due : Int) (next : Option Int) (rest : List Task)
  | waiting (now : Int) (k : Nat) (rest : List Task)

/-- The process. `runners` maps a runner to its owner; `causes` is what `Cause` says of each task
    that is missing a dependency. -/
structure Scheduler where
  core : Core
  runners : Table String String
  causes : String → Cause
  loop : Loop
  threads : List Thread

inductive Move where
  | call (c : Call)
  | register (runnerId owner : String)
  | unregister (owner : String)
  | answer (k : Nat) (ans : Answer)
  | trigger (k : Nat) (a : BatchAction) (runId : String)
  | list (now : Int) (ok : Bool)
  | look (ans : ScheduleAnswer)
  | write (ok : Bool)
  | proceed
  | restart

/-- The calls that come from outside; the others are the run loop's and the registrar's. -/
def Call.external : Call → Bool
  | .rejectSchedule _ | .setWakeup .. => false
  | .suspendTasksMissingRunner _ | .resumeTasksMissingRunner _ => false
  | _ => true

/-- `TimerRunnerRegistry::submit` without a registration. -/
def unavailable (runnerId : String) : TimerRunnerError :=
  .dependencyMissing ("runner unavailable: " ++ runnerId)

/-- A call after its step, and the threads it leaves behind. `dispatch_multi` spawns its inputs and
    returns. -/
def Thread.after (why : Cause) : List Op → Thread × List Thread
  | [] => (.returned, [])
  | .trigger b due :: _ =>
    if b.path = .dispatchMulti then (.returned, [.running (.trigger b due) why])
    else (.running (.trigger b due) why, [])
  | op :: _ => (.running op why, [])

/-- The cause a step passes on: the two checks of `runner.supports` name their own. -/
def Op.cause (why : Cause) : Op → Cause
  | .route .. | .submitNow _ => .unsupported
  | _ => why

/-- The cause a step records, and for which task. -/
def Op.marks (ans : Answer) : Op → Option String
  | .markMissing t _ _ | .markMissingNow t _ => if ans.db then some t.id else none
  | _ => none

namespace Batch

/-- A step of a trigger with the registry before the runner: a submission finds its runner
    registered, or is refused on the spot. The action reported is the last one. -/
def stepWith (runners : Table String String) (b : Batch) (a : BatchAction) :
    Option (Batch × BatchAction × Cause) :=
  (b.step a).bind fun b' => match b'.attempts[b.attempts.length]? with
    | none => some (b', a, .runner)
    | some (i, r) => match runners.get r.runnerId with
      | some _ => some (b', a, .runner)
      | none => (b'.step (.resolve i (some (unavailable r.runnerId)))).map fun b'' =>
          (b'', .resolve i (some (unavailable r.runnerId)), .unavailable)

/-- The thread of a trigger after an action that reported `out`, and the threads it spawns: the
    single path returns to its caller with the answer of the runner, and what the runner reports
    later goes to a thread of its own. -/
def after (b' : Batch) (due : Option Int) (a : BatchAction) (why : Cause) (out : List Op) :
    Thread × List Thread :=
  let self := Thread.running (.trigger b' due) .runner
  match b'.path, a, out with
  | .single, .read, op :: _ => (.running op why, [])
  | .single, .resolve .., op :: _ => (.running op why, [self])
  | .single, .resolve .., [] => (.returned, [self])
  | .single, .panic _, _ => (.panicked, [self])
  | _, _, out => (self, out.map fun op => .running op why)

end Batch

namespace Scheduler

/-- The process starts on a database left by an earlier one. -/
def start (db : Db) : Scheduler where
  core := ⟨db, ∅, []⟩
  runners := ∅
  causes := fun id => match db.getTimerTask id with
    | some t => if t.suspendReason = some (missingDependency t.runnerId) then .gone else .runner
    | none => .runner
  loop := .listing
  threads := []

def row (s : Scheduler) (id : String) : Option Task := s.core.db.getTimerTask id

/-- `supports` is the registry's to answer. -/
def supported (s : Scheduler) (op : Op) (ans : Answer) : Answer :=
  match op with
  | .route t _ | .submitNow t => { ans with supports := (s.runners.get t.runnerId).isSome }
  | _ => ans

/-- Thread `k` goes on as `th` and leaves `spawned` behind. -/
def become (s : Scheduler) (k : Nat) (th : Thread × List Thread) : Scheduler :=
  { s with threads := s.threads.set k th.1 ++ th.2 }

def spawn (s : Scheduler) (th : Thread) : Scheduler := { s with threads := s.threads ++ [th] }

/-- `register_runner`, and the recovery `register_extension_runner` goes on with. -/
def register (s : Scheduler) (runnerId owner : String) : Scheduler :=
  if (trim runnerId).toList.isEmpty || (trim owner).toList.isEmpty then s
  else if (s.runners.get runnerId).any (· ≠ owner) then s
  else { s with runners := s.runners.set runnerId owner }.spawn
    (.running (.resumeMissing runnerId) .runner)

/-- `unregister_owner`, and the suspensions `unregister_extension_owner` goes on with. -/
def unregister (s : Scheduler) (owner : String) : Scheduler :=
  let removed := (s.runners.entries.filter fun e => e.2 = owner).map Sigma.fst
  { s with runners := s.runners.filter fun _ o => o ≠ owner }.spawn (.unregistering removed)

/-- The thread at `k` gets its answer. -/
def answer (s : Scheduler) (k : Nat) (op : Op) (why : Cause) (ans : Answer) : Scheduler :=
  let ans := s.supported op ans
  let (core, rest) := op.step ans s.core
  let causes := match op.marks ans with
    | some id => Function.update s.causes id why
    | none => s.causes
  { s with core := core, causes := causes }.become k (Thread.after (op.cause why) rest)

/-- The suspension of the tasks of one removed runner. -/
def unregistered (s : Scheduler) (k : Nat) (runners : List String) (ok : Bool) : Scheduler :=
  match runners with
  | [] => s.become k (.returned, [])
  | r :: rest =>
    if ok then
      let causes := fun id => match s.row id with
        | some t => if t.runnerId = r ∧ t.state = .active ∧ t.enabled then .gone else s.causes id
        | none => s.causes id
      { s with
        core := s.core.write true (·.suspendActiveTimerTasksForRunner r)
        causes := causes }.become k (.unregistering rest, [])
    else s.become k (.returned, [])

/-- The loop turns to the next task it listed. -/
def look (s : Scheduler) (now : Int) (t : Task) (rest : List Task) (ans : ScheduleAnswer) :
    Scheduler :=
  match t.decision now ans with
  | .sleep => { s with loop := .looking now rest }
  | .reject => { s with loop := .waiting now s.threads.length rest }.spawn
      (.running (.markMissing t none (missingDependency t.schedule.providerId)) .schedule)
  | .store next => { s with loop := .storing now t.id next rest }
  | .fire due next => { s with loop := .advancing now t due next rest }

/-- The cursor is stored; the loop goes on to dispatch the occurrence it stands for. -/
def advance (s : Scheduler) (now : Int) (t : Task) (due : Int) (next : Option Int)
    (rest : List Task) : Scheduler :=
  { s with
    core := s.core.write true (·.setTimerTaskWakeup t.id (next.map timestamp))
    loop := .waiting now s.threads.length rest }.spawn
      (.running (.dispatch { t with nextWakeup := next.map timestamp } (some (timestamp due)))
        .runner)

def step (s : Scheduler) : Move → Option Scheduler
  | .call c => if c.external then some (s.spawn (.running c.op .runner)) else none
  | .register runnerId owner => some (s.register runnerId owner)
  | .unregister owner => some (s.unregister owner)
  | .answer k ans => match s.threads[k]? with
    | some (.running op why) => match op with
      | .trigger .. => none
      | _ => some (s.answer k op why ans)
    | some (.unregistering runners) => some (s.unregistered k runners ans.db)
    | _ => none
  | .trigger k a runId => match s.threads[k]? with
    | some (.running (.trigger b due) _) => (b.stepWith s.runners a).map fun (b', a', why) =>
        let (core, out) := b.report b' due a' runId s.core
        { s with core := core }.become k (b'.after due a' why out)
    | _ => none
  | .list now ok => match s.loop with
    | .listing => some (if ok then { s with loop := .looking now s.core.db.listTimerTasks } else s)
    | _ => none
  | .look ans => match s.loop with
    | .looking _ [] => some { s with loop := .listing }
    | .looking now (t :: rest) => some (s.look now t rest ans)
    | _ => none
  | .write ok => match s.loop with
    | .storing now id next rest => some { s with
        core := s.core.write ok (·.setTimerTaskWakeup id (some (timestamp next)))
        loop := .looking now rest }
    | .advancing now t due next rest =>
      some (if ok then s.advance now t due next rest else { s with loop := .looking now rest })
    | _ => none
  | .proceed => match s.loop with
    | .waiting now k rest => match s.threads[k]? with
      | some .returned => some { s with loop := .looking now rest }
      | _ => none
    | _ => none
  | .restart => some { s with
      core := ⟨s.core.db, ∅, []⟩, runners := ∅, loop := .listing, threads := [] }

end Scheduler

end Gamer.Timer
