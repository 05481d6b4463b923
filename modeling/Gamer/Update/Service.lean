import Mathlib.Data.List.Basic
import Gamer.Lib.Machine

/-! The update service: the transaction flag, the admission barrier and the reservation of an update,
    and the calls that test and set them between their awaits.

        install:   status ─▶ policy ─▶ workload ─▶ try_begin ─▶ guard ─▶ audit ─▶ prepare_install
        rollback:  try_begin ─▶ status ─▶ IPC ─▶ end, and once more where it failed
        refresh:   status ─▶ a last error? end, resume ─▶ cache
        tick:      policy ─▶ status ─▶ reserved? ─▶ install, or ─▶ workload ─▶ decide           -/

namespace Gamer.Update
open Gamer.Lib

inductive UpdateState where
  | idle
  | checking
  | available
  | downloading
  | staged
  | waiting
  | installing
  | restarting
  | failed
  | rollingBack
  | manualRecovery
  deriving DecidableEq, Repr

inductive UpdateAction where
  | check
  | download
  | install
  | rollback
  deriving DecidableEq, Repr

inductive UpdateErrorCode where
  | updateNotManaged
  | updateBusy
  | updateNotAvailable
  | updateNotReady
  | rollbackUnavailable
  | manualRecoveryRequired
  deriving DecidableEq, Repr

inductive Admission where
  | accepted (target : UpdateState)
  | rejected (code : UpdateErrorCode)
  | installGate
  deriving DecidableEq, Repr

/-- `admit`: the states and the actions they accept. -/
def admitAction : UpdateState → UpdateAction → Admission
  | .manualRecovery, _ => .rejected .manualRecoveryRequired
  | .installing, _ | .restarting, _ | .rollingBack, _ => .rejected .updateBusy
  | _, .check => .accepted .checking
  | .idle, .download | .idle, .install => .rejected .updateNotAvailable
  | .idle, .rollback => .rejected .rollbackUnavailable
  | .checking, _ => .rejected .updateBusy
  | .available, .download => .accepted .downloading
  | .available, .install => .rejected .updateNotReady
  | .available, .rollback => .rejected .rollbackUnavailable
  | .downloading, .download => .accepted .downloading
  | .downloading, _ => .rejected .updateBusy
  | .staged, .download | .waiting, .download => .accepted .staged
  | .staged, .install | .waiting, .install => .installGate
  | .staged, .rollback | .waiting, .rollback => .accepted .rollingBack
  | .failed, .download => .accepted .downloading
  | .failed, .install => .installGate
  | .failed, .rollback => .accepted .rollingBack

inductive UpdateStrategy where
  | off
  | notify
  | auto
  deriving DecidableEq, Repr

structure UpdatePolicy where
  strategy : UpdateStrategy := .notify
  freezeMinutes : Int := 30
  deriving DecidableEq, Repr

structure Workload where
  activeRuns : Nat
  viewers : Nat
  updateTransactions : Nat
  nextCronSecs : Option Int
  deriving DecidableEq, Repr

def cronInFreeze (nextCronSecs : Option Int) (freezeMinutes : Int) : Bool :=
  match nextCronSecs with
  | none => false
  | some secs => secs ≤ freezeMinutes * 60

inductive InstallBlocking where
  | activeRun
  | updateTransaction
  | cronFreezeWindow
  | stagingNotReady
  deriving DecidableEq, Repr

def Workload.installBlockings (w : Workload) (freezeMinutes : Int) : List InstallBlocking :=
  (if w.activeRuns > 0 then [.activeRun] else []) ++
    (if w.updateTransactions > 0 then [.updateTransaction] else []) ++
    if cronInFreeze w.nextCronSecs freezeMinutes then [.cronFreezeWindow] else []

def Workload.autoInstallReady (w : Workload) (inWindow : Bool) (freezeMinutes : Int) : Bool :=
  inWindow && w.activeRuns = 0 && w.viewers = 0 && w.updateTransactions = 0 &&
    !cronInFreeze w.nextCronSecs freezeMinutes

inductive Tick where
  | noop
  | check
  | download
  | install
  deriving DecidableEq, Repr

/-- `decide`. -/
def decideTick (strategy : UpdateStrategy) (inWindow : Bool) (state : UpdateState) (w : Workload)
    (freezeMinutes : Int) : Tick :=
  match strategy with
  | .off => .noop
  | .notify =>
    match state with
    | .idle | .failed => .check
    | .available => .download
    | _ => .noop
  | .auto =>
    match state with
    | .idle | .failed => .check
    | .available => .download
    | .staged | .waiting => if w.autoInstallReady inWindow freezeMinutes then .install else .noop
    | _ => .noop

/-- `UpdateStatus`, as far as the flags depend on it. -/
structure Status where
  state : Option UpdateState
  lastError : Bool
  deriving DecidableEq, Repr

/-- The status ends a transaction: it has the error of an attempt that is over, as `refresh` takes
    it. -/
def Status.clears (status : Status) : Bool :=
  status.lastError && (status.state = some .failed || status.state = some .staged ||
    status.state = some .idle)

/-- On whose behalf an install is requested: the API, or a tick's, reserved or decided. -/
inductive Origin where
  | http
  | reserved
  | auto
  deriving DecidableEq, Repr

/-- What a refreshed status is for. -/
inductive After where
  | statusBody
  | longOp (action : UpdateAction)
  | install (origin : Origin)
  | rollback
  | tick (policy : UpdatePolicy)
  | apply
  deriving DecidableEq, Repr

inductive Task where
  /-- At `controller.status()`. -/
  | asking (after : After)
  /-- `refresh` has ended the transaction, and is about to resume the barrier. -/
  | resuming (after : After) (status : Status)
  | installPolicy (origin : Origin) (state : UpdateState)
  | installWorkload (origin : Origin) (state : UpdateState) (freezeMinutes : Int)
  | installBegin (origin : Origin)
  | installGuard (origin : Origin)
  | guardFailed
  | installAudit (origin : Origin)
  /-- The background task, at `prepare_install`. -/
  | preparing
  | rejectedPrepare
  | rejectedEnd
  /-- The launcher takes over. -/
  | prepared
  | rollbackBegin
  | longOp (action : UpdateAction)
  | rollbackOp
  | rollbackFailed
  /-- It has failed and ended its transaction, and is about to end one again. -/
  | rollbackAgain
  | rollbackAccepted
  | tickPolicy
  | tickReserved (policy : UpdatePolicy) (state : UpdateState)
  | tickWorkload (policy : UpdatePolicy) (state : UpdateState)
  /-- At `set_apply_requested(false)`, of a tick and of a `cancel_apply` behind its test. -/
  | clearing
  | cancelling
  | applying
  | ended
  /-- A call that was dropped with the transaction. -/
  | lost (frozen : Bool)
  deriving DecidableEq, Repr

/-- An install that was accepted. -/
structure Started where
  origin : Origin
  /-- A `cancel_apply` had returned `Ok` since the last `request_apply` that succeeded. -/
  cancelled : Bool
  /-- One that was called since then was not answered `update_busy`. -/
  passed : Bool
  deriving DecidableEq, Repr

/-- `UpdateService` with the barrier. -/
structure Service where
  managed : Bool := true
  applyRequested : Bool := false
  txn : Bool := false
  paused : Bool := false
  activities : Nat := 0
  policy : UpdatePolicy := {}
  cachedState : UpdateState := .idle
  tasks : List Task := []
  cancelled : Bool := false
  passed : Bool := false
  started : List Started := []
  deriving DecidableEq, Repr

inductive Move where
  | statusBody (fresh : Bool)
  | requestCheck
  | requestDownload
  | requestRollback
  | requestInstall
  | requestApply
  | cancelApply
  | tick
  | setPolicy (policy : UpdatePolicy)
  | activity
  | dropActivity
  | answer (task : Nat) (status : Status)
  | noAnswer (task : Nat)
  | resume (task : Nat)
  | getPolicy (task : Nat)
  | snapshot (task activeRuns viewers : Nat) (nextCronSecs : Option Int) (inWindow due : Bool)
  | begin (task : Nat)
  | guard (task : Nat) (idle : Bool)
  | audited (task : Nat)
  | prepare (task : Nat) (ok : Bool)
  | operate (task : Nat) (ok : Bool) (state : Option UpdateState)
  | endTxn (task : Nat)
  | readApply (task : Nat)
  | store (task : Nat) (ok : Bool)
  | drop (task : Nat)
  deriving DecidableEq

namespace Service

/-- `barrier::reservation`. -/
def reservation (s : Service) : Except String Unit :=
  if s.paused then .error "软件更新中，暂不接受新的操作" else .ok ()

/-- `barrier::activity`. -/
def activity (s : Service) : Except String Service :=
  match s.reservation with
  | .ok () => .ok { s with activities := s.activities + 1 }
  | .error e => .error e

/-- `workload_snapshot`. -/
def workload (s : Service) (activeRuns viewers : Nat) (nextCronSecs : Option Int) : Workload :=
  ⟨activeRuns, viewers, if s.txn then 1 else 0, nextCronSecs⟩

def setTask (s : Service) (t : Nat) (task : Task) : Service :=
  { s with tasks := s.tasks.set t task }

def push (s : Service) (task : Task) : Service := { s with tasks := s.tasks ++ [task] }

/-- What a refreshed status is for goes on. -/
def proceed (s : Service) (t : Nat) (state : UpdateState) : After → Service
  | .statusBody => s.setTask t .ended
  | .longOp action =>
    match admitAction state action with
    | .accepted _ => s.setTask t (.longOp action)
    | _ => s.setTask t .ended
  | .install origin =>
    match admitAction state .install with
    | .installGate => s.setTask t (.installPolicy origin state)
    | _ => s.setTask t .ended
  | .rollback =>
    match admitAction state .rollback with
    | .accepted _ => s.setTask t .rollbackOp
    | _ => s.setTask t .rollbackFailed
  | .tick policy => s.setTask t (.tickReserved policy state)
  | .apply =>
    if !s.managed then s.setTask t .ended
    else match state with
    | .available | .staged | .downloading | .waiting => s.setTask t .applying
    | _ => s.setTask t .ended

/-- The status is taken into the cache. -/
def learn (s : Service) (t : Nat) (status : Status) (after : After) : Service :=
  proceed { s with cachedState := status.state.getD .idle } t (status.state.getD .idle) after

/-- The launcher does not answer. -/
def unanswered (s : Service) (t : Nat) : After → Service
  | .rollback => s.setTask t .rollbackFailed
  | .tick policy => s.setTask t (.tickReserved policy s.cachedState)
  | _ => s.setTask t .ended

/-- `refresh`. -/
def stepRefresh (s : Service) (t : Nat) : Task → Move → Option Service
  | .asking after, .answer _ status =>
    if status.clears then some (setTask { s with txn := false } t (.resuming after status))
    else some (s.learn t status after)
  | .asking after, .noAnswer _ => some (s.unanswered t after)
  | .resuming after status, .resume _ => some (learn { s with paused := false } t status after)
  | _, _ => none

/-- `request_install` and its background task. -/
def stepInstall (s : Service) (t : Nat) : Task → Move → Option Service
  | .installPolicy origin state, .getPolicy _ =>
    some (s.setTask t (.installWorkload origin state s.policy.freezeMinutes))
  | .installWorkload origin state freezeMinutes, .snapshot _ activeRuns viewers cron _ _ =>
    if (s.workload activeRuns viewers cron).installBlockings freezeMinutes = [] &&
        (state = .staged || state = .waiting) then
      some (s.setTask t (.installBegin origin))
    else some (s.setTask t .ended)
  | .installBegin origin, .begin _ =>
    if s.txn then some (s.setTask t .ended)
    else some (setTask { s with txn := true } t (.installGuard origin))
  | .installGuard origin, .guard _ idle =>
    -- `freeze_if_idle`
    if s.paused || s.activities ≠ 0 || !idle then
      some (s.setTask t .guardFailed)
    else some (setTask { s with
      paused := true
      cachedState := .installing
      started := ⟨origin, s.cancelled, s.passed⟩ :: s.started } t (.installAudit origin))
  | .guardFailed, .endTxn _ => some (setTask { s with txn := false } t .ended)
  -- the task goes on in the background, and the caller returns
  | .installAudit origin, .audited _ =>
    some { s with tasks := s.tasks.set t .preparing ++
      [if origin = .reserved then .clearing else .ended] }
  | .preparing, .prepare _ ok =>
    if ok then some (s.setTask t .prepared) else some (s.setTask t .rejectedPrepare)
  | .rejectedPrepare, .resume _ => some (setTask { s with paused := false } t .rejectedEnd)
  | .rejectedEnd, .endTxn _ =>
    some (setTask { s with txn := false, cachedState := .failed } t .ended)
  | _, _ => none

/-- `request_rollback`, `request_check` and `request_download`. -/
def stepOp (s : Service) (t : Nat) : Task → Move → Option Service
  | .rollbackBegin, .begin _ =>
    if s.txn then some (s.setTask t .ended)
    else if !s.managed then some (setTask { s with txn := true } t .rollbackFailed)
    else some (setTask { s with txn := true } t (.asking .rollback))
  | .longOp _, .operate _ ok state =>
    if ok then some (setTask { s with cachedState := state.getD s.cachedState } t .ended)
    else some (s.setTask t .ended)
  | .rollbackOp, .operate _ ok state =>
    if ok then some (setTask { s with cachedState := state.getD .rollingBack } t .rollbackAccepted)
    else some (s.setTask t .rollbackFailed)
  | .rollbackFailed, .endTxn _ => some (setTask { s with txn := false } t .rollbackAgain)
  | .rollbackAgain, .endTxn _ => some (setTask { s with txn := false } t .ended)
  | .rollbackAccepted, .endTxn _ => some (setTask { s with txn := false } t .ended)
  | _, _ => none

/-- A tick requests an install. -/
def installFor (s : Service) (t : Nat) (origin : Origin) : Service :=
  s.setTask t (if s.managed then .asking (.install origin) else .ended)

/-- `Coordinator::tick`. -/
def stepTick (s : Service) (t : Nat) : Task → Move → Option Service
  | .tickPolicy, .getPolicy _ => some (s.setTask t (.asking (.tick s.policy)))
  | .tickReserved policy state, .readApply _ =>
    if !s.applyRequested then some (s.setTask t (.tickWorkload policy state))
    else match state with
    | .available =>
      some (s.setTask t (if s.managed then .asking (.longOp .download) else .ended))
    | .staged | .waiting => some (s.installFor t .reserved)
    | .failed | .manualRecovery | .idle => some (s.setTask t .clearing)
    | _ => some (s.setTask t .ended)
  | .tickWorkload policy state, .snapshot _ activeRuns viewers cron inWindow due =>
    match decideTick policy.strategy inWindow state (s.workload activeRuns viewers cron)
        policy.freezeMinutes with
    | .noop => some (s.setTask t .ended)
    | .check =>
      if due && !s.applyRequested && s.managed then some (s.setTask t (.asking (.longOp .check)))
      else some (s.setTask t .ended)
    | .download =>
      some (s.setTask t (if s.managed then .asking (.longOp .download) else .ended))
    | .install => some (s.installFor t .auto)
  | _, _ => none

/-- `set_apply_requested`. It does nothing where its file cannot be changed. -/
def stepStore (s : Service) (t : Nat) (ok : Bool) : Task → Option Service
  | .clearing =>
    some (setTask { s with applyRequested := if ok then false else s.applyRequested } t .ended)
  | .cancelling =>
    if ok then some (setTask { s with applyRequested := false, cancelled := true } t .ended)
    else some (s.setTask t .ended)
  | .applying =>
    if ok then some (setTask { s with applyRequested := true, cancelled := false, passed := false }
      t .ended)
    else some (s.setTask t .ended)
  | _ => none

end Service

/-- It is for an install on behalf of the reservation. -/
def After.reserved : After → Bool
  | .install origin => origin = .reserved
  | _ => false

/-- An install on behalf of the reservation is on its way to its guard. -/
def Task.reserved : Task → Bool
  | .asking after | .resuming after _ => after.reserved
  | .installPolicy origin _ | .installWorkload origin _ _ | .installBegin origin
  | .installGuard origin => origin = .reserved
  | _ => false

/-- A rollback has begun its transaction before it asks. -/
def After.holds : After → Option Bool
  | .rollback => some false
  | _ => none

/-- The task is between its own `try_begin` and its own release, and whether its guard has frozen
    admission and its `prepare_install` was not rejected. -/
def Task.holds : Task → Option Bool
  | .asking after | .resuming after _ => after.holds
  | .installGuard _ | .guardFailed | .rejectedPrepare | .rejectedEnd | .rollbackOp | .rollbackFailed
  | .rollbackAccepted => some false
  | .installAudit _ | .preparing | .prepared => some true
  | .lost frozen => some frozen
  | _ => none

/-- What a call that is dropped leaves. -/
def Task.left (task : Task) : Task :=
  match task.holds with
  | some frozen => .lost frozen
  | none => .ended

/-- The task waits, and is not the background's: its call can be dropped. -/
def Task.droppable : Task → Bool
  | .asking _ | .installPolicy .. | .installWorkload .. | .installAudit _ | .longOp _ | .rollbackOp
  | .tickPolicy | .tickWorkload .. => true
  | _ => false

namespace Service

def step (s : Service) (m : Move) : Option Service :=
  match m with
  | .statusBody fresh => some (s.push (if fresh then .ended else .asking .statusBody))
  | .requestCheck =>
    some (s.push (if s.applyRequested || !s.managed then .ended else .asking (.longOp .check)))
  | .requestDownload => some (s.push (if s.managed then .asking (.longOp .download) else .ended))
  | .requestRollback => some (s.push .rollbackBegin)
  | .requestInstall => some (s.push (if s.managed then .asking (.install .http) else .ended))
  | .requestApply => some (s.push (.asking .apply))
  | .cancelApply =>
    if s.txn || s.paused then some (s.push .ended)
    else some (push { s with passed := true } .cancelling)
  | .tick => some (s.push .tickPolicy)
  | .setPolicy policy => some { s with policy := policy }
  | .activity =>
    match s.activity with
    | .ok s' => some s'
    | .error _ => some s
  | .dropActivity => if s.activities = 0 then none else some { s with activities := s.activities - 1 }
  | .answer t _ | .noAnswer t => s.tasks[t]?.bind fun task => s.stepRefresh t task m
  | .resume t => s.tasks[t]?.bind fun task =>
      (s.stepRefresh t task m).or (s.stepInstall t task m)
  | .getPolicy t | .snapshot t .. => s.tasks[t]?.bind fun task =>
      (s.stepInstall t task m).or (s.stepTick t task m)
  | .begin t => s.tasks[t]?.bind fun task => (s.stepInstall t task m).or (s.stepOp t task m)
  | .guard t _ | .audited t | .prepare t _ => s.tasks[t]?.bind fun task => s.stepInstall t task m
  | .operate t _ _ => s.tasks[t]?.bind fun task => s.stepOp t task m
  | .endTxn t => s.tasks[t]?.bind fun task => (s.stepInstall t task m).or (s.stepOp t task m)
  | .readApply t => s.tasks[t]?.bind fun task => s.stepTick t task m
  | .store t ok => s.tasks[t]?.bind fun task => s.stepStore t ok task
  | .drop t => s.tasks[t]?.bind fun task =>
      if task.droppable then some (s.setTask t task.left) else none

end Service

/-- The service of a program that has started, with the reservation of its file. -/
def start (managed applyRequested : Bool) (policy : UpdatePolicy) : Service :=
  { managed := managed, applyRequested := applyRequested, policy := policy }

/-! ### What the steps go on to -/

section Steps
variable {s s' : Service} {t : Nat} {task task' : Task} {m : Move}

/-- What a refreshed status is for goes on with the same hold on the transaction, and on behalf of
    the same. -/
theorem Service.proceed_eq (s : Service) (t : Nat) (state : UpdateState) (after : After) :
    ∃ task', s.proceed t state after = s.setTask t task' ∧ task'.holds = after.holds ∧
      task' ≠ .cancelling ∧ (task'.reserved = true → after.reserved = true) := by
  cases after with
  | statusBody => exact ⟨.ended, rfl, rfl, nofun, nofun⟩
  | longOp action =>
    simp only [Service.proceed]
    split
    · exact ⟨.longOp action, rfl, rfl, nofun, nofun⟩
    · exact ⟨.ended, rfl, rfl, nofun, nofun⟩
  | install origin =>
    simp only [Service.proceed]
    split
    · exact ⟨.installPolicy origin state, rfl, rfl, nofun, id⟩
    · exact ⟨.ended, rfl, rfl, nofun, nofun⟩
  | rollback =>
    simp only [Service.proceed]
    split
    · exact ⟨.rollbackOp, rfl, rfl, nofun, nofun⟩
    · exact ⟨.rollbackFailed, rfl, rfl, nofun, nofun⟩
  | tick policy => exact ⟨.tickReserved policy state, rfl, rfl, nofun, nofun⟩
  | apply =>
    simp only [Service.proceed]
    split
    · exact ⟨.ended, rfl, rfl, nofun, nofun⟩
    · cases state with
      | available | staged | downloading | waiting =>
        exact ⟨.applying, rfl, rfl, nofun, nofun⟩
      | idle | checking | installing | restarting | failed | rollingBack | manualRecovery =>
        exact ⟨.ended, rfl, rfl, nofun, nofun⟩

theorem Service.unanswered_eq (s : Service) (t : Nat) (after : After) :
    ∃ task', s.unanswered t after = s.setTask t task' ∧ task'.holds = after.holds ∧
      task' ≠ .cancelling ∧ task'.reserved = false := by
  cases after with
  | rollback => exact ⟨.rollbackFailed, rfl, rfl, nofun, rfl⟩
  | tick policy => exact ⟨.tickReserved policy s.cachedState, rfl, rfl, nofun, rfl⟩
  | statusBody | longOp _ | install _ | apply => exact ⟨.ended, rfl, rfl, nofun, rfl⟩

/-- A request of a tick is not made where nothing manages the program. -/
theorem asking_or_ended (managed : Bool) (after : After) (hholds : after.holds = none) :
    (if managed then Task.asking after else .ended).holds = none ∧
      (if managed then Task.asking after else .ended) ≠ .cancelling ∧
      ((if managed then Task.asking after else .ended).reserved = true → after.reserved = true) := by
  cases managed with
  | true => exact ⟨hholds, nofun, id⟩
  | false => exact ⟨rfl, nofun, nofun⟩

/-- A tick never has a transaction of its own, and requests an install on behalf of the reservation
    only where it has read it. -/
theorem Service.stepTick_eq (hs : s.stepTick t task m = some s') :
    task.holds = none ∧ task ≠ .cancelling ∧ ∃ task', s' = s.setTask t task' ∧
      task'.holds = none ∧ task' ≠ .cancelling ∧
      (task'.reserved = true → s.applyRequested = true ∧ ∃ k, m = .readApply k) := by
  unfold Service.stepTick at hs
  split at hs
  · cases hs
    exact ⟨rfl, nofun, _, rfl, rfl, nofun, nofun⟩
  · rename_i policy state k
    split at hs
    · cases hs
      exact ⟨rfl, nofun, _, rfl, rfl, nofun, nofun⟩
    · rename_i hrequested
      have happly : s.applyRequested = true := by simpa using hrequested
      split at hs
      · cases hs
        obtain ⟨hnone, hne, hreserved⟩ :=
          asking_or_ended s.managed (.longOp .download) rfl
        exact ⟨rfl, nofun, _, rfl, hnone, hne, fun h => absurd (hreserved h) nofun⟩
      · cases hs
        obtain ⟨hnone, hne, -⟩ := asking_or_ended s.managed (.install .reserved) rfl
        exact ⟨rfl, nofun, _, rfl, hnone, hne, fun _ => ⟨happly, k, rfl⟩⟩
      · cases hs
        obtain ⟨hnone, hne, -⟩ := asking_or_ended s.managed (.install .reserved) rfl
        exact ⟨rfl, nofun, _, rfl, hnone, hne, fun _ => ⟨happly, k, rfl⟩⟩
      all_goals
        cases hs
        exact ⟨rfl, nofun, _, rfl, rfl, nofun, nofun⟩
  · split at hs
    · cases hs
      exact ⟨rfl, nofun, _, rfl, rfl, nofun, nofun⟩
    · split at hs
      · cases hs
        exact ⟨rfl, nofun, _, rfl, rfl, nofun, nofun⟩
      · cases hs
        exact ⟨rfl, nofun, _, rfl, rfl, nofun, nofun⟩
    · cases hs
      obtain ⟨hnone, hne, hreserved⟩ := asking_or_ended s.managed (.longOp .download) rfl
      exact ⟨rfl, nofun, _, rfl, hnone, hne, fun h => absurd (hreserved h) nofun⟩
    · cases hs
      obtain ⟨hnone, hne, hreserved⟩ := asking_or_ended s.managed (.install .auto) rfl
      exact ⟨rfl, nofun, _, rfl, hnone, hne, fun h => absurd (hreserved h) nofun⟩
  · cases hs

/-- A task takes a step of one of its two kinds. -/
theorem or_eq_some {α : Type} {a b : Option α} {x : α} (h : a.or b = some x) :
    a = some x ∨ b = some x := by
  cases a with
  | none => exact Or.inr h
  | some y => exact Or.inl h

end Steps

end Gamer.Update
