import Gamer.Updater.Install

/-! The recovery at startup: what an unfinished journal leads to is decided from its state alone.
    A recovery that ends a transaction does it with one closing write, whose failure it ignores. -/

namespace Gamer.Updater
open Gamer.Lib
open UpdateJournal

inductive RecoveryOutcome where
  | nothingToDo
  | aborted (reason : String)
  | stagedResumable (reason : String)
  | rolledBack (reason : String)
  | committedFinished (version : String)
  | manualRequired (reason : String)
  deriving DecidableEq

structure RecoveryReport where
  source : UpdateState
  outcome : RecoveryOutcome
  deriving DecidableEq

/-- The closing write of a recovery, that lands or not. -/
def World.close (w : World) (j : UpdateJournal) (landed : Bool) : World :=
  (if landed then w.writeJournal j else w).emit
    (.finished w.journal.state j.state w.inPlace landed)

namespace Recovery

def close (j : UpdateJournal) : Action Unit := act fun e w => ((), w.close j e.ok)

def finishIdle (journal : UpdateJournal) (reason : String) : Action RecoveryOutcome := do
  close ((journal.moveTo .idle "failed").withError ⟨Codes.artifactInvalid, reason⟩)
  return .aborted reason

def finishManual (journal : UpdateJournal) (reason : String) : Action RecoveryOutcome := do
  close ((journal.moveTo .manualRecoveryRequired "manual_recovery_required").withError
    ⟨Codes.rollbackUnavailable, reason⟩)
  return .manualRequired reason

/-- The pointer is at the version; what cannot be read is not. -/
def pointerMatches (version : Option String) : Action Bool :=
  match version with
  | none => pure false
  | some expected => do
    match ← loadCurrent with
    | .ok (some c) => return decide (c.current = expected)
    | _ => return false

def stagingIntact (journal : UpdateJournal) : Action Bool :=
  match journal.updateId, journal.toVersion with
  | some _, some _ => do return (← ask).ok
  | _, _ => pure false

def recoverPreInstall (journal : UpdateJournal) : Action RecoveryOutcome := do
  if ← stagingIntact journal then
    close { journal.moveTo .staged "staged" with
      child := none
      error := if journal.state = .draining then
          some ⟨Codes.updateBusy, "draining 中断，按契约默认取消升级（可续装或回滚）"⟩
        else none }
    return .stagedResumable "候选 staging 完整，驻留 staged"
  else
    let _ ← ask
    finishIdle journal "启动恢复：事务未完成且 staging 不完整，已回退（旧版本未受影响）"

/-- The half-made snapshot goes; whether it does is ignored. -/
def discardBackup (updateId : String) : Action Unit := act fun e w =>
  ((), if e.ok then { w with backups := w.backups.del updateId } else w)

section
variable (g : Engine)

def recoverSnapshotting (journal : UpdateJournal) : Action RecoveryOutcome :=
  match journal.updateId with
  | none => finishIdle journal "快照阶段中断且无事务 id，已回退"
  | some updateId => (Snapshot.verify g.sha updateId).orFail
      (fun _ => do
        discardBackup updateId
        finishIdle journal "快照阶段中断且快照不完整，数据未改动，已回退")
      fun _ => (g.rollbackProcedure journal false).orFail
        (fun err => finishManual journal ("快照阶段回滚失败: " ++ err.display))
        fun _ => pure (.rolledBack "快照阶段中断，快照完整已登记，回滚收尾完成")

def recoverSwitched (journal : UpdateJournal) (context : String) : Action RecoveryOutcome :=
  if journal.snapshot.isNone then
    finishManual journal (context ++ "且无快照信息，无法自动恢复")
  else (g.rollbackProcedure journal false).orFail
    (fun err => finishManual journal (context ++ "，回滚失败: " ++ err.display))
    fun _ => pure (.rolledBack (context ++ "，已停候选/恢复快照/切回旧版本"))

def recoverCommitted (journal : UpdateJournal) : Action RecoveryOutcome :=
  match journal.toVersion with
  | none => finishManual journal "committed 后缺 to_version，状态不可判定"
  | some target => do
    if ← pointerMatches (some target) then
      let _ ← ask
      close { journal.moveTo .idle "idle" with error := none }
      return .committedFinished target
    else finishManual journal "committed 但 current.json 未指向新版本，状态不可判定"

/-- What the state of the journal leads to. -/
def recover (journal : UpdateJournal) : Action RecoveryOutcome :=
  match journal.state with
  | .idle => pure .nothingToDo
  | .manualRecoveryRequired => pure (.manualRequired
      ((journal.error.map (·.message)).getD "journal 要求人工恢复"))
  | .checking | .downloading | .verifying | .staged | .waitingIdle | .draining =>
    recoverPreInstall journal
  | .stopped => finishIdle journal "停机后未及快照即中断，已回退（旧版本将随后启动）"
  | .snapshotting => recoverSnapshotting g journal
  | .snapshotVerified | .migrating => do
    if ← pointerMatches journal.fromVersion then
      finishIdle journal "快照后/迁移中中断，数据未切换，已回退"
    else recoverSwitched g journal "切换后中断"
  | .switched | .candidateStarting | .candidateReady | .activating =>
    recoverSwitched g journal "候选阶段中断"
  | .committed | .cleaning => recoverCommitted journal

end

end Recovery

/-- `recover_on_startup`, whose engine has the default options. -/
def recoverOnStartup (sha : String → String) : Action (Except BusinessError RecoveryReport) :=
  loadJournal.andThen fun journal => do
    return .ok ⟨journal.state, ← Recovery.recover (.default sha) journal⟩

/-- Any number of startups, each with its own outcomes and cut. -/
def startups (sha : String → String) (tapes : List (List Answer)) (w : World) : World :=
  tapes.foldl (fun w tape => (recoverOnStartup sha tape w).state) w

end Gamer.Updater
