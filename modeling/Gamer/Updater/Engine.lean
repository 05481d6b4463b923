import Gamer.Updater.Snapshot

/-! The update engine: the phases before the installation, the installation itself, and the
    rollback. Every change of the journal reads it, changes it and writes it back, and comes before
    the action it announces:

        staged ▶ waiting_idle ▶ (drain) ▶ stopped ▶ snapshotting ▶ (snapshot) ▶ snapshot_verified
          ▶ migrating ▶ (install app) ▶ switched ▶ (pointer) ▶ (start candidate)
          ▶ candidate_starting ▶ (wait ready) ▶ candidate_ready ▶ activating ▶ (activate)
          ▶ committed ▶ (commit) ▶ cleaning ▶ idle

    What concerns neither journal, pointer, data nor candidate (manifests, downloads, staging,
    `versions/`) is a step of the outside that may fail. -/

namespace Gamer.Updater
open Gamer.Lib

/-- The engine's options, and the digest its snapshots use. -/
structure Engine where
  sha : String → String
  portable : Bool
  activationToken : Option String
  activateWithoutToken : Bool

/-- `UpgradeOptions::default`. -/
def Engine.default (sha : String → String) : Engine := ⟨sha, false, none, false⟩

/-- A candidate release that passed the manifest's checks. -/
structure Checked where
  version : String
  dataSchema : Option Nat

inductive UpgradeOutcome where
  | committed (source target : String)
  | cancelled (reason : String)
  | failedOldHealthy (error : BusinessError)
  | manualRecovery (error : BusinessError)

/-! ### Changes of the journal -/

namespace UpdateJournal

def moveTo (state : UpdateState) (step : String) (j : UpdateJournal) : UpdateJournal :=
  { j with state := state, lastStep := some step }

def note (step : String) (j : UpdateJournal) : UpdateJournal := { j with lastStep := some step }

def withError (err : BusinessError) (j : UpdateJournal) : UpdateJournal :=
  { j with error := some ⟨err.code, err.message⟩ }

def setFailedIdle (err : BusinessError) (j : UpdateJournal) : UpdateJournal :=
  (j.moveTo .idle "failed").withError err

def setManual (err : BusinessError) (j : UpdateJournal) : UpdateJournal :=
  (j.moveTo .manualRecoveryRequired "manual_recovery_required").withError err

/-- The version a rollback goes back to. -/
def rollbackTarget (j : UpdateJournal) : Option String := j.fromVersion <|> j.currentVersion

end UpdateJournal

open UpdateJournal

def enterManualRecovery (err : BusinessError) : Action BusinessError := do
  let _ ← mutateJournal (setManual err)
  pure ⟨Codes.manualRecoveryRequired, "升级与自动回滚均失败：" ++ err.display ++
    "；已保留 journal/快照/新旧版本/quarantine 证据"⟩

def currentVersion : Action (Except BusinessError String) := do
  match ← loadCurrent with
  | .ok (some c) => pure (.ok c.current)
  | .ok none => pure (.error ⟨Codes.updateNotAvailable,
      "尚未安装（state/current.json 不存在），无升级基线"⟩)
  | .error text => pure (.error ⟨Codes.updateNotAvailable,
      "读取 state/current.json 失败: " ++ text⟩)

def guardNotManual (j : UpdateJournal) : Except BusinessError Unit :=
  if j.state = .manualRecoveryRequired then
    .error ⟨Codes.manualRecoveryRequired,
      "上次升级与自动回滚均失败，已停止自动重试；请人工恢复后复位 journal"⟩
  else .ok ()

/-! ### Check, download, prepare -/

namespace Engine

/-- The new transaction id comes with the answer to the intent's write. -/
def checkIntent (j : UpdateJournal) (current newId : String) (k : UpdateJournal) : UpdateJournal :=
  let reuseTx := j.state = .checking ∧ j.lastStep = some "checked" ∧ j.updateId.isSome
  { k.moveTo .checking "checking" with
    updateId := if reuseTx then k.updateId else some newId
    fromVersion := some current
    toVersion := none
    error := none
    snapshot := none
    child := none }

/-- What the candidate's manifest came to goes into the journal. -/
def recordCandidate (g : Engine) : Action (Except BusinessError Checked) := do
  match ← outside with
  | .ok e =>
    let checked : Checked := ⟨e.observed.version.getD "", e.observed.schema⟩
    (mutateJournal fun j => { j.note "checked" with toVersion := some checked.version }).andThen
      fun _ => pure (.ok checked)
  | .error err =>
    (mutateJournal fun j =>
      if g.portable ∧ err.code = Codes.updateNotAvailable then
        { j.moveTo .idle "idle" with error := none }
      else j.setFailedIdle err).andThen fun _ => pure (.error err)

def phaseCheck (g : Engine) : Action (Except BusinessError Checked) :=
  loadJournal.andThen fun journal =>
  match guardNotManual journal with
  | .error err => pure (.error err)
  | .ok () =>
    currentVersion.andThen fun current => do
    let newId := (← ask).exe
    (mutateJournal (checkIntent journal current newId)).andThen fun _ => g.recordCandidate

def phaseDownload : Action (Except BusinessError Unit) :=
  loadJournal.andThen fun journal =>
  match guardNotManual journal with
  | .error err => pure (.error err)
  | .ok () => match journal.updateId, journal.toVersion with
    | none, _ => pure (.error ⟨Codes.updateBusy, "无进行中的升级事务（先 check）"⟩)
    | some _, none => pure (.error ⟨Codes.updateNotAvailable, "无候选版本（先 check）"⟩)
    | some _, some _ =>
      if ¬ (journal.state = .checking ∧ journal.lastStep = some "checked") ∧
          journal.state ≠ .downloading then
        pure (.error ⟨Codes.updateBusy,
          "当前状态 " ++ displayState journal ++ " 不接受 download"⟩)
      else
        (mutateJournal (moveTo .downloading "downloading")).andThen fun _ =>
        -- the cached manifest and the staging directory: a failure leaves the journal as it is
        outside.andThen fun _ => do
        match ← outside with
        | .error err =>
          (mutateJournal (setFailedIdle err)).andThen fun _ => pure (.error err)
        | .ok _ =>
          (mutateJournal (moveTo .staged "staged")).andThen fun _ => pure (.ok ())

def phasePrepareInstall : Action (Except BusinessError Unit) :=
  loadJournal.andThen fun journal =>
  match guardNotManual journal with
  | .error err => pure (.error err)
  | .ok () =>
    if journal.state ≠ .staged then
      if journal.state = .checking ∧ journal.lastStep = some "checked" then
        pure (.error ⟨Codes.updateNotReady, "候选尚未下载/就位（先 download）"⟩)
      else pure (.error ⟨Codes.updateBusy,
        "当前状态 " ++ displayState journal ++ " 无已就位候选"⟩)
    else match journal.toVersion with
      | none => pure (.error ⟨Codes.updateNotReady, "无候选版本"⟩)
      | some _ =>
        (mutateJournal (moveTo .verifying "verifying")).andThen fun _ => do
        match ← outside with
        | .ok _ => (mutateJournal (moveTo .staged "staged")).andThen fun _ => pure (.ok ())
        | .error err =>
          (mutateJournal fun j => (j.moveTo .staged "staged").withError err).andThen fun _ =>
            pure (.error err)

/-! ### Rollback -/

/-- The candidate recorded in the journal, ended if it runs under that pid and image. -/
def terminateIfImage (info : ChildInfo) : Action Unit := act fun e w =>
  if e.ok ∧ w.candidate = some info then ((), { w with candidate := none }) else ((), w)

def stopRecorded (journal : UpdateJournal) : Action Unit :=
  match journal.child with
  | none => pure ()
  | some info => if 0 < info.pid ∧ info.exe ≠ "" then terminateIfImage info else pure ()

/-- The old version answers `ready` after its restart. -/
def restartOldAndVerify : Action Bool := do
  match ← loadCurrent with
  | .ok (some _) => return (← ask).ok
  | _ => pure false

def restartIf (restartOld : Bool) : Action Bool :=
  if restartOld then restartOldAndVerify else pure true

/-- The journal states from which a rollback restores the snapshot. -/
def restoresFrom : UpdateState → Bool
  | .snapshotVerified | .migrating | .switched | .candidateStarting | .candidateReady
  | .activating | .committed => true
  | _ => false

def restoreSnapshot (g : Engine) (journal : UpdateJournal) : Action (Except BusinessError Unit) :=
  if restoresFrom journal.state then
    match journal.snapshot with
    | none => pure (.error ⟨Codes.rollbackUnavailable, "已切换但 journal 无快照信息，无法自动恢复"⟩)
    | some snap => (Snapshot.restore g.sha snap.id).orFail
        (fun text => pure (.error ⟨Codes.rollbackUnavailable, "恢复快照失败: " ++ text⟩))
        fun _ => pure (.ok ())
  else pure (.ok ())

/-- The end of a rollback: back to the old version, in its pointer and in the journal. -/
def pointBack (journal : UpdateJournal) (restartOld : Bool) : Action (Except BusinessError Unit) :=
  match journal.rollbackTarget with
  | none => pure (.error ⟨Codes.rollbackUnavailable, "journal 缺少 from_version"⟩)
  | some target =>
    (writeCurrent ⟨target, journal.previousVersion⟩).orFail
      (fun text => pure (.error ⟨Codes.rollbackUnavailable, "写回 current.json 失败: " ++ text⟩))
      fun _ => do
    let ready ← restartIf restartOld
    if ready then
      (mutateJournal fun j => { j.moveTo .idle "failed" with child := none }).andThen fun _ =>
        pure (.ok ())
    else pure (.error ⟨Codes.rollbackUnavailable, "旧版本重启或就绪校验失败"⟩)

/-- `rollback_procedure`, with no live handle, as every caller has it. -/
def rollbackProcedure (g : Engine) (journal : UpdateJournal) (restartOld : Bool) :
    Action (Except BusinessError Unit) := do
  let _ ← mutateJournal (note "rolling_back")
  stopRecorded journal
  (g.restoreSnapshot journal).andThen fun _ => pointBack journal restartOld

/-- The states a rollback from outside cancels without a snapshot. -/
def cancellable : UpdateState → Bool
  | .checking | .downloading | .verifying | .staged | .waitingIdle => true
  | _ => false

/-- The states a rollback from outside undoes. -/
def rollbackable : UpdateState → Bool
  | .draining | .stopped | .snapshotting | .snapshotVerified | .migrating | .switched
  | .candidateStarting | .candidateReady | .activating => true
  | _ => false

def phaseRollback (g : Engine) : Action (Except BusinessError String) :=
  loadJournal.andThen fun journal =>
  match guardNotManual journal with
  | .error err => pure (.error err)
  | .ok () =>
    if cancellable journal.state then
      (mutateJournal (note "rolling_back")).andThen fun _ => do
      let _ ← ask
      (mutateJournal fun j => { j.moveTo .idle "idle" with error := none }).andThen fun _ =>
        pure (.ok "idle")
    else if g.portable ∨ ¬ (rollbackable journal.state ∧ journal.snapshot.isSome) then
      pure (.error ⟨Codes.rollbackUnavailable, "无有效回滚点（无进行中事务或无已验证快照）"⟩)
    else
      (g.rollbackProcedure journal false).orFail
        (fun err => do return .error (← enterManualRecovery err))
        fun _ => pure (.ok "idle")

/-! ### Failures of the installation -/

def failBeforeSnapshot (err : BusinessError) : Action UpgradeOutcome := do
  let _ ← mutateJournal (setFailedIdle err)
  pure (.failedOldHealthy err)

def failAfterStop (wasRunning : Bool) (err : BusinessError) : Action UpgradeOutcome := do
  let _ ← mutateJournal (note "rolling_back")
  let _ ← restartIf wasRunning
  let _ ← mutateJournal (setFailedIdle err)
  pure (.failedOldHealthy err)

def failAfterSwitch (g : Engine) (wasRunning : Bool) (err : BusinessError) :
    Action UpgradeOutcome :=
  loadJournal.orFail (fun e => pure (.manualRecovery e)) fun journal => do
  let _ ← mutateJournal (withError err)
  (g.rollbackProcedure journal wasRunning).orFail
    (fun rollbackErr => do return .manualRecovery (← enterManualRecovery rollbackErr))
    fun _ => pure (.failedOldHealthy err)

/-- `child.kill()` and `child.wait()`, whose results are ignored. -/
def killChild : Action Unit := act fun e w =>
  if e.ok then ((), { w with candidate := none }) else ((), w)

def failCandidate (g : Engine) (wasRunning : Bool) (err : BusinessError) :
    Action UpgradeOutcome := do
  killChild
  g.failAfterSwitch wasRunning err

end Engine

end Gamer.Updater
