import Gamer.Updater.Engine

/-! The installation of a downloaded candidate, in the stages between which its failure handlers
    change:

        prepareStop ▶ takeSnapshot ▶ switchOver ▶ tryCandidate ▶ commit
             │              │             │             │           │
        before snapshot  after stop  after switch  kill candidate   (no rollback)

    and the public operations that end in it. -/

namespace Gamer.Updater
open Gamer.Lib
open UpdateJournal

/-- What an installation has learnt by the time it stops the old version. -/
structure Install where
  updateId : String
  source : String
  target : Checked
  oldBootId : Option String
  wasRunning : Bool

namespace Engine

/-! ### The candidate -/

/-- POST `/api/system/activate`. Without portable mode the candidate takes up work when it accepts,
    which it may have done although the response is lost. -/
def activate (g : Engine) : Action (Except BusinessError Unit) :=
  match g.activationToken with
  | none =>
    if g.activateWithoutToken then pure (.ok ())
    else pure (.error ⟨Codes.updateNotReady, "未配置更新令牌，无法执行 activate"⟩)
  | some _ => act fun e w =>
    let opens := if g.portable then w else w.emit .opened
    match e.status with
    | none => (.error ⟨Codes.updaterUnavailable, "activate 请求失败: " ++ e.text⟩,
        if e.accepted then opens else w)
    | some n =>
      if 200 ≤ n ∧ n < 300 then (.ok (), opens)
      else (.error ⟨Codes.updateNotReady, "activate 被拒绝（HTTP " ++ toString n ++ "）"⟩, w)

/-- The checks of the identity a candidate shows. -/
def checkIdentity (g : Engine) (oldBootId : Option String) (target : Checked) (seen : Observed) :
    Except BusinessError (Option String) :=
  if g.portable ∧ (seen.version ≠ some target.version ∨ seen.bootId.isNone ∨
      (target.dataSchema.isSome ∧ seen.schema ≠ target.dataSchema)) then
    .error ⟨Codes.artifactInvalid, "新版身份或数据版本未通过验证"⟩
  else if seen.version.any (· ≠ target.version) then
    .error ⟨Codes.artifactInvalid, "候选版本不符（观测 " ++ seen.version.getD "" ++ "，期望 " ++
      target.version ++ "）"⟩
  else if target.dataSchema.isSome ∧ seen.schema.isSome ∧ seen.schema ≠ target.dataSchema then
    .error ⟨Codes.schemaIncompatible, "候选数据 schema 不符（观测 " ++
      toString (seen.schema.getD 0) ++ "，期望 " ++ toString (target.dataSchema.getD 0) ++ "）"⟩
  else if oldBootId.isSome ∧ seen.bootId = oldBootId then
    .error ⟨Codes.artifactInvalid, "boot_id 与旧实例相同（疑似旧进程仍在服务）"⟩
  else .ok seen.bootId

/-- `/api/system/info`, or else what `/health/ready` says. -/
def verifyCandidateIdentity (g : Engine) (oldBootId : Option String) (target : Checked) :
    Action (Except BusinessError (Option String)) := do
  let info ← ask
  if info.status = some 200 then return g.checkIdentity oldBootId target info.observed
  let ready ← ask
  match ready.status with
  | none => return .error ⟨Codes.updaterUnavailable, "就绪探测失败: " ++ ready.text⟩
  | some n =>
    if n = 200 then return g.checkIdentity oldBootId target ready.observed
    else return .error ⟨Codes.updaterUnavailable, "ready 探测非 200（" ++ toString n ++ "）"⟩

/-- `try_wait` sees that the candidate is gone. -/
def exited : Action Bool := act fun e w => (e.ok && w.candidate.isNone, w)

def refusesToken (err : BusinessError) : Bool :=
  "(HTTP 403)".toList <:+: err.message.toList

/-- The polling loop of `wait_candidate_ready`, with the rounds left before the deadline. -/
def pollReady (g : Engine) (oldBootId : Option String) (target : Checked) :
    Nat → Bool → Option String → Action (Except BusinessError (Option String))
  | rounds, attempted, last => do
    if ← exited then return .error ⟨Codes.artifactInvalid, "候选进程在就绪探测期间退出"⟩
    match rounds with
    | 0 => return .error ⟨Codes.updaterUnavailable,
        "候选未在时限内就绪: " ++ last.getD "无探测记录"⟩
    | rounds + 1 =>
      let health ← ask
      match health.status with
      | none => g.pollReady oldBootId target rounds attempted (some health.text)
      | some n =>
        if n = 200 then g.verifyCandidateIdentity oldBootId target
        else if g.activationToken.isSome ∧ ¬ attempted ∧ n = 503 ∧ health.gated then
          match ← g.activate with
          | .ok () => g.pollReady oldBootId target rounds true (some "激活闸内，activate 已受理")
          | .error err =>
            if refusesToken err then return .error err
            else g.pollReady oldBootId target rounds true (some ("HTTP " ++ toString n))
        else g.pollReady oldBootId target rounds attempted (some ("HTTP " ++ toString n))

def waitCandidateReady (g : Engine) (oldBootId : Option String) (target : Checked) :
    Action (Except BusinessError (Option String)) := do
  g.pollReady oldBootId target (← ask).count false none

def startCandidate : Action (Except BusinessError ChildInfo) := act fun e w =>
  if e.ok then (.ok ⟨e.pid, e.exe⟩, { w with candidate := some ⟨e.pid, e.exe⟩ })
  else (.error ⟨Codes.updaterUnavailable, "候选启动失败: " ++ e.text⟩, w)

/-! ### The stages -/

/-- POST `/api/system/commit` of portable mode, on which the candidate takes up work. -/
def postCommit (g : Engine) : Action Bool :=
  if g.portable then act fun e w =>
    (decide (e.status = some 200),
      if e.status = some 200 ∨ (e.status = none ∧ e.accepted) then w.emit .opened else w)
  else pure true

/-- The end of a successful installation: no failure leads back from here. -/
def commit (g : Engine) (i : Install) : Action UpgradeOutcome :=
  (mutateJournal fun j => { j.moveTo .committed "committed" with error := none }).orFail
    (fun err => pure (.manualRecovery err)) fun _ => do
  if ← g.postCommit then
    let _ ← ask
    let _ ← mutateJournal (moveTo .cleaning "cleaning")
    (mutateJournal fun j => { j.moveTo .idle "idle" with error := none }).orFail
      (fun err => pure (.manualRecovery err))
      fun _ => pure (.committed i.source i.target.version)
  else pure (.manualRecovery ⟨Codes.manualRecoveryRequired,
    "新版已提交，但业务恢复确认失败；请重新启动 Gamer"⟩)

/-- The official plugins, the entry point and the web page of a portable installation. -/
def finishPortable (g : Engine) : Action (Except BusinessError Unit) := do
  if g.portable then
    if (← ask).status ≠ some 200 then
      return .error ⟨Codes.artifactInvalid, "配套插件更新失败"⟩
    else match ← outside with
      | .ok _ => return .ok ()
      | .error err => return .error ⟨Codes.artifactInvalid, err.message⟩
  else return .ok ()

/-- From here on the candidate runs, and a failure ends it first. -/
def tryCandidate (g : Engine) (i : Install) : Action UpgradeOutcome :=
  startCandidate.orFail (g.failAfterSwitch i.wasRunning) fun child => do
  let exe := if (← ask).ok then child.exe else ""
  (mutateJournal fun j => { j.moveTo .candidateStarting "candidate_starting" with
    child := some ⟨child.pid, exe⟩ }).orFail (g.failCandidate i.wasRunning) fun _ =>
  (g.waitCandidateReady i.oldBootId i.target).orFail (g.failCandidate i.wasRunning) fun _ =>
  (mutateJournal (moveTo .candidateReady "candidate_ready")).orFail
    (g.failCandidate i.wasRunning) fun _ =>
  (mutateJournal (moveTo .activating "activating")).orFail (g.failCandidate i.wasRunning) fun _ =>
  g.activate.orFail (g.failCandidate i.wasRunning) fun _ =>
  g.finishPortable.orFail (g.failCandidate i.wasRunning) fun _ =>
  g.commit i

/-- `versions/<to>/`, the `switched` record, and the pointer. -/
def switchOver (g : Engine) (i : Install) : Action UpgradeOutcome :=
  outside.orFail (g.failAfterSwitch i.wasRunning) fun _ =>
  (mutateJournal (moveTo .switched "switched")).orFail (g.failAfterSwitch i.wasRunning) fun _ =>
  (writeCurrent ⟨i.target.version, some i.source⟩).orFail
    (fun text => g.failAfterSwitch i.wasRunning
      ⟨Codes.rollbackUnavailable, "写 current.json 失败: " ++ text⟩) fun _ =>
  g.tryCandidate i

def recordSnapshot (snap : Snapshot.SnapshotReport) (schemaBefore : Option Nat)
    (j : UpdateJournal) : UpdateJournal :=
  { j.moveTo .snapshotVerified "snapshot_verified" with
    snapshot := some ⟨snap.id, snap.path⟩
    dataSchemaBefore := schemaBefore
    dataSchemaAfter := snap.schemaAfter }

def takeSnapshot (g : Engine) (i : Install) : Action UpgradeOutcome :=
  (mutateJournal (moveTo .stopped "stopped")).orFail failBeforeSnapshot fun _ =>
  (mutateJournal (moveTo .snapshotting "snapshotting")).orFail failBeforeSnapshot fun _ => do
  let candidateExe := (← ask).ok
  (Snapshot.create g.sha i.updateId candidateExe).orFail
    (fun reason => failAfterStop i.wasRunning
      ⟨Codes.artifactInvalid, "快照失败: " ++ reason⟩) fun snap => do
  let schemaBefore := (← ask).observed.schema
  (mutateJournal (recordSnapshot snap schemaBefore)).orFail (failAfterStop i.wasRunning) fun _ =>
  (mutateJournal (moveTo .migrating "migrating")).orFail (failAfterStop i.wasRunning) fun _ =>
  g.switchOver i

/-- The old version is asked to shut down; it is never killed. -/
def drainOldServer (running : Bool) : Action (Except String Unit) := do
  if running then
    let e ← ask
    if e.ok then return .ok () else return .error e.text
  else return .ok ()

def prepareStop (g : Engine) (journal : UpdateJournal) (target : Checked) (updateId : String) :
    Action UpgradeOutcome := do
  let oldBootId := (← ask).observed.bootId
  let wasRunning := (← ask).ok
  (drainOldServer wasRunning).orFail
    (fun reason => do
      let _ ← mutateJournal fun j => (j.moveTo .staged "staged").withError
        ⟨Codes.updateBusy, "旧版本未在时限内退出，升级已取消: " ++ reason⟩
      return .cancelled reason)
    fun _ => g.takeSnapshot
      ⟨updateId, journal.rollbackTarget.getD "", target, oldBootId, wasRunning⟩

def installDownloaded (g : Engine) (target : Checked) : Action UpgradeOutcome :=
  (mutateJournal (moveTo .waitingIdle "waiting_idle")).orFail failBeforeSnapshot fun _ =>
  loadJournal.orFail failBeforeSnapshot fun journal =>
  match journal.updateId with
  | none => failBeforeSnapshot ⟨Codes.artifactInvalid, "journal 缺少 update_id"⟩
  | some updateId => g.prepareStop journal target updateId

/-! ### Operations -/

/-- The candidate the journal names, with its cached manifest. -/
def stagedCandidate : Action (Except BusinessError Checked) :=
  loadJournal.andThen fun journal =>
  match journal.toVersion with
  | none => pure (.error ⟨Codes.updateNotReady, "无已下载的候选版本"⟩)
  | some version => outside.andThen fun e => pure (.ok ⟨version, e.observed.schema⟩)

def installStaged (g : Engine) : Action UpgradeOutcome :=
  phasePrepareInstall.orFail
    (fun err => do
      let _ ← mutateJournal (setFailedIdle err)
      return .failedOldHealthy err)
    fun _ => stagedCandidate.orFail (fun err => pure (.failedOldHealthy err)) g.installDownloaded

def runFull (g : Engine) : Action UpgradeOutcome :=
  g.phaseCheck.orFail (fun err => pure (.failedOldHealthy err)) fun checked =>
  phaseDownload.orFail (fun err => pure (.failedOldHealthy err)) fun _ =>
  g.installDownloaded checked

end Engine

end Gamer.Updater
