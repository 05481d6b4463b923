import Gamer.Lib.Watch
import Gamer.Updater.CrashAtomicity

/-! What an installation says of the old version when it fails. The installation is watched where
    the old version is stopped, where it is started again, and where a failure between the two
    chooses the handler:

        drain ─▶ [stopped, snapshotting] ─▶ (snapshot) ─▶ [snapshot_verified, migrating] ─▶ switch
                        │                       │                   │                          │
                 no restart at all      restart, whatever it says           rollback with a restart -/

namespace Gamer.Updater
open Gamer.Lib Gamer.Lib.Prog
open UpdateJournal

/-- What is watched of an installation. -/
inductive Call where
  /-- `drain_old_server`: whether the old version was running, and whether it is down now. -/
  | drain (running down : Bool)
  /-- The journal did not get into the state. -/
  | refused (state : UpdateState)
  /-- `snapshot::create` failed. -/
  | noSnapshot
  /-- `restart_old_and_verify`, with what it returned. -/
  | restart (ready : Bool)
  deriving DecidableEq

abbrev Watched (α : Type) := Prog Answer (World × List Call) α

/-- The calls of a run, told from its results. -/
def Call.onError {χ α : Type} (call : Call) : Except χ α → List Call
  | .error _ => [call]
  | .ok _ => []

def Call.drained (running : Bool) : Except String Unit → List Call
  | .error _ => [.drain running false]
  | .ok _ => [.drain running true]

/-! ### The watched installation -/

namespace Watched

def restartIf (restartOld : Bool) : Watched Bool :=
  if restartOld then Engine.restartOldAndVerify.watch fun ready => [.restart ready] else pure true

def pointBack (journal : UpdateJournal) (restartOld : Bool) :
    Watched (Except BusinessError Unit) :=
  match journal.rollbackTarget with
  | none => pure (.error ⟨Codes.rollbackUnavailable, "journal 缺少 from_version"⟩)
  | some target =>
    (writeCurrent ⟨target, journal.previousVersion⟩).beside.orFail
      (fun text => pure (.error ⟨Codes.rollbackUnavailable, "写回 current.json 失败: " ++ text⟩))
      fun _ => do
    let ready ← restartIf restartOld
    if ready then
      (mutateJournal fun j => { j.moveTo .idle "failed" with child := none }).beside.andThen
        fun _ => pure (.ok ())
    else pure (.error ⟨Codes.rollbackUnavailable, "旧版本重启或就绪校验失败"⟩)

def rollbackProcedure (g : Engine) (journal : UpdateJournal) (restartOld : Bool) :
    Watched (Except BusinessError Unit) := do
  let _ ← (mutateJournal (note "rolling_back")).beside
  (Engine.stopRecorded journal).beside
  (g.restoreSnapshot journal).beside.andThen fun _ => pointBack journal restartOld

def failBeforeSnapshot (err : BusinessError) : Watched UpgradeOutcome :=
  (Engine.failBeforeSnapshot err).beside

def failAfterStop (wasRunning : Bool) (err : BusinessError) : Watched UpgradeOutcome := do
  let _ ← (mutateJournal (note "rolling_back")).beside
  let _ ← restartIf wasRunning
  let _ ← (mutateJournal (setFailedIdle err)).beside
  pure (.failedOldHealthy err)

def failAfterSwitch (g : Engine) (wasRunning : Bool) (err : BusinessError) :
    Watched UpgradeOutcome :=
  loadJournal.beside.orFail (fun e => pure (.manualRecovery e)) fun journal => do
  let _ ← (mutateJournal (withError err)).beside
  (rollbackProcedure g journal wasRunning).orFail
    (fun rollbackErr => do return .manualRecovery (← (enterManualRecovery rollbackErr).beside))
    fun _ => pure (.failedOldHealthy err)

def failCandidate (g : Engine) (wasRunning : Bool) (err : BusinessError) :
    Watched UpgradeOutcome := do
  Engine.killChild.beside
  failAfterSwitch g wasRunning err

def tryCandidate (g : Engine) (i : Install) : Watched UpgradeOutcome :=
  Engine.startCandidate.beside.orFail (failAfterSwitch g i.wasRunning) fun child => do
  let exe := if (← ask.beside).ok then child.exe else ""
  (mutateJournal fun j => { j.moveTo .candidateStarting "candidate_starting" with
    child := some ⟨child.pid, exe⟩ }).beside.orFail (failCandidate g i.wasRunning) fun _ =>
  (g.waitCandidateReady i.oldBootId i.target).beside.orFail (failCandidate g i.wasRunning) fun _ =>
  (mutateJournal (moveTo .candidateReady "candidate_ready")).beside.orFail
    (failCandidate g i.wasRunning) fun _ =>
  (mutateJournal (moveTo .activating "activating")).beside.orFail
    (failCandidate g i.wasRunning) fun _ =>
  g.activate.beside.orFail (failCandidate g i.wasRunning) fun _ =>
  g.finishPortable.beside.orFail (failCandidate g i.wasRunning) fun _ =>
  (g.commit i).beside

def switchOver (g : Engine) (i : Install) : Watched UpgradeOutcome :=
  outside.beside.orFail (failAfterSwitch g i.wasRunning) fun _ =>
  (mutateJournal (moveTo .switched "switched")).beside.orFail
    (failAfterSwitch g i.wasRunning) fun _ =>
  (writeCurrent ⟨i.target.version, some i.source⟩).beside.orFail
    (fun text => failAfterSwitch g i.wasRunning
      ⟨Codes.rollbackUnavailable, "写 current.json 失败: " ++ text⟩) fun _ =>
  tryCandidate g i

def takeSnapshot (g : Engine) (i : Install) : Watched UpgradeOutcome :=
  ((mutateJournal (moveTo .stopped "stopped")).watch (Call.refused .stopped).onError).orFail
    failBeforeSnapshot fun _ =>
  ((mutateJournal (moveTo .snapshotting "snapshotting")).watch
    (Call.refused .snapshotting).onError).orFail failBeforeSnapshot fun _ => do
  let candidateExe := (← ask.beside).ok
  ((Snapshot.create g.sha i.updateId candidateExe).watch Call.noSnapshot.onError).orFail
    (fun reason => failAfterStop i.wasRunning
      ⟨Codes.artifactInvalid, "快照失败: " ++ reason⟩) fun snap => do
  let schemaBefore := (← ask.beside).observed.schema
  ((mutateJournal (Engine.recordSnapshot snap schemaBefore)).watch
    (Call.refused .snapshotVerified).onError).orFail (failAfterStop i.wasRunning) fun _ =>
  ((mutateJournal (moveTo .migrating "migrating")).watch
    (Call.refused .migrating).onError).orFail (failAfterStop i.wasRunning) fun _ =>
  switchOver g i

def prepareStop (g : Engine) (journal : UpdateJournal) (target : Checked) (updateId : String) :
    Watched UpgradeOutcome := do
  let oldBootId := (← ask.beside).observed.bootId
  let wasRunning := (← ask.beside).ok
  ((Engine.drainOldServer wasRunning).watch (Call.drained wasRunning)).orFail
    (fun reason => do
      let _ ← (mutateJournal fun j => (j.moveTo .staged "staged").withError
        ⟨Codes.updateBusy, "旧版本未在时限内退出，升级已取消: " ++ reason⟩).beside
      return .cancelled reason)
    fun _ => takeSnapshot g
      ⟨updateId, journal.rollbackTarget.getD "", target, oldBootId, wasRunning⟩

def installDownloaded (g : Engine) (target : Checked) : Watched UpgradeOutcome :=
  (mutateJournal (moveTo .waitingIdle "waiting_idle")).beside.orFail failBeforeSnapshot fun _ =>
  loadJournal.beside.orFail failBeforeSnapshot fun journal =>
  match journal.updateId with
  | none => failBeforeSnapshot ⟨Codes.artifactInvalid, "journal 缺少 update_id"⟩
  | some updateId => prepareStop g journal target updateId

/-! ### It is the installation -/

section
variable (g : Engine)

theorem restartIf_erases (restartOld : Bool) :
    Erases (restartIf restartOld) (Engine.restartIf restartOld) := by
  unfold restartIf Engine.restartIf
  split
  · exact .watch
  · exact .pure

theorem pointBack_erases (journal : UpdateJournal) (restartOld : Bool) :
    Erases (pointBack journal restartOld) (Engine.pointBack journal restartOld) := by
  unfold pointBack Engine.pointBack
  cases journal.rollbackTarget with
  | none => exact .pure
  | some target =>
    refine .orFail .beside (fun _ => .pure) fun _ =>
      .bind (restartIf_erases restartOld) fun ready => ?_
    cases ready with
    | true => exact .andThen .beside fun _ => .pure
    | false => exact .pure

theorem rollbackProcedure_erases (journal : UpdateJournal) (restartOld : Bool) :
    Erases (rollbackProcedure g journal restartOld) (g.rollbackProcedure journal restartOld) :=
  .bind .beside fun _ => .bind .beside fun _ =>
    .andThen .beside fun _ => pointBack_erases journal restartOld

theorem failAfterStop_erases (wasRunning : Bool) (err : BusinessError) :
    Erases (failAfterStop wasRunning err) (Engine.failAfterStop wasRunning err) :=
  .bind .beside fun _ => .bind (restartIf_erases wasRunning) fun _ =>
    .bind .beside fun _ => .pure

theorem failAfterSwitch_erases (wasRunning : Bool) (err : BusinessError) :
    Erases (failAfterSwitch g wasRunning err) (g.failAfterSwitch wasRunning err) :=
  .orFail .beside (fun _ => .pure) fun _ => .bind .beside fun _ =>
    .orFail (rollbackProcedure_erases ..) (fun _ => .bind .beside fun _ => .pure) fun _ => .pure

theorem failCandidate_erases (wasRunning : Bool) (err : BusinessError) :
    Erases (failCandidate g wasRunning err) (g.failCandidate wasRunning err) :=
  .bind .beside fun _ => failAfterSwitch_erases ..

theorem tryCandidate_erases (i : Install) : Erases (tryCandidate g i) (g.tryCandidate i) := by
  have hfail := failCandidate_erases g i.wasRunning
  exact .orFail .beside (failAfterSwitch_erases g i.wasRunning) fun _ =>
    .bind .beside fun _ => .orFail .beside hfail fun _ => .orFail .beside hfail fun _ =>
    .orFail .beside hfail fun _ => .orFail .beside hfail fun _ =>
    .orFail .beside hfail fun _ => .orFail .beside hfail fun _ => .beside

theorem switchOver_erases (i : Install) : Erases (switchOver g i) (g.switchOver i) := by
  have hfail := failAfterSwitch_erases g i.wasRunning
  exact .orFail .beside hfail fun _ => .orFail .beside hfail fun _ =>
    .orFail .beside (fun _ => hfail _) fun _ => tryCandidate_erases g i

theorem takeSnapshot_erases (i : Install) : Erases (takeSnapshot g i) (g.takeSnapshot i) := by
  have hstop := failAfterStop_erases i.wasRunning
  exact .orFail .watch (fun _ => .beside) fun _ => .orFail .watch (fun _ => .beside)
    fun _ => .bind .beside fun _ => .orFail .watch (fun _ => hstop _) fun _ =>
    .bind .beside fun _ => .orFail .watch hstop fun _ => .orFail .watch hstop fun _ =>
    switchOver_erases g i

theorem prepareStop_erases (journal : UpdateJournal) (target : Checked) (updateId : String) :
    Erases (prepareStop g journal target updateId) (g.prepareStop journal target updateId) :=
  .bind .beside fun _ => .bind .beside fun _ =>
    .orFail .watch (fun _ => .bind .beside fun _ => .pure) fun _ =>
    takeSnapshot_erases ..

/-- The watched installation runs as the installation does. -/
theorem installDownloaded_erases (target : Checked) :
    Erases (installDownloaded g target) (g.installDownloaded target) := by
  refine .orFail .beside (fun _ => .beside) fun _ =>
    .orFail .beside (fun _ => .beside) fun journal => ?_
  cases journal.updateId with
  | none => exact .beside
  | some updateId => exact prepareStop_erases ..

end

/-! ### What the failures come to -/

/-- A restart that is made only if the old version was running. -/
def restarts (wasRunning ready : Bool) : List Call := if wasRunning then [.restart ready] else []

section
variable {calls : List Call}

theorem restartIf_notes (restartOld : Bool) :
    Notes calls (restartIf restartOld) fun ready calls' =>
      calls' = calls ++ restarts restartOld ready ∧ (restartOld = false → ready) := by
  cases restartOld with
  | false => exact .pure (by simp [restarts])
  | true => exact .noted fun ready => ⟨rfl, by simp⟩

/-- What a rollback may have added when it is over: it fails where a restart fails. -/
def RolledBack (calls : List Call) (restartOld : Bool) :
    Except BusinessError Unit → List Call → Prop
  | .ok _, calls' => calls' = calls ++ restarts restartOld true
  | .error _, calls' => calls' = calls ∨ ∃ ready, calls' = calls ++ [.restart ready]

theorem pointBack_notes (journal : UpdateJournal) (restartOld : Bool) :
    Notes calls (pointBack journal restartOld) (RolledBack calls restartOld) := by
  unfold pointBack
  cases journal.rollbackTarget with
  | none => exact .pure (.inl rfl)
  | some target =>
    refine .beside_orFail (fun _ => .pure (.inl rfl)) fun _ =>
      .bind (restartIf_notes restartOld) ?_
    rintro ready _ ⟨rfl, hready⟩
    have hfailed : ∀ err, RolledBack calls restartOld (.error err)
        (calls ++ restarts restartOld ready) := by
      intro err
      cases restartOld with
      | false => exact .inl (List.append_nil calls)
      | true => exact .inr ⟨ready, rfl⟩
    cases ready with
    | true => exact .beside_orFail (fun err => .pure (hfailed err)) fun _ => .pure rfl
    | false => exact .pure (hfailed _)

theorem rollbackProcedure_notes (g : Engine) (journal : UpdateJournal) (restartOld : Bool) :
    Notes calls (rollbackProcedure g journal restartOld) (RolledBack calls restartOld) :=
  .beside fun _ => .beside fun _ => .beside_orFail (fun _ => .pure (.inl rfl)) fun _ =>
    pointBack_notes journal restartOld

end

end Watched

/-! ### Honesty -/

/-- An installation that reports the old version as healthy has started it again, if it had drained
    it; one that reports to be cancelled had failed to drain it. Every other failure asks for manual
    recovery. -/
def Honest (calls : List Call) : UpgradeOutcome → Prop
  | .failedOldHealthy _ =>
    .drain true true ∈ calls → List.Sublist [.drain true true, .restart true] calls
  | .cancelled _ => ∃ running, .drain running false ∈ calls
  | .committed .. | .manualRecovery _ => True

/-- What has to go well once a running version is drained: the records before the snapshot, and,
    where the snapshot or the records after it fail, the restart. -/
def GoesWell (calls : List Call) : Prop :=
  .drain true true ∈ calls →
    .refused .stopped ∉ calls ∧ .refused .snapshotting ∉ calls ∧
    (.noSnapshot ∈ calls ∨ .refused .snapshotVerified ∈ calls ∨ .refused .migrating ∈ calls →
      .restart false ∉ calls)

instance (calls : List Call) : Decidable (GoesWell calls) :=
  inferInstanceAs (Decidable (_ → _))

/-- The outcome is honest where all this goes well, and nowhere else. -/
def Settled (o : UpgradeOutcome) (calls : List Call) : Prop := Honest calls o ↔ GoesWell calls

namespace Watched

section
variable (g : Engine)

/-! ### After the drain -/

/-- Once the switch is begun, a failure goes through the rollback, which vouches for its restart. -/
theorem failAfterSwitch_settled (wasRunning : Bool) (err : BusinessError) :
    Notes [.drain wasRunning true] (failAfterSwitch g wasRunning err) Settled := by
  refine .beside_orFail (fun e => .pure ?_) fun journal => .beside fun _ =>
    .bind (rollbackProcedure_notes g journal wasRunning) fun r calls hrolled => ?_
  · simp [Settled, Honest, GoesWell]
  cases r with
  | error e =>
    refine .beside fun e' => .pure ?_
    rcases hrolled with rfl | ⟨ready, rfl⟩ <;> simp [Settled, Honest, GoesWell]
  | ok _ =>
    obtain rfl := hrolled
    refine .pure ?_
    cases wasRunning <;> simp [Settled, Honest, GoesWell, restarts]

theorem failCandidate_settled (wasRunning : Bool) (err : BusinessError) :
    Notes [.drain wasRunning true] (failCandidate g wasRunning err) Settled :=
  .beside fun _ => failAfterSwitch_settled g wasRunning err

/-- The end of a successful installation is no failure that tells of the old version. -/
theorem commit_settled (i : Install) (wasRunning : Bool) :
    Notes [.drain wasRunning true] (g.commit i).beside Settled := by
  have hcommitted : ∀ s t, Settled (.committed s t) [.drain wasRunning true] := by
    simp [Settled, Honest, GoesWell]
  have hmanual : ∀ e, Settled (.manualRecovery e) [.drain wasRunning true] := by
    simp [Settled, Honest, GoesWell]
  refine .frame (Triple.orFail_any (fun e => .pure fun _ _ => hmanual e) fun _ =>
    Triple.any.bind fun confirmed => ?_)
  cases confirmed with
  | true =>
    exact Triple.any.bind fun _ => Triple.any.bind fun _ =>
      .orFail_any (fun e => .pure fun _ _ => hmanual e) fun _ => .pure fun _ _ => hcommitted _ _
  | false => exact .pure fun _ _ => hmanual _

theorem tryCandidate_settled (i : Install) :
    Notes [.drain i.wasRunning true] (tryCandidate g i) Settled := by
  have hfail := failCandidate_settled g i.wasRunning
  exact .beside_orFail (failAfterSwitch_settled g i.wasRunning) fun _ => .beside fun _ =>
    .beside_orFail hfail fun _ => .beside_orFail hfail fun _ => .beside_orFail hfail fun _ =>
    .beside_orFail hfail fun _ => .beside_orFail hfail fun _ => .beside_orFail hfail fun _ =>
    commit_settled g i i.wasRunning

theorem switchOver_settled (i : Install) :
    Notes [.drain i.wasRunning true] (switchOver g i) Settled := by
  have hfail := failAfterSwitch_settled g i.wasRunning
  exact .beside_orFail hfail fun _ => .beside_orFail hfail fun _ =>
    .beside_orFail (fun _ => hfail _) fun _ => tryCandidate_settled g i

/-- A failure between the snapshot and the switch restarts the old version and does not ask what
    came of it. -/
theorem failAfterStop_settled (wasRunning : Bool) (err : BusinessError) {call : Call}
    (hcall : call = .noSnapshot ∨ call = .refused .snapshotVerified ∨
      call = .refused .migrating) :
    Notes [.drain wasRunning true, call] (failAfterStop wasRunning err) Settled := by
  refine .beside fun _ => .bind (restartIf_notes wasRunning) ?_
  rintro ready _ ⟨rfl, hready⟩
  refine .beside fun _ => .pure ?_
  rcases hcall with rfl | rfl | rfl <;> cases wasRunning <;> cases ready <;>
    simp [Settled, Honest, GoesWell, restarts]

/-- A failure before the snapshot says that the old version is healthy, and does not restart it. -/
theorem failBeforeSnapshot_settled (wasRunning : Bool) (err : BusinessError) {call : Call}
    (hcall : call = .refused .stopped ∨ call = .refused .snapshotting) :
    Notes [.drain wasRunning true, call] (failBeforeSnapshot err) Settled := by
  refine .frame (Triple.any.bind fun _ => .pure fun _ _ => ?_)
  rcases hcall with rfl | rfl <;> cases wasRunning <;> simp [Settled, Honest, GoesWell]

theorem takeSnapshot_settled (i : Install) :
    Notes [.drain i.wasRunning true] (takeSnapshot g i) Settled := by
  refine .watch_orFail (fun e => failBeforeSnapshot_settled i.wasRunning e (.inl rfl)) fun _ =>
    .watch_orFail (fun e => failBeforeSnapshot_settled i.wasRunning e (.inr rfl)) fun _ =>
    .beside fun _ => .watch_orFail (fun _ => failAfterStop_settled i.wasRunning _ (.inl rfl))
    fun _ => .beside fun _ =>
    .watch_orFail (fun e => failAfterStop_settled i.wasRunning e (.inr (.inl rfl))) fun _ =>
    .watch_orFail (fun e => failAfterStop_settled i.wasRunning e (.inr (.inr rfl))) fun _ =>
    switchOver_settled g i

/-! ### The whole installation -/

theorem prepareStop_settled (journal : UpdateJournal) (target : Checked) (updateId : String) :
    Notes [] (prepareStop g journal target updateId) Settled := by
  refine .beside fun _ => .beside fun running => .watch_orFail (fun reason => ?_) fun _ => ?_
  · exact .beside fun _ => .pure (by simp [Settled, Honest, GoesWell, Call.drained])
  · exact takeSnapshot_settled g
      ⟨updateId, journal.rollbackTarget.getD "", target, _, running.ok⟩

/-- RUN: from its start, with nothing noted yet. -/
theorem installDownloaded_settled (target : Checked) :
    Notes [] (installDownloaded g target) Settled := by
  have hfail : ∀ err, Notes [] (failBeforeSnapshot err) Settled := fun err =>
    .frame (Triple.any.bind fun _ => .pure fun _ _ => by simp [Settled, Honest, GoesWell])
  refine .beside_orFail hfail fun _ => .beside_orFail hfail fun journal => ?_
  cases journal.updateId with
  | none => exact hfail _
  | some updateId => exact prepareStop_settled g journal target updateId

end

end Watched

/-- An installation is honest about the old version exactly when, after it drained it, the records
    before the snapshot succeed, and the restart does if the snapshot or a record after it fails. -/
theorem install_honest_iff (g : Engine) (target : Checked) {tape rest : List Answer} {w w' : World}
    {calls : List Call} {o : UpgradeOutcome}
    (hrun : Watched.installDownloaded g target tape (w, []) = .done o (w', calls) rest) :
    g.installDownloaded target tape w = .done o w' rest ∧ (Honest calls o ↔ GoesWell calls) :=
  ⟨(Watched.installDownloaded_erases g target).run hrun,
    (Watched.installDownloaded_settled g target).run hrun⟩

namespace Sample

/-- The watched run ends with these calls, and reports the old version as healthy. -/
def healthyAfter (calls : List Call) : Ended Answer (World × List Call) UpgradeOutcome → Bool
  | .done (.failedOldHealthy _) s _ => s.2 = calls
  | _ => false

theorem healthyAfter_run {calls : List Call} {r : Ended Answer (World × List Call) UpgradeOutcome}
    (h : healthyAfter calls r) :
    ∃ err w' rest, r = .done (.failedOldHealthy err) (w', calls) rest := by
  unfold healthyAfter at h
  split at h
  · next err s rest =>
    obtain ⟨w', calls'⟩ := s
    obtain rfl : calls' = calls := by simpa using h
    exact ⟨err, w', rest, rfl⟩
  · cases h

end Sample

open Sample in
/-- The snapshot fails, and the old version is started again. -/
theorem install_honest_restarted : ∃ o w' calls rest,
    Watched.installDownloaded engine target
      (List.replicate 13 served ++ .denied :: List.replicate 6 served) (staged, []) =
        .done o (w', calls) rest ∧
    engine.installDownloaded target
      (List.replicate 13 served ++ .denied :: List.replicate 6 served) staged = .done o w' rest ∧
    (Honest calls o ↔ GoesWell calls) := by
  have hend : healthyAfter [.drain true true, .noSnapshot, .restart true]
      (Watched.installDownloaded engine target
        (List.replicate 13 served ++ .denied :: List.replicate 6 served) (staged, [])) := by
    decide +kernel
  obtain ⟨err, w', rest, hrun⟩ := healthyAfter_run hend
  exact ⟨_, w', _, rest, hrun, install_honest_iff engine target hrun⟩

open Sample in
/-- The old version is drained, the record of it is refused, and it is reported as healthy. -/
theorem install_reports_stopped_healthy :
    ¬ ∀ (g : Engine) (target : Checked) (tape rest : List Answer) (w w' : World)
      (calls : List Call) (o : UpgradeOutcome),
      Watched.installDownloaded g target tape (w, []) = .done o (w', calls) rest →
      Honest calls o := by
  intro h
  have hend : healthyAfter [.drain true true, .refused .stopped]
      (Watched.installDownloaded engine target
        (List.replicate 7 served ++ .denied :: List.replicate 2 served) (staged, [])) := by
    decide +kernel
  obtain ⟨err, w', rest, hrun⟩ := healthyAfter_run hend
  exact absurd (h _ _ _ _ _ _ _ _ hrun) (by simp [Honest])

end Gamer.Updater
