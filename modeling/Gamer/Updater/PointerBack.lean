import Gamer.Lib.Machine
import Gamer.Updater.CrashAtomicity

/-! What a rollback writes into the pointer. It takes the versions from three fields of the journal,
    of which a check writes the first and nothing writes the others, so that the version before the
    installed one is the one the journal has had all along:

        check: from_version := current ─▶ … ─▶ rollback: pointer := (from_version, previous_version) -/

namespace Gamer.Updater
open Gamer.Lib Gamer.Lib.Prog
open UpdateJournal

/-- The fields a rollback rebuilds the pointer from. -/
def UpdateJournal.names (j : UpdateJournal) : Option String × Option String × Option String :=
  (j.fromVersion, j.currentVersion, j.previousVersion)

abbrev Names := Option String × Option String × Option String

/-- INVARIANT: the journal has these fields. -/
def Names.Held (V : Names) (w : World) : Prop := w.journal.names = V

theorem Names.held_happen {V : Names} {w : World} (h : V.Held w) (e : Answer) :
    V.Held (w.happen e) := by
  rw [Held, World.happen_journal]
  exact h

/-- The program does not change them, wherever it is cut off. -/
structure Names.Kept (V : Names) {α : Type} (p : Action α) : Prop where
  triple : Triple V.Held p (fun _ => V.Held) V.Held

namespace Names.Kept
variable {V : Names} {α β : Type}

theorem pure {a : α} : V.Kept (Pure.pure a : Action α) := ⟨Triple.pure fun _ h => h⟩

theorem bind {p : Action α} {k : α → Action β} (hp : V.Kept p) (hk : ∀ a, V.Kept (k a)) :
    V.Kept (p >>= k) := ⟨Triple.bind hp.triple fun a => (hk a).triple⟩

theorem orFail {χ : Type} {p : Action (Except χ α)} {fail : χ → Action β} {k : α → Action β}
    (hp : V.Kept p) (hfail : ∀ e, V.Kept (fail e)) (hk : ∀ a, V.Kept (k a)) :
    V.Kept (p.orFail fail k) := by
  refine bind hp fun r => ?_
  cases r with
  | error e => exact hfail e
  | ok a => exact hk a

theorem andThen {χ : Type} {p : Action (Except χ α)} {k : α → Action (Except χ β)}
    (hp : V.Kept p) (hk : ∀ a, V.Kept (k a)) : V.Kept (p.andThen k) :=
  orFail hp (fun _ => pure) hk

/-- EFFECT RULE: what leaves the journal alone. -/
theorem act {f : Answer → World → α × World} (h : ∀ e w, (f e w).2.journal = w.journal) :
    V.Kept (Updater.act f) := by
  refine ⟨Triple.effect (fun _ hw => hw) fun e w hw => ?_⟩
  show (f e (w.happen e)).2.journal.names = V
  rw [h, World.happen_journal]
  exact hw

theorem ask : V.Kept Updater.ask := act fun _ _ => rfl

theorem outside : V.Kept Updater.outside := act fun _ _ => rfl

theorem loadCurrent : V.Kept Updater.loadCurrent := act fun _ _ => rfl

theorem writeCurrent (c : CurrentState) : V.Kept (Updater.writeCurrent c) := by
  refine act fun e w => ?_
  split <;> rfl

theorem writeJournal {j : UpdateJournal} (hj : j.names = V) : V.Kept (Updater.writeJournal j) := by
  refine ⟨Triple.effect (fun _ hw => hw) fun e w hw => ?_⟩
  dsimp only
  split
  · exact hj
  · exact held_happen hw e

/-- READING RULE: the journal that is read has the fields. -/
theorem loadJournal {p : UpdateJournal → Action α} {fail : BusinessError → Action α}
    (hfail : ∀ e, V.Kept (fail e)) (hk : ∀ j, j.names = V → V.Kept (p j)) :
    V.Kept (Updater.loadJournal.orFail fail p) := by
  refine ⟨Triple.orFail (E := fun _ => V.Held) (K := fun j w => V.Held w ∧ j.names = V) ?_
    (fun e => (hfail e).triple) fun j => Triple.fact fun hj => (hk j hj).triple⟩
  refine Triple.effect (fun _ hw => hw) fun e w hw => ?_
  have hheld : V.Held (w.happen e) := held_happen hw e
  dsimp only
  split
  · exact ⟨hheld, hheld⟩
  · exact hheld

theorem mutateJournal {f : UpdateJournal → UpdateJournal} (h : ∀ j, (f j).names = j.names) :
    V.Kept (Updater.mutateJournal f) :=
  loadJournal (fun _ => pure) fun j hj => andThen (writeJournal ((h j).trans hj)) fun _ => pure

end Names.Kept

section
variable {V : Names}

/-! ### Snapshots -/

theorem snapshotVerify_names (sha : String → String) (updateId : String) :
    V.Kept (Snapshot.verify sha updateId) := by
  refine .act fun e w => ?_
  split
  · rfl
  · split
    · rfl
    · split <;> rfl

theorem copyFiles_names (sha : String → String) (updateId : String) (sources : List Rel)
    (files : List SnapshotFile) : V.Kept (Snapshot.copyFiles sha updateId sources files) := by
  induction sources generalizing files with
  | nil => exact .pure
  | cons r rest ih =>
    refine .andThen (.act fun e w => ?_) fun f => ih _
    split <;> rfl

theorem snapshotCreate_names (sha : String → String) (updateId : String) (candidateExe : Bool) :
    V.Kept (Snapshot.create sha updateId candidateExe) := by
  unfold Snapshot.create
  split
  · exact .pure
  refine .andThen (.act fun e w => ?_) fun _ => .andThen (.act fun e w => ?_) fun sources =>
    .andThen (.act fun e w => ?_) fun _ => .andThen (copyFiles_names ..) fun files =>
    .andThen (.act fun e w => ?_) fun _ => .andThen (snapshotVerify_names ..) fun m =>
    .andThen ?_ fun schema => .pure
  · split
    · rfl
    · split <;> rfl
  · split <;> rfl
  · split <;> rfl
  · split <;> rfl
  · unfold Snapshot.inspectSnapshotCopy
    split
    · exact .pure
    · split
      · exact .pure
      · refine .act fun e w => ?_
        split <;> rfl

theorem stageFiles_names (updateId : String) (files : List SnapshotFile) (stage : Tree) :
    V.Kept (Snapshot.stageFiles updateId files stage) := by
  induction files generalizing stage with
  | nil => exact .pure
  | cons f rest ih =>
    refine .andThen (.act fun e w => ?_) fun stage' => ih _
    split <;> rfl

theorem swapIn_names (sha : String → String) (stage : Tree) (m : SnapshotManifest) :
    V.Kept (Snapshot.swapIn sha stage m) := by
  refine .andThen (.act fun e w => ?_) fun _ => .andThen (.act fun e w => ?_) fun _ =>
    .andThen (.act fun e w => ?_) fun _ => .andThen (.act fun e w => ?_) fun _ =>
    .andThen ?_ fun _ => .andThen (.act fun e w => ?_) fun _ => .act fun e w => ?_
  · split <;> rfl
  · split
    · rfl
    · split <;> rfl
  · split
    · rfl
    · split <;> rfl
  · split <;> rfl
  · unfold Snapshot.putConfig
    split
    · refine .act fun e w => ?_
      split <;> rfl
    · exact .pure
  · split <;> rfl
  · split <;> rfl

theorem snapshotRestore_names (sha : String → String) (updateId : String) :
    V.Kept (Snapshot.restore sha updateId) := by
  refine .andThen (snapshotVerify_names ..) fun m => .andThen (.act fun e w => ?_) fun _ =>
    .andThen (stageFiles_names ..) fun stage => ?_
  · split <;> rfl
  · split
    · exact swapIn_names ..
    · exact .pure

/-! ### The rollback -/

theorem enterManualRecovery_names (err : BusinessError) : V.Kept (enterManualRecovery err) :=
  .bind (.mutateJournal fun _ => rfl) fun _ => .pure

theorem restartIf_names (restartOld : Bool) : V.Kept (Engine.restartIf restartOld) := by
  unfold Engine.restartIf
  split
  · refine .bind .loadCurrent fun r => ?_
    split
    · exact .bind .ask fun _ => .pure
    · exact .pure
  · exact .pure

theorem restoreSnapshot_names (g : Engine) (journal : UpdateJournal) :
    V.Kept (g.restoreSnapshot journal) := by
  unfold Engine.restoreSnapshot
  split
  · split
    · exact .pure
    · exact .orFail (snapshotRestore_names ..) (fun _ => .pure) fun _ => .pure
  · exact .pure

theorem pointBack_names (journal : UpdateJournal) (restartOld : Bool) :
    V.Kept (Engine.pointBack journal restartOld) := by
  unfold Engine.pointBack
  split
  · exact .pure
  · refine .orFail (.writeCurrent _) (fun _ => .pure) fun _ =>
      .bind (restartIf_names restartOld) fun ready => ?_
    split
    · exact .andThen (.mutateJournal fun _ => rfl) fun _ => .pure
    · exact .pure

theorem stopRecorded_names (journal : UpdateJournal) : V.Kept (Engine.stopRecorded journal) := by
  unfold Engine.stopRecorded
  split
  · exact .pure
  · split
    · refine .act fun e w => ?_
      split <;> rfl
    · exact .pure

/-- STEP: a rollback itself leaves the fields in the journal. -/
theorem rollbackProcedure_names (g : Engine) (journal : UpdateJournal) (restartOld : Bool) :
    V.Kept (g.rollbackProcedure journal restartOld) :=
  .bind (.mutateJournal fun _ => rfl) fun _ => .bind (stopRecorded_names journal) fun _ =>
    .andThen (restoreSnapshot_names g journal) fun _ => pointBack_names journal restartOld

theorem phaseRollback_names (g : Engine) : V.Kept g.phaseRollback := by
  refine .loadJournal (fun _ => .pure) fun journal _ => ?_
  split
  · exact .pure
  · split
    · exact .andThen (.mutateJournal fun _ => rfl) fun _ => .bind .ask fun _ =>
        .andThen (.mutateJournal fun _ => rfl) fun _ => .pure
    · split
      · exact .pure
      · exact .orFail (rollbackProcedure_names ..)
          (fun err => .bind (enterManualRecovery_names err) fun _ => .pure) fun _ => .pure

/-! ### The installation -/

theorem failBeforeSnapshot_names (err : BusinessError) :
    V.Kept (Engine.failBeforeSnapshot err) :=
  .bind (.mutateJournal fun _ => rfl) fun _ => .pure

theorem failAfterStop_names (wasRunning : Bool) (err : BusinessError) :
    V.Kept (Engine.failAfterStop wasRunning err) :=
  .bind (.mutateJournal fun _ => rfl) fun _ => .bind (restartIf_names wasRunning) fun _ =>
    .bind (.mutateJournal fun _ => rfl) fun _ => .pure

theorem failAfterSwitch_names (g : Engine) (wasRunning : Bool) (err : BusinessError) :
    V.Kept (g.failAfterSwitch wasRunning err) :=
  .loadJournal (fun _ => .pure) fun _ _ => .bind (.mutateJournal fun _ => rfl) fun _ =>
    .orFail (rollbackProcedure_names ..)
      (fun err => .bind (enterManualRecovery_names err) fun _ => .pure) fun _ => .pure

theorem failCandidate_names (g : Engine) (wasRunning : Bool) (err : BusinessError) :
    V.Kept (g.failCandidate wasRunning err) := by
  refine .bind (.act fun e w => ?_) fun _ => failAfterSwitch_names ..
  split <;> rfl

theorem activate_names (g : Engine) : V.Kept g.activate := by
  unfold Engine.activate
  split
  · split <;> exact .pure
  · refine .act fun e w => ?_
    dsimp only
    split
    · split
      · split <;> rfl
      · rfl
    · split
      · split <;> rfl
      · rfl

theorem verifyCandidateIdentity_names (g : Engine) (oldBootId : Option String) (target : Checked) :
    V.Kept (g.verifyCandidateIdentity oldBootId target) := by
  refine .bind .ask fun info => ?_
  split
  · exact .pure
  · refine .bind .ask fun ready => ?_
    split
    · exact .pure
    · split <;> exact .pure

theorem pollReady_names (g : Engine) (oldBootId : Option String) (target : Checked) (rounds : Nat)
    (attempted : Bool) (last : Option String) :
    V.Kept (g.pollReady oldBootId target rounds attempted last) := by
  induction rounds generalizing attempted last with
  | zero =>
    refine .bind (.act fun _ _ => rfl) fun gone => ?_
    split <;> exact .pure
  | succ rounds ih =>
    refine .bind (.act fun _ _ => rfl) fun gone => ?_
    split
    · exact .pure
    refine .bind .ask fun health => ?_
    split
    · exact ih _ _
    · split
      · exact verifyCandidateIdentity_names ..
      · split
        · refine .bind (activate_names g) fun r => ?_
          cases r with
          | ok _ => exact ih _ _
          | error err =>
            dsimp only
            split
            · exact .pure
            · exact ih _ _
        · exact ih _ _

theorem finishPortable_names (g : Engine) : V.Kept g.finishPortable := by
  unfold Engine.finishPortable
  split
  · refine .bind .ask fun e => ?_
    split
    · exact .pure
    · refine .bind .outside fun r => ?_
      cases r <;> exact .pure
  · exact .pure

theorem commit_names (g : Engine) (i : Install) : V.Kept (g.commit i) := by
  refine .orFail (.mutateJournal fun _ => rfl) (fun _ => .pure) fun _ => .bind ?_ fun committed => ?_
  · unfold Engine.postCommit
    split
    · refine .act fun e w => ?_
      dsimp only
      split <;> rfl
    · exact .pure
  · split
    · exact .bind .ask fun _ => .bind (.mutateJournal fun _ => rfl) fun _ =>
        .orFail (.mutateJournal fun _ => rfl) (fun _ => .pure) fun _ => .pure
    · exact .pure

theorem tryCandidate_names (g : Engine) (i : Install) : V.Kept (g.tryCandidate i) := by
  have hfail := failCandidate_names (V := V) g i.wasRunning
  refine .orFail (.act fun e w => ?_) (failAfterSwitch_names g i.wasRunning) fun child =>
    .bind .ask fun _ =>
    .orFail (.mutateJournal fun _ => rfl) hfail fun _ =>
    .orFail (.bind .ask fun _ => pollReady_names ..) hfail fun _ =>
    .orFail (.mutateJournal fun _ => rfl) hfail fun _ =>
    .orFail (.mutateJournal fun _ => rfl) hfail fun _ =>
    .orFail (activate_names g) hfail fun _ =>
    .orFail (finishPortable_names g) hfail fun _ => commit_names g i
  split <;> rfl

theorem switchOver_names (g : Engine) (i : Install) : V.Kept (g.switchOver i) :=
  .orFail .outside (failAfterSwitch_names g i.wasRunning) fun _ =>
  .orFail (.mutateJournal fun _ => rfl) (failAfterSwitch_names g i.wasRunning) fun _ =>
  .orFail (.writeCurrent _) (fun _ => failAfterSwitch_names ..) fun _ => tryCandidate_names g i

theorem takeSnapshot_names (g : Engine) (i : Install) : V.Kept (g.takeSnapshot i) :=
  .orFail (.mutateJournal fun _ => rfl) failBeforeSnapshot_names fun _ =>
  .orFail (.mutateJournal fun _ => rfl) failBeforeSnapshot_names fun _ => .bind .ask fun _ =>
  .orFail (snapshotCreate_names ..) (fun _ => failAfterStop_names ..) fun _ => .bind .ask fun _ =>
  .orFail (.mutateJournal fun _ => rfl) (failAfterStop_names _) fun _ =>
  .orFail (.mutateJournal fun _ => rfl) (failAfterStop_names _) fun _ => switchOver_names g i

theorem prepareStop_names (g : Engine) (journal : UpdateJournal) (target : Checked)
    (updateId : String) : V.Kept (g.prepareStop journal target updateId) := by
  refine .bind .ask fun _ => .bind .ask fun running => .orFail ?_
    (fun _ => .bind (.mutateJournal fun _ => rfl) fun _ => .pure) fun _ => takeSnapshot_names ..
  unfold Engine.drainOldServer
  split
  · refine .bind .ask fun e => ?_
    split <;> exact .pure
  · exact .pure

/-- STEP: an installation leaves the fields in the journal. -/
theorem installDownloaded_names (g : Engine) (target : Checked) :
    V.Kept (g.installDownloaded target) := by
  refine .orFail (.mutateJournal fun _ => rfl) failBeforeSnapshot_names fun _ =>
    .loadJournal failBeforeSnapshot_names fun journal _ => ?_
  split
  · exact failBeforeSnapshot_names _
  · exact prepareStop_names ..

theorem phaseDownload_names : V.Kept Engine.phaseDownload := by
  refine .loadJournal (fun _ => .pure) fun journal _ => ?_
  split
  · exact .pure
  · split
    · exact .pure
    · exact .pure
    · split
      · exact .pure
      · refine .andThen (.mutateJournal fun _ => rfl) fun _ => .andThen .outside fun _ =>
          .bind .outside fun r => ?_
        cases r with
        | error err => exact .andThen (.mutateJournal fun _ => rfl) fun _ => .pure
        | ok _ => exact .andThen (.mutateJournal fun _ => rfl) fun _ => .pure

theorem phasePrepareInstall_names : V.Kept Engine.phasePrepareInstall := by
  refine .loadJournal (fun _ => .pure) fun journal _ => ?_
  split
  · exact .pure
  · split
    · split <;> exact .pure
    · split
      · exact .pure
      · refine .andThen (.mutateJournal fun _ => rfl) fun _ => .bind .outside fun r => ?_
        cases r with
        | ok _ => exact .andThen (.mutateJournal fun _ => rfl) fun _ => .pure
        | error err => exact .andThen (.mutateJournal fun _ => rfl) fun _ => .pure

theorem installStaged_names (g : Engine) : V.Kept g.installStaged := by
  refine .orFail phasePrepareInstall_names
    (fun _ => .bind (.mutateJournal fun _ => rfl) fun _ => .pure) fun _ =>
    .orFail (.loadJournal (fun _ => .pure) fun journal _ => ?_) (fun _ => .pure) fun checked =>
    installDownloaded_names g checked
  split
  · exact .pure
  · exact .andThen .outside fun _ => .pure

/-! ### The recovery -/

theorem close_names {j : UpdateJournal} (hj : j.names = V) : V.Kept (Recovery.close j) := by
  refine ⟨Triple.effect (fun _ hw => hw) fun e w hw => ?_⟩
  cases hok : e.ok with
  | true =>
    simp only [hok]
    exact hj
  | false =>
    simp only [hok]
    exact Names.held_happen hw e

theorem finishIdle_names {j : UpdateJournal} (hj : j.names = V) (reason : String) :
    V.Kept (Recovery.finishIdle j reason) := .bind (close_names hj) fun _ => .pure

theorem finishManual_names {j : UpdateJournal} (hj : j.names = V) (reason : String) :
    V.Kept (Recovery.finishManual j reason) := .bind (close_names hj) fun _ => .pure

theorem pointerMatches_names (version : Option String) :
    V.Kept (Recovery.pointerMatches version) := by
  unfold Recovery.pointerMatches
  split
  · exact .pure
  · refine .bind .loadCurrent fun r => ?_
    split <;> exact .pure

theorem stagingIntact_names (j : UpdateJournal) : V.Kept (Recovery.stagingIntact j) := by
  unfold Recovery.stagingIntact
  split
  · exact .bind .ask fun _ => .pure
  · exact .pure

theorem recoverPreInstall_names {j : UpdateJournal} (hj : j.names = V) :
    V.Kept (Recovery.recoverPreInstall j) := by
  refine .bind (stagingIntact_names j) fun intact => ?_
  split
  · exact .bind (close_names hj) fun _ => .pure
  · exact .bind .ask fun _ => finishIdle_names hj _

theorem recoverSnapshotting_names (g : Engine) {j : UpdateJournal} (hj : j.names = V) :
    V.Kept (Recovery.recoverSnapshotting g j) := by
  unfold Recovery.recoverSnapshotting
  split
  · exact finishIdle_names hj _
  · exact .orFail (snapshotVerify_names ..)
      (fun _ => .bind (.act fun e w => by dsimp only; split <;> rfl) fun _ =>
        finishIdle_names hj _)
      fun _ => .orFail (rollbackProcedure_names ..) (fun _ => finishManual_names hj _)
        fun _ => .pure

theorem recoverSwitched_names (g : Engine) {j : UpdateJournal} (hj : j.names = V)
    (context : String) : V.Kept (Recovery.recoverSwitched g j context) := by
  unfold Recovery.recoverSwitched
  split
  · exact finishManual_names hj _
  · exact .orFail (rollbackProcedure_names ..) (fun _ => finishManual_names hj _) fun _ => .pure

theorem recoverCommitted_names {j : UpdateJournal} (hj : j.names = V) :
    V.Kept (Recovery.recoverCommitted j) := by
  unfold Recovery.recoverCommitted
  split
  · exact finishManual_names hj _
  · refine .bind (pointerMatches_names _) fun found => ?_
    split
    · exact .bind .ask fun _ => .bind (close_names hj) fun _ => .pure
    · exact finishManual_names hj _

theorem recover_names (g : Engine) {j : UpdateJournal} (hj : j.names = V) :
    V.Kept (Recovery.recover g j) := by
  unfold Recovery.recover
  split
  · exact .pure
  · exact .pure
  iterate 6 exact recoverPreInstall_names hj
  · exact finishIdle_names hj _
  · exact recoverSnapshotting_names g hj
  iterate 2
    refine .bind (pointerMatches_names _) fun found => ?_
    split
    · exact finishIdle_names hj _
    · exact recoverSwitched_names g hj _
  iterate 4 exact recoverSwitched_names g hj _
  iterate 2 exact recoverCommitted_names hj

theorem recoverOnStartup_names (sha : String → String) : V.Kept (recoverOnStartup sha) :=
  .loadJournal (fun _ => .pure) fun _ hj => .bind (recover_names _ hj) fun _ => .pure

/-! ### A transaction -/

theorem recordCandidate_names (g : Engine) : V.Kept g.recordCandidate := by
  refine .bind .outside fun r => ?_
  cases r with
  | ok e => exact .andThen (.mutateJournal fun _ => rfl) fun _ => .pure
  | error err => exact .andThen (.mutateJournal fun j => by split <;> rfl) fun _ => .pure

end

/-- What can follow the check of a transaction: any operation but the next check. -/
inductive Later where
  | download | prepareInstall | rollback | install (target : Checked) | installStaged | recover

/-- The operation over the answers it gets, which may be cut off wherever they end. -/
def Later.step (g : Engine) (w : World) : Later × List Answer → Option World
  | (.download, tape) => some (Engine.phaseDownload tape w).state
  | (.prepareInstall, tape) => some (Engine.phasePrepareInstall tape w).state
  | (.rollback, tape) => some (g.phaseRollback tape w).state
  | (.install target, tape) => some (g.installDownloaded target tape w).state
  | (.installStaged, tape) => some (g.installStaged tape w).state
  | (.recover, tape) => some (recoverOnStartup g.sha tape w).state

/-- STEP: no operation of the transaction changes the fields. -/
theorem Later.step_names {g : Engine} {V : Names} {w w' : World} {op : Later × List Answer}
    (h : V.Held w) (hstep : Later.step g w op = some w') : V.Held w' := by
  obtain ⟨op, tape⟩ := op
  cases op <;> obtain rfl := Option.some.inj hstep
  case download => exact phaseDownload_names.triple.state h tape
  case prepareInstall => exact phasePrepareInstall_names.triple.state h tape
  case rollback => exact (phaseRollback_names g).triple.state h tape
  case install target => exact (installDownloaded_names g target).triple.state h tape
  case installStaged => exact (installStaged_names g).triple.state h tape
  case recover => exact (recoverOnStartup_names g.sha).triple.state h tape

/-- RUN: the fields are those of the check for the whole transaction. -/
theorem Later.reaches_names {g : Engine} {V : Names} {w w' : World} (h : V.Held w)
    (hrun : Machine.Reaches (Later.step g) w w') : V.Held w' :=
  hrun.invariant (fun _ _ _ h hstep => Later.step_names h hstep) h

/-! ### The check -/

/-- Nothing is written yet: the files the check reads are as they were. -/
def Unwritten (w₀ w : World) : Prop :=
  w.log = w₀.log ∧ w.current = w₀.current ∧ w.journal = w₀.journal

section
variable {w₀ : World} {C : World → Prop}

theorem Unwritten.happen {w : World} (h : Unwritten w₀ w) (e : Answer) :
    Unwritten w₀ (w.happen e) := by
  simpa [Unwritten] using h

theorem Unwritten.loadJournal (hC : ∀ w, Unwritten w₀ w → C w) :
    Triple (Unwritten w₀) loadJournal
      (either (fun _ => Unwritten w₀) fun j w => Unwritten w₀ w ∧ j = w₀.journal) C := by
  refine .effect hC fun e w hw => ?_
  have hh := hw.happen e
  dsimp only
  split
  · exact ⟨hh, hh.2.2⟩
  · exact hh

/-- The pointer that is read is the one from before. -/
theorem Unwritten.currentVersion {v : String} {p : Option String}
    (hpointer : w₀.current = some ⟨v, p⟩) (hC : ∀ w, Unwritten w₀ w → C w) :
    Triple (Unwritten w₀) currentVersion
      (either (fun _ => Unwritten w₀) fun c w => Unwritten w₀ w ∧ c = v) C := by
  have hread : Triple (Unwritten w₀) loadCurrent
      (fun r w => Unwritten w₀ w ∧ ∀ c, r = .ok (some c) → c.current = v) C := by
    refine .effect hC fun e w hw => ⟨hw.happen e, fun c hc => ?_⟩
    dsimp only at hc
    split at hc
    · rw [(hw.happen e).2.1, hpointer] at hc
      obtain rfl := Option.some.inj (Except.ok.inj hc)
      rfl
    · cases hc
  refine hread.bind fun r => ?_
  split
  · next c => exact .pure fun w hw => ⟨hw.1, hw.2 c rfl⟩
  · exact .pure fun w hw => hw.1
  · exact .pure fun w hw => hw.1

/-- The first write of the transaction. -/
theorem Unwritten.mutateJournal {f : UpdateJournal → UpdateJournal}
    (hC : ∀ w, Unwritten w₀ w → C w) :
    Triple (Unwritten w₀) (mutateJournal f)
      (either (fun _ => Unwritten w₀) fun _ w => w.journal = f w₀.journal) C := by
  refine (Unwritten.loadJournal hC).andThen (fun _ _ hw => hw) fun j => .fact fun hj => ?_
  obtain rfl := hj
  have hwrite : Triple (Unwritten w₀) (writeJournal (f w₀.journal))
      (either (fun _ => Unwritten w₀) fun _ w => w.journal = f w₀.journal) C := by
    refine .effect hC fun e w hw => ?_
    dsimp only
    split
    · rfl
    · exact hw.happen e
  exact hwrite.andThen (fun _ _ hw => hw) fun _ => .pure fun _ hw => hw

end

/-- What a check of an installation at version `v` leaves in the journal. -/
def UpdateJournal.checkedNames (j : UpdateJournal) (v : String) : Names :=
  (some v, j.currentVersion, j.previousVersion)

/-- STEP: a check writes nothing, or it leaves the current version in the journal and, for the
    version before, what the journal had. -/
theorem phaseCheck_names (g : Engine) {w₀ : World} {v : String} {p : Option String}
    (hpointer : w₀.current = some ⟨v, p⟩) :
    Triple (Unwritten w₀) g.phaseCheck
      (fun _ w => w.log = w₀.log ∨ (w₀.journal.checkedNames v).Held w)
      fun w => w.log = w₀.log ∨ (w₀.journal.checkedNames v).Held w := by
  have hleft : ∀ w, Unwritten w₀ w → w.log = w₀.log ∨ (w₀.journal.checkedNames v).Held w :=
    fun w hw => .inl hw.1
  refine Triple.orFail (Unwritten.loadJournal hleft) (fun _ => .pure hleft) fun journal =>
    .fact fun hj => ?_
  split
  · exact .pure hleft
  refine Triple.orFail (Unwritten.currentVersion hpointer hleft) (fun _ => .pure hleft)
    fun current => .fact fun hcurrent => ?_
  obtain rfl := hcurrent
  have hask : Triple (Unwritten w₀) ask (fun _ => Unwritten w₀)
      fun w => w.log = w₀.log ∨ (w₀.journal.checkedNames current).Held w :=
    .effect hleft fun e w hw => hw.happen e
  refine hask.bind fun e => Triple.orFail (Unwritten.mutateJournal hleft) (fun _ => .pure hleft)
    fun _ => ?_
  have hrecord := (recordCandidate_names (V := w₀.journal.checkedNames current) g).triple
  refine (hrecord.cuts fun _ => .inr).conseq (fun w hw => ?_) fun _ _ => .inr
  rw [Names.Held, hw]
  rfl

/-- RUN: a check that wrote the journal has left the names there, wherever it was cut off. -/
theorem checked_of_written (g : Engine) {w₀ : World} {v : String} {p : Option String}
    (hpointer : w₀.current = some ⟨v, p⟩) {tape : List Answer}
    (hstarted : (g.phaseCheck tape w₀).state.log ≠ w₀.log) :
    (w₀.journal.checkedNames v).Held (g.phaseCheck tape w₀).state :=
  ((phaseCheck_names g hpointer).state ⟨rfl, rfl, rfl⟩ tape).resolve_left hstarted

/-! ### The pointer after a rollback -/

theorem mutateJournal_current (f : UpdateJournal → UpdateJournal) :
    Prog.Keeps World.current (mutateJournal f) := by
  refine .andThen (.effect fun e w => World.happen_current w e) fun j =>
    .andThen (.effect fun e w => ?_) fun _ => fun _ _ => rfl
  dsimp only
  split <;> exact World.happen_current w e

theorem restartIf_current (restartOld : Bool) :
    Prog.Keeps World.current (Engine.restartIf restartOld) := by
  unfold Engine.restartIf
  split
  · refine .bind (.effect fun e w => World.happen_current w e) fun r => ?_
    split
    · exact .bind (.effect fun e w => World.happen_current w e) fun _ => fun _ _ => rfl
    · exact fun _ _ => rfl
  · exact fun _ _ => rfl

/-- STEP: the end of a rollback that succeeds has written the pointer, from the journal alone. -/
theorem pointBack_pointer (journal : UpdateJournal) (restartOld : Bool) :
    Triple (fun _ => True) (Engine.pointBack journal restartOld)
      (either (fun _ _ => True) fun _ w => ∃ target, journal.rollbackTarget = some target ∧
        w.current = some ⟨target, journal.previousVersion⟩)
      fun _ => True := by
  unfold Engine.pointBack
  split
  · exact .pure fun _ _ => trivial
  next target htarget =>
  have hstays : ∀ {β : Type} {q : Action β}, Prog.Keeps World.current q →
      Triple (fun w => w.current = some ⟨target, journal.previousVersion⟩) q
        (fun _ w => w.current = some ⟨target, journal.previousVersion⟩) fun _ => True :=
    fun hq => (hq.triple fun s t h hs => h.trans hs).cuts fun _ _ => trivial
  refine Triple.orFail (E := fun _ _ => True)
    (K := fun _ w => w.current = some ⟨target, journal.previousVersion⟩)
    (.effect (fun _ _ => trivial) fun e w _ => ?_) (fun _ => .pure fun _ _ => trivial) fun _ => ?_
  · dsimp only
    split
    · rfl
    · trivial
  · refine (hstays (restartIf_current restartOld)).bind fun ready => ?_
    split
    · refine Triple.bind (hstays (mutateJournal_current _)) fun r => ?_
      cases r with
      | error err => exact .pure fun _ _ => trivial
      | ok j => exact .pure fun w hw => ⟨target, htarget, hw⟩
    · exact .pure fun _ _ => trivial

/-- RUN: so has the whole rollback. -/
theorem rollbackProcedure_pointer (g : Engine) (journal : UpdateJournal) (restartOld : Bool) :
    Triple (fun _ => True) (g.rollbackProcedure journal restartOld)
      (either (fun _ _ => True) fun _ w => ∃ target, journal.rollbackTarget = some target ∧
        w.current = some ⟨target, journal.previousVersion⟩)
      fun _ => True := by
  refine Triple.any.bind fun _ => Triple.any.bind fun _ => Triple.any.bind fun r => ?_
  cases r with
  | error err => exact .pure fun _ _ => trivial
  | ok _ => exact pointBack_pointer journal restartOld

/-- A rollback in a transaction that a check began at pointer `(v, p)` writes that pointer back
    exactly when `p` is the version before that the journal had at the check. -/
theorem rollback_pointer_iff (g : Engine) {w₀ w w' : World} {v : String} {p : Option String}
    {tape tape' : List Answer} {restartOld : Bool} (hpointer : w₀.current = some ⟨v, p⟩)
    (hstarted : (g.phaseCheck tape w₀).state.log ≠ w₀.log)
    (hrun : Machine.Reaches (Later.step g) (g.phaseCheck tape w₀).state w)
    (hback : (g.rollbackProcedure w.journal restartOld tape' w').succeeded) :
    (g.rollbackProcedure w.journal restartOld tape' w').state.current = some ⟨v, p⟩ ↔
      p = w₀.journal.previousVersion := by
  have hnames : w.journal.names = w₀.journal.checkedNames v :=
    Later.reaches_names (checked_of_written g hpointer hstarted) hrun
  obtain ⟨hfrom, hrest⟩ := Prod.mk.inj hnames
  obtain ⟨-, hprevious⟩ := Prod.mk.inj hrest
  obtain ⟨_, target, htarget, hcurrent⟩ :=
    (rollbackProcedure_pointer g w.journal restartOld).succeeded trivial hback
  have hv : v = target := by simpa [UpdateJournal.rollbackTarget, hfrom] using htarget
  rw [hcurrent, hprevious, ← hv]
  constructor
  · intro h
    exact (congrArg (·.previous) (Option.some.inj h)).symm
  · rintro rfl
    rfl

namespace Sample

/-- Version 1, which runs after this version. -/
def running (previous : Option String) : World :=
  { staged with journal := .default, current := some ⟨"1", previous⟩ }

/-- Checked by the updater. -/
def found (previous : Option String) : World :=
  (engine.phaseCheck (List.replicate 8 served) (running previous)).state

/-- Downloaded, and switched to version 2, where the installation is cut off. -/
def switched (previous : Option String) : World :=
  (engine.installDownloaded target (List.replicate 30 served)
    (Engine.phaseDownload (List.replicate 7 served) (found previous)).state).state

theorem found_reaches (previous : Option String) :
    Machine.Reaches (Later.step engine) (found previous) (switched previous) :=
  ⟨[(.download, List.replicate 7 served), (.install target, List.replicate 30 served)], rfl⟩

/-- The rollback that a recovery makes then. -/
def rolledBack (previous : Option String) : Ended Answer World (Except BusinessError Unit) :=
  engine.rollbackProcedure (switched previous).journal false (List.replicate 40 served)
    (switched previous)

end Sample

open Sample in
/-- An installation that had no version before gets its pointer back. -/
theorem rollback_pointer_first : (rolledBack none).state.current = some ⟨"1", none⟩ := by
  have hpointer : (running none).current = some ⟨"1", none⟩ := rfl
  exact (rollback_pointer_iff engine hpointer (by decide +kernel) (found_reaches none)
    (by decide +kernel)).mpr rfl

open Sample in
/-- One that had version 0 before loses it. -/
theorem rollback_pointer_lost :
    ¬ ∀ (g : Engine) (w₀ w w' : World) (v : String) (p : Option String)
      (tape tape' : List Answer) (restartOld : Bool), w₀.current = some ⟨v, p⟩ →
      (g.phaseCheck tape w₀).state.log ≠ w₀.log →
      Machine.Reaches (Later.step g) (g.phaseCheck tape w₀).state w →
      (g.rollbackProcedure w.journal restartOld tape' w').succeeded →
      (g.rollbackProcedure w.journal restartOld tape' w').state.current = some ⟨v, p⟩ := by
  intro h
  have hlost := h engine (running (some "0")) (switched (some "0")) (switched (some "0")) "1"
    (some "0") (List.replicate 8 served) (List.replicate 40 served) false rfl (by decide +kernel)
    (found_reaches (some "0")) (by decide +kernel)
  exact absurd hlost (by decide +kernel)

end Gamer.Updater
