import Gamer.Updater.Refinement.Rules

/-! The restore of a snapshot and the rollback around it. From `rolling begun` a rollback that
    succeeds has passed through all its phases; one that fails stands in any of them. -/

namespace Gamer.Updater.Transaction
open Gamer.Lib Gamer.Lib.Prog

/-- The backup has this manifest. -/
def Listed (id : String) (m : SnapshotManifest) (w : World) : Prop :=
  ∃ snap, w.backups.get id = some snap ∧ snap.manifest = some m

/-- The stage holds these paths of the backup. -/
def Copied (id : String) (stage : Tree) (paths : List Rel) (w : World) : Prop :=
  ∃ snap, w.backups.get id = some snap ∧
    ∀ r, stage.get r = if r ∈ paths then snap.tree.get r else none

theorem Listed.stable {id : String} {m : SnapshotManifest} : Stable (Listed id m) := by
  intro w e h
  simpa [Listed] using h

theorem Copied.stable {id : String} {stage : Tree} {paths : List Rel} :
    Stable (Copied id stage paths) := by
  intro w e h
  simpa [Copied] using h

theorem Copied.put {id : String} {stage : Tree} {paths : List Rel} {w : World} {r : Rel}
    {content : String} (h : Copied id stage paths w)
    (hr : (w.backups.get id).bind (·.tree.get r) = some content) :
    Copied id (stage.put content r) (paths ++ [r]) w := by
  obtain ⟨snap, hsnap, hget⟩ := h
  refine ⟨snap, hsnap, fun r' => ?_⟩
  rw [hsnap, Option.bind_some] at hr
  rw [Tree.get_put, hget]
  by_cases heq : r' = r
  · simp [heq, hr]
  · simp [heq]

theorem Copied.staged {id : String} {stage : Tree} {m : SnapshotManifest} {w : World}
    (hm : Listed id m w) (h : Copied id stage (m.files.map (·.path)) w) : Staged w id stage := by
  obtain ⟨snap, hsnap, hmanifest⟩ := hm
  obtain ⟨snap', hsnap', hget⟩ := h
  cases hsnap.symm.trans hsnap'
  exact ⟨snap, m, hsnap, hmanifest, hget⟩

section
variable {c : Setting} {start : Phase × World} {ph : Phase} {F : World → Prop}

/-! ### The restore -/

theorem verify_rule (hF : Stable F) (sha : String → String) (id : String) :
    Triple (At c start ph F) (Snapshot.verify sha id)
      (either (fun _ => At c start ph F)
        fun m => At c start ph fun w => F w ∧ Listed id m w) (Covered c start) := by
  refine act_rule hF fun e w hw => ?_
  split
  · exact hw
  · split
    · exact hw
    · next tree m hfind =>
      split
      · obtain ⟨snap, hsnap, hm⟩ := Option.bind_eq_some_iff.mp hfind
        obtain ⟨m', hm', heq⟩ := Option.map_eq_some_iff.mp hm
        cases heq
        exact ⟨hw.1, hw.2, snap, hsnap, hm'⟩
      · exact hw

theorem stageFiles_rule (hF : Stable F) (id : String) (files : List SnapshotFile) (stage : Tree)
    (paths : List Rel) :
    Triple (At c start ph fun w => F w ∧ Copied id stage paths w)
      (Snapshot.stageFiles id files stage)
      (either (fun _ => Covered c start) fun stage' => At c start ph fun w =>
        F w ∧ Copied id stage' (paths ++ files.map (·.path)) w) (Covered c start) := by
  induction files generalizing stage paths with
  | nil => exact .pure fun w hw => by simpa [either] using hw
  | cons f rest ih =>
    have hcopy : Triple (At c start ph fun w => F w ∧ Copied id stage paths w)
        (Snapshot.stageFile id f stage)
        (either (fun _ => Covered c start) fun stage' => At c start ph fun w =>
          F w ∧ Copied id stage' (paths ++ [f.path]) w) (Covered c start) := by
      refine act_rule (hF.and Copied.stable) fun e w hw => ?_
      split
      · next hfind => exact ⟨hw.1, hw.2.1, hw.2.2.put hfind⟩
      · exact hw.covered
    refine hcopy.andThen (fun _ _ h => h) fun stage' => (ih stage' (paths ++ [f.path])).post ?_
    intro r w hw
    cases r
    · exact hw
    · simpa [either] using hw

end

section
variable {c : Setting} {start : Phase × World} {journal : UpdateJournal} {info : SnapshotInfo}
  {stage : Tree} {m : SnapshotManifest}

/-- What the moves of a swap rely on: a journal that lets them restore, and a complete stage. -/
structure Swapping (journal : UpdateJournal) (info : SnapshotInfo) (stage : Tree)
    (m : SnapshotManifest) (w : World) : Prop where
  follows : Follows journal w
  allowed : Engine.restoresFrom w.journal.state
  snapshot : w.journal.snapshot = some info
  listed : Listed info.id m w
  copied : Copied info.id stage (m.files.map (·.path)) w

theorem Swapping.stable : Stable (Swapping journal info stage m) := fun w e h =>
  ⟨Follows.stable journal w e h.follows, by simpa using h.allowed, by simpa using h.snapshot,
    Listed.stable w e h.listed, Copied.stable w e h.copied⟩

theorem Swapping.staged {w : World} (h : Swapping journal info stage m w) :
    Staged w info.id stage :=
  h.copied.staged h.listed

/-- The moves of a swap do not touch the journal and the backups. -/
theorem Swapping.frame {w w' : World} (h : Swapping journal info stage m w)
    (hjournal : w'.journal = w.journal) (hbackups : w'.backups = w.backups) :
    Swapping journal info stage m w' := by
  obtain ⟨hfollows, hallowed, hsnapshot, hlisted, hcopied⟩ := h
  constructor
  · simpa [Follows, hjournal] using hfollows
  · simpa [hjournal] using hallowed
  · simpa [hjournal] using hsnapshot
  · simpa [Listed, hbackups] using hlisted
  · simpa [Copied, hbackups] using hcopied

theorem createQuarantine_rule :
    Triple (At c start (.rolling .begun) (Swapping journal info stage m)) Snapshot.createQuarantine
      (either (fun _ => Covered c start)
        fun _ => At c start (.rolling .begun) (Swapping journal info stage m))
      (Covered c start) := by
  refine act_rule Swapping.stable fun e w hw => ?_
  split
  · exact hw
  · exact hw.covered

theorem takeData_rule :
    Triple (At c start (.rolling .begun) (Swapping journal info stage m)) Snapshot.takeData
      (either (fun _ => Covered c start)
        fun _ => At c start (.rolling .begun) (Swapping journal info stage m))
      (Covered c start) := by
  refine act_rule Swapping.stable fun e w hw => ?_
  split
  · exact hw
  · next files hdata =>
    split
    · exact hw.step (.takesData hw.2.allowed hdata) (hw.2.frame rfl rfl)
    · exact hw.covered

theorem takeConfig_rule :
    Triple (At c start (.rolling .begun) (Swapping journal info stage m)) Snapshot.takeConfig
      (either (fun _ => Covered c start)
        fun _ => At c start (.rolling .bare) (Swapping journal info stage m))
      (Covered c start) := by
  refine act_rule Swapping.stable fun e w hw => ?_
  split
  · next hconfig => exact hw.step (.lacksConfig hw.2.allowed hconfig) hw.2
  · next content hconfig =>
    split
    · exact hw.step (.takesConfig hw.2.allowed hconfig) (hw.2.frame rfl rfl)
    · exact hw.covered

theorem putData_rule :
    Triple (At c start (.rolling .bare) (Swapping journal info stage m)) (Snapshot.putData stage)
      (either (fun _ => Covered c start)
        fun _ => At c start (.rolling .dataIn) (Swapping journal info stage m))
      (Covered c start) := by
  refine act_rule Swapping.stable fun e w hw => ?_
  split
  · next hfree =>
    have hnone : w.data = none := Option.isNone_iff_eq_none.mp (Bool.and_eq_true_iff.mp hfree).2
    exact hw.step (.putsData hw.2.allowed hnone hw.2.snapshot hw.2.staged) (hw.2.frame rfl rfl)
  · exact hw.covered

/-- Where the manifest lists no configuration there is none in the stage. -/
theorem putConfig_rule :
    Triple (At c start (.rolling .dataIn) (Swapping journal info stage m))
      (Snapshot.putConfig stage m)
      (either (fun _ => Covered c start)
        fun _ => At c start (.rolling .filled) (Swapping journal info stage m))
      (Covered c start) := by
  unfold Snapshot.putConfig
  split
  · refine act_rule Swapping.stable fun e w hw => ?_
    split
    · next hconfig =>
      exact hw.step (.putsConfig hw.2.allowed hconfig hw.2.snapshot hw.2.staged)
        (hw.2.frame rfl rfl)
    · exact hw.covered
  · next hlists =>
    refine .pure fun w hw => ?_
    obtain ⟨snap, hget, hcopied⟩ := hw.2.copied
    have hunlisted : Rel.config ∉ m.files.map (·.path) := by
      simpa using hlists
    have hnone : stage.get .config = none := by
      rw [hcopied, if_neg hunlisted]
    exact hw.step (.leavesConfig hw.2.allowed hnone hw.2.snapshot hw.2.staged) hw.2

theorem verifyLive_rule (sha : String → String) :
    Triple (At c start (.rolling .filled) (Swapping journal info stage m))
      (Snapshot.verifyLive sha m)
      (either (fun _ => Covered c start)
        fun _ => At c start (.rolling .filled) (Swapping journal info stage m))
      (Covered c start) := by
  refine act_rule Swapping.stable fun e w hw => ?_
  split
  · exact hw
  · exact hw.covered

theorem finishRestore_rule :
    Triple (At c start (.rolling .filled) (Swapping journal info stage m)) Snapshot.finishRestore
      (either (fun _ => Covered c start) fun _ => At c start (.rolling .whole) (Follows journal))
      (Covered c start) := by
  refine act_rule Swapping.stable fun e w hw => ?_
  split
  · exact hw.step .restores hw.2.follows
  · exact hw.covered

theorem swapIn_rule (sha : String → String) (info : SnapshotInfo) :
    Triple (At c start (.rolling .begun) (Swapping journal info stage m))
      (Snapshot.swapIn sha stage m)
      (either (fun _ => Covered c start) fun _ => At c start (.rolling .whole) (Follows journal))
      (Covered c start) :=
  createQuarantine_rule.andThen (fun _ _ h => h) fun _ =>
  takeData_rule.andThen (fun _ _ h => h) fun _ =>
  takeConfig_rule.andThen (fun _ _ h => h) fun _ =>
  putData_rule.andThen (fun _ _ h => h) fun _ =>
  putConfig_rule.andThen (fun _ _ h => h) fun _ =>
  (verifyLive_rule sha).andThen (fun _ _ h => h) fun _ =>
  finishRestore_rule

/-- A restore that succeeds has put the files of the snapshot in place. -/
theorem restore_rule (sha : String → String) (hstate : Engine.restoresFrom journal.state)
    (hinfo : journal.snapshot = some info) :
    Triple (At c start (.rolling .begun) (Follows journal)) (Snapshot.restore sha info.id)
      (either (fun _ => Covered c start) fun _ => At c start (.rolling .whole) (Follows journal))
      (Covered c start) := by
  refine (verify_rule (Follows.stable journal) sha info.id).andThen (fun _ _ h => h.covered)
    fun m => ?_
  have hlisted : Stable fun w => Follows journal w ∧ Listed info.id m w :=
    (Follows.stable journal).and Listed.stable
  have hstage : Triple (At c start (.rolling .begun) fun w => Follows journal w ∧ Listed info.id m w)
      Snapshot.createStage (either (fun _ => Covered c start) fun _ =>
        At c start (.rolling .begun) fun w => (Follows journal w ∧ Listed info.id m w) ∧
          Copied info.id .empty [] w) (Covered c start) := by
    refine act_rule hlisted fun e w hw => ?_
    split
    · obtain ⟨snap, hsnap, -⟩ := hw.2.2
      exact ⟨hw.1, hw.2, snap, hsnap, fun r => by cases r <;> rfl⟩
    · exact hw.covered
  refine hstage.andThen (fun _ _ h => h) fun _ => ?_
  refine (stageFiles_rule hlisted info.id m.files .empty []).andThen (fun _ _ h => h)
    fun stage => ?_
  split
  · refine (swapIn_rule sha info).pre fun w hw => hw.mono fun w hw => ?_
    obtain ⟨⟨hfollows, hm⟩, hcopied⟩ := hw
    exact ⟨hfollows, hfollows.1 ▸ hstate, hfollows.2.1.trans hinfo, hm, by simpa using hcopied⟩
  · exact .pure fun w hw => hw.covered

end

/-! ### The rollback -/

section
variable {c : Setting} {start : Phase × World} {ph : Phase} {F : World → Prop}
  {journal : UpdateJournal}

theorem enterManualRecovery_rule (err : BusinessError) :
    Triple (Covered c start) (enterManualRecovery err) (fun _ => Covered c start)
      (Covered c start) := by
  refine covered_rule fun ph => ?_
  refine (mutate_rule .settling (fun _ => True) (fun _ _ h => h)
    (fun w _ => .givesIn rfl) fun _ h => h).bind fun r => .pure fun w hw => ?_
  cases r <;> exact ⟨_, hw.1⟩

theorem stopRecorded_rule (hF : Stable F)
    (hends : ∀ w : World, F w → F { w with candidate := none }) :
    Triple (At c start ph F) (Engine.stopRecorded journal) (fun _ => At c start ph F)
      (Covered c start) := by
  unfold Engine.stopRecorded
  split
  · exact .pure fun _ hw => hw
  · split
    · refine act_rule hF fun e w hw => ?_
      split
      · exact hw.step (.ends ph w) (hends w hw.2)
      · exact hw
    · exact .pure fun _ hw => hw

theorem restartOldAndVerify_rule (hF : Stable F) :
    Triple (At c start ph F) Engine.restartOldAndVerify (fun _ => At c start ph F)
      (Covered c start) := by
  refine (loadCurrent_rule hF).bind fun r => ?_
  split
  · exact (ask_rule hF).bind fun e => .pure fun _ hw => hw
  · exact .pure fun _ hw => hw

theorem restartIf_rule (hF : Stable F) (restartOld : Bool) :
    Triple (At c start ph F) (Engine.restartIf restartOld) (fun _ => At c start ph F)
      (Covered c start) := by
  unfold Engine.restartIf
  split
  · exact restartOldAndVerify_rule hF
  · exact .pure fun _ hw => hw

theorem restoreSnapshot_rule (g : Engine) :
    Triple (At c start (.rolling .begun) (Follows journal)) (g.restoreSnapshot journal)
      (either (fun _ => Covered c start) fun _ => At c start (.rolling .whole) (Follows journal))
      (Covered c start) := by
  unfold Engine.restoreSnapshot
  split
  · next hstate =>
    split
    · exact .pure fun w hw => hw.covered
    · next info hinfo =>
      exact (restore_rule g.sha hstate hinfo).orFail (fun _ => .pure fun _ h => h)
        fun _ => .pure fun _ h => h
  · next hstate =>
    refine .pure fun w hw => hw.step (.skips ?_) hw.2
    rw [hw.2.1]
    exact Bool.eq_false_iff.mpr hstate

/-- The journal is closed only after the pointer is back. -/
theorem pointBack_rule (restartOld : Bool) :
    Triple (At c start (.rolling .whole) (Follows journal)) (Engine.pointBack journal restartOld)
      (either (fun _ => Covered c start)
        fun _ => At c start .settling fun w => w.journal.state = .idle) (Covered c start) := by
  unfold Engine.pointBack
  split
  · exact .pure fun w hw => hw.covered
  · next target htarget =>
    have hfollows := Follows.stable journal
    refine (writeCurrent_rule (.rolling .pointed) (Follows journal) hfollows
      (fun w hw => .pointsBack (hw.2.2.trans htarget)) fun w hw => hw).orFail
      (fun _ => .pure fun w hw => hw.covered) fun _ => ?_
    refine (restartIf_rule hfollows restartOld).bind fun ready => ?_
    split
    · exact (mutate_rule .settling (fun w => w.journal.state = .idle) hfollows
        (fun w hw => .rolledBack rfl) fun w hw => rfl).andThen (fun _ _ hw => hw.covered)
        fun _ => .pure fun _ hw => hw
    · exact .pure fun w hw => hw.covered

/-- A rollback that succeeds ends with an idle journal. -/
theorem rollbackProcedure_rule (g : Engine) (restartOld : Bool)
    (hstate : Engine.rollbackable journal.state) (hph : ph = .installing ∨ ph = .settling) :
    Triple (At c start ph (Follows journal)) (g.rollbackProcedure journal restartOld)
      (either (fun _ => Covered c start)
        fun _ => At c start .settling fun w => w.journal.state = .idle) (Covered c start) := by
  have hfollows := Follows.stable journal
  have hnote : Triple (At c start (.rolling .begun) (Follows journal))
      (mutateJournal (UpdateJournal.note "rolling_back"))
      (fun _ => At c start (.rolling .begun) (Follows journal)) (Covered c start) :=
    note_rule _ hfollows (fun _ => rfl) (fun _ => ⟨rfl, rfl⟩) fun w hw => hw
  refine Triple.pre (hnote.bind fun _ => ?_) fun w hw =>
    hw.step (.rolls hph (hw.2.1 ▸ hstate)) hw.2
  refine (stopRecorded_rule hfollows fun w hw => hw).bind fun _ => ?_
  exact (restoreSnapshot_rule g).andThen (fun _ _ h => h) fun _ => pointBack_rule restartOld

end

end Gamer.Updater.Transaction
