import Gamer.Lib.Watch
import Gamer.Updater.Places
import Gamer.Updater.Unpacked

/-! What a repair that fails leaves behind. The repair is watched where it reads the archive, where
    it removes the staging directory, where it moves the old directory back, and where it checks
    the new one in its place:

        new directory in place ─▶ check fails ─▶ Failed, and the new directory stays in place -/

namespace Gamer.Updater.Repair
open Gamer.Lib Gamer.Lib.Prog Gamer.Updater.Files Gamer.Updater.Archive

/-- What is watched of a repair. -/
inductive Note where
  /-- The archive that is unpacked. -/
  | archive (file : Bytes)
  /-- The staging directory could not be removed. -/
  | stagingLeft
  /-- The old directory could not be moved back. -/
  | notMovedBack
  /-- The new directory, in its place, did not pass the check. -/
  | refuted
  deriving DecidableEq

abbrev Watched (α : Type) := Prog Answer (World × List Note) α

def Note.onError {χ α : Type} (note : Note) : Except χ α → List Note
  | .error _ => [note]
  | .ok _ => []

def Note.onRead {χ : Type} : Except χ Bytes → List Note
  | .error _ => []
  | .ok file => [.archive file]

def Note.onCheck (finding : ComponentFinding) : List Note := if finding.ok then [] else [.refuted]

namespace Watched
variable (sha256 : Bytes → String) (lower : String → String)
  (library : Bytes → Except String Zip) (c : Call)

def extract (zipPath : Path) : Watched (Except ArchiveError Unit) :=
  (prepareFreshStaging c.staging).beside.andThen fun _ =>
  ((orElse .open (readFile zipPath)).watch Note.onRead).andThen fun file =>
  match openArchive library file with
  | .error x => Prog.give (.error x)
  | .ok zip => (unpack c.layout.fold sha256 lower c.staging (some (requiredOf c.spec))
      (extractLimits c.spec) zip).beside

def stage (archive : Path) : Watched (Except StagedError Unit) :=
  (extract sha256 lower library c archive).orFail (fun e => Prog.give (.error (.archive e)))
    fun _ =>
  (checkComponent c.layout.fold sha256 c.staging c.spec ⟨true, false⟩).beside >>= fun finding =>
  if finding.ok then Prog.give (.ok ()) else Prog.give (.error (.recheck finding))

def abandon (reason : Reason) : Watched Outcome :=
  (cleanupDir c.staging).watch Note.stagingLeft.onError >>= fun _ => Prog.give (.failed reason)

def undo (quarantined : Bool) (text : String) : Watched Outcome :=
  (moveBack c quarantined).watch Note.notMovedBack.onError >>= fun back =>
  abandon c (.installMove text quarantined back.toBool)

def recheck (source : Source) : Watched Outcome :=
  (checkComponent c.layout.fold sha256 c.dir c.spec ⟨true, c.probe⟩).watch Note.onCheck >>=
    fun finding =>
  if finding.ok then Prog.give (.repaired source) else Prog.give (.failed (.recheck finding))

def install (source : Source) : Watched Outcome :=
  (stage sha256 lower library c (artifactPath c.layout c.spec.artifactName source)).orFail
    (fun e => abandon c (.staged e)) fun _ =>
  (quarantineOld c).beside.orFail (fun text => abandon c (.quarantine text)) fun quarantined =>
  (moveIn c).beside.orFail (undo c quarantined) fun _ =>
  recheck sha256 c source

def repairOne : Watched Outcome :=
  if c.paused then Prog.give (.failed .paused)
  else
    (knownGood sha256 c).beside >>= fun good =>
    if good then Prog.give .healthy
    else
      (checkComponent c.layout.fold sha256 c.dir c.spec ⟨true, c.probe⟩).beside >>= fun finding =>
      if finding.ok then Prog.give .healthy
      else
        (obtainArtifact c.layout c.spec.artifactName).beside.orFail
          (fun text => Prog.give (.failed (.fetch text))) fun source =>
        install sha256 lower library c source

variable {sha256 lower library c}

theorem extract_erases (zipPath : Path) :
    Erases (extract sha256 lower library c zipPath)
      (extractComponentZip c.layout.fold sha256 lower library zipPath c.staging
        (requiredOf c.spec) (extractLimits c.spec)) := by
  refine Erases.beside.andThen fun _ => Erases.watch.andThen fun file => ?_
  cases openArchive library file with
  | error x => exact Erases.give
  | ok zip => exact Erases.beside

theorem stage_erases (archive : Path) :
    Erases (stage sha256 lower library c archive)
      (Repair.stage sha256 lower library c archive) := by
  refine (extract_erases archive).orFail (fun _ => Erases.give) fun _ => ?_
  refine Erases.beside.bind fun finding => ?_
  split <;> exact Erases.give

theorem abandon_erases (reason : Reason) : Erases (abandon c reason) (Repair.abandon c reason) :=
  Erases.watch.bind fun _ => Erases.give

theorem undo_erases (quarantined : Bool) (text : String) :
    Erases (undo c quarantined text) (Repair.undo c quarantined text) :=
  Erases.watch.bind fun _ => abandon_erases _

theorem recheck_erases (source : Source) :
    Erases (recheck sha256 c source) (Repair.recheck sha256 c source) := by
  refine Erases.watch.bind fun finding => ?_
  split <;> exact Erases.give

theorem install_erases (source : Source) :
    Erases (install sha256 lower library c source)
      (Repair.install sha256 lower library c source) :=
  (stage_erases _).orFail (fun _ => abandon_erases _) fun _ =>
    Erases.beside.orFail (fun _ => abandon_erases _) fun quarantined =>
    Erases.beside.orFail (undo_erases quarantined) fun _ => recheck_erases source

/-- The watched repair is the repair. -/
theorem repairOne_erases :
    Erases (repairOne sha256 lower library c) (Repair.repairOne sha256 lower library c) := by
  unfold repairOne Repair.repairOne
  split
  · exact Erases.give
  · refine Erases.beside.bind fun good => ?_
    split
    · exact Erases.give
    · refine Erases.beside.bind fun finding => ?_
      split
      · exact Erases.give
      · exact Erases.beside.orFail (fun _ => Erases.give) fun source => install_erases source

end Watched

/-! ### What the parts leave alone -/

section Frames
variable {sha256 : Bytes → String} {lower fold : String → String}
  {library : Bytes → Except String Zip} {c : Call} {p : Path}

theorem checkFiles_keeps (dir : Path) (deep : Bool) (files : List FileSpec) :
    Keeps id (checkFiles fold sha256 dir deep files) := by
  induction files with
  | nil => exact Keeps.give
  | cons f rest ih =>
    exact (Keeps.effect fun _ _ => rfl).bind fun _ => ih.bind fun _ => Keeps.give

theorem probeComponent_keeps (id' : String) (dir : Path) (version : String) :
    Keeps id (probeComponent fold id' dir version) := by
  unfold probeComponent
  cases probeKind id' with
  | none => exact Keeps.give
  | some kind => exact Keeps.effect fun _ _ => rfl

theorem checkComponent_keeps (dir : Path) (spec : ComponentSpec) (opts : CheckOptions) :
    Keeps id (checkComponent fold sha256 dir spec opts) := by
  refine Keeps.reading fun w => Keeps.bind ?_ fun files => Keeps.bind ?_ fun probe => Keeps.give
  · split
    · exact checkFiles_keeps _ _ _
    · exact Keeps.give
  · split
    · exact (probeComponent_keeps _ _ _).bind fun _ => Keeps.give
    · exact Keeps.give

theorem verifyAll_keeps (dir : Path) (files : List FileSpec) :
    Keeps id (verifyAll fold sha256 dir files) := by
  induction files with
  | nil => exact Keeps.give
  | cons f rest ih =>
    refine (Keeps.effect fun _ _ => rfl).bind fun ok => ?_
    split
    · exact ih
    · exact Keeps.give

theorem knownGood_keeps : Keeps id (knownGood sha256 c) := by
  unfold knownGood
  split
  · exact verifyAll_keeps _ _
  · exact Keeps.give

/-- FRAME: an artifact is obtained in the cache. -/
theorem obtainArtifact_keeps {name : String} (h : ∀ y, ¬ p <+: c.layout.top "cache" ++ y) :
    Keeps (fun w => w.tree.get p) (obtainArtifact c.layout name) := by
  unfold obtainArtifact
  split
  · exact Keeps.give
  · refine (Keeps.effect fun _ _ => rfl).andThen fun source => ?_
    split
    · refine (createDirAll_keeps_get (h _)).andThen fun _ => ?_
      refine (Keeps.effect fun e w => ?_).andThen fun _ => Keeps.give
      split
      · refine FileTree.get_set_ne ?_
        rintro rfl
        refine h ([c.layout.fold "artifacts"] ++ [c.layout.fold name]) ?_
        rw [artifactPath, Layout.artifactsDir, List.append_assoc]
      · rfl
    · exact Keeps.give

/-- The component's directory is away from the staging directory. -/
theorem dir_away (r : Path) : Away c.staging (c.dir ++ r) := by
  refine ⟨fun hunder => ?_, fun hpre => ?_⟩
  · exact c.apart.stagingDir [] r (by simpa using hunder.1)
  · exact c.apart.dirStaging r [] (by simpa using hpre)

end Frames

/-! ### The phases -/

/-- What stands at a path and below it is what stood there. -/
def Same (p : Path) (w₀ w : World) : Prop := ∀ r, w.tree.get (p ++ r) = w₀.tree.get (p ++ r)

/-- Nothing stands at a path and below it. -/
def Gone (p : Path) (w : World) : Prop := ∀ r, w.tree.get (p ++ r) = none

/-- The promise: the component's directory is as it was, and no staging directory is there that was
    not there before. -/
structure LeftOld (c : Call) (w₀ w : World) : Prop where
  dir : Same c.dir w₀ w
  staging : w.tree.has c.staging = true → w₀.tree.has c.staging = true

/-- When it is kept: the staging directory could be removed, and the new directory passed its check
    in its place, or is no other than the old one. -/
structure Unharmed (library : Bytes → Except String Zip) (c : Call) (w₀ : World)
    (notes : List Note) : Prop where
  removed : Note.stagingLeft ∈ notes → w₀.tree.has c.staging = true
  passed : Note.refuted ∈ notes → ∀ file zip, Note.archive file ∈ notes →
    openArchive library file = .ok zip →
    ∀ r, w₀.tree.get (c.dir ++ r) = unpacked c.layout.fold zip r

/-- What is to be shown of the end of a run. -/
def Judged (library : Bytes → Except String Zip) (c : Call) (w₀ : World) (o : Outcome)
    (s : World × List Note) : Prop :=
  ∀ reason, o = .failed reason → Note.notMovedBack ∉ s.2 →
    (LeftOld c w₀ s.1 ↔ Unharmed library c w₀ s.2)

section Phases
variable {sha256 : Bytes → String} {lower : String → String}
  {library : Bytes → Except String Zip} {c : Call} {w₀ : World} {notes : List Note}

theorem Same.frame {α : Type} {p : Path} {q : Prog Answer World α}
    (h : ∀ r, Keeps (fun w => w.tree.get (p ++ r)) q) :
    Triple (Same p w₀) q (fun _ => Same p w₀) fun _ => True :=
  (Triple.of_state fun tape w hw r => (h r tape w).trans (hw r)).cuts fun _ _ => trivial

theorem has_iff {p : Path} {w : World} : w.tree.has p = true ↔ w.tree.get p ≠ none := by
  simp [FileTree.has, Option.isSome_iff_ne_none]

theorem Gone.of_get {p : Path} {w : World} (h : w.tree.get p = none) : Gone p w := by
  intro r
  cases r with
  | nil => simpa using h
  | cons x r => exact FileTree.get_below (by simp [h]) (by simp)

/-- Cleaning up leaves the component's directory alone. -/
theorem cleanupDir_rule :
    Triple (Same c.dir w₀) (cleanupDir c.staging)
      (either (fun _ w => Same c.dir w₀ w ∧ w.tree.has c.staging = true) fun _ w =>
        Same c.dir w₀ w ∧ w.tree.has c.staging = false) fun _ => True := by
  obtain ⟨s, hs, hstaging⟩ := c.staging_eq
  have hne : c.staging ≠ [] := by simp [hstaging, hs]
  have haway : ∀ r, ¬ c.staging <+: c.dir ++ r := fun r hpre =>
    c.apart.stagingDir [] r (by simpa using hpre)
  refine Triple.reading fun w hw => ?_
  split
  case isTrue hhas =>
    refine Triple.effect (fun _ _ => trivial) ?_
    rintro e t ⟨ht, rfl⟩
    split
    · refine ⟨fun r => (FileTree.get_delBut (haway r)).trans (ht r), ?_⟩
      exact FileTree.has_eq_false.mpr (FileTree.get_delAll hne (List.prefix_refl _))
    · refine ⟨fun r => (FileTree.get_delBut (haway r)).trans (ht r), ?_⟩
      refine has_iff.mpr ?_
      rw [FileTree.get_delBut_left]
      · exact has_iff.mp hhas
      · simp
  case isFalse hhas =>
    refine Triple.give ?_
    rintro t ⟨ht, rfl⟩
    exact ⟨ht, by simpa using hhas⟩

/-- A repair that is given up with the old directory in place keeps the promise, unless the staging
    directory cannot be removed. -/
theorem abandon_rule {reason : Reason} (hleft : Note.stagingLeft ∉ notes)
    (hrefuted : Note.refuted ∉ notes) :
    Triple (fun s => Same c.dir w₀ s.1 ∧ s.2 = notes) (Watched.abandon c reason)
      (Judged library c w₀) fun _ => True := by
  refine (Triple.watch cleanupDir_rule).bind fun r => Triple.give ?_
  rintro s ⟨hs, hnotes⟩ _ _ _
  cases r with
  | error text =>
    obtain ⟨hdir, hhas⟩ := hs
    constructor
    · intro hold
      refine ⟨fun _ => hold.staging hhas, fun hmem => ?_⟩
      simp [hnotes, Note.onError, hrefuted] at hmem
    · intro hunharmed
      refine ⟨hdir, fun _ => hunharmed.removed ?_⟩
      simp [hnotes, Note.onError]
  | ok =>
    obtain ⟨hdir, hhas⟩ := hs
    refine iff_of_true ⟨hdir, fun h => by simp [hhas] at h⟩ ⟨fun hmem => ?_, fun hmem => ?_⟩
    · simp [hnotes, Note.onError, hleft] at hmem
    · simp [hnotes, Note.onError, hrefuted] at hmem

/-- Before the new directory is in place the archive is all that is noted. -/
def Early (notes : List Note) : Prop := notes = [] ∨ ∃ file, notes = [Note.archive file]

theorem Early.notMem (h : Early notes) {note : Note} (hnote : ∀ file, note ≠ .archive file) :
    note ∉ notes := by
  rcases h with rfl | ⟨file, rfl⟩
  · simp
  · simpa using hnote file

theorem Same.kept {α : Type} {p : Path} {q : Prog Answer World α} (h : Keeps id q) :
    Triple (Same p w₀) q (fun _ => Same p w₀) fun _ => True :=
  Same.frame fun _ => h.of_id

/-- What is known of the staging directory when the archive is unpacked and checked. -/
def Ready (library : Bytes → Except String Zip) (c : Call) (file : Bytes) (w : World) : Prop :=
  ∃ zip, openArchive library file = .ok zip ∧ Holds c.staging (unpacked c.layout.fold zip) w

/-- The archive is unpacked away from the component's directory. -/
theorem extract_rule (zipPath : Path) :
    Triple (fun s => Same c.dir w₀ s.1 ∧ s.2 = [])
      (Watched.extract sha256 lower library c zipPath)
      (either (fun _ s => Same c.dir w₀ s.1 ∧ Early s.2) fun _ s =>
        Same c.dir w₀ s.1 ∧ ∃ file, s.2 = [.archive file] ∧ Ready library c file s.1)
      fun _ => True := by
  have hprepare : Triple (Same c.dir w₀) (prepareFreshStaging c.staging)
      (either (fun _ => Same c.dir w₀) fun _ w => Same c.dir w₀ w ∧ Holds c.staging emptyDir w)
      fun _ => True := by
    refine ((((Same.frame fun r => prepareFreshStaging_keeps_get (dir_away r)).both
      prepareFreshStaging_ok).cuts fun _ _ => trivial).pre fun w hw => ⟨hw, trivial⟩).post
      fun r w hw => ?_
    cases r with
    | error x => exact hw.1
    | ok => exact hw
  have hread : Triple (fun w => Same c.dir w₀ w ∧ Holds c.staging emptyDir w)
      (orElse .open (readFile zipPath))
      (either (fun _ => Same c.dir w₀) fun _ w => Same c.dir w₀ w ∧ Holds c.staging emptyDir w)
      fun _ => True := by
    have hkeeps : Keeps id (orElse .open (readFile zipPath)) := orElse_keeps (readFile_keeps zipPath)
    refine (((Same.kept hkeeps).both (Holds.kept hkeeps)).cuts fun _ _ => trivial).post
      fun r w hw => ?_
    cases r with
    | error x => exact hw.1
    | ok => exact hw
  refine Triple.andThen (E := fun _ s => Same c.dir w₀ s.1 ∧ s.2 = [])
    (K := fun _ s => (Same c.dir w₀ s.1 ∧ Holds c.staging emptyDir s.1) ∧ s.2 = [])
    ((Triple.beside hprepare).post fun r s hs => by cases r <;> exact hs)
    (fun _ _ hs => ⟨hs.1, .inl hs.2⟩) fun _ => ?_
  refine Triple.andThen (E := fun _ s => Same c.dir w₀ s.1 ∧ s.2 = [])
    (K := fun file s => (Same c.dir w₀ s.1 ∧ Holds c.staging emptyDir s.1) ∧ s.2 = [.archive file])
    ((Triple.watch hread).post fun r s hs => by cases r <;> exact hs)
    (fun _ _ hs => ⟨hs.1, .inl hs.2⟩) fun file => ?_
  cases hopen : openArchive library file with
  | error x => exact Triple.give fun s hs => ⟨hs.1.1, .inr ⟨file, hs.2⟩⟩
  | ok zip =>
    have hunpack : Triple (fun w => Same c.dir w₀ w ∧ Holds c.staging emptyDir w)
        (unpack c.layout.fold sha256 lower c.staging (some (requiredOf c.spec))
          (extractLimits c.spec) zip)
        (fun r w => Same c.dir w₀ w ∧
          either (fun _ _ => True) (fun _ => Holds c.staging (unpacked c.layout.fold zip)) r w)
        fun _ => True :=
      ((Same.frame fun r => unpack_keeps (dir_away r)).both unpack_ok).cuts fun _ _ => trivial
    refine (Triple.beside hunpack).post fun r s hs => ?_
    cases r with
    | error x => exact ⟨hs.1.1, .inr ⟨file, hs.2⟩⟩
    | ok => exact ⟨hs.1.1, file, hs.2, zip, hopen, hs.1.2⟩

theorem Ready.frame {α : Type} {file : Bytes} {q : Prog Answer World α}
    (h : ∀ r, Keeps (fun w => w.tree.get (c.staging ++ r)) q) :
    Triple (Ready library c file) q (fun _ => Ready library c file) fun _ => True := by
  refine (Triple.of_state fun tape w hw => ?_).cuts fun _ _ => trivial
  obtain ⟨zip, hopen, hholds⟩ := hw
  exact ⟨zip, hopen, fun r => (h r tape w).trans (hholds r)⟩

theorem stage_rule (archive : Path) :
    Triple (fun s => Same c.dir w₀ s.1 ∧ s.2 = [])
      (Watched.stage sha256 lower library c archive)
      (either (fun _ s => Same c.dir w₀ s.1 ∧ Early s.2) fun _ s =>
        ∃ file, (Same c.dir w₀ s.1 ∧ Ready library c file s.1) ∧ s.2 = [.archive file])
      fun _ => True := by
  refine (extract_rule archive).orFail (fun e => Triple.give fun s hs => hs) fun _ => ?_
  refine Triple.bind (Q := fun _ s =>
    ∃ file, (Same c.dir w₀ s.1 ∧ Ready library c file s.1) ∧ s.2 = [.archive file]) ?_
    fun finding => ?_
  · suffices h : ∀ file, Triple (fun s => (Same c.dir w₀ s.1 ∧ Ready library c file s.1) ∧
        s.2 = [.archive file])
        (checkComponent c.layout.fold sha256 c.staging c.spec ⟨true, false⟩).beside
        (fun _ s => ∃ file, (Same c.dir w₀ s.1 ∧ Ready library c file s.1) ∧
          s.2 = [Note.archive file]) fun _ => True from
      (Triple.ex h).pre fun s ⟨hdir, file, hnotes, hready⟩ => ⟨file, ⟨hdir, hready⟩, hnotes⟩
    intro file
    have hkeeps : Keeps id (checkComponent c.layout.fold sha256 c.staging c.spec ⟨true, false⟩) :=
      checkComponent_keeps _ _ _
    exact (Triple.beside ((Same.kept hkeeps).both (Ready.frame fun _ => hkeeps.of_id))).post
      fun _ s hs => ⟨file, hs⟩
  · split
    · exact Triple.give fun s hs => hs
    · exact Triple.give fun s ⟨file, hs, hnotes⟩ => ⟨hs.1, .inr ⟨file, hnotes⟩⟩

theorem renameDir_rule (p q : Path) (w₁ : World) :
    Triple (fun w => w = w₁) (renameDir p q)
      (either (fun _ w => w = w₁) fun _ w =>
        w₁.tree.movable p q = true ∧ w.tree = w₁.tree.move p q) fun _ => True := by
  refine Triple.effect (fun _ _ => trivial) ?_
  rintro e w rfl
  split
  case isTrue h =>
    simp only [Bool.and_eq_true] at h
    exact ⟨h.2, rfl⟩
  case isFalse => rfl

/-- The old directory is out of the way: in quarantine, or there was none. -/
def Aside (c : Call) (w₀ : World) (quarantined : Bool) (w : World) : Prop :=
  Gone c.dir w ∧
    if quarantined then ∀ r, w.tree.get (c.quarantined ++ r) = w₀.tree.get (c.dir ++ r)
    else Gone c.dir w₀

theorem quarantineOld_rule (file : Bytes) :
    Triple (fun w => Same c.dir w₀ w ∧ Ready library c file w) (quarantineOld c)
      (either (fun _ => Same c.dir w₀) fun quarantined w =>
        Aside c w₀ quarantined w ∧ Ready library c file w) fun _ => True := by
  obtain ⟨q, -, hq⟩ := c.quarantined_eq
  have hq' : c.layout.quarantineDir <+: c.quarantined := hq ▸ List.prefix_append _ _
  refine Triple.reading fun w hw => ?_
  split
  · have hsame : Triple (Same c.dir w₀) (createDirAll c.layout.quarantineDir)
        (fun _ => Same c.dir w₀) fun _ => True := Same.frame fun r => createDirAll_keeps_get
      fun hpre => c.apart.dirQuarantined r [] (by simpa using hpre.trans hq')
    have hready : Triple (Ready library c file) (createDirAll c.layout.quarantineDir)
        (fun _ => Ready library c file) fun _ => True := Ready.frame fun r => createDirAll_keeps_get
      fun hpre => c.apart.stagingQuarantined r [] (by simpa using hpre.trans hq')
    refine Triple.andThen (E := fun _ => Same c.dir w₀)
      (K := fun _ t => Same c.dir w₀ t ∧ Ready library c file t)
      ((((hsame.both hready).cuts fun _ _ => trivial).pre fun t ht => ht.1).post fun r t ht => ?_)
      (fun _ _ hs => hs) fun _ => ?_
    · cases r with
      | error x => exact ht.1
      | ok => exact ht
    refine Triple.andThen (E := fun _ => Same c.dir w₀)
      (K := fun _ t => Aside c w₀ true t ∧ Ready library c file t)
      (Triple.each fun t ht => (renameDir_rule c.dir c.quarantined t).post fun r s hs => ?_)
      (fun _ _ hs => hs) fun _ => Triple.give fun s hs => hs
    cases r with
    | error x => exact hs ▸ ht.1
    | ok =>
      obtain ⟨hmovable, htree⟩ := hs
      obtain ⟨hsame, zip, hopen, hholds⟩ := ht
      refine ⟨⟨fun r => ?_, fun r => ?_⟩, zip, hopen, fun r => ?_⟩
      · rw [htree]
        exact FileTree.get_move_from hmovable
          (fun hpre => c.apart.quarantinedDir [] r (by simpa using hpre)) (List.prefix_append _ _)
      · rw [htree, FileTree.get_move_to hmovable, hsame r]
      · rw [htree, FileTree.get_move_else
          (fun hpre => c.apart.quarantinedStaging [] r (by simpa using hpre))
          (fun hpre => c.apart.dirStaging [] r (by simpa using hpre)), hholds r]
  case isFalse hnone =>
    refine Triple.give ?_
    rintro t ⟨⟨hsame, hready⟩, rfl⟩
    have hgone : Gone c.dir t := Gone.of_get (FileTree.has_eq_false.mp (by simpa using hnone))
    exact ⟨⟨hgone, fun r => (hsame r).symm.trans (hgone r)⟩, hready⟩

/-- The archive's tree is in place, and the staging directory with it. -/
def Installed (library : Bytes → Except String Zip) (c : Call) (file : Bytes) (w : World) : Prop :=
  w.tree.has c.staging = false ∧ ∃ zip, openArchive library file = .ok zip ∧
    ∀ r, w.tree.get (c.dir ++ r) = unpacked c.layout.fold zip r

theorem Aside.frame {α : Type} {quarantined : Bool} {q : Prog Answer World α}
    (hdir : ∀ r, Keeps (fun w => w.tree.get (c.dir ++ r)) q)
    (hquarantined : ∀ r, Keeps (fun w => w.tree.get (c.quarantined ++ r)) q) :
    Triple (Aside c w₀ quarantined) q (fun _ => Aside c w₀ quarantined) fun _ => True := by
  refine (Triple.of_state fun tape w hw => ?_).cuts fun _ _ => trivial
  refine ⟨fun r => (hdir r tape w).trans (hw.1 r), ?_⟩
  cases quarantined with
  | false => exact hw.2
  | true => exact fun r => (hquarantined r tape w).trans (hw.2 r)

theorem moveIn_rule (quarantined : Bool) (file : Bytes) :
    Triple (fun w => Aside c w₀ quarantined w ∧ Ready library c file w) (moveIn c)
      (either (fun _ => Aside c w₀ quarantined) fun _ => Installed library c file)
      fun _ => True := by
  obtain ⟨d, hd, hdir⟩ := c.dir_eq
  have hdir' : c.dir ≠ [] := by simp [hdir, hd]
  have hparent : c.dir.dropLast <+: c.dir := List.dropLast_prefix _
  have haside : Triple (Aside c w₀ quarantined) (createDirAll c.dir.dropLast)
      (fun _ => Aside c w₀ quarantined) fun _ => True := by
    refine Aside.frame (fun r => createDirAll_keeps_get fun hpre => ?_) fun r =>
      createDirAll_keeps_get fun hpre =>
        c.apart.quarantinedDir r [] (by simpa using hpre.trans hparent)
    have hlen := hpre.length_le
    have hpos := List.length_pos_of_ne_nil hdir'
    simp only [List.length_append, List.length_dropLast] at hlen
    omega
  have hready : Triple (Ready library c file) (createDirAll c.dir.dropLast)
      (fun _ => Ready library c file) fun _ => True := Ready.frame fun r => createDirAll_keeps_get
    fun hpre => c.apart.stagingDir r [] (by simpa using hpre.trans hparent)
  refine Triple.andThen (E := fun _ => Aside c w₀ quarantined)
    (K := fun _ t => Aside c w₀ quarantined t ∧ Ready library c file t)
    (((haside.both hready).cuts fun _ _ => trivial).post fun r t ht => ?_) (fun _ _ hs => hs)
    fun _ => ?_
  · cases r with
    | error x => exact ht.1
    | ok => exact ht
  refine Triple.each fun t ht => (renameDir_rule c.staging c.dir t).post fun r s hs => ?_
  cases r with
  | error x => exact hs ▸ ht.1
  | ok =>
    obtain ⟨hmovable, htree⟩ := hs
    obtain ⟨-, zip, hopen, hholds⟩ := ht
    refine ⟨FileTree.has_eq_false.mpr ?_, zip, hopen, fun r => ?_⟩
    · rw [htree]
      exact FileTree.get_move_from hmovable
        (fun hpre => c.apart.dirStaging [] [] (by simpa using hpre)) (List.prefix_refl _)
    · rw [htree, FileTree.get_move_to hmovable, hholds r]

/-- A note that there is stays there. -/
theorem abandon_noted {reason : Reason} {note : Note} :
    Triple (fun s => note ∈ s.2) (Watched.abandon c reason) (fun _ s => note ∈ s.2)
      fun _ => True := by
  refine Triple.each fun s hs => ?_
  have hcleanup : Triple (fun _ => True) (cleanupDir c.staging) (fun _ _ => True) fun _ => True :=
    Triple.any
  refine ((Triple.watch hcleanup).pre fun t ht => ⟨trivial, congrArg Prod.snd ht⟩).bind
    fun r => Triple.give ?_
  rintro t ⟨-, hnotes⟩
  rw [hnotes]
  exact List.mem_append_left _ hs

theorem moveBack_rule (quarantined : Bool) :
    Triple (Aside c w₀ quarantined) (moveBack c quarantined)
      (either (fun _ _ => True) fun _ => Same c.dir w₀) fun _ => True := by
  cases quarantined with
  | false => exact Triple.give fun w hw r => (hw.1 r).trans (hw.2 r).symm
  | true =>
    refine Triple.each fun t ht => (renameDir_rule c.quarantined c.dir t).post fun r s hs => ?_
    cases r with
    | error x => trivial
    | ok =>
      intro r
      rw [hs.2, FileTree.get_move_to hs.1]
      exact ht.2 r

/-- A new directory that does not get into its place is given up for the old one. -/
theorem undo_rule {quarantined : Bool} {text : String} (hearly : Early notes) :
    Triple (fun s => Aside c w₀ quarantined s.1 ∧ s.2 = notes)
      (Watched.undo c quarantined text) (Judged library c w₀) fun _ => True := by
  refine (Triple.watch (moveBack_rule quarantined)).bind fun r => ?_
  cases r with
  | error x =>
    refine abandon_noted.conseq (fun s hs => ?_) fun _ s hs _ _ hback => absurd hs hback
    rw [hs.2]
    simp [Note.onError]
  | ok =>
    have hnotes : notes ++ Note.onError .notMovedBack (.ok () : Except String Unit) = notes :=
      List.append_nil _
    simp only [hnotes]
    exact abandon_rule (hearly.notMem fun _ => by simp) (hearly.notMem fun _ => by simp)

/-- The check of the new directory is the last step, and nothing is undone after it. -/
theorem recheck_rule {file : Bytes} {source : Source} :
    Triple (fun s => Installed library c file s.1 ∧ s.2 = [.archive file])
      (Watched.recheck sha256 c source) (Judged library c w₀) fun _ => True := by
  have hkeeps : Triple (Installed library c file)
      (checkComponent c.layout.fold sha256 c.dir c.spec ⟨true, c.probe⟩)
      (fun _ => Installed library c file) fun _ => True :=
    ((checkComponent_keeps _ _ _).triple fun s t hview hs =>
      (show t = s from hview) ▸ hs).cuts fun _ _ => trivial
  refine (Triple.watch hkeeps).bind fun finding => ?_
  split
  · exact Triple.give fun s hs reason hfailed => by cases hfailed
  case isFalse hbad =>
    refine Triple.give ?_
    rintro s ⟨⟨hgone, zip, hopen, hplace⟩, hnotes⟩ _ _ _
    rw [Note.onCheck, if_neg hbad] at hnotes
    constructor
    · intro hold
      refine ⟨fun hmem => ?_, fun _ file' zip' hfile hopen' r => ?_⟩
      · simp [hnotes] at hmem
      · obtain rfl : file' = file := by simpa [hnotes] using hfile
        obtain rfl : zip = zip' := Except.ok.inj (hopen.symm.trans hopen')
        rw [← hold.dir r, hplace r]
    · intro hunharmed
      refine ⟨fun r => ?_, fun hhas => by simp [hgone] at hhas⟩
      rw [hplace r, hunharmed.passed (by simp [hnotes]) file zip (by simp [hnotes]) hopen r]

/-- RUN: what an installation of the artifact leaves. -/
theorem install_rule (source : Source) :
    Triple (fun s => Same c.dir w₀ s.1 ∧ s.2 = [])
      (Watched.install sha256 lower library c source) (Judged library c w₀) fun _ => True := by
  have habandon : ∀ (reason : Reason) ns, Early ns →
      Triple (fun s => Same c.dir w₀ s.1 ∧ s.2 = ns) (Watched.abandon c reason)
        (Judged library c w₀) fun _ => True := fun reason ns hearly =>
    abandon_rule (hearly.notMem fun _ => by simp) (hearly.notMem fun _ => by simp)
  refine (stage_rule _).orFail (fun e => ?_) fun _ => Triple.ex fun file => ?_
  · refine Triple.each fun s hs => (habandon (.staged e) s.2 hs.2).pre ?_
    rintro t rfl
    exact ⟨hs.1, rfl⟩
  have hearly : Early [Note.archive file] := .inr ⟨file, rfl⟩
  refine Triple.orFail (E := fun _ s => Same c.dir w₀ s.1 ∧ s.2 = [.archive file])
    (K := fun quarantined s => (Aside c w₀ quarantined s.1 ∧ Ready library c file s.1) ∧
      s.2 = [.archive file])
    ((Triple.beside (quarantineOld_rule file)).post fun r s hs => by cases r <;> exact hs)
    (fun text => habandon _ _ hearly) fun quarantined => ?_
  refine Triple.orFail (E := fun _ s => Aside c w₀ quarantined s.1 ∧ s.2 = [.archive file])
    (K := fun _ s => Installed library c file s.1 ∧ s.2 = [.archive file])
    ((Triple.beside (moveIn_rule quarantined file)).post fun r s hs => by cases r <;> exact hs)
    (fun text => undo_rule hearly) fun _ => recheck_rule

/-- RUN: what a repair that fails leaves. -/
theorem repairOne_rule :
    Triple (fun s => s = (w₀, [])) (Watched.repairOne sha256 lower library c)
      (Judged library c w₀) fun _ => True := by
  have huntouched : ∀ s : World × List Note, s = (w₀, []) →
      (LeftOld c w₀ s.1 ↔ Unharmed library c w₀ s.2) := by
    rintro s rfl
    exact iff_of_true ⟨fun _ => rfl, fun h => h⟩ ⟨fun hmem => by simp at hmem,
      fun hmem => by simp at hmem⟩
  have hkept : ∀ {α : Type} {q : Prog Answer World α}, Keeps id q →
      Triple (fun s => s = (w₀, [])) (q.beside : Watched α) (fun _ s => s = (w₀, []))
        fun _ => True := by
    intro α q h
    have hq : Triple (fun w => w = w₀) q (fun _ w => w = w₀) fun _ => True :=
      (h.triple fun s t hview hs => Eq.trans hview hs).cuts fun _ _ => trivial
    exact ((Triple.beside hq).pre fun s hs => ⟨congrArg Prod.fst hs, congrArg Prod.snd hs⟩).post
      fun _ s hs => Prod.ext hs.1 hs.2
  unfold Watched.repairOne
  split
  · exact Triple.give fun s hs _ _ _ => huntouched s hs
  · refine (hkept knownGood_keeps).bind fun good => ?_
    split
    · exact Triple.give fun s hs reason hfailed => by cases hfailed
    · refine (hkept (checkComponent_keeps _ _ _)).bind fun finding => ?_
      split
      · exact Triple.give fun s hs reason hfailed => by cases hfailed
      · have hobtain : Triple (fun w => Same c.dir w₀ w ∧ Same c.staging w₀ w)
            (obtainArtifact c.layout c.spec.artifactName)
            (fun _ w => Same c.dir w₀ w ∧ Same c.staging w₀ w) fun _ => True :=
          ((Same.frame fun r => obtainArtifact_keeps (c.apart.dirCache r)).both
            (Same.frame fun r => obtainArtifact_keeps (c.apart.stagingCache r))).cuts
            fun _ _ => trivial
        refine Triple.orFail (E := fun _ s => (Same c.dir w₀ s.1 ∧ Same c.staging w₀ s.1) ∧ s.2 = [])
          (K := fun _ s => (Same c.dir w₀ s.1 ∧ Same c.staging w₀ s.1) ∧ s.2 = [])
          (((Triple.beside hobtain).pre fun s hs => ?_).post fun r s hs => by cases r <;> exact hs)
          (fun text => Triple.give fun s hs _ _ _ => ?_) fun source => ?_
        · rw [hs]
          exact ⟨⟨fun _ => rfl, fun _ => rfl⟩, rfl⟩
        · refine iff_of_true ⟨hs.1.1, fun hhas => ?_⟩ ⟨fun hmem => ?_, fun hmem => ?_⟩
          · have hsame := hs.1.2 []
            rw [List.append_nil] at hsame
            rwa [FileTree.has, hsame] at hhas
          · simp [hs.2] at hmem
          · simp [hs.2] at hmem
        · exact (install_rule source).pre fun s hs => ⟨hs.1.1, hs.2⟩

/-- ERROR HANDLING: a repair that fails, with the old directory moved back where that was tried,
    leaves the component's directory as it was and no new staging directory, exactly if the staging
    directory could be removed and the run did not end with the check of the new directory in its
    place, or that is no other than the old one. -/
theorem repair_leaves_old_iff {tape rest : List Answer} {w : World} {reason : Reason}
    (hrun : Watched.repairOne sha256 lower library c tape (w₀, []) =
      .done (.failed reason) (w, notes) rest)
    (hback : Note.notMovedBack ∉ notes) :
    repairOne sha256 lower library c tape w₀ = .done (.failed reason) w rest ∧
      (LeftOld c w₀ w ↔ Unharmed library c w₀ notes) := by
  refine ⟨Watched.repairOne_erases.run hrun, ?_⟩
  have hrule : Triple (fun s => s = (w₀, [])) (Watched.repairOne sha256 lower library c)
      (Judged library c w₀) fun _ => True := repairOne_rule
  have hend := hrule tape (w₀, []) rfl
  rw [hrun] at hend
  exact hend reason rfl hback

end Phases

/-! ### A probe that tells another version -/

def sampleCall : Call where
  layout := ⟨["C:"], id, by decide⟩
  spec := ⟨"adb", "1", [⟨"adb.exe", 2, "ab"⟩], "adb.zip", by decide, List.all_eq_true.mp (by decide),
    by decide +kernel⟩
  paused := false
  probe := true
  stagedAt := 7
  quarantinedAt := 8

def sampleDigest (content : Bytes) : String := if content = [1, 2] then "ab" else "cd"

def sampleZip : Zip := [.ok ⟨.ok "adb.exe", false, false, 2, [.ok [1, 2]]⟩]

/-- A damaged component, and its archive in the cache. -/
def sampleWorld : World where
  tree :=
    (["C:", "runtime", "adb", "1"].inits.foldl (fun t p => t.set p .dir)
      (["C:", "cache", "artifacts"].inits.foldl (fun t p => t.set p .dir) FileTree.bare)).set
      ["C:", "runtime", "adb", "1", "adb.exe"] (.file [9]) |>.set
      ["C:", "cache", "artifacts", "adb.zip"] (.file [])
  touched := []
  written := 0

def sampleTape : List Answer :=
  List.replicate 40 { free := 2 ^ 30, source := .cache, output := .ok "Version 2" }

/-- Where a run that fails ends. -/
def failure : Ended Answer (World × List Note) Outcome → Option (World × List Note)
  | .done (.failed _) s _ => some s
  | _ => none

theorem failure_eq_some {e : Ended Answer (World × List Note) Outcome} {s : World × List Note}
    (h : failure e = some s) : ∃ reason rest, e = .done (.failed reason) s rest := by
  cases e with
  | cut s' => cases h
  | done o s' rest =>
    cases o with
    | healthy => cases h
    | repaired source => cases h
    | failed reason =>
      cases h
      exact ⟨reason, rest, rfl⟩

/-- The new directory is in place, and the run has failed. -/
theorem sample_run : ∃ reason rest w notes,
    Watched.repairOne sampleDigest id (fun _ => .ok sampleZip) sampleCall sampleTape
      (sampleWorld, []) = .done (.failed reason) (w, notes) rest ∧
    notes = [.archive [], .refuted] ∧
    w.tree.fileAt ["C:", "runtime", "adb", "1", "adb.exe"] = some [1, 2] := by
  have hend : (failure (Watched.repairOne sampleDigest id (fun _ => .ok sampleZip) sampleCall
      sampleTape (sampleWorld, []))).map (fun s =>
        (s.2, s.1.tree.fileAt ["C:", "runtime", "adb", "1", "adb.exe"])) =
      some ([.archive [], .refuted], some [1, 2]) := by decide +kernel
  obtain ⟨⟨w, notes⟩, hfailed, hshown⟩ := Option.map_eq_some_iff.mp hend
  obtain ⟨reason, rest, hrun⟩ := failure_eq_some hfailed
  simp only [Prod.mk.injEq] at hshown
  exact ⟨reason, rest, w, notes, hrun, hshown⟩

theorem repair_leaves_old_iff_sample : ∃ w notes,
    (LeftOld sampleCall sampleWorld w ↔
      Unharmed (fun _ => .ok sampleZip) sampleCall sampleWorld notes) := by
  obtain ⟨reason, rest, w, notes, hrun, hnotes, -⟩ := sample_run
  exact ⟨w, notes, (repair_leaves_old_iff hrun (by simp [hnotes])).2⟩

/-- A probe fails the new directory, and the old one stays in quarantine. -/
theorem repair_keeps_new :
    ¬ ∀ (tape rest : List Answer) (w₀ w : World) (notes : List Note) (reason : Reason),
      Watched.repairOne sampleDigest id (fun _ => .ok sampleZip) sampleCall tape (w₀, []) =
        .done (.failed reason) (w, notes) rest →
      Note.notMovedBack ∉ notes → LeftOld sampleCall w₀ w := by
  intro h
  obtain ⟨reason, rest, w, notes, hrun, hnotes, hfile⟩ := sample_run
  have hsame := (h _ _ _ _ _ _ hrun (by simp [hnotes])).dir ["adb.exe"]
  have hold : sampleWorld.tree.fileAt (sampleCall.dir ++ ["adb.exe"]) = some [9] := by
    decide +kernel
  have hdir : sampleCall.dir ++ ["adb.exe"] = ["C:", "runtime", "adb", "1", "adb.exe"] := by
    decide +kernel
  rw [hdir] at hsame hold
  rw [FileTree.fileAt_congr hsame, hold] at hfile
  cases hfile

end Gamer.Updater.Repair
