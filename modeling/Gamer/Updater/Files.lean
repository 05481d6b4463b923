import Gamer.Lib.Bytes
import Gamer.Lib.Crash
import Gamer.Lib.FileTree
import Gamer.Updater.PathSafe

/-! The files of the installation, and the effects of `std::fs` on them. A path is the list of its
    names from the drive on, each as the file system compares it: `fold` says which names it takes
    for the same.

        \\?\C:\gamer\staging  ──join "lib/Adb.exe"──▶  [C:, gamer, staging, lib, adb.exe]

    Every effect may fail, as its answer says, and then leaves what the answer says. The paths of
    the files that are created, written or removed are noted, and the bytes are counted. -/

namespace Gamer.Updater.Files
open Gamer.Lib Gamer.Lib.Prog

abbrev Path := List String

/-- Where an artifact comes from. -/
inductive Source where
  | seed
  | cache
  | remote
  deriving DecidableEq

/-- What the environment answers to an effect. -/
structure Answer where
  ok : Bool := true
  /-- The text of the error. -/
  text : String := ""
  /-- The bytes of a failed write that are written all the same. -/
  kept : Nat := 0
  /-- What a failed removal of a directory leaves. -/
  left : Path → Bool := fun _ => true
  free : Nat := 0
  /-- An earlier verification of the very file is on record. -/
  cached : Bool := false
  source : Source := .seed
  /-- What is downloaded. -/
  body : Bytes := []
  /-- What a program that is run says, or why it does not. -/
  output : Except String String := .ok ""

structure World where
  tree : FileTree String Bytes
  touched : List Path
  written : Nat

abbrev Step (χ α : Type) := Prog Answer World (Except χ α)

/-! ### Paths -/

/-- The names of a path, between the separators of either kind. -/
def components (p : String) : List String :=
  (((p.toList.map fun c => if c = '\\' then '/' else c).splitOn '/').map String.ofList).filter
    fun name => name ≠ "" && name ≠ "."

section
variable (fold : String → String)

/-- One name more, or one less. The drive stays. -/
def push (base : Path) (name : String) : Path :=
  if name = ".." then if base.length > 1 then base.dropLast else base
  else base ++ [fold name]

/-- `PathBuf::join` on an extended-length path. A drive of its own replaces the base, and a
    separator in front leads to the drive of the base. -/
def join (base : Path) (p : String) : Path :=
  if PathSafe.driveLetter p.toList then (components p).foldl (push fold) []
  else if p.toList.head?.any fun c => c = '/' || c = '\\' then
    (components p).foldl (push fold) (base.take 1)
  else (components p).foldl (push fold) base

end

/-! ### Effects -/

/-- `fs::create_dir`, which is content with a directory that is there. -/
def createDir (p : Path) : Step String Unit := Prog.effect fun e w =>
  if w.tree.isDir p then (.ok (), w)
  else if e.ok && !w.tree.has p && w.tree.settable p then
    (.ok (), { w with tree := w.tree.set p .dir })
  else (.error e.text, w)

def createDirs (base : Path) : Path → Step String Unit
  | [] => Prog.give (.ok ())
  | name :: rest =>
    (createDir (base ++ [name])).andThen fun _ => createDirs (base ++ [name]) rest

/-- `fs::create_dir_all`. -/
def createDirAll (p : Path) : Step String Unit := createDirs [] p

/-- `File::create`: the file is there, and empty. -/
def createFile (p : Path) : Step String Unit := Prog.effect fun e w =>
  if e.ok && w.tree.settable p && !w.tree.isLink p then
    (.ok (), { w with tree := w.tree.set p (.file []), touched := p :: w.touched })
  else (.error e.text, w)

/-- The bytes are written at the end of the file. -/
def World.append (w : World) (p : Path) (bytes : Bytes) : World :=
  { tree := match w.tree.fileAt p with
      | some content => w.tree.set p (.file (content ++ bytes))
      | none => w.tree
    touched := p :: w.touched
    written := w.written + bytes.length }

/-- `write_all` through the handle. One that fails may have written a part. -/
def appendFile (p : Path) (bytes : Bytes) : Step String Unit := Prog.effect fun e w =>
  if e.ok then (.ok (), w.append p bytes)
  else (.error e.text, w.append p (bytes.take e.kept))

/-- `fs::remove_file`, whose result nobody looks at. -/
def removeFile (p : Path) : Prog Answer World Unit := Prog.effect fun e w =>
  if e.ok && (w.tree.fileAt p).isSome then
    ((), { w with tree := w.tree.del p, touched := p :: w.touched })
  else ((), w)

/-- `fs::remove_dir_all`. One that fails leaves the directory and a part of what is in it. -/
def removeDirAll (p : Path) : Step String Unit := Prog.effect fun e w =>
  if e.ok then (.ok (), { w with tree := w.tree.delAll p })
  else (.error e.text, { w with tree := w.tree.delBut p fun q => q = p || e.left q })

/-- `fs::rename` of a directory, with its retries. Nothing may stand where it goes. -/
def renameDir (p q : Path) : Step String Unit := Prog.effect fun e w =>
  if e.ok && w.tree.has p && w.tree.movable p q then
    (.ok (), { w with tree := w.tree.move p q })
  else (.error e.text, w)

/-- `fs::read_dir`, with all that is below. -/
def readDir (p : Path) : Step String (List Path) := Prog.effect fun e w =>
  if e.ok && w.tree.isDir p then (.ok (w.tree.below p), w) else (.error e.text, w)

def readFile (p : Path) : Step String Bytes := Prog.effect fun e w =>
  match e.ok, w.tree.fileAt p with
  | true, some content => (.ok content, w)
  | _, _ => (.error e.text, w)

/-- `free_disk_bytes`. -/
def freeDiskBytes : Step String Nat := Prog.effect fun e w =>
  if e.ok then (.ok e.free, w) else (.error e.text, w)

/-! ### `verify_file` -/

inductive VerifyFileError where
  | notFound
  | sizeMismatch (actual expected : Nat)
  | hashMismatch (actual expected : String)
  | io (text : String)
  deriving DecidableEq

def asciiLowercase (s : String) : String := String.ofList (s.toList.map Char.toLower)

/-- `verify_file`, with the digest in lower case. -/
def verifyFile (sha256 : Bytes → String) (p : Path) (expectedSha256 : String)
    (expectedSize : Nat) : Step VerifyFileError Unit := Prog.effect fun e w =>
  if !e.ok then (.error (.io e.text), w)
  else match w.tree.fileAt p with
    | none => (.error .notFound, w)
    | some content =>
      if content.length ≠ expectedSize then
        (.error (.sizeMismatch content.length expectedSize), w)
      else if sha256 content ≠ asciiLowercase expectedSha256 then
        (.error (.hashMismatch (sha256 content) expectedSha256), w)
      else (.ok (), w)

/-! ### What the effects leave alone -/

/-- The files, and the notes about them. -/
def World.files (w : World) : (Path → Option Bytes) × List Path × Nat :=
  (w.tree.fileAt, w.touched, w.written)

/-- FRAME: a new directory touches no file. -/
theorem createDir_keeps (p : Path) : Keeps World.files (createDir p) := by
  refine Keeps.effect fun e w => ?_
  split
  · rfl
  · split
    case isTrue h =>
      simp only [Bool.and_eq_true, Bool.not_eq_true'] at h
      have hfiles : (w.tree.set p .dir).fileAt = w.tree.fileAt :=
        funext fun q => FileTree.fileAt_set_dir h.1.2
      simp [World.files, hfiles]
    case isFalse => rfl

theorem createDirs_keeps (base rest : Path) : Keeps World.files (createDirs base rest) := by
  induction rest generalizing base with
  | nil => exact Keeps.give
  | cons name rest ih => exact (createDir_keeps _).andThen fun _ => ih _

theorem createDirAll_keeps (p : Path) : Keeps World.files (createDirAll p) :=
  createDirs_keeps [] p

/-- FRAME: only the path and the directories above it are made. -/
theorem createDirs_keeps_get {q : Path} (base rest : Path) (h : ¬ q <+: base ++ rest) :
    Keeps (fun w => w.tree.get q) (createDirs base rest) := by
  induction rest generalizing base with
  | nil => exact Keeps.give
  | cons name rest ih =>
    have hne : q ≠ base ++ [name] := by
      rintro rfl
      exact h ⟨rest, by simp⟩
    refine Keeps.andThen (Keeps.effect fun e w => ?_) fun _ => ih _ (by simpa using h)
    split
    · rfl
    · split
      · exact FileTree.get_set_ne hne
      · rfl

theorem createDirAll_keeps_get {p q : Path} (h : ¬ q <+: p) :
    Keeps (fun w => w.tree.get q) (createDirAll p) :=
  createDirs_keeps_get [] p h

/-- What stands below a path, and not at it. -/
def World.under (p : Path) (w : World) : Path → Option (Node Bytes) := fun q =>
  if p <+: q ∧ q ≠ p then w.tree.get q else none

/-- FRAME: the directories above a path and the path itself are not below it. -/
theorem createDirAll_keeps_under (p : Path) : Keeps (World.under p) (createDirAll p) := by
  intro tape w
  funext q
  unfold World.under
  by_cases hq : p <+: q ∧ q ≠ p
  · rw [if_pos hq, if_pos hq]
    refine createDirAll_keeps_get (fun hpre => hq.2 ?_) tape w
    exact hpre.eq_of_length_le hq.1.length_le
  · rw [if_neg hq, if_neg hq]

theorem readDir_keeps (p : Path) : Keeps id (readDir p) :=
  Keeps.effect fun e w => by split <;> rfl

theorem readFile_keeps (p : Path) : Keeps id (readFile p) :=
  Keeps.effect fun e w => by split <;> rfl

theorem freeDiskBytes_keeps : Keeps id freeDiskBytes :=
  Keeps.effect fun e w => by split <;> rfl

theorem verifyFile_keeps (sha256 : Bytes → String) (p : Path) (expectedSha256 : String)
    (expectedSize : Nat) : Keeps id (verifyFile sha256 p expectedSha256 expectedSize) :=
  Keeps.effect fun e w => by
    split
    · rfl
    · split
      · rfl
      · split_ifs <;> rfl

end Gamer.Updater.Files
