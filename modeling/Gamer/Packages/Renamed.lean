import Gamer.Lib.FileTree
import Gamer.Packages.CrashSafe

/-! A resource gets another name, and the references to it with it. The owner of the resource rewrites
    them before the file moves; a replacement stages the new bytes first, and undoes the rename
    through the owner if they cannot be published:

        rename    check ▶ rewrite ▶ directories ▶ move
        replace   check ▶ stage ▶ rename ▶ publish ──fails──▶ rename back ▶ remove what is staged -/

namespace Gamer.Packages.Rename
open Gamer.Lib

abbrev Tree := FileTree String ByteArray

/-- The files, and what the package's other files refer to. -/
structure Shelf (R : Type) where
  tree : Tree
  refs : R

/-- The owner of resources: `before_rename` makes all references to one path references to another,
    or fails without a change. -/
structure ResourceHandler (R : Type) where
  rewrite : List String → List String → R → R

/-- Where the resource is below the directory of all packages. -/
def full (place : Place) : List String := place.pkg :: place.path

/-! ### Files -/

/-- `create_dir_all` of `rest` below `done`, of which `made` new directories can be made. -/
def createDirs : Nat → List String → List String → Tree → Bool × Tree
  | _, _, [], t => (true, t)
  | made, done, name :: rest, t =>
    match t.get (done ++ [name]) with
    | some .dir => createDirs made (done ++ [name]) rest t
    | some _ => (false, t)
    | none =>
      match made with
      | 0 => (false, t)
      | made + 1 => createDirs made (done ++ [name]) rest (t.set (done ++ [name]) .dir)

/-- A file gets another name; a file that had the name is gone. -/
def moveFile (t : Tree) (old new : List String) (works : Bool) : Bool × Tree :=
  match t.fileAt old with
  | none => (false, t)
  | some bytes =>
    if works && (t.del old).settable new then (true, (t.del old).set new (.file bytes))
    else (false, t)

/-- A file goes; errors are ignored. -/
def removeFile (t : Tree) (path : List String) (works : Bool) : Tree :=
  if works then t.del path else t

/-- How the steps of `atomic_write` go, what makes the name of its temporary file new, and what of
    the bytes gets into it if they cannot all be written. -/
structure WriteAnswers where
  made : Nat
  nonce : String
  creates : Bool
  writes : Bool
  part : ByteArray
  replaces : Bool
  syncs : Bool
  removes : Bool

def atomicWrite (t : Tree) (path : List String) (bytes : ByteArray) (a : WriteAnswers) :
    Except String Unit × Tree :=
  match createDirs a.made [] path.dropLast t with
  | (false, t) => (.error "create_dir_all", t)
  | (true, t) =>
    let temp := tempPath path a.nonce
    if !a.creates || t.has temp then (.error "无法创建临时文件", t)
    else if !a.writes then
      (.error "write_all", removeFile (t.set temp (.file a.part)) temp a.removes)
    else
      match moveFile (t.set temp (.file bytes)) temp path a.replaces with
      | (false, t) => (.error "rename", removeFile t temp a.removes)
      | (true, t) => if a.syncs then (.ok (), t) else (.error "sync", removeFile t temp a.removes)

/-! ### The calls -/

section
variable (p : Platform) {R : Type} (h : Option (ResourceHandler R))

/-- How the steps of a rename go: whether the owner refuses, how many directories can be made, and
    whether the file moves. -/
structure RenameAnswers where
  refuses : Bool
  made : Nat
  moves : Bool

/-- The checks of a rename on disk. -/
def lookMove (t : Tree) (old new : Place) : Except String Unit :=
  if (t.fileAt (full old)).isNone then .error "资源不存在"
  else if t.has (full new) then .error "资源已存在"
  else .ok ()

/-- The references, once the owner has rewritten them. -/
def rewritten (old new : Place) (refs : R) : R :=
  match h with
  | none => refs
  | some handler => handler.rewrite old.segs new.segs refs

/-- The owner, if there is one, refuses. -/
def refused (a : RenameAnswers) : Bool := h.isSome && a.refuses

/-- The rename after its checks. -/
def relocate (old new : Place) (a : RenameAnswers) (s : Shelf R) : Except String Unit × Shelf R :=
  if refused h a then (.error "before_rename", s)
  else
    match createDirs a.made [] (full new).dropLast s.tree with
    | (false, t) => (.error "create_dir_all", ⟨t, rewritten h old new s.refs⟩)
    | (true, t) =>
      match moveFile t (full old) (full new) a.moves with
      | (false, t) => (.error "重命名失败", ⟨t, rewritten h old new s.refs⟩)
      | (true, t) => (.ok (), ⟨t, rewritten h old new s.refs⟩)

def renameAt (old new : Place) (a : RenameAnswers) (s : Shelf R) :
    Except String Unit × Shelf R :=
  match lookMove s.tree old new with
  | .error e => (.error e, s)
  | .ok _ => relocate h old new a s

def bothPlaces (pkg plugin : String) (oldSegs newSegs : List String) :
    Except String (Place × Place) := do
  let old ← resourcePath pkg plugin oldSegs
  let new ← resourcePath pkg plugin newSegs
  .ok (old, new)

def normalizeBoth (oldPath newPath : String) : Except String (List String × List String) := do
  let old ← normalizeWrittenPath p oldPath
  let new ← normalizeWrittenPath p newPath
  .ok (old, new)

def renameResource (pkg plugin oldPath newPath : String) (a : RenameAnswers) (s : Shelf R) :
    Except String Unit × Shelf R :=
  match normalizeBoth p oldPath newPath with
  | .error e => (.error e, s)
  | .ok (old, new) =>
    if old = new then (.error "名称未变化", s)
    else
      match bothPlaces pkg plugin old new with
      | .error e => (.error e, s)
      | .ok (old, new) => renameAt h old new a s

/-- How the steps of a replacement go. -/
structure ReplaceAnswers where
  readable : Bool
  uuid : String
  staging : WriteAnswers
  rename : RenameAnswers
  publishes : Bool
  rollback : RenameAnswers
  removes : Bool

/-- Why a replacement fails: the name may not have been restored. -/
inductive ReplaceError where
  | failed (error : String)
  | unrestored (rollback : String)

/-- The checks of `replace_binary` on disk, and those of `write_binary` where the name stays. -/
def lookReplace (t : Tree) (old new : Place) (readable : Bool) (expected : String) :
    Except String Unit :=
  if old = new then
    gate ((t.fileAt (full old)).map (binaryCurrent p readable)) (some expected) false
  else
    match t.fileAt (full old) with
    | none => .error "version_conflict: 原资源不存在或不可读"
    | some original =>
      if !readable then .error "version_conflict: 原资源不存在或不可读"
      else if bytesVersion p original ≠ expected then
        .error "version_conflict: 资源已被其他页面修改，请重新确认覆盖"
      else if t.has (full new) then .error "version_conflict: 目标资源已存在"
      else .ok ()

/-- The hidden file that the new bytes are staged in. -/
def stagedPath (new : Place) (uuid : String) : List String :=
  (full new).dropLast ++ [".replace-" ++ uuid ++ ".tmp"]

/-- The replacement once the bytes are staged. The two places are those of valid names. -/
def publish (old new : Place) (a : ReplaceAnswers) (s : Shelf R) :
    Except ReplaceError Unit × Shelf R :=
  match renameAt h old new a.rename s with
  | (.error e, s) =>
    (.error (.failed e), { s with tree := removeFile s.tree (stagedPath new a.uuid) a.removes })
  | (.ok _, s) =>
    match moveFile s.tree (stagedPath new a.uuid) (full new) a.publishes with
    | (true, t) => (.ok (), { s with tree := t })
    | (false, t) =>
      match renameAt h new old a.rollback { s with tree := t } with
      | (.error e, s) =>
        (.error (.unrestored e),
          { s with tree := removeFile s.tree (stagedPath new a.uuid) a.removes })
      | (.ok _, s) =>
        (.error (.failed "替换失败，原模板已恢复"),
          { s with tree := removeFile s.tree (stagedPath new a.uuid) a.removes })

/-- The replacement after its checks. -/
def replaceAt (old new : Place) (bytes : ByteArray) (a : ReplaceAnswers) (s : Shelf R) :
    Except ReplaceError Unit × Shelf R :=
  if old = new then
    match atomicWrite s.tree (full old) bytes a.staging with
    | (.error e, t) => (.error (.failed e), { s with tree := t })
    | (.ok _, t) => (.ok (), { s with tree := t })
  else
    match atomicWrite s.tree (stagedPath new a.uuid) bytes a.staging with
    | (.error e, t) => (.error (.failed e), { s with tree := t })
    | (.ok _, t) => publish h old new a { s with tree := t }

def replaceBinary (pkg plugin oldPath newPath : String) (bytes : ByteArray) (expected : String)
    (a : ReplaceAnswers) (s : Shelf R) : Except ReplaceError Unit × Shelf R :=
  match normalizeBoth p oldPath newPath with
  | .error e => (.error (.failed e), s)
  | .ok (old, new) =>
    match bothPlaces pkg plugin old new with
    | .error e => (.error (.failed e), s)
    | .ok (old, new) =>
      match lookReplace p s.tree old new a.readable expected with
      | .error e => (.error (.failed e), s)
      | .ok _ => replaceAt h old new bytes a s

end

/-! ### Files and directories -/

/-- Directories have been made on the way to `dir`, and nothing else. -/
def Grown (dir : List String) (t t' : Tree) : Prop :=
  ∀ q, t'.get q = t.get q ∨ t.get q = none ∧ t'.get q = some .dir ∧ q <+: dir

section
variable {dir : List String} {t t' t'' : Tree}

theorem Grown.refl : Grown dir t t := fun _ => .inl rfl

theorem Grown.trans (h : Grown dir t t') (h' : Grown dir t' t'') : Grown dir t t'' := by
  intro q
  rcases h q with hsame | ⟨hnone, hdir, hpre⟩
  · rw [← hsame]
    exact h' q
  · rcases h' q with hsame' | ⟨hnone', -, -⟩
    · exact .inr ⟨hnone, hsame'.trans hdir, hpre⟩
    · rw [hdir] at hnone'
      cases hnone'

/-- FRAME: no file comes or goes. -/
theorem Grown.fileAt (h : Grown dir t t') (q : List String) : t'.fileAt q = t.fileAt q := by
  rcases h q with hsame | ⟨hnone, hdir, -⟩
  · exact FileTree.fileAt_congr hsame
  · rw [FileTree.fileAt, FileTree.fileAt, hnone, hdir]

theorem Grown.isDir (h : Grown dir t t') {q : List String} (hq : t.isDir q = true) :
    t'.isDir q = true := by
  rw [FileTree.isDir_iff] at hq ⊢
  rcases h q with hsame | ⟨hnone, -, -⟩
  · rw [hsame, hq]
  · rw [hq] at hnone
    cases hnone

theorem Grown.get (h : Grown dir t t') {q : List String} (hq : ¬ q <+: dir) :
    t'.get q = t.get q := by
  rcases h q with hsame | ⟨-, -, hpre⟩
  · exact hsame
  · exact absurd hpre hq

/-- Something may be put where nothing is, in a directory. -/
theorem settable_of_none {q : List String} (hnil : q ≠ []) (hdir : t.isDir q.dropLast = true)
    (hnone : t.get q = none) : t.settable q = true := by
  have hq : t.isDir q = false := by rw [FileTree.isDir, hnone]
  rw [FileTree.settable, hdir, hq]
  simp [hnil]

/-- One new directory. -/
theorem grown_set {done : List String} {name : String} (hdone : t.isDir done = true)
    (hnone : t.get (done ++ [name]) = none) (hpre : done ++ [name] <+: dir) :
    Grown dir t (t.set (done ++ [name]) .dir) ∧
      (t.set (done ++ [name]) .dir).isDir (done ++ [name]) = true := by
  have hset : t.settable (done ++ [name]) = true :=
    settable_of_none (by simp) (by rwa [List.dropLast_concat]) hnone
  refine ⟨fun q => ?_, ?_⟩
  · rw [FileTree.get_set hset]
    by_cases hq : q = done ++ [name]
    · rw [if_pos hq, hq]
      exact .inr ⟨hnone, rfl, hpre⟩
    · rw [if_neg hq]
      exact .inl rfl
  · rw [FileTree.isDir_iff, FileTree.get_set hset, if_pos rfl]

/-- STEP: directories are made, up to all of them. -/
theorem createDirs_grown : ∀ (made : Nat) (done rest : List String) (t : Tree),
    t.isDir done = true →
    Grown (done ++ rest) t (createDirs made done rest t).2 ∧
      ((createDirs made done rest t).1 = true →
        (createDirs made done rest t).2.isDir (done ++ rest) = true)
  | made, done, [], t, hdone => by
    rw [createDirs, List.append_nil]
    exact ⟨.refl, fun _ => hdone⟩
  | made, done, name :: rest, t, hdone => by
    have happend : done ++ name :: rest = done ++ [name] ++ rest := by simp
    rw [createDirs.eq_def, happend]
    dsimp only
    split
    · next hdir =>
      exact createDirs_grown made (done ++ [name]) rest t (FileTree.isDir_iff.mpr hdir)
    · exact ⟨.refl, fun h => by cases h⟩
    · next hnone =>
      cases made with
      | zero => exact ⟨.refl, fun h => by cases h⟩
      | succ made =>
        obtain ⟨hgrown, hdir⟩ := grown_set hdone hnone (List.prefix_append _ rest)
        obtain ⟨hgrown', hmade⟩ := createDirs_grown made (done ++ [name]) rest
          (t.set (done ++ [name]) .dir) hdir
        exact ⟨hgrown.trans hgrown', hmade⟩

/-- What a directory stands in, or is, is a directory. -/
theorem get_of_isDir {p r : List String} (h : t.isDir (p ++ r) = true) : t.get p = some .dir := by
  by_cases hr : r = []
  · rw [hr, List.append_nil] at h
    exact FileTree.isDir_iff.mp h
  · refine FileTree.get_of_below hr ?_
    rw [FileTree.isDir_iff.mp h]
    exact Option.some_ne_none _

/-- All directories are made if nothing else is in the way and no more are missing than can be. -/
theorem createDirs_iff : ∀ (made : Nat) (done rest : List String) (t : Tree), t.isDir done = true →
    ((createDirs made done rest t).1 = true ↔
      ∃ k, k ≤ rest.length ∧ t.isDir (done ++ rest.take k) = true ∧
        (k = rest.length ∨ t.get (done ++ rest.take (k + 1)) = none) ∧ rest.length ≤ k + made)
  | made, done, [], t, hdone => by
    rw [createDirs]
    exact ⟨fun _ => ⟨0, Nat.le_refl _, by rwa [List.take_nil, List.append_nil], .inl rfl,
      Nat.zero_le _⟩, fun _ => rfl⟩
  | made, done, name :: rest, t, hdone => by
    have hone : done ++ (name :: rest).take 1 = done ++ [name] := rfl
    have htake : ∀ k, done ++ (name :: rest).take (k + 1) = done ++ [name] ++ rest.take k := by
      intro k
      simp
    have hlen : (name :: rest).length = rest.length + 1 := rfl
    rw [createDirs.eq_def]
    dsimp only
    split
    · next hdir =>
      rw [createDirs_iff made (done ++ [name]) rest t (FileTree.isDir_iff.mpr hdir)]
      constructor
      · rintro ⟨k, hk, hthere, hnext, hmade⟩
        refine ⟨k + 1, by omega, by rwa [htake], ?_, by omega⟩
        rcases hnext with hend | hnone
        · exact .inl (by omega)
        · exact .inr (by rwa [htake])
      · rintro ⟨k, hk, hthere, hnext, hmade⟩
        cases k with
        | zero =>
          rcases hnext with hend | hnone
          · omega
          · rw [hone, hdir] at hnone
            cases hnone
        | succ k =>
          rw [htake] at hthere
          refine ⟨k, by omega, hthere, ?_, by omega⟩
          rcases hnext with hend | hnone
          · exact .inl (by omega)
          · rw [htake] at hnone
            exact .inr hnone
    · next node hnode hget =>
      constructor
      · intro h
        cases h
      · rintro ⟨k, hk, hthere, hnext, hmade⟩
        cases k with
        | zero =>
          rcases hnext with hend | hnone
          · omega
          · rw [hone, hget] at hnone
            cases hnone
        | succ k =>
          rw [htake] at hthere
          rw [get_of_isDir hthere] at hget
          exact absurd (Option.some.inj hget).symm (hnode)
    · next hnone =>
      have hlast : ∀ k, t.isDir (done ++ (name :: rest).take (k + 1)) ≠ true := by
        intro k hthere
        rw [htake] at hthere
        rw [get_of_isDir hthere] at hnone
        cases hnone
      cases made with
      | zero =>
        constructor
        · intro h
          cases h
        · rintro ⟨k, hk, hthere, hnext, hmade⟩
          cases k with
          | zero => omega
          | succ k => exact absurd hthere (hlast k)
      | succ made =>
        obtain ⟨-, hdir⟩ := grown_set hdone hnone (List.prefix_append _ rest)
        have hbelow : ∀ r, r ≠ [] →
            (t.set (done ++ [name]) .dir).get (done ++ [name] ++ r) = none := by
          intro r hr
          rw [FileTree.get_set_ne (by simpa using hr)]
          refine FileTree.get_below ?_ hr
          rw [hnone]
          exact fun h => by cases h
        have hrec := createDirs_iff made (done ++ [name]) rest (t.set (done ++ [name]) .dir) hdir
        constructor
        · intro h
          obtain ⟨k, hk, hthere, hnext, hmade⟩ := hrec.mp h
          refine ⟨0, Nat.zero_le _, ?_, .inr ?_, ?_⟩
          · rwa [List.take_zero, List.append_nil]
          · rw [hone, hnone]
          · by_cases hempty : rest.take k = []
            · have hshort : rest.length = 0 ∨ k = 0 := by
                rcases List.take_eq_nil_iff.mp hempty with hk0 | hrest
                · exact .inr hk0
                · exact .inl (by rw [hrest]; rfl)
              omega
            · rw [FileTree.isDir_iff, hbelow _ hempty] at hthere
              cases hthere
        · rintro ⟨k, hk, hthere, hnext, hmade⟩
          cases k with
          | succ k => exact absurd hthere (hlast k)
          | zero =>
            refine hrec.mpr ⟨0, Nat.zero_le _, ?_, ?_, by omega⟩
            · rwa [List.take_zero, List.append_nil]
            · cases rest with
              | nil => exact .inl rfl
              | cons next rest => exact .inr (hbelow [next] (List.cons_ne_nil _ _))

/-- Nothing but directories is on the way to `dir`, and at most `made` are missing. -/
def Makeable (t : Tree) (dir : List String) (made : Nat) : Prop :=
  ∃ k, k ≤ dir.length ∧ t.isDir (dir.take k) = true ∧
    (k = dir.length ∨ t.get (dir.take (k + 1)) = none) ∧ dir.length ≤ k + made

theorem root_isDir : t.isDir [] = true := FileTree.isDir_iff.mpr t.root

theorem createDirs_makeable {made : Nat} :
    (createDirs made [] dir t).1 = true ↔ Makeable t dir made :=
  createDirs_iff made [] dir t root_isDir

/-- A directory that is there need not be made. -/
theorem makeable_of_isDir (h : t.isDir dir = true) (made : Nat) : Makeable t dir made :=
  ⟨dir.length, Nat.le_refl _, by rwa [List.take_length], .inl rfl, Nat.le_add_right _ _⟩

/-- INVERSION: directories are made as far as they can be. -/
theorem createDirs_cases (made : Nat) (dir : List String) (t : Tree) :
    (∃ t', createDirs made [] dir t = (true, t') ∧ Makeable t dir made ∧ Grown dir t t' ∧
      t'.isDir dir = true) ∨
    ∃ t', createDirs made [] dir t = (false, t') ∧ ¬ Makeable t dir made ∧ Grown dir t t' := by
  obtain ⟨hgrown, hmade⟩ := createDirs_grown made [] dir t root_isDir
  have hiff : (createDirs made [] dir t).1 = true ↔ Makeable t dir made := createDirs_makeable
  cases hrun : createDirs made [] dir t with
  | mk works t' =>
    rw [hrun] at hgrown hmade hiff
    cases works with
    | true => exact .inl ⟨t', rfl, hiff.mp rfl, hgrown, hmade rfl⟩
    | false => exact .inr ⟨t', rfl, fun h => (by cases hiff.mpr h), hgrown⟩

/-! ### Moving and writing -/

variable {old new path : List String} {bytes : ByteArray}

theorem moveFile_fails : moveFile t old new false = (false, t) := by
  unfold moveFile
  split
  · rfl
  · rw [Bool.false_and, if_neg (fun h => by cases h)]

/-- STEP: a file moves into a directory, onto a file or onto nothing. -/
theorem moveFile_works (hold : t.fileAt old = some bytes) (hdir : t.isDir new.dropLast = true)
    (hnew : t.isDir new = false) (hnil : new ≠ []) :
    ∃ t', moveFile t old new true = (true, t') ∧
      ∀ q, t'.get q = if q = new then some (.file bytes) else if q = old then none else t.get q := by
  have holdDir : t.isDir old = false := FileTree.isDir_of_fileAt hold
  have hparent : (t.del old).isDir new.dropLast = true := by
    have hne : new.dropLast ≠ old := by
      intro h
      rw [h, holdDir] at hdir
      cases hdir
    rw [FileTree.isDir_iff, FileTree.get_del_ne hne]
    exact FileTree.isDir_iff.mp hdir
  have htarget : (t.del old).isDir new = false := by
    rw [Bool.eq_false_iff, Ne, FileTree.isDir_iff, FileTree.get_del holdDir]
    split
    · exact fun h => by cases h
    · rw [← FileTree.isDir_iff, hnew]
      exact fun h => by cases h
  have hset : (t.del old).settable new = true := by
    simp [FileTree.settable, hnil, hparent, htarget]
  refine ⟨(t.del old).set new (.file bytes), ?_, fun q => ?_⟩
  · rw [moveFile, hold]
    simp [hset]
  · rw [FileTree.get_set hset, FileTree.get_del holdDir]

theorem fileAt_removeFile (h : t.isDir path = false) (q : List String) :
    (removeFile t path true).fileAt q = if q = path then none else t.fileAt q :=
  FileTree.fileAt_del h

/-- A file that was not there is written and removed again. -/
theorem fileAt_set_removed (hset : t.settable path = true) (hnone : t.fileAt path = none)
    (q : List String) :
    (removeFile (t.set path (.file bytes)) path true).fileAt q = t.fileAt q := by
  have hdir : (t.set path (.file bytes)).isDir path = false := by
    rw [Bool.eq_false_iff, Ne, FileTree.isDir_iff, FileTree.get_set hset, if_pos rfl]
    exact fun h => by cases h
  rw [fileAt_removeFile hdir, FileTree.fileAt_set_file hset]
  by_cases hq : q = path
  · rw [if_pos hq, hq, hnone]
  · rw [if_neg hq, if_neg hq]

/-- The temporary file of a write gets created. -/
structure Opened (t : Tree) (path : List String) (a : WriteAnswers) : Prop where
  dirs : Makeable t path.dropLast a.made
  creates : a.creates = true
  new : t.has (tempPath path a.nonce) = false

/-- A write that fails leaves no file behind. -/
def WriteAnswers.Clean (a : WriteAnswers) (t : Tree) (path : List String) (bytes : ByteArray) :
    Prop :=
  Opened t path a →
    if a.writes ∧ a.replaces then a.syncs = true ∨ t.fileAt path = some bytes
    else a.removes = true

/-- A write succeeds. -/
structure WriteAnswers.Works (a : WriteAnswers) (t : Tree) (path : List String) : Prop where
  opened : Opened t path a
  writes : a.writes = true
  replaces : a.replaces = true
  syncs : a.syncs = true

theorem tempPath_not_above (path : List String) (nonce : String) :
    ¬ tempPath path nonce <+: path.dropLast := by
  intro h
  have hlen := h.length_le
  rw [tempPath, List.length_append, List.length_singleton] at hlen
  omega

theorem not_above_parent (hnil : path ≠ []) : ¬ path <+: path.dropLast := by
  intro h
  have hlen := h.length_le
  have hpos := List.length_pos_iff.mpr hnil
  rw [List.length_dropLast] at hlen
  omega

/-- A new file is no longer there exactly if it is removed. -/
theorem removed_iff {t₁ : Tree} (hgrown : Grown dir t t₁) (hset : t₁.settable path = true)
    (hnone : t₁.get path = none) (removes : Bool) :
    (∀ q, (removeFile (t₁.set path (.file bytes)) path removes).fileAt q = t.fileAt q) ↔
      removes = true := by
  have hfile : t₁.fileAt path = none := by rw [FileTree.fileAt, hnone]
  cases removes with
  | true =>
    refine ⟨fun _ => rfl, fun _ q => ?_⟩
    rw [fileAt_set_removed hset hfile, hgrown.fileAt]
  | false =>
    refine ⟨fun h => ?_, fun h => by cases h⟩
    have hleft : (t₁.set path (.file bytes)).fileAt path = t.fileAt path := h path
    rw [FileTree.fileAt_set_file hset, if_pos rfl, ← hgrown.fileAt, hfile] at hleft
    cases hleft

/-- STEP: the temporary file, with all bytes in it, takes its place. -/
theorem replace_works {t₁ : Tree} {temp : List String} (hdir : t₁.isDir path.dropLast = true)
    (hpath : t₁.isDir path = false) (hnil : path ≠ []) (hne : temp ≠ path)
    (hset : t₁.settable temp = true) (hnone : t₁.get temp = none) :
    ∃ t', moveFile (t₁.set temp (.file bytes)) temp path true = (true, t') ∧
      ∀ q, t'.get q = if q = path then some (.file bytes) else t₁.get q := by
  have hfile : (t₁.set temp (.file bytes)).fileAt temp = some bytes := by
    rw [FileTree.fileAt_set_file hset, if_pos rfl]
  have hparent : (t₁.set temp (.file bytes)).isDir path.dropLast = true := by
    have hother : path.dropLast ≠ temp := by
      intro h
      rw [FileTree.isDir_iff, h, hnone] at hdir
      cases hdir
    rw [FileTree.isDir_iff, FileTree.get_set_ne hother]
    exact FileTree.isDir_iff.mp hdir
  have htarget : (t₁.set temp (.file bytes)).isDir path = false := by
    rw [FileTree.isDir, FileTree.get_set_ne (Ne.symm hne)]
    exact hpath
  obtain ⟨t', hmove, hget⟩ := moveFile_works hfile hparent htarget hnil
  refine ⟨t', hmove, fun q => ?_⟩
  rw [hget]
  by_cases hq : q = path
  · rw [if_pos hq, if_pos hq]
  · rw [if_neg hq, if_neg hq]
    by_cases htemp : q = temp
    · rw [if_pos htemp, htemp, hnone]
    · rw [if_neg htemp, FileTree.get_set_ne htemp]

/-- FRAME: removing what is not there. -/
theorem get_removeFile_of_none (h : t.get path = none) (works : Bool) (q : List String) :
    (removeFile t path works).get q = t.get q := by
  cases works with
  | false => rfl
  | true =>
    have hdir : t.isDir path = false := by rw [FileTree.isDir, h]
    show (t.del path).get q = t.get q
    rw [FileTree.get_del hdir]
    split
    · next hq => rw [hq, h]
    · rfl

/-- How a write ends: before there is a temporary file, with one that may be removed, or with the
    bytes in place. -/
inductive WriteEnd (t : Tree) (path : List String) (bytes : ByteArray) (a : WriteAnswers) :
    Except String Unit × Tree → Prop
  | unopened (e : String) (t' : Tree) (hnot : ¬ Opened t path a)
      (hsame : ∀ q, t'.fileAt q = t.fileAt q) : WriteEnd t path bytes a (.error e, t')
  | aborted (e : String) (t' : Tree) (hopened : Opened t path a)
      (hfails : ¬(a.writes = true ∧ a.replaces = true))
      (hsame : (∀ q, t'.fileAt q = t.fileAt q) ↔ a.removes = true) :
      WriteEnd t path bytes a (.error e, t')
  | replaced (t₁ t' : Tree) (hopened : Opened t path a) (hwrites : a.writes = true)
      (hreplaces : a.replaces = true) (hgrown : Grown path.dropLast t t₁)
      (hdir : t₁.isDir path.dropLast = true)
      (hget : ∀ q, t'.get q = if q = path then some (.file bytes) else t₁.get q) :
      WriteEnd t path bytes a (if a.syncs then .ok () else .error "sync", t')

/-- INVERSION: how a write ends. -/
theorem atomicWrite_end (a : WriteAnswers) (bytes : ByteArray) (hnil : path ≠ [])
    (hpath : t.isDir path = false) : WriteEnd t path bytes a (atomicWrite t path bytes a) := by
  rw [atomicWrite]
  rcases createDirs_cases a.made path.dropLast t with
    ⟨t₁, hrun, hmakeable, hgrown, hdir⟩ | ⟨t₁, hrun, hnot, hgrown⟩
  · rw [hrun]
    dsimp only
    have htemp : t₁.has (tempPath path a.nonce) = t.has (tempPath path a.nonce) := by
      rw [FileTree.has, FileTree.has, hgrown.get (tempPath_not_above path a.nonce)]
    by_cases hopen : a.creates = true ∧ t.has (tempPath path a.nonce) = false
    · have hopened : Opened t path a := ⟨hmakeable, hopen.1, hopen.2⟩
      have hnone : t₁.get (tempPath path a.nonce) = none :=
        FileTree.has_eq_false.mp (htemp.trans hopen.2)
      have hset : t₁.settable (tempPath path a.nonce) = true :=
        settable_of_none (by simp [tempPath]) (by rwa [tempPath, List.dropLast_concat]) hnone
      rw [if_neg (by simp [hopen.1, htemp, hopen.2])]
      cases hwrites : a.writes with
      | false =>
        exact .aborted _ _ hopened (by simp [hwrites]) (removed_iff hgrown hset hnone a.removes)
      | true =>
        rw [if_neg (by simp)]
        cases hreplaces : a.replaces with
        | false =>
          rw [moveFile_fails]
          exact .aborted _ _ hopened (by simp [hreplaces])
            (removed_iff hgrown hset hnone a.removes)
        | true =>
          have hpath₁ : t₁.isDir path = false := by
            rw [FileTree.isDir, hgrown.get (not_above_parent hnil)]
            exact hpath
          obtain ⟨t', hmove, hget⟩ :=
            replace_works hdir hpath₁ hnil (tempPath_ne path a.nonce) hset hnone
          rw [hmove]
          dsimp only
          have hgone : t'.get (tempPath path a.nonce) = none := by
            rw [hget, if_neg (tempPath_ne path a.nonce), hnone]
          have hend : ∀ t'', (∀ q, t''.get q = t'.get q) →
              WriteEnd t path bytes a (if a.syncs then .ok () else .error "sync", t'') :=
            fun t'' hsame => .replaced t₁ t'' hopened hwrites hreplaces hgrown hdir
              fun q => (hsame q).trans (hget q)
          cases hsyncs : a.syncs with
          | true =>
            have hdone := hend t' fun _ => rfl
            rw [hsyncs] at hdone
            exact hdone
          | false =>
            have hdone := hend _ (get_removeFile_of_none hgone a.removes)
            rw [hsyncs] at hdone
            exact hdone
    · rw [if_pos]
      · exact .unopened _ t₁ (fun h => hopen ⟨h.creates, h.new⟩) hgrown.fileAt
      · rw [htemp]
        cases hcreates : a.creates with
        | false => rfl
        | true =>
          cases hhas : t.has (tempPath path a.nonce) with
          | false => exact absurd ⟨hcreates, hhas⟩ hopen
          | true => rfl
  · rw [hrun]
    exact .unopened _ t₁ (fun h => hnot h.dirs) hgrown.fileAt

end

/-! ### What a failure leaves -/

section
variable {p : Platform} {R : Type} {h : Option (ResourceHandler R)}

/-- The same files, and the same references. -/
structure InPlace (s s' : Shelf R) : Prop where
  files : ∀ q, s'.tree.fileAt q = s.tree.fileAt q
  refs : s'.refs = s.refs

theorem InPlace.refl (s : Shelf R) : InPlace s s := ⟨fun _ => rfl, rfl⟩

theorem fileAt_replaced {t t₁ t' : Tree} {dir path : List String} {bytes : ByteArray}
    (hgrown : Grown dir t t₁)
    (hget : ∀ q, t'.get q = if q = path then some (.file bytes) else t₁.get q) (q : List String) :
    t'.fileAt q = if q = path then some bytes else t.fileAt q := by
  rw [FileTree.fileAt, hget]
  by_cases hq : q = path
  · rw [if_pos hq, if_pos hq]
  · rw [if_neg hq, if_neg hq, ← hgrown.fileAt]
    rfl

/-- A write that fails leaves all files in place exactly if it is clean. -/
theorem WriteEnd.clean_iff {t t' : Tree} {path : List String} {bytes : ByteArray}
    {a : WriteAnswers} {r : Except String Unit} (hend : WriteEnd t path bytes a (r, t')) :
    (∀ e, r = .error e → ∀ q, t'.fileAt q = t.fileAt q) ↔ a.Clean t path bytes := by
  generalize hrun : (r, t') = run at hend
  cases hend with
  | unopened e t'' hnot hsame =>
    cases hrun
    exact ⟨fun _ hopened => absurd hopened hnot, fun _ _ _ => hsame⟩
  | aborted e t'' hopened hfails hsame =>
    cases hrun
    constructor
    · intro hall _
      rw [if_neg hfails]
      exact hsame.mp (hall e rfl)
    · intro hclean _ _
      have hremoves := hclean hopened
      rw [if_neg hfails] at hremoves
      exact hsame.mpr hremoves
  | replaced t₁ t'' hopened hwrites hreplaces hgrown hdir hget =>
    cases hrun
    have hfile := fileAt_replaced hgrown hget
    constructor
    · intro hall _
      rw [if_pos ⟨hwrites, hreplaces⟩]
      cases hsyncs : a.syncs with
      | true => exact .inl rfl
      | false =>
        have hsame := hall "sync" (by rw [hsyncs]; rfl) path
        rw [hfile, if_pos rfl] at hsame
        exact .inr hsame.symm
    · intro hclean e he q
      have hdone := hclean hopened
      rw [if_pos ⟨hwrites, hreplaces⟩] at hdone
      rcases hdone with hsyncs | hbytes
      · rw [hsyncs] at he
        cases he
      · rw [hfile]
        by_cases hq : q = path
        · rw [if_pos hq, hq, hbytes]
        · rw [if_neg hq]

theorem WriteEnd.not_works {t t' : Tree} {path : List String} {bytes : ByteArray}
    {a : WriteAnswers} {e : String} (hend : WriteEnd t path bytes a (.error e, t')) :
    ¬ a.Works t path := by
  intro hworks
  generalize hrun : ((.error e, t') : Except String Unit × Tree) = run at hend
  cases hend with
  | unopened e' t'' hnot hsame => exact hnot hworks.opened
  | aborted e' t'' hopened hfails hsame => exact hfails ⟨hworks.writes, hworks.replaces⟩
  | replaced t₁ t'' hopened hwrites hreplaces hgrown hdir hget =>
    rw [hworks.syncs] at hrun
    cases hrun

theorem WriteEnd.of_ok {t t' : Tree} {path : List String} {bytes : ByteArray} {a : WriteAnswers}
    {u : Unit} (hend : WriteEnd t path bytes a (.ok u, t')) :
    a.Works t path ∧ ∃ t₁, Grown path.dropLast t t₁ ∧ t₁.isDir path.dropLast = true ∧
      ∀ q, t'.get q = if q = path then some (.file bytes) else t₁.get q := by
  generalize hrun : ((.ok u, t') : Except String Unit × Tree) = run at hend
  cases hend with
  | unopened e t'' hnot hsame => cases hrun
  | aborted e t'' hopened hfails hsame => cases hrun
  | replaced t₁ t'' hopened hwrites hreplaces hgrown hdir hget =>
    cases hsyncs : a.syncs with
    | false =>
      rw [hsyncs] at hrun
      cases hrun
    | true =>
      rw [hsyncs] at hrun
      cases hrun
      exact ⟨⟨hopened, hwrites, hreplaces, hsyncs⟩, t₁, hgrown, hdir, hget⟩

/-! ### A rename -/

/-- A rename that fails has changed no references: the owner refuses, or all goes well after it, or
    there is nothing to rewrite. -/
def RenameAnswers.Harmless (h : Option (ResourceHandler R)) (a : RenameAnswers) (old new : Place)
    (s : Shelf R) : Prop :=
  refused h a = true ∨ (Makeable s.tree (full new).dropLast a.made ∧ a.moves = true) ∨
    rewritten h old new s.refs = s.refs

theorem full_ne_nil (place : Place) : full place ≠ [] := List.cons_ne_nil _ _

/-- How a rename ends: refused, stuck with the references rewritten, or moved. -/
inductive MoveEnd (h : Option (ResourceHandler R)) (old new : Place) (bytes : ByteArray)
    (a : RenameAnswers) (s : Shelf R) : Except String Unit × Shelf R → Prop
  | refused (e : String) (hrefused : refused h a = true) : MoveEnd h old new bytes a s (.error e, s)
  | stuck (e : String) (t' : Tree) (hagrees : ¬ refused h a = true)
      (hfails : ¬(Makeable s.tree (full new).dropLast a.made ∧ a.moves = true))
      (hsame : ∀ q, t'.fileAt q = s.tree.fileAt q) :
      MoveEnd h old new bytes a s (.error e, ⟨t', rewritten h old new s.refs⟩)
  | moved (t₁ t' : Tree) (hagrees : ¬ refused h a = true)
      (hmakeable : Makeable s.tree (full new).dropLast a.made) (hmoves : a.moves = true)
      (hgrown : Grown (full new).dropLast s.tree t₁) (hdir : t₁.isDir (full new).dropLast = true)
      (hget : ∀ q, t'.get q =
        if q = full new then some (.file bytes) else if q = full old then none else t₁.get q) :
      MoveEnd h old new bytes a s (.ok (), ⟨t', rewritten h old new s.refs⟩)

/-- INVERSION: how a rename ends. -/
theorem renameAt_end {old new : Place} {bytes : ByteArray} {a : RenameAnswers} {s : Shelf R}
    (hold : s.tree.fileAt (full old) = some bytes) (hnew : s.tree.has (full new) = false) :
    MoveEnd h old new bytes a s (renameAt h old new a s) := by
  have hlook : lookMove s.tree old new = .ok () := by simp [lookMove, hold, hnew]
  rw [renameAt, hlook]
  dsimp only
  rw [relocate]
  by_cases hrefused : refused h a = true
  · rw [if_pos hrefused]
    exact .refused _ hrefused
  rw [if_neg hrefused]
  rcases createDirs_cases a.made (full new).dropLast s.tree with
    ⟨t₁, hrun, hmakeable, hgrown, hdir⟩ | ⟨t₁, hrun, hnot, hgrown⟩
  · rw [hrun]
    dsimp only
    cases hmoves : a.moves with
    | false =>
      rw [moveFile_fails]
      refine .stuck _ t₁ hrefused (fun hall => ?_) hgrown.fileAt
      rw [hmoves] at hall
      cases hall.2
    | true =>
      have hold₁ : t₁.fileAt (full old) = some bytes := (hgrown.fileAt _).trans hold
      have hnew₁ : t₁.isDir (full new) = false := by
        rw [FileTree.isDir, hgrown.get (not_above_parent (full_ne_nil new)),
          FileTree.has_eq_false.mp hnew]
      obtain ⟨t', hmove, hget⟩ := moveFile_works hold₁ hdir hnew₁ (full_ne_nil new)
      rw [hmove]
      exact .moved t₁ t' hrefused hmakeable hmoves hgrown hdir hget
  · rw [hrun]
    exact .stuck _ t₁ hrefused (fun hall => hnot hall.1) hgrown.fileAt

/-- A rename that passed its checks leaves all in place, if it fails, exactly if it is harmless. -/
theorem MoveEnd.inPlace_iff {old new : Place} {bytes : ByteArray} {a : RenameAnswers}
    {s s' : Shelf R} {r : Except String Unit} (hend : MoveEnd h old new bytes a s (r, s')) :
    (∀ e, r = .error e → InPlace s s') ↔ a.Harmless h old new s := by
  generalize hrun : (r, s') = run at hend
  cases hend with
  | refused e hrefused =>
    cases hrun
    exact ⟨fun _ => .inl hrefused, fun _ _ _ => .refl s⟩
  | stuck e t' hagrees hfails hsame =>
    cases hrun
    constructor
    · exact fun hall => .inr (.inr (hall e rfl).refs)
    · rintro (hrefused | hworks | hrefs) _ _
      · exact absurd hrefused hagrees
      · exact absurd hworks hfails
      · exact ⟨hsame, hrefs⟩
  | moved t₁ t' hagrees hmakeable hmoves hgrown hdir hget =>
    cases hrun
    exact ⟨fun _ => .inr (.inl ⟨hmakeable, hmoves⟩), fun _ e he => by cases he⟩

/-! ### A replacement -/

/-- A replacement whose bytes are staged leaves nothing behind if it fails: what is staged is removed
    where the owner refuses, and where it does not its rewriting is undone as well. -/
structure ReplaceAnswers.Undone (h : Option (ResourceHandler R)) (a : ReplaceAnswers)
    (old new : Place) (refs : R) : Prop where
  refusal : refused h a.rename = true → a.removes = true
  stuck : ¬ refused h a.rename = true → a.rename.moves = false →
    a.removes = true ∧ rewritten h old new refs = refs
  restored : ¬ refused h a.rename = true → a.rename.moves = true → a.publishes = false →
    ¬ refused h a.rollback = true → a.rollback.moves = true →
    a.removes = true ∧ rewritten h new old (rewritten h old new refs) = refs

/-- What is staged is gone exactly if it is removed. -/
theorem unstaged_iff {t t' : Tree} {staged : List String} {bytes : ByteArray}
    (hstaged : t.fileAt staged = some bytes) (hsame : ∀ q, t'.fileAt q = t.fileAt q)
    (removes : Bool) :
    (∀ q, (removeFile t' staged removes).fileAt q = if q = staged then none else t.fileAt q) ↔
      removes = true := by
  cases removes with
  | true =>
    refine ⟨fun _ => rfl, fun _ q => ?_⟩
    rw [fileAt_removeFile (FileTree.isDir_of_fileAt ((hsame staged).trans hstaged)), hsame]
  | false =>
    refine ⟨fun hall => ?_, fun h => by cases h⟩
    have hleft : t'.fileAt staged = if staged = staged then none else t.fileAt staged := hall staged
    rw [if_pos rfl, hsame, hstaged] at hleft
    cases hleft

/-- What is staged has no name that a resource has. -/
theorem stagedPath_ne {new : Place} (hvisible : isVisible (full new) = true) (uuid : String) :
    stagedPath new uuid ≠ full new := by
  intro heq
  rw [← heq] at hvisible
  simp [isVisible, stagedPath, String.toList_append] at hvisible

/-- The files after a file has moved. -/
theorem fileAt_moved {t t₁ t' : Tree} {dir old new : List String} {bytes : ByteArray}
    (hgrown : Grown dir t t₁)
    (hget : ∀ q, t'.get q =
      if q = new then some (.file bytes) else if q = old then none else t₁.get q)
    (q : List String) :
    t'.fileAt q = if q = new then some bytes else if q = old then none else t.fileAt q := by
  rw [FileTree.fileAt, hget]
  by_cases hnew : q = new
  · rw [if_pos hnew, if_pos hnew]
  · rw [if_neg hnew, if_neg hnew]
    by_cases hold : q = old
    · rw [if_pos hold, if_pos hold]
    · rw [if_neg hold, if_neg hold, ← hgrown.fileAt]
      rfl

/-- Directories stay where a file moves. -/
theorem isDir_moved {t₁ t' : Tree} {old new q : List String} {bytes : ByteArray}
    (hget : ∀ q, t'.get q =
      if q = new then some (.file bytes) else if q = old then none else t₁.get q)
    (hnew : q ≠ new) (hold : q ≠ old) (hq : t₁.isDir q = true) : t'.isDir q = true := by
  rw [FileTree.isDir_iff, hget, if_neg hnew, if_neg hold]
  exact FileTree.isDir_iff.mp hq

theorem dropLast_ne {path : List String} (hnil : path ≠ []) : path.dropLast ≠ path := by
  intro h
  exact not_above_parent hnil (by rw [h])

theorem fileAt_ne_dir {t : Tree} {file dir : List String} {bytes : ByteArray}
    (hfile : t.fileAt file = some bytes) (hdir : t.isDir dir = true) : file ≠ dir := by
  rintro rfl
  rw [FileTree.isDir_of_fileAt hfile] at hdir
  cases hdir

/-- A resource stands in a directory. -/
theorem isDir_of_child {t : Tree} {place : Place} {bytes : ByteArray}
    (hfile : t.fileAt (full place) = some bytes) : t.isDir (full place).dropLast = true := by
  rw [FileTree.fileAt_eq_some, ← List.dropLast_concat_getLast (full_ne_nil place)] at hfile
  refine FileTree.isDir_iff.mpr (t.rooted _ ((full place).getLast (full_ne_nil place)) ?_)
  rw [hfile]
  exact Option.some_ne_none _

/-- STEP: the replacement from where its bytes are staged. -/
theorem publish_iff {old new : Place} {original bytes : ByteArray} {a : ReplaceAnswers}
    {s : Shelf R} (hvisible : isVisible (full new) = true)
    (hold : s.tree.fileAt (full old) = some original) (hnew : s.tree.has (full new) = false)
    (hdir : s.tree.isDir (full new).dropLast = true)
    (hstaged : s.tree.fileAt (stagedPath new a.uuid) = some bytes)
    (hne : full old ≠ stagedPath new a.uuid) :
    (∀ e, (publish h old new a s).1 = .error (.failed e) →
      (∀ q, (publish h old new a s).2.tree.fileAt q =
        if q = stagedPath new a.uuid then none else s.tree.fileAt q) ∧
      (publish h old new a s).2.refs = s.refs) ↔ a.Undone h old new s.refs := by
  have hend := renameAt_end (h := h) (a := a.rename) hold hnew
  rw [publish]
  generalize hrun : renameAt h old new a.rename s = run at hend
  cases hend with
  | refused e hrefused =>
    dsimp only
    have hgone := unstaged_iff hstaged (fun q => rfl) a.removes
    constructor
    · intro hall
      exact ⟨fun _ => hgone.mp (hall e rfl).1, fun hagrees => absurd hrefused hagrees,
        fun hagrees => absurd hrefused hagrees⟩
    · intro hundone _ _
      exact ⟨hgone.mpr (hundone.refusal hrefused), rfl⟩
  | stuck e t' hagrees hfails hsame =>
    dsimp only
    have hmoves : a.rename.moves = false := by
      rw [← Bool.not_eq_true]
      exact fun hmoves => hfails ⟨makeable_of_isDir hdir _, hmoves⟩
    have hgone := unstaged_iff hstaged hsame a.removes
    constructor
    · intro hall
      obtain ⟨hfiles, hrefs⟩ := hall e rfl
      refine ⟨fun hrefused => absurd hrefused hagrees, fun _ _ => ⟨hgone.mp hfiles, hrefs⟩,
        fun _ hmoved => ?_⟩
      rw [hmoves] at hmoved
      cases hmoved
    · intro hundone _ _
      obtain ⟨hremoves, hrefs⟩ := hundone.stuck hagrees hmoves
      exact ⟨hgone.mpr hremoves, hrefs⟩
  | moved t₁ t' hagrees hmakeable hmoves hgrown hdir₁ hget =>
    dsimp only
    have hfile : ∀ q, t'.fileAt q = if q = full new then some original
        else if q = full old then none else s.tree.fileAt q := fileAt_moved hgrown hget
    have hstaged' : t'.fileAt (stagedPath new a.uuid) = some bytes := by
      rw [hfile, if_neg (stagedPath_ne hvisible a.uuid), if_neg (Ne.symm hne), hstaged]
    have hnewFile : t'.fileAt (full new) = some original := by rw [hfile, if_pos rfl]
    have hgoes : ¬ a.rename.moves = false := by
      rw [hmoves]
      exact fun h => by cases h
    cases hpublishes : a.publishes with
    | true =>
      have hdir' : t'.isDir (full new).dropLast = true :=
        isDir_moved hget (dropLast_ne (full_ne_nil new)) (fileAt_ne_dir hold hdir).symm hdir₁
      obtain ⟨t'', hmove, -⟩ := moveFile_works hstaged' hdir'
        (FileTree.isDir_of_fileAt hnewFile) (full_ne_nil new)
      rw [hmove]
      dsimp only
      refine ⟨fun _ => ⟨fun hrefused => absurd hrefused hagrees,
        fun _ hstays => absurd hstays hgoes, fun _ _ hfails => ?_⟩, fun _ e he => by cases he⟩
      rw [hpublishes] at hfails
      cases hfails
    | false =>
      rw [moveFile_fails]
      dsimp only
      have hnames : full old ≠ full new := by
        intro heq
        rw [heq, FileTree.fileAt, FileTree.has_eq_false.mp hnew] at hold
        cases hold
      have holdGone : t'.has (full old) = false := by
        rw [FileTree.has_eq_false, hget, if_neg hnames, if_pos rfl]
      have hback := renameAt_end (h := h) (a := a.rollback)
        (s := ⟨t', rewritten h old new s.refs⟩) hnewFile holdGone
      generalize renameAt h new old a.rollback ⟨t', rewritten h old new s.refs⟩ = run' at hback
      cases hback with
      | refused e hrefused =>
        dsimp only
        exact ⟨fun _ => ⟨fun hrefused' => absurd hrefused' hagrees,
          fun _ hstays => absurd hstays hgoes,
          fun _ _ _ hagrees' => absurd hrefused hagrees'⟩, fun _ e he => by cases he⟩
      | stuck e t'' hagrees' hfails hsame =>
        dsimp only
        have holdDir : t'.isDir (full old).dropLast = true :=
          isDir_moved hget (fun heq => by
            have hparent := isDir_of_child hold
            rw [heq, FileTree.isDir, FileTree.has_eq_false.mp hnew] at hparent
            cases hparent) (dropLast_ne (full_ne_nil old)) (hgrown.isDir (isDir_of_child hold))
        exact ⟨fun _ => ⟨fun hrefused' => absurd hrefused' hagrees,
          fun _ hstays => absurd hstays hgoes, fun _ _ _ _ hmoves' =>
            absurd ⟨makeable_of_isDir holdDir _, hmoves'⟩ hfails⟩, fun _ e he => by cases he⟩
      | moved t₂ t'' hagrees' hmakeable' hmoves' hgrown' hdir₂ hget' =>
        dsimp only
        have hall : ∀ q, t''.fileAt q = s.tree.fileAt q := by
          intro q
          have hfile' : t''.fileAt q = if q = full old then some original
            else if q = full new then none else t'.fileAt q := fileAt_moved hgrown' hget' q
          rw [hfile', hfile]
          by_cases hq : q = full old
          · rw [if_pos hq, hq, hold]
          · rw [if_neg hq, if_neg hq]
            by_cases hq' : q = full new
            · rw [if_pos hq', hq', FileTree.fileAt, FileTree.has_eq_false.mp hnew]
            · rw [if_neg hq', if_neg hq']
        have hgone := unstaged_iff hstaged hall a.removes
        constructor
        · intro hrun'
          obtain ⟨hfiles, hrefs⟩ := hrun' _ rfl
          exact ⟨fun hrefused => absurd hrefused hagrees, fun _ hstays => absurd hstays hgoes,
            fun _ _ _ _ _ => ⟨hgone.mp hfiles, hrefs⟩⟩
        · intro hundone _ _
          obtain ⟨hremoves, hrefs⟩ := hundone.restored hagrees hmoves hpublishes hagrees' hmoves'
          exact ⟨hgone.mpr hremoves, hrefs⟩

/-- A replacement that fails leaves all in place: the write of the new bytes does, and once they are
    staged what follows is undone. -/
def ReplaceAnswers.Harmless (h : Option (ResourceHandler R)) (a : ReplaceAnswers) (old new : Place)
    (bytes : ByteArray) (s : Shelf R) : Prop :=
  if old = new then a.staging.Clean s.tree (full old) bytes
  else a.staging.Clean s.tree (stagedPath new a.uuid) bytes ∧
    (a.staging.Works s.tree (stagedPath new a.uuid) → a.Undone h old new s.refs)

theorem stagedPath_dropLast (new : Place) (uuid : String) :
    (stagedPath new uuid).dropLast = (full new).dropLast := List.dropLast_concat

theorem stagedPath_ne_nil (new : Place) (uuid : String) : stagedPath new uuid ≠ [] := by
  simp [stagedPath]

/-- STEP: the replacement from where its checks are passed. -/
theorem replaceAt_iff {old new : Place} {original bytes : ByteArray} {a : ReplaceAnswers}
    {s : Shelf R} (hvisible : isVisible (full new) = true)
    (hold : s.tree.fileAt (full old) = some original)
    (hnew : old ≠ new → s.tree.has (full new) = false)
    (hfresh : s.tree.has (stagedPath new a.uuid) = false) :
    (∀ e, (replaceAt h old new bytes a s).1 = .error (.failed e) →
      InPlace s (replaceAt h old new bytes a s).2) ↔ a.Harmless h old new bytes s := by
  rw [replaceAt, ReplaceAnswers.Harmless]
  by_cases hsame : old = new
  · rw [if_pos hsame, if_pos hsame]
    have hend := atomicWrite_end (t := s.tree) a.staging bytes (full_ne_nil old)
      (FileTree.isDir_of_fileAt hold)
    generalize atomicWrite s.tree (full old) bytes a.staging = run at hend
    obtain ⟨r, t'⟩ := run
    rw [← hend.clean_iff]
    cases r with
    | error e =>
      exact ⟨fun hall _ _ => (hall e rfl).files, fun hall _ _ => ⟨hall e rfl, rfl⟩⟩
    | ok u => exact ⟨fun _ e he => (by cases he), fun _ e he => by cases he⟩
  rw [if_neg hsame, if_neg hsame]
  have hstagedNone : s.tree.fileAt (stagedPath new a.uuid) = none := by
    rw [FileTree.fileAt, FileTree.has_eq_false.mp hfresh]
  have hne : full old ≠ stagedPath new a.uuid := by
    intro heq
    rw [heq, hstagedNone] at hold
    cases hold
  have hstagedDir : s.tree.isDir (stagedPath new a.uuid) = false := by
    rw [FileTree.isDir, FileTree.has_eq_false.mp hfresh]
  have hend := atomicWrite_end a.staging bytes (stagedPath_ne_nil new a.uuid) hstagedDir
  generalize atomicWrite s.tree (stagedPath new a.uuid) bytes a.staging = run at hend
  obtain ⟨r, t'⟩ := run
  have hiff := hend.clean_iff
  cases r with
  | error e =>
    have hnot := hend.not_works
    constructor
    · intro hall
      refine ⟨hiff.mp fun e' he' => ?_, fun hworks => absurd hworks hnot⟩
      exact (hall e rfl).files
    · intro hharmless _ _
      exact ⟨hiff.mpr hharmless.1 e rfl, rfl⟩
  | ok u =>
    obtain ⟨hworks, t₁, hgrown, hdir, hget⟩ := hend.of_ok
    have hclean : a.staging.Clean s.tree (stagedPath new a.uuid) bytes :=
      hiff.mp fun e he => by cases he
    rw [stagedPath_dropLast] at hgrown hdir
    have hfile := fileAt_replaced hgrown hget
    have hnew' : t'.has (full new) = false := by
      rw [FileTree.has_eq_false, hget, if_neg (stagedPath_ne hvisible a.uuid).symm,
        hgrown.get (not_above_parent (full_ne_nil new)), FileTree.has_eq_false.mp (hnew hsame)]
    have hold' : t'.fileAt (full old) = some original := by rw [hfile, if_neg hne, hold]
    have hdir' : t'.isDir (full new).dropLast = true := by
      have hother : (full new).dropLast ≠ stagedPath new a.uuid := by
        rw [← stagedPath_dropLast new a.uuid]
        exact dropLast_ne (stagedPath_ne_nil new a.uuid)
      rw [FileTree.isDir_iff, hget, if_neg hother]
      exact FileTree.isDir_iff.mp hdir
    have hstaged : t'.fileAt (stagedPath new a.uuid) = some bytes := by rw [hfile, if_pos rfl]
    have hpublish := publish_iff (h := h) (s := ⟨t', s.refs⟩) hvisible hold' hnew' hdir' hstaged hne
    have hback : ∀ q, (if q = stagedPath new a.uuid then none else t'.fileAt q) =
        s.tree.fileAt q := by
      intro q
      by_cases hq : q = stagedPath new a.uuid
      · rw [if_pos hq, hq, hstagedNone]
      · rw [if_neg hq, hfile, if_neg hq]
    constructor
    · intro hall
      refine ⟨hclean, fun _ => hpublish.mp fun e he => ⟨fun q => ?_, (hall e he).refs⟩⟩
      rw [hback]
      exact (hall e he).files q
    · rintro ⟨-, hundone⟩ e he
      obtain ⟨hfiles, hrefs⟩ := hpublish.mpr (hundone hworks) e he
      exact ⟨fun q => (hfiles q).trans (hback q), hrefs⟩

/-! ### The calls -/

/-- The places that the two paths of a call name. -/
def Named (p : Platform) (pkg plugin oldPath newPath : String) (old new : Place) : Prop :=
  ∃ oldSegs newSegs, normalizeBoth p oldPath newPath = .ok (oldSegs, newSegs) ∧
    bothPlaces pkg plugin oldSegs newSegs = .ok (old, new)

variable {pkg plugin oldPath newPath : String}

theorem bothPlaces_ok {oldSegs newSegs : List String} {old new : Place}
    (hplaces : bothPlaces pkg plugin oldSegs newSegs = .ok (old, new)) :
    old = ⟨pkg, plugin, oldSegs⟩ ∧ new = ⟨pkg, plugin, newSegs⟩ := by
  obtain ⟨old', hold, hplaces⟩ := bind_eq_ok.mp hplaces
  obtain ⟨new', hnew, hplaces⟩ := bind_eq_ok.mp hplaces
  cases hplaces
  exact ⟨resourcePath_ok hold, resourcePath_ok hnew⟩

/-- A resource that is named is no hidden file. -/
theorem Named.visible {old new : Place} (hnamed : Named p pkg plugin oldPath newPath old new) :
    isVisible (full new) = true := by
  obtain ⟨oldSegs, newSegs, hsegs, hplaces⟩ := hnamed
  obtain ⟨_, -, hsegs⟩ := bind_eq_ok.mp hsegs
  obtain ⟨segs, hnew, hsegs⟩ := bind_eq_ok.mp hsegs
  cases hsegs
  obtain ⟨_, -, hplaces⟩ := bind_eq_ok.mp hplaces
  obtain ⟨place, hplace, hplaces⟩ := bind_eq_ok.mp hplaces
  cases hplaces
  have hlocate : locate p pkg plugin (String.ofList (trim p newPath.toList)) = .ok new := by
    rw [locate, String.toList_ofList]
    exact bind_eq_ok.mpr ⟨newSegs, hnew, hplace⟩
  exact locate_visible hlocate

theorem lookMove_ok {t : Tree} {old new : Place} (hlook : lookMove t old new = .ok ()) :
    (∃ bytes, t.fileAt (full old) = some bytes) ∧ t.has (full new) = false := by
  unfold lookMove at hlook
  split_ifs at hlook with hnone hthere
  exact ⟨Option.ne_none_iff_exists'.mp (by simpa using hnone), Bool.eq_false_iff.mpr hthere⟩

theorem lookReplace_ok {t : Tree} {old new : Place} {readable : Bool} {expected : String}
    (hlook : lookReplace p t old new readable expected = .ok ()) :
    (∃ bytes, t.fileAt (full old) = some bytes) ∧ (old ≠ new → t.has (full new) = false) := by
  cases hfile : t.fileAt (full old) with
  | none =>
    rw [lookReplace, hfile] at hlook
    split_ifs at hlook
    cases hlook
  | some original =>
    refine ⟨⟨original, rfl⟩, fun hne => ?_⟩
    rw [lookReplace, if_neg hne, hfile] at hlook
    dsimp only at hlook
    split_ifs at hlook with _ _ hthere
    exact Bool.eq_false_iff.mpr hthere

/-- A rename that fails leaves all in place exactly if, its checks passed, it is harmless. -/
theorem renameResource_iff (a : RenameAnswers) (s : Shelf R) :
    (∀ e, (renameResource p h pkg plugin oldPath newPath a s).1 = .error e →
      InPlace s (renameResource p h pkg plugin oldPath newPath a s).2) ↔
    ∀ old new, Named p pkg plugin oldPath newPath old new → old ≠ new →
      lookMove s.tree old new = .ok () → a.Harmless h old new s := by
  rw [renameResource]
  cases hsegs : normalizeBoth p oldPath newPath with
  | error e =>
    refine ⟨fun _ old new hnamed => ?_, fun _ _ _ => .refl s⟩
    obtain ⟨_, _, hsegs', -⟩ := hnamed
    cases hsegs.symm.trans hsegs'
  | ok segs =>
    obtain ⟨oldSegs, newSegs⟩ := segs
    have hnamed : ∀ {old new}, Named p pkg plugin oldPath newPath old new ↔
        bothPlaces pkg plugin oldSegs newSegs = .ok (old, new) := by
      intro old new
      constructor
      · rintro ⟨_, _, hsegs', hplaces⟩
        cases hsegs.symm.trans hsegs'
        exact hplaces
      · exact fun hplaces => ⟨oldSegs, newSegs, hsegs, hplaces⟩
    dsimp only
    by_cases heq : oldSegs = newSegs
    · rw [if_pos heq]
      refine ⟨fun _ old new hboth hne => ?_, fun _ _ _ => .refl s⟩
      obtain ⟨hold, hnew⟩ := bothPlaces_ok (hnamed.mp hboth)
      exact absurd (by rw [hold, hnew, heq]) hne
    rw [if_neg heq]
    cases hplaces : bothPlaces pkg plugin oldSegs newSegs with
    | error e =>
      refine ⟨fun _ old new hboth => ?_, fun _ _ _ => .refl s⟩
      cases hplaces.symm.trans (hnamed.mp hboth)
    | ok places =>
      obtain ⟨old, new⟩ := places
      dsimp only
      have hne : old ≠ new := by
        obtain ⟨hold, hnew⟩ := bothPlaces_ok hplaces
        rw [hold, hnew]
        intro hsame
        cases hsame
        exact heq rfl
      have hall : (∀ old' new', Named p pkg plugin oldPath newPath old' new' → old' ≠ new' →
          lookMove s.tree old' new' = .ok () → a.Harmless h old' new' s) ↔
          (lookMove s.tree old new = .ok () → a.Harmless h old new s) := by
        refine ⟨fun hall => hall old new (hnamed.mpr hplaces) hne, fun hthis old' new' hboth _ => ?_⟩
        cases hplaces.symm.trans (hnamed.mp hboth)
        exact hthis
      rw [hall]
      cases hlook : lookMove s.tree old new with
      | error e =>
        have hrun : renameAt h old new a s = (.error e, s) := by rw [renameAt, hlook]
        rw [hrun]
        exact ⟨fun _ hok => (by cases hok), fun _ _ _ => .refl s⟩
      | ok u =>
        obtain ⟨⟨bytes, hold⟩, hnew⟩ := lookMove_ok hlook
        have hend := renameAt_end (h := h) (a := a) hold hnew
        exact hend.inPlace_iff.trans ⟨fun hharmless _ => hharmless, fun hthis => hthis rfl⟩

/-- A replacement that fails, but for the failure to restore the name, leaves all in place exactly
    if, its checks passed, it is harmless. -/
theorem replaceBinary_iff {bytes : ByteArray} {expected : String} {a : ReplaceAnswers} {s : Shelf R}
    (hfresh : ∀ old new, Named p pkg plugin oldPath newPath old new →
      s.tree.has (stagedPath new a.uuid) = false) :
    (∀ e, (replaceBinary p h pkg plugin oldPath newPath bytes expected a s).1 =
        .error (.failed e) →
      InPlace s (replaceBinary p h pkg plugin oldPath newPath bytes expected a s).2) ↔
    ∀ old new, Named p pkg plugin oldPath newPath old new →
      lookReplace p s.tree old new a.readable expected = .ok () →
        a.Harmless h old new bytes s := by
  rw [replaceBinary]
  cases hsegs : normalizeBoth p oldPath newPath with
  | error e =>
    refine ⟨fun _ old new hnamed => ?_, fun _ _ _ => .refl s⟩
    obtain ⟨_, _, hsegs', -⟩ := hnamed
    cases hsegs.symm.trans hsegs'
  | ok segs =>
    obtain ⟨oldSegs, newSegs⟩ := segs
    have hnamed : ∀ {old new}, Named p pkg plugin oldPath newPath old new →
        bothPlaces pkg plugin oldSegs newSegs = .ok (old, new) := by
      rintro old new ⟨_, _, hsegs', hplaces⟩
      cases hsegs.symm.trans hsegs'
      exact hplaces
    dsimp only
    cases hplaces : bothPlaces pkg plugin oldSegs newSegs with
    | error e =>
      refine ⟨fun _ old new hboth => ?_, fun _ _ _ => .refl s⟩
      cases hplaces.symm.trans (hnamed hboth)
    | ok places =>
      obtain ⟨old, new⟩ := places
      dsimp only
      have hthis : Named p pkg plugin oldPath newPath old new :=
        ⟨oldSegs, newSegs, hsegs, hplaces⟩
      have hall : (∀ old' new', Named p pkg plugin oldPath newPath old' new' →
          lookReplace p s.tree old' new' a.readable expected = .ok () →
            a.Harmless h old' new' bytes s) ↔
          (lookReplace p s.tree old new a.readable expected = .ok () →
            a.Harmless h old new bytes s) := by
        refine ⟨fun hall => hall old new hthis, fun hone old' new' hboth => ?_⟩
        cases hplaces.symm.trans (hnamed hboth)
        exact hone
      rw [hall]
      cases hlook : lookReplace p s.tree old new a.readable expected with
      | error e => exact ⟨fun _ hok => (by cases hok), fun _ _ _ => .refl s⟩
      | ok u =>
        obtain ⟨⟨original, hold⟩, hnew⟩ := lookReplace_ok hlook
        exact (replaceAt_iff hthis.visible hold hnew (hfresh old new hthis)).trans ⟨fun hharmless _ => hharmless, fun hone => hone rfl⟩

/-- A rename or a replacement that fails leaves the files and the references in place exactly if it is
    harmless once its checks are passed. -/
theorem left_in_place_iff {bytes : ByteArray} {expected : String} {a : RenameAnswers}
    {b : ReplaceAnswers} {s : Shelf R}
    (hfresh : ∀ old new, Named p pkg plugin oldPath newPath old new →
      s.tree.has (stagedPath new b.uuid) = false) :
    ((∀ e, (renameResource p h pkg plugin oldPath newPath a s).1 = .error e →
        InPlace s (renameResource p h pkg plugin oldPath newPath a s).2) ↔
      ∀ old new, Named p pkg plugin oldPath newPath old new → old ≠ new →
        lookMove s.tree old new = .ok () → a.Harmless h old new s) ∧
    ((∀ e, (replaceBinary p h pkg plugin oldPath newPath bytes expected b s).1 =
        .error (.failed e) →
        InPlace s (replaceBinary p h pkg plugin oldPath newPath bytes expected b s).2) ↔
      ∀ old new, Named p pkg plugin oldPath newPath old new →
        lookReplace p s.tree old new b.readable expected = .ok () →
          b.Harmless h old new bytes s) :=
  ⟨renameResource_iff a s, replaceBinary_iff hfresh⟩

end

/-! ### One resource -/

/-- References by the paths they name. -/
def pathHandler : ResourceHandler (List (List String)) where
  rewrite old new refs := refs.map fun path => if path = old then new else path

/-- The resource `a.bin`, which another file refers to. -/
def oneResource : Shelf (List (List String)) where
  tree := ((((FileTree.bare.set ["game"] .dir).set ["game", "plugins"] .dir).set
    ["game", "plugins", "test.plugin"] .dir).set ["game", "plugins", "test.plugin", "a.bin"]
      (.file ⟨#[1]⟩))
  refs := [["a.bin"]]

/-- All goes well. -/
def wellWritten : WriteAnswers := ⟨9, "1", true, true, ⟨#[]⟩, true, true, true⟩
def wellRenamed : RenameAnswers := ⟨false, 9, true⟩

/-- The new bytes cannot be published. -/
def unpublished : ReplaceAnswers := ⟨true, "1", wellWritten, wellRenamed, false, wellRenamed, true⟩

theorem named_one {old new : Place}
    (hnamed : Named plainPlatform "game" "test.plugin" "a.bin" "b.bin" old new) :
    old = ⟨"game", "test.plugin", ["a.bin"]⟩ ∧ new = ⟨"game", "test.plugin", ["b.bin"]⟩ := by
  obtain ⟨oldSegs, newSegs, hsegs, hplaces⟩ := hnamed
  have hboth : normalizeBoth plainPlatform "a.bin" "b.bin" = .ok (["a.bin"], ["b.bin"]) := by
    decide +kernel
  cases hboth.symm.trans hsegs
  exact bothPlaces_ok hplaces

/-- The rename is undone if the new bytes cannot be published. -/
theorem left_in_place_iff_unpublished :
    InPlace oneResource (replaceBinary plainPlatform (some pathHandler) "game" "test.plugin" "a.bin"
      "b.bin" ⟨#[2]⟩ "000000000000" unpublished oneResource).2 := by
  have hfresh : ∀ old new, Named plainPlatform "game" "test.plugin" "a.bin" "b.bin" old new →
      oneResource.tree.has (stagedPath new unpublished.uuid) = false := by
    intro old new hnamed
    rw [(named_one hnamed).2]
    decide +kernel
  refine (left_in_place_iff (a := wellRenamed) hfresh).2.mpr (fun old new hnamed _ => ?_)
    "替换失败，原模板已恢复" (by rfl)
  obtain ⟨rfl, rfl⟩ := named_one hnamed
  have hclean : unpublished.staging.Clean oneResource.tree
      (stagedPath ⟨"game", "test.plugin", ["b.bin"]⟩ unpublished.uuid) ⟨#[2]⟩ := by
    intro _
    rw [if_pos ⟨rfl, rfl⟩]
    exact .inl rfl
  rw [ReplaceAnswers.Harmless, if_neg (by decide)]
  exact ⟨hclean, fun _ =>
    ⟨fun h => (by cases h), fun _ h => (by cases h), fun _ _ _ _ _ => ⟨rfl, rfl⟩⟩⟩

/-- A resource that is moved below itself: the references are rewritten, and the file stays. -/
theorem rename_below_itself :
    ¬ ∀ (p : Platform) (R : Type) (h : Option (ResourceHandler R))
      (pkg plugin oldPath newPath : String) (bytes : ByteArray) (expected : String)
      (a : RenameAnswers) (b : ReplaceAnswers) (s : Shelf R),
      (∀ old new, Named p pkg plugin oldPath newPath old new →
        s.tree.has (stagedPath new b.uuid) = false) →
      (∀ e, (renameResource p h pkg plugin oldPath newPath a s).1 = .error e →
        InPlace s (renameResource p h pkg plugin oldPath newPath a s).2) ∧
      ∀ e, (replaceBinary p h pkg plugin oldPath newPath bytes expected b s).1 =
        .error (.failed e) →
        InPlace s (replaceBinary p h pkg plugin oldPath newPath bytes expected b s).2 := by
  intro hall
  have hfresh : ∀ old new, Named plainPlatform "game" "test.plugin" "a.bin" "a.bin/b.bin" old new →
      oneResource.tree.has (stagedPath new unpublished.uuid) = false := by
    rintro old new ⟨oldSegs, newSegs, hsegs, hplaces⟩
    have hboth : normalizeBoth plainPlatform "a.bin" "a.bin/b.bin" =
        .ok (["a.bin"], ["a.bin", "b.bin"]) := by
      decide +kernel
    cases hboth.symm.trans hsegs
    rw [(bothPlaces_ok hplaces).2]
    decide +kernel
  obtain ⟨hrename, -⟩ := hall plainPlatform _ (some pathHandler) "game" "test.plugin" "a.bin"
    "a.bin/b.bin" ⟨#[2]⟩ "" wellRenamed unpublished oneResource hfresh
  have hrefs := (hrename "create_dir_all" (by decide +kernel)).refs
  revert hrefs
  decide +kernel

end Gamer.Packages.Rename
