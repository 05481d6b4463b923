import Gamer.Packages.Media

/-! Importing a package. The media library is snapshotted, the media are restored, the directory is
    swapped and the presets are published; a failure undoes these in turn:

        snapshot ▶ media ▶ aside ▶ install ▶ manifest ▶ presets ▶ Done
                     │       │        │          └── withdraw ▶ putBack ▶ media back ▶ error
                     └───────┴────────┴──────────────▲                                      -/

namespace Gamer.Packages
open Gamer.Lib Gamer.Lib.Prog

/-- What a call is given: the directory in staging, and names for two more. -/
structure ImportRequest where
  pkg : String
  staged : String
  trash : String
  snapshot : String
  overwrite : Bool
  busy : Bool

inductive ImportError where
  | failed (message : String)
  | rollback (message : String)

inductive ImportOutcome where
  | done (overwritten : Bool)
  | conflict

structure MediaImportSummary where
  total : Nat
  imported : Nat
  reused : Nat
  reattached : Nat
  missing : Nat
  created : List String

section
variable {Manifest : Type} (p : Platform) (f : Formats Manifest)

/-! ### Media of the archive -/

/-- The references of other packages stay; the rest of what was created goes. Errors are ignored. -/
def rollbackCreatedMedia (packageId : String) : List String → Prog Answer World Unit
  | [] => give ()
  | id :: created =>
    ((getItem f id).andThen fun m =>
      (setRefs p f id (foreignRefs packageId m.refs)).andThen fun _ => deleteItem f id).orFail
        (fun _ => rollbackCreatedMedia packageId created)
        fun _ => rollbackCreatedMedia packageId created

def mediaFile (sha256 : String) : List String := ["media", "files", asciiLower sha256]

def entryRef (packageId : String) (e : MediaIndexEntry) : MediaRef :=
  ⟨packageId, String.ofList (trim p e.pluginId.toList), String.ofList (trim p e.kind.toList)⟩

def importEntry (packageId : String) (staged : Folder) (e : MediaIndexEntry)
    (summary : MediaImportSummary) : Step MediaImportSummary :=
  match staged (mediaFile e.sha256), e.included with
  | none, true | some _, false => give (.error "素材的 included 与归档字节存在性不一致")
  | some _, true => (tryRead "read" fun _ => staged (mediaFile e.sha256)).andThen fun
    | none => give (.error "read")
    | some bytes => (restoreMedia p f
        ⟨e.id, String.ofList (trim p e.name.toList), asciiLower e.sha256, e.size, e.probe⟩ bytes
        (entryRef p packageId e)).andThen fun
      | .imported id | .collided id => give (.ok { summary with
          imported := summary.imported + 1, created := summary.created ++ [id] })
      | .reused => give (.ok { summary with reused := summary.reused + 1 })
  | none, false => (reattachRef p f e.id e.sha256 (entryRef p packageId e)).andThen fun
    | true => give (.ok { summary with reattached := summary.reattached + 1 })
    | false => give (.ok { summary with missing := summary.missing + 1 })

/-- The entries in order; at an error what was created goes. -/
def importEntries (packageId : String) (staged : Folder) :
    List MediaIndexEntry → MediaImportSummary → Step MediaImportSummary
  | [], summary => give (.ok summary)
  | e :: entries, summary =>
    (importEntry p f packageId staged e summary).orFail
      (fun error => (rollbackCreatedMedia p f packageId summary.created) >>= fun _ =>
        give (.error error))
      fun summary => importEntries packageId staged entries summary

def importPackageMedia (packageId : String) (staged : Folder) : Step MediaImportSummary :=
  match staged ["media", "index.json"] with
  | none => (releasePackage f packageId).andThen fun _ => give (.ok ⟨0, 0, 0, 0, 0, []⟩)
  | some bytes => (tryRead "read" fun _ => f.parseMediaIndex bytes).andThen fun
    | .error e => give (.error e)
    | .ok entries => (releasePackage f packageId).andThen fun _ =>
        importEntries p f packageId staged entries ⟨entries.length, 0, 0, 0, 0, []⟩

/-! ### Snapshot and rollback -/

/-- A copy of each item's metadata file. -/
abbrev Snapshot := List (String × ByteArray)

def World.setStaging (w : World) (name : String) (folder : Option Folder) : World :=
  { w with staging := fun q => if q = name then folder else w.staging q }

def World.setPackage (w : World) (pkg : String) (folder : Option Folder) : World :=
  { w with packages := fun q => if q = pkg then folder else w.packages q }

def backupFile (id : String) : List String := [id ++ ".json"]

def Folder.put (folder : Folder) (path : List String) (bytes : ByteArray) : Folder :=
  fun q => if q = path then some bytes else folder q

/-- A file is written in a directory of staging. -/
def writeStaged (name : String) (path : List String) (bytes : ByteArray) : Step Unit :=
  .effect fun a w =>
    match w.staging name with
    | none => (.error "write", w)
    | some folder =>
      if a.works then (.ok (), w.setStaging name (some (folder.put path bytes)))
      else (.error "write", w)

def createStaging (name : String) : Step Unit := .effect fun a w =>
  if a.works ∧ (w.staging name).isNone then (.ok (), w.setStaging name (some fun _ => none))
  else (.error "create_dir", w)

def snapshotItems (name : String) : List MediaMetadata → List String → Step (List String)
  | [], ids => give (.ok ids)
  | m :: ms, ids =>
    if !isValidMediaId m.id then give (.error "media id 非法")
    else (tryRead "read" fun w => (w.media.get m.id).bind Item.metadata).andThen fun
      | none => give (.error "媒体不存在")
      | some bytes =>
        if (f.readMeta bytes).isNone then give (.error "metadata.json 损坏")
        else if m.id ∈ ids then give (.error "duplicate media id")
        else (writeStaged name (backupFile m.id) bytes).andThen fun _ =>
          snapshotItems name ms (ids ++ [m.id])

def snapshotImportMedia (name : String) : Step (List String) :=
  (createStaging name).andThen fun _ =>
    (tryRead "读取媒体目录失败" fun w => w.list f).andThen fun items =>
      snapshotItems f name items []

/-- The bytes of a metadata file are put back. -/
def restoreMetadata (id : String) (bytes : ByteArray) : Step Unit := .effect fun a w =>
  match w.media.get id with
  | none => (.error "write", w)
  | some item =>
    if a.works then (.ok (), { w with media := w.media.set id { item with metadata := some bytes } })
    else (.error "write", w)

def World.sameMetadata (w : World) (id : String) (bytes : ByteArray) : Bool :=
  match (w.media.get id).bind Item.metadata with
  | some now => now.data.toList = bytes.data.toList
  | none => false

def restoreItems (name : String) : List String → Step Unit
  | [] => give (.ok ())
  | id :: ids =>
    (tryRead "read" fun w => (w.staging name).bind fun folder => folder (backupFile id)).andThen fun
      | none => give (.error "read")
      | some bytes => .reading fun w =>
        if w.sameMetadata id bytes then restoreItems name ids
        else (restoreMetadata id bytes).andThen fun _ => restoreItems name ids

def removeItems (original : List String) : List MediaMetadata → Step Unit
  | [] => give (.ok ())
  | m :: ms =>
    if m.id ∈ original then removeItems original ms
    else (setRefs p f m.id []).andThen fun _ => (deleteItem f m.id).andThen fun _ =>
      removeItems original ms

def rollbackImportMedia (name : String) (original : List String) : Step Unit :=
  (restoreItems name original).andThen fun _ =>
    (tryRead "读取媒体目录失败" fun w => w.list f).andThen fun items =>
      removeItems p f original items

/-! ### Directories and presets -/

/-- A directory of staging takes the package's place, or the other way round. -/
def moveDir (move : Move) (pkg name : String) : Step Unit := .effect fun a w =>
  let done := { w with moves := move :: w.moves }
  match move, w.packages pkg, w.staging name with
  | .aside, some folder, none | .withdraw, some folder, none =>
    if a.works then (.ok (), (done.setPackage pkg none).setStaging name (some folder))
    else (.error "rename", w)
  | .install, none, some folder | .putBack, none, some folder =>
    if a.works then (.ok (), (done.setPackage pkg (some folder)).setStaging name none)
    else (.error "rename", w)
  | _, _, _ => (.error "rename", w)

def packagePresetId (packageId name : String) : String :=
  packageId ++ ":" ++ String.ofList (trim p name.toList)

/-- The rows after the upserts; the time a row was created stays. -/
def upsertPresets (packageId now : String) :
    List PackagePreset → Table String TaskPreset → Except String (Table String TaskPreset)
  | [], rows => .ok rows
  | preset :: presets, rows =>
    let id := packagePresetId p packageId preset.name
    let row : TaskPreset := ⟨packageId, preset, ((rows.get id).map (·.createdAt)).getD now⟩
    if f.validPreset row then upsertPresets packageId now presets (rows.set id row)
    else .error "preset"

/-- One transaction. -/
def publishPackagePresetsAtomic (packageId : String) (presets : List PackagePreset) : Step Unit :=
  .effect fun a w =>
    match upsertPresets p f packageId a.now presets w.presets with
    | .error e => (.error e, w)
    | .ok rows => if a.works then (.ok (), { w with presets := rows }) else (.error "sqlite", w)

/-- A directory of staging is removed; errors are ignored. -/
def removeStaging (name : String) : Prog Answer World Unit := .effect fun a w =>
  ((), if a.works then w.setStaging name none else w)

/-! ### commit_package_import -/

/-- How far the swap has come. -/
structure Swap where
  movedOld : Bool
  installedNew : Bool

/-- The new directory goes back to staging and the old one back to its place. -/
def restorePackage (r : ImportRequest) (swap : Swap) : Step Unit :=
  (if swap.installedNew then moveDir .withdraw r.pkg r.staged else give (.ok ())).andThen fun _ =>
    if swap.movedOld then moveDir .putBack r.pkg r.trash else give (.ok ())

/-- The error path: everything is undone, or what could not be is reported. -/
def undoImport (r : ImportRequest) (original : List String) (swap : Swap) (error : String) :
    Prog Answer World (Except ImportError ImportOutcome) :=
  (restorePackage r swap).orFail (fun _ => give (.error (.rollback "配置回滚失败"))) fun _ =>
    (rollbackImportMedia p f r.snapshot original).orFail
      (fun _ => give (.error (.rollback "媒体回滚失败"))) fun _ =>
        removeStaging r.staged >>= fun _ => removeStaging r.snapshot >>= fun _ =>
          give (.error (.failed error))

/-- From the installed directory on. -/
def publishImport (r : ImportRequest) (original : List String) (movedOld : Bool)
    (presets : List PackagePreset) : Prog Answer World (Except ImportError ImportOutcome) :=
  ((tryRead "read" fun w => w.tryManifest f r.pkg).andThen fun
      | none => give (.error "配置不存在")
      | some _ => publishPackagePresetsAtomic p f r.pkg presets).orFail
    (fun error => undoImport p f r original ⟨movedOld, true⟩ error) fun _ =>
      (if movedOld then removeStaging r.trash else give ()) >>= fun _ =>
        removeStaging r.snapshot >>= fun _ => give (.ok (.done r.overwrite))

/-- The swap, after the media. -/
def installImport (r : ImportRequest) (original : List String) (presets : List PackagePreset) :
    Prog Answer World (Except ImportError ImportOutcome) :=
  .reading fun w =>
    let movedOld := (w.packages r.pkg).isSome
    (if movedOld then moveDir .aside r.pkg r.trash else give (.ok ())).orFail
      (fun error => undoImport p f r original ⟨false, false⟩ error) fun _ =>
        (moveDir .install r.pkg r.staged).orFail
          (fun error => undoImport p f r original ⟨movedOld, false⟩ error) fun _ =>
            publishImport p f r original movedOld presets

def commitPackageImport (r : ImportRequest) : Prog Answer World (Except ImportError ImportOutcome) :=
  .reading fun w =>
    match w.staging r.staged with
    | none => give (.error (.failed "no staging"))
    | some staged =>
      if (w.packages r.pkg).isSome && !r.overwrite then
        removeStaging r.staged >>= fun _ => give (.ok .conflict)
      else if r.busy then
        removeStaging r.staged >>= fun _ => give (.error (.failed "package_busy"))
      else
        match f.readPackagePresets staged with
        | .error e => removeStaging r.staged >>= fun _ => give (.error (.failed e))
        | .ok presets =>
          (snapshotImportMedia f r.snapshot).orFail
            (fun error => removeStaging r.staged >>= fun _ => removeStaging r.snapshot >>= fun _ =>
              give (.error (.failed error))) fun original =>
            (importPackageMedia p f r.pkg staged).orFail
              (fun error => undoImport p f r original ⟨false, false⟩ error) fun _ =>
                installImport p f r original presets

end

end Gamer.Packages
