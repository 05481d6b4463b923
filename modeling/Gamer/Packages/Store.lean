import Gamer.Packages.Import
import Gamer.Packages.Manifest
import Gamer.Packages.Resources

/-! The store's operations, effect by effect. A file is replaced through a hidden one beside it; an
    operation can be cut off between any two effects, and `open` finds what is left:

        create_dir ▶ temp ▶ write ▶ rename ▶ sync            cut ──▶ open ──▶ list_packages    -/

namespace Gamer.Packages
open Gamer.Lib Gamer.Lib.Prog

/-- The formats of a store, and the order in which a directory is walked through. -/
structure StoreFormats (p : Platform) where
  media : Formats PackageManifest
  text : TextFormats
  parse : media.parsePackageToml = parsePackageToml p text
  id : media.manifestId = PackageManifest.id
  readDir : Folder → List (List String)

def noFiles : Folder := fun _ => none

namespace World

def putFile (w : World) (pkg : String) (path : List String) (bytes : ByteArray) : World :=
  w.setPackage pkg (some (((w.packages pkg).getD noFiles).put path bytes))

def eraseFile (w : World) (pkg : String) (path : List String) : World :=
  w.setPackage pkg ((w.packages pkg).map fun folder q => if q = path then none else folder q)

end World

/-! ### Files -/

/-- One directory: the package's own, or one in it, of which nothing else is seen. -/
def makeDir (pkg : String) : Step Unit := .effect fun a w =>
  if a.works then (.ok (), w.setPackage pkg (some ((w.packages pkg).getD noFiles)))
  else (.error "create_dir_all", w)

/-- A hidden name beside a file's. -/
def tempPath (path : List String) (fresh : String) : List String :=
  path.dropLast ++ ["." ++ path.getLastD "" ++ ".tmp-" ++ fresh]

/-- A new file, of which nothing is written. -/
def createTemp (pkg : String) (path : List String) : Step (List String) := .effect fun a w =>
  let temp := tempPath path a.fresh
  if a.works ∧ (w.file pkg temp).isNone then (.ok temp, w.putFile pkg temp ⟨#[]⟩)
  else (.error "无法创建临时文件", w)

def writeTemp (pkg : String) (temp : List String) (bytes : ByteArray) : Step Unit := .effect fun a w =>
  if a.works then (.ok (), w.putFile pkg temp bytes) else (.error "write_all", w)

/-- A file gets another name; a file that had the name is gone. -/
def moveFile (pkg : String) (old new : List String) : Step Unit := .effect fun a w =>
  match w.file pkg old with
  | none => (.error "rename", w)
  | some bytes =>
    if a.works then (.ok (), (w.eraseFile pkg old).putFile pkg new bytes) else (.error "rename", w)

def syncParent : Step Unit := .effect fun a w =>
  if a.works then (.ok (), w) else (.error "sync", w)

/-- A file goes; errors are ignored. -/
def removeFile (pkg : String) (path : List String) : Prog Answer World Unit := .effect fun a w =>
  ((), if a.works then w.eraseFile pkg path else w)

/-- The file is replaced through a temporary one. -/
def atomicWrite (pkg : String) (path : List String) (bytes : ByteArray) : Step Unit :=
  (makeDir pkg).andThen fun _ => (createTemp pkg path).andThen fun temp =>
    ((writeTemp pkg temp bytes).andThen fun _ => (moveFile pkg temp path).andThen fun _ =>
      syncParent).orFail
      (fun error => removeFile pkg temp >>= fun _ => give (.error error))
      fun _ => give (.ok ())

/-! ### Packages -/

section
variable (p : Platform) (s : StoreFormats p)

def manifestPath : List String := ["package.toml"]

def manifestBytes (m : PackageManifest) : ByteArray := (serializePackageToml m).toUTF8

def readManifest (pkg : String) : Step PackageManifest :=
  match validateScopeId "package id" pkg with
  | .error e => give (.error e)
  | .ok _ => (tryRead "配置不存在" fun w => w.tryManifest s.media pkg).andThen fun
    | none => give (.error "配置不存在")
    | some m => give (.ok m)

/-- `create_dir_all` of `shared/` makes the package's own directory first. -/
def createPackage (input : PackageInput) : Step PackageManifest :=
  match input.intoManifest p s.text 1 with
  | .error e => give (.error e)
  | .ok m => .reading fun w =>
    if (w.packages m.id).isSome then give (.error "配置已存在")
    else (makeDir m.id).andThen fun _ => (makeDir m.id).andThen fun _ =>
      (makeDir m.id).andThen fun _ =>
        (atomicWrite m.id manifestPath (manifestBytes m)).andThen fun _ => give (.ok m)

/-- The condition of an update. -/
def checkRevision (current : Nat) (expected : Option Nat) (force : Bool) : Except String Unit :=
  if force then .ok ()
  else
    match expected with
    | none => .error "更新 manifest 必须提供 expected_revision，或显式 force:true"
    | some expected =>
      if expected ≠ current then .error "manifest 已被其他页面修改，请重新加载" else .ok ()

def updateManifest (pkg : String) (input : PackageInput) (expected : Option Nat) (force : Bool) :
    Step PackageManifest :=
  if input.id ≠ pkg then give (.error "package id 不可变")
  else (readManifest p s pkg).andThen fun current =>
    match checkRevision current.revision expected force with
    | .error e => give (.error e)
    | .ok _ =>
      match input.intoManifest p s.text (current.revision + 1) with
      | .error e => give (.error e)
      | .ok m => (atomicWrite pkg manifestPath (manifestBytes m)).andThen fun _ => give (.ok m)

/-- Hidden files are not copied, and neither is what is in a hidden directory. -/
def isHidden (path : List String) : Bool := path.any fun name => name.toList.head? = some '.'

def copyFiles (src dst : String) : List (List String) → Step Unit
  | [] => give (.ok ())
  | path :: paths =>
    if isHidden path then copyFiles src dst paths
    else (Prog.effect fun a w =>
      match w.file src path with
      | none => ((.error "copy" : Except String Unit), w)
      | some bytes => if a.works then (.ok (), w.putFile dst path bytes) else (.error "copy", w)).andThen
        fun _ => copyFiles src dst paths

def duplicatePackage (src newId : String) : Step PackageManifest :=
  match validateScopeId "package id" newId with
  | .error e => give (.error e)
  | .ok _ => (readManifest p s src).andThen fun source => .reading fun w =>
    if (w.packages newId).isSome then give (.error "配置已存在")
    else
      let m := { source with id := newId, revision := 1 }
      (makeDir newId).andThen fun _ =>
        (copyFiles src newId (s.readDir ((w.packages src).getD noFiles))).andThen fun _ =>
          (atomicWrite newId manifestPath (manifestBytes m)).andThen fun _ => give (.ok m)

/-! ### Resources -/

/-- Where a resource's file is in its package. -/
def Place.path (place : Place) : List String := "plugins" :: place.plugin :: place.segs

def World.disk (w : World) : Disk := fun place => w.file place.pkg place.path

/-- The resource moves, if its new name is free. -/
def relocate (old new : Place) : Step Unit := .reading fun w =>
  if (w.disk old).isNone then give (.error "资源不存在")
  else if (w.disk new).isSome then give (.error "资源已存在")
  else (makeDir new.pkg).andThen fun _ => moveFile old.pkg old.path new.path

/-- A new hidden name beside a resource's. -/
def stagedPath (new : Place) : Prog Answer World (List String) := .effect fun a w =>
  (new.path.dropLast ++ [".replace-" ++ a.fresh ++ ".tmp"], w)

/-- The new bytes are staged beside the new name, the resource moves, and the bytes replace it. -/
def replaceResource (old new : Place) (bytes : ByteArray) :
    Prog Answer World (Except String Unit) :=
  stagedPath new >>= fun staged =>
    (atomicWrite new.pkg staged bytes).andThen fun _ =>
      (relocate old new).orFail
        (fun error => removeFile new.pkg staged >>= fun _ => give (.error error)) fun _ =>
          (moveFile new.pkg staged new.path).orFail
            (fun _ => relocate new old >>= fun rollback => removeFile new.pkg staged >>= fun _ =>
              give (rollback.bind fun _ => .error "替换失败，原模板已恢复")) fun _ => give (.ok ())

/-- A call with the paths looked at. -/
def resourceCall (call : Call) : Step Unit :=
  (Prog.effect fun a w => (look p w.disk a.works call, w)).andThen fun
    | .writing place bytes _ _ => atomicWrite place.pkg place.path bytes
    | .staging old new bytes _ => replaceResource old new bytes
    | .moving old new => (makeDir new.pkg).andThen fun _ => moveFile old.pkg old.path new.path
    | .removing place => removeFile place.pkg place.path >>= fun _ => give (.ok ())
    | _ => give (.ok ())

/-! ### What is found afterwards -/

inductive Operation where
  | commitImport (r : ImportRequest)
  | createPackage (input : PackageInput)
  | updateManifest (pkg : String) (input : PackageInput) (expected : Option Nat) (force : Bool)
  | duplicatePackage (src newId : String)
  | resource (call : Call)

/-- The operation; what it returns does not matter here. -/
def Operation.run : Operation → Prog Answer World Unit
  | .commitImport r => commitPackageImport p s.media r >>= fun _ => give ()
  | .createPackage input => Packages.createPackage p s input >>= fun _ => give ()
  | .updateManifest pkg input expected force =>
    Packages.updateManifest p s pkg input expected force >>= fun _ => give ()
  | .duplicatePackage src newId => Packages.duplicatePackage p s src newId >>= fun _ => give ()
  | .resource call => resourceCall p call >>= fun _ => give ()

/-- `PackageStore::open` creates the directory of all packages if there is none, and changes nothing
    in it. -/
def World.openStore (w : World) : World := w

/-- `list_packages` has this entry. -/
def World.Lists (w : World) (pkg : String) (m : PackageManifest) : Prop :=
  validateScopeId "package id" pkg = .ok () ∧ w.tryManifest s.media pkg = some m

def locate (pkg plugin path : String) : Except String Place := do
  resourcePath pkg plugin (← sanitizeRelPath p path.toList)

def World.readBinary (w : World) (pkg plugin path : String) : Option ByteArray :=
  match locate p pkg plugin path with
  | .ok place => w.disk place
  | .error _ => none

end

end Gamer.Packages
