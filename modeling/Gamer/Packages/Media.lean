import Mathlib.Data.List.Basic
import Gamer.Lib.Crash
import Gamer.Lib.Table
import Gamer.Packages.Paths

/-! What package operations change on disk: directories of packages, a staging directory beside them,
    the media library with its `metadata.json` files, and the rows of the task presets.

        packages/<id>        packages/.staging/<uuid>        media/<id>        task_presets  -/

namespace Gamer.Packages
open Gamer.Lib Gamer.Lib.Prog

/-- The files of a directory, by their path in it. -/
abbrev Folder := List String → Option ByteArray

structure MediaRef where
  packageId : String
  pluginId : String
  kind : String
  deriving DecidableEq

inductive MediaState where
  | importing
  | ready
  | missing
  deriving DecidableEq

structure MediaProbeMeta where
  container : String
  codec : String
  width : Nat
  height : Nat
  rotation : Nat
  durationUs : Option Nat
  deriving DecidableEq

structure MediaMetadata where
  id : String
  name : String
  sha256 : String
  size : Nat
  probe : MediaProbeMeta
  state : MediaState
  createdAt : String
  refs : List MediaRef
  deriving DecidableEq

/-- A directory of the library. -/
structure Item where
  metadata : Option ByteArray
  original : ByteArray

structure PackagePreset where
  name : String
  runnerId : String
  entrypoint : String
  payload : String
  schedule : String

/-- A row of `task_presets`. -/
structure TaskPreset where
  appPackage : String
  preset : PackagePreset
  createdAt : String

structure MediaIndexEntry where
  id : String
  name : String
  sha256 : String
  size : Nat
  pluginId : String
  kind : String
  included : Bool
  probe : Option MediaProbeMeta

/-- The files' formats, read and written by libraries. A metadata file keeps what this host does not
    know of the file before. -/
structure Formats (Manifest : Type) where
  readMeta : ByteArray → Option MediaMetadata
  writeMeta : Option ByteArray → MediaMetadata → Option ByteArray
  read_write : ∀ {prev m bytes}, writeMeta prev m = some bytes → readMeta bytes = some m
  parseMediaIndex : ByteArray → Except String (List MediaIndexEntry)
  readPackagePresets : Folder → Except String (List PackagePreset)
  validPreset : TaskPreset → Bool
  parsePackageToml : ByteArray → Option Manifest
  manifestId : Manifest → String
  sha256Hex : ByteArray → String

/-- A directory of a package is moved aside, a new one is moved in, or these are undone. -/
inductive Move where
  | aside
  | install
  | withdraw
  | putBack
  deriving DecidableEq

structure World where
  packages : String → Option Folder
  staging : String → Option Folder
  media : Table String Item
  presets : Table String TaskPreset
  /-- The moves so far, the last one first. -/
  moves : List Move

/-- What the outside answers to an effect: whether it works, a new id, the time. -/
structure Answer where
  works : Bool
  fresh : String
  now : String

abbrev Step (α : Type) := Prog Answer World (Except String α)

/-- A file of a package. -/
def World.file (w : World) (pkg : String) (path : List String) : Option ByteArray :=
  (w.packages pkg).bind fun folder => folder path

/-- The manifest of a package; none if there is no file, or it is not this package's. -/
def World.tryManifest {Manifest : Type} (f : Formats Manifest) (w : World) (pkg : String) :
    Option Manifest :=
  ((w.file pkg ["package.toml"]).bind f.parsePackageToml).filter fun m => f.manifestId m = pkg

/-! ### The media library -/

section
variable {Manifest : Type} (p : Platform) (f : Formats Manifest)

def World.readMetadata (w : World) (id : String) : Option MediaMetadata :=
  ((w.media.get id).bind Item.metadata).bind f.readMeta

/-- `metadata.json` is replaced as a whole, or not at all. -/
def writeMetadata (id : String) (m : MediaMetadata) : Step Unit := .effect fun a w =>
  match w.media.get id with
  | none => (.error "写入 metadata.json 失败", w)
  | some item =>
    match f.writeMeta item.metadata m with
    | none => (.error "写入 metadata.json 失败", w)
    | some bytes =>
      if a.works then
        (.ok (), { w with media := w.media.set id { item with metadata := some bytes } })
      else (.error "替换 metadata.json 失败", w)

/-- Every item that can be read. -/
def World.listUnlocked (w : World) : List MediaMetadata :=
  w.media.keys.filterMap (w.readMetadata f)

/-- Without the items that are still being recorded. -/
def World.list (w : World) : List MediaMetadata :=
  (w.listUnlocked f).filter fun m => m.state ≠ .importing

/-- A read of a directory or a file, which may fail. -/
def tryRead {α : Type} (error : String) (read : World → α) : Step α := .effect fun a w =>
  if a.works then (.ok (read w), w) else (.error error, w)

def isValidMediaId (id : String) : Bool :=
  id ≠ "" && id.toList.length ≤ 64 && id.toList.all fun c => c.isAlphanum || c = '-' || c = '_'

def isSha256Hex (value : String) : Bool :=
  value.toList.length = 64 && value.toList.all fun c =>
    c.isDigit || ('a' ≤ c && c ≤ 'f') || ('A' ≤ c && c ≤ 'F')

def asciiLower (s : String) : String := String.ofList (s.toList.map Char.toLower)

def validateRef (r : MediaRef) : Except String Unit := do
  validateScopeId "refs.package_id" r.packageId
  validateScopeId "refs.plugin_id" r.pluginId
  let kind := String.ofList (trim p r.kind.toList)
  if kind = "" || kind.utf8ByteSize > 64 || kind.toList.any (fun c => c.val < 32 || c.val = 127) then
    .error "refs.kind 非法（1..=64 字节且不含控制字符）"
  else .ok ()

def normalizeRef (r : MediaRef) : MediaRef :=
  ⟨String.ofList (trim p r.packageId.toList), String.ofList (trim p r.pluginId.toList),
    String.ofList (trim p r.kind.toList)⟩

/-- The references of other packages. -/
def foreignRefs (packageId : String) (refs : List MediaRef) : List MediaRef :=
  refs.filter fun r => r.packageId ≠ packageId

def releaseAll (packageId : String) : List MediaMetadata → Step Unit
  | [] => give (.ok ())
  | m :: ms =>
    if (foreignRefs packageId m.refs).length = m.refs.length then releaseAll packageId ms
    else (writeMetadata f m.id { m with refs := foreignRefs packageId m.refs }).andThen fun _ =>
      releaseAll packageId ms

def releasePackage (packageId : String) : Step Unit :=
  match validateScopeId "package id" packageId with
  | .error e => give (.error e)
  | .ok () => (tryRead "读取媒体目录失败" fun w => w.listUnlocked f).andThen fun items =>
      releaseAll f packageId items

/-- One more reference, if it is not there. -/
def registerRef (m : MediaMetadata) (ref : MediaRef) : Step Unit :=
  if ref ∈ m.refs then give (.ok ())
  else writeMetadata f m.id { m with refs := m.refs ++ [ref] }

def readItem (id : String) : Step MediaMetadata :=
  (tryRead "读取 metadata.json 失败" fun w => w.readMetadata f id).andThen fun
    | none => give (.error "媒体不存在")
    | some m => give (.ok m)

def getItem (id : String) : Step MediaMetadata :=
  if !isValidMediaId id then give (.error "media id 非法") else readItem f id

def setRefs (id : String) (refs : List MediaRef) : Step Unit :=
  if !isValidMediaId id then give (.error "media id 非法")
  else
    match refs.mapM (validateRef p) with
    | .error e => give (.error e)
    | .ok _ => (readItem f id).andThen fun m =>
        writeMetadata f id { m with refs := refs.map (normalizeRef p) }

/-- The directory goes as a whole. -/
def deleteItem (id : String) : Step Unit :=
  if !isValidMediaId id then give (.error "media id 非法")
  else .effect fun a w =>
    match w.readMetadata f id with
    | none => (.error "媒体不存在", w)
    | some m =>
      if m.refs ≠ [] then (.error "素材仍被业务引用，拒绝删除", w)
      else if a.works then (.ok (), { w with media := w.media.del id })
      else (.error "删除媒体目录失败", w)

/-- The attachment of an entry without bytes: says whether the item was found. -/
def reattachRef (id sha256 : String) (ref : MediaRef) : Step Bool :=
  if !isValidMediaId id then give (.error "media id 非法")
  else if !isSha256Hex sha256 then give (.error "媒体 sha256 必须是 64 位 hex")
  else
    match validateRef p ref with
    | .error e => give (.error e)
    | .ok () => .reading fun w =>
      match w.readMetadata f id with
      | none => give (.ok false)
      | some m =>
        if asciiLower m.sha256 ≠ asciiLower sha256 then give (.ok false)
        else (registerRef f m (normalizeRef p ref)).andThen fun _ => give (.ok true)

structure RestoreMedia where
  id : String
  name : String
  sha256 : String
  size : Nat
  probe : Option MediaProbeMeta

def sanitizeImportName (raw : String) : Except String String :=
  let name := trim p raw.toList
  let last := trim p ((name.splitOnP fun c => c = '/' || c = '\\').getLastD name)
  if last = [] || last = ['.'] || last = ['.', '.'] then .error "name 非法"
  else if (String.ofList last).utf8ByteSize > 200 then .error "name 超过 200 字节"
  else if last.any fun c => c.val < 32 || c.val = 127 then .error "name 含非法控制字符"
  else .ok (String.ofList last)

def fallbackProbe : MediaProbeMeta := ⟨"", "unknown", 0, 0, 0, none⟩

/-- The directory is filled in staging and moved in place as a whole; the place must be free. -/
def commitRestored (id : Option String) (name : String) (bytes : ByteArray)
    (probe : Option MediaProbeMeta) (ref : MediaRef) : Step String := .effect fun a w =>
  let id := id.getD a.fresh
  let m : MediaMetadata := ⟨id, name, f.sha256Hex bytes, bytes.size, probe.getD fallbackProbe, .ready,
    a.now, [ref]⟩
  match f.writeMeta none m, w.media.get id with
  | some metadata, none =>
    if a.works then (.ok id, { w with media := w.media.set id ⟨some metadata, bytes⟩ })
    else (.error "提交媒体目录失败（id 冲突？）", w)
  | _, _ => (.error "提交媒体目录失败（id 冲突？）", w)

inductive RestoreOutcome where
  | imported (id : String)
  | reused
  | collided (id : String)

def restoreMedia (request : RestoreMedia) (bytes : ByteArray) (ref : MediaRef) :
    Step RestoreOutcome :=
  if !isValidMediaId request.id then give (.error "media id 非法")
  else
    match sanitizeImportName p request.name with
    | .error e => give (.error e)
    | .ok name =>
      if !isSha256Hex request.sha256 then give (.error "媒体 sha256 必须是 64 位 hex")
      else if request.size ≠ bytes.size then give (.error "媒体大小不一致")
      else if asciiLower (f.sha256Hex bytes) ≠ asciiLower request.sha256 then
        give (.error "媒体内容哈希不一致")
      else
        match validateRef p ref with
        | .error e => give (.error e)
        | .ok () => .reading fun w =>
          match w.media.get request.id, w.readMetadata f request.id with
          | none, _ => (commitRestored f (some request.id) name bytes request.probe
              (normalizeRef p ref)).andThen fun id => give (.ok (.imported id))
          | some _, none => give (.error "metadata.json 损坏")
          | some _, some m =>
            if asciiLower m.sha256 = asciiLower request.sha256 then
              (registerRef f m (normalizeRef p ref)).andThen fun _ => give (.ok .reused)
            else (commitRestored f none name bytes request.probe (normalizeRef p ref)).andThen
              fun id => give (.ok (.collided id))

end

end Gamer.Packages
