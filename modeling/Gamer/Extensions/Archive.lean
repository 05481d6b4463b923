import Mathlib.Algebra.GroupWithZero.Nat
import Gamer.Core.Models
import Gamer.Lib.Bytes
import Gamer.Lib.Crash
import Gamer.Lib.FileTree
import Gamer.Lib.Text
import Gamer.Packages.Paths

/-! `.gplugin` archives. The library presents an archive as its entries, each with a size it declares
    and the reads its content comes to, which need not agree. The archive is opened and scanned anew
    for every pass:

        inspect: scan ─▶ parse manifest.toml ─▶ entry, UI, tools
        extract: scan ─▶ staging ─▶ for every entry: a directory, or a new file and its reads     -/

namespace Gamer.Extensions.Archive
open Gamer.Lib Gamer.Lib.Prog Gamer.Core

def importMaxArchiveBytes : Nat := 20 * 1024 * 1024

def importMaxTotalBytes : Nat := 100 * 1024 * 1024

def importMaxEntries : Nat := 500

def maxExtensionFileBytes : Nat := 10 * 1024 * 1024

def maxManifestBytes : Nat := 256 * 1024

def maxExtensionPathBytes : Nat := 1024

/-- The buffer of the copy loop. -/
def bufferBytes : Nat := 64 * 1024

def manifestFileName : String := "manifest.toml"

def conventionalWasmEntry : String := "plugin.wasm"

/-- `ExtensionError`, as far as an archive comes to it. -/
inductive ExtensionError where
  | invalidPath (value : String)
  | invalidManifest (text : String)
  | invalidArchive (text : String)
  | archiveTooLarge (actual limit : Nat)
  | io (text : String)
  | zip (text : String)
  deriving DecidableEq

/-- An entry, as the library presents it. Its reads are those into a buffer of 64 KiB, and behind
    them comes the end or an error. -/
structure Entry where
  name : Except String String
  encrypted : Bool
  isSymlink : Bool
  isDir : Bool
  /-- The size that is declared. -/
  size : Nat
  reads : List Bytes
  buffered : ∀ read ∈ reads, read ≠ [] ∧ read.length ≤ bufferBytes
  fault : Option String

/-- What the entry decompresses to. -/
def Entry.content (entry : Entry) : Bytes := entry.reads.flatten

/-- `zip::ZipArchive`. An entry may be refused. -/
structure Zip where
  entries : List (Except String Entry)
  byName : String → Except String Entry

def Zip.byIndex (zip : Zip) (index : Nat) : Except String Entry :=
  zip.entries.getD index (.error "specified file not found in archive")

inductive Execution where
  | wasm (entry : String)
  | builtin
  deriving DecidableEq

/-- What the archive's code is given: character classes, the `Debug` of a text, the library, the
    manifest's own rules and the file system's idea of names. -/
structure Host (Manifest : Type) where
  alphanumeric : Char → Bool
  quote : String → String
  library : Bytes → Except String Zip
  parseManifest : Bytes → Except ExtensionError Manifest
  execution : Manifest → Execution
  /-- The entries of the UI contributions. -/
  ui : Manifest → List (Option String)
  validateTools : Manifest → Bytes → Except ExtensionError Unit
  fold : String → String

/-! ### Paths -/

/-- What `parse` lets nobody have in a path. -/
def isForbidden (c : Char) : Bool := c = '\\' || c = ':' || c.toNat < 32 || c.toNat = 127

section
variable {Manifest : Type} (host : Host Manifest)

def safeName (value : String) : Option String :=
  let value := trim value
  if value = "" || value = "." || value = ".." || value.toList.head? = some '.' ||
      value.toList.getLast? = some '.' || Packages.isWindowsReservedName value then none
  else if value.toList.any fun c => !(host.alphanumeric c || c ∈ ['.', '-', '_']) then none
  else some value

/-- The components of a path. -/
def components (path : String) : List String := (path.toList.splitOn '/').map String.ofList

def isSafeComponent (component : String) : Bool :=
  component ≠ "" && component ≠ "." && component ≠ ".." && (safeName host component).isSome

/-- `ExtensionPath::parse`. -/
def parsePath (value : String) : Except ExtensionError String :=
  let value := trim value
  if value = "" || textSize value.toList > maxExtensionPathBytes ||
      value.toList.head? = some '/' || value.toList.getLast? = some '/' ||
      value.toList.any isForbidden then .error (.invalidPath value)
  else if !(components value).all (isSafeComponent host) then .error (.invalidPath value)
  else .ok value

/-- `trim_end_matches('/')`. -/
def trimSlashes (name : String) : String := String.ofList (name.toList.rdropWhile (· = '/'))

def normalizeArchivePath (name : String) (isDir : Bool) : Except ExtensionError String :=
  if trim name ≠ name then
    .error (.invalidArchive ("归档路径不能包含首尾空白: " ++ host.quote name))
  else
    let normalized := if isDir then trimSlashes name else name
    if normalized = manifestFileName then .ok normalized else parsePath host normalized

def appendPath (root : List String) (relative : String) : List String :=
  root ++ (components relative).map host.fold

/-! ### The scan -/

structure ArchiveEntry where
  name : String
  isDir : Bool
  declaredSize : Nat
  archiveIndex : Nat
  deriving DecidableEq

/-- What the scan has so far. -/
structure Scan where
  entries : List ArchiveEntry := []
  declaredTotal : Nat := 0
  manifestBytes : Option Bytes := none

/-- An entry that was opened to be read: what it may come to, and what it has. -/
structure Opening where
  limit : Nat
  decompressed : Nat
  deriving DecidableEq

/-- The scan takes it for a directory. -/
def Entry.scansAsDir (entry : Entry) (name : String) : Bool :=
  entry.isDir || name.toList.getLast? = some '/'

/-- What is tested before the content of an entry is looked at. -/
def checkEntry (scan : Scan) (entry : Entry) : Except ExtensionError ArchiveEntry :=
  match entry.name with
  | .error text => .error (.zip text)
  | .ok rawName =>
    if entry.encrypted || entry.isSymlink then
      .error (.invalidArchive ("不允许加密或符号链接条目: " ++ rawName))
    else
      let isDir := entry.scansAsDir rawName
      match normalizeArchivePath host rawName isDir with
      | .error x => .error x
      | .ok name =>
        if scan.entries.any fun other => other.name = name then
          .error (.invalidArchive ("归档存在重复路径: " ++ name))
        else if scan.declaredTotal + entry.size ≥ 2 ^ 64 then
          .error (.invalidArchive "解压总大小溢出")
        else if scan.declaredTotal + entry.size > importMaxTotalBytes then
          .error (.invalidArchive
            ("声明解压总大小超过上限 " ++ toString importMaxTotalBytes ++ " 字节"))
        else if !isDir && entry.size > maxExtensionFileBytes then
          .error (.invalidArchive ("文件 " ++ name ++ " 超过单文件上限 " ++
            toString maxExtensionFileBytes ++ " 字节"))
        else if name = manifestFileName && isDir then
          .error (.invalidArchive "manifest.toml 必须是文件")
        else if name = manifestFileName && entry.size > maxManifestBytes then
          .error (.invalidArchive
            ("manifest.toml 超过 " ++ toString maxManifestBytes ++ " 字节上限"))
        else .ok ⟨name, isDir, entry.size, scan.entries.length⟩

/-- `read_to_end`. -/
def readToEnd (entry : Entry) : Except ExtensionError Bytes :=
  match entry.fault with
  | none => .ok entry.content
  | some text => .error (.io text)

/-- The entries, one after the other, and what was opened for it. -/
def scanEntries (scan : Scan) :
    List (Except String Entry) → Except ExtensionError Scan × List Opening
  | [] => (.ok scan, [])
  | .error text :: _ => (.error (.zip text), [])
  | .ok entry :: rest =>
    match checkEntry host scan entry with
    | .error x => (.error x, [])
    | .ok found =>
      let scan := { scan with
        entries := scan.entries ++ [found]
        declaredTotal := scan.declaredTotal + entry.size }
      if found.name = manifestFileName then
        let opening : Opening := ⟨maxManifestBytes, entry.content.length⟩
        match readToEnd entry with
        | .error x => (.error x, [opening])
        | .ok content =>
          let (result, opened) := scanEntries { scan with manifestBytes := some content } rest
          (result, opening :: opened)
      else scanEntries scan rest

def openArchive (bytes : Bytes) : Except ExtensionError Zip :=
  if bytes.length > importMaxArchiveBytes then
    .error (.archiveTooLarge bytes.length importMaxArchiveBytes)
  else
    match host.library bytes with
    | .error text => .error (.zip text)
    | .ok zip =>
      if zip.entries = [] then .error (.invalidArchive "归档不能为空")
      else if zip.entries.length > importMaxEntries then
        .error (.invalidArchive ("条目数 " ++ toString zip.entries.length ++ " 超过上限 " ++
          toString importMaxEntries))
      else .ok zip

def scanArchive (bytes : Bytes) :
    Except ExtensionError (List ArchiveEntry × Bytes) × List Opening :=
  match openArchive host bytes with
  | .error x => (.error x, [])
  | .ok zip =>
    match scanEntries host {} zip.entries with
    | (.error x, opened) => (.error x, opened)
    | (.ok scan, opened) =>
      match scan.manifestBytes with
      | none => (.error (.invalidArchive "归档根目录缺少 manifest.toml"), opened)
      | some content => (.ok (scan.entries, content), opened)

/-! ### `inspect_archive` -/

def wasmMagic : Bytes := [0, 97, 115, 109]

/-- The first bytes of the guest. -/
def checkMagic (zip : Except String Zip) (entry : String) : Except ExtensionError Unit :=
  match zip with
  | .error text => .error (.zip text)
  | .ok zip =>
    match zip.byName entry with
    | .error text => .error (.zip text)
    | .ok wasm =>
      if wasm.content.length < 4 then
        .error (.io (wasm.fault.getD "failed to fill whole buffer"))
      else if wasm.content.take 4 ≠ wasmMagic then
        .error (.invalidArchive ("entry 不是 WASM 二进制: " ++ entry))
      else .ok ()

def checkExecution (bytes : Bytes) (entries : List ArchiveEntry) :
    Execution → Except ExtensionError Unit
  | .wasm entry =>
    match entries.find? fun candidate => candidate.name = entry with
    | none => .error (.invalidArchive ("manifest entry 不存在: " ++ entry))
    | some info =>
      if info.isDir then .error (.invalidArchive ("manifest entry 不能是目录: " ++ entry))
      else if info.declaredSize < 4 then .error (.invalidArchive ("WASM entry 太小: " ++ entry))
      else checkMagic (host.library bytes) entry
  | .builtin =>
    if entries.any fun candidate => !candidate.isDir && candidate.name = conventionalWasmEntry then
      .error (.invalidArchive
        ("builtin 包不得携带 " ++ conventionalWasmEntry ++ "（防伪装执行类型）"))
    else .ok ()

def checkUi (entries : List ArchiveEntry) : List (Option String) → Except ExtensionError Unit
  | [] => .ok ()
  | none :: rest => checkUi entries rest
  | some entry :: rest =>
    match entries.find? fun candidate => candidate.name = entry with
    | none => .error (.invalidArchive ("UI entry 不存在: " ++ entry))
    | some info =>
      if info.isDir then .error (.invalidArchive ("UI entry 不能是目录: " ++ entry))
      else checkUi entries rest

/-- What is asked of the manifest and of the entries it names. -/
def checkManifest (bytes : Bytes) (entries : List ArchiveEntry) (content : Bytes) :
    Except ExtensionError Manifest := do
  let manifest ← host.parseManifest content
  checkExecution host bytes entries (host.execution manifest)
  checkUi entries (host.ui manifest)
  host.validateTools manifest bytes
  return manifest

def inspectArchive (bytes : Bytes) : Except ExtensionError Manifest × List Opening :=
  match scanArchive host bytes with
  | (.error x, opened) => (.error x, opened)
  | (.ok (entries, content), opened) => (checkManifest host bytes entries content, opened)

end

/-! ### `extract_archive` -/

structure World where
  tree : FileTree String Bytes
  /-- The entries opened by a scan and by the copy loop, the last one first. -/
  opened : List Opening

/-- What the environment answers to an effect. -/
structure Answer where
  ok : Bool := true
  text : String := ""
  /-- The bytes of a failed write that are written all the same. -/
  kept : Nat := 0

abbrev Step (α : Type) := Prog Answer World (Except ExtensionError α)

/-- `fs::create_dir`, which is content with a directory that is there. -/
def createDir (p : List String) : Step Unit := Prog.effect fun e w =>
  if w.tree.isDir p then (.ok (), w)
  else if e.ok && !w.tree.has p && w.tree.settable p then
    (.ok (), { w with tree := w.tree.set p .dir })
  else (.error (.io e.text), w)

def createDirs (base : List String) : List String → Step Unit
  | [] => Prog.give (.ok ())
  | name :: rest => (createDir (base ++ [name])).andThen fun _ => createDirs (base ++ [name]) rest

/-- `fs::create_dir_all`. -/
def createDirAll (p : List String) : Step Unit := createDirs [] p

/-- A file that was not there. -/
def createNew (p : List String) : Step Unit := Prog.effect fun e w =>
  if e.ok && !w.tree.has p && w.tree.settable p then
    (.ok (), { w with tree := w.tree.set p (.file []) })
  else (.error (.io e.text), w)

/-- The bytes are written at the end of the file. -/
def World.append (w : World) (p : List String) (bytes : Bytes) : World :=
  match w.tree.fileAt p with
  | some content => { w with tree := w.tree.set p (.file (content ++ bytes)) }
  | none => w

/-- `write_all`. -/
def writeAll (p : List String) (bytes : Bytes) : Step Unit := Prog.effect fun e w =>
  if e.ok then (.ok (), w.append p bytes)
  else (.error (.io e.text), w.append p (bytes.take e.kept))

/-- `flush` and `sync_all`. -/
def sync : Step Unit := Prog.effect fun e w =>
  if e.ok then (.ok (), w) else (.error (.io e.text), w)

/-- The scan and the copy loop open an entry. -/
def World.open (w : World) (limit : Nat) : World := { w with opened := ⟨limit, 0⟩ :: w.opened }

/-- So many bytes more of the entry that was opened last. -/
def World.decompress (w : World) (n : Nat) : World :=
  match w.opened with
  | [] => w
  | o :: rest => { w with opened := { o with decompressed := o.decompressed + n } :: rest }

/-- What is noted needs no effect. -/
def note (f : World → World) : Prog Answer World (Except ExtensionError Unit) :=
  Prog.change f >>= fun _ => Prog.give (.ok ())

/-- The copy loop: what it has copied of the file, and of all of them. -/
def copyReads (destination : List String) (copied total : Nat) (fault : Option String) :
    List Bytes → Step Nat
  | [] =>
    match fault with
    | none => Prog.give (.ok total)
    | some text => Prog.give (.error (.io text))
  | read :: rest =>
    (note fun w => w.decompress read.length).andThen fun _ =>
    if read = [] then Prog.give (.ok total)
    else if copied + read.length ≥ 2 ^ 64 then
      Prog.give (.error (.invalidArchive "文件大小溢出"))
    else if total + read.length ≥ 2 ^ 64 then
      Prog.give (.error (.invalidArchive "解压总大小溢出"))
    else if copied + read.length > maxExtensionFileBytes ∨
        total + read.length > importMaxTotalBytes then
      Prog.give (.error (.invalidArchive "实际解压大小超过上限"))
    else (writeAll destination read).andThen fun _ =>
      copyReads destination (copied + read.length) (total + read.length) fault rest

section
variable {Manifest : Type} (host : Host Manifest)

def copyEntry (destination : List String) (total : Nat) (entry : Entry) : Step Nat :=
  (note fun w => w.open maxExtensionFileBytes).andThen fun _ =>
  copyReads destination 0 total entry.fault entry.reads

def extractEntry (staging : List String) (zip : Zip) (total : Nat) (candidate : ArchiveEntry) :
    Step Nat :=
  match zip.byIndex candidate.archiveIndex with
  | .error text => Prog.give (.error (.zip text))
  | .ok entry =>
    match parsePath host candidate.name with
    | .error x => Prog.give (.error x)
    | .ok path =>
      let destination := appendPath host staging path
      if entry.isDir then (createDirAll destination).andThen fun _ => Prog.give (.ok total)
      else if candidate.declaredSize > maxExtensionFileBytes then
        Prog.give (.error (.invalidArchive ("文件 " ++ candidate.name ++ " 超过单文件上限 " ++
          toString maxExtensionFileBytes ++ " 字节")))
      else
        (createDirAll destination.dropLast).andThen fun _ =>
        (createNew destination).andThen fun _ =>
        (copyEntry destination total entry).andThen fun total =>
        sync.andThen fun _ =>
        sync.andThen fun _ => Prog.give (.ok total)

def extractEntries (staging : List String) (zip : Zip) (total : Nat) :
    List ArchiveEntry → Step Unit
  | [] => Prog.give (.ok ())
  | candidate :: rest => (extractEntry host staging zip total candidate).andThen fun total =>
      extractEntries staging zip total rest

/-- What a scan opened. -/
def World.scanned (w : World) (opened : List Opening) : World :=
  { w with opened := opened.reverse ++ w.opened }

/-- A pass over the archive that writes nothing. -/
def pass {α : Type} (scan : Except ExtensionError α × List Opening) : Step α :=
  (note fun w => w.scanned scan.2).andThen fun _ => Prog.give scan.1

def extractArchive (bytes : Bytes) (staging : List String) : Step Manifest :=
  (pass (inspectArchive host bytes)).andThen fun manifest =>
  (pass (scanArchive host bytes)).andThen fun scan =>
  match host.library bytes with
  | .error text => Prog.give (.error (.zip text))
  | .ok zip =>
    (createDirAll staging).andThen fun _ =>
    (extractEntries host staging zip 0 scan.1).andThen fun _ =>
    sync.andThen fun _ => Prog.give (.ok manifest)

end

end Gamer.Extensions.Archive
