import Gamer.Lib.Table
import Gamer.Updater.Files

/-! `extract_component_zip`: an archive is unpacked into a staging directory of its own, and only
    what `required_files` lists comes out of it.

        prepare staging ─▶ count the raw entries ─▶ names ─▶ free space ─▶ write ─▶ scan ─▶ verify
                                                   (no byte is written)

    What the zip library makes of the file is given (`Zip`): the entries, each with its name, its
    kind, its declared size and what the reads of its content come to. -/

namespace Gamer.Updater.Archive
open Gamer.Lib Gamer.Lib.Prog Gamer.Updater.Files

structure ExtractOptions where
  maxTotalUncompressed : Nat
  maxFileUncompressed : Nat

/-- `RequiredFile` of the manifest. -/
structure RequiredFile where
  path : String
  size : Int
  sha256 : String
  deriving DecidableEq

inductive ArchiveError where
  | open (text : String)
  | zipFormat (text : String)
  | dangerousEntry (entry reason : String)
  | symlinkEntry (entry : String)
  | caseCollision (first second : String)
  | duplicateEntry (entry : String)
  | unexpectedEntry (entry : String)
  | bombTotal (declared limit : Nat)
  | bombFile (entry : String) (declared limit : Nat)
  | sizeCorrupt (entry : String) (declared actual : Nat)
  | reparsePoint (path : Path)
  | requiredFileMissing (path : String)
  | requiredFileSize (path : String) (actual expected : Nat)
  | requiredFileHash (path actual expected : String)
  | stagingInvalid (path : Path) (reason : String)
  | io (text : String)
  deriving DecidableEq

/-- An entry of the archive, as the library gives it. A read comes to bytes or an error, and no
    bytes are the end. -/
structure Entry where
  name : Except String String
  isSymlink : Bool
  isDir : Bool
  size : Nat
  reads : List (Except String Bytes)

/-- `zip::ZipArchive`: its entries, each of which may be refused. -/
abbrev Zip := List (Except String Entry)

/-! ### `raw_central_entry_count` -/

def readU16 (b : Bytes) (i : Nat) : Nat := (b.getD i 0).toNat + 256 * (b.getD (i + 1) 0).toNat

def readU32 (b : Bytes) (i : Nat) : Nat := readU16 b i + 65536 * readU16 b (i + 2)

def eocdSig : Bytes := [0x50, 0x4b, 0x05, 0x06]

def cdhSig : Bytes := [0x50, 0x4b, 0x01, 0x02]

/-- The last place the bytes stand at. -/
def rposition (sig b : Bytes) : Option Nat :=
  (List.range (b.length + 1 - sig.length)).reverse.find? fun i => (b.drop i).take sig.length = sig

/-- The headers of the central directory, one after the other. `fuel` is its length. -/
def countHeaders : Nat → Nat → Bytes → Option Nat
  | 0, n, cd => if cd = [] then some n else none
  | fuel + 1, n, cd =>
    if cd.length < 46 then if cd = [] then some n else none
    else if cd.take 4 ≠ cdhSig then none
    else
      let next := 46 + readU16 cd 28 + readU16 cd 30 + readU16 cd 32
      if cd.length < next then none else countHeaders fuel (n + 1) (cd.drop next)

/-- `raw_central_entry_count`: `none` where it does not know the structure. -/
def rawCentralEntryCount (file : Bytes) : Except String (Option Nat) :=
  let tail := (file.reverse.take 66000).reverse
  match rposition eocdSig tail with
  | none => .ok none
  | some pos =>
    if tail.length < pos + 22 then .ok none
    else if pos + 22 + readU16 tail (pos + 20) ≠ tail.length then .ok none
    else
      let cdSize := readU32 tail (pos + 12)
      let cdOffset := readU32 tail (pos + 16)
      if cdOffset = 2 ^ 32 - 1 ∨ cdSize = 2 ^ 32 - 1 then .ok none
      else if file.length < cdOffset + cdSize then .error "failed to fill whole buffer"
      else .ok (countHeaders cdSize 0 ((file.drop cdOffset).take cdSize))

/-! ### The naming pass -/

/-- `trim_end_matches('/')`. -/
def clean (name : String) : String :=
  String.ofList (name.toList.reverse.dropWhile (· = '/')).reverse

section Names
variable (lower : String → String) (required : Option (List RequiredFile)) (opts : ExtractOptions)

/-- A directory leads to a required file, and a file is one. Without a list every name will do. -/
def expected (isDir : Bool) (cleaned : String) : Bool :=
  match required with
  | none => true
  | some files =>
    if isDir then files.any fun f => (cleaned ++ "/").toList.isPrefixOf f.path.toList
    else files.any fun f => f.path = cleaned

/-- What the naming pass says of one entry, after those whose names it has `seen`: the sizes
    declared so far, which wrap around. -/
def checkEntry (seen : Table String String) (total : Nat) (entry : Entry) :
    Except ArchiveError (Table String String × Nat) :=
  match entry.name with
  | .error text => .error (.zipFormat text)
  | .ok name =>
    match PathSafe.checkSinglePath (clean name) with
    | some reason => .error (.dangerousEntry name reason)
    | none =>
      if entry.isSymlink then .error (.symlinkEntry name)
      else match seen.get (lower (clean name)) with
        | some prev =>
          if prev = clean name then .error (.duplicateEntry name)
          else .error (.caseCollision prev name)
        | none =>
          if !expected required entry.isDir (clean name) then .error (.unexpectedEntry name)
          else if entry.isDir then .ok (seen.set (lower (clean name)) (clean name), total)
          else if entry.size > opts.maxFileUncompressed then
            .error (.bombFile name entry.size opts.maxFileUncompressed)
          else .ok (seen.set (lower (clean name)) (clean name), (total + entry.size) % 2 ^ 64)

def checkEntries (seen : Table String String) (total : Nat) : Zip → Except ArchiveError Nat
  | [] => .ok total
  | .error text :: _ => .error (.zipFormat text)
  | .ok entry :: rest =>
    match checkEntry lower required opts seen total entry with
    | .error x => .error x
    | .ok (seen, total) => checkEntries seen total rest

/-- Pass 1: the names, the kinds and the declared sizes of all entries. -/
def namingPass (zip : Zip) : Except ArchiveError Nat :=
  match checkEntries lower required opts ∅ 0 zip with
  | .error x => .error x
  | .ok total =>
    if total > opts.maxTotalUncompressed then
      .error (.bombTotal total opts.maxTotalUncompressed)
    else .ok total

end Names

/-! ### The steps -/

/-- An effect whose failure is the archive's error. -/
def orElse {χ α : Type} (f : χ → ArchiveError) (p : Step χ α) : Step ArchiveError α :=
  p.orFail (fun x => Prog.give (.error (f x))) fun a => Prog.give (.ok a)

/-- `prepare_fresh_staging`. -/
def prepareFreshStaging (staging : Path) : Step ArchiveError Unit :=
  Prog.reading fun w =>
    if w.tree.has staging then
      if !w.tree.isDir staging then Prog.give (.error (.stagingInvalid staging "同名文件已存在"))
      else (orElse .io (readDir staging)).andThen fun below =>
        if below ≠ [] then Prog.give (.error (.stagingInvalid staging "目录非空"))
        else Prog.give (.ok ())
    else orElse .io (createDirAll staging)

/-- The reads of an entry and the writes of what they give, up to the limits. -/
def copyEntry (opts : ExtractOptions) (name : String) (target : Path) (written total : Nat) :
    List (Except String Bytes) → Prog Answer World (Except ArchiveError (Nat × Nat))
  | [] => Prog.give (.ok (written, total))
  | .error text :: _ => Prog.give (.error (.io text))
  | .ok chunk :: rest =>
    if chunk = [] then Prog.give (.ok (written, total))
    else if written + chunk.length > opts.maxFileUncompressed ∨
        total + chunk.length > opts.maxTotalUncompressed then
      removeFile target >>= fun _ => Prog.give
        (.error (.bombFile name (written + chunk.length) opts.maxFileUncompressed))
    else (orElse .io (appendFile target chunk)).andThen fun _ =>
      copyEntry opts name target (written + chunk.length) (total + chunk.length) rest

section
variable (fold : String → String)

/-- One entry of pass 2. -/
def writeEntry (opts : ExtractOptions) (staging : Path) (total : Nat) (entry : Entry) :
    Step ArchiveError Nat :=
  match entry.name with
  | .error text => Prog.give (.error (.zipFormat text))
  | .ok name =>
    if entry.isDir then
      (orElse .io (createDirAll (join fold staging (clean name)))).andThen fun _ =>
        Prog.give (.ok total)
    else
      let target := join fold staging name
      (orElse .io (createDirAll target.dropLast)).andThen fun _ =>
      (orElse .io (createFile target)).andThen fun _ =>
      (copyEntry opts name target 0 total entry.reads).andThen fun done =>
      if done.1 ≠ entry.size then Prog.give (.error (.sizeCorrupt name entry.size done.1))
      else Prog.give (.ok done.2)

/-- Pass 2. -/
def writeEntries (opts : ExtractOptions) (staging : Path) (total : Nat) :
    Zip → Step ArchiveError Unit
  | [] => Prog.give (.ok ())
  | .error text :: _ => Prog.give (.error (.zipFormat text))
  | .ok entry :: rest => (writeEntry fold opts staging total entry).andThen fun total =>
      writeEntries opts staging total rest

/-- Pass 3, `scan_no_reparse`. -/
def scanNoReparse (staging : Path) : Step ArchiveError Unit :=
  (orElse .io (readDir staging)).andThen fun below => Prog.reading fun w =>
    match below.find? w.tree.isLink with
    | some path => Prog.give (.error (.reparsePoint path))
    | none => Prog.give (.ok ())

variable (sha256 : Bytes → String)

/-- The error of a required file that is not as it should be. -/
def requiredError (path : String) : VerifyFileError → ArchiveError
  | .notFound => .requiredFileMissing path
  | .sizeMismatch actual expected => .requiredFileSize path actual expected
  | .hashMismatch actual expected => .requiredFileHash path actual expected
  | .io text => .io text

/-- Pass 4. -/
def verifyRequired (staging : Path) : List RequiredFile → Step ArchiveError Unit
  | [] => Prog.give (.ok ())
  | f :: rest =>
    if f.size < 0 then Prog.give (.error (.requiredFileSize f.path 0 (2 ^ 64 - 1)))
    else (orElse (requiredError f.path)
        (verifyFile sha256 (join fold staging f.path) f.sha256 f.size.toNat)).andThen fun _ =>
      verifyRequired staging rest

/-- The entries that were counted are those the library found. -/
def checkCount (raw : Option Nat) (zip : Zip) : Except ArchiveError Unit :=
  match raw with
  | some n =>
    if n ≠ zip.length then
      .error (.duplicateEntry ("<central directory 声明 " ++ toString n ++
        " 项，读取侧折叠为 " ++ toString zip.length ++ " 项（存在重复条目）>"))
    else .ok ()
  | none => .ok ()

/-- The archive, where the count does not tell against it. -/
def checkOpened (counted : Except String (Option Nat)) (opened : Except String Zip) :
    Except ArchiveError Zip :=
  match counted, opened with
  | .error text, _ => .error (.io text)
  | .ok _, .error text => .error (.zipFormat text)
  | .ok raw, .ok zip =>
    match checkCount raw zip with
    | .error x => .error x
    | .ok () => .ok zip

variable (lower : String → String) (library : Bytes → Except String Zip)

def openArchive (file : Bytes) : Except ArchiveError Zip :=
  checkOpened (rawCentralEntryCount file) (library file)

/-- `16 * 1024 * 1024` bytes are kept free. -/
def needed (declared : Nat) : Nat := min (declared + 16 * 1024 * 1024) (2 ^ 64 - 1)

def checkSpace (declared available : Nat) : Except ArchiveError Unit :=
  if available < needed declared then
    .error (.io ("磁盘空间不足：解压需要约 " ++ toString (needed declared) ++ " 字节，可用 " ++
      toString available ++ " 字节"))
  else .ok ()

/-- The passes after the archive is open. -/
def unpack (staging : Path) (required : Option (List RequiredFile)) (opts : ExtractOptions)
    (zip : Zip) : Step ArchiveError Unit :=
  match namingPass lower required opts zip with
  | .error x => Prog.give (.error x)
  | .ok declared =>
    (orElse .io freeDiskBytes).andThen fun available =>
    match checkSpace declared available with
    | .error x => Prog.give (.error x)
    | .ok () =>
      (writeEntries fold opts staging 0 zip).andThen fun _ =>
      (scanNoReparse staging).andThen fun _ =>
      verifyRequired fold sha256 staging (required.getD [])

/-- `extract_zip_checked`. -/
def extractZipChecked (zipPath staging : Path) (required : Option (List RequiredFile))
    (opts : ExtractOptions) : Step ArchiveError Unit :=
  (prepareFreshStaging staging).andThen fun _ =>
  (orElse .open (readFile zipPath)).andThen fun file =>
  match openArchive library file with
  | .error x => Prog.give (.error x)
  | .ok zip => unpack fold sha256 lower staging required opts zip

/-- `extract_component_zip`. -/
def extractComponentZip (zipPath staging : Path) (required : List RequiredFile)
    (opts : ExtractOptions) : Step ArchiveError Unit :=
  extractZipChecked fold sha256 lower library zipPath staging (some required) opts

/-- `extract_app_zip`. -/
def extractAppZip (zipPath staging : Path) (opts : ExtractOptions) : Step ArchiveError Unit :=
  extractZipChecked fold sha256 lower library zipPath staging none opts

end

end Gamer.Updater.Archive
