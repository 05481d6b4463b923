import Gamer.Core.Models
import Gamer.Updater.Archive

/-! `repair_one`: a component that is missing or damaged is unpacked into a staging directory, the
    old directory goes into quarantine, the new one takes its place and is checked there.

        check ─▶ obtain ─▶ unpack, check ─▶ dir → quarantine ─▶ staging → dir ─▶ check, probe
                               │                  │                  │               │
                            clean up           clean up      move back, clean up   failed

    The archive's library, the digest and the names that the file system takes for the same are
    given. The single instance lock is held, so nothing else changes the directories. -/

namespace Gamer.Updater.Repair
open Gamer.Lib Gamer.Lib.Prog Gamer.Updater.Files Gamer.Updater.Archive

/-! ### `inventory.rs` -/

structure FileSpec where
  path : String
  size : Nat
  sha256 : String
  deriving DecidableEq

/-- A character of a component's id. -/
def plainChar (c : Char) : Bool := c.isLower || c.isDigit || c = '-'

/-- `ComponentSpec`. The manifest lets only ids of plain characters through, and `from_model` only
    versions that are safe paths. -/
structure ComponentSpec where
  id : String
  version : String
  files : List FileSpec
  artifactName : String
  idNonempty : id.toList ≠ []
  plainId : ∀ c ∈ id.toList, plainChar c = true
  safeVersion : PathSafe.checkSinglePath version = none

def ComponentSpec.totalDeclaredBytes (spec : ComponentSpec) : Nat := (spec.files.map (·.size)).sum

inductive FileCheck where
  | ok
  | missing
  | sizeMismatch (actual expected : Nat)
  | hashMismatch (actual expected : String)
  | io (text : String)
  deriving DecidableEq

inductive ProbeCheck where
  | same (reported : String)
  | mismatch (reported : String)
  | failed (reason : String)
  | unsupported
  deriving DecidableEq

/-- `ComponentFinding`; `ok` is its status. -/
structure ComponentFinding where
  ok : Bool
  files : List (String × FileCheck)
  probe : Option ProbeCheck

structure CheckOptions where
  deep : Bool
  probe : Bool

/-- `str::split_whitespace`. -/
def splitWhitespace (s : List Char) : List (List Char) :=
  (s.splitOnP Core.isWhitespace).filter (· ≠ [])

/-- `str::lines`: a carriage return before the line feed goes with it, and nothing after the last
    line feed is no line. -/
def textLines (text : String) : List (List Char) :=
  let rows := text.toList.splitOn '\n'
  (rows.dropLast.map fun row => if row.getLast? = some '\r' then row.dropLast else row) ++
    (rows.getLast?.toList.filter (· ≠ []))

/-- The version on a line of `adb version`. -/
def adbVersionOf (line : List Char) : Option String :=
  let trimmed := (Core.trim (String.ofList line)).toList
  if "Version ".toList.isPrefixOf trimmed then
    (splitWhitespace (trimmed.drop "Version ".length)).head?.map String.ofList
  else none

def parseAdbVersionOutput (text : String) : Option String :=
  (textLines text).findSome? adbVersionOf

def asciiEqual (a b : List Char) : Bool := a.map Char.toLower = b.map Char.toLower

/-- The word after `version`. -/
def afterVersion : List (List Char) → Option String
  | [] => none
  | word :: rest =>
    if asciiEqual word "version".toList then rest.head?.map String.ofList else afterVersion rest

def parseFfmpegVersionOutput (text : String) : Option String :=
  (textLines text).head?.bind fun line => afterVersion (splitWhitespace line)

def versionMatches (reported expected : String) : Bool :=
  reported = expected || (expected ++ "-").toList.isPrefixOf reported.toList

/-- What the program of a component is called, and how its output is read. -/
def probeKind (id : String) : Option (String × (String → Option String)) :=
  if id = "adb" then some ("adb.exe", parseAdbVersionOutput)
  else if id = "ffmpeg" then some ("ffmpeg.exe", parseFfmpegVersionOutput)
  else none

section
variable (fold : String → String) (sha256 : Bytes → String)

/-- `probe_component`. -/
def probeComponent (id : String) (dir : Path) (expectedVersion : String) :
    Prog Answer World ProbeCheck :=
  match probeKind id with
  | none => Prog.give .unsupported
  | some (exeName, parse) => Prog.effect fun e w =>
    (if (w.tree.fileAt (join fold dir exeName)).isNone then .failed "可执行文件不存在"
      else match e.output with
        | .error reason => .failed reason
        | .ok output =>
          match parse output with
          | some v => if versionMatches v expectedVersion then .same v else .mismatch v
          | none => .failed "无法从输出解析版本串", w)

def checkFile (dir : Path) (deep : Bool) (f : FileSpec) : Prog Answer World FileCheck :=
  Prog.effect fun e w =>
    (match w.tree.fileAt (join fold dir f.path) with
      | none => .missing
      | some content =>
        if !e.ok then .io e.text
        else if content.length ≠ f.size then .sizeMismatch content.length f.size
        else if !deep then .ok
        else if sha256 content = f.sha256 then .ok
        else .hashMismatch (sha256 content) f.sha256, w)

def checkFiles (dir : Path) (deep : Bool) :
    List FileSpec → Prog Answer World (List (String × FileCheck))
  | [] => Prog.give []
  | f :: rest => checkFile fold sha256 dir deep f >>= fun check =>
      checkFiles dir deep rest >>= fun checks => Prog.give ((f.path, check) :: checks)

/-- The component's files and what its probe says. A probe that fails is only reported. -/
def findingOf (isDir : Bool) (files : List (String × FileCheck)) (probe : Option ProbeCheck) :
    ComponentFinding where
  ok := isDir && (files.all fun f => f.2 = .ok) &&
    !(match probe with
      | some (.mismatch _) => true
      | _ => false)
  files := files
  probe := probe

/-- `check_component`. -/
def checkComponent (dir : Path) (spec : ComponentSpec) (opts : CheckOptions) :
    Prog Answer World ComponentFinding :=
  Prog.reading fun w =>
    (if w.tree.isDir dir then checkFiles fold sha256 dir opts.deep spec.files
      else Prog.give (spec.files.map fun f => (f.path, FileCheck.missing))) >>= fun files =>
    (if opts.probe then probeComponent fold spec.id dir spec.version >>= fun p => Prog.give (some p)
      else Prog.give none) >>= fun probe =>
    Prog.give (findingOf (w.tree.isDir dir) files probe)

/-! ### `repair.rs` -/

/-- `verification::verify`: the size, and the digest unless it is on record. -/
def verify (p : Path) (hash : String) (size : Nat) : Prog Answer World Bool :=
  Prog.effect fun e w =>
    (match w.tree.fileAt p with
      | none => false
      | some content => e.ok && content.length = size &&
          (e.cached || sha256 content = asciiLowercase hash), w)

/-- The files in turn, up to one that is not verified. -/
def verifyAll (dir : Path) : List FileSpec → Prog Answer World Bool
  | [] => Prog.give true
  | f :: rest => verify sha256 (join fold dir f.path) f.sha256 f.size >>= fun ok =>
      if ok then verifyAll dir rest else Prog.give false

end

/-- `InstallLayout`. To the file system the directories of the root are different ones. -/
structure Layout where
  root : Path
  fold : String → String
  apart : (["cache", "quarantine", "runtime", "staging"].map fold).Nodup

namespace Layout
variable (l : Layout)

def top (name : String) : Path := l.root ++ [l.fold name]

def stagingDir : Path := l.top "staging"

def quarantineDir : Path := l.top "quarantine"

def artifactsDir : Path := l.top "cache" ++ [l.fold "artifacts"]

def seedsDir : Path := l.root ++ [l.fold "seeds"]

/-- `component_dir`. -/
def componentDir (id version : String) : Path :=
  join l.fold (join l.fold (l.top "runtime") id) version

end Layout

/-- Where the archive of an artifact is. -/
def artifactPath (l : Layout) (name : String) : Source → Path
  | .seed => l.seedsDir ++ [l.fold name]
  | .cache | .remote => l.artifactsDir ++ [l.fold name]

/-- `is_plain_file_name`. -/
def isPlainFileName (name : String) : Bool :=
  name.utf8ByteSize ≤ 255 && (PathSafe.checkSinglePath name).isNone && components name = [name]

/-- A download is moved into the cache when it is complete. -/
def download (cachePath : Path) : Step String Unit := Prog.effect fun e w =>
  if e.ok then (.ok (), { w with tree := w.tree.set cachePath (.file e.body) })
  else (.error e.text, w)

/-- `obtain_artifact`: the environment says whether the seed, the cache or the server has it. -/
def obtainArtifact (l : Layout) (name : String) : Step String Source :=
  if !isPlainFileName name then Prog.give (.error "artifact.name 非法（须为单一文件名）")
  else (Prog.effect fun e w =>
      (if e.ok then Except.ok e.source else .error e.text, w)).andThen fun source =>
    if source = .remote then
      (createDirAll l.artifactsDir).andThen fun _ =>
      (download (artifactPath l name .remote)).andThen fun _ => Prog.give (.ok .remote)
    else Prog.give (.ok source)

/-- `required_of`. -/
def requiredOf (spec : ComponentSpec) : List RequiredFile :=
  spec.files.map fun f => ⟨f.path, min f.size (2 ^ 63 - 1), f.sha256⟩

/-- `extract_limits`. -/
def extractLimits (spec : ComponentSpec) : ExtractOptions :=
  ⟨max spec.totalDeclaredBytes 1, max spec.totalDeclaredBytes 1⟩

/-- Why a staging directory is given up. -/
inductive StagedError where
  | archive (e : ArchiveError)
  | recheck (finding : ComponentFinding)

/-- What a failed repair says. -/
inductive Reason where
  | paused
  | fetch (text : String)
  | staged (e : StagedError)
  | quarantine (text : String)
  | installMove (text : String) (hadPrevious restored : Bool)
  | recheck (finding : ComponentFinding)

/-- `ComponentOutcome`. -/
inductive Outcome where
  | healthy
  | repaired (source : Source)
  | failed (reason : Reason)

/-- The call: the component and its options, and the milliseconds its directories are named
    after. -/
structure Call where
  layout : Layout
  spec : ComponentSpec
  paused : Bool
  probe : Bool
  stagedAt : Nat
  quarantinedAt : Nat

namespace Call
variable (c : Call)

/-- `install_dir`. -/
def dir : Path := c.layout.componentDir c.spec.id c.spec.version

def staging : Path :=
  join c.layout.fold c.layout.stagingDir
    ("repair-" ++ c.spec.id ++ "-" ++ c.spec.version ++ "-" ++ toString c.stagedAt)

def quarantined : Path :=
  join c.layout.fold c.layout.quarantineDir
    (c.spec.id ++ "-" ++ c.spec.version ++ "-" ++ toString c.quarantinedAt)

end Call

/-- `cleanup_dir`. -/
def cleanupDir (p : Path) : Prog Answer World (Except String Unit) :=
  Prog.reading fun w => if w.tree.has p then removeDirAll p else Prog.give (.ok ())

/-- The old directory goes into quarantine, if there is one. -/
def quarantineOld (c : Call) : Step String Bool :=
  Prog.reading fun w =>
    if w.tree.has c.dir then
      (createDirAll c.layout.quarantineDir).andThen fun _ =>
      (renameDir c.dir c.quarantined).andThen fun _ => Prog.give (.ok true)
    else Prog.give (.ok false)

/-- The staging directory takes its place. -/
def moveIn (c : Call) : Step String Unit :=
  (createDirAll c.dir.dropLast).andThen fun _ => renameDir c.staging c.dir

/-- The old directory comes back. -/
def moveBack (c : Call) (quarantined : Bool) : Step String Unit :=
  if quarantined then renameDir c.quarantined c.dir else Prog.give (.ok ())

section
variable (sha256 : Bytes → String) (lower : String → String)
  (library : Bytes → Except String Zip) (c : Call)

/-- The archive is unpacked and checked. -/
def stage (archive : Path) : Step StagedError Unit :=
  (extractComponentZip c.layout.fold sha256 lower library archive c.staging (requiredOf c.spec)
    (extractLimits c.spec)).orFail (fun e => Prog.give (.error (.archive e))) fun _ =>
  checkComponent c.layout.fold sha256 c.staging c.spec ⟨true, false⟩ >>= fun finding =>
  if finding.ok then Prog.give (.ok ()) else Prog.give (.error (.recheck finding))

/-- A repair is given up: the staging directory goes. -/
def abandon (reason : Reason) : Prog Answer World Outcome :=
  cleanupDir c.staging >>= fun _ => Prog.give (.failed reason)

/-- The new directory could not take its place. -/
def undo (quarantined : Bool) (text : String) : Prog Answer World Outcome :=
  moveBack c quarantined >>= fun back =>
  abandon c (.installMove text quarantined back.toBool)

/-- The new directory is checked where it is. -/
def recheck (source : Source) : Prog Answer World Outcome :=
  checkComponent c.layout.fold sha256 c.dir c.spec ⟨true, c.probe⟩ >>= fun finding =>
  if finding.ok then Prog.give (.repaired source) else Prog.give (.failed (.recheck finding))

/-- What follows when the artifact is there. -/
def install (source : Source) : Prog Answer World Outcome :=
  (stage sha256 lower library c (artifactPath c.layout c.spec.artifactName source)).orFail
    (fun e => abandon c (.staged e)) fun _ =>
  (quarantineOld c).orFail (fun text => abandon c (.quarantine text)) fun quarantined =>
  (moveIn c).orFail (undo c quarantined) fun _ =>
  recheck sha256 c source

/-- Without a probe the files may be on record as verified. -/
def knownGood : Prog Answer World Bool :=
  if !c.probe && c.spec.files ≠ [] then verifyAll c.layout.fold sha256 c.dir c.spec.files
  else Prog.give false

/-- `repair_one`. -/
def repairOne : Prog Answer World Outcome :=
  if c.paused then Prog.give (.failed .paused)
  else
    knownGood sha256 c >>= fun good =>
    if good then Prog.give .healthy
    else
      checkComponent c.layout.fold sha256 c.dir c.spec ⟨true, c.probe⟩ >>= fun finding =>
      if finding.ok then Prog.give .healthy
      else
        (obtainArtifact c.layout c.spec.artifactName).orFail
          (fun text => Prog.give (.failed (.fetch text))) fun source =>
        install sha256 lower library c source

end

/-! ### The texts -/

/-- What is wrong with a file, as `broken_summary` lists it. -/
def FileCheck.summary (path : String) : FileCheck → Option String
  | .ok => none
  | .missing => some (path ++ ": 缺失")
  | .sizeMismatch actual expected =>
    some (path ++ ": size " ++ toString actual ++ "≠" ++ toString expected)
  | .hashMismatch .. => some (path ++ ": sha256 不符")
  | .io text => some (path ++ ": " ++ text)

def ProbeCheck.summary : ProbeCheck → Option String
  | .same reported => some ("探针: 匹配（" ++ reported ++ "）")
  | .mismatch reported => some ("探针: 版本不符（" ++ reported ++ "）")
  | .failed reason => some ("探针: " ++ reason)
  | .unsupported => none

/-- `broken_summary`. -/
def brokenSummary (finding : ComponentFinding) : String :=
  let parts := finding.files.filterMap (fun f => f.2.summary f.1) ++
    (finding.probe.bind ProbeCheck.summary).toList
  if parts = [] then "（无明细）" else "; ".intercalate parts

/-- `install_move_error`. -/
def installMoveError (kind target error : String) (hadPrevious restored : Bool) : String :=
  let recovery :=
    if !hadPrevious then "本次安装未完成，可以重试"
    else if restored then "旧目录已恢复原位"
    else "旧目录保留在 quarantine，需人工恢复"
  kind ++ "目录切换失败：" ++ error ++ "。请关闭占用安装目录的程序（如开发预览或文件监听器），" ++
    "并确认目录可写后重试。目标：" ++ target ++ "（" ++ recovery ++ "）"

/-- The text of a reason, with those of the archive's errors and of the target given. -/
def Reason.text (archiveText : ArchiveError → String) (target : String) : Reason → String
  | .paused => "安装已暂停"
  | .fetch text => "获取组件产物失败: " ++ text
  | .staged (.archive e) => "staging 安装失败（放弃并清理）: " ++ archiveText e
  | .staged (.recheck finding) =>
    "staging 安装失败（放弃并清理）: staging 复验未通过: " ++ brokenSummary finding
  | .quarantine text => "旧组件目录移入 quarantine 失败（旧目录保持原位）: " ++ text
  | .installMove text hadPrevious restored =>
    installMoveError "组件" target text hadPrevious restored
  | .recheck finding => "修复后复验失败: " ++ brokenSummary finding

end Gamer.Updater.Repair
