import Mathlib.Algebra.GroupWithZero.Nat
import Mathlib.Data.List.Dedup
import Gamer.Lib.Served
import Gamer.Lib.Table
import Gamer.Updater.PathSafe
import Gamer.Updater.Snapshot

/-! `snapshot::restore` on the disk, file by file. The snapshot is verified and copied into a stage
    of its own, the live `data/` and `config.toml` are renamed into a quarantine directory of their
    own, and the stage is renamed into their place:

        backups/<id>/ ──copy──▶ staging/restore-<id>-<stamp>/ ──rename──▶ data/, config.toml
                                          data/, config.toml  ──rename──▶ quarantine/rollback-<stamp>/

    A run may end at any step, because the step fails or because it is cut off. The server is down,
    so nothing else writes. Names of files are the same when `lower` of them is, and a directory is
    a table by that. -/

namespace Gamer.Updater.Restore
open Gamer.Lib Gamer.Lib.Prog

abbrev Bytes := List UInt8

/-- A file, under its name as it is spelled. -/
structure File where
  name : String
  content : Bytes
  deriving DecidableEq

/-- The files below a directory, each by the lower case of its name. -/
abbrev Dir := Table String File

structure ListedFile where
  path : String
  size : Nat
  sha256 : String
  deriving DecidableEq

/-- `SnapshotManifest`. -/
structure Manifest where
  schemaVersion : Nat
  updateId : String
  files : List ListedFile
  fileCount : Nat
  totalBytes : Nat
  manifestSha256 : String
  deriving DecidableEq

/-- `backups/<id>/`: the files, and what its `manifest.json` parses to. -/
structure Backup where
  files : Dir
  manifest : Option Manifest

/-- `quarantine/rollback-<stamp>/`. -/
structure Txn where
  data : Option Dir
  config : Option Bytes

structure Disk where
  data : Option Dir
  config : Option Bytes
  backups : Table String Backup
  stages : Table String Dir
  quarantine : Table String Txn

/-- How a step ends: whether it succeeds, and what a copy or a removal that fails leaves. -/
structure Answer where
  ok : Bool
  text : String
  partialCopy : Option Bytes
  left : String → Bool

def configPath : String := "config/config.toml"

def inData (path : String) : Bool := "data/".toList.isPrefixOf path.toList

/-- `check_manifest_path`. -/
def checkManifestPath (path : String) : Bool :=
  (PathSafe.checkSinglePath path).isNone && (path = configPath || inData path)

def validSha256 (value : String) : Bool :=
  value.utf8ByteSize = 64 &&
    value.toList.all fun c => c.isDigit || ('a'.toNat ≤ c.toNat && c.toNat ≤ 'f'.toNat)

section
variable (lower : String → String) (sha : Bytes → String) (digest : Manifest → String)

/-- `validate_manifest_shape`. -/
def validShape (m : Manifest) (updateId : String) : Bool :=
  m.schemaVersion = 1 && m.updateId = updateId && validSha256 m.manifestSha256 &&
  m.manifestSha256 = digest m &&
  (m.files.all fun f => checkManifestPath f.path && validSha256 f.sha256) &&
  (m.files.map fun f => lower f.path).Nodup &&
  m.fileCount = m.files.length && m.totalBytes = (m.files.map (·.size)).sum &&
  m.totalBytes < 2 ^ 64

/-- `is_unlisted_sqlite_sidecar`: what an inspection leaves beside a listed database. -/
def isUnlistedSidecar (path : String) (listed : List String) : Bool :=
  let name := lower path
  name ∉ listed && ["-wal", "-shm"].any fun suffix =>
    suffix.toList.isSuffixOf name.toList &&
      String.ofList (name.toList.dropLast.dropLast.dropLast.dropLast) ∈ listed

/-- The files of a directory that are taken into account, if all its names are safe. -/
def listedFiles (dir : Dir) (listed : List String) : Option Dir :=
  if dir.values.all fun f => checkManifestPath f.name then
    some (dir.filter fun _ f => !isUnlistedSidecar lower f.name listed)
  else none

/-- `listed_snapshot_files` of a snapshot; a restore stage has no manifest. -/
def listedSnapshotFiles (b : Backup) : Option Dir :=
  listedFiles lower b.files ((b.manifest.map fun m => m.files.map fun f => lower f.path).getD [])

/-- `listed_live_files`. -/
def listedLiveFiles (d : Disk) : Option Dir :=
  let data := d.data.getD ∅
  if data.values.all fun f => checkManifestPath f.name then
    match d.config with
    | none => some data
    | some content =>
      if (data.get (lower configPath)).isSome then none
      else some (data.set (lower configPath) ⟨configPath, content⟩)
  else none

/-- `verify_file_map`. -/
def verifyFileMap (files : Dir) (m : Manifest) : Bool :=
  files.entries.length = (m.files.map fun f => lower f.path).dedup.length &&
  m.files.all fun f => match files.get (lower f.path) with
    | some file => file.content.length = f.size && sha file.content = f.sha256
    | none => false

/-- The manifest of a snapshot that `verify` accepts. -/
def verified (b : Backup) (updateId : String) : Option Manifest :=
  match b.manifest, listedSnapshotFiles lower b with
  | some m, some files =>
    if Snapshot.sanitizeId updateId && validShape lower digest m updateId &&
        verifyFileMap lower sha files m then some m
    else none
  | _, _ => none

/-! ### The steps -/

abbrev Step (α : Type) := Prog Answer Disk (Except String α)

def verify (updateId : String) : Step Manifest := Prog.effect fun e d =>
  match e.ok, (d.backups.get updateId).bind fun b => verified lower sha digest b updateId with
  | true, some m => (.ok m, d)
  | _, _ => (.error ("快照校验失败: " ++ e.text), d)

def stageName (updateId stamp : String) : String := "restore-" ++ updateId ++ "-" ++ stamp

/-- The stage is created; one that is there is not touched. -/
def createStage (stage : String) : Step Unit := Prog.effect fun e d =>
  if (d.stages.get stage).isSome then (.error ("恢复 staging 已存在，拒绝覆盖: " ++ stage), d)
  else if e.ok then (.ok (), { d with stages := d.stages.set stage ∅ })
  else (.error ("创建恢复 staging 失败: " ++ e.text), d)

/-- A file in the stage, written as the answer says. -/
def Disk.write (d : Disk) (stage : String) (path : String) (content : Bytes) : Disk :=
  { d with stages := d.stages.modify stage fun t => t.set (lower path) ⟨path, content⟩ }

/-- `fs::copy` into the stage. One that fails may leave part of the file. -/
def stageFile (updateId stage : String) (f : ListedFile) : Step Unit := Prog.effect fun e d =>
  match e.ok, (d.backups.get updateId).bind fun b => b.files.get (lower f.path) with
  | true, some file => (.ok (), d.write lower stage f.path file.content)
  | _, _ => (.error ("准备恢复 " ++ f.path ++ " 失败: " ++ e.text),
      match e.partialCopy with
      | some content => d.write lower stage f.path content
      | none => d)

def stageFiles (updateId stage : String) : List ListedFile → Step Unit
  | [] => Prog.give (.ok ())
  | f :: rest => (stageFile lower updateId stage f).andThen fun _ => stageFiles updateId stage rest

def verifyStage (stage : String) (m : Manifest) : Step Unit := Prog.effect fun e d =>
  match e.ok, (d.stages.get stage).bind fun t => listedFiles lower t [] with
  | true, some files =>
    if verifyFileMap lower sha files m then (.ok (), d)
    else (.error "恢复 staging 文件集合与快照不符", d)
  | _, _ => (.error ("恢复 staging: " ++ e.text), d)

/-- The quarantine directory of this restore, made when there is something to move. -/
def createQuarantine (stamp : String) : Step Unit := Prog.effect fun e d =>
  if d.data.isNone && d.config.isNone then (.ok (), d)
  else if e.ok then
    let txn := (d.quarantine.get stamp).getD ⟨none, none⟩
    (.ok (), { d with quarantine := d.quarantine.set stamp txn })
  else (.error ("创建 quarantine 失败: " ++ e.text), d)

/-- `data/` is renamed into it; a directory that is there is not replaced. -/
def takeData (stamp : String) : Step Unit := Prog.effect fun e d =>
  match d.data with
  | none => (.ok (), d)
  | some files => match e.ok, d.quarantine.get stamp with
    | true, some ⟨none, config⟩ => (.ok (), { d with
        data := none
        quarantine := d.quarantine.set stamp ⟨some files, config⟩ })
    | _, _ => (.error ("现网 data/ 移入 quarantine 失败（原位保留）: " ++ e.text), d)

def takeConfig (stamp : String) : Step Unit := Prog.effect fun e d =>
  match d.config with
  | none => (.ok (), d)
  | some content => match e.ok, d.quarantine.get stamp with
    | true, some txn => (.ok (), { d with
        config := none
        quarantine := d.quarantine.set stamp { txn with config := some content } })
    | _, _ => (.error ("现网 config.toml 移入 quarantine 失败: " ++ e.text), d)

/-- The staged `data/` is renamed into place. -/
def putData (stage : String) : Step Unit := Prog.effect fun e d =>
  match e.ok, d.data, d.stages.get stage with
  | true, none, some t => (.ok (), { d with
      data := some (t.filter fun _ f => inData f.name)
      stages := d.stages.set stage (t.filter fun _ f => !inData f.name) })
  | _, _, _ => (.error ("恢复 data/ 同卷换入失败: " ++ e.text), d)

/-- The staged configuration, if the manifest lists one. -/
def putConfig (stage : String) (m : Manifest) : Step Unit :=
  if m.files.any (·.path = configPath) then Prog.effect fun e d =>
    match e.ok, (d.stages.get stage).bind fun t => (t.get (lower configPath)).map (t, ·) with
    | true, some (t, file) => (.ok (), { d with
        config := some file.content
        stages := d.stages.set stage (t.del (lower configPath)) })
    | _, _ => (.error ("恢复 config.toml 同卷换入失败: " ++ e.text), d)
  else Prog.give (.ok ())

def verifyLive (m : Manifest) : Step Unit := Prog.effect fun e d =>
  match e.ok, listedLiveFiles lower d with
  | true, some files =>
    if verifyFileMap lower sha files m then (.ok (), d)
    else (.error "恢复后现网 文件集合与快照不符", d)
  | _, _ => (.error ("恢复后现网: " ++ e.text), d)

/-- The stage is removed; a removal that fails may have got anywhere. -/
def removeStage (stage : String) : Step Unit := Prog.effect fun e d =>
  if e.ok then (.ok (), { d with stages := d.stages.del stage })
  else (.error ("清理恢复 staging 失败（数据已恢复，证据仍保留）: " ++ e.text),
    { d with stages := d.stages.modify stage fun t => t.filter fun name _ => e.left name })

/-- Once the stage is complete. -/
def swapIn (stage stamp : String) (m : Manifest) : Step Unit :=
  (createQuarantine stamp).andThen fun _ =>
  (takeData stamp).andThen fun _ =>
  (takeConfig stamp).andThen fun _ =>
  (putData stage).andThen fun _ =>
  (putConfig lower stage m).andThen fun _ =>
  (verifyLive lower sha m).andThen fun _ =>
  removeStage stage

/-- `restore`, at the instant `stamp`. -/
def restore (updateId stamp : String) : Step Unit :=
  (verify lower sha digest updateId).andThen fun m =>
  (createStage (stageName updateId stamp)).andThen fun _ =>
  (stageFiles lower updateId (stageName updateId stamp) m.files).andThen fun _ =>
  (verifyStage lower sha (stageName updateId stamp) m).andThen fun _ =>
  swapIn lower sha (stageName updateId stamp) stamp m

end

end Gamer.Updater.Restore
