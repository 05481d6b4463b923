import Mathlib.Algebra.GroupWithZero.Nat
import Mathlib.Data.List.Infix
import Gamer.Updater.World

/-! Snapshots of `data/` and `config.toml`: `create` copies file by file and writes the manifest
    last, `verify` compares a directory with its manifest, and `restore` rebuilds the tree next to
    the live one before it touches that:

        backups/<id> ──copy──▶ restore stage ──verify──▶
        data/ ──▶ quarantine,  config.toml ──▶ quarantine,  stage/data ──▶ data/,  stage/config ──▶
        verify the live files

    `sha` is the file digest. -/

namespace Gamer.Updater
open Gamer.Lib

/-- The live files as one tree. -/
def World.liveTree (w : World) : Tree := ⟨w.data.getD ∅, w.config⟩

def World.alive (w : World) : Bool := w.candidate.isSome

namespace World

/-! The four moves of a restore, each with its trace in the log. -/

def quarantineData (w : World) (files : Files) : World :=
  { w with
    data := none
    quarantine := w.quarantine ++ [.data files]
    log := w.log ++ [.overwrites w.alive] }

def quarantineConfig (w : World) (content : String) : World :=
  { w with
    config := none
    quarantine := w.quarantine ++ [.config content]
    log := w.log ++ [.overwrites w.alive] }

def restoreData (w : World) (files : Files) : World :=
  { w with data := some files, log := w.log ++ [.overwrites w.alive] }

def restoreConfig (w : World) (content : String) : World :=
  { w with config := some content, log := w.log ++ [.overwrites w.alive] }

end World

namespace Snapshot

def sanitizeId (updateId : String) : Bool :=
  !updateId.isEmpty && updateId.utf8ByteSize ≤ 128 &&
    updateId.toList.all fun c => c.isAlphanum || c = '-' || c = '_'

def fileOf (sha : String → String) (path : Rel) (content : String) : SnapshotFile :=
  ⟨path, content.utf8ByteSize, sha content⟩

def manifestOf (updateId : String) (files : List SnapshotFile) : SnapshotManifest :=
  ⟨updateId, files, files.length, (files.map (·.size)).sum⟩

/-- `validate_manifest_shape`. -/
def validShape (m : SnapshotManifest) (updateId : String) : Bool :=
  m.updateId = updateId && (m.files.map (·.path)).Nodup && m.fileCount = m.files.length &&
    m.totalBytes = (m.files.map (·.size)).sum

/-- `verify_file_map`: the same files, each of the listed size and digest. -/
def verifyFileMap (sha : String → String) (t : Tree) (m : SnapshotManifest) : Bool :=
  t.paths.length = m.files.length && m.files.all fun f => match t.get f.path with
    | some content => content.utf8ByteSize = f.size && sha content = f.sha256
    | none => false

/-- The snapshot holds a database, which only the candidate can check. -/
def hasDatabase (m : SnapshotManifest) : Bool :=
  m.files.any fun f => match f.path with
    | .data p => p.toLower.endsWith ".db"
    | .config => false

section
variable (sha : String → String)

def verify (updateId : String) : Action (Except String SnapshotManifest) := act fun e w =>
  if !sanitizeId updateId then (.error ("update_id 非法: " ++ updateId), w)
  else match (w.backups.get updateId).bind fun snap => snap.manifest.map fun m => (snap.tree, m) with
    | none => (.error ("快照清单缺失: " ++ e.text), w)
    | some (tree, m) =>
      if e.ok && validShape m updateId && verifyFileMap sha tree m then (.ok m, w)
      else (.error ("快照 文件集合与快照不符: " ++ e.text), w)

/-! ### Creation -/

/-- The half-made directory of an earlier try goes first. -/
def removeBackup (updateId : String) : Action (Except String Unit) := act fun e w =>
  if (w.backups.get updateId).isNone then (.ok (), w)
  else if e.ok then (.ok (), { w with backups := w.backups.del updateId })
  else (.error ("清理旧快照目录失败: " ++ e.text), w)

def walkSources : Action (Except String (List Rel)) := act fun e w =>
  if e.ok then (.ok w.liveTree.paths, w) else (.error ("遍历 data/ 失败: " ++ e.text), w)

def createRoot (updateId : String) : Action (Except String Unit) := act fun e w =>
  if e.ok then (.ok (), { w with backups := w.backups.set updateId ⟨.empty, none⟩ })
  else (.error ("创建快照目录失败: " ++ e.text), w)

def copyFile (updateId : String) (r : Rel) : Action (Except String SnapshotFile) := act fun e w =>
  match e.ok, w.live r, w.backups.get updateId with
  | true, some content, some snap =>
    (.ok (fileOf sha r content), { w with
      backups := w.backups.set updateId { snap with tree := snap.tree.put content r } })
  | _, _, _ => (.error ("复制失败: " ++ e.text), w)

def copyFiles (updateId : String) : List Rel → List SnapshotFile →
    Action (Except String (List SnapshotFile))
  | [], files => pure (.ok files)
  | r :: rest, files => (copyFile sha updateId r).andThen fun f =>
      copyFiles updateId rest (files ++ [f])

def writeManifest (m : SnapshotManifest) : Action (Except String Unit) := act fun e w =>
  match e.ok, w.backups.get m.updateId with
  | true, some snap =>
    (.ok (), { w with backups := w.backups.set m.updateId { snap with manifest := some m } })
  | _, _ => (.error ("写快照清单失败: " ++ e.text), w)

/-- The check of a copy of the databases by the candidate. -/
def inspectSnapshotCopy (m : SnapshotManifest) (candidateExe : Bool) :
    Action (Except String (Option Nat)) :=
  if !hasDatabase m then pure (.ok none)
  else if !candidateExe then
    pure (.error "快照含 SQLite 数据但未提供候选 exe，不能校验副本完整性（不进入 migrating）")
  else act fun e w =>
    if e.ok then (.ok e.observed.schema, w)
    else (.error "候选 exe inspect 校验快照失败（退出码非 0 或输出非 JSON）", w)

structure SnapshotReport where
  id : String
  path : String
  schemaAfter : Option Nat

def create (updateId : String) (candidateExe : Bool) : Action (Except String SnapshotReport) :=
  if !sanitizeId updateId then pure (.error ("update_id 非法: " ++ updateId))
  else (removeBackup updateId).andThen fun _ =>
    walkSources.andThen fun sources =>
    (createRoot updateId).andThen fun _ =>
    (copyFiles sha updateId sources []).andThen fun files =>
    (writeManifest (manifestOf updateId files)).andThen fun _ =>
    (verify sha updateId).andThen fun m =>
    (inspectSnapshotCopy m candidateExe).andThen fun schema =>
    pure (.ok ⟨updateId, "backups/" ++ updateId, schema⟩)

/-! ### Restoration -/

/-- One file of the snapshot, copied into the restore stage. -/
def stageFile (updateId : String) (f : SnapshotFile) (stage : Tree) :
    Action (Except String Tree) := act fun e w =>
  match e.ok, (w.backups.get updateId).bind (·.tree.get f.path) with
  | true, some content => (.ok (stage.put content f.path), w)
  | _, _ => (.error ("准备恢复失败: " ++ e.text), w)

def stageFiles (updateId : String) : List SnapshotFile → Tree → Action (Except String Tree)
  | [], stage => pure (.ok stage)
  | f :: rest, stage => (stageFile updateId f stage).andThen fun stage' =>
      stageFiles updateId rest stage'

def createStage : Action (Except String Unit) := act fun e w =>
  if e.ok then (.ok (), w) else (.error ("创建恢复 staging 失败: " ++ e.text), w)

/-- The quarantine directory, made when there is something to move. -/
def createQuarantine : Action (Except String Unit) := act fun e w =>
  if (w.data.isNone && w.config.isNone) || e.ok then (.ok (), w)
  else (.error ("创建 quarantine 失败: " ++ e.text), w)

/-- `data/` goes to the quarantine, where there is one. -/
def takeData : Action (Except String Unit) := act fun e w =>
  match w.data with
  | none => (.ok (), w)
  | some files =>
    if e.ok then (.ok (), w.quarantineData files)
    else (.error ("现网 data/ 移入 quarantine 失败（原位保留）: " ++ e.text), w)

def takeConfig : Action (Except String Unit) := act fun e w =>
  match w.config with
  | none => (.ok (), w)
  | some content =>
    if e.ok then (.ok (), w.quarantineConfig content)
    else (.error ("现网 config.toml 移入 quarantine 失败: " ++ e.text), w)

/-- The staged `data/` takes its place; a directory that is there is not replaced. -/
def putData (stage : Tree) : Action (Except String Unit) := act fun e w =>
  if e.ok && w.data.isNone then (.ok (), w.restoreData stage.data)
  else (.error ("恢复 data/ 同卷换入失败: " ++ e.text), w)

/-- The staged configuration, if the manifest lists one. -/
def putConfig (stage : Tree) (m : SnapshotManifest) : Action (Except String Unit) :=
  if m.files.any (·.path = .config) then act fun e w =>
    match e.ok, stage.config with
    | true, some content => (.ok (), w.restoreConfig content)
    | _, _ => (.error ("恢复 config.toml 同卷换入失败: " ++ e.text), w)
  else pure (.ok ())

def verifyLive (m : SnapshotManifest) : Action (Except String Unit) := act fun e w =>
  if e.ok && verifyFileMap sha w.liveTree m then (.ok (), w)
  else (.error ("恢复后现网 文件集合与快照不符: " ++ e.text), w)

/-- The stage is cleared away and the restore is done. -/
def finishRestore : Action (Except String Unit) := act fun e w =>
  if e.ok then (.ok (), w.emit .restored)
  else (.error ("清理恢复 staging 失败（数据已恢复，证据仍保留）: " ++ e.text), w)

/-- The swap, once the stage is complete. -/
def swapIn (stage : Tree) (m : SnapshotManifest) : Action (Except String Unit) :=
  createQuarantine.andThen fun _ =>
  takeData.andThen fun _ =>
  takeConfig.andThen fun _ =>
  (putData stage).andThen fun _ =>
  (putConfig stage m).andThen fun _ =>
  (verifyLive sha m).andThen fun _ =>
  finishRestore

def restore (updateId : String) : Action (Except String Unit) :=
  (verify sha updateId).andThen fun m =>
  createStage.andThen fun _ =>
  (stageFiles updateId m.files .empty).andThen fun stage =>
  if verifyFileMap sha stage m then swapIn sha stage m
  else pure (.error "恢复 staging 文件集合与快照不符")

end

end Snapshot

end Gamer.Updater
