import Gamer.Lib.Machine
import Gamer.Packages.Paths

/-! Conditional writes of package resources. Clients call in any order, from any number of stores; one
    lock, shared by all stores, is held from the look at the version to the replacement:

        waiting ──lock──▶ entered ──gate──▶ writing ──replace──▶ done, lock given back
                             │ replace_binary                                    ▲
                             └──▶ staging ──▶ relocating ──▶ publishing ───────────┘       -/

namespace Gamer.Packages
open Gamer.Lib

/-- What is on disk. Directories that are in the way are faults of the operation. -/
abbrev Disk := Place → Option ByteArray

namespace Disk

def put (d : Disk) (at_ : Place) (bytes : ByteArray) : Disk := fun q => if q = at_ then some bytes else d q

def erase (d : Disk) (at_ : Place) : Disk := fun q => if q = at_ then none else d q

end Disk

/-! ### Versions -/

section
variable (p : Platform)

def hexDigit (n : Nat) : Char := "0123456789abcdef".toList.getD n '0'

/-- The first 48 bits of the hash. -/
def bytesVersion (bytes : ByteArray) : String :=
  String.ofList (((p.sha256 bytes).take 6).flatMap fun b =>
    [hexDigit (b.toNat / 16), hexDigit (b.toNat % 16)])

def contentVersion (content : String) : String := bytesVersion p content.toUTF8

/-- What a file's text is; none if it cannot be read or is not text. -/
def readToString (readable : Bool) (bytes : ByteArray) : Option String :=
  if readable then String.fromUTF8? bytes else none

/-- The version that `write_text` computes. -/
def textCurrent (readable : Bool) (bytes : ByteArray) : String :=
  ((readToString readable bytes).map (contentVersion p)).getD ""

/-- The version that `write_binary` computes. -/
def binaryCurrent (readable : Bool) (bytes : ByteArray) : String :=
  if readable then bytesVersion p bytes else ""

end

/-- Whether a write may go on, given the version of the file that is there. -/
def gate (current expected : Option String) (force : Bool) : Except String Unit :=
  match current, expected with
  | some current, expected =>
    if force then .ok ()
    else match expected with
      | none => .error "version_required: 更新资源必须提供 expected_version，或显式 force:true"
      | some expected =>
        if expected ≠ current then .error "version_conflict: 资源已被其他页面修改" else .ok ()
  | none, some _ =>
    if force then .ok () else .error "version_conflict: 资源不存在，不能带 expected_version 创建"
  | none, none => .ok ()

/-! ### Calls -/

inductive Call where
  | writeText (pkg plugin path content : String) (expected : Option String) (force : Bool)
  | writeBinary (pkg plugin path : String) (bytes : ByteArray) (expected : Option String)
      (force : Bool)
  | replaceBinary (pkg plugin oldPath newPath : String) (bytes : ByteArray) (expected : String)
  | renameResource (pkg plugin oldPath newPath : String)
  | deleteResource (pkg plugin path : String)

/-- Where a client is in its call. -/
inductive Phase where
  | idle
  | waiting (call : Call)
  | entered (call : Call)
  | writing (place : Place) (bytes : ByteArray) (expected : Option String) (force : Bool)
  | staging (old new : Place) (bytes : ByteArray) (expected : String)
  | relocating (old new : Place) (bytes : ByteArray) (expected : String)
  | publishing (old new : Place) (bytes : ByteArray) (expected : String)
  | moving (old new : Place)
  | removing (place : Place)

/-- A replacement of a file's content, with what was there before. -/
structure Written where
  place : Place
  before : Option ByteArray
  after : ByteArray
  expected : Option String
  force : Bool

structure State where
  disk : Disk
  holder : Option Nat
  phases : Nat → Phase
  log : List Written
  answers : List (Nat × Except String Unit)

namespace State

def setPhase (s : State) (c : Nat) (phase : Phase) : State :=
  { s with phases := fun d => if d = c then phase else s.phases d }

/-- The call returns, and the lock is given back. -/
def answer (s : State) (c : Nat) (result : Except String Unit) : State :=
  { (s.setPhase c .idle) with holder := none, answers := s.answers ++ [(c, result)] }

/-- `atomic_write` on a file that exists or not. -/
def replace (s : State) (place : Place) (bytes : ByteArray) (expected : Option String)
    (force : Bool) : State :=
  { s with
    disk := s.disk.put place bytes
    log := s.log ++ [⟨place, s.disk place, bytes, expected, force⟩] }

/-- A file's content under another name. -/
def rename (s : State) (old new : Place) : State :=
  match s.disk old with
  | some bytes => { s with disk := (s.disk.erase old).put new bytes }
  | none => s

end State

section
variable (p : Platform)

/-- The paths and the version gate of `write_text` and of `write_binary`. -/
def lookWrite (current : ByteArray → String) (d : Disk) (pkg plugin path : String)
    (bytes : ByteArray) (expected : Option String) (force : Bool) : Except String Phase := do
  let place ← resourcePath pkg plugin (← normalizeWrittenPath p path)
  gate ((d place).map current) expected force
  .ok (.writing place bytes expected force)

/-- What a call looks at with the lock held; `readable` says whether the file can be read. -/
def look (d : Disk) (readable : Bool) : Call → Except String Phase
  | .writeText pkg plugin path content expected force =>
    lookWrite p (textCurrent p readable) d pkg plugin path content.toUTF8 expected force
  | .writeBinary pkg plugin path bytes expected force =>
    lookWrite p (binaryCurrent p readable) d pkg plugin path bytes expected force
  | .replaceBinary pkg plugin oldPath newPath bytes expected => do
    let old ← normalizeWrittenPath p oldPath
    let new ← normalizeWrittenPath p newPath
    if old = new then
      lookWrite p (binaryCurrent p readable) d pkg plugin oldPath bytes (some expected) false
    else
      let old ← resourcePath pkg plugin old
      let new ← resourcePath pkg plugin new
      match d old with
      | none => .error "version_conflict: 原资源不存在或不可读"
      | some original =>
        if !readable then .error "version_conflict: 原资源不存在或不可读"
        else if bytesVersion p original ≠ expected then
          .error "version_conflict: 资源已被其他页面修改，请重新确认覆盖"
        else if (d new).isSome then .error "version_conflict: 目标资源已存在"
        else .ok (.staging old new bytes expected)
  | .renameResource pkg plugin oldPath newPath => do
    let old ← normalizeWrittenPath p oldPath
    let new ← normalizeWrittenPath p newPath
    if old = new then .error "名称未变化"
    else
      let old ← resourcePath pkg plugin old
      let new ← resourcePath pkg plugin new
      if (d old).isNone then .error "资源不存在"
      else if (d new).isSome then .error "资源已存在"
      else .ok (.moving old new)
  | .deleteResource pkg plugin path => do
    let place ← resourcePath pkg plugin (← sanitizeRelPath p path.toList)
    if (d place).isNone then .error "资源不存在" else .ok (.removing place)

/-- How the file operations of a step go. A replacement that fails may have taken place, if only the
    directory could not be synced. -/
structure Outcome where
  readable : Bool
  works : Bool
  late : Bool
  restores : Bool

/-- The next file operation of the client that holds the lock. -/
def proceed (s : State) (c : Nat) (o : Outcome) : Phase → Option State
  | .idle | .waiting _ => none
  | .entered call =>
    match look p s.disk o.readable call with
    | .error e => some (s.answer c (.error e))
    | .ok phase => some (s.setPhase c phase)
  | .writing place bytes expected force =>
    if o.works then some ((s.replace place bytes expected force).answer c (.ok ()))
    else if o.late then some ({ s with disk := s.disk.put place bytes }.answer c (.error "io"))
    else some (s.answer c (.error "io"))
  | .staging old new bytes expected =>
    if o.works then some (s.setPhase c (.relocating old new bytes expected))
    else some (s.answer c (.error "io"))
  | .relocating old new bytes expected =>
    if (s.disk old).isNone then some (s.answer c (.error "资源不存在"))
    else if (s.disk new).isSome then some (s.answer c (.error "资源已存在"))
    else if o.works then some ((s.rename old new).setPhase c (.publishing old new bytes expected))
    else some (s.answer c (.error "重命名失败"))
  | .publishing old new bytes expected =>
    if o.works then some ((s.replace new bytes (some expected) false).answer c (.ok ()))
    else if o.restores && (s.disk old).isNone then
      some ((s.rename new old).answer c (.error "替换失败，原模板已恢复"))
    else some (s.answer c (.error "替换失败；恢复名称失败；原内容仍保留"))
  | .moving old new =>
    if o.works then some ((s.rename old new).answer c (.ok ()))
    else some (s.answer c (.error "重命名失败"))
  | .removing place =>
    if o.works then some ({ s with disk := s.disk.erase place }.answer c (.ok ()))
    else some (s.answer c (.error "删除失败"))

inductive Action where
  /-- A client calls. -/
  | call (c : Nat) (call : Call)
  /-- It gets `RESOURCE_WRITE_LOCK`. -/
  | lock (c : Nat)
  | proceed (c : Nat) (o : Outcome)

def step (s : State) : Action → Option State
  | .call c call =>
    match s.phases c with
    | .idle => some (s.setPhase c (.waiting call))
    | _ => none
  | .lock c =>
    match s.phases c, s.holder with
    | .waiting call, none => some { (s.setPhase c (.entered call)) with holder := some c }
    | _, _ => none
  | .proceed c o => if s.holder = some c then proceed p s c o (s.phases c) else none

end

/-- No call is under way. -/
def start (disk : Disk) : State :=
  { disk := disk, holder := none, phases := fun _ => .idle, log := [], answers := [] }

end Gamer.Packages
