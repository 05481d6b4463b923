import Gamer.Lib.Bytes
import Gamer.Lib.Machine
import Gamer.Lib.SemVer
import Gamer.Lib.Table

/-! The update policy that is in force, and the file it is saved in. `replace` swaps the policy
    under a lock and then writes the file on another thread, through one temporary file:

        swap ──▶ create tmp ──▶ write … ──▶ rename tmp to the file
        └ lock ┘ └────────────── no lock ──────────────────────┘

    Calls run one against the other: what one of them has open may be renamed, truncated or written
    by another. -/

namespace Gamer.Updater.Policy
open Gamer.Lib

inductive UpdateStrategy where
  | off
  | notify
  | auto
  deriving DecidableEq

structure MaintenanceWindow where
  start : String
  finish : String
  deriving DecidableEq

structure UpdatePolicy where
  strategy : UpdateStrategy
  maintenanceWindow : MaintenanceWindow
  freezeMinutes : Int
  deriving DecidableEq

/-- `str::parse::<u8>`. -/
def parseU8 (s : List Char) : Option Nat :=
  let digits := match s with
    | '+' :: rest => rest
    | cs => cs
  if digits ≠ [] ∧ digits.all Char.isDigit ∧ SemVer.value digits < 2 ^ 8 then
    some (SemVer.value digits)
  else none

/-- Five bytes. Characters of more than one do not parse. -/
def parseHhMm (value : String) : Option (Nat × Nat) :=
  match value.toList with
  | [h, h', colon, m, m'] =>
    if colon ≠ ':' then none
    else
      match parseU8 [h, h'], parseU8 [m, m'] with
      | some hh, some mm => if hh > 23 ∨ mm > 59 then none else some (hh, mm)
      | _, _ => none
  | _ => none

/-- The field that is not valid. -/
def UpdatePolicy.validateField (p : UpdatePolicy) : Option String :=
  if parseHhMm p.maintenanceWindow.start = none then some "maintenance_window"
  else if parseHhMm p.maintenanceWindow.finish = none then some "maintenance_window"
  else if p.maintenanceWindow.start = p.maintenanceWindow.finish then some "maintenance_window"
  else if ¬ (0 ≤ p.freezeMinutes ∧ p.freezeMinutes ≤ 1440) then some "freeze_window_minutes"
  else none

/-! ### The store -/

/-- How far a call has come with its policy. -/
inductive Stage where
  /-- The policy is in force. -/
  | swapped (p : UpdatePolicy)
  /-- The temporary file is open, and this much of it is written. -/
  | opened (p : UpdatePolicy) (inode offset : Nat)
  /-- `replace` has returned and its `persist` has succeeded. -/
  | saved (p : UpdatePolicy)
  /-- `replace` has returned and its `persist` has not. -/
  | failed (p : UpdatePolicy)
  deriving DecidableEq

structure Store where
  current : UpdatePolicy
  calls : Table Nat Stage
  /-- What the files hold, by inode. -/
  inodes : Table Nat Bytes
  nextInode : Nat
  /-- The inode that `update-policy.json.tmp` names. -/
  tmp : Option Nat
  /-- The inode that `update-policy.json` names. -/
  path : Option Nat

inductive Action where
  /-- A call validates its policy and swaps it in. -/
  | replace (call : Nat) (p : UpdatePolicy)
  /-- `File::create` of the temporary file. -/
  | create (call : Nat)
  /-- One `write` of `write_all`. -/
  | write (call n : Nat)
  | rename (call : Nat)
  /-- A step of `persist` fails. -/
  | fail (call : Nat)

/-- What is written at an offset of a file, which may have become shorter. -/
def overlay (file : Bytes) (offset : Nat) (bytes : Bytes) : Bytes :=
  (file ++ List.replicate (offset - file.length) 0).take offset ++ bytes ++
    file.drop (offset + bytes.length)

section
variable (encode : UpdatePolicy → Bytes)

/-- The text of the file: JSON and a newline. -/
def text (p : UpdatePolicy) : Bytes := encode p ++ [10]

namespace Store

def setCall (s : Store) (call : Nat) (c : Stage) : Store := { s with calls := s.calls.set call c }

/-- `replace`, up to the end of its lock. -/
def replace (s : Store) (call : Nat) (p : UpdatePolicy) : Option Store :=
  if (s.calls.get call).isSome then none
  else
    match p.validateField with
    | some _ => some s
    | none => some ({ s with current := p }.setCall call (.swapped p))

/-- A temporary file that is there is made empty, else there is a new one. -/
def create (s : Store) (call : Nat) : Option Store :=
  match s.calls.get call with
  | some (.swapped p) =>
    match s.tmp with
    | some inode =>
      some ({ s with inodes := s.inodes.set inode [] }.setCall call (.opened p inode 0))
    | none => some ({ s with
        inodes := s.inodes.set s.nextInode []
        nextInode := s.nextInode + 1
        tmp := some s.nextInode }.setCall call (.opened p s.nextInode 0))
  | _ => none

def write (s : Store) (call n : Nat) : Option Store :=
  match s.calls.get call with
  | some (.opened p inode offset) =>
    if 0 < n ∧ offset + n ≤ (text encode p).length then
      let bytes := ((text encode p).drop offset).take n
      let file := ((s.inodes.get inode).getD [])
      some ({ s with inodes := s.inodes.set inode (overlay file offset bytes) }.setCall call
        (.opened p inode (offset + n)))
    else none
  | _ => none

/-- The temporary file takes the file's place, whoever wrote it. If it is gone that fails. -/
def rename (s : Store) (call : Nat) : Option Store :=
  match s.calls.get call with
  | some (.opened p _ offset) =>
    if offset = (text encode p).length then
      match s.tmp with
      | some inode => some ({ s with tmp := none, path := some inode }.setCall call (.saved p))
      | none => some (s.setCall call (.failed p))
    else none
  | _ => none

def fail (s : Store) (call : Nat) : Option Store :=
  match s.calls.get call with
  | some (.swapped p) => some (s.setCall call (.failed p))
  | some (.opened p _ _) => some (s.setCall call (.failed p))
  | _ => none

/-- What the state file holds. -/
def stateFile (s : Store) : Option Bytes := s.path.bind s.inodes.get

end Store

def step (s : Store) : Action → Option Store
  | .replace call p => s.replace call p
  | .create call => s.create call
  | .write call n => s.write encode call n
  | .rename call => s.rename encode call
  | .fail call => s.fail call

/-- `load_blocking`, of what the state file holds. -/
def loadBlocking (decode : Bytes → Option UpdatePolicy) (file : Option Bytes)
    (baseline : UpdatePolicy) : UpdatePolicy :=
  match file with
  | none => baseline
  | some raw =>
    match decode raw with
    | some saved => if saved.validateField = none then saved else baseline
    | none => baseline

/-! ### What is asked of a run -/

/-- A store that was loaded: no call yet, and a file that is not the temporary one. -/
structure Loaded (s : Store) : Prop where
  idle : s.calls = ∅
  tmp : ∀ inode, s.tmp = some inode → inode < s.nextInode
  path : ∀ inode, s.path = some inode → inode < s.nextInode
  apart : ∀ inode, s.tmp = some inode → s.path ≠ some inode

/-- Calls were accepted, and all of them have returned and saved their policies. -/
structure Settled (s : Store) : Prop where
  called : ∃ call c, s.calls.get call = some c
  saved : ∀ call c, s.calls.get call = some c → ∃ p, c = .saved p

/-- The policy that a call has still to save. -/
def Stage.pending : Stage → Option UpdatePolicy
  | .swapped p => some p
  | .opened p _ _ => some p
  | _ => none

/-- A call has the policy in force and has still to save it. -/
def Owed (s : Store) (besides : Nat → Prop) : Prop :=
  ∃ call c, ¬ besides call ∧ s.calls.get call = some c ∧ c.pending = some s.current

/-- When a call renames its file, its policy is the one in force, or a call that has the one in
    force has still to rename. -/
def LastWins (s : Store) : Action → Prop
  | .rename call => ∀ c p, s.calls.get call = some c → c.pending = some p →
      p = s.current ∨ Owed s (· = call)
  | _ => True

end

end Gamer.Updater.Policy
