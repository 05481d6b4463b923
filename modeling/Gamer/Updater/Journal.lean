import Mathlib.Data.Option.Basic

/-! The two files of `state/`: the pointer to the current version and the journal of the update
    transaction, and what the journal shows to the outside. -/

namespace Gamer.Updater

/-- The states of the update transaction, in the order it passes through them. -/
inductive UpdateState where
  | idle | checking | downloading | verifying | staged | waitingIdle | draining | stopped
  | snapshotting | snapshotVerified | migrating | switched | candidateStarting | candidateReady
  | activating | committed | cleaning | manualRecoveryRequired
  deriving DecidableEq

/-- `state/current.json`. -/
structure CurrentState where
  current : String
  previous : Option String
  deriving DecidableEq

/-- A supervised child, by process and image. -/
structure ChildInfo where
  pid : Nat
  exe : String
  deriving DecidableEq

/-- Where the snapshot of a transaction lies. -/
structure SnapshotInfo where
  id : String
  path : String
  deriving DecidableEq

structure JournalError where
  code : String
  message : String
  deriving DecidableEq

/-- `state/update-journal.json`. -/
structure UpdateJournal where
  updateId : Option String
  state : UpdateState
  fromVersion : Option String
  toVersion : Option String
  child : Option ChildInfo
  currentVersion : Option String
  previousVersion : Option String
  snapshot : Option SnapshotInfo
  dataSchemaBefore : Option Nat
  dataSchemaAfter : Option Nat
  lastStep : Option String
  error : Option JournalError
  deriving DecidableEq

/-- The journal of a missing file. -/
def UpdateJournal.default : UpdateJournal where
  updateId := none
  state := .idle
  fromVersion := none
  toVersion := none
  child := none
  currentVersion := none
  previousVersion := none
  snapshot := none
  dataSchemaBefore := none
  dataSchemaAfter := none
  lastStep := none
  error := none

namespace Codes

def updateNotManaged : String := "update_not_managed"
def updateBusy : String := "update_busy"
def updateNotAvailable : String := "update_not_available"
def updateNotReady : String := "update_not_ready"
def manifestInvalid : String := "manifest_invalid"
def artifactInvalid : String := "artifact_invalid"
def insufficientSpace : String := "insufficient_space"
def schemaIncompatible : String := "schema_incompatible"
def updaterUnavailable : String := "updater_unavailable"
def rollbackUnavailable : String := "rollback_unavailable"
def manualRecoveryRequired : String := "manual_recovery_required"
def updaterTooOld : String := "updater-too-old"

end Codes

/-- An error as the journal, the IPC frames and the outcomes carry it. -/
structure BusinessError where
  code : String
  message : String
  deriving DecidableEq

def BusinessError.display (err : BusinessError) : String := err.code ++ ": " ++ err.message

/-- The state shown to the server: eleven of them, derived from the journal. -/
def displayState (j : UpdateJournal) : String :=
  if j.state = .manualRecoveryRequired then "manual_recovery"
  else if j.lastStep = some "rolling_back" then "rolling_back"
  else match j.state with
    | .idle => if j.lastStep = some "failed" then "failed" else "idle"
    | .checking => if j.lastStep = some "checked" then "available" else "checking"
    | .downloading | .verifying => "downloading"
    | .staged => "staged"
    | .waitingIdle => "waiting"
    | .draining | .stopped | .snapshotting | .snapshotVerified | .migrating | .switched =>
      "installing"
    | .candidateStarting | .candidateReady | .activating => "restarting"
    | .committed | .cleaning => "idle"
    | .manualRecoveryRequired => "manual_recovery"

end Gamer.Updater
