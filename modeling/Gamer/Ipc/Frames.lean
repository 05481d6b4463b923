import Gamer.Core.Json
import Gamer.Updater.Journal

/-! The operations of the launcher's IPC and the frames that answer them. A frame is kept in parts,
    and `toJson` is the object that goes over the wire. -/

namespace Gamer.Ipc
open Gamer.Core

inductive Dependency where | adb | ffmpeg
  deriving DecidableEq

inductive Operation where
  | status
  | check
  | download
  | prepareInstall
  | rollback
  | repairDependency (dependency : Dependency)
  deriving DecidableEq

def Operation.asStr : Operation → String
  | .status => "status"
  | .check => "check"
  | .download => "download"
  | .prepareInstall => "prepare_install"
  | .rollback => "rollback"
  | .repairDependency _ => "repair_dependency"

/-- The result of an accepted operation. -/
structure Accepted where
  operation : String
  updateId : Option String
  state : String
  deriving DecidableEq

inductive Frame where
  | success (requestId : String) (result : Accepted)
  | error (requestId code message : String)
  deriving DecidableEq

def protocolVersion : Nat := 1

namespace Frame

/-- The answer says that the operation was taken on. -/
def accepted : Frame → Bool
  | .success .. => true
  | .error .. => false

/-- `success_frame` of an accepted operation and `error_frame`, keys in order. -/
def toJson : Frame → Json
  | .success requestId result => .obj [
      ("ok", .bool true),
      ("protocol_version", .num (toString protocolVersion)),
      ("request_id", .str requestId),
      ("result", .obj [
        ("accepted", .bool true),
        ("operation", .str result.operation),
        ("state", .str result.state),
        ("update_id", (result.updateId.map Json.str).getD .null)])]
  | .error requestId code message => .obj [
      ("code", .str code),
      ("message", .str message),
      ("ok", .bool false),
      ("protocol_version", .num (toString protocolVersion)),
      ("request_id", .str requestId)]

/-- The frames that look the same over the wire are the same. -/
theorem toJson_injective : Function.Injective toJson := by
  intro f f' h
  cases f with
  | success id r =>
    cases f' with
    | success id' r' =>
      obtain ⟨op, uid, st⟩ := r
      obtain ⟨op', uid', st'⟩ := r'
      simp only [toJson, Json.obj.injEq, List.cons.injEq, Prod.mk.injEq, Json.str.injEq,
        true_and, and_true] at h
      obtain ⟨rfl, rfl, rfl, huid⟩ := h
      cases uid <;> cases uid' <;> simp_all
    | error id' code message => simp [toJson] at h
  | error id code message =>
    cases f' with
    | success id' r' => simp [toJson] at h
    | error id' code' message' =>
      simp only [toJson, Json.obj.injEq, List.cons.injEq, Prod.mk.injEq, Json.str.injEq,
        true_and, and_true] at h
      obtain ⟨rfl, rfl, rfl⟩ := h
      rfl

end Frame

end Gamer.Ipc
