import Gamer.Core.Models

/-! The task of the timer and the run requests it turns into. A task without `inputs` is run once
    with its own payload; one with `inputs` is run once for each of them, with the input's fields
    laid over the payload and, where the input names a device, on that device:

        payload  ×  inputs[i]  ──▶  merge_payload  ──▶  RunRequest i -/

namespace Gamer.Timer
open Gamer.Core

/-- A schedule owned by a provider: `config` is opaque to the core. -/
structure TaskSchedule where
  providerId : String
  config : Json

def TaskSchedule.validate (s : TaskSchedule) : Except String Unit :=
  if (trim s.providerId).toList.isEmpty then .error "schedule provider_id must not be empty"
  else if s.providerId.toList.any isControl then
    .error "schedule provider_id contains a control character"
  else .ok ()

inductive TaskState where | active | suspended | cancelled | dependencyMissing
  deriving DecidableEq

/-- A persisted user task. -/
structure Task where
  id : String
  name : String
  app : AppContext
  runnerId : String
  entrypoint : String
  payload : Json
  extensions : Json
  inputs : List Json
  concurrency : Nat
  schedule : TaskSchedule
  state : TaskState
  enabled : Bool
  nextWakeup : Option Int
  lastResult : Option String
  suspendReason : Option String

def taskMaxInputs : Nat := 64
def taskMaxConcurrency : Nat := 64

namespace Task

/-- The parallel runs of one trigger: 1 to 64, and 1 when nothing is said. -/
def concurrencyLimit (t : Task) : Nat := min (max t.concurrency 1) taskMaxConcurrency

def validateText (field value : String) : Except String Unit :=
  if (trim value).toList.isEmpty then .error (field ++ " must not be empty")
  else if value.toList.any isControl then .error (field ++ " contains a control character")
  else .ok ()

def validateInput (index : Nat) (input : Json) : Except String Unit :=
  let at' := "task inputs[" ++ toString index ++ "]"
  let id := trim ((input.getStr "id").getD "")
  if !input.isObject then .error (at' ++ " must be a JSON object")
  else if id.toList.isEmpty || 255 < id.utf8ByteSize then
    .error (at' ++ ".id must not be empty (≤255 chars)")
  else if 16 * 1024 < input.toText.utf8ByteSize then
    .error (at' ++ " must be at most 16 KiB")
  else .ok ()

def validateInputs : Nat → List Json → Except String Unit
  | _, [] => .ok ()
  | index, input :: rest => do
    validateInput index input
    validateInputs (index + 1) rest

def validate (t : Task) : Except String Unit := do
  validateText "task id" t.id
  validateText "task name" t.name
  validateText "runner_id" t.runnerId
  validateText "entrypoint" t.entrypoint
  if !t.extensions.isObject || 64 * 1024 < t.extensions.toText.utf8ByteSize then
    .error "task extensions must be a JSON object of at most 64 KiB"
  if taskMaxInputs < t.inputs.length then
    .error ("task inputs must contain at most " ++ toString taskMaxInputs ++ " entries")
  validateInputs 0 t.inputs
  t.schedule.validate

def isSchedulable (t : Task) : Bool := t.enabled && t.state = .active

end Task

/-! ### Requests -/

/-- Why a request was not built. The text of `policy` is the decoder's own. -/
inductive Rejection where
  | device (error : ModelError)
  | request (error : ModelError)
  | policy
  deriving DecidableEq

/-- `RunRequest::for_app` with the delegation the host persisted in the task's extensions. -/
def delegated (t : Task) (app : AppContext) (payload : Json) : Except Rejection RunRequest :=
  match RunRequest.forApp app t.runnerId t.entrypoint payload with
  | .error e => .error (.request e)
  | .ok request => match ExecutionPolicy.fromTaskExtensions t.extensions with
    | .error _ => .error .policy
    | .ok policy => .ok { request with executionPolicy := policy }

/-- `Task::run_request`: the request of a task that is run as a whole. -/
def Task.runRequest (t : Task) : Except Rejection RunRequest := delegated t t.app t.payload

/-- A task without inputs counts as one with an empty input. -/
def taskEffectiveInputs (t : Task) : List Json :=
  if t.inputs.isEmpty then [.obj []] else t.inputs

/-- The fields of an input that describe it and are not handed to the runner. -/
def inputOwnKeys : List String := ["id", "label", "device_id"]

/-- Shallow merge: the input's fields win over the task's. -/
def mergePayload (base input : Json) : Json :=
  let merged := base.asObject.getD []
  match input.asObject with
  | none => .obj merged
  | some overrides => .obj (overrides.foldl (fun m kv =>
      if inputOwnKeys.contains kv.1 then m else Json.insertKey kv.1 kv.2 m) merged)

/-- The device of an input: its own where it names one, the task's otherwise. -/
def inputDevice (t : Task) (input : Json) : Except Rejection AppContext :=
  match input.getStr "device_id" with
  | none => .ok t.app
  | some device => match Identifier.new "device_id" device with
    | .ok deviceId => .ok { t.app with deviceId := deviceId }
    | .error e => .error (.device e)

/-- The request of one input, as both multi-input paths build it. -/
def inputRequest (t : Task) (input : Json) : Except Rejection RunRequest := do
  let app ← inputDevice t input
  delegated t app (mergePayload t.payload input)

/-! ### Runner boundary -/

inductive TimerRunnerError where
  | dependencyMissing (message : String)
  | invalid (message : String)
  | invalidDetail (message : String) (detail : Json)
  | conflict (runId : String)
  | shuttingDown
  | other (message : String)

/-- The displayed text. -/
def TimerRunnerError.text : TimerRunnerError → String
  | .dependencyMissing message => "dependency unavailable: " ++ message
  | .invalid message | .invalidDetail message _ | .other message => message
  | .conflict runId => "device busy: " ++ runId
  | .shuttingDown => "server is shutting down"

inductive TimerOutcome where
  | success
  | failed (message : String)
  | cancelled
  deriving DecidableEq

def outcomeOfError : TimerRunnerError → TimerOutcome
  | .conflict _ | .shuttingDown => .cancelled
  | error => .failed error.text

/-! ### What the checks of a task give its requests -/

theorem validate_bind {ε β : Type} {x : Except ε Unit} {f : Unit → Except ε β} {b : β}
    (h : (x >>= f) = .ok b) : x = .ok () ∧ f () = .ok b := by
  cases x with
  | error e => cases h
  | ok u => exact ⟨rfl, h⟩

theorem validateText_iff {field field' value : String} :
    Task.validateText field value = .ok () ↔ validateRequestField field' value = .ok () := by
  unfold Task.validateText validateRequestField
  split
  · simp
  · split <;> simp

/-- A validated task never fails the checks of a request. -/
theorem Task.request_fields_ok {t : Task} (h : t.validate = .ok ()) :
    validateRequestField "runner_id" t.runnerId = .ok () ∧
    validateRequestField "entrypoint" t.entrypoint = .ok () := by
  unfold Task.validate at h
  obtain ⟨_, h⟩ := validate_bind h
  obtain ⟨_, h⟩ := validate_bind h
  obtain ⟨hr, h⟩ := validate_bind h
  obtain ⟨he, _⟩ := validate_bind h
  exact ⟨validateText_iff.mp hr, validateText_iff.mp he⟩

/-- The request of a validated task: only the delegation can keep it from being built. -/
theorem delegated_eq {t : Task} (h : t.validate = .ok ()) (app : AppContext) (payload : Json) :
    delegated t app payload = match ExecutionPolicy.fromTaskExtensions t.extensions with
      | .error _ => .error .policy
      | .ok policy => .ok ⟨app.deviceId, app, t.runnerId, t.entrypoint, payload, policy⟩ := by
  obtain ⟨hr, he⟩ := Task.request_fields_ok h
  unfold delegated
  rw [RunRequest.forApp_ok payload hr he]

end Gamer.Timer
