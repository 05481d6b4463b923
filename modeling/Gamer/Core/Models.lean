import Gamer.Core.Json

/-! The boundary values shared by the runners and the timer: validated identifiers, the target of
    an operation, and the generic run request. An identifier carries the proof that it passed its
    own check, as the private field of the source's newtype does, so an invalid one cannot be
    built. -/

namespace Gamer.Core

/-- `char::is_whitespace`: the code points with the Unicode property White_Space. -/
def isWhitespace (c : Char) : Bool :=
  let n := c.toNat
  (0x09 ≤ n && n ≤ 0x0d) || n == 0x20 || n == 0x85 || n == 0xa0 || n == 0x1680 ||
    (0x2000 ≤ n && n ≤ 0x200a) || n == 0x2028 || n == 0x2029 || n == 0x202f || n == 0x205f ||
    n == 0x3000

/-- `char::is_control`: the general category Cc. -/
def isControl (c : Char) : Bool := c.toNat < 0x20 || (0x7f ≤ c.toNat && c.toNat ≤ 0x9f)

/-- `str::trim`. -/
def trim (s : String) : String :=
  String.ofList ((s.toList.dropWhile isWhitespace).reverse.dropWhile isWhitespace).reverse

/-- Validation failures produced while constructing a core boundary value. -/
inductive ModelError where
  | emptyValue (kind : String)
  | controlCharacter (kind : String)
  | pathSeparator (kind : String)
  | deviceMismatch (request app : String)
  | emptyRequestField (field : String)
  | controlCharacterRequestField (field : String)
  deriving DecidableEq

/-- The text of the error, as it reaches a `TimerRunnerError::Invalid`. -/
def ModelError.text : ModelError → String
  | .emptyValue kind => kind ++ " must not be empty"
  | .controlCharacter kind => kind ++ " contains a control character"
  | .pathSeparator kind => kind ++ " must not contain a path separator"
  | .deviceMismatch .. => "run request device_id does not match app.device_id"
  | .emptyRequestField field => field ++ " must not be empty"
  | .controlCharacterRequestField field => field ++ " contains a control character"

def validateIdentifier (kind value : String) : Except ModelError String :=
  let value := trim value
  if value.toList.isEmpty then .error (.emptyValue kind)
  else if value.toList.any isControl then .error (.controlCharacter kind)
  else if value.toList.any fun c => c == '/' || c == '\\' then .error (.pathSeparator kind)
  else .ok value

/-- A `string_id!` newtype: what its own constructor accepted. -/
structure Identifier (kind : String) where
  value : String
  accepted : ∃ raw, validateIdentifier kind raw = .ok value

instance (kind : String) : DecidableEq (Identifier kind) := fun a b =>
  if h : a.value = b.value then
    isTrue (by cases a; cases b; cases h; rfl)
  else isFalse fun hab => h (by rw [hab])

/-- Construct an identifier after trimming surrounding whitespace. -/
def Identifier.new (kind value : String) : Except ModelError (Identifier kind) :=
  match h : validateIdentifier kind value with
  | .ok v => .ok ⟨v, value, h⟩
  | .error e => .error e

abbrev DeviceId := Identifier "device_id"
abbrev AndroidPackageName := Identifier "android_package"
abbrev AppPackageId := Identifier "content_package"

/-- A logical target plus the optional Android application and content package in scope. -/
structure AppContext where
  deviceId : DeviceId
  androidPackage : Option AndroidPackageName
  contentPackage : Option AppPackageId
  deriving DecidableEq

/-- A frozen delegation accepted by the host. -/
structure ExecutionPolicy where
  tokenId : String
  allowedPlugins : List String
  scopes : List String
  deriving DecidableEq

namespace ExecutionPolicy

def taskKey : String := "gamer.core.external_execution"

/-- Insertion into a `BTreeSet<String>`. -/
def insertSorted (s : String) : List String → List String
  | [] => [s]
  | t :: rest => if s = t then t :: rest else if s < t then s :: t :: rest
      else t :: insertSorted s rest

/-- A JSON array of strings read as a `BTreeSet<String>`. -/
def stringSet : Json → Option (List String)
  | .arr items => (items.mapM Json.asStr).map (List.foldr insertSorted [])
  | _ => none

/-- `serde_json::from_value`: an object with exactly the three fields, or the three values in
    order as an array. -/
def fromValue : Json → Option ExecutionPolicy
  | .obj entries =>
    if entries.length = 3 then do
      let tokenId ← (Json.lookupKey "token_id" entries).bind Json.asStr
      let allowedPlugins ← (Json.lookupKey "allowed_plugins" entries).bind stringSet
      let scopes ← (Json.lookupKey "scopes" entries).bind stringSet
      return ⟨tokenId, allowedPlugins, scopes⟩
    else none
  | .arr [tokenId, allowedPlugins, scopes] => do
    return ⟨← tokenId.asStr, ← stringSet allowedPlugins, ← stringSet scopes⟩
  | _ => none

/-- `from_task_extensions`: no entry means no policy, an entry that does not decode is an error. -/
def fromTaskExtensions (extensions : Json) : Except Unit (Option ExecutionPolicy) :=
  match extensions.get taskKey with
  | none => .ok none
  | some v => match fromValue v with
    | some policy => .ok (some policy)
    | none => .error ()

end ExecutionPolicy

/-- Generic request accepted by any runner implementation. -/
structure RunRequest where
  deviceId : DeviceId
  app : AppContext
  runnerId : String
  entrypoint : String
  payload : Json
  executionPolicy : Option ExecutionPolicy

def validateRequestField (field value : String) : Except ModelError Unit :=
  if (trim value).toList.isEmpty then .error (.emptyRequestField field)
  else if value.toList.any isControl then .error (.controlCharacterRequestField field)
  else .ok ()

namespace RunRequest

def validate (r : RunRequest) : Except ModelError Unit :=
  if r.deviceId ≠ r.app.deviceId then
    .error (.deviceMismatch r.deviceId.value r.app.deviceId.value)
  else do
    validateRequestField "runner_id" r.runnerId
    validateRequestField "entrypoint" r.entrypoint

def new (deviceId : DeviceId) (app : AppContext) (runnerId entrypoint : String) (payload : Json) :
    Except ModelError RunRequest := do
  let request : RunRequest := ⟨deviceId, app, runnerId, entrypoint, payload, none⟩
  request.validate
  return request

/-- Construct a request without repeating `app.device_id` at the call site. -/
def forApp (app : AppContext) (runnerId entrypoint : String) (payload : Json) :
    Except ModelError RunRequest :=
  new app.deviceId app runnerId entrypoint payload

/-- The request `for_app` builds when both text fields pass their check. -/
theorem forApp_ok {app : AppContext} {runnerId entrypoint : String} (payload : Json)
    (hr : validateRequestField "runner_id" runnerId = .ok ())
    (he : validateRequestField "entrypoint" entrypoint = .ok ()) :
    forApp app runnerId entrypoint payload =
      .ok ⟨app.deviceId, app, runnerId, entrypoint, payload, none⟩ := by
  simp [forApp, new, validate, hr, he, bind, Except.bind, pure, Except.pure]

end RunRequest

end Gamer.Core
