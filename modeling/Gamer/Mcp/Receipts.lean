import Mathlib.Data.List.Basic
import Mathlib.Data.List.Count
import Mathlib.Tactic.SplitIfs
import Gamer.Core.Json
import Gamer.Core.Models
import Gamer.Lib.Machine
import Gamer.Lib.Table
import Gamer.Lib.Token

/-! Receipts of side effects. A call reserves its operation before the provider is called and stores
    the result behind it; the receipts outlive the process, the calls do not:

        authorize ─▶ reserve ─new─▶ check ─▶ provider ─▶ complete ─▶ check ─▶ answer
                        ├──completed─▶ check ─▶ answer
                        └──pending, conflict─▶ error                                             -/

namespace Gamer.Mcp.Receipts
open Gamer.Lib Gamer.Lib.Machine Gamer.Lib.Token Gamer.Core

structure ReceiptKey where
  tokenId : String
  toolName : String
  objectKey : String
  operationId : String
  deriving DecidableEq, Repr

structure ToolResult where
  content : List Json
  structuredContent : Option Json
  isError : Bool

structure McpError where
  code : String
  message : String
  retryable : Bool := false
  deriving DecidableEq, Repr

def McpError.unauthorized : McpError :=
  ⟨"credential_invalid", "MCP credential is invalid, expired or revoked", false⟩

def McpError.invalid (message : String) : McpError := ⟨"invalid_arguments", message, false⟩

def McpError.internal (message : String) : McpError := ⟨"internal_error", message, false⟩

def McpError.unknownOperation : McpError :=
  ⟨"operation_status_unknown", "The operation may already have executed; do not replay it. " ++
    "Inspect its existing result or ask the user to reconcile it", false⟩

def McpError.conflict : McpError :=
  ⟨"operation_conflict", "The operation_id was already used with different arguments", false⟩

/-- `ToolResult::error`. -/
def ToolResult.error (e : McpError) : ToolResult :=
  let value := Json.obj [("code", .str e.code), ("message", .str e.message),
    ("retryable", .bool e.retryable)]
  ⟨[.obj [("text", .str value.toText), ("type", .str "text")]], some value, true⟩

/-- `serde_json` on results, and the digest. -/
structure Host where
  sha256 : String → String
  print : ToolResult → Option String
  parse : String → Option ToolResult

/-- `hash_json`. An object is kept in key order, so that a value is canonical as it is. -/
def Host.hashJson (host : Host) (arguments : Json) : String := host.sha256 arguments.toText

/-! ### The key of a call -/

/-- The check of an `operation_id`. -/
def operationId (arguments : Json) : Except McpError String :=
  match arguments.getStr "operation_id" with
  | none => .error (.invalid "operation_id is required for side effects")
  | some id =>
    if trim id = "" || id.utf8ByteSize > 128 || id.toList.any isControl then
      .error (.invalid "operation_id must contain 1 to 128 printable bytes")
    else .ok id

/-- `bind_context`: the selectors of the required fields, by kind. `allowed` is what the credential
    allows. -/
def bindContext (allowed : String → String → Bool) (arguments : Json) :
    List (String × String) → List (String × Json) → Except McpError String
  | [], selectors => .ok (Json.obj selectors).toText
  | (kind, field) :: rest, selectors =>
    match (arguments.getStr field).filter (· ≠ "") with
    | none => .error (.invalid ("Required context selector: " ++ field))
    | some id =>
      if allowed kind id then
        bindContext allowed arguments rest (Json.insertKey kind (.str id) selectors)
      else .error .unauthorized

/-- What the catalog has of a tool. -/
structure CatalogEntry where
  readOnly : Bool
  /-- The kinds and fields of its context requirements. -/
  context : List (String × String)
  deriving DecidableEq, Repr

/-- The receipt's key; a tool that only reads has none. -/
def receiptKey (allowed : String → String → Bool) (tokenId toolName : String) (entry : CatalogEntry)
    (arguments : Json) : Except McpError (Option ReceiptKey) :=
  if entry.readOnly then
    (bindContext allowed arguments entry.context []).map fun _ => none
  else
    (operationId arguments).bind fun operationId =>
      (bindContext allowed arguments entry.context []).map fun objectKey =>
        some ⟨tokenId, toolName, objectKey, operationId⟩

/-! ### The store and the calls -/

/-- A row of `operation_receipts`. -/
structure Receipt where
  fingerprint : String
  resultJson : Option String
  deriving DecidableEq, Repr

inductive Admission where
  | new
  | completed (result : ToolResult)
  | pending
  | conflict
  /-- The stored result cannot be read. -/
  | invalid

/-- `reserve`, as far as it decides. -/
def admission (host : Host) (receipt : Option Receipt) (fingerprint : String) : Admission :=
  match receipt with
  | none => .new
  | some receipt =>
    if receipt.fingerprint ≠ fingerprint then .conflict
    else match receipt.resultJson with
      | none => .pending
      | some text =>
        match host.parse text with
        | some result => .completed result
        | none => .invalid

inductive Phase where
  | authorizing
  | reserving
  /-- At the check before the provider. -/
  | admitted
  | calling
  | completing (result : ToolResult)
  /-- At the last check. -/
  | finishing (result : ToolResult)
  | ended

structure Call where
  tokenId : String
  key : Option ReceiptKey
  arguments : Json
  phase : Phase

/-- A call of a provider. -/
structure Invocation where
  key : ReceiptKey
  arguments : Json

/-- A call has come to the receipts; `none` is a failure of the database. -/
structure Ask where
  key : ReceiptKey
  arguments : Json
  admission : Option Admission

structure Answer where
  key : ReceiptKey
  result : ToolResult
  /-- The credential was active. -/
  active : Bool

structure Service where
  inactive : List String := []
  receipts : Table ReceiptKey Receipt := ∅
  calls : List Call := []
  /-- The arguments each key was first reserved with. -/
  first : Table ReceiptKey Json := ∅
  started : List Invocation := []
  completed : List (ReceiptKey × ToolResult) := []
  asks : List Ask := []
  answers : List Answer := []

inductive Move where
  /-- `call_tool` up to the provider's `authorize`; `accepted` is what the catalog, the size limit
      and the schema say. -/
  | call (tokenId toolName : String) (entry : CatalogEntry) (arguments : Json)
      (allowed : String → String → Bool) (accepted : Bool)
  | authorized (call : Nat) (ok : Bool)
  | reserve (call : Nat) (ok : Bool)
  | check (call : Nat)
  /-- The provider returns, and whether the result meets the declared schema. -/
  | provided (call : Nat) (result : Except McpError ToolResult) (conforms : Bool)
  | complete (call : Nat) (ok : Bool)
  | drop (call : Nat)
  | setActive (tokenId : String) (active : Bool)
  | crash

/-- What is made of the provider's result. -/
def checkedResult (result : Except McpError ToolResult) (conforms : Bool) : ToolResult :=
  let result := match result with
    | .ok result => result
    | .error e => .error e
  if !result.isError && !conforms then
    .error ⟨"result_contract_violation", "The tool executed but returned a result outside its " ++
      "declared schema; do not replay the operation", false⟩
  else result

def MAX_RESULT_BYTES : Nat := 33554432

namespace Service

def isActive (s : Service) (tokenId : String) : Bool := !s.inactive.contains tokenId

def setCall (s : Service) (i : Nat) (c : Call) (phase : Phase) : Service :=
  { s with calls := s.calls.set i { c with phase := phase } }

/-- `reserve`. -/
def reserve (host : Host) (s : Service) (i : Nat) (c : Call) (key : ReceiptKey) : Service :=
  let fingerprint := host.hashJson c.arguments
  let outcome := admission host (s.receipts.get key) fingerprint
  let s := { s with asks := ⟨key, c.arguments, some outcome⟩ :: s.asks }
  match outcome with
  | .new => setCall { s with
      receipts := s.receipts.set key ⟨fingerprint, none⟩
      first := s.first.set key c.arguments } i c .admitted
  | .completed result => s.setCall i c (.finishing result)
  | .pending | .conflict | .invalid => s.setCall i c .ended

/-- `complete`: the row that has this fingerprint and no result. -/
def complete (host : Host) (s : Service) (i : Nat) (c : Call) (key : ReceiptKey)
    (result : ToolResult) : Service :=
  match host.print result with
  | none => s.setCall i c .ended
  | some text =>
    if text.utf8ByteSize > MAX_RESULT_BYTES then s.setCall i c .ended
    else match s.receipts.get key with
      | some receipt =>
        if receipt.fingerprint = host.hashJson c.arguments ∧ receipt.resultJson = none then
          setCall { s with receipts := s.receipts.set key { receipt with resultJson := some text } }
            i c (.finishing result)
        else s.setCall i c .ended
      | none => s.setCall i c .ended

/-- A step of the call `i`. -/
def stepCall (host : Host) (s : Service) (i : Nat) (c : Call) : Move → Option Service
  | .authorized _ ok =>
    match c.phase with
    | .authorizing =>
      some (if !ok then s.setCall i c .ended
        else s.setCall i c (if c.key.isSome then .reserving else .admitted))
    | _ => none
  | .reserve _ ok =>
    match c.phase, c.key with
    | .reserving, some key =>
      if ok then some (s.reserve host i c key)
      else some (setCall { s with asks := ⟨key, c.arguments, none⟩ :: s.asks } i c .ended)
    | _, _ => none
  | .check _ =>
    match c.phase with
    | .admitted =>
      if s.isActive c.tokenId then
        some (setCall { s with started :=
          (c.key.map fun key => (⟨key, c.arguments⟩ : Invocation)).toList ++ s.started } i c .calling)
      else some (s.setCall i c .ended)
    | .finishing result =>
      if s.isActive c.tokenId then
        some (setCall { s with answers :=
          (c.key.map fun key => (⟨key, result, s.isActive key.tokenId⟩ : Answer)).toList ++
            s.answers } i c .ended)
      else some (s.setCall i c .ended)
    | _ => none
  | .provided _ result conforms =>
    match c.phase with
    | .calling =>
      let result := checkedResult result conforms
      match c.key with
      | some key => some (setCall { s with completed := (key, result) :: s.completed } i c
          (.completing result))
      | none => some (s.setCall i c (.finishing result))
    | _ => none
  | .complete _ ok =>
    match c.phase, c.key with
    | .completing result, some key =>
      if ok then some (s.complete host i c key result) else some (s.setCall i c .ended)
    | _, _ => none
  | .drop _ => some (s.setCall i c .ended)
  | _ => none

def step (host : Host) (s : Service) (m : Move) : Option Service :=
  match m with
  | .call tokenId toolName entry arguments allowed accepted =>
    if !s.isActive tokenId || !arguments.isObject || !accepted then some s
    else match receiptKey allowed tokenId toolName entry arguments with
      | .error _ => some s
      | .ok key => some { s with calls := s.calls ++ [⟨tokenId, key, arguments, .authorizing⟩] }
  | .authorized i _ | .reserve i _ | .check i | .provided i _ _ | .complete i _ | .drop i =>
    s.calls[i]?.bind fun c => s.stepCall host i c m
  | .setActive tokenId active =>
    some { s with inactive := if active then s.inactive.filter (· ≠ tokenId)
      else tokenId :: s.inactive }
  | .crash => some { s with calls := [] }

end Service

end Gamer.Mcp.Receipts
