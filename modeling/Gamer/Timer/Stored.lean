import Gamer.Core.Reading
import Gamer.Lib.Results
import Gamer.Timer.Finisher

/-! A task as a row of the database. Each column has its own rule, and `from_storage` reads the row
    back:

        texts            as they are
        values           JSON text            nesting and numbers are read back to a limit
        result_summary   JSON text of a list  `None` is written as the empty list
        times            RFC 3339
        next_wakeup      whole seconds
        concurrency      clamped                                                           -/

namespace Gamer.Timer
open Gamer.Core Gamer.Lib

/-- A task with all that is stored of it. Times are nanoseconds. -/
structure TaskRecord extends Task where
  resultSummary : Option (List TaskInputResult)
  lastRunAt : Option Int
  createdAt : Int
  updatedAt : Int
  presetId : Option String

structure TaskStorage where
  id : String
  name : String
  deviceId : String
  androidPackage : Option String
  contentPackage : Option String
  runnerId : String
  entrypoint : String
  extensionsJson : String
  payloadJson : String
  scheduleJson : String
  state : String
  enabled : Bool
  nextWakeup : Option Int
  lastResult : Option String
  lastRunAt : Option String
  createdAt : String
  updatedAt : String
  presetId : Option String
  suspendReason : Option String
  inputsJson : String
  resultSummaryJson : String
  concurrency : Int

/-- The texts of values and of times. -/
structure TextCodec where
  /-- A JSON text as a tree, the entries of an object as they come. -/
  readJson : String → Except String Json
  /-- `DateTime::to_rfc3339`, and the text in a JSON document. -/
  toRfc3339 : Int → String
  toSerde : Int → String
  /-- `str::parse::<DateTime<Utc>>`, and what is tried if it fails. -/
  parseUtc : String → Except String Int
  parseLocal : String → Except String Int

def TaskState.asStr : TaskState → String
  | .active => "active"
  | .suspended => "suspended"
  | .cancelled => "cancelled"
  | .dependencyMissing => "dependency_missing"

def TaskState.parse (value : String) : Except String TaskState :=
  if value = "active" then .ok .active
  else if value = "suspended" then .ok .suspended
  else if value = "cancelled" then .ok .cancelled
  else if value = "dependency_missing" then .ok .dependencyMissing
  else .error ("unknown timer task state: " ++ value)

/-- `DateTime::timestamp`. -/
def timestampOf (t : Int) : Int := t / 10 ^ 9

/-- `DateTime::from_timestamp` of whole seconds. -/
def fromTimestamp (seconds : Int) : Option Int :=
  if -8334601228800 ≤ seconds ∧ seconds ≤ 8210266876799 then some (seconds * 10 ^ 9) else none

section
variable (c : TextCodec)

/-- The tree that a struct is written as. -/
def scheduleTree (s : TaskSchedule) : Json :=
  .obj [("provider_id", .str s.providerId), ("config", s.config)]

def rowTree (r : TaskInputResult) : Json :=
  .obj [("input_id", .str r.inputId), ("label", Json.optStr r.label), ("state", .str r.state),
    ("error", Json.optStr r.error), ("finished_at", .str (c.toSerde r.finishedAt)),
    ("elapsed_secs", .num (toString r.elapsedSecs))]

def summaryTree (rows : List TaskInputResult) : Json := .arr (rows.map (rowTree c))

/-- The columns of a task. -/
def TaskRecord.row (t : TaskRecord) : TaskStorage where
  id := t.id
  name := t.name
  deviceId := t.app.deviceId.value
  androidPackage := t.app.androidPackage.map (·.value)
  contentPackage := t.app.contentPackage.map (·.value)
  runnerId := t.runnerId
  entrypoint := t.entrypoint
  extensionsJson := t.extensions.toText
  payloadJson := t.payload.toText
  scheduleJson := (scheduleTree t.schedule).toText
  state := t.state.asStr
  enabled := t.enabled
  nextWakeup := t.nextWakeup.map timestampOf
  lastResult := t.lastResult
  lastRunAt := t.lastRunAt.map c.toRfc3339
  createdAt := c.toRfc3339 t.createdAt
  updatedAt := c.toRfc3339 t.updatedAt
  presetId := t.presetId
  suspendReason := t.suspendReason
  inputsJson := (Json.arr t.inputs).toText
  resultSummaryJson := (summaryTree c (t.resultSummary.getD [])).toText
  concurrency := t.concurrency

def fromTask (t : TaskRecord) : Except String TaskStorage := do
  t.validate
  return t.row c

/-- `parse_timestamp`. -/
def parseTimestamp (value : String) : Except String Int :=
  match c.parseUtc value with
  | .ok t => .ok t
  | .error _ => c.parseLocal value

/-- `transpose` of a conversion. -/
def transpose {α β : Type} (f : α → Except String β) : Option α → Except String (Option β)
  | none => .ok none
  | some a => (f a).map some

def newIdentifier (kind value : String) : Except String (Identifier kind) :=
  (Identifier.new kind value).mapError ModelError.text

def readValue (text : String) : Except String Json := (c.readJson text).map Json.keyed

def decodeSchedule (v : Json) : Except String TaskSchedule := do
  match ← Json.structFields ["provider_id", "config"] v with
  | [providerId, some config] => return ⟨← Json.decodeStr providerId, config.keyed⟩
  | _ => .error "missing field"

def decodeTime (v : Option Json) : Except String Int := do c.parseUtc (← Json.decodeStr v)

def decodeRow (v : Json) : Except String TaskInputResult := do
  match ← Json.structFields
      ["input_id", "label", "state", "error", "finished_at", "elapsed_secs"] v with
  | [inputId, label, state, error, finishedAt, elapsedSecs] =>
    return ⟨← Json.decodeStr inputId, ← Json.decodeOptStr label, ← Json.decodeStr state,
      ← Json.decodeOptStr error, ← decodeTime c finishedAt, ← Json.decodeU64 elapsedSecs⟩
  | _ => .error "missing field"

/-- `Vec<Value>`. -/
def decodeItems : Json → Except String (List Json)
  | .arr items => .ok (Json.keyedItems items)
  | _ => .error "invalid type"

/-- `Option<Vec<TaskInputResult>>`. -/
def decodeSummary : Json → Except String (Option (List TaskInputResult))
  | .null => .ok none
  | .arr items => (items.mapM (decodeRow c)).map some
  | _ => .error "invalid type"

/-- `u32::try_from(value.max(0))`. -/
def readConcurrency (value : Int) : Nat :=
  if (max value 0).toNat < 2 ^ 32 then (max value 0).toNat else taskMaxConcurrency

def fromStorage (row : TaskStorage) : Except String TaskRecord := do
  let deviceId ← newIdentifier "device_id" row.deviceId
  let androidPackage ← transpose (newIdentifier "android_package") row.androidPackage
  let contentPackage ← transpose (newIdentifier "content_package") row.contentPackage
  let payload ← readValue c row.payloadJson
  let schedule ← (c.readJson row.scheduleJson).bind decodeSchedule
  let state ← TaskState.parse row.state
  let lastRunAt ← transpose (parseTimestamp c) row.lastRunAt
  let createdAt ← parseTimestamp c row.createdAt
  let updatedAt ← parseTimestamp c row.updatedAt
  let extensions ← readValue c row.extensionsJson
  let inputs ← (c.readJson row.inputsJson).bind decodeItems
  let resultSummary ← (c.readJson row.resultSummaryJson).bind (decodeSummary c)
  let t : TaskRecord := {
    id := row.id
    name := row.name
    app := ⟨deviceId, androidPackage, contentPackage⟩
    runnerId := row.runnerId
    entrypoint := row.entrypoint
    payload := payload
    extensions := extensions
    inputs := inputs
    concurrency := readConcurrency row.concurrency
    schedule := schedule
    state := state
    enabled := row.enabled
    nextWakeup := row.nextWakeup.bind fromTimestamp
    lastResult := row.lastResult
    suspendReason := row.suspendReason
    resultSummary := resultSummary
    lastRunAt := lastRunAt
    createdAt := createdAt
    updatedAt := updatedAt
    presetId := row.presetId }
  t.validate
  return t

end

/-! ### What comes back -/

/-- The task with its next wakeup in whole seconds. -/
def TaskRecord.wholeSeconds (t : TaskRecord) : TaskRecord :=
  { t with nextWakeup := t.nextWakeup.map fun x => timestampOf x * 10 ^ 9 }

/-- What the types of the source say of a task: objects are maps, numbers fit, times are dates. -/
structure TaskRecord.Typed (t : TaskRecord) : Prop where
  payload : t.payload.keyed = t.payload
  extensions : t.extensions.keyed = t.extensions
  inputs : Json.keyedItems t.inputs = t.inputs
  config : t.schedule.config.keyed = t.schedule.config
  concurrency : t.concurrency < 2 ^ 32
  elapsed : ∀ rows, t.resultSummary = some rows → ∀ r ∈ rows, r.elapsedSecs < 2 ^ 64
  wakeup : ∀ x, t.nextWakeup = some x →
    -8334601228800 ≤ timestampOf x ∧ timestampOf x ≤ 8210266876799

/-- The values that are written as JSON. -/
def TaskRecord.columns (t : TaskRecord) : List Json :=
  [t.payload, scheduleTree t.schedule, t.extensions, .arr t.inputs]

/-- What the texts of the task's values and times are read as: nesting is limited, numbers are read
    again, integers and times come back. -/
structure ReadsBack (c : TextCodec) (number : String → String) (t : TaskRecord) : Prop where
  json : ∀ v ∈ summaryTree c (t.resultSummary.getD []) :: t.columns,
    c.readJson v.toText =
      if v.depth ≤ 127 then .ok (v.reread number) else .error "recursion limit exceeded"
  integer : ∀ n, n < 2 ^ 64 → number (toString n) = toString n
  rfc3339 : ∀ x, x = t.createdAt ∨ x = t.updatedAt ∨ t.lastRunAt = some x →
    c.parseUtc (c.toRfc3339 x) = .ok x
  serde : ∀ rows, t.resultSummary = some rows → ∀ r ∈ rows,
    c.parseUtc (c.toSerde r.finishedAt) = .ok r.finishedAt

/-- The task has a summary, and its values are not too deep and have numbers that come back. -/
structure TaskRecord.Kept (number : String → String) (t : TaskRecord) : Prop where
  summary : t.resultSummary ≠ none
  depth : ∀ v ∈ t.columns, v.depth ≤ 127
  numbers : ∀ v ∈ [t.payload, t.schedule.config, t.extensions, .arr t.inputs],
    v.reread number = v

section
variable {c : TextCodec} {number : String → String} {t : TaskRecord}

theorem newIdentifier_value {kind : String} (id : Identifier kind) :
    newIdentifier kind id.value = .ok id := by
  rw [newIdentifier, Identifier.new_value]
  rfl

theorem transpose_map {α β : Type} {f : α → Except String β} {g : β → α} {o : Option β}
    (h : ∀ b, o = some b → f (g b) = .ok b) : transpose f (o.map g) = .ok o := by
  cases o with
  | none => rfl
  | some b =>
    rw [Option.map_some, transpose, h b rfl]
    rfl

theorem parse_asStr (state : TaskState) : TaskState.parse state.asStr = .ok state := by
  cases state <;> decide

theorem parseTimestamp_of_parse {value : String} {x : Int} (h : c.parseUtc value = .ok x) :
    parseTimestamp c value = .ok x := by
  rw [parseTimestamp, h]

theorem readConcurrency_natCast {n : Nat} (h : n < 2 ^ 32) : readConcurrency n = n := by
  have hmax : (max (n : Int) 0).toNat = n := by omega
  rw [readConcurrency, hmax, if_pos h]

/-! ### The columns -/

theorem readValue_toText (hreads : ReadsBack c number t) {v : Json} (hv : v ∈ t.columns)
    (hkeyed : v.keyed = v) : readValue c v.toText =
      if v.depth ≤ 127 then .ok (v.reread number) else .error "recursion limit exceeded" := by
  rw [readValue, hreads.json v (List.mem_cons_of_mem _ hv)]
  split
  · show Except.ok (v.reread number).keyed = _
    rw [Json.keyed_reread, hkeyed]
  · rfl

theorem readSchedule (hreads : ReadsBack c number t) (htyped : t.Typed) :
    (c.readJson (scheduleTree t.schedule).toText).bind decodeSchedule =
      if (scheduleTree t.schedule).depth ≤ 127 then
        .ok ⟨t.schedule.providerId, t.schedule.config.reread number⟩
      else .error "recursion limit exceeded" := by
  rw [hreads.json _ (by simp [TaskRecord.columns])]
  split
  · show Except.ok (TaskSchedule.mk t.schedule.providerId
      (t.schedule.config.reread number).keyed) = _
    rw [Json.keyed_reread, htyped.config]
  · rfl

theorem readInputs (hreads : ReadsBack c number t) (htyped : t.Typed) :
    (c.readJson (Json.arr t.inputs).toText).bind decodeItems =
      if (Json.arr t.inputs).depth ≤ 127 then .ok (Json.rereadItems number t.inputs)
      else .error "recursion limit exceeded" := by
  rw [hreads.json _ (by simp [TaskRecord.columns])]
  split
  · show Except.ok (Json.keyedItems (Json.rereadItems number t.inputs)) = _
    rw [Json.keyedItems_reread, htyped.inputs]
  · rfl

theorem reread_optStr (o : Option String) : (Json.optStr o).reread number = Json.optStr o := by
  cases o <;> rfl

theorem depth_optStr (o : Option String) : (Json.optStr o).depth = 0 := by
  cases o <;> rfl

theorem depth_rowTree (r : TaskInputResult) : (rowTree c r).depth = 1 := by
  simp [rowTree, Json.depth, Json.depthEntries, depth_optStr]

/-- The summary is two levels deep. -/
theorem depth_summaryTree (rows : List TaskInputResult) : (summaryTree c rows).depth ≤ 2 := by
  have hitems : Json.depthItems (rows.map (rowTree c)) ≤ 1 := by
    induction rows with
    | nil => exact Nat.zero_le _
    | cons r rows ih =>
      rw [List.map_cons, Json.depthItems, depth_rowTree]
      omega
  rw [summaryTree, Json.depth]
  omega

theorem reread_rowTree {r : TaskInputResult}
    (h : number (toString r.elapsedSecs) = toString r.elapsedSecs) :
    (rowTree c r).reread number = rowTree c r := by
  simp only [rowTree, Json.reread, Json.rereadEntries, reread_optStr, h]

theorem reread_summaryTree {rows : List TaskInputResult}
    (h : ∀ r ∈ rows, number (toString r.elapsedSecs) = toString r.elapsedSecs) :
    (summaryTree c rows).reread number = summaryTree c rows := by
  have hitems : Json.rereadItems number (rows.map (rowTree c)) = rows.map (rowTree c) := by
    induction rows with
    | nil => rfl
    | cons r rows ih =>
      obtain ⟨hr, hrows⟩ := List.forall_mem_cons.mp h
      rw [List.map_cons, Json.rereadItems, reread_rowTree hr, ih hrows]
  rw [summaryTree, Json.reread, hitems]

/-- A row of the summary is read from its tree. -/
theorem decodeRow_rowTree {r : TaskInputResult} (helapsed : r.elapsedSecs < 2 ^ 64)
    (htime : c.parseUtc (c.toSerde r.finishedAt) = .ok r.finishedAt) :
    decodeRow c (rowTree c r) = .ok r := by
  have hfields : Json.structFields
      ["input_id", "label", "state", "error", "finished_at", "elapsed_secs"] (rowTree c r) =
        .ok [some (.str r.inputId), some (Json.optStr r.label), some (.str r.state),
          some (Json.optStr r.error), some (.str (c.toSerde r.finishedAt)),
          some (.num (toString r.elapsedSecs))] := by
    simp [Json.structFields, Json.structField, rowTree]
    rfl
  have hfinished : decodeTime c (some (.str (c.toSerde r.finishedAt))) = .ok r.finishedAt := htime
  rw [decodeRow, hfields]
  show (do
    return ⟨← Json.decodeStr (some (.str r.inputId)),
      ← Json.decodeOptStr (some (Json.optStr r.label)), ← Json.decodeStr (some (.str r.state)),
      ← Json.decodeOptStr (some (Json.optStr r.error)),
      ← decodeTime c (some (.str (c.toSerde r.finishedAt))),
      ← Json.decodeU64 (some (.num (toString r.elapsedSecs)))⟩ : Except String TaskInputResult) = _
  rw [hfinished, Json.decodeU64_toString helapsed, Json.decodeOptStr_optStr,
    Json.decodeOptStr_optStr]
  rfl

theorem decodeSummary_summaryTree {rows : List TaskInputResult}
    (helapsed : ∀ r ∈ rows, r.elapsedSecs < 2 ^ 64)
    (htime : ∀ r ∈ rows, c.parseUtc (c.toSerde r.finishedAt) = .ok r.finishedAt) :
    decodeSummary c (summaryTree c rows) = .ok (some rows) := by
  have hrows : (rows.map (rowTree c)).mapM (decodeRow c) = .ok rows := by
    induction rows with
    | nil => rfl
    | cons r rows ih =>
      obtain ⟨hr, hrest⟩ := List.forall_mem_cons.mp helapsed
      obtain ⟨ht, htimes⟩ := List.forall_mem_cons.mp htime
      rw [List.map_cons, List.mapM_cons, decodeRow_rowTree hr ht, ih hrest htimes]
      rfl
  rw [summaryTree, decodeSummary, hrows]
  rfl

/-- The summary that is read back is a list, also where there was none. -/
theorem readSummary (hreads : ReadsBack c number t) (htyped : t.Typed) :
    (c.readJson (summaryTree c (t.resultSummary.getD [])).toText).bind (decodeSummary c) =
      .ok (some (t.resultSummary.getD [])) := by
  have helapsed : ∀ r ∈ t.resultSummary.getD [], r.elapsedSecs < 2 ^ 64 := by
    cases hrows : t.resultSummary with
    | none => simp
    | some rows => exact htyped.elapsed rows hrows
  have htime : ∀ r ∈ t.resultSummary.getD [],
      c.parseUtc (c.toSerde r.finishedAt) = .ok r.finishedAt := by
    cases hrows : t.resultSummary with
    | none => simp
    | some rows => exact hreads.serde rows hrows
  have hdepth := depth_summaryTree (c := c) (t.resultSummary.getD [])
  rw [hreads.json _ List.mem_cons_self, if_pos (by omega),
    reread_summaryTree fun r hr => hreads.integer _ (helapsed r hr)]
  exact decodeSummary_summaryTree helapsed htime

/-! ### The row -/

variable (number t) in
/-- What is read back of a task. -/
def TaskRecord.readBack : TaskRecord :=
  { t.wholeSeconds with
    payload := t.payload.reread number
    schedule := ⟨t.schedule.providerId, t.schedule.config.reread number⟩
    extensions := t.extensions.reread number
    inputs := Json.rereadItems number t.inputs
    resultSummary := some (t.resultSummary.getD []) }

theorem readWakeup (htyped : t.Typed) :
    (t.nextWakeup.map timestampOf).bind fromTimestamp = t.wholeSeconds.nextWakeup := by
  cases hwakeup : t.nextWakeup with
  | none => simp [TaskRecord.wholeSeconds, hwakeup]
  | some x =>
    have hrange := htyped.wakeup x hwakeup
    simp [TaskRecord.wholeSeconds, hwakeup, fromTimestamp, hrange]

theorem ite_ok_iff {α : Type} {p : Prop} [Decidable p] {e : String} {a b : α} :
    (if p then Except.ok a else .error e) = .ok b ↔ p ∧ a = b := by
  split
  · next hp => simp [hp]
  · next hp => simp [hp]

/-- STEP: what the row is read as, if no column is too deep. -/
theorem fromStorage_row (hreads : ReadsBack c number t) (htyped : t.Typed) {t' : TaskRecord} :
    fromStorage c (t.row c) = .ok t' ↔ (∀ v ∈ t.columns, v.depth ≤ 127) ∧
      (t.readBack number).validate = .ok () ∧ t.readBack number = t' := by
  have hdevice := newIdentifier_value t.app.deviceId
  have hpackage : transpose (newIdentifier "android_package")
      (t.app.androidPackage.map (·.value)) = .ok t.app.androidPackage :=
    transpose_map fun _ _ => newIdentifier_value _
  have hcontent : transpose (newIdentifier "content_package")
      (t.app.contentPackage.map (·.value)) = .ok t.app.contentPackage :=
    transpose_map fun _ _ => newIdentifier_value _
  have hlast : transpose (parseTimestamp c) (t.lastRunAt.map c.toRfc3339) = .ok t.lastRunAt :=
    transpose_map fun x hx => parseTimestamp_of_parse (hreads.rfc3339 x (.inr (.inr hx)))
  have hcreated := parseTimestamp_of_parse (hreads.rfc3339 t.createdAt (.inl rfl))
  have hupdated := parseTimestamp_of_parse (hreads.rfc3339 t.updatedAt (.inr (.inl rfl)))
  have hpayload := readValue_toText hreads (v := t.payload) (by simp [TaskRecord.columns])
    htyped.payload
  have hextensions := readValue_toText hreads (v := t.extensions) (by simp [TaskRecord.columns])
    htyped.extensions
  have hschedule := readSchedule hreads htyped
  have hinputs := readInputs hreads htyped
  have hsummary := readSummary hreads htyped
  simp only [fromStorage, bind_eq_ok, TaskRecord.row, hdevice, hpackage, hcontent, hlast, hcreated,
    hupdated, hpayload, hextensions, hschedule, hinputs, hsummary, parse_asStr,
    readWakeup htyped, readConcurrency_natCast htyped.concurrency, ite_ok_iff, Except.ok.injEq,
    exists_eq_left', and_assoc, exists_and_left]
  constructor
  · rintro ⟨hp, hs, he, hi, ⟨⟩, hvalid, hsame⟩
    refine ⟨?_, hvalid, Except.ok.inj hsame⟩
    simp [TaskRecord.columns, hp, hs, he, hi]
  · rintro ⟨hdepth, hvalid, rfl⟩
    simp only [TaskRecord.columns, List.forall_mem_cons] at hdepth
    obtain ⟨hp, hs, he, hi, -⟩ := hdepth
    exact ⟨hp, hs, he, hi, (), hvalid, rfl⟩

/-- All of the task is read back if its summary and its numbers are. -/
theorem readBack_eq_iff : t.readBack number = t.wholeSeconds ↔ t.resultSummary ≠ none ∧
    ∀ v ∈ [t.payload, t.schedule.config, t.extensions, .arr t.inputs], v.reread number = v := by
  have harr : (Json.arr t.inputs).reread number = .arr t.inputs ↔
      Json.rereadItems number t.inputs = t.inputs := by
    rw [Json.reread, Json.arr.injEq]
  simp only [List.forall_mem_cons, harr]
  constructor
  · intro h
    have hsummary : some (t.resultSummary.getD []) = t.resultSummary :=
      congrArg TaskRecord.resultSummary h
    have hpayload : t.payload.reread number = t.payload :=
      congrArg (fun r : TaskRecord => r.payload) h
    have hschedule : TaskSchedule.mk t.schedule.providerId (t.schedule.config.reread number) =
        t.schedule := congrArg (fun r : TaskRecord => r.schedule) h
    have hextensions : t.extensions.reread number = t.extensions :=
      congrArg (fun r : TaskRecord => r.extensions) h
    have hinputs : Json.rereadItems number t.inputs = t.inputs :=
      congrArg (fun r : TaskRecord => r.inputs) h
    refine ⟨?_, hpayload, congrArg TaskSchedule.config hschedule, hextensions, hinputs, by simp⟩
    rw [← hsummary]
    exact Option.some_ne_none _
  · rintro ⟨hsummary, hpayload, hconfig, hextensions, hinputs, -⟩
    obtain ⟨rows, hrows⟩ := Option.ne_none_iff_exists'.mp hsummary
    simp only [TaskRecord.readBack, TaskRecord.wholeSeconds, hpayload, hconfig, hextensions,
      hinputs, hrows, Option.getD_some]

/-- A valid task is stored as its row. -/
theorem stored_row (hvalid : t.validate = .ok ()) :
    (fromTask c t).bind (fromStorage c) = fromStorage c (t.row c) := by
  have hrow : fromTask c t = .ok (t.row c) := by
    rw [fromTask, hvalid]
    rfl
  rw [hrow, ok_bind]

/-- A task is read back as it was stored exactly where it has a summary, no value is too deep, and
    every number comes back. -/
theorem storage_round_trip_iff (hvalid : t.validate = .ok ()) (htyped : t.Typed)
    (hreads : ReadsBack c number t) :
    (fromTask c t).bind (fromStorage c) = .ok t.wholeSeconds ↔ t.Kept number := by
  rw [stored_row hvalid, fromStorage_row hreads htyped]
  constructor
  · rintro ⟨hdepth, -, hsame⟩
    obtain ⟨hsummary, hnumbers⟩ := readBack_eq_iff.mp hsame
    exact ⟨hsummary, hdepth, hnumbers⟩
  · intro h
    have hsame : t.readBack number = t.wholeSeconds := readBack_eq_iff.mpr ⟨h.summary, h.numbers⟩
    refine ⟨h.depth, ?_, hsame⟩
    rw [hsame]
    exact hvalid

end

/-! ### A task of one device -/

theorem storedDevice_accepted : ∃ raw, validateIdentifier "device_id" raw = .ok "phone" :=
  ⟨"phone", by decide⟩

/-- A task that wakes 1.5 seconds into 1970. -/
def phoneRecord (summary : Option (List TaskInputResult)) : TaskRecord where
  id := "task-1"
  name := "daily"
  app := ⟨⟨"phone", storedDevice_accepted⟩, none, none⟩
  runnerId := "script"
  entrypoint := "main"
  payload := .obj [("rounds", .num "3")]
  extensions := .obj []
  inputs := []
  concurrency := 2
  schedule := ⟨"cron", .null⟩
  state := .active
  enabled := true
  nextWakeup := some 1500000000
  lastResult := none
  suspendReason := none
  resultSummary := summary
  lastRunAt := none
  createdAt := 0
  updatedAt := 0
  presetId := none

/-- What is read of the texts of `phoneRecord`. -/
def phoneCodec : TextCodec where
  readJson text :=
    if text = "[]" then .ok (.arr [])
    else if text = "\x7b\x7d" then .ok (.obj [])
    else if text = "\x7b\"rounds\":3\x7d" then .ok (.obj [("rounds", .num "3")])
    else if text = "\x7b\"provider_id\":\"cron\",\"config\":null\x7d" then
      .ok (scheduleTree ⟨"cron", .null⟩)
    else .error "expected value"
  toRfc3339 _ := "1970-01-01T00:00:00+00:00"
  toSerde _ := "1970-01-01T00:00:00Z"
  parseUtc _ := .ok 0
  parseLocal _ := .ok 0

theorem phoneRecord_typed {summary : Option (List TaskInputResult)}
    (h : summary = none ∨ summary = some []) : (phoneRecord summary).Typed where
  payload := rfl
  extensions := rfl
  inputs := rfl
  config := rfl
  concurrency := by
    show 2 < 2 ^ 32
    decide
  elapsed rows hrows r hr := by
    have hrows' : summary = some rows := hrows
    rcases h with h | h
    · cases h.symm.trans hrows'
    · cases h.symm.trans hrows'
      cases hr
  wakeup x hx := by
    cases hx
    decide

/-- The texts of `phoneRecord`, and what they are read as. -/
theorem phoneCodec_reads {v : Json} (h : v = .arr [] ∨ v = .obj [] ∨
    v = .obj [("rounds", .num "3")] ∨ v = scheduleTree ⟨"cron", .null⟩) :
    phoneCodec.readJson v.toText = .ok v := by
  have hrounds : (Json.obj [("rounds", .num "3")]).toText = "\x7b\"rounds\":3\x7d" := by
    decide +kernel
  have hschedule : (scheduleTree ⟨"cron", .null⟩).toText =
      "\x7b\"provider_id\":\"cron\",\"config\":null\x7d" := by
    decide +kernel
  rcases h with rfl | rfl | rfl | rfl
  · rfl
  · rfl
  · rw [hrounds]
    simp [phoneCodec]
  · rw [hschedule]
    simp [phoneCodec]

theorem phoneRecord_readsBack {summary : Option (List TaskInputResult)}
    (h : summary = none ∨ summary = some []) :
    ReadsBack phoneCodec id (phoneRecord summary) where
  json := by
    have hsummary : (phoneRecord summary).resultSummary.getD [] = [] := by
      rcases h with rfl | rfl <;> rfl
    rw [hsummary]
    have hread : ∀ v, v = .arr [] ∨ v = .obj [] ∨ v = .obj [("rounds", .num "3")] ∨
        v = scheduleTree ⟨"cron", .null⟩ → phoneCodec.readJson v.toText =
          if v.depth ≤ 127 then .ok (v.reread id) else .error "recursion limit exceeded" := by
      intro v hv
      rw [phoneCodec_reads hv]
      rcases hv with rfl | rfl | rfl | rfl <;> rfl
    intro v hv
    simp only [TaskRecord.columns, List.mem_cons, List.not_mem_nil, or_false] at hv
    rcases hv with rfl | rfl | rfl | rfl | rfl
    · exact hread _ (.inl rfl)
    · exact hread _ (.inr (.inr (.inl rfl)))
    · exact hread _ (.inr (.inr (.inr rfl)))
    · exact hread _ (.inr (.inl rfl))
    · exact hread _ (.inl rfl)
  integer _ _ := rfl
  rfc3339 x hx := by
    rcases hx with rfl | rfl | hx
    · rfl
    · rfl
    · cases hx
  serde rows hrows r hr := by
    have hrows' : summary = some rows := hrows
    rcases h with h | h
    · cases h.symm.trans hrows'
    · cases h.symm.trans hrows'
      cases hr

/-- A task whose summary is the empty list comes back, its wakeup at the first second. -/
theorem storage_round_trip_iff_phone :
    (fromTask phoneCodec (phoneRecord (some []))).bind (fromStorage phoneCodec) =
      .ok (phoneRecord (some [])).wholeSeconds := by
  have hkept : (phoneRecord (some [])).Kept id :=
    ⟨Option.some_ne_none _, by decide, by
      simp only [List.forall_mem_cons]
      exact ⟨rfl, rfl, rfl, rfl, fun _ h => nomatch h⟩⟩
  exact (storage_round_trip_iff rfl (phoneRecord_typed (.inr rfl))
    (phoneRecord_readsBack (.inr rfl))).mpr hkept

/-- A task without a summary comes back with an empty one. -/
theorem missing_summary_read_as_empty :
    ¬ ∀ (c : TextCodec) (number : String → String) (t : TaskRecord), t.validate = .ok () →
      t.Typed → ReadsBack c number t →
      (fromTask c t).bind (fromStorage c) = .ok t.wholeSeconds := by
  intro hall
  have hvalid : (phoneRecord none).validate = .ok () := rfl
  have hback := hall phoneCodec id (phoneRecord none) hvalid (phoneRecord_typed (.inl rfl))
    (phoneRecord_readsBack (.inl rfl))
  rw [stored_row hvalid] at hback
  obtain ⟨-, -, hsame⟩ := (fromStorage_row (phoneRecord_readsBack (.inl rfl))
    (phoneRecord_typed (.inl rfl))).mp hback
  exact (readBack_eq_iff.mp hsame).1 rfl

end Gamer.Timer
