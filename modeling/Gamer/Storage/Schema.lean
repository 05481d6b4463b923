import Gamer.Storage.Sql

/-! The schema of the server's database and its history, as the migrations' bodies write it.

        v1 ─▶ v2  timer_tasks, task_presets; tasks copied into timer_tasks
           ─▶ v3  tasks dropped; schedules as provider and config
           ─▶ v4  devices.kind dropped
           ─▶ v5  run_records, run_events
           ─▶ v6  timer_tasks.android_package may be null; browser_targets
           ─▶ v7  timer_tasks.extensions_json
           ─▶ v8  timer_tasks.inputs_json, result_summary_json, concurrency                    -/

namespace Gamer.Storage
open Gamer.Lib Gamer.Core

/-! ### DDL -/

def devicesColumns : List Column := [
  .key "id" "TEXT", .required "name" "TEXT", .withDefault "addr" "TEXT" (.text ""),
  .withDefault "screen_mode" "TEXT" (.text "mirror"), .nullable "vd_res" "TEXT",
  .nullable "vd_dpi" "INTEGER", .nullable "pkg" "TEXT", .nullable "fps" "INTEGER",
  .required "created_at" "TEXT"]

def logsColumns : List Column := [
  .key "id" "INTEGER", .required "time" "TEXT", .required "device_id" "TEXT",
  .required "script_id" "TEXT", .required "level" "TEXT", .required "msg" "TEXT"]

def scheduledRunsColumns : List Column := [
  .key "id" "INTEGER", .required "task_id" "TEXT", .required "scheduled_at" "INTEGER",
  .withDefault "state" "TEXT" (.text "running"), .nullable "run_id" "TEXT",
  .nullable "error" "TEXT", .required "created_at" "TEXT"]

def timerTasksColumns : List Column := [
  .key "id" "TEXT", .required "name" "TEXT", .required "device_id" "TEXT",
  .required "android_package" "TEXT", .nullable "content_package" "TEXT",
  .required "runner_id" "TEXT", .required "entrypoint" "TEXT", .required "payload_json" "TEXT",
  .required "schedule_json" "TEXT", .required "state" "TEXT",
  .withDefault "enabled" "INTEGER" (.int 1), .nullable "next_wakeup" "INTEGER",
  .nullable "last_result" "TEXT", .nullable "last_run_at" "TEXT",
  .required "created_at" "TEXT", .required "updated_at" "TEXT", .nullable "preset_id" "TEXT",
  .nullable "suspend_reason" "TEXT"]

def taskPresetsColumns : List Column := [
  .key "id" "TEXT", .required "app_package" "TEXT", .required "name" "TEXT",
  .required "runner_id" "TEXT", .required "entrypoint" "TEXT", .required "payload_json" "TEXT",
  .required "schedule_json" "TEXT", .required "created_at" "TEXT"]

def runRecordsColumns : List Column := [
  .key "run_id" "TEXT", .required "device_id" "TEXT", .required "entrypoint" "TEXT",
  .required "started_at" "TEXT", .nullable "finished_at" "TEXT", .required "record" "TEXT"]

def runEventsColumns : List Column := [
  .key "id" "INTEGER", .required "run_id" "TEXT", .required "time" "TEXT",
  .required "payload" "TEXT"]

def browserTargetsColumns : List Column := [
  .key "id" "TEXT", .required "profile_id" "TEXT", .required "config" "TEXT"]

def logsTime : Index := ⟨"logs", false, ["time"]⟩

def scheduledRunsTaskTime : Index := ⟨"scheduled_runs", true, ["task_id", "scheduled_at"]⟩

def scheduledRunsCreatedAt : Index := ⟨"scheduled_runs", false, ["created_at"]⟩

def timerTasksWakeup : Index := ⟨"timer_tasks", false, ["state", "enabled", "next_wakeup"]⟩

def timerTasksApp : Index := ⟨"timer_tasks", false, ["android_package", "content_package"]⟩

def taskPresetsPackage : Index := ⟨"task_presets", false, ["app_package"]⟩

def runRecordsDevice : Index := ⟨"run_records", false, ["device_id", "started_at"]⟩

def runEventsRun : Index := ⟨"run_events", false, ["run_id", "id"]⟩

def schemaV4Ddl : List Statement := [
  .createTable "devices" devicesColumns,
  .createTable "logs" logsColumns,
  .createIndex "idx_logs_time" logsTime,
  .createTable "scheduled_runs" scheduledRunsColumns,
  .createIndex "uq_scheduled_runs_task_time" scheduledRunsTaskTime,
  .createIndex "idx_scheduled_runs_created_at" scheduledRunsCreatedAt,
  .createTable "timer_tasks" timerTasksColumns,
  .createIndex "idx_timer_tasks_wakeup" timerTasksWakeup,
  .createIndex "idx_timer_tasks_app" timerTasksApp,
  .createTable "task_presets" taskPresetsColumns,
  .createIndex "idx_task_presets_package" taskPresetsPackage]

def journalDdl : List Statement := [
  .createTable "run_records" runRecordsColumns,
  .createIndex "idx_run_records_device" runRecordsDevice,
  .createTable "run_events" runEventsColumns,
  .createIndex "idx_run_events_run" runEventsRun]

/-! ### Bodies -/

def Row.cell (row : Row) (column : String) : Cell := (row.get column).getD .null

/-- `json(…)`: the document of a text, an error if it holds none. -/
def Cell.document : Cell → Except String Json
  | .null => .ok .null
  | .int n => .ok (.num (toString n))
  | .json v => .ok v
  | .text _ => .error "malformed JSON"

/-- An SQL value as an argument of `json_object`. -/
def Cell.jsonValue : Cell → Json
  | .null => .null
  | .int n => .num (toString n)
  | .text s => .str s
  | .json v => .str v.toText

/-- The package in front of a script id's first slash. -/
def packageOf : Cell → Cell
  | .text scriptId =>
    let chars := scriptId.toList
    let package := chars.takeWhile (· ≠ '/')
    if package ≠ [] ∧ package.length < chars.length then .text (String.ofList package)
    else .text "legacy"
  | _ => .text "legacy"

def isEnabled : Cell → Bool
  | .int n => n ≠ 0
  | _ => false

/-- A legacy task as a timer task. -/
def legacyTask (row : Row) : Except String Row :=
  (row.cell "args_json").document.map fun args =>
    let package := packageOf (row.cell "script_id")
    let enabled := isEnabled (row.cell "enabled")
    let cells : List (String × Cell) := [
      ("id", row.cell "id"), ("name", row.cell "name"), ("device_id", row.cell "device_id"),
      ("android_package", package), ("content_package", package),
      ("runner_id", .text "gamer-yaml"), ("entrypoint", row.cell "script_id"),
      ("payload_json", .json (.obj [("args", args),
        ("param_signature", (row.cell "param_signature").jsonValue)])),
      ("schedule_json", .json (.obj [("kind", .str "cron"),
        ("value", .obj [("expression", (row.cell "cron").jsonValue)])])),
      ("state", .text (if enabled then "active" else "suspended")),
      ("enabled", row.cell "enabled"), ("next_wakeup", .null),
      ("last_result", row.cell "last_result"), ("last_run_at", row.cell "last_run_at"),
      ("created_at", row.cell "created_at"), ("updated_at", row.cell "created_at"),
      ("preset_id", .null),
      ("suspend_reason", if enabled then .null else .text "disabled")]
    cells.foldl (fun row cell => row.set cell.1 cell.2) ∅

def migrateV1ToV2 (c : Content) : Except String Content :=
  c.execBatch [
    .createTable "timer_tasks" timerTasksColumns,
    .createIndex "idx_timer_tasks_wakeup" timerTasksWakeup,
    .createIndex "idx_timer_tasks_app" timerTasksApp,
    .createTable "task_presets" taskPresetsColumns,
    .createIndex "idx_task_presets_package" taskPresetsPackage,
    .insertSelect "timer_tasks" "tasks" legacyTask]

/-- A schedule by kind and value as one by provider and config; one that is so already stays. -/
def rewriteSchedule (table : String) (row : Row) : Except String Row :=
  match row.cell "schedule_json" with
  | .json v =>
    match v.asObject with
    | some entries =>
      match Json.lookupKey "kind" entries with
      | some (.str kind) =>
        .ok (row.set "schedule_json" (.json (.obj [("provider_id", .str kind),
          ("config", (Json.lookupKey "value" entries).getD .null)])))
      | some _ => .error (table ++ " schedule_json.kind 必须是字符串")
      | none =>
        match Json.lookupKey "provider_id" entries with
        | some _ => .ok row
        | none => .error (table ++ " schedule_json 形态无法识别")
    | none => .error (table ++ " schedule_json 形态无法识别")
  | _ => .error (table ++ " schedule_json 无效")

def rewriteSchedules (c : Content) (table : String) : Except String Content :=
  match c.tables.get table with
  | none => .error ("no such table: " ++ table)
  | some t => (t.rows.mapM (rewriteSchedule table)).map fun rows => c.setRows table t rows

def migrateV2ToV3 (c : Content) : Except String Content :=
  match c.exec (.dropTable "tasks" true) with
  | .error e => .error e
  | .ok c =>
    match rewriteSchedules c "timer_tasks" with
    | .error e => .error e
    | .ok c => rewriteSchedules c "task_presets"

def migrateV3ToV4 (c : Content) : Except String Content := c.exec (.dropColumn "devices" "kind")

def migrateV4ToV5 (c : Content) : Except String Content := c.execBatch journalDdl

/-- The task table of v4 with `android_package` nullable. -/
def timerTasksColumnsV6 : List Column :=
  timerTasksColumns.map fun col =>
    if col.name = "android_package" then { col with notNull := false } else col

def migrateV5ToV6 (c : Content) : Except String Content :=
  c.execBatch [
    .renameTable "timer_tasks" "timer_tasks_v5",
    .dropIndex "idx_timer_tasks_wakeup", .dropIndex "idx_timer_tasks_app",
    .createTable "timer_tasks" timerTasksColumnsV6,
    .createIndex "idx_timer_tasks_wakeup" timerTasksWakeup,
    .createIndex "idx_timer_tasks_app" timerTasksApp,
    .insertSelect "timer_tasks" "timer_tasks_v5" .ok,
    .dropTable "timer_tasks_v5" false,
    .createTable "browser_targets" browserTargetsColumns]

def extensionsColumn : Column := .withDefault "extensions_json" "TEXT" (.json (.obj []))

def migrateV6ToV7 (c : Content) : Except String Content :=
  c.exec (.addColumn "timer_tasks" extensionsColumn)

def multiInputColumns : List Column := [
  .withDefault "inputs_json" "TEXT" (.json (.arr [])),
  .withDefault "result_summary_json" "TEXT" (.json (.arr [])),
  .withDefault "concurrency" "INTEGER" (.int 0)]

/-- A column that is there already is left as it is. -/
def addMissing (c : Content) : List Column → Except String Content
  | [] => .ok c
  | column :: rest =>
    let found := (c.tables.get "timer_tasks").any fun t =>
      t.columns.any fun col => col.name == column.name
    if found then addMissing c rest
    else
      match c.exec (.addColumn "timer_tasks" column) with
      | .ok c => addMissing c rest
      | .error e => .error e

def migrateV7ToV8 (c : Content) : Except String Content := addMissing c multiInputColumns

/-! ### Validation -/

def expectedTables : List String := ["browser_targets", "devices", "logs", "run_events",
  "run_records", "scheduled_runs", "task_presets", "timer_tasks"]

/-- What `PRAGMA table_info` says of a column. -/
def Column.info (col : Column) : String × String × Bool × Bool :=
  (col.name, col.type, col.notNull, col.primaryKey)

def expectedColumns : List (String × List (String × String × Bool × Bool)) := [
  ("browser_targets", [("id", "TEXT", false, true), ("profile_id", "TEXT", true, false),
    ("config", "TEXT", true, false)]),
  ("run_records", [("run_id", "TEXT", false, true), ("device_id", "TEXT", true, false),
    ("entrypoint", "TEXT", true, false), ("started_at", "TEXT", true, false),
    ("finished_at", "TEXT", false, false), ("record", "TEXT", true, false)]),
  ("run_events", [("id", "INTEGER", false, true), ("run_id", "TEXT", true, false),
    ("time", "TEXT", true, false), ("payload", "TEXT", true, false)]),
  ("devices", [("id", "TEXT", false, true), ("name", "TEXT", true, false),
    ("addr", "TEXT", true, false), ("screen_mode", "TEXT", true, false),
    ("vd_res", "TEXT", false, false), ("vd_dpi", "INTEGER", false, false),
    ("pkg", "TEXT", false, false), ("fps", "INTEGER", false, false),
    ("created_at", "TEXT", true, false)]),
  ("logs", [("id", "INTEGER", false, true), ("time", "TEXT", true, false),
    ("device_id", "TEXT", true, false), ("script_id", "TEXT", true, false),
    ("level", "TEXT", true, false), ("msg", "TEXT", true, false)]),
  ("scheduled_runs", [("id", "INTEGER", false, true), ("task_id", "TEXT", true, false),
    ("scheduled_at", "INTEGER", true, false), ("state", "TEXT", true, false),
    ("run_id", "TEXT", false, false), ("error", "TEXT", false, false),
    ("created_at", "TEXT", true, false)]),
  ("timer_tasks", [("id", "TEXT", false, true), ("name", "TEXT", true, false),
    ("device_id", "TEXT", true, false), ("android_package", "TEXT", false, false),
    ("content_package", "TEXT", false, false), ("runner_id", "TEXT", true, false),
    ("entrypoint", "TEXT", true, false), ("payload_json", "TEXT", true, false),
    ("schedule_json", "TEXT", true, false), ("state", "TEXT", true, false),
    ("enabled", "INTEGER", true, false), ("next_wakeup", "INTEGER", false, false),
    ("last_result", "TEXT", false, false), ("last_run_at", "TEXT", false, false),
    ("created_at", "TEXT", true, false), ("updated_at", "TEXT", true, false),
    ("preset_id", "TEXT", false, false), ("suspend_reason", "TEXT", false, false),
    ("extensions_json", "TEXT", true, false), ("inputs_json", "TEXT", true, false),
    ("result_summary_json", "TEXT", true, false), ("concurrency", "INTEGER", true, false)]),
  ("task_presets", [("id", "TEXT", false, true), ("app_package", "TEXT", true, false),
    ("name", "TEXT", true, false), ("runner_id", "TEXT", true, false),
    ("entrypoint", "TEXT", true, false), ("payload_json", "TEXT", true, false),
    ("schedule_json", "TEXT", true, false), ("created_at", "TEXT", true, false)])]

def expectedIndexes : List (String × Index) := [
  ("idx_run_records_device", ⟨"run_records", false, ["device_id", "started_at"]⟩),
  ("idx_run_events_run", ⟨"run_events", false, ["run_id", "id"]⟩),
  ("idx_logs_time", ⟨"logs", false, ["time"]⟩),
  ("uq_scheduled_runs_task_time", ⟨"scheduled_runs", true, ["task_id", "scheduled_at"]⟩),
  ("idx_scheduled_runs_created_at", ⟨"scheduled_runs", false, ["created_at"]⟩),
  ("idx_timer_tasks_wakeup", ⟨"timer_tasks", false, ["state", "enabled", "next_wakeup"]⟩),
  ("idx_timer_tasks_app", ⟨"timer_tasks", false, ["android_package", "content_package"]⟩),
  ("idx_task_presets_package", ⟨"task_presets", false, ["app_package"]⟩)]

def validateTable (c : Content) (table : String) (expected : List (String × String × Bool × Bool)) :
    Except String Unit :=
  if (c.tables.get table).elim [] (fun t => t.columns.map Column.info) = expected then .ok ()
  else .error ("schema v8 is incomplete: table " ++ table ++
    " has unexpected columns; back up and rebuild gamer.db")

def validateIndex (c : Content) (name : String) (expected : Index) : Except String Unit :=
  match (c.indexes.get name).filter fun i => i.table = expected.table with
  | none => .error ("schema v8 is incomplete: missing index " ++ name ++
      "; back up and rebuild gamer.db")
  | some i =>
    if i.unique ≠ expected.unique then
      .error ("schema v8 is incomplete: index " ++ name ++
        " has unexpected uniqueness; back up and rebuild gamer.db")
    else if i.columns ≠ expected.columns then
      .error ("schema v8 is incomplete: index " ++ name ++
        " has unexpected columns; back up and rebuild gamer.db")
    else .ok ()

/-- The tables' names are compared in order, that is, as sets. -/
def validateSchemaV8 (c : Content) : Except String Unit := do
  let tables := c.tables.keys.filter fun name => !"sqlite_".toList.isPrefixOf name.toList
  if !tables.isPerm expectedTables then
    throw "schema v8 is incomplete: unexpected tables; back up and rebuild gamer.db"
  expectedColumns.forM fun (table, expected) => validateTable c table expected
  expectedIndexes.forM fun (name, expected) => validateIndex c name expected

end Gamer.Storage
