import Mathlib.Tactic.SplitIfs
import Gamer.Lib.Levels
import Gamer.Storage.Schema

/-! A well-formed database of each version, and that each migration's body makes one of the next
    version out of it. A version's schema is the one before with the body's change:

        tablesAt (v+1) = alter v (tablesAt v)        indexesAt (v+1) = reindex v (indexesAt v)   -/

namespace Gamer.Storage
open Gamer.Lib Gamer.Core

abbrev Tables := String → Option (List Column)
abbrev Indexes := String → Option Index

/-- One name more, or one name changed. -/
def put {α : Type} (f : String → Option α) (name : String) (a : α) : String → Option α :=
  fun n => if n = name then some a else f n

def drop {α : Type} (f : String → Option α) (name : String) : String → Option α :=
  fun n => if n = name then none else f n

@[simp] theorem put_self {α : Type} (f : String → Option α) (name : String) (a : α) :
    put f name a name = some a := by
  simp [put]

theorem put_ne {α : Type} {name n : String} (h : n ≠ name) (f : String → Option α) (a : α) :
    put f name a n = f n := by
  simp [put, h]

/-! ### Schemas -/

def devicesColumnsV1 : List Column := [
  .key "id" "TEXT", .required "name" "TEXT", .required "kind" "TEXT",
  .withDefault "addr" "TEXT" (.text ""), .withDefault "screen_mode" "TEXT" (.text "mirror"),
  .nullable "vd_res" "TEXT", .nullable "vd_dpi" "INTEGER", .nullable "pkg" "TEXT",
  .nullable "fps" "INTEGER", .required "created_at" "TEXT"]

def tasksColumns : List Column := [
  .key "id" "TEXT", .required "name" "TEXT", .required "cron" "TEXT",
  .required "script_id" "TEXT", .required "device_id" "TEXT",
  .withDefault "enabled" "INTEGER" (.int 1), .nullable "last_result" "TEXT",
  .nullable "last_run_at" "TEXT", .required "created_at" "TEXT", .required "args_json" "TEXT",
  .required "param_signature" "TEXT"]

/-- The tables of version `v + 1` from those of version `v`. -/
def alter : Nat → Tables → Tables
  | 0, _ => put (put (put (put (fun _ => none) "devices" devicesColumnsV1) "tasks" tasksColumns)
      "logs" logsColumns) "scheduled_runs" scheduledRunsColumns
  | 1, f => put (put f "timer_tasks" timerTasksColumns) "task_presets" taskPresetsColumns
  | 2, f => drop f "tasks"
  | 3, f => put f "devices" devicesColumns
  | 4, f => put (put f "run_records" runRecordsColumns) "run_events" runEventsColumns
  | 5, f => put (put f "timer_tasks" timerTasksColumnsV6) "browser_targets" browserTargetsColumns
  | 6, f => put f "timer_tasks" (timerTasksColumnsV6 ++ [extensionsColumn])
  | 7, f => put f "timer_tasks" (timerTasksColumnsV6 ++ [extensionsColumn] ++ multiInputColumns)
  | _, f => f

def reindex : Nat → Indexes → Indexes
  | 0, _ => put (put (put (fun _ => none) "idx_logs_time" logsTime)
      "uq_scheduled_runs_task_time" scheduledRunsTaskTime)
      "idx_scheduled_runs_created_at" scheduledRunsCreatedAt
  | 1, f => put (put (put f "idx_timer_tasks_wakeup" timerTasksWakeup)
      "idx_timer_tasks_app" timerTasksApp) "idx_task_presets_package" taskPresetsPackage
  | 4, f => put (put f "idx_run_records_device" runRecordsDevice) "idx_run_events_run" runEventsRun
  | _, f => f

def tablesAt : Nat → Tables
  | 0 => fun _ => none
  | v + 1 => alter v (tablesAt v)

def indexesAt : Nat → Indexes
  | 0 => fun _ => none
  | v + 1 => reindex v (indexesAt v)

/-- The schedule is one by kind and value, or already one by provider. -/
def Readable (row : Row) : Prop :=
  ∃ entries, row.cell "schedule_json" = .json (.obj entries) ∧
    ((∃ kind, Json.lookupKey "kind" entries = some (.str kind)) ∨
      (Json.lookupKey "kind" entries = none ∧
        (Json.lookupKey "provider_id" entries).isSome = true))

/-- The tables have these columns. -/
def HasColumns (tables : Table String SqlTable) (f : Tables) : Prop :=
  ∀ name, (tables.get name).map (fun t => t.columns) = f name

def HasIndexes (indexes : Table String Index) (f : Indexes) : Prop :=
  ∀ name, indexes.get name = f name

/-- What a version's rows hold, as far as a migration reads it. -/
def RowsFit (v : Nat) (c : Content) : Prop :=
  match v with
  | 1 => ∀ t, c.tables.get "tasks" = some t → ∀ row ∈ t.rows, ∀ s, row.cell "args_json" ≠ .text s
  | 2 => ∀ name ∈ ["timer_tasks", "task_presets"], ∀ t, c.tables.get name = some t →
      ∀ row ∈ t.rows, Readable row
  | _ => True

/-- A well-formed database of version `v`. -/
structure WellFormed (v : Nat) (c : Content) : Prop where
  tables : HasColumns c.tables (tablesAt v)
  indexes : HasIndexes c.indexes (indexesAt v)
  rows : RowsFit v c

/-- The body of the migration from version `v`. -/
def body : Nat → Content → Except String Content
  | 1 => migrateV1ToV2
  | 2 => migrateV2ToV3
  | 3 => migrateV3ToV4
  | 4 => migrateV4ToV5
  | 5 => migrateV5ToV6
  | 6 => migrateV6ToV7
  | 7 => migrateV7ToV8
  | v => fun _ => .error ("no migration from version " ++ toString v)

/-! ### Changing the schema -/

section Changes
variable {tables : Table String SqlTable} {f g : Tables} {indexes : Table String Index}
  {i j : Indexes}

theorem HasColumns.set (h : HasColumns tables f) (name : String) (t : SqlTable) :
    HasColumns (tables.set name t) (put f name t.columns) := by
  intro n
  rw [Table.get_set, put]
  split
  · rfl
  · exact h n

theorem HasColumns.del (h : HasColumns tables f) (name : String) :
    HasColumns (tables.del name) (drop f name) := by
  intro n
  rw [Table.get_del, drop]
  split
  · rfl
  · exact h n

theorem HasColumns.congr (h : HasColumns tables f) (hfg : ∀ n, f n = g n) : HasColumns tables g :=
  fun n => (h n).trans (hfg n)

theorem HasIndexes.set (h : HasIndexes indexes i) (name : String) (x : Index) :
    HasIndexes (indexes.set name x) (put i name x) := by
  intro n
  rw [Table.get_set, put]
  split
  · rfl
  · exact h n

theorem HasIndexes.del (h : HasIndexes indexes i) (name : String) :
    HasIndexes (indexes.del name) (drop i name) := by
  intro n
  rw [Table.get_del, drop]
  split
  · rfl
  · exact h n

theorem HasIndexes.congr (h : HasIndexes indexes i) (hij : ∀ n, i n = j n) :
    HasIndexes indexes j :=
  fun n => (h n).trans (hij n)

theorem HasIndexes.map (h : HasIndexes indexes i) (f : Index → Index) :
    HasIndexes (indexes.map f) fun n => (i n).map f := by
  intro n
  rw [Table.get_map, h n]

/-- FRAME: no index is on the table that is dropped. -/
theorem HasIndexes.filter (h : HasIndexes indexes i) {table : String}
    (hother : ∀ n x, i n = some x → x.table ≠ table) :
    HasIndexes (indexes.filter fun _ x => x.table ≠ table) i := by
  intro n
  cases hn : i n with
  | none =>
    have hnone : indexes.get n = none := (h n).trans hn
    cases hf : (indexes.filter fun _ x => decide (x.table ≠ table)).get n with
    | none => rfl
    | some x =>
      have hx := (Table.get_filter_eq_some.mp hf).1
      rw [hnone] at hx
      cases hx
  | some x =>
    exact Table.get_filter_eq_some.mpr ⟨(h n).trans hn, by simpa using hother n x hn⟩

end Changes

/-! ### Reading a well-formed database -/

variable {v : Nat} {c : Content}

theorem WellFormed.no_table (h : WellFormed v c) {name : String} (hn : tablesAt v name = none) :
    c.tables.get name = none := by
  have hcols := h.tables name
  rw [hn] at hcols
  exact Option.map_eq_none_iff.mp hcols

theorem WellFormed.table (h : WellFormed v c) (name : String) (columns : List Column)
    (hn : tablesAt v name = some columns) :
    ∃ rows, c.tables.get name = some ⟨columns, rows⟩ := by
  have hcols := h.tables name
  rw [hn] at hcols
  obtain ⟨t, ht, rfl⟩ := Option.map_eq_some_iff.mp hcols
  exact ⟨t.rows, ht⟩

theorem mapM_ok (f : Row → Except String Row) : ∀ rows : List Row,
    (∀ row ∈ rows, ∃ row', f row = .ok row') →
    ∃ rows', rows.mapM f = .ok rows' ∧ ∀ row' ∈ rows', ∃ row ∈ rows, f row = .ok row'
  | [], _ => ⟨[], rfl, by simp⟩
  | row :: rows, h => by
    obtain ⟨row', hrow⟩ := h row List.mem_cons_self
    obtain ⟨rows', hrows, hfrom⟩ := mapM_ok f rows fun r hr => h r (List.mem_cons_of_mem _ hr)
    refine ⟨row' :: rows', by rw [List.mapM_cons, hrow, hrows]; rfl, ?_⟩
    intro r hr
    rcases List.mem_cons.mp hr with rfl | hr
    · exact ⟨row, List.mem_cons_self, hrow⟩
    · obtain ⟨r₀, hr₀, hf⟩ := hfrom r hr
      exact ⟨r₀, List.mem_cons_of_mem _ hr₀, hf⟩

/-! ### One lemma for each body -/

/-- A legacy task's schedule is readable. -/
theorem legacyTask_ok {row : Row} (h : ∀ s, row.cell "args_json" ≠ .text s) :
    ∃ row', legacyTask row = .ok row' ∧ Readable row' := by
  have hargs : ∃ args, (row.cell "args_json").document = .ok args := by
    cases hc : row.cell "args_json" with
    | null => exact ⟨_, rfl⟩
    | int n => exact ⟨_, rfl⟩
    | text s => exact absurd hc (h s)
    | json v => exact ⟨_, rfl⟩
  obtain ⟨args, hargs⟩ := hargs
  let schedule : List (String × Json) :=
    [("kind", .str "cron"), ("value", .obj [("expression", (row.cell "cron").jsonValue)])]
  refine ⟨_, by rw [legacyTask, hargs]; rfl, schedule, ?_, Or.inl ⟨"cron", rfl⟩⟩
  simp [Row.cell, Table.get_set, schedule]

theorem migrateV1ToV2_ok (h : WellFormed 1 c) :
    ∃ c', migrateV1ToV2 c = .ok c' ∧ WellFormed 2 c' := by
  have htimer : c.tables.get "timer_tasks" = none := h.no_table (by decide)
  have hpresets : c.tables.get "task_presets" = none := h.no_table (by decide)
  obtain ⟨rows, htasks⟩ := h.table "tasks" tasksColumns rfl
  have hwakeup : c.indexes.get "idx_timer_tasks_wakeup" = none := h.indexes _
  have happ : c.indexes.get "idx_timer_tasks_app" = none := h.indexes _
  have hpackage : c.indexes.get "idx_task_presets_package" = none := h.indexes _
  obtain ⟨rows', hrows', hfrom⟩ := mapM_ok legacyTask rows fun row hrow => by
    obtain ⟨row', hrow', _⟩ := legacyTask_ok (h.rows _ htasks row hrow)
    exact ⟨row', hrow'⟩
  let tables := ((c.tables.set "timer_tasks" ⟨timerTasksColumns, []⟩).set "task_presets"
    ⟨taskPresetsColumns, []⟩).set "timer_tasks" ⟨timerTasksColumns, rows'⟩
  let indexes := ((c.indexes.set "idx_timer_tasks_wakeup" timerTasksWakeup).set
    "idx_timer_tasks_app" timerTasksApp).set "idx_task_presets_package" taskPresetsPackage
  refine ⟨⟨tables, indexes⟩, ?_, fun name => ?_, fun name => ?_, ?_⟩
  · simp [migrateV1ToV2, Content.execBatch, Content.exec, Table.get_set, htimer, hpresets, htasks,
      hwakeup, happ, hpackage, timerTasksWakeup, timerTasksApp, taskPresetsPackage, hrows',
      Content.setRows, Except.map, tables, indexes]
  · refine (((h.tables.set _ _).set _ _).set _ _).congr (fun n => ?_) name
    simp only [put, tablesAt, alter]
    split_ifs <;> first | rfl | simp_all
  · exact (((h.indexes.set _ _).set _ _).set _ _) name
  · intro name hname t ht row hrow
    simp only [List.mem_cons, List.not_mem_nil, or_false] at hname
    rcases hname with rfl | rfl
    · simp only [tables, Table.get_set_self, Option.some.injEq] at ht
      subst ht
      obtain ⟨row₀, hrow₀, hcopy⟩ := hfrom row hrow
      obtain ⟨row', hrow', hreadable⟩ := legacyTask_ok (h.rows _ htasks row₀ hrow₀)
      cases hcopy.symm.trans hrow'
      exact hreadable
    · simp [tables, Table.get_set] at ht
      subst ht
      simp at hrow

theorem rewriteSchedule_ok (table : String) {row : Row} (h : Readable row) :
    ∃ row', rewriteSchedule table row = .ok row' := by
  obtain ⟨entries, hcell, ⟨kind, hkind⟩ | ⟨hkind, hprovider⟩⟩ := h
  · exact ⟨_, by simp only [rewriteSchedule, hcell, Json.asObject, hkind]; rfl⟩
  · obtain ⟨p, hp⟩ := Option.isSome_iff_exists.mp hprovider
    exact ⟨row, by simp only [rewriteSchedule, hcell, Json.asObject, hkind, hp]⟩

theorem migrateV2ToV3_ok (h : WellFormed 2 c) :
    ∃ c', migrateV2ToV3 c = .ok c' ∧ WellFormed 3 c' := by
  obtain ⟨legacy, htasks⟩ := h.table "tasks" tasksColumns rfl
  obtain ⟨rows, htimer⟩ := h.table "timer_tasks" timerTasksColumns rfl
  obtain ⟨presets, hpresets⟩ :=
    h.table "task_presets" taskPresetsColumns rfl
  obtain ⟨rows', hrows', _⟩ := mapM_ok (rewriteSchedule "timer_tasks") rows
    fun row hrow => rewriteSchedule_ok _ (h.rows "timer_tasks" (by simp) _ htimer row hrow)
  obtain ⟨presets', hpresets', _⟩ := mapM_ok (rewriteSchedule "task_presets") presets
    fun row hrow => rewriteSchedule_ok _ (h.rows "task_presets" (by simp) _ hpresets row hrow)
  let tables := ((c.tables.del "tasks").set "timer_tasks" ⟨timerTasksColumns, rows'⟩).set
    "task_presets" ⟨taskPresetsColumns, presets'⟩
  let indexes := c.indexes.filter fun _ i => i.table ≠ "tasks"
  refine ⟨⟨tables, indexes⟩, ?_, fun name => ?_, fun name => ?_, trivial⟩
  · simp [migrateV2ToV3, Content.exec, htasks, Content.dropTable, rewriteSchedules, Table.get_del,
      Table.get_set, htimer, hpresets, hrows', hpresets', Except.map, Content.setRows, tables,
      indexes]
  · refine (((h.tables.del _).set _ _).set _ _).congr (fun n => ?_) name
    simp only [put, drop, tablesAt, alter]
    split_ifs with hpresets htimer htasks <;> first | rfl | simp_all
  · refine (h.indexes.filter fun n x hn => ?_) name
    simp only [indexesAt, reindex, put] at hn
    split_ifs at hn <;> cases hn <;> decide

theorem migrateV3ToV4_ok (h : WellFormed 3 c) :
    ∃ c', migrateV3ToV4 c = .ok c' ∧ WellFormed 4 c' := by
  obtain ⟨rows, hdevices⟩ := h.table "devices" devicesColumnsV1 rfl
  have hexec : migrateV3ToV4 c =
      .ok (c.dropColumn "devices" ⟨devicesColumnsV1, rows⟩ "kind") := by
    simp [migrateV3ToV4, Content.exec, hdevices, devicesColumnsV1, Column.key, Column.required]
  exact ⟨_, hexec, h.tables.set _ _, h.indexes, trivial⟩

theorem migrateV4ToV5_ok (h : WellFormed 4 c) :
    ∃ c', migrateV4ToV5 c = .ok c' ∧ WellFormed 5 c' := by
  have hrecords : c.tables.get "run_records" = none := h.no_table (by decide)
  have hevents : c.tables.get "run_events" = none := h.no_table (by decide)
  have hdevice : c.indexes.get "idx_run_records_device" = none := h.indexes _
  have hrun : c.indexes.get "idx_run_events_run" = none := h.indexes _
  let tables := (c.tables.set "run_records" ⟨runRecordsColumns, []⟩).set "run_events"
    ⟨runEventsColumns, []⟩
  let indexes := (c.indexes.set "idx_run_records_device" runRecordsDevice).set
    "idx_run_events_run" runEventsRun
  refine ⟨⟨tables, indexes⟩, ?_, (h.tables.set _ _).set _ _, (h.indexes.set _ _).set _ _, trivial⟩
  simp [migrateV4ToV5, journalDdl, Content.execBatch, Content.exec, Table.get_set, hrecords,
    hevents, hdevice, hrun, runRecordsDevice, runEventsRun, tables, indexes]

theorem mapM_pure (rows : List Row) : rows.mapM (Except.ok (ε := String)) = .ok rows := by
  induction rows with
  | nil => rfl
  | cons row rows ih => rw [List.mapM_cons, ih]; rfl

theorem migrateV5ToV6_ok (h : WellFormed 5 c) :
    ∃ c', migrateV5ToV6 c = .ok c' ∧ WellFormed 6 c' := by
  obtain ⟨rows, htimer⟩ := h.table "timer_tasks" timerTasksColumns rfl
  have hold : c.tables.get "timer_tasks_v5" = none := h.no_table (by decide)
  have hbrowser : c.tables.get "browser_targets" = none := h.no_table (by decide)
  have hwakeup : c.indexes.get "idx_timer_tasks_wakeup" = some timerTasksWakeup := h.indexes _
  have happ : c.indexes.get "idx_timer_tasks_app" = some timerTasksApp := h.indexes _
  let moved := ((((c.tables.del "timer_tasks").set "timer_tasks_v5" ⟨timerTasksColumns, rows⟩).set
    "timer_tasks" ⟨timerTasksColumnsV6, []⟩).set "timer_tasks" ⟨timerTasksColumnsV6, rows⟩)
  let tables := (moved.del "timer_tasks_v5").set "browser_targets" ⟨browserTargetsColumns, []⟩
  let renamed := c.indexes.map fun i =>
    if i.table = "timer_tasks" then { i with table := "timer_tasks_v5" } else i
  let recreated := (((renamed.del "idx_timer_tasks_wakeup").del "idx_timer_tasks_app").set
    "idx_timer_tasks_wakeup" timerTasksWakeup).set "idx_timer_tasks_app" timerTasksApp
  let indexes := recreated.filter fun _ i => i.table ≠ "timer_tasks_v5"
  refine ⟨⟨tables, indexes⟩, ?_, ?_, ?_, trivial⟩
  · simp [migrateV5ToV6, Content.execBatch, Content.exec, Table.get_set, Table.get_del,
      Table.get_map, htimer, hold, hbrowser, hwakeup, happ, Content.renameTable, Content.dropTable,
      Content.setRows, mapM_pure, Except.map, timerTasksWakeup, timerTasksApp, tables, moved,
      renamed, recreated, indexes]
  · refine ((((((h.tables.del _).set _ _).set _ _).set _ _).del _).set _ _).congr fun n => ?_
    by_cases hn : n = "timer_tasks_v5"
    · subst hn
      simp [put, drop, tablesAt, alter]
    · have hlast : tablesAt 6 = alter 5 (tablesAt 5) := rfl
      simp only [put, drop, hlast, alter]
      split_ifs <;> rfl
  · have hother : ∀ n x, n ≠ "idx_timer_tasks_wakeup" → n ≠ "idx_timer_tasks_app" →
        indexesAt 5 n = some x → x.table ≠ "timer_tasks" := by
      intro n x hwake happ hx
      simp only [indexesAt, reindex, put, hwake, happ, if_false] at hx
      split_ifs at hx <;> cases hx <;> decide
    have hrecreated : HasIndexes recreated (indexesAt 5) := by
      refine (((((h.indexes.map _).del _).del _).set _ _).set _ _).congr fun n => ?_
      simp only [put, drop]
      split_ifs with happ' hwake'
      · rw [happ']; rfl
      · rw [hwake']; rfl
      · cases hi : indexesAt 5 n with
        | none => rfl
        | some x => simp [hother n x hwake' happ' hi]
    refine hrecreated.filter fun n x hn => ?_
    simp only [indexesAt, reindex, put] at hn
    split_ifs at hn <;> cases hn <;> decide

theorem migrateV6ToV7_ok (h : WellFormed 6 c) :
    ∃ c', migrateV6ToV7 c = .ok c' ∧ WellFormed 7 c' := by
  obtain ⟨rows, htimer⟩ := h.table "timer_tasks" timerTasksColumnsV6 rfl
  have hexec : migrateV6ToV7 c =
      .ok (c.addColumn "timer_tasks" ⟨timerTasksColumnsV6, rows⟩ extensionsColumn) := by
    simp [migrateV6ToV7, Content.exec, htimer, extensionsColumn, Column.withDefault,
      timerTasksColumnsV6, timerTasksColumns, Column.key, Column.required, Column.nullable]
  exact ⟨_, hexec, h.tables.set _ _, h.indexes, trivial⟩

/-- Columns none of which is there yet are all added, in order. -/
theorem addMissing_ok : ∀ (rest : List Column) {c : Content} {t : SqlTable} {f : Tables},
    HasColumns c.tables f → c.tables.get "timer_tasks" = some t →
    ((t.columns ++ rest).map Column.name).Nodup →
    ∃ c', addMissing c rest = .ok c' ∧ c'.indexes = c.indexes ∧
      HasColumns c'.tables (put f "timer_tasks" (t.columns ++ rest)) := by
  intro rest
  induction rest with
  | nil =>
    intro c t f hf ht _
    refine ⟨c, rfl, rfl, hf.congr fun n => ?_⟩
    by_cases hn : n = "timer_tasks"
    · subst hn
      rw [put_self, ← hf, ht, List.append_nil]
      rfl
    · rw [put_ne hn]
  | cons column rest ih =>
    intro c t f hf ht hnodup
    have hnew : (t.columns.any fun col => col.name == column.name) = false := by
      rw [List.map_append, List.map_cons] at hnodup
      have hdisjoint := (List.nodup_append.mp hnodup).2.2
      simp only [List.any_eq_false, beq_iff_eq]
      intro col hcol heq
      exact hdisjoint _ (List.mem_map_of_mem hcol) column.name List.mem_cons_self heq
    have hstep : addMissing c (column :: rest) =
        addMissing (c.addColumn "timer_tasks" t column) rest := by
      simp [addMissing, Content.exec, ht, hnew]
    obtain ⟨c', hc', hindexes, hcolumns⟩ := ih
      (c := c.addColumn "timer_tasks" t column) (hf.set _ _) (Table.get_set_self _ _ _)
      (by simpa using hnodup)
    refine ⟨c', hstep.trans hc', hindexes, hcolumns.congr fun n => ?_⟩
    by_cases hn : n = "timer_tasks"
    · subst hn; simp
    · simp [put_ne hn]

theorem columnsV8_nodup : ((timerTasksColumnsV6 ++ [extensionsColumn] ++ multiInputColumns).map
    Column.name).Nodup := by
  decide

theorem migrateV7ToV8_ok (h : WellFormed 7 c) :
    ∃ c', migrateV7ToV8 c = .ok c' ∧ WellFormed 8 c' := by
  obtain ⟨rows, htimer⟩ :=
    h.table "timer_tasks" (timerTasksColumnsV6 ++ [extensionsColumn]) rfl
  obtain ⟨c', hc', hindexes, hcolumns⟩ := addMissing_ok multiInputColumns h.tables htimer
    columnsV8_nodup
  exact ⟨c', hc', hcolumns, hindexes ▸ h.indexes, trivial⟩

/-- STEP: a migration's body makes a well-formed database of the next version. -/
theorem body_ok {v : Nat} {c : Content} (hpos : 1 ≤ v) (hv : v < 8) (h : WellFormed v c) :
    ∃ c', body v c = .ok c' ∧ WellFormed (v + 1) c' := by
  obtain rfl | rfl | rfl | rfl | rfl | rfl | rfl : v = 1 ∨ v = 2 ∨ v = 3 ∨ v = 4 ∨ v = 5 ∨ v = 6 ∨
      v = 7 := by omega
  · exact migrateV1ToV2_ok h
  · exact migrateV2ToV3_ok h
  · exact migrateV3ToV4_ok h
  · exact migrateV4ToV5_ok h
  · exact migrateV5ToV6_ok h
  · exact migrateV6ToV7_ok h
  · exact migrateV7ToV8_ok h

/-- What version 8 makes of a database of version `v`: every later level's effect, once. -/
def upgrade (v : Nat) (c : Content) : Except String Content := climb body (8 - v) v c

theorem upgrade_ok (hpos : 1 ≤ v) (hv : v ≤ 8) (h : WellFormed v c) :
    ∃ c', upgrade v c = .ok c' ∧ WellFormed 8 c' := by
  have hstep : ∀ u a, u < 8 → (1 ≤ u ∧ WellFormed u a) →
      ∃ b, body u a = .ok b ∧ (1 ≤ u + 1 ∧ WellFormed (u + 1) b) := by
    rintro u a hu ⟨hpos, ha⟩
    obtain ⟨b, hb, hW⟩ := body_ok hpos hu ha
    exact ⟨b, hb, by omega, hW⟩
  obtain ⟨c', hc', _, hW⟩ := climb_ok (W := fun u a => 1 ≤ u ∧ WellFormed u a) hstep
    (n := 8 - v) (by omega) ⟨hpos, h⟩
  refine ⟨c', hc', ?_⟩
  rwa [Nat.add_sub_cancel' hv] at hW

theorem upgrade_of_body (hv : v < 8) {c' : Content} (h : body v c = .ok c') :
    upgrade v c = upgrade (v + 1) c' := by
  have hsteps : 8 - v = 8 - (v + 1) + 1 := by omega
  rw [upgrade, upgrade, hsteps, climb_of_ok h]

/-! ### Validation -/

theorem validateTable_ok {name : String} {expected : List (String × String × Bool × Bool)}
    {columns : List Column} (h : WellFormed 8 c) (hcols : tablesAt 8 name = some columns)
    (hinfo : columns.map Column.info = expected) : validateTable c name expected = .ok () := by
  obtain ⟨rows, ht⟩ := h.table name columns hcols
  simp [validateTable, ht, hinfo]

theorem validateIndex_ok {name : String} {expected : Index} (h : WellFormed 8 c)
    (hindex : indexesAt 8 name = some expected) : validateIndex c name expected = .ok () := by
  have hget : c.indexes.get name = some expected := (h.indexes name).trans hindex
  have hkeep : (some expected).filter (fun i => decide (i.table = expected.table)) =
      some expected := by
    simp [Option.filter]
  simp only [validateIndex, hget, hkeep]
  simp

theorem forM_ok {α : Type} {f : α → Except String Unit} : ∀ {l : List α},
    (∀ a ∈ l, f a = .ok ()) → l.forM f = .ok () := by
  intro l
  induction l with
  | nil => exact fun _ => rfl
  | cons a l ih =>
    intro h
    show (f a >>= fun _ => l.forM f) = .ok ()
    rw [h a List.mem_cons_self]
    exact ih fun b hb => h b (List.mem_cons_of_mem _ hb)

theorem tableNames_perm (h : WellFormed 8 c) :
    (c.tables.keys.filter fun name => !"sqlite_".toList.isPrefixOf name.toList).Perm
      expectedTables := by
  have hmem : ∀ name, name ∈ c.tables.keys ↔ tablesAt 8 name ≠ none := by
    intro name
    rw [← h.tables name, ne_eq, Option.map_eq_none_iff]
    show name ∈ c.tables ↔ ¬ c.tables.lookup name = none
    rw [← ne_eq, ← Option.isSome_iff_ne_none, AList.lookup_isSome]
  refine (List.perm_ext_iff_of_nodup (c.tables.keys_nodup.filter _) (by decide)).mpr ?_
  intro name
  rw [List.mem_filter, hmem]
  constructor
  · rintro ⟨hne, _⟩
    by_contra hnot
    simp only [expectedTables, List.mem_cons, List.not_mem_nil, or_false, not_or] at hnot
    exact hne (by simp [tablesAt, alter, put, drop, hnot])
  · intro hname
    simp only [expectedTables, List.mem_cons, List.not_mem_nil, or_false] at hname
    rcases hname with rfl | rfl | rfl | rfl | rfl | rfl | rfl | rfl <;>
      exact ⟨by simp [tablesAt, alter, put, drop], by decide⟩

theorem validate_ok (h : WellFormed 8 c) : validateSchemaV8 c = .ok () := by
  have hperm := List.isPerm_iff.mpr (tableNames_perm h)
  have htables : ∀ e ∈ expectedColumns, validateTable c e.1 e.2 = .ok () := by
    intro e he
    simp only [expectedColumns, List.mem_cons, List.not_mem_nil, or_false] at he
    rcases he with rfl | rfl | rfl | rfl | rfl | rfl | rfl | rfl <;>
      exact validateTable_ok h rfl rfl
  have hindexes : ∀ e ∈ expectedIndexes, validateIndex c e.1 e.2 = .ok () := by
    intro e he
    simp only [expectedIndexes, List.mem_cons, List.not_mem_nil, or_false] at he
    rcases he with rfl | rfl | rfl | rfl | rfl | rfl | rfl | rfl <;>
      exact validateIndex_ok h rfl
  simp only [validateSchemaV8, hperm, forM_ok htables, forM_ok hindexes]
  rfl

end Gamer.Storage
