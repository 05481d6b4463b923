import Gamer.Storage.History
import Gamer.Storage.Open

/-! Which databases survive a crash. A migration is never cut in two, so that a database on its way
    up stays one of some version with the same end; a database that is being created has version 0
    from its first effect to the last but one, and version 0 is refused for good:

        none ──▶ 0 ──▶ 0 ──▶ … ──▶ 0 ──▶ 8            v ──▶ v+1 ──▶ … ──▶ 8
                 └── cut here: refused ──┘            └── cut anywhere: goes on            -/

namespace Gamer.Storage
open Gamer.Lib

/-- The file is missing, or a well-formed database of a version this binary reads. -/
def Sound : Directory → Prop
  | none => True
  | some db => ∃ v : Nat, db.userVersion = v ∧ 1 ≤ v ∧ v ≤ 8 ∧ WellFormed v db.content

/-- The functions one after the other. -/
def applyAll : List (Database → Except String Database) → Database → Except String Database
  | [], db => .ok db
  | f :: rest, db =>
    match f db with
    | .ok db' => applyAll rest db'
    | .error e => .error e

/-- What is to come of the directory: a new database, or this one with every later level's effect
    once. -/
def upgraded : Directory → Except String Content
  | none => (applyAll creation ⟨0, .empty⟩).map fun db => db.content
  | some db => upgrade db.userVersion.toNat db.content

/-- What several attempts to open leave behind, each cut off where its answers end. -/
def after (dir : Directory) : List (List Answer) → Directory
  | [] => dir
  | tape :: rest => after (openConnection tape dir).state rest

/-- Nothing fails, and nothing is cut off. -/
def Uninterrupted (tape : List Answer) : Prop := (∀ a ∈ tape, a = .ok) ∧ 24 ≤ tape.length

/-- The next open that is not interrupted succeeds with this content at version 8. -/
def Reopens (dir : Directory) (goal : Except String Content) : Prop :=
  ∀ tape, Uninterrupted tape → ∃ content rest,
    openConnection tape dir = .done (.ok ()) (some ⟨8, content⟩) rest ∧
      validateSchemaV8 content = .ok () ∧ goal = .ok content

/-- The answers that are `ok` before the first that is not. -/
def okCount (tape : List Answer) : Nat := (tape.takeWhile (· = .ok)).length

/-- An attempt that finds no file does not create it, or gets as far as the version mark. The first
    answer goes to the look for the file. -/
def Careful (dir : Directory) (tape : List Answer) : Prop :=
  dir = none → okCount (tape.drop 1) = 0 ∨ creation.length + 1 ≤ okCount (tape.drop 1)

def AllCareful (dir : Directory) : List (List Answer) → Prop
  | [] => True
  | tape :: rest => Careful dir tape ∧ AllCareful (openConnection tape dir).state rest

/-! ### Single effects -/

theorem commit_ok {f : Database → Except String Database} {db db' : Database} (h : f db = .ok db')
    (tape : List Answer) : commit f (.ok :: tape) (some db) = .done (.ok ()) (some db') tape := by
  simp [commit, Prog.effect, h]

theorem query_ok {α : Type} {f : Database → Except String α} {db : Database} {a : α}
    (h : f db = .ok a) (tape : List Answer) :
    query f (.ok :: tape) (some db) = .done (.ok a) (some db) tape := by
  simp [query, Prog.effect, h]

/-- Answers that are all `ok`, and at least `n` of them. -/
def Clear (n : Nat) (tape : List Answer) : Prop := (∀ a ∈ tape, a = .ok) ∧ n ≤ tape.length

theorem Clear.cons {n : Nat} {tape : List Answer} (h : Clear (n + 1) tape) :
    ∃ rest, tape = .ok :: rest ∧ Clear n rest := by
  obtain ⟨hall, hlen⟩ := h
  cases tape with
  | nil => simp at hlen
  | cons a rest =>
    obtain rfl := hall a List.mem_cons_self
    exact ⟨rest, rfl, fun b hb => hall b (List.mem_cons_of_mem _ hb), by simpa using hlen⟩

theorem Clear.mono {m n : Nat} {tape : List Answer} (h : Clear n tape) (hmn : m ≤ n) :
    Clear m tape :=
  ⟨h.1, Nat.le_trans hmn h.2⟩

/-! ### A database on its way up -/

/-- INVARIANT: a well-formed database of version `v` that becomes `final`. -/
def ClimbingAt (final : Content) (v : Nat) (dir : Directory) : Prop :=
  ∃ c, dir = some ⟨v, c⟩ ∧ 1 ≤ v ∧ v ≤ 8 ∧ WellFormed v c ∧ upgrade v c = .ok final

def Climbing (final : Content) (dir : Directory) : Prop := ∃ v, ClimbingAt final v dir

variable {final : Content}

/-- The registry holds every level's body. -/
theorem find_migration {v : Nat} (hpos : 1 ≤ v) (hv : v < 8) :
    ∃ m, migrations.find? (fun m => m.fromVersion = (v : Int)) = some m ∧
      m.toVersion = (v : Int) + 1 ∧ m.apply = body v := by
  obtain rfl | rfl | rfl | rfl | rfl | rfl | rfl : v = 1 ∨ v = 2 ∨ v = 3 ∨ v = 4 ∨ v = 5 ∨ v = 6 ∨
      v = 7 := by omega
  all_goals exact ⟨_, rfl, rfl, rfl⟩

/-- STEP: one transaction takes the database one level up. -/
theorem ClimbingAt.transaction {v : Nat} {c : Content} (hpos : 1 ≤ v) (hv : v < 8)
    (hwell : WellFormed v c) (hup : upgrade v c = .ok final) {m : Migration}
    (hto : m.toVersion = (v : Int) + 1) (happly : m.apply = body v) :
    ∃ db', m.transaction ⟨v, c⟩ = .ok db' ∧ ClimbingAt final (v + 1) (some db') := by
  obtain ⟨c', hc', hwell'⟩ := body_ok hpos hv hwell
  refine ⟨⟨m.toVersion, c'⟩, by simp [Migration.transaction, happly, hc'], c', ?_, by omega,
    by omega, hwell', (upgrade_of_body hv hc').symm.trans hup⟩
  rw [hto]
  rfl

theorem Triple.commit {P : Directory → Prop} {Q : Directory → Prop}
    {f : Database → Except String Database} (hkeep : ∀ s, P s → Q s)
    (hdone : ∀ db db', P (some db) → f db = .ok db' → Q (some db')) :
    Prog.Triple P (commit f) (fun _ => Q) Q := by
  refine Prog.Triple.effect hkeep fun a s hs => ?_
  cases a with
  | fails e => exact hkeep s hs
  | ok =>
    cases s with
    | none => exact hkeep none hs
    | some db =>
      cases hf : f db with
      | ok db' => simpa [hf] using hdone db db' hs hf
      | error e => simpa [hf] using hkeep _ hs

theorem Triple.query {α : Type} {P : Directory → Prop} {K : α → Directory → Prop}
    {f : Database → Except String α} (hdone : ∀ db a, P (some db) → f db = .ok a → K a (some db)) :
    Prog.Triple P (query f) (Prog.either (fun _ => P) K) P := by
  refine Prog.Triple.effect (fun _ hs => hs) fun a s hs => ?_
  cases a with
  | fails e => exact hs
  | ok =>
    cases s with
    | none => exact hs
    | some db =>
      cases hf : f db with
      | ok a => simpa [hf, Prog.either] using hdone db a hs hf
      | error e => simpa [hf, Prog.either] using hs

/-- RUN: however the climb ends, the database is on its way up. -/
theorem migrateLevels_climbing (final : Content) : ∀ (steps v : Nat), 1 ≤ v → v + steps ≤ 8 →
    Prog.Triple (ClimbingAt final v) (migrateLevels migrations steps v)
      (Prog.either (fun _ => Climbing final) fun _ => Climbing final) (Climbing final) := by
  intro steps
  induction steps with
  | zero => exact fun v _ _ => .pure fun dir hdir => ⟨v, hdir⟩
  | succ steps ih =>
    intro v hpos hv
    obtain ⟨m, hfind, hto, happly⟩ := find_migration hpos (by omega)
    have hnext : (v : Int) + 1 = ((v + 1 : Nat) : Int) := by omega
    have hlevel : Prog.Triple (ClimbingAt final v) (commit m.transaction)
        (Prog.either (fun _ => Climbing final) fun _ => ClimbingAt final (v + 1))
        (Climbing final) := by
      refine Prog.Triple.effect (fun dir hdir => ⟨v, hdir⟩) fun a dir hdir => ?_
      obtain ⟨c, rfl, _, _, hwell, hup⟩ := hdir
      cases a with
      | fails e => exact ⟨v, c, rfl, hpos, by omega, hwell, hup⟩
      | ok =>
        obtain ⟨db', hdb', hclimbing⟩ :=
          ClimbingAt.transaction hpos (by omega) hwell hup hto happly
        simpa [hdb', Prog.either] using hclimbing
    simp only [migrateLevels, hfind, hto, ne_eq, not_true_eq_false, if_false]
    rw [hnext]
    exact hlevel.andThen (fun _ _ h => h) fun _ => ih (v + 1) (by omega) (by omega)

theorem migrations_valid : validateRegistry migrations [] [] = .ok () := rfl

theorem registryTarget_migrations : registryTarget migrations = 8 := rfl

theorem runMigrations_of_version {v : Nat} (hpos : 1 ≤ v) (hv : v ≤ 8) :
    runMigrations migrations v = migrateLevels migrations (8 - v) v := by
  have hhigh : ¬ (v : Int) > 8 := by omega
  have hlow : ¬ (v : Int) < minReadSchema := by simp only [minReadSchema]; omega
  have hsteps : ((8 : Int) - v).toNat = 8 - v := by omega
  simp only [runMigrations, migrations_valid, registryTarget_migrations, hhigh, hlow, if_false,
    hsteps]

theorem validateSchema_climbing (final : Content) : Prog.Triple (Climbing final) validateSchema
    (Prog.either (fun _ => Climbing final) fun _ => Climbing final) (Climbing final) :=
  Triple.query fun _ _ hdb _ => hdb

theorem ensureSchema_climbing (final : Content) : Prog.Triple (Climbing final) ensureSchema
    (Prog.either (fun _ => Climbing final) fun _ => Climbing final) (Climbing final) := by
  have hversion : Prog.Triple (Climbing final) (query fun db => .ok db.userVersion)
      (Prog.either (fun _ => Climbing final) fun version dir =>
        ∃ v, ClimbingAt final v dir ∧ version = v) (Climbing final) := by
    refine Triple.query fun db version hdb hread => ?_
    obtain ⟨v, c, hdb, h⟩ := hdb
    cases hdb
    cases hread
    exact ⟨v, ⟨c, rfl, h⟩, rfl⟩
  refine hversion.andThen (fun _ _ h => h) fun version => .ex fun v => .fact fun hv => ?_
  subst hv
  split_ifs with hzero htop
  · exact .pure fun dir hdir => ⟨v, hdir⟩
  · exact (validateSchema_climbing final).pre fun dir hdir => ⟨v, hdir⟩
  · intro tape dir hdir
    obtain ⟨c, hc, hpos, hv, hrest⟩ := hdir
    rw [runMigrations_of_version hpos hv]
    exact (migrateLevels_climbing final (8 - v) v hpos (by omega)).andThen (fun _ _ h => h)
      (fun _ => validateSchema_climbing final) tape dir ⟨c, hc, hpos, hv, hrest⟩

/-- An open of a file that is there does nothing to it before it looks at the schema. -/
theorem openConnection_found {I : Directory → Prop} {K : Unit → Directory → Prop}
    (hfile : ∀ dir, I dir → dir.isSome = true)
    (hensure : Prog.Triple I ensureSchema (Prog.either (fun _ => I) K) I) :
    Prog.Triple I openConnection (Prog.either (fun _ => I) K) I := by
  have hexists : Prog.Triple I pathExists (fun found dir => I dir ∧ found = true) I :=
    .effect (fun _ h => h) fun _ dir hdir => ⟨hdir, hfile dir hdir⟩
  have hopen : Prog.Triple I openFile (Prog.either (fun _ => I) fun _ => I) I := by
    refine .effect (fun _ h => h) fun a dir hdir => ?_
    cases a with
    | fails e => exact hdir
    | ok =>
      obtain ⟨db, rfl⟩ := Option.isSome_iff_exists.mp (hfile dir hdir)
      exact hdir
  have hpragmas : Prog.Triple I (commit setPragmas) (Prog.either (fun _ => I) fun _ => I) I := by
    refine (Triple.commit (fun _ h => h) fun db db' hdb hset => ?_).post fun r _ h => ?_
    · cases hset
      exact hdb
    · cases r <;> exact h
  refine hexists.bind fun found => .fact fun hfound => ?_
  subst hfound
  exact hopen.andThen (fun _ _ h => h) fun _ => hpragmas.andThen (fun _ _ h => h) fun _ => hensure

theorem Climbing.isSome {dir : Directory} (h : Climbing final dir) : dir.isSome = true := by
  obtain ⟨v, c, rfl, _⟩ := h
  rfl

/-- RUN: wherever an open is cut off, the database is still on its way up to the same end. -/
theorem openConnection_climbing (final : Content) : Prog.Triple (Climbing final) openConnection
    (fun _ => Climbing final) (Climbing final) := by
  refine (openConnection_found (fun _ h => h.isSome) (ensureSchema_climbing final)).post
    fun r _ h => ?_
  cases r <;> exact h

/-! ### An open that is not interrupted -/

/-- RUN: with enough answers the climb gets to its end. -/
theorem migrateLevels_run (final : Content) : ∀ (steps v n : Nat) (c : Content)
    (tape : List Answer), 1 ≤ v → v + steps ≤ 8 → WellFormed v c → upgrade v c = .ok final → Clear (n + steps) tape →
    ∃ c' rest, migrateLevels migrations steps v tape (some ⟨v, c⟩) =
        .done (.ok ()) (some ⟨((v + steps : Nat) : Int), c'⟩) rest ∧ Clear n rest ∧
      WellFormed (v + steps) c' ∧ upgrade (v + steps) c' = .ok final := by
  intro steps
  induction steps with
  | zero => exact fun v n c tape _ _ hwell hup hclear => ⟨c, tape, rfl, hclear, hwell, hup⟩
  | succ steps ih =>
    intro v n c tape hpos hv hwell hup hclear
    obtain ⟨m, hfind, hto, happly⟩ := find_migration hpos (by omega)
    obtain ⟨rest, rfl, hrest⟩ := hclear.cons
    obtain ⟨db', hdb', hclimbing⟩ := ClimbingAt.transaction hpos (by omega) hwell hup hto happly
    obtain ⟨c', hc', _, _, hwell', hup'⟩ := hclimbing
    cases hc'
    obtain ⟨c'', rest', hrun, hdone⟩ :=
      ih (v + 1) n c' rest (by omega) (by omega) hwell' hup' hrest
    have hnext : (v : Int) + 1 = ((v + 1 : Nat) : Int) := by omega
    have hsum : v + 1 + steps = v + (steps + 1) := by omega
    rw [hsum] at hrun hdone
    refine ⟨c'', rest', ?_, hdone⟩
    simp only [migrateLevels, hfind, hto, ne_eq, not_true_eq_false, if_false]
    rw [Prog.andThen_of_ok (commit_ok hdb' rest), hnext]
    exact hrun

theorem validateSchema_run {c : Content} (h : WellFormed 8 c) {n : Nat} {tape : List Answer}
    (hclear : Clear (n + 1) tape) : ∃ rest,
      validateSchema tape (some ⟨8, c⟩) = .done (.ok ()) (some ⟨8, c⟩) rest := by
  obtain ⟨rest, rfl, _⟩ := hclear.cons
  exact ⟨rest, query_ok (validate_ok h) rest⟩

/-- RUN: a database on its way up is opened, and gets to its end. -/
theorem Climbing.reopens {dir : Directory} (h : Climbing final dir) : Reopens dir (.ok final) := by
  intro tape htape
  obtain ⟨v, c, rfl, hpos, hv, hwell, hup⟩ := h
  have hclear : Clear 24 tape := htape
  obtain ⟨tape₁, rfl, hclear₁⟩ := hclear.cons
  obtain ⟨tape₂, rfl, hclear₂⟩ := hclear₁.cons
  obtain ⟨tape₃, rfl, hclear₃⟩ := hclear₂.cons
  obtain ⟨tape₄, rfl, hclear₄⟩ := hclear₃.cons
  obtain ⟨c', tape₅, hclimb, hclear₅, hwell', hup'⟩ := migrateLevels_run final (8 - v) v 1 c tape₄
    hpos (by omega) hwell hup (hclear₄.mono (by omega))
  rw [Nat.add_sub_cancel' hv] at hclimb hwell' hup'
  have hfinal : c' = final := Except.ok.inj hup'
  subst hfinal
  obtain ⟨rest, hvalidate⟩ := validateSchema_run (n := 0) hwell' hclear₅
  have hensure : ensureSchema (.ok :: tape₄) (some ⟨v, c⟩) =
      .done (.ok ()) (some ⟨8, c'⟩) rest := by
    have hversion : query (fun db => .ok db.userVersion) (.ok :: tape₄) (some ⟨v, c⟩) =
        .done (.ok (v : Int)) (some ⟨v, c⟩) tape₄ := rfl
    have hzero : ¬ (v : Int) = 0 := by omega
    rw [ensureSchema, Prog.andThen_of_ok hversion, if_neg hzero]
    split_ifs with htop
    · obtain rfl : v = 8 := by simp only [targetSchema] at htop; omega
      cases hclimb
      exact hvalidate
    · rw [runMigrations_of_version hpos hv, Prog.andThen_of_ok hclimb]
      exact hvalidate
  have hopen : openFile (.ok :: .ok :: .ok :: tape₄) (some ⟨v, c⟩) =
      .done (.ok ()) (some ⟨v, c⟩) (.ok :: .ok :: tape₄) := rfl
  have hpragmas : commit setPragmas (.ok :: .ok :: tape₄) (some ⟨v, c⟩) =
      .done (.ok ()) (some ⟨v, c⟩) (.ok :: tape₄) := rfl
  refine ⟨c', rest, ?_, validate_ok hwell', rfl⟩
  show (openFile.andThen fun _ => (commit setPragmas).andThen fun _ => ensureSchema)
    (.ok :: .ok :: .ok :: tape₄) (some ⟨v, c⟩) = _
  rw [Prog.andThen_of_ok hopen, Prog.andThen_of_ok hpragmas]
  exact hensure

/-! ### A database that is created -/

theorem applyAll_statements (v : Int) (c : Content) (l : List Statement) :
    applyAll (l.map statement) ⟨v, c⟩ = (c.execBatch l).map fun c' => ⟨v, c'⟩ := by
  induction l generalizing c with
  | nil => rfl
  | cons s l ih =>
    simp only [List.map_cons, applyAll, statement, Content.execBatch]
    cases hs : c.exec s with
    | error e => rfl
    | ok c' => exact ih c'

theorem applyAll_append (l l' : List (Database → Except String Database)) (db : Database) :
    applyAll (l ++ l') db = (applyAll l db) >>= applyAll l' := by
  induction l generalizing db with
  | nil => rfl
  | cons f l ih =>
    simp only [List.cons_append, applyAll]
    cases hf : f db with
    | error e => rfl
    | ok db' => exact ih db'

/-- The statements of a new database make one of version 5. -/
theorem creation_ddl : ∃ c, Content.empty.execBatch (schemaV4Ddl ++ journalDdl) = .ok c ∧
    WellFormed 5 c := by
  let tables : Table String SqlTable := (((((((∅ : Table String SqlTable).set
    "devices" ⟨devicesColumns, []⟩).set "logs" ⟨logsColumns, []⟩).set
    "scheduled_runs" ⟨scheduledRunsColumns, []⟩).set "timer_tasks" ⟨timerTasksColumns, []⟩).set
    "task_presets" ⟨taskPresetsColumns, []⟩).set "run_records" ⟨runRecordsColumns, []⟩).set
    "run_events" ⟨runEventsColumns, []⟩
  let indexes : Table String Index := ((((((((∅ : Table String Index).set
    "idx_logs_time" logsTime).set "uq_scheduled_runs_task_time" scheduledRunsTaskTime).set
    "idx_scheduled_runs_created_at" scheduledRunsCreatedAt).set
    "idx_timer_tasks_wakeup" timerTasksWakeup).set "idx_timer_tasks_app" timerTasksApp).set
    "idx_task_presets_package" taskPresetsPackage).set
    "idx_run_records_device" runRecordsDevice).set "idx_run_events_run" runEventsRun
  have hnone : HasColumns ∅ fun _ => none := fun _ => rfl
  have hnoIndex : HasIndexes ∅ fun _ => none := fun _ => rfl
  refine ⟨⟨tables, indexes⟩, ?_, ?_, ?_, trivial⟩
  · simp [schemaV4Ddl, journalDdl, Content.execBatch, Content.exec, Content.empty, Table.get_set,
      logsTime, scheduledRunsTaskTime, scheduledRunsCreatedAt, timerTasksWakeup, timerTasksApp,
      taskPresetsPackage, runRecordsDevice, runEventsRun, tables, indexes]
  · refine (((((((hnone.set _ _).set _ _).set _ _).set _ _).set _ _).set _ _).set _ _).congr
      fun n => ?_
    simp only [put, drop, tablesAt, alter]
    split_ifs <;> first | rfl | simp_all
  · exact (((((((hnoIndex.set _ _).set _ _).set _ _).set _ _).set _ _).set _ _).set _ _).set _ _

/-- Creation, run to its end, makes a well-formed database of version 8. -/
theorem creation_ok : ∃ c, applyAll creation ⟨0, .empty⟩ = .ok ⟨8, c⟩ ∧ WellFormed 8 c := by
  obtain ⟨c₅, hddl, h₅⟩ := creation_ddl
  obtain ⟨c₆, hc₆, h₆⟩ := migrateV5ToV6_ok h₅
  obtain ⟨c₇, hc₇, h₇⟩ := migrateV6ToV7_ok h₆
  obtain ⟨c₈, hc₈, h₈⟩ := migrateV7ToV8_ok h₇
  have hsplit : creation = [setPragmas, requireUnversioned] ++
      ((schemaV4Ddl ++ journalDdl).map statement ++ [newestLevels, markVersion]) := rfl
  have hlevels : newestLevels ⟨0, c₅⟩ = .ok ⟨0, c₈⟩ := by
    simp only [newestLevels, hc₆, bind, Except.bind, hc₇, hc₈]
    rfl
  refine ⟨c₈, ?_, h₈⟩
  rw [hsplit, applyAll_append]
  show applyAll ((schemaV4Ddl ++ journalDdl).map statement ++ [newestLevels, markVersion])
    ⟨0, .empty⟩ = _
  rw [applyAll_append, applyAll_statements, hddl]
  show applyAll [newestLevels, markVersion] ⟨0, c₅⟩ = _
  simp only [applyAll, hlevels]
  rfl

theorem okCount_ok (tape : List Answer) : okCount (.ok :: tape) = okCount tape + 1 := by
  simp [okCount]

theorem okCount_fails (e : String) (tape : List Answer) : okCount (.fails e :: tape) = 0 := by
  simp [okCount]

/-- RUN: with enough answers every statement is executed. -/
theorem commitAll_run {fs : List (Database → Except String Database)} : ∀ {db db' : Database}
    {tape : List Answer}, applyAll fs db = .ok db' → fs.length ≤ okCount tape →
    commitAll fs tape (some db) = .done (.ok ()) (some db') (tape.drop fs.length) := by
  induction fs with
  | nil =>
    intro db db' tape hall _
    cases hall
    rfl
  | cons f fs ih =>
    intro db db' tape hall hlen
    cases tape with
    | nil => simp [okCount] at hlen
    | cons a tape =>
      cases a with
      | fails e => simp [okCount_fails] at hlen
      | ok =>
        cases hf : f db with
        | error e => simp [applyAll, hf] at hall
        | ok db₁ =>
          simp only [applyAll, hf] at hall
          rw [okCount_ok, List.length_cons] at hlen
          exact (Prog.andThen_of_ok (commit_ok hf tape)).trans (ih hall (by omega))

/-- The function leaves an unversioned database unversioned. -/
def KeepsUnversioned (f : Database → Except String Database) : Prop :=
  ∀ db db', db.userVersion = 0 → f db = .ok db' → db'.userVersion = 0

/-- Version 0: no open goes on from here. -/
def Stuck (dir : Directory) : Prop := ∃ db, dir = some db ∧ db.userVersion = 0

/-- RUN: cut off or failed before the last statement, the database is left unversioned. -/
theorem commitAll_stuck {fs : List (Database → Except String Database)} : ∀ {db : Database}
    {tape : List Answer}, (∀ f ∈ fs.dropLast, KeepsUnversioned f) → db.userVersion = 0 →
    okCount tape < fs.length → Stuck (commitAll fs tape (some db)).state := by
  induction fs with
  | nil => exact fun _ _ hlen => absurd hlen (Nat.not_lt_zero _)
  | cons f fs ih =>
    intro db tape hkeeps hdb hlen
    cases tape with
    | nil => exact ⟨db, rfl, hdb⟩
    | cons a tape =>
      cases a with
      | fails e => exact ⟨db, rfl, hdb⟩
      | ok =>
        rw [okCount_ok, List.length_cons] at hlen
        cases hf : f db with
        | error e =>
          have hcommit : commit f (.ok :: tape) (some db) = .done (.error e) (some db) tape := by
            simp [commit, Prog.effect, hf]
          rw [commitAll, Prog.andThen_of_error hcommit]
          exact ⟨db, rfl, hdb⟩
        | ok db' =>
          cases fs with
          | nil => simp at hlen
          | cons g fs =>
            rw [commitAll, Prog.andThen_of_ok (commit_ok hf tape)]
            rw [List.dropLast_cons_of_ne_nil (by simp)] at hkeeps
            exact ih (fun f' hf' => hkeeps f' (List.mem_cons_of_mem _ hf'))
              (hkeeps f List.mem_cons_self db db' hdb hf) (by omega)

theorem statement_keepsUnversioned (s : Statement) : KeepsUnversioned (statement s) := by
  intro db db' hdb hexec
  simp only [statement] at hexec
  cases hs : db.content.exec s with
  | error e => simp [hs, Except.map] at hexec
  | ok c =>
    simp only [hs, Except.map, Except.ok.injEq] at hexec
    subst hexec
    exact hdb

theorem newestLevels_keepsUnversioned : KeepsUnversioned newestLevels := by
  intro db db' hdb hlevels
  simp only [newestLevels, bind, Except.bind] at hlevels
  cases h₆ : migrateV5ToV6 db.content with
  | error e => simp [h₆] at hlevels
  | ok c₆ =>
    cases h₇ : migrateV6ToV7 c₆ with
    | error e => simp [h₆, h₇] at hlevels
    | ok c₇ =>
      cases h₈ : migrateV7ToV8 c₇ with
      | error e => simp [h₆, h₇, h₈] at hlevels
      | ok c₈ =>
        simp only [h₆, h₇, h₈, pure, Except.pure, Except.ok.injEq] at hlevels
        subst hlevels
        exact hdb

/-- Only the last of a new database's statements gives it a version. -/
theorem creation_keepsUnversioned : ∀ f ∈ creation.dropLast, KeepsUnversioned f := by
  intro f hf
  have hsplit : creation.dropLast = setPragmas :: requireUnversioned ::
      ((schemaV4Ddl ++ journalDdl).map statement ++ [newestLevels]) := rfl
  rw [hsplit, List.mem_cons, List.mem_cons, List.mem_append, List.mem_map, List.mem_singleton] at hf
  rcases hf with rfl | rfl | ⟨s, _, rfl⟩ | rfl
  · intro db db' hdb hset
    cases hset
    exact hdb
  · intro db db' hdb hrequire
    simp only [requireUnversioned, hdb, if_true, Except.ok.injEq] at hrequire
    subst hrequire
    exact hdb
  · exact statement_keepsUnversioned s
  · exact newestLevels_keepsUnversioned

theorem validateSchema_state (tape : List Answer) (dir : Directory) :
    (validateSchema tape dir).state = dir := by
  cases tape with
  | nil => rfl
  | cons a tape =>
    cases a <;> cases dir <;> rfl

/-- An open that finds no file leaves none, a new database at version 8, or an unversioned one. -/
theorem openConnection_none (tape : List Answer) :
    (okCount (tape.drop 1) = 0 ∧ (openConnection tape none).state = none) ∨
    (creation.length + 1 ≤ okCount (tape.drop 1) ∧ ∀ db, applyAll creation ⟨0, .empty⟩ = .ok db →
      (openConnection tape none).state = some db) ∨
    (0 < okCount (tape.drop 1) ∧ okCount (tape.drop 1) < creation.length + 1 ∧
      Stuck (openConnection tape none).state) := by
  cases tape with
  | nil => exact .inl ⟨rfl, rfl⟩
  | cons look tape =>
    cases tape with
    | nil => exact .inl ⟨rfl, rfl⟩
    | cons a tape =>
      cases a with
      | fails e => exact .inl ⟨okCount_fails e tape, rfl⟩
      | ok =>
        have hstate : (openConnection (look :: .ok :: tape) none).state =
            (commitAll creation tape (some ⟨0, .empty⟩)).state :=
          Prog.andThen_state (fun _ => validateSchema_state) tape (some ⟨0, .empty⟩)
        rw [List.drop_one, List.tail_cons, okCount_ok, hstate]
        by_cases hlen : creation.length ≤ okCount tape
        · refine .inr (.inl ⟨by omega, fun db hdb => ?_⟩)
          rw [commitAll_run hdb hlen]
          rfl
        · exact .inr (.inr ⟨by omega, by omega,
            commitAll_stuck creation_keepsUnversioned rfl (by omega)⟩)

/-! ### Versions that are refused -/

/-- The file is there and has this version. -/
def HasVersion (version : Int) (dir : Directory) : Prop := ∃ c, dir = some ⟨version, c⟩

def Refused (version : Int) : Prop := version < 1 ∨ 8 < version

theorem runMigrations_refused {version : Int} (h : Refused version) :
    ∃ e, runMigrations migrations version = pure (.error e) := by
  by_cases hhigh : version > 8
  · simp only [runMigrations, migrations_valid, registryTarget_migrations, hhigh, if_true]
    exact ⟨_, rfl⟩
  · have hlow : version < minReadSchema := by
      rcases h with h | h
      · exact h
      · exact absurd h hhigh
    simp only [runMigrations, migrations_valid, registryTarget_migrations, hhigh, hlow, if_true,
      if_false]
    exact ⟨_, rfl⟩

theorem readVersion (version : Int) : Prog.Triple (HasVersion version)
    (query fun db => .ok db.userVersion)
    (Prog.either (fun _ => HasVersion version) fun v dir => HasVersion version dir ∧ v = version)
    (HasVersion version) := by
  refine Triple.query fun db v hdb hread => ⟨hdb, ?_⟩
  obtain ⟨c, hc⟩ := hdb
  cases hc
  cases hread
  rfl

theorem ensureSchema_refused {version : Int} (h : Refused version) :
    Prog.Triple (HasVersion version) ensureSchema
      (Prog.either (fun _ => HasVersion version) fun _ _ => False) (HasVersion version) := by
  refine (readVersion version).andThen (fun _ _ h => h) fun v => .fact fun hv => ?_
  subst hv
  obtain ⟨e, he⟩ := runMigrations_refused h
  have htop : ¬ v = targetSchema := by
    simp only [Refused, targetSchema] at h ⊢
    omega
  rw [if_neg htop, he]
  split_ifs with hzero
  · exact .pure fun _ h => h
  · exact .pure fun _ h => h

/-- RUN: a version that is refused is refused again, and stays. -/
theorem openConnection_refused {version : Int} (h : Refused version) :
    Prog.Triple (HasVersion version) openConnection
      (Prog.either (fun _ => HasVersion version) fun _ _ => False) (HasVersion version) :=
  openConnection_found (fun _ ⟨_, hdir⟩ => hdir ▸ rfl) (ensureSchema_refused h)

theorem Stuck.hasVersion {dir : Directory} (h : Stuck dir) : HasVersion 0 dir := by
  obtain ⟨⟨v, c⟩, rfl, rfl⟩ := h
  exact ⟨c, rfl⟩

theorem refused_zero : Refused 0 := .inl (by decide)

theorem HasVersion.not_reopens {version : Int} {dir : Directory} {goal : Except String Content}
    (hversion : HasVersion version dir) (h : Refused version) : ¬ Reopens dir goal := by
  intro hreopens
  obtain ⟨content, rest, hrun, _⟩ :=
    hreopens (List.replicate 24 .ok) ⟨fun a ha => List.eq_of_mem_replicate ha, by simp⟩
  have hend := openConnection_refused h (List.replicate 24 .ok) dir hversion
  rw [hrun] at hend
  exact hend

/-! ### Several attempts -/

theorem Climbing.after {dir : Directory} (h : Climbing final dir) (attempts : List (List Answer)) :
    Climbing final (after dir attempts) := by
  induction attempts generalizing dir with
  | nil => exact h
  | cons tape attempts ih => exact ih ((openConnection_climbing final).state h tape)

theorem Climbing.allCareful {dir : Directory} (h : Climbing final dir)
    (attempts : List (List Answer)) : AllCareful dir attempts := by
  induction attempts generalizing dir with
  | nil => trivial
  | cons tape attempts ih =>
    refine ⟨fun hnone => ?_, ih ((openConnection_climbing final).state h tape)⟩
    subst hnone
    exact absurd h.isSome (by decide)

theorem HasVersion.after {version : Int} {dir : Directory} (h : HasVersion version dir)
    (hrefused : Refused version) (attempts : List (List Answer)) :
    HasVersion version (after dir attempts) := by
  induction attempts generalizing dir with
  | nil => exact h
  | cons tape attempts ih =>
    refine ih (((openConnection_refused hrefused).post fun r _ hr => ?_).state h tape)
    cases r with
    | error e => exact hr
    | ok _ => exact hr.elim

/-- RUN: from no file, careful attempts leave no file or a database on its way up; the first that is
    not careful leaves one that is refused. -/
theorem after_none {c : Content} (hcreate : applyAll creation ⟨0, .empty⟩ = .ok ⟨8, c⟩)
    (hwell : WellFormed 8 c) (attempts : List (List Answer)) :
    (AllCareful none attempts ∧ (after none attempts = none ∨ Climbing c (after none attempts))) ∨
    (¬ AllCareful none attempts ∧ HasVersion 0 (after none attempts)) := by
  induction attempts with
  | nil => exact .inl ⟨trivial, .inl rfl⟩
  | cons tape attempts ih =>
    simp only [AllCareful, after]
    rcases openConnection_none tape with ⟨hnone, hstate⟩ | ⟨hlong, hstate⟩ | ⟨hpos, hshort, hstuck⟩
    · have hcareful : Careful none tape := fun _ => .inl hnone
      rw [hstate]
      rcases ih with ⟨hall, hend⟩ | ⟨hall, hend⟩
      · exact .inl ⟨⟨hcareful, hall⟩, hend⟩
      · exact .inr ⟨fun h => hall h.2, hend⟩
    · have hcareful : Careful none tape := fun _ => .inr hlong
      have hclimbing : Climbing c (openConnection tape none).state := by
        rw [hstate _ hcreate]
        exact ⟨8, c, rfl, by omega, by omega, hwell, rfl⟩
      exact .inl ⟨⟨hcareful, hclimbing.allCareful attempts⟩, .inr (hclimbing.after attempts)⟩
    · refine .inr ⟨fun h => ?_, hstuck.hasVersion.after refused_zero attempts⟩
      rcases h.1 rfl with hzero | hlong <;> omega

theorem okCount_of_clear {n : Nat} {tape : List Answer} (h : Clear n tape) : n ≤ okCount tape := by
  induction tape generalizing n with
  | nil => exact h.2
  | cons a tape ih =>
    obtain rfl := h.1 a List.mem_cons_self
    cases n with
    | zero => exact Nat.zero_le _
    | succ n =>
      obtain ⟨rest, hrest, hclear⟩ := h.cons
      cases hrest
      rw [okCount_ok]
      exact Nat.succ_le_succ (ih hclear)

/-- Where there is no file, an open that is not interrupted makes the new database. -/
theorem reopens_none {c : Content} (hcreate : applyAll creation ⟨0, .empty⟩ = .ok ⟨8, c⟩)
    (hwell : WellFormed 8 c) : Reopens none (.ok c) := by
  intro tape htape
  have hclear : Clear 24 tape := htape
  obtain ⟨tape₁, rfl, hclear₁⟩ := hclear.cons
  obtain ⟨tape₂, rfl, hclear₂⟩ := hclear₁.cons
  have hcount := okCount_of_clear hclear₂
  have hlen : creation.length = 19 := rfl
  have hlong : creation.length ≤ okCount tape₂ := by omega
  have hrun := commitAll_run hcreate hlong
  have hrest : Clear 1 (tape₂.drop creation.length) :=
    ⟨fun a ha => hclear₂.1 a (List.mem_of_mem_drop ha), by
      have := hclear₂.2
      rw [List.length_drop]
      omega⟩
  obtain ⟨rest, hvalidate⟩ := validateSchema_run (n := 0) hwell hrest
  refine ⟨c, rest, ?_, validate_ok hwell, rfl⟩
  show (commitAll creation).andThen (fun _ => validateSchema) tape₂ (some ⟨0, .empty⟩) = _
  rw [Prog.andThen_of_ok hrun]
  exact hvalidate

/-- SAFETY: what attempts leave behind goes on to the new version unless one of them was cut off
    while it created the file. -/
theorem reopens_iff {start : Directory} (hsound : Sound start) (attempts : List (List Answer)) :
    Reopens (after start attempts) (upgraded start) ↔ AllCareful start attempts := by
  cases start with
  | none =>
    obtain ⟨c, hcreate, hwell⟩ := creation_ok
    have hgoal : upgraded none = .ok c := by rw [upgraded, hcreate]; rfl
    rw [hgoal]
    rcases after_none hcreate hwell attempts with ⟨hall, hnone | hclimbing⟩ | ⟨hnot, hversion⟩
    · rw [hnone]
      exact iff_of_true (reopens_none hcreate hwell) hall
    · exact iff_of_true hclimbing.reopens hall
    · exact iff_of_false (hversion.not_reopens refused_zero) hnot
  | some db =>
    obtain ⟨v, hv, hpos, hle, hwell⟩ := hsound
    obtain ⟨userVersion, c⟩ := db
    subst hv
    obtain ⟨final, hfinal, _⟩ := upgrade_ok hpos hle hwell
    have hclimbing : Climbing final (some ⟨v, c⟩) := ⟨v, c, rfl, hpos, hle, hwell, hfinal⟩
    have hgoal : upgraded (some ⟨v, c⟩) = .ok final := hfinal
    rw [hgoal]
    exact iff_of_true (hclimbing.after attempts).reopens (hclimbing.allCareful attempts)

end Gamer.Storage
