import Gamer.Lib.Crash
import Gamer.Storage.Schema

/-! Opening the data directory's database: creating it, or bringing it up to the version of this
    binary. Every autocommit statement and every transaction is one effect; the process may end in
    front of any effect, and any effect may fail and leave the file as it was.

        no file ──▶ file, version 0 ──▶ 15 statements ──▶ one transaction ──▶ version 8
        version v ──▶ v+1 ──▶ … ──▶ 8              one transaction a level, its version in it  -/

namespace Gamer.Storage
open Gamer.Lib

structure Database where
  userVersion : Int
  content : Content

/-- What is on disk under `gamer.db`. -/
abbrev Directory := Option Database

inductive Answer where
  | ok
  | fails (message : String)
  deriving DecidableEq, Repr

abbrev Run (α : Type) := Prog Answer Directory α

def minReadSchema : Int := 1
def maxReadSchema : Int := 8
def targetSchema : Int := 8

/-! ### Effects -/

def pathExists : Run Bool := Prog.effect fun _ dir => (dir.isSome, dir)

/-- `Connection::open` creates the file. -/
def openFile : Run (Except String Unit) := Prog.effect fun a dir =>
  match a with
  | .fails e => (.error e, dir)
  | .ok => (.ok (), some (dir.getD ⟨0, .empty⟩))

/-- A statement or a transaction. -/
def commit (f : Database → Except String Database) : Run (Except String Unit) :=
  Prog.effect fun a dir =>
    match a, dir with
    | .fails e, dir => (.error e, dir)
    | .ok, none => (.error "unable to open database file", none)
    | .ok, some db =>
      match f db with
      | .ok db' => (.ok (), some db')
      | .error e => (.error e, some db)

def query {α : Type} (f : Database → Except String α) : Run (Except String α) :=
  Prog.effect fun a dir =>
    match a, dir with
    | .fails e, dir => (.error e, dir)
    | .ok, none => (.error "unable to open database file", none)
    | .ok, some db => (f db, some db)

def commitAll : List (Database → Except String Database) → Run (Except String Unit)
  | [] => pure (.ok ())
  | f :: rest => (commit f).andThen fun _ => commitAll rest

/-! ### Migrations -/

structure Migration where
  fromVersion : Int
  toVersion : Int
  description : String
  apply : Content → Except String Content

def migrations : List Migration := [
  ⟨1, 2, "add generic timer tasks and task presets", migrateV1ToV2⟩,
  ⟨2, 3, "unify task model: drop legacy tasks table, rewrite schedule to provider/config",
    migrateV2ToV3⟩,
  ⟨3, 4, "unify ADB device configuration", migrateV3ToV4⟩,
  ⟨4, 5, "persist execution history and events", migrateV4ToV5⟩,
  ⟨5, 6, "browser targets and optional Android context", migrateV5ToV6⟩,
  ⟨6, 7, "persist optional task extension settings", migrateV6ToV7⟩,
  ⟨7, 8, "task multi-inputs with bounded concurrency", migrateV7ToV8⟩]

/-- Every migration goes one level up, and no two from or to the same. -/
def validateRegistry : List Migration → List Int → List Int → Except String Unit
  | [], _, _ => .ok ()
  | m :: rest, froms, tos =>
    if m.toVersion ≠ m.fromVersion + 1 then
      .error ("invalid migration registration v" ++ toString m.fromVersion ++ " -> v" ++
        toString m.toVersion ++ ": versions must advance exactly one step")
    else if froms.contains m.fromVersion then
      .error ("duplicate migration registration from schema v" ++ toString m.fromVersion)
    else if tos.contains m.toVersion then
      .error ("duplicate migration registration to schema v" ++ toString m.toVersion)
    else validateRegistry rest (m.fromVersion :: froms) (m.toVersion :: tos)

def registryTarget (registry : List Migration) : Int :=
  ((registry.map (·.toVersion)).max?).getD targetSchema

/-- One level: the body and the version in one transaction. -/
def Migration.transaction (m : Migration) (db : Database) : Except String Database :=
  match m.apply db.content with
  | .ok content => .ok ⟨m.toVersion, content⟩
  | .error e => .error e

/-- `steps` levels up from `version`. -/
def migrateLevels (registry : List Migration) : Nat → Int → Run (Except String Unit)
  | 0, _ => pure (.ok ())
  | steps + 1, version =>
    match registry.find? fun m => m.fromVersion = version with
    | none => pure (.error ("missing registered migration for schema v" ++ toString version ++
        " -> v" ++ toString (version + 1) ++ "; static migration table is incomplete"))
    | some m =>
      if m.toVersion ≠ version + 1 then
        pure (.error ("invalid migration registration v" ++ toString m.fromVersion ++ " -> v" ++
          toString m.toVersion ++ ": versions must advance exactly one step"))
      else (commit m.transaction).andThen fun _ => migrateLevels registry steps m.toVersion

def runMigrations (registry : List Migration) (current : Int) : Run (Except String Unit) :=
  match validateRegistry registry [] [] with
  | .error e => pure (.error e)
  | .ok () =>
    let target := registryTarget registry
    if current > target then
      pure (.error ("unsupported database schema version " ++ toString current ++
        ": newer than the highest version this binary supports (supported range [" ++
        toString minReadSchema ++ ", " ++ toString maxReadSchema ++ "], target " ++
        toString targetSchema ++ ", registry target " ++ toString target ++
        "); downgrade is not supported; restore the snapshot taken before the upgrade"))
    else if current < minReadSchema then
      pure (.error ("database schema version " ++ toString current ++
        " is below the minimum supported version " ++ toString minReadSchema ++
        "; unversioned databases are never migrated"))
    else migrateLevels registry (target - current).toNat current

/-! ### Opening -/

def statement (s : Statement) (db : Database) : Except String Database :=
  (db.content.exec s).map fun content => { db with content := content }

/-- The levels a new database is brought up by, in one transaction. -/
def newestLevels (db : Database) : Except String Database := do
  let content ← migrateV5ToV6 db.content
  let content ← migrateV6ToV7 content
  let content ← migrateV7ToV8 content
  pure { db with content := content }

def setPragmas (db : Database) : Except String Database := .ok db

def requireUnversioned (db : Database) : Except String Database :=
  if db.userVersion = 0 then .ok db
  else .error ("new database has unexpected user_version=" ++ toString db.userVersion)

def markVersion (db : Database) : Except String Database :=
  .ok { db with userVersion := targetSchema }

/-- Everything a new database goes through. -/
def creation : List (Database → Except String Database) :=
  [setPragmas, requireUnversioned] ++ schemaV4Ddl.map statement ++ journalDdl.map statement ++
    [newestLevels, markVersion]

def validateSchema : Run (Except String Unit) := query fun db => validateSchemaV8 db.content

/-- `ensure_schema` for a file that was there. -/
def ensureSchema : Run (Except String Unit) :=
  (query fun db => .ok db.userVersion).andThen fun version =>
    if version = 0 then
      pure (.error ("database schema is unversioned (user_version=0); " ++
        "back up and remove gamer.db to rebuild schema v8"))
    else if version = targetSchema then validateSchema
    else (runMigrations migrations version).andThen fun _ => validateSchema

/-- What counts as new is decided before the file is opened. -/
def openConnection : Run (Except String Unit) := do
  let found ← pathExists
  openFile.andThen fun _ =>
    if found then (commit setPragmas).andThen fun _ => ensureSchema
    else (commitAll creation).andThen fun _ => validateSchema

/-! ### Maintenance -/

inductive Status where
  | missing | unversioned | tooNew | needsMigration | ok | error
  deriving DecidableEq, Repr

def classify (version maxRead target : Int) : Status :=
  if version = 0 then .unversioned
  else if version > maxRead then .tooNew
  else if version < target then .needsMigration
  else .ok

structure InspectReport where
  dbExists : Bool
  userVersion : Option Int
  status : Status
  pendingMigrations : List (Int × Int)
  deriving DecidableEq, Repr

def inspect : Directory → InspectReport
  | none => ⟨false, none, .missing, []⟩
  | some db =>
    let status := classify db.userVersion maxReadSchema targetSchema
    let pending := (migrations.filter fun m => db.userVersion ≤ m.fromVersion).map fun m =>
      (m.fromVersion, m.toVersion)
    ⟨true, some db.userVersion, status, if status = .needsMigration then pending else []⟩

structure MigrateReport where
  fromVersion : Option Int
  applied : List (Int × Int)
  success : Bool
  status : Status
  message : String
  deriving DecidableEq, Repr

/-- `migrate`, from the version it has read on. -/
def migrateFrom (version : Int) : Run MigrateReport :=
  let status := classify version maxReadSchema targetSchema
  if status = .unversioned then
    pure ⟨some version, [], false, status,
      "database schema is unversioned (user_version=0); " ++
        "back up and remove gamer.db to rebuild schema v1"⟩
  else if status = .tooNew then
    pure ⟨some version, [], false, status, "unsupported database schema version " ++
      toString version ++ ": newer than the highest version this binary supports"⟩
  else
    let applied := (migrations.filter fun m => version ≤ m.fromVersion).map fun m =>
      (m.fromVersion, m.toVersion)
    ((runMigrations migrations version).andThen fun _ => validateSchema).orFail
      (fun e => pure ⟨some version, [], false, .error, e⟩)
      (fun _ => pure ⟨some version, applied, true, .ok, ""⟩)

def migrate : Run MigrateReport := do
  let found ← pathExists
  if !found then
    pure ⟨none, [], false, .missing,
      "database file does not exist; migrate never creates a database"⟩
  else
    -- a version that cannot be read counts as 0
    (query fun db => .ok db.userVersion).orFail (fun _ => migrateFrom 0) migrateFrom

end Gamer.Storage
