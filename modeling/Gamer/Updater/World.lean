import Gamer.Lib.Crash
import Gamer.Lib.Table
import Gamer.Updater.Journal

/-! What an update works on: the journal and the pointer, the live `data/` and `config.toml`, the
    snapshots under `backups/`, and the candidate process, which may write `data/` and exit
    between any two effects. The files of an update are those under `data/` and the one
    configuration file, so a relative path is one or the other.

    The log is the history of the effects that the results are about. -/

namespace Gamer.Updater
open Gamer.Lib

/-- A path relative to the installation root, as snapshots list them. -/
inductive Rel where
  | data (path : String)
  | config
  deriving DecidableEq

/-- The files under `data/`, by path and content. -/
abbrev Files := Table String String

/-- A directory with the layout of a snapshot. -/
structure Tree where
  data : Files
  config : Option String

namespace Tree

def empty : Tree := ⟨∅, none⟩

def get (t : Tree) : Rel → Option String
  | .data p => t.data.get p
  | .config => t.config

def put (t : Tree) (content : String) : Rel → Tree
  | .data p => { t with data := t.data.set p content }
  | .config => { t with config := some content }

/-- The files of the tree. -/
def paths (t : Tree) : List Rel :=
  t.data.keys.map .data ++ if t.config.isSome then [.config] else []

theorem get_put (t : Tree) (content : String) (r r' : Rel) :
    (t.put content r).get r' = if r' = r then some content else t.get r' := by
  cases r <;> cases r' <;> simp [put, get, Table.get_set]

theorem mem_paths {t : Tree} {r : Rel} : r ∈ t.paths ↔ (t.get r).isSome := by
  cases r with
  | data p =>
    have hkeys : p ∈ t.data.keys ↔ (t.data.get p).isSome := by
      rw [← AList.mem_keys]
      exact AList.lookup_isSome.symm
    simp only [paths, get, List.mem_append, List.mem_map, Rel.data.injEq, exists_eq_right, hkeys]
    split <;> simp
  | config =>
    cases hc : t.config <;> simp [paths, get, hc]

end Tree

structure SnapshotFile where
  path : Rel
  size : Nat
  sha256 : String
  deriving DecidableEq

structure SnapshotManifest where
  updateId : String
  files : List SnapshotFile
  fileCount : Nat
  totalBytes : Nat
  deriving DecidableEq

/-- `backups/<id>/`: the copied files, and the manifest once it is written. -/
structure Snapshot where
  tree : Tree
  manifest : Option SnapshotManifest

/-- What a restore moved out of the way. -/
inductive Quarantined where
  | data (files : Files)
  | config (content : String)

inductive Event where
  /-- The journal file was replaced. -/
  | journal (old new : UpdateJournal)
  /-- `current.json` was replaced. -/
  | pointer (version : String)
  /-- A restore moved live files out or in; `alive` says that a candidate was still running. -/
  | overwrites (alive : Bool)
  /-- `snapshot::restore` succeeded. -/
  | restored
  /-- The candidate took up work: `activate` accepted, or `commit` in portable mode. -/
  | opened
  /-- A recovery made its closing journal write, from `old` to `new`: whether the files of the
      snapshot were in place, and whether the write landed. -/
  | finished (old new : UpdateState) (inPlace landed : Bool)
  deriving DecidableEq

structure World where
  journal : UpdateJournal
  current : Option CurrentState
  data : Option Files
  config : Option String
  backups : Table String Snapshot
  quarantine : List Quarantined
  candidate : Option ChildInfo
  log : List Event

/-- What a candidate shows of itself over HTTP. -/
structure Observed where
  version : Option String
  bootId : Option String
  schema : Option Nat

/-- One answer of the environment: whether the step succeeds, what the candidate did since the
    last step, and what the processes and the HTTP requests involved say. -/
structure Answer where
  ok : Bool
  code : String
  text : String
  exits : Bool
  writes : Option Files
  status : Option Nat
  gated : Bool
  accepted : Bool
  observed : Observed
  pid : Nat
  exe : String
  count : Nat

/-- A step that succeeds, with nothing else to tell. -/
def Answer.served : Answer :=
  ⟨true, "", "", false, none, some 200, false, false, ⟨none, none, none⟩, 0, "", 0⟩

def Answer.denied : Answer := { Answer.served with ok := false, status := none }

namespace World

/-- The live content of a file. -/
def live (w : World) : Rel → Option String
  | .data p => w.data.bind (·.get p)
  | .config => w.config

def emit (w : World) (e : Event) : World := { w with log := w.log ++ [e] }

def writeJournal (w : World) (j : UpdateJournal) : World :=
  { w with journal := j, log := w.log ++ [.journal w.journal j] }

def writeCurrent (w : World) (c : CurrentState) : World :=
  { w with current := some c, log := w.log ++ [.pointer c.current] }

/-- What the candidate does on its own before the next step. -/
def happen (w : World) (e : Answer) : World :=
  match w.candidate with
  | none => w
  | some _ => { w with
      data := e.writes <|> w.data
      candidate := if e.exits then none else w.candidate }

/-- The files of the journal's snapshot are where a restore would have put them. -/
def inPlace (w : World) : Bool :=
  match w.journal.snapshot.bind (w.backups.get ·.id) with
  | none => true
  | some snap => (snap.tree.data.isEmpty || w.data.isSome) &&
      (snap.tree.config.isNone || w.config.isSome)

@[simp]
theorem happen_journal (w : World) (e : Answer) : (w.happen e).journal = w.journal := by
  unfold happen
  split <;> rfl

@[simp]
theorem happen_current (w : World) (e : Answer) : (w.happen e).current = w.current := by
  unfold happen
  split <;> rfl

@[simp]
theorem happen_backups (w : World) (e : Answer) : (w.happen e).backups = w.backups := by
  unfold happen
  split <;> rfl

@[simp]
theorem happen_config (w : World) (e : Answer) : (w.happen e).config = w.config := by
  unfold happen
  split <;> rfl

@[simp]
theorem happen_log (w : World) (e : Answer) : (w.happen e).log = w.log := by
  unfold happen
  split <;> rfl

theorem happen_of_none {w : World} (h : w.candidate = none) (e : Answer) : w.happen e = w := by
  unfold happen
  rw [h]

end World

/-! ### Effects -/

abbrev Action (α : Type) := Prog Answer World α

/-- An effect, after whatever the candidate did before it. -/
def act {α : Type} (f : Answer → World → α × World) : Action α :=
  Prog.effect fun e w => f e (w.happen e)

/-- A step outside the modelled state. -/
def ask : Action Answer := act fun e w => (e, w)

/-- A step outside the modelled state that can fail. -/
def outside : Action (Except BusinessError Answer) := act fun e w =>
  (if e.ok then .ok e else .error ⟨e.code, e.text⟩, w)

def ioError (text : String) (e : Answer) : BusinessError :=
  ⟨Codes.updaterUnavailable, text ++ e.text⟩

def loadJournal : Action (Except BusinessError UpdateJournal) := act fun e w =>
  (if e.ok then .ok w.journal else .error (ioError "读取 journal 失败: " e), w)

def writeJournal (j : UpdateJournal) : Action (Except BusinessError Unit) := act fun e w =>
  if e.ok then (.ok (), w.writeJournal j) else (.error (ioError "写 journal 失败: " e), w)

/-- Read the journal, change it, write it back. -/
def mutateJournal (f : UpdateJournal → UpdateJournal) :
    Action (Except BusinessError UpdateJournal) :=
  loadJournal.andThen fun j => (writeJournal (f j)).andThen fun _ => pure (.ok (f j))

/-- `load_current`: `none` when the file cannot be read. -/
def loadCurrent : Action (Except String (Option CurrentState)) := act fun e w =>
  (if e.ok then .ok w.current else .error e.text, w)

def writeCurrent (c : CurrentState) : Action (Except String Unit) := act fun e w =>
  if e.ok then (.ok (), w.writeCurrent c) else (.error e.text, w)

end Gamer.Updater
