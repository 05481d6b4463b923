import Gamer.Updater.Recovery

/-! The update transaction on its own: which effects an installation, a rollback and a recovery may
    have, in which state of the journal, and how far each is with its work.

        installing ──rolls──▶ rolling begun ▶ bare ▶ dataIn ▶ filled ▶ whole ▶ pointed
             │                     ▲                                              │
             └──── restarts ──▶ settling ◀──────────── rolledBack ────────────────┘

    A crash is a restart, from any phase. -/

namespace Gamer.Updater.Transaction
open Gamer.Lib

/-- How far a rollback is with the live files and the pointer. -/
inductive Swap where
  | begun | bare | dataIn | filled | whole | pointed
  deriving DecidableEq

inductive Phase where
  | installing
  | rolling (swap : Swap)
  | settling
  deriving DecidableEq

/-- The live files are still those of the old version, and nothing restores them. -/
def early : UpdateState → Bool
  | .checking | .downloading | .verifying | .staged | .waitingIdle | .draining | .stopped
  | .snapshotting => true
  | _ => false

/-- The pointer may be at the new version, and its candidate may own the live files. -/
def inFlight : UpdateState → Bool
  | .switched | .candidateStarting | .candidateReady | .activating => true
  | _ => false

/-- What a rollback reads of a journal, besides its state. -/
def Same (j k : UpdateJournal) : Prop :=
  k.snapshot = j.snapshot ∧ k.rollbackTarget = j.rollbackTarget

/-- The backup and its manifest hold exactly these files. -/
def Complete (w : World) (id : String) (content : Rel → Option String) : Prop :=
  ∃ snap m, w.backups.get id = some snap ∧ snap.manifest = some m ∧
    ∀ r, snap.tree.get r = content r ∧ (r ∈ m.files.map (·.path) ↔ (content r).isSome)

/-- The stage holds what the manifest of the backup lists. -/
def Staged (w : World) (id : String) (stage : Tree) : Prop :=
  ∃ snap m, w.backups.get id = some snap ∧ snap.manifest = some m ∧
    ∀ r, stage.get r = if r ∈ m.files.map (·.path) then snap.tree.get r else none

/-- The closing writes of a recovery that needed no rollback. -/
inductive Closes : UpdateState → UpdateState → Prop where
  | staged {old : UpdateState} (h : early old) : Closes old .staged
  | early {old : UpdateState} (h : early old) : Closes old .idle
  | untouched {old : UpdateState} (h : old = .snapshotVerified ∨ old = .migrating) :
      Closes old .idle
  | committed {old : UpdateState} (h : old = .committed ∨ old = .cleaning) : Closes old .idle

/-- What the installation is given. -/
structure Setting where
  target : String
  portable : Bool
  /-- No candidate runs before the installation starts its own. -/
  quiet : Prop

/-- STEP: one effect of the transaction. -/
inductive Step (c : Setting) : Phase × World → Phase × World → Prop where
  | happens (ph : Phase) (w : World) (e : Answer) : Step c (ph, w) (ph, w.happen e)
  | restarts (ph : Phase) (w : World) : Step c (ph, w) (.settling, w)
  | notes (ph : Phase) {w : World} {j : UpdateJournal} (state : j.state = w.journal.state)
      (same : Same w.journal j) : Step c (ph, w) (ph, w.writeJournal j)
  | stores (ph : Phase) {w : World} (backups : Table String Snapshot)
      (state : w.journal.state = .snapshotting) : Step c (ph, w) (ph, { w with backups := backups })
  -- the installation
  | prepares {w : World} {j : UpdateJournal} (old : early w.journal.state)
      (new : early j.state ∨ j.state = .idle) (same : Same w.journal j) :
      Step c (.installing, w) (.installing, w.writeJournal j)
  | verifies {w : World} {j : UpdateJournal} {info : SnapshotInfo}
      (old : w.journal.state = .snapshotting) (new : j.state = .snapshotVerified)
      (snapshot : j.snapshot = some info) (target : j.rollbackTarget = w.journal.rollbackTarget)
      (kept : c.quiet → Complete w info.id w.live) :
      Step c (.installing, w) (.installing, w.writeJournal j)
  | migrates {w : World} {j : UpdateJournal} (old : w.journal.state = .snapshotVerified)
      (new : j.state = .migrating) (same : Same w.journal j) :
      Step c (.installing, w) (.installing, w.writeJournal j)
  | givesUp {w : World} {j : UpdateJournal} (old : w.journal.state = .snapshotVerified)
      (new : j.state = .idle) : Step c (.installing, w) (.installing, w.writeJournal j)
  | switches {w : World} {j : UpdateJournal} (old : w.journal.state = .migrating)
      (new : j.state = .switched) (same : Same w.journal j) :
      Step c (.installing, w) (.installing, w.writeJournal j)
  | points {w : World} {cur : CurrentState} (state : w.journal.state = .switched)
      (target : cur.current = c.target) : Step c (.installing, w) (.installing, w.writeCurrent cur)
  | spawns {w : World} (child : ChildInfo) (state : w.journal.state = .switched) :
      Step c (.installing, w) (.installing, { w with candidate := some child })
  | advances {w : World} {j : UpdateJournal} (old : inFlight w.journal.state)
      (new : inFlight j.state) (same : Same w.journal j) :
      Step c (.installing, w) (.installing, w.writeJournal j)
  | opens {w : World}
      (state : if c.portable then w.journal.state = .committed else inFlight w.journal.state) :
      Step c (.installing, w) (.installing, w.emit .opened)
  | commits {w : World} {j : UpdateJournal} (old : w.journal.state = .activating)
      (new : j.state = .committed) (pointer : w.current.map (·.current) = some c.target) :
      Step c (.installing, w) (.installing, w.writeJournal j)
  | cleans {w : World} {j : UpdateJournal}
      (old : w.journal.state = .committed ∨ w.journal.state = .cleaning)
      (new : j.state = .cleaning ∨ j.state = .idle) :
      Step c (.installing, w) (.installing, w.writeJournal j)
  -- the rollback
  | rolls {ph : Phase} {w : World} (start : ph = .installing ∨ ph = .settling)
      (state : Engine.rollbackable w.journal.state) : Step c (ph, w) (.rolling .begun, w)
  | takesData {w : World} {files : Files} (state : Engine.restoresFrom w.journal.state)
      (data : w.data = some files) :
      Step c (.rolling .begun, w) (.rolling .begun, w.quarantineData files)
  | takesConfig {w : World} {content : String} (state : Engine.restoresFrom w.journal.state)
      (config : w.config = some content) :
      Step c (.rolling .begun, w) (.rolling .bare, w.quarantineConfig content)
  | lacksConfig {w : World} (state : Engine.restoresFrom w.journal.state)
      (config : w.config = none) : Step c (.rolling .begun, w) (.rolling .bare, w)
  | putsData {w : World} {info : SnapshotInfo} {stage : Tree}
      (state : Engine.restoresFrom w.journal.state) (data : w.data = none)
      (snapshot : w.journal.snapshot = some info) (staged : Staged w info.id stage) :
      Step c (.rolling .bare, w) (.rolling .dataIn, w.restoreData stage.data)
  | putsConfig {w : World} {info : SnapshotInfo} {stage : Tree} {content : String}
      (state : Engine.restoresFrom w.journal.state) (config : stage.config = some content) (snapshot : w.journal.snapshot = some info)
      (staged : Staged w info.id stage) :
      Step c (.rolling .dataIn, w) (.rolling .filled, w.restoreConfig content)
  | leavesConfig {w : World} {info : SnapshotInfo} {stage : Tree}
      (state : Engine.restoresFrom w.journal.state) (config : stage.config = none)
      (snapshot : w.journal.snapshot = some info) (staged : Staged w info.id stage) :
      Step c (.rolling .dataIn, w) (.rolling .filled, w)
  | restores {w : World} : Step c (.rolling .filled, w) (.rolling .whole, w.emit .restored)
  | skips {w : World} (state : Engine.restoresFrom w.journal.state = false) :
      Step c (.rolling .begun, w) (.rolling .whole, w)
  | pointsBack {w : World} {cur : CurrentState}
      (target : w.journal.rollbackTarget = some cur.current) :
      Step c (.rolling .whole, w) (.rolling .pointed, w.writeCurrent cur)
  | rolledBack {w : World} {j : UpdateJournal} (new : j.state = .idle) :
      Step c (.rolling .pointed, w) (.settling, w.writeJournal j)
  -- the ends
  | givesIn {ph : Phase} {w : World} {j : UpdateJournal} (new : j.state = .manualRecoveryRequired) :
      Step c (ph, w) (.settling, w.writeJournal j)
  | closesManual {ph : Phase} {w : World} {j : UpdateJournal} {landed : Bool}
      (new : j.state = .manualRecoveryRequired) : Step c (ph, w) (.settling, w.close j landed)
  | closes {w : World} {j : UpdateJournal} {landed : Bool} (edge : Closes w.journal.state j.state)
      (same : Same w.journal j) : Step c (.settling, w) (.settling, w.close j landed)

/-- The log only grows. -/
theorem Step.history {c : Setting} {x y : Phase × World} (h : Step c x y) :
    ∃ new, y.2.log = x.2.log ++ new := by
  have hclose : ∀ (w : World) (j : UpdateJournal) (landed : Bool),
      ∃ new, (w.close j landed).log = w.log ++ new := by
    intro w j landed
    cases landed
    · exact ⟨_, rfl⟩
    · exact ⟨_, List.append_assoc ..⟩
  cases h with
  | happens ph w e => exact ⟨[], by simp⟩
  | restarts ph w => exact ⟨[], by simp⟩
  | closesManual hnew => exact hclose ..
  | closes hedge hsame => exact hclose ..
  | _ => first | exact ⟨_, rfl⟩ | exact ⟨[], (List.append_nil _).symm⟩

end Gamer.Updater.Transaction
