import Gamer.Updater.Refinement.Recovery

/-! A crash in the middle of an update leaves, after the next recovery, the old version as it was,
    the new version as committed, or a journal that asks for help: as long as no recovery closes a
    half-done swap as untouched, and no restore runs into a living candidate. -/

namespace Gamer.Updater
open Gamer.Lib Gamer.Lib.Prog

namespace Transaction

section
variable (source target : String) (o : Rel → Option String)

/-! ### What holds in each state of the journal -/

/-- The pointer is at the old version and the files are those it left. -/
def Untouched (w : World) : Prop :=
  w.current.map (·.current) = some source ∧ (∀ r, w.live r = o r) ∧ w.candidate = none

/-- The pointer is at the new version, which was committed. -/
def Done (w : World) : Prop :=
  w.current.map (·.current) = some target ∧
    ∃ old new, .journal old new ∈ w.log ∧ new.state = .committed

/-- The snapshot of the journal holds the files. -/
def Kept (w : World) : Prop :=
  ∃ info, w.journal.snapshot = some info ∧ Complete w info.id o

/-- The files were not changed, but a rollback may have moved them out. -/
def Parked (w : World) : Prop :=
  w.current.map (·.current) = some source ∧ w.candidate = none ∧
    ((∀ p, w.live (.data p) = o (.data p)) ∨ w.data = none) ∧
    (w.config = o .config ∨ w.config = none)

def Targets (w : World) : Prop := w.journal.rollbackTarget = some source

def Facts (s : UpdateState) (w : World) : Prop :=
  match s with
  | .manualRecoveryRequired => True
  | .idle => Untouched source o w ∨ Done target w
  | .committed | .cleaning => Done target w
  | .snapshotVerified | .migrating => Targets source w ∧ Kept o w ∧ Parked source o w
  | .switched | .candidateStarting | .candidateReady | .activating =>
    Targets source w ∧ Kept o w
  | .checking | .downloading | .verifying | .staged | .waitingIdle | .draining | .stopped
  | .snapshotting => Targets source w ∧ Untouched source o w

/-- How far the rollback has come. -/
def Swapped (w : World) : Swap → Prop
  | .begun => True
  | .bare => w.config = none
  | .dataIn => w.candidate = none ∧ (∀ p, w.live (.data p) = o (.data p)) ∧ w.config = none
  | .filled | .whole => w.candidate = none ∧ ∀ r, w.live r = o r
  | .pointed => Untouched source o w

def PhaseFacts (w : World) : Phase → Prop
  | .installing =>
    w.journal.state = .snapshotVerified ∨ w.journal.state = .migrating → ∀ r, w.live r = o r
  | .rolling swap => Engine.rollbackable w.journal.state ∧ Swapped source o w swap
  | .settling => True

end

section
variable {source target : String} {o : Rel → Option String} {s : UpdateState} {w w' : World}

theorem facts_early (hs : early s) :
    Facts source target o s w ↔ Targets source w ∧ Untouched source o w := by
  cases s <;> first | exact Iff.rfl | exact absurd hs (by decide)

theorem facts_inFlight (hs : inFlight s) :
    Facts source target o s w ↔ Targets source w ∧ Kept o w := by
  cases s <;> first | exact Iff.rfl | exact absurd hs (by decide)

theorem facts_parked (hs : s = .snapshotVerified ∨ s = .migrating) :
    Facts source target o s w ↔ Targets source w ∧ Kept o w ∧ Parked source o w := by
  rcases hs with rfl | rfl <;> exact Iff.rfl

theorem facts_committed (hs : s = .committed ∨ s = .cleaning) :
    Facts source target o s w ↔ Done target w := by
  rcases hs with rfl | rfl <;> exact Iff.rfl

/-- A rollback that restores nothing is one of a transaction that touched nothing. -/
theorem early_of_skipped (hroll : Engine.rollbackable s) (hs : Engine.restoresFrom s = false) :
    early s := by
  cases s <;> first | rfl | exact absurd hroll (by decide) | exact absurd hs (by decide)

/-- FRAME: what each part keeps, the facts keep. -/
theorem Facts.mono (h : Facts source target o s w)
    (htargets : Targets source w → Targets source w')
    (huntouched : Untouched source o w → Untouched source o w')
    (hkept : Kept o w → Kept o w') (hparked : Parked source o w → Parked source o w')
    (hdone : Done target w → Done target w') : Facts source target o s w' := by
  cases s
  case manualRecoveryRequired => trivial
  case idle => exact h.imp huntouched hdone
  case committed => exact hdone h
  case cleaning => exact hdone h
  case snapshotVerified => exact ⟨htargets h.1, hkept h.2.1, hparked h.2.2⟩
  case migrating => exact ⟨htargets h.1, hkept h.2.1, hparked h.2.2⟩
  case switched => exact ⟨htargets h.1, hkept h.2⟩
  case candidateStarting => exact ⟨htargets h.1, hkept h.2⟩
  case candidateReady => exact ⟨htargets h.1, hkept h.2⟩
  case activating => exact ⟨htargets h.1, hkept h.2⟩
  all_goals exact ⟨htargets h.1, huntouched h.2⟩

/-- A rollback that restores works on a snapshot, and the candidate may own the files unless the
    journal is still before the switch. -/
theorem facts_restoring (h : Facts source target o s w) (hs : Engine.restoresFrom s)
    (hroll : Engine.rollbackable s) :
    Targets source w ∧ Kept o w ∧
      (inFlight s ∨ (s = .snapshotVerified ∨ s = .migrating) ∧ Parked source o w) := by
  cases s <;> first
    | exact absurd hs (by decide)
    | exact absurd hroll (by decide)
    | exact ⟨h.1, h.2.1, .inr ⟨by decide, h.2.2⟩⟩
    | exact ⟨h.1, h.2, .inl rfl⟩

/-! ### Runs in which nothing interferes -/

end

end Transaction

/-- No restore moves files under a running candidate, and no recovery closes a transaction as
    untouched while files of its snapshot are out of place. -/
def Event.orderly : Event → Bool
  | .overwrites alive => !alive
  | .finished .snapshotVerified .idle inPlace true | .finished .migrating .idle inPlace true =>
    inPlace
  | _ => true

def Orderly (log : List Event) : Prop := ∀ e ∈ log, e.orderly

instance (log : List Event) : Decidable (Orderly log) :=
  inferInstanceAs (Decidable (∀ e ∈ log, e.orderly = true))

theorem Orderly.before {log log' : List Event} (h : Orderly (log ++ log')) : Orderly log :=
  fun e he => h e (List.mem_append_left _ he)

theorem Orderly.dead {w : World} (h : Orderly (w.log ++ [.overwrites w.alive])) :
    w.candidate = none := by
  have hlast : (!w.alive) = true := h (.overwrites w.alive) List.mem_concat_self
  simpa [World.alive] using hlast

theorem Orderly.inPlace {log : List Event} {old : UpdateState} {inPlace : Bool} (h : Orderly log)
    (hmem : .finished old .idle inPlace true ∈ log)
    (hold : old = .snapshotVerified ∨ old = .migrating) : inPlace := by
  rcases hold with rfl | rfl <;> exact h _ hmem

namespace Transaction

section
variable {source target : String} {o : Rel → Option String} {s : UpdateState} {w w' : World}

/-- The invariant: the facts of the state and of the phase. -/
def Inv (source target : String) (o : Rel → Option String) (x : Phase × World) : Prop :=
  Facts source target o x.2.journal.state x.2 ∧ PhaseFacts source o x.2 x.1

/-- STEP: what a candidate does changes nothing where none may run. -/
theorem Inv.happens {ph : Phase} (h : Inv source target o (ph, w)) (e : Answer) :
    Inv source target o (ph, w.happen e) := by
  cases hc : w.candidate with
  | none => rwa [World.happen_of_none hc]
  | some child =>
    have hrunning : w.candidate ≠ none := by simp [hc]
    obtain ⟨hfacts, hphase⟩ := h
    refine ⟨?_, ?_⟩
    · rw [World.happen_journal]
      refine hfacts.mono (fun h => by simpa [Targets] using h) (fun h => absurd h.2.2 hrunning)
        (fun h => by simpa [Kept, Complete] using h) (fun h => absurd h.2.1 hrunning)
        (fun h => by simpa [Done] using h)
    · cases ph with
      | settling => trivial
      | installing =>
        intro hs
        simp only [World.happen_journal] at hs
        exact absurd ((facts_parked hs).mp hfacts).2.2.2.1 hrunning
      | rolling swap =>
        refine ⟨by simpa using hphase.1, ?_⟩
        cases swap
        case begun => trivial
        case bare => exact (World.happen_config w e).trans hphase.2
        case dataIn => exact absurd hphase.2.1 hrunning
        case filled => exact absurd hphase.2.1 hrunning
        case whole => exact absurd hphase.2.1 hrunning
        case pointed => exact absurd hphase.2.2.2 hrunning

/-- STEP: a note changes neither the state nor what a rollback reads. -/
theorem Inv.notes {ph : Phase} {j : UpdateJournal} (h : Inv source target o (ph, w))
    (hstate : j.state = w.journal.state) (hsame : Same w.journal j) :
    Inv source target o (ph, w.writeJournal j) := by
  obtain ⟨hfacts, hphase⟩ := h
  refine ⟨?_, ?_⟩
  · show Facts source target o j.state (w.writeJournal j)
    rw [hstate]
    refine hfacts.mono (fun h => hsame.2.trans h) (fun h => h) ?_ (fun h => h) ?_
    · rintro ⟨info, hinfo, hcomplete⟩
      exact ⟨info, hsame.1.trans hinfo, hcomplete⟩
    · rintro ⟨hpointer, old, new, hmem, hnew⟩
      exact ⟨hpointer, old, new, List.mem_append_left _ hmem, hnew⟩
  · cases ph with
    | settling => trivial
    | installing => exact fun hs => hphase (hstate ▸ hs)
    | rolling swap =>
      refine ⟨hstate ▸ hphase.1, ?_⟩
      cases swap <;> exact hphase.2

/-- STEP: data out of place, or the configuration, is what a parked transaction allows for. -/
theorem Inv.moves {swap swap' : Swap} (h : Inv source target o (.rolling swap, w))
    (hs : Engine.restoresFrom w.journal.state) (hjournal : w'.journal = w.journal)
    (hbackups : w'.backups = w.backups)
    (hparked : Parked source o w → Parked source o w') (hswap : Swapped source o w' swap') :
    Inv source target o (.rolling swap', w') := by
  obtain ⟨hfacts, hroll, -⟩ := h
  obtain ⟨htargets, hkept, hplace⟩ := facts_restoring hfacts hs hroll
  have htargets' : Targets source w' := by rwa [Targets, hjournal]
  have hkept' : Kept o w' := by simpa [Kept, Complete, hjournal, hbackups] using hkept
  refine ⟨?_, hjournal ▸ hroll, hswap⟩
  show Facts source target o w'.journal.state w'
  rw [hjournal]
  rcases hplace with hflight | hp
  · exact (facts_inFlight hflight).mpr ⟨htargets', hkept'⟩
  · exact (facts_parked hp.1).mpr ⟨htargets', hkept', hparked hp.2⟩

/-- What is staged from a complete snapshot is the files it was taken of. -/
theorem Staged.get_eq {info : SnapshotInfo} {stage : Tree} (hkept : Kept o w)
    (hinfo : w.journal.snapshot = some info) (hstaged : Staged w info.id stage) (r : Rel) :
    stage.get r = o r := by
  obtain ⟨info', hinfo', snap, m, hsnap, hm, hcomplete⟩ := hkept
  cases hinfo.symm.trans hinfo'
  obtain ⟨snap', m', hsnap', hm', hget⟩ := hstaged
  cases hsnap.symm.trans hsnap'
  cases hm.symm.trans hm'
  rw [hget]
  split
  · exact (hcomplete r).1
  · next hr => exact (Option.not_isSome_iff_eq_none.mp (mt (hcomplete r).2.mpr hr)).symm

/-- STEP: the moves of a swap. -/
theorem Inv.takesData {files : Files} (h : Inv source target o (.rolling .begun, w))
    (hs : Engine.restoresFrom w.journal.state) :
    Inv source target o (.rolling .begun, w.quarantineData files) :=
  h.moves hs rfl rfl (fun hp => ⟨hp.1, hp.2.1, .inr rfl, hp.2.2.2⟩) trivial

theorem Inv.takesConfig {content : String} (h : Inv source target o (.rolling .begun, w))
    (hs : Engine.restoresFrom w.journal.state) :
    Inv source target o (.rolling .bare, w.quarantineConfig content) :=
  h.moves hs rfl rfl (fun hp => ⟨hp.1, hp.2.1, hp.2.2.1, .inr rfl⟩) rfl

theorem Inv.putsData {info : SnapshotInfo} {stage : Tree}
    (h : Inv source target o (.rolling .bare, w)) (hs : Engine.restoresFrom w.journal.state)
    (hinfo : w.journal.snapshot = some info) (hstaged : Staged w info.id stage)
    (hdead : w.candidate = none) :
    Inv source target o (.rolling .dataIn, w.restoreData stage.data) := by
  have hkept := (facts_restoring h.1 hs h.2.1).2.1
  have hdata : ∀ p, (w.restoreData stage.data).live (.data p) = o (.data p) :=
    fun p => hstaged.get_eq hkept hinfo (.data p)
  exact h.moves hs rfl rfl (fun hp => ⟨hp.1, hp.2.1, .inl hdata, hp.2.2.2⟩)
    ⟨hdead, hdata, h.2.2⟩

theorem Inv.putsConfig {info : SnapshotInfo} {stage : Tree} {content : String}
    (h : Inv source target o (.rolling .dataIn, w)) (hs : Engine.restoresFrom w.journal.state)
    (hconfig : stage.config = some content) (hinfo : w.journal.snapshot = some info)
    (hstaged : Staged w info.id stage) :
    Inv source target o (.rolling .filled, w.restoreConfig content) := by
  have hkept := (facts_restoring h.1 hs h.2.1).2.1
  obtain ⟨hdead, hdata, -⟩ := h.2.2
  have hcontent : some content = o .config := hconfig ▸ hstaged.get_eq hkept hinfo .config
  have hfiles : ∀ r, (w.restoreConfig content).live r = o r := fun r => by
    cases r with
    | data p => exact hdata p
    | config => exact hcontent
  exact h.moves hs rfl rfl (fun hp => ⟨hp.1, hp.2.1, .inl hdata, .inl hcontent⟩)
    ⟨hdead, hfiles⟩

theorem Inv.leavesConfig {info : SnapshotInfo} {stage : Tree}
    (h : Inv source target o (.rolling .dataIn, w)) (hs : Engine.restoresFrom w.journal.state)
    (hconfig : stage.config = none) (hinfo : w.journal.snapshot = some info)
    (hstaged : Staged w info.id stage) : Inv source target o (.rolling .filled, w) := by
  have hkept := (facts_restoring h.1 hs h.2.1).2.1
  obtain ⟨hdead, hdata, hbare⟩ := h.2.2
  refine ⟨h.1, h.2.1, hdead, fun r => ?_⟩
  cases r with
  | data p => exact hdata p
  | config => exact hbare.trans (hconfig ▸ hstaged.get_eq hkept hinfo .config)

/-- What a restore needs to find is there, and it is what the snapshot holds. -/
theorem Parked.whole (h : Parked source o w) (hkept : Kept o w) (hplace : w.inPlace) (r : Rel) :
    w.live r = o r := by
  obtain ⟨info, hinfo, snap, m, hsnap, -, hcomplete⟩ := hkept
  simp only [World.inPlace, hinfo, Option.bind_some, hsnap, Bool.and_eq_true, Bool.or_eq_true,
    Option.isNone_iff_eq_none, Option.isSome_iff_ne_none] at hplace
  obtain ⟨hdata, hconfig⟩ := hplace
  cases r with
  | data p =>
    rcases h.2.2.1 with hlive | hnone
    · exact hlive p
    · have hempty : snap.tree.data.get p = none :=
        Table.get_eq_none_of_isEmpty (hdata.resolve_right fun h => h hnone) p
      have : o (.data p) = none := (hcomplete (.data p)).1 ▸ hempty
      rw [this]
      simp [World.live, hnone]
  | config =>
    rcases h.2.2.2 with hlive | hnone
    · exact hlive
    · have : o .config = none :=
        (hcomplete .config).1 ▸ hconfig.resolve_right fun h => h hnone
      rw [this]
      exact hnone

theorem Untouched.parked (h : Untouched source o w) : Parked source o w :=
  ⟨h.1, h.2.2, .inl fun p => h.2.1 (.data p), .inl (h.2.1 .config)⟩

theorem Done.close (h : Done target w) (j : UpdateJournal) (landed : Bool) :
    Done target (w.close j landed) := by
  obtain ⟨hpointer, old, new, hmem, hnew⟩ := h
  cases landed
  · exact ⟨hpointer, old, new, List.mem_append_left _ hmem, hnew⟩
  · exact ⟨hpointer, old, new, List.mem_append_left _ (List.mem_append_left _ hmem), hnew⟩

/-- STEP: a closing write that is lost leaves everything as it is. -/
theorem Facts.lost (h : Facts source target o w.journal.state w) (j : UpdateJournal) :
    Facts source target o (w.close j false).journal.state (w.close j false) :=
  h.mono (fun h => h) (fun h => h) (fun h => h) (fun h => h) fun h => h.close j false

theorem Inv.closesManual {ph : Phase} {j : UpdateJournal} {landed : Bool}
    (h : Inv source target o (ph, w)) (hnew : j.state = .manualRecoveryRequired) :
    Inv source target o (.settling, w.close j landed) := by
  refine ⟨?_, trivial⟩
  cases landed with
  | false => exact h.1.lost j
  | true =>
    show Facts source target o j.state (w.close j true)
    rw [hnew]
    trivial

/-- STEP: the closing write of a recovery without a rollback. -/
theorem Inv.closes {j : UpdateJournal} {landed : Bool} (h : Inv source target o (.settling, w))
    (hedge : Closes w.journal.state j.state) (hsame : Same w.journal j)
    (horderly : Orderly (w.close j landed).log) :
    Inv source target o (.settling, w.close j landed) := by
  obtain ⟨hfacts, -⟩ := h
  refine ⟨?_, trivial⟩
  cases landed with
  | false => exact hfacts.lost j
  | true =>
    show Facts source target o j.state (w.close j true)
    generalize hnew : j.state = new at hedge
    cases hedge with
    | staged hold => exact ⟨hsame.2.trans ((facts_early hold).mp hfacts).1,
        ((facts_early hold).mp hfacts).2⟩
    | early hold => exact .inl ((facts_early hold).mp hfacts).2
    | untouched hold =>
      obtain ⟨-, hkept, hparked⟩ := (facts_parked hold).mp hfacts
      have hplace : w.inPlace = true :=
        horderly.inPlace (by simp [World.close, World.emit, hnew]) hold
      exact .inl ⟨hparked.1, hparked.whole hkept hplace, hparked.2.1⟩
    | committed hold => exact .inr (((facts_committed hold).mp hfacts).close j true)

theorem Inv.flying (hs : inFlight w.journal.state) (htargets : Targets source w)
    (hkept : Kept o w) : Inv source target o (.installing, w) := by
  refine ⟨(facts_inFlight hs).mpr ⟨htargets, hkept⟩, fun hparked => ?_⟩
  rcases hparked with h | h <;> exact absurd (h ▸ hs) (by decide)

theorem Inv.done (hs : w.journal.state = .committed ∨ w.journal.state = .cleaning)
    (hdone : Done target w) : Inv source target o (.installing, w) := by
  refine ⟨(facts_committed hs).mpr hdone, fun hparked => ?_⟩
  rcases hs with hs | hs <;> rcases hparked with h | h <;> cases hs.symm.trans h

/-- STEP: the pointer goes back, and only a rollback that has nothing left to restore is there. -/
theorem Inv.pointsBack {cur : CurrentState} (h : Inv source target o (.rolling .whole, w))
    (htarget : w.journal.rollbackTarget = some cur.current) :
    Inv source target o (.rolling .pointed, w.writeCurrent cur) := by
  obtain ⟨hfacts, hroll, hdead, hfiles⟩ := h
  have htargets : Targets source w := by
    by_cases hs : Engine.restoresFrom w.journal.state
    · exact (facts_restoring hfacts hs hroll).1
    · exact ((facts_early (early_of_skipped hroll (Bool.eq_false_iff.mpr hs))).mp hfacts).1
  have hpointer : (some cur).map (·.current) = some source := htarget.symm.trans htargets
  have huntouched : Untouched source o (w.writeCurrent cur) := ⟨hpointer, hfiles, hdead⟩
  refine ⟨?_, hroll, huntouched⟩
  show Facts source target o w.journal.state (w.writeCurrent cur)
  by_cases hs : Engine.restoresFrom w.journal.state
  · obtain ⟨-, hkept, hplace⟩ := facts_restoring hfacts hs hroll
    rcases hplace with hflight | hparked
    · exact (facts_inFlight hflight).mpr ⟨htargets, hkept⟩
    · exact (facts_parked hparked.1).mpr ⟨htargets, hkept, huntouched.parked⟩
  · exact (facts_early (early_of_skipped hroll (Bool.eq_false_iff.mpr hs))).mpr
      ⟨htargets, huntouched⟩

/-- STEP: one effect of the transaction. -/
theorem Inv.step {c : Setting} (hc : c.quiet) (hsource : c.target = target)
    {x y : Phase × World} (h : Inv source target o x) (hstep : Step c x y)
    (horderly : Orderly y.2.log) : Inv source target o y := by
  cases hstep with
  | happens ph w e => exact h.happens e
  | restarts ph w => exact ⟨h.1, trivial⟩
  | notes ph hstate hsame => exact h.notes hstate hsame
  | @stores ph w backups hstate =>
    obtain ⟨htargets, huntouched⟩ := (facts_early (by rw [hstate]; rfl)).mp h.1
    refine ⟨(facts_early (by rw [hstate]; rfl)).mpr ⟨htargets, huntouched⟩, ?_⟩
    cases ph with
    | settling => trivial
    | installing => exact h.2
    | rolling swap => exact ⟨h.2.1, by cases swap <;> exact h.2.2⟩
  | @prepares w j hold hnew hsame =>
    obtain ⟨htargets, huntouched⟩ := (facts_early hold).mp h.1
    refine ⟨?_, fun _ => huntouched.2.1⟩
    show Facts source target o j.state (w.writeJournal j)
    rcases hnew with hnew | hnew
    · exact (facts_early hnew).mpr ⟨hsame.2.trans htargets, huntouched⟩
    · rw [hnew]
      exact .inl huntouched
  | @verifies w j info hold hnew hsnapshot htarget hkept =>
    obtain ⟨htargets, huntouched⟩ := (facts_early (by rw [hold]; rfl)).mp h.1
    refine ⟨?_, fun _ => huntouched.2.1⟩
    obtain ⟨snap, m, hsnap, hm, hcomplete⟩ := hkept hc
    have hfiles : Complete w info.id o :=
      ⟨snap, m, hsnap, hm, fun r => huntouched.2.1 r ▸ hcomplete r⟩
    exact (facts_parked (.inl hnew)).mpr
      ⟨htarget.trans htargets, ⟨info, hsnapshot, hfiles⟩, huntouched.parked⟩
  | @migrates w j hold hnew hsame =>
    obtain ⟨htargets, ⟨info, hinfo, hfiles⟩, hparked⟩ := (facts_parked (.inl hold)).mp h.1
    exact ⟨(facts_parked (.inr hnew)).mpr
      ⟨hsame.2.trans htargets, ⟨info, hsame.1.trans hinfo, hfiles⟩, hparked⟩,
      fun _ => h.2 (.inl hold)⟩
  | @givesUp w j hold hnew =>
    obtain ⟨-, -, hparked⟩ := (facts_parked (.inl hold)).mp h.1
    have hfiles := h.2 (.inl hold)
    refine ⟨?_, fun _ => hfiles⟩
    show Facts source target o j.state (w.writeJournal j)
    rw [hnew]
    exact .inl ⟨hparked.1, hfiles, hparked.2.1⟩
  | @switches w j hold hnew hsame =>
    obtain ⟨htargets, ⟨info, hinfo, hfiles⟩, -⟩ := (facts_parked (.inr hold)).mp h.1
    exact .flying (by show inFlight j.state; rw [hnew]; rfl) (hsame.2.trans htargets)
      ⟨info, hsame.1.trans hinfo, hfiles⟩
  | @points w cur hstate htarget =>
    have hs : inFlight w.journal.state := by rw [hstate]; rfl
    obtain ⟨htargets, hkept⟩ := (facts_inFlight hs).mp h.1
    exact .flying hs htargets hkept
  | @spawns w child hstate =>
    have hs : inFlight w.journal.state := by rw [hstate]; rfl
    obtain ⟨htargets, hkept⟩ := (facts_inFlight hs).mp h.1
    exact .flying hs htargets hkept
  | @advances w j hold hnew hsame =>
    obtain ⟨htargets, info, hinfo, hfiles⟩ := (facts_inFlight hold).mp h.1
    exact .flying hnew (hsame.2.trans htargets) ⟨info, hsame.1.trans hinfo, hfiles⟩
  | @opens w hstate =>
    have hdone : Done target w → Done target (w.emit .opened) := by
      rintro ⟨hpointer, old, new, hmem, hnew⟩
      exact ⟨hpointer, old, new, List.mem_append_left _ hmem, hnew⟩
    exact ⟨h.1.mono (fun h => h) (fun h => h) (fun h => h) (fun h => h) hdone, h.2⟩
  | @commits w j hold hnew hpointer =>
    exact .done (.inl hnew) ⟨hsource ▸ hpointer, w.journal, j, List.mem_concat_self, hnew⟩
  | @cleans w j hold hnew =>
    obtain ⟨hpointer, old, new, hmem, hcommitted⟩ := (facts_committed hold).mp h.1
    have hdone : Done target (w.writeJournal j) :=
      ⟨hpointer, old, new, List.mem_append_left _ hmem, hcommitted⟩
    rcases hnew with hnew | hnew
    · exact .done (.inr hnew) hdone
    · refine ⟨?_, fun hparked => ?_⟩
      · show Facts source target o j.state (w.writeJournal j)
        rw [hnew]
        exact .inr hdone
      · rcases hparked with hp | hp <;> cases hnew.symm.trans hp
  | @rolls ph w hstart hstate => exact ⟨h.1, hstate, trivial⟩
  | @takesData w files hstate hdata => exact h.takesData hstate
  | @takesConfig w content hstate hconfig => exact h.takesConfig hstate
  | @lacksConfig w hstate hconfig => exact ⟨h.1, h.2.1, hconfig⟩
  | @putsData w info stage hstate hdata hsnapshot hstaged =>
    exact h.putsData hstate hsnapshot hstaged horderly.dead
  | @putsConfig w info stage content hstate hconfig hsnapshot hstaged =>
    exact h.putsConfig hstate hconfig hsnapshot hstaged
  | @leavesConfig w info stage hstate hconfig hsnapshot hstaged =>
    exact h.leavesConfig hstate hconfig hsnapshot hstaged
  | @restores w =>
    have hdone : Done target w → Done target (w.emit .restored) := by
      rintro ⟨hpointer, old, new, hmem, hnew⟩
      exact ⟨hpointer, old, new, List.mem_append_left _ hmem, hnew⟩
    exact ⟨h.1.mono (fun h => h) (fun h => h) (fun h => h) (fun h => h) hdone, h.2⟩
  | @skips w hstate =>
    obtain ⟨-, huntouched⟩ := (facts_early (early_of_skipped h.2.1 hstate)).mp h.1
    exact ⟨h.1, h.2.1, huntouched.2.2, huntouched.2.1⟩
  | @pointsBack w cur htarget => exact h.pointsBack htarget
  | @rolledBack w j hnew =>
    refine ⟨?_, trivial⟩
    show Facts source target o j.state (w.writeJournal j)
    rw [hnew]
    exact .inl h.2.2
  | @givesIn ph w j hnew =>
    refine ⟨?_, trivial⟩
    show Facts source target o j.state (w.writeJournal j)
    rw [hnew]
    trivial
  | @closesManual ph w j landed hnew => exact h.closesManual hnew
  | @closes w j landed hedge hsame => exact h.closes hedge hsame horderly

/-- RUN: the invariant holds wherever the transaction leads, as long as nothing interfered. -/
theorem Inv.run {c : Setting} (hc : c.quiet) (htarget : c.target = target)
    {start : Phase × World} (h : Inv source target o start)
    {w : World} (hcovered : Covered c start w) (horderly : Orderly w.log) :
    Facts source target o w.journal.state w := by
  obtain ⟨ph, hleads⟩ := hcovered
  have hinv : Orderly w.log → Inv source target o (ph, w) := by
    refine hleads.invariant (I := fun x => Orderly x.2.log → Inv source target o x) ?_ fun _ => h
    intro x y hx hstep hy
    obtain ⟨new, hnew⟩ := hstep.history
    exact (hx (hnew ▸ hy).before).step hc htarget hstep hy
  exact (hinv horderly).1

end

end Transaction

/-! ### The result -/

/-- A staged candidate over a running old version. -/
structure Ready (source : String) (w : World) : Prop where
  state : w.journal.state = .staged
  target : w.journal.rollbackTarget = some source
  pointer : w.current.map (·.current) = some source
  candidate : w.candidate = none
  log : w.log = []

/-- The old version as it was, the new version as committed, or a journal that asks for help. -/
def Resolved (source target : String) (files : Rel → Option String) (w : World) : Prop :=
  (w.journal.state = .idle ∨ w.journal.state = .staged) ∧
      w.current.map (·.current) = some source ∧ (∀ r, w.live r = files r) ∨
    w.journal.state = .idle ∧ w.current.map (·.current) = some target ∧
      (∃ old new, .journal old new ∈ w.log ∧ new.state = .committed) ∨
    w.journal.state = .manualRecoveryRequired

/-- The closing write of a recovery failed, and it would have changed the state. -/
def Event.lost : Event → Bool
  | .finished old _ _ landed => !landed && old ≠ .staged
  | _ => false

def Landed (log : List Event) : Prop := ∀ e ∈ log.getLast?, e.lost = false

instance (log : List Event) : Decidable (Landed log) :=
  decidable_of_iff (log.getLast?.all (!·.lost)) (by simp [Landed, Option.all_eq_true])

open Transaction in
theorem Transaction.Facts.resolved {source target : String} {o : Rel → Option String} {w : World}
    (h : Facts source target o w.journal.state w) (hfinal : final w.journal.state) :
    Resolved source target o w := by
  generalize hs : w.journal.state = s at h hfinal
  cases s <;> first | exact absurd hfinal (by decide) | skip
  case idle =>
    rcases h with h | h
    · exact .inl ⟨.inl hs, h.1, h.2.1⟩
    · exact .inr (.inl ⟨hs, h⟩)
  case staged => exact .inl ⟨.inr hs, h.2.1, h.2.2.1⟩
  case manualRecoveryRequired => exact .inr (.inr hs)

open Transaction in
theorem Transaction.Settled.final {w : World} (h : Settled w) (hlanded : Landed w.log) :
    final w.journal.state := by
  rcases h with h | ⟨new, inPlace, hlast⟩
  · exact h
  · have hkept : Event.lost (.finished w.journal.state new inPlace false) = false :=
      hlanded _ hlast
    have hstaged : w.journal.state = .staged := by simpa [Event.lost] using hkept
    rw [hstaged]
    rfl

open Transaction in
/-- SAFETY: whatever fails in an installation and the recoveries after it, and wherever they are cut
    off, the next recovery that completes leaves one of the three situations. -/
theorem recovered_update_is_whole (g : Engine) (target : Checked) {source : String} {w : World}
    (hready : Ready source w) (tape : List Answer) (tapes : List (List Answer))
    (last : List Answer) :
    let crashed := startups g.sha tapes (g.installDownloaded target tape w).state
    let ended := recoverOnStartup g.sha last crashed
    ended.succeeded → Orderly ended.state.log → Landed ended.state.log →
      Resolved source target.version w.live ended.state := by
  intro crashed ended hsucceeded horderly hlanded
  let c : Setting := ⟨target.version, g.portable, True⟩
  have hinstall : Covered c (.installing, w) (g.installDownloaded target tape w).state :=
    (installDownloaded_rule rfl target rfl).state
      ⟨.refl _ _, hready.state, fun _ => ⟨hready.candidate, trivial⟩⟩ tape
  obtain ⟨ph, hcrashed⟩ := startups_covered g.sha tapes hinstall
  obtain ⟨report, hcovered, hsettled⟩ := (recoverOnStartup_rule g.sha).succeeded
    ⟨hcrashed.step (.restarts ph crashed), trivial⟩ hsucceeded
  have hstart : Inv source target.version w.live (.installing, w) := by
    refine ⟨(facts_early (by rw [hready.state]; rfl)).mpr
      ⟨hready.target, hready.pointer, fun _ => rfl, hready.candidate⟩, fun _ _ => rfl⟩
  exact (hstart.run trivial rfl hcovered horderly).resolved (hsettled.final hlanded)

namespace Sample

/-- A staged update from version 1 to version 2, over one data file and a configuration. -/
def staged : World where
  journal := { UpdateJournal.default with
    updateId := some "u1"
    state := .staged
    fromVersion := some "1"
    toVersion := some "2" }
  current := some ⟨"1", none⟩
  data := some (Table.set ∅ "settings" "old")
  config := some "port = 1"
  backups := ∅
  quarantine := []
  candidate := none
  log := []

theorem staged_ready : Ready "1" staged := ⟨rfl, rfl, rfl, rfl, rfl⟩

def engine : Engine := ⟨id, false, some "token", false⟩

/-- Steps that succeed, with a candidate that can be found again. -/
def served : Answer := { Answer.served with pid := 7, exe := "gamer", count := 1 }

def target : Checked := ⟨"2", none⟩

end Sample

open Sample in
/-- Cut off while the candidate is activating, and rolled back at the next startup. -/
theorem recovered_update_is_whole_rolled_back :
    Resolved "1" "2" staged.live
      (recoverOnStartup id (List.replicate 40 served)
        (engine.installDownloaded target (List.replicate 35 served) staged).state).state :=
  recovered_update_is_whole engine target staged_ready (List.replicate 35 served) []
    (List.replicate 40 served) (by decide +kernel) (by decide +kernel) (by decide +kernel)

open Sample in
/-- The switch fails, the rollback is cut off with `data/` and the configuration moved out, and the
    recovery closes the transaction as untouched: the files are gone. -/
theorem half_restored_update_is_closed :
    ¬ ∀ (g : Engine) (target : Checked) (source : String) (w : World), Ready source w →
      ∀ (tape : List Answer) (tapes : List (List Answer)) (last : List Answer),
        let crashed := startups g.sha tapes (g.installDownloaded target tape w).state
        let ended := recoverOnStartup g.sha last crashed
        ended.succeeded → Resolved source target.version w.live ended.state := by
  intro h
  have hend := h engine target "1" staged staged_ready
    (List.replicate 23 served ++ .denied :: List.replicate 12 served) [] (List.replicate 3 served)
    (by decide +kernel)
  rcases hend with ⟨-, -, hfiles⟩ | ⟨-, hpointer, -⟩ | hstate
  · exact absurd (hfiles .config) (by decide +kernel)
  · exact absurd hpointer (by decide +kernel)
  · exact absurd hstate (by decide +kernel)

end Gamer.Updater
