import Gamer.Updater.CrashAtomicity

/-! Work the candidate accepted is not undone once `committed` is in the journal. In portable mode
    the candidate is opened only after that; otherwise it is opened before, and a rollback in
    between restores the old files over its work. -/

namespace Gamer.Updater
open Gamer.Lib Gamer.Lib.Prog

/-- `committed` was written to the journal. -/
def Sealed (log : List Event) : Prop := ∃ old new, .journal old new ∈ log ∧ new.state = .committed

def Event.seals : Event → Bool
  | .journal _ new => new.state = .committed
  | _ => false

theorem sealed_iff_any {log : List Event} : log.any Event.seals ↔ Sealed log := by
  rw [List.any_eq_true]
  constructor
  · rintro ⟨e, hmem, he⟩
    cases e with
    | journal old new => exact ⟨old, new, hmem, of_decide_eq_true he⟩
    | _ => cases he
  · rintro ⟨old, new, hmem, hnew⟩
    exact ⟨.journal old new, hmem, decide_eq_true hnew⟩

instance (log : List Event) : Decidable (Sealed log) := decidable_of_iff _ sealed_iff_any

/-- Live files were moved by a restore. -/
def Overwritten (log : List Event) : Prop := ∃ alive, .overwrites alive ∈ log

/-- A restore moved live files after the candidate had taken up work. -/
def Undoes (log : List Event) : Prop :=
  ∃ alive, List.Sublist [.opened, .overwrites alive] log

namespace Transaction

/-- The states after `committed`. -/
def closed : UpdateState → Bool
  | .committed | .cleaning | .idle | .manualRecoveryRequired => true
  | _ => false

/-- The invariant: nothing is overwritten while installing or once the journal is sealed, and in
    portable mode the candidate is opened under the seal. -/
structure Guarded (portable : Bool) (x : Phase × World) : Prop where
  installing : x.1 = .installing → ¬ Overwritten x.2.log
  rolling : ∀ swap, x.1 = .rolling swap → Engine.rollbackable x.2.journal.state
  sealed : Sealed x.2.log → closed x.2.journal.state ∧ ¬ Overwritten x.2.log
  committed : x.2.journal.state = .committed ∨ x.2.journal.state = .cleaning → Sealed x.2.log
  opened : portable → .opened ∈ x.2.log → Sealed x.2.log

section
variable {c : Setting} {portable : Bool} {w : World} {j : UpdateJournal}

theorem sealed_concat {log : List Event} {e : Event} (h : Sealed log) : Sealed (log ++ [e]) := by
  obtain ⟨old, new, hmem, hnew⟩ := h
  exact ⟨old, new, List.mem_append_left _ hmem, hnew⟩

theorem sealed_concat_iff {log : List Event} {e : Event}
    (he : ∀ old new, e = .journal old new → new.state ≠ .committed) :
    Sealed (log ++ [e]) ↔ Sealed log := by
  refine ⟨?_, sealed_concat⟩
  rintro ⟨old, new, hmem, hnew⟩
  rcases List.mem_append.mp hmem with h | h
  · exact ⟨old, new, h, hnew⟩
  · exact absurd hnew (he old new (List.mem_singleton.mp h).symm)

theorem overwritten_concat_iff {log : List Event} {e : Event} (he : ∀ alive, e ≠ .overwrites alive) :
    Overwritten (log ++ [e]) ↔ Overwritten log := by
  refine ⟨?_, fun ⟨alive, hmem⟩ => ⟨alive, List.mem_append_left _ hmem⟩⟩
  rintro ⟨alive, hmem⟩
  rcases List.mem_append.mp hmem with h | h
  · exact ⟨alive, h⟩
  · exact absurd (List.mem_singleton.mp h).symm (he alive)

/-- STEP: a write to the journal, which seals it if it says `committed`. -/
theorem Guarded.writes {ph ph' : Phase} (h : Guarded portable (ph, w))
    (hclosed : Sealed w.log → closed j.state)
    (hcommit : j.state = .committed → ¬ Overwritten w.log)
    (hcleaning : j.state = .cleaning → Sealed w.log)
    (hinstalling : ph' = .installing → ph = .installing)
    (hrolling : ∀ swap, ph' = .rolling swap → Engine.rollbackable j.state) :
    Guarded portable (ph', w.writeJournal j) := by
  have hover : Overwritten (w.writeJournal j).log ↔ Overwritten w.log :=
    overwritten_concat_iff fun _ => by simp
  refine ⟨fun hph ho => h.installing (hinstalling hph) (hover.mp ho), hrolling, fun hs => ?_,
    fun hs => ?_, fun hp hmem => ?_⟩
  · by_cases hnew : j.state = .committed
    · refine ⟨?_, fun ho => hcommit hnew (hover.mp ho)⟩
      show closed j.state
      rw [hnew]
      rfl
    · have hs := (sealed_concat_iff fun old new he => by cases he; exact hnew).mp hs
      exact ⟨hclosed hs, fun ho => (h.sealed hs).2 (hover.mp ho)⟩
  · rcases hs with hs | hs
    · exact ⟨w.journal, j, List.mem_concat_self, hs⟩
    · exact sealed_concat (hcleaning hs)
  · have hmem : .opened ∈ w.log := by simpa [World.writeJournal] using hmem
    exact sealed_concat (h.opened hp hmem)

/-- STEP: a write over a journal that is not sealed, to a state that does not seal it. -/
theorem Guarded.advances {ph ph' : Phase} (h : Guarded portable (ph, w))
    (hold : closed w.journal.state = false) (hnew : j.state ≠ .committed ∧ j.state ≠ .cleaning)
    (hinstalling : ph' = .installing → ph = .installing)
    (hrolling : ∀ swap, ph' = .rolling swap → Engine.rollbackable j.state) :
    Guarded portable (ph', w.writeJournal j) := by
  have hopen : ¬ Sealed w.log := fun hs => by simp [(h.sealed hs).1] at hold
  exact h.writes (fun hs => absurd hs hopen) (fun hs => absurd hs hnew.1)
    (fun hs => absurd hs hnew.2) hinstalling hrolling

/-- STEP: a move of a rollback that the log records. -/
theorem Guarded.overwrites {swap swap' : Swap} {w' : World}
    (h : Guarded portable (.rolling swap, w)) (hjournal : w'.journal = w.journal)
    (hlog : w'.log = w.log ++ [.overwrites w.alive]) : Guarded portable (.rolling swap', w') := by
  have hroll := h.rolling swap rfl
  have hopen : ¬ Sealed w.log := by
    intro hs
    have hclosed := (h.sealed hs).1
    generalize w.journal.state = s at hroll hclosed
    cases s <;> first | exact absurd hroll (by decide) | exact absurd hclosed (by decide)
  have hkept : ¬ Sealed w'.log := by
    rw [hlog]
    exact fun hs => hopen ((sealed_concat_iff fun old new he => by cases he).mp hs)
  refine ⟨fun hph => ?_, fun _ _ => ?_, fun hs => absurd hs hkept, fun hs => ?_, fun hp hmem => ?_⟩
  · cases hph
  · exact hjournal.symm ▸ hroll
  · exact absurd (h.committed (hjournal ▸ hs)) hopen
  · have hmem : .opened ∈ w.log := by simpa [hlog] using hmem
    exact absurd (h.opened hp hmem) hopen

/-- STEP: an event that is neither a journal write, nor a move of a restore, nor the opening. -/
theorem Guarded.emits {ph ph' : Phase} {w' : World} {e : Event} (h : Guarded portable (ph, w))
    (hjournal : w'.journal = w.journal) (hlog : w'.log = w.log ++ [e])
    (hinstalling : ph' = .installing → ph = .installing)
    (hrolling : ∀ swap, ph' = .rolling swap → Engine.rollbackable w.journal.state)
    (hwrite : ∀ old new, e ≠ .journal old new) (hmove : ∀ alive, e ≠ .overwrites alive)
    (hopen : e = .opened → portable → w.journal.state = .committed) :
    Guarded portable (ph', w') := by
  have hsealed : Sealed w'.log ↔ Sealed w.log := by
    rw [hlog]
    exact sealed_concat_iff fun old new he => absurd he (hwrite old new)
  have hover : Overwritten w'.log ↔ Overwritten w.log := by
    rw [hlog]
    exact overwritten_concat_iff hmove
  refine ⟨fun hph ho => h.installing (hinstalling hph) (hover.mp ho),
    fun swap hph => hjournal.symm ▸ hrolling swap hph, fun hs => ?_, fun hs => ?_,
    fun hp hmem => ?_⟩
  · obtain ⟨hclosed, hno⟩ := h.sealed (hsealed.mp hs)
    exact ⟨hjournal.symm ▸ hclosed, fun ho => hno (hover.mp ho)⟩
  · exact hsealed.mpr (h.committed (hjournal ▸ hs))
  · rw [hlog] at hmem
    rcases List.mem_append.mp hmem with hmem | hmem
    · exact hsealed.mpr (h.opened hp hmem)
    · exact hsealed.mpr (h.committed (.inl (hopen (List.mem_singleton.mp hmem).symm hp)))

/-- STEP: nothing is recorded. -/
theorem Guarded.silent {ph ph' : Phase} {w' : World} (h : Guarded portable (ph, w))
    (hjournal : w'.journal = w.journal) (hlog : w'.log = w.log)
    (hinstalling : ph' = .installing → ph = .installing)
    (hrolling : ∀ swap, ph' = .rolling swap → Engine.rollbackable w.journal.state) :
    Guarded portable (ph', w') := by
  refine ⟨fun hph => hlog.symm ▸ h.installing (hinstalling hph),
    fun swap hph => hjournal.symm ▸ hrolling swap hph, fun hs => ?_, fun hs => ?_,
    fun hp hmem => ?_⟩
  · rw [hlog] at hs ⊢
    exact hjournal.symm ▸ h.sealed hs
  · exact hlog.symm ▸ h.committed (hjournal ▸ hs)
  · exact hlog.symm ▸ h.opened hp (hlog ▸ hmem)

theorem not_closed_of_early {s : UpdateState} (h : early s) : closed s = false := by
  cases s <;> first | rfl | exact absurd h (by decide)

theorem not_closed_of_inFlight {s : UpdateState} (h : inFlight s) : closed s = false := by
  cases s <;> first | rfl | exact absurd h (by decide)

theorem not_closed_of_rollbackable {s : UpdateState} (h : Engine.rollbackable s) :
    closed s = false := by
  cases s <;> first | rfl | exact absurd h (by decide)

theorem ne_of_not_closed {s : UpdateState} (h : closed s = false) :
    s ≠ .committed ∧ s ≠ .cleaning := by
  cases s <;> first | exact ⟨by decide, by decide⟩ | cases h

theorem Guarded.close {ph : Phase} {landed : Bool} (h : Guarded portable (ph, w))
    (hnew : closed j.state ∨ ¬ Sealed w.log)
    (hlast : j.state ≠ .committed ∧ j.state ≠ .cleaning) :
    Guarded portable (.settling, w.close j landed) := by
  cases landed with
  | false =>
    exact h.emits rfl rfl (fun hph => by cases hph) (fun _ hph => by cases hph)
      (fun _ _ => by simp) (fun _ => by simp) (fun he => by cases he)
  | true =>
    have hwritten : Guarded portable (.settling, w.writeJournal j) :=
      h.writes (fun hs => hnew.resolve_right (not_not.mpr hs)) (fun hs => absurd hs hlast.1)
        (fun hs => absurd hs hlast.2) (fun hph => by cases hph) (fun _ hph => by cases hph)
    have hlog : (w.close j true).log = (w.writeJournal j).log ++
        [.finished w.journal.state j.state w.inPlace true] := rfl
    exact hwritten.emits rfl hlog (fun hph => by cases hph) (fun _ hph => by cases hph)
      (fun _ _ => by simp) (fun _ => by simp) (fun he => by cases he)

/-- STEP: one effect of the transaction. -/
theorem Guarded.step {x y : Phase × World} (h : Guarded c.portable x) (hstep : Step c x y) :
    Guarded c.portable y := by
  have hsame : ∀ {ph : Phase}, ph = .installing → ph = .installing := fun h => h
  cases hstep with
  | happens ph w e => exact h.silent (by simp) (by simp) hsame fun swap hph => h.rolling swap hph
  | restarts ph w => exact h.silent rfl rfl (fun hph => by cases hph) (fun _ hph => by cases hph)
  | @notes ph w j hstate hsameTx =>
    refine h.writes (fun hs => ?_) (fun hs => ?_) (fun hs => ?_) hsame fun swap hph => ?_
    · rw [hstate]
      exact (h.sealed hs).1
    · exact (h.sealed (h.committed (.inl (hstate.symm.trans hs)))).2
    · exact h.committed (.inr (hstate.symm.trans hs))
    · rw [hstate]
      exact h.rolling swap hph
  | stores ph backups hstate => exact h.silent rfl rfl hsame fun swap hph => h.rolling swap hph
  | prepares hold hnew hsameTx =>
    refine h.advances (not_closed_of_early hold) ?_ hsame fun _ hph => by cases hph
    rcases hnew with hnew | hnew
    · exact ne_of_not_closed (not_closed_of_early hnew)
    · exact ⟨by simp [hnew], by simp [hnew]⟩
  | verifies hold hnew hsnapshot htarget hkept =>
    exact h.advances (by rw [hold]; rfl) ⟨by simp [hnew], by simp [hnew]⟩ hsame
      fun _ hph => by cases hph
  | migrates hold hnew hsameTx =>
    exact h.advances (by rw [hold]; rfl) ⟨by simp [hnew], by simp [hnew]⟩ hsame
      fun _ hph => by cases hph
  | givesUp hold hnew =>
    exact h.advances (by rw [hold]; rfl) ⟨by simp [hnew], by simp [hnew]⟩ hsame
      fun _ hph => by cases hph
  | switches hold hnew hsameTx =>
    exact h.advances (by rw [hold]; rfl) ⟨by simp [hnew], by simp [hnew]⟩ hsame
      fun _ hph => by cases hph
  | points hstate htarget =>
    exact h.emits rfl rfl hsame (fun _ hph => by cases hph) (fun _ _ => by simp)
      (fun _ => by simp) (fun he => by cases he)
  | spawns child hstate => exact h.silent rfl rfl hsame fun _ hph => by cases hph
  | advances hold hnew hsameTx =>
    exact h.advances (not_closed_of_inFlight hold) (ne_of_not_closed (not_closed_of_inFlight hnew))
      hsame fun _ hph => by cases hph
  | opens hstate =>
    refine h.emits rfl rfl hsame (fun _ hph => by cases hph) (fun _ _ => by simp)
      (fun _ => by simp) fun _ hp => ?_
    rwa [if_pos hp] at hstate
  | @commits w j hold hnew hpointer =>
    refine h.writes (fun _ => ?_) (fun _ => h.installing rfl) (fun hs => ?_) hsame
      fun _ hph => by cases hph
    · rw [hnew]
      rfl
    · cases hnew.symm.trans hs
  | @cleans w j hold hnew =>
    refine h.writes (fun _ => ?_) (fun hs => ?_) (fun _ => h.committed hold) hsame
      fun _ hph => by cases hph
    · rcases hnew with hnew | hnew <;> rw [hnew] <;> rfl
    · exact absurd hs (by rcases hnew with hnew | hnew <;> simp [hnew])
  | rolls hstart hstate =>
    exact h.silent rfl rfl (fun hph => by cases hph) fun _ _ => hstate
  | takesData hstate hdata => exact h.overwrites rfl rfl
  | takesConfig hstate hconfig => exact h.overwrites rfl rfl
  | lacksConfig hstate hconfig =>
    exact h.silent rfl rfl (fun hph => by cases hph) fun _ _ => h.rolling _ rfl
  | putsData hstate hdata hsnapshot hstaged => exact h.overwrites rfl rfl
  | putsConfig hstate hconfig hsnapshot hstaged => exact h.overwrites rfl rfl
  | leavesConfig hstate hconfig hsnapshot hstaged =>
    exact h.silent rfl rfl (fun hph => by cases hph) fun _ _ => h.rolling _ rfl
  | restores =>
    exact h.emits rfl rfl (fun hph => by cases hph) (fun _ _ => h.rolling _ rfl)
      (fun _ _ => by simp) (fun _ => by simp) (fun he => by cases he)
  | skips hstate =>
    exact h.silent rfl rfl (fun hph => by cases hph) fun _ _ => h.rolling _ rfl
  | pointsBack htarget =>
    exact h.emits rfl rfl (fun hph => by cases hph) (fun _ _ => h.rolling _ rfl)
      (fun _ _ => by simp) (fun _ => by simp) (fun he => by cases he)
  | rolledBack hnew =>
    exact h.advances (not_closed_of_rollbackable (h.rolling _ rfl))
      ⟨by simp [hnew], by simp [hnew]⟩ (fun hph => by cases hph) fun _ hph => by cases hph
  | givesIn hnew =>
    exact h.writes (fun _ => by rw [hnew]; rfl) (fun hs => by cases hnew.symm.trans hs)
      (fun hs => by cases hnew.symm.trans hs) (fun hph => by cases hph) fun _ hph => by cases hph
  | closesManual hnew =>
    exact h.close (.inl (by rw [hnew]; rfl)) ⟨by simp [hnew], by simp [hnew]⟩
  | @closes w j landed hedge hsameTx =>
    generalize hs : j.state = s at hedge
    generalize ho : w.journal.state = o at hedge
    cases hedge with
    | staged hold =>
      refine h.close (.inr fun hsealed => ?_) ⟨by simp [hs], by simp [hs]⟩
      have hclosed := (h.sealed hsealed).1
      rw [ho, not_closed_of_early hold] at hclosed
      cases hclosed
    | early hold => exact h.close (.inl (by rw [hs]; rfl)) ⟨by simp [hs], by simp [hs]⟩
    | untouched hold => exact h.close (.inl (by rw [hs]; rfl)) ⟨by simp [hs], by simp [hs]⟩
    | committed hold => exact h.close (.inl (by rw [hs]; rfl)) ⟨by simp [hs], by simp [hs]⟩

end

end Transaction

namespace Transaction

/-- RUN: the invariant holds wherever the transaction leads. -/
theorem Guarded.run {c : Setting} {start : Phase × World} (h : Guarded c.portable start)
    {w : World} (hcovered : Covered c start w) : ∃ ph, Guarded c.portable (ph, w) := by
  obtain ⟨ph, hleads⟩ := hcovered
  exact ⟨ph, hleads.invariant (fun _ _ hx hstep => hx.step hstep) h⟩

/-- STEP: only an installation opens the candidate. -/
theorem Step.unopened {c : Setting} {x y : Phase × World} (hstep : Step c x y)
    (h : x.1 ≠ .installing ∧ .opened ∉ x.2.log) : y.1 ≠ .installing ∧ .opened ∉ y.2.log := by
  obtain ⟨hph, hlog⟩ := h
  have hclose : ∀ (w : World) (j : UpdateJournal) (landed : Bool), .opened ∉ w.log →
      .opened ∉ (w.close j landed).log := by
    intro w j landed hw
    cases landed <;> simpa [World.close, World.emit, World.writeJournal] using hw
  cases hstep with
  | happens ph w e => exact ⟨hph, by simpa using hlog⟩
  | restarts ph w => exact ⟨by simp, hlog⟩
  | notes ph hstate hsame => exact ⟨hph, by simpa [World.writeJournal] using hlog⟩
  | stores ph backups hstate => exact ⟨hph, hlog⟩
  | closesManual hnew => exact ⟨by simp, hclose _ _ _ hlog⟩
  | closes hedge hsame => exact ⟨by simp, hclose _ _ _ hlog⟩
  | givesIn hnew => exact ⟨by simp, by simpa [World.writeJournal] using hlog⟩
  | rolledBack hnew => exact ⟨by simp, by simpa [World.writeJournal] using hlog⟩
  | rolls hstart hstate => exact ⟨by simp, hlog⟩
  | lacksConfig hstate hconfig => exact ⟨by simp, hlog⟩
  | leavesConfig hstate hconfig hsnapshot hstaged => exact ⟨by simp, hlog⟩
  | skips hstate => exact ⟨by simp, hlog⟩
  | takesData hstate hdata => exact ⟨by simp, by simpa [World.quarantineData] using hlog⟩
  | takesConfig hstate hconfig => exact ⟨by simp, by simpa [World.quarantineConfig] using hlog⟩
  | putsData hstate hdata hsnapshot hstaged =>
    exact ⟨by simp, by simpa [World.restoreData] using hlog⟩
  | putsConfig hstate hconfig hsnapshot hstaged =>
    exact ⟨by simp, by simpa [World.restoreConfig] using hlog⟩
  | restores => exact ⟨by simp, by simpa [World.emit] using hlog⟩
  | pointsBack htarget => exact ⟨by simp, by simpa [World.writeCurrent] using hlog⟩
  | _ => exact absurd rfl hph

theorem unopened_run {c : Setting} {w w' : World} (hlog : .opened ∉ w.log)
    (hcovered : Covered c (.settling, w) w') : .opened ∉ w'.log := by
  obtain ⟨ph, hleads⟩ := hcovered
  exact (hleads.invariant (I := fun x => x.1 ≠ .installing ∧ .opened ∉ x.2.log)
    (fun _ _ hx hstep => hstep.unopened hx) ⟨by simp, hlog⟩).2

/-- What is in the log stays there. -/
theorem sealed_run {c : Setting} {start : Phase × World} (h : Sealed start.2.log) {w : World}
    (hcovered : Covered c start w) : Sealed w.log := by
  obtain ⟨ph, hleads⟩ := hcovered
  refine hleads.invariant (I := fun x => Sealed x.2.log) (fun x y hx hstep => ?_) h
  obtain ⟨old, new, hmem, hnew⟩ := hx
  obtain ⟨later, hlog⟩ := hstep.history
  exact ⟨old, new, hlog ▸ List.mem_append_left _ hmem, hnew⟩

theorem Guarded.not_undoes {c : Setting} {ph : Phase} {w : World}
    (h : Guarded c.portable (ph, w)) (hsealed : Sealed w.log) : ¬ Undoes w.log := by
  rintro ⟨alive, hsub⟩
  exact (h.sealed hsealed).2 ⟨alive, hsub.subset (by simp)⟩

end Transaction

open Transaction in
/-- SAFETY: no run restores the old files after the candidate took up work, in portable mode or
    where the installation that opened the candidate got `committed` written. -/
theorem accepted_work_is_kept (g : Engine) (target : Checked) (w : World)
    (hstate : w.journal.state = .staged) (hlog : w.log = []) (tape : List Answer)
    (tapes : List (List Answer)) :
    let installed := (g.installDownloaded target tape w).state
    (g.portable ∨ (.opened ∈ installed.log → Sealed installed.log)) →
      ¬ Undoes (startups g.sha tapes installed).log := by
  intro installed hcondition
  let c : Setting := ⟨target.version, g.portable, False⟩
  have hinstall : Covered c (.installing, w) installed :=
    (installDownloaded_rule rfl target rfl).state ⟨.refl _ _, hstate, False.elim⟩ tape
  have hall : Covered c (.installing, w) (startups g.sha tapes installed) :=
    startups_covered g.sha tapes hinstall
  have hstart : Guarded c.portable (.installing, w) := by
    refine ⟨fun _ => ?_, fun _ hph => (by cases hph), ?_, fun hs => ?_, fun _ hmem => ?_⟩
    · simp [Overwritten, hlog]
    · simp [Sealed, hlog]
    · simp [hstate] at hs
    · simp [hlog] at hmem
  obtain ⟨ph, hguarded⟩ := hstart.run hall
  have hkept : ∀ alive, List.Sublist [.opened, .overwrites alive]
      (startups g.sha tapes installed).log → .opened ∈ (startups g.sha tapes installed).log :=
    fun alive hsub => hsub.subset (by simp)
  by_cases hopened : .opened ∈ (startups g.sha tapes installed).log
  · refine hguarded.not_undoes ?_
    rcases hcondition with hportable | hwritten
    · exact hguarded.opened hportable hopened
    · have hearlier : .opened ∈ installed.log := by
        by_contra hnot
        exact unopened_run (c := c) hnot (startups_covered g.sha tapes ⟨_, .refl _ _⟩) hopened
      have hfrom : Covered c (.installing, installed) (startups g.sha tapes installed) :=
        startups_covered g.sha tapes ⟨_, .refl _ _⟩
      exact sealed_run (hwritten hearlier) hfrom
  · exact fun ⟨alive, hsub⟩ => hopened (hkept alive hsub)

open Sample in
/-- An update that commits, cut off before its journal is idle, and finished by the recovery. -/
theorem accepted_work_is_kept_committed :
    ¬ Undoes (startups id [List.replicate 40 served]
      (engine.installDownloaded target (List.replicate 43 served) staged).state).log :=
  accepted_work_is_kept engine target staged rfl rfl (List.replicate 43 served)
    [List.replicate 40 served] (.inr fun _ => by decide +kernel)

open Sample in
/-- The candidate accepts `activate`, the process is cut off before `committed` is written, and the
    recovery restores the snapshot over its work. -/
theorem accepted_work_is_restored_over :
    ¬ ∀ (g : Engine) (target : Checked) (w : World), w.journal.state = .staged → w.log = [] →
      ∀ (tape : List Answer) (tapes : List (List Answer)),
        ¬ Undoes (startups g.sha tapes (g.installDownloaded target tape w).state).log := by
  intro h
  refine h engine target staged rfl rfl (List.replicate 40 served) [List.replicate 40 served]
    ⟨false, ?_⟩
  decide +kernel

end Gamer.Updater
