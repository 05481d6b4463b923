import Gamer.Updater.Refinement.Install

/-! A recovery has only effects of the transaction, and one that completes leaves a settled journal
    unless its closing write is lost. -/

namespace Gamer.Updater.Transaction
open Gamer.Lib Gamer.Lib.Prog
open Recovery

/-- The states a recovery ends in. -/
def final : UpdateState → Bool
  | .idle | .staged | .manualRecoveryRequired => true
  | _ => false

/-- The journal is in a final state, or the closing write that should have made it so is lost. -/
def Settled (w : World) : Prop :=
  final w.journal.state ∨
    ∃ new inPlace, w.log.getLast? = some (.finished w.journal.state new inPlace false)

/-- Nothing was written since the journal was read. -/
def Fresh (journal : UpdateJournal) (w : World) : Prop := w.journal = journal

theorem Fresh.stable {journal : UpdateJournal} : Stable (Fresh journal) := by
  intro w e h
  simpa [Fresh] using h

theorem Fresh.follows {journal : UpdateJournal} {w : World} (h : Fresh journal w) :
    Follows journal w :=
  h ▸ Follows.refl w

theorem close_settled (w : World) {j : UpdateJournal} (hj : final j.state) (landed : Bool) :
    Settled (w.close j landed) := by
  cases landed
  · exact .inr ⟨_, _, List.getLast?_concat⟩
  · exact .inl hj

section
variable {c : Setting} {start : Phase × World} {ph : Phase} {journal : UpdateJournal}

/-- The postcondition of a recovery. -/
def Finished (c : Setting) (start : Phase × World) (w : World) : Prop :=
  Covered c start w ∧ Settled w

theorem finishManual_rule (reason : String) :
    Triple (Covered c start) (finishManual journal reason) (fun _ => Finished c start)
      (Covered c start) := by
  refine covered_rule fun ph => ?_
  refine (act_rule (fun _ _ h => h) fun e w hw => ?_).bind fun _ => .pure fun _ hw => hw
  exact ⟨⟨_, hw.1.step (.closesManual rfl)⟩, close_settled w rfl e.ok⟩

/-- The closing write of a journal read in this recovery. -/
theorem close_rule {j : UpdateJournal} (hedge : Closes journal.state j.state)
    (hsame : Same journal j) (hj : final j.state) :
    Triple (At c start .settling (Fresh journal)) (close j) (fun _ => Finished c start)
      (Covered c start) := by
  refine act_rule Fresh.stable fun e w hw => ?_
  have hread : w.journal = journal := hw.2
  refine ⟨⟨_, hw.1.step (.closes ?_ ?_)⟩, close_settled w hj e.ok⟩
  · rw [hread]
    exact hedge
  · rw [hread]
    exact hsame

theorem finishIdle_rule (reason : String) (hedge : Closes journal.state .idle) :
    Triple (At c start .settling (Fresh journal)) (finishIdle journal reason)
      (fun _ => Finished c start) (Covered c start) :=
  (close_rule (by exact hedge) ⟨by rfl, by rfl⟩ (by rfl)).bind fun _ => .pure fun _ hw => hw

theorem pointerMatches_rule {F : World → Prop} (hF : Stable F) (version : Option String) :
    Triple (At c start ph F) (pointerMatches version) (fun _ => At c start ph F)
      (Covered c start) := by
  unfold pointerMatches
  split
  · exact .pure fun _ hw => hw
  · refine (loadCurrent_rule hF).bind fun r => ?_
    split <;> exact .pure fun _ hw => hw

theorem stagingIntact_rule {F : World → Prop} (hF : Stable F) :
    Triple (At c start ph F) (stagingIntact journal) (fun _ => At c start ph F)
      (Covered c start) := by
  unfold stagingIntact
  split
  · exact (ask_rule hF).bind fun _ => .pure fun _ hw => hw
  · exact .pure fun _ hw => hw

theorem recoverPreInstall_rule (hearly : early journal.state) :
    Triple (At c start .settling (Fresh journal)) (recoverPreInstall journal)
      (fun _ => Finished c start) (Covered c start) := by
  refine (stagingIntact_rule Fresh.stable).bind fun intact => ?_
  split
  · exact (close_rule (by exact .staged hearly) ⟨by rfl, by rfl⟩ (by rfl)).bind fun _ => .pure fun _ hw => hw
  · exact (ask_rule Fresh.stable).bind fun _ => finishIdle_rule _ (.early hearly)

/-- A rollback that fails is closed by hand, one that succeeds has closed the journal itself. -/
theorem rollback_rule (g : Engine) (hstate : Engine.rollbackable journal.state)
    {fail : BusinessError → String} {outcome : RecoveryOutcome} :
    Triple (At c start .settling (Fresh journal))
      ((g.rollbackProcedure journal false).orFail (fun err => finishManual journal (fail err))
        fun _ => pure outcome) (fun _ => Finished c start) (Covered c start) := by
  refine ((rollbackProcedure_rule g false hstate (.inr rfl)).pre
    fun w hw => hw.mono fun _ => Fresh.follows).orFail (fun err => finishManual_rule _) fun _ => ?_
  refine .pure fun w hw => ⟨hw.covered, .inl ?_⟩
  rw [hw.2]
  rfl

theorem recoverSnapshotting_rule (g : Engine) (hstate : journal.state = .snapshotting) :
    Triple (At c start .settling (Fresh journal)) (recoverSnapshotting g journal)
      (fun _ => Finished c start) (Covered c start) := by
  have hedge : Closes journal.state .idle := .early (by rw [hstate]; rfl)
  unfold recoverSnapshotting
  split
  · exact finishIdle_rule _ hedge
  · refine (verify_rule Fresh.stable g.sha _).orFail (fun _ => ?_) fun m =>
      (rollback_rule g (by rw [hstate]; rfl)).pre fun w hw => hw.mono fun _ h => h.1
    refine Triple.bind (Q := fun _ => At c start .settling (Fresh journal)) ?_ fun _ =>
      finishIdle_rule _ hedge
    refine act_rule Fresh.stable fun e w hw => ?_
    have hread : w.journal = journal := hw.2
    dsimp only
    split
    · exact hw.step (.stores .settling _ (by rw [hread, hstate])) hw.2
    · exact hw

theorem recoverSwitched_rule (g : Engine) (hstate : Engine.rollbackable journal.state)
    (context : String) :
    Triple (At c start .settling (Fresh journal)) (recoverSwitched g journal context)
      (fun _ => Finished c start) (Covered c start) := by
  unfold recoverSwitched
  split
  · exact (finishManual_rule _).pre fun _ hw => hw.covered
  · exact rollback_rule g hstate

theorem recoverCommitted_rule (hstate : journal.state = .committed ∨ journal.state = .cleaning) :
    Triple (At c start .settling (Fresh journal)) (recoverCommitted journal)
      (fun _ => Finished c start) (Covered c start) := by
  unfold recoverCommitted
  split
  · exact (finishManual_rule _).pre fun _ hw => hw.covered
  · refine (pointerMatches_rule Fresh.stable _).bind fun matched => ?_
    split
    · refine (ask_rule Fresh.stable).bind fun _ => ?_
      exact (close_rule (by exact .committed hstate) ⟨by rfl, by rfl⟩ (by rfl)).bind fun _ => .pure fun _ hw => hw
    · exact (finishManual_rule _).pre fun _ hw => hw.covered

theorem recoverUntouched_rule (g : Engine)
    (hstate : journal.state = .snapshotVerified ∨ journal.state = .migrating) :
    Triple (At c start .settling (Fresh journal))
      (do
        if ← pointerMatches journal.fromVersion then
          finishIdle journal "快照后/迁移中中断，数据未切换，已回退"
        else recoverSwitched g journal "切换后中断")
      (fun _ => Finished c start) (Covered c start) := by
  refine (pointerMatches_rule Fresh.stable _).bind fun matched => ?_
  split
  · exact finishIdle_rule _ (.untouched hstate)
  · exact recoverSwitched_rule g (by rcases hstate with h | h <;> rw [h] <;> rfl) _

theorem recover_rule (g : Engine) :
    Triple (At c start .settling (Fresh journal)) (recover g journal)
      (fun _ => Finished c start) (Covered c start) := by
  have hfinal : final journal.state → ∀ outcome : RecoveryOutcome,
      Triple (At c start .settling (Fresh journal)) (pure outcome : Action RecoveryOutcome)
        (fun _ => Finished c start) (Covered c start) := fun hfinal outcome =>
    .pure fun w hw => ⟨hw.covered, .inl (hw.2 ▸ hfinal)⟩
  unfold recover
  split
  · next h => exact hfinal (h ▸ rfl) _
  · next h => exact hfinal (h ▸ rfl) _
  · next h => exact recoverPreInstall_rule (h ▸ rfl)
  · next h => exact recoverPreInstall_rule (h ▸ rfl)
  · next h => exact recoverPreInstall_rule (h ▸ rfl)
  · next h => exact recoverPreInstall_rule (h ▸ rfl)
  · next h => exact recoverPreInstall_rule (h ▸ rfl)
  · next h => exact recoverPreInstall_rule (h ▸ rfl)
  · next h => exact finishIdle_rule _ (.early (h ▸ rfl))
  · next h => exact recoverSnapshotting_rule g h
  · next h => exact recoverUntouched_rule g (.inl h)
  · next h => exact recoverUntouched_rule g (.inr h)
  · next h => exact recoverSwitched_rule g (h ▸ rfl) _
  · next h => exact recoverSwitched_rule g (h ▸ rfl) _
  · next h => exact recoverSwitched_rule g (h ▸ rfl) _
  · next h => exact recoverSwitched_rule g (h ▸ rfl) _
  · next h => exact recoverCommitted_rule (.inl h)
  · next h => exact recoverCommitted_rule (.inr h)

/-- REFINEMENT: a startup has only effects of the transaction. -/
theorem recoverOnStartup_rule (sha : String → String) :
    Triple (At c start .settling fun _ => True) (recoverOnStartup sha)
      (either (fun _ => Covered c start) fun _ => Finished c start) (Covered c start) := by
  refine (loadJournal_rule fun _ _ h => h).andThen (fun _ _ h => h.covered) fun journal => ?_
  refine Triple.pre ((recover_rule (.default sha)).bind fun _ => .pure fun _ hw => hw) ?_
  exact fun w hw => hw.mono fun _ h => h.2

end

/-- From wherever the transaction stands, startups keep to it. -/
theorem startups_covered {c : Setting} {start : Phase × World} (sha : String → String)
    (tapes : List (List Answer)) {w : World} (h : Covered c start w) :
    Covered c start (startups sha tapes w) := by
  induction tapes generalizing w with
  | nil => exact h
  | cons tape rest ih =>
    obtain ⟨ph, hleads⟩ := h
    have hall : Triple (At c start .settling fun _ => True) (recoverOnStartup sha)
        (fun _ => Covered c start) (Covered c start) :=
      (recoverOnStartup_rule sha).post fun r w hw => by cases r <;> [exact hw; exact hw.1]
    exact ih (hall.state ⟨hleads.step (.restarts ph w), trivial⟩ tape)

end Gamer.Updater.Transaction
