import Gamer.Updater.Transaction

/-! The programs of the engine, the snapshots and the recovery have only effects that the
    transaction has: wherever a run of theirs is cut off or ends, the transaction leads there too.
    A triple for each program says so, with what the next one needs to know. -/

namespace Gamer.Updater.Transaction
open Gamer.Lib Gamer.Lib.Prog

/-- The transaction leads to the phase and the world, and `F` holds there. -/
def At (c : Setting) (start : Phase × World) (ph : Phase) (F : World → Prop) (w : World) : Prop :=
  Leads (Step c) start ph w ∧ F w

/-- The transaction leads to the world. -/
def Covered (c : Setting) (start : Phase × World) (w : World) : Prop :=
  Covers (Step c) start w

/-- What the candidate does on its own does not change the fact. -/
def Stable (F : World → Prop) : Prop := ∀ w e, F w → F (w.happen e)

theorem Stable.and {F G : World → Prop} (hF : Stable F) (hG : Stable G) :
    Stable fun w => F w ∧ G w :=
  fun w e h => ⟨hF w e h.1, hG w e h.2⟩

/-- As long as no candidate runs, nothing changes between two effects. -/
theorem Stable.calm {q : Prop} {G : World → Prop} :
    Stable fun w => q → w.candidate = none ∧ G w := by
  intro w e h hq
  obtain ⟨hnone, hG⟩ := h hq
  rw [World.happen_of_none hnone]
  exact ⟨hnone, hG⟩

/-- The journal is still the one that was read, but for its notes. -/
def Follows (journal : UpdateJournal) (w : World) : Prop :=
  w.journal.state = journal.state ∧ Same journal w.journal

theorem Follows.stable (journal : UpdateJournal) : Stable (Follows journal) := by
  intro w e h
  simpa [Follows] using h

theorem Follows.refl (w : World) : Follows w.journal w := ⟨rfl, rfl, rfl⟩

section
variable {c : Setting} {start : Phase × World} {ph ph' : Phase} {F F' : World → Prop}

theorem At.covered {w : World} (h : At c start ph F w) : Covered c start w := ⟨ph, h.1⟩

theorem At.mono {w : World} (h : At c start ph F w) (hF : ∀ w, F w → F' w) :
    At c start ph F' w :=
  ⟨h.1, hF w h.2⟩

theorem At.step {w w' : World} (h : At c start ph F w) (hstep : Step c (ph, w) (ph', w'))
    (hF : F' w') : At c start ph' F' w' :=
  ⟨h.1.step hstep, hF⟩

/-- To start from anywhere is to start from any phase. -/
theorem covered_rule {α : Type} {p : Action α} {Q : α → World → Prop} {C : World → Prop}
    (h : ∀ ph, Triple (At c start ph fun _ => True) p Q C) : Triple (Covered c start) p Q C :=
  (Triple.ex h).pre fun _ ⟨ph, hleads⟩ => ⟨ph, hleads, trivial⟩

/-! ### Rules for the effects -/

/-- EFFECT RULE: the fact holds when the effect comes, after what the candidate did. -/
theorem act_rule {α : Type} {f : Answer → World → α × World} {Q : α → World → Prop}
    (hF : Stable F) (h : ∀ e w, At c start ph F w → Q (f e w).1 (f e w).2) :
    Triple (At c start ph F) (act f) Q (Covered c start) :=
  .effect (fun _ hw => hw.covered) fun e w hw =>
    h e (w.happen e) (hw.step (.happens ph w e) (hF w e hw.2))

theorem ask_rule (hF : Stable F) :
    Triple (At c start ph F) ask (fun _ => At c start ph F) (Covered c start) :=
  act_rule hF fun _ _ hw => hw

theorem outside_rule (hF : Stable F) :
    Triple (At c start ph F) outside (either (fun _ => At c start ph F) fun _ => At c start ph F)
      (Covered c start) := by
  refine act_rule hF fun e w hw => ?_
  cases hok : e.ok <;> exact hw

theorem loadJournal_rule (hF : Stable F) :
    Triple (At c start ph F) loadJournal
      (either (fun _ => At c start ph F)
        fun j => At c start ph fun w => F w ∧ w.journal = j) (Covered c start) := by
  refine act_rule hF fun e w hw => ?_
  cases hok : e.ok
  · exact hw
  · exact ⟨hw.1, hw.2, rfl⟩

theorem loadCurrent_rule (hF : Stable F) :
    Triple (At c start ph F) loadCurrent (fun _ => At c start ph F) (Covered c start) :=
  act_rule hF fun _ _ hw => hw

/-- The write lands, as a transition, or nothing changes. -/
theorem writeJournal_rule (ph' : Phase) (F' : World → Prop) {j : UpdateJournal} (hF : Stable F)
    (hstep : ∀ w, F w → Step c (ph, w) (ph', w.writeJournal j))
    (hF' : ∀ w, F w → F' (w.writeJournal j)) :
    Triple (At c start ph F) (writeJournal j)
      (either (fun _ => At c start ph F) fun _ => At c start ph' F') (Covered c start) := by
  refine act_rule hF fun e w hw => ?_
  cases hok : e.ok
  · exact hw
  · exact hw.step (hstep w hw.2) (hF' w hw.2)

theorem mutate_rule (ph' : Phase) (F' : World → Prop) {f : UpdateJournal → UpdateJournal}
    (hF : Stable F) (hstep : ∀ w, F w → Step c (ph, w) (ph', w.writeJournal (f w.journal)))
    (hF' : ∀ w, F w → F' (w.writeJournal (f w.journal))) :
    Triple (At c start ph F) (mutateJournal f)
      (either (fun _ => At c start ph F) fun _ => At c start ph' F') (Covered c start) := by
  refine (loadJournal_rule hF).andThen (fun _ _ hw => hw) fun j => ?_
  have hread : Stable fun w => F w ∧ w.journal = j :=
    hF.and fun w e h => by simpa using h
  refine (writeJournal_rule ph' F' hread ?_ ?_).andThen
    (fun _ w hw => hw.mono fun _ h => h.1) fun _ => .pure fun _ hw => hw
  · rintro w ⟨hw, rfl⟩
    exact hstep w hw
  · rintro w ⟨hw, rfl⟩
    exact hF' w hw

/-- A note leaves every fact about the state in place, whether it is written or not. -/
theorem note_rule (f : UpdateJournal → UpdateJournal) (hF : Stable F)
    (hstate : ∀ j, (f j).state = j.state) (hsame : ∀ j, Same j (f j))
    (hF' : ∀ w, F w → F (w.writeJournal (f w.journal))) :
    Triple (At c start ph F) (mutateJournal f) (fun _ => At c start ph F) (Covered c start) := by
  refine (mutate_rule ph F hF (fun w _ => .notes ph (hstate w.journal) (hsame w.journal)) hF').post ?_
  intro r w hw
  cases r <;> exact hw

theorem writeCurrent_rule (ph' : Phase) (F' : World → Prop) {cur : CurrentState} (hF : Stable F)
    (hstep : ∀ w, F w → Step c (ph, w) (ph', w.writeCurrent cur))
    (hF' : ∀ w, F w → F' (w.writeCurrent cur)) :
    Triple (At c start ph F) (writeCurrent cur)
      (either (fun _ => At c start ph F) fun _ => At c start ph' F') (Covered c start) := by
  refine act_rule hF fun e w hw => ?_
  cases hok : e.ok
  · exact hw
  · exact hw.step (hstep w hw.2) (hF' w hw.2)

/-- To end the candidate is something that could have happened. -/
theorem Step.ends (ph : Phase) (w : World) : Step c (ph, w) (ph, { w with candidate := none }) := by
  have hends : { w with candidate := none } = w.happen { Answer.served with exits := true } := by
    obtain ⟨journal, current, data, config, backups, quarantine, candidate, log⟩ := w
    cases candidate <;> rfl
  rw [hends]
  exact .happens ph w _

end

end Gamer.Updater.Transaction
