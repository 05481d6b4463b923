import Gamer.Updater.Refinement.Snapshot

/-! The stages of an installation and its failure handlers. Each handler is entered in the states
    of the journal in which the transaction allows what it does. -/

namespace Gamer.Updater.Transaction
open Gamer.Lib Gamer.Lib.Prog
open Engine

def Pointed (c : Setting) (w : World) : Prop := w.current.map (·.current) = some c.target

/-- In the state, with the pointer at the new version. -/
def Trying (c : Setting) (s : UpdateState) (w : World) : Prop := InState s w ∧ Pointed c w

theorem Trying.stable {c : Setting} {s : UpdateState} : Stable (Trying c s) := by
  intro w e h
  simpa [Trying, InState, Pointed] using h

section
variable {c : Setting} {start : Phase × World} {s : UpdateState} {F : World → Prop}

/-! ### Failure handlers -/

theorem failBeforeSnapshot_rule (hF : Stable F) (hearly : ∀ w, F w → early w.journal.state)
    (err : BusinessError) :
    Triple (At c start .installing F) (failBeforeSnapshot err) (fun _ => Covered c start)
      (Covered c start) := by
  refine (mutate_rule .installing (fun _ => True) hF
    (fun w hw => .prepares (hearly w hw) (.inr rfl) ⟨rfl, rfl⟩) fun _ _ => trivial).bind
    fun r => .pure fun w hw => ?_
  cases r <;> exact ⟨_, hw.1⟩

/-- The state in which the handler is entered depends on whether the snapshot was recorded. -/
theorem failAfterStop_rule (hs : s = .snapshotting ∨ s = .snapshotVerified) (wasRunning : Bool)
    (err : BusinessError) :
    Triple (At c start .installing (InState s)) (failAfterStop wasRunning err)
      (fun _ => Covered c start) (Covered c start) := by
  have hgivesUp : ∀ w, InState s w → Step c (.installing, w)
      (.installing, w.writeJournal (w.journal.setFailedIdle err)) := by
    intro w hw
    rcases hs with rfl | rfl
    · exact .prepares (by rw [hw]; rfl) (.inr rfl) ⟨rfl, rfl⟩
    · exact .givesUp hw rfl
  refine (note_rule (UpdateJournal.note "rolling_back") InState.stable (fun _ => rfl) (fun _ => ⟨rfl, rfl⟩)
    fun _ hw => hw).bind fun _ => ?_
  refine (restartIf_rule InState.stable wasRunning).bind fun _ => ?_
  refine (mutate_rule .installing (fun _ => True) InState.stable hgivesUp
    fun _ _ => trivial).bind fun r => .pure fun w hw => ?_
  cases r <;> exact ⟨_, hw.1⟩

theorem failAfterSwitch_rule (g : Engine) (hs : rollbackable s) (wasRunning : Bool)
    (err : BusinessError) :
    Triple (At c start .installing (InState s)) (g.failAfterSwitch wasRunning err)
      (fun _ => Covered c start) (Covered c start) := by
  refine (loadJournal_rule InState.stable).orFail (fun _ => .pure fun w hw => hw.covered)
    fun journal => ?_
  have hread : ∀ w, At c start .installing (fun w => InState s w ∧ w.journal = journal) w →
      At c start .installing (Follows journal) w ∧ rollbackable journal.state := by
    rintro w ⟨hleads, hstate, rfl⟩
    exact ⟨⟨hleads, Follows.refl w⟩, hstate ▸ hs⟩
  refine Triple.pre (Triple.fact fun hstate => ?_) hread
  refine (note_rule (UpdateJournal.withError err) (Follows.stable journal) (fun _ => rfl)
    (fun _ => ⟨rfl, rfl⟩) fun w hw => hw).bind fun _ => ?_
  exact (rollbackProcedure_rule g wasRunning hstate (.inl rfl)).orFail
    (fun rollbackErr => (enterManualRecovery_rule rollbackErr).bind fun _ =>
      .pure fun _ hw => hw) fun _ => .pure fun w hw => hw.covered

theorem failCandidate_rule (g : Engine) (hs : rollbackable s) (wasRunning : Bool)
    (err : BusinessError) :
    Triple (At c start .installing (InState s)) (g.failCandidate wasRunning err)
      (fun _ => Covered c start) (Covered c start) := by
  refine Triple.bind (Q := fun _ => At c start .installing (InState s)) ?_ fun _ =>
    failAfterSwitch_rule g hs wasRunning err
  refine act_rule InState.stable fun e w hw => ?_
  split
  · exact hw.step (.ends .installing w) hw.2
  · exact hw

/-! ### The candidate -/

theorem activate_rule {g : Engine} (hmode : c.portable = g.portable) (hs : inFlight s) :
    Triple (At c start .installing (Trying c s)) g.activate
      (either (fun _ => At c start .installing (Trying c s))
        fun _ => At c start .installing (Trying c s)) (Covered c start) := by
  have hopens : ∀ w, At c start .installing (Trying c s) w →
      At c start .installing (Trying c s) (if g.portable then w else w.emit .opened) := by
    intro w hw
    split
    · exact hw
    · next hportable =>
      refine hw.step (.opens ?_) hw.2
      rw [hmode, if_neg hportable, hw.2.1]
      exact hs
  unfold Engine.activate
  split
  · split
    · exact .pure fun _ hw => hw
    · exact .pure fun _ hw => hw
  · refine act_rule Trying.stable fun e w hw => ?_
    dsimp only
    split
    · split
      · exact hopens w hw
      · exact hw
    · split
      · exact hopens w hw
      · exact hw

theorem verifyCandidateIdentity_rule (g : Engine) (oldBootId : Option String) (target : Checked) :
    Triple (At c start .installing (Trying c s)) (g.verifyCandidateIdentity oldBootId target)
      (either (fun _ => At c start .installing (Trying c s))
        fun _ => At c start .installing (Trying c s)) (Covered c start) := by
  have hany : ∀ (r : Except BusinessError (Option String)) w,
      At c start .installing (Trying c s) w →
      either (fun _ => At c start .installing (Trying c s))
        (fun _ => At c start .installing (Trying c s)) r w := by
    intro r w hw
    cases r <;> exact hw
  refine (ask_rule Trying.stable).bind fun info => ?_
  split
  · exact .pure fun w hw => hany _ w hw
  · refine (ask_rule Trying.stable).bind fun ready => ?_
    split
    · exact .pure fun _ hw => hw
    · split
      · exact .pure fun w hw => hany _ w hw
      · exact .pure fun _ hw => hw

theorem exited_rule (hF : Stable F) :
    Triple (At c start .installing F) exited (fun _ => At c start .installing F)
      (Covered c start) :=
  act_rule hF fun _ _ hw => hw

theorem pollReady_rule {g : Engine} (hmode : c.portable = g.portable) (hs : inFlight s)
    (oldBootId : Option String) (target : Checked) (rounds : Nat) (attempted : Bool)
    (last : Option String) :
    Triple (At c start .installing (Trying c s))
      (g.pollReady oldBootId target rounds attempted last)
      (either (fun _ => At c start .installing (Trying c s))
        fun _ => At c start .installing (Trying c s)) (Covered c start) := by
  induction rounds generalizing attempted last with
  | zero =>
    refine (exited_rule Trying.stable).bind fun gone => ?_
    split
    · exact .pure fun _ hw => hw
    · exact .pure fun _ hw => hw
  | succ rounds ih =>
    refine (exited_rule Trying.stable).bind fun gone => ?_
    split
    · exact .pure fun _ hw => hw
    refine (ask_rule Trying.stable).bind fun health => ?_
    split
    · exact ih _ _
    · split
      · exact verifyCandidateIdentity_rule g oldBootId target
      · split
        · refine (activate_rule hmode hs).bind fun r => ?_
          cases r with
          | ok _ => exact ih _ _
          | error err =>
            dsimp only
            split
            · exact .pure fun _ hw => hw
            · exact ih _ _
        · exact ih _ _

theorem waitCandidateReady_rule {g : Engine} (hmode : c.portable = g.portable) (hs : inFlight s)
    (oldBootId : Option String) (target : Checked) :
    Triple (At c start .installing (Trying c s)) (g.waitCandidateReady oldBootId target)
      (either (fun _ => At c start .installing (Trying c s))
        fun _ => At c start .installing (Trying c s)) (Covered c start) :=
  (ask_rule Trying.stable).bind fun _ => pollReady_rule hmode hs _ _ _ _ _

theorem finishPortable_rule (g : Engine) (hF : Stable F) :
    Triple (At c start .installing F) g.finishPortable
      (either (fun _ => At c start .installing F) fun _ => At c start .installing F)
      (Covered c start) := by
  unfold Engine.finishPortable
  split
  · refine (ask_rule hF).bind fun e => ?_
    split
    · exact .pure fun _ hw => hw
    · refine (outside_rule hF).bind fun r => ?_
      cases r <;> exact .pure fun _ hw => hw
  · exact .pure fun _ hw => hw

/-! ### The stages -/

def Committed (w : World) : Prop := InState .committed w ∨ InState .cleaning w

theorem Committed.stable : Stable Committed := fun w e h =>
  h.imp (InState.stable w e) (InState.stable w e)

theorem postCommit_rule {g : Engine} (hmode : c.portable = g.portable) :
    Triple (At c start .installing (InState .committed)) g.postCommit
      (fun _ => At c start .installing Committed) (Covered c start) := by
  unfold Engine.postCommit
  split
  · next hportable =>
    refine act_rule InState.stable fun e w hw => ?_
    split
    · refine hw.step (.opens ?_) (.inl hw.2)
      rw [hmode, if_pos hportable]
      exact hw.2
    · exact hw.mono fun _ => .inl
  · exact .pure fun w hw => hw.mono fun _ => .inl

/-- Once `committed` is written nothing is rolled back. -/
theorem commit_rule {g : Engine} (hmode : c.portable = g.portable) (i : Install) :
    Triple (At c start .installing (Trying c .activating)) (g.commit i)
      (fun _ => Covered c start) (Covered c start) := by
  refine (mutate_rule .installing (InState .committed) Trying.stable
    (fun w hw => .commits hw.1 rfl hw.2) fun _ _ => by rfl).orFail
    (fun err => .pure fun w hw => hw.covered) fun _ => ?_
  refine (postCommit_rule hmode).bind fun accepted => ?_
  split
  · refine (ask_rule Committed.stable).bind fun _ => ?_
    have hcleaning : Triple (At c start .installing Committed)
        (mutateJournal (UpdateJournal.moveTo .cleaning "cleaning"))
        (fun _ => At c start .installing Committed) (Covered c start) := by
      refine (mutate_rule .installing Committed Committed.stable
        (fun w hw => .cleans hw (.inl rfl)) fun _ _ => .inr (by rfl)).post fun r w hw => ?_
      cases r <;> exact hw
    refine hcleaning.bind fun _ => ?_
    exact (mutate_rule .installing (fun _ => True) Committed.stable
      (fun w hw => .cleans hw (.inr rfl)) fun _ _ => trivial).orFail
      (fun err => .pure fun w hw => hw.covered) fun _ => .pure fun w hw => hw.covered
  · exact .pure fun w hw => hw.covered

/-- The candidate is ended before anything is restored. -/
theorem tryCandidate_rule {g : Engine} (hmode : c.portable = g.portable) (i : Install) :
    Triple (At c start .installing (Trying c .switched)) (g.tryCandidate i)
      (fun _ => Covered c start) (Covered c start) := by
  have hfail : ∀ s, rollbackable s → ∀ err, Triple (At c start .installing (Trying c s))
      (g.failCandidate i.wasRunning err) (fun _ => Covered c start) (Covered c start) :=
    fun s hs err => (failCandidate_rule g hs i.wasRunning err).pre fun _ hw => hw.mono fun _ h => h.1
  have hstart : Triple (At c start .installing (Trying c .switched)) startCandidate
      (either (fun _ => At c start .installing (Trying c .switched))
        fun _ => At c start .installing (Trying c .switched)) (Covered c start) := by
    refine act_rule Trying.stable fun e w hw => ?_
    split
    · exact hw.step (.spawns _ hw.2.1) hw.2
    · exact hw
  have hadvance : ∀ (s s' : UpdateState) (f : UpdateJournal → UpdateJournal), inFlight s →
      inFlight s' → (∀ j, (f j).state = s') → (∀ j, Same j (f j)) →
      Triple (At c start .installing (Trying c s)) (mutateJournal f)
        (either (fun _ => At c start .installing (Trying c s))
          fun _ => At c start .installing (Trying c s')) (Covered c start) := by
    intro s s' f hs hs' hstate hsame
    refine mutate_rule .installing (Trying c s') Trying.stable (fun w hw => ?_)
      fun w hw => ⟨hstate w.journal, hw.2⟩
    exact .advances (hw.1 ▸ hs) ((hstate w.journal).symm ▸ hs') (hsame w.journal)
  refine hstart.orFail (fun err => (failAfterSwitch_rule g rfl i.wasRunning err).pre
    fun _ hw => hw.mono fun _ h => h.1) fun child => ?_
  refine (ask_rule Trying.stable).bind fun e => ?_
  refine (hadvance .switched .candidateStarting _ rfl rfl (fun _ => by rfl)
    fun _ => ⟨by rfl, by rfl⟩).orFail (hfail .switched rfl) fun _ => ?_
  refine (waitCandidateReady_rule hmode rfl i.oldBootId i.target).orFail
    (hfail .candidateStarting rfl) fun _ => ?_
  refine (hadvance .candidateStarting .candidateReady _ rfl rfl (fun _ => by rfl)
    fun _ => ⟨by rfl, by rfl⟩).orFail (hfail .candidateStarting rfl) fun _ => ?_
  refine (hadvance .candidateReady .activating _ rfl rfl (fun _ => by rfl)
    fun _ => ⟨by rfl, by rfl⟩).orFail (hfail .candidateReady rfl) fun _ => ?_
  refine (activate_rule hmode rfl).orFail (hfail .activating rfl) fun _ => ?_
  exact (finishPortable_rule g Trying.stable).orFail (hfail .activating rfl)
    fun _ => commit_rule hmode i

/-- `versions/<to>/` is in place before `switched` is recorded, and the pointer comes after. -/
theorem switchOver_rule {g : Engine} (hmode : c.portable = g.portable) (i : Install)
    (htarget : c.target = i.target.version) :
    Triple (At c start .installing (InState .migrating)) (g.switchOver i)
      (fun _ => Covered c start) (Covered c start) := by
  refine (outside_rule InState.stable).orFail (failAfterSwitch_rule g rfl i.wasRunning)
    fun _ => ?_
  refine (mutate_rule .installing (InState .switched) InState.stable
    (fun w hw => .switches hw (by rfl) ⟨by rfl, by rfl⟩) fun _ _ => by rfl).orFail
    (failAfterSwitch_rule g rfl i.wasRunning) fun _ => ?_
  refine (writeCurrent_rule .installing (Trying c .switched) InState.stable
    (fun w hw => .points hw htarget.symm) fun w hw => ⟨hw, congrArg some htarget.symm⟩).orFail
    (fun text => failAfterSwitch_rule g rfl i.wasRunning _) fun _ => ?_
  exact tryCandidate_rule hmode i

theorem takeSnapshot_rule {g : Engine} (hmode : c.portable = g.portable) (i : Install)
    (htarget : c.target = i.target.version) :
    Triple (At c start .installing (Calm c .waitingIdle fun _ => True)) (g.takeSnapshot i)
      (fun _ => Covered c start) (Covered c start) := by
  have hprepare : ∀ (s s' : UpdateState) (f : UpdateJournal → UpdateJournal), early s →
      early s' → (∀ j, (f j).state = s') → (∀ j, Same j (f j)) →
      Triple (At c start .installing (Calm c s fun _ => True)) (mutateJournal f)
        (either (fun _ => At c start .installing (Calm c s fun _ => True))
          fun _ => At c start .installing (Calm c s' fun _ => True)) (Covered c start) := by
    intro s s' f hs hs' hstate hsame
    refine mutate_rule .installing (Calm c s' fun _ => True) Calm.stable (fun w hw => ?_)
      fun w hw => ⟨hstate w.journal, hw.2⟩
    exact .prepares (hw.1 ▸ hs) (.inl ((hstate w.journal).symm ▸ hs')) (hsame w.journal)
  have hbefore : ∀ s, early s → ∀ err, Triple
      (At c start .installing (Calm c s fun _ => True)) (failBeforeSnapshot err)
      (fun _ => Covered c start) (Covered c start) :=
    fun s hs => failBeforeSnapshot_rule Calm.stable fun w hw => hw.1 ▸ hs
  refine (hprepare .waitingIdle .stopped _ rfl rfl (fun _ => by rfl)
    fun _ => ⟨by rfl, by rfl⟩).orFail (hbefore .waitingIdle rfl) fun _ => ?_
  refine (hprepare .stopped .snapshotting _ rfl rfl (fun _ => by rfl)
    fun _ => ⟨by rfl, by rfl⟩).orFail (hbefore .stopped rfl) fun _ => ?_
  refine (ask_rule Calm.stable).bind fun e => ?_
  refine (create_rule g.sha i.updateId e.ok).orFail
    (fun reason => failAfterStop_rule (.inl rfl) i.wasRunning _) fun report => ?_
  refine (ask_rule Calm.stable).bind fun schema => ?_
  have hverifies : ∀ w, Calm c .snapshotting (fun w => Complete w report.id w.live) w →
      Step c (.installing, w) (.installing, w.writeJournal
        (recordSnapshot report schema.observed.schema w.journal)) :=
    fun w hw => .verifies hw.1 rfl rfl rfl fun hq => (hw.2 hq).2
  refine (mutate_rule .installing (InState .snapshotVerified) Calm.stable hverifies
    fun _ _ => rfl).orFail
    (fun err => (failAfterStop_rule (.inl rfl) i.wasRunning err).pre fun _ hw => hw.inState)
    fun _ => ?_
  refine (mutate_rule .installing (InState .migrating) InState.stable
    (fun w hw => .migrates hw (by rfl) ⟨by rfl, by rfl⟩) fun _ _ => by rfl).orFail
    (failAfterStop_rule (.inr rfl) i.wasRunning) fun _ => ?_
  exact switchOver_rule hmode i htarget

theorem prepareStop_rule {g : Engine} (hmode : c.portable = g.portable) (journal : UpdateJournal)
    (target : Checked) (htarget : c.target = target.version) (updateId : String) :
    Triple (At c start .installing (Calm c .waitingIdle fun _ => True))
      (g.prepareStop journal target updateId) (fun _ => Covered c start) (Covered c start) := by
  have hdrain : ∀ running, Triple (At c start .installing (Calm c .waitingIdle fun _ => True))
      (drainOldServer running)
      (either (fun _ => At c start .installing (Calm c .waitingIdle fun _ => True))
        fun _ => At c start .installing (Calm c .waitingIdle fun _ => True))
      (Covered c start) := by
    intro running
    unfold drainOldServer
    split
    · refine (ask_rule Calm.stable).bind fun e => ?_
      split <;> exact .pure fun _ hw => hw
    · exact .pure fun _ hw => hw
  refine (ask_rule Calm.stable).bind fun health => ?_
  refine (ask_rule Calm.stable).bind fun listening => ?_
  refine (hdrain listening.ok).orFail (fun reason => ?_) fun _ => takeSnapshot_rule hmode _ htarget
  refine (mutate_rule .installing (InState .staged) Calm.stable
    (fun w hw => .prepares (by rw [hw.1]; rfl) (.inl (by rfl)) ⟨by rfl, by rfl⟩)
    fun _ _ => by rfl).bind fun r => .pure fun w hw => ?_
  cases r <;> exact ⟨_, hw.1⟩

/-- REFINEMENT: an installation from `staged` has only effects of the transaction. -/
theorem installDownloaded_rule {g : Engine} (hmode : c.portable = g.portable) (target : Checked)
    (htarget : c.target = target.version) :
    Triple (At c start .installing (Calm c .staged fun _ => True)) (g.installDownloaded target)
      (fun _ => Covered c start) (Covered c start) := by
  have hbefore : ∀ s, early s → ∀ err, Triple
      (At c start .installing (Calm c s fun _ => True)) (failBeforeSnapshot err)
      (fun _ => Covered c start) (Covered c start) :=
    fun s hs => failBeforeSnapshot_rule Calm.stable fun w hw => hw.1 ▸ hs
  refine (mutate_rule .installing (Calm c .waitingIdle fun _ => True) Calm.stable
    (fun w hw => .prepares (by rw [hw.1]; rfl) (.inl (by rfl)) ⟨by rfl, by rfl⟩)
    fun w hw => ⟨by rfl, hw.2⟩).orFail (hbefore .staged rfl) fun _ => ?_
  refine (loadJournal_rule Calm.stable).orFail (hbefore .waitingIdle rfl) fun journal => ?_
  refine Triple.pre ?_ fun w hw => hw.mono fun _ h => h.1
  split
  · exact hbefore .waitingIdle rfl _
  · exact prepareStop_rule hmode journal target htarget _

end

end Gamer.Updater.Transaction
