import Gamer.Updater.Refinement.Recovery

/-! The law of the journal: `manual_recovery_required` is never left, and the states in which the
    new version may own the data are left only forward, for manual recovery, or after the snapshot
    was restored and the pointer written back. Every operation keeps it, but for two: the intent of
    a check and the failure of an installation are written over whatever the journal says. -/

namespace Gamer.Updater
open Gamer.Lib Gamer.Lib.Prog
open Transaction Engine

/-- LAW: a journal write from `old` to `new`, after what the operation did earlier. -/
def Edge (earlier : List Event) (old new : UpdateJournal) : Prop :=
  (old.state = .manualRecoveryRequired → new.state = .manualRecoveryRequired) ∧
  (inFlight old.state → inFlight new.state ∨ new.state = .committed ∨
    new.state = .manualRecoveryRequired ∨
    new.state = .idle ∧ ∃ version, old.rollbackTarget = some version ∧
      List.Sublist [.restored, .pointer version] earlier)

def Lawful (log : List Event) : Prop :=
  ∀ earlier old new later, log = earlier ++ .journal old new :: later → Edge earlier old new

/-- A state the law says nothing about. -/
def Free (s : UpdateState) : Prop := s ≠ .manualRecoveryRequired ∧ inFlight s = false

theorem Free.edge {log : List Event} {old new : UpdateJournal} (h : Free old.state) :
    Edge log old new :=
  ⟨fun hm => absurd hm h.1, fun hf => absurd hf (by simp [h.2])⟩

theorem Free.of_early {s : UpdateState} (h : early s) : Free s := by
  cases s <;> first | exact ⟨by decide, rfl⟩ | exact absurd h (by decide)

theorem Edge.same {log : List Event} {old new : UpdateJournal} (h : new.state = old.state) :
    Edge log old new :=
  ⟨fun hm => h.trans hm, fun hf => .inl (h ▸ hf)⟩

theorem Edge.manual {log : List Event} {old new : UpdateJournal}
    (h : new.state = .manualRecoveryRequired) : Edge log old new :=
  ⟨fun _ => h, fun _ => .inr (.inr (.inl h))⟩

/-! ### Properties of the log that lawful writes keep -/

structure Tolerates (L : List Event → Prop) : Prop where
  journal : ∀ {log : List Event} {old new : UpdateJournal}, L log → Edge log old new →
    L (log ++ [.journal old new])
  other : ∀ {log : List Event} {e : Event}, L log → (∀ old new, e ≠ .journal old new) →
    L (log ++ [e])

/-- A decomposition of an extended log is one of the log, or ends with the new event. -/
theorem concat_eq_append_cons {log earlier later : List Event} {e e' : Event}
    (h : log ++ [e] = earlier ++ e' :: later) :
    (log = earlier ∧ e = e') ∨ ∃ later', log = earlier ++ e' :: later' := by
  rcases List.eq_nil_or_concat later with rfl | ⟨later', x, rfl⟩
  · obtain ⟨hlog, he⟩ := List.append_inj' h rfl
    exact .inl ⟨hlog, by simpa using he⟩
  · have hsplit : log ++ [e] = (earlier ++ e' :: later') ++ [x] := by simpa using h
    exact .inr ⟨later', (List.append_inj' hsplit rfl).1⟩

theorem lawful_tolerates : Tolerates Lawful where
  journal {log old new} h hedge := by
    intro earlier old' new' later hlog
    rcases concat_eq_append_cons hlog with ⟨rfl, heq⟩ | ⟨later', hlog'⟩
    · cases heq
      exact hedge
    · exact h earlier old' new' later' hlog'
  other {log e} h hother := by
    intro earlier old' new' later hlog
    rcases concat_eq_append_cons hlog with ⟨-, heq⟩ | ⟨later', hlog'⟩
    · exact absurd heq (hother old' new')
    · exact h earlier old' new' later' hlog'

theorem starts_tolerates (first : Event) : Tolerates fun log => [first] <+: log where
  journal h _ := h.trans (List.prefix_append ..)
  other h _ := h.trans (List.prefix_append ..)

theorem lawful_nil : Lawful [] := by
  intro earlier old new later h
  simp at h

theorem not_lawful_of_starts {old new : UpdateJournal} {log : List Event}
    (hstarts : [.journal old new] <+: log) (hbad : ¬ Edge [] old new) : ¬ Lawful log := by
  intro hlawful
  obtain ⟨later, rfl⟩ := hstarts
  exact hbad (hlawful [] old new later rfl)

/-! ### The transaction keeps the law -/

section
variable {L : List Event → Prop} {c : Setting}

/-- What a rollback that restores has done by now. -/
def Undone (w : World) : Swap → Prop
  | .whole => restoresFrom w.journal.state → .restored ∈ w.log
  | .pointed => restoresFrom w.journal.state → ∃ version,
      w.journal.rollbackTarget = some version ∧ List.Sublist [.restored, .pointer version] w.log
  | _ => True

/-- The law so far, and how far a rollback is. -/
def Law (L : List Event → Prop) (x : Phase × World) : Prop :=
  L x.2.log ∧ ∀ swap, x.1 = .rolling swap → rollbackable x.2.journal.state ∧ Undone x.2 swap

theorem Law.installing {w : World} (h : L w.log) : Law L (.installing, w) :=
  ⟨h, fun _ heq => by cases heq⟩

theorem Law.settling {w : World} (h : L w.log) : Law L (.settling, w) :=
  ⟨h, fun _ heq => by cases heq⟩

theorem Law.rolling {w : World} {swap : Swap} (h : L w.log) (hs : rollbackable w.journal.state)
    (hundone : Undone w swap) : Law L (.rolling swap, w) :=
  ⟨h, fun _ heq => by cases heq; exact ⟨hs, hundone⟩⟩

theorem Law.close (hL : Tolerates L) {w : World} (h : L w.log) (j : UpdateJournal) (landed : Bool)
    (hedge : landed → Edge w.log w.journal j) : L (w.close j landed).log := by
  cases landed with
  | false => exact hL.other h fun _ _ => by simp
  | true => exact hL.other (hL.journal h (hedge rfl)) fun _ _ => by simp

theorem closes_free {old new : UpdateState} (h : Closes old new) : Free old := by
  cases h with
  | staged h => exact .of_early h
  | early h => exact .of_early h
  | untouched h => rcases h with rfl | rfl <;> exact ⟨by decide, rfl⟩
  | committed h => rcases h with rfl | rfl <;> exact ⟨by decide, rfl⟩

theorem restoresFrom_of_inFlight {s : UpdateState} (h : inFlight s) : restoresFrom s := by
  cases s <;> first | rfl | exact absurd h (by decide)

/-- A note keeps what the rollback has done. -/
theorem Undone.notes {w : World} {swap : Swap} {j : UpdateJournal} (h : Undone w swap)
    (hstate : j.state = w.journal.state) (hsame : Same w.journal j) :
    Undone (w.writeJournal j) swap := by
  have hs : (w.writeJournal j).journal.state = w.journal.state := hstate
  cases swap
  case whole => exact fun hr => List.mem_append_left _ (h (hs ▸ hr))
  case pointed =>
    intro hr
    obtain ⟨version, htarget, hsub⟩ := h (hs ▸ hr)
    exact ⟨version, hsame.2.trans htarget, hsub.trans (List.sublist_append_left ..)⟩
  all_goals trivial

/-- STEP: one effect of the transaction. -/
theorem Law.step (hL : Tolerates L) {x y : Phase × World} (h : Law L x) (hstep : Step c x y) :
    Law L y := by
  obtain ⟨hlog, hphase⟩ := h
  have hfree : ∀ {w : World} {j : UpdateJournal} {s : UpdateState}, L w.log →
      w.journal.state = s → Free s → Law L (.installing, w.writeJournal j) :=
    fun hlog hs hfree => .installing (hL.journal hlog (Free.edge (hs ▸ hfree)))
  cases hstep with
  | happens ph w e =>
    refine ⟨by simpa using hlog, fun swap heq => ?_⟩
    obtain ⟨hs, hundone⟩ := hphase swap heq
    refine ⟨by simpa using hs, ?_⟩
    cases swap <;> first | trivial | simpa [Undone] using hundone
  | restarts ph w => exact .settling hlog
  | notes ph hstate hsame =>
    refine ⟨hL.journal hlog (.same hstate), fun swap heq => ?_⟩
    obtain ⟨hs, hundone⟩ := hphase swap heq
    exact ⟨hstate ▸ hs, hundone.notes hstate hsame⟩
  | stores ph backups hstate => exact ⟨hlog, hphase⟩
  | prepares hold hnew hsame => exact hfree hlog rfl (.of_early hold)
  | verifies hold hnew hsnapshot htarget hkept => exact hfree hlog hold ⟨by decide, rfl⟩
  | migrates hold hnew hsame => exact hfree hlog hold ⟨by decide, rfl⟩
  | givesUp hold hnew => exact hfree hlog hold ⟨by decide, rfl⟩
  | switches hold hnew hsame => exact hfree hlog hold ⟨by decide, rfl⟩
  | points hstate htarget => exact .installing (hL.other hlog fun _ _ => by simp)
  | spawns child hstate => exact .installing hlog
  | advances hold hnew hsame =>
    refine .installing (hL.journal hlog ⟨fun hm => ?_, fun _ => .inl hnew⟩)
    rw [hm] at hold
    exact absurd hold (by decide)
  | opens hstate => exact .installing (hL.other hlog fun _ _ => by simp)
  | commits hold hnew hpointer =>
    refine .installing (hL.journal hlog ⟨fun hm => ?_, fun _ => .inr (.inl hnew)⟩)
    rw [hm] at hold
    exact absurd hold (by decide)
  | cleans hold hnew =>
    rcases hold with hold | hold <;> exact hfree hlog hold ⟨by decide, rfl⟩
  | rolls hstart hstate => exact .rolling hlog hstate trivial
  | takesData hstate hdata =>
    exact .rolling (hL.other hlog fun _ _ => by simp) (hphase _ rfl).1 trivial
  | takesConfig hstate hconfig =>
    exact .rolling (hL.other hlog fun _ _ => by simp) (hphase _ rfl).1 trivial
  | lacksConfig hstate hconfig => exact .rolling hlog (hphase _ rfl).1 trivial
  | putsData hstate hdata hsnapshot hstaged =>
    exact .rolling (hL.other hlog fun _ _ => by simp) (hphase _ rfl).1 trivial
  | putsConfig hstate hconfig hsnapshot hstaged =>
    exact .rolling (hL.other hlog fun _ _ => by simp) (hphase _ rfl).1 trivial
  | leavesConfig hstate hconfig hsnapshot hstaged =>
    exact .rolling hlog (hphase _ rfl).1 trivial
  | restores =>
    exact .rolling (hL.other hlog fun _ _ => by simp) (hphase _ rfl).1
      fun _ => List.mem_concat_self
  | skips hstate =>
    exact .rolling hlog (hphase _ rfl).1 fun hr => absurd hr (by simp [hstate])
  | @pointsBack w cur htarget =>
    obtain ⟨hs, hrestored⟩ := hphase _ rfl
    refine .rolling (hL.other hlog fun _ _ => by simp) hs fun hr => ⟨cur.current, htarget, ?_⟩
    exact List.Sublist.append (List.singleton_sublist.mpr (hrestored hr)) (List.Sublist.refl _)
  | rolledBack hnew =>
    obtain ⟨hs, hundone⟩ := hphase _ rfl
    refine .settling (hL.journal hlog ⟨fun hm => ?_, fun hf => ?_⟩)
    · rw [hm] at hs
      exact absurd hs (by decide)
    · exact .inr (.inr (.inr ⟨hnew, hundone (restoresFrom_of_inFlight hf)⟩))
  | givesIn hnew => exact .settling (hL.journal hlog (.manual hnew))
  | closesManual hnew => exact .settling (Law.close hL hlog _ _ fun _ => .manual hnew)
  | closes hedge hsame =>
    exact .settling (Law.close hL hlog _ _ fun _ => (closes_free hedge).edge)

/-- RUN: what follows the transaction keeps the law. -/
theorem Law.covered (hL : Tolerates L) {start : Phase × World} (h : Law L start) {w : World}
    (hcovered : Covered c start w) : L w.log := by
  obtain ⟨ph, hleads⟩ := hcovered
  exact (hleads.invariant (I := Law L) (fun _ _ hx hstep => hx.step hL hstep) h).1

/-- A program that follows the transaction, from every world of the precondition. -/
theorem law_rule (c : Setting) (ph : Phase) (hL : Tolerates L) {α : Type} {p : Action α}
    {P : World → Prop} (hlaw : ∀ w, P w → Law L (ph, w))
    (h : ∀ start, Triple (At c start ph P) p (fun _ => Covered c start) (Covered c start)) :
    Triple P p (fun _ w => L w.log) fun w => L w.log := by
  intro tape w hw
  have hrun := h (ph, w) tape w ⟨.refl ph w, hw⟩
  cases hend : p tape w with
  | cut w' => exact (hlaw w hw).covered hL (by rw [hend] at hrun; exact hrun)
  | done a w' rest => exact (hlaw w hw).covered hL (by rw [hend] at hrun; exact hrun)

end

/-! ### The operations before an installation -/

section
variable {L : List Event → Prop} {F F' : World → Prop}

/-- The property of the log, with a fact. -/
def Keeps (L : List Event → Prop) (F : World → Prop) (w : World) : Prop := L w.log ∧ F w

def FreeState (w : World) : Prop := Free w.journal.state

theorem FreeState.stable : Stable FreeState := by
  intro w e h
  simpa [FreeState] using h

theorem inState_free {s : UpdateState} (hs : Free s) {w : World} (h : InState s w) :
    FreeState w := by
  rw [FreeState, h]
  exact hs

theorem Keeps.mono {w : World} (h : Keeps L F w) (hF : ∀ w, F w → F' w) : Keeps L F' w :=
  ⟨h.1, hF w h.2⟩

theorem keeps_act {α : Type} {f : Answer → World → α × World} {Q : α → World → Prop}
    (hF : Stable F) (h : ∀ e w, Keeps L F w → Q (f e w).1 (f e w).2) :
    Triple (Keeps L F) (act f) Q fun w => L w.log :=
  .effect (fun _ hw => hw.1) fun e w hw =>
    h e (w.happen e) ⟨by rw [World.happen_log]; exact hw.1, hF w e hw.2⟩

theorem keeps_ask (hF : Stable F) :
    Triple (Keeps L F) ask (fun _ => Keeps L F) fun w => L w.log :=
  keeps_act hF fun _ _ hw => hw

theorem keeps_outside (hF : Stable F) :
    Triple (Keeps L F) outside (either (fun _ => Keeps L F) fun _ => Keeps L F)
      fun w => L w.log := by
  refine keeps_act hF fun e w hw => ?_
  cases hok : e.ok <;> exact hw

theorem keeps_loadJournal (hF : Stable F) :
    Triple (Keeps L F) loadJournal
      (either (fun _ => Keeps L F) fun j => Keeps L fun w => F w ∧ w.journal = j)
      fun w => L w.log := by
  refine keeps_act hF fun e w hw => ?_
  cases hok : e.ok
  · exact hw
  · exact ⟨hw.1, hw.2, rfl⟩

/-- A write over a state that is free. -/
theorem keeps_mutate (F' : World → Prop) (hL : Tolerates L)
    {f : UpdateJournal → UpdateJournal} (hF : Stable F) (hfree : ∀ w, F w → FreeState w) (hF' : ∀ w, F w → F' (w.writeJournal (f w.journal))) :
    Triple (Keeps L F) (mutateJournal f) (either (fun _ => Keeps L F) fun _ => Keeps L F')
      fun w => L w.log := by
  refine (keeps_loadJournal hF).andThen (fun _ _ hw => hw) fun j => ?_
  have hwrite : Triple (Keeps L fun w => F w ∧ w.journal = j) (writeJournal (f j))
      (either (fun _ => Keeps L F) fun _ => Keeps L F') fun w => L w.log := by
    refine keeps_act (hF.and fun w e h => by simpa using h) fun e w hw => ?_
    obtain ⟨hlog, hfact, rfl⟩ := hw
    cases hok : e.ok
    · exact ⟨hlog, hfact⟩
    · exact ⟨hL.journal hlog (hfree w hfact).edge, hF' w hfact⟩
  exact hwrite.andThen (fun _ _ hw => hw) fun _ => .pure fun _ hw => hw

/-- A write that ends in a free state, whatever came of it. -/
theorem keeps_mutate_free (hL : Tolerates L) {f : UpdateJournal → UpdateJournal}
    (hf : ∀ j, Free j.state → Free (f j).state) :
    Triple (Keeps L FreeState) (mutateJournal f) (fun _ => Keeps L FreeState)
      fun w => L w.log := by
  refine (keeps_mutate FreeState hL FreeState.stable (fun _ h => h) fun w h => hf w.journal h).post ?_
  intro r w hw
  cases r <;> exact hw

theorem keeps_currentVersion (hF : Stable F) :
    Triple (Keeps L F) currentVersion (either (fun _ => Keeps L F) fun _ => Keeps L F)
      fun w => L w.log := by
  refine Triple.bind (Q := fun _ => Keeps L F) (keeps_act hF fun _ _ hw => hw) fun r => ?_
  split <;> exact .pure fun _ hw => hw

theorem keeps_recordCandidate (hL : Tolerates L) (g : Engine) :
    Triple (Keeps L (InState .checking)) g.recordCandidate
      (either (fun _ => Keeps L FreeState) fun _ => Keeps L (InState .checking))
      fun w => L w.log := by
  have hfree : ∀ w, InState .checking w → FreeState w := fun w h => inState_free ⟨by decide, rfl⟩ h
  refine (keeps_outside InState.stable).bind fun r => ?_
  cases r with
  | ok e =>
    exact (keeps_mutate (InState .checking) hL InState.stable hfree fun w hw => by exact hw).andThen
      (fun _ w hw => hw.mono hfree) fun _ => .pure fun _ hw => hw
  | error err =>
    refine (keeps_mutate FreeState hL InState.stable hfree fun w hw => ?_).andThen
      (fun _ w hw => hw.mono hfree) fun _ => .pure fun _ hw => hw
    have hidle : Free .idle := ⟨by decide, rfl⟩
    show Free (ite _ _ _ : UpdateJournal).state
    split
    · exact hidle
    · exact hidle

/-- A check in a free state; in `manual_recovery_required` it does nothing. -/
theorem keeps_phaseCheck (hL : Tolerates L) (g : Engine) :
    Triple (Keeps L fun w => w.journal.state = .manualRecoveryRequired ∨ FreeState w) g.phaseCheck
      (either (fun _ w => L w.log) fun _ => Keeps L (InState .checking)) fun w => L w.log := by
  have hstable : Stable fun w => w.journal.state = .manualRecoveryRequired ∨ FreeState w :=
    fun w e h => by simpa [FreeState] using h
  refine (keeps_loadJournal hstable).andThen (fun _ _ hw => hw.1) fun journal => ?_
  unfold guardNotManual
  split
  · next err hguard => exact .pure fun _ hw => hw.1
  · next hguard =>
    have hnot : journal.state ≠ .manualRecoveryRequired := by
      intro hm
      rw [if_pos hm] at hguard
      cases hguard
    have hread : ∀ w, Keeps L (fun w => (w.journal.state = .manualRecoveryRequired ∨ FreeState w) ∧
        w.journal = journal) w → Keeps L FreeState w := by
      rintro w ⟨hlog, hstate, rfl⟩
      exact ⟨hlog, hstate.resolve_left hnot⟩
    refine Triple.pre ?_ hread
    refine (keeps_currentVersion FreeState.stable).andThen (fun _ _ hw => hw.1) fun current => ?_
    refine (keeps_ask FreeState.stable).bind fun e => ?_
    refine (keeps_mutate (InState .checking) hL FreeState.stable (fun _ h => h)
      fun w hw => by rfl).andThen (fun _ _ hw => hw.1) fun _ => ?_
    exact (keeps_recordCandidate hL g).post fun r w hw => by
      cases r <;> [exact hw.1; exact hw]

/-- A download writes only in the states of a check and of a download. -/
theorem keeps_phaseDownload (hL : Tolerates L) :
    Triple (Keeps L fun _ => True) phaseDownload
      (either (fun _ w => L w.log) fun _ => Keeps L (InState .staged)) fun w => L w.log := by
  refine (keeps_loadJournal fun _ _ h => h).andThen (fun _ _ hw => hw.1) fun journal => ?_
  split
  · exact .pure fun _ hw => hw.1
  split
  · exact .pure fun _ hw => hw.1
  · exact .pure fun _ hw => hw.1
  split
  · exact .pure fun _ hw => hw.1
  · next hstate =>
    have hfree : Free journal.state := by
      by_cases hd : journal.state = .downloading
      · exact hd ▸ ⟨by decide, rfl⟩
      · have hc : journal.state = .checking := by
          by_contra hne
          exact hstate ⟨fun h => hne h.1, hd⟩
        exact hc ▸ ⟨by decide, rfl⟩
    have hread : ∀ w, Keeps L (fun w => True ∧ w.journal = journal) w → Keeps L FreeState w := by
      rintro w ⟨hlog, -, rfl⟩
      exact ⟨hlog, hfree⟩
    have hdownloading : ∀ w, InState .downloading w → FreeState w :=
      fun w h => inState_free ⟨by decide, rfl⟩ h
    refine Triple.pre ?_ hread
    refine (keeps_mutate (InState .downloading) hL FreeState.stable (fun _ h => h)
      fun w _ => by rfl).andThen (fun _ _ hw => hw.1) fun _ => ?_
    refine (keeps_outside InState.stable).andThen (fun _ _ hw => hw.1) fun _ => ?_
    refine (keeps_outside InState.stable).bind fun r => ?_
    cases r with
    | error err =>
      exact (keeps_mutate (fun _ => True) hL InState.stable hdownloading fun _ _ => trivial).andThen
        (fun _ _ hw => hw.1) fun _ => .pure fun _ hw => hw.1
    | ok e =>
      exact (keeps_mutate (InState .staged) hL InState.stable hdownloading fun w _ => by rfl).andThen
        (fun _ _ hw => hw.1) fun _ => .pure fun _ hw => hw

/-- A preparation writes only from `staged`; where it refuses, the state is as it was. -/
theorem keeps_phasePrepareInstall (hL : Tolerates L) (hF : Stable F)
    (hfree : ∀ w, FreeState w → F w) :
    Triple (Keeps L F) phasePrepareInstall
      (either (fun _ => Keeps L F) fun _ => Keeps L (InState .staged)) fun w => L w.log := by
  have hverifying : ∀ w, InState .verifying w → FreeState w :=
    fun w h => inState_free ⟨by decide, rfl⟩ h
  have hback : ∀ w, FreeState w → F w := hfree
  refine (keeps_loadJournal hF).andThen (fun _ _ hw => hw) fun journal => ?_
  have hkeep : ∀ w, Keeps L (fun w => F w ∧ w.journal = journal) w → Keeps L F w :=
    fun w hw => hw.mono fun _ h => h.1
  split
  · exact .pure hkeep
  split
  · split <;> exact .pure hkeep
  · next hstate =>
    split
    · exact .pure hkeep
    · have hstaged : ∀ w, Keeps L (fun w => F w ∧ w.journal = journal) w →
          Keeps L (InState .staged) w := by
        rintro w ⟨hlog, -, rfl⟩
        exact ⟨hlog, not_not.mp hstate⟩
      refine Triple.pre ?_ hstaged
      refine (keeps_mutate (InState .verifying) hL InState.stable
        (fun w h => inState_free ⟨by decide, rfl⟩ h) fun w _ => by rfl).andThen
        (fun _ w hw => hw.mono fun w h => hback w (inState_free ⟨by decide, rfl⟩ h)) fun _ => ?_
      refine (keeps_outside InState.stable).bind fun r => ?_
      cases r with
      | ok e =>
        exact (keeps_mutate (InState .staged) hL InState.stable hverifying
          fun w _ => by rfl).andThen (fun _ w hw => hw.mono fun w h => hback w (hverifying w h))
          fun _ => .pure fun _ hw => hw
      | error err =>
        refine (keeps_mutate (InState .staged) hL InState.stable hverifying
          fun w _ => by rfl).andThen (fun _ w hw => hw.mono fun w h => hback w (hverifying w h))
          fun _ => .pure fun w hw => hw.mono fun w h => hback w (inState_free ⟨by decide, rfl⟩ h)

/-! ### The operations that follow the transaction -/

theorem keeps_installDownloaded (hL : Tolerates L) (g : Engine) (target : Checked) :
    Triple (Keeps L (InState .staged)) (g.installDownloaded target) (fun _ w => L w.log)
      fun w => L w.log := by
  let c : Setting := ⟨target.version, g.portable, False⟩
  refine law_rule c .installing hL (fun w hw => .installing hw.1) fun start => ?_
  exact (installDownloaded_rule rfl target rfl).pre
    fun w hw => hw.mono fun w hw => ⟨hw.2, False.elim⟩

theorem keeps_recover (hL : Tolerates L) (sha : String → String) :
    Triple (fun w => L w.log) (recoverOnStartup sha) (fun _ w => L w.log) fun w => L w.log := by
  let c : Setting := ⟨"", false, False⟩
  refine law_rule c .settling hL (fun w hw => .settling hw) fun start => ?_
  refine ((recoverOnStartup_rule sha).pre fun w hw => hw.mono fun _ _ => trivial).post ?_
  intro r w hw
  cases r <;> [exact hw; exact hw.1]

/-- A rollback from outside cancels in a free state, or is one of the transaction. -/
theorem keeps_phaseRollback (hL : Tolerates L) (g : Engine) :
    Triple (Keeps L fun _ => True) g.phaseRollback (fun _ w => L w.log) fun w => L w.log := by
  refine (keeps_loadJournal fun _ _ h => h).bind fun r => ?_
  cases r with
  | error err => exact .pure fun _ hw => hw.1
  | ok journal =>
    dsimp only
    split
    · exact .pure fun _ hw => hw.1
    split
    · next hcancel =>
      have hfree : ∀ w, either (fun _ : BusinessError => Keeps L fun _ => True)
          (fun j => Keeps L fun w => True ∧ w.journal = j) (.ok journal) w →
          Keeps L FreeState w := by
        rintro w ⟨hlog, -, rfl⟩
        refine ⟨hlog, Free.of_early ?_⟩
        generalize w.journal.state = s at hcancel
        cases s <;> first | rfl | exact absurd hcancel (by decide)
      refine Triple.pre ?_ hfree
      refine Triple.bind (keeps_mutate FreeState hL FreeState.stable (fun _ h => h)
        fun w h => by exact h) fun r => ?_
      cases r with
      | error err => exact .pure fun _ hw => hw.1
      | ok _ =>
        refine (keeps_ask FreeState.stable).bind fun _ => ?_
        refine Triple.bind (keeps_mutate (fun _ => True) hL FreeState.stable (fun _ h => h)
          fun _ _ => trivial) fun r => ?_
        cases r <;> exact .pure fun _ hw => hw.1
    split
    · exact .pure fun _ hw => hw.1
    · next hallowed =>
      have hstate : rollbackable journal.state := by
        by_contra hne
        exact hallowed (.inr fun h => hne h.1)
      let c : Setting := ⟨"", g.portable, False⟩
      refine law_rule c .settling hL (fun w hw => .settling hw.1) fun start => ?_
      refine ((rollbackProcedure_rule g false hstate (.inr rfl)).pre fun w hw =>
        hw.mono fun w hw => ?_).orFail (fun err => (enterManualRecovery_rule err).bind fun _ =>
          .pure fun _ hw => hw) fun _ => .pure fun w hw => hw.covered
      obtain ⟨-, -, rfl⟩ := hw
      exact Follows.refl w

end

section
variable {L : List Event → Prop} {F : World → Prop}

theorem keeps_stagedCandidate (hF : Stable F) :
    Triple (Keeps L F) stagedCandidate (either (fun _ => Keeps L F) fun _ => Keeps L F)
      fun w => L w.log := by
  refine (keeps_loadJournal hF).andThen (fun _ _ hw => hw) fun journal => ?_
  refine Triple.pre ?_ fun w hw => hw.mono fun _ h => h.1
  split
  · exact .pure fun _ hw => hw
  · exact (keeps_outside hF).andThen (fun _ _ hw => hw) fun _ => .pure fun _ hw => hw

/-- In a free state the failure of a preparation is written over a free state. -/
theorem keeps_installStaged (hL : Tolerates L) (g : Engine) :
    Triple (Keeps L FreeState) g.installStaged (fun _ w => L w.log) fun w => L w.log := by
  refine (keeps_phasePrepareInstall hL FreeState.stable fun _ h => h).orFail (fun err => ?_)
    fun _ => ?_
  · exact (keeps_mutate_free hL fun j _ => ⟨fun h => (by cases h), rfl⟩).bind fun _ => .pure fun _ hw => hw.1
  · exact (keeps_stagedCandidate InState.stable).orFail (fun _ => .pure fun _ hw => hw.1)
      fun target => keeps_installDownloaded hL g target

/-- What a full run does once its check has a result to record. -/
theorem keeps_runFull_tail (hL : Tolerates L) (g : Engine) {P : World → Prop}
    {p : Action (Except BusinessError Checked)}
    (hp : Triple P p (either (fun _ w => L w.log) fun _ => Keeps L (InState .checking))
      fun w => L w.log) :
    Triple P (p.orFail (fun err => pure (.failedOldHealthy err)) fun checked =>
      phaseDownload.orFail (fun err => pure (.failedOldHealthy err)) fun _ =>
      g.installDownloaded checked) (fun _ w => L w.log) fun w => L w.log := by
  refine hp.orFail (fun _ => .pure fun _ hw => hw) fun checked => ?_
  refine ((keeps_phaseDownload hL).pre fun w hw => hw.mono fun _ _ => trivial).orFail
    (fun _ => .pure fun _ hw => hw) fun _ => ?_
  exact keeps_installDownloaded hL g checked

end

/-! ### Every operation -/

/-- The public operations of the engine, and the startup. -/
inductive Operation where
  | check | download | prepareInstall | rollback | installStaged | runFull | recover
  deriving DecidableEq

def discard {α : Type} (p : Action α) : Action Unit := p >>= fun _ => pure ()

theorem discard_state {α : Type} (p : Action α) (tape : List Answer) (w : World) :
    (discard p tape w).state = (p tape w).state := by
  rw [discard, bind_run]
  cases p tape w <;> rfl

def Operation.run (g : Engine) : Operation → Action Unit
  | .check => discard g.phaseCheck
  | .download => discard phaseDownload
  | .prepareInstall => discard phasePrepareInstall
  | .rollback => discard g.phaseRollback
  | .installStaged => discard g.installStaged
  | .runFull => discard g.runFull
  | .recover => discard (recoverOnStartup g.sha)

/-- A change of the journal is read and written. -/
def changeLands : List Answer → Bool
  | a :: b :: _ => a.ok && b.ok
  | _ => false

/-- The reads of a check and the write of its intent succeed. -/
def intentLands (w : World) : List Answer → Bool
  | a :: b :: _ :: rest => w.current.isSome && a.ok && b.ok && changeLands rest
  | _ => false

/-- The failure of a preparation, which follows one read, gets into the journal. -/
def failureLands : List Answer → Bool
  | _ :: rest => changeLands rest
  | _ => false

/-- The runs that drop an unfinished transaction. -/
def Operation.drops (w : World) (tape : List Answer) : Operation → Bool
  | .check | .runFull => inFlight w.journal.state && intentLands w tape
  | .installStaged =>
    (inFlight w.journal.state || w.journal.state = .manualRecoveryRequired) && failureLands tape
  | _ => false

section
variable {w : World} {tape : List Answer}

/-- The intent of a check is written over a state the law protects. -/
theorem intent_not_edge {old new : UpdateJournal} (hold : inFlight old.state)
    (hnew : new.state = .checking) : ¬ Edge [] old new := by
  rintro ⟨-, h⟩
  rcases h hold with h | h | h | ⟨h, -⟩ <;> rw [hnew] at h <;> exact absurd h (by decide)

theorem failure_not_edge {old new : UpdateJournal}
    (hold : inFlight old.state ∨ old.state = .manualRecoveryRequired) (hnew : new.state = .idle) :
    ¬ Edge [] old new := by
  rintro ⟨hm, hf⟩
  rcases hold with hold | hold
  · rcases hf hold with h | h | h | ⟨-, version, -, hsub⟩
    · exact absurd (hnew ▸ h) (by decide)
    · cases hnew.symm.trans h
    · cases hnew.symm.trans h
    · exact absurd hsub (by simp)
  · cases hnew.symm.trans (hm hold)

/-- The run gets to no result, and has written nothing. -/
def Fails {α : Type} (ended : Ended Answer World (Except BusinessError α)) (log : List Event) :
    Prop :=
  (∃ w, ended = .cut w ∧ w.log = log) ∨
    ∃ err w rest, ended = .done (.error err) w rest ∧ w.log = log

theorem Fails.state {α : Type} {ended : Ended Answer World (Except BusinessError α)}
    {log : List Event} (h : Fails ended log) : ended.state.log = log := by
  rcases h with ⟨w, rfl, hlog⟩ | ⟨err, w, rest, rfl, hlog⟩ <;> exact hlog

theorem Fails.andThen {α β : Type} {p : Action (Except BusinessError α)}
    {k : α → Action (Except BusinessError β)} {log : List Event} (h : Fails (p tape w) log) :
    Fails (p.andThen k tape w) log := by
  rcases h with ⟨w', hend, hlog⟩ | ⟨err, w', rest, hend, hlog⟩
  · exact .inl ⟨w', orFail_of_cut hend, hlog⟩
  · exact .inr ⟨err, w', rest, orFail_of_error hend, hlog⟩

/-- A failure that is handled without a write. -/
theorem Fails.orFail_pure {α β : Type} {p : Action (Except BusinessError α)}
    {fail : BusinessError → β} {k : α → Action β} {log : List Event} (h : Fails (p tape w) log) :
    (p.orFail (fun err => pure (fail err)) k tape w).state.log = log := by
  rcases h with ⟨w', hend, hlog⟩ | ⟨err, w', rest, hend, hlog⟩
  · rw [orFail_of_cut hend]
    exact hlog
  · rw [orFail_of_error hend]
    exact hlog

theorem loadJournal_ok {e : Answer} (h : e.ok) :
    loadJournal (e :: tape) w = .done (.ok w.journal) (w.happen e) tape := by
  simp [loadJournal, act, Prog.effect, h]

theorem loadJournal_fails (h : ∀ e ∈ tape.head?, e.ok = false) :
    Fails (loadJournal tape w) w.log := by
  cases tape with
  | nil => exact .inl ⟨w, rfl, rfl⟩
  | cons e rest =>
    have he : e.ok = false := h e rfl
    exact .inr ⟨ioError "读取 journal 失败: " e, w.happen e, rest,
      by simp [loadJournal, act, Prog.effect, he], World.happen_log w e⟩

theorem mutateJournal_lands {f : UpdateJournal → UpdateJournal} {a b : Answer}
    (h : changeLands (a :: b :: tape)) :
    mutateJournal f (a :: b :: tape) w =
      .done (.ok (f w.journal)) (((w.happen a).happen b).writeJournal (f w.journal)) tape := by
  obtain ⟨ha, hb⟩ := Bool.and_eq_true_iff.mp h
  rw [mutateJournal, Prog.andThen, orFail_of_ok (loadJournal_ok ha)]
  simp only [Prog.andThen, Prog.orFail, bind_run, writeJournal, act, Prog.effect, hb]
  rfl

theorem mutateJournal_fails {f : UpdateJournal → UpdateJournal} (h : changeLands tape = false) :
    Fails (mutateJournal f tape w) w.log := by
  cases tape with
  | nil => exact (loadJournal_fails (by simp)).andThen
  | cons a rest =>
    cases ha : a.ok with
    | false => exact (loadJournal_fails (by simpa using ha)).andThen
    | true =>
      rw [mutateJournal, Prog.andThen, orFail_of_ok (loadJournal_ok ha)]
      refine Fails.andThen ?_
      cases rest with
      | nil => exact .inl ⟨w.happen a, rfl, World.happen_log w a⟩
      | cons b rest =>
        have hb : b.ok = false := by simpa [changeLands, ha] using h
        refine .inr ⟨ioError "写 journal 失败: " b, (w.happen a).happen b, rest, ?_, by simp⟩
        simp [writeJournal, act, Prog.effect, hb]

theorem currentVersion_ok {b : Answer} {cur : CurrentState} (hb : b.ok)
    (hcur : w.current = some cur) :
    currentVersion (b :: tape) w = .done (.ok cur.current) (w.happen b) tape := by
  rw [currentVersion, bind_run]
  simp only [loadCurrent, act, Prog.effect, hb, if_true, World.happen_current, hcur]
  rfl

theorem currentVersion_fails (h : ∀ b ∈ tape.head?, b.ok = false ∨ w.current = none) :
    Fails (currentVersion tape w) w.log := by
  cases tape with
  | nil => exact .inl ⟨w, rfl, rfl⟩
  | cons b rest =>
    rw [currentVersion, bind_run]
    rcases h b rfl with hb | hcur
    · simp only [loadCurrent, act, Prog.effect, hb]
      exact .inr ⟨_, w.happen b, rest, rfl, World.happen_log w b⟩
    · cases hb : b.ok
      · simp only [loadCurrent, act, Prog.effect, hb]
        exact .inr ⟨_, w.happen b, rest, rfl, World.happen_log w b⟩
      · simp only [loadCurrent, act, Prog.effect, hb, if_true, World.happen_current, hcur]
        exact .inr ⟨_, w.happen b, rest, rfl, World.happen_log w b⟩

/-- The write of the intent, and what comes after it. -/
theorem intent_run (g : Engine) (journal : UpdateJournal) (current newId : String)
    (tape : List Answer) (w : World) :
    (changeLands tape ∧ ∃ j w' rest, j.state = .checking ∧ w'.journal = j ∧
      w'.log = w.log ++ [.journal w.journal j] ∧
      ((mutateJournal (checkIntent journal current newId)).andThen fun _ => g.recordCandidate)
        tape w = g.recordCandidate rest w') ∨
    (changeLands tape = false ∧ Fails (((mutateJournal
      (checkIntent journal current newId)).andThen fun _ => g.recordCandidate) tape w) w.log) := by
  cases hlands : changeLands tape with
  | false => exact .inr ⟨rfl, (mutateJournal_fails hlands).andThen⟩
  | true =>
    match tape, hlands with
    | a :: b :: rest, hlands =>
      refine .inl ⟨rfl, checkIntent journal current newId w.journal, _, rest, rfl, rfl, ?_,
        orFail_of_ok (mutateJournal_lands hlands)⟩
      simp [World.writeJournal]

/-- From a state the law protects a check goes as far as its intent, or writes nothing. -/
theorem phaseCheck_inFlight (g : Engine) (hs : inFlight w.journal.state) (tape : List Answer) :
    (intentLands w tape ∧ ∃ j w' rest, j.state = .checking ∧ w'.journal = j ∧
      w'.log = w.log ++ [.journal w.journal j] ∧
      g.phaseCheck tape w = g.recordCandidate rest w') ∨
    (intentLands w tape = false ∧ Fails (g.phaseCheck tape w) w.log) := by
  have hguard : guardNotManual w.journal = .ok () := by
    rw [guardNotManual, if_neg]
    intro hm
    rw [hm] at hs
    exact absurd hs (by decide)
  cases tape with
  | nil => exact .inr ⟨rfl, (loadJournal_fails (by simp)).andThen⟩
  | cons a tape =>
    cases ha : a.ok with
    | false =>
      refine .inr ⟨?_, (loadJournal_fails (by simpa using ha)).andThen⟩
      unfold intentLands
      split <;> simp_all
    | true =>
      rw [phaseCheck, Prog.andThen, orFail_of_ok (loadJournal_ok ha)]
      simp only [hguard]
      have hlog : (w.happen a).log = w.log := World.happen_log w a
      cases tape with
      | nil => exact .inr ⟨rfl, Fails.andThen (.inl ⟨w.happen a, rfl, hlog⟩)⟩
      | cons b tape =>
        by_cases hread : b.ok = false ∨ (w.happen a).current = none
        · refine .inr ⟨?_, hlog ▸ (currentVersion_fails (by simpa using hread)).andThen⟩
          cases tape with
          | nil => rfl
          | cons c tape => rcases hread with hb | hcur <;> simp_all [intentLands]
        · obtain ⟨hb, hcur⟩ := not_or.mp hread
          obtain ⟨cur, hcur⟩ := Option.ne_none_iff_exists'.mp hcur
          have hb : b.ok = true := by simpa using hb
          have hcur' : w.current = some cur := by simpa using hcur
          rw [Prog.andThen, orFail_of_ok (currentVersion_ok hb hcur)]
          cases tape with
          | nil => exact .inr ⟨rfl, .inl ⟨(w.happen a).happen b, rfl, by simp⟩⟩
          | cons c tape =>
            have hlog : (((w.happen a).happen b).happen c).log = w.log := by simp
            have hjournal : (((w.happen a).happen b).happen c).journal = w.journal := by simp
            rcases intent_run g w.journal cur.current c.exe tape
              (((w.happen a).happen b).happen c) with
              ⟨hlands, j, w', rest, hj, hw, hnew, hrun⟩ | ⟨hlands, hfails⟩
            · refine .inl ⟨by simp [intentLands, ha, hb, hcur', hlands], j, w', rest, hj, hw, ?_, ?_⟩
              · rw [hnew, hlog, hjournal]
              · exact hrun
            · refine .inr ⟨by simp [intentLands, hlands], ?_⟩
              rw [hlog] at hfails
              exact hfails

/-- What a preparation reads is enough for it to refuse. -/
theorem phasePrepareInstall_refuses (hs : w.journal.state ≠ .staged) (a : Answer)
    (tape : List Answer) :
    ∃ err, phasePrepareInstall (a :: tape) w = .done (.error err) (w.happen a) tape := by
  cases ha : a.ok with
  | false =>
    refine ⟨ioError "读取 journal 失败: " a, orFail_of_error ?_⟩
    simp [loadJournal, act, Prog.effect, ha]
  | true =>
    rw [phasePrepareInstall, Prog.andThen, orFail_of_ok (loadJournal_ok ha)]
    unfold guardNotManual
    split
    · exact ⟨_, rfl⟩
    · dsimp only
      split <;> exact ⟨_, rfl⟩

/-- From a state the law protects an installation writes its failure, or nothing. -/
theorem installStaged_refuses (g : Engine) (tape : List Answer)
    (hs : inFlight w.journal.state ∨ w.journal.state = .manualRecoveryRequired) :
    (failureLands tape ∧ ∃ j, j.state = .idle ∧
      (g.installStaged tape w).state.log = w.log ++ [.journal w.journal j]) ∨
    (failureLands tape = false ∧ (g.installStaged tape w).state.log = w.log) := by
  have hstate : w.journal.state ≠ .staged := by
    intro h
    rw [h] at hs
    exact absurd hs (by decide)
  cases tape with
  | nil => exact .inr ⟨rfl, rfl⟩
  | cons a tape =>
    obtain ⟨err, hrefuses⟩ := phasePrepareInstall_refuses hstate a tape
    rw [installStaged, orFail_of_error hrefuses, bind_run]
    have hlog : (w.happen a).log = w.log := World.happen_log w a
    cases hlands : changeLands tape with
    | false =>
      refine .inr ⟨hlands, ?_⟩
      rcases mutateJournal_fails (w := w.happen a) (f := UpdateJournal.setFailedIdle err) hlands
        with ⟨w', hend, hw⟩ | ⟨err', w', rest, hend, hw⟩
      · rw [hend]
        exact hw.trans hlog
      · rw [hend]
        exact hw.trans hlog
    | true =>
      match tape, hlands with
      | b :: c :: rest, hlands =>
        refine .inl ⟨hlands, w.journal.setFailedIdle err, rfl, ?_⟩
        rw [mutateJournal_lands hlands]
        simp [World.writeJournal, Ended.state, pure]

end

section
variable {w : World} {tape : List Answer}

theorem state_kinds (s : UpdateState) :
    (s = .manualRecoveryRequired ∨ Free s) ∨ inFlight s := by
  cases s <;> simp [Free, inFlight]

theorem Operation.lawful (g : Engine) (op : Operation) (hlog : w.log = [])
    (hkeeps : op.drops w tape = false) : Lawful (op.run g tape w).state.log := by
  have hstart : Lawful w.log := hlog ▸ lawful_nil
  have hT := lawful_tolerates
  cases op with
  | check =>
    rw [run, discard_state]
    rcases state_kinds w.journal.state with hstate | hflight
    · refine ((keeps_phaseCheck hT g).post fun r w hw => ?_).state ⟨hstart, hstate⟩ tape
      cases r <;> [exact hw; exact hw.1]
    · rcases phaseCheck_inFlight g hflight tape with ⟨hlands, -⟩ | ⟨-, hfails⟩
      · simp [drops, hflight, hlands] at hkeeps
      · rw [hfails.state]
        exact hstart
  | download =>
    rw [run, discard_state]
    refine ((keeps_phaseDownload hT).post fun r w hw => ?_).state ⟨hstart, trivial⟩ tape
    cases r <;> [exact hw; exact hw.1]
  | prepareInstall =>
    rw [run, discard_state]
    refine ((keeps_phasePrepareInstall hT (F := fun _ => True) (fun _ _ h => h)
      fun _ _ => trivial).post fun r w hw => ?_).state ⟨hstart, trivial⟩ tape
    cases r <;> exact hw.1
  | rollback =>
    rw [run, discard_state]
    exact (keeps_phaseRollback hT g).state ⟨hstart, trivial⟩ tape
  | installStaged =>
    rw [run, discard_state]
    by_cases hfree : Free w.journal.state
    · exact (keeps_installStaged hT g).state ⟨hstart, hfree⟩ tape
    · have hs : inFlight w.journal.state ∨ w.journal.state = .manualRecoveryRequired := by
        rcases state_kinds w.journal.state with (h | h) | h
        · exact .inr h
        · exact absurd h hfree
        · exact .inl h
      rcases installStaged_refuses g tape hs with ⟨hlands, -⟩ | ⟨-, hend⟩
      · rcases hs with h | h <;> simp [drops, h, hlands] at hkeeps
      · rw [hend]
        exact hstart
  | runFull =>
    rw [run, discard_state]
    rcases state_kinds w.journal.state with hstate | hflight
    · exact (keeps_runFull_tail hT g (keeps_phaseCheck hT g)).state ⟨hstart, hstate⟩ tape
    · rcases phaseCheck_inFlight g hflight tape with ⟨hlands, -⟩ | ⟨-, hfails⟩
      · simp [drops, hflight, hlands] at hkeeps
      · rw [Engine.runFull, hfails.orFail_pure]
        exact hstart
  | recover =>
    rw [run, discard_state]
    exact (keeps_recover hT g.sha).state hstart tape

/-- A check that lands its intent is unlawful from the first write on, whatever follows. -/
theorem Operation.not_lawful (g : Engine) (op : Operation) (hlog : w.log = [])
    (hdrops : op.drops w tape) : ¬ Lawful (op.run g tape w).state.log := by
  have hrecord : ∀ {j : UpdateJournal} {w' : World}, w'.journal = j → j.state = .checking →
      w'.log = w.log ++ [.journal w.journal j] →
      Keeps (fun log => [.journal w.journal j] <+: log) (InState .checking) w' := by
    intro j w' hw hj hnew
    refine ⟨?_, by rw [InState, hw, hj]⟩
    simp [hnew, hlog]
  cases op with
  | check =>
    rw [run, discard_state]
    obtain ⟨hflight, hlands⟩ := Bool.and_eq_true_iff.mp hdrops
    rcases phaseCheck_inFlight g hflight tape with
      ⟨-, j, w', rest, hj, hw, hnew, hrun⟩ | ⟨hnot, -⟩
    · rw [hrun]
      refine not_lawful_of_starts ?_ (intent_not_edge hflight hj)
      refine ((keeps_recordCandidate (starts_tolerates _) g).post fun r w hw => ?_).state
        (hrecord hw hj hnew) rest
      cases r <;> exact hw.1
    · rw [hnot] at hlands
      cases hlands
  | runFull =>
    rw [run, discard_state]
    obtain ⟨hflight, hlands⟩ := Bool.and_eq_true_iff.mp hdrops
    rcases phaseCheck_inFlight g hflight tape with
      ⟨-, j, w', rest, hj, hw, hnew, hrun⟩ | ⟨hnot, -⟩
    · rw [Engine.runFull, Prog.orFail, bind_run, hrun]
      refine not_lawful_of_starts ?_ (intent_not_edge hflight hj)
      refine (keeps_runFull_tail (starts_tolerates _) g ((keeps_recordCandidate
        (starts_tolerates _) g).post fun r w hw => ?_)).state (hrecord hw hj hnew) rest
      cases r <;> [exact hw.1; exact hw]
    · rw [hnot] at hlands
      cases hlands
  | installStaged =>
    rw [run, discard_state]
    obtain ⟨hs, hlands⟩ := Bool.and_eq_true_iff.mp hdrops
    have hs : inFlight w.journal.state ∨ w.journal.state = .manualRecoveryRequired := by
      simpa using hs
    rcases installStaged_refuses g tape hs with ⟨-, j, hj, hend⟩ | ⟨hnot, -⟩
    · rw [hend]
      exact not_lawful_of_starts (by simp [hlog]) (failure_not_edge hs hj)
    · rw [hnot] at hlands
      cases hlands
  | download => cases hdrops
  | prepareInstall => cases hdrops
  | rollback => cases hdrops
  | recover => cases hdrops

end

/-- LAW: it holds of every operation, from every world and with any outcome of its steps, but for the
    runs that write over a transaction they did not look at. -/
theorem operation_is_lawful_iff (g : Engine) (op : Operation) (w : World) (hlog : w.log = [])
    (tape : List Answer) : Lawful (op.run g tape w).state.log ↔ op.drops w tape = false := by
  refine ⟨fun hlawful => ?_, op.lawful g hlog⟩
  cases hdrops : op.drops w tape with
  | false => rfl
  | true => exact absurd hlawful (op.not_lawful g hlog hdrops)

/-- A recovery of an activating candidate: restored, pointed back, idle. -/
theorem operation_is_lawful_recovering :
    Lawful (Operation.recover.run ⟨id, false, none, false⟩
      (List.replicate 40 .served)
      { journal := { UpdateJournal.default with state := .activating }
        current := none, data := none, config := none, backups := ∅, quarantine := [],
        candidate := none, log := [] }).state.log :=
  (operation_is_lawful_iff _ .recover _ rfl _).mpr rfl

/-- The preparation refuses a journal that asks for manual recovery, and its failure takes the
    journal to `idle`. -/
theorem failed_install_drops_manual_recovery :
    ¬ ∀ (g : Engine) (op : Operation) (w : World), w.log = [] →
      ∀ tape, Lawful (op.run g tape w).state.log := by
  intro h
  have hlawful := h ⟨id, false, none, false⟩ .installStaged
    { journal := { UpdateJournal.default with state := .manualRecoveryRequired }
      current := none, data := none, config := none, backups := ∅, quarantine := [],
      candidate := none, log := [] } rfl (List.replicate 3 .served)
  have hedge := hlawful [] _ _ [] rfl
  cases hedge.1 rfl

end Gamer.Updater
