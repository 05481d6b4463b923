import Gamer.Control.Barrier

/-! The end of a lease. A release of a lease that is not the target's current one has nothing to do
    and returns `Ok`, but a lease is also not current while a transition of it is pending, and the
    recovery of that transition makes it current again:

        pause(L) ──▶ pending ─────────────────▶ cleanup fails ──▶ L is current again
                        └─▶ release(L): Ok

    Short of that, a lease that was released is below the floor for good. A transition that fails
    leaves the target shut, and only a release of the same lease opens it again. -/

namespace Gamer.Control
open Gamer.Lib

namespace Target
variable {s s' : Target} {m : Move} {k : Nat} {p : Option (Nat × Pending)} {l : ControlLease}

/-- A transition of the lease is pending. -/
def movingOf (l : ControlLease) (s : Target) : Bool :=
  s.tasks.any fun t => match t.recovery with
    | some (.transition r) => r.original = l
    | _ => false

/-- The release of a lease is answered while a transition of it is pending. -/
def hasty (s : Target) : Move → Bool
  | .run k => match s.tasks[k]? with
    | some (.releasing l) => ¬ l.current s.state && s.movingOf l
    | _ => false
  | _ => false

/-- The cleanup of a release of the lease succeeds. -/
def frees (l : ControlLease) (s : Target) : Move → Bool
  | .finish k true => match s.tasks[k]? with
    | some (.cleaning .release r) => r.original = l
    | _ => false
  | _ => false

/-! ### A released lease -/

/-- The course of a release of the lease in call `k`. -/
inductive Releases (l : ControlLease) (k : Nat) (s : Target) (p : Option (Nat × Pending)) : Prop
  | called (hk : s.tasks[k]? = some (.releasing l))
  | moving (from' : ControlPhase) (hk : s.tasks[k]? = some (.moving .release l from'))
  | pending (r : TransitionRecovery) (hp : p = some (k, .recovery (.transition r)))
      (hr : r.original = l)
  | settled (h : l.generation < s.floor p)
  | failed (reply : Reply) (hk : s.tasks[k]? = some (.returned reply))
      (hreply : reply.isOk = false)

/-- A lease that was handed out is current, under way, or over. -/
theorem Standing.stale_over (hs : s.Standing p) (hmem : l ∈ s.issued)
    (hstale : ¬ l.current s.state) (hstill : s.movingOf l = false) : l.generation < s.floor p := by
  have hfits := hs.fits
  unfold Fits at hfits
  unfold floor
  split at hfits
  · obtain ⟨hle, howner⟩ := hfits l hmem
    refine Nat.lt_of_le_of_ne hle fun heq => hstale ⟨howner heq, heq.symm⟩
  · exact hfits.2.2.2 l hmem
  · next j r =>
    obtain ⟨hle, howner⟩ := hfits.2.2.2.2 l hmem
    refine Nat.lt_of_le_of_ne hle fun heq => ?_
    obtain ⟨t, ht, hpending⟩ := (hs.token j _).mp rfl
    have hnot := List.any_eq_false.mp hstill t (List.mem_of_getElem? ht)
    rw [Task.recovery_of_pending hpending] at hnot
    have hsame : r.original = l := ControlLease.ext (howner heq).symm heq.symm
    simp [hsame] at hnot
  · exact hfits.2 l hmem

/-- STEP: the course of a release goes on, if it is not hasty. -/
theorem Releases.step (hc : Releases l k s p) (hs : s.Standing p) (hm : s.hasty m = false)
    (h : Effect s m s') : ∃ p', s'.Standing p' ∧ Releases l k s' p' := by
  obtain ⟨p', hs', hfloor, _⟩ := hs.step h
  refine ⟨p', hs', ?_⟩
  cases hc with
  | settled hlt => exact .settled (Nat.lt_of_lt_of_le hlt hfloor)
  | failed reply hk hreply => exact .failed reply (step_returned h hk) hreply
  | pending r hp hr =>
    subst hp
    cases hs.step_pending h hs' with
    | stays hp => exact .pending r hp hr
    | fails reply hk hreply => exact .failed reply hk hreply
    | ends hend =>
      have hnext : r.currentGeneration = r.original.generation + 1 := hs.fits.2.2.2.1
      refine .settled ?_
      rw [hend, ← hr]
      simp only [Recovery.generation]
      omega
  | called hk =>
    have hset : ∀ {j : Nat} {old new : Task}, s.tasks[j]? = some old → old ≠ .releasing l →
        (s.tasks.set j new)[k]? = some (.releasing l) := by
      intro j old new hj hne
      refine (Token.getElem?_set_eq_some hj).mpr (Or.inr ⟨?_, hk⟩)
      rintro rfl
      exact hne (Option.some.inj (hj.symm.trans hk))
    cases h with
    | read => exact .called hk
    | called c => exact .called (Token.getElem?_push_eq_some.mpr (Or.inl hk))
    | shifted m j old new gate hj hshift hgate =>
      by_cases hjk : old = .releasing l ∧ j = k
      · obtain ⟨rfl, rfl⟩ := hjk
        have hnew : (s.tasks.set j new)[j]? = some new :=
          List.getElem?_set_self (List.getElem?_eq_some_iff.mp hj).1
        cases hshift with
        | looked => exact .moving _ hnew
        | lost t r reply ht => cases ht
        | dropped t ht => exact .failed _ hnew rfl
      · refine .called ((Token.getElem?_set_eq_some hj).mpr (Or.inr ⟨?_, hk⟩))
        rintro rfl
        exact hjk ⟨Option.some.inj (hj.symm.trans hk), rfl⟩
    | stale j lease hj hstale =>
      by_cases hjk : j = k
      · subst hjk
        obtain rfl : l = lease := by
          rw [hk] at hj
          cases hj
          rfl
        have hstill : s.movingOf l = false := by simpa [hasty, hj, hstale] using hm
        have hmem : l ∈ s.issued := hs.calls _ (List.mem_of_getElem? hj)
        exact .settled (Nat.lt_of_lt_of_le (hs.stale_over hmem hstale hstill) hfloor)
      · exact .called ((Token.getElem?_set_eq_some hj).mpr (Or.inr ⟨Ne.symm hjk, hk⟩))
    | reserved j owner hj => exact .called (hset hj (by simp))
    | granted j r hj => exact .called (hset hj (by simp))
    | began j kind lease from' hj => exact .called (hset hj (by simp))
    | completed j kind r hj => exact .called (hset hj (by simp))
    | unwound j r reply hj => exact .called (hset hj (by simp))
    | handedOut j lease hj => exact .called (hset hj (by simp))
  | moving from' hk =>
    have hset : ∀ {j : Nat} {old new : Task}, s.tasks[j]? = some old →
        old ≠ .moving .release l from' →
        (s.tasks.set j new)[k]? = some (.moving .release l from') := by
      intro j old new hj hne
      refine (Token.getElem?_set_eq_some hj).mpr (Or.inr ⟨?_, hk⟩)
      rintro rfl
      exact hne (Option.some.inj (hj.symm.trans hk))
    cases h with
    | read => exact .moving from' hk
    | called c => exact .moving from' (Token.getElem?_push_eq_some.mpr (Or.inl hk))
    | shifted m j old new gate hj hshift hgate =>
      by_cases hjk : old = .moving .release l from' ∧ j = k
      · obtain ⟨rfl, rfl⟩ := hjk
        have hnew : (s.tasks.set j new)[j]? = some new :=
          List.getElem?_set_self (List.getElem?_eq_some_iff.mp hj).1
        cases hshift with
        | refused => exact .failed _ hnew rfl
        | lost t r reply ht => cases ht
        | dropped t ht => exact .failed _ hnew rfl
      · refine .moving from' ((Token.getElem?_set_eq_some hj).mpr (Or.inr ⟨?_, hk⟩))
        rintro rfl
        exact hjk ⟨Option.some.inj (hj.symm.trans hk), rfl⟩
    | began j kind lease from'' hj hcurrent =>
      by_cases hjk : j = k
      · subst hjk
        rw [hk] at hj
        cases hj
        have hmem : l ∈ s.issued := (hs.calls _ (List.mem_of_getElem? hk)).1
        obtain rfl := hs.current_none hmem hcurrent
        exact .pending _ (hs'.token.eq (hs.token.take hk rfl)) rfl
      · exact .moving from' ((Token.getElem?_set_eq_some hj).mpr (Or.inr ⟨Ne.symm hjk, hk⟩))
    | stale j lease hj => exact .moving from' (hset hj (by simp))
    | reserved j owner hj => exact .moving from' (hset hj (by simp))
    | granted j r hj => exact .moving from' (hset hj (by simp))
    | completed j kind r hj => exact .moving from' (hset hj (by simp))
    | unwound j r reply hj => exact .moving from' (hset hj (by simp))
    | handedOut j lease hj => exact .moving from' (hset hj (by simp))

end Target

/-! ### A failed transition -/

/-- The call is no pause and no resume in the middle of its cleanup. -/
def Task.ReleasesOnly : Task → Prop
  | .barred kind _ | .cleaning kind _ => kind = .release
  | _ => True

theorem Shift.releasesOnly {s : State} {old new : Task} (h : Shift s old new)
    (hold : old.ReleasesOnly) : new.ReleasesOnly := by
  cases h with
  | opened kind r => exact hold
  | _ => trivial

/-- An operation of somebody, under a lease. -/
def Identity.leased : Identity → Bool
  | .owned _ | .manual _ => true
  | .automatic | .cleanup => false

namespace Target
variable {s s' : Target} {m : Move} {k : Nat} {p : Option (Nat × Pending)} {l : ControlLease}

/-- INVARIANT: after a transition of the lease has failed, until a release of it succeeds. -/
structure Stuck (l : ControlLease) (s : Target) (p : Option (Nat × Pending)) : Prop where
  shut : s.state.phase.shut = true
  owner : s.state.owner = some l.owner
  issued : l ∈ s.issued
  pending : (p = none ∧ s.state.generation = l.generation) ∨
    ∃ k r, p = some (k, .recovery (.transition r)) ∧ r.original = l
  kinds : ∀ t ∈ s.tasks, t.ReleasesOnly

theorem kinds_set {new : Task} (h : ∀ t ∈ s.tasks, t.ReleasesOnly) (hnew : new.ReleasesOnly) :
    ∀ t ∈ s.tasks.set k new, t.ReleasesOnly := by
  intro t ht
  rcases List.mem_or_eq_of_mem_set ht with ht | rfl
  · exact h t ht
  · exact hnew

/-- STEP: the transition that fails leaves the target shut. -/
theorem Standing.fails (hs : s.Standing p) {r : TransitionRecovery} {reply : Reply}
    (hk : s.tasks[k]? = some (.unwinding (.transition r) reply)) (h : s.step (.run k) = some s') :
    ∃ p', s'.Standing p' ∧ Stuck r.original s' p' := by
  obtain rfl := hs.pending hk rfl
  obtain ⟨hcurrent, hshut, hmem, _⟩ := hs.fits
  obtain ⟨p', hs', _⟩ := hs.step (step_effect h)
  have hrun : s' = { s with state := { s.state with generation := r.original.generation } }.become
      k (.returned reply) := by
    simp only [Target.step, hk, Option.bind_some, run, Option.some.injEq] at h
    simp [← h, Recovery.drop, hcurrent]
  subst hrun
  refine ⟨p', hs', hshut, hcurrent.1, hmem, Or.inl ⟨?_, rfl⟩, kinds_set (fun t ht => ?_) trivial⟩
  · exact hs'.token.eq (hs.token.give hk rfl rfl)
  · obtain ⟨j, hj⟩ := List.mem_iff_getElem?.mp ht
    cases t with
    | barred kind r' | cleaning kind r' =>
      -- the only call with something pending is unwinding
      obtain rfl : j = k := hs.token.unique hj rfl hk rfl
      rw [hk] at hj
      cases hj
    | _ => trivial

/-- STEP: the target stays shut until a release of the lease succeeds. -/
theorem Stuck.step (hstuck : Stuck l s p) (hs : s.Standing p) (hm : s.frees l m = false)
    (h : Effect s m s') : ∃ p', s'.Standing p' ∧ Stuck l s' p' := by
  obtain ⟨p', hs', _⟩ := hs.step h
  refine ⟨p', hs', ?_⟩
  obtain ⟨hshut, howner, hmem, hpending, hkinds⟩ := hstuck
  have hnoRecovery : ∀ {j : Nat} {t : Task} {x : Pending}, s.tasks[j]? = some t →
      t.pending = some x → ∃ r, x = .recovery (.transition r) ∧ r.original = l ∧
        p = some (j, .recovery (.transition r)) := by
    intro j t x hj ht
    have hp := hs.pending hj ht
    rcases hpending with ⟨hnone, _⟩ | ⟨k, r, hp', hr⟩
    · rw [hnone] at hp
      cases hp
    · rw [hp'] at hp
      cases hp
      exact ⟨r, rfl, hr, hp'⟩
  cases h with
  | read => exact ⟨hshut, howner, hmem, hs'.token.eq hs.token ▸ hpending, hkinds⟩
  | called c =>
    have hp' : p' = p := hs'.token.eq (hs.token.push (by cases c <;> rfl))
    refine ⟨hshut, howner, hmem, hp' ▸ hpending, fun t ht => ?_⟩
    rcases List.mem_append.mp ht with ht | ht
    · exact hkinds t ht
    · obtain rfl := List.mem_singleton.mp ht
      cases c <;> trivial
  | shifted m j old new gate hj hshift hgate =>
    have hp' : p' = p := hs'.token.eq (hs.token.keep hj hshift.pending)
    exact ⟨hshut, howner, hmem, hp' ▸ hpending,
      kinds_set hkinds (hshift.releasesOnly (hkinds old (List.mem_of_getElem? hj)))⟩
  | stale j lease hj =>
    have hp' : p' = p := hs'.token.eq (hs.token.keep hj rfl)
    exact ⟨hshut, howner, hmem, hp' ▸ hpending, kinds_set hkinds trivial⟩
  | reserved j o hj hphase =>
    rw [hphase] at hshut
    cases hshut
  | granted j r hj =>
    obtain ⟨_, heq, _⟩ := hnoRecovery hj rfl
    cases heq
  | handedOut j lease hj =>
    obtain ⟨_, heq, _⟩ := hnoRecovery hj rfl
    cases heq
  | began j kind lease from' hj hcurrent hphase =>
    obtain ⟨hlease, hfrom⟩ := hs.calls _ (List.mem_of_getElem? hj)
    obtain rfl := hs.current_none hlease hcurrent
    have hgen : s.state.generation = l.generation := by
      rcases hpending with ⟨_, hgen⟩ | ⟨_, _, heq, _⟩
      · exact hgen
      · cases heq
    have hsame : lease = l := by
      refine ControlLease.ext ?_ (hcurrent.2.symm.trans hgen)
      have hsome := hcurrent.1.symm.trans howner
      exact Option.some.inj hsome
    have hkind : kind = .release := by
      cases kind with
      | release => rfl
      | pause | resume =>
        rw [hphase, hfrom] at hshut
        cases hshut
    exact ⟨kind.during_shut, howner, hmem,
      Or.inr ⟨j, _, hs'.token.eq (hs.token.take hj rfl), hsame⟩, kinds_set hkinds hkind⟩
  | completed j kind r hj =>
    obtain ⟨r', heq, hr, _⟩ := hnoRecovery hj rfl
    cases heq
    obtain rfl : kind = .release := hkinds _ (List.mem_of_getElem? hj)
    simp [frees, hj, hr] at hm
  | unwound j r reply hj =>
    obtain ⟨r', heq, rfl, rfl⟩ := hnoRecovery hj rfl
    cases heq
    have hcurrent := hs.fits.1
    have hdrop : Recovery.drop s.state (.transition r') =
        { s.state with generation := r'.original.generation } := by
      simp [Recovery.drop, hcurrent]
    refine ⟨?_, ?_, hmem, Or.inl ⟨hs'.token.eq (hs.token.give hj rfl rfl), ?_⟩,
      kinds_set hkinds trivial⟩
    all_goals simp only [become, hdrop]
    · exact hshut
    · exact howner

/-- STEP: nothing starts under a lease while the target is shut, and nobody claims it. -/
theorem Stuck.closed (hstuck : Stuck l s p) (h : Effect s m s') :
    (∀ j i, i.leased = true → s'.inside j i → s.inside j i) ∧
    ∀ (j : Nat) (r : ClaimRecovery), s'.tasks[j]? = some (.reserved r) →
      s.tasks[j]? = some (.reserved r) := by
  have hshut := hstuck.shut
  refine ⟨fun j i hleased hin => ?_, fun j r hj => ?_⟩
  · rcases step_inside h hin with hin | hadmits
    · exact hin
    · cases i with
      | owned lease => rw [hadmits.2] at hshut; cases hshut
      | manual lease => rcases hadmits.2 with heq | heq <;> rw [heq] at hshut <;> cases hshut
      | automatic | cleanup => cases hleased
  · have hset : ∀ {k : Nat} {old new : Task}, s.tasks[k]? = some old → new ≠ .reserved r →
        (s.tasks.set k new)[j]? = some (.reserved r) → s.tasks[j]? = some (.reserved r) := by
      intro k old new hk hne hj
      rcases (Token.getElem?_set_eq_some hk).mp hj with ⟨_, heq⟩ | ⟨_, hj⟩
      · exact absurd heq.symm hne
      · exact hj
    cases h with
    | read => exact hj
    | called c =>
      rcases Token.getElem?_push_eq_some.mp hj with hj | ⟨_, heq⟩
      · exact hj
      · cases c <;> cases heq
    | shifted m k old new gate hk hshift hgate =>
      refine hset hk ?_ hj
      rintro rfl
      cases hshift
    | reserved k owner hk hphase =>
      rw [hphase] at hshut
      cases hshut
    | stale k lease hk => exact hset hk (by simp) hj
    | granted k r' hk => exact hset hk (by simp) hj
    | began k kind lease from' hk => exact hset hk (by simp) hj
    | completed k kind r' hk => exact hset hk (by simp) hj
    | unwound k r' reply hk => exact hset hk (by simp) hj
    | handedOut k lease hk => exact hset hk (by simp) hj

/-- STEP: a release whose cleanup succeeds leaves the target idle and without an owner. -/
theorem Standing.freed (hs : s.Standing p) (hm : s.frees l m = true) (h : s.step m = some s') :
    s'.state.phase = .idle ∧ s'.state.owner = none := by
  unfold frees at hm
  split at hm
  · next k =>
    split at hm
    · next r hk =>
      obtain rfl := hs.pending hk rfl
      have hcurrent := hs.fits.1
      simp only [Target.step, hk, Option.bind_some, finish, if_true, State.complete, hcurrent,
        not_true_eq_false, if_false, Option.some.injEq] at h
      subst h
      exact ⟨rfl, by simp [become, Transition.after]⟩
    · cases hm
  · cases hm

/-- A release of the lease from its call to the end of its cleanup. -/
def releaseRun (l : ControlLease) (n : Nat) : List Move :=
  [.call (.release l), .run n, .run n, .acquire n, .finish n true]

/-- PROGRESS: a release that is called while nothing is pending goes through. -/
theorem Stuck.released (hstuck : Stuck l s none) (hgate : s.gate = none) :
    ∃ s', Machine.exec Target.step s (releaseRun l s.tasks.length) = some s' ∧
      s'.state.phase = .idle ∧ s'.state.owner = none := by
  have hcurrent : l.current s.state := by
    rcases hstuck.pending with ⟨_, hgen⟩ | ⟨_, _, hp, _⟩
    · exact ⟨hstuck.owner, hgen⟩
    · cases hp
  have hknows : s.knows (.release l) = true := by simpa [knows] using hstuck.issued
  have howner : s.state.owner = some l.owner := hcurrent.1
  have hgen : s.state.generation = l.generation := hcurrent.2
  refine ⟨{ s with
    state := { owner := none
               generation := s.state.generation + 1
               manualGeneration := s.state.manualGeneration + 1
               phase := .idle }
    gate := some s.tasks.length
    tasks := s.tasks ++ [.leaving .ok] }, ?_, rfl, rfl⟩
  simp [Machine.exec, releaseRun, Target.step, hknows, Call.task, run, become, finish,
    ControlLease.current, howner, hgen, State.begin, hgate, Task.acquired, State.complete,
    TransitionRecovery.next, Transition.after, Transition.reply]

/-! ### Runs -/

/-- RUN: the target is stuck along a run without a successful release. -/
theorem Stuck.run (hstuck : Stuck l s p) (hs : s.Standing p) {ms : List Move}
    (hrun : Machine.exec Target.step s ms = some s')
    (hms : Machine.Along Target.step (fun s m => s.frees l m = false) s ms) :
    ∃ p', s'.Standing p' ∧ Stuck l s' p' := by
  have hreach : Machine.ReachesBy Target.step (fun s m => s.frees l m = false) s s' :=
    ⟨ms, hrun, hms⟩
  refine hreach.invariant (I := fun s => ∃ p, s.Standing p ∧ Stuck l s p) ?_ ⟨p, hs, hstuck⟩
  rintro s m s' ⟨p, hs, hstuck⟩ hm hstep
  exact hstuck.step hs hm (step_effect hstep)

/-- RUN: what the course of a release comes to. -/
theorem Releases.run (hc : Releases l k s p) (hs : s.Standing p)
    (h : Machine.ReachesBy Target.step (fun s m => s.hasty m = false) s s') :
    ∃ p', s'.Standing p' ∧ Releases l k s' p' := by
  refine h.invariant (I := fun s => ∃ p, s.Standing p ∧ Releases l k s p) ?_ ⟨p, hs, hc⟩
  rintro s m s' ⟨p, hs, hc⟩ hm hstep
  exact hc.step hs hm (step_effect hstep)

/-- RUN: a lease below the floor is never current again. -/
theorem Standing.not_current (hs : s.Standing p) (hlt : l.generation < s.floor p)
    (h : Machine.Reaches Target.step s s') : ¬ l.current s'.state := by
  obtain ⟨p', hs', hlt'⟩ : ∃ p', s'.Standing p' ∧ l.generation < s'.floor p' := by
    refine h.invariant (I := fun s => ∃ p, s.Standing p ∧ l.generation < s.floor p) ?_ ⟨p, hs, hlt⟩
    rintro s m s' ⟨p, hs, hlt⟩ hstep
    obtain ⟨p', hs', hfloor, _⟩ := hs.step (step_effect hstep)
    exact ⟨p', hs', Nat.lt_of_lt_of_le hlt hfloor⟩
  have hle := hs'.floor_le
  rintro ⟨_, hgen⟩
  omega

/-- RUN: a release that has succeeded is final. -/
theorem Releases.final (hc : Releases l k s p) (hs : s.Standing p)
    {s₁ s₂ : Target} (h₁ : Machine.ReachesBy Target.step (fun s m => s.hasty m = false) s s₁)
    (hk : s₁.succeeded k) (h₂ : Machine.Reaches Target.step s₁ s₂) : ¬ l.current s₂.state := by
  obtain ⟨p₁, hs₁, hc₁⟩ := hc.run hs h₁
  obtain ⟨reply, hreturned, hok⟩ := hk
  cases hc₁ with
  | settled hlt => exact hs₁.not_current hlt h₂
  | called hk => rw [hreturned] at hk; cases hk
  | moving from' hk => rw [hreturned] at hk; cases hk
  | pending r hp =>
    obtain ⟨t, ht, hpending⟩ := (hs₁.token k _).mp hp
    rw [hreturned] at ht
    cases ht
    cases hpending
  | failed reply' hk hreply =>
    rw [hreturned] at hk
    cases hk
    rw [hok] at hreply
    cases hreply

/-- If no release is answered while a transition of its lease is pending: a lease whose release has
    succeeded is never current again; a transition that has failed leaves the target shut until a
    release of the same lease succeeds, which makes it idle; and leases are handed out in the order
    of their generations. -/
theorem lease_finality
    (hreach : Machine.ReachesBy Target.step (fun s m => s.hasty m = false) start s) :
    (∀ k l s₁ s₂, s.tasks[k]? = some (.releasing l) →
      Machine.ReachesBy Target.step (fun s m => s.hasty m = false) s s₁ → s₁.succeeded k →
      Machine.Reaches Target.step s₁ s₂ → ¬ l.current s₂.state) ∧
    (∀ k r reply s₁ ms s₂, s.tasks[k]? = some (.unwinding (.transition r) reply) →
      s.step (.run k) = some s₁ → Machine.exec Target.step s₁ ms = some s₂ →
      Machine.Along Target.step (fun s m => s.frees r.original m = false) s₁ ms →
      (∀ m s₃, s₂.step m = some s₃ →
        (∀ j i, i.leased = true → s₃.inside j i → s₂.inside j i) ∧
        (∀ (j : Nat) (r : ClaimRecovery), s₃.tasks[j]? = some (.reserved r) →
          s₂.tasks[j]? = some (.reserved r)) ∧
        (s₂.frees r.original m = true → s₃.state.phase = .idle ∧ s₃.state.owner = none)) ∧
      ((∀ j, ¬ s₂.armed j) → s₂.gate = none → ∃ s₃,
        Machine.exec Target.step s₂ (releaseRun r.original s₂.tasks.length) = some s₃ ∧
        s₃.state.phase = .idle ∧ s₃.state.owner = none)) ∧
    s.issued.Pairwise fun a b => b.generation < a.generation := by
  obtain ⟨p, hs⟩ := reaches_standing hreach.reaches
  refine ⟨fun k l s₁ s₂ hk h₁ hsucceeded h₂ =>
    Releases.final (.called hk) hs h₁ hsucceeded h₂, ?_, hs.ordered⟩
  intro k r reply s₁ ms s₂ hk hfail hrun hms
  obtain ⟨p₁, hs₁, hstuck₁⟩ := hs.fails hk hfail
  obtain ⟨p₂, hs₂, hstuck₂⟩ := hstuck₁.run hs₁ hrun hms
  refine ⟨fun m s₃ hstep => ?_, fun hquiet hgate => ?_⟩
  · obtain ⟨hstarts, hclaims⟩ := hstuck₂.closed (step_effect hstep)
    exact ⟨hstarts, hclaims, fun hfrees => hs₂.freed hfrees hstep⟩
  · have hnone : p₂ = none := by
      rcases hstuck₂.pending with ⟨hnone, _⟩ | ⟨j, r', hp, _⟩
      · exact hnone
      · obtain ⟨t, ht, hpending⟩ := (hs₂.token j _).mp hp
        exact absurd ⟨t, _, ht, Task.recovery_of_pending hpending⟩ (hquiet j)
    subst hnone
    exact hstuck₂.released hgate

def aiLease : ControlLease := ⟨"ai", 1⟩

/-- An owner claims the target and releases its lease. -/
def releasedRun : List Move :=
  [.call (.claim "ai"), .run 0, .acquire 0, .run 0, .run 0, .call (.release aiLease)]

theorem lease_finality_released : ∃ s s₁, Machine.exec Target.step start releasedRun = some s ∧
    Machine.exec Target.step s [.run 1, .run 1, .acquire 1, .finish 1 true, .run 1] = some s₁ ∧
    ∀ s₂, Machine.Reaches Target.step s₁ s₂ → ¬ aiLease.current s₂.state := by
  refine ⟨_, _, rfl, rfl, fun s₂ h => ?_⟩
  exact (lease_finality ⟨releasedRun, rfl, by decide⟩).1 1 aiLease _ _ rfl
    ⟨[.run 1, .run 1, .acquire 1, .finish 1 true, .run 1], rfl, by decide⟩ ⟨_, rfl, rfl⟩ h

/-- A pause of the lease is pending when it is released. -/
def pausingRun : List Move :=
  [.call (.claim "ai"), .run 0, .acquire 0, .run 0, .run 0, .call (.pause aiLease), .run 1,
   .call (.release aiLease)]

theorem released_lease_comes_back :
    ¬ ∀ (s s₁ s₂ : Target) (k : Nat) (l : ControlLease), Machine.Reaches Target.step start s →
      s.tasks[k]? = some (.releasing l) → Machine.Reaches Target.step s s₁ → s₁.succeeded k →
      Machine.Reaches Target.step s₁ s₂ → ¬ l.current s₂.state := by
  intro hall
  exact hall _ _ _ 2 aiLease ⟨pausingRun, rfl⟩ rfl ⟨[.run 2], rfl⟩ ⟨_, rfl, rfl⟩
    ⟨[.drop 1, .run 1], rfl⟩ ⟨rfl, rfl⟩

end Target

end Gamer.Control
