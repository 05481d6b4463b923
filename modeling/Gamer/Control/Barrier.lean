import Gamer.Control.Registry
import Gamer.Lib.Token

/-! Why the barrier holds. At most one claim or transition is between its first lock section and its
    end, so the generations have floors below which no lease is good again:

        generation          the original's while a transition is pending
        manual generation   the previous one while a claim is pending, one above while running

    The floors never fall, whoever is dropped; a claim or transition that has come to its end has
    held the gate, and both floors are then above every lease handed out before it began. -/

namespace Gamer.Control
open Gamer.Lib

/-! ### What a move does, said once -/

/-- A task before and after a step that leaves the gate alone, takes it or gives it back. -/
inductive Gating (k : Nat) (old new : Task) : Option Nat → Option Nat → Prop
  | same (gate : Option Nat) (h : new.holds = old.holds) : Gating k old new gate gate
  | took (h : new.holds = some ()) : Gating k old new none (some k)
  | gave (gate : Option Nat) (hold : old.holds = some ()) (h : new.holds = none) :
      Gating k old new gate none

/-- The steps of one call that change neither the state nor its recovery. -/
inductive Shift (s : State) : Task → Task → Prop
  | checked (i : Identity) (h : s.check i = .ok ()) : Shift s (.entering i) (.waiting i)
  | turnedAway (i : Identity) (text : String) :
      Shift s (.entering i) (.returned (.error text))
  | waited (i : Identity) : Shift s (.waiting i) (.checking i)
  | admitted (i : Identity) (h : s.check i = .ok ()) : Shift s (.checking i) (.inside i 0)
  | expired (i : Identity) (text : String) : Shift s (.checking i) (.leaving (.error text))
  | shared (i : Identity) (m n : Nat) : Shift s (.inside i m) (.inside i n)
  | ended (i : Identity) (n : Nat) : Shift s (.inside i n) (.returned .ok)
  | unclaimed (owner text : String) : Shift s (.claiming owner) (.returned (.error text))
  | handed (r : ClaimRecovery) : Shift s (.reserved r) (.granted r)
  | lost (t : Task) (r : Recovery) (reply : Reply) (ht : t.recovery = some r)
      (hreply : reply.isOk = false) : Shift s t (.unwinding r reply)
  | looked (lease : ControlLease) :
      Shift s (.releasing lease) (.moving .release lease s.phase)
  | refused (kind : Transition) (lease : ControlLease) (from' : ControlPhase) (text : String) :
      Shift s (.moving kind lease from') (.returned (.error text))
  | opened (kind : Transition) (r : TransitionRecovery) :
      Shift s (.barred kind r) (.cleaning kind r)
  | flushed (lease : ManualLease) : Shift s (.flushing lease) (.inspecting lease)
  | skipped (lease : ManualLease) : Shift s (.inspecting lease) (.leaving .ok)
  | wiped (lease : ManualLease) : Shift s (.inspecting lease) (.wiping lease)
  | flushEnded (lease : ManualLease) (reply : Reply) :
      Shift s (.wiping lease) (.returned reply)
  | left (reply : Reply) (h : ∀ lease, reply ≠ .lease lease) :
      Shift s (.leaving reply) (.returned reply)
  | dropped (t : Task) (ht : t.dropped = some (.returned .dropped)) :
      Shift s t (.returned .dropped)

/-- What a move does to the target. -/
inductive Effect (s : Target) : Move → Target → Prop
  | read : Effect s .manualLease
      { s with tickets := ⟨s.state.manualGeneration⟩ :: s.tickets }
  | called (c : Call) (hknows : s.knows c = true) :
      Effect s (.call c) { s with tasks := s.tasks ++ [c.task] }
  | shifted (m : Move) (k : Nat) (old new : Task) (gate : Option Nat)
      (hk : s.tasks[k]? = some old) (hshift : Shift s.state old new)
      (hgate : Gating k old new s.gate gate) :
      Effect s m ({ s with gate := gate }.become k new)
  | stale (k : Nat) (lease : ControlLease) (hk : s.tasks[k]? = some (.releasing lease))
      (hstale : ¬ lease.current s.state) : Effect s (.run k) (s.become k (.returned .ok))
  | reserved (k : Nat) (owner : String) (hk : s.tasks[k]? = some (.claiming owner))
      (hphase : s.state.phase = .idle) : Effect s (.run k)
      ({ s with state := {
          owner := some owner
          generation := s.state.generation + 1
          manualGeneration := s.state.manualGeneration + 1
          phase := .resuming } }.become k
        (.reserved ⟨⟨owner, s.state.generation + 1⟩, s.state.manualGeneration⟩))
  | granted (k : Nat) (r : ClaimRecovery) (hk : s.tasks[k]? = some (.granted r)) :
      Effect s (.run k) ({ s with state := { s.state with phase := .running } }.become k
        (.leaving (.lease r.lease)))
  | began (k : Nat) (kind : Transition) (lease : ControlLease) (from' : ControlPhase)
      (hk : s.tasks[k]? = some (.moving kind lease from')) (hcurrent : lease.current s.state)
      (hphase : s.state.phase = from') : Effect s (.run k) ({ s with state := { s.state with
          phase := kind.during
          generation := s.state.generation + 1
          manualGeneration := s.state.manualGeneration + 1 } }.become k
        (.barred kind ⟨lease, s.state.generation + 1⟩))
  | completed (k : Nat) (kind : Transition) (r : TransitionRecovery)
      (hk : s.tasks[k]? = some (.cleaning kind r)) :
      Effect s (.finish k true) ({ s with state := { s.state with
          phase := kind.after
          owner := if kind.after = ControlPhase.idle then none else s.state.owner } }.become k
        (.leaving (kind.reply r)))
  | unwound (k : Nat) (r : Recovery) (reply : Reply)
      (hk : s.tasks[k]? = some (.unwinding r reply)) :
      Effect s (.run k) ({ s with state := r.drop s.state }.become k (.returned reply))
  | handedOut (k : Nat) (lease : ControlLease)
      (hk : s.tasks[k]? = some (.leaving (.lease lease))) :
      Effect s (.run k) ({ s with issued := lease :: s.issued }.leave k
        (.returned (.lease lease)))

namespace Target
variable {s s' : Target} {m : Move} {k : Nat}

/-- A step of one call that keeps the gate as it is. -/
theorem Effect.still {old new : Task} (hk : s.tasks[k]? = some old)
    (hshift : Shift s.state old new) (h : new.holds = old.holds) (m : Move) :
    Effect s m (s.become k new) := .shifted m k old new s.gate hk hshift (.same _ h)

theorem run_effect {t : Task} (hk : s.tasks[k]? = some t) (h : s.run k t = some s') :
    Effect s (.run k) s' := by
  cases t with
  | entering i =>
    simp only [run, Option.some.injEq] at h
    subst h
    cases hcheck : s.state.check i with
    | ok u => exact Effect.still hk (.checked i hcheck) rfl _
    | error text => exact Effect.still hk (.turnedAway i text) rfl _
  | checking i =>
    simp only [run, Option.some.injEq] at h
    subst h
    cases hcheck : s.state.check i with
    | ok u => exact Effect.still hk (.admitted i hcheck) rfl _
    | error text => exact Effect.still hk (.expired i text) rfl _
  | claiming owner =>
    simp only [run, Option.some.injEq] at h
    subst h
    cases hr : s.state.reserve owner with
    | error text => exact Effect.still hk (.unclaimed owner text) rfl _
    | ok x =>
      unfold State.reserve at hr
      split at hr
      · cases hr
      · split at hr
        · cases hr
        · next hphase =>
          cases hr
          exact .reserved k owner hk (by simpa using hphase)
  | granted r =>
    cases h
    exact .granted k r hk
  | releasing lease =>
    simp only [run, Option.some.injEq] at h
    subst h
    split
    · exact Effect.still hk (.looked lease) rfl _
    · next hstale => exact .stale k lease hk hstale
  | moving kind lease from' =>
    simp only [run, Option.some.injEq] at h
    subst h
    cases hr : s.state.begin kind lease from' with
    | error text => exact Effect.still hk (.refused kind lease from' text) rfl _
    | ok x =>
      unfold State.begin at hr
      split at hr
      · cases hr
      · next hcurrent =>
        split at hr
        · cases hr
        · next hphase =>
          cases hr
          exact .began k kind lease from' hk (by simpa using hcurrent) (by simpa using hphase)
  | unwinding r reply =>
    cases h
    exact .unwound k r reply hk
  | inspecting lease =>
    simp only [run, Option.some.injEq] at h
    subst h
    split
    · exact Effect.still hk (.skipped lease) rfl _
    · exact Effect.still hk (.wiped lease) rfl _
  | leaving reply =>
    simp only [run, Option.some.injEq] at h
    subst h
    cases reply with
    | lease lease => exact .handedOut k lease hk
    | ok | error | cleanupFailed | dropped =>
      exact .shifted _ k _ _ none hk (.left _ (by simp)) (.gave _ rfl rfl)
  | _ => cases h

theorem finish_effect {t : Task} {ok : Bool} (hk : s.tasks[k]? = some t)
    (h : s.finish k ok t = some s') : Effect s (.finish k ok) s' := by
  cases t with
  | inside i clones =>
    cases clones with
    | zero => cases h; exact .shifted _ k _ _ none hk (.ended i 0) (.gave _ rfl rfl)
    | succ n => cases h; exact Effect.still hk (.shared i (n + 1) n) rfl _
  | cleaning kind r =>
    have hlost : ∀ {reply : Reply}, reply.isOk = false →
        Effect s (.finish k ok) (s.leave k (.unwinding (.transition r) reply)) :=
      fun hreply => .shifted _ k _ _ none hk (.lost _ _ _ rfl hreply) (.gave _ rfl rfl)
    cases ok with
    | false => cases h; exact hlost rfl
    | true =>
      simp only [finish, if_true, Option.some.injEq] at h
      subst h
      cases hc : s.state.complete kind r with
      | error text => exact hlost rfl
      | ok state =>
        unfold State.complete at hc
        split at hc
        · cases hc
        · cases hc
          exact .completed k kind r hk
  | wiping lease => cases h; exact .shifted _ k _ _ none hk (.flushEnded lease _) (.gave _ rfl rfl)
  | _ => cases h

/-- INVERSION: every move has one of the effects. -/
theorem step_effect (h : s.step m = some s') : Effect s m s' := by
  cases m with
  | manualLease => cases h; exact .read
  | call c =>
    simp only [step] at h
    split at h
    · next hknows => cases h; exact .called c hknows
    · cases h
  | acquire k =>
    simp only [step] at h
    split at h
    · cases h
    · next hgate =>
      obtain ⟨new, hnew, rfl⟩ := Option.map_eq_some_iff.mp h
      obtain ⟨old, hk, hacquired⟩ := Option.bind_eq_some_iff.mp hnew
      cases old <;> cases hacquired
      · exact .shifted _ k _ _ _ hk (.waited _) (hgate ▸ .took rfl)
      · exact .shifted _ k _ _ _ hk (.handed _) (hgate ▸ .took rfl)
      · exact .shifted _ k _ _ _ hk (.opened _ _) (hgate ▸ .took rfl)
      · exact .shifted _ k _ _ _ hk (.flushed _) (hgate ▸ .took rfl)
  | run k =>
    obtain ⟨t, hk, hrun⟩ := Option.bind_eq_some_iff.mp h
    exact run_effect hk hrun
  | share k =>
    simp only [step] at h
    split at h
    · next i clones hk => cases h; exact Effect.still hk (.shared i clones (clones + 1)) rfl _
    · cases h
  | finish k ok =>
    obtain ⟨t, hk, hfinish⟩ := Option.bind_eq_some_iff.mp h
    exact finish_effect hk hfinish
  | drop k =>
    obtain ⟨t, hk, hdrop⟩ := Option.bind_eq_some_iff.mp h
    obtain ⟨new, hnew, rfl⟩ := Option.map_eq_some_iff.mp hdrop
    cases t <;> cases hnew
    · exact Effect.still hk (.dropped _ rfl) rfl _
    · exact Effect.still hk (.dropped _ rfl) rfl _
    · exact .shifted _ k _ _ none hk (.dropped _ rfl) (.gave _ rfl rfl)
    · exact Effect.still hk (.dropped _ rfl) rfl _
    · exact Effect.still hk (.lost _ _ _ rfl rfl) rfl _
    · exact .shifted _ k _ _ none hk (.lost _ _ _ rfl rfl) (.gave _ rfl rfl)
    · exact Effect.still hk (.dropped _ rfl) rfl _
    · exact Effect.still hk (.dropped _ rfl) rfl _
    · exact Effect.still hk (.lost _ _ _ rfl rfl) rfl _
    · exact .shifted _ k _ _ none hk (.lost _ _ _ rfl rfl) (.gave _ rfl rfl)
    · exact Effect.still hk (.dropped _ rfl) rfl _
    · exact .shifted _ k _ _ none hk (.dropped _ rfl) (.gave _ rfl rfl)
    · exact .shifted _ k _ _ none hk (.dropped _ rfl) (.gave _ rfl rfl)

end Target

/-! ### What is pending -/

/-- What a call has that only one call may have: a recovery that is armed, or a lease that is the
    target's and has not been handed out. -/
inductive Pending where
  | recovery (r : Recovery)
  | handing (lease : ControlLease)

def Task.pending : Task → Option Pending
  | .leaving (.lease lease) => some (.handing lease)
  | t => t.recovery.map .recovery

/-- The phases the transition may begin from. -/
def Transition.From : Transition → ControlPhase → Prop
  | .pause, from' => from' = .running
  | .resume, from' => from' = .paused
  | .release, _ => True

/-- A call moves a lease that was handed out, and does not unwind to a success. -/
def Task.Sound (issued : List ControlLease) : Task → Prop
  | .releasing lease => lease ∈ issued
  | .moving kind lease from' => lease ∈ issued ∧ kind.From from'
  | .unwinding _ reply => reply.isOk = false
  | _ => True

theorem Task.Sound.mono {issued : List ControlLease} {t : Task} (h : t.Sound issued)
    (lease : ControlLease) : t.Sound (lease :: issued) := by
  cases t with
  | releasing => exact List.mem_cons_of_mem _ h
  | moving => exact ⟨List.mem_cons_of_mem _ h.1, h.2⟩
  | _ => exact h

/-- FRAME: what a call has pending stays. -/
theorem Shift.pending {s : State} {old new : Task} (h : Shift s old new) :
    new.pending = old.pending := by
  cases h with
  | lost t r reply ht =>
    cases old with
    | leaving => cases ht
    | _ => simpa [Task.pending, Task.recovery] using ht.symm
  | left reply hreply =>
    cases reply with
    | lease lease => exact absurd rfl (hreply lease)
    | _ => rfl
  | dropped t ht => cases old <;> first | rfl | cases ht
  | _ => rfl

theorem Task.pending_of_recovery {t : Task} {r : Recovery} (h : t.recovery = some r) :
    t.pending = some (.recovery r) := by
  cases t <;> first | cases h; rfl | cases h

theorem Task.recovery_of_pending {t : Task} {r : Recovery} (h : t.pending = some (.recovery r)) :
    t.recovery = some r := by
  unfold Task.pending at h
  split at h
  · cases h
  · obtain ⟨r', hr', heq⟩ := Option.map_eq_some_iff.mp h
    cases heq
    exact hr'

theorem Shift.sound {s : State} {old new : Task} (h : Shift s old new)
    {issued : List ControlLease} (hold : old.Sound issued) : new.Sound issued := by
  cases h with
  | looked => exact ⟨hold, trivial⟩
  | lost t r reply ht hreply => exact hreply
  | _ => trivial

/-- The owner's phases in which nothing may start. -/
def ControlPhase.shut : ControlPhase → Bool
  | .pausing | .resuming | .stopping => true
  | .idle | .running | .paused => false

theorem Transition.during_shut (kind : Transition) : kind.during.shut = true := by
  cases kind <;> rfl

/-- FRAME: the gate after a step of one call. -/
theorem Gating.owned {k : Nat} {old new : Task} {gate gate' : Option Nat} (h : Gating k old new gate gate')
    {tasks : List Task} (hk : tasks[k]? = some old)
    (hown : Token.Owned Task.holds (gate.map fun k => (k, ())) tasks) :
    Token.Owned Task.holds (gate'.map fun k => (k, ())) (tasks.set k new) := by
  cases h with
  | same gate h => exact hown.keep hk h
  | took h => exact hown.take hk h
  | gave gate hold h => exact hown.give hk hold h

namespace Target

/-- The generation below which no owned lease is good again. -/
def floor (s : Target) : Option (Nat × Pending) → Nat
  | some (_, .recovery (.transition r)) => r.original.generation
  | _ => s.state.generation

/-- The manual generation below which no manual lease is good again. -/
def manualFloor (s : Target) : Option (Nat × Pending) → Nat
  | some (_, .recovery (.claim r)) => r.previousManualGeneration
  | _ => if s.state.phase = .running then s.state.manualGeneration + 1
    else s.state.manualGeneration

/-- The state agrees with what is pending, and the leases handed out with both. -/
def Fits (s : Target) : Option (Nat × Pending) → Prop
  | none => ∀ l ∈ s.issued, l.generation ≤ s.state.generation ∧
      (l.generation = s.state.generation → s.state.owner = some l.owner)
  | some (_, .recovery (.claim r)) =>
    r.lease.current s.state ∧ s.state.phase = .resuming ∧
      s.state.manualGeneration = r.previousManualGeneration + 1 ∧
      ∀ l ∈ s.issued, l.generation < s.state.generation
  | some (_, .recovery (.transition r)) =>
    r.next.current s.state ∧ s.state.phase.shut = true ∧ r.original ∈ s.issued ∧
      r.currentGeneration = r.original.generation + 1 ∧
      ∀ l ∈ s.issued, l.generation ≤ r.original.generation ∧
        (l.generation = r.original.generation → l.owner = r.original.owner)
  | some (_, .handing lease) =>
    lease.current s.state ∧ ∀ l ∈ s.issued, l.generation < s.state.generation

/-- INVARIANT: with `p` pending. -/
structure Standing (s : Target) (p : Option (Nat × Pending)) : Prop where
  gate : Token.Owned Task.holds (s.gate.map fun k => (k, ())) s.tasks
  token : Token.Owned Task.pending p s.tasks
  idle : s.state.phase = .idle ↔ s.state.owner = none
  tickets : ∀ t ∈ s.tickets, t.generation ≤
    s.state.manualGeneration + if s.state.phase = .idle then 1 else 0
  calls : ∀ t ∈ s.tasks, t.Sound s.issued
  ordered : s.issued.Pairwise fun a b => b.generation < a.generation
  fits : s.Fits p

variable {s s' : Target} {m : Move} {k : Nat} {p : Option (Nat × Pending)}

theorem standing_start : Standing start none where
  gate := Token.Owned.nil
  token := Token.Owned.nil
  idle := by simp [start]
  tickets := by simp [start]
  calls := by simp [start]
  ordered := by simp [start]
  fits := by simp [Fits, start]

theorem Standing.idle_none (hs : s.Standing p) (h : s.state.phase = .idle) : p = none := by
  have howner := hs.idle.mp h
  have hfits := hs.fits
  unfold Fits ControlLease.current at hfits
  split at hfits
  · rfl
  · rw [howner] at hfits
    cases hfits.1.1
  · rw [howner] at hfits
    cases hfits.1.1
  · rw [howner] at hfits
    cases hfits.1.1

/-- A lease that was handed out is current only while nothing is pending. -/
theorem Standing.current_none (hs : s.Standing p) {lease : ControlLease}
    (hmem : lease ∈ s.issued) (h : lease.current s.state) : p = none := by
  have hfits := hs.fits
  have hgen : s.state.generation = lease.generation := h.2
  unfold Fits at hfits
  split at hfits
  · rfl
  · have := hfits.2.2.2 lease hmem
    omega
  · next r =>
    have hnext : s.state.generation = r.currentGeneration := hfits.1.2
    have hle := (hfits.2.2.2.2 lease hmem).1
    have hnextGen := hfits.2.2.2.1
    omega
  · have := hfits.2 lease hmem
    omega

/-- FRAME: the calls after a step of one call. -/
theorem Standing.step_calls (hs : s.Standing p) {new : Task} (hnew : new.Sound s.issued) :
    ∀ t ∈ s.tasks.set k new, t.Sound s.issued := by
  intro t ht
  rcases List.mem_or_eq_of_mem_set ht with ht | rfl
  · exact hs.calls t ht
  · exact hnew

/-- What a call with something pending has is what is pending. -/
theorem Standing.pending (hs : s.Standing p) {t : Task} (hk : s.tasks[k]? = some t) {x : Pending}
    (ht : t.pending = some x) : p = some (k, x) := (hs.token k x).mpr ⟨t, hk, ht⟩

/-- STEP: the invariant holds on, with floors that have not fallen. -/
theorem Standing.step (hs : s.Standing p) (h : Effect s m s') : ∃ p', s'.Standing p' ∧
    s.floor p ≤ s'.floor p' ∧ s.manualFloor p ≤ s'.manualFloor p' := by
  cases h with
  | read =>
    refine ⟨p, ⟨hs.gate, hs.token, hs.idle, ?_, hs.calls, hs.ordered, hs.fits⟩, Nat.le_refl _,
      Nat.le_refl _⟩
    intro t ht
    rcases List.mem_cons.mp ht with rfl | ht
    · exact Nat.le_add_right ..
    · exact hs.tickets t ht
  | called c hknows =>
    refine ⟨p, ⟨hs.gate.push ?_, hs.token.push ?_, hs.idle, hs.tickets, ?_, hs.ordered, hs.fits⟩,
      Nat.le_refl _, Nat.le_refl _⟩
    · cases c <;> rfl
    · cases c <;> rfl
    · intro t ht
      rcases List.mem_append.mp ht with ht | ht
      · exact hs.calls t ht
      · obtain rfl := List.mem_singleton.mp ht
        cases c with
        | pause lease | resume lease =>
          have hmem : lease ∈ s.issued := by simpa [knows] using hknows
          exact ⟨hmem, rfl⟩
        | release lease =>
          have hmem : lease ∈ s.issued := by simpa [knows] using hknows
          exact hmem
        | _ => trivial
  | shifted m k old new gate hk hshift hgate =>
    exact ⟨p, ⟨hgate.owned hk hs.gate, hs.token.keep hk hshift.pending, hs.idle, hs.tickets,
      hs.step_calls (hshift.sound (hs.calls old (List.mem_of_getElem? hk))), hs.ordered, hs.fits⟩,
      Nat.le_refl _, Nat.le_refl _⟩
  | stale k lease hk =>
    exact ⟨p, ⟨hs.gate.keep hk rfl, hs.token.keep hk rfl, hs.idle, hs.tickets,
      hs.step_calls trivial, hs.ordered, hs.fits⟩, Nat.le_refl _, Nat.le_refl _⟩
  | reserved k owner hk hphase =>
    obtain rfl := hs.idle_none hphase
    refine ⟨_, ⟨hs.gate.keep hk rfl, hs.token.take hk rfl, ?_, ?_, ?_, hs.ordered, ?_⟩, ?_, ?_⟩
    · simp [become]
    · intro t ht
      have hle := hs.tickets t ht
      simpa [become, hphase] using hle
    · exact hs.step_calls trivial
    · refine ⟨⟨rfl, rfl⟩, rfl, rfl, fun l hl => ?_⟩
      exact Nat.lt_succ_of_le (hs.fits l hl).1
    · exact Nat.le_succ _
    · simp [manualFloor, hphase]
  | granted k r hk =>
    obtain rfl := hs.pending hk rfl
    obtain ⟨hcurrent, hphase, hmanual, hissued⟩ := hs.fits
    refine ⟨_, ⟨hs.gate.keep hk rfl, hs.token.change hk rfl rfl, ?_, ?_, ?_, hs.ordered, ?_⟩, ?_,
      ?_⟩
    · have howner : s.state.owner = some r.lease.owner := hcurrent.1
      simp [become, howner]
    · intro t ht
      have hle := hs.tickets t ht
      simpa [become, hphase] using hle
    · exact hs.step_calls trivial
    · exact ⟨hcurrent, hissued⟩
    · exact Nat.le_refl _
    · simp [manualFloor, become]
      omega
  | began k kind lease from' hk hcurrent hphase =>
    have hmem : lease ∈ s.issued := (hs.calls _ (List.mem_of_getElem? hk)).1
    obtain rfl := hs.current_none hmem hcurrent
    have hopen : s.state.phase ≠ .idle := by
      intro hidle
      have hnone := hs.idle.mp hidle
      rw [hcurrent.1] at hnone
      cases hnone
    have hshut := kind.during_shut
    refine ⟨_, ⟨hs.gate.keep hk rfl, hs.token.take hk rfl, ?_, ?_, ?_, hs.ordered, ?_⟩, ?_, ?_⟩
    · cases kind <;> simp [become, Transition.during, hcurrent.1]
    · intro t ht
      have hle := hs.tickets t ht
      simp only [hopen, if_false] at hle
      simp only [become]
      omega
    · exact hs.step_calls trivial
    · refine ⟨⟨hcurrent.1, rfl⟩, hshut, hmem, congrArg (· + 1) hcurrent.2, fun l hl => ?_⟩
      obtain ⟨hle, howner⟩ := hs.fits l hl
      have hgen : s.state.generation = lease.generation := hcurrent.2
      refine ⟨hgen ▸ hle, fun heq => ?_⟩
      have hsome := howner (heq.trans hgen.symm)
      rw [hcurrent.1] at hsome
      exact (Option.some.inj hsome).symm
    · exact Nat.le_of_eq hcurrent.2
    · simp only [manualFloor, become]
      cases kind <;> simp only [Transition.during] <;> split <;> simp
  | completed k kind r hk =>
    obtain rfl := hs.pending hk rfl
    obtain ⟨hcurrent, hphase, _, hnext, hissued⟩ := hs.fits
    have hgen : s.state.generation = r.original.generation + 1 := hcurrent.2.trans hnext
    have htickets : ∀ t ∈ s.tickets, t.generation ≤ s.state.manualGeneration := by
      intro t ht
      have hle := hs.tickets t ht
      have hopen : s.state.phase ≠ .idle := by
        intro hidle
        rw [hidle] at hphase
        cases hphase
      simpa [hopen] using hle
    have hbelow : ∀ l ∈ s.issued, l.generation < s.state.generation := by
      intro l hl
      have hle := (hissued l hl).1
      omega
    have hfloor : r.original.generation ≤ s.state.generation := by omega
    have hmanual : s.state.manualGeneration = s.manualFloor (some (k, .recovery (.transition r))) := by
      have hopen : s.state.phase ≠ .running := by
        intro hrunning
        rw [hrunning] at hphase
        cases hphase
      simp [manualFloor, hopen]
    have howner : s.state.owner = some r.original.owner := hcurrent.1
    cases kind with
    | release =>
      refine ⟨none, ⟨hs.gate.keep hk rfl, hs.token.give hk rfl rfl, ?_, ?_, ?_, hs.ordered, ?_⟩,
        hfloor, ?_⟩
      · simp [become, Transition.after]
      · intro t ht
        exact Nat.le_add_right_of_le (htickets t ht)
      · exact hs.step_calls trivial
      · intro l hl
        exact ⟨Nat.le_of_lt (hbelow l hl), fun heq => absurd heq (Nat.ne_of_lt (hbelow l hl))⟩
      · rw [← hmanual]
        simp [manualFloor, become, Transition.after]
    | pause | resume =>
      refine ⟨_, ⟨hs.gate.keep hk rfl, hs.token.change hk rfl rfl, ?_, ?_, ?_, hs.ordered, ?_⟩,
        hfloor, ?_⟩
      · simp [become, Transition.after, howner]
      · intro t ht
        exact Nat.le_add_right_of_le (htickets t ht)
      · exact hs.step_calls trivial
      · exact ⟨⟨howner, hcurrent.2⟩, hbelow⟩
      · rw [← hmanual]
        simp [manualFloor, become, Transition.after]
  | unwound k r reply hk =>
    obtain rfl := hs.pending hk rfl
    cases r with
    | claim r =>
      obtain ⟨hcurrent, hphase, hmanual, hissued⟩ := hs.fits
      have hdrop : Recovery.drop s.state (.claim r) = { s.state with
          owner := none, phase := .idle, manualGeneration := r.previousManualGeneration } := by
        simp [Recovery.drop, hcurrent, hphase]
      rw [hdrop]
      refine ⟨none, ⟨hs.gate.keep hk rfl, hs.token.give hk rfl rfl, ?_, ?_, ?_, hs.ordered, ?_⟩,
        Nat.le_refl _, ?_⟩
      · simp [become]
      · intro t ht
        have hle := hs.tickets t ht
        simpa [become, hphase, hmanual] using hle
      · exact hs.step_calls trivial
      · intro l hl
        exact ⟨Nat.le_of_lt (hissued l hl), fun heq => absurd heq (Nat.ne_of_lt (hissued l hl))⟩
      · simp [manualFloor, become]
    | transition r =>
      obtain ⟨hcurrent, hphase, _, hnext, hissued⟩ := hs.fits
      have hdrop : Recovery.drop s.state (.transition r) =
          { s.state with generation := r.original.generation } := by
        simp [Recovery.drop, hcurrent]
      rw [hdrop]
      refine ⟨none, ⟨hs.gate.keep hk rfl, hs.token.give hk rfl rfl, hs.idle, hs.tickets, ?_,
        hs.ordered, ?_⟩, Nat.le_refl _, Nat.le_refl _⟩
      · exact hs.step_calls trivial
      · intro l hl
        obtain ⟨hle, howner⟩ := hissued l hl
        exact ⟨hle, fun heq => hcurrent.1.trans (congrArg some (howner heq).symm)⟩
  | handedOut k lease hk =>
    obtain rfl := hs.pending hk rfl
    obtain ⟨hcurrent, hissued⟩ := hs.fits
    refine ⟨none, ⟨hs.gate.give hk rfl rfl, hs.token.give hk rfl rfl, hs.idle, hs.tickets, ?_, ?_,
      ?_⟩, Nat.le_refl _, Nat.le_refl _⟩
    · intro t ht
      have hreturned : (Task.returned (.lease lease)).Sound s.issued := trivial
      exact (hs.step_calls hreturned t ht).mono lease
    · exact List.Pairwise.cons (fun l hl => hcurrent.2 ▸ hissued l hl) hs.ordered
    · intro l hl
      rcases List.mem_cons.mp hl with rfl | hl
      · exact ⟨Nat.le_of_eq hcurrent.2.symm, fun _ => hcurrent.1⟩
      · exact ⟨Nat.le_of_lt (hissued l hl), fun heq => absurd heq (Nat.ne_of_lt (hissued l hl))⟩

/-- INVARIANT: of every target the calls reach. -/
theorem reaches_standing (h : Machine.Reaches step start s) : ∃ p, s.Standing p := by
  refine h.invariant (I := fun s => ∃ p, s.Standing p) ?_ ⟨none, standing_start⟩
  rintro s m s' ⟨p, hs⟩ hstep
  obtain ⟨p', hs', _⟩ := hs.step (step_effect hstep)
  exact ⟨p', hs'⟩

/-! ### The barrier -/

end Target

/-- Under which states an operation may start. -/
def State.admits (s : State) : Identity → Prop
  | .owned lease => lease.current s ∧ s.phase = .running
  | .manual lease => s.manualGeneration = lease.generation ∧ (s.phase = .idle ∨ s.phase = .paused)
  | .automatic => s.phase = .idle
  | .cleanup => True

theorem State.check_ok_iff {s : State} {i : Identity} : s.check i = .ok () ↔ s.admits i := by
  cases i with
  | owned lease => by_cases h : lease.current s <;> by_cases h' : s.phase = .running <;>
      simp [check, admits, h, h']
  | manual lease =>
    have hallowed : s.phase.manualAllowed = true ↔ s.phase = .idle ∨ s.phase = .paused := by
      cases s.phase <;> simp [ControlPhase.manualAllowed]
    by_cases h : s.manualGeneration = lease.generation <;> simp [check, admits, h, ← hallowed]
  | automatic => by_cases h : s.phase = .idle <;> simp [check, admits, h]
  | cleanup => simp [check, admits]

namespace Target
variable {s s' : Target} {m : Move} {k : Nat} {p : Option (Nat × Pending)}

/-- An operation admitted as `i` runs in call `k`. -/
def inside (s : Target) (k : Nat) (i : Identity) : Prop := ∃ n, s.tasks[k]? = some (.inside i n)

/-- The lease of the identity has been handed out. -/
def handedOut (s : Target) : Identity → Prop
  | .owned lease => lease ∈ s.issued
  | .manual lease => lease ∈ s.tickets
  | .automatic | .cleanup => False

/-- Call `k` is a claim or a transition after its first lock section and before its end. -/
def armed (s : Target) (k : Nat) : Prop := ∃ t r, s.tasks[k]? = some t ∧ t.recovery = some r

/-- Call `k` has returned `Ok`. -/
def succeeded (s : Target) (k : Nat) : Prop :=
  ∃ reply, s.tasks[k]? = some (.returned reply) ∧ reply.isOk = true

/-- The lease is never good again. -/
def Dead (s : Target) (p : Option (Nat × Pending)) : Identity → Prop
  | .owned lease => lease.generation < s.floor p
  | .manual lease => lease.generation < s.manualFloor p
  | .automatic | .cleanup => False

theorem Standing.floor_le (hs : s.Standing p) : s.floor p ≤ s.state.generation := by
  have hfits := hs.fits
  unfold floor
  split
  · next k r =>
    have hgen : s.state.generation = r.currentGeneration := hfits.1.2
    have hnext := hfits.2.2.2.1
    omega
  · exact Nat.le_refl _

/-- A dead lease admits nothing. -/
theorem Standing.not_admits (hs : s.Standing p) {i : Identity} (h : s.Dead p i) :
    ¬ s.state.admits i := by
  intro hadmits
  cases i with
  | owned lease =>
    have hlt : lease.generation < s.floor p := h
    have hgen : s.state.generation = lease.generation := hadmits.1.2
    have hle := hs.floor_le
    omega
  | manual lease =>
    obtain ⟨hgen, hphase⟩ := hadmits
    have hlt : lease.generation < s.manualFloor p := h
    have hfits := hs.fits
    have hrunning : s.state.phase ≠ .running := by rcases hphase with h | h <;> simp [h]
    unfold manualFloor at hlt
    split at hlt
    · have hresuming := hfits.2.1
      rcases hphase with h | h <;> rw [h] at hresuming <;> cases hresuming
    · rw [if_neg hrunning] at hlt
      omega
  | automatic | cleanup => exact h

/-- INVERSION: an operation runs after a step that ran before, or has just been admitted. -/
theorem step_inside (h : Effect s m s') {j : Nat} {i : Identity} (hin : s'.inside j i) :
    s.inside j i ∨ s.state.admits i := by
  obtain ⟨n, hj⟩ := hin
  have hset : ∀ {k : Nat} {old new : Task}, s.tasks[k]? = some old →
      (∀ i n, new ≠ .inside i n) → (s.tasks.set k new)[j]? = some (.inside i n) →
      s.inside j i ∨ s.state.admits i := by
    intro k old new hk hnew hj
    rcases (Token.getElem?_set_eq_some hk).mp hj with ⟨_, heq⟩ | ⟨_, hj⟩
    · exact absurd heq.symm (hnew i n)
    · exact Or.inl ⟨n, hj⟩
  cases h with
  | read => exact Or.inl ⟨n, hj⟩
  | called c =>
    rcases Token.getElem?_push_eq_some.mp hj with hj | ⟨_, heq⟩
    · exact Or.inl ⟨n, hj⟩
    · cases c <;> cases heq
  | shifted m k old new gate hk hshift hgate =>
    rcases (Token.getElem?_set_eq_some hk).mp hj with ⟨rfl, heq⟩ | ⟨_, hj⟩
    · subst heq
      cases hshift with
      | admitted i hcheck => exact Or.inr (State.check_ok_iff.mp hcheck)
      | shared i m' => exact Or.inl ⟨m', hk⟩
    · exact Or.inl ⟨n, hj⟩
  | stale k lease hk => exact hset hk (by simp) hj
  | reserved k owner hk => exact hset hk (by simp) hj
  | granted k r hk => exact hset hk (by simp) hj
  | began k kind lease from' hk => exact hset hk (by simp) hj
  | completed k kind r hk => exact hset hk (by simp) hj
  | unwound k r reply hk => exact hset hk (by simp) hj
  | handedOut k lease hk => exact hset hk (by simp) hj

/-- STEP: a call that has returned has returned. -/
theorem step_returned (h : Effect s m s') {reply : Reply}
    (hk : s.tasks[k]? = some (.returned reply)) : s'.tasks[k]? = some (.returned reply) := by
  have hset : ∀ {j : Nat} {old new : Task}, s.tasks[j]? = some old →
      (∀ reply, old ≠ .returned reply) → (s.tasks.set j new)[k]? = some (.returned reply) := by
    intro j old new hj hold
    refine (Token.getElem?_set_eq_some hj).mpr (Or.inr ⟨?_, hk⟩)
    rintro rfl
    exact hold reply (Option.some.inj (hj.symm.trans hk))
  cases h with
  | read => exact hk
  | called c => exact Token.getElem?_push_eq_some.mpr (Or.inl hk)
  | shifted m j old new gate hj hshift hgate =>
    refine hset hj ?_
    rintro reply rfl
    cases hshift with
    | lost t r reply ht => cases ht
    | dropped t ht => cases ht
  | stale j lease hj => exact hset hj (by simp)
  | reserved j owner hj => exact hset hj (by simp)
  | granted j r hj => exact hset hj (by simp)
  | began j kind lease from' hj => exact hset hj (by simp)
  | completed j kind r hj => exact hset hj (by simp)
  | unwound j r reply hj => exact hset hj (by simp)
  | handedOut j lease hj => exact hset hj (by simp)

end Target

/-- The generation of the target once the call has come to its end. -/
def Recovery.generation : Recovery → Nat
  | .claim r => r.lease.generation
  | .transition r => r.currentGeneration

/-- The manual floor a claim comes to at its end; a transition has raised it at its beginning. -/
def Recovery.manualEnd : Recovery → Nat
  | .claim r => r.previousManualGeneration + 2
  | .transition _ => 0

namespace Target
variable {s s' s₀ : Target} {m : Move} {k : Nat} {p p' : Option (Nat × Pending)}

theorem Dead.mono {i : Identity} (h : s.Dead p i) (hfloor : s.floor p ≤ s'.floor p')
    (hmanual : s.manualFloor p ≤ s'.manualFloor p') : s'.Dead p' i := by
  cases i with
  | owned lease => exact Nat.lt_of_lt_of_le h hfloor
  | manual lease => exact Nat.lt_of_lt_of_le h hmanual
  | automatic | cleanup => exact h

/-- Nothing runs inside after the step of a call that has the gate. -/
theorem Standing.alone (hs : s.Standing p) {t new : Task} (hk : s.tasks[k]? = some t)
    (hholds : t.holds = some ()) (hnew : ∀ i n, new ≠ .inside i n)
    (htasks : s'.tasks = s.tasks.set k new) (j : Nat) (i : Identity) : ¬ s'.inside j i := by
  rintro ⟨n, hset⟩
  rw [htasks] at hset
  rcases (Token.getElem?_set_eq_some hk).mp hset with ⟨_, heq⟩ | ⟨hne, hj⟩
  · exact hnew i n heq.symm
  · exact hne (hs.gate.unique hj rfl hk hholds)

/-- What becomes of a pending claim or transition in one step. -/
inductive Comes (k : Nat) (r : Recovery) (s' : Target) (p' : Option (Nat × Pending)) : Prop
  | stays (hp : p' = some (k, .recovery r))
  | ends (hfloor : s'.floor p' = r.generation) (hmanual : r.manualEnd ≤ s'.manualFloor p')
      (hnone : ∀ j i, ¬ s'.inside j i)
  | fails (reply : Reply) (hk : s'.tasks[k]? = some (.returned reply)) (hreply : reply.isOk = false)

/-- STEP: a pending claim or transition stays, comes to its end with the gate, or fails. -/
theorem Standing.step_pending {r : Recovery} (hs : s.Standing (some (k, .recovery r)))
    (h : Effect s m s') (hs' : s'.Standing p') : Comes k r s' p' := by
  -- the step of another call leaves what is pending
  have hother : ∀ {j : Nat} {t : Task} {x : Pending}, s.tasks[j]? = some t → t.pending = some x →
      j = k ∧ x = .recovery r := by
    intro j t x hj ht
    have heq := hs.pending hj ht
    cases heq
    exact ⟨rfl, rfl⟩
  cases h with
  | read => exact .stays (hs'.token.eq hs.token)
  | called c => exact .stays (hs'.token.eq (hs.token.push (by cases c <;> rfl)))
  | shifted m j old new gate hj hshift hgate =>
    exact .stays (hs'.token.eq (hs.token.keep hj hshift.pending))
  | stale j lease hj => exact .stays (hs'.token.eq (hs.token.keep hj rfl))
  | reserved j owner hj hphase => cases hs.idle_none hphase
  | began j kind lease from' hj hcurrent hphase =>
    cases hs.current_none (hs.calls _ (List.mem_of_getElem? hj)).1 hcurrent
  | handedOut j lease hj => cases (hother hj rfl).2
  | unwound j r' reply hj =>
    obtain ⟨rfl, hr⟩ := hother hj rfl
    cases hr
    have hlt : j < s.tasks.length := (List.getElem?_eq_some_iff.mp hj).1
    exact .fails reply (List.getElem?_set_self hlt) (hs.calls _ (List.mem_of_getElem? hj))
  | granted j r' hj =>
    obtain ⟨rfl, hr⟩ := hother hj rfl
    cases hr
    obtain ⟨hcurrent, _, hmanual, _⟩ := hs.fits
    have hp' := hs'.token.eq (hs.token.change hj rfl rfl)
    refine .ends ?_ ?_ (hs.alone hj rfl (by simp) rfl)
    · rw [hp']
      exact hcurrent.2
    · rw [hp']
      simp [manualFloor, Recovery.manualEnd, become, hmanual]
  | completed j kind r' hj =>
    obtain ⟨rfl, hr⟩ := hother hj rfl
    cases hr
    have hgen : s.state.generation = r'.currentGeneration := hs.fits.1.2
    refine .ends ?_ (Nat.zero_le _) (hs.alone hj rfl (by simp) rfl)
    cases kind with
    | release =>
      rw [hs'.token.eq (hs.token.give hj rfl rfl)]
      exact hgen
    | pause | resume =>
      rw [hs'.token.eq (hs.token.change hj rfl rfl)]
      exact hgen

/-- The course of call `k`, a claim or a transition that began in `s₀`, against the leases handed
    out before: pending, over and done with all of them, or failed. -/
inductive Course (s₀ : Target) (k : Nat) (s : Target) (p : Option (Nat × Pending)) : Prop
  | pending (r : Recovery) (hp : p = some (k, .recovery r))
      (howned : ∀ l ∈ s₀.issued, l.generation < r.generation)
      (hmanual : ∀ t ∈ s₀.tickets, t.generation < r.manualEnd ∨ t.generation < s.manualFloor p)
  | sealed (hdead : ∀ i, s₀.handedOut i → s.Dead p i)
      (hnone : ∀ j i, s.inside j i → ¬ s₀.handedOut i)
  | failed (reply : Reply) (hk : s.tasks[k]? = some (.returned reply))
      (hreply : reply.isOk = false)

/-- STEP: a course goes on. -/
theorem Course.step (hc : Course s₀ k s p) (hs : s.Standing p) (h : Effect s m s') :
    ∃ p', s'.Standing p' ∧ Course s₀ k s' p' := by
  obtain ⟨p', hs', hfloor, hmanualFloor⟩ := hs.step h
  refine ⟨p', hs', ?_⟩
  cases hc with
  | sealed hdead hnone =>
    refine .sealed (fun i hi => (hdead i hi).mono hfloor hmanualFloor) fun j i hin hi => ?_
    rcases step_inside h hin with hin | hadmits
    · exact hnone j i hin hi
    · exact hs.not_admits (hdead i hi) hadmits
  | failed reply hk hreply => exact .failed reply (step_returned h hk) hreply
  | pending r hp howned hmanual =>
    subst hp
    have hlater : ∀ t ∈ s₀.tickets, t.generation < r.manualEnd ∨
        t.generation < s'.manualFloor p' :=
      fun t ht => (hmanual t ht).imp_right fun hlt => Nat.lt_of_lt_of_le hlt hmanualFloor
    cases hs.step_pending h hs' with
    | stays hp => exact .pending r hp howned hlater
    | fails reply hk hreply => exact .failed reply hk hreply
    | ends hend hmanualEnd hnone =>
      refine .sealed (fun i hi => ?_) fun j i hin _ => hnone j i hin
      cases i with
      | owned l =>
        have hlt := howned l hi
        rw [← hend] at hlt
        exact hlt
      | manual t =>
        rcases hlater t hi with hlt | hlt
        · exact Nat.lt_of_lt_of_le hlt hmanualEnd
        · exact hlt
      | automatic | cleanup => exact hi

/-- STEP: the first lock section of a claim or transition. -/
theorem Standing.begins (hs : s.Standing p) (h : Effect s m s') (hbefore : ¬ s.armed k)
    (hafter : s'.armed k) : ∃ p', s'.Standing p' ∧ Course s k s' p' := by
  obtain ⟨p', hs', _, hmanualFloor⟩ := hs.step h
  refine ⟨p', hs', ?_⟩
  obtain ⟨t, r, hk, hr⟩ := hafter
  -- the call that changes is `k`, and is armed after
  have hset : ∀ {j : Nat} {old new : Task}, s.tasks[j]? = some old →
      (s.tasks.set j new)[k]? = some t → k = j ∧ new = t := by
    intro j old new hj hk
    rcases (Token.getElem?_set_eq_some hj).mp hk with ⟨hkj, rfl⟩ | ⟨_, hk⟩
    · exact ⟨hkj, rfl⟩
    · exact absurd ⟨t, r, hk, hr⟩ hbefore
  cases h with
  | read => exact absurd ⟨t, r, hk, hr⟩ hbefore
  | called c =>
    rcases Token.getElem?_push_eq_some.mp hk with hk | ⟨_, rfl⟩
    · exact absurd ⟨t, r, hk, hr⟩ hbefore
    · cases c <;> cases hr
  | shifted m j old new gate hj hshift hgate =>
    obtain ⟨rfl, rfl⟩ := hset hj hk
    refine absurd ⟨old, r, hj, Task.recovery_of_pending ?_⟩ hbefore
    rw [← hshift.pending]
    exact Task.pending_of_recovery hr
  | stale j lease hj => obtain ⟨rfl, rfl⟩ := hset hj hk; cases hr
  | granted j r' hj | unwound j r' reply hj => obtain ⟨rfl, rfl⟩ := hset hj hk; cases hr
  | completed j kind r' hj => obtain ⟨rfl, rfl⟩ := hset hj hk; cases hr
  | handedOut j lease hj => obtain ⟨rfl, rfl⟩ := hset hj hk; cases hr
  | reserved j owner hj hphase =>
    obtain ⟨rfl, rfl⟩ := hset hj hk
    obtain rfl := hs.idle_none hphase
    refine .pending _ (hs'.token.eq (hs.token.take hj rfl)) (fun l hl => ?_) fun t ht => ?_
    · exact Nat.lt_succ_of_le (hs.fits l hl).1
    · have hle := hs.tickets t ht
      rw [if_pos hphase] at hle
      exact Or.inl (Nat.lt_succ_of_le hle)
  | began j kind lease from' hj hcurrent hphase =>
    obtain ⟨rfl, rfl⟩ := hset hj hk
    obtain rfl := hs.current_none (hs.calls _ (List.mem_of_getElem? hj)).1 hcurrent
    have hp' := hs'.token.eq (hs.token.take hj rfl)
    refine .pending _ hp' (fun l hl => Nat.lt_succ_of_le (hs.fits l hl).1) fun t ht => Or.inr ?_
    have hopen : s.state.phase ≠ .idle := by
      intro hidle
      have hnone := hs.idle.mp hidle
      rw [hcurrent.1] at hnone
      cases hnone
    have hle := hs.tickets t ht
    rw [if_neg hopen] at hle
    refine Nat.lt_of_lt_of_le (Nat.lt_succ_of_le hle) ?_
    rw [hp']
    cases kind <;> simp [manualFloor, become, Transition.during]

/-! ### Runs -/

/-- RUN: what the course of a call comes to. -/
theorem Course.run (hc : Course s₀ k s p) (hs : s.Standing p) (h : Machine.Reaches Target.step s s') :
    ∃ p', s'.Standing p' ∧ Course s₀ k s' p' := by
  refine h.invariant (I := fun s => ∃ p, s.Standing p ∧ Course s₀ k s p) ?_ ⟨p, hs, hc⟩
  rintro s m s' ⟨p, hs, hc⟩ hstep
  exact hc.step hs (step_effect hstep)

/-- The barrier of the registry: operations are alone behind the gate and start only under a state
    that admits them, and once a claim or a transition has succeeded nothing runs under a lease
    handed out before it began. -/
theorem control_barrier (hreach : Machine.Reaches Target.step start s) :
    (∀ j k i i', s.inside j i → s.inside k i' → j = k ∧ i = i') ∧
    (∀ m s' k i, s.step m = some s' → s'.inside k i → s.inside k i ∨ s.state.admits i) ∧
    ∀ m s₁ s₂ k, s.step m = some s₁ → ¬ s.armed k → s₁.armed k →
      Machine.Reaches Target.step s₁ s₂ → s₂.succeeded k →
      ∀ j i, s.handedOut i → ¬ s₂.inside j i := by
  obtain ⟨p, hs⟩ := reaches_standing hreach
  refine ⟨?_, fun m s' k i hstep hin => step_inside (step_effect hstep) hin, ?_⟩
  · rintro j k i i' ⟨n, hj⟩ ⟨n', hk⟩
    obtain rfl : j = k := hs.gate.unique hj rfl hk rfl
    rw [hj] at hk
    cases hk
    exact ⟨rfl, rfl⟩
  · rintro m s₁ s₂ k hstep hbefore hafter hrun ⟨reply, hk, hok⟩ j i hold hin
    obtain ⟨p₁, hs₁, hc₁⟩ := hs.begins (step_effect hstep) hbefore hafter
    obtain ⟨p₂, hs₂, hc₂⟩ := hc₁.run hs₁ hrun
    cases hc₂ with
    | sealed hdead hnone => exact hnone j i hin hold
    | failed reply' hk' hreply =>
      rw [hk] at hk'
      cases hk'
      rw [hok] at hreply
      cases hreply
    | pending r hp =>
      obtain ⟨t, ht, hpending⟩ := (hs₂.token k _).mp hp
      rw [hk] at ht
      cases ht
      cases hpending

/-- A viewer reads its lease, and an owner claims the target. -/
def claimedRun : List Move := [.manualLease, .call (.claim "ai")]

theorem control_barrier_claimed : ∃ s s₁ s₂, Machine.exec Target.step start claimedRun = some s ∧
    s.step (.run 0) = some s₁ ∧
    Machine.exec Target.step s₁ [.acquire 0, .run 0, .run 0] = some s₂ ∧
    s.handedOut (.manual ⟨0⟩) ∧ ∀ j, ¬ s₂.inside j (.manual ⟨0⟩) := by
  refine ⟨_, _, _, rfl, rfl, rfl, List.mem_singleton.mpr rfl, fun j => ?_⟩
  refine (control_barrier ⟨claimedRun, rfl⟩).2.2 (.run 0) _ _ 0 rfl ?_ ⟨_, _, rfl, rfl⟩
    ⟨[.acquire 0, .run 0, .run 0], rfl⟩ ⟨_, rfl, rfl⟩ j _ (List.mem_singleton.mpr rfl)
  rintro ⟨t, r, ht, hr⟩
  cases ht
  cases hr

end Target

end Gamer.Control
