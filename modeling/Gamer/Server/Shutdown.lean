import Mathlib.Data.List.Basic
import Gamer.Lib.Machine
import Gamer.Lib.Token
import Gamer.Lib.Locks

/-! The one entry of every shutdown. Whoever takes the slot first drains the sessions; the others
    wait for the slot and find the work done. A request is dropped where it waits:

        waiting ─slot─▶ draining ─▶ signalling ─▶ marking ─▶ finishing ─▶ returning ─▶ returned
           │  └── drained already ──────────────────────────────────────────▲
           ▼               ▼
        dropped         dropped: the next one drains again                                      -/

namespace Gamer.Server
open Gamer.Lib Gamer.Lib.Machine Gamer.Lib.Token Gamer.Lib.Locks

inductive ShutdownState where
  | running
  | draining
  | finished
  deriving DecidableEq, Repr

/-- A call of `request`. -/
inductive Request where
  /-- For the slot. -/
  | waiting
  | draining
  | signalling
  | marking
  | finishing
  | returning
  | returned (state : ShutdownState)
  | dropped
  deriving DecidableEq, Repr

structure ShutdownCoordinator where
  /-- The last value of the watch channel. -/
  signal : Bool := false
  drained : Bool := false
  state : ShutdownState := .running
  requests : List Request := []
  /-- How often a drain has begun, has been dropped half way, and has run to its end. -/
  begun : Nat := 0
  cut : Nat := 0
  ended : Nat := 0
  deriving DecidableEq, Repr

inductive Move where
  | request
  | enter (i : Nat)
  /-- The drain of a request is over. -/
  | drain (i : Nat)
  /-- A step of a request that waits for nothing. -/
  | next (i : Nat)
  | drop (i : Nat)
  deriving DecidableEq, Repr

/-- The slot, while the request holds it. -/
def Request.slots : Request → List Unit
  | .draining | .signalling | .marking | .finishing | .returning => [()]
  | .waiting | .returned _ | .dropped => []

namespace ShutdownCoordinator

def set (s : ShutdownCoordinator) (i : Nat) (r : Request) : ShutdownCoordinator :=
  { s with requests := s.requests.set i r }

def slotFree (s : ShutdownCoordinator) : Bool := Locks.free Request.slots s.requests ()

/-- The request has the slot. -/
def enter (s : ShutdownCoordinator) (i : Nat) : Request → Option ShutdownCoordinator
  | .waiting =>
    if s.slotFree then
      some (if s.drained then s.set i .returning
        else { s.set i .draining with state := .draining, begun := s.begun + 1 })
    else none
  | _ => none

def next (s : ShutdownCoordinator) (i : Nat) : Request → Option ShutdownCoordinator
  | .signalling => some { s.set i .marking with signal := true }
  | .marking => some { s.set i .finishing with drained := true }
  | .finishing => some { s.set i .returning with state := .finished }
  | .returning => some (s.set i (.returned s.state))
  | _ => none

def drop (s : ShutdownCoordinator) (i : Nat) : Request → Option ShutdownCoordinator
  | .waiting => some (s.set i .dropped)
  | .draining => some { s.set i .dropped with cut := s.cut + 1 }
  | _ => none

def drain (s : ShutdownCoordinator) (i : Nat) : Request → Option ShutdownCoordinator
  | .draining => some { s.set i .signalling with ended := s.ended + 1 }
  | _ => none

def step (s : ShutdownCoordinator) : Move → Option ShutdownCoordinator
  | .request => some { s with requests := s.requests ++ [.waiting] }
  | .enter i => s.requests[i]?.bind (s.enter i)
  | .drain i => s.requests[i]?.bind (s.drain i)
  | .next i => s.requests[i]?.bind (s.next i)
  | .drop i => s.requests[i]?.bind (s.drop i)

/-! ### What holds at every point -/

/-- What the coordinator shows while no request has the slot: nothing was drained, or all is
    over. -/
def Still (s : ShutdownCoordinator) : Prop :=
  (s.drained = true ∧ s.signal = true ∧ s.state = .finished ∧ s.ended = 1) ∨
    (s.drained = false ∧ s.signal = false ∧ s.state ≠ .finished ∧ s.ended = 0)

/-- What it shows while a request has the slot, and what a request that has returned has seen. -/
def Fits (s : ShutdownCoordinator) : Request → Prop
  | .draining => s.drained = false ∧ s.signal = false ∧ s.state = .draining ∧ s.ended = 0
  | .signalling => s.drained = false ∧ s.signal = false ∧ s.state = .draining ∧ s.ended = 1
  | .marking => s.drained = false ∧ s.signal = true ∧ s.state = .draining ∧ s.ended = 1
  | .finishing => s.drained = true ∧ s.signal = true ∧ s.state = .draining ∧ s.ended = 1
  | .returning => s.drained = true ∧ s.signal = true ∧ s.state = .finished ∧ s.ended = 1
  | .returned state => state = .finished ∧ s.drained = true ∧ s.signal = true ∧ s.ended = 1
  | .waiting | .dropped => True

/-- The drains under way. -/
def under (s : ShutdownCoordinator) : Nat := s.requests.countP (· = .draining)

/-- INVARIANT: of the coordinator. -/
structure Inv (s : ShutdownCoordinator) : Prop where
  sole : Sole Request.slots s.requests
  fits : ∀ (i : Nat) r, s.requests[i]? = some r → s.Fits r
  still : s.slotFree = true → s.Still
  counted : s.begun = s.cut + s.ended + s.under

variable {s s' : ShutdownCoordinator} {i : Nat} {r r' : Request}

theorem under_set (hi : s.requests[i]? = some r) (hreq : s'.requests = s.requests.set i r') :
    s'.under + (if r = .draining then 1 else 0) = s.under + (if r' = .draining then 1 else 0) := by
  obtain ⟨hlt, hget⟩ := List.getElem?_eq_some_iff.mp hi
  have hset := List.countP_set (p := (· = .draining)) (a := r') hlt
  rw [hget] at hset
  have hpos : (if r = .draining then 1 else 0) ≤ s.requests.countP (· = .draining) := by
    split
    · next hr =>
      have hmem : r ∈ s.requests := List.mem_of_getElem? hi
      exact List.countP_pos_iff.mpr ⟨r, hmem, by simpa using hr⟩
    · exact Nat.zero_le _
  simp only [decide_eq_true_eq] at hset
  rw [under, under, hreq, hset]
  omega

/-- While a request has the slot, or enters it, no other has it. -/
def Alone (s : ShutdownCoordinator) (i : Nat) : Prop :=
  ∀ (j : Nat) r, j ≠ i → s.requests[j]? = some r → r.slots = []

theorem slots_eq_nil {r : Request} (h : () ∉ r.slots) : r.slots = [] := by
  cases r <;> simp_all [Request.slots]

theorem alone_of_slot (h : Inv s) (hi : s.requests[i]? = some r) (hslot : () ∈ r.slots) :
    s.Alone i := by
  intro j r₁ hne hj
  refine slots_eq_nil fun hmem => hne ?_
  exact h.sole hj hi hmem hslot

theorem alone_of_free (hfree : s.slotFree = true) : s.Alone i := by
  intro j r₁ _ hj
  exact slots_eq_nil (not_mem_of_free hfree hj)

/-- What a request that does not have the slot relies on. -/
theorem Fits.keep (hr : r.slots = []) (h : s.Fits r)
    (hkeep : s.drained = true → s.signal = true → s.ended = 1 →
      s'.drained = true ∧ s'.signal = true ∧ s'.ended = 1) : s'.Fits r := by
  cases r with
  | returned state =>
    obtain ⟨hstate, hdrained, hsignal, hended⟩ := h
    exact ⟨hstate, hkeep hdrained hsignal hended⟩
  | waiting => trivial
  | dropped => trivial
  | _ => cases hr

/-- STEP: of a request that alone has the slot. -/
theorem Inv.alone (h : Inv s) (hi : s.requests[i]? = some r) (halone : s.Alone i)
    (hreq : s'.requests = s.requests.set i r') (hfits : s'.Fits r')
    (hkeep : s.drained = true → s.signal = true → s.ended = 1 →
      s'.drained = true ∧ s'.signal = true ∧ s'.ended = 1)
    (hstill : r'.slots = [] → s'.Still)
    (hcounted : s.begun = s.cut + s.ended + s.under →
      s'.under + (if r = .draining then 1 else 0) = s.under + (if r' = .draining then 1 else 0) →
      s'.begun = s'.cut + s'.ended + s'.under) : Inv s' := by
  refine ⟨?_, ?_, ?_, hcounted h.counted (under_set hi hreq)⟩
  · rw [hreq]
    by_cases hslot : () ∈ r.slots
    · exact h.sole.set hi fun _ _ => Or.inl hslot
    · refine h.sole.set hi fun l _ => Or.inr fun j r₁ hj hmem => ?_
      rcases eq_or_ne j i with rfl | hne
      · obtain rfl : r = r₁ := Option.some.inj (hi.symm.trans hj)
        exact hslot hmem
      · rw [halone j r₁ hne hj] at hmem
        cases hmem
  · intro j r₁ hj
    rw [hreq] at hj
    rcases (getElem?_set_eq_some hi).mp hj with ⟨_, rfl⟩ | ⟨hne, hj⟩
    · exact hfits
    · exact (h.fits j r₁ hj).keep (halone j r₁ hne hj) hkeep
  · intro hfree
    refine hstill (slots_eq_nil ?_)
    have hset : s'.requests[i]? = some r' := by
      rw [hreq]
      exact (getElem?_set_eq_some hi).mpr (Or.inl ⟨rfl, rfl⟩)
    exact not_mem_of_free hfree hset

/-- STEP: a request has the slot. -/
theorem Inv.enter (h : Inv s) (hi : s.requests[i]? = some r) (hs : s.enter i r = some s') :
    Inv s' := by
  cases r with
  | waiting =>
    simp only [ShutdownCoordinator.enter] at hs
    split at hs
    · next hfree =>
      have halone : s.Alone i := alone_of_free hfree
      split at hs
      · next hdrained =>
        cases hs
        rcases h.still hfree with ⟨_, hsignal, hstate, hended⟩ | ⟨hnot, _⟩
        · exact h.alone hi halone rfl ⟨hdrained, hsignal, hstate, hended⟩
            (fun hd hsig he => ⟨hd, hsig, he⟩) nofun fun hc hu => by simp_all [set]
        · rw [hnot] at hdrained
          cases hdrained
      · next hnot =>
        cases hs
        rcases h.still hfree with ⟨hdrained, _⟩ | ⟨hdrained, hsignal, _, hended⟩
        · exact absurd hdrained hnot
        · refine h.alone hi halone rfl ⟨hdrained, hsignal, rfl, hended⟩ (fun hd => ?_) nofun
            fun hc hu => ?_
          · exact absurd hd hnot
          · simp only [set] at hu ⊢
            simp at hu
            omega
    · cases hs
  | _ => cases hs

/-- STEP: a request goes on. -/
theorem Inv.next (h : Inv s) (hi : s.requests[i]? = some r) (hs : s.next i r = some s') :
    Inv s' := by
  have hfits := h.fits i r hi
  cases r with
  | signalling =>
    cases hs
    obtain ⟨hdrained, _, hstate, hended⟩ := hfits
    refine h.alone hi (alone_of_slot h hi (by simp [Request.slots])) rfl
      ⟨hdrained, rfl, hstate, hended⟩ (fun hd => ?_) nofun fun hc hu => ?_
    · rw [hdrained] at hd
      cases hd
    · simp only [set] at hu ⊢
      simp at hu
      omega
  | marking =>
    cases hs
    obtain ⟨_, hsignal, hstate, hended⟩ := hfits
    refine h.alone hi (alone_of_slot h hi (by simp [Request.slots])) rfl
      ⟨rfl, hsignal, hstate, hended⟩ (fun _ hsig he => ⟨rfl, hsig, he⟩) nofun fun hc hu => ?_
    simp only [set] at hu ⊢
    simp at hu
    omega
  | finishing =>
    cases hs
    obtain ⟨hdrained, hsignal, _, hended⟩ := hfits
    refine h.alone hi (alone_of_slot h hi (by simp [Request.slots])) rfl
      ⟨hdrained, hsignal, rfl, hended⟩ (fun hd hsig he => ⟨hd, hsig, he⟩) nofun fun hc hu => ?_
    simp only [set] at hu ⊢
    simp at hu
    omega
  | returning =>
    cases hs
    obtain ⟨hdrained, hsignal, hstate, hended⟩ := hfits
    refine h.alone hi (alone_of_slot h hi (by simp [Request.slots])) rfl
      ⟨hstate, hdrained, hsignal, hended⟩ (fun hd hsig he => ⟨hd, hsig, he⟩)
      (fun _ => Or.inl ⟨hdrained, hsignal, hstate, hended⟩) fun hc hu => ?_
    simp only [set] at hu ⊢
    simp at hu
    omega
  | _ => cases hs

/-- STEP: the drain of a request is over. -/
theorem Inv.drain (h : Inv s) (hi : s.requests[i]? = some r) (hs : s.drain i r = some s') :
    Inv s' := by
  have hfits := h.fits i r hi
  cases r with
  | draining =>
    cases hs
    obtain ⟨hdrained, hsignal, hstate, hended⟩ := hfits
    refine h.alone hi (alone_of_slot h hi (by simp [Request.slots])) rfl
      ⟨hdrained, hsignal, hstate, by simp [hended]⟩ (fun hd => ?_) nofun fun hc hu => ?_
    · rw [hdrained] at hd
      cases hd
    · simp only [set] at hu ⊢
      simp at hu
      omega
  | _ => cases hs

theorem Inv.drop (h : Inv s) (hi : s.requests[i]? = some r) (hs : s.drop i r = some s') :
    Inv s' := by
  have hfits := h.fits i r hi
  cases r with
  | waiting =>
    cases hs
    have hunder : (s.set i .dropped).under + (if Request.waiting = .draining then 1 else 0) =
        s.under + (if Request.dropped = .draining then 1 else 0) := under_set hi rfl
    refine ⟨h.sole.set hi nofun, fun j r₁ hj => ?_, fun hfree => h.still ?_, ?_⟩
    · rcases (getElem?_set_eq_some hi).mp hj with ⟨_, rfl⟩ | ⟨_, hj⟩
      · trivial
      · exact h.fits j r₁ hj
    · refine List.all_eq_true.mpr fun r₁ hmem => ?_
      obtain ⟨j, hlt, rfl⟩ := List.mem_iff_getElem.mp hmem
      have hj : s.requests[j]? = some s.requests[j] := List.getElem?_eq_getElem hlt
      rcases eq_or_ne j i with rfl | hne
      · rw [hj] at hi
        rw [Option.some.inj hi]
        rfl
      · have hset : (s.requests.set i .dropped)[j]? = some s.requests[j] :=
          (getElem?_set_eq_some hi).mpr (Or.inr ⟨hne, hj⟩)
        simpa using not_mem_of_free hfree hset
    · have hcounted := h.counted
      simp at hunder
      simp only [set] at hunder ⊢
      omega
  | draining =>
    cases hs
    obtain ⟨hdrained, hsignal, hstate, hended⟩ := hfits
    refine h.alone hi (alone_of_slot h hi (by simp [Request.slots])) rfl trivial (fun hd => ?_)
      (fun _ => Or.inr ⟨hdrained, hsignal, by simp [set, hstate], hended⟩) fun hc hu => ?_
    · rw [hdrained] at hd
      cases hd
    · simp only [set] at hu ⊢
      simp at hu
      omega
  | _ => cases hs

theorem Inv.request (h : Inv s) : Inv { s with requests := s.requests ++ [.waiting] } := by
  refine ⟨h.sole.push nofun, fun j r hj => ?_, fun hfree => h.still ?_, ?_⟩
  · rcases getElem?_push_eq_some.mp hj with hj | ⟨_, rfl⟩
    · exact h.fits j r hj
    · trivial
  · simp only [slotFree, Locks.free, List.all_append, Bool.and_eq_true] at hfree
    exact hfree.1
  · have hcounted := h.counted
    simp only [under] at hcounted ⊢
    simp [hcounted]

/-- STEP: the invariant is kept by every step. -/
theorem Inv.step (h : Inv s) {m : Move} (hs : s.step m = some s') : Inv s' := by
  cases m with
  | request =>
    cases hs
    exact h.request
  | enter i =>
    obtain ⟨r, hi, hs⟩ := Option.bind_eq_some_iff.mp hs
    exact h.enter hi hs
  | drain i =>
    obtain ⟨r, hi, hs⟩ := Option.bind_eq_some_iff.mp hs
    exact h.drain hi hs
  | next i =>
    obtain ⟨r, hi, hs⟩ := Option.bind_eq_some_iff.mp hs
    exact h.next hi hs
  | drop i =>
    obtain ⟨r, hi, hs⟩ := Option.bind_eq_some_iff.mp hs
    exact h.drop hi hs

theorem Inv.start : Inv {} :=
  ⟨Sole.nil, fun i r hi => by simp at hi, fun _ => Or.inr ⟨rfl, rfl, nofun, rfl⟩, rfl⟩

/-! ### Runs -/

/-- Some step of the request with the slot, or the entry of this one. -/
def Goes (s : ShutdownCoordinator) (i : Nat) : Prop :=
  (s.step (.enter i)).isSome ∨ ∃ j, (s.step (.drain j)).isSome ∨ (s.step (.next j)).isSome

/-- SAFETY: the sessions are drained to the end at most once, one drain at a time, and no drain
    begins behind that; the signal comes behind it; a request returns behind both; no request waits
    while nothing can go on. -/
structure Orderly (s : ShutdownCoordinator) : Prop where
  returned : ∀ (i : Nat) state, s.requests[i]? = some (.returned state) →
    state = .finished ∧ s.signal = true ∧ s.ended = 1
  signal : s.signal = true → s.ended = 1
  finished : s.state = .finished → s.drained = true ∧ s.signal = true
  once : s.ended + s.under ≤ 1
  begun : s.begun ≤ s.cut + 1
  goes : ∀ i : Nat, s.requests[i]? = some .waiting → s.Goes i

/-- Who has the slot, or that nobody has it. -/
theorem free_or_held (s : ShutdownCoordinator) : s.slotFree = true ∨
    ∃ (j : Nat) (r : Request), s.requests[j]? = some r ∧ () ∈ r.slots := by
  rcases Bool.eq_false_or_eq_true s.slotFree with hfree | hheld
  · exact Or.inl hfree
  · obtain ⟨r, hr, hslot⟩ := List.all_eq_false.mp hheld
    obtain ⟨j, hlt, rfl⟩ := List.mem_iff_getElem.mp hr
    exact Or.inr ⟨j, _, List.getElem?_eq_getElem hlt, by simpa using hslot⟩

theorem Inv.under_le (h : Inv s) : s.ended + s.under ≤ 1 := by
  have hone : s.under ≤ 1 := by
    refine Locks.countP_le_one fun i j r₁ r₂ hi hj h₁ h₂ => ?_
    simp only [decide_eq_true_eq] at h₁ h₂
    subst h₁ h₂
    exact h.sole hi hj (List.mem_singleton.mpr rfl) (List.mem_singleton.mpr rfl)
  have hzero : s.under ≠ 0 → s.ended = 0 := by
    intro hne
    obtain ⟨r, hr, hdraining⟩ := List.countP_pos_iff.mp (Nat.pos_of_ne_zero hne)
    simp only [decide_eq_true_eq] at hdraining
    subst hdraining
    obtain ⟨j, hlt, hget⟩ := List.mem_iff_getElem.mp hr
    have hj : s.requests[j]? = some .draining := by
      rw [List.getElem?_eq_getElem hlt, hget]
    exact (h.fits j _ hj).2.2.2
  rcases free_or_held s with hfree | ⟨j, r, hj, hslot⟩
  · rcases h.still hfree with ⟨_, _, _, hended⟩ | ⟨_, _, _, hended⟩
    · by_cases hunder : s.under = 0
      · omega
      · exact absurd (hzero hunder) (by omega)
    · omega
  · by_cases hunder : s.under = 0
    · have hfits := h.fits j r hj
      have hended : s.ended ≤ 1 := by
        cases r with
        | waiting => cases hslot
        | dropped => cases hslot
        | returned state => cases hslot
        | _ =>
          have hended := hfits.2.2.2
          omega
      omega
    · have hended := hzero hunder
      omega

/-- What a request with the slot shows of the coordinator. -/
theorem Inv.orderly (h : Inv s) : s.Orderly := by
  have hcounted := h.counted
  have hunder := h.under_le
  refine ⟨fun i state hi => ?_, fun hsignal => ?_, fun hstate => ?_, hunder, by omega, ?_⟩
  · obtain ⟨hstate, _, hsignal, hended⟩ := h.fits i _ hi
    exact ⟨hstate, hsignal, hended⟩
  · rcases free_or_held s with hfree | ⟨j, r, hj, hslot⟩
    · rcases h.still hfree with ⟨_, _, _, hended⟩ | ⟨_, hnot, _⟩
      · exact hended
      · rw [hnot] at hsignal
        cases hsignal
    · have hfits := h.fits j r hj
      cases r with
      | waiting => cases hslot
      | dropped => cases hslot
      | returned state => cases hslot
      | draining =>
        rw [hfits.2.1] at hsignal
        cases hsignal
      | signalling => exact hfits.2.2.2
      | marking => exact hfits.2.2.2
      | finishing => exact hfits.2.2.2
      | returning => exact hfits.2.2.2
  · rcases free_or_held s with hfree | ⟨j, r, hj, hslot⟩
    · rcases h.still hfree with ⟨hdrained, hsignal, _⟩ | ⟨_, _, hnot, _⟩
      · exact ⟨hdrained, hsignal⟩
      · exact absurd hstate hnot
    · have hfits := h.fits j r hj
      cases r with
      | waiting => cases hslot
      | dropped => cases hslot
      | returned state => cases hslot
      | returning => exact ⟨hfits.1, hfits.2.1⟩
      | _ =>
        rw [hfits.2.2.1] at hstate
        cases hstate
  · intro i hi
    rcases free_or_held s with hfree | ⟨j, r, hj, hslot⟩
    · refine Or.inl ?_
      simp [ShutdownCoordinator.step, hi, ShutdownCoordinator.enter, hfree]
    · refine Or.inr ⟨j, ?_⟩
      cases r with
      | waiting => cases hslot
      | dropped => cases hslot
      | returned state => cases hslot
      | draining =>
        refine Or.inl ?_
        simp [ShutdownCoordinator.step, hj, ShutdownCoordinator.drain]
      | _ =>
        refine Or.inr ?_
        simp [ShutdownCoordinator.step, hj, ShutdownCoordinator.next]

end ShutdownCoordinator

end Gamer.Server
