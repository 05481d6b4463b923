import Mathlib.Tactic.SplitIfs
import Gamer.Lib.Machine
import Gamer.Lib.Table
import Gamer.Lib.Token

/-! Requests for the same key that run at the same time share one operation. A caller looks the entry
    up under the lock and is counted after it; the last one to go, or one that has the result, takes
    the entry out:

        look ──▶ fetch_add ──▶ await ──▶ result ──▶ fetch_sub ──▶ remove_if_same ──▶ returned
                                 └──▶ cancelled ──▶ fetch_sub ─┴─(not the last)───▶ gone      -/

namespace Gamer.Device
open Gamer.Lib Gamer.Lib.Token

variable {κ ρ : Type} [DecidableEq κ]

/-- An entry behind its `Arc`: the callers that are counted, and the operation's result. -/
structure InFlightEntry (κ ρ : Type) where
  key : κ
  waiters : Nat
  result : Option ρ
  deriving DecidableEq

/-- Where a call of `run` is; a call that was cancelled cleans up without a result. -/
inductive CallPhase (ρ : Type) where
  | fetched
  | waiting
  | completed (result : ρ)
  | dropped
  | cleaning (result : Option ρ)
  | returned (result : ρ)
  | cancelled
  deriving DecidableEq

namespace CallPhase

/-- The call is not over. -/
def isOpen : CallPhase ρ → Bool
  | returned _ | cancelled => false
  | _ => true

/-- The call is counted in `waiters`. -/
def isCounted : CallPhase ρ → Bool
  | waiting | completed _ | dropped => true
  | _ => false

/-- The call is going to await the operation, or does. -/
def isAwaiting : CallPhase ρ → Bool
  | fetched | waiting => true
  | _ => false

/-- The result the call has received. -/
def result : CallPhase ρ → Option ρ
  | completed r | returned r | cleaning (some r) => some r
  | _ => none

end CallPhase

/-- A call of `run`. Whether the operation was unfinished when the call came is carried for the
    statements, and read by no function. -/
structure InFlightCall (ρ : Type) where
  entry : Nat
  unfinished : Bool
  phase : CallPhase ρ
  deriving DecidableEq

/-- All entries there ever were, the map, and the calls. -/
structure InFlight (κ ρ : Type) [DecidableEq κ] where
  arcs : List (InFlightEntry κ ρ) := []
  entries : Table κ Nat := ∅
  calls : List (InFlightCall ρ) := []

inductive InFlightMove (κ ρ : Type) where
  | look (key : κ)
  | fetchAdd (call : Nat)
  | finish (entry : Nat) (result : ρ)
  | receive (call : Nat)
  | cancel (call : Nat)
  | fetchSub (call : Nat)
  | removeIfSame (call : Nat)

namespace InFlight
variable (s : InFlight κ ρ)

/-- The operation of the entry has not come to its end. -/
def isUnfinished (entry : Nat) : Bool := (s.arcs[entry]?).any fun a => a.result.isNone

def setCall (call : Nat) (c : InFlightCall ρ) : InFlight κ ρ :=
  { s with calls := s.calls.set call c }

def setArc (entry : Nat) (a : InFlightEntry κ ρ) : InFlight κ ρ :=
  { s with arcs := s.arcs.set entry a }

/-- The section under the lock that begins a call. -/
def look (key : κ) : InFlight κ ρ :=
  match s.entries.get key with
  | some entry => { s with calls := s.calls ++ [⟨entry, s.isUnfinished entry, .fetched⟩] }
  | none =>
    { arcs := s.arcs ++ [⟨key, 0, none⟩]
      entries := s.entries.set key s.arcs.length
      calls := s.calls ++ [⟨s.arcs.length, true, .fetched⟩] }

def fetchAdd (call : Nat) (c : InFlightCall ρ) (a : InFlightEntry κ ρ) : Option (InFlight κ ρ) :=
  match c.phase with
  | .fetched => some ((s.setArc c.entry { a with waiters := a.waiters + 1 }).setCall call
      { c with phase := .waiting })
  | _ => none

/-- A caller that awaits an operation whose result is there. -/
def receive (call : Nat) (c : InFlightCall ρ) (a : InFlightEntry κ ρ) : Option (InFlight κ ρ) :=
  match c.phase, a.result with
  | .waiting, some r => some (s.setCall call { c with phase := .completed r })
  | _, _ => none

/-- The future of a call is dropped while it awaits. -/
def cancel (call : Nat) (c : InFlightCall ρ) : Option (InFlight κ ρ) :=
  match c.phase with
  | .waiting => some (s.setCall call { c with phase := .dropped })
  | _ => none

/-- The first half of `drop`: a waiter that completed cleans up, and so does the last one. -/
def fetchSub (call : Nat) (c : InFlightCall ρ) (a : InFlightEntry κ ρ) : Option (InFlight κ ρ) :=
  let s := s.setArc c.entry { a with waiters := a.waiters - 1 }
  match c.phase with
  | .completed r => some (s.setCall call { c with phase := .cleaning (some r) })
  | .dropped => some (s.setCall call
      { c with phase := if a.waiters = 1 then .cleaning none else .cancelled })
  | _ => none

/-- The section under the lock that ends a call. -/
def removeIfSame (call : Nat) (c : InFlightCall ρ) (a : InFlightEntry κ ρ) :
    Option (InFlight κ ρ) :=
  let s := { s with
    entries := if s.entries.get a.key = some c.entry then s.entries.del a.key else s.entries }
  match c.phase with
  | .cleaning (some r) => some (s.setCall call { c with phase := .returned r })
  | .cleaning none => some (s.setCall call { c with phase := .cancelled })
  | _ => none

/-- A call with its entry. -/
def at_ (call : Nat) : Option (InFlightCall ρ × InFlightEntry κ ρ) :=
  (s.calls[call]?).bind fun c => (s.arcs[c.entry]?).map fun a => (c, a)

/-- The operation is driven by the callers that await it. -/
def finish (entry : Nat) (result : ρ) : Option (InFlight κ ρ) :=
  (s.arcs[entry]?).bind fun a =>
    if a.result.isNone ∧ (s.calls.any fun c =>
        c.entry = entry && c.phase.isAwaiting && c.phase.isCounted) then
      some (s.setArc entry { a with result := some result })
    else none

def step : InFlightMove κ ρ → Option (InFlight κ ρ)
  | .look key => some (s.look key)
  | .fetchAdd call => (s.at_ call).bind fun x => s.fetchAdd call x.1 x.2
  | .finish entry result => s.finish entry result
  | .receive call => (s.at_ call).bind fun x => s.receive call x.1 x.2
  | .cancel call => (s.at_ call).bind fun x => s.cancel call x.1
  | .fetchSub call => (s.at_ call).bind fun x => s.fetchSub call x.1 x.2
  | .removeIfSame call => (s.at_ call).bind fun x => s.removeIfSame call x.1 x.2

end InFlight

/-! ### What is promised -/

/-- The call awaits the operation of the entry, which is not finished. -/
def InFlight.Awaits (s : InFlight κ ρ) (call entry : Nat) (key : κ) : Prop :=
  ∃ c a, s.calls[call]? = some c ∧ c.phase = .waiting ∧ c.entry = entry ∧
    s.arcs[entry]? = some a ∧ a.key = key ∧ a.result = none

/-- The end of a call with a result. -/
def InFlight.Returned (s : InFlight κ ρ) (call : Nat) (result : ρ) : Prop :=
  ∃ c, s.calls[call]? = some c ∧ c.phase = .returned result

structure InFlight.Merges (s : InFlight κ ρ) : Prop where
  /-- One unfinished operation for a key. -/
  single : ∀ key (call call' entry entry' : Nat), s.Awaits call entry key → s.Awaits call' entry' key →
    entry = entry'
  /-- What a call returns is the result of an operation that was unfinished when it came. -/
  answers : ∀ (call : Nat) c r, s.calls[call]? = some c → c.phase = .returned r →
    c.unfinished = true ∧ ∃ a, s.arcs[c.entry]? = some a ∧ a.result = some r
  /-- A call that is not cancelled can return its operation's result, whatever that will be. -/
  returns : ∀ (call : Nat) c, s.calls[call]? = some c →
    c.phase.isAwaiting = true ∨ c.phase.result.isSome = true → ∀ r : ρ, ∃ s',
      Machine.Reaches InFlight.step s s' ∧
        s'.Returned call (((s.arcs[c.entry]?).bind InFlightEntry.result).getD r)
  /-- A cleanup takes out nothing but the call's own entry. -/
  spares : ∀ (call : Nat) c s' key entry, s.calls[call]? = some c → s.step (.removeIfSame call) = some s' →
    s.entries.get key = some entry → entry ≠ c.entry → s'.entries.get key = some entry
  /-- Without calls there are no entries. -/
  empty : (∀ c ∈ s.calls, c.phase.isOpen = false) → s.entries = ∅

/-- A call does not find an operation that is finished, and a cleanup does not take out an unfinished
    one that another call has fetched. -/
def InFlight.Undisturbed (s : InFlight κ ρ) : InFlightMove κ ρ → Prop
  | .look key => ∀ entry ∈ s.entries.get key, s.isUnfinished entry = true
  | .removeIfSame call => ∀ x ∈ s.at_ call, s.entries.get x.2.key = some x.1.entry →
      x.2.result.isNone = true → ∀ c ∈ s.calls, c.entry = x.1.entry → c.phase.isAwaiting = false
  | _ => True

instance (s : InFlight κ ρ) : DecidablePred s.Undisturbed
  | .look key => inferInstanceAs (Decidable (∀ entry ∈ s.entries.get key, s.isUnfinished entry = true))
  | .removeIfSame call => inferInstanceAs (Decidable (∀ x ∈ s.at_ call,
      s.entries.get x.2.key = some x.1.entry → x.2.result.isNone = true → ∀ c ∈ s.calls,
        c.entry = x.1.entry → c.phase.isAwaiting = false))
  | .fetchAdd _ | .finish _ _ | .receive _ | .cancel _ | .fetchSub _ => .isTrue trivial

/-! ### What a step does -/

variable {s s' : InFlight κ ρ}

/-- INVERSION: the kinds of step. -/
inductive InFlight.Stepped (s : InFlight κ ρ) : InFlightMove κ ρ → InFlight κ ρ → Prop where
  | found {key : κ} {entry : Nat} (get : s.entries.get key = some entry) :
      Stepped s (.look key)
        { s with calls := s.calls ++ [⟨entry, s.isUnfinished entry, .fetched⟩] }
  | made {key : κ} (get : s.entries.get key = none) :
      Stepped s (.look key)
        { arcs := s.arcs ++ [⟨key, 0, none⟩]
          entries := s.entries.set key s.arcs.length
          calls := s.calls ++ [⟨s.arcs.length, true, .fetched⟩] }
  | counted {call : Nat} {c : InFlightCall ρ} {a : InFlightEntry κ ρ}
      (here : s.calls[call]? = some c) (arc : s.arcs[c.entry]? = some a)
      (phase : c.phase = .fetched) :
      Stepped s (.fetchAdd call) ((s.setArc c.entry { a with waiters := a.waiters + 1 }).setCall call
        { c with phase := .waiting })
  | finished {entry : Nat} {a : InFlightEntry κ ρ} (r : ρ) (arc : s.arcs[entry]? = some a)
      (fresh : a.result = none) :
      Stepped s (.finish entry r) (s.setArc entry { a with result := some r })
  | received {call : Nat} {c : InFlightCall ρ} {a : InFlightEntry κ ρ} {r : ρ}
      (here : s.calls[call]? = some c) (arc : s.arcs[c.entry]? = some a)
      (phase : c.phase = .waiting) (result : a.result = some r) :
      Stepped s (.receive call) (s.setCall call { c with phase := .completed r })
  | cancelled {call : Nat} {c : InFlightCall ρ} {a : InFlightEntry κ ρ}
      (here : s.calls[call]? = some c) (arc : s.arcs[c.entry]? = some a)
      (phase : c.phase = .waiting) :
      Stepped s (.cancel call) (s.setCall call { c with phase := .dropped })
  | left {call : Nat} {c : InFlightCall ρ} {a : InFlightEntry κ ρ} (phase : CallPhase ρ)
      (here : s.calls[call]? = some c) (arc : s.arcs[c.entry]? = some a)
      (turn : (∃ r, c.phase = .completed r ∧ phase = .cleaning (some r)) ∨
        c.phase = .dropped ∧ phase = if a.waiters = 1 then .cleaning none else .cancelled) :
      Stepped s (.fetchSub call) ((s.setArc c.entry { a with waiters := a.waiters - 1 }).setCall call
        { c with phase := phase })
  | cleaned {call : Nat} {c : InFlightCall ρ} {a : InFlightEntry κ ρ} (phase : CallPhase ρ)
      (here : s.calls[call]? = some c) (arc : s.arcs[c.entry]? = some a)
      (turn : (∃ r, c.phase = .cleaning (some r) ∧ phase = .returned r) ∨
        c.phase = .cleaning none ∧ phase = .cancelled) :
      Stepped s (.removeIfSame call) ({ s with
        entries := if s.entries.get a.key = some c.entry then s.entries.del a.key
          else s.entries }.setCall call { c with phase := phase })

theorem at_eq_some {call : Nat} {x : InFlightCall ρ × InFlightEntry κ ρ} :
    s.at_ call = some x ↔ s.calls[call]? = some x.1 ∧ s.arcs[x.1.entry]? = some x.2 := by
  rw [InFlight.at_, Option.bind_eq_some_iff]
  constructor
  · rintro ⟨c, hc, hx⟩
    obtain ⟨a, ha, rfl⟩ := Option.map_eq_some_iff.mp hx
    exact ⟨hc, ha⟩
  · rintro ⟨hc, ha⟩
    exact ⟨x.1, hc, Option.map_eq_some_iff.mpr ⟨x.2, ha, rfl⟩⟩

theorem step_cases {m : InFlightMove κ ρ} (h : s.step m = some s') : s.Stepped m s' := by
  cases m with
  | look key =>
    have h : some (s.look key) = some s' := h
    cases h
    rw [InFlight.look]
    cases hget : s.entries.get key with
    | some entry => exact .found hget
    | none => exact .made hget
  | fetchAdd call =>
    obtain ⟨⟨c, a⟩, hx, h⟩ := Option.bind_eq_some_iff.mp h
    obtain ⟨hc, ha⟩ := at_eq_some.mp hx
    rw [InFlight.fetchAdd] at h
    split at h
    · next hphase => cases h; exact .counted hc ha hphase
    · cases h
  | finish entry r =>
    obtain ⟨a, ha, h⟩ := Option.bind_eq_some_iff.mp h
    split_ifs at h with hcond
    cases h
    exact .finished r ha (Option.isNone_iff_eq_none.mp hcond.1)
  | receive call =>
    obtain ⟨⟨c, a⟩, hx, h⟩ := Option.bind_eq_some_iff.mp h
    obtain ⟨hc, ha⟩ := at_eq_some.mp hx
    rw [InFlight.receive] at h
    split at h
    · next r hphase hresult => cases h; exact .received hc ha hphase hresult
    · cases h
  | cancel call =>
    obtain ⟨⟨c, a⟩, hx, h⟩ := Option.bind_eq_some_iff.mp h
    obtain ⟨hc, ha⟩ := at_eq_some.mp hx
    rw [InFlight.cancel] at h
    split at h
    · next hphase => cases h; exact .cancelled hc ha hphase
    · cases h
  | fetchSub call =>
    obtain ⟨⟨c, a⟩, hx, h⟩ := Option.bind_eq_some_iff.mp h
    obtain ⟨hc, ha⟩ := at_eq_some.mp hx
    rw [InFlight.fetchSub] at h
    split at h
    · next r hphase => cases h; exact .left _ hc ha (.inl ⟨r, hphase, rfl⟩)
    · next hphase => cases h; exact .left _ hc ha (.inr ⟨hphase, rfl⟩)
    · cases h
  | removeIfSame call =>
    obtain ⟨⟨c, a⟩, hx, h⟩ := Option.bind_eq_some_iff.mp h
    obtain ⟨hc, ha⟩ := at_eq_some.mp hx
    rw [InFlight.removeIfSame] at h
    split at h
    · next r hphase => cases h; exact .cleaned _ hc ha (.inl ⟨r, hphase, rfl⟩)
    · next hphase => cases h; exact .cleaned _ hc ha (.inr ⟨hphase, rfl⟩)
    · cases h

/-! ### The calls that are counted -/

/-- The call is counted in the entry's `waiters`. -/
def countedIn (entry : Nat) (c : InFlightCall ρ) : Bool := c.entry = entry && c.phase.isCounted

theorem isOpen_of_counted {phase : CallPhase ρ} (h : phase.isCounted = true) :
    phase.isOpen = true := by
  cases phase <;> first | rfl | cases h

/-- INVARIANT: of every run, whatever calls come and are cancelled. -/
structure InFlight.Lawful (s : InFlight κ ρ) : Prop where
  arc : ∀ (call : Nat) c, s.calls[call]? = some c → ∃ a, s.arcs[c.entry]? = some a
  mapped : ∀ key (entry : Nat), s.entries.get key = some entry →
    ∃ a, s.arcs[entry]? = some a ∧ a.key = key
  count : ∀ (entry : Nat) a, s.arcs[entry]? = some a →
    a.waiters = s.calls.countP (countedIn entry)
  held : ∀ key (entry : Nat), s.entries.get key = some entry →
    ∃ (call : Nat) (c : InFlightCall ρ), s.calls[call]? = some c ∧ c.entry = entry ∧
      c.phase.isOpen = true
  results : ∀ (call : Nat) c r, s.calls[call]? = some c → c.phase.result = some r →
    ∃ a, s.arcs[c.entry]? = some a ∧ a.result = some r

variable {call : Nat} {c c' : InFlightCall ρ} {a a' : InFlightEntry κ ρ}

/-- STEP: the count after one call has gone on, and its entry has been told. -/
theorem count_turn (c' : InFlightCall ρ) (a' : InFlightEntry κ ρ) (hcount : ∀ (entry : Nat) a, s.arcs[entry]? = some a →
      a.waiters = s.calls.countP (countedIn entry))
    (hc : s.calls[call]? = some c) (ha : s.arcs[c.entry]? = some a) (hentry : c'.entry = c.entry)
    (hwaiters : a'.waiters + (if c.phase.isCounted then 1 else 0) =
      a.waiters + if c'.phase.isCounted then 1 else 0) (entry : Nat) (b : InFlightEntry κ ρ)
    (hb : (s.arcs.set c.entry a')[entry]? = some b) :
    b.waiters = (s.calls.set call c').countP (countedIn entry) := by
  have hlt : call < s.calls.length := (List.getElem?_eq_some_iff.mp hc).1
  have hget : s.calls[call] = c := (List.getElem?_eq_some_iff.mp hc).2
  rw [List.countP_set hlt, hget]
  rcases (getElem?_set_eq_some ha).mp hb with ⟨rfl, rfl⟩ | ⟨hne, hb⟩
  · have hold := hcount c.entry a ha
    have hthis : countedIn c.entry c = c.phase.isCounted := by simp [countedIn]
    have hthis' : countedIn c.entry c' = c'.phase.isCounted := by simp [countedIn, hentry]
    rw [← hold, hthis, hthis']
    have hpos : c.phase.isCounted = true → 1 ≤ a.waiters := by
      intro hcounted
      rw [hold]
      exact List.countP_pos_iff.mpr ⟨c, List.mem_of_getElem? hc, hthis.trans hcounted⟩
    cases hcounted : c.phase.isCounted with
    | false =>
      rw [hcounted] at hwaiters
      simpa using hwaiters
    | true =>
      have := hpos hcounted
      rw [hcounted] at hwaiters
      simp only [if_true] at hwaiters ⊢
      omega
  · have hother : countedIn entry c = false := by simp [countedIn, Ne.symm hne]
    have hother' : countedIn entry c' = false := by simp [countedIn, hentry, Ne.symm hne]
    rw [hother, hother', hcount entry b hb]
    simp

theorem set_self {α : Type} {l : List α} {i : Nat} {x : α} (h : l[i]? = some x) : l.set i x = l := by
  obtain ⟨hlt, rfl⟩ := List.getElem?_eq_some_iff.mp h
  exact List.set_getElem_self hlt

/-- STEP: a call goes on, in a way its entry can account for. -/
theorem InFlight.Lawful.turn (h : s.Lawful) (c' : InFlightCall ρ) (a' : InFlightEntry κ ρ)
    (entries : Table κ Nat) (hc : s.calls[call]? = some c)
    (ha : s.arcs[c.entry]? = some a) (hentry : c'.entry = c.entry) (hkey : a'.key = a.key)
    (hresult : a'.result = a.result)
    (hwaiters : a'.waiters + (if c.phase.isCounted then 1 else 0) =
      a.waiters + if c'.phase.isCounted then 1 else 0)
    (hphase : ∀ r, c'.phase.result = some r → a.result = some r)
    (hsub : ∀ key (entry : Nat), entries.get key = some entry → s.entries.get key = some entry)
    (hheld : ∀ key, entries.get key = some c.entry → c'.phase.isOpen = true ∨
      0 < (s.calls.set call c').countP (countedIn c.entry)) :
    InFlight.Lawful ⟨s.arcs.set c.entry a', entries, s.calls.set call c'⟩ where
  arc i d hd := by
    have hfind : ∃ b, s.arcs[d.entry]? = some b := by
      rcases (getElem?_set_eq_some hc).mp hd with ⟨-, rfl⟩ | ⟨-, hd⟩
      · exact ⟨a, hentry ▸ ha⟩
      · exact h.arc i d hd
    obtain ⟨b, hb⟩ := hfind
    by_cases hsame : d.entry = c.entry
    · exact ⟨a', (getElem?_set_eq_some ha).mpr (.inl ⟨hsame, rfl⟩)⟩
    · exact ⟨b, (getElem?_set_eq_some ha).mpr (.inr ⟨hsame, hb⟩)⟩
  mapped key entry hget := by
    obtain ⟨b, hb, hkey'⟩ := h.mapped key entry (hsub key entry hget)
    by_cases hsame : entry = c.entry
    · subst hsame
      cases hb.symm.trans ha
      exact ⟨a', (getElem?_set_eq_some ha).mpr (.inl ⟨rfl, rfl⟩), hkey.trans hkey'⟩
    · exact ⟨b, (getElem?_set_eq_some ha).mpr (.inr ⟨hsame, hb⟩), hkey'⟩
  count := count_turn c' a' h.count hc ha hentry hwaiters
  held key entry hget := by
    by_cases hsame : entry = c.entry
    · subst hsame
      rcases hheld key hget with hopen | hcounted
      · exact ⟨call, c', (getElem?_set_eq_some hc).mpr (.inl ⟨rfl, rfl⟩), hentry, hopen⟩
      · obtain ⟨d, hd, hin⟩ := List.countP_pos_iff.mp hcounted
        obtain ⟨i, hi⟩ := List.mem_iff_getElem?.mp hd
        rw [countedIn, Bool.and_eq_true, decide_eq_true_eq] at hin
        exact ⟨i, d, hi, hin.1, isOpen_of_counted hin.2⟩
    · obtain ⟨i, d, hd, hde, hopen⟩ := h.held key entry (hsub key entry hget)
      have hne : i ≠ call := by
        rintro rfl
        cases hc.symm.trans hd
        exact hsame hde.symm
      exact ⟨i, d, (getElem?_set_eq_some hc).mpr (.inr ⟨hne, hd⟩), hde, hopen⟩
  results i d r hd hr := by
    have hold : ∃ b, s.arcs[d.entry]? = some b ∧ b.result = some r := by
      rcases (getElem?_set_eq_some hc).mp hd with ⟨-, rfl⟩ | ⟨-, hd⟩
      · exact ⟨a, hentry ▸ ha, hphase r hr⟩
      · exact h.results i d r hd hr
    obtain ⟨b, hb, hbr⟩ := hold
    by_cases hsame : d.entry = c.entry
    · rw [hsame] at hb
      cases hb.symm.trans ha
      exact ⟨a', (getElem?_set_eq_some ha).mpr (.inl ⟨hsame, rfl⟩), hresult.trans hbr⟩
    · exact ⟨b, (getElem?_set_eq_some ha).mpr (.inr ⟨hsame, hb⟩), hbr⟩

/-- STEP: the operation ends. -/
theorem InFlight.Lawful.finish (h : s.Lawful) {entry : Nat} (ha : s.arcs[entry]? = some a) {r : ρ}
    (hfresh : a.result = none) : (s.setArc entry { a with result := some r }).Lawful := by
  have hstays : ∀ (i : Nat) b, s.arcs[i]? = some b →
      ∃ b', (s.arcs.set entry { a with result := some r })[i]? = some b' ∧ b'.key = b.key ∧
        ∀ r', b.result = some r' → b'.result = some r' := by
    intro i b hb
    by_cases hi : i = entry
    · subst hi
      cases hb.symm.trans ha
      refine ⟨_, (getElem?_set_eq_some ha).mpr (.inl ⟨rfl, rfl⟩), rfl, fun r' hr' => ?_⟩
      rw [hfresh] at hr'
      cases hr'
    · exact ⟨b, (getElem?_set_eq_some ha).mpr (.inr ⟨hi, hb⟩), rfl, fun _ hr' => hr'⟩
  refine ⟨fun i d hd => ?_, fun key e hget => ?_, fun e b hb => ?_, h.held, fun i d r' hd hr' => ?_⟩
  · obtain ⟨b, hb⟩ := h.arc i d hd
    obtain ⟨b', hb', -⟩ := hstays _ b hb
    exact ⟨b', hb'⟩
  · obtain ⟨b, hb, hkey⟩ := h.mapped key e hget
    obtain ⟨b', hb', hkey', -⟩ := hstays _ b hb
    exact ⟨b', hb', hkey'.trans hkey⟩
  · rcases (getElem?_set_eq_some ha).mp hb with ⟨rfl, rfl⟩ | ⟨-, hb⟩
    · exact h.count e a ha
    · exact h.count e b hb
  · obtain ⟨b, hb, hbr⟩ := h.results i d r' hd hr'
    obtain ⟨b', hb', -, hkeep⟩ := hstays _ b hb
    exact ⟨b', hb', hkeep r' hbr⟩

/-- STEP: a call comes, to an entry that is there or to a new one. -/
theorem InFlight.Lawful.push (h : s.Lawful) {entry : Nat} (b : InFlightEntry κ ρ) {unfinished : Bool}
    {arcs : List (InFlightEntry κ ρ)} {entries : Table κ Nat}
    (hold : ∀ (i : Nat) b, s.arcs[i]? = some b → arcs[i]? = some b)
    (hnew : ∀ (i : Nat) b, arcs[i]? = some b → s.arcs[i]? = some b ∨
      i = entry ∧ i = s.arcs.length ∧ b.waiters = 0)
    (hentry : arcs[entry]? = some b)
    (hget : ∀ key (e : Nat), entries.get key = some e → s.entries.get key = some e ∨
      e = entry ∧ b.key = key) :
    InFlight.Lawful ⟨arcs, entries, s.calls ++ [⟨entry, unfinished, .fetched⟩]⟩ where
  arc i d hd := by
    rcases getElem?_push_eq_some.mp hd with hd | ⟨-, rfl⟩
    · obtain ⟨b', hb'⟩ := h.arc i d hd
      exact ⟨b', hold _ _ hb'⟩
    · exact ⟨b, hentry⟩
  mapped key e hkey := by
    rcases hget key e hkey with hkey | ⟨rfl, hbkey⟩
    · obtain ⟨b', hb', hsame⟩ := h.mapped key e hkey
      exact ⟨b', hold _ _ hb', hsame⟩
    · exact ⟨b, hentry, hbkey⟩
  count e b' hb' := by
    have hnone : (s.calls ++ [(⟨entry, unfinished, .fetched⟩ : InFlightCall ρ)]).countP
        (countedIn e) = s.calls.countP (countedIn e) := by
      rw [List.countP_append, List.countP_singleton, countedIn]
      simp [CallPhase.isCounted]
    show b'.waiters = (s.calls ++ [(⟨entry, unfinished, .fetched⟩ : InFlightCall ρ)]).countP _
    rw [hnone]
    rcases hnew e b' hb' with hb' | ⟨-, hlast, hzero⟩
    · exact h.count e b' hb'
    · rw [hzero, eq_comm, List.countP_eq_zero]
      intro d hd hin
      rw [countedIn, Bool.and_eq_true, decide_eq_true_eq] at hin
      obtain ⟨i, hi⟩ := List.mem_iff_getElem?.mp hd
      obtain ⟨b'', hb''⟩ := h.arc i d hi
      have hlt := (List.getElem?_eq_some_iff.mp hb'').1
      omega
  held key e hkey := by
    rcases hget key e hkey with hkey | ⟨rfl, -⟩
    · obtain ⟨i, d, hd, hde, hopen⟩ := h.held key e hkey
      exact ⟨i, d, getElem?_push_eq_some.mpr (.inl hd), hde, hopen⟩
    · exact ⟨s.calls.length, _, getElem?_push_eq_some.mpr (.inr ⟨rfl, rfl⟩), rfl, rfl⟩
  results i d r hd hr := by
    rcases getElem?_push_eq_some.mp hd with hd | ⟨-, rfl⟩
    · obtain ⟨b', hb', hbr⟩ := h.results i d r hd hr
      exact ⟨b', hold _ _ hb', hbr⟩
    · cases hr

/-- STEP: every step keeps it. -/
theorem lawful_step {m : InFlightMove κ ρ} (h : s.Lawful) (hstep : s.Stepped m s') : s'.Lawful := by
  cases hstep with
  | @found key entry hget =>
    obtain ⟨b, hb, -⟩ := h.mapped key entry hget
    exact h.push b (fun _ _ hi => hi) (fun _ _ hi => .inl hi) hb fun _ _ hi => .inl hi
  | @made key hget =>
    refine h.push ⟨key, 0, none⟩ (fun i b hi => getElem?_push_eq_some.mpr (.inl hi))
      (fun i b hi => ?_) (getElem?_push_eq_some.mpr (.inr ⟨rfl, rfl⟩)) fun key' e he => ?_
    · rcases getElem?_push_eq_some.mp hi with hi | ⟨rfl, rfl⟩
      · exact .inl hi
      · exact .inr ⟨rfl, rfl, rfl⟩
    · rw [Table.get_set] at he
      split_ifs at he with hkey
      · cases he
        exact .inr ⟨rfl, hkey.symm⟩
      · exact .inl he
  | @counted call c a hc ha hphase =>
    exact h.turn { c with phase := .waiting } { a with waiters := a.waiters + 1 } s.entries hc ha rfl
      rfl rfl (by simp [hphase, CallPhase.isCounted]) (fun r hr => (by cases hr))
      (fun _ _ hget => hget) fun _ _ => .inl rfl
  | finished r ha hfresh => exact h.finish ha hfresh
  | @received call c a r hc ha hphase hresult =>
    have hself := h.turn { c with phase := .completed r } a s.entries hc ha rfl rfl rfl
      (by simp [hphase, CallPhase.isCounted]) (fun r' hr' => hresult.trans hr')
      (fun _ _ hget => hget) fun _ _ => .inl rfl
    rwa [set_self ha] at hself
  | @cancelled call c a hc ha hphase =>
    have hself := h.turn { c with phase := .dropped } a s.entries hc ha rfl rfl rfl
      (by simp [hphase, CallPhase.isCounted]) (fun r hr => (by cases hr)) (fun _ _ hget => hget)
      fun _ _ => .inl rfl
    rwa [set_self ha] at hself
  | @left call c a phase hc ha hturn =>
    have hcounted : c.phase.isCounted = true := by
      rcases hturn with ⟨r, hphase, -⟩ | ⟨hphase, -⟩ <;> rw [hphase] <;> rfl
    have hafter : phase.isCounted = false := by
      rcases hturn with ⟨r, -, rfl⟩ | ⟨-, rfl⟩
      · rfl
      · split_ifs <;> rfl
    have hpos : 1 ≤ a.waiters := by
      rw [h.count _ a ha]
      refine List.countP_pos_iff.mpr ⟨c, List.mem_of_getElem? hc, ?_⟩
      simp [countedIn, hcounted]
    have hwaiters : a.waiters - 1 + (if c.phase.isCounted then 1 else 0) =
        a.waiters + if phase.isCounted then 1 else 0 := by
      rw [hcounted, hafter]
      simp only [if_true, Bool.false_eq_true, if_false]
      omega
    refine h.turn { c with phase := phase } { a with waiters := a.waiters - 1 } s.entries hc ha rfl rfl
      rfl hwaiters (fun r hr => ?_) (fun _ _ hget => hget) fun key _ => ?_
    · rcases hturn with ⟨r', hphase, rfl⟩ | ⟨-, rfl⟩
      · cases hr
        obtain ⟨b, hb, hbr⟩ := h.results call c r hc (by rw [hphase]; rfl)
        cases hb.symm.trans ha
        exact hbr
      · dsimp only at hr
        split_ifs at hr <;> cases hr
    · have hcount := count_turn { c with phase := phase } { a with waiters := a.waiters - 1 } h.count hc
        ha rfl hwaiters c.entry _ ((getElem?_set_eq_some ha).mpr (.inl ⟨rfl, rfl⟩))
      rw [← hcount]
      rcases hturn with ⟨r', hphase, rfl⟩ | ⟨-, rfl⟩
      · exact .inl rfl
      · dsimp only
        split_ifs with hone
        · exact .inl rfl
        · exact .inr (by omega)
  | @cleaned call c a phase hc ha hturn =>
    have hsub : ∀ key (entry : Nat), (if s.entries.get a.key = some c.entry
        then s.entries.del a.key else s.entries).get key = some entry →
        s.entries.get key = some entry ∧ entry ≠ c.entry := by
      intro key entry hget
      have hkey : s.entries.get key = some entry → entry = c.entry → key = a.key := by
        rintro hkey rfl
        obtain ⟨b, hb, rfl⟩ := h.mapped key _ hkey
        cases hb.symm.trans ha
        rfl
      split_ifs at hget with hsame
      · rw [Table.get_del] at hget
        split_ifs at hget with hne
        exact ⟨hget, fun heq => hne (hkey hget heq)⟩
      · refine ⟨hget, fun heq => hsame ?_⟩
        rw [← hkey hget heq, hget, heq]
    have hself := h.turn { c with phase := phase } a
      (if s.entries.get a.key = some c.entry then s.entries.del a.key else s.entries)
      hc ha rfl rfl rfl ?_ (fun r hr => ?_) (fun key entry hget => (hsub key entry hget).1)
      fun key hget => absurd rfl (hsub key _ hget).2
    · rwa [set_self ha] at hself
    · rcases hturn with ⟨r, hphase, rfl⟩ | ⟨hphase, rfl⟩ <;> simp [hphase, CallPhase.isCounted]
    · rcases hturn with ⟨r', hphase, rfl⟩ | ⟨hphase, rfl⟩
      · cases hr
        obtain ⟨b, hb, hbr⟩ := h.results call c r hc (by rw [hphase]; rfl)
        cases hb.symm.trans ha
        exact hbr
      · cases hr

/-! ### Runs that are not disturbed -/

/-- INVARIANT: of the runs whose steps are undisturbed. -/
structure InFlight.Joined (s : InFlight κ ρ) : Prop where
  unfinished : ∀ (call : Nat) c, s.calls[call]? = some c → c.unfinished = true
  mapped : ∀ (call : Nat) c a, s.calls[call]? = some c → c.phase.isAwaiting = true →
    s.arcs[c.entry]? = some a → a.result = none → s.entries.get a.key = some c.entry

/-- A call goes on, and the map still has what is awaited. -/
theorem InFlight.Joined.turn (h : s.Joined) (c' : InFlightCall ρ) (a' : InFlightEntry κ ρ)
    (entries : Table κ Nat) (hc : s.calls[call]? = some c) (ha : s.arcs[c.entry]? = some a)
    (hentry : c'.entry = c.entry) (hunfinished : c'.unfinished = c.unfinished)
    (hkey : a'.key = a.key) (hresult : a'.result = a.result)
    (hawaits : c'.phase.isAwaiting = true → c.phase.isAwaiting = true)
    (hkeep : ∀ (i : Nat) d b, (s.calls.set call c')[i]? = some d → d.phase.isAwaiting = true →
      s.arcs[d.entry]? = some b → b.result = none → s.entries.get b.key = some d.entry →
      entries.get b.key = some d.entry) :
    InFlight.Joined ⟨s.arcs.set c.entry a', entries, s.calls.set call c'⟩ where
  unfinished i d hd := by
    rcases (getElem?_set_eq_some hc).mp hd with ⟨-, rfl⟩ | ⟨-, hd⟩
    · exact hunfinished.trans (h.unfinished call c hc)
    · exact h.unfinished i d hd
  mapped i d b hd hphase hb hnone := by
    have hold : ∃ b', s.arcs[d.entry]? = some b' ∧ b'.key = b.key ∧ b'.result = none := by
      rcases (getElem?_set_eq_some ha).mp hb with ⟨hsame, rfl⟩ | ⟨-, hb⟩
      · exact ⟨a, hsame ▸ ha, hkey.symm, hresult.symm.trans hnone⟩
      · exact ⟨b, hb, rfl, hnone⟩
    obtain ⟨b', hb', hkey', hnone'⟩ := hold
    rw [← hkey']
    refine hkeep i d b' hd hphase hb' hnone' ?_
    rcases (getElem?_set_eq_some hc).mp hd with ⟨-, rfl⟩ | ⟨-, hd⟩
    · have hmapped := h.mapped call c b' hc (hawaits hphase) (hentry ▸ hb') hnone'
      rw [hmapped, hentry]
    · exact h.mapped i d b' hd hphase hb' hnone'

/-- STEP: every undisturbed step keeps it. -/
theorem joined_step {m : InFlightMove κ ρ} (hlawful : s.Lawful) (h : s.Joined)
    (hm : s.Undisturbed m) (hstep : s.Stepped m s') : s'.Joined := by
  cases hstep with
  | @found key entry hget =>
    have hopen : s.isUnfinished entry = true := hm entry hget
    refine ⟨fun i d hd => ?_, fun i d b hd hphase hb hnone => ?_⟩
    · rcases getElem?_push_eq_some.mp hd with hd | ⟨-, rfl⟩
      · exact h.unfinished i d hd
      · exact hopen
    · rcases getElem?_push_eq_some.mp hd with hd | ⟨-, rfl⟩
      · exact h.mapped i d b hd hphase hb hnone
      · obtain ⟨b', hb', rfl⟩ := hlawful.mapped key entry hget
        cases hb'.symm.trans hb
        exact hget
  | @made key hget =>
    refine ⟨fun i d hd => ?_, fun i d b hd hphase hb hnone => ?_⟩
    · rcases getElem?_push_eq_some.mp hd with hd | ⟨-, rfl⟩
      · exact h.unfinished i d hd
      · rfl
    · rcases getElem?_push_eq_some.mp hd with hd | ⟨-, rfl⟩
      · obtain ⟨b', hb'⟩ := hlawful.arc i d hd
        cases (getElem?_push_eq_some.mpr (.inl hb')).symm.trans hb
        have hmapped := h.mapped i d b hd hphase hb' hnone
        have hne : b.key ≠ key := by
          rintro rfl
          cases hget.symm.trans hmapped
        exact (Table.get_set_ne hne _ _).trans hmapped
      · rcases getElem?_push_eq_some.mp hb with hb | ⟨-, rfl⟩
        · exact absurd (List.getElem?_eq_some_iff.mp hb).1 (Nat.lt_irrefl _)
        · exact Table.get_set_self _ _ _
  | @counted call c a hc ha hphase =>
    exact h.turn { c with phase := .waiting } { a with waiters := a.waiters + 1 } s.entries hc ha rfl
      rfl rfl rfl (fun _ => by rw [hphase]; rfl) fun _ _ _ _ _ _ _ hget => hget
  | @finished entry a r ha hfresh =>
    refine ⟨h.unfinished, fun i d b hd hphase hb hnone => ?_⟩
    rcases (getElem?_set_eq_some ha).mp hb with ⟨-, rfl⟩ | ⟨-, hb⟩
    · cases hnone
    · exact h.mapped i d b hd hphase hb hnone
  | @received call c a r hc ha hphase hresult =>
    have hself := h.turn { c with phase := .completed r } a s.entries hc ha rfl rfl rfl rfl
      (fun hawaits => (by cases hawaits)) fun _ _ _ _ _ _ _ hget => hget
    rwa [set_self ha] at hself
  | @cancelled call c a hc ha hphase =>
    have hself := h.turn { c with phase := .dropped } a s.entries hc ha rfl rfl rfl rfl
      (fun hawaits => (by cases hawaits)) fun _ _ _ _ _ _ _ hget => hget
    rwa [set_self ha] at hself
  | @left call c a phase hc ha hturn =>
    refine h.turn { c with phase := phase } { a with waiters := a.waiters - 1 } s.entries hc ha rfl rfl
      rfl rfl (fun hawaits => ?_) fun _ _ _ _ _ _ _ hget => hget
    rcases hturn with ⟨r, -, rfl⟩ | ⟨-, rfl⟩
    · cases hawaits
    · dsimp only at hawaits
      split_ifs at hawaits <;> cases hawaits
  | @cleaned call c a phase hc ha hturn =>
    have hnot : phase.isAwaiting = false := by
      rcases hturn with ⟨r, -, rfl⟩ | ⟨-, rfl⟩ <;> rfl
    have hself := h.turn { c with phase := phase } a
      (if s.entries.get a.key = some c.entry then s.entries.del a.key else s.entries)
      hc ha rfl rfl rfl rfl (fun hawaits => ?_) fun i d b hd hphase hb hnone hget => ?_
    · rwa [set_self ha] at hself
    · dsimp only at hawaits
      rw [hnot] at hawaits
      cases hawaits
    · split_ifs with hsame
      · rw [Table.get_del, if_neg, hget]
        rintro hkey
        rw [hkey, hsame] at hget
        have hentry : c.entry = d.entry := Option.some.inj hget
        rcases (getElem?_set_eq_some hc).mp hd with ⟨-, rfl⟩ | ⟨-, hd⟩
        · rw [hnot] at hphase
          cases hphase
        · rw [← hentry] at hb
          cases hb.symm.trans ha
          have hx : s.at_ call = some (c, a) := at_eq_some.mpr ⟨hc, ha⟩
          have hno := hm (c, a) hx hsame (Option.isNone_iff_eq_none.mpr hnone) d (List.mem_of_getElem? hd) hentry.symm
          rw [hno] at hphase
          cases hphase
      · exact hget

/-! ### The way of a call to its result -/

theorem at_get (hc : s.calls[call]? = some c) (ha : s.arcs[c.entry]? = some a) :
    s.at_ call = some (c, a) :=
  (at_eq_some (x := (c, a))).mpr ⟨hc, ha⟩

theorem setCall_get (hc : s.calls[call]? = some c) (c' : InFlightCall ρ) :
    (s.setCall call c').calls[call]? = some c' :=
  (getElem?_set_eq_some hc).mpr (.inl ⟨rfl, rfl⟩)

theorem setArc_get {entry : Nat} (ha : s.arcs[entry]? = some a) (a' : InFlightEntry κ ρ) :
    (s.setArc entry a').arcs[entry]? = some a' :=
  (getElem?_set_eq_some ha).mpr (.inl ⟨rfl, rfl⟩)

/-- The end of a cleanup. -/
theorem returns_cleaning {r : ρ} (hc : s.calls[call]? = some c) (ha : s.arcs[c.entry]? = some a)
    (hphase : c.phase = .cleaning (some r)) :
    ∃ s', Machine.Reaches InFlight.step s s' ∧ s'.Returned call r := by
  have hstep : s.step (.removeIfSame call) = s.removeIfSame call c a := by
    rw [InFlight.step, at_get hc ha]
    rfl
  rw [InFlight.removeIfSame, hphase] at hstep
  exact ⟨_, .single hstep, _, setCall_get hc _, rfl⟩

theorem returns_completed {r : ρ} (hc : s.calls[call]? = some c) (ha : s.arcs[c.entry]? = some a)
    (hphase : c.phase = .completed r) :
    ∃ s', Machine.Reaches InFlight.step s s' ∧ s'.Returned call r := by
  have hstep : s.step (.fetchSub call) = s.fetchSub call c a := by
    rw [InFlight.step, at_get hc ha]
    rfl
  rw [InFlight.fetchSub, hphase] at hstep
  have hget := setCall_get (s := s.setArc c.entry { a with waiters := a.waiters - 1 }) hc
    { c with phase := .cleaning (some r) }
  obtain ⟨s', hreach, hend⟩ := returns_cleaning hget (setArc_get ha _) rfl
  exact ⟨s', (Machine.Reaches.single hstep).trans hreach, hend⟩

theorem returns_received {r : ρ} (hc : s.calls[call]? = some c) (ha : s.arcs[c.entry]? = some a)
    (hphase : c.phase = .waiting) (hresult : a.result = some r) :
    ∃ s', Machine.Reaches InFlight.step s s' ∧ s'.Returned call r := by
  have hstep : s.step (.receive call) = s.receive call c a := by
    rw [InFlight.step, at_get hc ha]
    rfl
  rw [InFlight.receive, hphase, hresult] at hstep
  obtain ⟨s', hreach, hend⟩ := returns_completed (setCall_get hc { c with phase := .completed r }) ha rfl
  exact ⟨s', (Machine.Reaches.single hstep).trans hreach, hend⟩

theorem returns_waiting (hc : s.calls[call]? = some c) (ha : s.arcs[c.entry]? = some a)
    (hphase : c.phase = .waiting) (r : ρ) :
    ∃ s', Machine.Reaches InFlight.step s s' ∧ s'.Returned call (a.result.getD r) := by
  cases hresult : a.result with
  | some r' => exact returns_received hc ha hphase hresult
  | none =>
    have hany : (s.calls.any fun d =>
        d.entry = c.entry && d.phase.isAwaiting && d.phase.isCounted) = true := by
      refine List.any_eq_true.mpr ⟨c, List.mem_of_getElem? hc, ?_⟩
      simp [hphase, CallPhase.isAwaiting, CallPhase.isCounted]
    have hstep : s.step (.finish c.entry r) =
        some (s.setArc c.entry { a with result := some r }) := by
      show s.finish c.entry r = _
      rw [InFlight.finish, ha, Option.bind_some, if_pos ⟨by rw [hresult]; rfl, hany⟩]
    have hcalls : (s.setArc c.entry { a with result := some r }).calls[call]? = some c := hc
    obtain ⟨s', hreach, hend⟩ := returns_received hcalls (setArc_get ha _) hphase rfl
    exact ⟨s', (Machine.Reaches.single hstep).trans hreach, hend⟩

/-- PROGRESS: a call that was not cancelled can return. -/
theorem InFlight.Lawful.returns (h : s.Lawful) (hc : s.calls[call]? = some c)
    (hopen : c.phase.isAwaiting = true ∨ c.phase.result.isSome = true) (r : ρ) :
    ∃ s', Machine.Reaches InFlight.step s s' ∧
      s'.Returned call (((s.arcs[c.entry]?).bind InFlightEntry.result).getD r) := by
  obtain ⟨a, ha⟩ := h.arc call c hc
  rw [ha, Option.bind_some]
  have hknown : ∀ r', c.phase.result = some r' → a.result.getD r = r' := by
    intro r' hr'
    obtain ⟨b, hb, hbr⟩ := h.results call c r' hc hr'
    cases hb.symm.trans ha
    rw [hbr]
    rfl
  cases hphase : c.phase with
  | fetched =>
    have hstep : s.step (.fetchAdd call) = s.fetchAdd call c a := by
      rw [InFlight.step, at_get hc ha]
      rfl
    rw [InFlight.fetchAdd, hphase] at hstep
    have hget := setCall_get (s := s.setArc c.entry { a with waiters := a.waiters + 1 }) hc
      { c with phase := .waiting }
    obtain ⟨s', hreach, hend⟩ := returns_waiting hget (setArc_get ha _) rfl r
    exact ⟨s', (Machine.Reaches.single hstep).trans hreach, hend⟩
  | waiting => exact returns_waiting hc ha hphase r
  | completed r' =>
    rw [hknown r' (by rw [hphase]; rfl)]
    exact returns_completed hc ha hphase
  | cleaning result =>
    cases result with
    | some r' =>
      rw [hknown r' (by rw [hphase]; rfl)]
      exact returns_cleaning hc ha hphase
    | none =>
      rw [hphase] at hopen
      rcases hopen with hno | hno <;> cases hno
  | returned r' =>
    rw [hknown r' (by rw [hphase]; rfl)]
    exact ⟨s, .refl s, c, hc, hphase⟩
  | dropped =>
    rw [hphase] at hopen
    rcases hopen with hno | hno <;> cases hno
  | cancelled =>
    rw [hphase] at hopen
    rcases hopen with hno | hno <;> cases hno

/-! ### The claim over runs -/

theorem merges_of_joined (hlawful : s.Lawful) (hjoined : s.Joined) : s.Merges where
  single key call call' entry entry' := by
    rintro ⟨c, a, hc, hphase, rfl, ha, rfl, hnone⟩ ⟨d, b, hd, hphase', rfl, hb, hkey, hnone'⟩
    have hget := hjoined.mapped call c a hc (by rw [hphase]; rfl) ha hnone
    have hget' := hjoined.mapped call' d b hd (by rw [hphase']; rfl) hb hnone'
    rw [hkey] at hget'
    exact Option.some.inj (hget.symm.trans hget')
  answers call c r hc hphase :=
    ⟨hjoined.unfinished call c hc, hlawful.results call c r hc (by rw [hphase]; rfl)⟩
  returns call c hc hopen r := hlawful.returns hc hopen r
  spares call c s' key entry hc hstep hget hne := by
    cases step_cases hstep with
    | @cleaned _ d a phase hd ha hturn =>
      cases hd.symm.trans hc
      show (if s.entries.get a.key = some c.entry then s.entries.del a.key
        else s.entries).get key = some entry
      split_ifs with hsame
      · rw [Table.get_del, if_neg, hget]
        rintro rfl
        exact hne (Option.some.inj (hget.symm.trans hsame))
      · exact hget
  empty hall := by
    refine Table.eq_empty_of_get fun key => ?_
    cases hget : s.entries.get key with
    | none => rfl
    | some entry =>
      obtain ⟨i, c, hc, -, hopen⟩ := hlawful.held key entry hget
      rw [hall c (List.mem_of_getElem? hc)] at hopen
      cases hopen

/-- Requests are merged, whatever calls come, end and are cancelled, as long as no call finds a
    finished operation and no cleanup takes out an unfinished one that another call has fetched. -/
theorem merges_of_undisturbed {s : InFlight κ ρ}
    (h : Machine.ReachesBy InFlight.step InFlight.Undisturbed {} s) : s.Merges := by
  have hboth : s.Lawful ∧ s.Joined := by
    refine h.invariant (I := fun s => s.Lawful ∧ s.Joined) (fun s m s' hs hm hstep => ?_) ?_
    · exact ⟨lawful_step hs.1 (step_cases hstep), joined_step hs.1 hs.2 hm (step_cases hstep)⟩
    · exact ⟨⟨fun _ _ hc => (by cases hc), fun _ _ hget => (by cases hget),
        fun _ _ ha => (by cases ha), fun _ _ hget => (by cases hget),
        fun _ _ _ hc => (by cases hc)⟩, fun _ _ hc => (by cases hc),
        fun _ _ _ hc => (by cases hc)⟩
  exact merges_of_joined hboth.1 hboth.2

/-- Two calls share an operation. -/
def sharedRun : List (InFlightMove Nat Nat) :=
  [.look 7, .fetchAdd 0, .look 7, .fetchAdd 1, .finish 0 5, .receive 0, .fetchSub 0, .removeIfSame 0,
    .receive 1, .fetchSub 1, .removeIfSame 1]

theorem shared_merges : ∃ s : InFlight Nat Nat,
    Machine.exec InFlight.step {} sharedRun = some s ∧
      s.calls = [⟨0, true, .returned 5⟩, ⟨0, true, .returned 5⟩] ∧ s.Merges := by
  have hend : ∃ s : InFlight Nat Nat, Machine.exec InFlight.step {} sharedRun = some s ∧
      s.calls = [⟨0, true, .returned 5⟩, ⟨0, true, .returned 5⟩] := Machine.exec_eval (by decide)
  obtain ⟨s, hrun, hcalls⟩ := hend
  have hundisturbed : Machine.Along InFlight.step InFlight.Undisturbed ({} : InFlight Nat Nat)
      sharedRun := by decide
  exact ⟨s, hrun, hcalls, merges_of_undisturbed ⟨sharedRun, hrun, hundisturbed⟩⟩

/-- A call is counted after the last one before it went; the next call starts a second operation. -/
def cancelledRun : List (InFlightMove Nat Nat) :=
  [.look 7, .fetchAdd 0, .look 7, .cancel 0, .fetchSub 0, .removeIfSame 0, .fetchAdd 1, .look 7,
    .fetchAdd 2]

/-- A call comes when the operation has ended and its entry is still there. -/
def lateRun : List (InFlightMove Nat Nat) :=
  [.look 7, .fetchAdd 0, .finish 0 5, .look 7, .fetchAdd 1, .receive 1, .fetchSub 1, .removeIfSame 1]

theorem not_merged : (∃ s : InFlight Nat Nat,
      Machine.exec InFlight.step {} cancelledRun = some s ∧ s.Awaits 1 0 7 ∧ s.Awaits 2 1 7 ∧
        ¬ s.Merges) ∧
    ∃ s : InFlight Nat Nat, Machine.exec InFlight.step {} lateRun = some s ∧
      s.calls[1]? = some ⟨0, false, .returned 5⟩ ∧ ¬ s.Merges := by
  constructor
  · have hend : ∃ s : InFlight Nat Nat, Machine.exec InFlight.step {} cancelledRun = some s ∧
        s.calls = [⟨0, true, .cancelled⟩, ⟨0, true, .waiting⟩, ⟨1, true, .waiting⟩] ∧
          s.arcs = [⟨7, 1, none⟩, ⟨7, 1, none⟩] := Machine.exec_eval (by decide)
    obtain ⟨s, hrun, hcalls, harcs⟩ := hend
    have hold : s.Awaits 1 0 7 :=
      ⟨⟨0, true, .waiting⟩, ⟨7, 1, none⟩, by rw [hcalls]; rfl, rfl, rfl, by rw [harcs]; rfl, rfl, rfl⟩
    have hnew : s.Awaits 2 1 7 :=
      ⟨⟨1, true, .waiting⟩, ⟨7, 1, none⟩, by rw [hcalls]; rfl, rfl, rfl, by rw [harcs]; rfl, rfl, rfl⟩
    refine ⟨s, hrun, hold, hnew, fun h => ?_⟩
    cases h.single 7 1 2 0 1 hold hnew
  · have hend : ∃ s : InFlight Nat Nat, Machine.exec InFlight.step {} lateRun = some s ∧
        s.calls[1]? = some ⟨0, false, .returned 5⟩ := Machine.exec_eval (by decide)
    obtain ⟨s, hrun, hcall⟩ := hend
    refine ⟨s, hrun, hcall, fun h => ?_⟩
    cases (h.answers 1 _ 5 hcall rfl).1

end Gamer.Device
