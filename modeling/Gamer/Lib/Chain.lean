import Mathlib.Data.List.Basic

/-! A numbered stream whose items are coded against their predecessors, and the log of what has been
    sent of it. A root stands alone behind its header; every other item is a delta, of use only
    behind the item before it:

        item       root   delta   delta   root   delta
        number      0       1       2      3       4
        needs      header   0       1    header    3

    The log has the newest entry at its head. An item of which only a part went out is logged as
    torn; one of which nothing went out is not logged. -/

namespace Gamer.Lib

namespace Chain

/-- What the items of a stream say of themselves. -/
structure Coding (ι κ : Type) where
  no : ι → Nat
  root : ι → Bool
  header : ι → Option κ

/-- One thing sent. -/
inductive Entry (ι κ : Type) where
  | header (k : κ)
  | item (i : ι) (whole : Bool)
  deriving DecidableEq, Repr

variable {ι κ : Type}

/-- The item sent last, and whether it was sent whole. -/
def lastItem : List (Entry ι κ) → Option (ι × Bool)
  | [] => none
  | .header _ :: log => lastItem log
  | .item i whole :: _ => some (i, whole)

/-- The header sent last. -/
def lastHeader : List (Entry ι κ) → Option κ
  | [] => none
  | .header k :: _ => some k
  | .item _ _ :: log => lastHeader log

/-- The items sent, the last one first. -/
def items : List (Entry ι κ) → List ι
  | [] => []
  | .header _ :: log => items log
  | .item i _ :: log => i :: items log

section Law
variable (C : Coding ι κ)

/-- The item continues the one sent just before it, which was sent whole. -/
def Follows (i : ι) (log : List (Entry ι κ)) : Prop :=
  ∃ j, lastItem log = some (j, true) ∧ C.no j + 1 = C.no i

/-- The header the item needs, if it needs one, is the one sent last. -/
def Headed (i : ι) (log : List (Entry ι κ)) : Prop :=
  ∀ k, C.header i = some k → lastHeader log = some k

/-- LAW: every delta continues the item before it, every root is headed, and no item is sent
    twice. -/
def Chained : List (Entry ι κ) → Prop
  | [] => True
  | .header _ :: log => Chained log
  | .item i _ :: log =>
    (C.root i = false → Follows C i log) ∧ (C.root i = true → Headed C i log) ∧
      (∀ j ∈ items log, C.no j ≠ C.no i) ∧ Chained log

instance Follows.decidable (i : ι) (log : List (Entry ι κ)) : Decidable (Follows C i log) :=
  decidable_of_iff ((lastItem log).any fun j => j.2 && C.no j.1 + 1 == C.no i) <| by
    simp [Follows, Option.any_eq_true]

instance Headed.decidable [DecidableEq κ] (i : ι) (log : List (Entry ι κ)) :
    Decidable (Headed C i log) :=
  decidable_of_iff ((C.header i).all fun k => lastHeader log == some k) <| by
    simp [Headed, Option.all_eq_true]

instance Chained.decidable [DecidableEq κ] :
    ∀ log : List (Entry ι κ), Decidable (Chained C log)
  | [] => isTrue trivial
  | .header _ :: log => Chained.decidable log
  | .item i _ :: log =>
    have : Decidable (Chained C log) := Chained.decidable log
    inferInstanceAs (Decidable ((C.root i = false → Follows C i log) ∧
      (C.root i = true → Headed C i log) ∧ (∀ j ∈ items log, C.no j ≠ C.no i) ∧ Chained C log))

/-- INVARIANT: a lawful log of items below `front`; if `linked`, the item at `front` may be sent as
    a delta. -/
structure Link (front : Nat) (linked : Bool) (log : List (Entry ι κ)) : Prop where
  chained : Chained C log
  below : ∀ j ∈ items log, C.no j < front
  last : linked = true → ∃ j, lastItem log = some (j, true) ∧ C.no j + 1 = front

end Law

variable {C : Coding ι κ} {front : Nat} {linked : Bool} {log : List (Entry ι κ)}

theorem Link.nil (front : Nat) : Link C front false [] :=
  ⟨trivial, by simp [items], by simp⟩

/-- STEP: a header changes nothing. -/
theorem Link.header (h : Link C front linked log) (k : κ) :
    Link C front linked (.header k :: log) :=
  ⟨h.chained, h.below, h.last⟩

/-- STEP: items that are not sent cut the chain. -/
theorem Link.cut (h : Link C front linked log) {front' : Nat} (hle : front ≤ front') :
    Link C front' false log := by
  refine ⟨h.chained, ?_, by simp⟩
  intro j hj
  have hlt := h.below j hj
  omega

/-- A link may be forgotten. -/
theorem Link.weaken (h : Link C front linked log) {linked' : Bool}
    (himp : linked' = true → linked = true) : Link C front linked' log :=
  ⟨h.chained, h.below, fun hl => h.last (himp hl)⟩

/-- STEP: the item at `front` is sent, whole or torn. -/
theorem Link.item (h : Link C front linked log) {i : ι} (hno : C.no i = front) (whole : Bool)
    (hroot : C.root i = true → Headed C i log) (hdelta : C.root i = false → linked = true) :
    Link C (front + 1) whole (.item i whole :: log) := by
  refine ⟨⟨?_, hroot, ?_, h.chained⟩, ?_, ?_⟩
  · intro hr
    obtain ⟨j, hj, hsucc⟩ := h.last (hdelta hr)
    exact ⟨j, hj, by omega⟩
  · intro j hj
    have hlt := h.below j hj
    omega
  · intro j hj
    simp only [items, List.mem_cons] at hj
    rcases hj with rfl | hj
    · omega
    · have hlt := h.below j hj
      omega
  · rintro rfl
    exact ⟨i, rfl, by omega⟩

/-! ### Runs of consecutive items -/

/-- The items are numbered without a gap from `a` to below `b`. -/
def Run (C : Coding ι κ) : Nat → List ι → Nat → Prop
  | a, [], b => a = b
  | a, i :: is, b => C.no i = a ∧ Run C (a + 1) is b

@[simp] theorem run_nil {a b : Nat} : Run C a [] b ↔ a = b := Iff.rfl

@[simp] theorem run_cons {a b : Nat} {i : ι} {is : List ι} :
    Run C a (i :: is) b ↔ C.no i = a ∧ Run C (a + 1) is b := Iff.rfl

theorem Run.le {a b : Nat} {is : List ι} (h : Run C a is b) : a ≤ b := by
  induction is generalizing a with
  | nil => simp only [run_nil] at h; omega
  | cons i is ih =>
    have hle := ih h.2
    omega

theorem run_append {a b : Nat} {is js : List ι} :
    Run C a (is ++ js) b ↔ ∃ m, Run C a is m ∧ Run C m js b := by
  induction is generalizing a with
  | nil => simp
  | cons i is ih => simp [ih, and_assoc]

theorem Run.snoc {a b : Nat} {is : List ι} {i : ι} (h : Run C a is b) (hi : C.no i = b) :
    Run C a (is ++ [i]) (b + 1) :=
  run_append.mpr ⟨b, h, by simp [hi]⟩

/-- What is left of a run behind its first items. -/
theorem Run.drop {a b : Nat} {is : List ι} (h : Run C a is b) {n : Nat} (hn : n ≤ is.length) :
    Run C (a + n) (is.drop n) b := by
  induction n generalizing a is with
  | zero => simpa using h
  | succ n ih =>
    cases is with
    | nil => simp at hn
    | cons i is =>
      have hrest := ih h.2 (by simpa using hn)
      rw [List.drop_succ_cons]
      rwa [show a + (n + 1) = a + 1 + n by omega]

end Chain

end Gamer.Lib
