import Mathlib.Data.List.Basic
import Mathlib.Order.Lattice

/-! The first of the best of a list, each with its score, and a parallel reduction to it. A reduction
    splits its items wherever it likes and folds each part from nothing:

        [a b | c | d e f]    better (better (fold [a b]) (fold [c])) (fold [d e f])           -/

namespace Gamer.Lib

/-- How a parallel reduction has split its items. -/
inductive Split (α : Type) where
  | part (items : List α)
  | join (left right : Split α)
  deriving Repr

namespace Split
variable {α β : Type}

def items : Split α → List α
  | .part items => items
  | .join left right => left.items ++ right.items

/-- `map` and `reduce`: every part starts with `e`. -/
def reduce (op : β → β → β) (e : β) (f : α → β) : Split α → β
  | .part items => (items.map f).foldl op e
  | .join left right => op (left.reduce op e f) (right.reduce op e f)

theorem foldl_eq_op {op : β → β → β} {e : β} (hassoc : ∀ a b c, op (op a b) c = op a (op b c))
    (hleft : ∀ a, op e a = a) (hright : ∀ a, op a e = a) :
    ∀ (l : List β) (a : β), l.foldl op a = op a (l.foldl op e)
  | [], a => (hright a).symm
  | b :: l, a => by
    rw [List.foldl_cons, List.foldl_cons, hleft, foldl_eq_op hassoc hleft hright l (op a b),
      foldl_eq_op hassoc hleft hright l b, hassoc]

/-- RULE: the splits do not show where the operation is associative with the start as identity. -/
theorem reduce_eq {op : β → β → β} {e : β} (hassoc : ∀ a b c, op (op a b) c = op a (op b c))
    (hleft : ∀ a, op e a = a) (hright : ∀ a, op a e = a) (f : α → β) (split : Split α) :
    split.reduce op e f = (split.items.map f).foldl op e := by
  induction split with
  | part items => rfl
  | join left right ihl ihr =>
    rw [reduce, ihl, ihr, items, List.map_append, List.foldl_append,
      ← foldl_eq_op hassoc hleft hright]

/-- The operation where a part may have failed. -/
def lift (op : β → β → β) (a b : Option β) : Option β := a.bind fun a => b.map (op a)

theorem foldl_lift {op : β → β → β} {f : α → Option β} {g : α → β} :
    ∀ (l : List α) (e : β), (∀ a ∈ l, f a = some (g a)) →
      (l.map f).foldl (lift op) (some e) = some ((l.map g).foldl op e)
  | [], _, _ => rfl
  | a :: l, e, h => by
    have ha : lift op (some e) (f a) = some (op e (g a)) := by
      rw [h a (List.mem_cons_self ..)]
      rfl
    rw [List.map_cons, List.foldl_cons, ha, List.map_cons, List.foldl_cons]
    exact foldl_lift l _ fun b hb => h b (List.mem_cons_of_mem _ hb)

/-- RULE: where no item fails, the reduction does not. -/
theorem reduce_lift {op : β → β → β} {e : β} {f : α → Option β} {g : α → β} (split : Split α)
    (h : ∀ a ∈ split.items, f a = some (g a)) :
    split.reduce (lift op) (some e) f = some (split.reduce op e g) := by
  induction split with
  | part items => exact foldl_lift items e h
  | join left right ihl ihr =>
    rw [reduce, ihl fun a ha => h a (List.mem_append_left _ ha),
      ihr fun a ha => h a (List.mem_append_right _ ha)]
    rfl

end Split

section
variable {σ β : Type} [LinearOrder σ]

/-- The better of two, the left where they are equal. -/
def better : Option (σ × β) → Option (σ × β) → Option (σ × β)
  | some a, some b => some (if b.1 ≤ a.1 then a else b)
  | some a, none => some a
  | none, some b => some b
  | none, none => none

@[simp] theorem better_none_left (a : Option (σ × β)) : better none a = a := by
  cases a <;> rfl

@[simp] theorem better_none_right (a : Option (σ × β)) : better a none = a := by
  cases a <;> rfl

theorem better_assoc (a b c : Option (σ × β)) :
    better (better a b) c = better a (better b c) := by
  cases a with
  | none => simp
  | some a =>
    cases b with
    | none => simp
    | some b =>
      cases c with
      | none => simp
      | some c =>
        simp only [better]
        by_cases hba : b.1 ≤ a.1
        · by_cases hcb : c.1 ≤ b.1
          · simp [hba, hcb, hcb.trans hba]
          · simp [hba, hcb]
        · have hab : a.1 < b.1 := not_le.mp hba
          by_cases hcb : c.1 ≤ b.1
          · simp [hba, hcb]
          · have hca : ¬ c.1 ≤ a.1 := not_le.mpr (hab.trans (not_le.mp hcb))
            simp [hba, hcb, hca]

def firstBest (l : List (σ × β)) : Option (σ × β) := (l.map some).foldl better none

/-- `p` is in the list, nothing before it is as good and nothing behind it is better. -/
def FirstBest (l : List (σ × β)) (p : σ × β) : Prop :=
  ∃ before after, l = before ++ p :: after ∧ (∀ q ∈ before, q.1 < p.1) ∧ ∀ q ∈ after, q.1 ≤ p.1

theorem firstBest_append (l₁ l₂ : List (σ × β)) :
    firstBest (l₁ ++ l₂) = better (firstBest l₁) (firstBest l₂) := by
  rw [firstBest, List.map_append, List.foldl_append,
    Split.foldl_eq_op better_assoc better_none_left better_none_right]
  rfl

theorem firstBest_flatMap {α : Type} (f : α → List (σ × β)) (l : List α) :
    (l.map fun a => firstBest (f a)).foldl better none = firstBest (l.flatMap f) := by
  induction l with
  | nil => rfl
  | cons a l ih =>
    rw [List.map_cons, List.foldl_cons, better_none_left,
      Split.foldl_eq_op better_assoc better_none_left better_none_right, ih, List.flatMap_cons,
      firstBest_append]

/-- RULE: what a reduction over a split finds is the first best of all. -/
theorem reduce_better {α : Type} (f : α → List (σ × β)) (split : Split α) :
    (split.reduce better none fun a => firstBest (f a)) = firstBest (split.items.flatMap f) := by
  rw [Split.reduce_eq better_assoc better_none_left better_none_right, firstBest_flatMap]

theorem firstBest_singleton (p : σ × β) : firstBest [p] = some p := rfl

theorem FirstBest.le {l : List (σ × β)} {p q : σ × β} (h : FirstBest l p) (hq : q ∈ l) :
    q.1 ≤ p.1 := by
  obtain ⟨before, after, rfl, hbefore, hafter⟩ := h
  rcases List.mem_append.mp hq with hq | hq
  · exact le_of_lt (hbefore q hq)
  · rcases List.mem_cons.mp hq with rfl | hq
    · exact le_refl _
    · exact hafter q hq

theorem FirstBest.mem {l : List (σ × β)} {p : σ × β} (h : FirstBest l p) : p ∈ l := by
  obtain ⟨before, after, rfl, -, -⟩ := h
  simp

/-- What stands before the first best in an ordered list is not as good. -/
theorem FirstBest.first {l : List (σ × β)} {p q : σ × β} {R : σ × β → σ × β → Prop}
    (h : FirstBest l p) (hordered : l.Pairwise R) (hq : q ∈ l) (hne : q ≠ p)
    (hnot : ¬ R p q) : q.1 < p.1 := by
  obtain ⟨before, after, rfl, hbefore, -⟩ := h
  rcases List.mem_append.mp hq with hq | hq
  · exact hbefore q hq
  · rcases List.mem_cons.mp hq with rfl | hq
    · exact absurd rfl hne
    · have hbehind := (List.pairwise_append.mp hordered).2.1
      exact absurd ((List.pairwise_cons.mp hbehind).1 q hq) hnot

/-- A list that is not empty has a first best. -/
theorem firstBest_spec (l : List (σ × β)) (hne : l ≠ []) :
    ∃ p, firstBest l = some p ∧ FirstBest l p := by
  induction l with
  | nil => exact absurd rfl hne
  | cons a l ih =>
    have hcons : firstBest (a :: l) = better (some a) (firstBest l) := by
      rw [← firstBest_singleton a, ← firstBest_append]
      rfl
    rw [hcons]
    rcases eq_or_ne l [] with rfl | hl
    · exact ⟨a, rfl, [], [], rfl, nofun, nofun⟩
    · obtain ⟨p, hp, before, after, rfl, hbefore, hafter⟩ := ih hl
      rw [hp]
      by_cases hle : p.1 ≤ a.1
      · refine ⟨a, by simp [better, hle], [], before ++ p :: after, rfl, nofun, ?_⟩
        intro q hq
        rcases List.mem_append.mp hq with hq | hq
        · exact (le_of_lt (hbefore q hq)).trans hle
        · rcases List.mem_cons.mp hq with rfl | hq
          · exact hle
          · exact (hafter q hq).trans hle
      · refine ⟨p, by simp [better, hle], a :: before, after, rfl, ?_, hafter⟩
        intro q hq
        rcases List.mem_cons.mp hq with rfl | hq
        · exact not_le.mp hle
        · exact hbefore q hq

end

end Gamer.Lib
