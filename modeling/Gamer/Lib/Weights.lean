import Gamer.Lib.Table
import Mathlib.Algebra.BigOperators.Group.List.Basic
import Mathlib.Algebra.GroupWithZero.Nat

/-! Sums over the values of a table, the way a cache keeps count of what it holds: storing adds
    the weight of the new value, removing takes the weight of the old one off. -/

namespace Gamer.Lib.Table
variable {κ ν : Type}

/-- The weights of the values together. -/
def weight (t : Table κ ν) (f : ν → Nat) : Nat := (t.values.map f).sum

/-- How many keys are stored. -/
def count (t : Table κ ν) : Nat := t.entries.length

@[simp] theorem weight_empty (f : ν → Nat) : weight (∅ : Table κ ν) f = 0 := rfl

@[simp] theorem count_empty : count (∅ : Table κ ν) = 0 := rfl

/-- A table without keys weighs nothing. -/
theorem weight_of_count {t : Table κ ν} (h : t.count = 0) (f : ν → Nat) : t.weight f = 0 := by
  rw [weight, values, List.eq_nil_of_length_eq_zero h]
  rfl

variable [DecidableEq κ]

theorem weight_set (t : Table κ ν) (k : κ) (v : ν) (f : ν → Nat) :
    (t.set k v).weight f = f v + (t.del k).weight f := by
  rw [weight, values, entries_set, List.map_cons, List.map_cons, List.sum_cons]
  rfl

theorem count_set (t : Table κ ν) (k : κ) (v : ν) : (t.set k v).count = (t.del k).count + 1 := by
  rw [count, entries_set, List.length_cons]
  rfl

/-- What is stored under a key is part of the whole. -/
theorem weight_of_get {t : Table κ ν} {k : κ} {v : ν} (h : t.get k = some v) (f : ν → Nat) :
    t.weight f = f v + (t.del k).weight f := by
  have hperm := ((entries_perm h).map Sigma.snd).map f
  rw [weight, values, hperm.sum_eq, List.map_cons, List.map_cons, List.sum_cons]
  rfl

theorem count_of_get {t : Table κ ν} {k : κ} {v : ν} (h : t.get k = some v) :
    t.count = (t.del k).count + 1 := by
  rw [count, (entries_perm h).length_eq, List.length_cons]
  rfl

/-- Removing what is not there changes nothing. -/
theorem weight_del_of_none {t : Table κ ν} {k : κ} (h : t.get k = none) (f : ν → Nat) :
    (t.del k).weight f = t.weight f := by
  rw [weight, weight, values, values, del_of_get_none h]

theorem count_del_of_none {t : Table κ ν} {k : κ} (h : t.get k = none) :
    (t.del k).count = t.count := by
  rw [count, count, del_of_get_none h]

/-- A change of one value that does not show in the weights. -/
theorem weight_modify (t : Table κ ν) (k : κ) {g : ν → ν} {f : ν → Nat} (h : ∀ v, f (g v) = f v) :
    (t.modify k g).weight f = t.weight f := by
  rw [modify]
  cases hk : t.get k with
  | none => rfl
  | some v =>
    dsimp only
    rw [weight_set, h, ← weight_of_get hk]

theorem count_modify (t : Table κ ν) (k : κ) (g : ν → ν) : (t.modify k g).count = t.count := by
  rw [modify]
  cases hk : t.get k with
  | none => rfl
  | some v =>
    dsimp only
    rw [count_set, ← count_of_get hk]

end Gamer.Lib.Table
