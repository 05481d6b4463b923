import Mathlib.Data.List.Basic
import Gamer.Lib.Token

/-! Locks that tasks hold. Nothing records the owner of a lock: a lock is free when no task of the
    list is inside a section that it guards.

        tasks   [a b]   []   [c]   []          free d,   not free b                              -/

namespace Gamer.Lib

namespace Locks
variable {τ ρ : Type} {holds : τ → List ρ} {tasks : List τ} {t t' : τ} {k : Nat}

/-- No two tasks hold the same lock. -/
def Sole (holds : τ → List ρ) (tasks : List τ) : Prop :=
  ∀ ⦃i j : Nat⦄ ⦃t u : τ⦄ ⦃l : ρ⦄, tasks[i]? = some t → tasks[j]? = some u →
    l ∈ holds t → l ∈ holds u → i = j

/-- No task holds the lock. -/
def free [DecidableEq ρ] (holds : τ → List ρ) (tasks : List τ) (l : ρ) : Bool :=
  tasks.all fun t => !(holds t).contains l

theorem not_mem_of_free [DecidableEq ρ] {l : ρ} (h : free holds tasks l = true)
    (hk : tasks[k]? = some t) : l ∉ holds t := by
  have ht : t ∈ tasks := List.mem_of_getElem? hk
  have hnot := List.all_eq_true.mp h t ht
  simpa using hnot

theorem Sole.nil : Sole holds ([] : List τ) := by
  intro i j t u l hi
  simp at hi

/-- STEP: a task comes with locks that no other task has. -/
theorem Sole.push (h : Sole holds tasks)
    (hnew : ∀ l ∈ holds t, ∀ (j : Nat) u, tasks[j]? = some u → l ∉ holds u) :
    Sole holds (tasks ++ [t]) := by
  intro i j x y l hi hj hx hy
  rcases Token.getElem?_push_eq_some.mp hi with hi₀ | ⟨rfl, rfl⟩
  · rcases Token.getElem?_push_eq_some.mp hj with hj₀ | ⟨_, rfl⟩
    · exact h hi₀ hj₀ hx hy
    · exact absurd hx (hnew l hy i x hi₀)
  · rcases Token.getElem?_push_eq_some.mp hj with hj₀ | ⟨hj₀, _⟩
    · exact absurd hy (hnew l hx j y hj₀)
    · exact hj₀.symm

/-- STEP: a task goes on with locks that it has or that no other task has. -/
theorem Sole.set (h : Sole holds tasks) (hk : tasks[k]? = some t)
    (hnew : ∀ l ∈ holds t', l ∈ holds t ∨ ∀ (j : Nat) u, tasks[j]? = some u → l ∉ holds u) :
    Sole holds (tasks.set k t') := by
  have hother : ∀ {j : Nat} {u : τ} {l : ρ}, tasks[j]? = some u → l ∈ holds t' → l ∈ holds u →
      j = k := by
    intro j u l hj hl hu
    rcases hnew l hl with hmine | hfree
    · exact h hj hk hu hmine
    · exact absurd hu (hfree j u hj)
  intro i j x y l hi hj hx hy
  rcases (Token.getElem?_set_eq_some hk).mp hi with ⟨rfl, rfl⟩ | ⟨hne, hi₀⟩
  · rcases (Token.getElem?_set_eq_some hk).mp hj with ⟨rfl, rfl⟩ | ⟨_, hj₀⟩
    · rfl
    · exact (hother hj₀ hx hy).symm
  · rcases (Token.getElem?_set_eq_some hk).mp hj with ⟨rfl, rfl⟩ | ⟨_, hj₀⟩
    · exact absurd (hother hi₀ hy hx) hne
    · exact h hi₀ hj₀ hx hy

/-- What no two tasks are, at most one is. -/
theorem countP_le_one {p : τ → Bool} (h : ∀ (i j : Nat) t u, tasks[i]? = some t →
    tasks[j]? = some u → p t = true → p u = true → i = j) : tasks.countP p ≤ 1 := by
  induction tasks with
  | nil => simp
  | cons t tasks ih =>
    rw [List.countP_cons]
    split
    · next ht =>
      have hnone : tasks.countP p = 0 := by
        rw [List.countP_eq_zero]
        intro u hu hp
        obtain ⟨j, hlt, rfl⟩ := List.mem_iff_getElem.mp hu
        have hj : (t :: tasks)[j + 1]? = some tasks[j] := by
          rw [List.getElem?_cons_succ, List.getElem?_eq_getElem hlt]
        cases h 0 (j + 1) t tasks[j] rfl hj ht hp
      omega
    · rw [Nat.add_zero]
      refine ih fun i j u v hi hj hu hv => ?_
      have hsucc := h (i + 1) (j + 1) u v (by rwa [List.getElem?_cons_succ])
        (by rwa [List.getElem?_cons_succ]) hu hv
      omega

end Locks

end Gamer.Lib
