import Mathlib.Data.List.Basic

/-! Data that is brought from level to level by one step each. What is left to do at a level is the
    rest of the climb, wherever the climb was left before:

        v ──step v──▶ v+1 ──step (v+1)──▶ … ──▶ v+n
                       └──── climb (n-1) ───────┘          -/

namespace Gamer.Lib

section Levels
variable {α χ : Type} (step : Nat → α → Except χ α)

/-- `n` steps from level `v` on. -/
def climb : Nat → Nat → α → Except χ α
  | 0, _, a => .ok a
  | n + 1, v, a =>
    match step v a with
    | .ok b => climb n (v + 1) b
    | .error e => .error e

variable {step}

theorem climb_of_ok {n v : Nat} {a b : α} (h : step v a = .ok b) :
    climb step (n + 1) v a = climb step n (v + 1) b := by
  rw [climb, h]

/-- CLIMB RULE: if every step below the top succeeds and keeps `W`, so does every climb. -/
theorem climb_ok {W : Nat → α → Prop} {top : Nat}
    (hstep : ∀ v a, v < top → W v a → ∃ b, step v a = .ok b ∧ W (v + 1) b) :
    ∀ {n v : Nat} {a : α}, v + n ≤ top → W v a → ∃ b, climb step n v a = .ok b ∧ W (v + n) b := by
  intro n
  induction n with
  | zero => exact fun _ ha => ⟨_, rfl, ha⟩
  | succ n ih =>
    intro v a htop ha
    obtain ⟨b, hb, hW⟩ := hstep v a (by omega) ha
    obtain ⟨c, hc, hWc⟩ := ih (by omega) hW
    refine ⟨c, by rw [climb_of_ok hb, hc], ?_⟩
    rwa [Nat.add_right_comm, Nat.add_assoc] at hWc

end Levels

end Gamer.Lib
