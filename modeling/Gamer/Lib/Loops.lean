import Mathlib.Data.Option.Basic

/-! Loops that go on until there is no next state. A loop has fuel, and comes to no end if it has not
    enough of it; what it ends in does not depend on the fuel. -/

namespace Gamer.Lib

variable {σ : Type} {next : σ → Option σ} {s t : σ} {fuel : Nat}

/-- The state the loop ends in, if it ends within so many rounds. -/
def loop (next : σ → Option σ) : Nat → σ → Option σ
  | 0, _ => none
  | fuel + 1, s =>
    match next s with
    | none => some s
    | some s' => loop next fuel s'

theorem loop_done (h : next s = none) : loop next (fuel + 1) s = some s := by
  rw [loop, h]

theorem loop_step (h : next s = some t) : loop next (fuel + 1) s = loop next fuel t := by
  rw [loop, h]

/-- STEP: a state that is its own next one is never left. -/
theorem loop_stuck (h : next s = some s) : ∀ fuel, loop next fuel s = none
  | 0 => rfl
  | fuel + 1 => by rw [loop_step h, loop_stuck h fuel]

/-- RUN: more fuel does not change the end. -/
theorem loop_mono : ∀ {fuel : Nat} {s : σ}, loop next fuel s = some t → ∀ {fuel'}, fuel ≤ fuel' →
    loop next fuel' s = some t
  | 0, _, h, _, _ => by cases h
  | fuel + 1, s, h, 0, hle => by omega
  | fuel + 1, s, h, fuel' + 1, hle => by
    cases hnext : next s with
    | none => rw [loop_done hnext] at h ⊢; exact h
    | some s' =>
      rw [loop_step hnext] at h ⊢
      exact loop_mono h (by omega)

end Gamer.Lib
