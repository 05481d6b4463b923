import Mathlib.Data.List.Basic

/-! Presses and releases of things that can be held down, in a log with the newest entry at its
    head. A press is settled once a release of the same thing has come behind it:

        log      up a    down b    up b    down a    down a
        down?      a: no    b: yes                            -/

namespace Gamer.Lib

/-- A press or a release. -/
inductive Press (α : Type) where
  | down (a : α)
  | up (a : α)
  deriving DecidableEq, Repr

namespace Press
variable {α : Type}

/-- Every press has a release of the same thing behind it. -/
def Settled (log : List (Press α)) : Prop :=
  ∀ newer older a, log = newer ++ .down a :: older → .up a ∈ newer

/-- `a` is down: it has been pressed and not released since. -/
def IsDown (a : α) : List (Press α) → Prop
  | [] => False
  | .down b :: log => b = a ∨ IsDown a log
  | .up b :: log => b ≠ a ∧ IsDown a log

/-- Every release has a press of the same thing before it, not released since. -/
def Matched (log : List (Press α)) : Prop :=
  ∀ newer older a, log = newer ++ .up a :: older → IsDown a older

variable {a b : α} {log : List (Press α)}

@[simp] theorem isDown_nil : ¬ IsDown a [] := id

@[simp] theorem isDown_down : IsDown a (.down b :: log) ↔ b = a ∨ IsDown a log := Iff.rfl

@[simp] theorem isDown_up : IsDown a (.up b :: log) ↔ b ≠ a ∧ IsDown a log := Iff.rfl

theorem matched_nil : Matched ([] : List (Press α)) := by
  intro newer older a heq
  cases newer <;> cases heq

@[simp] theorem matched_down : Matched (.down b :: log) ↔ Matched log := by
  constructor
  · intro h newer older a heq
    exact h (.down b :: newer) older a (by rw [heq]; rfl)
  · intro h newer older a heq
    cases newer with
    | nil => cases heq
    | cons e newer => exact h newer older a (List.cons.inj heq).2

@[simp] theorem matched_up : Matched (.up b :: log) ↔ IsDown b log ∧ Matched log := by
  constructor
  · intro h
    refine ⟨h [] log b rfl, fun newer older a heq => ?_⟩
    exact h (.up b :: newer) older a (by rw [heq]; rfl)
  · rintro ⟨hdown, h⟩ newer older a heq
    cases newer with
    | nil =>
      cases heq
      exact hdown
    | cons e newer => exact h newer older a (List.cons.inj heq).2

theorem isDown_iff :
    IsDown a log ↔ ∃ newer older, log = newer ++ .down a :: older ∧ .up a ∉ newer := by
  induction log with
  | nil => simp
  | cons e log ih =>
    cases e with
    | down b =>
      rw [isDown_down, ih]
      constructor
      · rintro (rfl | ⟨newer, older, rfl, hnot⟩)
        · exact ⟨[], log, rfl, by simp⟩
        · exact ⟨.down b :: newer, older, rfl, by simpa using hnot⟩
      · rintro ⟨newer, older, heq, hnot⟩
        cases newer with
        | nil => exact Or.inl (by simpa using (List.cons.inj heq).1)
        | cons e newer =>
          obtain ⟨rfl, rfl⟩ := List.cons.inj heq
          exact Or.inr ⟨newer, older, rfl, by simpa using hnot⟩
    | up b =>
      rw [isDown_up, ih]
      constructor
      · rintro ⟨hne, newer, older, rfl, hnot⟩
        exact ⟨.up b :: newer, older, rfl, by simp [Ne.symm hne, hnot]⟩
      · rintro ⟨newer, older, heq, hnot⟩
        cases newer with
        | nil => simp at heq
        | cons e newer =>
          obtain ⟨rfl, rfl⟩ := List.cons.inj heq
          simp only [List.mem_cons, Press.up.injEq, not_or] at hnot
          exact ⟨Ne.symm hnot.1, newer, older, rfl, hnot.2⟩

theorem IsDown.mem (h : IsDown a log) : .down a ∈ log := by
  obtain ⟨newer, older, rfl, _⟩ := isDown_iff.mp h
  simp

/-- Everything is settled exactly if nothing is down. -/
theorem settled_iff : Settled log ↔ ∀ a, ¬ IsDown a log := by
  constructor
  · intro h a hdown
    obtain ⟨newer, older, heq, hnot⟩ := isDown_iff.mp hdown
    exact hnot (h newer older a heq)
  · intro h newer older a heq
    by_contra hnot
    exact h a (isDown_iff.mpr ⟨newer, older, heq, hnot⟩)

instance IsDown.decidable [DecidableEq α] (a : α) : ∀ log : List (Press α), Decidable (IsDown a log)
  | [] => isFalse id
  | .down b :: log =>
    have := IsDown.decidable a log
    inferInstanceAs (Decidable (b = a ∨ IsDown a log))
  | .up b :: log =>
    have := IsDown.decidable a log
    inferInstanceAs (Decidable (b ≠ a ∧ IsDown a log))

/-- What has been pressed. -/
def pressed (log : List (Press α)) : List α :=
  log.filterMap fun
    | .down a => some a
    | .up _ => none

/-- Something with the property is down. -/
instance [DecidableEq α] (p : α → Prop) [DecidablePred p] (log : List (Press α)) :
    Decidable (∃ a, p a ∧ IsDown a log) :=
  decidable_of_iff (∃ a ∈ pressed log, p a ∧ IsDown a log) <| by
    constructor
    · rintro ⟨a, _, h⟩
      exact ⟨a, h⟩
    · rintro ⟨a, hp, hdown⟩
      exact ⟨a, List.mem_filterMap.mpr ⟨.down a, hdown.mem, rfl⟩, hp, hdown⟩

end Press

end Gamer.Lib
