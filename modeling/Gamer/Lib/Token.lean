import Mathlib.Data.List.Basic

/-! A token that at most one of the tasks of a list has. The tasks keep their places; `view` says
    what a task has of the token, `owner` who has it:

        view   none      none     some r    none
        tasks  t₀        t₁       t₂        t₃          owner = some (2, r)

    A lock is the token whose content is nothing. -/

namespace Gamer.Lib

namespace Token
variable {τ ρ : Type} {view : τ → Option ρ} {owner : Option (Nat × ρ)} {tasks : List τ} {k : Nat}
  {t t' : τ} {r r' : ρ}

/-- Exactly the owner has the token. -/
def Owned (view : τ → Option ρ) (owner : Option (Nat × ρ)) (tasks : List τ) : Prop :=
  ∀ k r, owner = some (k, r) ↔ ∃ t, tasks[k]? = some t ∧ view t = some r

/-- A place of the list after one task has changed. -/
theorem getElem?_set_eq_some (hk : tasks[k]? = some t) {j : Nat} {x : τ} :
    (tasks.set k t')[j]? = some x ↔ (j = k ∧ x = t') ∨ (j ≠ k ∧ tasks[j]? = some x) := by
  have hlt : k < tasks.length := (List.getElem?_eq_some_iff.mp hk).1
  by_cases hj : j = k
  · subst hj
    rw [List.getElem?_set_self hlt]
    simp [eq_comm]
  · rw [List.getElem?_set_ne (Ne.symm hj)]
    simp [hj]

/-- A place of the list after a task has come. -/
theorem getElem?_push_eq_some {j : Nat} {x : τ} :
    (tasks ++ [t])[j]? = some x ↔ tasks[j]? = some x ∨ (j = tasks.length ∧ x = t) := by
  rcases Nat.lt_trichotomy j tasks.length with hlt | rfl | hgt
  · simp [List.getElem?_append_left hlt, Nat.ne_of_lt hlt]
  · simp [eq_comm]
  · have hnone : tasks[j]? = none := List.getElem?_eq_none (by omega)
    have hnone' : (tasks ++ [t])[j]? = none := List.getElem?_eq_none (by simp; omega)
    simp [hnone, hnone', Nat.ne_of_gt hgt]

theorem Owned.nil : Owned view none ([] : List τ) := by simp [Owned]

/-- The tasks determine who has the token. -/
theorem Owned.eq {owner' : Option (Nat × ρ)} (h : Owned view owner tasks)
    (h' : Owned view owner' tasks) : owner = owner' := by
  cases owner with
  | some x => exact ((h' x.1 x.2).mpr ((h x.1 x.2).mp rfl)).symm
  | none =>
    cases owner' with
    | none => rfl
    | some x => exact (h x.1 x.2).mpr ((h' x.1 x.2).mp rfl)

theorem Owned.unique (h : Owned view owner tasks) {j : Nat} {t' : τ} (hj : tasks[j]? = some t)
    (hr : view t = some r) (hk : tasks[k]? = some t') (hr' : view t' = some r') : j = k := by
  have hown := (h j r).mpr ⟨t, hj, hr⟩
  rw [(h k r').mpr ⟨t', hk, hr'⟩] at hown
  exact (Prod.mk.inj (Option.some.inj hown)).1.symm

theorem Owned.free (h : Owned view none tasks) (hk : tasks[k]? = some t) : view t = none := by
  cases hr : view t with
  | none => rfl
  | some r => cases (h k r).mpr ⟨t, hk, hr⟩

/-- FRAME: a task that comes without the token. -/
theorem Owned.push (h : Owned view owner tasks) (ht : view t = none) :
    Owned view owner (tasks ++ [t]) := by
  intro j r
  rw [h j r]
  constructor
  · rintro ⟨x, hx, hr⟩
    exact ⟨x, getElem?_push_eq_some.mpr (Or.inl hx), hr⟩
  · rintro ⟨x, hx, hr⟩
    rcases getElem?_push_eq_some.mp hx with hx | ⟨_, rfl⟩
    · exact ⟨x, hx, hr⟩
    · rw [ht] at hr
      cases hr

/-- FRAME: a task that goes on with what it has of the token. -/
theorem Owned.keep (h : Owned view owner tasks) (hk : tasks[k]? = some t)
    (hsame : view t' = view t) : Owned view owner (tasks.set k t') := by
  intro j r
  rw [h j r]
  constructor
  · rintro ⟨x, hx, hr⟩
    by_cases hj : j = k
    · subst hj
      obtain rfl : t = x := Option.some.inj (hk.symm.trans hx)
      exact ⟨t', (getElem?_set_eq_some hk).mpr (Or.inl ⟨rfl, rfl⟩), hsame.trans hr⟩
    · exact ⟨x, (getElem?_set_eq_some hk).mpr (Or.inr ⟨hj, hx⟩), hr⟩
  · rintro ⟨x, hx, hr⟩
    rcases (getElem?_set_eq_some hk).mp hx with ⟨rfl, rfl⟩ | ⟨_, hx⟩
    · exact ⟨t, hk, hsame.symm.trans hr⟩
    · exact ⟨x, hx, hr⟩

/-- FRAME: a change of every task that no task's hold on the token shows. -/
theorem Owned.map (h : Owned view owner tasks) {f : τ → τ} (hsame : ∀ t, view (f t) = view t) :
    Owned view owner (tasks.map f) := by
  intro j r
  rw [h j r]
  constructor
  · rintro ⟨t, ht, hr⟩
    exact ⟨f t, by rw [List.getElem?_map, ht]; rfl, by rw [hsame, hr]⟩
  · rintro ⟨t, ht, hr⟩
    rw [List.getElem?_map] at ht
    obtain ⟨t₀, ht₀, rfl⟩ := Option.map_eq_some_iff.mp ht
    exact ⟨t₀, ht₀, by rw [← hsame, hr]⟩

/-- A task takes the free token. -/
theorem Owned.take (h : Owned view none tasks) (hk : tasks[k]? = some t) (hr : view t' = some r) :
    Owned view (some (k, r)) (tasks.set k t') := by
  intro j r₁
  constructor
  · intro heq
    cases heq
    exact ⟨t', (getElem?_set_eq_some hk).mpr (Or.inl ⟨rfl, rfl⟩), hr⟩
  · rintro ⟨x, hx, hr₁⟩
    rcases (getElem?_set_eq_some hk).mp hx with ⟨rfl, rfl⟩ | ⟨_, hx⟩
    · rw [hr] at hr₁
      cases hr₁
      rfl
    · rw [h.free hx] at hr₁
      cases hr₁

/-- The owner gives the token back. -/
theorem Owned.give (h : Owned view owner tasks) (hk : tasks[k]? = some t) (hr : view t = some r)
    (hgone : view t' = .none) : Owned view .none (tasks.set k t') := by
  intro j r₁
  constructor
  · intro heq
    cases heq
  · rintro ⟨x, hx, hr₁⟩
    rcases (getElem?_set_eq_some hk).mp hx with ⟨rfl, rfl⟩ | ⟨hne, hx⟩
    · rw [hgone] at hr₁
      cases hr₁
    · exact absurd (h.unique hx hr₁ hk hr) hne

/-- The owner goes on with another content of the token. -/
theorem Owned.change (h : Owned view owner tasks) (hk : tasks[k]? = some t) (hr : view t = some r)
    (hr' : view t' = some r') : Owned view (some (k, r')) (tasks.set k t') := by
  intro j r₁
  constructor
  · intro heq
    cases heq
    exact ⟨t', (getElem?_set_eq_some hk).mpr (Or.inl ⟨rfl, rfl⟩), hr'⟩
  · rintro ⟨x, hx, hr₁⟩
    rcases (getElem?_set_eq_some hk).mp hx with ⟨rfl, rfl⟩ | ⟨hne, hx⟩
    · rw [hr'] at hr₁
      cases hr₁
      rfl
    · exact absurd (h.unique hx hr₁ hk hr) hne

end Token

end Gamer.Lib
