import Mathlib.Data.List.Infix

/-! Where a text first occurs in another, and where it cannot:

        find m s = some p     m stands at p, and at no place before
        s = a ++ c :: b       a text without c stands in a or in b, or not at all -/

namespace Gamer.Lib.Search
variable {α : Type}

/-- An element that the text does not have cuts it off. -/
theorem infix_split {m a b : List α} {c : α} (hc : c ∉ m) (h : m <:+: a ++ c :: b) :
    m <:+: a ∨ m <:+: b := by
  obtain ⟨x, y, hxy⟩ := h
  rw [List.append_assoc] at hxy
  rcases List.append_eq_append_iff.mp hxy with ⟨t, ha, hrest⟩ | ⟨t, hx, hrest⟩
  · -- The text starts in `a`, so it ends there.
    rcases List.append_eq_append_iff.mp hrest with ⟨u, rfl, -⟩ | ⟨u, rfl, hu⟩
    · exact .inl ⟨x, u, by rw [ha, List.append_assoc]⟩
    · cases u with
      | nil => exact .inl ⟨x, [], by rw [ha]; simp⟩
      | cons d u =>
        obtain ⟨rfl, -⟩ := List.cons.inj hu
        exact absurd (by simp) hc
  · cases t with
    | nil =>
      cases m with
      | nil => exact .inl (List.nil_infix)
      | cons d m =>
        obtain ⟨rfl, -⟩ := List.cons.inj hrest
        exact absurd List.mem_cons_self hc
    | cons d t =>
      obtain ⟨rfl, rfl⟩ := List.cons.inj hrest
      exact .inr ⟨t, y, by rw [List.append_assoc]; rfl⟩

/-- A text ends where its last element can still stand. -/
theorem infix_of_append {m a b : List α} {d : α} (hd : d ∉ b) (h : m ++ [d] <:+: a ++ b) :
    m ++ [d] <:+: a := by
  obtain ⟨x, y, hxy⟩ := h
  rcases List.append_eq_append_iff.mp hxy with ⟨t, rfl, -⟩ | ⟨t, ha, hb⟩
  · exact ⟨x, t, rfl⟩
  · rcases List.eq_nil_or_concat t with rfl | ⟨t, e, rfl⟩
    · exact ⟨x, [], by rw [List.append_nil, ha, List.append_nil]⟩
    · have hde : d = e := by
        have hlast := congrArg List.getLast? ha
        simpa using hlast
      exact absurd (by simp [hb, hde]) hd

variable [DecidableEq α]

/-- How many elements stand before the first occurrence. -/
def find (m : List α) : List α → Option Nat
  | [] => if m = [] then some 0 else none
  | c :: s => if m.isPrefixOf (c :: s) then some 0 else (find m s).map (· + 1)

/-- The first of the occurrences of several texts. -/
def findFirst (ms : List (List α)) (s : List α) : Option Nat :=
  (ms.filterMap fun m => find m s).min?

/-- What occurs behind `a` is found there or earlier. -/
theorem find_append_le (m a b : List α) : ∃ p, find m (a ++ m ++ b) = some p ∧ p ≤ a.length := by
  induction a with
  | nil =>
    refine ⟨0, ?_, Nat.le_refl 0⟩
    cases hs : m ++ b with
    | nil => simp [find, List.append_eq_nil_iff.mp hs]
    | cons c s =>
      have hpre : m.isPrefixOf (c :: s) = true := by
        rw [List.isPrefixOf_iff_prefix, ← hs]
        exact List.prefix_append m b
      rw [List.nil_append, hs, find, if_pos hpre]
  | cons c a ih =>
    obtain ⟨p, hp, hle⟩ := ih
    by_cases hpre : m.isPrefixOf (c :: (a ++ m ++ b)) = true
    · exact ⟨0, by rw [List.cons_append, List.cons_append, find, if_pos hpre], Nat.zero_le _⟩
    · refine ⟨p + 1, ?_, Nat.succ_le_succ hle⟩
      rw [List.cons_append, List.cons_append, find, if_neg hpre, hp]
      rfl

/-- What is found is there. -/
theorem infix_of_find {m s : List α} {p : Nat} (h : find m s = some p) : m <:+: s := by
  induction s generalizing p with
  | nil =>
    unfold find at h
    split at h
    · next hnil => exact hnil ▸ List.infix_refl _
    · cases h
  | cons c s ih =>
    unfold find at h
    split at h
    · next hpre => exact (List.isPrefixOf_iff_prefix.mp hpre).isInfix
    · obtain ⟨q, hq, -⟩ := Option.map_eq_some_iff.mp h
      exact (ih hq).trans (List.infix_cons_iff.mpr (.inr (List.infix_refl s)))

/-- Before the first occurrence there is none, and where none is found there is none at all. -/
theorem not_infix_before {ms : List (List α)} (hne : ∀ m ∈ ms, m ≠ []) {s : List α} {i : Nat}
    (h : findFirst ms s = some i) : ∀ m ∈ ms, ¬ m <:+: s.take i := by
  intro m hm hinside
  obtain ⟨a, b, hab⟩ := hinside
  obtain ⟨p, hp, hle⟩ := find_append_le m a (b ++ s.drop i)
  have hs : a ++ m ++ (b ++ s.drop i) = s := by
    rw [← List.append_assoc, hab, List.take_append_drop]
  rw [hs] at hp
  have hmin := (List.min?_eq_some_iff.mp h).2 p (List.mem_filterMap.mpr ⟨m, hm, hp⟩)
  have hlen := congrArg List.length hab
  rw [List.length_append, List.length_append, List.length_take] at hlen
  have hpos := List.length_pos_iff.mpr (hne m hm)
  omega

theorem findFirst_eq_none_iff {ms : List (List α)} {s : List α} :
    findFirst ms s = none ↔ ∀ m ∈ ms, ¬ m <:+: s := by
  rw [findFirst, List.min?_eq_none_iff, List.filterMap_eq_nil_iff]
  refine forall₂_congr fun m _ => ⟨fun hnone hinside => ?_, fun hnot => ?_⟩
  · obtain ⟨a, b, rfl⟩ := hinside
    obtain ⟨p, hp, -⟩ := find_append_le m a b
    rw [hnone] at hp
    cases hp
  · cases hp : find m s with
    | none => rfl
    | some p => exact absurd (infix_of_find hp) hnot

end Gamer.Lib.Search
