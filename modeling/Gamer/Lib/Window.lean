import Mathlib.Data.List.Basic

/-! Bounded archives. A log grows at its end; an archive keeps its most recent entries, of which
    some may be removed by hand, and drops the oldest entry when it is full. `Window` says how
    much of the log such an archive is sure to hold: no dead entry, and every live one of the last
    `cap`. -/

namespace Gamer.Lib

/-- `kept` is the archive of `log`, where `alive` tells the entries not removed by hand. -/
structure Window {α : Type} (cap : Nat) (alive : α → Bool) (log kept : List α) : Prop where
  suffix : kept <:+ log.filter alive
  recent : (log.drop (log.length - cap)).filter alive <:+ kept

namespace Window
variable {α : Type} {cap : Nat} {alive alive' : α → Bool} {log kept : List α}

/-- Append to an archive of at most `cap` entries. -/
def push (cap : Nat) (kept : List α) (x : α) : List α :=
  (if cap ≤ kept.length then kept.tail else kept) ++ [x]

theorem nil : Window cap alive ([] : List α) [] :=
  ⟨List.suffix_rfl, by rw [List.drop_nil]; exact List.suffix_rfl⟩

/-- PUSH: a live entry at the end of the log goes to the end of the archive. -/
theorem concat (h : Window cap alive log kept) (hcap : 0 < cap) {x : α} (hx : alive x = true) :
    Window cap alive (log ++ [x]) (push cap kept x) := by
  have hfilter : ∀ l : List α, (l ++ [x]).filter alive = l.filter alive ++ [x] := by
    intro l
    simp [List.filter_append, hx]
  have hkeep : (if cap ≤ kept.length then kept.tail else kept) <:+ log.filter alive := by
    split
    · exact (List.tail_suffix kept).trans h.suffix
    · exact h.suffix
  have hdrop : (log ++ [x]).drop ((log ++ [x]).length - cap) =
      log.drop (log.length + 1 - cap) ++ [x] := by
    rw [List.length_append, List.length_singleton, List.drop_append_of_le_length (by omega)]
  have hrecent : (log.drop (log.length + 1 - cap)).filter alive <:+
      if cap ≤ kept.length then kept.tail else kept := by
    split
    · next hfull =>
      -- fewer than `cap` entries of the log are left, and the archive keeps as many
      have hleft : ((log.drop (log.length + 1 - cap)).filter alive).length ≤ kept.tail.length := by
        calc ((log.drop (log.length + 1 - cap)).filter alive).length
            ≤ (log.drop (log.length + 1 - cap)).length := List.length_filter_le _ _
          _ ≤ cap - 1 := by rw [List.length_drop]; omega
          _ ≤ kept.tail.length := by rw [List.length_tail]; omega
      have hsub : (log.drop (log.length + 1 - cap)).filter alive <:+ log.filter alive :=
        (List.drop_suffix _ _).filter _
      exact List.suffix_of_suffix_length_le hsub ((List.tail_suffix kept).trans h.suffix) hleft
    · have hmore : log.drop (log.length + 1 - cap) <:+ log.drop (log.length - cap) :=
        List.drop_suffix_drop_left log (by omega)
      exact (hmore.filter alive).trans h.recent
  refine ⟨?_, ?_⟩
  · rw [hfilter]
    exact List.suffix_append_self_iff.mpr hkeep
  · rw [hdrop, hfilter]
    exact List.suffix_append_self_iff.mpr hrecent

/-- REMOVE: entries taken out of the archive are dead from now on. -/
theorem remove (h : Window cap alive log kept) (p : α → Bool)
    (halive : ∀ x ∈ log, alive' x = (alive x && p x)) :
    Window cap alive' log (kept.filter p) := by
  have hfilter : ∀ l : List α, l ⊆ log → l.filter alive' = (l.filter alive).filter p := by
    intro l hl
    rw [List.filter_filter]
    exact List.filter_congr fun x hx => by rw [halive x (hl hx), Bool.and_comm]
  refine ⟨?_, ?_⟩
  · rw [hfilter log (List.Subset.refl log)]
    exact h.suffix.filter p
  · rw [hfilter _ (List.drop_subset _ _)]
    exact h.recent.filter p

/-- RECENT: a live entry that fewer than `cap` others follow is in the archive. -/
theorem mem_of_recent (h : Window cap alive log kept) {before after : List α} {x : α}
    (hlog : log = before ++ x :: after) (hafter : after.length < cap) (hx : alive x = true) :
    x ∈ kept := by
  have hsuffix : x :: after <:+ log.drop (log.length - cap) := by
    refine List.suffix_of_suffix_length_le ⟨before, hlog.symm⟩ (List.drop_suffix _ _) ?_
    have hlen : log.length = before.length + (after.length + 1) := by rw [hlog]; simp
    rw [List.length_cons, List.length_drop]
    omega
  have hmem : x ∈ (log.drop (log.length - cap)).filter alive :=
    List.mem_filter.mpr ⟨hsuffix.subset List.mem_cons_self, hx⟩
  exact h.recent.subset hmem

/-- An entry of the archive is a live entry of the log. -/
theorem mem_log (h : Window cap alive log kept) {x : α} (hx : x ∈ kept) :
    x ∈ log ∧ alive x = true :=
  List.mem_filter.mp (h.suffix.subset hx)

end Window

end Gamer.Lib
