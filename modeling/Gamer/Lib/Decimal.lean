import Mathlib.Data.Nat.Digits.Lemmas

/-! Numbers printed in decimal with leading zeros: `format!("{n:09}")` is `padded 9 n`. The width is
    a lower bound only, and the number can be read back from the text whatever the width. -/

namespace Gamer.Lib

def padded (width n : Nat) : String :=
  let digits := (Nat.digits 10 n).reverse.map Nat.digitChar
  String.ofList (List.replicate (width - digits.length) '0' ++ digits)

/-- The digit a character stands for. -/
def digitOf (c : Char) : Nat := c.toNat - '0'.toNat

theorem digitOf_digitChar {d : Nat} (h : d < 10) : digitOf d.digitChar = d := by
  interval_cases d <;> rfl

theorem map_digitOf {digits : List Nat} (h : ∀ d ∈ digits, d < 10) :
    (digits.map Nat.digitChar).map digitOf = digits := by
  rw [List.map_map, List.map_congr_left (g := id), List.map_id]
  intro d hd
  exact digitOf_digitChar (h d hd)

/-- The number read back from its text. -/
theorem ofDigits_padded (width n : Nat) :
    Nat.ofDigits 10 ((padded width n).toList.map digitOf).reverse = n := by
  have hdigits : ∀ d ∈ (Nat.digits 10 n).reverse, d < 10 := fun d hd =>
    Nat.digits_lt_base (by omega) (List.mem_reverse.mp hd)
  simp only [padded, String.toList_ofList, List.map_append, map_digitOf hdigits,
    List.map_replicate, List.reverse_append, List.reverse_reverse, List.reverse_replicate]
  rw [show digitOf '0' = 0 from rfl, Nat.ofDigits_append_replicate_zero, Nat.ofDigits_digits]

theorem padded_injective (width : Nat) : Function.Injective (padded width) := by
  intro n m h
  rw [← ofDigits_padded width n, h, ofDigits_padded]

end Gamer.Lib
