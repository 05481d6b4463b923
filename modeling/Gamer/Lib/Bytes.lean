import Mathlib.Data.List.Basic
import Mathlib.Algebra.Order.Ring.Nat
import Mathlib.Tactic.Ring

/-! Byte strings: big-endian numbers, and readers that take an item off the front and hand back the
    rest. What an encoder writes is read back whatever follows it:

        read (enc a ++ rest) = some (a, rest)                                               -/

namespace Gamer.Lib

abbrev Bytes := List UInt8

namespace Bytes

/-- `n` bytes of a number, the most significant first. What does not fit is cut off. -/
def be : Nat → Nat → Bytes
  | 0, _ => []
  | n + 1, v => UInt8.ofNat (v / 256 ^ n) :: be n v

def readBe : Nat → Bytes → Option (Nat × Bytes)
  | 0, bytes => some (0, bytes)
  | _ + 1, [] => none
  | n + 1, b :: bytes =>
    match readBe n bytes with
    | some (v, rest) => some (b.toNat * 256 ^ n + v, rest)
    | none => none

/-- The characters of a name as bytes. -/
def ascii (s : String) : Bytes := s.toList.map fun c => UInt8.ofNat c.toNat

@[simp] theorem be_length (n v : Nat) : (be n v).length = n := by
  induction n with
  | zero => rfl
  | succ n ih => rw [be, List.length_cons, ih]

theorem readBe_be_mod (n v : Nat) (rest : Bytes) :
    readBe n (be n v ++ rest) = some (v % 256 ^ n, rest) := by
  induction n with
  | zero => simp [readBe, be, Nat.mod_one]
  | succ n ih =>
    have hsplit : v % 256 ^ (n + 1) = v / 256 ^ n % 256 * 256 ^ n + v % 256 ^ n := by
      rw [pow_succ, Nat.mod_mul]
      ring
    simp [readBe, be, ih, hsplit]

@[simp] theorem be_byte (b : UInt8) : be 1 b.toNat = [b] := by
  rw [be, be, pow_zero, Nat.div_one, UInt8.ofNat_toNat]

/-- What does not fit does not show. -/
theorem be_mod {n m : Nat} (h : n ≤ m) (v : Nat) : be n (v % 256 ^ m) = be n v := by
  induction n with
  | zero => rfl
  | succ n ih =>
    obtain ⟨k, rfl⟩ : ∃ k, m = n + (k + 1) := ⟨m - n - 1, by omega⟩
    have hdvd : 256 ∣ 256 ^ (k + 1) := Dvd.intro_left _ rfl
    have hhead : UInt8.ofNat (v % 256 ^ (n + (k + 1)) / 256 ^ n) = UInt8.ofNat (v / 256 ^ n) := by
      apply UInt8.toNat.inj
      rw [UInt8.toNat_ofNat', UInt8.toNat_ofNat', pow_add, Nat.mod_mul_right_div_self]
      exact Nat.mod_mod_of_dvd _ hdvd
    rw [be, be, hhead, ih (by omega)]

/-- NUMBER RULE: a number that fits is read back. -/
theorem readBe_be {n v : Nat} (h : v < 256 ^ n) (rest : Bytes) :
    readBe n (be n v ++ rest) = some (v, rest) := by
  rw [readBe_be_mod, Nat.mod_eq_of_lt h]

/-- The low bytes of a number. -/
theorem drop_be {n w : Nat} (h : w ≤ n) (v : Nat) : (be n v).drop (n - w) = be w v := by
  induction n with
  | zero =>
    obtain rfl : w = 0 := by omega
    rfl
  | succ n ih =>
    rcases Nat.lt_or_ge n w with hlt | hle
    · obtain rfl : w = n + 1 := by omega
      rw [Nat.sub_self, List.drop_zero]
    · rw [Nat.succ_sub hle, be, List.drop_succ_cons, ih hle]

/-- A number without the zeros in front. -/
theorem dropWhile_be {n w v : Nat} (hw : w + 1 ≤ n) (hlow : 256 ^ w ≤ v)
    (hhigh : v < 256 ^ (w + 1)) : (be n v).dropWhile (fun b => b = 0) = be (w + 1) v := by
  induction n with
  | zero => omega
  | succ n ih =>
    rcases Nat.lt_or_ge w n with hlt | hle
    · have hle : 256 ^ (w + 1) ≤ 256 ^ n := Nat.pow_le_pow_right (by omega) hlt
      have hzero : v / 256 ^ n = 0 := Nat.div_eq_of_lt (by omega)
      rw [be, hzero, List.dropWhile_cons_of_pos (by simp), ih hlt]
    · obtain rfl : n = w := by omega
      have hpos : 0 < v / 256 ^ n := Nat.div_pos hlow (Nat.pow_pos (by omega))
      have hlt : v / 256 ^ n < 256 := by
        rw [Nat.div_lt_iff_lt_mul (Nat.pow_pos (by omega)), mul_comm, ← pow_succ]
        exact hhigh
      have hne : UInt8.ofNat (v / 256 ^ n) ≠ 0 := by
        intro h
        have hbyte := congrArg UInt8.toNat h
        rw [UInt8.toNat_ofNat', Nat.mod_eq_of_lt hlt] at hbyte
        simp at hbyte
        omega
      rw [be, List.dropWhile_cons_of_neg (by simpa using hne)]

/-! ### Items one after the other -/

section Items
variable {α : Type} {enc : α → Bytes} (read : Bytes → Option (α × Bytes))

/-- `n` items. -/
def readMany : Nat → Bytes → Option (List α × Bytes)
  | 0, bytes => some ([], bytes)
  | n + 1, bytes =>
    match read bytes with
    | none => none
    | some (a, bytes) =>
      match readMany n bytes with
      | some (l, rest) => some (a :: l, rest)
      | none => none

/-- Items until the bytes are used up, at most `fuel` of them. -/
def readUpTo : Nat → Bytes → Option (List α)
  | _, [] => some []
  | 0, _ :: _ => none
  | fuel + 1, b :: bytes =>
    match read (b :: bytes) with
    | none => none
    | some (a, rest) => (readUpTo fuel rest).map (a :: ·)

/-- Items until the bytes are used up. An item takes at least one byte. -/
def readAll (bytes : Bytes) : Option (List α) := readUpTo read bytes.length bytes

variable {read}

/-- LIST RULE: a list of a known length is read back. -/
theorem readMany_flatMap : ∀ (l : List α), (∀ a ∈ l, ∀ rest, read (enc a ++ rest) = some (a, rest)) →
    ∀ rest, readMany read l.length (l.flatMap enc ++ rest) = some (l, rest)
  | [], _, _ => rfl
  | a :: l, h, rest => by
    rw [List.flatMap_cons, List.append_assoc, List.length_cons, readMany, h a List.mem_cons_self]
    dsimp only
    rw [readMany_flatMap l (fun b hb => h b (List.mem_cons_of_mem _ hb)) rest]

theorem readUpTo_flatMap : ∀ (l : List α) (fuel : Nat),
    (∀ a ∈ l, enc a ≠ [] ∧ ∀ rest, read (enc a ++ rest) = some (a, rest)) → l.length ≤ fuel →
    readUpTo read fuel (l.flatMap enc) = some l
  | [], fuel, _, _ => by cases fuel <;> rfl
  | a :: l, fuel, h, hfuel => by
    obtain ⟨hne, hread⟩ := h a List.mem_cons_self
    obtain ⟨fuel, rfl⟩ : ∃ n, fuel = n + 1 := ⟨fuel - 1, by rw [List.length_cons] at hfuel; omega⟩
    obtain ⟨b, bytes, hb⟩ := List.exists_cons_of_ne_nil hne
    have hrest := readUpTo_flatMap l fuel (fun c hc => h c (List.mem_cons_of_mem _ hc))
      (by simpa using hfuel)
    have hfirst : read (b :: (bytes ++ l.flatMap enc)) = some (a, l.flatMap enc) := by
      rw [← List.cons_append, ← hb]
      exact hread _
    rw [List.flatMap_cons, hb, List.cons_append, readUpTo, hfirst]
    dsimp only
    rw [hrest]
    rfl

theorem length_le_flatMap (l : List α) (h : ∀ a ∈ l, enc a ≠ []) :
    l.length ≤ (l.flatMap enc).length := by
  induction l with
  | nil => exact Nat.zero_le _
  | cons a l ih =>
    have hfirst := List.length_pos_iff.mpr (h a List.mem_cons_self)
    have hrest := ih fun b hb => h b (List.mem_cons_of_mem _ hb)
    rw [List.flatMap_cons, List.length_append, List.length_cons]
    omega

/-- LIST RULE: a list that ends with the bytes is read back. -/
theorem readAll_flatMap {l : List α}
    (h : ∀ a ∈ l, enc a ≠ [] ∧ ∀ rest, read (enc a ++ rest) = some (a, rest)) :
    readAll read (l.flatMap enc) = some l :=
  readUpTo_flatMap l _ h (length_le_flatMap l fun a ha => (h a ha).1)

end Items

/-! ### Cutting -/

/-- Pieces of the given sizes. -/
def cut : List Nat → Bytes → Option (List Bytes)
  | [], _ => some []
  | n :: sizes, bytes =>
    if n ≤ bytes.length then (cut sizes (bytes.drop n)).map (bytes.take n :: ·) else none

/-- CUT RULE: pieces put one behind the other are cut apart by their lengths. -/
theorem cut_flatten (pieces : List Bytes) (rest : Bytes) :
    cut (pieces.map List.length) (pieces.flatten ++ rest) = some pieces := by
  induction pieces with
  | nil => rfl
  | cons p pieces ih =>
    have hlen : p.length ≤ (p ++ (pieces.flatten ++ rest)).length := by
      rw [List.length_append]
      omega
    rw [List.map_cons, List.flatten_cons, List.append_assoc, cut, if_pos hlen, List.drop_left, ih,
      List.take_left]
    rfl

/-- An item behind its length in four bytes. -/
def prefixed (bytes : Bytes) : Bytes := be 4 bytes.length ++ bytes

def readPrefixed (bytes : Bytes) : Option (Bytes × Bytes) :=
  match readBe 4 bytes with
  | none => none
  | some (n, rest) => if n ≤ rest.length then some (rest.take n, rest.drop n) else none

theorem readPrefixed_prefixed {bytes : Bytes} (h : bytes.length < 256 ^ 4) (rest : Bytes) :
    readPrefixed (prefixed bytes ++ rest) = some (bytes, rest) := by
  have hlen : bytes.length ≤ (bytes ++ rest).length := by
    rw [List.length_append]
    omega
  rw [readPrefixed, prefixed, List.append_assoc, readBe_be h]
  dsimp only
  rw [if_pos hlen, List.take_left, List.drop_left]

end Bytes

end Gamer.Lib
