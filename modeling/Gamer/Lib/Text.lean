import Mathlib.Algebra.GroupWithZero.Nat
import Mathlib.Data.List.Basic
import Mathlib.Data.List.Infix

/-! Texts as lists of characters with their size in UTF-8: what a lossy decoder makes of arbitrary
    bytes, slices that start at a byte, which exist only where a character starts, and texts whose
    bytes are cut at a length.

      [0xE4 0xBD]      ──▶ one U+FFFD for the whole start of a character
      [0x61 0xFF 0x62] ──▶ 'a' U+FFFD 'b' -/

namespace Gamer.Lib

/-- The bytes of a text. -/
def textSize (text : List Char) : Nat := (text.map Char.utf8Size).sum

@[simp] theorem textSize_nil : textSize [] = 0 := rfl

@[simp] theorem textSize_cons (c : Char) (text : List Char) :
    textSize (c :: text) = c.utf8Size + textSize text := rfl

theorem textSize_append (text more : List Char) :
    textSize (text ++ more) = textSize text + textSize more := by
  rw [textSize, List.map_append, List.sum_append]
  rfl

/-! ### Slices -/

/-- `&text[start..]`: `none` where the slice would start inside a character or past the end. -/
def sliceFrom : List Char → Nat → Option (List Char)
  | text, 0 => some text
  | [], _ + 1 => none
  | c :: text, start + 1 =>
    if c.utf8Size ≤ start + 1 then sliceFrom text (start + 1 - c.utf8Size) else none

/-- A slice is what follows the bytes before its start. -/
theorem sliceFrom_eq_some {text tail : List Char} {start : Nat} :
    sliceFrom text start = some tail ↔
      ∃ front, text = front ++ tail ∧ textSize front = start := by
  induction text generalizing start with
  | nil =>
    cases start with
    | zero => simp [sliceFrom, eq_comm]
    | succ start => simp [sliceFrom]
  | cons c text ih =>
    have hc : 0 < c.utf8Size := Char.utf8Size_pos c
    cases start with
    | zero =>
      rw [sliceFrom, Option.some_inj]
      constructor
      · rintro rfl
        exact ⟨[], rfl, rfl⟩
      · rintro ⟨front, htext, hsize⟩
        cases front with
        | nil => exact htext
        | cons d front =>
          rw [textSize_cons] at hsize
          have hd : 0 < d.utf8Size := Char.utf8Size_pos d
          omega
    | succ start =>
      rw [sliceFrom]
      split
      · rename_i hle
        rw [ih]
        constructor
        · rintro ⟨front, rfl, hsize⟩
          refine ⟨c :: front, rfl, ?_⟩
          rw [textSize_cons]
          omega
        · rintro ⟨front, htext, hsize⟩
          cases front with
          | nil => cases hsize
          | cons d front =>
            obtain ⟨rfl, rfl⟩ := List.cons.inj htext
            rw [textSize_cons] at hsize
            exact ⟨front, rfl, by omega⟩
      · rename_i hgt
        constructor
        · intro h
          cases h
        · rintro ⟨front, htext, hsize⟩
          cases front with
          | nil => cases hsize
          | cons d front =>
            obtain ⟨rfl, rfl⟩ := List.cons.inj htext
            rw [textSize_cons] at hsize
            omega

/-- The last `size` bytes cannot be sliced off exactly if no character starts there. -/
theorem sliceFrom_eq_none {text : List Char} {size : Nat} (hsize : size ≤ textSize text) :
    sliceFrom text (textSize text - size) = none ↔
      ∀ tail, tail <:+ text → textSize tail ≠ size := by
  constructor
  · rintro hnone tail ⟨front, rfl⟩ htail
    have hsome : sliceFrom (front ++ tail) (textSize (front ++ tail) - size) = some tail := by
      refine sliceFrom_eq_some.mpr ⟨front, rfl, ?_⟩
      rw [textSize_append]
      omega
    rw [hnone] at hsome
    cases hsome
  · intro hall
    cases hslice : sliceFrom text (textSize text - size) with
    | none => rfl
    | some tail =>
      obtain ⟨front, rfl, hfront⟩ := sliceFrom_eq_some.mp hslice
      rw [textSize_append] at hfront hsize
      exact absurd (by omega) (hall tail ⟨front, rfl⟩)

/-! ### Encoding and cutting -/

/-- The bytes of a text in UTF-8. -/
def utf8Bytes (text : List Char) : List UInt8 := text.flatMap String.utf8EncodeChar

@[simp] theorem utf8Bytes_nil : utf8Bytes [] = [] := rfl

@[simp] theorem utf8Bytes_cons (c : Char) (text : List Char) :
    utf8Bytes (c :: text) = String.utf8EncodeChar c ++ utf8Bytes text := rfl

@[simp] theorem utf8Bytes_length (text : List Char) : (utf8Bytes text).length = textSize text := by
  induction text with
  | nil => rfl
  | cons c text ih =>
    rw [utf8Bytes_cons, List.length_append, String.length_utf8EncodeChar, ih, textSize_cons]

/-- The longest front of a text with at most `room` bytes. -/
def longestPrefix : Nat → List Char → List Char
  | _, [] => []
  | room, c :: text =>
    if c.utf8Size ≤ room then c :: longestPrefix (room - c.utf8Size) text else []

theorem longestPrefix_isFront (text : List Char) (room : Nat) : longestPrefix room text <+: text := by
  induction text generalizing room with
  | nil => exact List.prefix_refl _
  | cons c text ih =>
    rw [longestPrefix]
    split
    · exact (List.prefix_cons_inj c).mpr (ih _)
    · exact List.nil_prefix

theorem textSize_longestPrefix (text : List Char) (room : Nat) :
    textSize (longestPrefix room text) ≤ room := by
  induction text generalizing room with
  | nil => exact Nat.zero_le _
  | cons c text ih =>
    rw [longestPrefix]
    split
    · have := ih (room - c.utf8Size)
      rw [textSize_cons]
      omega
    · exact Nat.zero_le _

/-- No front that fits is longer. -/
theorem prefix_longestPrefix {text front : List Char} {room : Nat} (hfront : front <+: text)
    (hsize : textSize front ≤ room) : front <+: longestPrefix room text := by
  induction text generalizing room front with
  | nil => exact hfront
  | cons c text ih =>
    rcases List.prefix_cons_iff.mp hfront with rfl | ⟨rest, rfl, hrest⟩
    · exact List.nil_prefix
    · rw [textSize_cons] at hsize
      rw [longestPrefix, if_pos (by omega)]
      exact (List.prefix_cons_inj c).mpr (ih hrest (by omega))

theorem longestPrefix_of_le {text : List Char} {room : Nat} (h : textSize text ≤ room) :
    longestPrefix room text = text :=
  (longestPrefix_isFront text room).eq_of_length_le
    (prefix_longestPrefix (List.prefix_refl text) h).length_le

/-- CUT RULE: cutting the bytes keeps a text exactly where no character lies across the cut. -/
theorem take_utf8Bytes (text : List Char) (room : Nat) :
    (utf8Bytes text).take room = utf8Bytes (longestPrefix room text) ↔
      textSize text ≤ room ∨ ∃ front, front <+: text ∧ textSize front = room := by
  constructor
  · intro hcut
    have hlen := congrArg List.length hcut
    rw [List.length_take, utf8Bytes_length, utf8Bytes_length] at hlen
    rcases Nat.le_total (textSize text) room with hle | hge
    · exact .inl hle
    · rw [Nat.min_eq_left hge] at hlen
      exact .inr ⟨_, longestPrefix_isFront text room, hlen.symm⟩
  · rintro (hle | ⟨front, ⟨rest, rfl⟩, rfl⟩)
    · rw [longestPrefix_of_le hle, List.take_of_length_le (by rw [utf8Bytes_length]; exact hle)]
    · have hpre := prefix_longestPrefix (List.prefix_append front rest) (Nat.le_refl _)
      have hlong : longestPrefix (textSize front) (front ++ rest) = front := by
        obtain ⟨more, hmore⟩ := hpre
        have hsize := textSize_longestPrefix (front ++ rest) (textSize front)
        rw [← hmore, textSize_append] at hsize
        cases more with
        | nil => rw [← hmore, List.append_nil]
        | cons d more =>
          have hd : 0 < d.utf8Size := Char.utf8Size_pos d
          rw [textSize_cons] at hsize
          omega
      rw [hlong]
      have happend : utf8Bytes (front ++ rest) = utf8Bytes front ++ utf8Bytes rest :=
        List.flatMap_append
      rw [happend, List.take_left' (utf8Bytes_length front)]

/-! ### Lossy decoding -/

/-- How many bytes a character that starts with `b` has; 0 for a byte none starts with. -/
def charWidth (b : UInt8) : Nat :=
  if b < 0x80 then 1
  else if 0xC2 ≤ b ∧ b ≤ 0xDF then 2
  else if 0xE0 ≤ b ∧ b ≤ 0xEF then 3
  else if 0xF0 ≤ b ∧ b ≤ 0xF4 then 4
  else 0

def isContinuation (c : UInt8) : Bool := 0x80 ≤ c && c ≤ 0xBF

/-- The second byte of a character that starts with `b`: not an overlong form, a surrogate or a
    number past the last character. -/
def isSecond (b c : UInt8) : Bool :=
  if b = 0xE0 then 0xA0 ≤ c && c ≤ 0xBF
  else if b = 0xED then 0x80 ≤ c && c ≤ 0x9F
  else if b = 0xF0 then 0x90 ≤ c && c ≤ 0xBF
  else if b = 0xF4 then 0x80 ≤ c && c ≤ 0x8F
  else isContinuation c

/-- How many of the bytes after `b` belong to the character it starts. -/
def matchedBytes (b : UInt8) : List UInt8 → Nat
  | [] => 0
  | c :: rest => if isSecond b c then 1 + (rest.takeWhile isContinuation).length else 0

/-- The number a character's bytes stand for. -/
def charNumber (b : UInt8) (more : List UInt8) : Nat :=
  more.foldl (fun n c => n * 64 + c.toNat % 64)
    (b.toNat % (if charWidth b = 1 then 128 else 2 ^ (7 - charWidth b)))

/-- The character the bytes start with and how many bytes after the first it takes; a start of a
    character that is not one is replaced as a whole. -/
def lossyChar (b : UInt8) (rest : List UInt8) : Char × Nat :=
  let more := rest.take (charWidth b - 1)
  let matched := matchedBytes b more
  if charWidth b ≠ 0 ∧ matched = charWidth b - 1 then (Char.ofNat (charNumber b more), matched)
  else (Char.ofNat 0xFFFD, matched)

/-- Decode after skipping some bytes. -/
def lossyFrom : Nat → List UInt8 → List Char
  | _, [] => []
  | skip + 1, _ :: rest => lossyFrom skip rest
  | 0, b :: rest => (lossyChar b rest).1 :: lossyFrom (lossyChar b rest).2 rest

/-- `String::from_utf8_lossy`. -/
def fromUtf8Lossy (bytes : List UInt8) : List Char := lossyFrom 0 bytes

example : fromUtf8Lossy [0xE4, 0xBD, 0x61, 0xFF, 0xC3, 0xA9] =
    [Char.ofNat 0xFFFD, 'a', Char.ofNat 0xFFFD, 'é'] := by decide

end Gamer.Lib
