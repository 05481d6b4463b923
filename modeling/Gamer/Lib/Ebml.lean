import Mathlib.Data.List.Basic
import Mathlib.Algebra.Order.Ring.Nat
import Mathlib.Tactic.Ring
import Gamer.Lib.Bytes

/-! Streams of elements. An element is an id, a size and its content. The zeros in front of the
    first byte of an id or a size say how long it is; a size with all its bits set is not known, and
    the content goes on to the end of the stream:

        │ id │ size │ content … │        content = element ++ element ++ …

        1xxxxxxx    01xxxxxx xxxxxxxx    001xxxxx xxxxxxxx xxxxxxxx    …                        -/

namespace Gamer.Lib
open Bytes

namespace Ebml

/-! ### Numbers of a variable length -/

/-- `w` bytes of a number behind its marker. -/
def vint (w v : Nat) : Bytes := be w (2 ^ (7 * w) + v)

/-- The length that a first byte announces, at most `n`. -/
def widthOf (n : Nat) (b : UInt8) : Option Nat :=
  (List.range' 1 n).find? fun w => 2 ^ (8 - w) ≤ b.toNat

/-- The length of a number, and the number. -/
def readVint (n : Nat) : Bytes → Option ((Nat × Nat) × Bytes)
  | [] => none
  | b :: bytes =>
    match widthOf n b with
    | none => none
    | some w => (readBe w (b :: bytes)).map fun r => ((w, r.1 - 2 ^ (7 * w)), r.2)

theorem vint_lt {w v : Nat} (hw : 1 ≤ w) (hv : v < 2 ^ (7 * w)) :
    2 ^ (7 * w) + v < 256 ^ w := by
  have hpow : 256 ^ w = 2 ^ (8 * w) := (pow_mul 2 8 w).symm
  have hmono : 2 ^ (7 * w + 1) ≤ 2 ^ (8 * w) := Nat.pow_le_pow_right (by omega) (by omega)
  rw [pow_succ] at hmono
  omega

/-- The first byte announces the length. -/
theorem widthOf_vint {n w v : Nat} (hn : w + 1 ≤ n) (h8 : w + 1 ≤ 8) (hv : v < 2 ^ (7 * (w + 1))) :
    widthOf n (UInt8.ofNat ((2 ^ (7 * (w + 1)) + v) / 256 ^ w)) = some (w + 1) := by
  have hpow : 256 ^ w = 2 ^ (8 * w) := (pow_mul 2 8 w).symm
  have hmarker : 2 ^ (7 * (w + 1)) = 2 ^ (7 - w) * 2 ^ (8 * w) := by
    rw [← pow_add]
    congr 1
    omega
  have hlow : 2 ^ (7 - w) ≤ (2 ^ (7 * (w + 1)) + v) / 256 ^ w := by
    rw [hpow, Nat.le_div_iff_mul_le (Nat.pow_pos (by omega)), ← hmarker]
    omega
  have hhigh : (2 ^ (7 * (w + 1)) + v) / 256 ^ w < 2 ^ (8 - w) := by
    rw [hpow, Nat.div_lt_iff_lt_mul (Nat.pow_pos (by omega)), show 8 - w = 7 - w + 1 by omega,
      pow_succ, mul_right_comm, ← hmarker]
    omega
  have hbyte : (2 ^ (7 * (w + 1)) + v) / 256 ^ w < 256 := by
    have hle : 2 ^ (8 - w) ≤ 2 ^ 8 := Nat.pow_le_pow_right (by omega) (by omega)
    omega
  rw [widthOf, List.find?_range'_eq_some]
  rw [UInt8.toNat_ofNat', Nat.mod_eq_of_lt hbyte]
  refine ⟨by simpa [show 8 - (w + 1) = 7 - w by omega] using hlow, ?_, ?_⟩
  · rw [List.mem_range'_1]
    omega
  · intro k hk hkw
    have hle : 2 ^ (8 - w) ≤ 2 ^ (8 - k) := Nat.pow_le_pow_right (by omega) (by omega)
    simp only [Bool.not_eq_true', decide_eq_false_iff_not]
    omega

/-- VINT RULE: a number that fits its bytes is read back. -/
theorem readVint_vint {n w v : Nat} (hw : 1 ≤ w) (hn : w ≤ n) (h8 : w ≤ 8) (hv : v < 2 ^ (7 * w))
    (rest : Bytes) : readVint n (vint w v ++ rest) = some ((w, v), rest) := by
  obtain ⟨w, rfl⟩ : ∃ m, w = m + 1 := ⟨w - 1, by omega⟩
  have hread := readBe_be (vint_lt hw hv) rest
  have hwidth := widthOf_vint hn h8 hv
  rw [be, List.cons_append] at hread
  rw [vint, be, List.cons_append, readVint, hwidth]
  simp only
  rw [hread, Option.map_some, Nat.add_sub_cancel_left]

/-! ### Elements -/

structure Element where
  /-- With its marker. -/
  id : Nat
  content : Bytes
  deriving DecidableEq

/-- An element of a known size. -/
def readElement (bytes : Bytes) : Option (Element × Bytes) :=
  match readVint 4 bytes with
  | none => none
  | some ((w, id), rest) =>
    match readVint 8 rest with
    | none => none
    | some ((k, size), rest) =>
      if size < 2 ^ (7 * k) - 1 ∧ size ≤ rest.length then
        some (⟨2 ^ (7 * w) + id, rest.take size⟩, rest.drop size)
      else none

/-- The id of an element of an unknown size; the rest is its content. -/
def readOpen (bytes : Bytes) : Option (Nat × Bytes) :=
  match readVint 4 bytes with
  | none => none
  | some ((w, id), rest) =>
    match readVint 8 rest with
    | none => none
    | some ((k, size), rest) =>
      if size = 2 ^ (7 * k) - 1 then some (2 ^ (7 * w) + id, rest) else none

namespace Element

def idWidth (id : Nat) : Nat := ((List.range' 1 4).find? fun w => id < 2 ^ (7 * w + 1)).getD 4

/-- The shortest size that is not all ones. -/
def sizeWidth (n : Nat) : Nat := ((List.range' 1 8).find? fun w => n < 2 ^ (7 * w) - 1).getD 8

def bytes (e : Element) : Bytes :=
  be (idWidth e.id) e.id ++ vint (sizeWidth e.content.length) e.content.length ++ e.content

/-- The id has its marker at the place that its length asks for. -/
def IdFits (id : Nat) : Prop := 2 ^ (7 * idWidth id) ≤ id ∧ id < 2 ^ (7 * idWidth id + 1)

instance (id : Nat) : Decidable (IdFits id) := inferInstanceAs (Decidable (_ ∧ _))

structure Fits (e : Element) : Prop where
  id : IdFits e.id
  size : e.content.length < 2 ^ 56 - 1

theorem idWidth_spec (id : Nat) : 1 ≤ idWidth id ∧ idWidth id ≤ 4 := by
  unfold idWidth
  cases hfind : (List.range' 1 4).find? fun w => id < 2 ^ (7 * w + 1) with
  | none => simp
  | some w =>
    have hmem := List.mem_of_find?_eq_some hfind
    rw [List.mem_range'_1] at hmem
    simp only [Option.getD_some]
    omega

theorem sizeWidth_spec {n : Nat} (h : n < 2 ^ 56 - 1) :
    1 ≤ sizeWidth n ∧ sizeWidth n ≤ 8 ∧ n < 2 ^ (7 * sizeWidth n) - 1 := by
  unfold sizeWidth
  cases hfind : (List.range' 1 8).find? fun w => n < 2 ^ (7 * w) - 1 with
  | none => simpa using h
  | some w =>
    have hmem := List.mem_of_find?_eq_some hfind
    have hp := List.find?_some hfind
    rw [List.mem_range'_1] at hmem
    simp only [Option.getD_some]
    simp only [decide_eq_true_eq] at hp
    exact ⟨hmem.1, by omega, hp⟩

theorem bytes_ne_nil (e : Element) : e.bytes ≠ [] := by
  intro h
  have hlen := congrArg List.length h
  have hid := idWidth_spec e.id
  simp only [bytes, List.length_append, be_length, List.length_nil] at hlen
  omega

/-- An id has as many bytes as its marker says. -/
theorem IdFits.bounds {id w : Nat} (h : IdFits id) (hw : idWidth id = w + 1) :
    256 ^ w ≤ id ∧ id < 256 ^ (w + 1) := by
  obtain ⟨hlow, hhigh⟩ := h
  obtain ⟨-, hw4⟩ := idWidth_spec id
  rw [hw] at hlow hhigh hw4
  have hpow : ∀ k, 256 ^ k = 2 ^ (8 * k) := fun k => (pow_mul 2 8 k).symm
  rw [hpow, hpow]
  constructor
  · exact Nat.le_trans (Nat.pow_le_pow_right (by omega) (by omega)) hlow
  · exact Nat.lt_of_lt_of_le hhigh (Nat.pow_le_pow_right (by omega) (by omega))

/-- The id is read back, marker apart. -/
theorem readVint_id {id : Nat} (h : IdFits id) (rest : Bytes) :
    readVint 4 (be (idWidth id) id ++ rest) =
      some ((idWidth id, id - 2 ^ (7 * idWidth id)), rest) := by
  obtain ⟨hw, hw4⟩ := idWidth_spec id
  obtain ⟨hmark, hfits⟩ := h
  rw [pow_succ] at hfits
  have hread := readVint_vint hw hw4 (by omega)
    (by omega : id - 2 ^ (7 * idWidth id) < 2 ^ (7 * idWidth id)) rest
  rwa [vint, Nat.add_sub_cancel' hmark] at hread

/-- ELEMENT RULE: an element that fits is read back. -/
theorem readElement_bytes {e : Element} (h : e.Fits) (rest : Bytes) :
    readElement (e.bytes ++ rest) = some (e, rest) := by
  obtain ⟨hk, hk8, hsize⟩ := sizeWidth_spec h.size
  have hlen : e.content.length ≤ (e.content ++ rest).length := by
    rw [List.length_append]
    omega
  rw [bytes, List.append_assoc, List.append_assoc, readElement, readVint_id h.id]
  simp only
  rw [readVint_vint hk hk8 hk8 (by omega)]
  simp only
  rw [if_pos ⟨hsize, hlen⟩, List.take_left, List.drop_left, Nat.add_sub_cancel' h.id.1]

/-- The id of an element of an unknown size is read back. -/
theorem readOpen_bytes {id k : Nat} (h : IdFits id) (hk : 1 ≤ k) (hk8 : k ≤ 8) (rest : Bytes) :
    readOpen (be (idWidth id) id ++ vint k (2 ^ (7 * k) - 1) ++ rest) = some (id, rest) := by
  have hpos : 0 < 2 ^ (7 * k) := Nat.pow_pos (by omega)
  rw [List.append_assoc, readOpen, readVint_id h]
  simp only
  rw [readVint_vint hk hk8 hk8 (by omega)]
  simp only
  rw [if_pos trivial, Nat.add_sub_cancel' h.1]

end Element

/-! ### Trees of elements -/

/-- An element, with the elements in it where its id says that it has any. -/
inductive Node where
  | data (id : Nat) (content : Bytes)
  | group (id : Nat) (parts : List Node)

namespace Node

def bytes : Node → Bytes
  | data id content => (Element.mk id content).bytes
  | group id parts => (Element.mk id (parts.map bytes).flatten).bytes

/-- Every element fits, those that have elements in them are known by their ids, and at most `d` of
    them stand one in the other. -/
def Fits (master : Nat → Bool) : Nat → Node → Prop
  | 0, _ => False
  | _ + 1, data id content => master id = false ∧ (Element.mk id content).Fits
  | d + 1, group id parts => master id = true ∧ (Element.mk id (parts.map bytes).flatten).Fits ∧
      ∀ n ∈ parts, Fits master d n

/-- The tree of an element, to the depth of `d`. -/
def read (master : Nat → Bool) : Nat → Bytes → Option (Node × Bytes)
  | 0, _ => none
  | d + 1, bytes =>
    match readElement bytes with
    | none => none
    | some (e, rest) =>
      if master e.id then
        (readAll (read master d) e.content).map fun parts => (group e.id parts, rest)
      else some (data e.id e.content, rest)

variable {master : Nat → Bool}

theorem bytes_ne_nil (n : Node) : n.bytes ≠ [] := by
  cases n with
  | data id content =>
    rw [bytes]
    exact Element.bytes_ne_nil _
  | group id parts =>
    rw [bytes]
    exact Element.bytes_ne_nil _

/-- TREE RULE: a tree that fits is read back. -/
theorem read_bytes : ∀ {d : Nat} {n : Node}, n.Fits master d → ∀ rest,
    read master d (n.bytes ++ rest) = some (n, rest)
  | 0, _, h, _ => h.elim
  | d + 1, data id content, ⟨hid, hfits⟩, rest => by
    rw [bytes, read, Element.readElement_bytes hfits]
    simp [hid]
  | d + 1, group id parts, ⟨hid, hfits, hparts⟩, rest => by
    have hread : readAll (read master d) (parts.flatMap bytes) = some parts :=
      Bytes.readAll_flatMap fun n hn => ⟨n.bytes_ne_nil, read_bytes (hparts n hn)⟩
    rw [List.flatMap_def] at hread
    rw [bytes, read, Element.readElement_bytes hfits]
    simp [hid, hread]

/-- TREES RULE: trees one behind the other are read back. -/
theorem readAll_bytes {d : Nat} {l : List Node} (h : ∀ n ∈ l, n.Fits master d) :
    readAll (read master d) (l.map bytes).flatten = some l := by
  rw [← List.flatMap_def]
  exact Bytes.readAll_flatMap fun n hn => ⟨n.bytes_ne_nil, read_bytes (h n hn)⟩

end Node

end Ebml

end Gamer.Lib
