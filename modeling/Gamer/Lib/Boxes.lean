import Gamer.Lib.Bytes

/-! Files of boxes. A box is its length in four bytes, its own eight bytes included, a kind of four
    bytes, and its payload; a payload may be boxes again, behind a header of its kind's length:

        │ length │ kind │ payload … │        payload = header ++ box ++ box ++ …            -/

namespace Gamer.Lib
open Bytes

structure Box where
  kind : Bytes
  payload : Bytes
  deriving DecidableEq

namespace Box

def bytes (b : Box) : Bytes := be 4 (b.payload.length + 8) ++ b.kind ++ b.payload

/-- The length fits its four bytes. -/
structure Fits (b : Box) : Prop where
  kind : b.kind.length = 4
  length : b.payload.length + 8 < 256 ^ 4

def read (bytes : Bytes) : Option (Box × Bytes) :=
  match readBe 4 bytes with
  | none => none
  | some (size, rest) =>
    if 8 ≤ size ∧ size ≤ rest.length + 4 then
      some (⟨rest.take 4, (rest.drop 4).take (size - 8)⟩, (rest.drop 4).drop (size - 8))
    else none

theorem length_bytes {b : Box} (h : b.kind.length = 4) :
    b.bytes.length = b.payload.length + 8 := by
  rw [bytes, List.length_append, List.length_append, be_length, h]
  omega

theorem bytes_ne_nil (b : Box) : b.bytes ≠ [] := by
  intro h
  have hlen := congrArg List.length h
  rw [bytes, List.length_append, List.length_append, be_length] at hlen
  simp at hlen

theorem read_bytes {b : Box} (h : b.Fits) (rest : Bytes) :
    read (b.bytes ++ rest) = some (b, rest) := by
  have hsize : 8 ≤ b.payload.length + 8 ∧
      b.payload.length + 8 ≤ (b.kind ++ (b.payload ++ rest)).length + 4 := by
    rw [List.length_append, List.length_append, h.kind]
    omega
  have hkind : (b.kind ++ (b.payload ++ rest)).take 4 = b.kind := by
    rw [← h.kind, List.take_left]
  have hpayload : (b.kind ++ (b.payload ++ rest)).drop 4 = b.payload ++ rest := by
    rw [← h.kind, List.drop_left]
  rw [read, bytes, List.append_assoc, List.append_assoc, readBe_be h.length]
  dsimp only
  rw [if_pos hsize, hkind, hpayload, Nat.add_sub_cancel, List.take_left, List.drop_left]

/-- A sequence of boxes that uses up the bytes. -/
def readBoxes (bytes : Bytes) : Option (List Box) := readAll read bytes

/-- BOXES RULE: boxes one behind the other are read back. -/
theorem readBoxes_flatMap {l : List Box} (h : ∀ b ∈ l, b.Fits) :
    readBoxes (l.flatMap bytes) = some l :=
  readAll_flatMap fun b hb => ⟨b.bytes_ne_nil, read_bytes (h b hb)⟩

theorem payload_lt_flatMap {l : List Box} (hkind : ∀ b ∈ l, b.kind.length = 4) {b : Box}
    (hb : b ∈ l) : b.payload.length + 8 ≤ (l.flatMap bytes).length := by
  obtain ⟨front, back, rfl⟩ := List.append_of_mem hb
  rw [List.flatMap_append, List.flatMap_cons, List.length_append, List.length_append,
    length_bytes (hkind b hb)]
  omega

/-- Boxes in a payload whose own length fits fit. -/
theorem fits_of_length {l : List Box} (hkind : ∀ b ∈ l, b.kind.length = 4)
    (hlen : (l.flatMap bytes).length < 256 ^ 4) : ∀ b ∈ l, b.Fits :=
  fun b hb => ⟨hkind b hb, Nat.lt_of_le_of_lt (payload_lt_flatMap hkind hb) hlen⟩

/-! ### Nesting -/

section Nesting
variable (containers : Bytes → Option Nat)

/-- The bytes are boxes, and where a kind holds boxes behind a header so are its payload's, all the
    way down. -/
inductive WellNested : Bytes → Prop where
  | boxes {bytes : Bytes} {l : List Box} (hread : readBoxes bytes = some l)
      (hheader : ∀ b ∈ l, ∀ header, containers b.kind = some header → header ≤ b.payload.length)
      (hinner : ∀ b ∈ l, ∀ header, containers b.kind = some header →
        WellNested (b.payload.drop header)) : WellNested bytes

/-- The content of the first box of each kind on the way down. -/
def locate : List Bytes → Bytes → Option Bytes
  | [], bytes => some bytes
  | kind :: path, bytes =>
    match (readBoxes bytes).bind fun l => l.find? fun b => b.kind = kind with
    | none => none
    | some b => locate path (b.payload.drop ((containers kind).getD 0))

/-- If the box's kind holds boxes, the payload behind the header is well nested. -/
def Nests (b : Box) : Prop :=
  ∀ header, containers b.kind = some header → header ≤ b.payload.length ∧
    WellNested containers (b.payload.drop header)

variable {containers}

theorem Nests.leaf {b : Box} (h : containers b.kind = none) : b.Nests containers := by
  intro header hkind
  rw [h] at hkind
  cases hkind

theorem Nests.node {b : Box} {n : Nat} (h : containers b.kind = some n)
    (hlen : n ≤ b.payload.length) (hinner : WellNested containers (b.payload.drop n)) :
    b.Nests containers := by
  intro header hkind
  obtain rfl := Option.some.inj (h.symm.trans hkind)
  exact ⟨hlen, hinner⟩

/-- NESTING RULE: boxes that fit and nest, one behind the other, are well nested. -/
theorem WellNested.of_boxes {l : List Box} (hfits : ∀ b ∈ l, b.Fits)
    (hnests : ∀ b ∈ l, b.Nests containers) : WellNested containers (l.flatMap bytes) :=
  .boxes (readBoxes_flatMap hfits) (fun b hb header h => (hnests b hb header h).1)
    fun b hb header h => (hnests b hb header h).2

theorem locate_cons {l : List Box} (h : ∀ b ∈ l, b.Fits) {kind : Bytes} {b : Box}
    (hfind : (l.find? fun b => b.kind = kind) = some b) (path : List Bytes) :
    locate containers (kind :: path) (l.flatMap bytes) =
      locate containers path (b.payload.drop ((containers kind).getD 0)) := by
  rw [locate, readBoxes_flatMap h, Option.bind_some, hfind]

end Nesting

end Box

end Gamer.Lib
