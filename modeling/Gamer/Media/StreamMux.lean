import Mathlib.Data.List.Basic
import Gamer.Lib.Bytes
import Gamer.Lib.Ebml

/-! What the live encoder reads on its standard input: a header, then one cluster for each packet.

        head │ segment (to the end) ─▶ info │ tracks │ cluster │ cluster │ …

        cluster = │ time │ block │        block = │ track │ 0 0 │ flags │ data … │

    A reader of elements gets back the header as it was written, and the packets in their order,
    each with its time in milliseconds. -/

namespace Gamer.Media.StreamMux
open Gamer.Lib Bytes Ebml

/-! ### The writer -/

/-- Nothing where the source panics: the size fits no width. -/
def element (id : Nat) (data : Bytes) : Option Bytes :=
  match (List.range' 1 8).find? fun w => data.length < 2 ^ (7 * w) - 1 with
  | none => none
  | some width =>
    some ((be 4 id).dropWhile (fun b => b = 0) ++
      (be 8 (data.length ||| 2 ^ (7 * width))).drop (8 - width) ++ data)

def uint (id n : Nat) : Option Bytes := element id (be 8 n)

def group (id : Nat) (parts : List (Option Bytes)) : Option Bytes :=
  (parts.mapM fun part => part).bind fun parts => element id parts.flatten

/-- `to_le_bytes`. -/
def le (n v : Nat) : Bytes := (be n v).reverse

/-- The header of a bitmap whose rows run downwards; the height is negated as a signed number. -/
def bitmap (width height : UInt32) (size : Nat) : Bytes :=
  le 4 40 ++ le 4 width.toNat ++ le 4 (-height).toNat ++ le 2 1 ++ le 2 24 ++ le 4 0 ++ le 4 size ++
    List.replicate 16 0

def opusHead : Bytes := ascii "OpusHead" ++ [1, 2, 0, 0, 0x80, 0xbb, 0, 0, 0, 0, 0]

/-- `48000f64.to_be_bytes()`. -/
def rate : Bytes := [0x40, 0xe7, 0x70, 0, 0, 0, 0, 0]

/-- The segment, of an unknown size. -/
def segment : Bytes := [0x18, 0x53, 0x80, 0x67, 0x01, 0xff, 0xff, 0xff, 0xff, 0xff, 0xff, 0xff]

def tracksHeader (width height : UInt32) (codec codecPrivate : Bytes) (audio : Bool) :
    Option Bytes := do
  let head ← group 0x1a45dfa3 [uint 0x4286 1, uint 0x42f7 1, uint 0x42f2 4, uint 0x42f3 8,
    element 0x4282 (ascii "matroska"), uint 0x4287 4, uint 0x4285 2]
  let info ← group 0x1549a966
    [uint 0x2ad7b1 1000000, element 0x4d80 (ascii "Gamer"), element 0x5741 (ascii "Gamer")]
  let video := group 0xae [uint 0xd7 1, uint 0x73c5 1, uint 0x83 1, element 0x86 codec,
    element 0x63a2 codecPrivate, group 0xe0 [uint 0xb0 width.toNat, uint 0xba height.toNat]]
  let sound := group 0xae [uint 0xd7 2, uint 0x73c5 2, uint 0x83 2, element 0x86 (ascii "A_OPUS"),
    element 0x63a2 opusHead, uint 0x56aa 0, uint 0x56bb 80000000,
    group 0xe1 [element 0xb5 rate, uint 0x9f 2]]
  let tracks ← group 0x1654ae6b (if audio then [video, sound] else [video])
  return head ++ segment ++ info ++ tracks

def rawHeader (width height : UInt32) (audio : Bool) : Option Bytes :=
  if width.toNat * height.toNat < 2 ^ 32 ∧ width.toNat * height.toNat * 3 < 2 ^ 32 then
    tracksHeader width height (ascii "V_MS/VFW/FOURCC")
      (bitmap width height (width.toNat * height.toNat * 3)) audio
  else none

structure Packet where
  track : UInt8
  ptsUs : UInt64
  key : Bool
  data : Bytes
  deriving DecidableEq

def rawPacket (p : Packet) : Option Bytes :=
  group 0x1f43b675 [uint 0xe7 (p.ptsUs.toNat / 1000),
    element 0xa3 ([0x80 ||| p.track, 0, 0, if p.key then 0x80 else 0] ++ p.data)]

/-! ### A reader -/

structure Block where
  time : Nat
  track : Nat
  key : Bool
  data : Bytes
  deriving DecidableEq

structure Stream where
  head : Node
  info : Node
  tracks : Node
  blocks : List Block

/-- The elements that have elements in them. -/
def masters : List Nat :=
  [0x1a45dfa3, 0x1549a966, 0x1654ae6b, 0xae, 0xe0, 0xe1, 0x1f43b675]

def isMaster (id : Nat) : Bool := masters.contains id

/-- A block: the number of its track, its time against the cluster's, and its flags. -/
def readBlock (time : Nat) (data : Bytes) : Option Block :=
  match readVint 8 data with
  | some ((_, track), 0 :: 0 :: flags :: data) => some ⟨time, track, 0x80 ≤ flags, data⟩
  | _ => none

def readCluster : Node → Option Block
  | .group 0x1f43b675 [.data 0xe7 time, .data 0xa3 block] =>
    match readBe 8 time with
    | some (time, []) => readBlock time block
    | _ => none
  | _ => none

def readStream (bytes : Bytes) : Option Stream :=
  match Node.read isMaster 2 bytes with
  | none => none
  | some (head, rest) =>
    match readOpen rest with
    | none => none
    | some (_, content) =>
      match readAll (Node.read isMaster 4) content with
      | some (info :: tracks :: clusters) =>
        (clusters.mapM readCluster).map fun blocks => ⟨head, info, tracks, blocks⟩
      | _ => none

/-! ### What is written, as trees -/

def num (id n : Nat) : Node := .data id (be 8 n)

def headNode : Node := .group 0x1a45dfa3 [num 0x4286 1, num 0x42f7 1, num 0x42f2 4, num 0x42f3 8,
  .data 0x4282 (ascii "matroska"), num 0x4287 4, num 0x4285 2]

def infoNode : Node := .group 0x1549a966
  [num 0x2ad7b1 1000000, .data 0x4d80 (ascii "Gamer"), .data 0x5741 (ascii "Gamer")]

def videoNode (width height : UInt32) (codec codecPrivate : Bytes) : Node :=
  .group 0xae [num 0xd7 1, num 0x73c5 1, num 0x83 1, .data 0x86 codec, .data 0x63a2 codecPrivate,
    .group 0xe0 [num 0xb0 width.toNat, num 0xba height.toNat]]

def soundNode : Node :=
  .group 0xae [num 0xd7 2, num 0x73c5 2, num 0x83 2, .data 0x86 (ascii "A_OPUS"),
    .data 0x63a2 opusHead, num 0x56aa 0, num 0x56bb 80000000,
    .group 0xe1 [.data 0xb5 rate, num 0x9f 2]]

def tracksNode (width height : UInt32) (codec codecPrivate : Bytes) (audio : Bool) : Node :=
  .group 0x1654ae6b (if audio then [videoNode width height codec codecPrivate, soundNode]
    else [videoNode width height codec codecPrivate])

def blockBytes (p : Packet) : Bytes :=
  [0x80 ||| p.track, 0, 0, if p.key then 0x80 else 0] ++ p.data

def packetNode (p : Packet) : Node :=
  .group 0x1f43b675 [num 0xe7 (p.ptsUs.toNat / 1000), .data 0xa3 (blockBytes p)]

/-- The writer, over trees. -/
def write : Node → Option Bytes
  | .data id content => element id content
  | .group id parts => group id (parts.map write)

/-! ### What the writer writes -/

/-- The width that is found is the shortest that fits. -/
theorem find_width {n : Nat} (h : n < 2 ^ 56 - 1) :
    ((List.range' 1 8).find? fun w => n < 2 ^ (7 * w) - 1) = some (Element.sizeWidth n) := by
  obtain ⟨hk, hk8, hlt⟩ := Element.sizeWidth_spec h
  cases hfind : (List.range' 1 8).find? fun w => n < 2 ^ (7 * w) - 1 with
  | none =>
    have hnone := List.find?_eq_none.mp hfind (Element.sizeWidth n)
      (by rw [List.mem_range'_1]; omega)
    simp [hlt] at hnone
  | some k => rw [Element.sizeWidth, hfind, Option.getD_some]

/-- SPEC: what is written of an element that fits. -/
theorem element_eq {id : Nat} {data : Bytes} (hid : Element.IdFits id)
    (hsize : data.length < 2 ^ 56 - 1) : element id data = some (Element.bytes ⟨id, data⟩) := by
  obtain ⟨hw, hw4⟩ := Element.idWidth_spec id
  obtain ⟨hk, hk8, hlt⟩ := Element.sizeWidth_spec hsize
  obtain ⟨w, hw'⟩ : ∃ w, Element.idWidth id = w + 1 := ⟨Element.idWidth id - 1, by omega⟩
  obtain ⟨hlow, hhigh⟩ := hid.bounds hw'
  -- the marker of the size stands above its bits
  have hadd := Nat.two_pow_add_eq_or_of_lt (Nat.lt_of_lt_of_le hlt (Nat.sub_le _ _)) 1
  rw [mul_one] at hadd
  rw [element, find_width hsize]
  simp only
  rw [Nat.or_comm, ← hadd, drop_be hk8, dropWhile_be (by omega) hlow hhigh, Element.bytes, hw',
    vint]

theorem size_of_element {id : Nat} {data out : Bytes} (h : element id data = some out) :
    data.length < 2 ^ 56 - 1 := by
  unfold element at h
  split at h
  · cases h
  · next w hfind =>
    have hmem := List.mem_of_find?_eq_some hfind
    have hlt := List.find?_some hfind
    rw [List.mem_range'_1] at hmem
    simp only [decide_eq_true_eq] at hlt
    have hle : 2 ^ (7 * w) ≤ 2 ^ 56 := Nat.pow_le_pow_right (by omega) (by omega)
    omega

/-- The elements that have none in them. -/
def leaves : List Nat :=
  [0x4286, 0x42f7, 0x42f2, 0x42f3, 0x4282, 0x4287, 0x4285, 0x2ad7b1, 0x4d80, 0x5741, 0xd7, 0x73c5,
    0x83, 0x86, 0x63a2, 0xb0, 0xba, 0x56aa, 0x56bb, 0xb5, 0x9f, 0xe7, 0xa3]

theorem of_leaf : ∀ id ∈ leaves, isMaster id = false ∧ Element.IdFits id := by decide

theorem of_master : ∀ id ∈ masters, isMaster id = true ∧ Element.IdFits id := by decide

/-- All ids are known, and at most `d` elements stand one in the other. -/
def Known : Nat → Node → Prop
  | 0, _ => False
  | _ + 1, .data id _ => id ∈ leaves
  | d + 1, .group id parts => id ∈ masters ∧ ∀ n ∈ parts, Known d n

/-- LIST RULE: what is written of a list, one by one. -/
theorem mapM_eq_some {α β : Type} {f : α → Option β} {g : α → β} {P : α → Prop} {l : List α}
    {out : List β} (hf : ∀ a ∈ l, ∀ b, f a = some b → P a ∧ b = g a) (h : l.mapM f = some out) :
    (∀ a ∈ l, P a) ∧ out = l.map g := by
  induction l generalizing out with
  | nil =>
    cases h
    simp
  | cons a l ih =>
    rw [List.mapM_cons] at h
    obtain ⟨first, hfirst, h⟩ := Option.bind_eq_some_iff.mp h
    obtain ⟨rest, hrest, h⟩ := Option.bind_eq_some_iff.mp h
    cases h
    obtain ⟨ha, rfl⟩ := hf a List.mem_cons_self first hfirst
    obtain ⟨hall, rfl⟩ := ih (fun b hb => hf b (List.mem_cons_of_mem _ hb)) hrest
    exact ⟨List.forall_mem_cons.mpr ⟨ha, hall⟩, rfl⟩

/-- SPEC: a tree that is written fits, and its elements are what is written. -/
theorem write_eq_some : ∀ {d : Nat} {n : Node} {out : Bytes}, Known d n → write n = some out →
    n.Fits isMaster d ∧ out = n.bytes
  | d + 1, .data id content, out, hknown, h => by
    obtain ⟨hleaf, hid⟩ := of_leaf id hknown
    rw [write] at h
    have hsize := size_of_element h
    rw [element_eq hid hsize] at h
    rw [Node.bytes]
    exact ⟨⟨hleaf, hid, hsize⟩, (Option.some.inj h).symm⟩
  | d + 1, .group id parts, out, ⟨hknown, hparts⟩, h => by
    obtain ⟨hmaster, hid⟩ := of_master id hknown
    rw [write, group, List.mapM_map] at h
    obtain ⟨written, hwritten, h⟩ := Option.bind_eq_some_iff.mp h
    obtain ⟨hfits, rfl⟩ := mapM_eq_some (g := Node.bytes) (P := fun n => n.Fits isMaster d)
      (fun n hn b hb => write_eq_some (hparts n hn) hb) hwritten
    have hsize := size_of_element h
    rw [element_eq hid hsize] at h
    rw [Node.bytes]
    exact ⟨⟨hmaster, ⟨hid, hsize⟩, hfits⟩, (Option.some.inj h).symm⟩

section Header
variable {width height : UInt32} {codec codecPrivate : Bytes} {audio : Bool}

theorem known_head : Known 2 headNode := by simp [headNode, num, Known, masters, leaves]

theorem known_info : Known 4 infoNode := by simp [infoNode, num, Known, masters, leaves]

theorem known_tracks : Known 4 (tracksNode width height codec codecPrivate audio) := by
  cases audio <;> simp [tracksNode, videoNode, soundNode, num, Known, masters, leaves]

theorem known_packet (p : Packet) : Known 4 (packetNode p) := by
  simp [packetNode, num, Known, masters, leaves]

/-- The header is made of three trees. -/
theorem tracksHeader_eq : tracksHeader width height codec codecPrivate audio =
    (write headNode).bind fun head => (write infoNode).bind fun info =>
      (write (tracksNode width height codec codecPrivate audio)).bind fun tracks =>
        some (head ++ segment ++ info ++ tracks) := by
  cases audio <;>
    simp [tracksHeader, write, headNode, infoNode, tracksNode, videoNode, soundNode, num, uint]

/-- SPEC: a header that is written. -/
theorem tracksHeader_eq_some {header : Bytes}
    (h : tracksHeader width height codec codecPrivate audio = some header) :
    headNode.Fits isMaster 2 ∧ infoNode.Fits isMaster 4 ∧
      (tracksNode width height codec codecPrivate audio).Fits isMaster 4 ∧
      header = headNode.bytes ++ segment ++ infoNode.bytes ++
        (tracksNode width height codec codecPrivate audio).bytes := by
  rw [tracksHeader_eq] at h
  obtain ⟨head, hhead, h⟩ := Option.bind_eq_some_iff.mp h
  obtain ⟨info, hinfo, h⟩ := Option.bind_eq_some_iff.mp h
  obtain ⟨tracks, htracks, h⟩ := Option.bind_eq_some_iff.mp h
  obtain ⟨hheadFits, rfl⟩ := write_eq_some known_head hhead
  obtain ⟨hinfoFits, rfl⟩ := write_eq_some known_info hinfo
  obtain ⟨htracksFits, rfl⟩ := write_eq_some known_tracks htracks
  exact ⟨hheadFits, hinfoFits, htracksFits, (Option.some.inj h).symm⟩

end Header

/-! ### Packets -/

/-- What a packet is to the reader. -/
def Packet.block (p : Packet) : Block := ⟨p.ptsUs.toNat / 1000, p.track.toNat, p.key, p.data⟩

theorem rawPacket_eq (p : Packet) : rawPacket p = write (packetNode p) := by
  simp [rawPacket, uint, write, packetNode, num, blockBytes]

theorem readBlock_block {p : Packet} (htrack : p.track.toNat < 128) :
    readBlock (p.ptsUs.toNat / 1000) (blockBytes p) = some p.block := by
  have hor : (0x80 ||| p.track).toNat = 2 ^ 7 + p.track.toNat := by
    have hadd := Nat.two_pow_add_eq_or_of_lt (b := p.track.toNat) (i := 7) htrack 1
    rw [mul_one] at hadd
    rw [UInt8.toNat_or, hadd]
    rfl
  have hsplit : blockBytes p =
      vint 1 p.track.toNat ++ ([0, 0, if p.key then 0x80 else 0] ++ p.data) := by
    rw [vint, mul_one, ← hor, be_byte]
    rfl
  rw [readBlock, hsplit, readVint_vint (n := 8) (by decide) (by decide) (by decide) htrack]
  cases hkey : p.key <;> simp [Packet.block, hkey]

theorem readCluster_packet {p : Packet} (htrack : p.track.toNat < 128) :
    readCluster (packetNode p) = some p.block := by
  have htime : p.ptsUs.toNat / 1000 < 256 ^ 8 :=
    Nat.lt_of_le_of_lt (Nat.div_le_self _ _) (Nat.lt_of_lt_of_le p.ptsUs.toNat_lt (by decide))
  have hread := readBe_be htime []
  rw [List.append_nil] at hread
  rw [packetNode, num, readCluster, hread]
  exact readBlock_block htrack

/-- RUN: the clusters are read one by one. -/
theorem mapM_readCluster {packets : List Packet} (htrack : ∀ p ∈ packets, p.track.toNat < 128) :
    (packets.map packetNode).mapM readCluster = some (packets.map Packet.block) := by
  induction packets with
  | nil => rfl
  | cons p packets ih =>
    have hrest := ih fun q hq => htrack q (List.mem_cons_of_mem _ hq)
    rw [List.map_cons, List.mapM_cons, readCluster_packet (htrack p List.mem_cons_self), hrest]
    rfl

theorem segment_eq : segment =
    be (Element.idWidth 0x18538067) 0x18538067 ++ vint 8 (2 ^ (7 * 8) - 1) := by decide

/-- ROUND TRIP: a reader gets the header and every packet, as they were written. -/
theorem readStream_rawHeader {width height : UInt32} {audio : Bool} {header : Bytes}
    {packets : List Packet} {chunks : List Bytes}
    (hheader : rawHeader width height audio = some header)
    (hchunks : packets.mapM rawPacket = some chunks)
    (htrack : ∀ p ∈ packets, p.track.toNat < 128) :
    readStream (header ++ chunks.flatten) =
      some ⟨headNode, infoNode, tracksNode width height (ascii "V_MS/VFW/FOURCC")
        (bitmap width height (width.toNat * height.toNat * 3)) audio,
        packets.map Packet.block⟩ := by
  obtain ⟨hpackets, rfl⟩ := mapM_eq_some (g := fun p => (packetNode p).bytes)
    (P := fun p => (packetNode p).Fits isMaster 4)
    (fun p _ _ hp => write_eq_some (known_packet p) ((rawPacket_eq p).symm.trans hp)) hchunks
  unfold rawHeader at hheader
  split at hheader
  · obtain ⟨hhead, hinfo, htracks, rfl⟩ := tracksHeader_eq_some hheader
    have hcontent := Node.readAll_bytes (l := infoNode :: tracksNode width height _ _ audio ::
      packets.map packetNode) (by simpa using ⟨hinfo, htracks, hpackets⟩)
    simp only [List.map_cons, List.flatten_cons, List.map_map] at hcontent
    simp only [List.append_assoc]
    rw [readStream, Node.read_bytes hhead]
    simp only
    rw [segment_eq, Element.readOpen_bytes (by decide) (by decide) (by decide)]
    simp only
    rw [show (fun p => (packetNode p).bytes) = Node.bytes ∘ packetNode from rfl, hcontent]
    simp only
    rw [mapM_readCluster htrack]
    rfl
  · cases hheader

/-- A picture of four by two pixels and a packet of sound. -/
theorem readStream_rawHeader_two : ∃ header chunks, rawHeader 4 2 true = some header ∧
    [Packet.mk 1 2500 true [7, 8], Packet.mk 2 20000 true [9]].mapM rawPacket = some chunks ∧
      (readStream (header ++ chunks.flatten)).map (·.blocks) =
        some [⟨2, 1, true, [7, 8]⟩, ⟨20, 2, true, [9]⟩] := by
  obtain ⟨header, hheader⟩ := Option.isSome_iff_exists.mp
    (by decide +kernel : (rawHeader 4 2 true).isSome = true)
  obtain ⟨chunks, hchunks⟩ := Option.isSome_iff_exists.mp
    (by decide +kernel : ([Packet.mk 1 2500 true [7, 8],
      Packet.mk 2 20000 true [9]].mapM rawPacket).isSome = true)
  refine ⟨header, chunks, hheader, hchunks, ?_⟩
  rw [readStream_rawHeader hheader hchunks (by decide)]
  rfl

end Gamer.Media.StreamMux
