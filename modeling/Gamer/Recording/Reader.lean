import Mathlib.Data.List.Chain
import Gamer.Recording.Writer

/-! What a reader of the file gets out of it, by the boxes' own lengths and the tables alone, and what
    it should get: the samples that were written, with their units, times and key frames.

        stco ──▶ where the samples start     stsz ──▶ where each one ends
        stts ──▶ when each one starts        stss ──▶ which are key frames                 -/

namespace Gamer.Recording
open Gamer.Lib Gamer.Lib.Bytes

/-! ### What was written -/

structure Sample where
  nals : List Bytes
  ptsUs : Nat
  keyframe : Bool

/-- The sample of a call; a packet of parameter sets alone is none. -/
def Call.sample : Call → Option Sample
  | .setConfig _ => none
  | .writeAnnexbSample _ au ptsUs keyframe =>
    let nals := (splitAnnexb au).filter fun nal => !isParameterSet nal
    if nals = [] then none else some ⟨nals, ptsUs, keyframe⟩

def samplesOf (calls : List Call) : List Sample := calls.filterMap Call.sample

/-- Times that do not go back, with gaps that fit 32 bits. -/
def Steady (samples : List Sample) : Prop :=
  samples.IsChain fun a b => a.ptsUs ≤ b.ptsUs ∧ b.ptsUs - a.ptsUs < 2 ^ 32

/-! ### What is read -/

/-- How long the header is that a kind has in front of its boxes. -/
def containers (kind : Bytes) : Option Nat :=
  if kind ∈ ["moov", "trak", "mdia", "minf", "dinf", "stbl"].map ascii then some 0
  else if kind ∈ ["dref", "stsd"].map ascii then some 8
  else if kind = ascii "avc1" then some 78
  else none

/-- Version and flags, a count, and as many entries. -/
def readTable {α : Type} (read : Bytes → Option (α × Bytes)) (payload : Bytes) :
    Option (List α) := do
  let (_, rest) ← readBe 4 payload
  let (n, rest) ← readBe 4 rest
  let (entries, rest) ← readMany read n rest
  if rest = [] then some entries else none

def readRun (bytes : Bytes) : Option ((Nat × Nat) × Bytes) := do
  let (count, rest) ← readBe 4 bytes
  let (delta, rest) ← readBe 4 rest
  some ((count, delta), rest)

def stblPath (name : String) : List Bytes := ["moov", "trak", "mdia", "minf", "stbl", name].map ascii

structure SampleTable where
  stts : List (Nat × Nat)
  stss : Option (List Nat)
  sizes : List Nat
  chunkOffset : Nat

/-- The tables of the track, of which only `stss` may be missing. -/
def readTables (file : Bytes) : Option SampleTable := do
  let stts ← readTable readRun (← Box.locate containers (stblPath "stts") file)
  let stsz ← Box.locate containers (stblPath "stsz") file
  let sizes ← readTable (readBe 4) (stsz.drop 4)
  let offsets ← readTable (readBe 4) (← Box.locate containers (stblPath "stco") file)
  let chunkOffset ← offsets.head?
  match Box.locate containers (stblPath "stss") file with
  | none => some ⟨stts, none, sizes, chunkOffset⟩
  | some stss => (readTable (readBe 4) stss).map fun syncs => ⟨stts, some syncs, sizes, chunkOffset⟩

/-- Every sample's length in time. -/
def expand (stts : List (Nat × Nat)) : List Nat :=
  stts.flatMap fun run => List.replicate run.1 run.2

/-- When sample `i`, counted from 0, is decoded. -/
def decodeTime (stts : List (Nat × Nat)) (i : Nat) : Nat := ((expand stts).take i).sum

/-- The samples that the numbers, counted from 1, name as key frames. -/
structure NamesKeyframes (syncs : List Nat) (samples : List Sample) : Prop where
  increasing : syncs.Pairwise (· < ·)
  range : ∀ n ∈ syncs, 1 ≤ n ∧ n ≤ samples.length
  exactly : ∀ i s, samples[i]? = some s → (i + 1 ∈ syncs ↔ s.keyframe = true)

/-- Where there is no table every sample is a key frame. -/
def SyncsFit : Option (List Nat) → List Sample → Prop
  | none, samples => ∀ s ∈ samples, s.keyframe = true
  | some syncs, samples => NamesKeyframes syncs samples

/-- What a reader has in hand. -/
structure Reading where
  mdat : Bytes
  moov : Bytes
  table : SampleTable
  pieces : List Bytes

/-- The file is three boxes, nested boxes fill theirs, and the tables cut the media data apart. -/
structure Reads (file : Bytes) (r : Reading) : Prop where
  boxes : Box.readBoxes file = some [⟨ascii "ftyp", ftypPayload⟩, ⟨ascii "mdat", r.mdat⟩,
    ⟨ascii "moov", r.moov⟩]
  nested : Box.WellNested containers file
  tables : readTables file = some r.table
  pieces : cut r.table.sizes (file.drop r.table.chunkOffset) = some r.pieces
  whole : r.pieces.flatten = r.mdat

/-- The reading is what was written. -/
structure Faithful (r : Reading) (samples : List Sample) : Prop where
  nals : r.pieces.map (readAll readPrefixed) = samples.map fun s => some s.nals
  counts : (r.table.stts.map Prod.fst).sum = samples.length
  times : ∀ i s first, samples[i]? = some s → samples[0]? = some first →
    first.ptsUs + decodeTime r.table.stts i = s.ptsUs
  syncs : SyncsFit r.table.stss samples

end Gamer.Recording
