import Mathlib.Data.List.DropRight
import Gamer.Lib.Boxes

/-! The MP4 writer of a recorded segment: one H.264 track, its samples' bytes as they came and their
    times as they came. The media data is streamed, the tables are written at the end:

        │ ftyp │ mdat: sample sample … │ moov: trak: … stbl: stts stss stsc stsz stco │
                 └ length filled in by finish                                                -/

namespace Gamer.Recording
open Gamer.Lib Gamer.Lib.Bytes

def timescale : Nat := 1000000

def maxMdatBytes : Nat := (2 ^ 32 - 1) - 64 * 1024 * 1024

/-! ### Annex-B -/

/-- Where start codes stand; `skip` bytes belong to one already found. -/
def startCodes : Nat → Nat → Bytes → List Nat
  | _, _, [] => []
  | skip + 1, i, _ :: data => startCodes skip (i + 1) data
  | 0, i, b :: data =>
    if (b :: data).take 3 = [0, 0, 1] then i :: startCodes 2 (i + 1) data
    else startCodes 0 (i + 1) data

/-- From behind one start code to the next, without the zeros at the end. -/
def nalBetween (data : Bytes) (start finish : Nat) : Bytes :=
  ((data.take finish).drop (start + 3)).rdropWhile fun b => b = 0

def splitAnnexb (data : Bytes) : List Bytes :=
  let positions := startCodes 0 0 data
  (List.zipWith (nalBetween data) positions (positions.drop 1 ++ [data.length])).filter fun nal =>
    nal ≠ []

def nalType (nal : Bytes) : UInt8 := (nal.head?.map fun b => b &&& 0x1F).getD 0

def isParameterSet (nal : Bytes) : Bool := nalType nal = 7 || nalType nal = 8

/-! ### Boxes -/

def fullHeader (version flags : Nat) : Bytes := be 1 version ++ be 3 flags

def boxBytes (kind : String) (payload : Bytes) : Bytes :=
  be 4 (payload.length + 8) ++ ascii kind ++ payload

def ftypPayload : Bytes :=
  ascii "isom" ++ be 4 512 ++ ascii "isom" ++ ascii "iso2" ++ ascii "avc1" ++ ascii "mp41"

/-- AVCDecoderConfigurationRecord. -/
def buildAvcc (sps pps : Bytes) : Bytes :=
  [1, (sps[1]?).getD 0, (sps[2]?).getD 0, (sps[3]?).getD 0, 0xFF, 0xE1] ++ be 2 sps.length ++ sps ++
    [1] ++ be 2 pps.length ++ pps

/-! ### The writer -/

structure Writer where
  file : Bytes
  offset : Nat
  mdatSizePos : Nat
  mdatDataStart : Nat
  mdatBytes : Nat
  sps : Bytes
  pps : Bytes
  width : Nat
  height : Nat
  sizes : List Nat
  /-- Run lengths: how many samples, and how long each. -/
  stts : List (Nat × Nat)
  syncs : List Nat
  lastPts : Option Nat
  lastDelta : Nat
  sumDelta : Nat
  samples : Nat

structure MuxSummary where
  sizeBytes : Nat
  sha256 : String
  durationUs : Nat
  samples : Nat

/-- Overwrite what stands at a position. -/
def writeAt (file : Bytes) (pos : Nat) (bytes : Bytes) : Bytes :=
  file.take pos ++ bytes ++ file.drop (pos + bytes.length)

namespace Writer

/-- A write that is at fault leaves the first bytes only. -/
def writeBytes (w : Writer) (fault : Option Nat) (bytes : Bytes) : Writer × Except String Unit :=
  match fault with
  | none => ({ w with file := w.file ++ bytes, offset := w.offset + bytes.length }, .ok ())
  | some n => ({ w with file := w.file ++ bytes.take n }, .error "write failed")

/-- A writer on a new file. -/
def create (width height : Nat) : Writer :=
  let ftyp := boxBytes "ftyp" ftypPayload
  let mdat := be 4 0 ++ ascii "mdat"
  { file := ftyp ++ mdat, offset := ftyp.length + mdat.length, mdatSizePos := ftyp.length,
    mdatDataStart := ftyp.length + mdat.length, mdatBytes := 0, sps := [], pps := [],
    width := width, height := height, sizes := [], stts := [], syncs := [], lastPts := none,
    lastDelta := 0, sumDelta := 0, samples := 0 }

def setConfig (w : Writer) (annexb : Bytes) : Writer :=
  (splitAnnexb annexb).foldl (fun w nal =>
    if nalType nal = 7 then { w with sps := nal }
    else if nalType nal = 8 then { w with pps := nal }
    else w) w

def hasConfig (w : Writer) : Bool := w.sps ≠ [] && w.pps ≠ []

/-- Parameter sets are kept, the other units go into the sample behind their lengths. -/
def collect (w : Writer) (avcc : Bytes) : List Bytes → Writer × Bytes
  | [] => (w, avcc)
  | nal :: nals =>
    if nalType nal = 7 then collect { w with sps := nal } avcc nals
    else if nalType nal = 8 then collect { w with pps := nal } avcc nals
    else collect w (avcc ++ be 4 nal.length ++ nal) nals

/-- One sample more of this length in time. -/
def pushRun (delta : Nat) : List (Nat × Nat) → List (Nat × Nat)
  | [] => [(1, delta)]
  | [(count, d)] => if d = delta then [(count + 1, d)] else [(count, d), (1, delta)]
  | run :: next :: runs => run :: pushRun delta (next :: runs)

def pushDelta (w : Writer) (delta : Nat) : Writer :=
  { w with sumDelta := w.sumDelta + delta, lastDelta := delta, stts := pushRun delta w.stts }

/-- The time since the sample before is that one's length. -/
def stamp (w : Writer) (ptsUs : Nat) : Writer :=
  match w.lastPts with
  | none => { w with lastPts := some ptsUs }
  | some prev => { w.pushDelta (min (ptsUs - prev) (2 ^ 32 - 1)) with lastPts := some ptsUs }

def writeAnnexbSample (w : Writer) (fault : Option Nat) (au : Bytes) (ptsUs : Nat)
    (keyframe : Bool) : Writer × Except String Nat :=
  let (w, avcc) := w.collect [] (splitAnnexb au)
  if avcc = [] then (w, .ok 0)
  else
    let w := w.stamp ptsUs
    if w.mdatBytes + avcc.length > maxMdatBytes then
      (w, .error "segment exceeds MP4 mdat size limit")
    else
      match w.writeBytes fault avcc with
      | (w, .error e) => (w, .error e)
      | (w, .ok ()) =>
        ({ w with
            mdatBytes := w.mdatBytes + avcc.length
            sizes := w.sizes ++ [avcc.length]
            syncs := if keyframe then w.syncs ++ [w.samples + 1] else w.syncs
            samples := w.samples + 1 }, .ok avcc.length)

/-! ### moov -/

def matrix : Bytes :=
  [0x00010000, 0, 0, 0, 0x00010000, 0, 0, 0, 0x40000000].flatMap (be 4)

def mvhd (durationMs : Nat) : Bytes :=
  fullHeader 0 0 ++ be 4 0 ++ be 4 0 ++ be 4 1000 ++ be 4 durationMs ++ be 4 0x00010000 ++
    be 2 0x0100 ++ be 2 0 ++ be 4 0 ++ be 4 0 ++ matrix ++ List.replicate 24 0 ++ be 4 2

def tkhd (w : Writer) (durationMs : Nat) : Bytes :=
  fullHeader 0 7 ++ be 4 0 ++ be 4 0 ++ be 4 1 ++ be 4 0 ++ be 4 durationMs ++
    List.replicate 8 0 ++ be 2 0 ++ be 2 0 ++ be 2 0 ++ be 2 0 ++ matrix ++
    be 4 (w.width * 2 ^ 16) ++ be 4 (w.height * 2 ^ 16)

def mdhd (durationUs : Nat) : Bytes :=
  fullHeader 1 0 ++ be 8 0 ++ be 8 0 ++ be 4 timescale ++ be 8 durationUs ++ be 2 0x55C4 ++ be 2 0

def hdlr : Bytes :=
  fullHeader 0 0 ++ be 4 0 ++ ascii "vide" ++ List.replicate 12 0 ++ ascii "VideoHandler" ++ [0]

def vmhd : Bytes := fullHeader 0 1 ++ be 2 0 ++ List.replicate 6 0

def dref : Bytes := fullHeader 0 0 ++ be 4 1 ++ boxBytes "url " (fullHeader 0 1)

def dinf : Bytes := boxBytes "dref" dref

def avc1 (w : Writer) : Bytes :=
  List.replicate 6 0 ++ be 2 1 ++ List.replicate 16 0 ++ be 2 w.width ++ be 2 w.height ++
    be 4 0x00480000 ++ be 4 0x00480000 ++ be 4 0 ++ be 2 1 ++ List.replicate 32 0 ++ be 2 0x0018 ++
    be 2 0xFFFF ++ boxBytes "avcC" (buildAvcc w.sps w.pps)

def stsd (w : Writer) : Bytes := fullHeader 0 0 ++ be 4 1 ++ boxBytes "avc1" w.avc1

def sttsTable (w : Writer) : Bytes :=
  fullHeader 0 0 ++ be 4 w.stts.length ++ w.stts.flatMap fun run => be 4 run.1 ++ be 4 run.2

def stssTable (w : Writer) : Bytes :=
  fullHeader 0 0 ++ be 4 w.syncs.length ++ w.syncs.flatMap (be 4)

def stscTable (w : Writer) : Bytes :=
  fullHeader 0 0 ++ be 4 1 ++ be 4 1 ++ be 4 w.samples ++ be 4 1

def stszTable (w : Writer) : Bytes :=
  fullHeader 0 0 ++ be 4 0 ++ be 4 w.samples ++ w.sizes.flatMap (be 4)

def stcoTable (w : Writer) : Bytes := fullHeader 0 0 ++ be 4 1 ++ be 4 w.mdatDataStart

/-- Where every sample is a key frame there is no `stss`. -/
def stbl (w : Writer) : Bytes :=
  boxBytes "stsd" w.stsd ++ boxBytes "stts" w.sttsTable ++
    (if w.syncs.length < w.samples then boxBytes "stss" w.stssTable else []) ++
    boxBytes "stsc" w.stscTable ++ boxBytes "stsz" w.stszTable ++ boxBytes "stco" w.stcoTable

def minf (w : Writer) : Bytes :=
  boxBytes "vmhd" vmhd ++ boxBytes "dinf" dinf ++ boxBytes "stbl" w.stbl

def mdia (w : Writer) (durationUs : Nat) : Bytes :=
  boxBytes "mdhd" (mdhd durationUs) ++ boxBytes "hdlr" hdlr ++ boxBytes "minf" w.minf

def trak (w : Writer) (durationUs : Nat) : Bytes :=
  boxBytes "tkhd" (w.tkhd ((durationUs + 999) / 1000)) ++ boxBytes "mdia" (w.mdia durationUs)

def moovPayload (w : Writer) (durationUs : Nat) : Bytes :=
  boxBytes "mvhd" (mvhd ((durationUs + 999) / 1000)) ++ boxBytes "trak" (w.trak durationUs)

def buildMoov (w : Writer) (durationUs : Nat) : Bytes := boxBytes "moov" (w.moovPayload durationUs)

/-- The last sample is as long as the one before. -/
def closing (w : Writer) : Writer := w.pushDelta w.lastDelta

/-- The summary and the file. A fault is one of the flushes, seeks, reads or writes. -/
def finish (w : Writer) (fault : Option String) (sha256 : Bytes → String) :
    Except String (MuxSummary × Bytes) :=
  if !w.hasConfig then .error "missing SPS/PPS (no decodable start point)"
  else if w.samples = 0 then .error "no samples written"
  else
    let w := w.closing
    let durationUs := w.sumDelta
    let moov := w.buildMoov durationUs
    match fault with
    | some e => .error e
    | none =>
      let file := writeAt w.file w.mdatSizePos (be 4 (w.mdatBytes + 8))
      let file := writeAt file w.offset moov
      .ok (⟨w.offset + moov.length, sha256 file, durationUs, w.samples⟩, file)

end Writer

/-! ### Calls -/

inductive Call where
  | setConfig (annexb : Bytes)
  | writeAnnexbSample (fault : Option Nat) (au : Bytes) (ptsUs : Nat) (keyframe : Bool)

/-- A call that returns Ok. -/
def step (w : Writer) : Call → Option Writer
  | .setConfig annexb => some (w.setConfig annexb)
  | .writeAnnexbSample fault au ptsUs keyframe =>
    match w.writeAnnexbSample fault au ptsUs keyframe with
    | (w, .ok _) => some w
    | (_, .error _) => none

end Gamer.Recording
