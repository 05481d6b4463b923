import Mathlib.Algebra.Order.BigOperators.Group.List
import Gamer.Recording.Records

/-! The MP4 file is lossless. `finish` turns what the writer knows into the file, which a reader takes
    apart again:

        Records w samples ──finish──▶ ftyp │ mdat │ moov ──reader──▶ samples                -/

namespace Gamer.Recording
open Gamer.Lib Gamer.Lib.Bytes

/-! ### Boxes of the track -/

def box (kind : String) (payload : Bytes) : Box := ⟨ascii kind, payload⟩

theorem box_bytes (kind : String) (payload : Bytes) :
    (box kind payload).bytes = boxBytes kind payload := rfl

def stssBoxes (w : Writer) : List Box :=
  if w.syncs.length < w.samples then [box "stss" w.stssTable] else []

def stblBoxes (w : Writer) : List Box :=
  [box "stsd" w.stsd, box "stts" w.sttsTable] ++ stssBoxes w ++
    [box "stsc" w.stscTable, box "stsz" w.stszTable, box "stco" w.stcoTable]

def minfBoxes (w : Writer) : List Box :=
  [box "vmhd" Writer.vmhd, box "dinf" Writer.dinf, box "stbl" w.stbl]

def mdiaBoxes (w : Writer) (durationUs : Nat) : List Box :=
  [box "mdhd" (Writer.mdhd durationUs), box "hdlr" Writer.hdlr, box "minf" w.minf]

def trakBoxes (w : Writer) (durationUs : Nat) : List Box :=
  [box "tkhd" (w.tkhd ((durationUs + 999) / 1000)), box "mdia" (w.mdia durationUs)]

def moovBoxes (w : Writer) (durationUs : Nat) : List Box :=
  [box "mvhd" (Writer.mvhd ((durationUs + 999) / 1000)), box "trak" (w.trak durationUs)]

variable (w : Writer) (durationUs : Nat)

theorem stbl_eq : w.stbl = (stblBoxes w).flatMap Box.bytes := by
  unfold stblBoxes stssBoxes Writer.stbl
  split <;> simp [box_bytes]

theorem minf_eq : w.minf = (minfBoxes w).flatMap Box.bytes := by
  simp [minfBoxes, Writer.minf, box_bytes]

theorem mdia_eq : w.mdia durationUs = (mdiaBoxes w durationUs).flatMap Box.bytes := by
  simp [mdiaBoxes, Writer.mdia, box_bytes]

theorem trak_eq : w.trak durationUs = (trakBoxes w durationUs).flatMap Box.bytes := by
  simp [trakBoxes, Writer.trak, box_bytes]

theorem moovPayload_eq : w.moovPayload durationUs = (moovBoxes w durationUs).flatMap Box.bytes := by
  simp [moovBoxes, Writer.moovPayload, box_bytes]

/-! ### Nesting -/

/-- A kind of four characters whose payload is no longer than the boxes around it. -/
def Small (l : List Box) : Prop :=
  (∀ b ∈ l, b.kind.length = 4) ∧ (l.flatMap Box.bytes).length < 256 ^ 4

variable {w durationUs}

theorem Small.fits {l : List Box} (h : Small l) : ∀ b ∈ l, b.Fits := Box.fits_of_length h.1 h.2

theorem Small.inner {l : List Box} (h : Small l) {b : Box} (hb : b ∈ l) (n : Nat) :
    (b.payload.drop n).length < 256 ^ 4 := by
  have hlen := Box.payload_lt_flatMap h.1 hb
  have hsmall := h.2
  rw [List.length_drop]
  omega

/-- Boxes in the payload of a small one are small. -/
theorem Small.of_payload {l l' : List Box} (h : Small l) {b : Box} (hb : b ∈ l) (n : Nat)
    (heq : b.payload.drop n = l'.flatMap Box.bytes) (hkind : ∀ b ∈ l', b.kind.length = 4) :
    Small l' := by
  refine ⟨hkind, ?_⟩
  rw [← heq]
  exact h.inner hb n

theorem stsd_eq (w : Writer) : w.stsd.drop 8 = [box "avc1" w.avc1].flatMap Box.bytes := by
  rw [Writer.stsd, List.drop_left' (by simp [fullHeader])]
  simp [box_bytes]

theorem avc1_eq (w : Writer) :
    w.avc1.drop 78 = [box "avcC" (buildAvcc w.sps w.pps)].flatMap Box.bytes := by
  rw [Writer.avc1, List.drop_left' (by simp)]
  simp [box_bytes]

theorem dinf_eq : Writer.dinf.drop 0 = [box "dref" Writer.dref].flatMap Box.bytes := by
  rw [List.drop_zero, List.flatMap_singleton]
  rfl

theorem dref_eq : Writer.dref.drop 8 = [box "url " (fullHeader 0 1)].flatMap Box.bytes := by
  decide

theorem kinds_stbl (w : Writer) : ∀ b ∈ stblBoxes w, b.kind.length = 4 := by
  unfold stblBoxes stssBoxes
  split <;> simp [box, ascii]

/-- Of the boxes of the sample table only `stsd` holds boxes. -/
theorem mem_stblBoxes {b : Box} (h : b ∈ stblBoxes w) : b = box "stsd" w.stsd ∨
    ∃ kind payload, b = box kind payload ∧ containers (ascii kind) = none := by
  have hkinds : containers (ascii "stts") = none ∧ containers (ascii "stss") = none ∧
      containers (ascii "stsc") = none ∧ containers (ascii "stsz") = none ∧
      containers (ascii "stco") = none := by decide
  obtain ⟨hstts, hstss, hstsc, hstsz, hstco⟩ := hkinds
  unfold stblBoxes stssBoxes at h
  split at h <;> simp only [List.mem_append, List.mem_cons, List.not_mem_nil, or_false] at h
  · rcases h with ((rfl | rfl) | rfl) | rfl | rfl | rfl
    exacts [.inl rfl, .inr ⟨_, _, rfl, hstts⟩, .inr ⟨_, _, rfl, hstss⟩, .inr ⟨_, _, rfl, hstsc⟩,
      .inr ⟨_, _, rfl, hstsz⟩, .inr ⟨_, _, rfl, hstco⟩]
  · rcases h with (rfl | rfl) | rfl | rfl | rfl
    exacts [.inl rfl, .inr ⟨_, _, rfl, hstts⟩, .inr ⟨_, _, rfl, hstsc⟩, .inr ⟨_, _, rfl, hstsz⟩,
      .inr ⟨_, _, rfl, hstco⟩]

/-- The boxes of the track, if `moov` is small enough. -/
structure Boxed (w : Writer) (durationUs : Nat) : Prop where
  moov : Small (moovBoxes w durationUs)
  trak : Small (trakBoxes w durationUs)
  mdia : Small (mdiaBoxes w durationUs)
  minf : Small (minfBoxes w)
  stbl : Small (stblBoxes w)

theorem boxed (h : (w.buildMoov durationUs).length < 256 ^ 4) : Boxed w durationUs := by
  have hmoov : Small (moovBoxes w durationUs) := by
    refine ⟨by simp [moovBoxes, box, ascii], ?_⟩
    rw [← moovPayload_eq]
    simp only [Writer.buildMoov, boxBytes, List.length_append] at h
    omega
  have htrak : Small (trakBoxes w durationUs) :=
    hmoov.of_payload (b := box "trak" (w.trak durationUs)) (by simp [moovBoxes]) 0
      (trak_eq w durationUs) (by simp [trakBoxes, box, ascii])
  have hmdia : Small (mdiaBoxes w durationUs) :=
    htrak.of_payload (b := box "mdia" (w.mdia durationUs)) (by simp [trakBoxes]) 0
      (mdia_eq w durationUs) (by simp [mdiaBoxes, box, ascii])
  have hminf : Small (minfBoxes w) :=
    hmdia.of_payload (b := box "minf" w.minf) (by simp [mdiaBoxes]) 0 (minf_eq w)
      (by simp [minfBoxes, box, ascii])
  have hstbl : Small (stblBoxes w) :=
    hminf.of_payload (b := box "stbl" w.stbl) (by simp [minfBoxes]) 0 (stbl_eq w) (kinds_stbl w)
  exact ⟨hmoov, htrak, hmdia, hminf, hstbl⟩

theorem nests_leaf {kind : String} {payload : Bytes} (h : containers (ascii kind) = none) :
    (box kind payload).Nests containers := .leaf h

/-- A kind that holds boxes, whose payload is well nested behind the header. -/
theorem nests_box {kind : String} {payload : Bytes} {l : List Box} (n : Nat)
    (hkind : containers (ascii kind) = some n) (hlen : n ≤ payload.length)
    (heq : payload.drop n = l.flatMap Box.bytes) (hsmall : Small l)
    (hnests : ∀ b ∈ l, b.Nests containers) : (box kind payload).Nests containers :=
  .node hkind hlen (heq ▸ .of_boxes hsmall.fits hnests)

/-- Every nested box's length is its content's. -/
theorem Boxed.nested (h : Boxed w durationUs) :
    ∀ b ∈ moovBoxes w durationUs, b.Nests containers := by
  have hstsd : Small [box "avc1" w.avc1] :=
    h.stbl.of_payload (b := box "stsd" w.stsd) (by simp [stblBoxes]) 8 (stsd_eq w)
      (by simp [box, ascii])
  have havc1 : Small [box "avcC" (buildAvcc w.sps w.pps)] :=
    hstsd.of_payload (b := box "avc1" w.avc1) (by simp) 78 (avc1_eq w) (by simp [box, ascii])
  have havcC : ∀ b ∈ [box "avcC" (buildAvcc w.sps w.pps)], b.Nests containers := by
    have hconfig : (box "avcC" (buildAvcc w.sps w.pps)).Nests containers := nests_leaf (by decide)
    simpa using hconfig
  have hentry : ∀ b ∈ [box "avc1" w.avc1], b.Nests containers := by
    simpa using nests_box 78 (by decide) (by simp [Writer.avc1]; omega) (avc1_eq w) havc1 havcC
  have hstbl : ∀ b ∈ stblBoxes w, b.Nests containers := by
    have hdesc : (box "stsd" w.stsd).Nests containers :=
      nests_box 8 (by decide) (by simp [Writer.stsd, fullHeader]; omega) (stsd_eq w) hstsd hentry
    intro b hb
    rcases mem_stblBoxes hb with rfl | ⟨kind, payload, rfl, hkind⟩
    · exact hdesc
    · exact nests_leaf hkind
  have hdref : Small [box "url " (fullHeader 0 1)] := ⟨by simp [box, ascii], by decide⟩
  have hdinf : Small [box "dref" Writer.dref] := ⟨by simp [box, ascii], by decide⟩
  have hurl : ∀ b ∈ [box "url " (fullHeader 0 1)], b.Nests containers := by
    have hleaf : (box "url " (fullHeader 0 1)).Nests containers := nests_leaf (by decide)
    simpa using hleaf
  have hrefs : ∀ b ∈ [box "dref" Writer.dref], b.Nests containers := by
    simpa using nests_box 8 (by decide) (by decide) dref_eq hdref hurl
  have hminf : ∀ b ∈ minfBoxes w, b.Nests containers := by
    simp only [minfBoxes, List.forall_mem_cons]
    refine ⟨nests_leaf (by decide), ?_, ?_, by simp⟩
    · exact nests_box 0 (by decide) (Nat.zero_le _) dinf_eq hdinf hrefs
    · exact nests_box 0 (by decide) (Nat.zero_le _) (stbl_eq w) h.stbl hstbl
  have hmdia : ∀ b ∈ mdiaBoxes w durationUs, b.Nests containers := by
    simp only [mdiaBoxes, List.forall_mem_cons]
    refine ⟨nests_leaf (by decide), nests_leaf (by decide), ?_, by simp⟩
    exact nests_box 0 (by decide) (Nat.zero_le _) (minf_eq w) h.minf hminf
  have htrak : ∀ b ∈ trakBoxes w durationUs, b.Nests containers := by
    simp only [trakBoxes, List.forall_mem_cons]
    refine ⟨nests_leaf (by decide), ?_, by simp⟩
    exact nests_box 0 (by decide) (Nat.zero_le _) (mdia_eq w durationUs) h.mdia hmdia
  simp only [moovBoxes, List.forall_mem_cons]
  refine ⟨nests_leaf (by decide), ?_, by simp⟩
  exact nests_box 0 (by decide) (Nat.zero_le _) (trak_eq w durationUs) h.trak htrak

/-! ### Reading the tables -/

theorem readRun_run {run : Nat × Nat} (h₁ : run.1 < 256 ^ 4) (h₂ : run.2 < 256 ^ 4) (rest : Bytes) :
    readRun (be 4 run.1 ++ be 4 run.2 ++ rest) = some (run, rest) := by
  simp [readRun, List.append_assoc, readBe_be (n := 4) h₁, readBe_be (n := 4) h₂]

theorem fullHeader_zero : fullHeader 0 0 = be 4 0 := by decide

theorem readTable_eq {α : Type} {read : Bytes → Option (α × Bytes)} {payload rest₁ rest₂ : Bytes}
    {flags n : Nat} {l : List α} (h₁ : readBe 4 payload = some (flags, rest₁))
    (h₂ : readBe 4 rest₁ = some (n, rest₂)) (h₃ : readMany read n rest₂ = some (l, [])) :
    readTable read payload = some l := by
  simp [readTable, h₁, h₂, h₃]

/-- TABLE RULE: entries behind their count are read back. -/
theorem readTable_table {α : Type} {read : Bytes → Option (α × Bytes)} {enc : α → Bytes}
    {entries : List α} (hcount : entries.length < 256 ^ 4)
    (hread : ∀ a ∈ entries, ∀ rest, read (enc a ++ rest) = some (a, rest)) :
    readTable read (be 4 0 ++ (be 4 entries.length ++ entries.flatMap enc)) = some entries := by
  have hmany := readMany_flatMap entries hread []
  rw [List.append_nil] at hmany
  exact readTable_eq (readBe_be (by norm_num) _) (readBe_be hcount _) hmany

theorem read_numbers {numbers : List Nat} (h : ∀ n ∈ numbers, n < 256 ^ 4)
    (hcount : numbers.length < 256 ^ 4) :
    readTable (readBe 4) (be 4 0 ++ (be 4 numbers.length ++ numbers.flatMap (be 4))) =
      some numbers :=
  readTable_table hcount fun n hn rest => readBe_be (n := 4) (h n hn) rest

theorem read_stts (h : ∀ run ∈ w.stts, run.1 < 256 ^ 4 ∧ run.2 < 256 ^ 4)
    (hcount : w.stts.length < 256 ^ 4) : readTable readRun w.sttsTable = some w.stts := by
  rw [Writer.sttsTable, fullHeader_zero, List.append_assoc]
  exact readTable_table hcount fun run hrun rest => readRun_run (h run hrun).1 (h run hrun).2 rest

theorem read_stss (h : ∀ n ∈ w.syncs, n < 256 ^ 4) (hcount : w.syncs.length < 256 ^ 4) :
    readTable (readBe 4) w.stssTable = some w.syncs := by
  rw [Writer.stssTable, fullHeader_zero, List.append_assoc]
  exact read_numbers h hcount

theorem read_stsz (h : ∀ n ∈ w.sizes, n < 256 ^ 4) (hcount : w.sizes.length < 256 ^ 4)
    (hsamples : w.samples = w.sizes.length) :
    readTable (readBe 4) (w.stszTable.drop 4) = some w.sizes := by
  have hdrop : w.stszTable.drop 4 =
      be 4 0 ++ (be 4 w.sizes.length ++ w.sizes.flatMap (be 4)) := by
    rw [Writer.stszTable, fullHeader_zero, hsamples, List.append_assoc, List.append_assoc,
      List.drop_left' (be_length 4 0)]
  rw [hdrop]
  exact read_numbers h hcount

theorem read_stco (h : w.mdatDataStart < 256 ^ 4) :
    readTable (readBe 4) w.stcoTable = some [w.mdatDataStart] := by
  have hentry : w.stcoTable = be 4 0 ++ (be 4 [w.mdatDataStart].length ++
      [w.mdatDataStart].flatMap (be 4)) := by
    rw [Writer.stcoTable, fullHeader_zero, List.flatMap_singleton, List.append_assoc]
    rfl
  rw [hentry]
  exact read_numbers (by simpa using h) (by simp)

/-! ### Finding the tables -/

/-- What stands in a box of the sample table is found from the top. -/
theorem Boxed.locate {l : List Box} (h : Boxed w durationUs) (hl : ∀ b ∈ l, b.Fits)
    (hmoov : (l.find? fun b => b.kind = ascii "moov") =
      some (box "moov" (w.moovPayload durationUs))) (name : String) :
    Box.locate containers (stblPath name) (l.flatMap Box.bytes) =
      Box.locate containers [ascii name] w.stbl := by
  have hkinds : (containers (ascii "moov")).getD 0 = 0 ∧ (containers (ascii "trak")).getD 0 = 0 ∧
      (containers (ascii "mdia")).getD 0 = 0 ∧ (containers (ascii "minf")).getD 0 = 0 ∧
      (containers (ascii "stbl")).getD 0 = 0 := by decide
  obtain ⟨h₁, h₂, h₃, h₄, h₅⟩ := hkinds
  simp only [stblPath, List.map_cons, List.map_nil]
  rw [Box.locate_cons hl hmoov, h₁, List.drop_zero, box, moovPayload_eq,
    Box.locate_cons h.moov.fits (b := box "trak" (w.trak durationUs)) rfl, h₂, List.drop_zero, box,
    trak_eq, Box.locate_cons h.trak.fits (b := box "mdia" (w.mdia durationUs)) rfl, h₃,
    List.drop_zero, box, mdia_eq, Box.locate_cons h.mdia.fits (b := box "minf" w.minf) rfl, h₄,
    List.drop_zero, box, minf_eq, Box.locate_cons h.minf.fits (b := box "stbl" w.stbl) rfl, h₅,
    List.drop_zero, box]

/-- A table of the sample table, and that `stss` may be missing. -/
theorem Boxed.locate_stbl (h : Boxed w durationUs) :
    Box.locate containers [ascii "stts"] w.stbl = some w.sttsTable ∧
    Box.locate containers [ascii "stsz"] w.stbl = some w.stszTable ∧
    Box.locate containers [ascii "stco"] w.stbl = some w.stcoTable ∧
    Box.locate containers [ascii "stss"] w.stbl =
      if w.syncs.length < w.samples then some w.stssTable else none := by
  have hleaf : ∀ {kind : String} {payload : Bytes} {b : Box}, b = box kind payload →
      containers (ascii kind) = none →
      ((stblBoxes w).find? fun b => b.kind = ascii kind) = some b →
      Box.locate containers [ascii kind] w.stbl = some payload := by
    rintro kind payload b rfl hkind hfind
    rw [stbl_eq, Box.locate_cons h.stbl.fits hfind, hkind]
    rfl
  by_cases hsyncs : w.syncs.length < w.samples
  · have hboxes : stblBoxes w = [box "stsd" w.stsd, box "stts" w.sttsTable, box "stss" w.stssTable,
        box "stsc" w.stscTable, box "stsz" w.stszTable, box "stco" w.stcoTable] := by
      rw [stblBoxes, stssBoxes, if_pos hsyncs]
      rfl
    rw [if_pos hsyncs]
    exact ⟨hleaf rfl (by decide) (by rw [hboxes]; rfl), hleaf rfl (by decide) (by rw [hboxes]; rfl),
      hleaf rfl (by decide) (by rw [hboxes]; rfl), hleaf rfl (by decide) (by rw [hboxes]; rfl)⟩
  · have hboxes : stblBoxes w = [box "stsd" w.stsd, box "stts" w.sttsTable,
        box "stsc" w.stscTable, box "stsz" w.stszTable, box "stco" w.stcoTable] := by
      rw [stblBoxes, stssBoxes, if_neg hsyncs]
      rfl
    have hmissing : ((stblBoxes w).find? fun b => b.kind = ascii "stss") = none := by
      rw [hboxes]
      rfl
    rw [if_neg hsyncs]
    refine ⟨hleaf rfl (by decide) (by rw [hboxes]; rfl), hleaf rfl (by decide) (by rw [hboxes]; rfl),
      hleaf rfl (by decide) (by rw [hboxes]; rfl), ?_⟩
    rw [stbl_eq, Box.locate, Box.readBoxes_flatMap h.stbl.fits, Option.bind_some, hmissing]

/-! ### The finished file -/

/-- The three boxes of the file. -/
def fileBoxes (w : Writer) (data : Bytes) : List Box :=
  [box "ftyp" ftypPayload, box "mdat" data, box "moov" (w.moovPayload w.sumDelta)]

/-- INVERSION: a finish that returns Ok. -/
theorem finish_ok {w : Writer} {fault : Option String} {sha256 : Bytes → String}
    {summary : MuxSummary} {file : Bytes} (h : w.finish fault sha256 = .ok (summary, file)) :
    w.samples ≠ 0 ∧ summary.durationUs = w.closing.sumDelta ∧
    summary.sizeBytes = w.offset + (w.closing.buildMoov w.closing.sumDelta).length ∧
    file = writeAt (writeAt w.file w.mdatSizePos (be 4 (w.mdatBytes + 8))) w.offset
      (w.closing.buildMoov w.closing.sumDelta) := by
  unfold Writer.finish at h
  split_ifs at h with hconfig hsamples
  cases fault with
  | some e => cases h
  | none =>
    cases h
    exact ⟨hsamples, rfl, rfl, rfl⟩

theorem writeAt_end (file bytes : Bytes) : writeAt file file.length bytes = file ++ bytes := by
  simp [writeAt]

/-- The length of the media data goes where it was left open. -/
theorem writeAt_mid {before mid after bytes : Bytes} (h : bytes.length = mid.length) :
    writeAt (before ++ (mid ++ after)) before.length bytes = before ++ (bytes ++ after) := by
  rw [writeAt, List.take_left, ← List.drop_drop, List.drop_left, h, List.drop_left,
    List.append_assoc]

theorem Streamed.finished {samples : List Sample} {summary : MuxSummary} {file : Bytes}
    {fault : Option String} {sha256 : Bytes → String} (h : Streamed w samples)
    (hfinish : w.finish fault sha256 = .ok (summary, file)) :
    file = (fileBoxes w.closing (samples.flatMap Sample.bytes)).flatMap Box.bytes ∧
    summary.sizeBytes = file.length := by
  obtain ⟨_, _, hsize, hfile⟩ := finish_ok hfinish
  have hpatched : writeAt w.file w.mdatSizePos (be 4 (w.mdatBytes + 8)) =
      (box "ftyp" ftypPayload).bytes ++ (box "mdat" (samples.flatMap Sample.bytes)).bytes := by
    rw [h.file, h.sizePos, List.append_assoc, List.append_assoc, writeAt_mid (by simp), h.mdat,
      box_bytes, box_bytes, boxBytes, boxBytes]
    simp only [List.append_assoc]
  have hlength : w.offset = (writeAt w.file w.mdatSizePos (be 4 (w.mdatBytes + 8))).length := by
    rw [hpatched, h.offset, h.file, box_bytes, box_bytes, boxBytes, boxBytes]
    simp
  rw [hlength, writeAt_end] at hfile
  refine ⟨?_, by rw [hsize, hfile, List.length_append, hlength]⟩
  rw [hfile, hpatched]
  simp [fileBoxes, box_bytes, Writer.buildMoov]

/-! ### What the tables say -/

/-- FRAME: the last sample's time is nothing that is streamed. -/
theorem Streamed.closing {samples : List Sample} (h : Streamed w samples) :
    Streamed w.closing samples := by
  obtain ⟨h₁, h₂, h₃, h₄, h₅, h₆, h₇, h₈, h₉⟩ := h
  exact ⟨h₁, h₂, h₃, h₄, h₅, h₆, h₇, h₈, h₉⟩

/-- The times of all samples, the last one's too. -/
theorem Timed.closing {pts : List Nat} (h : Timed w pts) :
    expand w.closing.stts = deltas pts ++ [w.lastDelta] ∧
    (∀ run ∈ w.closing.stts, 0 < run.1) ∧ w.closing.sumDelta = (expand w.closing.stts).sum := by
  have hruns : expand w.closing.stts = deltas pts ++ [w.lastDelta] := by
    rw [← h.runs]
    exact expand_pushRun w.lastDelta w.stts
  refine ⟨hruns, pushRun_filled _ _ h.filled, ?_⟩
  rw [hruns, List.sum_append, ← h.sum, List.sum_singleton]
  rfl

theorem Timed.lastDelta_lt {pts : List Nat} (h : Timed w pts) : w.lastDelta < 256 ^ 4 := by
  rw [h.lastDelta]
  cases hlast : (deltas pts).getLast? with
  | none => norm_num
  | some d =>
    have hlt := deltas_lt pts d (List.mem_of_getLast? hlast)
    norm_num at hlt ⊢
    exact hlt

theorem mem_expand {runs : List (Nat × Nat)} {run : Nat × Nat} (hrun : run ∈ runs)
    (hfilled : 0 < run.1) : run.2 ∈ expand runs :=
  List.mem_flatMap.mpr ⟨run, hrun, List.mem_replicate.mpr ⟨hfilled.ne', rfl⟩⟩

/-- Every sample takes a byte of the media data at least. -/
theorem Records.count_le {samples : List Sample} (h : Records w samples) :
    samples.length ≤ w.mdatBytes := by
  rw [h.streamed.mdat]
  exact length_le_flatMap samples fun s hs => sample_bytes_ne_nil (h.filled s hs)

theorem mdat_lt (h : w.mdatBytes ≤ maxMdatBytes) : w.mdatBytes + 8 < 256 ^ 4 := by
  unfold maxMdatBytes at h
  norm_num
  omega

/-- The counts and lengths of times in the table fit. -/
theorem Records.stts_fits {samples : List Sample} (h : Records w samples) (hne : samples ≠ []) :
    (w.closing.stts.map Prod.fst).sum = samples.length ∧
    (∀ run ∈ w.closing.stts, run.1 < 256 ^ 4 ∧ run.2 < 256 ^ 4) ∧
    w.closing.stts.length < 256 ^ 4 := by
  obtain ⟨hruns, hfilled, _⟩ := h.timed.closing
  have hcount : (w.closing.stts.map Prod.fst).sum = samples.length := by
    have hpos := List.length_pos_iff.mpr hne
    rw [← length_expand, hruns, List.length_append, length_deltas, List.length_map,
      List.length_singleton]
    omega
  have hsmall : samples.length < 256 ^ 4 := by
    have hle := h.count_le
    have hlt := mdat_lt h.streamed.bound
    omega
  refine ⟨hcount, fun run hrun => ⟨?_, ?_⟩, ?_⟩
  · have hle := List.single_le_sum (fun n _ => Nat.zero_le n) _ (List.mem_map_of_mem (f := Prod.fst) hrun)
    omega
  · have hmem := mem_expand hrun (hfilled run hrun)
    rw [hruns] at hmem
    rcases List.mem_append.mp hmem with hmem | hmem
    · have hlt := deltas_lt _ _ hmem
      norm_num at hlt ⊢
      exact hlt
    · rw [List.mem_singleton.mp hmem]
      exact h.timed.lastDelta_lt
  · have hle : w.closing.stts.length ≤ (w.closing.stts.map Prod.fst).sum := by
      have hlen := List.length_le_sum_of_one_le (w.closing.stts.map Prod.fst)
        (List.forall_mem_map.mpr hfilled)
      rwa [List.length_map] at hlen
    omega

/-! ### The reading -/

/-- What a reader finds in the file. -/
def reading (w : Writer) (samples : List Sample) : Reading where
  mdat := samples.flatMap Sample.bytes
  moov := w.moovPayload w.sumDelta
  table := ⟨w.stts, if w.syncs.length < w.samples then some w.syncs else none, w.sizes,
    w.mdatDataStart⟩
  pieces := samples.map Sample.bytes

theorem fits_fileBoxes {data : Bytes} (hdata : data.length + 8 < 256 ^ 4)
    (hmoov : (w.buildMoov w.sumDelta).length < 256 ^ 4) : ∀ b ∈ fileBoxes w data, b.Fits := by
  simp only [fileBoxes, List.forall_mem_cons]
  refine ⟨⟨rfl, by decide⟩, ⟨rfl, hdata⟩, ⟨rfl, ?_⟩, by simp⟩
  rw [Writer.buildMoov, boxBytes, List.length_append, List.length_append, be_length] at hmoov
  have hkind : (ascii "moov").length = 4 := rfl
  rw [hkind] at hmoov
  show (w.moovPayload w.sumDelta).length + 8 < 256 ^ 4
  omega

theorem readTables_eq {file stts stsz stco : Bytes} {table : SampleTable}
    (hstts : Box.locate containers (stblPath "stts") file = some stts)
    (hstsz : Box.locate containers (stblPath "stsz") file = some stsz)
    (hstco : Box.locate containers (stblPath "stco") file = some stco)
    (htimes : readTable readRun stts = some table.stts)
    (hsizes : readTable (readBe 4) (stsz.drop 4) = some table.sizes)
    (hoffset : readTable (readBe 4) stco = some [table.chunkOffset])
    (hstss : (Box.locate containers (stblPath "stss") file = none ∧ table.stss = none) ∨
      ∃ stss syncs, Box.locate containers (stblPath "stss") file = some stss ∧
        readTable (readBe 4) stss = some syncs ∧ table.stss = some syncs) :
    readTables file = some table := by
  obtain ⟨runs, numbers, sizes, offset⟩ := table
  rcases hstss with ⟨hnone, rfl⟩ | ⟨stss, syncs, hsome, hread, rfl⟩
  · simp [readTables, hstts, hstsz, hstco, htimes, hsizes, hoffset, hnone]
  · simp [readTables, hstts, hstsz, hstco, htimes, hsizes, hoffset, hsome, hread]

theorem length_le_of_mem {samples : List Sample} {s : Sample} (h : s ∈ samples) :
    s.bytes.length ≤ (samples.flatMap Sample.bytes).length := by
  obtain ⟨front, back, rfl⟩ := List.append_of_mem h
  rw [List.flatMap_append, List.flatMap_cons, List.length_append, List.length_append]
  omega

/-- The closing's tables are read back. -/
theorem Records.tables {samples : List Sample} (h : Records w samples) (hne : samples ≠ [])
    (hmoov : (w.closing.buildMoov w.closing.sumDelta).length < 256 ^ 4) {l : List Box}
    (hl : ∀ b ∈ l, b.Fits) (hfind : (l.find? fun b => b.kind = ascii "moov") =
      some (box "moov" (w.closing.moovPayload w.closing.sumDelta))) :
    readTables (l.flatMap Box.bytes) = some (reading w.closing samples).table := by
  have hs := h.streamed.closing
  obtain ⟨_, hruns, hlen⟩ := h.stts_fits hne
  have hboxed := boxed hmoov
  obtain ⟨hstts, hstsz, hstco, hstss⟩ := hboxed.locate_stbl
  have hdata := mdat_lt h.streamed.bound
  have hcount := h.count_le
  have hsize : ∀ n ∈ w.closing.sizes, n < 256 ^ 4 := by
    rw [hs.sizes, List.forall_mem_map]
    intro s hmem
    have hle := length_le_of_mem hmem
    rw [← h.streamed.mdat] at hle
    omega
  have hsync : ∀ n ∈ w.closing.syncs, n < 256 ^ 4 := by
    intro n hn
    rw [hs.syncs] at hn
    have hrange := (keyNumbers_names samples).range n hn
    omega
  have hsyncs : w.closing.syncs.length ≤ samples.length := by
    rw [hs.syncs]
    exact (length_keyNumbers samples 1).1
  have hlengths : w.closing.samples = w.closing.sizes.length := by
    rw [hs.sizes, List.length_map, hs.count]
  have hstart : w.closing.mdatDataStart < 256 ^ 4 := by
    have hftyp : (boxBytes "ftyp" ftypPayload).length = 32 := by decide
    rw [hs.dataStart, hs.sizePos, hftyp]
    omega
  have hsizes : w.closing.sizes.length < 256 ^ 4 := by
    rw [← hlengths, hs.count]
    omega
  have hlocate := fun name => hboxed.locate hl hfind name
  refine readTables_eq ((hlocate _).trans hstts) ((hlocate _).trans hstsz)
    ((hlocate _).trans hstco) (read_stts hruns hlen) (read_stsz hsize hsizes hlengths)
    (read_stco hstart) ?_
  by_cases hall : w.closing.syncs.length < w.closing.samples
  · rw [if_pos hall] at hstss
    exact .inr ⟨_, _, (hlocate _).trans hstss, read_stss hsync (by omega), if_pos hall⟩
  · rw [if_neg hall] at hstss
    exact .inl ⟨(hlocate _).trans hstss, if_neg hall⟩

/-- The media data behind the offset is cut apart by the sizes. -/
theorem Records.cut {samples : List Sample} (h : Records w samples) :
    Bytes.cut (reading w.closing samples).table.sizes
      (((fileBoxes w.closing (samples.flatMap Sample.bytes)).flatMap Box.bytes).drop
        (reading w.closing samples).table.chunkOffset) =
      some (reading w.closing samples).pieces := by
  have hs := h.streamed.closing
  have hfile : (fileBoxes w.closing (samples.flatMap Sample.bytes)).flatMap Box.bytes =
      (boxBytes "ftyp" ftypPayload ++
        (be 4 ((samples.flatMap Sample.bytes).length + 8) ++ ascii "mdat")) ++
      ((samples.map Sample.bytes).flatten ++ w.closing.buildMoov w.closing.sumDelta) := by
    simp [fileBoxes, box_bytes, boxBytes, Writer.buildMoov, List.flatMap_def]
  have hsizes : (reading w.closing samples).table.sizes =
      (samples.map Sample.bytes).map List.length := by
    show w.closing.sizes = _
    rw [hs.sizes, List.map_map]
    rfl
  have hstart : (reading w.closing samples).table.chunkOffset = (boxBytes "ftyp" ftypPayload ++
      (be 4 ((samples.flatMap Sample.bytes).length + 8) ++ ascii "mdat")).length := by
    show w.closing.mdatDataStart = _
    rw [hs.dataStart, hs.sizePos, List.length_append, List.length_append, be_length]
    rfl
  rw [hfile, hsizes, hstart, List.drop_left, cut_flatten]
  rfl

/-- The units of a sample are read back by their lengths. -/
theorem readAll_sample {s : Sample} (h : s.bytes.length < 256 ^ 4) :
    readAll readPrefixed s.bytes = some s.nals := by
  refine readAll_flatMap fun nal hnal => ⟨?_, fun rest => readPrefixed_prefixed ?_ rest⟩
  · intro hnil
    have hlen := congrArg List.length hnil
    rw [prefixed, List.length_append, be_length, List.length_nil] at hlen
    omega
  · obtain ⟨front, back, heq⟩ := List.append_of_mem hnal
    rw [Sample.bytes, heq, List.flatMap_append, List.flatMap_cons, prefixed, List.length_append,
      List.length_append, List.length_append] at h
    omega

/-- The times that the table gives are those of the samples. -/
theorem Records.times {samples : List Sample} (h : Records w samples) (hsteady : Steady samples)
    (i : Nat) (s first : Sample) (hi : samples[i]? = some s) (h0 : samples[0]? = some first) :
    first.ptsUs + decodeTime w.closing.stts i = s.ptsUs := by
  obtain ⟨hruns, _⟩ := h.timed.closing
  have hle : i ≤ (deltas (samples.map Sample.ptsUs)).length := by
    obtain ⟨hlt, _⟩ := List.getElem?_eq_some_iff.mp hi
    rw [length_deltas, List.length_map]
    omega
  rw [decodeTime, hruns, List.take_append_of_le_length hle]
  refine sum_take_deltas (samples.map Sample.ptsUs) ?_ i _ _ (by simp [h0]) (by simp [hi])
  rw [List.isChain_map]
  exact hsteady

theorem Records.syncs {samples : List Sample} (h : Records w samples) :
    SyncsFit (reading w.closing samples).table.stss samples := by
  have hs := h.streamed.closing
  show SyncsFit (if w.closing.syncs.length < w.closing.samples then _ else _) samples
  rw [hs.count, hs.syncs]
  obtain ⟨hle, hall⟩ := length_keyNumbers samples 1
  split_ifs with hlt
  · exact keyNumbers_names samples
  · exact hall (by omega)

/-- SAFETY: what a finished writer leaves is three boxes whose nested boxes fill theirs, and a reader
    of its tables gets back every unit, every time and the key frames of what was written. -/
theorem mux_lossless {width height : Nat} {calls : List Call} {w : Writer} {fault : Option String}
    {sha256 : Bytes → String} {summary : MuxSummary} {file : Bytes}
    (hrun : Machine.exec step (Writer.create width height) calls = some w)
    (hfinish : w.finish fault sha256 = .ok (summary, file))
    (hmoov : (w.closing.buildMoov w.closing.sumDelta).length < 2 ^ 32)
    (hsteady : Steady (samplesOf calls)) :
    ∃ r, Reads file r ∧ Faithful r (samplesOf calls) ∧
      summary.durationUs = (r.table.stts.map fun run => run.1 * run.2).sum ∧
      summary.sizeBytes = file.length := by
  have h := (create_records width height).run hrun
  rw [List.nil_append] at h
  generalize samplesOf calls = samples at h hsteady
  obtain ⟨hcount, hduration, _, _⟩ := finish_ok hfinish
  obtain ⟨hfile, hsize⟩ := h.streamed.finished hfinish
  have hmoov' : (w.closing.buildMoov w.closing.sumDelta).length < 256 ^ 4 := by
    norm_num at hmoov ⊢
    exact hmoov
  have hne : samples ≠ [] := by
    rintro rfl
    exact hcount h.streamed.count
  have hdata : (samples.flatMap Sample.bytes).length + 8 < 256 ^ 4 := by
    rw [← h.streamed.mdat]
    exact mdat_lt h.streamed.bound
  have hfits := fits_fileBoxes hdata hmoov'
  have hfind : ((fileBoxes w.closing (samples.flatMap Sample.bytes)).find? fun b =>
      b.kind = ascii "moov") = some (box "moov" (w.closing.moovPayload w.closing.sumDelta)) := rfl
  have hnests : ∀ b ∈ fileBoxes w.closing (samples.flatMap Sample.bytes), b.Nests containers := by
    have hboxed := boxed hmoov'
    simp only [fileBoxes, List.forall_mem_cons]
    refine ⟨nests_leaf (by decide), nests_leaf (by decide), ?_, by simp⟩
    exact nests_box 0 (by decide) (Nat.zero_le _) (moovPayload_eq _ _) hboxed.moov hboxed.nested
  refine ⟨reading w.closing samples, ⟨?_, ?_, ?_, ?_, ?_⟩, ⟨?_, ?_, ?_, h.syncs⟩, ?_, hsize⟩
  · rw [hfile]
    exact Box.readBoxes_flatMap hfits
  · rw [hfile]
    exact .of_boxes hfits hnests
  · rw [hfile]
    exact h.tables hne hmoov' hfits hfind
  · rw [hfile]
    exact h.cut
  · show (samples.map Sample.bytes).flatten = samples.flatMap Sample.bytes
    rw [List.flatMap_def]
  · show (samples.map Sample.bytes).map (readAll readPrefixed) = _
    rw [List.map_map]
    refine List.map_congr_left fun s hs => readAll_sample ?_
    have hle := length_le_of_mem hs
    omega
  · exact (h.stts_fits hne).1
  · exact h.times hsteady
  · rw [hduration, h.timed.closing.2.2, sum_expand]
    rfl

/-- Parameter sets, a key frame and a frame 33 ms later. -/
def shortCalls : List Call :=
  [.setConfig [0, 0, 0, 1, 0x67, 1, 2, 3, 0, 0, 1, 0x68, 9],
    .writeAnnexbSample none [0, 0, 1, 0x65, 7] 1000 true,
    .writeAnnexbSample none [0, 0, 1, 0x41, 8] 34000 false]

theorem mux_lossless_short : ∃ (w : Writer) (summary : MuxSummary) (file : Bytes) (r : Reading),
    w.finish none (fun _ => "") = .ok (summary, file) ∧ Reads file r ∧
    Faithful r (samplesOf shortCalls) := by
  obtain ⟨w, hrun, hok, hmoov⟩ : ∃ w, Machine.exec step (Writer.create 320 240) shortCalls = some w ∧
      (w.finish none fun _ => "").toOption.isSome = true ∧
      (w.closing.buildMoov w.closing.sumDelta).length < 2 ^ 32 :=
    Machine.exec_eval (by decide +kernel)
  cases hfinish : w.finish none fun _ => "" with
  | error e =>
    rw [hfinish] at hok
    cases hok
  | ok result =>
    have hsteady : Steady (samplesOf shortCalls) := by
      unfold Steady
      decide +kernel
    obtain ⟨r, hreads, hfaithful, _⟩ := mux_lossless hrun hfinish hmoov hsteady
    exact ⟨w, result.1, result.2, r, hfinish, hreads, hfaithful⟩

end Gamer.Recording
