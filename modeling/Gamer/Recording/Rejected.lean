import Mathlib.Tactic.SplitIfs
import Gamer.Recording.Lossless

/-! A sample that does not fit. The writer takes its parameter sets and its time before it looks at
    the room that is left, and keeps both when it refuses the sample:

        parameter sets ──▶ stts, last time ──▶ room? ──no──▶ Err
                                                 └─yes─▶ mdat, stsz, stss, count

    So `finish` writes one run more into `stts` than there are samples. -/

namespace Gamer.Recording
open Gamer.Lib Gamer.Lib.Bytes

/-! ### Calls that go on after an error -/

/-- The writer after a call, whatever it returned. -/
def after (w : Writer) : Call → Writer
  | .setConfig annexb => w.setConfig annexb
  | .writeAnnexbSample fault au ptsUs keyframe => (w.writeAnnexbSample fault au ptsUs keyframe).1

/-- A writer that some calls have left. -/
def Used (w : Writer) : Prop :=
  ∃ width height, ∃ calls : List Call, w = calls.foldl after (Writer.create width height)

/-- The error `FileTooLarge` of a sample that does not fit. -/
def fileTooLarge : Except String Nat := .error "segment exceeds MP4 mdat size limit"

theorem collect_fst (nals : List Bytes) : ∀ (w : Writer) (avcc : Bytes),
    (w.collect avcc nals).1 = nals.foldl (fun w nal =>
      if nalType nal = 7 then { w with sps := nal }
      else if nalType nal = 8 then { w with pps := nal }
      else w) w := by
  induction nals with
  | nil => exact fun _ _ => rfl
  | cons nal nals ih =>
    intro w avcc
    rw [Writer.collect, List.foldl_cons]
    split
    · exact ih _ _
    · split
      · exact ih _ _
      · exact ih _ _

/-- The parameter sets of a sample are taken as those of a configuration. -/
theorem collect_setConfig (w : Writer) (au : Bytes) :
    (w.collect [] (splitAnnexb au)).1 = w.setConfig au := collect_fst _ w []

/-- INVERSION: what a sample that is refused leaves. -/
theorem refused_eq {w : Writer} {fault : Option Nat} {au : Bytes} {ptsUs : Nat} {keyframe : Bool}
    (h : (w.writeAnnexbSample fault au ptsUs keyframe).2 = fileTooLarge) :
    (w.writeAnnexbSample fault au ptsUs keyframe).1 = (w.setConfig au).stamp ptsUs := by
  rw [← collect_setConfig]
  unfold Writer.writeAnnexbSample at h ⊢
  generalize w.collect [] (splitAnnexb au) = collected at h ⊢
  obtain ⟨w₁, avcc⟩ := collected
  dsimp only at h ⊢
  split at h
  · cases h
  · split at h
    · next hne hfull => rw [if_neg hne, if_pos hfull]
    · cases fault with
      | none => cases h
      | some n =>
        simp only [Writer.writeBytes, fileTooLarge] at h
        exact absurd h (by simp)

/-! ### What every used writer has -/

/-- INVARIANT: once there is a sample there is a time. -/
def Stamped (w : Writer) : Prop := 0 < w.samples → w.lastPts.isSome = true

theorem stamp_lastPts (w : Writer) (ptsUs : Nat) : (w.stamp ptsUs).lastPts = some ptsUs := by
  unfold Writer.stamp
  split
  · rfl
  · rfl

theorem Stamped.after {w : Writer} (h : Stamped w) (call : Call) : Stamped (after w call) := by
  cases call with
  | setConfig annexb =>
    obtain ⟨sps, pps, heq⟩ := setConfig_eq w annexb
    rw [Recording.after, heq]
    exact h
  | writeAnnexbSample fault au ptsUs keyframe =>
    obtain ⟨sps, pps, hcollect⟩ := collect_eq (splitAnnexb au) w []
    have hstamp := stamp_lastPts (w.withConfig sps pps) ptsUs
    show Stamped (w.writeAnnexbSample fault au ptsUs keyframe).1
    unfold Writer.writeAnnexbSample
    rw [hcollect]
    generalize [] ++
      ((splitAnnexb au).filter fun nal => !isParameterSet nal).flatMap prefixed = avcc
    dsimp only
    split
    · exact h
    · split
      · exact fun _ => Option.isSome_of_eq_some hstamp
      · cases fault with
        | none => exact fun _ => Option.isSome_of_eq_some hstamp
        | some n => exact fun _ => Option.isSome_of_eq_some hstamp

theorem Used.stamped {w : Writer} (h : Used w) : Stamped w := by
  obtain ⟨width, height, calls, rfl⟩ := h
  have hrun : ∀ (calls : List Call) (w : Writer), Stamped w →
      Stamped (calls.foldl Recording.after w) := by
    intro calls
    induction calls with
    | nil => exact fun _ hw => hw
    | cons call calls ih => exact fun w hw => ih _ (hw.after call)
  refine hrun calls _ fun hpos => ?_
  exact absurd hpos (Nat.lt_irrefl 0)

/-- Parameter sets are replaced, never taken away. -/
theorem hasConfig_setConfig {w : Writer} (h : w.hasConfig = true) (au : Bytes) :
    (w.setConfig au).hasConfig = true := by
  have hunits : ∀ nal ∈ splitAnnexb au, nal ≠ [] := by
    intro nal hnal
    unfold splitAnnexb at hnal
    exact of_decide_eq_true (List.mem_filter.mp hnal).2
  unfold Writer.setConfig
  generalize splitAnnexb au = nals at hunits
  induction nals generalizing w with
  | nil => exact h
  | cons nal nals ih =>
    obtain ⟨hnal, hrest⟩ := List.forall_mem_cons.mp hunits
    rw [List.foldl_cons]
    refine ih ?_ hrest
    unfold Writer.hasConfig at h ⊢
    split
    · simp_all
    · split
      · simp_all
      · exact h

/-! ### The tables of two files -/

theorem be_inj {n v v' : Nat} (h : be n v = be n v') : v % 256 ^ n = v' % 256 ^ n := by
  have hread := readBe_be_mod n v []
  rw [h, readBe_be_mod] at hread
  exact (Prod.mk.inj (Option.some.inj hread)).1.symm

theorem boxBytes_length (kind : String) (payload : Bytes) (hkind : (ascii kind).length = 4) :
    (boxBytes kind payload).length = payload.length + 8 :=
  Box.length_bytes (b := box kind payload) hkind

/-- Of two boxes of a kind that are equal the payloads are. -/
theorem boxBytes_inj {kind : String} {payload payload' : Bytes}
    (h : boxBytes kind payload = boxBytes kind payload') : payload = payload' := by
  unfold boxBytes at h
  exact (List.append_inj h (by simp)).2

/-- Boxes that start a file are equal if they are as long. -/
theorem boxBytes_append {kind : String} {payload payload' rest rest' : Bytes}
    (h : boxBytes kind payload ++ rest = boxBytes kind payload' ++ rest')
    (hlen : payload.length = payload'.length) : payload = payload' ∧ rest = rest' := by
  obtain ⟨hbox, hrest⟩ := List.append_inj h (by simp [boxBytes, hlen])
  exact ⟨boxBytes_inj hbox, hrest⟩

/-- Two `moov` that are equal have equal sample tables. -/
theorem buildMoov_stbl {w w' : Writer} {d d' : Nat} (h : w.buildMoov d = w'.buildMoov d') :
    w.stbl = w'.stbl := by
  have hmoov : w.moovPayload d = w'.moovPayload d' := boxBytes_inj h
  have htrak := (boxBytes_append hmoov (by simp [Writer.mvhd])).2
  have hmdia := (boxBytes_append (boxBytes_inj htrak) (by simp [Writer.tkhd])).2
  have hmdia := boxBytes_inj hmdia
  rw [Writer.mdia, Writer.mdia, List.append_assoc, List.append_assoc] at hmdia
  have hhdlr := (boxBytes_append hmdia (by simp [Writer.mdhd])).2
  have hminf := boxBytes_inj (boxBytes_append hhdlr rfl).2
  rw [Writer.minf, Writer.minf, List.append_assoc, List.append_assoc] at hminf
  exact boxBytes_inj (boxBytes_append (boxBytes_append hminf rfl).2 rfl).2

/-- The boxes behind the times. -/
def stblRest (w : Writer) : Bytes :=
  (if w.syncs.length < w.samples then boxBytes "stss" w.stssTable else []) ++
    boxBytes "stsc" w.stscTable ++ boxBytes "stsz" w.stszTable ++ boxBytes "stco" w.stcoTable

theorem stbl_split (w : Writer) :
    w.stbl = boxBytes "stsd" w.stsd ++ (boxBytes "stts" w.sttsTable ++ stblRest w) := by
  simp only [Writer.stbl, stblRest, List.append_assoc]

/-- How many samples the runs are for. -/
def counted (runs : List (Nat × Nat)) : Nat := (runs.map Prod.fst).sum

theorem counted_pushRun (delta : Nat) (runs : List (Nat × Nat)) :
    counted (Writer.pushRun delta runs) = counted runs + 1 := by
  rw [counted, counted, ← length_expand, ← length_expand, expand_pushRun, List.length_append]
  rfl

theorem length_pushRun (delta : Nat) : ∀ runs : List (Nat × Nat),
    runs.length ≤ (Writer.pushRun delta runs).length ∧
    (Writer.pushRun delta runs).length ≤ runs.length + 1
  | [] => by simp [Writer.pushRun]
  | [(count, d)] => by
    unfold Writer.pushRun
    split <;> simp
  | first :: next :: runs => by
    have ih := length_pushRun delta (next :: runs)
    simp only [Writer.pushRun, List.length_cons] at ih ⊢
    omega

def runBytes (run : Nat × Nat) : Bytes := be 4 run.1 ++ be 4 run.2

theorem length_flatMap_runBytes (runs : List (Nat × Nat)) :
    (runs.flatMap runBytes).length = 8 * runs.length := by
  induction runs with
  | nil => rfl
  | cons run runs ih =>
    rw [List.flatMap_cons, List.length_append, ih, List.length_cons]
    simp only [runBytes, List.length_append, be_length]
    omega

/-- Runs with the same bytes are for as many samples, as far as four bytes tell. -/
theorem counted_of_bytes : ∀ runs runs' : List (Nat × Nat),
    runs.flatMap runBytes = runs'.flatMap runBytes →
    counted runs % 256 ^ 4 = counted runs' % 256 ^ 4
  | [], [], _ => rfl
  | [], run :: runs, h => by
    have hlen := congrArg List.length h
    rw [length_flatMap_runBytes, length_flatMap_runBytes] at hlen
    simp at hlen
  | run :: runs, [], h => by
    have hlen := congrArg List.length h
    rw [length_flatMap_runBytes, length_flatMap_runBytes] at hlen
    simp at hlen
  | run :: runs, run' :: runs', h => by
    rw [List.flatMap_cons, List.flatMap_cons] at h
    obtain ⟨hrun, hrest⟩ := List.append_inj h (by simp [runBytes])
    have hcount := be_inj (List.append_inj hrun (by simp)).1
    have ih := counted_of_bytes runs runs' hrest
    simp only [counted, List.map_cons, List.sum_cons] at ih ⊢
    rw [Nat.add_mod, hcount, ih, ← Nat.add_mod]

theorem sttsTable_length (w : Writer) : w.sttsTable.length = 8 * w.stts.length + 8 := by
  have hruns := length_flatMap_runBytes w.stts
  unfold runBytes at hruns
  simp only [Writer.sttsTable, fullHeader, List.length_append, be_length, hruns]
  omega

/-- Two sample tables that differ in their parameter sets and their runs only, and by few runs, are
    equal only if the runs are for as many samples. -/
theorem counted_of_stbl {w w' : Writer} (h : w.stbl = w'.stbl) (hrest : stblRest w = stblRest w')
    (hle : w.stts.length ≤ w'.stts.length + 2) (hge : w'.stts.length ≤ w.stts.length + 2) :
    counted w.stts % 256 ^ 4 = counted w'.stts % 256 ^ 4 := by
  rw [stbl_split, stbl_split, hrest, ← List.append_assoc, ← List.append_assoc] at h
  have hboxes := List.append_cancel_right h
  have hlen := congrArg List.length hboxes
  rw [List.length_append, List.length_append, boxBytes_length _ _ (by decide),
    boxBytes_length _ _ (by decide), boxBytes_length _ _ (by decide),
    boxBytes_length _ _ (by decide), sttsTable_length, sttsTable_length] at hlen
  -- The lengths of the first boxes agree in four bytes, and differ by a few runs at most.
  have hsize : (w.stsd.length + 8) % 256 ^ 4 = (w'.stsd.length + 8) % 256 ^ 4 := by
    unfold boxBytes at hboxes
    simp only [List.append_assoc] at hboxes
    exact be_inj (List.append_inj hboxes (by simp)).1
  have hstsd : w.stsd.length = w'.stsd.length := by omega
  have hstts := boxBytes_inj (boxBytes_append hboxes hstsd).2
  refine counted_of_bytes _ _ ?_
  unfold Writer.sttsTable at hstts
  exact (List.append_inj hstts (by simp [fullHeader])).2

/-! ### Two files -/

theorem stamp_of_some {w : Writer} {prev : Nat} (h : w.lastPts = some prev) (ptsUs : Nat) :
    w.stamp ptsUs =
      { w.pushDelta (min (ptsUs - prev) (2 ^ 32 - 1)) with lastPts := some ptsUs } := by
  rw [Writer.stamp, h]

/-- STEP: the times of a refused sample are in `moov`. -/
theorem refused_moov {w : Writer} {prev : Nat} (h : w.lastPts = some prev) (au : Bytes)
    (ptsUs d d' : Nat) :
    w.closing.buildMoov d ≠ ((w.setConfig au).stamp ptsUs).closing.buildMoov d' := by
  intro heq
  obtain ⟨sps, pps, hconfig⟩ := setConfig_eq w au
  have hlast : (w.withConfig sps pps).lastPts = some prev := h
  rw [hconfig, stamp_of_some hlast] at heq
  generalize min (ptsUs - prev) (2 ^ 32 - 1) = delta at heq
  have hfirst := length_pushRun w.lastDelta w.stts
  have hsecond := length_pushRun delta w.stts
  have hthird := length_pushRun delta (Writer.pushRun delta w.stts)
  have hcount : counted (Writer.pushRun w.lastDelta w.stts) % 256 ^ 4 =
      counted (Writer.pushRun delta (Writer.pushRun delta w.stts)) % 256 ^ 4 := by
    refine counted_of_stbl (buildMoov_stbl heq) rfl ?_ ?_
    · show (Writer.pushRun w.lastDelta w.stts).length ≤
        (Writer.pushRun delta (Writer.pushRun delta w.stts)).length + 2
      omega
    · show (Writer.pushRun delta (Writer.pushRun delta w.stts)).length ≤
        (Writer.pushRun w.lastDelta w.stts).length + 2
      omega
  rw [counted_pushRun, counted_pushRun, counted_pushRun] at hcount
  omega

theorem writeAt_inj {file bytes bytes' : Bytes} {pos : Nat} (hlen : bytes.length = bytes'.length)
    (h : writeAt file pos bytes = writeAt file pos bytes') : bytes = bytes' := by
  rw [writeAt, writeAt, List.append_assoc, List.append_assoc] at h
  exact (List.append_inj (List.append_cancel_left h) hlen).1

theorem finish_unconfigured {w : Writer} (h : w.hasConfig = false) (fault : Option String)
    (sha256 : Bytes → String) :
    w.finish fault sha256 = .error "missing SPS/PPS (no decodable start point)" := by
  rw [Writer.finish, h]
  rfl

theorem finish_empty {w : Writer} (h : w.hasConfig = true) (hnone : w.samples = 0)
    (fault : Option String) (sha256 : Bytes → String) :
    w.finish fault sha256 = .error "no samples written" := by
  rw [Writer.finish, h, if_pos hnone]
  rfl

theorem finish_done {w : Writer} (h : w.hasConfig = true) (hsome : w.samples ≠ 0)
    (sha256 : Bytes → String) : ∃ result, w.finish none sha256 = .ok result := by
  rw [Writer.finish, h, if_neg hsome]
  exact ⟨_, rfl⟩

/-- FRAME: a refused sample changes neither the file nor the count. -/
theorem refused_frame (w : Writer) (au : Bytes) (ptsUs : Nat) :
    let w' := (w.setConfig au).stamp ptsUs
    w'.file = w.file ∧ w'.offset = w.offset ∧ w'.mdatSizePos = w.mdatSizePos ∧
      w'.mdatBytes = w.mdatBytes ∧ w'.samples = w.samples ∧
      w'.hasConfig = (w.setConfig au).hasConfig := by
  obtain ⟨sps, pps, hconfig⟩ := setConfig_eq w au
  rw [hconfig]
  dsimp only
  unfold Writer.stamp
  split
  · exact ⟨rfl, rfl, rfl, rfl, rfl, rfl⟩
  · exact ⟨rfl, rfl, rfl, rfl, rfl, rfl⟩

/-- A file that was finished with a refused sample is another one. -/
theorem refused_finish_ne {w : Writer} {prev : Nat} (h : w.lastPts = some prev)
    (hsome : w.samples ≠ 0) {au : Bytes} {ptsUs : Nat}
    (hconfig : (w.setConfig au).hasConfig = true) (sha256 : Bytes → String) :
    ((w.setConfig au).stamp ptsUs).finish none sha256 ≠ w.finish none sha256 := by
  obtain ⟨hfile, hoffset, hpos, hmdat, hcount, hhas⟩ := refused_frame w au ptsUs
  intro heq
  obtain ⟨⟨summary, file⟩, hdone⟩ := finish_done (hhas.trans hconfig) (hcount ▸ hsome) sha256
  obtain ⟨-, -, hsize', hbytes'⟩ := finish_ok hdone
  obtain ⟨-, -, hsize, hbytes⟩ := finish_ok (heq ▸ hdone)
  rw [hfile, hoffset, hpos, hmdat, hbytes] at hbytes'
  refine refused_moov h au ptsUs _ _ (writeAt_inj ?_ hbytes')
  rw [hsize, hoffset] at hsize'
  exact Nat.add_left_cancel hsize'

/-! ### A full segment -/

theorem startCodes_solid {nal : Bytes} (h : 0 ∉ nal) (i : Nat) : startCodes 0 i nal = [] := by
  induction nal generalizing i with
  | nil => rfl
  | cons b nal ih =>
    obtain ⟨hb, hnal⟩ := not_or.mp (mt List.mem_cons.mpr h)
    have hcode : ¬ (b :: nal).take 3 = [0, 0, 1] := by
      intro htake
      rw [List.take_succ_cons] at htake
      exact hb (List.cons.inj htake).1.symm
    rw [startCodes, if_neg hcode]
    exact ih hnal (i + 1)

/-- A unit without zeros behind a start code. -/
theorem splitAnnexb_single {nal : Bytes} (h : 0 ∉ nal) (hne : nal ≠ []) :
    splitAnnexb (0 :: 0 :: 1 :: nal) = [nal] := by
  have hpositions : startCodes 0 0 (0 :: 0 :: 1 :: nal) = [0] := by
    rw [startCodes, if_pos (by simp), startCodes, startCodes, startCodes_solid h]
  have hunit : nalBetween (0 :: 0 :: 1 :: nal) 0 (0 :: 0 :: 1 :: nal).length = nal := by
    rw [nalBetween, List.take_length]
    show nal.rdropWhile _ = nal
    rw [List.rdropWhile_eq_self_iff]
    intro hl hzero
    exact h (of_decide_eq_true hzero ▸ List.getLast_mem hl)
  rw [splitAnnexb, hpositions]
  show [nalBetween (0 :: 0 :: 1 :: nal) 0 (0 :: 0 :: 1 :: nal).length].filter _ = [nal]
  rw [hunit, List.filter_cons_of_pos (by simpa using hne), List.filter_nil]

theorem writeAnnexbSample_single {w : Writer} {nal : Bytes} (h : 0 ∉ nal) (hne : nal ≠ [])
    (htype : isParameterSet nal = false) (ptsUs : Nat) (keyframe : Bool) :
    w.writeAnnexbSample none (0 :: 0 :: 1 :: nal) ptsUs keyframe =
      if w.mdatBytes + (prefixed nal).length > maxMdatBytes then (w.stamp ptsUs, fileTooLarge)
      else ((w.stamp ptsUs).withSample ⟨[nal], ptsUs, keyframe⟩, .ok (prefixed nal).length) := by
  obtain ⟨hsps, hpps⟩ := Bool.or_eq_false_iff.mp htype
  have hcollect : w.collect [] [nal] = (w, prefixed nal) := by
    rw [Writer.collect, if_neg (of_decide_eq_false hsps), if_neg (of_decide_eq_false hpps)]
    rfl
  have hfull : prefixed nal ≠ [] := by
    intro hnil
    exact hne (List.append_eq_nil_iff.mp hnil).2
  have hmdat : (w.stamp ptsUs).mdatBytes = w.mdatBytes := by
    unfold Writer.stamp
    split
    · rfl
    · rfl
  have hbytes : Sample.bytes ⟨[nal], ptsUs, keyframe⟩ = prefixed nal := List.flatMap_singleton _ _
  rw [Writer.writeAnnexbSample, splitAnnexb_single h hne, hcollect]
  dsimp only
  rw [if_neg hfull, hmdat]
  split
  · rfl
  · rw [Writer.withSample, hbytes]
    rfl

/-- The unit that takes all the room. -/
def fullUnit : Bytes := 0x65 :: List.replicate (maxMdatBytes - 5) 1

/-- A writer with parameter sets. -/
def readyWriter : Writer :=
  after (Writer.create 16 16) (.setConfig [0, 0, 1, 0x67, 1, 0, 0, 1, 0x68, 1])

/-- The writer with no room left. -/
def fullWriter : Writer :=
  after readyWriter (.writeAnnexbSample none (0 :: 0 :: 1 :: fullUnit) 0 true)

theorem Used.after {w : Writer} (h : Used w) (call : Call) : Used (after w call) := by
  obtain ⟨width, height, calls, rfl⟩ := h
  refine ⟨width, height, calls ++ [call], ?_⟩
  rw [List.foldl_append]
  rfl

theorem fullWriter_used : Used fullWriter := by
  have hready : Used readyWriter := Used.after ⟨16, 16, [], rfl⟩ _
  rw [fullWriter]
  exact hready.after _

theorem fullUnit_solid : 0 ∉ fullUnit := by
  intro h
  rcases List.mem_cons.mp h with hhead | htail
  · cases hhead
  · cases List.eq_of_mem_replicate htail

theorem fullUnit_length : (prefixed fullUnit).length = maxMdatBytes := by
  have hroom : 5 ≤ maxMdatBytes := by decide
  rw [prefixed, List.length_append, be_length, fullUnit, List.length_cons, List.length_replicate]
  omega

/-- What a sample leaves of the writer. -/
theorem stamp_withSample (w : Writer) (ptsUs : Nat) (s : Sample) :
    let w' := (w.stamp ptsUs).withSample s
    w'.lastPts = some ptsUs ∧ w'.samples = w.samples + 1 ∧
      w'.mdatBytes = w.mdatBytes + s.bytes.length ∧ w'.hasConfig = w.hasConfig := by
  refine ⟨stamp_lastPts w ptsUs, ?_⟩
  unfold Writer.stamp
  split
  · exact ⟨rfl, rfl, rfl⟩
  · exact ⟨rfl, rfl, rfl⟩

theorem fullWriter_full : fullWriter.lastPts = some 0 ∧ fullWriter.samples = 1 ∧
    fullWriter.mdatBytes = maxMdatBytes ∧ fullWriter.hasConfig = true := by
  have hready : readyWriter.samples = 0 ∧ readyWriter.mdatBytes = 0 ∧
      readyWriter.hasConfig = true := by decide
  have hfits : ¬ readyWriter.mdatBytes + (prefixed fullUnit).length > maxMdatBytes := by
    rw [fullUnit_length, hready.2.1]
    omega
  have hbytes : Sample.bytes ⟨[fullUnit], 0, true⟩ = prefixed fullUnit := List.flatMap_singleton _ _
  obtain ⟨hlast, hcount, hmdat, hconfig⟩ := stamp_withSample readyWriter 0 ⟨[fullUnit], 0, true⟩
  rw [fullWriter, after, writeAnnexbSample_single fullUnit_solid (List.cons_ne_nil _ _) rfl,
    if_neg hfits]
  refine ⟨hlast, hcount.trans (by rw [hready.1]), hmdat.trans ?_, hconfig.trans hready.2.2⟩
  rw [hready.2.1, hbytes, fullUnit_length, Nat.zero_add]

/-- No sample fits any more. -/
theorem fullWriter_refuses :
    (fullWriter.writeAnnexbSample none [0, 0, 1, 0x65] 0 true).2 = fileTooLarge := by
  rw [writeAnnexbSample_single (by decide) (by decide) rfl, fullWriter_full.2.2.1,
    if_pos (Nat.lt_add_of_pos_right (by decide))]

/-- A sample that does not fit leaves what `finish` makes as it was exactly where `finish` makes
    nothing, and for the same reason. -/
theorem refused_unnoticed_iff {w : Writer} (hw : Used w) {fault : Option Nat} {au : Bytes}
    {ptsUs : Nat} {keyframe : Bool}
    (h : (w.writeAnnexbSample fault au ptsUs keyframe).2 = fileTooLarge) :
    (∀ fault' sha256, (w.writeAnnexbSample fault au ptsUs keyframe).1.finish fault' sha256 =
      w.finish fault' sha256) ↔
    (w.setConfig au).hasConfig = false ∨ (w.samples = 0 ∧ w.hasConfig = true) := by
  rw [refused_eq h]
  obtain ⟨-, -, -, -, hcount, hhas⟩ := refused_frame w au ptsUs
  constructor
  · intro hsame
    by_contra hnot
    obtain ⟨hconfig, hready⟩ := not_or.mp hnot
    rw [Bool.not_eq_false] at hconfig
    have hfinish := hsame none fun _ => ""
    by_cases hnone : w.samples = 0
    · have hmissing : w.hasConfig = false := by
        by_contra hhad
        exact hready ⟨hnone, by simpa using hhad⟩
      rw [finish_unconfigured hmissing,
        finish_empty (hhas.trans hconfig) (hcount.trans hnone)] at hfinish
      exact absurd hfinish (by simp)
    · obtain ⟨prev, hprev⟩ := Option.isSome_iff_exists.mp
        (hw.stamped (Nat.pos_of_ne_zero hnone))
      exact refused_finish_ne hprev hnone hconfig _ hfinish
  · rintro (hmissing | ⟨hnone, hready⟩) fault' sha256
    · have hbefore : w.hasConfig = false := by
        by_contra hhad
        rw [hasConfig_setConfig (by simpa using hhad)] at hmissing
        cases hmissing
      rw [finish_unconfigured hbefore, finish_unconfigured (hhas.trans hmissing)]
    · rw [finish_empty hready hnone,
        finish_empty (hhas.trans (hasConfig_setConfig hready au)) (hcount.trans hnone)]

theorem refused_unnoticed_iff_full :
    (∀ fault' sha256,
      (fullWriter.writeAnnexbSample none [0, 0, 1, 0x65] 0 true).1.finish fault' sha256 =
        fullWriter.finish fault' sha256) ↔
    (fullWriter.setConfig [0, 0, 1, 0x65]).hasConfig = false ∨
      (fullWriter.samples = 0 ∧ fullWriter.hasConfig = true) :=
  refused_unnoticed_iff fullWriter_used fullWriter_refuses

/-- A segment that was closed because it is full is not the one it would be without the sample. -/
theorem full_segment_differs :
    ¬ ∀ w : Writer, Used w → ∀ fault au ptsUs keyframe,
      (w.writeAnnexbSample fault au ptsUs keyframe).2 = fileTooLarge →
      ∀ fault' sha256, (w.writeAnnexbSample fault au ptsUs keyframe).1.finish fault' sha256 =
        w.finish fault' sha256 := by
  intro hall
  obtain ⟨hlast, hcount, -, hconfig⟩ := fullWriter_full
  have hsame := hall fullWriter fullWriter_used none [0, 0, 1, 0x65] 0 true fullWriter_refuses none
    fun _ => ""
  rw [refused_eq fullWriter_refuses] at hsame
  exact refused_finish_ne hlast (by rw [hcount]; decide) (hasConfig_setConfig hconfig _) _ hsame

end Gamer.Recording
