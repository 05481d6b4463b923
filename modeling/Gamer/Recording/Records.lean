import Gamer.Lib.Machine
import Gamer.Recording.Reader

/-! What the writer knows of the samples written so far. Its counters, run lengths and numbers are
    kept by different steps, and the time of a sample is written down only with the next one:

        file     │ s₁ │ s₂ │ s₃ │ … │ sₙ │       sizes, syncs: n entries
        stts       p₂-p₁  p₃-p₂  …  pₙ-pₙ₋₁      one entry less, until finish               -/

namespace Gamer.Recording
open Gamer.Lib Gamer.Lib.Bytes

/-- A sample as it stands in the media data. -/
def Sample.bytes (s : Sample) : Bytes := s.nals.flatMap prefixed

/-- The time from each sample to the next. -/
def deltas : List Nat → List Nat
  | a :: b :: pts => min (b - a) (2 ^ 32 - 1) :: deltas (b :: pts)
  | _ => []

/-- The numbers of the key frames, the first sample's being `n`. -/
def keyNumbers : Nat → List Sample → List Nat
  | _, [] => []
  | n, s :: samples => if s.keyframe then n :: keyNumbers (n + 1) samples
    else keyNumbers (n + 1) samples

/-- What has been streamed, and the tables about it. -/
structure Streamed (w : Writer) (samples : List Sample) : Prop where
  file : w.file = boxBytes "ftyp" ftypPayload ++ (be 4 0 ++ ascii "mdat") ++
    samples.flatMap Sample.bytes
  offset : w.offset = w.file.length
  sizePos : w.mdatSizePos = (boxBytes "ftyp" ftypPayload).length
  dataStart : w.mdatDataStart = w.mdatSizePos + 8
  mdat : w.mdatBytes = (samples.flatMap Sample.bytes).length
  bound : w.mdatBytes ≤ maxMdatBytes
  sizes : w.sizes = samples.map fun s => s.bytes.length
  count : w.samples = samples.length
  syncs : w.syncs = keyNumbers 1 samples

/-- What the tables of times say of samples at these times. -/
structure Timed (w : Writer) (pts : List Nat) : Prop where
  last : w.lastPts = pts.getLast?
  runs : expand w.stts = deltas pts
  filled : ∀ run ∈ w.stts, 0 < run.1
  lastDelta : w.lastDelta = ((deltas pts).getLast?).getD 0
  sum : w.sumDelta = (deltas pts).sum

/-- INVARIANT of a writer to which these samples have been written. -/
structure Records (w : Writer) (samples : List Sample) : Prop where
  streamed : Streamed w samples
  timed : Timed w (samples.map Sample.ptsUs)
  filled : ∀ s ∈ samples, s.nals ≠ []

/-! ### Run lengths -/

theorem expand_pushRun (delta : Nat) : ∀ runs : List (Nat × Nat),
    expand (Writer.pushRun delta runs) = expand runs ++ [delta]
  | [] => rfl
  | [(count, d)] => by
    simp only [Writer.pushRun]
    split
    · rename_i heq
      subst heq
      simp [expand, List.replicate_succ']
    · simp [expand]
  | run :: next :: runs => by
    have hrest := expand_pushRun delta (next :: runs)
    simp only [expand, Writer.pushRun, List.flatMap_cons, List.append_assoc] at hrest ⊢
    rw [hrest]

theorem pushRun_filled (delta : Nat) : ∀ runs : List (Nat × Nat), (∀ run ∈ runs, 0 < run.1) →
    ∀ run ∈ Writer.pushRun delta runs, 0 < run.1
  | [], _, run, hrun => by
    obtain rfl := List.mem_singleton.mp hrun
    exact Nat.one_pos
  | [(count, d)], h, run, hrun => by
    simp only [Writer.pushRun] at hrun
    split at hrun
    · obtain rfl := List.mem_singleton.mp hrun
      exact Nat.succ_pos count
    · rcases List.mem_cons.mp hrun with rfl | hrun
      · exact h _ List.mem_cons_self
      · obtain rfl := List.mem_singleton.mp hrun
        exact Nat.one_pos
  | first :: next :: runs, h, run, hrun => by
    rcases List.mem_cons.mp hrun with rfl | hrun
    · exact h _ List.mem_cons_self
    · exact pushRun_filled delta (next :: runs) (fun r hr => h r (List.mem_cons_of_mem _ hr)) run hrun

theorem length_expand (runs : List (Nat × Nat)) :
    (expand runs).length = (runs.map Prod.fst).sum := by
  induction runs with
  | nil => rfl
  | cons run runs ih =>
    rw [expand, List.flatMap_cons, List.length_append, List.length_replicate, List.map_cons,
      List.sum_cons, ← ih]
    rfl

theorem sum_expand (runs : List (Nat × Nat)) :
    (expand runs).sum = (runs.map fun run => run.1 * run.2).sum := by
  induction runs with
  | nil => rfl
  | cons run runs ih =>
    rw [expand, List.flatMap_cons, List.sum_append, List.sum_replicate_nat, List.map_cons,
      List.sum_cons, ← ih]
    rfl

theorem deltas_concat (b : Nat) : ∀ (pts : List Nat) (a : Nat), pts.getLast? = some a →
    deltas (pts ++ [b]) = deltas pts ++ [min (b - a) (2 ^ 32 - 1)]
  | [], _, h => by cases h
  | [_], _, h => by cases h; rfl
  | c :: d :: pts, a, h => by
    have hrest := deltas_concat b (d :: pts) a (by simpa using h)
    simp only [List.cons_append, deltas] at hrest ⊢
    rw [hrest]

theorem length_deltas : ∀ pts : List Nat, (deltas pts).length = pts.length - 1
  | [] => rfl
  | [_] => rfl
  | a :: b :: pts => by
    have hrest := length_deltas (b :: pts)
    simp only [deltas, List.length_cons, hrest]
    omega

theorem deltas_lt : ∀ (pts : List Nat), ∀ d ∈ deltas pts, d < 2 ^ 32
  | [], d, h => by cases h
  | [_], d, h => by cases h
  | a :: b :: pts, d, h => by
    rcases List.mem_cons.mp h with rfl | h
    · omega
    · exact deltas_lt (b :: pts) d h

/-- The deltas before a sample add up to its time since the first. -/
theorem sum_take_deltas : ∀ (pts : List Nat),
    (pts.IsChain fun a b => a ≤ b ∧ b - a < 2 ^ 32) → ∀ (i a b : Nat), pts[0]? = some a →
    pts[i]? = some b → a + ((deltas pts).take i).sum = b
  | [], _, _, _, _, h, _ => by cases h
  | [c], _, i, a, b, ha, hb => by
    cases i with
    | zero =>
      cases ha
      cases hb
      rfl
    | succ i => simp at hb
  | c :: d :: pts, hchain, i, a, b, ha, hb => by
    cases ha
    cases i with
    | zero =>
      cases hb
      rfl
    | succ i =>
      obtain ⟨⟨hle, hlt⟩, hrest⟩ := List.isChain_cons_cons.mp hchain
      have hnext := sum_take_deltas (d :: pts) hrest i d b rfl (by simpa using hb)
      rw [deltas, List.take_succ_cons, List.sum_cons]
      omega

/-! ### Key frames -/

theorem keyNumbers_concat (s : Sample) : ∀ (samples : List Sample) (n : Nat),
    keyNumbers n (samples ++ [s]) = keyNumbers n samples ++
      if s.keyframe then [n + samples.length] else []
  | [], n => by simp [keyNumbers]
  | t :: samples, n => by
    have hnext : n + (samples.length + 1) = n + 1 + samples.length := by omega
    simp only [List.cons_append, keyNumbers, keyNumbers_concat s samples (n + 1), List.length_cons,
      hnext]
    split <;> rfl

theorem mem_keyNumbers {k : Nat} : ∀ {samples : List Sample} {n : Nat},
    k ∈ keyNumbers n samples ↔ n ≤ k ∧ ∃ s, samples[k - n]? = some s ∧ s.keyframe = true
  | [], n => by simp [keyNumbers]
  | t :: samples, n => by
    have hrest : k ∈ keyNumbers (n + 1) samples ↔ _ := mem_keyNumbers
    have hlater : ∀ s, n + 1 ≤ k → ((t :: samples)[k - n]? = some s ↔
        samples[k - (n + 1)]? = some s) := by
      intro s hk
      have hindex : k - n = k - (n + 1) + 1 := by omega
      rw [hindex, List.getElem?_cons_succ]
    have hfirst : (t :: samples)[n - n]? = some t := by simp
    constructor
    · intro hmem
      have hsplit : (k = n ∧ t.keyframe = true) ∨ k ∈ keyNumbers (n + 1) samples := by
        rw [keyNumbers] at hmem
        split at hmem
        · rename_i hkey
          rcases List.mem_cons.mp hmem with rfl | hmem
          · exact .inl ⟨rfl, hkey⟩
          · exact .inr hmem
        · exact .inr hmem
      rcases hsplit with ⟨rfl, hkey⟩ | hmem
      · exact ⟨Nat.le_refl _, t, hfirst, hkey⟩
      · obtain ⟨hle, s, hs, hkey⟩ := hrest.mp hmem
        exact ⟨by omega, s, (hlater s hle).mpr hs, hkey⟩
    · rintro ⟨hle, s, hs, hkey⟩
      rw [keyNumbers]
      by_cases hk : k = n
      · subst hk
        obtain rfl := Option.some.inj (hfirst.symm.trans hs)
        rw [if_pos hkey]
        exact List.mem_cons_self
      · have hmem := hrest.mpr ⟨by omega, s, (hlater s (by omega)).mp hs, hkey⟩
        split
        · exact List.mem_cons_of_mem _ hmem
        · exact hmem

theorem keyNumbers_increasing : ∀ (samples : List Sample) (n : Nat),
    (keyNumbers n samples).Pairwise (· < ·)
  | [], _ => .nil
  | t :: samples, n => by
    rw [keyNumbers]
    split
    · refine List.pairwise_cons.mpr ⟨fun k hk => ?_, keyNumbers_increasing samples (n + 1)⟩
      exact (mem_keyNumbers.mp hk).1
    · exact keyNumbers_increasing samples (n + 1)

theorem keyNumbers_names (samples : List Sample) : NamesKeyframes (keyNumbers 1 samples) samples := by
  refine ⟨keyNumbers_increasing samples 1, fun n hn => ?_, fun i s hs => ?_⟩
  · obtain ⟨hle, s, hs, _⟩ := mem_keyNumbers.mp hn
    obtain ⟨hlt, _⟩ := List.getElem?_eq_some_iff.mp hs
    omega
  · rw [mem_keyNumbers, Nat.add_sub_cancel]
    constructor
    · rintro ⟨_, t, ht, hkey⟩
      obtain rfl := Option.some.inj (hs.symm.trans ht)
      exact hkey
    · exact fun hkey => ⟨Nat.le_add_left 1 i, s, hs, hkey⟩

/-- No number is missing only if every sample is a key frame. -/
theorem length_keyNumbers : ∀ (samples : List Sample) (n : Nat),
    (keyNumbers n samples).length ≤ samples.length ∧
    ((keyNumbers n samples).length = samples.length → ∀ s ∈ samples, s.keyframe = true)
  | [], _ => ⟨Nat.le_refl _, fun _ _ hs => by cases hs⟩
  | t :: samples, n => by
    obtain ⟨hle, hall⟩ := length_keyNumbers samples (n + 1)
    rw [keyNumbers]
    split
    · rename_i hkey
      refine ⟨Nat.succ_le_succ hle, fun hlen s hs => ?_⟩
      rcases List.mem_cons.mp hs with rfl | hs
      · exact hkey
      · exact hall (Nat.succ.inj hlen) s hs
    · refine ⟨Nat.le_succ_of_le hle, fun hlen => ?_⟩
      rw [List.length_cons] at hlen
      omega

/-! ### The calls -/

/-- The writer with other parameter sets. -/
def Writer.withConfig (w : Writer) (sps pps : Bytes) : Writer := { w with sps := sps, pps := pps }

theorem Records.withConfig {w : Writer} {samples : List Sample} (h : Records w samples)
    (sps pps : Bytes) : Records (w.withConfig sps pps) samples := by
  obtain ⟨⟨h₁, h₂, h₃, h₄, h₅, h₆, h₇, h₈, h₉⟩, ⟨t₁, t₂, t₃, t₄, t₅⟩, hfilled⟩ := h
  exact ⟨⟨h₁, h₂, h₃, h₄, h₅, h₆, h₇, h₈, h₉⟩, ⟨t₁, t₂, t₃, t₄, t₅⟩, hfilled⟩

theorem setConfig_eq (w : Writer) (annexb : Bytes) :
    ∃ sps pps, w.setConfig annexb = w.withConfig sps pps := by
  unfold Writer.setConfig
  generalize splitAnnexb annexb = nals
  induction nals generalizing w with
  | nil => exact ⟨w.sps, w.pps, rfl⟩
  | cons nal nals ih =>
    rw [List.foldl_cons]
    split_ifs
    · obtain ⟨sps, pps, h⟩ := ih { w with sps := nal }
      exact ⟨sps, pps, h⟩
    · obtain ⟨sps, pps, h⟩ := ih { w with pps := nal }
      exact ⟨sps, pps, h⟩
    · exact ih w

/-- What is collected is the units that are no parameter sets, each behind its length. -/
theorem collect_eq (nals : List Bytes) : ∀ (w : Writer) (avcc : Bytes), ∃ sps pps,
    w.collect avcc nals = (w.withConfig sps pps,
      avcc ++ (nals.filter fun nal => !isParameterSet nal).flatMap prefixed) := by
  induction nals with
  | nil => exact fun w avcc => ⟨w.sps, w.pps, by simp [Writer.collect, Writer.withConfig]⟩
  | cons nal nals ih =>
    intro w avcc
    rw [Writer.collect]
    split_ifs with hsps hpps
    · obtain ⟨sps, pps, h⟩ := ih { w with sps := nal } avcc
      exact ⟨sps, pps, by simp [h, isParameterSet, hsps, Writer.withConfig]⟩
    · obtain ⟨sps, pps, h⟩ := ih { w with pps := nal } avcc
      exact ⟨sps, pps, by simp [h, isParameterSet, hpps, Writer.withConfig]⟩
    · obtain ⟨sps, pps, h⟩ := ih w (avcc ++ be 4 nal.length ++ nal)
      exact ⟨sps, pps, by rw [h]; simp [isParameterSet, hsps, hpps, prefixed]⟩

theorem create_records (width height : Nat) : Records (Writer.create width height) [] := by
  refine ⟨⟨?_, ?_, rfl, rfl, rfl, Nat.zero_le _, rfl, rfl, rfl⟩, ⟨rfl, rfl, by simp [Writer.create], rfl, rfl⟩,
    by simp⟩ <;>
    simp [Writer.create]

theorem Timed.stamp {w : Writer} {pts : List Nat} (h : Timed w pts) (p : Nat) :
    Timed (w.stamp p) (pts ++ [p]) := by
  unfold Writer.stamp
  cases hlast : pts.getLast? with
  | none =>
    obtain rfl := List.getLast?_eq_none_iff.mp hlast
    rw [h.last, hlast]
    exact ⟨rfl, h.runs, h.filled, h.lastDelta, h.sum⟩
  | some prev =>
    have hdeltas := deltas_concat p pts prev hlast
    rw [h.last, hlast]
    refine ⟨by simp, ?_, pushRun_filled _ _ h.filled, ?_, ?_⟩
    · show expand (Writer.pushRun _ w.stts) = _
      rw [expand_pushRun, h.runs, hdeltas]
    · rw [hdeltas]
      simp [Writer.pushDelta]
    · rw [hdeltas, List.sum_append, ← h.sum]
      simp [Writer.pushDelta]

/-- FRAME: a time is nothing that is streamed. -/
theorem Streamed.stamp {w : Writer} {samples : List Sample} (h : Streamed w samples) (p : Nat) :
    Streamed (w.stamp p) samples := by
  obtain ⟨h₁, h₂, h₃, h₄, h₅, h₆, h₇, h₈, h₉⟩ := h
  unfold Writer.stamp
  split <;> exact ⟨h₁, h₂, h₃, h₄, h₅, h₆, h₇, h₈, h₉⟩

/-- The writer after a sample's bytes. -/
def Writer.withSample (w : Writer) (s : Sample) : Writer :=
  { w with
    file := w.file ++ s.bytes
    offset := w.offset + s.bytes.length
    mdatBytes := w.mdatBytes + s.bytes.length
    sizes := w.sizes ++ [s.bytes.length]
    syncs := if s.keyframe then w.syncs ++ [w.samples + 1] else w.syncs
    samples := w.samples + 1 }

theorem Streamed.withSample {w : Writer} {samples : List Sample} (h : Streamed w samples)
    (s : Sample) (hbound : w.mdatBytes + s.bytes.length ≤ maxMdatBytes) :
    Streamed (w.withSample s) (samples ++ [s]) := by
  refine ⟨?_, ?_, h.sizePos, h.dataStart, ?_, hbound, ?_, ?_, ?_⟩
  · simp [Writer.withSample, h.file]
  · simp [Writer.withSample, h.offset]
  · simp [Writer.withSample, h.mdat]
  · simp [Writer.withSample, h.sizes]
  · simp [Writer.withSample, h.count]
  · rw [keyNumbers_concat, ← h.syncs, ← h.count, Nat.add_comm 1]
    unfold Writer.withSample
    dsimp only
    split
    · rfl
    · rw [List.append_nil]

/-- A unit that is no parameter set takes bytes. -/
theorem sample_bytes_ne_nil {s : Sample} (h : s.nals ≠ []) : s.bytes ≠ [] := by
  obtain ⟨nal, rest, hnals⟩ := List.exists_cons_of_ne_nil h
  intro hnil
  have hlen := congrArg List.length hnil
  simp [Sample.bytes, hnals, prefixed] at hlen

/-- INVERSION: a call that returns Ok with a sample in it. -/
theorem writeAnnexbSample_ok {w w' : Writer} {fault : Option Nat} {au : Bytes} {ptsUs : Nat}
    {keyframe : Bool} {s : Sample}
    (hsample : (Call.writeAnnexbSample fault au ptsUs keyframe).sample = some s)
    (hstep : step w (.writeAnnexbSample fault au ptsUs keyframe) = some w') :
    s.nals ≠ [] ∧ s.ptsUs = ptsUs ∧ ∃ sps pps, let w₁ := (w.withConfig sps pps).stamp ptsUs
      w₁.mdatBytes + s.bytes.length ≤ maxMdatBytes ∧ w' = w₁.withSample s := by
  obtain ⟨sps, pps, hcollect⟩ := collect_eq (splitAnnexb au) w []
  rw [Call.sample] at hsample
  generalize (splitAnnexb au).filter (fun nal => !isParameterSet nal) = nals at hcollect hsample
  split at hsample
  · cases hsample
  · rename_i hne
    cases hsample
    have hbytes : nals.flatMap prefixed ≠ [] := sample_bytes_ne_nil (s := ⟨nals, ptsUs, keyframe⟩) hne
    refine ⟨hne, rfl, sps, pps, ?_⟩
    dsimp only
    simp only [step, Writer.writeAnnexbSample, hcollect, List.nil_append, hbytes, if_false] at hstep
    by_cases hlimit : ((w.withConfig sps pps).stamp ptsUs).mdatBytes + (nals.flatMap prefixed).length >
        maxMdatBytes
    · simp only [hlimit, if_true] at hstep
      cases hstep
    · cases fault with
      | some n =>
        simp only [hlimit, if_false, Writer.writeBytes] at hstep
        cases hstep
      | none =>
        simp only [hlimit, if_false, Writer.writeBytes, Option.some.injEq] at hstep
        exact ⟨Nat.not_lt.mp hlimit, hstep.symm⟩

/-- STEP: a call that returns Ok adds its sample. -/
theorem Records.grow {w w' : Writer} {samples : List Sample} (h : Records w samples) {call : Call}
    (hstep : step w call = some w') : Records w' (samples ++ call.sample.toList) := by
  cases hsample : call.sample with
  | none =>
    rw [Option.toList_none, List.append_nil]
    cases call with
    | setConfig annexb =>
      obtain ⟨sps, pps, heq⟩ := setConfig_eq w annexb
      cases hstep
      rw [heq]
      exact h.withConfig sps pps
    | writeAnnexbSample fault au ptsUs keyframe =>
      obtain ⟨sps, pps, hcollect⟩ := collect_eq (splitAnnexb au) w []
      have hnone : ((splitAnnexb au).filter fun nal => !isParameterSet nal) = [] := by
        by_contra hne
        simp [Call.sample, hne] at hsample
      simp only [Gamer.Recording.step, Writer.writeAnnexbSample, hcollect, hnone, List.flatMap_nil,
        List.append_nil, if_true, Option.some.injEq] at hstep
      rw [← hstep]
      exact h.withConfig sps pps
  | some s =>
    cases call with
    | setConfig annexb => cases hsample
    | writeAnnexbSample fault au ptsUs keyframe =>
      obtain ⟨hne, hpts, sps, pps, hbound, rfl⟩ := writeAnnexbSample_ok hsample hstep
      have hconfig := h.withConfig sps pps
      have hstreamed := (hconfig.streamed.stamp ptsUs).withSample s hbound
      obtain ⟨t₁, t₂, t₃, t₄, t₅⟩ := hconfig.timed.stamp ptsUs
      refine ⟨hstreamed, ?_, fun t ht => ?_⟩
      · rw [Option.toList_some, List.map_append, List.map_singleton, hpts]
        exact ⟨t₁, t₂, t₃, t₄, t₅⟩
      · rcases List.mem_append.mp ht with ht | ht
        · exact h.filled t ht
        · obtain rfl := List.mem_singleton.mp ht
          exact hne

/-- RUN: the calls add their samples. -/
theorem Records.run {w w' : Writer} {calls : List Call} (hrun : Machine.exec step w calls = some w')
    {samples : List Sample} (h : Records w samples) : Records w' (samples ++ samplesOf calls) := by
  induction calls generalizing w samples with
  | nil =>
    cases hrun
    rw [samplesOf, List.filterMap_nil, List.append_nil]
    exact h
  | cons call calls ih =>
    obtain ⟨m, hm, hrest⟩ := Machine.exec_cons_eq_some.mp hrun
    have hnext := ih hrest (h.grow hm)
    rw [List.append_assoc] at hnext
    have hsplit : samplesOf (call :: calls) = call.sample.toList ++ samplesOf calls := by
      cases hsample : call.sample <;> simp [samplesOf, hsample]
    rwa [hsplit]

end Gamer.Recording
