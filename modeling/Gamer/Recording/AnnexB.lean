import Mathlib.Data.List.Infix
import Gamer.Recording.Writer

/-! Cutting an Annex-B stream into its units. A start code is found wherever one stands, and since
    none overlaps another, skipping its three bytes misses nothing; the zeros in front of a start code
    belong to no unit, so a unit that does not end in zero comes back as it went in:

        0 … 0 0 0 1 unit 0 … 0 0 0 1 unit 0 … 0    ──▶    unit, unit                          -/

namespace Gamer.Recording
open Gamer.Lib Gamer.Lib.Bytes

def startCode : Bytes := [0, 0, 1]

/-- What a unit of a stream looks like. -/
structure IsNal (nal : Bytes) : Prop where
  nonempty : nal ≠ []
  coded : ¬ startCode <:+: nal
  ended : nal.getLast? ≠ some 0

/-- A unit behind its start code of three bytes and some zeros. -/
def framedNal (unit : Nat × Bytes) : Bytes := List.replicate unit.1 0 ++ (startCode ++ unit.2)

/-- Units one behind the other, with zeros at the end. -/
def framed (units : List (Nat × Bytes)) (trailing : Nat) : Bytes :=
  units.flatMap framedNal ++ List.replicate trailing 0

/-- Where the units of `splitAnnexb` lie. -/
def nalRanges (data : Bytes) : List (Nat × Nat) :=
  let positions := startCodes 0 0 data
  (List.zipWith (fun start finish => (start + 3, start + 3 + (nalBetween data start finish).length))
    positions (positions.drop 1 ++ [data.length])).filter fun range => range.1 < range.2

def slice (data : Bytes) (range : Nat × Nat) : Bytes := (data.take range.2).drop range.1

/-! ### The scan -/

/-- The scan finds every start code that begins behind the bytes it skips. -/
theorem mem_startCodes {data : Bytes} {skip i j : Nat} :
    j ∈ startCodes skip i data ↔ i + skip ≤ j ∧ (data.drop (j - i)).take 3 = startCode := by
  induction data generalizing skip i with
  | nil => simp [startCodes, startCode]
  | cons b data ih =>
    have hdrop : ∀ {n}, i + 1 ≤ n → (b :: data).drop (n - i) = data.drop (n - (i + 1)) := by
      intro n hn
      rw [show n - i = n - (i + 1) + 1 by omega, List.drop_succ_cons]
    cases skip with
    | succ skip =>
      rw [startCodes, ih]
      constructor
      · rintro ⟨hle, hcode⟩
        exact ⟨by omega, by rwa [hdrop (by omega)]⟩
      · rintro ⟨hle, hcode⟩
        exact ⟨by omega, by rwa [hdrop (by omega)] at hcode⟩
    | zero =>
      rw [startCodes]
      split
      · rename_i hmatch
        rw [List.mem_cons, ih]
        constructor
        · rintro (rfl | ⟨hle, hcode⟩)
          · exact ⟨Nat.le_refl _, by rwa [Nat.sub_self, List.drop_zero]⟩
          · exact ⟨by omega, by rwa [hdrop (by omega)]⟩
        · rintro ⟨hle, hcode⟩
          -- a second start code cannot begin inside the first
          obtain ⟨c, d, rest, rfl⟩ : ∃ c d rest, data = c :: d :: rest := by
            match data with
            | [] => simp at hmatch
            | [c] => simp at hmatch
            | c :: d :: rest => exact ⟨c, d, rest, rfl⟩
          obtain ⟨rfl, rfl, rfl⟩ : b = 0 ∧ c = 0 ∧ d = 1 := by simpa using hmatch
          rcases Nat.lt_or_ge j (i + 3) with hlt | hge
          · have hj : j = i ∨ j = i + 1 ∨ j = i + 2 := by omega
            rcases hj with rfl | rfl | rfl
            · exact .inl rfl
            · rw [hdrop (by omega), Nat.sub_self] at hcode
              simp [startCode] at hcode
            · rw [hdrop (by omega), show i + 2 - (i + 1) = 1 by omega] at hcode
              simp [startCode] at hcode
          · exact .inr ⟨by omega, by rwa [hdrop (by omega)] at hcode⟩
      · rename_i hno
        rw [ih]
        constructor
        · rintro ⟨hle, hcode⟩
          exact ⟨by omega, by rwa [hdrop (by omega)]⟩
        · rintro ⟨hle, hcode⟩
          rcases Nat.eq_or_lt_of_le hle with rfl | hlt
          · rw [Nat.add_zero, Nat.sub_self, List.drop_zero] at hcode
            exact absurd hcode hno
          · exact ⟨by omega, by rwa [hdrop (by omega)] at hcode⟩

theorem startCodes_sorted (data : Bytes) (skip i : Nat) :
    (startCodes skip i data).Pairwise fun p q => p + 3 ≤ q := by
  induction data generalizing skip i with
  | nil => exact List.Pairwise.nil
  | cons b data ih =>
    cases skip with
    | succ skip => exact ih skip (i + 1)
    | zero =>
      rw [startCodes]
      split
      · refine List.pairwise_cons.mpr ⟨fun q hq => ?_, ih 2 (i + 1)⟩
        have := (mem_startCodes.mp hq).1
        omega
      · exact ih 0 (i + 1)

/-- Every start code ends within the data. -/
theorem startCodes_le {data : Bytes} {p : Nat} (h : p ∈ startCodes 0 0 data) :
    p + 3 ≤ data.length := by
  have hlen := congrArg List.length (mem_startCodes.mp h).2
  rw [List.length_take, List.length_drop, startCode] at hlen
  simp only [List.length_cons, List.length_nil] at hlen
  omega

/-! ### One unit -/

theorem nalBetween_prefix_drop (data : Bytes) (start finish : Nat) :
    nalBetween data start finish <+: (data.take finish).drop (start + 3) :=
  List.rdropWhile_prefix _ _

/-- The bytes of a unit lie where its range says. -/
theorem slice_range {data : Bytes} (start : Nat) {finish : Nat} (hfinish : finish ≤ data.length) :
    slice data (start + 3, start + 3 + (nalBetween data start finish).length) =
      nalBetween data start finish := by
  obtain ⟨rest, hrest⟩ := nalBetween_prefix_drop data start finish
  rw [slice]
  dsimp only
  have hlen := congrArg List.length hrest
  rw [List.length_append, List.length_drop, List.length_take] at hlen
  have htake : (data.take (start + 3 + (nalBetween data start finish).length)).drop (start + 3) =
      ((data.take finish).drop (start + 3)).take (nalBetween data start finish).length := by
    rcases Nat.eq_zero_or_pos (nalBetween data start finish).length with hzero | hpos
    · rw [hzero, List.take_zero, Nat.add_zero, List.drop_eq_nil_of_le (List.length_take_le _ _)]
    · rw [List.take_drop, List.take_take, Nat.min_eq_left (by omega)]
  rw [htake, ← hrest, List.take_left]

/-- A unit ends before the next start code. -/
theorem range_le (data : Bytes) {start finish : Nat} (hstart : start + 3 ≤ finish) :
    start + 3 + (nalBetween data start finish).length ≤ finish := by
  have hlen := (nalBetween_prefix_drop data start finish).length_le
  rw [List.length_drop, List.length_take] at hlen
  omega

/-- Between two start codes there is none. -/
theorem not_startCode_between {data : Bytes} {start finish : Nat}
    (hnone : ∀ j ∈ startCodes 0 0 data, start + 3 ≤ j → finish ≤ j) :
    ¬ startCode <:+: nalBetween data start finish := by
  intro hinside
  obtain ⟨front, rest, hsplit⟩ :=
    hinside.trans (nalBetween_prefix_drop data start finish).isInfix
  have hlen := congrArg List.length hsplit
  rw [List.length_append, List.length_append, List.length_drop, List.length_take] at hlen
  have hthree : startCode.length = 3 := rfl
  have hcode : (data.drop (start + 3 + front.length)).take 3 = startCode := by
    have hdrop : ((data.take finish).drop (start + 3)).drop front.length = startCode ++ rest := by
      rw [← hsplit, List.append_assoc, List.drop_left]
    rw [List.drop_drop, List.drop_take] at hdrop
    have htake := congrArg (List.take 3) hdrop
    rw [List.take_take, Nat.min_eq_left (by omega), ← hthree, List.take_left] at htake
    rw [← hthree]
    exact htake
  have hmem : start + 3 + front.length ∈ startCodes 0 0 data :=
    mem_startCodes.mpr ⟨Nat.zero_le _, by rwa [Nat.sub_zero]⟩
  have := hnone _ hmem (by omega)
  omega

/-! ### All units -/

/-- What holds of each start code and the place where its unit has to end holds of all. -/
theorem zipWith_next {γ : Type} (f : Nat → Nat → γ) (last p : Nat) (rest : List Nat) :
    List.zipWith f (p :: rest) ((p :: rest).drop 1 ++ [last]) =
      f p (rest.headD last) :: List.zipWith f rest (rest.drop 1 ++ [last]) := by
  cases rest with
  | nil => rfl
  | cons q rest => rfl

theorem splitAnnexb_eq (data : Bytes) :
    splitAnnexb data = (nalRanges data).map (slice data) := by
  have hle : ∀ p ∈ startCodes 0 0 data, p + 3 ≤ data.length := fun p => startCodes_le
  rw [splitAnnexb, nalRanges]
  generalize startCodes 0 0 data = positions at hle
  induction positions with
  | nil => rfl
  | cons p rest ih =>
    have hnext : rest.headD data.length ≤ data.length := by
      cases rest with
      | nil => exact Nat.le_refl _
      | cons q rest =>
        have := hle q (by simp)
        simp only [List.headD_cons]
        omega
    have hslice := slice_range p hnext
    rw [zipWith_next, zipWith_next, List.filter_cons, List.filter_cons]
    rw [ih fun q hq => hle q (List.mem_cons_of_mem _ hq)]
    generalize rest.headD data.length = finish at hslice
    by_cases hempty : nalBetween data p finish = []
    · simp [hempty]
    · have hpos : 0 < (nalBetween data p finish).length := List.length_pos_iff.mpr hempty
      rw [if_pos (by simpa using hempty), if_pos (by simpa using hpos), List.map_cons, hslice]

/-! ### Ranges -/

/-- Each start code with where its unit has to end: no later start code begins before that. -/
theorem mem_zipWith_next {γ : Type} {f : Nat → Nat → γ} {last : Nat} {positions : List Nat} {x : γ}
    (hsorted : positions.Pairwise fun p q => p + 3 ≤ q) (hle : ∀ p ∈ positions, p + 3 ≤ last)
    (h : x ∈ List.zipWith f positions (positions.drop 1 ++ [last])) :
    ∃ p ∈ positions, ∃ finish, x = f p finish ∧ p + 3 ≤ finish ∧ finish ≤ last ∧
      ∀ q ∈ positions, p + 3 ≤ q → finish ≤ q := by
  induction positions with
  | nil => simp at h
  | cons p rest ih =>
    obtain ⟨hhead, htail⟩ := List.pairwise_cons.mp hsorted
    rw [zipWith_next, List.mem_cons] at h
    rcases h with rfl | h
    · refine ⟨p, List.mem_cons_self, rest.headD last, rfl, ?_⟩
      cases rest with
      | nil =>
        have := hle p List.mem_cons_self
        refine ⟨this, Nat.le_refl _, fun q hq hpq => ?_⟩
        rw [List.mem_singleton] at hq
        omega
      | cons next rest =>
        have hnext := hhead next List.mem_cons_self
        have := hle next (by simp)
        simp only [List.headD_cons]
        refine ⟨hnext, by omega, fun q hq hpq => ?_⟩
        rcases List.mem_cons.mp hq with rfl | hq
        · omega
        · rcases List.mem_cons.mp hq with rfl | hq
          · exact Nat.le_refl _
          · have := (List.pairwise_cons.mp htail).1 q hq
            omega
    · obtain ⟨p', hp', finish, hx, hfinish, hlast, hnone⟩ :=
        ih htail (fun q hq => hle q (List.mem_cons_of_mem _ hq)) h
      refine ⟨p', List.mem_cons_of_mem _ hp', finish, hx, hfinish, hlast, fun q hq hpq => ?_⟩
      rcases List.mem_cons.mp hq with rfl | hq
      · have := hhead p' hp'
        omega
      · exact hnone q hq hpq

/-- Each range is a nonempty part of the data without a start code. -/
theorem nalRanges_mem {data : Bytes} {range : Nat × Nat} (h : range ∈ nalRanges data) :
    range.1 < range.2 ∧ range.2 ≤ data.length ∧ ¬ startCode <:+: slice data range := by
  rw [nalRanges, List.mem_filter, decide_eq_true_eq] at h
  obtain ⟨hmem, hnonempty⟩ := h
  obtain ⟨p, -, finish, rfl, hstart, hfinish, hnone⟩ :=
    mem_zipWith_next (startCodes_sorted data 0 0) (fun p hp => startCodes_le hp) hmem
  refine ⟨hnonempty, (range_le data hstart).trans hfinish, ?_⟩
  rw [slice_range _ hfinish]
  exact not_startCode_between hnone

/-- No range reaches into a later one. -/
theorem nalRanges_ordered (data : Bytes) :
    (nalRanges data).Pairwise fun range later => range.2 ≤ later.1 := by
  have hsorted := startCodes_sorted data 0 0
  have hle : ∀ p ∈ startCodes 0 0 data, p + 3 ≤ data.length := fun p hp => startCodes_le hp
  rw [nalRanges]
  refine List.Pairwise.filter _ ?_
  generalize startCodes 0 0 data = positions at hsorted hle
  induction positions with
  | nil => exact List.Pairwise.nil
  | cons p rest ih =>
    obtain ⟨hhead, htail⟩ := List.pairwise_cons.mp hsorted
    have hrest : ∀ q ∈ rest, q + 3 ≤ data.length := fun q hq => hle q (List.mem_cons_of_mem _ hq)
    rw [zipWith_next]
    refine List.pairwise_cons.mpr ⟨fun later hlater => ?_, ih htail hrest⟩
    obtain ⟨q, hq, finish, rfl, -⟩ := mem_zipWith_next htail hrest hlater
    cases rest with
    | nil => simp at hq
    | cons next rest =>
      have hend := range_le data (hhead next List.mem_cons_self)
      have hnext : next ≤ q := by
        rcases List.mem_cons.mp hq with rfl | hq
        · exact Nat.le_refl _
        · have := (List.pairwise_cons.mp htail).1 q hq
          omega
      simp only [List.headD_cons]
      omega

/-! ### Framed units -/

/-- Where the start codes of framed units lie. -/
def startsOf : Nat → List (Nat × Bytes) → List Nat
  | _, [] => []
  | i, unit :: units => (i + unit.1) :: startsOf (i + unit.1 + 3 + unit.2.length) units

/-- Zeros in front of a start code only move it. -/
theorem startCodes_zeros (zeros i : Nat) (rest : Bytes) :
    startCodes 0 i (List.replicate zeros 0 ++ (startCode ++ rest)) =
      (i + zeros) :: startCodes 0 (i + zeros + 3) rest := by
  induction zeros generalizing i with
  | zero => simp [startCode, startCodes]
  | succ zeros ih =>
    have hno : (0 :: (List.replicate zeros 0 ++ (startCode ++ rest))).take 3 ≠ [0, 0, 1] := by
      rcases zeros with _ | _ | zeros
      · simp [startCode]
      · simp [startCode]
      · simp [List.replicate_succ]
    rw [List.replicate_succ, List.cons_append, startCodes, if_neg hno, ih]
    congr 1
    · omega
    · congr 1
      omega

/-- No start code begins inside a unit, whatever follows it. -/
theorem startCodes_nal {nal : Bytes} (hcoded : ¬ startCode <:+: nal) (hended : nal.getLast? ≠ some 0)
    (i : Nat) (rest : Bytes) :
    startCodes 0 i (nal ++ rest) = startCodes 0 (i + nal.length) rest := by
  induction nal generalizing i with
  | nil => rfl
  | cons b nal ih =>
    have hno : (b :: (nal ++ rest)).take 3 ≠ [0, 0, 1] := by
      intro htake
      rcases nal with _ | ⟨c, _ | ⟨d, nal⟩⟩
      · -- the unit would end in the first zero
        have hb : b = 0 := (List.cons.inj htake).1
        exact hended (by rw [hb]; rfl)
      · -- or in the second
        have hc : c = 0 := (List.cons.inj (List.cons.inj htake).2).1
        exact hended (by rw [hc]; rfl)
      · obtain ⟨rfl, rfl, rfl⟩ : b = 0 ∧ c = 0 ∧ d = 1 := by simpa using htake
        exact hcoded ⟨[], nal, rfl⟩
    have hlast : nal.getLast? ≠ some 0 := by
      intro hzero
      cases nal with
      | nil => simp at hzero
      | cons c nal => exact hended (by rwa [List.getLast?_cons_cons])
    rw [List.cons_append, startCodes, if_neg hno,
      ih (fun hinside => hcoded (hinside.trans (List.suffix_cons b nal).isInfix)) hlast,
      List.length_cons]
    congr 1
    omega

theorem startCodes_trailing (i trailing : Nat) : startCodes 0 i (List.replicate trailing 0) = [] := by
  induction trailing generalizing i with
  | zero => rfl
  | succ trailing ih =>
    have hno : (0 :: List.replicate trailing 0).take 3 ≠ ([0, 0, 1] : Bytes) := by
      rcases trailing with _ | _ | trailing
      · simp
      · simp
      · simp [List.replicate_succ]
    rw [List.replicate_succ, startCodes, if_neg hno, ih]

theorem framed_cons (unit : Nat × Bytes) (units : List (Nat × Bytes)) (trailing : Nat) :
    framed (unit :: units) trailing =
      List.replicate unit.1 0 ++ (startCode ++ (unit.2 ++ framed units trailing)) := by
  simp [framed, framedNal]

theorem startCodes_framed {units : List (Nat × Bytes)} (h : ∀ unit ∈ units, IsNal unit.2)
    (i trailing : Nat) : startCodes 0 i (framed units trailing) = startsOf i units := by
  induction units generalizing i with
  | nil => exact startCodes_trailing i trailing
  | cons unit units ih =>
    have hunit := h unit List.mem_cons_self
    rw [framed_cons, startCodes_zeros, startCodes_nal hunit.coded hunit.ended,
      ih fun other hother => h other (List.mem_cons_of_mem _ hother)]
    rfl

/-- The zeros behind a unit are taken off again, and nothing of the unit. -/
theorem rdropWhile_zeros {nal : Bytes} (hended : nal.getLast? ≠ some 0) (zeros : Nat) :
    (nal ++ List.replicate zeros 0).rdropWhile (fun b => b = 0) = nal := by
  induction zeros with
  | zero =>
    rw [List.replicate_zero, List.append_nil, List.rdropWhile_eq_self_iff]
    intro hne hzero
    rw [decide_eq_true_eq] at hzero
    exact hended (by rw [List.getLast?_eq_some_getLast hne, hzero])
  | succ zeros ih =>
    rw [List.replicate_succ', ← List.append_assoc, List.rdropWhile_concat_pos _ _ _ (by simp), ih]

theorem nalBetween_framed {nal : Bytes} (hended : nal.getLast? ≠ some 0) (front rest : Bytes)
    (zeros after : Nat) :
    nalBetween (front ++ (List.replicate zeros 0 ++
        (startCode ++ (nal ++ (List.replicate after 0 ++ rest)))))
      (front.length + zeros) (front.length + zeros + 3 + nal.length + after) = nal := by
  have hdata : front ++ (List.replicate zeros 0 ++
        (startCode ++ (nal ++ (List.replicate after 0 ++ rest)))) =
      (front ++ List.replicate zeros 0 ++ startCode) ++
        ((nal ++ List.replicate after 0) ++ rest) := by
    simp only [List.append_assoc]
  have hfront : (front ++ List.replicate zeros 0 ++ startCode).length = front.length + zeros + 3 := by
    simp [startCode]
    omega
  have hunit : (nal ++ List.replicate after (0 : UInt8)).length = nal.length + after := by simp
  have hbytes : front.length + zeros + 3 + nal.length + after - (front.length + zeros + 3) =
      (nal ++ List.replicate after (0 : UInt8)).length := by omega
  rw [nalBetween, hdata, List.drop_take, hbytes, ← hfront, List.drop_left, List.take_left]
  exact rdropWhile_zeros hended after

/-- The units of a framed stream, with any bytes in front. -/
theorem nals_framed {units : List (Nat × Bytes)} (h : ∀ unit ∈ units, IsNal unit.2)
    (front : Bytes) (trailing : Nat) :
    List.zipWith (nalBetween (front ++ framed units trailing)) (startsOf front.length units)
      ((startsOf front.length units).drop 1 ++ [(front ++ framed units trailing).length]) =
      units.map (·.2) := by
  induction units generalizing front with
  | nil => rfl
  | cons unit units ih =>
    have hunit := h unit List.mem_cons_self
    have hrest : ∀ other ∈ units, IsNal other.2 :=
      fun other hother => h other (List.mem_cons_of_mem _ hother)
    have hdata : front ++ framed (unit :: units) trailing =
        (front ++ framedNal unit) ++ framed units trailing := by
      simp [framed_cons, framedNal]
    have hfront : (front ++ framedNal unit).length = front.length + unit.1 + 3 + unit.2.length := by
      simp [framedNal, startCode]
      omega
    have hothers := ih hrest (front ++ framedNal unit)
    rw [← hdata, hfront] at hothers
    rw [startsOf, zipWith_next, hothers, List.map_cons]
    refine congrArg (· :: _) ?_
    rw [framed_cons]
    cases units with
    | nil =>
      have hend : (front ++ (List.replicate unit.1 0 ++
          (startCode ++ (unit.2 ++ framed [] trailing)))).length =
          front.length + unit.1 + 3 + unit.2.length + trailing := by
        simp [framed, startCode]
        omega
      rw [startsOf, List.headD_nil, hend]
      have hzeros := nalBetween_framed hunit.ended front [] unit.1 trailing
      rwa [List.append_nil] at hzeros
    | cons next units =>
      rw [startsOf, List.headD_cons, framed_cons]
      exact nalBetween_framed hunit.ended front _ unit.1 next.1

/-- RULE: cutting a stream inverts framing it, and of any bytes the parts cut out are not empty, lie
    one behind the other and hold no start code. -/
theorem splitAnnexb_inverts :
    (∀ (units : List (Nat × Bytes)) (trailing : Nat), (∀ unit ∈ units, IsNal unit.2) →
      splitAnnexb (framed units trailing) = units.map (·.2)) ∧
    ∀ data : Bytes, splitAnnexb data = (nalRanges data).map (slice data) ∧
      (nalRanges data).Pairwise (fun range later => range.2 ≤ later.1) ∧
      ∀ range ∈ nalRanges data,
        range.1 < range.2 ∧ range.2 ≤ data.length ∧ ¬ startCode <:+: slice data range := by
  refine ⟨fun units trailing h => ?_, fun data =>
    ⟨splitAnnexb_eq data, nalRanges_ordered data, fun range hrange => nalRanges_mem hrange⟩⟩
  have hnals := nals_framed h [] trailing
  rw [List.nil_append, List.length_nil] at hnals
  rw [splitAnnexb, startCodes_framed h, hnals, List.filter_eq_self]
  intro nal hnal
  obtain ⟨unit, hunit, rfl⟩ := List.mem_map.mp hnal
  simpa using (h unit hunit).nonempty

end Gamer.Recording
