import Mathlib.Algebra.GroupWithZero.Nat
import Mathlib.Data.List.DropRight
import Mathlib.Tactic.SplitIfs
import Gamer.Lib.Loops

/-! The picture that a decoder prints. The header is `P6` and three numbers, with whitespace and
    comments before each; then there is one whitespace byte, and the pixels:

        P6 ▷ gap ▷ width ▷ gap ▷ height ▷ gap ▷ maxval ▷ whitespace ▷ 3 · width · height bytes

    A comment is skipped up to the last line feed there is, and not up to its own. -/

namespace Gamer.Device
open Gamer.Lib

/-- A decoded picture, three bytes for each pixel. -/
structure DecodedScreen where
  width : UInt32
  height : UInt32
  rgb : List UInt8
  deriving DecidableEq

def isSpace (b : UInt8) : Bool := b = 32 || b = 9 || b = 10 || b = 12 || b = 13

def isDigit (b : UInt8) : Bool := 48 ≤ b && b ≤ 57

def numeral (digits : List UInt8) : Nat := digits.foldl (fun n b => 10 * n + (b.toNat - 48)) 0

/-! ### Reading -/

/-- What is left after splitting at the line feeds: the last part. -/
def lastLine (rest : List UInt8) : List UInt8 := rest.rtakeWhile (· ≠ 10)

/-- One round of the loop before a number; a `#` takes all but the last line with it. -/
def skipStep : List UInt8 → Option (List UInt8)
  | [] => none
  | b :: rest =>
    if b = 35 then some (lastLine (b :: rest)) else if isSpace b then some rest else none

/-- A number after whitespace and comments, with what is left. -/
def readNumber (fuel : Nat) (rest : List UInt8) : Option (Except String (Nat × List UInt8)) :=
  (loop skipStep fuel rest).map fun rest =>
    let digits := rest.takeWhile isDigit
    if digits = [] then .error "PPM 头部不完整"
    else if 2 ^ 64 ≤ numeral digits then .error "PPM 头部数值溢出"
    else .ok (numeral digits, rest.dropWhile isDigit)

def readNumbers (fuel : Nat) : Nat → List UInt8 → Option (Except String (List Nat × List UInt8))
  | 0, rest => some (.ok ([], rest))
  | n + 1, rest =>
    match readNumber fuel rest with
    | none => none
    | some (.error e) => some (.error e)
    | some (.ok (v, rest)) =>
      (readNumbers fuel n rest).map fun r => r.map fun found => (v :: found.1, found.2)

/-- The checks of the header, and the pixels; the product is taken in 64 bits. -/
def readPixels (width height maxval : Nat) : List UInt8 → Except String DecodedScreen
  | [] => .error "PPM 头部与像素数据之间缺少空白分隔"
  | b :: raster =>
    if ¬ isSpace b then .error "PPM 头部与像素数据之间缺少空白分隔"
    else if maxval = 0 ∨ 255 < maxval then .error "PPM maxval 仅支持 ≤255"
    else if 2 ^ 32 ≤ width then .error "PPM 宽度溢出"
    else if 2 ^ 32 ≤ height then .error "PPM 高度溢出"
    else
      let pixels := width * height * 3 % 2 ^ 64
      if raster.length < pixels then .error "PPM 像素数据不足"
      else .ok ⟨.ofNat width, .ofNat height, raster.take pixels⟩

/-- The parser; it comes to no end if the fuel is used up in a loop. -/
def fromPpm (fuel : Nat) : List UInt8 → Option (Except String DecodedScreen)
  | 80 :: 54 :: rest =>
    match readNumbers fuel 3 rest with
    | none => none
    | some (.error e) => some (.error e)
    | some (.ok ([width, height, maxval], rest)) => some (readPixels width height maxval rest)
    | some (.ok _) => some (.error "PPM 头部不完整")
  | _ => some (.error "解码输出不是 PPM（P6）格式")

/-- The parser ends with this result. -/
def Ends (bytes : List UInt8) (r : Except String DecodedScreen) : Prop :=
  ∃ enough, ∀ fuel, enough ≤ fuel → fromPpm fuel bytes = some r

/-! ### The format -/

/-- A whitespace byte, or a comment up to its line feed. -/
inductive GapUnit where
  | space (b : UInt8)
  | comment (text : List UInt8)

namespace GapUnit

def bytes : GapUnit → List UInt8
  | space b => [b]
  | comment text => 35 :: text ++ [10]

def Valid : GapUnit → Prop
  | space b => isSpace b = true
  | comment text => 10 ∉ text

end GapUnit

/-- Numbers with a gap before each, and their text. -/
inductive HeaderText : List Nat → List UInt8 → Prop where
  | nil : HeaderText [] []
  | cons {gap : List GapUnit} {digits text : List UInt8} {values : List Nat} (some : gap ≠ [])
      (valid : ∀ u ∈ gap, u.Valid) (digits_some : digits ≠ [])
      (digits_valid : ∀ b ∈ digits, isDigit b = true) (rest : HeaderText values text) :
      HeaderText (numeral digits :: values) (gap.flatMap GapUnit.bytes ++ digits ++ text)

/-- A file with this header. -/
structure Headed (bytes : List UInt8) (width height : Nat) (raster : List UInt8) : Prop where
  intro ::
  text : ∃ text maxval sep, HeaderText [width, height, maxval] text ∧ 1 ≤ maxval ∧ maxval ≤ 255 ∧
    isSpace sep = true ∧ bytes = 80 :: 54 :: (text ++ sep :: raster)

/-- The bytes are a file of this picture, with enough pixels. -/
def IsPpm (bytes : List UInt8) (s : DecodedScreen) : Prop :=
  ∃ raster, Headed bytes s.width.toNat s.height.toNat raster ∧
    3 * s.width.toNat * s.height.toNat ≤ raster.length ∧
    s.rgb = raster.take (3 * s.width.toNat * s.height.toNat)

/-- The parser ends; what it accepts are the files of the format, and each with its own picture. -/
def ParsesWell (bytes : List UInt8) : Prop :=
  ∃ r, Ends bytes r ∧ (∀ s, r = .ok s ↔ IsPpm bytes s) ∧
    ∀ s, r = .ok s → s.rgb.length = 3 * s.width.toNat * s.height.toNat

/-! ### Plain inputs -/

/-- No number that fits stands here. -/
def isUnreadable (r : List UInt8) : Bool :=
  r.takeWhile isDigit = [] || 2 ^ 64 ≤ numeral (r.takeWhile isDigit)

/-- No comment stands before the next numbers. -/
def commentFree : Nat → List UInt8 → Bool
  | 0, _ => true
  | n + 1, rest =>
    let r := rest.dropWhile isSpace
    r.head? ≠ some 35 && (isUnreadable r || commentFree n (r.dropWhile isDigit))

/-- The text without what is between the first comment before a number and the last line feed of the
    input; none if there is no line feed, or if a comment begins in the last line. -/
def plainHeader : Nat → List UInt8 → Option (List UInt8)
  | 0, rest => some rest
  | n + 1, rest =>
    let spaces := rest.takeWhile isSpace
    let r := rest.dropWhile isSpace
    if r.head? = some 35 then
      if 10 ∈ r ∧ commentFree (n + 1) (lastLine r) then some (spaces ++ 10 :: lastLine r) else none
    else if isUnreadable r then some rest
    else (plainHeader n (r.dropWhile isDigit)).map fun plain =>
      spaces ++ r.takeWhile isDigit ++ plain

/-- A line feed after the magic, and the plain header. -/
def plainText : List UInt8 → Option (List UInt8)
  | 80 :: 54 :: rest => (plainHeader 3 rest).map fun plain => 80 :: 54 :: 10 :: plain
  | bytes => some bytes

/-- The size of the picture has 64 bits, or there are too few bytes even for the size modulo 2⁶⁴. -/
def Fits (bytes : List UInt8) : Prop :=
  ∀ width height raster, width < 2 ^ 32 → height < 2 ^ 32 → Headed bytes width height raster →
    3 * width * height < 2 ^ 64 ∨ raster.length < 3 * width * height % 2 ^ 64

/-! ### The loop before a number -/

variable {r rest plain tail : List UInt8} {fuel n : Nat}

theorem isSpace_ne_comment {b : UInt8} (h : isSpace b = true) : b ≠ 35 := by
  rintro rfl
  revert h
  decide

theorem not_digit_of_space {b : UInt8} (h : isSpace b = true) : isDigit b = false := by
  simp only [isSpace, Bool.or_eq_true, decide_eq_true_eq] at h
  rcases h with (((rfl | rfl) | rfl) | rfl) | rfl <;> decide

theorem not_space_of_digit {b : UInt8} (h : isDigit b = true) : isSpace b = false := by
  by_contra hspace
  rw [Bool.not_eq_false] at hspace
  rw [not_digit_of_space hspace] at h
  cases h

/-- RUN: the spaces are skipped one by one. -/
theorem loop_spaces : ∀ (rest : List UInt8) (fuel : Nat),
    loop skipStep ((rest.takeWhile isSpace).length + fuel) rest =
      loop skipStep fuel (rest.dropWhile isSpace)
  | [], fuel => by simp
  | b :: rest, fuel => by
    by_cases hspace : isSpace b = true
    · have hstep : skipStep (b :: rest) = some rest := by
        rw [skipStep, if_neg (isSpace_ne_comment hspace), if_pos hspace]
      rw [List.takeWhile_cons_of_pos hspace, List.dropWhile_cons_of_pos hspace, List.length_cons,
        Nat.add_right_comm, loop_step hstep]
      exact loop_spaces rest fuel
    · rw [List.takeWhile_cons_of_neg hspace, List.dropWhile_cons_of_neg hspace, List.length_nil,
        Nat.zero_add]

theorem head_dropWhile {p : UInt8 → Bool} {b : UInt8} (h : (rest.dropWhile p).head? = some b) :
    p b = false := by
  have hhead := List.head?_dropWhile_not p rest
  rw [h] at hhead
  simpa using hhead

/-- The loop ends where no comment begins. -/
theorem skip_done (hfuel : rest.length < fuel) (h : (rest.dropWhile isSpace).head? ≠ some 35) :
    loop skipStep fuel rest = some (rest.dropWhile isSpace) := by
  have hlen : (rest.takeWhile isSpace).length ≤ rest.length := by
    have hpre := List.takeWhile_prefix isSpace (l := rest)
    exact hpre.length_le
  have hdone : skipStep (rest.dropWhile isSpace) = none := by
    cases hr : rest.dropWhile isSpace with
    | nil => rfl
    | cons b r =>
      have hhead : (rest.dropWhile isSpace).head? = some b := by rw [hr]; rfl
      have hspace : isSpace b = false := head_dropWhile hhead
      rw [hr] at h
      have hne : b ≠ 35 := fun heq => h (congrArg some heq)
      rw [skipStep, if_neg hne, if_neg (by rw [hspace]; decide)]
  obtain ⟨k, rfl⟩ := Nat.exists_eq_add_of_lt (Nat.lt_of_le_of_lt hlen hfuel)
  rw [Nat.add_assoc, loop_spaces]
  exact loop_done hdone

theorem lastLine_self (h : 10 ∉ r) : lastLine r = r :=
  List.rtakeWhile_eq_self_iff.mpr fun b hb => by
    have hne : b ≠ 10 := fun heq => h (heq ▸ hb)
    simpa using hne

theorem lastLine_no_feed : 10 ∉ lastLine r := fun h => by
  simpa using List.mem_rtakeWhile_imp h

theorem length_lastLine (h : 10 ∈ r) : (lastLine r).length < r.length := by
  refine lt_of_le_of_ne (List.rtakeWhile_suffix _ _).length_le fun heq => ?_
  have hsame := (List.rtakeWhile_suffix (fun b : UInt8 => decide (b ≠ 10)) r).eq_of_length heq
  exact lastLine_no_feed (hsame.symm ▸ h)

theorem skipStep_comment (h : r.head? = some 35) : skipStep r = some (lastLine r) := by
  obtain ⟨t, rfl⟩ := List.head?_eq_some_iff.mp h
  rw [skipStep, if_pos rfl]

/-- A loop that goes on from a comment goes on from the last line. -/
theorem loop_comment (h : (rest.dropWhile isSpace).head? = some 35) (fuel : Nat) :
    loop skipStep ((rest.takeWhile isSpace).length + (fuel + 1)) rest =
      loop skipStep fuel (lastLine (rest.dropWhile isSpace)) := by
  rw [loop_spaces, loop_step (skipStep_comment h)]

/-- A comment without a line feed is skipped forever. -/
theorem skip_stuck (h : (rest.dropWhile isSpace).head? = some 35)
    (hfeed : 10 ∉ rest.dropWhile isSpace) (fuel : Nat) : loop skipStep fuel rest = none := by
  have hstep := skipStep_comment h
  rw [lastLine_self hfeed] at hstep
  have hnone := loop_stuck hstep
  cases hloop : loop skipStep fuel rest with
  | none => rfl
  | some t =>
    have hmore := loop_mono hloop (Nat.le_add_left fuel (rest.takeWhile isSpace).length)
    rw [loop_spaces, hnone] at hmore
    cases hmore

theorem skip_comment (h : (rest.dropWhile isSpace).head? = some 35)
    (hfeed : 10 ∈ rest.dropWhile isSpace)
    (hline : ((lastLine (rest.dropWhile isSpace)).dropWhile isSpace).head? ≠ some 35)
    (hfuel : rest.length < fuel) :
    loop skipStep fuel rest = some ((lastLine (rest.dropWhile isSpace)).dropWhile isSpace) := by
  have hsplit : (rest.takeWhile isSpace).length + (rest.dropWhile isSpace).length = rest.length := by
    rw [← List.length_append, List.takeWhile_append_dropWhile]
  have hshort := length_lastLine hfeed
  obtain ⟨k, rfl⟩ : ∃ k, fuel = (rest.takeWhile isSpace).length + (k + 1) :=
    ⟨fuel - (rest.takeWhile isSpace).length - 1, by omega⟩
  rw [loop_comment h]
  exact skip_done (by omega) hline

theorem skip_lost (h : (rest.dropWhile isSpace).head? = some 35)
    (hline : ((lastLine (rest.dropWhile isSpace)).dropWhile isSpace).head? = some 35) (fuel : Nat) :
    loop skipStep fuel rest = none := by
  have hfeed : 10 ∉ (lastLine (rest.dropWhile isSpace)).dropWhile isSpace := fun hmem =>
    lastLine_no_feed ((List.dropWhile_suffix _).subset hmem)
  cases hloop : loop skipStep fuel rest with
  | none => rfl
  | some t =>
    have hle : fuel ≤ (rest.takeWhile isSpace).length + (fuel + 1) := by omega
    have hmore := loop_mono hloop hle
    rw [loop_comment h, skip_stuck hline hfeed] at hmore
    cases hmore

/-! ### The numbers -/

/-- The numbers of a text with no comment. -/
def numbersOf : Nat → List UInt8 → Except String (List Nat × List UInt8)
  | 0, rest => .ok ([], rest)
  | n + 1, rest =>
    let r := rest.dropWhile isSpace
    if r.takeWhile isDigit = [] then .error "PPM 头部不完整"
    else if 2 ^ 64 ≤ numeral (r.takeWhile isDigit) then .error "PPM 头部数值溢出"
    else (numbersOf n (r.dropWhile isDigit)).map fun found =>
      (numeral (r.takeWhile isDigit) :: found.1, found.2)

/-- STEP: what comes after the loop. -/
theorem readNumbers_step (hloop : loop skipStep fuel rest = some r)
    (hrest : isUnreadable r = false →
      readNumbers fuel n (r.dropWhile isDigit) = some (numbersOf n tail)) :
    readNumbers fuel (n + 1) rest = some (
      if r.takeWhile isDigit = [] then .error "PPM 头部不完整"
      else if 2 ^ 64 ≤ numeral (r.takeWhile isDigit) then .error "PPM 头部数值溢出"
      else (numbersOf n tail).map fun found =>
        (numeral (r.takeWhile isDigit) :: found.1, found.2)) := by
  rw [readNumbers, readNumber, hloop, Option.map_some]
  dsimp only
  by_cases hempty : r.takeWhile isDigit = []
  · rw [if_pos hempty, if_pos hempty]
  · by_cases hbig : 2 ^ 64 ≤ numeral (r.takeWhile isDigit)
    · rw [if_neg hempty, if_pos hbig, if_neg hempty, if_pos hbig]
    · have hreadable : isUnreadable r = false := by
        rw [isUnreadable, decide_eq_false hempty, decide_eq_false hbig]
        rfl
      rw [if_neg hempty, if_neg hbig, if_neg hempty, if_neg hbig]
      dsimp only
      rw [hrest hreadable, Option.map_some]

/-- RUN: where no comment stands, the numbers are read. -/
theorem readNumbers_free : ∀ {n : Nat} {rest : List UInt8}, commentFree n rest = true →
    rest.length < fuel → readNumbers fuel n rest = some (numbersOf n rest)
  | 0, _, _, _ => rfl
  | n + 1, rest, hfree, hfuel => by
    rw [commentFree, Bool.and_eq_true, decide_eq_true_eq, Bool.or_eq_true] at hfree
    refine readNumbers_step (skip_done hfuel hfree.1) fun hreadable => ?_
    refine readNumbers_free (hfree.2.resolve_left (by rw [hreadable]; decide)) ?_
    have hsuffix := (List.dropWhile_suffix isDigit).trans (List.dropWhile_suffix (l := rest) isSpace)
    exact Nat.lt_of_le_of_lt hsuffix.length_le hfuel

theorem takeWhile_spaces (rest tail : List UInt8) :
    (rest.takeWhile isSpace ++ tail).dropWhile isSpace = tail.dropWhile isSpace :=
  List.dropWhile_append_of_pos fun _ hb => List.mem_takeWhile_imp hb

theorem head_spaces {b : UInt8} (h : (rest.takeWhile isSpace ++ tail).head? = some b) :
    isSpace b = true ∨ rest.takeWhile isSpace = [] ∧ tail.head? = some b := by
  cases hspaces : rest.takeWhile isSpace with
  | nil =>
    rw [hspaces] at h
    exact .inr ⟨rfl, h⟩
  | cons c cs =>
    rw [hspaces] at h
    cases h
    exact .inl (List.mem_takeWhile_imp (hspaces ▸ List.mem_cons_self))

/-- A text that does not begin with a digit is none with digits in front once it is plain. -/
theorem plainHeader_head : ∀ {n : Nat} {rest plain : List UInt8}, plainHeader n rest = some plain →
    (∀ b, rest.head? = some b → isDigit b = false) →
    ∀ b, plain.head? = some b → isDigit b = false
  | 0, rest, plain, h, hrest => by
    cases h
    exact hrest
  | n + 1, rest, plain, h, hrest => by
    intro b hb
    rw [plainHeader] at h
    split_ifs at h with hcomment hline hunreadable
    · cases h
      rcases head_spaces hb with hspace | ⟨-, hfeed⟩
      · exact not_digit_of_space hspace
      · cases hfeed
        decide
    · cases h
      exact hrest b hb
    · obtain ⟨plain', -, rfl⟩ := Option.map_eq_some_iff.mp h
      rw [List.append_assoc] at hb
      rcases head_spaces hb with hspace | ⟨hnone, -⟩
      · exact not_digit_of_space hspace
      · have hsame : rest.dropWhile isSpace = rest := by
          conv_rhs => rw [← List.takeWhile_append_dropWhile (p := isSpace) (l := rest), hnone]
          rfl
        rw [hsame] at hunreadable
        refine absurd ?_ hunreadable
        have hdigits : rest.takeWhile isDigit = [] := by
          cases rest with
          | nil => rfl
          | cons c cs => exact List.takeWhile_cons_of_neg (by simp [hrest c rfl])
        rw [isUnreadable, hdigits]
        rfl

theorem takeWhile_digits {digits : List UInt8} (hdigits : ∀ b ∈ digits, isDigit b = true)
    (htail : ∀ b, tail.head? = some b → isDigit b = false) :
    (digits ++ tail).takeWhile isDigit = digits ∧ (digits ++ tail).dropWhile isDigit = tail := by
  rw [List.takeWhile_append_of_pos hdigits, List.dropWhile_append_of_pos hdigits]
  cases tail with
  | nil => simp
  | cons b tail =>
    have hb : ¬ isDigit b = true := by simp [htail b rfl]
    rw [List.takeWhile_cons_of_neg hb, List.dropWhile_cons_of_neg hb, List.append_nil]
    exact ⟨rfl, rfl⟩

theorem isUnreadable_false_iff : isUnreadable r = false ↔
    r.takeWhile isDigit ≠ [] ∧ numeral (r.takeWhile isDigit) < 2 ^ 64 := by
  rw [isUnreadable, Bool.or_eq_false_iff, decide_eq_false_iff_not, decide_eq_false_iff_not,
    Nat.not_le]

/-- RUN: the code reads the plain header. -/
theorem readNumbers_plain : ∀ {n : Nat} {rest plain : List UInt8}, plainHeader n rest = some plain →
    rest.length < fuel → readNumbers fuel n rest = some (numbersOf n plain) ∧
      commentFree n plain = true
  | 0, rest, plain, h, _ => by
    cases h
    exact ⟨rfl, rfl⟩
  | n + 1, rest, plain, h, hfuel => by
    rw [plainHeader] at h
    split_ifs at h with hcomment hline hunreadable
    · cases h
      have hspaces : (rest.takeWhile isSpace ++ 10 :: lastLine (rest.dropWhile isSpace)).dropWhile
          isSpace = (lastLine (rest.dropWhile isSpace)).dropWhile isSpace := by
        rw [takeWhile_spaces, List.dropWhile_cons_of_pos (by decide)]
      obtain ⟨hfeed, hfree⟩ := hline
      have hplain : commentFree (n + 1)
          (rest.takeWhile isSpace ++ 10 :: lastLine (rest.dropWhile isSpace)) = true := by
        rw [commentFree, hspaces]
        exact hfree
      refine ⟨?_, hplain⟩
      rw [commentFree, Bool.and_eq_true, decide_eq_true_eq, Bool.or_eq_true] at hfree
      have hloop := skip_comment hcomment hfeed hfree.1 hfuel
      have hstep := readNumbers_step hloop (n := n) fun hreadable =>
        readNumbers_free (hfree.2.resolve_left (by rw [hreadable]; decide)) ?_
      · rw [hstep, numbersOf, hspaces]
      · have hsuffix := (List.dropWhile_suffix isDigit).trans
          (List.dropWhile_suffix (l := lastLine (rest.dropWhile isSpace)) isSpace)
        have hshort := length_lastLine hfeed
        have hsplit := (List.dropWhile_suffix (l := rest) isSpace).length_le
        exact Nat.lt_of_le_of_lt (hsuffix.length_le.trans (hshort.le.trans hsplit)) hfuel
    · cases h
      have hloop := skip_done hfuel hcomment
      refine ⟨readNumbers_step hloop fun hreadable => ?_, ?_⟩
      · rw [hreadable] at hunreadable
        cases hunreadable
      · rw [commentFree]
        simp [hcomment, hunreadable]
    · obtain ⟨plain', hplain', rfl⟩ := Option.map_eq_some_iff.mp h
      have hreadable := Bool.eq_false_iff.mpr hunreadable
      have hsuffix := (List.dropWhile_suffix isDigit).trans (List.dropWhile_suffix (l := rest) isSpace)
      obtain ⟨hread, hfree⟩ := readNumbers_plain hplain'
        (Nat.lt_of_le_of_lt hsuffix.length_le hfuel)
      have hhead := plainHeader_head hplain' fun b hb => head_dropWhile hb
      obtain ⟨hsome, hsmall⟩ := isUnreadable_false_iff.mp hreadable
      have hdigits : ∀ b ∈ (rest.dropWhile isSpace).takeWhile isDigit, isDigit b = true :=
        fun b hb => List.mem_takeWhile_imp hb
      obtain ⟨htake, hdrop⟩ := takeWhile_digits hdigits hhead
      have hspaces : (rest.takeWhile isSpace ++ (rest.dropWhile isSpace).takeWhile isDigit ++
          plain').dropWhile isSpace = (rest.dropWhile isSpace).takeWhile isDigit ++ plain' := by
        rw [List.append_assoc, takeWhile_spaces]
        cases hd : (rest.dropWhile isSpace).takeWhile isDigit with
        | nil => exact absurd hd hsome
        | cons c cs =>
          have hc := not_space_of_digit (hdigits c (hd ▸ List.mem_cons_self))
          exact List.dropWhile_cons_of_neg (by simp [hc])
      refine ⟨?_, ?_⟩
      · rw [readNumbers_step (skip_done hfuel hcomment) fun _ => hread, numbersOf, hspaces]
        rw [htake, hdrop]
      · rw [commentFree, hspaces]
        rw [hdrop, hfree, Bool.or_true, Bool.and_true, decide_eq_true_eq]
        cases hd : (rest.dropWhile isSpace).takeWhile isDigit with
        | nil => exact absurd hd hsome
        | cons c cs =>
          have hc := hdigits c (hd ▸ List.mem_cons_self)
          rintro heq
          cases heq
          revert hc
          decide

/-- A number that can be read, and the loop over those after it comes to no end. -/
theorem readNumbers_none (hread : isUnreadable r = false)
    (hlost : readNumbers fuel n (r.dropWhile isDigit) = none)
    (hloop : ∀ t, loop skipStep fuel rest = some t → t = r) :
    readNumbers fuel (n + 1) rest = none := by
  obtain ⟨hsome, hsmall⟩ := isUnreadable_false_iff.mp hread
  rw [readNumbers, readNumber]
  cases hskip : loop skipStep fuel rest with
  | none => rfl
  | some t =>
    obtain rfl := hloop t hskip
    rw [Option.map_some]
    dsimp only
    rw [if_neg hsome, if_neg (Nat.not_le.mpr hsmall)]
    dsimp only
    rw [hlost, Option.map_none]

theorem loop_unique {s t : List UInt8} {fuel' : Nat} (h : loop skipStep fuel rest = some s)
    (h' : loop skipStep fuel' rest = some t) : s = t :=
  Option.some.inj ((loop_mono h (Nat.le_max_left fuel fuel')).symm.trans
    (loop_mono h' (Nat.le_max_right fuel fuel')))

/-- A comment that does not come before this number comes before a later one. -/
theorem comment_later (hcomment : (rest.dropWhile isSpace).head? ≠ some 35)
    (h : commentFree (n + 1) rest = false) : isUnreadable (rest.dropWhile isSpace) = false ∧
      commentFree n ((rest.dropWhile isSpace).dropWhile isDigit) = false := by
  rw [commentFree, decide_eq_true hcomment, Bool.true_and] at h
  exact Bool.or_eq_false_iff.mp h

/-- RUN: in the last line a comment is skipped forever. -/
theorem readNumbers_stuck : ∀ {n : Nat} {rest : List UInt8}, 10 ∉ rest →
    commentFree n rest = false → ∀ fuel, readNumbers fuel n rest = none
  | 0, _, _, h, _ => by cases h
  | n + 1, rest, hfeed, h, fuel => by
    by_cases hcomment : (rest.dropWhile isSpace).head? = some 35
    · have hnone := skip_stuck hcomment
        (fun hmem => hfeed ((List.dropWhile_suffix _).subset hmem)) fuel
      rw [readNumbers, readNumber, hnone, Option.map_none]
    · replace h := comment_later hcomment h
      have hsuffix := (List.dropWhile_suffix isDigit).trans (List.dropWhile_suffix (l := rest) isSpace)
      refine readNumbers_none h.1 (readNumbers_stuck (fun hmem => hfeed (hsuffix.subset hmem)) h.2 _)
        fun t ht => ?_
      exact loop_unique ht (skip_done (Nat.lt_succ_self _) hcomment)

/-- RUN: where there is no plain header, the code comes to no end. -/
theorem readNumbers_lost : ∀ {n : Nat} {rest : List UInt8}, plainHeader n rest = none →
    ∀ fuel, readNumbers fuel n rest = none
  | 0, _, h, _ => by cases h
  | n + 1, rest, h, fuel => by
    have hnone : loop skipStep fuel rest = none → readNumbers fuel (n + 1) rest = none := by
      intro hloop
      rw [readNumbers, readNumber, hloop, Option.map_none]
    rw [plainHeader] at h
    split_ifs at h with hcomment hline hunreadable
    · by_cases hfeed : 10 ∈ rest.dropWhile isSpace
      · have hfree : commentFree (n + 1) (lastLine (rest.dropWhile isSpace)) = false :=
          Bool.eq_false_iff.mpr fun hfree => hline ⟨hfeed, hfree⟩
        by_cases hagain : ((lastLine (rest.dropWhile isSpace)).dropWhile isSpace).head? = some 35
        · exact hnone (skip_lost hcomment hagain fuel)
        · replace hfree := comment_later hagain hfree
          have hsuffix := (List.dropWhile_suffix isDigit).trans
            (List.dropWhile_suffix (l := lastLine (rest.dropWhile isSpace)) isSpace)
          refine readNumbers_none hfree.1 (readNumbers_stuck
            (fun hmem => lastLine_no_feed (hsuffix.subset hmem)) hfree.2 _) fun t ht => ?_
          exact loop_unique ht (skip_comment hcomment hfeed hagain (Nat.lt_succ_self _))
      · exact hnone (skip_stuck hcomment hfeed fuel)
    · exact readNumbers_none (Bool.eq_false_iff.mpr hunreadable)
        (readNumbers_lost (Option.map_eq_none_iff.mp h) fuel) fun t ht =>
          loop_unique ht (skip_done (Nat.lt_succ_self _) hcomment)

/-! ### The numbers are the header's -/

/-- A gap of which only spaces are skipped has no comment. -/
theorem gap_spaces : ∀ {gap : List GapUnit}, (∀ u ∈ gap, u.Valid) →
    ((gap.flatMap GapUnit.bytes ++ tail).dropWhile isSpace).head? ≠ some 35 →
    (gap.flatMap GapUnit.bytes ++ tail).dropWhile isSpace = tail.dropWhile isSpace
  | [], _, _ => rfl
  | .space b :: gap, hvalid, hhead => by
    have hb : isSpace b = true := hvalid _ List.mem_cons_self
    have hcons : (List.flatMap GapUnit.bytes (.space b :: gap) ++ tail) =
        b :: (gap.flatMap GapUnit.bytes ++ tail) := rfl
    rw [hcons, List.dropWhile_cons_of_pos hb] at hhead ⊢
    exact gap_spaces (fun u hu => hvalid u (List.mem_cons_of_mem _ hu)) hhead
  | .comment text :: gap, _, hhead => by
    have hcons : (List.flatMap GapUnit.bytes (.comment text :: gap) ++ tail) =
        35 :: (text ++ [10] ++ gap.flatMap GapUnit.bytes ++ tail) := by
      simp [GapUnit.bytes]
    rw [hcons, List.dropWhile_cons_of_neg (by decide)] at hhead
    exact absurd rfl hhead

theorem gap_head {gap : List GapUnit} (hsome : gap ≠ []) (hvalid : ∀ u ∈ gap, u.Valid) {b : UInt8}
    (h : (gap.flatMap GapUnit.bytes ++ tail).head? = some b) : isDigit b = false := by
  cases gap with
  | nil => exact absurd rfl hsome
  | cons u gap =>
    cases u with
    | space c =>
      cases h
      exact not_digit_of_space (hvalid _ List.mem_cons_self)
    | comment text =>
      cases h
      decide

theorem HeaderText.head {values : List Nat} {text : List UInt8} (h : HeaderText values text)
    (htail : ∀ b, tail.head? = some b → isDigit b = false) :
    ∀ b, (text ++ tail).head? = some b → isDigit b = false := by
  cases h with
  | nil => exact htail
  | cons hsome hvalid _ _ _ =>
    intro b hb
    rw [List.append_assoc, List.append_assoc] at hb
    exact gap_head hsome hvalid hb

/-- What numbers are read, and what is left after them. -/
structure Numbers (n : Nat) (rest : List UInt8) (values : List Nat) (tail : List UInt8) : Prop where
  text : ∃ text, HeaderText values text ∧ rest = text ++ tail
  length : values.length = n
  small : ∀ v ∈ values, v < 2 ^ 64
  stop : ∀ b, tail.head? = some b → isDigit b = false

/-- SOUND: numbers that are read stand in the text, with a gap before each. -/
theorem numbers_of_ok : ∀ {n : Nat} {rest : List UInt8} {values : List Nat} {tail : List UInt8},
    numbersOf n rest = .ok (values, tail) → (∀ b, rest.head? = some b → isDigit b = false) →
    Numbers n rest values tail
  | 0, rest, values, tail, h, hhead => by
    cases h
    exact ⟨⟨[], .nil, rfl⟩, rfl, fun _ hv => (by cases hv), hhead⟩
  | n + 1, rest, values, tail, h, hhead => by
    rw [numbersOf] at h
    split_ifs at h with hempty hbig
    cases hmore : numbersOf n ((rest.dropWhile isSpace).dropWhile isDigit) with
    | error e =>
      rw [hmore] at h
      cases h
    | ok found =>
      obtain ⟨values', tail'⟩ := found
      rw [hmore] at h
      cases h
      have hnumbers := numbers_of_ok hmore fun b hb => head_dropWhile hb
      obtain ⟨text, htext, hrest⟩ := hnumbers.text
      have hbytes : ((rest.takeWhile isSpace).map GapUnit.space).flatMap GapUnit.bytes =
          rest.takeWhile isSpace := by
        rw [List.flatMap_map]
        exact List.flatMap_singleton' _
      have hsome : (rest.takeWhile isSpace).map GapUnit.space ≠ [] := by
        intro hnone
        have hspaces : rest.takeWhile isSpace = [] := List.map_eq_nil_iff.mp hnone
        have hsame : rest.dropWhile isSpace = rest := by
          conv_rhs => rw [← List.takeWhile_append_dropWhile (p := isSpace) (l := rest), hspaces]
          rfl
        rw [hsame] at hempty
        cases rest with
        | nil => exact hempty rfl
        | cons c cs => exact hempty (List.takeWhile_cons_of_neg (by simp [hhead c rfl]))
      have hvalid : ∀ u ∈ (rest.takeWhile isSpace).map GapUnit.space, u.Valid := by
        intro u hu
        obtain ⟨b, hb, rfl⟩ := List.mem_map.mp hu
        exact List.mem_takeWhile_imp hb
      refine ⟨⟨_, .cons hsome hvalid hempty (fun b hb => List.mem_takeWhile_imp hb) htext, ?_⟩, ?_,
        List.forall_mem_cons.mpr ⟨Nat.not_le.mp hbig, hnumbers.small⟩, hnumbers.stop⟩
      · rw [hbytes, List.append_assoc, ← hrest, List.append_assoc, List.takeWhile_append_dropWhile,
          List.takeWhile_append_dropWhile]
      · rw [List.length_cons, hnumbers.length]

/-- COMPLETE: numbers that stand in the text are read, if there is no comment. -/
theorem ok_of_numbers {values : List Nat} {text : List UInt8} (h : HeaderText values text) :
    commentFree values.length (text ++ tail) = true → (∀ v ∈ values, v < 2 ^ 64) →
    (∀ b, tail.head? = some b → isDigit b = false) →
    numbersOf values.length (text ++ tail) = .ok (values, tail) := by
  induction h with
  | nil => exact fun _ _ _ => rfl
  | @cons gap digits text values hsome hvalid hdigits hdigitsValid hrest ih =>
    intro hfree hsmall hstop
    rw [List.length_cons, commentFree, Bool.and_eq_true, decide_eq_true_eq, Bool.or_eq_true] at hfree
    rw [List.append_assoc, List.append_assoc] at hfree ⊢
    have hdrop : (digits ++ (text ++ tail)).dropWhile isSpace = digits ++ (text ++ tail) := by
      cases digits with
      | nil => exact absurd rfl hdigits
      | cons c cs =>
        have hc := not_space_of_digit (hdigitsValid c List.mem_cons_self)
        exact List.dropWhile_cons_of_neg (by simp [hc])
    have hspaces := (gap_spaces hvalid hfree.1).trans hdrop
    obtain ⟨htake, hleft⟩ := takeWhile_digits hdigitsValid (hrest.head hstop)
    obtain ⟨hsmall, hsmalls⟩ := List.forall_mem_cons.mp hsmall
    have hreadable : isUnreadable (digits ++ (text ++ tail)) = false := by
      rw [isUnreadable_false_iff, htake]
      exact ⟨hdigits, hsmall⟩
    rw [hspaces, hreadable, hleft] at hfree
    have hmore := ih (hfree.2.resolve_left (by decide)) hsmalls hstop
    rw [List.length_cons, numbersOf, hspaces, htake, hleft, if_neg hdigits,
      if_neg (Nat.not_le.mpr hsmall), hmore]
    rfl

/-! ### The picture -/

/-- The size as it is computed. -/
def wrapped (s : DecodedScreen) : Nat := 3 * s.width.toNat * s.height.toNat % 2 ^ 64

theorem readPixels_iff {width height maxval : Nat} {s : DecodedScreen} :
    readPixels width height maxval tail = .ok s ↔ ∃ sep raster, tail = sep :: raster ∧
      isSpace sep = true ∧ (1 ≤ maxval ∧ maxval ≤ 255) ∧ width = s.width.toNat ∧
      height = s.height.toNat ∧ wrapped s ≤ raster.length ∧ s.rgb = raster.take (wrapped s) := by
  have hwrapped : ∀ w h : UInt32, w.toNat * h.toNat * 3 % 2 ^ 64 = 3 * w.toNat * h.toNat % 2 ^ 64 := by
    intro w h
    rw [Nat.mul_comm, Nat.mul_assoc]
  constructor
  · intro h
    cases tail with
    | nil => cases h
    | cons sep raster =>
      rw [readPixels] at h
      dsimp only at h
      split_ifs at h with hspace hmax hwidth hheight hshort
      cases h
      have hw : (UInt32.ofNat width).toNat = width := by
        rw [UInt32.toNat_ofNat']
        exact Nat.mod_eq_of_lt (by omega)
      have hh : (UInt32.ofNat height).toNat = height := by
        rw [UInt32.toNat_ofNat']
        exact Nat.mod_eq_of_lt (by omega)
      have hsize : wrapped ⟨UInt32.ofNat width, UInt32.ofNat height,
          raster.take (width * height * 3 % 2 ^ 64)⟩ = width * height * 3 % 2 ^ 64 := by
        have := hwrapped (UInt32.ofNat width) (UInt32.ofNat height)
        rw [wrapped, ← this, hw, hh]
      refine ⟨sep, raster, rfl, hspace, by omega, hw.symm, hh.symm, ?_, ?_⟩
      · rw [hsize]
        exact Nat.not_lt.mp hshort
      · rw [hsize]
  · rintro ⟨sep, raster, rfl, hspace, hmax, rfl, rfl, hlong, hrgb⟩
    have hw := s.width.toNat_lt
    have hh := s.height.toNat_lt
    rw [wrapped, ← hwrapped] at hlong hrgb
    rw [readPixels, if_neg (not_not_intro hspace), if_neg (by omega), if_neg (Nat.not_le.mpr hw),
      if_neg (Nat.not_le.mpr hh)]
    rw [if_neg (Nat.not_lt.mpr hlong), UInt32.ofNat_toNat, UInt32.ofNat_toNat, ← hrgb]

/-- What the code makes of a plain header. -/
def readPlain (plain : List UInt8) : Except String DecodedScreen :=
  match numbersOf 3 plain with
  | .error e => .error e
  | .ok ([width, height, maxval], rest) => readPixels width height maxval rest
  | .ok _ => .error "PPM 头部不完整"

/-- The pictures of a plain input, with the size as it is computed. -/
theorem readPlain_iff (hfree : commentFree 3 plain = true) {s : DecodedScreen} :
    readPlain (10 :: plain) = .ok s ↔ ∃ raster,
      Headed (80 :: 54 :: 10 :: plain) s.width.toNat s.height.toNat raster ∧
        wrapped s ≤ raster.length ∧ s.rgb = raster.take (wrapped s) := by
  have hfeed : ∀ b, (10 :: plain).head? = some b → isDigit b = false := by
    intro b hb
    cases hb
    decide
  constructor
  · intro h
    rw [readPlain] at h
    split at h
    · cases h
    · next width height maxval rest hnumbers =>
      obtain ⟨sep, raster, rfl, hspace, hmax, rfl, rfl, hlong, hrgb⟩ := readPixels_iff.mp h
      obtain ⟨text, htext, hplain⟩ := (numbers_of_ok hnumbers hfeed).text
      refine ⟨raster, ⟨text, maxval, sep, htext, hmax.1, hmax.2, hspace, ?_⟩, hlong, hrgb⟩
      rw [hplain]
    · cases h
  · rintro ⟨raster, ⟨text, maxval, sep, htext, hlow, hhigh, hspace, hplain⟩, hlong, hrgb⟩
    have hsame : 10 :: plain = text ++ sep :: raster := by
      injection hplain with _ hplain
      injection hplain
    have hfree' : commentFree 3 (text ++ sep :: raster) = true := by
      rw [← hsame, commentFree, List.dropWhile_cons_of_pos (by decide)]
      exact hfree
    have hstop : ∀ b, (sep :: raster).head? = some b → isDigit b = false := by
      intro b hb
      cases hb
      exact not_digit_of_space hspace
    have hsmall : ∀ v ∈ [s.width.toNat, s.height.toNat, maxval], v < 2 ^ 64 := by
      have hw := s.width.toNat_lt
      have hh := s.height.toNat_lt
      intro v hv
      simp only [List.mem_cons, List.not_mem_nil, or_false] at hv
      omega
    have hnumbers := ok_of_numbers htext hfree' hsmall hstop
    rw [readPlain, hsame]
    have hthree : numbersOf 3 (text ++ sep :: raster) =
        .ok ([s.width.toNat, s.height.toNat, maxval], sep :: raster) := hnumbers
    rw [hthree]
    exact readPixels_iff.mpr ⟨sep, raster, rfl, hspace, ⟨hlow, hhigh⟩, rfl, rfl, hlong, hrgb⟩

/-- The code ends, and in what. -/
theorem ends_plain (h : plainHeader 3 rest = some plain) :
    Ends (80 :: 54 :: rest) (readPlain (10 :: plain)) ∧ commentFree 3 plain = true := by
  have hfeed : numbersOf 3 (10 :: plain) = numbersOf 3 plain := by
    rw [numbersOf, List.dropWhile_cons_of_pos (by decide)]
    rfl
  refine ⟨⟨rest.length + 1, fun fuel hfuel => ?_⟩,
    (readNumbers_plain h (Nat.lt_succ_self rest.length)).2⟩
  rw [fromPpm, (readNumbers_plain h hfuel).1, readPlain, hfeed]
  cases numbersOf 3 plain with
  | error e => rfl
  | ok found =>
    obtain ⟨values, tail⟩ := found
    rcases values with _ | ⟨w, _ | ⟨h, _ | ⟨m, _ | ⟨v, vs⟩⟩⟩⟩ <;> rfl

theorem Ends.unique {bytes : List UInt8} {r r' : Except String DecodedScreen} (h : Ends bytes r)
    (h' : Ends bytes r') : r = r' := by
  obtain ⟨n, hn⟩ := h
  obtain ⟨n', hn'⟩ := h'
  exact Option.some.inj ((hn _ (Nat.le_max_left n n')).symm.trans (hn' _ (Nat.le_max_right n n')))

theorem other_magic {bytes : List UInt8} (h : ∀ rest, bytes ≠ 80 :: 54 :: rest) :
    Ends bytes (.error "解码输出不是 PPM（P6）格式") ∧ plainText bytes = some bytes := by
  have hread : ∀ fuel, fromPpm fuel bytes = some (.error "解码输出不是 PPM（P6）格式") := by
    intro fuel
    unfold fromPpm
    split
    · next rest => exact absurd rfl (h rest)
    · rfl
  refine ⟨⟨0, fun fuel _ => hread fuel⟩, ?_⟩
  unfold plainText
  split
  · next rest => exact absurd rfl (h rest)
  · rfl

/-- A picture whose size does not fit is accepted with too few bytes. -/
theorem fits_of_length (hfree : commentFree 3 plain = true)
    (hlength : ∀ s, readPlain (10 :: plain) = .ok s →
      s.rgb.length = 3 * s.width.toNat * s.height.toNat) : Fits (80 :: 54 :: 10 :: plain) := by
  intro width height raster hw hh hheaded
  by_contra hbad
  obtain ⟨hbig, hlong⟩ := not_or.mp hbad
  have hwidth : (UInt32.ofNat width).toNat = width := by
    rw [UInt32.toNat_ofNat']
    exact Nat.mod_eq_of_lt hw
  have hheight : (UInt32.ofNat height).toNat = height := by
    rw [UInt32.toNat_ofNat']
    exact Nat.mod_eq_of_lt hh
  have hsize := hlength ⟨.ofNat width, .ofNat height, raster.take (3 * width * height % 2 ^ 64)⟩
    ((readPlain_iff hfree).mpr ⟨raster, by rwa [hwidth, hheight], by
      rw [wrapped, hwidth, hheight]
      exact Nat.not_lt.mp hlong, by rw [wrapped, hwidth, hheight]⟩)
  rw [List.length_take, hwidth, hheight, Nat.min_eq_left (Nat.not_lt.mp hlong)] at hsize
  have hlt := Nat.mod_lt (3 * width * height) (Nat.two_pow_pos 64)
  omega

/-- A plain input whose size fits is taken for what it is. -/
theorem good_of_fits (hfree : commentFree 3 plain = true)
    (hfits : Fits (80 :: 54 :: 10 :: plain)) :
    (∀ s, readPlain (10 :: plain) = .ok s ↔ IsPpm (80 :: 54 :: 10 :: plain) s) ∧
      ∀ s, readPlain (10 :: plain) = .ok s →
        s.rgb.length = 3 * s.width.toNat * s.height.toNat := by
  have hsize : ∀ (s : DecodedScreen) (raster : List UInt8),
      Headed (80 :: 54 :: 10 :: plain) s.width.toNat s.height.toNat raster →
      (wrapped s ≤ raster.length ↔ 3 * s.width.toNat * s.height.toNat ≤ raster.length) ∧
        (wrapped s ≤ raster.length → wrapped s = 3 * s.width.toNat * s.height.toNat) := by
    intro s raster hheaded
    have hle : wrapped s ≤ 3 * s.width.toNat * s.height.toNat := Nat.mod_le _ _
    rcases hfits _ _ raster s.width.toNat_lt s.height.toNat_lt hheaded with hsmall | hshort
    · have hsame : wrapped s = 3 * s.width.toNat * s.height.toNat := Nat.mod_eq_of_lt hsmall
      exact ⟨by rw [hsame], fun _ => hsame⟩
    · have hnot : raster.length < wrapped s := hshort
      exact ⟨⟨fun h => absurd h (Nat.not_le.mpr hnot), fun h => absurd (hle.trans h)
        (Nat.not_le.mpr hnot)⟩, fun h => absurd h (Nat.not_le.mpr hnot)⟩
  refine ⟨fun s => ?_, fun s hs => ?_⟩
  · rw [readPlain_iff hfree]
    constructor
    · rintro ⟨raster, hheaded, hlong, hrgb⟩
      obtain ⟨hiff, hsame⟩ := hsize s raster hheaded
      exact ⟨raster, hheaded, hiff.mp hlong, hsame hlong ▸ hrgb⟩
    · rintro ⟨raster, hheaded, hlong, hrgb⟩
      obtain ⟨hiff, hsame⟩ := hsize s raster hheaded
      have hlong' := hiff.mpr hlong
      exact ⟨raster, hheaded, hlong', (hsame hlong').symm ▸ hrgb⟩
  · obtain ⟨raster, hheaded, hlong, hrgb⟩ := (readPlain_iff hfree).mp hs
    have hsame := (hsize s raster hheaded).2 hlong
    rw [hrgb, List.length_take, Nat.min_eq_left hlong, hsame]

/-- A picture of one pixel, with a comment after the magic. -/
def commented : List UInt8 := [80, 54, 10, 35, 99, 10, 49, 32, 49, 10, 50, 53, 53, 10, 97, 98, 99]

theorem commented_ppm : IsPpm commented ⟨1, 1, [97, 98, 99]⟩ := by
  have hspace : ∀ u ∈ [GapUnit.space 10], u.Valid := by
    intro u hu
    rw [List.mem_singleton.mp hu]
    show isSpace 10 = true
    decide
  have hgap : ∀ u ∈ [GapUnit.space 10, GapUnit.comment [99]], u.Valid := by
    intro u hu
    simp only [List.mem_cons, List.not_mem_nil, or_false] at hu
    rcases hu with rfl | rfl
    · show isSpace 10 = true
      decide
    · show 10 ∉ [(99 : UInt8)]
      decide
  have hblank : ∀ u ∈ [GapUnit.space 32], u.Valid := by
    intro u hu
    rw [List.mem_singleton.mp hu]
    show isSpace 32 = true
    decide
  have hone : ∀ b ∈ [(49 : UInt8)], isDigit b = true := by
    intro b hb
    rw [List.mem_singleton.mp hb]
    decide
  have hmax : ∀ b ∈ [(50 : UInt8), 53, 53], isDigit b = true := by
    intro b hb
    simp only [List.mem_cons, List.not_mem_nil, or_false] at hb
    rcases hb with rfl | rfl | rfl <;> decide
  have htext := HeaderText.cons (by simp) hgap (by simp) hone
    (.cons (by simp) hblank (by simp) hone (.cons (by simp) hspace (by simp) hmax .nil))
  exact ⟨[97, 98, 99], ⟨_, 255, 10, htext, by decide, by decide, by decide, rfl⟩, by decide, rfl⟩

end Gamer.Device
