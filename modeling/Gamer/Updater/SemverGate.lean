import Gamer.Updater.Semver
import Mathlib.Tactic.IntervalCases

/-! The parser and the grammar accept the same texts and read the same values, and `is_lt` is the
    order of precedence as long as the core numbers are read as they are:

        parse s = some v ⟺ Reads s v.version      is_lt a b ⟺ cut a ◁ cut b                 -/

namespace Gamer.Updater.Manifest
open Gamer.Lib Gamer.Lib.SemVer

/-! ### Characters -/

theorem isIdentifierByte_iff (c : Char) : isIdentifierByte c = true ↔ IdentifierChar c := by
  simp [isIdentifierByte, IdentifierChar]

theorem all_digits {s : List Char} : s.all isAsciiDigit = true ↔ ∀ c ∈ s, c.isDigit = true :=
  List.all_eq_true

theorem all_identifier {s : List Char} :
    s.all isIdentifierByte = true ↔ ∀ c ∈ s, IdentifierChar c := by
  simp only [List.all_eq_true, isIdentifierByte_iff]

/-! ### Splitting -/

theorem split_ne_nil (c : Char) (s : List Char) : split c s ≠ [] := by
  cases s with
  | nil => simp [split]
  | cons d s =>
    unfold split
    split
    · simp
    · split <;> simp

theorem split_of_notMem {c : Char} {s : List Char} (h : c ∉ s) : split c s = [s] := by
  induction s with
  | nil => rfl
  | cons d s ih =>
    rw [List.mem_cons, not_or] at h
    rw [split, if_neg (Ne.symm h.1), ih h.2]

theorem split_append {c : Char} {s : List Char} (h : c ∉ s) (rest : List Char) :
    split c (s ++ c :: rest) = s :: split c rest := by
  induction s with
  | nil => simp [split]
  | cons d s ih =>
    rw [List.mem_cons, not_or] at h
    rw [List.cons_append, split, if_neg (Ne.symm h.1), ih h.2]

/-- A text has no separator, or it goes on behind the first one. -/
theorem split_cases (c : Char) (s : List Char) :
    (c ∉ s ∧ split c s = [s]) ∨
      ∃ part rest, s = part ++ c :: rest ∧ c ∉ part ∧ split c s = part :: split c rest := by
  by_cases h : c ∈ s
  · obtain ⟨part, rest, rfl, hpart⟩ := List.eq_append_cons_of_mem h
    exact .inr ⟨part, rest, rfl, hpart, split_append hpart rest⟩
  · exact .inl ⟨h, split_of_notMem h⟩

theorem splitOnce_of_notMem {c : Char} {s : List Char} (h : c ∉ s) : splitOnce c s = none := by
  induction s with
  | nil => rfl
  | cons d s ih =>
    rw [List.mem_cons, not_or] at h
    rw [splitOnce, if_neg (Ne.symm h.1), ih h.2]
    rfl

theorem splitOnce_append {c : Char} {s : List Char} (h : c ∉ s) (rest : List Char) :
    splitOnce c (s ++ c :: rest) = some (s, rest) := by
  induction s with
  | nil => simp [splitOnce]
  | cons d s ih =>
    rw [List.mem_cons, not_or] at h
    rw [List.cons_append, splitOnce, if_neg (Ne.symm h.1), ih h.2]
    rfl

theorem splitOnce_cases (c : Char) (s : List Char) :
    (c ∉ s ∧ splitOnce c s = none) ∨
      ∃ part rest, s = part ++ c :: rest ∧ c ∉ part ∧ splitOnce c s = some (part, rest) := by
  by_cases h : c ∈ s
  · obtain ⟨part, rest, rfl, hpart⟩ := List.eq_append_cons_of_mem h
    exact .inr ⟨part, rest, rfl, hpart, splitOnce_append hpart rest⟩
  · exact .inl ⟨h, splitOnce_of_notMem h⟩

/-- RULE: where no part has a dot in it, the dotted texts are those whose parts are all right. -/
theorem dotted_iff {α : Type} {P : List Char → α → Prop} (hdot : ∀ s a, P s a → '.' ∉ s)
    {s : List Char} {as : List α} : Dotted P s as ↔ List.Forall₂ P (split '.' s) as := by
  constructor
  · intro h
    induction h with
    | one ha =>
      rw [split_of_notMem (hdot _ _ ha)]
      exact .cons ha .nil
    | dot ha _ ih =>
      rw [split_append (hdot _ _ ha)]
      exact .cons ha ih
  · intro h
    induction as generalizing s with
    | nil =>
      cases hparts : split '.' s with
      | nil => exact absurd hparts (split_ne_nil _ _)
      | cons => rw [hparts] at h; cases h
    | cons a as ih =>
      rcases split_cases '.' s with ⟨_, hone⟩ | ⟨part, rest, rfl, _, hmore⟩
      · rw [hone] at h
        cases h with
        | cons ha hrest =>
          cases hrest
          exact .one ha
      · rw [hmore] at h
        cases h with
        | cons ha hrest => exact .dot ha (ih hrest)

/-! ### Identifiers -/

theorem parseNumeric_eq_some {s t : List Char} : parseNumeric s = some t ↔ t = s ∧ Numeric s := by
  constructor
  · intro h
    unfold parseNumeric at h
    split at h
    · cases h
    next hdigits =>
      simp only [not_or, Bool.not_eq_true', Bool.not_eq_false, all_digits] at hdigits
      split at h
      · cases h
      next hzero =>
        obtain rfl := Option.some.inj h
        refine ⟨rfl, ?_⟩
        cases s with
        | nil => exact absurd rfl hdigits.1
        | cons c cs =>
          by_cases hc : c = '0'
          · subst hc
            cases cs with
            | nil => exact .zero
            | cons d ds => simp at hzero
          · exact .digits (hdigits.2 c (by simp)) hc fun d hd => hdigits.2 d (by simp [hd])
  · rintro ⟨rfl, h⟩
    have hdigits := h.isDigit
    rw [parseNumeric, if_neg (by simp [h.ne_nil, all_digits.mpr hdigits]), if_neg]
    rintro ⟨hlength, hhead⟩
    cases h with
    | zero => simp at hlength
    | digits _ hc _ => exact hc (Option.some.inj hhead)

/-- What an identifier stands for. -/
def Identifier.value : Identifier → SemVer.Identifier
  | .numeric text => .numeric (SemVer.value text)
  | .alphanumeric text => .alphanumeric text

def Identifier.Canonical : Identifier → Prop
  | .numeric text => Numeric text
  | .alphanumeric _ => True

theorem parsePreIdentifier_eq_some {s : List Char} {id : Identifier}
    (h : parsePreIdentifier s = some id) : PreIdentifier s id.value ∧ id.Canonical := by
  unfold parsePreIdentifier at h
  split at h
  · cases h
  next hchars =>
    simp only [not_or, Bool.not_eq_true', Bool.not_eq_false, all_identifier] at hchars
    split at h
    · obtain ⟨t, ht, rfl⟩ := Option.map_eq_some_iff.mp h
      obtain ⟨rfl, hnumeric⟩ := parseNumeric_eq_some.mp ht
      exact ⟨.numeric hnumeric, hnumeric⟩
    next hdigits =>
      obtain rfl := Option.some.inj h
      refine ⟨.alphanumeric ⟨hchars.2, ?_⟩, trivial⟩
      rw [all_digits] at hdigits
      push Not at hdigits
      exact hdigits

theorem parsePreIdentifier_of {s : List Char} {a : SemVer.Identifier} (h : PreIdentifier s a) :
    ∃ id, parsePreIdentifier s = some id ∧ id.value = a := by
  cases h with
  | numeric h =>
    have hchars : ∀ c ∈ s, IdentifierChar c := fun c hc => identifierChar_of_digit (h.isDigit c hc)
    refine ⟨.numeric s, ?_, rfl⟩
    rw [parsePreIdentifier, if_neg (by simp [h.ne_nil, all_identifier.mpr hchars]),
      if_pos (all_digits.mpr h.isDigit), parseNumeric_eq_some.mpr ⟨rfl, h⟩]
    rfl
  | alphanumeric h =>
    obtain ⟨hchars, c, hc, hdigit⟩ := h
    refine ⟨.alphanumeric s, ?_, rfl⟩
    rw [parsePreIdentifier, if_neg (by simp [List.ne_nil_of_mem hc, all_identifier.mpr hchars]),
      if_neg fun hall => hdigit (all_digits.mp hall c hc)]

theorem validBuildIdent_iff {s : List Char} :
    validBuildIdent s = true ↔ BuildIdentifier s () := by
  rw [validBuildIdent, Bool.and_eq_true, all_identifier]
  constructor
  · rintro ⟨hne, hchars⟩
    by_cases hdigits : ∀ c ∈ s, c.isDigit = true
    · exact .inr ⟨by simpa using hne, hdigits⟩
    · push Not at hdigits
      exact .inl ⟨hchars, hdigits⟩
  · rintro (⟨hchars, c, hc, _⟩ | ⟨hne, hdigits⟩)
    · exact ⟨by simpa using List.ne_nil_of_mem hc, hchars⟩
    · exact ⟨by simpa using hne, fun c hc => identifierChar_of_digit (hdigits c hc)⟩

theorem buildIdentifier_no_dot (s : List Char) (u : Unit) (h : BuildIdentifier s u) :
    '.' ∉ s := by
  have hvalid := validBuildIdent_iff.mpr h
  rw [validBuildIdent, Bool.and_eq_true, all_identifier] at hvalid
  exact notMem_of_chars hvalid.2 (by decide)

/-! ### The grammar -/

/-- What a parsed version stands for. -/
def Semver.version (v : Semver) : Version :=
  ⟨SemVer.value v.major, SemVer.value v.minor, SemVer.value v.patch,
    v.pre.map (·.map Identifier.value)⟩

/-- Every number is written without leading zeros. -/
structure Semver.Canonical (v : Semver) : Prop where
  major : Numeric v.major
  minor : Numeric v.minor
  patch : Numeric v.patch
  pre : ∀ ids, v.pre = some ids → ∀ id ∈ ids, id.Canonical

theorem no_dot_of_numeric {s : List Char} (h : Numeric s) : '.' ∉ s :=
  notMem_of_digits h.isDigit (by decide)

/-- The text is this parsed version. -/
structure Parsed (P : List Char → Version → Prop) (s : List Char) (v : Semver) : Prop where
  reads : P s v.version
  canonical : v.Canonical

theorem split_core {x y z : List Char} (hx : '.' ∉ x) (hy : '.' ∉ y) (hz : '.' ∉ z) :
    split '.' (x ++ '.' :: (y ++ '.' :: z)) = [x, y, z] := by
  rw [split_append hx, split_append hy, split_of_notMem hz]

/-- A text in three parts. -/
theorem eq_of_split {s x y z : List Char} (h : split '.' s = [x, y, z]) :
    s = x ++ '.' :: (y ++ '.' :: z) := by
  have hnext : ∀ {t part : List Char} {parts : List (List Char)}, split '.' t = part :: parts →
      parts ≠ [] → ∃ rest, t = part ++ '.' :: rest ∧ split '.' rest = parts := by
    rintro t part parts hparts hne
    rcases split_cases '.' t with ⟨_, hone⟩ | ⟨part', rest, rfl, _, hmore⟩
    · rw [hone] at hparts
      exact absurd (List.cons.inj hparts).2.symm hne
    · rw [hmore] at hparts
      exact ⟨rest, by rw [(List.cons.inj hparts).1], (List.cons.inj hparts).2⟩
  obtain ⟨rest, rfl, hrest⟩ := hnext h (by simp)
  obtain ⟨last, rfl, hlast⟩ := hnext hrest (by simp)
  rcases split_cases '.' last with ⟨_, hone⟩ | ⟨_, _, _, _, hmore⟩
  · rw [hone] at hlast
    rw [(List.cons.inj hlast).1]
  · rw [hmore] at hlast
    exact absurd (List.cons.inj hlast).2 (split_ne_nil _ _)

theorem parseCore_eq_some {s : List Char} {v : Semver} (h : parseCore s none = some v) :
    Parsed Core s v := by
  unfold parseCore at h
  split at h
  next x y z hparts =>
    simp only [Option.bind_eq_bind, Option.bind_eq_some_iff, parseNumeric_eq_some] at h
    obtain ⟨_, ⟨rfl, hx⟩, _, ⟨rfl, hy⟩, _, ⟨rfl, hz⟩, hv⟩ := h
    obtain rfl := Option.some.inj hv
    rw [eq_of_split hparts]
    exact ⟨.mk hx hy hz, ⟨hx, hy, hz, fun _ hids => by cases hids⟩⟩
  · cases h

theorem parseCore_of {s : List Char} {w : Version} (h : Core s w) :
    ∃ v, parseCore s none = some v ∧ v.version = w := by
  cases h with
  | @mk x y z hx hy hz =>
    refine ⟨⟨x, y, z, none⟩, ?_, rfl⟩
    unfold parseCore
    rw [split_core (no_dot_of_numeric hx) (no_dot_of_numeric hy) (no_dot_of_numeric hz)]
    simp [parseNumeric_eq_some.mpr ⟨rfl, hx⟩, parseNumeric_eq_some.mpr ⟨rfl, hy⟩,
      parseNumeric_eq_some.mpr ⟨rfl, hz⟩]

theorem mapM_parsePreIdentifier {parts : List (List Char)} {ids : List Identifier}
    (h : parts.mapM parsePreIdentifier = some ids) :
    List.Forall₂ PreIdentifier parts (ids.map Identifier.value) ∧ ∀ id ∈ ids, id.Canonical := by
  induction parts generalizing ids with
  | nil =>
    obtain rfl := Option.some.inj h
    exact ⟨.nil, by simp⟩
  | cons part parts ih =>
    simp only [List.mapM_cons, Option.bind_eq_bind, Option.bind_eq_some_iff] at h
    obtain ⟨id, hid, ids', hids, h⟩ := h
    obtain rfl := Option.some.inj h
    obtain ⟨hread, hcanonical⟩ := parsePreIdentifier_eq_some hid
    obtain ⟨hrest, hall⟩ := ih hids
    refine ⟨.cons hread hrest, ?_⟩
    rintro id' (_ | ⟨_, hid'⟩)
    · exact hcanonical
    · exact hall id' hid'

theorem mapM_parsePreIdentifier_of {parts : List (List Char)} {as : List SemVer.Identifier}
    (h : List.Forall₂ PreIdentifier parts as) :
    ∃ ids, parts.mapM parsePreIdentifier = some ids ∧ ids.map Identifier.value = as := by
  induction h with
  | nil => exact ⟨[], rfl, rfl⟩
  | cons ha _ ih =>
    obtain ⟨id, hid, rfl⟩ := parsePreIdentifier_of ha
    obtain ⟨ids, hids, rfl⟩ := ih
    exact ⟨id :: ids, by simp [List.mapM_cons, hid, hids], rfl⟩

theorem parsePlain_eq_some {s : List Char} {v : Semver} (h : parsePlain s = some v) :
    Parsed Plain s v := by
  unfold parsePlain at h
  rcases splitOnce_cases '-' s with ⟨_, hnone⟩ | ⟨core, pre, rfl, _, hsome⟩
  · rw [hnone] at h
    obtain ⟨hreads, hcanonical⟩ := parseCore_eq_some h
    exact ⟨.core hreads, hcanonical⟩
  · rw [hsome] at h
    simp only [Option.bind_eq_bind, Option.bind_eq_some_iff] at h
    obtain ⟨u, hu, ids, hids, h⟩ := h
    obtain rfl := Option.some.inj h
    obtain ⟨hreads, hcanonical⟩ := parseCore_eq_some hu
    obtain ⟨hparts, hall⟩ := mapM_parsePreIdentifier hids
    refine ⟨.pre hreads ((dotted_iff PreIdentifier.no_dot).mpr hparts),
      ⟨hcanonical.major, hcanonical.minor, hcanonical.patch, ?_⟩⟩
    rintro ids' hids' id hid
    obtain rfl := Option.some.inj hids'
    exact hall id hid

theorem Core.chars {s : List Char} {v : Version} (h : Core s v) :
    ∀ c ∈ s, c.isDigit = true ∨ c = '.' := by
  cases h with
  | mk hx hy hz =>
    intro c hc
    simp only [List.mem_append, List.mem_cons] at hc
    rcases hc with hc | rfl | hc | rfl | hc
    · exact .inl (hx.isDigit c hc)
    · exact .inr rfl
    · exact .inl (hy.isDigit c hc)
    · exact .inr rfl
    · exact .inl (hz.isDigit c hc)

theorem parsePlain_of {s : List Char} {w : Version} (h : Plain s w) :
    ∃ v, parsePlain s = some v ∧ v.version = w := by
  cases h with
  | core h =>
    obtain ⟨v, hv, rfl⟩ := parseCore_of h
    refine ⟨v, ?_, rfl⟩
    have hdash : '-' ∉ s := fun hmem => by
      rcases Core.chars h '-' hmem with hc | hc <;> cases hc
    rw [parsePlain, splitOnce_of_notMem hdash]
    exact hv
  | @pre core p u as h hpre =>
    obtain ⟨v, hv, rfl⟩ := parseCore_of h
    obtain ⟨ids, hids, rfl⟩ := mapM_parsePreIdentifier_of ((dotted_iff PreIdentifier.no_dot).mp hpre)
    refine ⟨{ v with pre := some ids }, ?_, rfl⟩
    have hdash : '-' ∉ core := fun hmem => by
      rcases Core.chars h '-' hmem with hc | hc <;> cases hc
    rw [parsePlain, splitOnce_append hdash]
    simp [hv, hids]

theorem Dotted.chars {s : List Char} {as : List SemVer.Identifier} (h : Dotted PreIdentifier s as) :
    ∀ c ∈ s, IdentifierChar c ∨ c = '.' := by
  induction h with
  | one ha => exact fun c hc => .inl (ha.chars c hc)
  | dot ha _ ih =>
    intro c hc
    simp only [List.mem_append, List.mem_cons] at hc
    rcases hc with hc | rfl | hc
    · exact .inl (ha.chars c hc)
    · exact .inr rfl
    · exact ih c hc

theorem Plain.no_plus {s : List Char} {v : Version} (h : Plain s v) : '+' ∉ s := by
  intro hmem
  cases h with
  | core h => rcases Core.chars h '+' hmem with hc | hc <;> cases hc
  | pre h hpre =>
    simp only [List.mem_append, List.mem_cons] at hmem
    rcases hmem with hmem | hmem | hmem
    · rcases Core.chars h '+' hmem with hc | hc <;> cases hc
    · cases hmem
    · rcases Dotted.chars hpre '+' hmem with hc | hc
      · exact absurd hc (by decide)
      · cases hc

theorem forall₂_unit {parts : List (List Char)} :
    parts.all validBuildIdent = true ↔ ∃ us, List.Forall₂ BuildIdentifier parts us := by
  induction parts with
  | nil => exact ⟨fun _ => ⟨[], .nil⟩, fun _ => rfl⟩
  | cons part parts ih =>
    rw [List.all_cons, Bool.and_eq_true, validBuildIdent_iff, ih]
    constructor
    · rintro ⟨hpart, us, hus⟩
      exact ⟨() :: us, .cons hpart hus⟩
    · rintro ⟨_, h⟩
      cases h with
      | cons hpart hus => exact ⟨hpart, _, hus⟩

/-- RUN: what is parsed is read by the grammar. -/
theorem parse_eq_some {s : String} {v : Semver} (h : parse s = some v) : Parsed Reads s.toList v := by
  unfold parse at h
  rcases splitOnce_cases '+' s.toList with ⟨_, hnone⟩ | ⟨plain, build, hs, _, hsome⟩
  · rw [hnone] at h
    obtain ⟨hreads, hcanonical⟩ := parsePlain_eq_some h
    exact ⟨.plain hreads, hcanonical⟩
  · rw [hsome] at h
    dsimp only at h
    split at h
    · cases h
    next hbuild =>
      simp only [not_or, Bool.not_eq_true', Bool.not_eq_false] at hbuild
      obtain ⟨us, hus⟩ := forall₂_unit.mp hbuild.2
      obtain ⟨hreads, hcanonical⟩ := parsePlain_eq_some h
      rw [hs]
      exact ⟨.build hreads ((dotted_iff buildIdentifier_no_dot).mpr hus), hcanonical⟩

/-- RUN: what the grammar reads is parsed. -/
theorem parse_of {s : String} {w : Version} (h : Reads s.toList w) :
    ∃ v, parse s = some v ∧ v.version = w := by
  generalize htext : s.toList = text at h
  cases h with
  | plain h =>
    obtain ⟨v, hv, rfl⟩ := parsePlain_of h
    refine ⟨v, ?_, rfl⟩
    rw [parse, htext, splitOnce_of_notMem (Plain.no_plus h)]
    exact hv
  | @build plain b _ us h hbuild =>
    obtain ⟨v, hv, rfl⟩ := parsePlain_of h
    refine ⟨v, ?_, rfl⟩
    have hparts := forall₂_unit.mpr ⟨us, (dotted_iff buildIdentifier_no_dot).mp hbuild⟩
    have hb : b ≠ [] := by
      rintro rfl
      simp [split, validBuildIdent] at hparts
    rw [parse, htext, splitOnce_append (Plain.no_plus h)]
    simp [hb, hparts, hv]

/-- The grammar gives a text one meaning. -/
theorem Reads.unique {s : String} {v w : Version} (hv : Reads s.toList v) (hw : Reads s.toList w) :
    v = w := by
  obtain ⟨x, hx, rfl⟩ := parse_of hv
  obtain ⟨y, hy, rfl⟩ := parse_of hw
  rw [hx] at hy
  rw [Option.some.inj hy]

/-! ### Precedence -/

theorem textCmp_eq {s t : List Char} : textCmp s t = .eq ↔ s = t := by
  induction s generalizing t with
  | nil => cases t <;> simp [textCmp]
  | cons c s ih =>
    cases t with
    | nil => simp [textCmp]
    | cons d t =>
      rw [textCmp, Ordering.then_eq_eq, ih, compare_eq_iff_eq, Char.toNat_inj, List.cons.injEq]

theorem textCmp_lt {s t : List Char} : textCmp s t = .lt ↔ s < t := by
  induction s generalizing t with
  | nil => cases t <;> simp [textCmp]
  | cons c s ih =>
    cases t with
    | nil => simp [textCmp]
    | cons d t =>
      rw [textCmp, Ordering.then_eq_lt, ih, compare_lt_iff_lt, compare_eq_iff_eq, Char.toNat_inj,
        List.cons_lt_cons_iff]
      exact Iff.rfl

theorem compare_congr {a b x y : Nat} (hlt : a < b ↔ x < y) (heq : a = b ↔ x = y) :
    compare a b = compare x y := by
  rcases lt_trichotomy a b with h | h | h
  · rw [compare_lt_iff_lt.mpr h, compare_lt_iff_lt.mpr (hlt.mp h)]
  · rw [compare_eq_iff_eq.mpr h, compare_eq_iff_eq.mpr (heq.mp h)]
  · have hgt : y < x := by omega
    rw [compare_gt_iff_gt.mpr h, compare_gt_iff_gt.mpr hgt]

/-- Digits of the same length compare as the numbers do. -/
theorem textCmp_value {s t : List Char} (hs : ∀ c ∈ s, c.isDigit = true)
    (ht : ∀ c ∈ t, c.isDigit = true) (hlength : s.length = t.length) :
    textCmp s t = compare (SemVer.value s) (SemVer.value t) := by
  induction s generalizing t with
  | nil =>
    obtain rfl := List.length_eq_zero_iff.mp hlength.symm
    rfl
  | cons c s ih =>
    cases t with
    | nil => cases hlength
    | cons d t =>
      have hlength : s.length = t.length := Nat.succ.inj hlength
      have hs' := fun e he => hs e (List.mem_cons_of_mem c he)
      have ht' := fun e he => ht e (List.mem_cons_of_mem d he)
      have hslt := value_lt hs'
      have htlt := value_lt ht'
      have hc := toNat_of_digit (hs c (by simp))
      have hd := toNat_of_digit (ht d (by simp))
      have hdigits : compare c.toNat d.toNat = compare (digit c) (digit d) :=
        compare_congr (by omega) (by omega)
      rw [textCmp, ih hs' ht' hlength, hdigits, SemVer.value, SemVer.value, hlength]
      rw [hlength] at hslt
      rcases lt_trichotomy (digit c) (digit d) with h | h | h
      · rw [compare_lt_iff_lt.mpr h, Ordering.lt_then, eq_comm, compare_lt_iff_lt]
        nlinarith
      · rw [compare_eq_iff_eq.mpr h, Ordering.eq_then, h]
        exact compare_congr (by omega) (by omega)
      · rw [compare_gt_iff_gt.mpr h, Ordering.gt_then, eq_comm, compare_gt_iff_gt]
        nlinarith

/-- Numbers without leading zeros compare by length, then as texts. -/
theorem numericCmp {s t : List Char} (hs : Numeric s) (ht : Numeric t) :
    (compare s.length t.length).then (textCmp s t) =
      compare (SemVer.value s) (SemVer.value t) := by
  have hshorter : ∀ {s t : List Char}, Numeric s → Numeric t → s.length < t.length →
      SemVer.value s < SemVer.value t := by
    intro s t hs ht hlength
    cases t with
    | nil => simp at hlength
    | cons d t =>
      have hne : t ≠ [] := by
        rintro rfl
        have hpos := List.length_pos_iff.mpr hs.ne_nil
        rw [List.length_singleton] at hlength
        omega
      calc SemVer.value s < 10 ^ s.length := value_lt hs.isDigit
        _ ≤ 10 ^ t.length := Nat.pow_le_pow_right (by omega) (Nat.le_of_lt_succ hlength)
        _ ≤ SemVer.value (d :: t) := ht.value_ge hne
  rcases lt_trichotomy s.length t.length with h | h | h
  · rw [compare_lt_iff_lt.mpr h, Ordering.lt_then, eq_comm, compare_lt_iff_lt]
    exact hshorter hs ht h
  · rw [compare_eq_iff_eq.mpr h, Ordering.eq_then]
    exact textCmp_value hs.isDigit ht.isDigit h
  · rw [compare_gt_iff_gt.mpr h, Ordering.gt_then, eq_comm, compare_gt_iff_gt]
    exact hshorter ht hs h

/-- STEP: one pair of identifiers. -/
theorem identLt_lt {x y : Identifier} (hx : x.Canonical) (hy : y.Canonical) :
    identLt x y = .lt ↔ x.value.Precedes y.value := by
  cases x with
  | numeric s =>
    cases y with
    | numeric t =>
      rw [identLt, numericCmp hx hy, compare_lt_iff_lt]
      exact Iff.rfl
    | alphanumeric t => exact iff_of_true rfl trivial
  | alphanumeric s =>
    cases y with
    | numeric t => exact iff_of_false (by simp [identLt]) fun h => h
    | alphanumeric t =>
      rw [identLt, textCmp_lt]
      exact Iff.rfl

theorem identLt_eq {x y : Identifier} (hx : x.Canonical) (hy : y.Canonical) :
    identLt x y = .eq ↔ x.value = y.value := by
  cases x with
  | numeric s =>
    cases y with
    | numeric t =>
      rw [identLt, numericCmp hx hy, compare_eq_iff_eq]
      exact ⟨congrArg _, fun h => SemVer.Identifier.numeric.inj h⟩
    | alphanumeric t => simp [identLt, Identifier.value]
  | alphanumeric s =>
    cases y with
    | numeric t => simp [identLt, Identifier.value]
    | alphanumeric t => simp [identLt, Identifier.value, textCmp_eq]

/-- RUN: the loop compares as the lists of identifiers do. -/
theorem preLt_iff {p q : List Identifier} (hp : ∀ id ∈ p, id.Canonical)
    (hq : ∀ id ∈ q, id.Canonical) :
    preLt p q = true ↔
      List.Lex SemVer.Identifier.Precedes (p.map Identifier.value) (q.map Identifier.value) := by
  induction p generalizing q with
  | nil => cases q <;> simp [preLt]
  | cons x p ih =>
    cases q with
    | nil => simp [preLt]
    | cons y q =>
      have hx := hp x (by simp)
      have hy := hq y (by simp)
      have hrest := ih (q := q) (fun id h => hp id (List.mem_cons_of_mem x h))
        fun id h => hq id (List.mem_cons_of_mem y h)
      have hlt := identLt_lt hx hy
      have heq := identLt_eq hx hy
      rw [preLt, List.map_cons, List.map_cons, List.cons_lex_cons_iff, ← hlt, ← heq, ← hrest]
      cases identLt x y <;> simp

/-- A core number as the comparison reads it. -/
def fit (n : Nat) : Nat := if n < 2 ^ 64 then n else 0

def cut (v : Version) : Version := ⟨fit v.major, fit v.minor, fit v.patch, v.pre⟩

/-- The comparison is precedence, of versions whose core numbers are cut. -/
theorem isLt_iff {x y : Semver} (hx : x.Canonical) (hy : y.Canonical) :
    isLt x y = true ↔ (cut x.version).Precedes (cut y.version) := by
  have hpre : ∀ p q, x.pre = some p → y.pre = some q → (preLt p q = true ↔
      List.Lex SemVer.Identifier.Precedes (p.map Identifier.value) (q.map Identifier.value)) :=
    fun p q hp hq => preLt_iff (hx.pre p hp) (hy.pre q hq)
  show isLt x y = true ↔ core x < core y ∨ core x = core y ∧
    PrePrecedes x.version.pre y.version.pre
  unfold isLt
  split
  next hcore =>
    rw [decide_eq_true_iff]
    exact ⟨.inl, fun h => h.resolve_right fun h => hcore h.1⟩
  next hcore =>
    rw [not_not] at hcore
    have hpart : (core x < core y ∨ core x = core y ∧ PrePrecedes x.version.pre y.version.pre) ↔
        PrePrecedes x.version.pre y.version.pre :=
      ⟨fun h => (h.resolve_left fun h => absurd (hcore ▸ h) (lt_irrefl _)).2, fun h => .inr ⟨hcore, h⟩⟩
    rw [hpart, Semver.version, Semver.version]
    cases hp : x.pre with
    | none => exact iff_of_false (by simp) fun h => h
    | some p =>
      cases hq : y.pre with
      | none => exact iff_of_true rfl trivial
      | some q => exact hpre p q hp hq

/-! ### The gate -/

/-- Reading the core numbers as `u64` does not show: the numbers are the same, or compare the same
    when they are cut, or are equal when they are cut and the prereleases make up for it. -/
def CoreFits (v w : Version) : Prop :=
  v.core = w.core ∨ v.core < w.core ∧ (cut v).core < (cut w).core ∨
    w.core < v.core ∧ (cut w).core < (cut v).core ∨
    (cut v).core = (cut w).core ∧ (PrePrecedes v.pre w.pre ↔ v.core < w.core)

theorem cut_core {v w : Version} (h : v.core = w.core) : (cut v).core = (cut w).core := by
  simp only [Version.core, List.cons.injEq, and_true] at h
  simp only [Version.core, cut, h.1, h.2.1, h.2.2]

theorem cut_precedes_iff (v w : Version) :
    ((cut v).Precedes (cut w) ↔ v.Precedes w) ↔ CoreFits v w := by
  have hpre : ∀ u : Version, (cut u).pre = u.pre := fun _ => rfl
  simp only [Version.Precedes, CoreFits, hpre]
  rcases lt_trichotomy v.core w.core with h | h | h
  · have hne := h.ne
    have hnot := lt_asymm h
    rcases lt_trichotomy (cut v).core (cut w).core with h' | h' | h'
    · simp [h, h']
    · simp [h, h', hne, hnot]
    · simp [h, h', hne, hnot, h'.ne', lt_asymm h']
  · simp [h, cut_core h]
  · have hne := h.ne'
    have hnot := lt_asymm h
    rcases lt_trichotomy (cut v).core (cut w).core with h' | h' | h'
    · simp [h, h', hne, hnot, h'.ne, lt_asymm h']
    · simp [h, h', hne, hnot]
    · simp [h, h', hne, hnot, h'.ne', lt_asymm h']

/-- The versions that some text is parsed to. -/
def ParsedSemver : Type := { v : Semver // ∃ s, parse s = some v }

/-- SAFETY: the parser accepts the grammar; the comparison is a strict weak order, and agrees with
    precedence exactly where the core numbers fit. -/
theorem isLt_precedes_iff (a b : String) :
    ((parse a).isSome = true ↔ ∃ v, Reads a.toList v) ∧
      IsStrictWeakOrder ParsedSemver (fun x y => isLt x.1 y.1 = true) ∧
      ∀ x y, parse a = some x → parse b = some y → ∀ v w, Reads a.toList v → Reads b.toList w →
        ((isLt x y = true ↔ v.Precedes w) ↔ CoreFits v w) := by
  refine ⟨?_, ?_, ?_⟩
  · constructor
    · intro h
      obtain ⟨v, hv⟩ := Option.isSome_iff_exists.mp h
      exact ⟨v.version, (parse_eq_some hv).reads⟩
    · rintro ⟨w, hw⟩
      obtain ⟨v, hv, _⟩ := parse_of hw
      rw [hv]
      rfl
  · have hcut : (fun x y : ParsedSemver => isLt x.1 y.1 = true) =
        Order.Preimage (fun x : ParsedSemver => cut x.1.version) Version.Precedes := by
      funext x y
      obtain ⟨x, s, hs⟩ := x
      obtain ⟨y, t, ht⟩ := y
      exact propext (isLt_iff (parse_eq_some hs).canonical (parse_eq_some ht).canonical)
    rw [hcut]
    have : IsStrictWeakOrder Version Version.Precedes := isStrictWeakOrder_of_isOrderConnected
    exact Order.Preimage.instIsStrictWeakOrder
  · rintro x y hx hy v w hv hw
    obtain rfl := Reads.unique (parse_eq_some hx).reads hv
    obtain rfl := Reads.unique (parse_eq_some hy).reads hw
    rw [isLt_iff (parse_eq_some hx).canonical (parse_eq_some hy).canonical]
    exact cut_precedes_iff _ _

def tooLarge : Semver := ⟨"18446744073709551616".toList, ['0'], ['0'], none⟩

def small : Semver := ⟨['1'], ['0'], ['0'], none⟩

/-- `18446744073709551616.0.0` is taken for older than `1.0.0`. -/
theorem isLt_wrong :
    ¬∀ (a b : String) (x y : Semver), parse a = some x → parse b = some y →
      ∀ v w, Reads a.toList v → Reads b.toList w → (isLt x y = true ↔ v.Precedes w) := by
  intro h
  have hx : parse "18446744073709551616.0.0" = some tooLarge := by decide +kernel
  have hy : parse "1.0.0" = some small := by decide +kernel
  have hprecedes := (h _ _ _ _ hx hy _ _ (parse_eq_some hx).reads (parse_eq_some hy).reads).mp
    (by decide +kernel)
  rcases hprecedes with hcore | ⟨hcore, _⟩
  · exact absurd hcore (by decide +kernel)
  · exact absurd hcore (by decide +kernel)

def candidate : Semver := ⟨['1'], ['0'], ['0'], some [.alphanumeric ['r', 'c'], .numeric ['1']]⟩

theorem isLt_candidate : isLt candidate small = true ↔ candidate.version.Precedes small.version :=
  have hx : parse "1.0.0-rc.1+build.5" = some candidate := by decide +kernel
  have hy : parse "1.0.0" = some small := by decide +kernel
  ((isLt_precedes_iff _ _).2.2 _ _ hx hy _ _ (parse_eq_some hx).reads (parse_eq_some hy).reads).mpr
    (.inl (by decide +kernel))

end Gamer.Updater.Manifest
