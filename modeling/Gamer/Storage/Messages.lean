import Mathlib
import Gamer.Core.Models
import Gamer.Lib.Search

/-! What of a message is stored in the log. A message is cut before the first word that announces
    something private, its line breaks become blanks, and it is cut off at its length:

        …open tok…  ──▶  …open[REDACTED]  ──▶  \n ↦ ' '  ──▶  1024 characters and …

    The words are looked for before the line breaks become blanks. -/

namespace Gamer.Storage
open Gamer.Core Gamer.Lib

def maxLogMessageChars : Nat := 1024

def markers : List (List Char) :=
  ["authorization", "cookie", "password", "passwd", "token", "secret", "text=", "text:", "args=",
    "import body", "import content", "script content", "yaml:", "输入文本", "实参", "导入内容",
    "脚本内容"].map String.toList

/-- `to_ascii_lowercase`. -/
def asciiLower (s : List Char) : List Char := s.map Char.toLower

/-- Where the first marker stands. -/
def sensitiveAt (msg : List Char) : Option Nat := Search.findFirst markers (asciiLower msg)

def redacted : List Char := "[REDACTED]".toList

/-- `safe`: a message with a marker ends before it. -/
def redact (msg : List Char) : List Char :=
  match sensitiveAt msg with
  | some index => (msg.take index).rdropWhile isWhitespace ++ redacted
  | none => msg

def isBreak (c : Char) : Bool := c = '\r' || c = '\n'

def flatten (c : Char) : Char := if isBreak c then ' ' else c

/-- `sanitize_log_message`, on characters. -/
def sanitize (msg : List Char) : List Char :=
  let normalized := ((redact msg).map flatten).take maxLogMessageChars
  if (redact msg).length > maxLogMessageChars then normalized ++ ['…'] else normalized

def sanitizeLogMessage (msg : String) : String := String.ofList (sanitize msg.toList)

/-! ### What is promised -/

/-- The text may be stored: no marker, no line break, not too long, and nothing left to do. -/
structure Storable (text : String) : Prop where
  unmarked : ∀ m ∈ markers, ¬ m <:+: asciiLower text.toList
  flat : ∀ c ∈ text.toList, isBreak c = false
  short : text.toList.length ≤ maxLogMessageChars + 1
  settled : sanitizeLogMessage text = text

/-- The words of the markers that are two words. -/
def wordPairs : List (List Char × List Char) :=
  [("import".toList, "body".toList), ("import".toList, "content".toList),
    ("script".toList, "content".toList)]

/-- Where the text before the first marker ends, or the room of a stored message. -/
def readTo (msg : List Char) : Nat := min maxLogMessageChars ((sensitiveAt msg).getD msg.length)

/-- There no line break stands between the words of a marker. -/
def Unbroken (msg : List Char) : Prop :=
  ∀ pair ∈ wordPairs, ∀ c, isBreak c →
    ¬ pair.1 ++ c :: pair.2 <:+: asciiLower (msg.take (readTo msg))

theorem markers_ne_nil : ∀ m ∈ markers, m ≠ [] := by decide

theorem markers_plain : ∀ m ∈ markers, '[' ∉ m ∧ '…' ∉ m := by decide

/-- A marker is one word, or two with a blank between them. -/
theorem markers_words : ∀ m ∈ markers,
    ' ' ∉ m ∨ ∃ pair ∈ wordPairs, m = pair.1 ++ ' ' :: pair.2 := by decide

theorem wordPairs_markers : ∀ pair ∈ wordPairs, pair.1 ++ ' ' :: pair.2 ∈ markers := by decide

theorem wordPairs_solid : ∀ pair ∈ wordPairs,
    ' ' ∉ pair.1 ∧ ' ' ∉ pair.2 ∧ pair.1.map flatten = pair.1 ∧ pair.2.map flatten = pair.2 := by
  decide

theorem wordPairs_end : ∀ pair ∈ wordPairs, ∃ w d, pair.2 = w ++ [d] ∧ d.isAlpha = true := by
  intro pair hpair
  simp only [wordPairs, List.mem_cons, List.not_mem_nil, or_false] at hpair
  rcases hpair with rfl | rfl | rfl
  · exact ⟨"bod".toList, 'y', rfl, rfl⟩
  · exact ⟨"conten".toList, 't', rfl, rfl⟩
  · exact ⟨"conten".toList, 't', rfl, rfl⟩

theorem redacted_unmarked : ∀ m ∈ markers, ¬ m <:+: asciiLower redacted.tail := by decide

/-! ### Line breaks and letters -/

theorem toLower_of_not_alpha {c : Char} (h : c.isAlpha = false) : c.toLower = c := by
  refine Char.toLower_eq_of_not_isUpper fun hup => ?_
  have hboth : (c.isUpper || c.isLower) = false := h
  rw [hup] at hboth
  cases hboth

theorem toLower_eq_iff {c d : Char} (hd : d.isAlpha = false) : c.toLower = d ↔ c = d := by
  constructor
  · intro h
    have halpha : c.isAlpha = false := by
      rw [← Char.isAlpha_toLower_eq_isAlpha, h, hd]
    rwa [toLower_of_not_alpha halpha] at h
  · rintro rfl
    exact toLower_of_not_alpha hd

theorem isBreak_toLower (c : Char) : isBreak c.toLower = isBreak c := by
  simp only [isBreak, toLower_eq_iff (show '\r'.isAlpha = false from rfl),
    toLower_eq_iff (show '\n'.isAlpha = false from rfl)]

theorem flatten_toLower (c : Char) : (flatten c).toLower = flatten c.toLower := by
  unfold flatten
  rw [isBreak_toLower]
  split
  · rfl
  · rfl

/-- The characters that are stored, in lower case. -/
theorem asciiLower_flatten (s : List Char) :
    asciiLower (s.map flatten) = (asciiLower s).map flatten := by
  simp [asciiLower, Function.comp_def, flatten_toLower]

theorem flatten_not_break (c : Char) : isBreak (flatten c) = false := by
  unfold flatten
  split
  · rfl
  · next h => simpa using h

theorem flatten_eq_blank {c : Char} (h : flatten c = ' ') : c = ' ' ∨ isBreak c := by
  unfold flatten at h
  split at h
  · next hbreak => exact .inr hbreak
  · exact .inl h

theorem map_flatten_of_flat {s : List Char} (h : ∀ c ∈ s, isBreak c = false) :
    s.map flatten = s := by
  refine (List.map_congr_left fun c hc => ?_).trans (List.map_id s)
  rw [flatten, h c hc]
  rfl

/-- A text without blanks was there before the line breaks became blanks. -/
theorem of_map_flatten {s t : List Char} (h : s.map flatten = t) (ht : ' ' ∉ t) : s = t := by
  subst h
  refine (map_flatten_of_flat fun c hc => ?_).symm
  by_contra hbreak
  refine ht (List.mem_map.mpr ⟨c, hc, ?_⟩)
  rw [flatten, if_pos (by simpa using hbreak)]

/-- A letter is no blank. -/
theorem not_whitespace_of_alpha {c : Char} (h : c.isAlpha = true) : isWhitespace c = false := by
  have hval : (65 ≤ c.toNat ∧ c.toNat ≤ 90) ∨ (97 ≤ c.toNat ∧ c.toNat ≤ 122) := by
    have hboth : (c.isUpper || c.isLower) = true := h
    rcases Bool.or_eq_true_iff.mp hboth with hup | hlow
    · exact .inl (of_decide_eq_true hup)
    · obtain ⟨hlo, hhi⟩ := Bool.and_eq_true_iff.mp hlow
      exact .inr ⟨of_decide_eq_true hlo, of_decide_eq_true hhi⟩
  simp only [isWhitespace, Bool.or_eq_false_iff, Bool.and_eq_false_iff, decide_eq_false_iff_not,
    beq_eq_false_iff_ne]
  omega

/-! ### The parts of a stored message -/

/-- What is stored of a message: what was read of it, without the blanks at its end, then the sign
    of the cut, then the dots. -/
structure Parts (msg kept blanks sign dots text : List Char) : Prop where
  read : msg.take (readTo msg) = kept ++ blanks
  blank : ∀ c ∈ blanks, isWhitespace c = true
  stored : text = kept.map flatten ++ sign ++ dots
  signed : sign <+: redacted
  short : (kept.map flatten ++ sign).length ≤ maxLogMessageChars
  dotted : dots = [] ∨
    dots = ['…'] ∧ (kept.map flatten ++ sign).length = maxLogMessageChars

/-- STEP: cutting a text to its room leaves the dots where something is missing. -/
theorem dotted_take (s t : List Char) (hlen : s.length = t.length) :
    ∃ dots, (if t.length > maxLogMessageChars then s.take maxLogMessageChars ++ ['…']
        else s.take maxLogMessageChars) = s.take maxLogMessageChars ++ dots ∧
      (dots = [] ∨ dots = ['…'] ∧ (s.take maxLogMessageChars).length = maxLogMessageChars) := by
  split
  · refine ⟨['…'], rfl, .inr ⟨rfl, ?_⟩⟩
    rw [List.length_take]
    omega
  · exact ⟨[], (List.append_nil _).symm, .inl rfl⟩

theorem redacted_flat : redacted.map flatten = redacted := by decide

theorem sanitize_parts (msg : List Char) :
    ∃ kept blanks sign dots, Parts msg kept blanks sign dots (sanitize msg) := by
  obtain ⟨dots, hstored, hdots⟩ := dotted_take ((redact msg).map flatten) (redact msg) (by simp)
  have hstored : sanitize msg =
      ((redact msg).map flatten).take maxLogMessageChars ++ dots := hstored
  cases hat : sensitiveAt msg with
  | none =>
    have hredact : redact msg = msg := by rw [redact, hat]
    rw [hredact] at hstored hdots
    have hkept : (msg.take maxLogMessageChars).map flatten ++ [] =
        (msg.map flatten).take maxLogMessageChars := by
      rw [List.append_nil, List.map_take]
    refine ⟨msg.take maxLogMessageChars, [], [], dots, ?_, by simp, ?_, List.nil_prefix, ?_, ?_⟩
    · rw [readTo, hat, List.append_nil, Option.getD_none]
      rw [List.take_eq_take_iff]
      omega
    · rw [hkept, hstored]
    · rw [hkept]
      exact List.length_take_le _ _
    · rw [hkept]
      exact hdots
  | some index =>
    have hredact : redact msg = (msg.take index).rdropWhile isWhitespace ++ redacted := by
      rw [redact, hat]
    have hread : (msg.take index).rdropWhile isWhitespace ++
        (msg.take index).rtakeWhile isWhitespace = msg.take index :=
      List.rdropWhile_append_rtakeWhile
    generalize (msg.take index).rdropWhile isWhitespace = body at hredact hread
    have hparts : (body.take maxLogMessageChars).map flatten ++
        redacted.take (maxLogMessageChars - body.length) =
          ((redact msg).map flatten).take maxLogMessageChars := by
      rw [hredact, List.map_append, redacted_flat, List.take_append, List.map_take, List.length_map]
    refine ⟨body.take maxLogMessageChars,
      ((msg.take index).rtakeWhile isWhitespace).take (maxLogMessageChars - body.length),
      redacted.take (maxLogMessageChars - body.length), dots, ?_, ?_, ?_, List.take_prefix _ _,
      ?_, ?_⟩
    · rw [readTo, hat, Option.getD_some, ← List.take_take, ← List.take_append, hread]
    · intro c hc
      exact List.mem_rtakeWhile_imp (List.mem_of_mem_take hc)
    · rw [hparts, hstored]
    · rw [hparts]
      exact List.length_take_le _ _
    · rw [hparts]
      exact hdots

/-! ### The markers of a stored message -/

section parts
variable {msg kept blanks sign dots text : List Char}

theorem Parts.flat (h : Parts msg kept blanks sign dots text) : ∀ c ∈ text, isBreak c = false := by
  intro c hc
  rw [h.stored, List.mem_append, List.mem_append] at hc
  rcases hc with (hc | hc) | hc
  · obtain ⟨d, -, rfl⟩ := List.mem_map.mp hc
    exact flatten_not_break d
  · have hred := h.signed.subset hc
    rw [← redacted_flat] at hred
    obtain ⟨d, -, rfl⟩ := List.mem_map.mp hred
    exact flatten_not_break d
  · rcases h.dotted with hdots | ⟨hdots, -⟩
    · rw [hdots] at hc
      cases hc
    · rw [hdots, List.mem_singleton] at hc
      rw [hc]
      rfl

theorem Parts.length_le (h : Parts msg kept blanks sign dots text) :
    text.length ≤ maxLogMessageChars + 1 := by
  have hshort := h.short
  rw [h.stored, List.length_append]
  rcases h.dotted with hdots | ⟨hdots, -⟩
  · rw [hdots, List.length_nil]
    omega
  · rw [hdots, List.length_singleton]
    omega

/-- Neither the dots nor the sign of the cut are part of a marker. -/
theorem infix_of_signed {m s : List Char} (hm : m ∈ markers) (hsign : sign <+: redacted)
    (h : m <:+: s ++ asciiLower sign) : m <:+: s := by
  cases sign with
  | nil =>
    rwa [show asciiLower [] = [] from rfl, List.append_nil] at h
  | cons c q =>
    obtain ⟨rfl, hq⟩ := List.cons_prefix_cons.mp hsign
    rcases Search.infix_split (markers_plain m hm).1 h with hs | hrest
    · exact hs
    · refine absurd (hrest.trans ?_) (redacted_unmarked m hm)
      exact List.IsInfix.map _ hq.isInfix

theorem Parts.marker_iff (h : Parts msg kept blanks sign dots text) {m : List Char}
    (hm : m ∈ markers) : m <:+: asciiLower text ↔ m <:+: (asciiLower kept).map flatten := by
  have hlower : asciiLower text =
      (asciiLower kept).map flatten ++ asciiLower sign ++ asciiLower dots := by
    rw [h.stored, ← asciiLower_flatten]
    simp only [asciiLower, List.map_append]
  rw [hlower]
  constructor
  · intro hin
    refine infix_of_signed hm h.signed ?_
    rcases h.dotted with hdots | ⟨hdots, -⟩
    · rwa [hdots, show asciiLower [] = [] from rfl, List.append_nil] at hin
    · rw [hdots] at hin
      rcases Search.infix_split (markers_plain m hm).2 hin with hs | hnil
      · exact hs
      · exact absurd (List.infix_nil.mp hnil) (markers_ne_nil m hm)
  · intro hin
    rw [List.append_assoc]
    exact hin.trans (List.prefix_append _ _).isInfix

/-- What is read of a message has no marker. -/
theorem read_unmarked (msg : List Char) :
    ∀ m ∈ markers, ¬ m <:+: asciiLower (msg.take (readTo msg)) := by
  intro m hm hin
  cases hat : sensitiveAt msg with
  | none =>
    refine Search.findFirst_eq_none_iff.mp hat m hm (hin.trans ?_)
    exact List.IsInfix.map _ (List.take_prefix _ msg).isInfix
  | some index =>
    refine Search.not_infix_before markers_ne_nil hat m hm (hin.trans ?_)
    rw [asciiLower, asciiLower, ← List.map_take]
    refine List.IsInfix.map _ (List.IsPrefix.isInfix ?_)
    rw [readTo, hat, Option.getD_some, ← List.take_take]
    exact List.take_prefix _ _

theorem Parts.kept_infix (h : Parts msg kept blanks sign dots text) :
    asciiLower kept <:+: asciiLower (msg.take (readTo msg)) := by
  rw [h.read]
  exact List.IsInfix.map _ (List.prefix_append kept blanks).isInfix

/-- A text that ends with a letter ends before the blanks. -/
theorem Parts.infix_kept (h : Parts msg kept blanks sign dots text) {s : List Char} {d : Char}
    (hd : d.isAlpha = true) (hin : s ++ [d] <:+: asciiLower (msg.take (readTo msg))) :
    s ++ [d] <:+: asciiLower kept := by
  rw [h.read, asciiLower, List.map_append] at hin
  refine Search.infix_of_append (fun hmem => ?_) hin
  obtain ⟨c, hc, rfl⟩ := List.mem_map.mp hmem
  rw [Char.isAlpha_toLower_eq_isAlpha] at hd
  have hblank := h.blank c hc
  rw [not_whitespace_of_alpha hd] at hblank
  cases hblank

theorem Parts.unmarked_iff (h : Parts msg kept blanks sign dots text) :
    (∀ m ∈ markers, ¬ m <:+: asciiLower text) ↔ Unbroken msg := by
  constructor
  · intro hun pair hpair c hc hin
    obtain ⟨w, d, hw, hd⟩ := wordPairs_end pair hpair
    have hkept : pair.1 ++ c :: pair.2 <:+: asciiLower kept := by
      rw [hw, ← List.cons_append, ← List.append_assoc] at hin ⊢
      exact h.infix_kept hd hin
    refine hun _ (wordPairs_markers pair hpair)
      ((h.marker_iff (wordPairs_markers pair hpair)).mpr ?_)
    have hmap := List.IsInfix.map flatten hkept
    rwa [List.map_append, List.map_cons, (wordPairs_solid pair hpair).2.2.1,
      (wordPairs_solid pair hpair).2.2.2, flatten, if_pos hc] at hmap
  · intro hun m hm hin
    obtain ⟨s, hs, hsm⟩ := List.infix_map_iff.mp ((h.marker_iff hm).mp hin)
    have hread := hs.trans h.kept_infix
    rcases markers_words m hm with hblank | ⟨pair, hpair, rfl⟩
    · rw [of_map_flatten hsm.symm hblank] at hread
      exact read_unmarked msg m hm hread
    · obtain ⟨hfirst, hsecond, -⟩ := wordPairs_solid pair hpair
      obtain ⟨a, rest, rfl, ha, hrest⟩ := List.map_eq_append_iff.mp hsm.symm
      obtain ⟨c, b, rfl, hc, hb⟩ := List.map_eq_cons_iff.mp hrest
      rw [of_map_flatten ha hfirst, of_map_flatten hb hsecond] at hread
      rcases flatten_eq_blank hc with rfl | hbreak
      · exact read_unmarked msg _ hm hread
      · exact hun pair hpair c hbreak hread

/-- A stored message without a marker is stored as it is. -/
theorem Parts.settled (h : Parts msg kept blanks sign dots text)
    (hun : ∀ m ∈ markers, ¬ m <:+: asciiLower text) : sanitize text = text := by
  have hredact : redact text = text := by
    rw [redact, sensitiveAt, Search.findFirst_eq_none_iff.mpr hun]
  have hsanitize : sanitize text = if text.length > maxLogMessageChars then
      text.take maxLogMessageChars ++ ['…'] else text.take maxLogMessageChars := by
    rw [sanitize, hredact, map_flatten_of_flat h.flat]
  have hshort := h.short
  rw [hsanitize, h.stored]
  rcases h.dotted with hdots | ⟨hdots, hfull⟩
  · rw [hdots, List.append_nil, if_neg (by omega), List.take_of_length_le hshort]
  · rw [hdots, if_pos (by rw [List.length_append, hfull, List.length_singleton]; omega),
      List.take_append_of_le_length (by omega), List.take_of_length_le hshort]

end parts

/-- STEP: a message is stored as promised exactly where no line break stands between the words of
    a marker in what is read of it. -/
theorem storable_iff_unbroken (msg : String) :
    Storable (sanitizeLogMessage msg) ↔ Unbroken msg.toList := by
  obtain ⟨kept, blanks, sign, dots, h⟩ := sanitize_parts msg.toList
  have htext : (sanitizeLogMessage msg).toList = sanitize msg.toList := String.toList_ofList
  rw [← h.unmarked_iff]
  constructor
  · intro hstorable
    have hun := hstorable.unmarked
    rwa [htext] at hun
  · intro hun
    refine ⟨by rwa [htext], by rw [htext]; exact h.flat, by rw [htext]; exact h.length_le, ?_⟩
    rw [sanitizeLogMessage, htext, h.settled hun]
    rfl

/-- The line break becomes the blank of a marker. -/
theorem broken_marker_stored : ¬ Storable (sanitizeLogMessage "import\nbody") := by
  intro h
  have hstored : (sanitizeLogMessage "import\nbody").toList = "import body".toList := by decide
  refine h.unmarked "import body".toList (by decide) ?_
  rw [hstored]
  decide

end Gamer.Storage
