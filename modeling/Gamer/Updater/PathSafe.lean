import Mathlib.Data.List.SplitBy
import Mathlib.Data.List.Basic
import Mathlib.Tactic.SplitIfs

/-! The paths a manifest or an archive may name: relative, with `/` between the segments, and such
    that Windows reads every segment as it stands. -/

namespace Gamer.Updater.PathSafe

/-- `RESERVED_BASES`. -/
def reservedBases : List String :=
  ["CON", "PRN", "AUX", "NUL", "COM0", "COM1", "COM2", "COM3", "COM4", "COM5", "COM6", "COM7",
   "COM8", "COM9", "LPT0", "LPT1", "LPT2", "LPT3", "LPT4", "LPT5", "LPT6", "LPT7", "LPT8", "LPT9"]

def illegal (c : Char) : Bool :=
  c.toNat < 0x20 || c = '<' || c = '>' || c = '|' || c = '"' || c = '?' || c = '*'

/-- The part of a segment before its first dot. -/
def base (seg : List Char) : List Char := seg.takeWhile (· ≠ '.')

def asciiUppercase (s : List Char) : List Char := s.map Char.toUpper

def checkSegment (seg : List Char) : Option String :=
  if seg = [] then some "path-not-normalized"
  else if seg = ['.'] ∨ seg = ['.', '.'] then some "path-dotdot"
  else if seg.getLast? = some '.' ∨ seg.getLast? = some ' ' then some "path-trailing-dot-space"
  else if String.ofList (asciiUppercase (base seg)) ∈ reservedBases then some "path-reserved-name"
  else none

/-- A letter and a colon in front. -/
def driveLetter : List Char → Bool
  | c :: ':' :: _ => c.isAlpha
  | _ => false

/-- `check_single_path`: `none` for a safe path. -/
def checkSinglePath (p : String) : Option String :=
  if p.toList = [] then some "path-empty"
  else if '\\' ∈ p.toList then some "path-backslash"
  else if p.toList.head? = some '/' then some "path-absolute"
  else if driveLetter p.toList then some "path-drive-letter"
  else if ':' ∈ p.toList then some "path-ads-colon"
  else if p.toList.any illegal then some "path-illegal-chars"
  else (p.toList.splitOn '/').findSome? checkSegment

/-- What `checkSinglePath` lets through. -/
structure Safe (p : String) : Prop where
  nonempty : p.toList ≠ []
  backslash : '\\' ∉ p.toList
  colon : ':' ∉ p.toList
  relative : p.toList.head? ≠ some '/'
  segments : ∀ seg ∈ p.toList.splitOn '/', seg ≠ [] ∧ seg ≠ ['.'] ∧ seg ≠ ['.', '.']

theorem checkSegment_none {seg : List Char} (h : checkSegment seg = none) :
    seg ≠ [] ∧ seg ≠ ['.'] ∧ seg ≠ ['.', '.'] := by
  unfold checkSegment at h
  split_ifs at h with hempty hdots
  exact ⟨hempty, fun hdot => hdots (.inl hdot), fun hdot => hdots (.inr hdot)⟩

theorem safe_of_none {p : String} (h : checkSinglePath p = none) : Safe p := by
  unfold checkSinglePath at h
  split_ifs at h with hempty hback habs hdrive hcolon hillegal
  exact ⟨hempty, hback, hcolon, habs, fun seg hseg =>
    checkSegment_none (List.findSome?_eq_none_iff.mp h seg hseg)⟩

end Gamer.Updater.PathSafe
