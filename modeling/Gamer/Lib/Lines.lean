import Mathlib.Data.List.Basic

/-! Text files of one record per line, written by appending, where a write may stop half way. A
    file is a list of pieces; only a line that is one whole record and nothing else can be read:

        record ⏎ record ⏎ fragment record ⏎        two good lines and one that is broken        -/

namespace Gamer.Lib
variable {ρ : Type}

/-- What a text file is made of. -/
inductive Piece (ρ : Type) where
  | record (r : ρ)
  | fragment
  | newline

namespace Piece

/-- `str::lines`: a last line needs no line feed. -/
def linesFrom : List (Piece ρ) → List (Piece ρ) → List (List (Piece ρ))
  | [], [] => []
  | line, [] => [line]
  | line, .newline :: rest => line :: linesFrom [] rest
  | line, piece :: rest => linesFrom (line ++ [piece]) rest

def lines (text : List (Piece ρ)) : List (List (Piece ρ)) := linesFrom [] text

/-- The record a line is the text of. -/
def parse : List (Piece ρ) → Option ρ
  | [.record r] => some r
  | _ => none

/-- The records whose text is in the file, in lines that can be read or not. -/
def records : List (Piece ρ) → List ρ
  | [] => []
  | .record r :: rest => r :: records rest
  | _ :: rest => records rest

/-- Every line is one record. -/
def Whole (text : List (Piece ρ)) : Prop := ∀ line ∈ lines text, (parse line).isSome

instance (text : List (Piece ρ)) : Decidable (Whole text) :=
  inferInstanceAs (Decidable (∀ line ∈ lines text, (parse line).isSome))

@[simp] theorem records_append (a b : List (Piece ρ)) : records (a ++ b) = records a ++ records b := by
  induction a with
  | nil => rfl
  | cons piece a ih => cases piece <;> simp [records, ih]

theorem parse_eq_some {line : List (Piece ρ)} {r : ρ} (h : parse line = some r) :
    line = [.record r] := by
  unfold parse at h
  split at h
  · rw [Option.some.inj h]
  · cases h

theorem linesFrom_records {line text : List (Piece ρ)}
    (h : ∀ l ∈ linesFrom line text, (parse l).isSome) :
    (linesFrom line text).filterMap parse = records (line ++ text) := by
  induction text generalizing line with
  | nil =>
    cases line with
    | nil => rfl
    | cons piece line =>
      obtain ⟨r, hr⟩ := Option.isSome_iff_exists.mp (h (piece :: line) (by simp [linesFrom]))
      rw [linesFrom, List.append_nil, parse_eq_some hr]
      · simp [parse, records]
      · simp
  | cons piece text ih =>
    cases piece with
    | newline =>
      have hline : linesFrom line (.newline :: text) = line :: linesFrom [] text := by
        cases line <;> rfl
      rw [hline] at h ⊢
      obtain ⟨r, hr⟩ := Option.isSome_iff_exists.mp (h line (by simp))
      rw [List.filterMap_cons_some hr, ih fun l hl => h l (by simp [hl]), parse_eq_some hr]
      simp [records]
    | record r =>
      have hline : linesFrom line (.record r :: text) = linesFrom (line ++ [.record r]) text := by
        cases line <;> rfl
      rw [hline] at h ⊢
      rw [ih h, List.append_assoc]
      rfl
    | fragment =>
      have hline : linesFrom line (.fragment :: text) = linesFrom (line ++ [.fragment]) text := by
        cases line <;> rfl
      rw [hline] at h ⊢
      rw [ih h, List.append_assoc]
      rfl

/-- Where every line can be read, what is read is every record there is. -/
theorem Whole.read {text : List (Piece ρ)} (h : Whole text) :
    (lines text).filterMap parse = records text :=
  linesFrom_records h

end Piece

end Gamer.Lib
