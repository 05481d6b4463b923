import Mathlib
import Gamer.Core.Models

/-! What a JSON text is read back as. The reader hands the entries of an object over in the order of
    the text; a `Value` puts them into its map, a struct looks for its fields among them:

        text ──read──▶ tree ──keyed──▶ Value
                            └─structFields──▶ struct

    Values nest to a limit, and a number is read again from its digits. -/

namespace Gamer.Core

namespace Json

mutual

/-- How deep arrays and objects nest. -/
def depth : Json → Nat
  | .arr items => 1 + depthItems items
  | .obj entries => 1 + depthEntries entries
  | _ => 0

def depthItems : List Json → Nat
  | [] => 0
  | v :: rest => max (depth v) (depthItems rest)

def depthEntries : List (String × Json) → Nat
  | [] => 0
  | (_, v) :: rest => max (depth v) (depthEntries rest)

end

mutual

/-- The value with its numbers read again. -/
def reread (number : String → String) : Json → Json
  | .num text => .num (number text)
  | .arr items => .arr (rereadItems number items)
  | .obj entries => .obj (rereadEntries number entries)
  | .null => .null
  | .bool b => .bool b
  | .str s => .str s

def rereadItems (number : String → String) : List Json → List Json
  | [] => []
  | v :: rest => reread number v :: rereadItems number rest

def rereadEntries (number : String → String) : List (String × Json) → List (String × Json)
  | [] => []
  | (k, v) :: rest => (k, reread number v) :: rereadEntries number rest

end

mutual

/-- The value whose objects are the maps made of their entries, the last of a key. -/
def keyed : Json → Json
  | .arr items => .arr (keyedItems items)
  | .obj entries => .obj (keyedEntries entries [])
  | .null => .null
  | .bool b => .bool b
  | .num text => .num text
  | .str s => .str s

def keyedItems : List Json → List Json
  | [] => []
  | v :: rest => keyed v :: keyedItems rest

def keyedEntries : List (String × Json) → List (String × Json) → List (String × Json)
  | [], m => m
  | (k, v) :: rest, m => keyedEntries rest (insertKey k (keyed v) m)

end

variable (number : String → String)

theorem rereadEntries_insertKey (k : String) (v : Json) : ∀ m : List (String × Json),
    rereadEntries number (insertKey k v m) =
      insertKey k (reread number v) (rereadEntries number m)
  | [] => rfl
  | (k', v') :: rest => by
    rw [insertKey, rereadEntries, insertKey]
    split
    · rfl
    · split
      · rfl
      · rw [rereadEntries, rereadEntries_insertKey k v rest]

mutual

/-- Reading the numbers again does not change the keys. -/
theorem keyed_reread : ∀ v : Json, keyed (reread number v) = reread number (keyed v)
  | .null => rfl
  | .bool _ => rfl
  | .num _ => rfl
  | .str _ => rfl
  | .arr items => by rw [reread, keyed, keyed, reread, keyedItems_reread items]
  | .obj entries => by
    have hentries := keyedEntries_reread entries []
    rw [rereadEntries] at hentries
    rw [reread, keyed, keyed, reread, hentries]

theorem keyedItems_reread : ∀ items : List Json,
    keyedItems (rereadItems number items) = rereadItems number (keyedItems items)
  | [] => rfl
  | v :: rest => by
    rw [rereadItems, keyedItems, keyedItems, rereadItems, keyed_reread v, keyedItems_reread rest]

theorem keyedEntries_reread : ∀ entries m : List (String × Json),
    keyedEntries (rereadEntries number entries) (rereadEntries number m) =
      rereadEntries number (keyedEntries entries m)
  | [], _ => rfl
  | (k, v) :: rest, m => by
    rw [rereadEntries, keyedEntries, keyedEntries, keyed_reread v,
      ← rereadEntries_insertKey number k (keyed v) m, keyedEntries_reread rest]

end

/-! ### Fields of a struct -/

/-- A field that may occur once. -/
def structField (k : String) (entries : List (String × Json)) : Except String (Option Json) :=
  match entries.filter fun e => e.1 = k with
  | [] => .ok none
  | [e] => .ok (some e.2)
  | _ => .error ("duplicate field " ++ k)

/-- The fields of a derived struct: an object with these keys and others, or the values in order. -/
def structFields (names : List String) : Json → Except String (List (Option Json))
  | .obj entries => names.mapM fun k => structField k entries
  | .arr items =>
    if items.length = names.length then .ok (items.map some) else .error "invalid length"
  | _ => .error "invalid type"

def decodeStr : Option Json → Except String String
  | some (.str s) => .ok s
  | some _ => .error "invalid type"
  | none => .error "missing field"

def decodeOptStr : Option Json → Except String (Option String)
  | none | some .null => .ok none
  | some (.str s) => .ok (some s)
  | some _ => .error "invalid type"

def optStr : Option String → Json
  | none => .null
  | some s => .str s

def decodeU64 : Option Json → Except String Nat
  | some (.num text) =>
    if text.toList ≠ [] ∧ text.toList.all Char.isDigit ∧
        Nat.ofDigitChars 10 text.toList 0 < 2 ^ 64 then
      .ok (Nat.ofDigitChars 10 text.toList 0)
    else .error "invalid value"
  | some _ => .error "invalid type"
  | none => .error "missing field"

@[simp] theorem decodeOptStr_optStr (s : Option String) : decodeOptStr (some (optStr s)) = .ok s := by
  cases s with
  | none => rfl
  | some s => rfl

/-- A number of 64 bits is read from its own digits. -/
theorem decodeU64_toString {n : Nat} (h : n < 2 ^ 64) :
    decodeU64 (some (.num (toString n))) = .ok n := by
  have htext : (toString n).toList = Nat.toDigits 10 n := Nat.toList_repr
  have hdigits : (Nat.toDigits 10 n).all Char.isDigit = true :=
    List.all_eq_true.mpr fun c hc => Nat.isDigit_of_mem_toDigits (by omega) (by omega) hc
  have hvalue : Nat.ofDigitChars 10 (Nat.toDigits 10 n) 0 = n := Nat.ofDigitChars_ten_toDigits
  unfold decodeU64
  dsimp only
  rw [htext, hvalue, if_pos ⟨Nat.toDigits_ne_nil, hdigits, h⟩]

end Json

/-! ### Identifiers -/

theorem dropWhile_rdropWhile {α : Type} (p : α → Bool) (l : List α) :
    ((l.dropWhile p).rdropWhile p).dropWhile p = (l.dropWhile p).rdropWhile p := by
  cases hkept : (l.dropWhile p).rdropWhile p with
  | nil => rfl
  | cons c kept =>
    obtain ⟨rest, hrest⟩ := List.rdropWhile_prefix p (l.dropWhile p)
    rw [hkept, List.cons_append] at hrest
    have hhead : ¬ p c = true := by
      have hne : l.dropWhile p ≠ [] := by
        rw [← hrest]
        exact List.cons_ne_nil _ _
      have hnot := List.head_dropWhile_not p hne
      simp only [← hrest, List.head_cons] at hnot
      simp [hnot]
    exact List.dropWhile_cons_of_neg hhead

theorem trim_trim (s : String) : trim (trim s) = trim s := by
  have htrim : (trim s).toList = (s.toList.dropWhile isWhitespace).rdropWhile isWhitespace :=
    String.toList_ofList
  show String.ofList (((trim s).toList.dropWhile isWhitespace).rdropWhile isWhitespace) = trim s
  rw [htrim, dropWhile_rdropWhile, List.rdropWhile_idempotent, ← htrim, String.ofList_toList]

/-- What the constructor of an identifier has accepted it accepts again. -/
theorem Identifier.new_value {kind : String} (id : Identifier kind) :
    Identifier.new kind id.value = .ok id := by
  obtain ⟨value, raw, haccepted⟩ := id
  have hagain : validateIdentifier kind value = .ok value := by
    unfold validateIdentifier at haccepted ⊢
    dsimp only at haccepted ⊢
    split at haccepted
    · cases haccepted
    · next hempty =>
      split at haccepted
      · cases haccepted
      · next hcontrol =>
        split at haccepted
        · cases haccepted
        · next hseparator =>
          cases haccepted
          rw [trim_trim, if_neg hempty, if_neg hcontrol, if_neg hseparator]
  unfold Identifier.new
  split
  · next v hv =>
    rw [hagain] at hv
    cases hv
    rfl
  · next e he =>
    rw [hagain] at he
    cases he

end Gamer.Core
