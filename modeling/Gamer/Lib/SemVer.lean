import Mathlib.Data.Char
import Mathlib.Data.List.Lex
import Mathlib.Order.RelClasses
import Mathlib.Tactic.Linarith
import Mathlib.Tactic.Ring

/-! Semantic Versioning 2.0.0: the grammar of a version, with the value it stands for, and the
    order of precedence. Numbers have no leading zeros and no bound, and build metadata is read
    and forgotten:

        core ( - identifier . identifier … )? ( + build )?      1.0.0-rc.1 ◁ 1.0.0        -/

namespace Gamer.Lib.SemVer

inductive Identifier where
  | numeric (n : Nat)
  | alphanumeric (text : List Char)
  deriving DecidableEq

structure Version where
  major : Nat
  minor : Nat
  patch : Nat
  pre : Option (List Identifier)
  deriving DecidableEq

/-! ### Grammar -/

def IdentifierChar (c : Char) : Prop := c.isAlphanum ∨ c = '-'

instance (c : Char) : Decidable (IdentifierChar c) := inferInstanceAs (Decidable (_ ∨ _))

def digit (c : Char) : Nat := c.toNat - '0'.toNat

/-- The number that decimal digits stand for. -/
def value : List Char → Nat
  | [] => 0
  | c :: cs => digit c * 10 ^ cs.length + value cs

/-- `0`, or digits that begin with another one. -/
inductive Numeric : List Char → Prop where
  | zero : Numeric ['0']
  | digits {c : Char} {cs : List Char} : c.isDigit → c ≠ '0' → (∀ d ∈ cs, d.isDigit) →
      Numeric (c :: cs)

/-- Identifier characters that are not digits alone. -/
def Alphanumeric (s : List Char) : Prop := (∀ c ∈ s, IdentifierChar c) ∧ ∃ c ∈ s, ¬c.isDigit

inductive PreIdentifier : List Char → Identifier → Prop where
  | numeric {s : List Char} : Numeric s → PreIdentifier s (.numeric (value s))
  | alphanumeric {s : List Char} : Alphanumeric s → PreIdentifier s (.alphanumeric s)

/-- Here digits may have leading zeros. -/
def BuildIdentifier (s : List Char) (_ : Unit) : Prop :=
  Alphanumeric s ∨ s ≠ [] ∧ ∀ c ∈ s, c.isDigit

/-- One identifier or more, with dots between them. -/
inductive Dotted {α : Type} (P : List Char → α → Prop) : List Char → List α → Prop where
  | one {s : List Char} {a : α} : P s a → Dotted P s [a]
  | dot {s rest : List Char} {a : α} {as : List α} : P s a → Dotted P rest as →
      Dotted P (s ++ '.' :: rest) (a :: as)

inductive Core : List Char → Version → Prop where
  | mk {x y z : List Char} : Numeric x → Numeric y → Numeric z →
      Core (x ++ '.' :: (y ++ '.' :: z)) ⟨value x, value y, value z, none⟩

/-- A version without build metadata. -/
inductive Plain : List Char → Version → Prop where
  | core {s : List Char} {v : Version} : Core s v → Plain s v
  | pre {s p : List Char} {v : Version} {ids : List Identifier} : Core s v →
      Dotted PreIdentifier p ids → Plain (s ++ '-' :: p) { v with pre := some ids }

/-- The text stands for this version. -/
inductive Reads : List Char → Version → Prop where
  | plain {s : List Char} {v : Version} : Plain s v → Reads s v
  | build {s b : List Char} {v : Version} {metadata : List Unit} : Plain s v →
      Dotted BuildIdentifier b metadata → Reads (s ++ '+' :: b) v

/-! ### Characters and numbers -/

theorem identifierChar_of_digit {c : Char} (h : c.isDigit = true) : IdentifierChar c :=
  .inl (by simp [Char.isAlphanum, h])

theorem Numeric.isDigit {s : List Char} (h : Numeric s) : ∀ c ∈ s, c.isDigit = true := by
  cases h with
  | zero => simp
  | digits hc _ hcs =>
    rintro d (_ | ⟨_, hd⟩)
    · exact hc
    · exact hcs d hd

theorem Numeric.ne_nil {s : List Char} (h : Numeric s) : s ≠ [] := by
  cases h <;> simp

theorem notMem_of_digits {s : List Char} {c : Char} (h : ∀ d ∈ s, d.isDigit = true)
    (hc : c.isDigit = false) : c ∉ s := by
  rintro hmem
  rw [h c hmem] at hc
  cases hc

theorem PreIdentifier.chars {s : List Char} {a : SemVer.Identifier} (h : PreIdentifier s a) :
    ∀ c ∈ s, IdentifierChar c := by
  cases h with
  | numeric h => exact fun c hc => identifierChar_of_digit (h.isDigit c hc)
  | alphanumeric h => exact h.1

theorem notMem_of_chars {s : List Char} {c : Char} (h : ∀ d ∈ s, IdentifierChar d)
    (hc : ¬IdentifierChar c) : c ∉ s := fun hmem => hc (h c hmem)

theorem PreIdentifier.no_dot (s : List Char) (a : SemVer.Identifier) (h : PreIdentifier s a) :
    '.' ∉ s := notMem_of_chars h.chars (by decide)

theorem toNat_of_digit {c : Char} (h : c.isDigit = true) : c.toNat = 48 + digit c ∧ digit c < 10 := by
  have hc : 48 ≤ c.toNat ∧ c.toNat ≤ 57 := by simpa [Char.isDigit, UInt32.le_iff_toNat_le] using h
  show c.toNat = 48 + (c.toNat - 48) ∧ c.toNat - 48 < 10
  omega

theorem digit_pos {c : Char} (h : c.isDigit = true) (hzero : c ≠ '0') : 0 < digit c := by
  have hc := (toNat_of_digit h).1
  have hne : c.toNat ≠ 48 := fun heq => hzero (Char.toNat_inj.mp heq)
  omega

theorem value_lt {s : List Char} (h : ∀ c ∈ s, c.isDigit = true) : value s < 10 ^ s.length := by
  induction s with
  | nil => simp [value]
  | cons c s ih =>
    have hc := (toNat_of_digit (h c (by simp))).2
    have hs := ih fun d hd => h d (by simp [hd])
    rw [value, List.length_cons, pow_succ]
    nlinarith

theorem Numeric.value_ge {c : Char} {s : List Char} (h : Numeric (c :: s)) (hs : s ≠ []) :
    10 ^ s.length ≤ value (c :: s) := by
  cases h with
  | zero => exact absurd rfl hs
  | digits hc hzero _ =>
    have hpos := digit_pos hc hzero
    rw [value]
    nlinarith [Nat.one_le_pow s.length 10 (by omega)]

/-! ### Precedence -/

def Identifier.Precedes : Identifier → Identifier → Prop
  | .numeric n, .numeric m => n < m
  | .numeric _, .alphanumeric _ => True
  | .alphanumeric _, .numeric _ => False
  | .alphanumeric s, .alphanumeric t => s < t

/-- A version with a prerelease comes before the one without. -/
def PrePrecedes : Option (List Identifier) → Option (List Identifier) → Prop
  | some p, some q => List.Lex Identifier.Precedes p q
  | some _, none => True
  | none, _ => False

/-- Major, minor and patch, one after the other. -/
def Version.core (v : Version) : List Nat := [v.major, v.minor, v.patch]

def Version.Precedes (v w : Version) : Prop :=
  v.core < w.core ∨ v.core = w.core ∧ PrePrecedes v.pre w.pre

instance : IsStrictTotalOrder Identifier Identifier.Precedes where
  irrefl a h := by
    cases a with
    | numeric n => exact lt_irrefl n h
    | alphanumeric s => exact lt_irrefl s h
  trans a b c hab hbc := by
    cases a with
    | numeric n =>
      cases c with
      | alphanumeric => trivial
      | numeric m =>
        cases b with
        | numeric k => exact lt_trans (show n < k from hab) hbc
        | alphanumeric => exact (hbc : False).elim
    | alphanumeric s =>
      cases b with
      | numeric => exact (hab : False).elim
      | alphanumeric t =>
        cases c with
        | numeric => exact (hbc : False).elim
        | alphanumeric u => exact lt_trans (show s < t from hab) hbc
  trichotomous a b hab hba := by
    cases a with
    | numeric n =>
      cases b with
      | numeric m => exact congrArg _ (le_antisymm (not_lt.mp hba) (not_lt.mp hab))
      | alphanumeric t => exact absurd trivial hab
    | alphanumeric s =>
      cases b with
      | numeric m => exact absurd trivial hba
      | alphanumeric t => exact congrArg _ (le_antisymm (not_lt.mp hba) (not_lt.mp hab))

instance : IsStrictTotalOrder (List Identifier) (List.Lex Identifier.Precedes) :=
  haveI := isStrictWeakOrder_of_isOrderConnected (r := List.Lex Identifier.Precedes)
  { }

instance : IsStrictTotalOrder (Option (List Identifier)) PrePrecedes where
  irrefl p h := by
    cases p with
    | none => exact h
    | some p => exact irrefl_of (List.Lex Identifier.Precedes) p h
  trans p q r hpq hqr := by
    cases p with
    | none => exact hpq
    | some p =>
      cases q with
      | none => exact (hqr : False).elim
      | some q =>
        cases r with
        | none => trivial
        | some r => exact trans_of (List.Lex Identifier.Precedes) hpq hqr
  trichotomous p q hpq hqp := by
    cases p with
    | none =>
      cases q with
      | none => rfl
      | some q => exact absurd trivial hqp
    | some p =>
      cases q with
      | none => exact absurd trivial hpq
      | some q =>
        rcases trichotomous_of (List.Lex Identifier.Precedes) p q with h | h | h
        · exact absurd h hpq
        · exact congrArg some h
        · exact absurd h hqp

theorem Version.eq_of_core {v w : Version} (hcore : v.core = w.core) (hpre : v.pre = w.pre) :
    v = w := by
  obtain ⟨a, b, c, p⟩ := v
  obtain ⟨x, y, z, q⟩ := w
  simp only [Version.core, List.cons.injEq, and_true] at hcore
  obtain ⟨rfl, rfl, rfl⟩ := hcore
  simp_all

/-- SAFETY: precedence is a strict total order on versions without build metadata. -/
instance : IsStrictTotalOrder Version Version.Precedes where
  irrefl v h := by
    rcases h with h | ⟨_, h⟩
    · exact lt_irrefl _ h
    · exact irrefl_of PrePrecedes _ h
  trans u v w huv hvw := by
    rcases huv with huv | ⟨huv, hpre⟩
    · rcases hvw with hvw | ⟨hvw, _⟩
      · exact .inl (lt_trans huv hvw)
      · exact .inl (hvw ▸ huv)
    · rcases hvw with hvw | ⟨hvw, hpre'⟩
      · exact .inl (huv ▸ hvw)
      · exact .inr ⟨huv.trans hvw, trans_of PrePrecedes hpre hpre'⟩
  trichotomous v w hvw hwv := by
    simp only [Version.Precedes, not_or, not_and] at hvw hwv
    have hcore : v.core = w.core := le_antisymm (not_lt.mp hwv.1) (not_lt.mp hvw.1)
    refine Version.eq_of_core hcore ?_
    rcases trichotomous_of PrePrecedes v.pre w.pre with h | h | h
    · exact absurd h (hvw.2 hcore)
    · exact h
    · exact absurd h (hwv.2 hcore.symm)

end Gamer.Lib.SemVer
