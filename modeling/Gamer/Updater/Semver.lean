import Gamer.Lib.SemVer

/-! `semver.rs` of the updater: a version is parsed into texts, and two versions are compared by
    these. The identifiers of a prerelease are compared as texts that have no leading zero, the
    three numbers before it as `u64`:

        parse ▶ Semver      is_lt: core as u64, then pre by (length, text)                   -/

namespace Gamer.Updater.Manifest
open Gamer.Lib

inductive Identifier where
  | numeric (text : List Char)
  | alphanumeric (text : List Char)
  deriving DecidableEq

structure Semver where
  major : List Char
  minor : List Char
  patch : List Char
  pre : Option (List Identifier)
  deriving DecidableEq

/-- `str::parse::<u64>().unwrap_or(0)` of a text that is digits. -/
def parseU64 (text : List Char) : Nat :=
  if SemVer.value text < 2 ^ 64 then SemVer.value text else 0

def core (v : Semver) : List Nat := [parseU64 v.major, parseU64 v.minor, parseU64 v.patch]

def isAsciiDigit (c : Char) : Bool := c.isDigit

def isIdentifierByte (c : Char) : Bool := c.isAlphanum || c = '-'

def parseNumeric (ident : List Char) : Option (List Char) :=
  if ident = [] ∨ !ident.all isAsciiDigit then none
  else if 1 < ident.length ∧ ident.head? = some '0' then none
  else some ident

def parsePreIdentifier (ident : List Char) : Option Identifier :=
  if ident = [] ∨ !ident.all isIdentifierByte then none
  else if ident.all isAsciiDigit then (parseNumeric ident).map .numeric
  else some (.alphanumeric ident)

def validBuildIdent (ident : List Char) : Bool := ident ≠ [] && ident.all isIdentifierByte

/-- `str::split_once`. -/
def splitOnce (c : Char) : List Char → Option (List Char × List Char)
  | [] => none
  | d :: rest => if d = c then some ([], rest) else (splitOnce c rest).map fun p => (d :: p.1, p.2)

/-- `str::split`. -/
def split (c : Char) : List Char → List (List Char)
  | [] => [[]]
  | d :: rest =>
    if d = c then [] :: split c rest
    else
      match split c rest with
      | [] => [[d]]
      | part :: parts => (d :: part) :: parts

def parseCore (core : List Char) (pre : Option (List Identifier)) : Option Semver :=
  match split '.' core with
  | [major, minor, patch] => do
    let major ← parseNumeric major
    let minor ← parseNumeric minor
    let patch ← parseNumeric patch
    some ⟨major, minor, patch, pre⟩
  | _ => none

/-- Behind the core there is one prerelease at most. -/
def parsePlain (corePre : List Char) : Option Semver :=
  match splitOnce '-' corePre with
  | none => parseCore corePre none
  | some (core, pre) => do
    let v ← parseCore core none
    let ids ← (split '.' pre).mapM parsePreIdentifier
    some { v with pre := some ids }

def parse (s : String) : Option Semver :=
  match splitOnce '+' s.toList with
  | none => parsePlain s.toList
  | some (corePre, build) =>
    if build = [] ∨ !(split '.' build).all validBuildIdent then none else parsePlain corePre

/-- `str::cmp`. -/
def textCmp : List Char → List Char → Ordering
  | [], [] => .eq
  | [], _ :: _ => .lt
  | _ :: _, [] => .gt
  | c :: s, d :: t => (compare c.toNat d.toNat).then (textCmp s t)

def identLt : Identifier → Identifier → Ordering
  | .numeric x, .numeric y => (compare x.length y.length).then (textCmp x y)
  | .numeric _, .alphanumeric _ => .lt
  | .alphanumeric _, .numeric _ => .gt
  | .alphanumeric x, .alphanumeric y => textCmp x y

/-- The loop over both prereleases. -/
def preLt : List Identifier → List Identifier → Bool
  | [], [] => false
  | [], _ :: _ => true
  | _ :: _, [] => false
  | x :: pa, y :: pb =>
    match identLt x y with
    | .lt => true
    | .gt => false
    | .eq => preLt pa pb

def isLt (a b : Semver) : Bool :=
  if core a ≠ core b then core a < core b
  else
    match a.pre, b.pre with
    | some pa, some pb => preLt pa pb
    | some _, none => true
    | none, _ => false

end Gamer.Updater.Manifest
