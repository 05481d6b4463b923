import Mathlib.Data.List.Infix
import Mathlib.Data.List.DropRight

/-! A file system as far as a program sees it: what stands at every path. A path is the list of its
    names from the root, the root is a directory, and so is whatever something stands below.

        set p n      n at p, in a directory     delAll p     nothing at p and below it
        del p        no file at p               move p q     what was at p and below it, now at q

    An operation that a file system refuses changes nothing. Finitely many paths have something at
    them, so that a directory can be listed. -/

namespace Gamer.Lib

/-- What stands at a path. A link is not followed. -/
inductive Node (β : Type) where
  | file (content : β)
  | dir
  | link
  deriving DecidableEq

structure FileTree (ν β : Type) where
  get : List ν → Option (Node β)
  paths : List (List ν)
  complete : ∀ p, get p ≠ none → p ∈ paths
  root : get [] = some .dir
  rooted : ∀ p name, get (p ++ [name]) ≠ none → get p = some .dir

namespace FileTree
variable {ν β : Type}

/-- The file at a path. -/
def fileAt (t : FileTree ν β) (p : List ν) : Option β :=
  match t.get p with
  | some (.file c) => some c
  | _ => none

def isDir (t : FileTree ν β) (p : List ν) : Bool :=
  match t.get p with
  | some .dir => true
  | _ => false

def isLink (t : FileTree ν β) (p : List ν) : Bool :=
  match t.get p with
  | some .link => true
  | _ => false

/-- Something stands at the path. -/
def has (t : FileTree ν β) (p : List ν) : Bool := (t.get p).isSome

/-- Something else than a directory may be put there. -/
def settable (t : FileTree ν β) (p : List ν) : Bool :=
  p ≠ [] && t.isDir p.dropLast && !t.isDir p

section Reading
variable {t t' : FileTree ν β} {p q : List ν}

theorem fileAt_eq_some {c : β} : t.fileAt p = some c ↔ t.get p = some (.file c) := by
  unfold fileAt
  split
  case h_1 c' h => simp [h]
  case h_2 h => simpa using fun hc => h c hc

theorem fileAt_congr (h : t'.get q = t.get p) : t'.fileAt q = t.fileAt p := by
  unfold fileAt
  rw [h]

theorem isDir_iff : t.isDir p = true ↔ t.get p = some .dir := by
  unfold isDir
  split <;> simp_all

theorem isDir_of_fileAt {c : β} (h : t.fileAt p = some c) : t.isDir p = false := by
  rw [fileAt_eq_some] at h
  simp [isDir, h]

theorem has_eq_false : t.has p = false ↔ t.get p = none := by
  simp [has]

/-- What something stands below is a directory. -/
theorem get_of_below {r : List ν} (hr : r ≠ []) (h : t.get (p ++ r) ≠ none) :
    t.get p = some .dir := by
  induction r using List.reverseRecOn with
  | nil => exact absurd rfl hr
  | append_singleton r name ih =>
    rw [← List.append_assoc] at h
    have hdir := t.rooted _ _ h
    cases r with
    | nil => simpa using hdir
    | cons x r => exact ih (by simp) (by rw [hdir]; simp)

/-- Nothing stands below what is no directory. -/
theorem get_below {r : List ν} (hp : t.get p ≠ some .dir) (hr : r ≠ []) :
    t.get (p ++ r) = none := by
  by_contra h
  exact hp (get_of_below hr h)

/-- A file can be written again. -/
theorem settable_of_fileAt {c : β} (h : t.fileAt p = some c) : t.settable p = true := by
  have hdir := isDir_of_fileAt h
  rw [fileAt_eq_some] at h
  have hne : p ≠ [] := by
    rintro rfl
    rw [t.root] at h
    cases h
  have hparent : t.get p.dropLast = some .dir := by
    rw [← List.dropLast_concat_getLast hne] at h
    exact t.rooted _ _ (by rw [h]; simp)
  simp [settable, hne, hdir, isDir_iff.mpr hparent]

end Reading

variable [DecidableEq ν]

/-- Nothing but the root. -/
def bare : FileTree ν β where
  get p := if p = [] then some .dir else none
  paths := [[]]
  complete p h := by
    by_cases hp : p = []
    · exact hp ▸ List.mem_singleton.mpr rfl
    · exact absurd (if_neg hp) h
  root := if_pos rfl
  rooted p name h := absurd (if_neg (by simp)) h

/-- The paths below `p` that have something at them. -/
def below (t : FileTree ν β) (p : List ν) : List (List ν) :=
  t.paths.filter fun q => p <+: q && q ≠ p && (t.get q).isSome

def set (t : FileTree ν β) (p : List ν) (n : Node β) : FileTree ν β where
  get q := if q = p ∧ t.settable p then some n else t.get q
  paths := p :: t.paths
  complete q h := by
    by_cases hq : q = p ∧ t.settable p
    · exact hq.1 ▸ List.mem_cons_self
    · rw [if_neg hq] at h
      exact List.mem_cons_of_mem _ (t.complete q h)
  root := by
    rw [if_neg]
    · exact t.root
    · rintro ⟨rfl, h⟩
      simp [settable] at h
  rooted q name h := by
    have hdir : t.get q = some .dir := by
      by_cases hq : q ++ [name] = p ∧ t.settable p
      · obtain ⟨rfl, hset⟩ := hq
        simp only [settable, List.dropLast_concat, Bool.and_eq_true] at hset
        exact isDir_iff.mp hset.1.2
      · rw [if_neg hq] at h
        exact t.rooted q name h
    rw [if_neg]
    · exact hdir
    · rintro ⟨rfl, hset⟩
      simp [settable, isDir_iff.mpr hdir] at hset

/-- The file at `p` goes. -/
def del (t : FileTree ν β) (p : List ν) : FileTree ν β where
  get q := if q = p ∧ t.isDir p = false then none else t.get q
  paths := t.paths
  complete q h := by
    by_cases hq : q = p ∧ t.isDir p = false
    · exact absurd (if_pos hq) h
    · rw [if_neg hq] at h
      exact t.complete q h
  root := by
    rw [if_neg]
    · exact t.root
    · rintro ⟨rfl, h⟩
      simp [isDir, t.root] at h
  rooted q name h := by
    have hget : t.get (q ++ [name]) ≠ none := by
      by_cases hq : q ++ [name] = p ∧ t.isDir p = false
      · exact absurd (if_pos hq) h
      · rwa [if_neg hq] at h
    rw [if_neg]
    · exact t.rooted q name hget
    · rintro ⟨rfl, hdir⟩
      simp [isDir_iff.mpr (t.rooted q name hget)] at hdir

/-- What `left` says, or something below it, is there. -/
def leaves (t : FileTree ν β) (left : List ν → Bool) (q : List ν) : Bool :=
  t.paths.any fun r => q <+: r && left r && t.has r

/-- Nothing at `p` and below it, but what is left and the directories above that. -/
def delBut (t : FileTree ν β) (p : List ν) (left : List ν → Bool) : FileTree ν β where
  get q := if p ≠ [] ∧ p <+: q ∧ t.leaves left q = false then none else t.get q
  paths := t.paths
  complete q h := by
    by_cases hq : p ≠ [] ∧ p <+: q ∧ t.leaves left q = false
    · exact absurd (if_pos hq) h
    · rw [if_neg hq] at h
      exact t.complete q h
  root := by
    rw [if_neg]
    · exact t.root
    · rintro ⟨hp, hpre, -⟩
      exact hp (List.prefix_nil.mp hpre)
  rooted q name h := by
    by_cases hq : p ≠ [] ∧ p <+: q ++ [name] ∧ t.leaves left (q ++ [name]) = false
    · exact absurd (if_pos hq) h
    · rw [if_neg hq] at h
      rw [if_neg]
      · exact t.rooted q name h
      · rintro ⟨hp, hpre, hleft⟩
        refine hq ⟨hp, hpre.trans (List.prefix_append q [name]), ?_⟩
        unfold leaves at hleft ⊢
        rw [List.any_eq_false] at hleft ⊢
        intro r hr hand
        refine hleft r hr ?_
        simp only [Bool.and_eq_true, decide_eq_true_eq] at hand ⊢
        exact ⟨⟨(List.prefix_append q [name]).trans hand.1.1, hand.1.2⟩, hand.2⟩

def delAll (t : FileTree ν β) (p : List ν) : FileTree ν β := t.delBut p fun _ => false

/-- Nothing stands where it is moved to, but for the directory that it is put in. -/
def movable (t : FileTree ν β) (p q : List ν) : Bool :=
  p ≠ [] && !t.has q && t.isDir q.dropLast && !(p <+: q : Bool)

/-- What stands at `p` and below it goes to `q`. -/
def move (t : FileTree ν β) (p q : List ν) : FileTree ν β where
  get r :=
    if t.movable p q then
      if q <+: r then t.get (p ++ r.drop q.length) else if p <+: r then none else t.get r
    else t.get r
  paths := t.paths ++ t.paths.map fun r => q ++ r.drop p.length
  complete r h := by
    split_ifs at h with hm hq hp
    · obtain ⟨s, rfl⟩ := hq
      rw [List.drop_left] at h
      refine List.mem_append_right _ (List.mem_map.mpr ⟨p ++ s, t.complete _ h, ?_⟩)
      rw [List.drop_left]
    · exact absurd rfl h
    · exact List.mem_append_left _ (t.complete r h)
    · exact List.mem_append_left _ (t.complete r h)
  root := by
    split_ifs with hm hq hp
    · simp [movable, List.prefix_nil.mp hq, has, t.root] at hm
    · simp [movable, List.prefix_nil.mp hp] at hm
    · exact t.root
    · exact t.root
  rooted r name h := by
    by_cases hm : t.movable p q
    · rw [if_pos hm] at h ⊢
      simp only [movable, Bool.and_eq_true, Bool.not_eq_true', decide_eq_false_iff_not] at hm
      obtain ⟨⟨⟨-, -⟩, hparent⟩, hapart⟩ := hm
      by_cases hq : q <+: r
      · obtain ⟨s, rfl⟩ := hq
        rw [if_pos ⟨s ++ [name], by simp⟩, List.append_assoc, List.drop_left,
          ← List.append_assoc] at h
        rw [if_pos (List.prefix_append q s), List.drop_left]
        exact t.rooted _ _ h
      · rw [if_neg hq]
        by_cases hqn : q <+: r ++ [name]
        · obtain rfl | hqr := List.prefix_concat_iff.mp hqn
          · rw [List.dropLast_concat] at hparent
            rw [if_neg fun hp => hapart (hp.trans (List.prefix_append r [name]))]
            exact isDir_iff.mp hparent
          · exact absurd hqr hq
        · rw [if_neg hqn] at h
          by_cases hpn : p <+: r ++ [name]
          · exact absurd (if_pos hpn) h
          · rw [if_neg hpn] at h
            rw [if_neg fun hp => hpn (hp.trans (List.prefix_append r [name]))]
            exact t.rooted r name h
    · rw [if_neg hm] at h ⊢
      exact t.rooted r name h

section Operations
variable {t : FileTree ν β} {p q r : List ν} {n : Node β}

theorem get_set (h : t.settable p = true) :
    (t.set p n).get q = if q = p then some n else t.get q := by
  simp [set, h]

theorem get_set_ne (h : q ≠ p) : (t.set p n).get q = t.get q :=
  if_neg fun hq => h hq.1

theorem get_del (h : t.isDir p = false) :
    (t.del p).get q = if q = p then none else t.get q := by
  simp [del, h]

theorem get_del_ne (h : q ≠ p) : (t.del p).get q = t.get q :=
  if_neg fun hq => h hq.1

theorem get_delBut {left : List ν → Bool} (h : ¬ p <+: q) : (t.delBut p left).get q = t.get q :=
  if_neg fun hq => h hq.2.1

/-- What is left is there. -/
theorem get_delBut_left {left : List ν → Bool} (h : left q = true) :
    (t.delBut p left).get q = t.get q := by
  by_cases hq : t.get q = none
  · simp [delBut, hq]
  · refine if_neg fun hdel => ?_
    have hleaves : t.leaves left q = true := by
      refine List.any_eq_true.mpr ⟨q, t.complete q hq, ?_⟩
      simp [h, has, Option.isSome_iff_ne_none, hq]
    simp [hleaves] at hdel

theorem get_delAll (hp : p ≠ []) (h : p <+: q) : (t.delAll p).get q = none := by
  simp [delAll, delBut, leaves, hp, h]

/-- What is moved stands where it was moved to. -/
theorem get_move_to (h : t.movable p q = true) : (t.move p q).get (q ++ r) = t.get (p ++ r) := by
  simp [move, h]

/-- Nothing stands where it was moved from. -/
theorem get_move_from (h : t.movable p q = true) (hq : ¬ q <+: r) (hp : p <+: r) :
    (t.move p q).get r = none := by
  simp [move, h, hq, hp]

theorem get_move_else (hq : ¬ q <+: r) (hp : ¬ p <+: r) : (t.move p q).get r = t.get r := by
  simp [move, hq, hp]

theorem fileAt_set_file {c : β} (h : t.settable p = true) :
    (t.set p (.file c)).fileAt q = if q = p then some c else t.fileAt q := by
  by_cases hq : q = p <;> simp [fileAt, get_set h, hq]

/-- FRAME: a new directory is no file, and was none. -/
theorem fileAt_set_dir (h : t.has p = false) : (t.set p .dir).fileAt q = t.fileAt q := by
  by_cases hq : q = p
  · subst hq
    unfold fileAt
    cases hset : t.settable q with
    | false => simp [set, hset]
    | true => simp [get_set hset, has_eq_false.mp h]
  · exact fileAt_congr (get_set_ne hq)

theorem fileAt_del (h : t.isDir p = false) :
    (t.del p).fileAt q = if q = p then none else t.fileAt q := by
  by_cases hq : q = p <;> simp [fileAt, get_del h, hq]

theorem mem_below : q ∈ t.below p ↔ p <+: q ∧ q ≠ p ∧ t.get q ≠ none := by
  unfold below
  rw [List.mem_filter]
  constructor
  · rintro ⟨-, h⟩
    simpa [Option.isSome_iff_ne_none, and_assoc] using h
  · rintro ⟨hp, hne, hget⟩
    exact ⟨t.complete q hget, by simp [hp, hne, Option.isSome_iff_ne_none, hget]⟩

/-- An empty directory has nothing below it. -/
theorem get_of_below_nil (h : t.below p = []) (hp : p <+: q) (hne : q ≠ p) : t.get q = none := by
  by_contra hget
  have hmem : q ∈ t.below p := mem_below.mpr ⟨hp, hne, hget⟩
  rw [h] at hmem
  cases hmem

end Operations

end FileTree

end Gamer.Lib
