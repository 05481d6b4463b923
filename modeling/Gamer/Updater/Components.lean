import Mathlib.Data.List.Basic
import Mathlib.Data.List.Lex
import Gamer.Updater.SemverGate

/-! Which version of a runtime component is used. Its directories are sorted by their names, two
    versions by precedence and everything else as texts, and the last one is taken:

        9.0.0 ──precedence──▶ 10.0.0 ──text──▶ 10.0.0.bak ──text──▶ 9.0.0

    A name that is no version and lies between two versions that the texts put the other way round
    closes a cycle, and then there is no last one.                                           -/

namespace Gamer.Updater
open Gamer.Lib Gamer.Lib.SemVer Gamer.Updater.Manifest

/-- What `read_dir` shows of a component's directory. -/
structure Entry where
  name : String
  isDir : Bool
  holdsExe : Bool
  deriving DecidableEq

/-- The comparison of two candidates. -/
def nameCmp (a b : String) : Ordering :=
  match parse a, parse b with
  | some sa, some sb =>
    if isLt sa sb then .lt else if isLt sb sa then .gt else textCmp a.toList b.toList
  | _, _ => textCmp a.toList b.toList

def candidates (base : List String) (exeName : String) (entries : List Entry) :
    List (String × List String) :=
  (entries.filter fun e => e.isDir && e.holdsExe).map fun e => (e.name, base ++ [e.name, exeName])

/-- `latest_component_exe`, with the entries as they are listed if the directory can be read. -/
def latestComponentExe (runtimeDir : List String) (id exeName : String)
    (entries : Option (List Entry)) : Option (List String) :=
  entries.bind fun entries =>
    let sorted := (candidates (runtimeDir ++ [id]) exeName entries).mergeSort fun a b =>
      nameCmp a.1 b.1 != .gt
    sorted.getLast?.map (·.2)

/-- The names of the directories that hold the executable. -/
def heldNames (entries : List Entry) : List String :=
  (entries.filter fun e => e.isDir && e.holdsExe).map (·.name)

/-! ### What is promised -/

/-- The comparison is a total order of these names. -/
structure TotalOrder (names : List String) : Prop where
  swap : ∀ a ∈ names, ∀ b ∈ names, nameCmp b a = (nameCmp a b).swap
  eq : ∀ a ∈ names, ∀ b ∈ names, nameCmp a b = .eq → a = b
  trans : ∀ a ∈ names, ∀ b ∈ names, ∀ c ∈ names,
    nameCmp a b = .lt → nameCmp b c = .lt → nameCmp a c = .lt

/-- The choice is well defined: the names are ordered, the listing does not matter, and no version
    of higher precedence is passed over for a version. -/
structure WellDefined (entries : List Entry) : Prop where
  order : TotalOrder (heldNames entries)
  listing : ∀ listed, listed.Perm entries → ∀ dir id exe,
    latestComponentExe dir id exe (some listed) = latestComponentExe dir id exe (some entries)
  highest : ∀ dir id exe name,
    latestComponentExe dir id exe (some entries) = some (dir ++ [id] ++ [name, exe]) →
    ∀ other ∈ heldNames entries, ∀ v w, Reads name.toList v → Reads other.toList w → ¬ v.Precedes w

/-- No name that is no version lies, as a text, between two versions that stand the other way
    round. -/
def Untangled (names : List String) : Prop :=
  ∀ a ∈ names, ∀ b ∈ names, ∀ other ∈ names, (parse a).isSome → (parse b).isSome →
    parse other = none → nameCmp a b = .lt →
      ¬ (b.toList < other.toList ∧ other.toList < a.toList)

/-- A version that is taken for newer than one of higher precedence is not the newest of all. -/
def Outdone (names : List String) : Prop :=
  ∀ a ∈ names, ∀ b ∈ names, ∀ v w, Reads a.toList v → Reads b.toList w → v.Precedes w →
    nameCmp b a = .lt → ∃ c ∈ names, nameCmp a c = .lt

/-! ### The comparison -/

section Order
variable {a b c : String}

theorem toList_injective (h : a.toList = b.toList) : a = b := String.toList_inj.mp h

theorem textCmp_swap (s t : List Char) : textCmp t s = (textCmp s t).swap := by
  rcases lt_trichotomy s t with h | rfl | h
  · rw [textCmp_lt.mpr h]
    cases hcmp : textCmp t s with
    | lt => exact absurd (textCmp_lt.mp hcmp) (lt_asymm h)
    | eq => exact absurd (textCmp_eq.mp hcmp) h.ne'
    | gt => rfl
  · rw [textCmp_eq.mpr rfl]
    rfl
  · rw [textCmp_lt.mpr h]
    cases hcmp : textCmp s t with
    | lt => exact absurd (textCmp_lt.mp hcmp) (lt_asymm h)
    | eq => exact absurd (textCmp_eq.mp hcmp) h.ne'
    | gt => rfl

/-- A name that is no version is compared as a text. -/
theorem nameCmp_text (h : parse a = none ∨ parse b = none) :
    nameCmp a b = textCmp a.toList b.toList := by
  unfold nameCmp
  rcases h with h | h
  · rw [h]
  · rw [h]
    cases parse a <;> rfl

/-- Two versions are compared by precedence first. -/
theorem nameCmp_lt {x y : Semver} (hx : parse a = some x) (hy : parse b = some y) :
    nameCmp a b = .lt ↔ (cut x.version).Precedes (cut y.version) ∨
      cut x.version = cut y.version ∧ a.toList < b.toList := by
  have hxy := isLt_iff (parse_eq_some hx).canonical (parse_eq_some hy).canonical
  have hyx := isLt_iff (parse_eq_some hy).canonical (parse_eq_some hx).canonical
  unfold nameCmp
  rw [hx, hy]
  dsimp only
  rw [← hxy, ← textCmp_lt]
  rcases trichotomous_of Version.Precedes (cut x.version) (cut y.version) with h | h | h
  · simp [hxy.mpr h]
  · have hnot : ¬ isLt x y = true := fun hlt => irrefl_of Version.Precedes _ (h ▸ hxy.mp hlt)
    have hnot' : ¬ isLt y x = true := fun hlt => irrefl_of Version.Precedes _ (h ▸ hyx.mp hlt)
    simp [hnot, hnot', h]
  · have hnot : ¬ isLt x y = true := fun hlt => asymm_of Version.Precedes (hxy.mp hlt) h
    have hne : cut x.version ≠ cut y.version := fun heq =>
      irrefl_of Version.Precedes _ (heq ▸ h)
    simp [hnot, hyx.mpr h, hne]

theorem nameCmp_swap (a b : String) : nameCmp b a = (nameCmp a b).swap := by
  unfold nameCmp
  cases hx : parse a with
  | none =>
    cases parse b with
    | none => exact textCmp_swap _ _
    | some y => exact textCmp_swap _ _
  | some x =>
    cases hy : parse b with
    | none => exact textCmp_swap _ _
    | some y =>
      have hxy := isLt_iff (parse_eq_some hx).canonical (parse_eq_some hy).canonical
      have hyx := isLt_iff (parse_eq_some hy).canonical (parse_eq_some hx).canonical
      dsimp only
      by_cases h : isLt x y = true
      · have hnot : ¬ isLt y x = true := fun hlt =>
          asymm_of Version.Precedes (hxy.mp h) (hyx.mp hlt)
        simp [h, hnot]
      · by_cases h' : isLt y x = true
        · simp [h, h']
        · simp only [h, h', Bool.false_eq_true, ↓reduceIte]
          exact textCmp_swap _ _

theorem nameCmp_eq (h : nameCmp a b = .eq) : a = b := by
  unfold nameCmp at h
  split at h
  · split_ifs at h
    exact toList_injective (textCmp_eq.mp h)
  · exact toList_injective (textCmp_eq.mp h)

theorem nameCmp_gt : nameCmp a b = .gt ↔ nameCmp b a = .lt := by
  rw [nameCmp_swap a b]
  cases nameCmp a b <;> simp

theorem nameCmp_self (a : String) : nameCmp a a = .eq := by
  have h := nameCmp_swap a a
  cases hcmp : nameCmp a a with
  | eq => rfl
  | lt => rw [hcmp] at h; cases h
  | gt => rw [hcmp] at h; cases h

end Order

/-! ### Mixtures -/

section Mixtures
variable {a b c : String}

/-- Versions among themselves are ordered. -/
theorem nameCmp_trans_semver (ha : (parse a).isSome) (hb : (parse b).isSome)
    (hc : (parse c).isSome) (hab : nameCmp a b = .lt) (hbc : nameCmp b c = .lt) :
    nameCmp a c = .lt := by
  obtain ⟨x, hx⟩ := Option.isSome_iff_exists.mp ha
  obtain ⟨y, hy⟩ := Option.isSome_iff_exists.mp hb
  obtain ⟨z, hz⟩ := Option.isSome_iff_exists.mp hc
  rw [nameCmp_lt hx hy] at hab
  rw [nameCmp_lt hy hz] at hbc
  rw [nameCmp_lt hx hz]
  rcases hab with hab | ⟨hab, htext⟩
  · rcases hbc with hbc | ⟨hbc, -⟩
    · exact .inl (trans_of Version.Precedes hab hbc)
    · exact .inl (hbc ▸ hab)
  · rcases hbc with hbc | ⟨hbc, htext'⟩
    · exact .inl (hab ▸ hbc)
    · exact .inr ⟨hab.trans hbc, lt_trans htext htext'⟩

theorem nameCmp_lt_text (h : parse a = none ∨ parse b = none) :
    nameCmp a b = .lt ↔ a.toList < b.toList := by
  rw [nameCmp_text h, textCmp_lt]

/-- What is not below is the same or above. -/
theorem nameCmp_not_lt (h : nameCmp a c ≠ .lt) (hne : a ≠ c) : nameCmp c a = .lt := by
  cases hcmp : nameCmp a c with
  | lt => exact absurd hcmp h
  | eq => exact absurd (nameCmp_eq hcmp) hne
  | gt => exact nameCmp_gt.mp hcmp

theorem ne_of_parse (ha : (parse a).isSome) (hc : parse c = none) : a ≠ c := by
  rintro rfl
  rw [hc] at ha
  cases ha

/-- RULE: the comparison is a total order exactly where no other name stands between two versions
    that the texts put the other way round. -/
theorem totalOrder_iff (names : List String) : TotalOrder names ↔ Untangled names := by
  constructor
  · rintro h a ha b hb other hother hpa hpb hpo hab ⟨hbo, hoa⟩
    have hlt := h.trans a ha b hb other hother hab ((nameCmp_lt_text (.inr hpo)).mpr hbo)
    exact lt_asymm hoa ((nameCmp_lt_text (.inr hpo)).mp hlt)
  · intro h
    refine ⟨fun a _ b _ => nameCmp_swap a b, fun a _ b _ => nameCmp_eq,
      fun a ha b hb c hc hab hbc => ?_⟩
    rcases Option.eq_none_or_eq_some (parse a) with hpa | ⟨x, hpa⟩
    · rw [nameCmp_lt_text (.inl hpa)] at hab ⊢
      rcases Option.eq_none_or_eq_some (parse b) with hpb | ⟨y, hpb⟩
      · exact lt_trans hab ((nameCmp_lt_text (.inl hpb)).mp hbc)
      · rcases Option.eq_none_or_eq_some (parse c) with hpc | ⟨z, hpc⟩
        · exact lt_trans hab ((nameCmp_lt_text (.inr hpc)).mp hbc)
        · -- b and c are versions, a is not: c may not lie before a
          by_contra hac
          have hne : a.toList ≠ c.toList := fun heq =>
            ne_of_parse (by rw [hpc]; rfl) hpa (toList_injective heq).symm
          exact h b hb c hc a ha (by rw [hpb]; rfl) (by rw [hpc]; rfl) hpa hbc
            ⟨lt_of_le_of_ne (not_lt.mp hac) hne.symm, hab⟩
    · have hsa : (parse a).isSome := by
        rw [hpa]
        rfl
      rcases Option.eq_none_or_eq_some (parse b) with hpb | ⟨y, hpb⟩
      · rw [nameCmp_lt_text (.inr hpb)] at hab
        rw [nameCmp_lt_text (.inl hpb)] at hbc
        rcases Option.eq_none_or_eq_some (parse c) with hpc | ⟨z, hpc⟩
        · exact (nameCmp_lt_text (.inr hpc)).mpr (lt_trans hab hbc)
        · -- a and c are versions, b is not, and lies between them as a text
          by_contra hac
          have hne : a ≠ c := by
            rintro rfl
            exact lt_asymm hab hbc
          exact h c hc a ha b hb (by rw [hpc]; rfl) hsa hpb (nameCmp_not_lt hac hne) ⟨hab, hbc⟩
      · have hsb : (parse b).isSome := by
          rw [hpb]
          rfl
        rcases Option.eq_none_or_eq_some (parse c) with hpc | ⟨z, hpc⟩
        · rw [nameCmp_lt_text (.inr hpc)] at hbc ⊢
          by_contra hac
          have hne : a.toList ≠ c.toList := fun heq =>
            ne_of_parse hsa hpc (toList_injective heq)
          exact h a ha b hb c hc hsa hsb hpc hab
            ⟨hbc, lt_of_le_of_ne (not_lt.mp hac) hne.symm⟩
        · exact nameCmp_trans_semver hsa hsb (by rw [hpc]; rfl) hab hbc

end Mixtures

/-! ### The last one -/

section Choice
variable {names : List String}

/-- `sort_by` of names. -/
def sortNames (names : List String) : List String := names.mergeSort fun a b => nameCmp a b != .gt

theorem ne_gt_trans (h : TotalOrder names) {a b c : String} (ha : a ∈ names) (hb : b ∈ names)
    (hc : c ∈ names) (hab : nameCmp a b ≠ .gt) (hbc : nameCmp b c ≠ .gt) : nameCmp a c ≠ .gt := by
  cases hab' : nameCmp a b with
  | gt => exact absurd hab' hab
  | eq =>
    obtain rfl := nameCmp_eq hab'
    exact hbc
  | lt =>
    cases hbc' : nameCmp b c with
    | gt => exact absurd hbc' hbc
    | eq =>
      obtain rfl := nameCmp_eq hbc'
      exact hab
    | lt =>
      rw [h.trans a ha b hb c hc hab' hbc']
      simp

/-- Where the comparison is a total order, sorting sorts. -/
theorem sortNames_sorted (h : TotalOrder names) :
    (sortNames names).Pairwise fun a b => nameCmp a b ≠ .gt := by
  have hmap := List.map_mergeSort (r := fun a b : { x // x ∈ names } => nameCmp a.1 b.1 != .gt)
    (s := fun a b => nameCmp a b != .gt) (f := Subtype.val) (l := names.attach) fun _ _ _ _ => rfl
  rw [List.attach_map_subtype_val] at hmap
  rw [sortNames, ← hmap, List.pairwise_map]
  refine (List.pairwise_mergeSort ?_ ?_ _).imp fun hle => by simpa using hle
  · intro a b c hab hbc
    simp only [bne_iff_ne] at hab hbc ⊢
    exact ne_gt_trans h a.2 b.2 c.2 hab hbc
  · intro a b
    cases hcmp : nameCmp a.1 b.1 with
    | lt => rfl
    | eq => rfl
    | gt =>
      rw [nameCmp_gt.mp hcmp]
      rfl

/-- The last one is above all others. -/
theorem getLast_sortNames (h : TotalOrder names) {best : String}
    (hbest : (sortNames names).getLast? = some best) :
    best ∈ names ∧ ∀ a ∈ names, nameCmp a best ≠ .gt := by
  have hsorted := sortNames_sorted h
  have hmem : ∀ a, a ∈ sortNames names ↔ a ∈ names := fun a => List.mem_mergeSort
  obtain ⟨front, hfront⟩ := List.getLast?_eq_some_iff.mp hbest
  rw [hfront] at hsorted hmem
  refine ⟨(hmem best).mp (by simp), fun a ha => ?_⟩
  rcases List.mem_append.mp ((hmem a).mpr ha) with hin | hin
  · exact (List.pairwise_append.mp hsorted).2.2 a hin best (by simp)
  · rw [List.mem_singleton.mp hin, nameCmp_self]
    simp

/-- However the names are listed, sorting them gives the same. -/
theorem sortNames_perm (h : TotalOrder names) {listed : List String} (hperm : listed.Perm names) :
    sortNames listed = sortNames names := by
  have hlisted : TotalOrder listed :=
    ⟨fun a _ b _ => nameCmp_swap a b, fun a _ b _ => nameCmp_eq, fun a ha b hb c hc =>
      h.trans a (hperm.mem_iff.mp ha) b (hperm.mem_iff.mp hb) c (hperm.mem_iff.mp hc)⟩
  refine List.Perm.eq_of_pairwise (fun a b _ _ hab hba => ?_) (sortNames_sorted hlisted)
    (sortNames_sorted h) (((List.mergeSort_perm _ _).trans hperm).trans
      (List.mergeSort_perm _ _).symm)
  cases hcmp : nameCmp a b with
  | lt => exact absurd (nameCmp_gt.mpr hcmp) hba
  | eq => exact nameCmp_eq hcmp
  | gt => exact absurd hcmp hab

/-- The executable is the one below the last name. -/
theorem latestComponentExe_eq (dir : List String) (id exe : String) (entries : List Entry) :
    latestComponentExe dir id exe (some entries) =
      (sortNames (heldNames entries)).getLast?.map fun name => dir ++ [id] ++ [name, exe] := by
  have hcandidates : candidates (dir ++ [id]) exe entries =
      (heldNames entries).map fun name => (name, dir ++ [id] ++ [name, exe]) := by
    rw [candidates, heldNames, List.map_map]
    rfl
  have hmap := List.map_mergeSort (r := fun a b => nameCmp a b != .gt)
    (s := fun a b : String × List String => nameCmp a.1 b.1 != .gt)
    (f := fun name => (name, dir ++ [id] ++ [name, exe])) (l := heldNames entries)
    fun _ _ _ _ => rfl
  rw [latestComponentExe, Option.bind_some, hcandidates, ← hmap]
  dsimp only
  rw [List.getLast?_map, Option.map_map]
  rfl

theorem sortNames_ne_nil {a : String} (ha : a ∈ names) :
    ∃ best, (sortNames names).getLast? = some best := by
  cases hlast : (sortNames names).getLast? with
  | some best => exact ⟨best, rfl⟩
  | none =>
    have hmem : a ∈ sortNames names := List.mem_mergeSort.mpr ha
    rw [List.getLast?_eq_none_iff.mp hlast] at hmem
    cases hmem

end Choice

/-! ### The promise -/

/-- RULE: the choice is well defined exactly where no name that is no version stands between two
    versions that the texts put the other way round, and where a version that cutting its numbers
    to `u64` puts above one of higher precedence is itself outdone. -/
theorem wellDefined_iff (entries : List Entry) :
    WellDefined entries ↔ Untangled (heldNames entries) ∧ Outdone (heldNames entries) := by
  constructor
  · intro h
    refine ⟨(totalOrder_iff _).mp h.order, fun a ha b hb v w hv hw hprecedes hbelow => ?_⟩
    obtain ⟨best, hbest⟩ := sortNames_ne_nil ha
    obtain ⟨hin, hmax⟩ := getLast_sortNames h.order hbest
    by_contra hnone
    have heq : a = best := by
      cases hcmp : nameCmp a best with
      | lt => exact absurd ⟨best, hin, hcmp⟩ hnone
      | eq => exact nameCmp_eq hcmp
      | gt => exact absurd hcmp (hmax a ha)
    refine h.highest [] "" "" a ?_ b hb v w hv hw hprecedes
    rw [latestComponentExe_eq, hbest, heq]
    rfl
  · rintro ⟨huntangled, houtdone⟩
    have horder := (totalOrder_iff _).mpr huntangled
    refine ⟨horder, fun listed hperm dir id exe => ?_, fun dir id exe name hname other hother v w
      hv hw hprecedes => ?_⟩
    · have hheld : (heldNames listed).Perm (heldNames entries) := (hperm.filter _).map _
      rw [latestComponentExe_eq, latestComponentExe_eq, sortNames_perm horder hheld]
    · rw [latestComponentExe_eq, Option.map_eq_some_iff] at hname
      obtain ⟨best, hbest, hpath⟩ := hname
      have heq : best = name := by simpa using hpath
      subst heq
      obtain ⟨hin, hmax⟩ := getLast_sortNames horder hbest
      have hne : nameCmp other best = .lt := by
        cases hcmp : nameCmp other best with
        | lt => rfl
        | eq =>
          obtain rfl := nameCmp_eq hcmp
          obtain rfl := Reads.unique hv hw
          exact absurd hprecedes (irrefl_of Version.Precedes v)
        | gt => exact absurd hcmp (hmax other hother)
      obtain ⟨c, hc, habove⟩ := houtdone best hin other hother v w hv hw hprecedes hne
      exact hmax c hc (nameCmp_gt.mpr habove)

/-- Two versions, and a copy of the newer one that somebody has put aside. -/
def backedUp : List Entry :=
  [⟨"9.0.0", true, true⟩, ⟨"10.0.0", true, true⟩, ⟨"10.0.0.bak", true, true⟩]

theorem backedUp_not_wellDefined : ¬ WellDefined backedUp := by
  intro h
  have hlt := h.order.trans "9.0.0" (by decide) "10.0.0" (by decide) "10.0.0.bak" (by decide)
    (by decide +kernel) (by decide +kernel)
  exact absurd hlt (by decide +kernel)

end Gamer.Updater
