import Gamer.Updater.Extracted
import Gamer.Updater.Repair

/-! Where the directories of a repair are: each in a directory of the root of its own, so that none
    is in another, and none in the cache. -/

namespace Gamer.Updater.Repair
open Gamer.Lib Gamer.Lib.Prog Gamer.Updater.Files Gamer.Updater.Archive Gamer.Updater.PathSafe

/-! ### Names put together -/

theorem splitOn_append_left {x l seg : List Char} (hx : '/' ∉ x)
    (h : seg ∈ (x ++ l).splitOn '/') : seg ∈ l.splitOn '/' ∨ ∃ t, seg = x ++ t := by
  by_cases hl : '/' ∈ l
  · obtain ⟨first, rest, rfl, hfirst⟩ := List.eq_append_cons_of_mem hl
    rw [← List.append_assoc, List.splitOn_append_cons_self,
      List.splitOn_eq_singleton (by simp [hx, hfirst])] at h
    rw [List.splitOn_append_cons_self]
    rcases List.mem_append.mp h with h | h
    · exact .inr ⟨first, List.mem_singleton.mp h⟩
    · exact .inl (List.mem_append_right _ h)
  · rw [List.splitOn_eq_singleton (by simp [hx, hl])] at h
    exact .inr ⟨l, List.mem_singleton.mp h⟩

theorem splitOn_append_right {l y seg : List Char} (hy : '/' ∉ y)
    (h : seg ∈ (l ++ y).splitOn '/') : seg ∈ l.splitOn '/' ∨ ∃ t, seg = t ++ y := by
  by_cases hl : '/' ∈ l
  · obtain ⟨last, rest, hsplit, hlast⟩ := List.eq_append_cons_of_mem (List.mem_reverse.mpr hl)
    obtain rfl : l = rest.reverse ++ '/' :: last.reverse := by
      rw [← List.reverse_reverse l, hsplit]
      simp
    have hend : '/' ∉ last.reverse ++ y := by simp [hlast, hy]
    rw [List.append_assoc, List.cons_append, List.splitOn_append_cons_self,
      List.splitOn_eq_singleton hend] at h
    rw [List.splitOn_append_cons_self]
    rcases List.mem_append.mp h with h | h
    · exact .inl (List.mem_append_left _ h)
    · exact .inr ⟨last.reverse, List.mem_singleton.mp h⟩
  · rw [List.splitOn_eq_singleton (by simp [hl, hy])] at h
    exact .inr ⟨l, List.mem_singleton.mp h⟩

/-- A part of a name that is plain. -/
structure Plain (s : List Char) : Prop where
  nonempty : s ≠ []
  chars : ∀ c ∈ s, plainChar c = true

theorem Plain.notMem {s : List Char} (h : Plain s) {c : Char} (hc : plainChar c = false) :
    c ∉ s := fun hmem => by simp [h.chars c hmem] at hc

/-- No run of dots has a plain part. -/
theorem Plain.not_dots {s a b : List Char} (h : Plain s) :
    a ++ s ++ b ≠ [] ∧ a ++ s ++ b ≠ ['.'] ∧ a ++ s ++ b ≠ ['.', '.'] := by
  obtain ⟨c, hc⟩ := List.exists_mem_of_ne_nil s h.nonempty
  have hmem : c ∈ a ++ s ++ b := by simp [hc]
  have hdot : c ≠ '.' := fun heq => by simpa [heq, plainChar] using h.chars c hc
  refine ⟨fun heq => ?_, fun heq => ?_, fun heq => ?_⟩ <;> rw [heq] at hmem <;>
    simp [hdot] at hmem

theorem Plain.safe {s : String} (h : Plain s.toList) : Safe s := by
  refine ⟨h.nonempty, h.notMem (by decide), h.notMem (by decide), fun hhead => ?_, ?_⟩
  · exact h.notMem (c := '/') (by decide) (List.mem_of_mem_head? hhead)
  · intro seg hseg
    rw [List.splitOn_eq_singleton (h.notMem (by decide)), List.mem_singleton] at hseg
    subst hseg
    simpa using h.not_dots (a := []) (b := [])

/-- A safe path is safe with a plain part before and after it. -/
theorem safe_decorated {x v y : String} (hx : Plain x.toList) (hv : Safe v)
    (hy : Plain y.toList) : Safe (x ++ v ++ y) := by
  have hnot : ∀ c, plainChar c = false → c ∉ v.toList → c ∉ (x ++ v ++ y).toList := by
    intro c hc hmem
    simp [hx.notMem hc, hy.notMem hc, hmem]
  refine ⟨?_, hnot _ (by decide) hv.backslash, hnot _ (by decide) hv.colon, ?_, ?_⟩
  · rw [String.toList_append, String.toList_append]
    exact fun h => hx.nonempty (List.append_eq_nil_iff.mp (List.append_eq_nil_iff.mp h).1).1
  · obtain ⟨c, rest, hcons⟩ := List.exists_cons_of_ne_nil hx.nonempty
    have hne : c ≠ '/' := fun heq => hx.notMem (c := '/') (by decide) (by simp [hcons, heq])
    simp [hcons, hne]
  · intro seg hseg
    rw [String.toList_append, String.toList_append] at hseg
    rcases splitOn_append_right (hy.notMem (by decide)) hseg with hseg | ⟨t, rfl⟩
    · rcases splitOn_append_left (hx.notMem (by decide)) hseg with hseg | ⟨t, rfl⟩
      · exact hv.segments seg hseg
      · simpa using hx.not_dots (a := []) (b := t)
    · simpa using hy.not_dots (a := t) (b := [])

theorem plain_append {a b : List Char} (ha : Plain a) (hb : ∀ c ∈ b, plainChar c = true) :
    Plain (a ++ b) := by
  refine ⟨by simp [ha.nonempty], fun c hc => ?_⟩
  rcases List.mem_append.mp hc with hc | hc
  · exact ha.chars c hc
  · exact hb c hc

theorem plain_stamp (n : Nat) : Plain ("-" ++ toString n).toList := by
  rw [String.toList_append]
  refine plain_append ⟨by decide, List.all_eq_true.mp (by decide)⟩ fun c hc => ?_
  have hdigit : c.isDigit = true := by
    refine Nat.isDigit_of_mem_toDigits (b := 10) (n := n) (by decide) (by decide) ?_
    simpa using hc
  simp [plainChar, hdigit]

/-! ### Directories of the root -/

namespace Layout
variable {l : Layout} {a b : String}

/-- What is in one directory of the root is neither in another nor above it. -/
theorem not_prefix (h : l.fold a ≠ l.fold b) (x y : Path) : ¬ l.top a ++ x <+: l.top b ++ y := by
  unfold top
  rw [List.append_assoc, List.append_assoc, List.prefix_append_right_inj, List.singleton_append,
    List.singleton_append, List.cons_prefix_cons]
  exact fun hpre => h hpre.1

theorem names_ne (l : Layout) :
    (l.fold "cache" ≠ l.fold "quarantine" ∧ l.fold "cache" ≠ l.fold "runtime" ∧
      l.fold "cache" ≠ l.fold "staging") ∧
    (l.fold "quarantine" ≠ l.fold "runtime" ∧ l.fold "quarantine" ≠ l.fold "staging") ∧
    l.fold "runtime" ≠ l.fold "staging" := by
  simpa using l.apart

end Layout

namespace Call
variable (c : Call)

theorem dir_eq : ∃ r, r ≠ [] ∧ c.dir = c.layout.top "runtime" ++ r := by
  have hid : Safe c.spec.id := Plain.safe ⟨c.spec.idNonempty, c.spec.plainId⟩
  have hversion := safe_of_none c.spec.safeVersion
  refine ⟨(components c.spec.id).map c.layout.fold ++ (components c.spec.version).map c.layout.fold,
    by simp [components_ne_nil hid], ?_⟩
  rw [dir, Layout.componentDir, join_safe hid, join_safe hversion, List.append_assoc]

theorem staging_eq : ∃ r, r ≠ [] ∧ c.staging = c.layout.stagingDir ++ r := by
  have hname : Safe ("repair-" ++ c.spec.id ++ "-" ++ c.spec.version ++ "-" ++
      toString c.stagedAt) := by
    rw [String.append_assoc]
    refine safe_decorated ?_ (safe_of_none c.spec.safeVersion) (plain_stamp _)
    rw [String.toList_append, String.toList_append]
    exact plain_append (plain_append ⟨by decide, List.all_eq_true.mp (by decide)⟩ c.spec.plainId)
      (List.all_eq_true.mp (by decide))
  exact ⟨_, by simpa using components_ne_nil hname, join_safe hname⟩

theorem quarantined_eq : ∃ r, r ≠ [] ∧ c.quarantined = c.layout.quarantineDir ++ r := by
  have hname : Safe (c.spec.id ++ "-" ++ c.spec.version ++ "-" ++ toString c.quarantinedAt) := by
    rw [String.append_assoc]
    refine safe_decorated ?_ (safe_of_none c.spec.safeVersion) (plain_stamp _)
    rw [String.toList_append]
    exact plain_append ⟨c.spec.idNonempty, c.spec.plainId⟩ (List.all_eq_true.mp (by decide))
  exact ⟨_, by simpa using components_ne_nil hname, join_safe hname⟩

/-- The directories of a call, and where none of them leads to another. -/
structure Apart : Prop where
  dirStaging : ∀ x y, ¬ c.dir ++ x <+: c.staging ++ y
  stagingDir : ∀ x y, ¬ c.staging ++ x <+: c.dir ++ y
  dirQuarantined : ∀ x y, ¬ c.dir ++ x <+: c.quarantined ++ y
  quarantinedDir : ∀ x y, ¬ c.quarantined ++ x <+: c.dir ++ y
  stagingQuarantined : ∀ x y, ¬ c.staging ++ x <+: c.quarantined ++ y
  quarantinedStaging : ∀ x y, ¬ c.quarantined ++ x <+: c.staging ++ y
  dirCache : ∀ x y, ¬ c.dir ++ x <+: c.layout.top "cache" ++ y
  stagingCache : ∀ x y, ¬ c.staging ++ x <+: c.layout.top "cache" ++ y

theorem apart : c.Apart := by
  obtain ⟨d, -, hd⟩ := c.dir_eq
  obtain ⟨s, -, hs⟩ := c.staging_eq
  obtain ⟨q, -, hq⟩ := c.quarantined_eq
  obtain ⟨⟨-, hcr, hcs⟩, ⟨hqr, hqs⟩, hrs⟩ := c.layout.names_ne
  rw [Layout.stagingDir] at hs
  rw [Layout.quarantineDir] at hq
  constructor <;> intro x y <;> simp only [hd, hs, hq, List.append_assoc] <;>
    apply Layout.not_prefix
  · exact hrs
  · exact hrs.symm
  · exact hqr.symm
  · exact hqr
  · exact hqs.symm
  · exact hqs
  · exact hcr.symm
  · exact hcs.symm

end Call

end Gamer.Updater.Repair
