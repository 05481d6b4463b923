import Mathlib.Data.List.AList

/-! Finite maps with at most one value per key, the shape of every `HashMap` the server keeps
    behind a mutex and of every SQL table with a primary key. The carrier is Mathlib's `AList`,
    so that the keys are distinct by construction; what is added here is the read-over-write
    rules in `if` form, which is how the invariants of the maps are proved. -/

namespace Gamer.Lib

/-- A finite map from `κ` to `ν`. -/
abbrev Table (κ ν : Type) := AList (fun _ : κ => ν)

namespace Table
variable {κ ν : Type} [DecidableEq κ]

/-- The value stored under `k`. -/
def get (t : Table κ ν) (k : κ) : Option ν := t.lookup k

/-- Store `v` under `k`, replacing what was there. -/
def set (t : Table κ ν) (k : κ) (v : ν) : Table κ ν := t.insert k v

/-- Remove `k`. -/
def del (t : Table κ ν) (k : κ) : Table κ ν := t.erase k

/-- Apply `f` to the value under `k`, if there is one. -/
def modify (t : Table κ ν) (k : κ) (f : ν → ν) : Table κ ν :=
  match t.get k with
  | some v => t.set k (f v)
  | none => t

/-- Apply `f` to every value: an `UPDATE` over all rows. -/
def map (t : Table κ ν) (f : ν → ν) : Table κ ν :=
  ⟨t.entries.map fun e => ⟨e.1, f e.2⟩, by
    have hkeys : (t.entries.map fun e => (⟨e.1, f e.2⟩ : Sigma fun _ : κ => ν)).keys =
        t.entries.keys := by
      simp [List.keys, List.map_map, Function.comp_def]
    rw [List.NodupKeys, hkeys]
    exact t.nodupKeys⟩

/-- Keep the entries `p` holds of. -/
def filter (t : Table κ ν) (p : κ → ν → Bool) : Table κ ν :=
  ⟨t.entries.filter fun e => p e.1 e.2, t.nodupKeys.sublist List.filter_sublist⟩

/-- No key is stored. -/
def isEmpty (t : Table κ ν) : Bool := t.entries.isEmpty

/-- The stored values, in no particular order. -/
def values (t : Table κ ν) : List ν := t.entries.map (·.2)

@[simp] theorem get_empty (k : κ) : get (∅ : Table κ ν) k = none := rfl

theorem get_set (t : Table κ ν) (k k' : κ) (v : ν) :
    (t.set k v).get k' = if k' = k then some v else t.get k' := by
  by_cases h : k' = k
  · subst h; simp [get, set]
  · simp [get, set, h, AList.lookup_insert_ne]

@[simp] theorem get_set_self (t : Table κ ν) (k : κ) (v : ν) : (t.set k v).get k = some v := by
  simp [get_set]

theorem get_set_ne {k k' : κ} (h : k' ≠ k) (t : Table κ ν) (v : ν) :
    (t.set k v).get k' = t.get k' := by
  simp [get_set, h]

theorem get_del (t : Table κ ν) (k k' : κ) :
    (t.del k).get k' = if k' = k then none else t.get k' := by
  by_cases h : k' = k
  · subst h; simp [get, del]
  · simp [get, del, h, AList.lookup_erase_ne]

/-- Storing one entry for each element of a list without repeated keys. -/
theorem get_foldl_set {α : Type} (key : α → κ) (val : α → ν) {k : κ} {v : ν} :
    ∀ (l : List α) (t : Table κ ν), (l.map key).Nodup →
      ((l.foldl (fun t a => t.set (key a) (val a)) t).get k = some v ↔
        (∃ a ∈ l, key a = k ∧ val a = v) ∨ (∀ a ∈ l, key a ≠ k) ∧ t.get k = some v)
  | [], t, _ => by simp
  | a :: l, t, hnodup => by
    obtain ⟨ha, hl⟩ := List.nodup_cons.mp hnodup
    rw [List.foldl_cons, get_foldl_set key val l _ hl, get_set]
    by_cases hk : k = key a
    · subst hk
      have hnone : ∀ b ∈ l, key b ≠ key a := fun b hb heq =>
        ha (heq ▸ List.mem_map_of_mem (f := key) hb)
      constructor
      · rintro (⟨b, hb, hkey, _⟩ | ⟨_, hval⟩)
        · exact absurd hkey (hnone b hb)
        · rw [if_pos rfl] at hval
          exact .inl ⟨a, List.mem_cons_self, rfl, Option.some.inj hval⟩
      · rintro (⟨b, hb, hkey, hval⟩ | ⟨hall, _⟩)
        · rcases List.mem_cons.mp hb with rfl | hb
          · exact .inr ⟨hnone, by rw [if_pos rfl, hval]⟩
          · exact absurd hkey (hnone b hb)
        · exact absurd rfl (hall a List.mem_cons_self)
    · rw [if_neg hk]
      constructor
      · rintro (⟨b, hb, hkey, hval⟩ | ⟨hall, ht⟩)
        · exact .inl ⟨b, List.mem_cons_of_mem _ hb, hkey, hval⟩
        · exact .inr ⟨List.forall_mem_cons.mpr ⟨fun h => hk h.symm, hall⟩, ht⟩
      · rintro (⟨b, hb, hkey, hval⟩ | ⟨hall, ht⟩)
        · rcases List.mem_cons.mp hb with rfl | hb
          · exact absurd hkey.symm hk
          · exact .inl ⟨b, hb, hkey, hval⟩
        · exact .inr ⟨(List.forall_mem_cons.mp hall).2, ht⟩

theorem get_modify (t : Table κ ν) (k k' : κ) (f : ν → ν) :
    (t.modify k f).get k' = if k' = k then (t.get k).map f else t.get k' := by
  unfold modify
  cases hk : t.get k with
  | none =>
    by_cases h : k' = k
    · subst h; simp [hk]
    · simp [h]
  | some v => simp [get_set]

theorem get_map (t : Table κ ν) (f : ν → ν) (k : κ) : (t.map f).get k = (t.get k).map f := by
  have hrows : ∀ entries : List (Sigma fun _ : κ => ν),
      List.dlookup k (entries.map fun e => (⟨e.1, f e.2⟩ : Sigma fun _ : κ => ν)) =
        Option.map f (List.dlookup k entries) := by
    intro entries
    induction entries with
    | nil => rfl
    | cons e entries ih =>
      obtain ⟨k', v⟩ := e
      by_cases hk : k = k'
      · subst hk; simp
      · have hskip : ∀ (v : ν) (rows : List (Sigma fun _ : κ => ν)),
            List.dlookup k (⟨k', v⟩ :: rows) = List.dlookup k rows := fun v rows =>
          List.dlookup_cons_ne (β := fun _ => ν) rows ⟨k', v⟩ hk
        rw [List.map_cons, hskip, hskip, ih]
  exact hrows t.entries

theorem get_filter_eq_some {t : Table κ ν} {p : κ → ν → Bool} {k : κ} {v : ν} :
    (t.filter p).get k = some v ↔ t.get k = some v ∧ p k v = true := by
  have hmem : ∀ t : Table κ ν, t.get k = some v ↔ Sigma.mk k v ∈ t.entries := fun t =>
    AList.mem_lookup_iff
  rw [hmem, hmem]
  exact List.mem_filter

theorem get_eq_none_of_isEmpty {t : Table κ ν} (h : t.isEmpty = true) (k : κ) :
    t.get k = none := by
  have hnil : t.entries = [] := by simpa [isEmpty] using h
  simp [get, AList.lookup, hnil]

theorem eq_empty_of_get {t : Table κ ν} (h : ∀ k, t.get k = none) : t = ∅ := by
  refine AList.ext (List.eq_nil_iff_forall_not_mem.mpr ?_)
  rintro ⟨k, v⟩ hmem
  have hv : t.get k = some v := AList.mem_lookup_iff.mpr hmem
  rw [h k] at hv
  cases hv

/-- Storing puts the entry first and removes the old one. -/
theorem entries_set (t : Table κ ν) (k : κ) (v : ν) :
    (t.set k v).entries = ⟨k, v⟩ :: (t.del k).entries := rfl

/-- The entry under `k`, and all the others. -/
theorem entries_perm {t : Table κ ν} {k : κ} {v : ν} (h : t.get k = some v) :
    t.entries.Perm (⟨k, v⟩ :: (t.del k).entries) := by
  have hrows : ∀ rows : List (Sigma fun _ : κ => ν), List.dlookup k rows = some v →
      rows.Perm (⟨k, v⟩ :: rows.kerase k) := by
    intro rows
    induction rows with
    | nil => simp
    | cons row rows ih =>
      obtain ⟨k', v'⟩ := row
      by_cases hk : k = k'
      · subst hk
        rintro hv
        rw [List.dlookup_cons_eq] at hv
        rw [Option.some.inj hv]
        exact List.Perm.of_eq (by simp)
      · rintro hv
        rw [List.dlookup_cons_ne (β := fun _ => ν) rows ⟨k', v'⟩ hk] at hv
        rw [List.kerase_cons_ne hk]
        exact ((ih hv).cons _).trans (List.Perm.swap ..)
  exact hrows t.entries h

theorem del_of_get_none {t : Table κ ν} {k : κ} (h : t.get k = none) :
    (t.del k).entries = t.entries :=
  List.kerase_of_notMem_keys (List.dlookup_eq_none.mp h)

theorem mem_values_of_get {t : Table κ ν} {k : κ} {v : ν} (h : t.get k = some v) :
    v ∈ t.values := by
  have hmem : Sigma.mk k v ∈ t.entries := AList.mem_lookup_iff.mp h
  exact List.mem_map.mpr ⟨⟨k, v⟩, hmem, rfl⟩

theorem get_of_mem_values {t : Table κ ν} {v : ν} (h : v ∈ t.values) :
    ∃ k, t.get k = some v := by
  obtain ⟨⟨k, w⟩, hmem, rfl⟩ := List.mem_map.mp h
  exact ⟨k, AList.mem_lookup_iff.mpr hmem⟩

end Table

end Gamer.Lib
