import Gamer.Packages.Library

/-! The media after an import that goes through. The package's references are those of the archive's
    entries, every entry with bytes has its content in the library, and what was there keeps its
    content and the references of others:

        entry with bytes    ──▶ its id, or another if its id has other content
        entry without       ──▶ its id, if its id has this content                         -/

namespace Gamer.Packages
open Gamer.Lib Gamer.Lib.Prog

/-- No character of an id is white space. -/
def Platform.Plain (p : Platform) : Prop := ∀ c, isScopeChar c = true → p.whitespace c = false

section
variable {Manifest : Type} (p : Platform) (f : Formats Manifest) (packageId : String)
  (staged : Folder)

/-- The reference that an entry registers. -/
def registered (e : MediaIndexEntry) : MediaRef := normalizeRef p (entryRef p packageId e)

/-- The same item, up to the package's references. -/
structure SameBut (m₀ m : MediaMetadata) : Prop where
  fields : m = { m₀ with refs := m.refs }
  foreign : foreignRefs packageId m.refs = foreignRefs packageId m₀.refs

/-- The entry's content is in the library, and has its reference. -/
structure HeldAs (e : MediaIndexEntry) (w : World) (id : String) (m : MediaMetadata) : Prop where
  read : w.readMetadata f id = some m
  content : asciiLower m.sha256 = asciiLower e.sha256
  attached : registered p packageId e ∈ m.refs
  place : id = e.id ∨ ∃ m', w.readMetadata f e.id = some m' ∧
    asciiLower m'.sha256 ≠ asciiLower e.sha256

/-- The entry's item, if it was there with this content, has the reference. -/
def Attached (w₀ : World) (e : MediaIndexEntry) (w : World) : Prop :=
  ∀ m₀, w₀.readMetadata f e.id = some m₀ → asciiLower m₀.sha256 = asciiLower e.sha256 →
    ∃ m, w.readMetadata f e.id = some m ∧ registered p packageId e ∈ m.refs

/-- INVARIANT: what the library has after some of the entries. -/
structure Ledger (w₀ : World) (seen : List MediaIndexEntry) (w : World) : Prop where
  sound : w.Sound f
  kept : ∀ id m₀, w₀.readMetadata f id = some m₀ →
    ∃ m, w.readMetadata f id = some m ∧ SameBut packageId m₀ m
  fresh : ∀ id item, w₀.media.get id = none → w.media.get id = some item →
    ∃ m, w.readMetadata f id = some m ∧ staged (mediaFile m.sha256) = some item.original
  owned : ∀ id m ref, w.readMetadata f id = some m → ref ∈ m.refs → ref.packageId = packageId →
    ∃ e ∈ seen, ref = registered p packageId e
  held : ∀ e ∈ seen, e.included = true → ∃ id m, HeldAs p f packageId e w id m
  attached : ∀ e ∈ seen, e.included = false → Attached p f packageId w₀ e w

end

variable {Manifest : Type} {p : Platform} {f : Formats Manifest} {packageId : String}
  {staged : Folder} {w₀ : World} {seen : List MediaIndexEntry} {e : MediaIndexEntry}

/-! ### One more entry -/

theorem trim_eq_self {s : List Char} (h : ∀ c ∈ s, p.whitespace c = false) : trim p s = s := by
  have hdrop : ∀ t : List Char, (∀ c ∈ t, p.whitespace c = false) → t.dropWhile p.whitespace = t := by
    rintro (_ | ⟨c, t⟩) ht
    · rfl
    · rw [List.dropWhile_cons_of_neg (by simp [ht c List.mem_cons_self])]
  rw [trim, hdrop s h, hdrop _ fun c hc => h c (List.mem_reverse.mp hc), List.reverse_reverse]

/-- A valid id has characters of ids only. -/
theorem scopeId_chars {kind value : String} (h : validateScopeId kind value = .ok ()) :
    ∀ c ∈ value.toList, isScopeChar c = true := by
  intro c hc
  unfold validateScopeId at h
  split at h
  · cases h
  · rename_i first rest hvalue
    rw [hvalue] at hc
    split_ifs at h with hfirst hrest
    rcases List.mem_cons.mp hc with rfl | hc
    · simp only [Bool.not_eq_true', Bool.not_eq_false] at hfirst
      rcases Bool.or_eq_true_iff.mp hfirst with hlower | hdigit
      · simp [isScopeChar, hlower]
      · simp [isScopeChar, hdigit]
    · simp only [Bool.not_eq_true', Bool.not_eq_false] at hrest
      exact List.all_eq_true.mp hrest c hc

/-- A valid id has no white space to trim. -/
theorem trim_scopeId (hp : p.Plain) {kind value : String}
    (h : validateScopeId kind value = .ok ()) : String.ofList (trim p value.toList) = value := by
  rw [trim_eq_self fun c hc => hp c (scopeId_chars h c hc), String.ofList_toList]

theorem registered_packageId (hp : p.Plain) {kind : String}
    (h : validateScopeId kind packageId = .ok ()) :
    (registered p packageId e).packageId = packageId :=
  trim_scopeId hp h

/-- The item has one more reference, if it does not have it. -/
structure More (p : Platform) (f : Formats Manifest) (packageId : String) (e : MediaIndexEntry)
    (w w' : World) (id : String) (m : MediaMetadata) : Prop where
  before : w.readMetadata f id = some m
  after : w'.readMetadata f id = some { m with refs := m.refs ++ [registered p packageId e] }
  original : ∀ item', w'.media.get id = some item' →
    ∃ item, w.media.get id = some item ∧ item.original = item'.original

/-- The item is new, with the archive's bytes. -/
structure New (p : Platform) (f : Formats Manifest) (packageId : String) (staged : Folder)
    (e : MediaIndexEntry) (w w' : World) (id : String) (m : MediaMetadata) : Prop where
  free : w.media.get id = none
  after : w'.readMetadata f id = some m
  named : m.id = id
  refs : m.refs = [registered p packageId e]
  original : ∀ item', w'.media.get id = some item' → staged (mediaFile m.sha256) = some item'.original

/-- INVERSION: what an entry can do to the library. -/
def Grown (p : Platform) (f : Formats Manifest) (packageId : String) (staged : Folder)
    (e : MediaIndexEntry) (w w' : World) : Prop :=
  ∀ id, w'.media.get id = w.media.get id ∨ (∃ m, More p f packageId e w w' id m) ∨
    ∃ m, New p f packageId staged e w w' id m

variable {w w' : World}

theorem Grown.refl : Grown p f packageId staged e w w := fun _ => .inl rfl

/-- What could be read still can, with at most the entry's reference added. -/
theorem Grown.old (h : Grown p f packageId staged e w w') {id : String} {m : MediaMetadata}
    (hm : w.readMetadata f id = some m) : ∃ m', w'.readMetadata f id = some m' ∧
      (m' = m ∨ m' = { m with refs := m.refs ++ [registered p packageId e] }) := by
  rcases h id with hsame | ⟨m₁, hmore⟩ | ⟨m₁, hnew⟩
  · exact ⟨m, by rw [readMetadata_congr hsame, hm], .inl rfl⟩
  · obtain rfl := Option.some.inj (hm.symm.trans hmore.before)
    exact ⟨_, hmore.after, .inr rfl⟩
  · rw [World.readMetadata, hnew.free] at hm
    cases hm

/-- What can be read could be, or is new. -/
theorem Grown.back (h : Grown p f packageId staged e w w') {id : String} {m' : MediaMetadata}
    (hm' : w'.readMetadata f id = some m') :
    (∃ m, w.readMetadata f id = some m ∧
      (m' = m ∨ m' = { m with refs := m.refs ++ [registered p packageId e] })) ∨
    (m'.id = id ∧ m'.refs = [registered p packageId e]) := by
  rcases h id with hsame | ⟨m₁, hmore⟩ | ⟨m₁, hnew⟩
  · exact .inl ⟨m', by rw [← readMetadata_congr hsame, hm'], .inl rfl⟩
  · obtain rfl := Option.some.inj (hm'.symm.trans hmore.after)
    exact .inl ⟨m₁, hmore.before, .inr rfl⟩
  · obtain rfl := Option.some.inj (hm'.symm.trans hnew.after)
    exact .inr ⟨hnew.named, hnew.refs⟩


theorem foreignRefs_append {refs : List MediaRef} {ref : MediaRef} (h : ref.packageId = packageId) :
    foreignRefs packageId (refs ++ [ref]) = foreignRefs packageId refs := by
  simp [foreignRefs, h]

theorem SameBut.more {m₀ m : MediaMetadata} (h : SameBut packageId m₀ m) {ref : MediaRef}
    (href : ref.packageId = packageId) :
    SameBut packageId m₀ { m with refs := m.refs ++ [ref] } := by
  refine ⟨?_, ?_⟩
  · conv_lhs => rw [h.fields]
  · exact (foreignRefs_append href).trans h.foreign

/-- STEP: the entries before keep what they have. -/
theorem HeldAs.grown {e' : MediaIndexEntry} {id : String} {m : MediaMetadata}
    (h : HeldAs p f packageId e' w id m) (hg : Grown p f packageId staged e w w') :
    ∃ m', HeldAs p f packageId e' w' id m' := by
  have hplace : id = e'.id ∨ ∃ m', w'.readMetadata f e'.id = some m' ∧
      asciiLower m'.sha256 ≠ asciiLower e'.sha256 := by
    rcases h.place with hid | ⟨m', hm', hother⟩
    · exact .inl hid
    · obtain ⟨m'', hm'', heq⟩ := hg.old hm'
      refine .inr ⟨m'', hm'', ?_⟩
      rcases heq with rfl | rfl
      · exact hother
      · exact hother
  obtain ⟨m', hm', heq⟩ := hg.old h.read
  refine ⟨m', hm', ?_, ?_, hplace⟩
  · rcases heq with rfl | rfl
    · exact h.content
    · exact h.content
  · rcases heq with rfl | rfl
    · exact h.attached
    · exact List.mem_append_left _ h.attached

theorem Attached.grown {e' : MediaIndexEntry} (h : Attached p f packageId w₀ e' w)
    (hg : Grown p f packageId staged e w w') : Attached p f packageId w₀ e' w' := by
  intro m₀ hm₀ hsha
  obtain ⟨m, hm, hin⟩ := h m₀ hm₀ hsha
  obtain ⟨m', hm', heq⟩ := hg.old hm
  refine ⟨m', hm', ?_⟩
  rcases heq with rfl | rfl
  · exact hin
  · exact List.mem_append_left _ hin

/-- STEP: one more entry is in the ledger. -/
theorem Ledger.grow (h : Ledger p f packageId staged w₀ seen w)
    (hg : Grown p f packageId staged e w w')
    (hid : (registered p packageId e).packageId = packageId)
    (hheld : e.included = true → ∃ id m, HeldAs p f packageId e w' id m)
    (hattached : e.included = false → Attached p f packageId w₀ e w') :
    Ledger p f packageId staged w₀ (seen ++ [e]) w' := by
  refine ⟨fun id m' hm' => ?_, fun id m₀ hm₀ => ?_, fun id item' hnone hitem' => ?_,
    fun id m' ref hm' href hpkg => ?_, fun e' he' hincluded => ?_, fun e' he' hincluded => ?_⟩
  · rcases hg.back hm' with ⟨m, hm, rfl | rfl⟩ | ⟨hname, _⟩
    · exact h.sound id _ hm
    · exact h.sound id m hm
    · exact hname
  · obtain ⟨m, hm, hsame⟩ := h.kept id m₀ hm₀
    obtain ⟨m', hm', rfl | rfl⟩ := hg.old hm
    · exact ⟨_, hm', hsame⟩
    · exact ⟨_, hm', hsame.more hid⟩
  · rcases hg id with hsame | ⟨m, hmore⟩ | ⟨m, hnew⟩
    · obtain ⟨m, hm, hfile⟩ := h.fresh id item' hnone (hsame ▸ hitem')
      exact ⟨m, by rw [readMetadata_congr hsame, hm], hfile⟩
    · obtain ⟨item, hitem, horiginal⟩ := hmore.original item' hitem'
      obtain ⟨m₁, hm₁, hfile⟩ := h.fresh id item hnone hitem
      obtain rfl := Option.some.inj (hmore.before.symm.trans hm₁)
      exact ⟨_, hmore.after, horiginal ▸ hfile⟩
    · exact ⟨m, hnew.after, hnew.original item' hitem'⟩
  · have hthis : ref = registered p packageId e → ∃ e' ∈ seen ++ [e], ref = registered p packageId e' :=
      fun heq => ⟨e, List.mem_append_right _ (List.mem_singleton.mpr rfl), heq⟩
    have hbefore : ∀ m, w.readMetadata f id = some m → ref ∈ m.refs →
        ∃ e' ∈ seen ++ [e], ref = registered p packageId e' := by
      intro m hm href
      obtain ⟨e', he', heq⟩ := h.owned id m ref hm href hpkg
      exact ⟨e', List.mem_append_left _ he', heq⟩
    rcases hg.back hm' with ⟨m, hm, rfl | rfl⟩ | ⟨_, hrefs⟩
    · exact hbefore _ hm href
    · rcases List.mem_append.mp href with href | href
      · exact hbefore m hm href
      · exact hthis (List.mem_singleton.mp href)
    · rw [hrefs] at href
      exact hthis (List.mem_singleton.mp href)
  · rcases List.mem_append.mp he' with he' | he'
    · obtain ⟨id, m, hm⟩ := h.held e' he' hincluded
      exact ⟨id, hm.grown hg⟩
    · rw [List.mem_singleton.mp he'] at hincluded ⊢
      exact hheld hincluded
  · rcases List.mem_append.mp he' with he' | he'
    · exact (h.attached e' he' hincluded).grown hg
    · rw [List.mem_singleton.mp he'] at hincluded ⊢
      exact hattached hincluded

/-! ### The steps of an entry -/

/-- The metadata of an item is replaced, or the step fails. -/
theorem writeMetadata_spec {P : World → Prop} {id : String} {m : MediaMetadata} :
    Triple P (writeMetadata f id m) (either (fun _ _ => True) fun _ w' => ∃ w item bytes, P w ∧
      w.media.get id = some item ∧ f.readMeta bytes = some m ∧ w' = w.withMetadata id item bytes)
      fun _ => True := by
  refine .effect (fun _ _ => trivial) fun a w hw => ?_
  cases hitem : w.media.get id with
  | none => trivial
  | some item =>
    cases hbytes : f.writeMeta item.metadata m with
    | none =>
      simp only [hbytes]
      trivial
    | some bytes =>
      simp only [hbytes]
      split_ifs
      · exact ⟨w, item, bytes, hw, hitem, f.read_write hbytes, rfl⟩
      · trivial

theorem readMetadata_withMetadata (w : World) (id : String) (item : Item) (bytes : ByteArray) :
    (w.withMetadata id item bytes).readMetadata f id = f.readMeta bytes := by
  rw [World.readMetadata, World.withMetadata, Table.get_set_self]
  rfl

/-- A reference that is registered is there, and nothing else changes. -/
theorem registerRef_spec (staged : Folder) {id : String} {m : MediaMetadata} (hm : w.readMetadata f id = some m)
    (hid : m.id = id) :
    Triple (fun t => t = w) (registerRef f m (registered p packageId e))
      (either (fun _ _ => True) fun _ w' => Grown p f packageId staged e w w' ∧
        ∃ m', w'.readMetadata f id = some m' ∧ m'.sha256 = m.sha256 ∧
          registered p packageId e ∈ m'.refs) fun _ => True := by
  subst hid
  unfold registerRef
  split_ifs with hin
  · refine .give fun t ht => ?_
    subst ht
    exact ⟨.refl, m, hm, rfl, hin⟩
  · refine writeMetadata_spec.post fun a w' hw' => ?_
    cases a with
    | error _ => trivial
    | ok _ =>
      obtain ⟨w₁, item, bytes, rfl, hitem, hbytes, rfl⟩ := hw'
      have hafter := (readMetadata_withMetadata w₁ m.id item bytes).trans hbytes
      refine ⟨fun q => ?_, _, hafter, rfl, List.mem_append_right _ (List.mem_singleton.mpr rfl)⟩
      by_cases heq : q = m.id
      · subst heq
        refine .inr (.inl ⟨m, hm, hafter, fun item' hitem' => ⟨item, hitem, ?_⟩⟩)
        rw [World.withMetadata, Table.get_set_self] at hitem'
        rw [← Option.some.inj hitem']
      · exact .inl (Table.get_set_ne heq _ _)

theorem mediaFile_congr {a b : String} (h : asciiLower a = asciiLower b) :
    mediaFile a = mediaFile b := by
  rw [mediaFile, mediaFile, h]

/-- An item that is committed is new, with the archive's bytes and the one reference. -/
theorem commitRestored_spec {id : Option String} {name : String} {bytes : ByteArray}
    {probe : Option MediaProbeMeta} (hfile : staged (mediaFile e.sha256) = some bytes)
    (hsha : asciiLower (f.sha256Hex bytes) = asciiLower e.sha256) :
    Triple (fun t => t = w) (commitRestored f id name bytes probe (registered p packageId e))
      (either (fun _ _ => True) fun id' w' => Grown p f packageId staged e w w' ∧
        (∀ q, id = some q → id' = q) ∧ ∃ m, w'.readMetadata f id' = some m ∧
          asciiLower m.sha256 = asciiLower e.sha256 ∧ registered p packageId e ∈ m.refs)
      fun _ => True := by
  refine .effect (fun _ _ => trivial) fun a t ht => ?_
  subst ht
  dsimp only
  split
  · rename_i metadata hbytes hfree
    split_ifs
    · have hafter := f.read_write hbytes
      have hread : { t with media := t.media.set (id.getD a.fresh) ⟨some metadata, bytes⟩ }.readMetadata
          f (id.getD a.fresh) = some ⟨id.getD a.fresh, name, f.sha256Hex bytes, bytes.size,
            probe.getD fallbackProbe, .ready, a.now, [registered p packageId e]⟩ := by
        rw [World.readMetadata, Table.get_set_self]
        exact hafter
      refine ⟨fun q => ?_, fun q hq => (by rw [hq]; rfl), _, hread, hsha, List.mem_singleton.mpr rfl⟩
      by_cases heq : q = id.getD a.fresh
      · subst heq
        refine .inr (.inr ⟨_, hfree, hread, rfl, rfl, fun item' hitem' => ?_⟩)
        rw [Table.get_set_self] at hitem'
        rw [← Option.some.inj hitem', mediaFile_congr hsha, hfile]
      · exact .inl (Table.get_set_ne heq _ _)
    · trivial
  · trivial

/-- What an entry with bytes does: its content is held. -/
theorem restoreMedia_spec (hsound : w.Sound f) (request : RestoreMedia) (hid : request.id = e.id)
    (hsha : asciiLower request.sha256 = asciiLower e.sha256) {bytes : ByteArray}
    (hfile : staged (mediaFile e.sha256) = some bytes) :
    Triple (fun t => t = w) (restoreMedia p f request bytes (entryRef p packageId e))
      (either (fun _ _ => True) fun _ w' => Grown p f packageId staged e w w' ∧
        ∃ id m, HeldAs p f packageId e w' id m) fun _ => True := by
  unfold restoreMedia
  split
  · exact .give fun _ _ => trivial
  split
  · exact .give fun _ _ => trivial
  split
  · exact .give fun _ _ => trivial
  split
  · exact .give fun _ _ => trivial
  split
  · exact .give fun _ _ => trivial
  rename_i hhash
  have hbytes := (Decidable.of_not_not hhash).trans hsha
  split
  · exact .give fun _ _ => trivial
  refine .reading fun t ht => ?_
  obtain rfl := ht
  split
  · refine ((commitRestored_spec hfile hbytes).pre fun t' ht' => ht'.2).andThen (fun _ _ _ => trivial)
      fun id => .give fun t' ht' => ?_
    obtain ⟨hg, hplace, m, hm, hcontent, hin⟩ := ht'
    exact ⟨hg, id, m, hm, hcontent, hin, .inl ((hplace _ rfl).trans hid)⟩
  · exact .give fun _ _ => trivial
  · rename_i m _ hm
    rw [hid] at hm
    split_ifs with hsame
    · refine ((registerRef_spec staged hm (hsound _ m hm)).pre fun t' ht' => ht'.2).andThen
        (fun _ _ _ => trivial) fun _ => .give fun t' ht' => ?_
      obtain ⟨hg, m', hm', hcontent, hin⟩ := ht'
      exact ⟨hg, e.id, m', hm', hcontent ▸ hsame.trans hsha, hin, .inl rfl⟩
    · refine ((commitRestored_spec hfile hbytes).pre fun t' ht' => ht'.2).andThen
        (fun _ _ _ => trivial) fun id => .give fun t' ht' => ?_
      obtain ⟨hg, _, m₁, hm₁, hcontent, hin⟩ := ht'
      obtain ⟨m', hm', heq⟩ := hg.old hm
      refine ⟨hg, id, m₁, hm₁, hcontent, hin, .inr ⟨m', hm', ?_⟩⟩
      rcases heq with rfl | rfl
      · exact fun h => hsame (h.trans hsha.symm)
      · exact fun h => hsame (h.trans hsha.symm)

/-- What an entry without bytes does: it is attached to its content, if it finds it. -/
theorem reattachRef_spec (staged : Folder) (hsound : w.Sound f) :
    Triple (fun t => t = w) (reattachRef p f e.id e.sha256 (entryRef p packageId e))
      (either (fun _ _ => True) fun _ w' => Grown p f packageId staged e w w' ∧
        ∀ m, w.readMetadata f e.id = some m → asciiLower m.sha256 = asciiLower e.sha256 →
          ∃ m', w'.readMetadata f e.id = some m' ∧ registered p packageId e ∈ m'.refs)
      fun _ => True := by
  unfold reattachRef
  split_ifs
  · exact .give fun _ _ => trivial
  · exact .give fun _ _ => trivial
  · split
    · exact .give fun _ _ => trivial
    · refine .reading fun t ht => ?_
      obtain rfl := ht
      cases hm : t.readMetadata f e.id with
      | none =>
        refine .give fun t' ht' => ?_
        rw [ht'.2]
        exact ⟨.refl, fun m hm' => by cases hm'⟩
      | some m =>
        dsimp only
        split_ifs with hsha
        · refine .give fun t' ht' => ?_
          rw [ht'.2]
          refine ⟨.refl, fun m₁ hm₁ hsame => absurd ?_ hsha⟩
          rwa [Option.some.inj hm₁]
        · refine ((registerRef_spec staged hm (hsound _ m hm)).pre fun t' ht' => ht'.2).andThen
            (fun _ _ _ => trivial) fun _ => .give fun t' ht' => ?_
          obtain ⟨hg, m', hm', _, hin⟩ := ht'
          exact ⟨hg, fun _ _ _ => ⟨m', hm', hin⟩⟩

/-- STEP: an entry that does not fail is in the ledger. -/
theorem importEntry_ledger (hid : (registered p packageId e).packageId = packageId)
    (summary : MediaImportSummary) :
    Triple (Ledger p f packageId staged w₀ seen) (importEntry p f packageId staged e summary)
      (either (fun _ _ => True) fun _ => Ledger p f packageId staged w₀ (seen ++ [e]))
      fun _ => True := by
  refine .each fun w hw => ?_
  unfold importEntry
  split
  · exact .give fun _ _ => trivial
  · exact .give fun _ _ => trivial
  · rename_i bytes hfile hincluded
    refine (tryRead_rule (fun _ _ => trivial) _ _).andThen (fun _ _ _ => trivial) fun found => ?_
    cases found with
    | none => exact .give fun _ _ => trivial
    | some bytes' =>
      refine .each fun t ht => ?_
      obtain ⟨rfl, hfound⟩ := ht
      refine (restoreMedia_spec hw.sound ⟨e.id, _, asciiLower e.sha256, e.size, e.probe⟩ rfl
        (asciiLower_idem e.sha256) hfound.symm).andThen (fun _ _ _ => trivial) fun outcome => ?_
      have hledger : ∀ w', (Grown p f packageId staged e t w' ∧
          ∃ id m, HeldAs p f packageId e w' id m) →
          Ledger p f packageId staged w₀ (seen ++ [e]) w' := by
        rintro w' ⟨hg, hheld⟩
        exact hw.grow hg hid (fun _ => hheld) fun hno => by rw [hincluded] at hno; cases hno
      cases outcome with
      | imported id => exact .give hledger
      | reused => exact .give hledger
      | collided id => exact .give hledger
  · rename_i hfile hincluded
    have hledger : ∀ w', (Grown p f packageId staged e w w' ∧
        ∀ m, w.readMetadata f e.id = some m → asciiLower m.sha256 = asciiLower e.sha256 →
          ∃ m', w'.readMetadata f e.id = some m' ∧ registered p packageId e ∈ m'.refs) →
        Ledger p f packageId staged w₀ (seen ++ [e]) w' := by
      rintro w' ⟨hg, hattached⟩
      refine hw.grow hg hid (fun hyes => by rw [hincluded] at hyes; cases hyes) fun _ m₀ hm₀ hsha => ?_
      obtain ⟨m, hm, hsame⟩ := hw.kept e.id m₀ hm₀
      refine hattached m hm ?_
      rw [hsame.fields]
      exact hsha
    refine (reattachRef_spec staged hw.sound).andThen (fun _ _ _ => trivial) fun found => ?_
    cases found with
    | true => exact .give hledger
    | false => exact .give hledger

/-- RUN: and so all of them are. -/
theorem importEntries_ledger (hid : ∀ e, (registered p packageId e).packageId = packageId) :
    ∀ (rest seen : List MediaIndexEntry) (summary : MediaImportSummary),
    Triple (Ledger p f packageId staged w₀ seen) (importEntries p f packageId staged rest summary)
      (either (fun _ _ => True) fun _ => Ledger p f packageId staged w₀ (seen ++ rest))
      fun _ => True
  | [], seen, summary => .give fun w hw => (List.append_nil seen).symm ▸ hw
  | e :: rest, seen, summary => by
    refine (importEntry_ledger (hid e) summary).orFail (fun error => ?_) fun summary => ?_
    · exact (Triple.any (P := fun _ => True)).bind fun _ => .give fun _ _ => trivial
    · have hrest := importEntries_ledger hid rest (seen ++ [e]) summary
      rwa [List.append_assoc, List.singleton_append] at hrest

/-! ### The package's references go first -/

/-- INVARIANT: these items may still have references of the package. -/
structure Releasing (f : Formats Manifest) (packageId : String) (w₀ : World)
    (ms : List MediaMetadata) (w : World) : Prop where
  sound : w.Sound f
  kept : ∀ id m₀, w₀.readMetadata f id = some m₀ →
    ∃ m, w.readMetadata f id = some m ∧ SameBut packageId m₀ m
  free : ∀ id, w₀.media.get id = none → w.media.get id = none
  owned : ∀ id m ref, w.readMetadata f id = some m → ref ∈ m.refs → ref.packageId = packageId →
    m ∈ ms

theorem foreignRefs_idem (refs : List MediaRef) :
    foreignRefs packageId (foreignRefs packageId refs) = foreignRefs packageId refs := by
  simp [foreignRefs]

/-- STEP and RUN: one item after the other is without them. -/
theorem releaseAll_spec : ∀ ms : List MediaMetadata,
    (∀ m ∈ ms, w₀.readMetadata f m.id = some m) →
    Triple (Releasing f packageId w₀ ms) (releaseAll f packageId ms)
      (either (fun _ _ => True) fun _ => Releasing f packageId w₀ []) fun _ => True
  | [], _ => .give fun _ hw => hw
  | m :: ms, h => by
    have hrest := releaseAll_spec ms fun m' hm' => h m' (List.mem_cons_of_mem _ hm')
    rw [releaseAll]
    split_ifs with hlen
    · refine hrest.pre fun w hw => ⟨hw.sound, hw.kept, hw.free, fun id m' ref hm' href hpkg => ?_⟩
      rcases List.mem_cons.mp (hw.owned id m' ref hm' href hpkg) with rfl | hin
      · have hother := List.length_filter_eq_length_iff.mp hlen ref href
        exact absurd hpkg (of_decide_eq_true hother)
      · exact hin
    · refine writeMetadata_spec.andThen (fun _ _ _ => trivial) fun _ => hrest.pre fun w' hw' => ?_
      obtain ⟨w, item, bytes, hw, hitem, hbytes, rfl⟩ := hw'
      have hafter := (readMetadata_withMetadata w m.id item bytes).trans hbytes
      have hother : ∀ id, id ≠ m.id → (w.withMetadata m.id item bytes).media.get id =
          w.media.get id := fun id hne => Table.get_set_ne hne _ _
      refine ⟨fun id m' hm' => ?_, fun id m₀ hm₀ => ?_, fun id hnone => ?_,
        fun id m' ref hm' href hpkg => ?_⟩
      · by_cases heq : id = m.id
        · rw [heq, hafter] at hm'
          rw [← Option.some.inj hm', heq]
        · rw [readMetadata_congr (hother id heq)] at hm'
          exact hw.sound id m' hm'
      · by_cases heq : id = m.id
        · rw [heq]
          rw [heq, h m List.mem_cons_self] at hm₀
          obtain rfl := Option.some.inj hm₀
          exact ⟨_, hafter, rfl, foreignRefs_idem _⟩
        · rw [readMetadata_congr (hother id heq)]
          exact hw.kept id m₀ hm₀
      · have hfree := hw.free id hnone
        have hne : id ≠ m.id := by
          rintro rfl
          rw [hfree] at hitem
          cases hitem
        rw [hother id hne, hfree]
      · by_cases heq : id = m.id
        · rw [heq, hafter] at hm'
          rw [← Option.some.inj hm'] at href
          exact absurd hpkg (of_decide_eq_true (List.mem_filter.mp href).2)
        · rw [readMetadata_congr (hother id heq)] at hm'
          rcases List.mem_cons.mp (hw.owned id m' ref hm' href hpkg) with rfl | hin
          · exact absurd (hw.sound id m' hm').symm heq
          · exact hin

theorem releasePackage_ledger (p : Platform) (staged : Folder) (hsound : w₀.Sound f) :
    Triple (fun w => w.media = w₀.media) (releasePackage f packageId)
      (either (fun _ _ => True) fun _ w => Ledger p f packageId staged w₀ [] w ∧
        validateScopeId "package id" packageId = .ok ()) fun _ => True := by
  unfold releasePackage
  cases hscope : validateScopeId "package id" packageId with
  | error _ => exact .give fun _ _ => trivial
  | ok _ =>
    refine (tryRead_rule (fun _ _ => trivial) _ _).andThen (fun _ _ _ => trivial) fun items => ?_
    refine .each fun w hw => ?_
    obtain ⟨hmedia, hitems⟩ := hw
    have hread : ∀ id, w.readMetadata f id = w₀.readMetadata f id := fun id =>
      readMetadata_congr (by rw [hmedia])
    have hall : ∀ m ∈ items, w₀.readMetadata f m.id = some m := by
      intro m hm
      rw [hitems] at hm
      obtain ⟨id, hid⟩ := mem_listUnlocked.mp hm
      rw [hread] at hid
      exact (hsound id m hid).symm ▸ hid
    have hstart : Releasing f packageId w₀ items w := by
      refine ⟨fun id m hm => hsound id m (hread id ▸ hm), fun id m hm => ⟨m, (hread id).trans hm, rfl, rfl⟩,
        fun id hnone => (by rw [hmedia]; exact hnone), fun id m ref hm _ _ => ?_⟩
      rw [hitems]
      exact mem_listUnlocked.mpr ⟨id, hm⟩
    refine ((releaseAll_spec items hall).pre fun t ht => ht ▸ hstart).post fun a t ht => ?_
    cases a with
    | error _ => trivial
    | ok _ =>
      refine ⟨⟨ht.sound, ht.kept, fun id item hnone hitem => ?_, fun id m ref hm href hpkg => ?_,
        fun _ he => (by cases he), fun _ he => (by cases he)⟩, rfl⟩
      · rw [ht.free id hnone] at hitem
        cases hitem
      · cases ht.owned id m ref hm href hpkg

/-- RUN: media that are imported without an error are all in the ledger. -/
theorem importPackageMedia_ledger (hp : p.Plain) (hsound : w₀.Sound f) :
    Triple (fun w => w.media = w₀.media) (importPackageMedia p f packageId staged)
      (either (fun _ _ => True) fun _ => Ledger p f packageId staged w₀ (indexEntries f staged))
      fun _ => True := by
  unfold importPackageMedia
  cases hindex : staged ["media", "index.json"] with
  | none =>
    rw [indexEntries, hindex]
    exact (releasePackage_ledger p staged hsound).andThen (fun _ _ _ => trivial) fun _ => .give fun _ hw => hw.1
  | some bytes =>
    refine (tryRead_rule (fun _ _ => trivial) _ _).andThen (fun _ _ _ => trivial) fun parsed => ?_
    refine .each fun w hw => ?_
    obtain ⟨hmedia, rfl⟩ := hw
    cases hentries : f.parseMediaIndex bytes with
    | error _ => exact .give fun _ _ => trivial
    | ok entries =>
      have heq : indexEntries f staged = entries := by
        simp only [indexEntries, hindex, hentries]
        rfl
      rw [heq]
      refine Triple.andThen (P := fun t => t = w) ((releasePackage_ledger p staged hsound).pre fun t ht =>
        (congrArg World.media ht).trans hmedia) (fun _ _ _ => trivial) fun _ =>
          Triple.fact fun hscope => ?_
      exact importEntries_ledger (fun _ => registered_packageId hp hscope) entries [] _

end Gamer.Packages
