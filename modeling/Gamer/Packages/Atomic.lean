import Gamer.Packages.Ledger

/-! An import is all or nothing. Wherever it fails, the directory is moved back, each metadata file
    gets its bytes back and what is new goes; only items that are still being recorded are in no
    snapshot:

        Kin w₀ w ──restoreItems──▶ listed as before ──removeItems──▶ nothing new           -/

namespace Gamer.Packages
open Gamer.Lib Gamer.Lib.Prog

variable {Manifest : Type} {p : Platform} {f : Formats Manifest} {r : ImportRequest}
  {w₀ : World}

/-! ### Where the directories are -/

/-- The package's directory and the two of staging, when the swap has come this far. -/
structure At (r : ImportRequest) (w₀ : World) (swap : Swap) (w : World) : Prop where
  here : w.packages r.pkg = if swap.installedNew then w₀.staging r.staged
    else if swap.movedOld then none else w₀.packages r.pkg
  there : ∀ q, q ≠ r.pkg → w.packages q = w₀.packages q
  staged : w.staging r.staged = if swap.installedNew then none else w₀.staging r.staged
  trash : swap.movedOld = true → w.staging r.trash = w₀.packages r.pkg
  vacant : swap.installedNew = true → swap.movedOld = false → w₀.packages r.pkg = none
  presets : w.presets = w₀.presets

/-- The snapshot is of all listed items, and has their metadata. -/
structure Snapped (f : Formats Manifest) (r : ImportRequest) (w₀ : World) (original : List String)
    (w : World) : Prop where
  all : ∀ id, id ∈ original ↔ w₀.Listed f id
  files : ∀ id ∈ original, ((w.staging r.snapshot).bind fun folder => folder (backupFile id)) =
    (w₀.media.get id).bind Item.metadata

/-- Both, whatever the library is. -/
def Shelf (f : Formats Manifest) (r : ImportRequest) (w₀ : World) (original : List String)
    (swap : Swap) (w : World) : Prop :=
  At r w₀ swap w ∧ Snapped f r w₀ original w

theorem shelf_beside {original : List String} {swap : Swap} :
    Beside (Shelf f r w₀ original swap) fun _ => True :=
  ⟨fun _ _ ⟨⟨h₁, h₂, h₃, h₄, h₅, h₆⟩, ⟨h₇, h₈⟩⟩ => ⟨⟨h₁, h₂, h₃, h₄, h₅, h₆⟩, ⟨h₇, h₈⟩⟩,
    fun _ _ => trivial⟩

/-! ### Undoing the media -/

theorem bytes_ext {a b : ByteArray} (h : a.data.toList = b.data.toList) : a = b := by
  obtain ⟨⟨a⟩⟩ := a
  obtain ⟨⟨b⟩⟩ := b
  exact congrArg (fun l => ByteArray.mk (Array.mk l)) h

/-- What the snapshot has of a listed item. -/
theorem Listed.metadata {w : World} {id : String} (h : w.Listed f id) :
    ∃ item bytes m, w.media.get id = some item ∧ item.metadata = some bytes ∧
      f.readMeta bytes = some m ∧ m.state ≠ .importing ∧ w.readMetadata f id = some m := by
  obtain ⟨m, hm, hstate⟩ := h
  have hread := hm
  rw [World.readMetadata] at hread
  obtain ⟨bytes, hbytes, hm'⟩ := Option.bind_eq_some_iff.mp hread
  obtain ⟨item, hitem, hmeta⟩ := Option.bind_eq_some_iff.mp hbytes
  exact ⟨item, bytes, m, hitem, hmeta, hm', hstate, hm⟩

/-- These items are as they were. -/
def Back (w₀ : World) (S : String → Prop) (w : World) : Prop :=
  ∀ id, S id → w.media.get id = w₀.media.get id

variable {B : World → Prop}

theorem restoreMetadata_rule (hB : Beside B fun _ => True) (hsound : w₀.Sound f) {id : String}
    {item : Item} {bytes : ByteArray} (hlisted : w₀.Listed f id)
    (hitem : w₀.media.get id = some item) (hbytes : item.metadata = some bytes) {S : String → Prop} :
    Triple (fun w => Known f B w₀ nobody w ∧ Back w₀ S w) (restoreMetadata id bytes)
      (either (fun _ _ => True) fun _ w => Known f B w₀ nobody w ∧
        Back w₀ (fun q => q = id ∨ S q) w) fun _ => True := by
  refine .effect (fun _ _ => trivial) fun a w hw => ?_
  obtain ⟨⟨hb, hkin, _⟩, hback⟩ := hw
  obtain ⟨hnow, item', hitem', horiginal⟩ := hkin.listed id item hitem hlisted
  obtain ⟨item₁, bytes₁, m, hitem₁, hbytes₁, hm, hstate, hread⟩ := Listed.metadata hlisted
  obtain rfl := Option.some.inj (hitem.symm.trans hitem₁)
  obtain rfl := Option.some.inj (hbytes.symm.trans hbytes₁)
  simp only [hitem']
  split_ifs
  · have hput : (w.withMetadata id item' bytes).media.get id = w₀.media.get id := by
      rw [hitem, World.withMetadata, Table.get_set_self, horiginal, ← hbytes]
    refine ⟨⟨hB.media w _ hb, hkin.rewrite hnow hitem' hm (hsound id m hread) hstate,
      fun _ h => h.elim⟩, ?_⟩
    rintro q (rfl | hq)
    · exact hput
    · by_cases heq : q = id
      · rw [heq]
        exact hput
      · exact (Table.get_set_ne heq _ _).trans (hback q hq)
  · trivial

/-- STEP and RUN: one metadata file after the other gets its bytes back. -/
theorem restoreItems_rule (hB : Beside B fun _ => True) (hsound : w₀.Sound f) {original : List String}
    (hsnap : ∀ w, B w → Snapped f r w₀ original w) : ∀ (ids : List String) (S : String → Prop),
    (∀ id ∈ ids, id ∈ original) →
    Triple (fun w => Known f B w₀ nobody w ∧ Back w₀ S w) (restoreItems r.snapshot ids)
      (either (fun _ _ => True) fun _ w => Known f B w₀ nobody w ∧
        Back w₀ (fun q => q ∈ ids ∨ S q) w) fun _ => True
  | [], S, _ => .give fun w hw => ⟨hw.1, fun q hq => hw.2 q (by simpa using hq)⟩
  | id :: ids, S, hsub => by
    have hrest := restoreItems_rule hB hsound hsnap ids (fun q => q = id ∨ S q) fun q hq =>
      hsub q (List.mem_cons_of_mem _ hq)
    have hpost : ∀ (a : Except String Unit) (w : World),
        either (fun _ _ => True) (fun _ w => Known f B w₀ nobody w ∧
          Back w₀ (fun q => q ∈ ids ∨ q = id ∨ S q) w) a w →
        either (fun _ _ => True) (fun _ w => Known f B w₀ nobody w ∧
          Back w₀ (fun q => q ∈ id :: ids ∨ S q) w) a w := by
      intro a w hw
      cases a with
      | error e => trivial
      | ok u =>
        refine ⟨hw.1, fun q hq => hw.2 q ?_⟩
        rcases hq with hq | hq
        · rcases List.mem_cons.mp hq with rfl | hq
          · exact .inr (.inl rfl)
          · exact .inl hq
        · exact .inr (.inr hq)
    refine (tryRead_rule (fun _ _ => trivial) _ _).andThen (fun _ _ _ => trivial) fun found => ?_
    refine .each fun w hw => ?_
    obtain ⟨⟨hknown, hback⟩, hfound⟩ := hw
    have hin := hsub id List.mem_cons_self
    have hlisted := ((hsnap w hknown.1).all id).mp hin
    obtain ⟨item, bytes, m, hitem, hbytes, -⟩ := Listed.metadata hlisted
    have hfile : found = some bytes := by
      rw [hfound, (hsnap w hknown.1).files id hin, hitem]
      exact hbytes
    subst hfile
    refine .reading fun t ht => ?_
    subst ht
    split_ifs with hsame
    · refine (hrest.post hpost).pre fun t ht => ?_
      obtain ⟨rfl, _⟩ := ht
      refine ⟨hknown, ?_⟩
      rintro q (rfl | hq)
      · obtain ⟨_, item', hitem', horiginal⟩ := hknown.2.1.listed q item hitem hlisted
        rw [World.sameMetadata, hitem'] at hsame
        obtain ⟨metadata', original'⟩ := item'
        cases metadata' with
        | none => cases hsame
        | some now =>
          have hnow : now = bytes := bytes_ext (of_decide_eq_true hsame)
          obtain ⟨metadata, original₀⟩ := item
          cases hbytes
          cases horiginal
          rw [hitem', hitem, hnow]
      · exact hback q hq
    · exact ((restoreMetadata_rule hB hsound hlisted hitem hbytes).pre fun t' ht' =>
        ht'.1 ▸ ⟨hknown, hback⟩).andThen (fun _ _ _ => trivial) fun _ => hrest.post hpost

/-- The predicate does not look at one item. -/
def Apart (P : World → Prop) (id : String) : Prop :=
  ∀ w media, (∀ q, q ≠ id → media.get q = w.media.get q) → P w → P { w with media := media }

/-- FRAME: replacing the metadata of an item leaves the others alone. -/
theorem writeMetadata_frame {P : World → Prop} {id : String} (hP : Apart P id) (m : MediaMetadata) :
    Triple P (writeMetadata f id m) (either (fun _ => P) fun _ => P) fun _ => True := by
  refine .effect (fun _ _ => trivial) fun a w hw => ?_
  cases hitem : w.media.get id with
  | none => exact hw
  | some item =>
    cases hbytes : f.writeMeta item.metadata m with
    | none =>
      simp only [hbytes]
      exact hw
    | some bytes =>
      simp only [hbytes]
      split_ifs
      · exact hP w _ (fun q hq => Table.get_set_ne hq _ _) hw
      · exact hw

/-- FRAME: and so does setting its references. -/
theorem setRefs_frame {P : World → Prop} {id : String} (hP : Apart P id) (refs : List MediaRef) :
    Triple P (setRefs p f id refs) (either (fun _ => P) fun _ => P) fun _ => True := by
  unfold setRefs
  split
  · exact .give fun _ hw => hw
  split
  · exact .give fun _ hw => hw
  refine (readItem_rule (fun _ _ => trivial) id).andThen (fun _ _ hw => hw) fun m => ?_
  exact (writeMetadata_frame hP _).pre fun _ hw => hw.1

/-- FRAME: a deletion takes this item and no other. -/
theorem deleteItem_frame {P : World → Prop} {id : String} (hP : Apart P id) :
    Triple P (deleteItem f id) (either (fun _ => P) fun _ w => P w ∧ w.media.get id = none)
      fun _ => True := by
  unfold deleteItem
  split
  · exact .give fun _ hw => hw
  refine .effect (fun _ _ => trivial) fun a w hw => ?_
  cases hread : w.readMetadata f id with
  | none => exact hw
  | some m =>
    dsimp only
    split_ifs
    · exact hw
    · refine ⟨hP w _ (fun q hq => ?_) hw, ?_⟩
      · rw [Table.get_del, if_neg hq]
      · show (w.media.del id).get id = none
        rw [Table.get_del, if_pos rfl]
    · exact hw

/-- Only the new ones of these items are not as they were. -/
def Outside (w₀ : World) (original : List String) (ms : List MediaMetadata) (w : World) : Prop :=
  ∀ id, (id ∈ original ∨ ∀ m ∈ ms, m.id ≠ id) → w.media.get id = w₀.media.get id

/-- STEP and RUN: what is new goes, one item after the other. -/
theorem removeItems_rule (hB : Beside B fun _ => True) {original : List String} :
    ∀ ms : List MediaMetadata, (∀ m ∈ ms, m.id ∉ original → w₀.media.get m.id = none) →
    Triple (fun w => B w ∧ Outside w₀ original ms w) (removeItems p f original ms)
      (either (fun _ _ => True) fun _ w => B w ∧ ∀ id, w.media.get id = w₀.media.get id)
      fun _ => True
  | [], _ => .give fun w hw => ⟨hw.1, fun id => hw.2 id (.inr fun _ h => by cases h)⟩
  | m :: ms, hnew => by
    have hrest := removeItems_rule hB ms fun m' hm' => hnew m' (List.mem_cons_of_mem _ hm')
    rw [removeItems]
    split_ifs with hin
    · refine hrest.pre fun w hw => ⟨hw.1, fun id hid => hw.2 id ?_⟩
      by_cases heq : m.id = id
      · exact .inl (heq ▸ hin)
      · rcases hid with hid | hid
        · exact .inl hid
        · exact .inr fun m' hm' => (List.mem_cons.mp hm').elim (fun h => h ▸ heq) (hid m')
    · have hapart : Apart (fun w => B w ∧ Outside w₀ original (m :: ms) w) m.id := by
        intro w media hmedia hw
        refine ⟨hB.media w media hw.1, fun id hid => ?_⟩
        have hne : id ≠ m.id := by
          rintro rfl
          rcases hid with hid | hid
          · exact hin hid
          · exact hid m List.mem_cons_self rfl
        exact (hmedia id hne).trans (hw.2 id hid)
      refine (setRefs_frame hapart []).andThen (fun _ _ _ => trivial) fun _ => ?_
      refine (deleteItem_frame hapart).andThen (fun _ _ _ => trivial) fun _ => hrest.pre ?_
      rintro w ⟨⟨hb, houtside⟩, hgone⟩
      refine ⟨hb, fun id hid => ?_⟩
      by_cases heq : m.id = id
      · rw [← heq, hgone, hnew m List.mem_cons_self hin]
      · refine houtside id (hid.imp_right fun hid m' hm' => ?_)
        exact (List.mem_cons.mp hm').elim (fun h => h ▸ heq) (hid m')

theorem mem_list {w : World} {m : MediaMetadata} :
    m ∈ w.list f ↔ (∃ id, w.readMetadata f id = some m) ∧ m.state ≠ .importing := by
  rw [World.list, List.mem_filter, decide_eq_true_iff, mem_listUnlocked]

/-- RUN: with the listed items back, and what is new gone, the library is what it was. -/
theorem rollbackImportMedia_rule (hB : Beside B fun _ => True) (hsound : w₀.Sound f)
    {original : List String} (hsnap : ∀ w, B w → Snapped f r w₀ original w) :
    Triple (Known f B w₀ nobody) (rollbackImportMedia p f r.snapshot original)
      (either (fun _ _ => True) fun _ w => B w ∧ ∀ id, w.media.get id = w₀.media.get id)
      fun _ => True := by
  refine ((restoreItems_rule hB hsound hsnap original (fun _ => False) fun _ h => h).pre
    fun w hw => ⟨hw, fun _ h => h.elim⟩).andThen (fun _ _ _ => trivial) fun _ => ?_
  refine (tryRead_rule (fun _ _ => trivial) _ _).andThen (fun _ _ _ => trivial) fun items => ?_
  refine .each fun w hw => ?_
  obtain ⟨⟨⟨hb, hkin, _⟩, hback⟩, rfl⟩ := hw
  have hall := (hsnap w hb).all
  refine (removeItems_rule hB _ fun m hm hin => ?_).pre ?_
  · obtain ⟨⟨id, hread⟩, hstate⟩ := mem_list.mp hm
    obtain rfl := hkin.sound id m hread
    exact (hkin.not_fixed ⟨m, hread, hstate⟩).resolve_left fun h => hin ((hall _).mpr h)
  · intro t ht
    rw [ht]
    refine ⟨hb, fun id hid => ?_⟩
    by_cases hin : id ∈ original
    · exact hback id (.inl hin)
    have hnot : ¬ w₀.Listed f id := fun h => hin ((hall id).mpr h)
    cases hbefore : w₀.media.get id with
    | some item => exact hkin.fixed id item hbefore hnot
    | none =>
      cases hnow : w.media.get id with
      | none => rfl
      | some item =>
        obtain ⟨m, hm, hstate⟩ := hkin.fresh id item hbefore hnow
        exact absurd (hkin.sound id m hm) ((hid.resolve_left hin) m (mem_list.mpr ⟨⟨id, hm⟩, hstate⟩))

/-! ### Undoing the directories -/

/-- A predicate on the library alone. -/
def OfMedia (M : World → Prop) : Prop := ∀ w w' : World, w'.media = w.media → M w → M w'

theorem Kin.ofMedia : OfMedia (Kin f w₀) := by
  rintro ⟨packages, staging, media, presets, moves⟩ ⟨packages', staging', media', presets', moves'⟩
    rfl ⟨hsound, hlisted, hfixed, hfresh⟩
  exact ⟨hsound, hlisted, hfixed, hfresh⟩

variable {M : World → Prop} {original : List String}

theorem withdraw_rule (hr : r.Distinct) (hM : OfMedia M) {old : Bool} :
    Triple (fun w => Shelf f r w₀ original ⟨old, true⟩ w ∧ M w) (moveDir .withdraw r.pkg r.staged)
      (either (fun _ w => Shelf f r w₀ original ⟨old, true⟩ w ∧ M w) fun _ w =>
        Shelf f r w₀ original ⟨old, false⟩ w ∧ M w) fun _ => True := by
  refine .effect (fun _ _ => trivial) fun a w hw => ?_
  obtain ⟨⟨hat, hsnap⟩, hm⟩ := hw
  have hsame : Shelf f r w₀ original ⟨old, true⟩ w ∧ M w := ⟨⟨hat, hsnap⟩, hm⟩
  have hhere : w.packages r.pkg = w₀.staging r.staged := hat.here
  have hgone : w.staging r.staged = none := hat.staged
  cases hfolder : w.packages r.pkg with
  | none => exact hsame
  | some folder =>
    simp only [hgone]
    split_ifs
    · refine ⟨⟨⟨?_, fun q hq => ?_, ?_, fun h => ?_, fun h => (by cases h), hat.presets⟩,
        ⟨hsnap.all, fun id hid => ?_⟩⟩, hM w _ rfl hm⟩
      · cases old with
        | true => simp [World.setPackage, World.setStaging]
        | false => simp [World.setPackage, World.setStaging, hat.vacant rfl rfl]
      · simpa [World.setPackage, World.setStaging, hq] using hat.there q hq
      · simp [World.setStaging, ← hhere, hfolder]
      · simpa [World.setPackage, World.setStaging, hr.trash] using hat.trash h
      · simpa [World.setPackage, World.setStaging, hr.staged] using hsnap.files id hid
    · exact hsame

theorem putBack_rule (hr : r.Distinct) (hM : OfMedia M) :
    Triple (fun w => Shelf f r w₀ original ⟨true, false⟩ w ∧ M w) (moveDir .putBack r.pkg r.trash)
      (either (fun _ w => Shelf f r w₀ original ⟨true, false⟩ w ∧ M w) fun _ w =>
        Shelf f r w₀ original ⟨false, false⟩ w ∧ M w) fun _ => True := by
  refine .effect (fun _ _ => trivial) fun a w hw => ?_
  obtain ⟨⟨hat, hsnap⟩, hm⟩ := hw
  have hsame : Shelf f r w₀ original ⟨true, false⟩ w ∧ M w := ⟨⟨hat, hsnap⟩, hm⟩
  have hnone : w.packages r.pkg = none := hat.here
  have htrash : w.staging r.trash = w₀.packages r.pkg := hat.trash rfl
  cases hfolder : w.staging r.trash with
  | none =>
    simp only [hnone]
    exact hsame
  | some folder =>
    simp only [hnone]
    split_ifs
    · refine ⟨⟨⟨?_, fun q hq => ?_, ?_, fun h => (by cases h), fun h => (by cases h), hat.presets⟩,
        ⟨hsnap.all, fun id hid => ?_⟩⟩, hM w _ rfl hm⟩
      · simp [World.setPackage, World.setStaging, ← htrash, hfolder]
      · simpa [World.setPackage, World.setStaging, hq] using hat.there q hq
      · simpa [World.setPackage, World.setStaging, hr.trash.symm] using hat.staged
      · simpa [World.setPackage, World.setStaging, hr.snapshot] using hsnap.files id hid
    · exact hsame

/-- RUN: the package's directory is what it was. -/
theorem restorePackage_rule (hr : r.Distinct) (hM : OfMedia M) (swap : Swap) :
    Triple (fun w => Shelf f r w₀ original swap w ∧ M w) (restorePackage r swap)
      (either (fun _ _ => True) fun _ w => Shelf f r w₀ original ⟨false, false⟩ w ∧ M w)
      fun _ => True := by
  obtain ⟨old, new⟩ := swap
  have hback : Triple (fun w => Shelf f r w₀ original ⟨old, false⟩ w ∧ M w)
      (if old then moveDir .putBack r.pkg r.trash else give (.ok ()))
      (either (fun _ _ => True) fun _ w => Shelf f r w₀ original ⟨false, false⟩ w ∧ M w)
      fun _ => True := by
    cases old with
    | false => exact .give fun _ hw => hw
    | true =>
      refine (putBack_rule hr hM).post fun a w hw => ?_
      cases a with
      | error e => trivial
      | ok u => exact hw
  cases new with
  | false =>
    exact Triple.andThen (E := fun _ _ => True)
      (K := fun _ w => Shelf f r w₀ original ⟨old, false⟩ w ∧ M w) (.give fun _ hw => hw)
      (fun _ _ _ => trivial) fun _ => hback
  | true => exact (withdraw_rule hr hM).andThen (fun _ _ _ => trivial) fun _ => hback

/-! ### The two endings -/

/-- Directories, library and presets are the same. -/
structure World.Same (w₀ w : World) : Prop where
  packages : w.packages = w₀.packages
  media : ∀ id, w.media.get id = w₀.media.get id
  presets : w.presets = w₀.presets

/-- All of them are the archive's; what is not the package's is kept. -/
structure Reflects (p : Platform) (f : Formats Manifest) (r : ImportRequest) (staged : Folder)
    (w₀ w : World) : Prop where
  package : w.packages r.pkg = some staged
  others : ∀ q, q ≠ r.pkg → w.packages q = w₀.packages q
  ledger : Ledger p f r.pkg staged w₀ (indexEntries f staged) w
  originals : ∀ id item, w₀.media.get id = some item →
    ∃ item', w.media.get id = some item' ∧ item'.original = item.original
  presets : ∃ now presets, f.readPackagePresets staged = .ok presets ∧
    upsertPresets p f r.pkg now presets w₀.presets = .ok w.presets

/-- What a result says about the state it comes with. -/
def AllOrNothing (p : Platform) (f : Formats Manifest) (r : ImportRequest) (staged : Folder)
    (w₀ : World) : Except ImportError ImportOutcome → World → Prop
  | .error (.failed _), w => w₀.Same w
  | .error (.rollback _), _ => True
  | .ok .conflict, w => w₀.Same w
  | .ok (.done _), w => Reflects p f r staged w₀ w

/-- FRAME: what does not look at staging is kept when one of its directories goes. -/
theorem removeStaging_rule {P : World → Prop} (name : String)
    (hP : ∀ w folder, P w → P (w.setStaging name folder)) :
    Triple P (removeStaging name) (fun _ => P) fun _ => True := by
  refine .effect (fun _ _ => trivial) fun a w hw => ?_
  dsimp only
  split_ifs
  · exact hP w _ hw
  · exact hw

theorem World.Same.setStaging {w : World} (h : w₀.Same w) (name : String) (folder : Option Folder) :
    w₀.Same (w.setStaging name folder) :=
  ⟨h.packages, h.media, h.presets⟩

theorem World.Same.refl (w : World) : w.Same w := ⟨rfl, fun _ => rfl, rfl⟩

theorem Ledger.ofMedia {packageId : String} {staged : Folder} {seen : List MediaIndexEntry} :
    OfMedia (Ledger p f packageId staged w₀ seen) := by
  rintro ⟨packages, staging, media, presets, moves⟩ ⟨packages', staging', media', presets', moves'⟩
    rfl ⟨h₁, h₂, h₃, h₄, h₅, h₆⟩
  exact ⟨h₁, h₂, h₃, h₄, fun e he hi => (h₅ e he hi).imp fun _ ⟨m, h⟩ => ⟨m, h.1, h.2, h.3, h.4⟩, h₆⟩

theorem Reflects.setStaging {staged : Folder} {w : World} (h : Reflects p f r staged w₀ w)
    (name : String) (folder : Option Folder) : Reflects p f r staged w₀ (w.setStaging name folder) :=
  ⟨h.package, h.others, Ledger.ofMedia w _ rfl h.ledger, h.originals, h.presets⟩

/-- The directories are back and the library is, so everything is. -/
theorem At.same {w : World} (h : At r w₀ ⟨false, false⟩ w)
    (hmedia : ∀ id, w.media.get id = w₀.media.get id) : w₀.Same w := by
  refine ⟨funext fun q => ?_, hmedia, h.presets⟩
  by_cases heq : q = r.pkg
  · rw [heq]
    exact h.here
  · exact h.there q heq

/-- RUN: an error that is not a failed rollback leaves everything as it was. -/
theorem undoImport_rule (hr : r.Distinct) (hsound : w₀.Sound f) (staged : Folder) (swap : Swap)
    (error : String) :
    Triple (fun w => Shelf f r w₀ original swap w ∧ Kin f w₀ w) (undoImport p f r original swap error)
      (AllOrNothing p f r staged w₀) fun _ => True := by
  refine (restorePackage_rule hr Kin.ofMedia swap).orFail (fun _ => .give fun _ _ => trivial)
    fun _ => ?_
  have hbeside : Beside (Shelf f r w₀ original ⟨false, false⟩) fun _ => True := shelf_beside
  have hundo := rollbackImportMedia_rule (p := p) hbeside hsound fun w hw => hw.2
  refine Triple.orFail (hundo.pre fun w hw => ⟨hw.1, hw.2, fun _ h => h.elim⟩)
    (fun _ => .give fun _ _ => trivial) fun _ => ?_
  have hsame : ∀ name, Triple w₀.Same (removeStaging name) (fun _ => w₀.Same) fun _ => True :=
    fun name => removeStaging_rule name fun w folder hw => hw.setStaging name folder
  refine ((hsame r.staged).pre fun w hw => hw.1.1.same hw.2).bind fun _ => ?_
  exact (hsame r.snapshot).bind fun _ => .give fun _ hw => hw

/-! ### The snapshot -/

theorem backupFile_inj {a b : String} (h : backupFile a = backupFile b) : a = b := by
  have happend := congrArg String.toList (List.head_eq_of_cons_eq h)
  rw [String.toList_append, String.toList_append] at happend
  exact String.toList_injective (List.append_cancel_right happend)

/-- INVARIANT: nothing has changed but the snapshot's directory, which has these items. -/
def Copied (r : ImportRequest) (w₀ : World) (ids : List String) (w : World) : Prop :=
  ∃ folder : Folder, w = w₀.setStaging r.snapshot (some folder) ∧
    ∀ id ∈ ids, folder (backupFile id) = (w₀.media.get id).bind Item.metadata

theorem Copied.same {ids : List String} {w : World} (h : Copied r w₀ ids w) : w₀.Same w := by
  obtain ⟨folder, rfl, -⟩ := h
  exact (World.Same.refl w₀).setStaging _ _

/-- STEP and RUN: the metadata files are copied, one after the other. -/
theorem snapshotItems_rule : ∀ (ms : List MediaMetadata) (ids : List String),
    Triple (Copied r w₀ ids) (snapshotItems f r.snapshot ms ids)
      (either (fun _ => w₀.Same) fun original w => Copied r w₀ original w ∧
        original = ids ++ ms.map (·.id)) fun _ => True
  | [], ids => .give fun w hw => ⟨hw, by simp⟩
  | m :: ms, ids => by
    have hrest := snapshotItems_rule ms (ids ++ [m.id])
    rw [snapshotItems]
    split
    · exact .give fun _ hw => hw.same
    refine (tryRead_rule (fun _ _ => trivial) _ _).andThen (fun _ _ hw => hw.same) fun found => ?_
    cases found with
    | none => exact .give fun _ hw => hw.1.same
    | some bytes =>
      dsimp only
      split_ifs
      · exact .give fun _ hw => hw.1.same
      · exact .give fun _ hw => hw.1.same
      · refine Triple.andThen (E := fun _ => w₀.Same) (K := fun _ => Copied r w₀ (ids ++ [m.id])) ?_
          (fun _ _ hw => hw) fun _ => hrest.post fun a w hw => ?_
        · refine .effect (fun _ _ => trivial) fun a w hw => ?_
          obtain ⟨⟨folder, rfl, hfiles⟩, hfound⟩ := hw
          have hput : (w₀.setStaging r.snapshot (some folder)).staging r.snapshot = some folder :=
            if_pos rfl
          simp only [hput]
          split_ifs
          · refine ⟨folder.put (backupFile m.id) bytes, ?_, fun id hid => ?_⟩
            · simp only [World.setStaging, World.mk.injEq, true_and, and_true]
              funext q
              split_ifs <;> rfl
            · by_cases heq : id = m.id
              · rw [heq, Folder.put, if_pos rfl]
                exact hfound
              · rw [Folder.put, if_neg fun h => heq (backupFile_inj h)]
                refine hfiles id ((List.mem_append.mp hid).resolve_right fun h => ?_)
                exact heq (List.mem_singleton.mp h)
          · exact (World.Same.refl w₀).setStaging _ _
        · cases a with
          | error _ => exact hw
          | ok original => exact ⟨hw.1, by rw [hw.2, List.append_assoc]; rfl⟩

/-- RUN: the snapshot is of all listed items, and nothing else has changed. -/
theorem snapshotImportMedia_rule (hr : r.Distinct) (hsound : w₀.Sound f) :
    Triple (fun w => w = w₀) (snapshotImportMedia f r.snapshot)
      (either (fun _ => w₀.Same) fun original w => Shelf f r w₀ original ⟨false, false⟩ w ∧
        w.media = w₀.media) fun _ => True := by
  refine Triple.andThen (E := fun _ => w₀.Same) (K := fun _ => Copied r w₀ []) ?_ (fun _ _ hw => hw)
    fun _ => ?_
  · refine .effect (fun _ _ => trivial) fun a w hw => ?_
    subst hw
    split_ifs
    · exact ⟨_, rfl, fun _ hid => by cases hid⟩
    · exact .refl w
  refine (tryRead_rule (fun _ _ => trivial) _ _).andThen (fun _ _ hw => hw.same) fun items => ?_
  refine .each fun w hw => ?_
  obtain ⟨hcopied, hitems⟩ := hw
  have hlist : items = w₀.list f := by
    obtain ⟨folder, rfl, -⟩ := hcopied
    exact hitems
  refine ((snapshotItems_rule items []).pre fun t ht => ht ▸ hcopied).post fun a t ht => ?_
  cases a with
  | error _ => exact ht
  | ok original =>
    obtain ⟨⟨folder, rfl, hfiles⟩, hids⟩ := ht
    refine ⟨⟨⟨rfl, fun _ _ => rfl, ?_, fun h => (by cases h), fun h => (by cases h), rfl⟩,
      ⟨fun id => ?_, fun id hid => ?_⟩⟩, rfl⟩
    · simp [World.setStaging, hr.staged.symm]
    · rw [hids, List.nil_append, hlist, List.mem_map]
      refine ⟨?_, ?_⟩
      · rintro ⟨m, hm, rfl⟩
        obtain ⟨⟨id, hread⟩, hstate⟩ := mem_list.mp hm
        obtain rfl := hsound id m hread
        exact ⟨m, hread, hstate⟩
      · rintro ⟨m, hread, hstate⟩
        exact ⟨m, mem_list.mpr ⟨⟨id, hread⟩, hstate⟩, hsound id m hread⟩
    · rw [← hfiles id hid]
      simp [World.setStaging]

/-! ### The swap -/

variable {staged : Folder}

theorem aside_rule (hr : r.Distinct) (hM : OfMedia M) :
    Triple (fun w => Shelf f r w₀ original ⟨false, false⟩ w ∧ M w) (moveDir .aside r.pkg r.trash)
      (either (fun _ w => Shelf f r w₀ original ⟨false, false⟩ w ∧ M w) fun _ w =>
        Shelf f r w₀ original ⟨true, false⟩ w ∧ M w) fun _ => True := by
  refine .effect (fun _ _ => trivial) fun a w hw => ?_
  obtain ⟨⟨hat, hsnap⟩, hm⟩ := hw
  have hsame : Shelf f r w₀ original ⟨false, false⟩ w ∧ M w := ⟨⟨hat, hsnap⟩, hm⟩
  have hhere : w.packages r.pkg = w₀.packages r.pkg := hat.here
  cases hfolder : w.packages r.pkg with
  | none => exact hsame
  | some folder =>
    cases htrash : w.staging r.trash with
    | some _ =>
      dsimp only
      exact hsame
    | none =>
      dsimp only
      split_ifs
      · refine ⟨⟨⟨?_, fun q hq => ?_, ?_, fun _ => ?_, fun h => (by cases h), hat.presets⟩,
          ⟨hsnap.all, fun id hid => ?_⟩⟩, hM w _ rfl hm⟩
        · simp [World.setPackage, World.setStaging]
        · simpa [World.setPackage, World.setStaging, hq] using hat.there q hq
        · simpa [World.setPackage, World.setStaging, hr.trash.symm] using hat.staged
        · simp [World.setPackage, World.setStaging, ← hhere, hfolder]
        · simpa [World.setPackage, World.setStaging, hr.snapshot] using hsnap.files id hid
      · exact hsame

theorem install_rule (hr : r.Distinct) (hM : OfMedia M) {old : Bool}
    (hold : old = false → w₀.packages r.pkg = none) :
    Triple (fun w => Shelf f r w₀ original ⟨old, false⟩ w ∧ M w) (moveDir .install r.pkg r.staged)
      (either (fun _ w => Shelf f r w₀ original ⟨old, false⟩ w ∧ M w) fun _ w =>
        Shelf f r w₀ original ⟨old, true⟩ w ∧ M w) fun _ => True := by
  refine .effect (fun _ _ => trivial) fun a w hw => ?_
  obtain ⟨⟨hat, hsnap⟩, hm⟩ := hw
  have hsame : Shelf f r w₀ original ⟨old, false⟩ w ∧ M w := ⟨⟨hat, hsnap⟩, hm⟩
  have hstaged : w.staging r.staged = w₀.staging r.staged := hat.staged
  cases hpackage : w.packages r.pkg with
  | some _ => exact hsame
  | none =>
    cases hfolder : w.staging r.staged with
    | none =>
      dsimp only
      exact hsame
    | some folder =>
      dsimp only
      split_ifs
      · refine ⟨⟨⟨?_, fun q hq => ?_, ?_, fun h => ?_, fun _ h => hold h, hat.presets⟩,
          ⟨hsnap.all, fun id hid => ?_⟩⟩, hM w _ rfl hm⟩
        · simp [World.setPackage, World.setStaging, ← hstaged, hfolder]
        · simpa [World.setPackage, World.setStaging, hq] using hat.there q hq
        · simp [World.setPackage, World.setStaging]
        · simpa [World.setPackage, World.setStaging, hr.trash] using hat.trash h
        · simpa [World.setPackage, World.setStaging, hr.staged] using hsnap.files id hid
      · exact hsame

/-- RUN: with the directory in place, the presets decide. -/
theorem publishImport_rule (hr : r.Distinct) (hsound : w₀.Sound f)
    (hstaged : w₀.staging r.staged = some staged) {presets : List PackagePreset}
    (hpresets : f.readPackagePresets staged = .ok presets) (old : Bool) :
    Triple (fun w => Shelf f r w₀ original ⟨old, true⟩ w ∧ Kin f w₀ w ∧
        Ledger p f r.pkg staged w₀ (indexEntries f staged) w)
      (publishImport p f r original old presets) (AllOrNothing p f r staged w₀) fun _ => True := by
  refine Triple.orFail (E := fun _ w => Shelf f r w₀ original ⟨old, true⟩ w ∧ Kin f w₀ w)
    (K := fun _ => Reflects p f r staged w₀) ?_
    (fun error => undoImport_rule hr hsound staged _ error) fun _ => ?_
  · refine (tryRead_rule (fun _ _ => trivial) _ _).andThen (fun _ _ hw => ⟨hw.1, hw.2.1⟩) fun found => ?_
    cases found with
    | none => exact .give fun _ hw => ⟨hw.1.1, hw.1.2.1⟩
    | some manifest =>
      refine .effect (fun _ _ => trivial) fun a w hw => ?_
      obtain ⟨⟨hshelf, hkin, hledger⟩, -⟩ := hw
      cases hrows : upsertPresets p f r.pkg a.now presets w.presets with
      | error _ => exact ⟨hshelf, hkin⟩
      | ok rows =>
        dsimp only
        split_ifs
        · refine ⟨hshelf.1.here.trans hstaged, hshelf.1.there, Ledger.ofMedia w _ rfl hledger,
            fun id item hitem => ?_, a.now, presets, hpresets, ?_⟩
          · by_cases hlisted : w₀.Listed f id
            · exact (hkin.listed id item hitem hlisted).2
            · exact ⟨item, hkin.fixed id item hitem hlisted, rfl⟩
          · rw [← hshelf.1.presets]
            exact hrows
        · exact ⟨hshelf, hkin⟩
  · have hkeep : ∀ name, Triple (Reflects p f r staged w₀) (removeStaging name)
        (fun _ => Reflects p f r staged w₀) fun _ => True :=
      fun name => removeStaging_rule name fun w folder hw => hw.setStaging name folder
    refine Triple.bind (Q := fun _ => Reflects p f r staged w₀) ?_ fun _ =>
      (hkeep r.snapshot).bind fun _ => .give fun _ hw => hw
    split_ifs
    · exact hkeep r.trash
    · exact .give fun _ hw => hw

/-- RUN: the old directory is moved aside and the new one is moved in. -/
theorem installImport_rule (hr : r.Distinct) (hsound : w₀.Sound f)
    (hstaged : w₀.staging r.staged = some staged) {presets : List PackagePreset}
    (hpresets : f.readPackagePresets staged = .ok presets) :
    Triple (fun w => Shelf f r w₀ original ⟨false, false⟩ w ∧ Kin f w₀ w ∧
        Ledger p f r.pkg staged w₀ (indexEntries f staged) w)
      (installImport p f r original presets) (AllOrNothing p f r staged w₀) fun _ => True := by
  have hM : OfMedia fun w => Kin f w₀ w ∧ Ledger p f r.pkg staged w₀ (indexEntries f staged) w :=
    fun w w' hmedia hw => ⟨Kin.ofMedia w w' hmedia hw.1, Ledger.ofMedia w w' hmedia hw.2⟩
  refine .reading fun w hw => ?_
  have hhere : w.packages r.pkg = w₀.packages r.pkg := hw.1.1.here
  cases hfolder : w.packages r.pkg with
  | none =>
    refine Triple.orFail (E := fun _ _ => False) (K := fun _ t => t = w)
      (.give fun t ht => ht.2) (fun _ _ _ h => h.elim) fun _ => ?_
    refine ((install_rule hr hM fun _ => hhere.symm.trans hfolder).pre fun t ht => ht ▸ hw).orFail
      (fun error => (undoImport_rule hr hsound staged _ error).pre fun t ht => ⟨ht.1, ht.2.1⟩)
      fun _ => publishImport_rule hr hsound hstaged hpresets false
  | some folder =>
    refine ((aside_rule hr hM).pre fun t ht => ht.1).orFail
      (fun error => (undoImport_rule hr hsound staged _ error).pre fun t ht => ⟨ht.1, ht.2.1⟩)
      fun _ => ?_
    exact (install_rule hr hM fun h => (by cases h)).orFail
      (fun error => (undoImport_rule hr hsound staged _ error).pre fun t ht => ⟨ht.1, ht.2.1⟩)
      fun _ => publishImport_rule hr hsound hstaged hpresets true

/-- The import comes as far as the media. -/
structure Reaches (f : Formats Manifest) (r : ImportRequest) (staged : Folder) (w : World) : Prop where
  free : (w.packages r.pkg).isSome = true → r.overwrite = true
  idle : r.busy = false
  presets : ∃ presets, f.readPackagePresets staged = .ok presets
  scope : validateScopeId "package id" r.pkg = .ok ()
  index : ∀ bytes, staged ["media", "index.json"] = some bytes →
    ∃ entries, f.parseMediaIndex bytes = .ok entries

/-- What the media steps may do, also when they stop at once. -/
theorem importPackageMedia_kin {B : World → Prop} (hB : Beside B fun _ => True)
    (huntouched : validateScopeId "package id" r.pkg = .ok () →
      (∀ bytes, staged ["media", "index.json"] = some bytes →
        ∃ entries, f.parseMediaIndex bytes = .ok entries) →
      Untouched f r.pkg (indexEntries f staged) w₀) :
    Triple (Known f B w₀ nobody) (importPackageMedia p f r.pkg staged)
      (either (fun _ => Known f B w₀ nobody) fun _ => Known f B w₀ nobody) fun _ => True := by
  by_cases hgoes : validateScopeId "package id" r.pkg = .ok () ∧
      ∀ bytes, staged ["media", "index.json"] = some bytes →
        ∃ entries, f.parseMediaIndex bytes = .ok entries
  · exact importPackageMedia_rule hB (huntouched hgoes.1 hgoes.2)
  have hstop : validateScopeId "package id" r.pkg ≠ .ok () →
      Triple (Known f B w₀ nobody) (releasePackage f r.pkg)
        (either (fun _ => Known f B w₀ nobody) fun _ _ => False) fun _ => True := by
    intro hscope
    unfold releasePackage
    cases hid : validateScopeId "package id" r.pkg with
    | error _ => exact .give fun _ hw => hw
    | ok _ => exact absurd hid hscope
  unfold importPackageMedia
  cases hindex : staged ["media", "index.json"] with
  | none =>
    refine (hstop fun hscope => hgoes ⟨hscope, fun bytes hbytes => ?_⟩).andThen (fun _ _ hw => hw)
      fun _ => .give fun _ h => h.elim
    rw [hindex] at hbytes
    cases hbytes
  | some bytes =>
    refine (tryRead_rule (fun _ _ => trivial) _ _).andThen (fun _ _ hw => hw) fun parsed => ?_
    cases parsed with
    | error _ => exact .give fun _ hw => hw.1
    | ok entries =>
      refine .each fun w hw => ?_
      have hthis : Triple (Known f B w₀ nobody) (releasePackage f r.pkg) _ _ :=
        hstop fun hscope => hgoes ⟨hscope, fun bytes' hbytes => ?_⟩
      · exact Triple.andThen (P := fun t => t = w) (hthis.pre fun t ht => ht ▸ hw.1)
          (fun _ _ hw => hw) fun _ _ _ h => h.elim
      obtain rfl := Option.some.inj (hindex.symm.trans hbytes)
      exact ⟨entries, hw.2.symm⟩

/-- RUN: an import is all or nothing, if no item that is still being recorded is concerned. -/
theorem commitPackageImport_rule (hp : p.Plain) (hr : r.Distinct) (hsound : w₀.Sound f)
    (hstaged : w₀.staging r.staged = some staged)
    (huntouched : Reaches f r staged w₀ → Untouched f r.pkg (indexEntries f staged) w₀) :
    Triple (fun w => w = w₀) (commitPackageImport p f r) (AllOrNothing p f r staged w₀)
      fun _ => True := by
  have hsame : ∀ name, Triple w₀.Same (removeStaging name) (fun _ => w₀.Same) fun _ => True :=
    fun name => removeStaging_rule name fun w folder hw => hw.setStaging name folder
  have hstart : Triple (fun w => w = w₀) (removeStaging r.staged) (fun _ => w₀.Same) fun _ => True :=
    (hsame r.staged).pre fun w hw => hw ▸ .refl w
  refine .reading fun w hw => ?_
  subst hw
  rw [hstaged]
  dsimp only
  split
  · exact (hstart.pre fun t ht => ht.1).bind fun _ => .give fun _ hw => hw
  rename_i hfree
  split
  · exact (hstart.pre fun t ht => ht.1).bind fun _ => .give fun _ hw => hw
  rename_i hidle
  cases hpresets : f.readPackagePresets staged with
  | error _ => exact (hstart.pre fun t ht => ht.1).bind fun _ => .give fun _ hw => hw
  | ok presets =>
    refine ((snapshotImportMedia_rule hr hsound).pre fun t ht => ht.1).orFail (fun _ => ?_)
      fun original => ?_
    · exact (hsame r.staged).bind fun _ => (hsame r.snapshot).bind fun _ => .give fun _ hw => hw
    have hbeside : Beside (Shelf f r w original ⟨false, false⟩) fun _ => True := shelf_beside
    have hkin := importPackageMedia_kin (p := p) hbeside fun hscope hindex =>
      huntouched ⟨by simpa using hfree, by simpa using hidle, ⟨presets, hpresets⟩, hscope, hindex⟩
    have hledger : Triple (fun t => t.media = w.media) (importPackageMedia p f r.pkg staged) _ _ :=
      importPackageMedia_ledger hp hsound
    have hmedia := hkin.both hledger
    refine Triple.orFail (E := fun _ t => Shelf f r w original ⟨false, false⟩ t ∧ Kin f w t)
      (K := fun _ t => Shelf f r w original ⟨false, false⟩ t ∧ Kin f w t ∧
        Ledger p f r.pkg staged w (indexEntries f staged) t) ?_
      (fun error => undoImport_rule hr hsound staged _ error)
      fun _ => installImport_rule hr hsound hstaged hpresets
    have hend : ∀ (result : Except String MediaImportSummary) (t : World),
        either (fun _ => Known f (Shelf f r w original ⟨false, false⟩) w nobody)
          (fun _ => Known f (Shelf f r w original ⟨false, false⟩) w nobody) result t ∧
        either (fun _ _ => True) (fun _ => Ledger p f r.pkg staged w (indexEntries f staged)) result t →
        either (fun _ t => Shelf f r w original ⟨false, false⟩ t ∧ Kin f w t)
          (fun _ t => Shelf f r w original ⟨false, false⟩ t ∧ Kin f w t ∧
            Ledger p f r.pkg staged w (indexEntries f staged) t) result t := by
      rintro (_ | _) t ⟨⟨hshelf, hkin, -⟩, hledger⟩
      · exact ⟨hshelf, hkin⟩
      · exact ⟨hshelf, hkin, hledger⟩
    intro tape t ht
    have hrun := hmedia tape t ⟨⟨ht.1, Kin.ofMedia w t ht.2 (Kin.refl hsound), fun _ h => h.elim⟩, ht.2⟩
    cases hdone : importPackageMedia p f r.pkg staged tape t with
    | cut s => trivial
    | done result s rest =>
      rw [hdone] at hrun
      exact hend result s hrun

/-! ### A library of one item -/

def plainPlatform : Platform where
  alphanumeric := Char.isAlphanum
  whitespace := Char.isWhitespace
  sha256 := fun _ => List.replicate 32 0
  sha256_length := fun _ => List.length_replicate

theorem plainPlatform_plain : plainPlatform.Plain := by
  intro c hc
  by_contra hspace
  have hwhite : c.isWhitespace = true := by simpa [plainPlatform] using hspace
  simp only [Char.isWhitespace, Bool.or_eq_true, decide_eq_true_eq] at hwhite
  rcases hwhite with ((rfl | rfl) | rfl) | rfl <;> revert hc <;> decide

/-- An item of one package, or of none. -/
def clip (state : MediaState) (refs : List MediaRef) : MediaMetadata :=
  ⟨"clip", "clip", "", 0, fallbackProbe, state, "", refs⟩

def clipRef : MediaRef := ⟨"demo", "maps", "clip"⟩

/-- The metadata files of this example. -/
def clips : List (UInt8 × MediaMetadata) :=
  [(0, clip .importing [clipRef]), (1, clip .importing []), (2, clip .ready [clipRef]),
    (3, clip .ready [])]

def clipFormats : Formats Unit where
  readMeta bytes := (clips.find? fun c => bytes.data.toList = [c.1]).map (·.2)
  writeMeta _ m := (clips.find? fun c => c.2 = m).map fun c => ⟨#[c.1]⟩
  read_write := by
    intro _ m bytes h
    obtain ⟨c, hc, rfl⟩ := Option.map_eq_some_iff.mp h
    have hm : c.2 = m := by simpa using List.find?_some hc
    have hmem := List.mem_of_find?_eq_some hc
    subst hm
    revert c
    decide +kernel
  parseMediaIndex _ := .ok []
  readPackagePresets _ := .ok []
  validPreset _ := true
  parsePackageToml _ := some ()
  manifestId _ := "demo"
  sha256Hex _ := ""

/-- A library of one item, and an archive of nothing but a manifest. -/
def clipWorld (code : UInt8) : World where
  packages _ := none
  staging name := if name = "new" then
    some fun path => if path = ["package.toml"] then some ⟨#[]⟩ else none else none
  media := (∅ : Table String Item).set "clip" ⟨some ⟨#[code]⟩, ⟨#[]⟩⟩
  presets := ∅
  moves := []

def clipRequest : ImportRequest := ⟨"demo", "new", "old", "copies", false, false⟩

/-- These effects work or not. -/
def answers (works : List Bool) : List Answer := works.map fun b => ⟨b, "", ""⟩

/-- The run ended with an error that reports no failed rollback. -/
def Ended.failed : Ended Answer World (Except ImportError ImportOutcome) → Bool
  | .done (.error (.failed _)) _ _ => true
  | _ => false

theorem clipWorld_sound {code : UInt8} (hcode : code ∈ clips.map (·.1)) :
    (clipWorld code).Sound clipFormats := by
  intro id m hm
  by_cases heq : id = "clip"
  · rw [heq] at hm ⊢
    revert code m
    decide +kernel
  · rw [World.readMetadata, clipWorld, Table.get_set_ne heq] at hm
    cases hm

theorem clipWorld_untouched {packageId : String} {entries : List MediaIndexEntry} :
    Untouched clipFormats packageId entries (clipWorld 2) := by
  intro id m hm hstate
  by_cases heq : id = "clip"
  · rw [heq] at hm
    have hready : ∀ m, (clipWorld 2).readMetadata clipFormats "clip" = some m →
        m.state ≠ .importing := by decide +kernel
    exact absurd hstate (hready m hm)
  · rw [World.readMetadata, clipWorld, Table.get_set_ne heq] at hm
    cases hm

theorem Ended.of_failed {e : Ended Answer World (Except ImportError ImportOutcome)}
    (h : Ended.failed e = true) :
    ∃ error rest, e = .done (.error (.failed error)) e.state rest := by
  match e, h with
  | .done (.error (.failed error)) _ rest, _ => exact ⟨error, rest, rfl⟩

end Gamer.Packages
