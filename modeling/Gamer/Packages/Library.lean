import Mathlib.Tactic.SplitIfs
import Gamer.Packages.Import

/-! What the media steps of an import do to the library. An item that was listed before keeps its
    place and its original; what was not listed stays as it is, if the archive and the package have
    nothing to do with it; what is new can be told from both:

        listed ──▶ other references        recording, unreadable ──▶ same        none ──▶ new, ready  -/

namespace Gamer.Packages
open Gamer.Lib Gamer.Lib.Prog

variable {Manifest : Type} {p : Platform} {f : Formats Manifest}

/-- The item is in the list that a snapshot is taken of. -/
def World.Listed (f : Formats Manifest) (w : World) (id : String) : Prop :=
  ∃ m, w.readMetadata f id = some m ∧ m.state ≠ .importing

/-- Every directory is named by the id in its metadata. -/
def World.Sound (f : Formats Manifest) (w : World) : Prop :=
  ∀ id m, w.readMetadata f id = some m → m.id = id

/-- The library of a state, against the one before the import. -/
structure Kin (f : Formats Manifest) (w₀ w : World) : Prop where
  sound : w.Sound f
  listed : ∀ id item, w₀.media.get id = some item → w₀.Listed f id →
    w.Listed f id ∧ ∃ item', w.media.get id = some item' ∧ item'.original = item.original
  fixed : ∀ id item, w₀.media.get id = some item → ¬ w₀.Listed f id → w.media.get id = some item
  fresh : ∀ id item, w₀.media.get id = none → w.media.get id = some item → w.Listed f id

/-- No item that is still being recorded is the package's, or is one that the archive names. -/
def Untouched (f : Formats Manifest) (packageId : String) (entries : List MediaIndexEntry)
    (w : World) : Prop :=
  ∀ id m, w.readMetadata f id = some m → m.state = .importing →
    (∀ ref ∈ m.refs, ref.packageId ≠ packageId) ∧
    ∀ e ∈ entries, e.id = id → asciiLower m.sha256 ≠ asciiLower e.sha256

theorem Kin.refl {w : World} (h : w.Sound f) : Kin f w w :=
  ⟨h, fun _ item hitem hlisted => ⟨hlisted, item, hitem, rfl⟩, fun _ _ hitem _ => hitem,
    fun _ _ hnone hitem => by rw [hnone] at hitem; cases hitem⟩

/-- An item that can be read, and is not being recorded, was listed before or is new. -/
theorem Kin.not_fixed {w₀ w : World} (h : Kin f w₀ w) {id : String} (hlisted : w.Listed f id) :
    w₀.Listed f id ∨ w₀.media.get id = none := by
  by_cases hbefore : w₀.Listed f id
  · exact .inl hbefore
  · cases hitem : w₀.media.get id with
    | none => exact .inr rfl
    | some item =>
      have hsame := h.fixed id item hitem hbefore
      refine absurd ?_ hbefore
      obtain ⟨m, hm, hstate⟩ := hlisted
      refine ⟨m, ?_, hstate⟩
      rw [← hm, World.readMetadata, World.readMetadata, hsame, hitem]

/-- Elsewhere nothing changes, and in this place something that was listed is listed with the same
    original, or something new is listed or gone. -/
structure Change (f : Formats Manifest) (w₀ w w' : World) (id : String) : Prop where
  other : ∀ q, q ≠ id → w'.media.get q = w.media.get q
  named : ∀ m, w'.readMetadata f id = some m → m.id = id
  here : (w₀.media.get id = none ∧ ∀ item, w'.media.get id = some item → w'.Listed f id) ∨
    (w₀.Listed f id ∧ w'.Listed f id ∧ ∃ item item', w.media.get id = some item ∧
      w'.media.get id = some item' ∧ item'.original = item.original)

theorem readMetadata_congr {w w' : World} {id : String} (h : w'.media.get id = w.media.get id) :
    w'.readMetadata f id = w.readMetadata f id := by
  rw [World.readMetadata, World.readMetadata, h]

theorem Kin.change {w₀ w w' : World} (h : Kin f w₀ w) {id : String} (hc : Change f w₀ w w' id) :
    Kin f w₀ w' := by
  have hlisted : ∀ q, q ≠ id → w.Listed f q → w'.Listed f q := by
    rintro q hq ⟨m, hm, hstate⟩
    exact ⟨m, by rw [readMetadata_congr (hc.other q hq), hm], hstate⟩
  refine ⟨fun q m hm => ?_, fun q item₀ hitem₀ hlisted₀ => ?_, fun q item₀ hitem₀ hnot => ?_,
    fun q item' hnone hitem' => ?_⟩ <;> by_cases heq : q = id
  · subst heq
    exact hc.named m hm
  · rw [readMetadata_congr (hc.other q heq)] at hm
    exact h.sound q m hm
  · subst heq
    rcases hc.here with ⟨hnone, _⟩ | ⟨_, hafter, item, item', hitem, hitem', horiginal⟩
    · rw [hnone] at hitem₀
      cases hitem₀
    · obtain ⟨_, item₁, hitem₁, horiginal₁⟩ := h.listed q item₀ hitem₀ hlisted₀
      obtain rfl := Option.some.inj (hitem.symm.trans hitem₁)
      exact ⟨hafter, item', hitem', horiginal.trans horiginal₁⟩
  · obtain ⟨hafter, item', hitem', horiginal⟩ := h.listed q item₀ hitem₀ hlisted₀
    exact ⟨hlisted q heq hafter, item', (hc.other q heq).trans hitem', horiginal⟩
  · subst heq
    rcases hc.here with ⟨hnone, _⟩ | ⟨hbefore, _⟩
    · rw [hnone] at hitem₀
      cases hitem₀
    · exact absurd hbefore hnot
  · exact (hc.other q heq).trans (h.fixed q item₀ hitem₀ hnot)
  · subst heq
    rcases hc.here with ⟨_, hafter⟩ | ⟨_, hafter, _⟩
    · exact hafter item' hitem'
    · exact hafter
  · rw [hc.other q heq] at hitem'
    exact hlisted q heq (h.fresh q item' hnone hitem')

/-- The state with other metadata of an item. -/
def World.withMetadata (w : World) (id : String) (item : Item) (bytes : ByteArray) : World :=
  { w with media := w.media.set id { item with metadata := some bytes } }

/-- STEP: other metadata of an item that is listed. -/
theorem Kin.rewrite {w₀ w : World} (h : Kin f w₀ w) {id : String} (hlisted : w.Listed f id)
    {item : Item} (hitem : w.media.get id = some item) {bytes : ByteArray} {m : MediaMetadata}
    (hbytes : f.readMeta bytes = some m) (hid : m.id = id) (hstate : m.state ≠ .importing) :
    Kin f w₀ (w.withMetadata id item bytes) := by
  have hget : (w.withMetadata id item bytes).media.get id = some ⟨some bytes, item.original⟩ :=
    Table.get_set_self _ _ _
  have hread : (w.withMetadata id item bytes).readMetadata f id = some m := by
    rw [World.readMetadata, hget]
    exact hbytes
  refine h.change ⟨fun q hq => Table.get_set_ne hq _ _, fun m' hm' => ?_, ?_⟩
  · obtain rfl := Option.some.inj (hread.symm.trans hm')
    exact hid
  · rcases h.not_fixed hlisted with hbefore | hnone
    · exact .inr ⟨hbefore, ⟨m, hread, hstate⟩, item, _, hitem, hget, rfl⟩
    · exact .inl ⟨hnone, fun _ _ => ⟨m, hread, hstate⟩⟩

/-- A place that is free was free before. -/
theorem Kin.free {w₀ w : World} (h : Kin f w₀ w) {id : String} (hfree : w.media.get id = none) :
    w₀.media.get id = none := by
  cases hitem : w₀.media.get id with
  | none => rfl
  | some item =>
    by_cases hlisted : w₀.Listed f id
    · obtain ⟨_, item', hitem', _⟩ := h.listed id item hitem hlisted
      rw [hfree] at hitem'
      cases hitem'
    · rw [h.fixed id item hitem hlisted] at hfree
      cases hfree

/-- STEP: a new item in a place that is free. -/
theorem Kin.add {w₀ w : World} (h : Kin f w₀ w) {id : String} (hfree : w.media.get id = none)
    {bytes original : ByteArray} {m : MediaMetadata} (hbytes : f.readMeta bytes = some m)
    (hid : m.id = id) (hstate : m.state ≠ .importing) :
    Kin f w₀ { w with media := w.media.set id ⟨some bytes, original⟩ } := by
  have hread : { w with media := w.media.set id ⟨some bytes, original⟩ }.readMetadata f id =
      some m := by
    rw [World.readMetadata, Table.get_set_self]
    exact hbytes
  refine h.change ⟨fun q hq => Table.get_set_ne hq _ _, fun m' hm' => ?_,
    .inl ⟨h.free hfree, fun _ _ => ⟨m, hread, hstate⟩⟩⟩
  obtain rfl := Option.some.inj (hread.symm.trans hm')
  exact hid

/-- STEP: an item that is new goes. -/
theorem Kin.remove {w₀ w : World} (h : Kin f w₀ w) {id : String} (hnew : w₀.media.get id = none) :
    Kin f w₀ { w with media := w.media.del id } := by
  have hgone : (w.media.del id).get id = none := by rw [Table.get_del, if_pos rfl]
  have hchange : Change f w₀ w { w with media := w.media.del id } id → _ := h.change
  refine hchange ⟨fun q hq => ?_, fun m hm => ?_, .inl ⟨hnew, fun item hitem => ?_⟩⟩
  · show (w.media.del id).get q = _
    rw [Table.get_del, if_neg hq]
  · rw [World.readMetadata, hgone] at hm
    cases hm
  · rw [hgone] at hitem
    cases hitem

theorem isUpper_toLower (c : Char) : c.toLower.isUpper = false := by
  delta Char.isUpper Char.toLower
  split <;> grind [UInt32.toNat_add, Char.toNat_val]

theorem toLower_toLower (c : Char) : c.toLower.toLower = c.toLower := by
  have hupper := isUpper_toLower c
  generalize c.toLower = d at hupper
  delta Char.toLower
  rw [dif_neg]
  delta Char.isUpper at hupper
  exact of_decide_eq_false hupper

theorem asciiLower_idem (s : String) : asciiLower (asciiLower s) = asciiLower s := by
  unfold asciiLower
  rw [String.toList_ofList, List.map_map]
  congr 2
  funext c
  exact toLower_toLower c

/-! ### Programs -/

/-- A predicate on everything but the media, and one that holds wherever it does. -/
structure Beside (B C : World → Prop) : Prop where
  media : ∀ w media, B w → B { w with media := media }
  cut : ∀ w, B w → C w

/-- The library is akin to the one before, and these items are listed. -/
def Known (f : Formats Manifest) (B : World → Prop) (w₀ : World) (S : String → Prop) (w : World) :
    Prop :=
  B w ∧ Kin f w₀ w ∧ ∀ id, S id → w.Listed f id

/-- Nothing is said about any item. -/
def nobody : String → Prop := fun _ => False

section
variable {B C : World → Prop} {w₀ : World} {S : String → Prop}

theorem Known.nobody {w : World} (h : Known f B w₀ S w) : Known f B w₀ nobody w :=
  ⟨h.1, h.2.1, fun _ hid => hid.elim⟩

theorem tryRead_rule {α : Type} {P : World → Prop} (hC : ∀ w, P w → C w) (error : String)
    (read : World → α) :
    Triple P (tryRead error read) (either (fun _ => P) fun a w => P w ∧ a = read w) C := by
  refine .effect hC fun a w hw => ?_
  by_cases hworks : a.works = true
  · simp only [hworks, if_true]
    exact ⟨hw, rfl⟩
  · simp only [hworks]
    exact hw

/-- The three names in staging are different. -/
structure ImportRequest.Distinct (r : ImportRequest) : Prop where
  trash : r.trash ≠ r.staged
  staged : r.snapshot ≠ r.staged
  snapshot : r.snapshot ≠ r.trash

/-- The package's directory goes to staging. -/
def World.takeOut (w : World) (move : Move) (pkg name : String) (folder : Folder) : World :=
  ({ w with moves := move :: w.moves }.setPackage pkg none).setStaging name (some folder)

/-- A directory of staging becomes the package's. -/
def World.putIn (w : World) (move : Move) (pkg name : String) (folder : Folder) : World :=
  ({ w with moves := move :: w.moves }.setPackage pkg (some folder)).setStaging name none

/-- The directory that is moved, and what the move leads to. -/
def World.Moved (w w' : World) (move : Move) (pkg name : String) (folder : Folder) : Prop :=
  if move = .aside ∨ move = .withdraw then
    w.packages pkg = some folder ∧ w' = w.takeOut move pkg name folder
  else w.staging name = some folder ∧ w' = w.putIn move pkg name folder

/-- A directory is moved, or nothing is. -/
theorem moveDir_rule {P : World → Prop} (hC : ∀ w, P w → C w) (move : Move) (pkg name : String) :
    Triple P (moveDir move pkg name)
      (either (fun _ => P) fun _ w' => ∃ w folder, P w ∧ w.Moved w' move pkg name folder) C := by
  refine .effect hC fun a w hw => ?_
  dsimp only
  split
  · rename_i folder hpackage _
    split_ifs
    · exact ⟨w, folder, hw, by rw [World.Moved, if_pos (.inl rfl)]; exact ⟨hpackage, rfl⟩⟩
    · exact hw
  · rename_i folder hpackage _
    split_ifs
    · exact ⟨w, folder, hw, by rw [World.Moved, if_pos (.inr rfl)]; exact ⟨hpackage, rfl⟩⟩
    · exact hw
  · rename_i folder _ hstaging
    split_ifs
    · exact ⟨w, folder, hw, by rw [World.Moved, if_neg (by simp)]; exact ⟨hstaging, rfl⟩⟩
    · exact hw
  · rename_i folder _ hstaging
    split_ifs
    · exact ⟨w, folder, hw, by rw [World.Moved, if_neg (by simp)]; exact ⟨hstaging, rfl⟩⟩
    · exact hw
  · exact hw

/-- Replacing the metadata of a listed item keeps every item that is listed. -/
theorem writeMetadata_rule (hB : Beside B C) {id : String} (hid : S id) {m : MediaMetadata}
    (hm : m.id = id) (hstate : m.state ≠ .importing) :
    Triple (Known f B w₀ S) (writeMetadata f id m)
      (either (fun _ => Known f B w₀ S) fun _ => Known f B w₀ S) C := by
  refine .effect (fun w hw => hB.cut w hw.1) fun a w hw => ?_
  obtain ⟨hb, hkin, hS⟩ := hw
  cases hitem : w.media.get id with
  | none => exact ⟨hb, hkin, hS⟩
  | some item =>
    cases hbytes : f.writeMeta item.metadata m with
    | none =>
      simp only [hbytes]
      exact ⟨hb, hkin, hS⟩
    | some bytes =>
      by_cases hworks : a.works = true
      · simp only [hbytes, hworks, if_true]
        have hread := f.read_write hbytes
        refine ⟨hB.media w _ hb, hkin.rewrite (hS id hid) hitem hread hm hstate, fun q hq => ?_⟩
        by_cases heq : q = id
        · refine ⟨m, ?_, hstate⟩
          rw [World.readMetadata, heq, Table.get_set_self]
          exact hread
        · obtain ⟨m', hm', hs⟩ := hS q hq
          refine ⟨m', ?_, hs⟩
          rw [World.readMetadata, Table.get_set_ne heq]
          exact hm'
      · simp only [hbytes, hworks]
        exact ⟨hb, hkin, hS⟩

theorem releaseAll_rule (hB : Beside B C) {packageId : String} : ∀ ms : List MediaMetadata,
    (∀ m ∈ ms, foreignRefs packageId m.refs ≠ m.refs → S m.id ∧ m.state ≠ .importing) →
    Triple (Known f B w₀ S) (releaseAll f packageId ms)
      (either (fun _ => Known f B w₀ S) fun _ => Known f B w₀ S) C
  | [], _ => .give fun _ hw => hw
  | m :: ms, h => by
    have hrest := releaseAll_rule hB ms fun m' hm' => h m' (List.mem_cons_of_mem _ hm')
    rw [releaseAll]
    split_ifs with hlen
    · exact hrest
    · have hne : foreignRefs packageId m.refs ≠ m.refs := fun heq => hlen (by rw [heq])
      obtain ⟨hS, hstate⟩ := h m List.mem_cons_self hne
      exact (writeMetadata_rule (m := { m with refs := foreignRefs packageId m.refs }) hB hS rfl
        hstate).andThen (fun _ _ hw => hw) fun _ => hrest

theorem mem_listUnlocked {w : World} {m : MediaMetadata} :
    m ∈ w.listUnlocked f ↔ ∃ id, w.readMetadata f id = some m := by
  refine ⟨fun h => ?_, ?_⟩
  · obtain ⟨id, _, hm⟩ := List.mem_filterMap.mp h
    exact ⟨id, hm⟩
  · rintro ⟨id, hm⟩
    refine List.mem_filterMap.mpr ⟨id, ?_, hm⟩
    rw [World.readMetadata] at hm
    obtain ⟨_, hbytes, _⟩ := Option.bind_eq_some_iff.mp hm
    obtain ⟨item, hitem, _⟩ := Option.bind_eq_some_iff.mp hbytes
    exact AList.mem_keys.mp (AList.lookup_isSome.mp (Option.isSome_of_mem hitem))

/-- An item that is not listed, and can be read, is one of those before the import. -/
theorem Kin.importing {w : World} (h : Kin f w₀ w) {id : String} {m : MediaMetadata}
    (hm : w.readMetadata f id = some m) (hstate : m.state = .importing) :
    w₀.readMetadata f id = some m := by
  have hnot : ¬ w.Listed f id := by
    rintro ⟨m', hm', hs⟩
    obtain rfl := Option.some.inj (hm.symm.trans hm')
    exact hs hstate
  obtain ⟨item, hitem, hread⟩ : ∃ item, w.media.get id = some item ∧
      item.metadata.bind f.readMeta = some m := by
    rw [World.readMetadata] at hm
    cases hget : w.media.get id with
    | none =>
      rw [hget] at hm
      cases hm
    | some item =>
      rw [hget] at hm
      exact ⟨item, rfl, hm⟩
  cases hbefore : w₀.media.get id with
  | none => exact absurd (h.fresh id item hbefore hitem) hnot
  | some item₀ =>
    by_cases hlisted : w₀.Listed f id
    · exact absurd (h.listed id item₀ hbefore hlisted).1 hnot
    · have hsame := h.fixed id item₀ hbefore hlisted
      obtain rfl := Option.some.inj (hitem.symm.trans hsame)
      rw [World.readMetadata, hbefore]
      exact hread

theorem releasePackage_rule (hB : Beside B C) {packageId : String} {entries : List MediaIndexEntry}
    (huntouched : Untouched f packageId entries w₀) :
    Triple (Known f B w₀ nobody) (releasePackage f packageId)
      (either (fun _ => Known f B w₀ nobody) fun _ => Known f B w₀ nobody) C := by
  unfold releasePackage
  split
  · exact .give fun _ hw => hw
  · refine (tryRead_rule (fun w hw => hB.cut w hw.1) _ _).andThen (fun _ _ hw => hw) fun items => ?_
    refine .each fun w hw => ?_
    obtain ⟨hknown, hitems⟩ := hw
    have hall : ∀ m ∈ items, foreignRefs packageId m.refs ≠ m.refs →
        w.Listed f m.id ∧ m.state ≠ .importing := by
      intro m hm hne
      rw [hitems] at hm
      obtain ⟨id, hread⟩ := mem_listUnlocked.mp hm
      obtain rfl := hknown.2.1.sound id m hread
      have hstate : m.state ≠ .importing := by
        intro himporting
        refine hne (List.filter_eq_self.mpr fun ref href => ?_)
        have hother := (huntouched m.id m (hknown.2.1.importing hread himporting) himporting).1 ref href
        simpa using hother
      exact ⟨⟨m, hread, hstate⟩, hstate⟩
    have hrule : Triple (Known f B w₀ fun id => w.Listed f id) (releaseAll f packageId items) _ C :=
      releaseAll_rule hB items hall
    refine hrule.conseq (fun t ht => ?_) fun r t ht => ?_
    · subst ht
      exact ⟨hknown.1, hknown.2.1, fun _ h => h⟩
    · cases r <;> exact ht.nobody

theorem registerRef_rule (hB : Beside B C) {m : MediaMetadata} (hid : S m.id)
    (hstate : m.state ≠ .importing) (ref : MediaRef) :
    Triple (Known f B w₀ S) (registerRef f m ref)
      (either (fun _ => Known f B w₀ S) fun _ => Known f B w₀ S) C := by
  unfold registerRef
  split_ifs
  · exact .give fun _ hw => hw
  · exact writeMetadata_rule (m := { m with refs := m.refs ++ [ref] }) hB hid rfl hstate

/-- What a read gives is what the item says; a failed one says nothing. -/
theorem readItem_rule {P : World → Prop} (hC : ∀ w, P w → C w) (id : String) :
    Triple P (readItem f id)
      (either (fun _ => P) fun m w => P w ∧ w.readMetadata f id = some m) C := by
  refine (tryRead_rule hC _ _).andThen (fun _ _ hw => hw) fun found => ?_
  cases found with
  | none => exact .give fun _ hw => hw.1
  | some m => exact .give fun _ hw => ⟨hw.1, hw.2.symm⟩

theorem setRefs_rule (hB : Beside B C) {id : String} (hid : S id) (refs : List MediaRef) :
    Triple (Known f B w₀ S) (setRefs p f id refs)
      (either (fun _ => Known f B w₀ S) fun _ => Known f B w₀ S) C := by
  unfold setRefs
  split
  · exact .give fun _ hw => hw
  split
  · exact .give fun _ hw => hw
  refine (readItem_rule (fun w hw => hB.cut w hw.1) id).andThen (fun _ _ hw => hw) fun m => ?_
  refine .each fun w hw => ?_
  obtain ⟨hknown, hfound⟩ := hw
  obtain ⟨m', hm', hstate⟩ := hknown.2.2 id hid
  obtain rfl := Option.some.inj (hfound.symm.trans hm')
  have hname := hknown.2.1.sound id m hm'
  exact (writeMetadata_rule (m := { m with refs := refs.map (normalizeRef p) }) hB hid hname
    hstate).pre fun t ht => ht ▸ hknown

theorem deleteItem_rule (hB : Beside B C) {id : String} (hnew : w₀.media.get id = none) :
    Triple (Known f B w₀ S) (deleteItem f id)
      (either (fun _ => Known f B w₀ nobody) fun _ => Known f B w₀ nobody) C := by
  unfold deleteItem
  split
  · exact .give fun _ hw => hw.nobody
  refine .effect (fun w hw => hB.cut w hw.1) fun a w hw => ?_
  have hsame : Known f B w₀ nobody w := hw.nobody
  cases hread : w.readMetadata f id with
  | none => exact hsame
  | some m =>
    dsimp only
    split_ifs
    · exact hsame
    · exact ⟨hB.media w _ hw.1, hw.2.1.remove hnew, fun _ h => h.elim⟩
    · exact hsame

theorem commitRestored_rule (hB : Beside B C) {id : Option String} {name : String}
    {bytes : ByteArray} {probe : Option MediaProbeMeta} {ref : MediaRef} :
    Triple (Known f B w₀ nobody) (commitRestored f id name bytes probe ref)
      (either (fun _ => Known f B w₀ nobody) fun id w =>
        Known f B w₀ nobody w ∧ w₀.media.get id = none) C := by
  refine .effect (fun w hw => hB.cut w hw.1) fun a w hw => ?_
  obtain ⟨hb, hkin, _⟩ := hw
  have hsame : Known f B w₀ nobody w := ⟨hb, hkin, fun _ h => h.elim⟩
  dsimp only
  split
  · rename_i metadata hbytes hfree
    split_ifs
    · refine ⟨⟨hB.media w _ hb, hkin.add hfree (f.read_write hbytes) rfl (by simp),
        fun _ h => h.elim⟩, ?_⟩
      exact hkin.free hfree
    · exact hsame
  · exact hsame

/-- The metadata that is read in a state is a listed item's, if it is not one being recorded. -/
theorem Known.found {w : World} (h : Known f B w₀ S w) {id : String} {m : MediaMetadata}
    (hm : w.readMetadata f id = some m) (hstate : m.state ≠ .importing) :
    m.id = id ∧ Known f B w₀ (Eq m.id) w := by
  have hname := h.2.1.sound id m hm
  refine ⟨hname, h.1, h.2.1, ?_⟩
  rintro q rfl
  exact ⟨m, hname.symm ▸ hm, hstate⟩

/-- An entry that finds its content in the library finds no item that is being recorded. -/
theorem Known.attached {packageId : String} {entries : List MediaIndexEntry}
    (huntouched : Untouched f packageId entries w₀) {w : World} (h : Known f B w₀ S w)
    {e : MediaIndexEntry} (he : e ∈ entries) {m : MediaMetadata}
    (hm : w.readMetadata f e.id = some m) (hsha : asciiLower m.sha256 = asciiLower e.sha256) :
    m.state ≠ .importing :=
  fun hstate => (huntouched e.id m (h.2.1.importing hm hstate) hstate).2 e he rfl hsha

theorem reattachRef_rule (hB : Beside B C) {packageId : String} {entries : List MediaIndexEntry}
    (huntouched : Untouched f packageId entries w₀) {e : MediaIndexEntry} (he : e ∈ entries)
    (ref : MediaRef) :
    Triple (Known f B w₀ nobody) (reattachRef p f e.id e.sha256 ref)
      (either (fun _ => Known f B w₀ nobody) fun _ => Known f B w₀ nobody) C := by
  unfold reattachRef
  split_ifs
  · exact .give fun _ hw => hw
  · exact .give fun _ hw => hw
  · split
    · exact .give fun _ hw => hw
    · refine .reading fun w hw => ?_
      cases hm : w.readMetadata f e.id with
      | none => exact .give fun t ht => ht.1
      | some m =>
        dsimp only
        split_ifs with hsha
        · exact .give fun t ht => ht.1
        · have hstate := hw.attached huntouched he hm (Decidable.of_not_not hsha)
          obtain ⟨hname, hknown⟩ := hw.found hm hstate
          refine Triple.andThen (P := fun t => Known f B w₀ nobody t ∧ t = w)
            (((registerRef_rule hB rfl hstate _).pre fun t ht => ht.2 ▸ hknown))
            (fun _ _ ht => ht.nobody) fun _ => .give fun _ ht => ht.nobody

/-- What an archive's content becomes: the new items are new to the library before. -/
theorem restoreMedia_rule (hB : Beside B C) {packageId : String} {entries : List MediaIndexEntry}
    (huntouched : Untouched f packageId entries w₀) {e : MediaIndexEntry} (he : e ∈ entries)
    (request : RestoreMedia) (hid : request.id = e.id)
    (hsha : asciiLower request.sha256 = asciiLower e.sha256) (bytes : ByteArray) (ref : MediaRef) :
    Triple (Known f B w₀ nobody) (restoreMedia p f request bytes ref)
      (either (fun _ => Known f B w₀ nobody) fun outcome w => Known f B w₀ nobody w ∧
        match outcome with
        | .imported id | .collided id => w₀.media.get id = none
        | .reused => True) C := by
  unfold restoreMedia
  split
  · exact .give fun _ hw => hw
  split
  · exact .give fun _ hw => hw
  split
  · exact .give fun _ hw => hw
  split
  · exact .give fun _ hw => hw
  split
  · exact .give fun _ hw => hw
  split
  · exact .give fun _ hw => hw
  refine .reading fun w hw => ?_
  split
  · exact ((commitRestored_rule hB).pre fun t ht => ht.1).andThen (fun _ _ ht => ht)
      fun id => .give fun t ht => ht
  · exact .give fun t ht => ht.1
  · rename_i m _ hm
    split_ifs with hsame
    · rw [hid] at hm
      have hstate := hw.attached huntouched he hm (hsame.trans hsha)
      obtain ⟨_, hknown⟩ := hw.found hm hstate
      exact ((registerRef_rule hB rfl hstate _).pre fun t ht => ht.2 ▸ hknown).andThen
        (fun _ _ ht => ht.nobody) fun _ => .give fun _ ht => ⟨ht.nobody, trivial⟩
    · exact ((commitRestored_rule hB).pre fun t ht => ht.1).andThen (fun _ _ ht => ht)
        fun id => .give fun t ht => ht

theorem rollbackCreatedMedia_rule (hB : Beside B C) (packageId : String) : ∀ created : List String,
    (∀ id ∈ created, w₀.media.get id = none) →
    Triple (Known f B w₀ nobody) (rollbackCreatedMedia p f packageId created)
      (fun _ => Known f B w₀ nobody) C
  | [], _ => .give fun _ hw => hw
  | id :: created, h => by
    have hnew := h id List.mem_cons_self
    have hrest := rollbackCreatedMedia_rule hB packageId created fun q hq =>
      h q (List.mem_cons_of_mem _ hq)
    refine Triple.orFail (E := fun _ => Known f B w₀ nobody) (K := fun _ => Known f B w₀ nobody) ?_
      (fun _ => hrest) fun _ => hrest
    unfold getItem
    split
    · exact .give fun _ hw => hw
    refine (readItem_rule (fun w hw => hB.cut w hw.1) id).andThen (fun _ _ hw => hw) fun m => ?_
    refine .each fun w hw => ?_
    obtain ⟨hknown, hfound⟩ := hw
    have hlisted : w.Listed f id := by
      cases hitem : w.media.get id with
      | none =>
        rw [World.readMetadata, hitem] at hfound
        cases hfound
      | some item => exact hknown.2.1.fresh id item hnew hitem
    have hpre : Known f B w₀ (Eq id) w := by
      refine ⟨hknown.1, hknown.2.1, ?_⟩
      rintro _ rfl
      exact hlisted
    exact ((setRefs_rule hB rfl _).pre fun t ht => ht ▸ hpre).andThen (fun _ _ ht => ht.nobody)
      fun _ => deleteItem_rule hB hnew

/-- The items that were created are new. -/
def Created (w₀ : World) (summary : MediaImportSummary) : Prop :=
  ∀ id ∈ summary.created, w₀.media.get id = none

theorem importEntry_rule (hB : Beside B C) {packageId : String} {entries : List MediaIndexEntry}
    (huntouched : Untouched f packageId entries w₀) {e : MediaIndexEntry} (he : e ∈ entries)
    (staged : Folder) {summary : MediaImportSummary} (hnew : Created w₀ summary) :
    Triple (Known f B w₀ nobody) (importEntry p f packageId staged e summary)
      (either (fun _ => Known f B w₀ nobody) fun summary w => Known f B w₀ nobody w ∧
        Created w₀ summary) C := by
  have hadd : ∀ id, w₀.media.get id = none → Created w₀ { summary with
      imported := summary.imported + 1, created := summary.created ++ [id] } := by
    intro id hid q hq
    rcases List.mem_append.mp hq with hq | hq
    · exact hnew q hq
    · rw [List.mem_singleton.mp hq]
      exact hid
  unfold importEntry
  split
  · exact .give fun _ hw => hw
  · exact .give fun _ hw => hw
  · refine (tryRead_rule (fun w hw => hB.cut w hw.1) _ _).andThen (fun _ _ hw => hw) fun found => ?_
    cases found with
    | none => exact .give fun _ hw => hw.1
    | some bytes =>
      have hlower : asciiLower (asciiLower e.sha256) = asciiLower e.sha256 := asciiLower_idem _
      refine ((restoreMedia_rule hB huntouched he ⟨e.id, _, asciiLower e.sha256, e.size, e.probe⟩ rfl
        hlower bytes _).pre fun t ht => ht.1).andThen (fun _ _ hw => hw) fun outcome => ?_
      cases outcome with
      | imported id => exact .give fun t ht => ⟨ht.1, hadd id ht.2⟩
      | collided id => exact .give fun t ht => ⟨ht.1, hadd id ht.2⟩
      | reused => exact .give fun t ht => ⟨ht.1, hnew⟩
  · refine (reattachRef_rule hB huntouched he _).andThen (fun _ _ hw => hw) fun found => ?_
    cases found with
    | true => exact .give fun t ht => ⟨ht, hnew⟩
    | false => exact .give fun t ht => ⟨ht, hnew⟩

theorem importEntries_rule (hB : Beside B C) {packageId : String} {entries : List MediaIndexEntry}
    (huntouched : Untouched f packageId entries w₀) (staged : Folder) :
    ∀ (rest : List MediaIndexEntry) (summary : MediaImportSummary), (∀ e ∈ rest, e ∈ entries) →
    Created w₀ summary →
    Triple (Known f B w₀ nobody) (importEntries p f packageId staged rest summary)
      (either (fun _ => Known f B w₀ nobody) fun _ => Known f B w₀ nobody) C
  | [], _, _, _ => .give fun _ hw => hw
  | e :: rest, summary, hsub, hnew => by
    refine (importEntry_rule hB huntouched (hsub e List.mem_cons_self) staged hnew).orFail
      (fun error => ?_) fun summary => ?_
    · exact (rollbackCreatedMedia_rule hB packageId summary.created hnew).bind fun _ => .give fun _ hw => hw
    · refine .each fun w hw => ?_
      exact (importEntries_rule hB huntouched staged rest summary
        (fun e' he' => hsub e' (List.mem_cons_of_mem _ he')) hw.2).pre fun t ht => ht ▸ hw.1

/-- The entries of the archive's index, if it has one that can be read. -/
def indexEntries (f : Formats Manifest) (staged : Folder) : List MediaIndexEntry :=
  match staged ["media", "index.json"] with
  | none => []
  | some bytes => (f.parseMediaIndex bytes).toOption.getD []

theorem importPackageMedia_rule (hB : Beside B C) {packageId : String} {staged : Folder}
    (huntouched : Untouched f packageId (indexEntries f staged) w₀) :
    Triple (Known f B w₀ nobody) (importPackageMedia p f packageId staged)
      (either (fun _ => Known f B w₀ nobody) fun _ => Known f B w₀ nobody) C := by
  have hrelease := releasePackage_rule hB huntouched
  unfold importPackageMedia
  unfold indexEntries at huntouched
  split
  · exact hrelease.andThen (fun _ _ hw => hw) fun _ => .give fun _ hw => hw
  · rename_i bytes hindex
    rw [hindex] at huntouched
    refine (tryRead_rule (fun w hw => hB.cut w hw.1) _ _).andThen (fun _ _ hw => hw) fun parsed => ?_
    refine .each fun w hw => ?_
    obtain ⟨hknown, hparsed⟩ := hw
    subst hparsed
    dsimp only at huntouched
    cases hentries : f.parseMediaIndex bytes with
    | error e => exact .give fun t ht => ht ▸ hknown
    | ok entries =>
      rw [hentries] at huntouched
      exact (hrelease.pre fun t (ht : t = w) => ht ▸ hknown).andThen (fun _ _ hw => hw) fun _ =>
        importEntries_rule hB huntouched staged entries _ (fun _ he => he) fun _ hq => by cases hq

end

end Gamer.Packages
