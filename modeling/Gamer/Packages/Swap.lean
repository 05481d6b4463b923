import Gamer.Packages.Library

/-! A crash during an operation of the store. Media and presets are beside the packages; an import
    leaves its package alone until the old directory is moved aside, and from there on the package is
    where the last move put it:

        before ──aside──▶ nowhere ──install──▶ the new one ──withdraw──▶ nowhere ──putBack──▶ before -/

namespace Gamer.Packages
open Gamer.Lib Gamer.Lib.Prog

/-! ### Beside the packages -/

section
variable {Manifest : Type} {p : Platform} {f : Formats Manifest} {τ : Type} {view : World → τ}

theorem tryRead_keeps {α : Type} (error : String) (read : World → α) :
    Keeps view (tryRead error read) := by
  refine .effect fun a w => ?_
  split_ifs <;> rfl

variable (hview : ∀ w media, view { w with media := media } = view w)
include hview

theorem writeMetadata_keeps (id : String) (m : MediaMetadata) :
    Keeps view (writeMetadata f id m) := by
  refine .effect fun a w => ?_
  split
  · rfl
  · split
    · rfl
    · split_ifs
      · exact hview w _
      · rfl

theorem releaseAll_keeps (packageId : String) : ∀ ms : List MediaMetadata,
    Keeps view (releaseAll f packageId ms)
  | [] => .give
  | m :: ms => by
    rw [releaseAll]
    split_ifs
    · exact releaseAll_keeps packageId ms
    · exact (writeMetadata_keeps hview _ _).andThen fun _ => releaseAll_keeps packageId ms

theorem releasePackage_keeps (packageId : String) : Keeps view (releasePackage f packageId) := by
  unfold releasePackage
  split
  · exact .give
  · exact (tryRead_keeps _ _).andThen fun _ => releaseAll_keeps hview _ _

theorem registerRef_keeps (m : MediaMetadata) (ref : MediaRef) :
    Keeps view (registerRef f m ref) := by
  unfold registerRef
  split_ifs
  · exact .give
  · exact writeMetadata_keeps hview _ _

omit hview in
theorem readItem_keeps (id : String) : Keeps view (readItem f id) := by
  refine (tryRead_keeps _ _).andThen fun found => ?_
  cases found with
  | none => exact .give
  | some m => exact .give

omit hview in
theorem getItem_keeps (id : String) : Keeps view (getItem f id) := by
  unfold getItem
  split_ifs
  · exact .give
  · exact readItem_keeps id

theorem setRefs_keeps (id : String) (refs : List MediaRef) : Keeps view (setRefs p f id refs) := by
  unfold setRefs
  split
  · exact .give
  split
  · exact .give
  · exact (readItem_keeps id).andThen fun _ => writeMetadata_keeps hview _ _

theorem deleteItem_keeps (id : String) : Keeps view (deleteItem f id) := by
  unfold deleteItem
  split
  · exact .give
  refine .effect fun a w => ?_
  split
  · rfl
  · split_ifs
    · rfl
    · exact hview w _
    · rfl

theorem reattachRef_keeps (id sha256 : String) (ref : MediaRef) :
    Keeps view (reattachRef p f id sha256 ref) := by
  unfold reattachRef
  split
  · exact .give
  split
  · exact .give
  split
  · exact .give
  refine .reading fun w => ?_
  split
  · exact .give
  · split
    · exact .give
    · exact (registerRef_keeps hview _ _).andThen fun _ => .give

theorem commitRestored_keeps (id : Option String) (name : String) (bytes : ByteArray)
    (probe : Option MediaProbeMeta) (ref : MediaRef) :
    Keeps view (commitRestored f id name bytes probe ref) := by
  refine .effect fun a w => ?_
  dsimp only
  split
  · split_ifs
    · exact hview w _
    · rfl
  · rfl

theorem restoreMedia_keeps (request : RestoreMedia) (bytes : ByteArray) (ref : MediaRef) :
    Keeps view (restoreMedia p f request bytes ref) := by
  unfold restoreMedia
  split
  · exact .give
  split
  · exact .give
  split
  · exact .give
  split
  · exact .give
  split
  · exact .give
  split
  · exact .give
  refine .reading fun w => ?_
  split
  · exact (commitRestored_keeps hview _ _ _ _ _).andThen fun _ => .give
  · exact .give
  · split
    · exact (registerRef_keeps hview _ _).andThen fun _ => .give
    · exact (commitRestored_keeps hview _ _ _ _ _).andThen fun _ => .give

theorem rollbackCreatedMedia_keeps (packageId : String) : ∀ created : List String,
    Keeps view (rollbackCreatedMedia p f packageId created)
  | [] => .give
  | id :: created => by
    have hrest := rollbackCreatedMedia_keeps packageId created
    refine Keeps.orFail ?_ (fun _ => hrest) fun _ => hrest
    exact (getItem_keeps id).andThen fun m => (setRefs_keeps hview _ _).andThen fun _ =>
      deleteItem_keeps hview id

theorem importEntry_keeps (packageId : String) (staged : Folder) (e : MediaIndexEntry)
    (summary : MediaImportSummary) : Keeps view (importEntry p f packageId staged e summary) := by
  unfold importEntry
  split
  · exact .give
  · exact .give
  · refine (tryRead_keeps _ _).andThen fun found => ?_
    cases found with
    | none => exact .give
    | some bytes =>
      refine (restoreMedia_keeps hview _ _ _).andThen fun outcome => ?_
      cases outcome <;> exact .give
  · refine (reattachRef_keeps hview _ _ _).andThen fun found => ?_
    cases found <;> exact .give

theorem importEntries_keeps (packageId : String) (staged : Folder) :
    ∀ (entries : List MediaIndexEntry) (summary : MediaImportSummary),
    Keeps view (importEntries p f packageId staged entries summary)
  | [], _ => .give
  | e :: entries, summary =>
    (importEntry_keeps hview packageId staged e summary).orFail
      (fun _ => (rollbackCreatedMedia_keeps hview packageId _).bind fun _ => .give)
      fun summary => importEntries_keeps packageId staged entries summary

theorem importPackageMedia_keeps (packageId : String) (staged : Folder) :
    Keeps view (importPackageMedia p f packageId staged) := by
  unfold importPackageMedia
  split
  · exact (releasePackage_keeps hview packageId).andThen fun _ => .give
  · refine (tryRead_keeps _ _).andThen fun parsed => ?_
    cases parsed with
    | error _ => exact .give
    | ok entries =>
      exact (releasePackage_keeps hview packageId).andThen fun _ =>
        importEntries_keeps hview packageId staged _ _

theorem restoreItems_keeps (name : String) : ∀ ids : List String, Keeps view (restoreItems name ids)
  | [] => .give
  | id :: ids => by
    have hrest := restoreItems_keeps name ids
    refine (tryRead_keeps _ _).andThen fun found => ?_
    cases found with
    | none => exact .give
    | some bytes =>
      refine .reading fun w => ?_
      split_ifs
      · exact hrest
      · refine Keeps.andThen (.effect fun a w => ?_) fun _ => hrest
        split
        · rfl
        · split_ifs
          · exact hview w _
          · rfl

theorem removeItems_keeps (original : List String) : ∀ ms : List MediaMetadata,
    Keeps view (removeItems p f original ms)
  | [] => .give
  | m :: ms => by
    have hrest := removeItems_keeps original ms
    rw [removeItems]
    split_ifs
    · exact hrest
    · exact (setRefs_keeps hview _ _).andThen fun _ => (deleteItem_keeps hview _).andThen fun _ => hrest

theorem rollbackImportMedia_keeps (name : String) (original : List String) :
    Keeps view (rollbackImportMedia p f name original) :=
  (restoreItems_keeps hview name original).andThen fun _ => (tryRead_keeps _ _).andThen fun items =>
    removeItems_keeps hview original items

end

/-! ### The swap -/

section
variable {Manifest : Type} {p : Platform} {f : Formats Manifest} {r : ImportRequest}
  {w₀ w w' : World}

/-- Where the package is, after the last move. -/
def afterMove (r : ImportRequest) (w₀ : World) : Option Move → Option Folder
  | none | some .putBack => w₀.packages r.pkg
  | some .aside | some .withdraw => none
  | some .install => w₀.staging r.staged

/-- The package is where the last move put it, and no other package is concerned. -/
structure Placed (r : ImportRequest) (w₀ w : World) : Prop where
  here : w.packages r.pkg = afterMove r w₀ w.moves.head?
  there : ∀ q, q ≠ r.pkg → w.packages q = w₀.packages q

/-- INVARIANT: and the next move finds what it needs. -/
structure Stand (r : ImportRequest) (w₀ : World) (old : Bool) (last : Option Move) (w : World) :
    Prop where
  placed : Placed r w₀ w
  moved : w.moves.head? = last
  staged : last ≠ some .install → w.staging r.staged = w₀.staging r.staged
  trash : old = true → last ≠ none → last ≠ some .putBack → w.staging r.trash = w₀.packages r.pkg

/-- What the swap looks at. -/
def swapView (r : ImportRequest) (w : World) :
    (String → Option Folder) × List Move × Option Folder × Option Folder :=
  (w.packages, w.moves, w.staging r.staged, w.staging r.trash)

theorem Placed.congr (hpackages : w'.packages = w.packages) (hmoves : w'.moves = w.moves)
    (hp : Placed r w₀ w) : Placed r w₀ w' :=
  ⟨by rw [hpackages, hmoves]; exact hp.here, by rw [hpackages]; exact hp.there⟩

theorem Stand.congr {old : Bool} {last : Option Move} (h : swapView r w' = swapView r w)
    (hs : Stand r w₀ old last w) : Stand r w₀ old last w' := by
  obtain ⟨hpackages, hmoves, hstaged, htrash⟩ : w'.packages = w.packages ∧ w'.moves = w.moves ∧
      w'.staging r.staged = w.staging r.staged ∧ w'.staging r.trash = w.staging r.trash := by
    simpa only [swapView, Prod.mk.injEq] using h
  refine ⟨hs.placed.congr hpackages hmoves, by rw [hmoves]; exact hs.moved, ?_, ?_⟩
  · rw [hstaged]
    exact hs.staged
  · rw [htrash]
    exact hs.trash

theorem Stand.keeps {α : Type} {q : Prog Answer World α} {old : Bool} {last : Option Move}
    (h : Keeps (swapView r) q) :
    Triple (Stand r w₀ old last) q (fun _ => Stand r w₀ old last) (Placed r w₀) := by
  intro tape w hw
  have hview := h tape w
  cases hrun : q tape w <;> rw [hrun] at hview
  · exact (hw.congr hview).placed
  · exact hw.congr hview

theorem Placed.keeps {α : Type} {q : Prog Answer World α}
    (h : Keeps (fun w => (w.packages, w.moves)) q) :
    Triple (Placed r w₀) q (fun _ => Placed r w₀) (Placed r w₀) :=
  h.triple fun _ _ hview hp => hp.congr (congrArg Prod.fst hview) (congrArg Prod.snd hview)

/-- STEP: a move out of the package's place. -/
theorem Stand.takeOut {old : Bool} {last : Option Move} (hr : r.Distinct)
    (hs : Stand r w₀ old last w) {move : Move} {name : String} {folder : Folder}
    (hmove : move = .aside ∧ last = none ∧ name = r.trash ∨
      move = .withdraw ∧ last = some .install ∧ name = r.staged)
    (hfolder : w.packages r.pkg = some folder) :
    Stand r w₀ old (some move) (w.takeOut move r.pkg name folder) := by
  have hhere : w.packages r.pkg = afterMove r w₀ last := hs.moved ▸ hs.placed.here
  have hplaced : Placed r w₀ (w.takeOut move r.pkg name folder) := by
    refine ⟨?_, fun q hq => ?_⟩
    · rcases hmove with ⟨rfl, -, -⟩ | ⟨rfl, -, -⟩ <;>
        simp [World.takeOut, World.setPackage, World.setStaging, afterMove]
    · simpa [World.takeOut, World.setPackage, World.setStaging, hq] using hs.placed.there q hq
  refine ⟨hplaced, rfl, fun _ => ?_, fun hold _ _ => ?_⟩
  · rcases hmove with ⟨rfl, hlast, rfl⟩ | ⟨rfl, hlast, rfl⟩
    · rw [hlast] at hs
      simpa [World.takeOut, World.setPackage, World.setStaging, hr.trash.symm] using hs.staged (by simp)
    · rw [hlast, hfolder] at hhere
      exact (if_pos rfl).trans hhere
  · rcases hmove with ⟨rfl, hlast, rfl⟩ | ⟨rfl, hlast, rfl⟩
    · rw [hlast, hfolder] at hhere
      exact (if_pos rfl).trans hhere
    · rw [hlast] at hs
      simpa [World.takeOut, World.setPackage, World.setStaging, hr.trash] using
        hs.trash hold (by simp) (by simp)

/-- STEP: a move into the package's place. -/
theorem Stand.putIn {old : Bool} {last : Option Move} (hr : r.Distinct)
    (hs : Stand r w₀ old last w) {move : Move} {name : String} {folder : Folder}
    (hmove : move = .install ∧ (last = none ∧ old = false ∨ last = some .aside) ∧ name = r.staged ∨
      move = .putBack ∧ (last = some .aside ∨ last = some .withdraw) ∧ old = true ∧ name = r.trash)
    (hfolder : w.staging name = some folder) :
    Stand r w₀ old (some move) (w.putIn move r.pkg name folder) := by
  have hplaced : Placed r w₀ (w.putIn move r.pkg name folder) := by
    refine ⟨?_, fun q hq => ?_⟩
    · rcases hmove with ⟨rfl, hlast, rfl⟩ | ⟨rfl, hlast, hold, rfl⟩
      · have hstaged := hs.staged (by rcases hlast with ⟨rfl, -⟩ | rfl <;> simp)
        simp [World.putIn, World.setPackage, World.setStaging, afterMove, ← hstaged, hfolder]
      · have htrash := hs.trash hold (by rcases hlast with rfl | rfl <;> simp)
          (by rcases hlast with rfl | rfl <;> simp)
        simp [World.putIn, World.setPackage, World.setStaging, afterMove, ← htrash, hfolder]
    · simpa [World.putIn, World.setPackage, World.setStaging, hq] using hs.placed.there q hq
  refine ⟨hplaced, rfl, fun hne => ?_, fun hold _ hne => ?_⟩
  · rcases hmove with ⟨rfl, hlast, rfl⟩ | ⟨rfl, hlast, -, rfl⟩
    · exact absurd rfl hne
    · have hstaged := hs.staged (by rcases hlast with rfl | rfl <;> simp)
      simpa [World.putIn, World.setPackage, World.setStaging, hr.trash.symm] using hstaged
  · rcases hmove with ⟨rfl, hlast, rfl⟩ | ⟨rfl, -, -, -⟩
    · rcases hlast with ⟨-, hno⟩ | rfl
      · rw [hold] at hno
        cases hno
      · have htrash := hs.trash hold (by simp) (by simp)
        simpa [World.putIn, World.setPackage, World.setStaging, hr.trash] using htrash
    · exact absurd rfl hne

theorem takeOut_rule (hr : r.Distinct) {old : Bool} {last : Option Move} {move : Move} {name : String}
    (hmove : move = .aside ∧ last = none ∧ name = r.trash ∨
      move = .withdraw ∧ last = some .install ∧ name = r.staged) :
    Triple (Stand r w₀ old last) (moveDir move r.pkg name)
      (either (fun _ => Stand r w₀ old last) fun _ => Stand r w₀ old (some move)) (Placed r w₀) := by
  refine (moveDir_rule (fun _ hw => hw.placed) move r.pkg name).post fun a w' hw' => ?_
  cases a with
  | error _ => exact hw'
  | ok _ =>
    obtain ⟨w, folder, hw, hmoved⟩ := hw'
    rw [World.Moved, if_pos (by rcases hmove with h | h <;> simp [h.1])] at hmoved
    obtain ⟨hfolder, rfl⟩ := hmoved
    exact hw.takeOut hr hmove hfolder

theorem putIn_rule (hr : r.Distinct) {old : Bool} {last : Option Move} {move : Move} {name : String}
    (hmove : move = .install ∧ (last = none ∧ old = false ∨ last = some .aside) ∧ name = r.staged ∨
      move = .putBack ∧ (last = some .aside ∨ last = some .withdraw) ∧ old = true ∧ name = r.trash) :
    Triple (Stand r w₀ old last) (moveDir move r.pkg name)
      (either (fun _ => Stand r w₀ old last) fun _ => Stand r w₀ old (some move)) (Placed r w₀) := by
  refine (moveDir_rule (fun _ hw => hw.placed) move r.pkg name).post fun a w' hw' => ?_
  cases a with
  | error _ => exact hw'
  | ok _ =>
    obtain ⟨w, folder, hw, hmoved⟩ := hw'
    rw [World.Moved, if_neg (by rcases hmove with h | h <;> simp [h.1])] at hmoved
    obtain ⟨hfolder, rfl⟩ := hmoved
    exact hw.putIn hr hmove hfolder

theorem removeStaging_keeps (name : String) :
    Keeps (fun w : World => (w.packages, w.moves)) (removeStaging name) := by
  refine .effect fun a w => ?_
  dsimp only
  split_ifs <;> rfl

/-- The last move before a rollback. -/
def Swap.last (swap : Swap) : Option Move :=
  if swap.installedNew then some .install else if swap.movedOld then some .aside else none

/-- RUN: the rollback, wherever it is cut off or fails. -/
theorem undoImport_placed (hr : r.Distinct) (original : List String) (swap : Swap) (error : String) :
    Triple (Stand r w₀ swap.movedOld swap.last) (undoImport p f r original swap error)
      (fun _ => Placed r w₀) (Placed r w₀) := by
  obtain ⟨old, new⟩ := swap
  have hback : ∀ last, (last = some .aside ∨ last = some .withdraw) ∨ old = false →
      Triple (Stand r w₀ old last) (if old then moveDir .putBack r.pkg r.trash else give (.ok ()))
        (either (fun _ => Placed r w₀) fun _ => Placed r w₀) (Placed r w₀) := by
    intro last hlast
    cases old with
    | false => exact .give fun _ hw => hw.placed
    | true =>
      have hlast := hlast.resolve_right (by simp)
      refine (putIn_rule hr (.inr ⟨rfl, hlast, rfl, rfl⟩)).post fun a w hw => ?_
      cases a <;> exact hw.placed
  refine Triple.orFail (E := fun _ => Placed r w₀) (K := fun _ => Placed r w₀) ?_
    (fun _ => .give fun _ hw => hw) fun _ => ?_
  · cases new with
    | false =>
      refine Triple.andThen (E := fun _ _ => False) (K := fun _ => Stand r w₀ old _) (.give fun _ hw => hw)
        (fun _ _ h => h.elim) fun _ => hback _ ?_
      cases old with
      | false => exact .inr rfl
      | true => exact .inl (.inl rfl)
    | true =>
      exact (takeOut_rule hr (.inr ⟨rfl, rfl, rfl⟩)).andThen (fun _ _ hw => hw.placed) fun _ =>
        hback _ (.inl (.inr rfl))
  · have hkeep : Keeps (fun w : World => (w.packages, w.moves)) ((rollbackImportMedia p f r.snapshot
        original).orFail (fun _ => give (.error (.rollback "媒体回滚失败"))) fun _ =>
          removeStaging r.staged >>= fun _ => removeStaging r.snapshot >>= fun _ =>
            give (.error (.failed error) : Except ImportError ImportOutcome)) :=
      (rollbackImportMedia_keeps (fun _ _ => rfl) _ _).orFail (fun _ => .give) fun _ =>
        (removeStaging_keeps _).bind fun _ => (removeStaging_keeps _).bind fun _ => .give
    exact Placed.keeps hkeep

theorem snapshotItems_keeps (hr : r.Distinct) : ∀ (ms : List MediaMetadata) (ids : List String),
    Keeps (swapView r) (snapshotItems f r.snapshot ms ids)
  | [], _ => .give
  | m :: ms, ids => by
    rw [snapshotItems]
    split
    · exact .give
    refine (tryRead_keeps _ _).andThen fun found => ?_
    cases found with
    | none => exact .give
    | some bytes =>
      dsimp only
      split
      · exact .give
      split
      · exact .give
      refine Keeps.andThen (.effect fun a w => ?_) fun _ => snapshotItems_keeps hr ms _
      split
      · rfl
      · split_ifs
        · simp [swapView, World.setStaging, hr.staged.symm, hr.snapshot.symm]
        · rfl

theorem snapshotImportMedia_keeps (hr : r.Distinct) :
    Keeps (swapView r) (snapshotImportMedia f r.snapshot) := by
  refine Keeps.andThen (.effect fun a w => ?_) fun _ => (tryRead_keeps _ _).andThen fun items =>
    snapshotItems_keeps hr items []
  split_ifs
  · simp [swapView, World.setStaging, hr.staged.symm, hr.snapshot.symm]
  · rfl

theorem publishImport_placed (hr : r.Distinct) (original : List String) (old : Bool)
    (presets : List PackagePreset) :
    Triple (Stand r w₀ old (some .install)) (publishImport p f r original old presets)
      (fun _ => Placed r w₀) (Placed r w₀) := by
  refine Triple.orFail (E := fun _ => Stand r w₀ old (some .install)) (K := fun _ => Placed r w₀) ?_
    (fun error => undoImport_placed hr original ⟨old, true⟩ error) fun _ => ?_
  · refine (Stand.keeps ((tryRead_keeps _ _).andThen fun found => ?_)).post fun a w hw => ?_
    · cases found with
      | none => exact .give
      | some m =>
        refine .effect fun a w => ?_
        split
        · rfl
        · split_ifs <;> rfl
    · cases a with
      | error _ => exact hw
      | ok _ => exact hw.placed
  · refine Placed.keeps (Keeps.bind ?_ fun _ => (removeStaging_keeps _).bind fun _ => .give)
    split_ifs
    · exact removeStaging_keeps _
    · exact .give

/-- Before the first move it does not matter whether there is an old directory. -/
theorem Stand.start {old old' : Bool} (h : Stand r w₀ old none w) : Stand r w₀ old' none w :=
  ⟨h.placed, h.moved, h.staged, fun _ hne => absurd rfl hne⟩

theorem installImport_placed (hr : r.Distinct) (original : List String)
    (presets : List PackagePreset) :
    Triple (Stand r w₀ false none) (installImport p f r original presets)
      (fun _ => Placed r w₀) (Placed r w₀) := by
  refine .reading fun w hw => ?_
  cases hfolder : w.packages r.pkg with
  | none =>
    refine Triple.orFail (E := fun _ _ => False) (K := fun _ => Stand r w₀ false none)
      (.give fun t ht => ht.1) (fun _ _ _ h => h.elim) fun _ => ?_
    exact (putIn_rule hr (.inl ⟨rfl, .inl ⟨rfl, rfl⟩, rfl⟩)).orFail
      (fun error => undoImport_placed hr original ⟨false, false⟩ error)
      fun _ => publishImport_placed hr original false presets
  | some folder =>
    refine Triple.orFail (E := fun _ => Stand r w₀ true none) (K := fun _ => Stand r w₀ true (some .aside))
      ((takeOut_rule hr (.inl ⟨rfl, rfl, rfl⟩)).pre fun t ht => ht.1.start)
      (fun error => (undoImport_placed hr original ⟨false, false⟩ error).pre fun t ht => ht.start)
      fun _ => ?_
    exact (putIn_rule hr (.inl ⟨rfl, .inr rfl, rfl⟩)).orFail
      (fun error => undoImport_placed hr original ⟨true, false⟩ error)
      fun _ => publishImport_placed hr original true presets

/-- RUN: wherever an import is cut off, the package is where the last move put it. -/
theorem commitPackageImport_placed (hr : r.Distinct) (hmoves : w₀.moves = []) :
    Triple (fun w => w = w₀) (commitPackageImport p f r) (fun _ => Placed r w₀) (Placed r w₀) := by
  have hplaced : Placed r w₀ w₀ := ⟨by rw [hmoves]; rfl, fun _ _ => rfl⟩
  have hstand : Stand r w₀ false none w₀ :=
    ⟨hplaced, by rw [hmoves]; rfl, fun _ => rfl, fun _ h _ => absurd rfl h⟩
  have hremove : ∀ {α : Type} (name : String) (a : α), Triple (fun w => w = w₀)
      (removeStaging name >>= fun _ => give a) (fun _ => Placed r w₀) (Placed r w₀) :=
    fun name a => (Placed.keeps ((removeStaging_keeps name).bind fun _ => .give)).pre fun t ht =>
      ht ▸ hplaced
  refine .reading fun w hw => ?_
  split
  · exact .give fun t ht => ht.2 ▸ hw ▸ hplaced
  split
  · exact (hremove r.staged _).pre fun t ht => ht.1
  split
  · exact (hremove r.staged _).pre fun t ht => ht.1
  split
  · exact (hremove r.staged _).pre fun t ht => ht.1
  refine Triple.orFail (E := fun _ => Stand r w₀ false none) (K := fun _ => Stand r w₀ false none) ?_
    (fun error => ?_) fun original => ?_
  · have hkeep : Triple (Stand r w₀ false none) (snapshotImportMedia f r.snapshot) _ _ :=
      Stand.keeps (snapshotImportMedia_keeps hr)
    refine hkeep.conseq (fun t ht => ?_) fun a t ht => ?_
    · rw [ht.1]
      exact hstand
    · cases a <;> exact ht
  · exact (Placed.keeps ((removeStaging_keeps _).bind fun _ => (removeStaging_keeps _).bind
      fun _ => .give)).pre fun t ht => ht.placed
  · refine Triple.orFail (E := fun _ => Stand r w₀ false none) (K := fun _ => Stand r w₀ false none) ?_
      (fun error => undoImport_placed hr original ⟨false, false⟩ error)
      fun _ => installImport_placed hr original _
    refine (Stand.keeps (importPackageMedia_keeps (fun _ _ => rfl) _ _)).post fun a w hw => ?_
    cases a <;> exact hw

end

end Gamer.Packages
