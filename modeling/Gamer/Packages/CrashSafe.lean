import Gamer.Lib.Results
import Gamer.Packages.Atomic
import Gamer.Packages.Store
import Gamer.Packages.Swap

/-! After a crash. Every file that an operation does not name is as it was, since files are written
    under hidden names first; a package that is replaced is lost in between the two moves, and one
    whose manifest is edited if the text does not read back:

        .a.tmp ──rename──▶ a            aside ─ ─ crash ─ ─ install            text ──parse──▶ none -/

namespace Gamer.Packages
open Gamer.Lib Gamer.Lib.Prog

/-! ### Files -/

theorem file_putFile (w : World) (pkg : String) (path : List String) (bytes : ByteArray) (q : String)
    (path' : List String) : (w.putFile pkg path bytes).file q path' =
      if q = pkg ∧ path' = path then some bytes else w.file q path' := by
  by_cases hq : q = pkg
  · subst hq
    by_cases hpath : path' = path
    · simp [World.file, World.putFile, World.setPackage, Folder.put, hpath]
    · cases hfolder : w.packages q <;>
        simp [World.file, World.putFile, World.setPackage, Folder.put, hpath, hfolder, noFiles]
  · simp [World.file, World.putFile, World.setPackage, hq]

theorem file_eraseFile (w : World) (pkg : String) (path : List String) (q : String)
    (path' : List String) : (w.eraseFile pkg path).file q path' =
      if q = pkg ∧ path' = path then none else w.file q path' := by
  by_cases hq : q = pkg
  · subst hq
    by_cases hpath : path' = path
    · cases hfolder : w.packages q <;>
        simp [World.file, World.eraseFile, World.setPackage, hpath, hfolder]
    · cases hfolder : w.packages q <;>
        simp [World.file, World.eraseFile, World.setPackage, hpath, hfolder]
  · simp [World.file, World.eraseFile, World.setPackage, hq]

/-- The name does not start with a dot. -/
def isVisible (path : List String) : Bool := (path.getLastD "").toList.head? ≠ some '.'

theorem tempPath_hidden (path : List String) (fresh : String) :
    isVisible (tempPath path fresh) = false := by
  simp [isVisible, tempPath, String.toList_append]

theorem tempPath_ne (path : List String) (fresh : String) : tempPath path fresh ≠ path := by
  intro heq
  have hlast := congrArg (fun l : List String => (l.getLastD "").toList.length) heq
  simp only [tempPath, List.getLastD_eq_getLast?, List.getLast?_append, List.getLast?_singleton] at hlast
  simp [String.length_toList] at hlast
  omega

section
variable {pkg : String} {path : List String} {bytes : ByteArray} {w₁ w w' : World}

/-- INVARIANT: a write has replaced the file, or not yet, and hidden files are all else there is. -/
structure Replaced (pkg : String) (path : List String) (bytes : ByteArray) (w₁ w : World) : Prop where
  others : ∀ q path', isVisible path' = true → ¬(q = pkg ∧ path' = path) →
    w.file q path' = w₁.file q path'
  here : w.file pkg path = w₁.file pkg path ∨ w.file pkg path = some bytes

theorem Replaced.refl : Replaced pkg path bytes w w := ⟨fun _ _ _ _ => rfl, .inl rfl⟩

/-- FRAME: nothing but a hidden file changes. -/
theorem Replaced.hidden (h : Replaced pkg path bytes w₁ w) {temp : List String}
    (htemp : isVisible temp = false) (hne : temp ≠ path)
    (hsame : ∀ q path', ¬(q = pkg ∧ path' = temp) → w'.file q path' = w.file q path') :
    Replaced pkg path bytes w₁ w' := by
  refine ⟨fun q path' hvisible hnot => ?_, ?_⟩
  · rw [hsame q path' fun heq => by rw [heq.2, htemp] at hvisible; cases hvisible]
    exact h.others q path' hvisible hnot
  · rw [hsame pkg path fun heq => hne heq.2.symm]
    exact h.here

theorem makeDir_keeps (pkg : String) : Keeps World.file (makeDir pkg) := by
  refine .effect fun a w => ?_
  split_ifs
  · funext q path
    by_cases hq : q = pkg
    · subst hq
      cases hfolder : w.packages q <;>
        simp [World.file, World.setPackage, hfolder, noFiles]
    · simp [World.file, World.setPackage, hq]
  · rfl

/-- What the temporary file has. -/
structure Temp (pkg : String) (path : List String) (bytes : ByteArray) (w₁ : World)
    (temp : List String) (content : ByteArray) (w : World) : Prop where
  replaced : Replaced pkg path bytes w₁ w
  hidden : isVisible temp = false
  apart : temp ≠ path
  content : w.file pkg temp = some content

theorem createTemp_rule : Triple (Replaced pkg path bytes w₁) (createTemp pkg path)
    (either (fun _ => Replaced pkg path bytes w₁) fun temp => Temp pkg path bytes w₁ temp ⟨#[]⟩)
    (Replaced pkg path bytes w₁) := by
  refine .effect (fun _ hw => hw) fun a w hw => ?_
  dsimp only
  split_ifs
  · have hhidden := tempPath_hidden path a.fresh
    have hne := tempPath_ne path a.fresh
    refine ⟨hw.hidden hhidden hne fun q path' hnot => ?_, hhidden, hne, ?_⟩
    · rw [file_putFile, if_neg hnot]
    · rw [file_putFile, if_pos ⟨rfl, rfl⟩]
  · exact hw

theorem writeTemp_rule {temp : List String} {content : ByteArray} :
    Triple (Temp pkg path bytes w₁ temp content) (writeTemp pkg temp bytes)
      (either (fun _ => Temp pkg path bytes w₁ temp content) fun _ => Temp pkg path bytes w₁ temp bytes)
      (Replaced pkg path bytes w₁) := by
  refine .effect (fun _ hw => hw.replaced) fun a w hw => ?_
  split_ifs
  · refine ⟨hw.replaced.hidden hw.hidden hw.apart fun q path' hnot => ?_, hw.hidden, hw.apart, ?_⟩
    · rw [file_putFile, if_neg hnot]
    · rw [file_putFile, if_pos ⟨rfl, rfl⟩]
  · exact hw

theorem moveFile_rule {temp : List String} :
    Triple (Temp pkg path bytes w₁ temp bytes) (moveFile pkg temp path)
      (either (fun _ => Replaced pkg path bytes w₁) fun _ => Replaced pkg path bytes w₁)
      (Replaced pkg path bytes w₁) := by
  refine .effect (fun _ hw => hw.replaced) fun a w hw => ?_
  rw [hw.content]
  dsimp only
  split_ifs
  · refine ⟨fun q path' hvisible hnot => ?_, .inr ?_⟩
    · have htemp : ¬(q = pkg ∧ path' = temp) := fun heq => by
        rw [heq.2, hw.hidden] at hvisible
        cases hvisible
      rw [file_putFile, if_neg hnot, file_eraseFile, if_neg htemp]
      exact hw.replaced.others q path' hvisible hnot
    · rw [file_putFile, if_pos ⟨rfl, rfl⟩]
  · exact hw.replaced

theorem removeTemp_rule {temp : List String} (hhidden : isVisible temp = false) (hne : temp ≠ path) :
    Triple (Replaced pkg path bytes w₁) (removeFile pkg temp) (fun _ => Replaced pkg path bytes w₁)
      (Replaced pkg path bytes w₁) := by
  refine .effect (fun _ hw => hw) fun a w hw => ?_
  dsimp only
  split_ifs
  · refine hw.hidden hhidden hne fun q path' hnot => ?_
    rw [file_eraseFile, if_neg hnot]
  · exact hw

/-- RUN: wherever a write is cut off or fails, the file is as it was or as it is written. -/
theorem atomicWrite_rule (pkg : String) (path : List String) (bytes : ByteArray) (w₁ : World) :
    Triple (fun t => t = w₁) (atomicWrite pkg path bytes)
    (either (fun _ => Replaced pkg path bytes w₁) fun _ => Replaced pkg path bytes w₁)
    (Replaced pkg path bytes w₁) := by
  have hdir : Triple (Replaced pkg path bytes w₁) (makeDir pkg) (fun _ => Replaced pkg path bytes w₁)
      (Replaced pkg path bytes w₁) := by
    refine (makeDir_keeps pkg).triple fun w w' hfile hw => ⟨fun q path' => ?_, ?_⟩
    · rw [hfile]
      exact hw.others q path'
    · rw [hfile]
      exact hw.here
  refine Triple.andThen (E := fun _ => Replaced pkg path bytes w₁)
    (K := fun _ => Replaced pkg path bytes w₁) ?_ (fun _ _ hw => hw) fun _ => ?_
  · refine hdir.conseq (fun t ht => ?_) fun a t ht => ?_
    · rw [ht]
      exact .refl
    · cases a <;> exact ht
  refine createTemp_rule.andThen (fun _ _ hw => hw) fun temp => ?_
  refine .each fun w hw => ?_
  refine Triple.orFail (E := fun _ => Replaced pkg path bytes w₁)
    (K := fun _ => Replaced pkg path bytes w₁) ?_
    (fun error => (removeTemp_rule hw.hidden hw.apart).bind fun _ => .give fun _ ht => ht)
    fun _ => .give fun _ ht => ht
  refine (writeTemp_rule.pre fun t ht => ht ▸ hw).andThen (fun _ _ ht => ht.replaced) fun _ => ?_
  refine moveFile_rule.andThen (fun _ _ ht => ht) fun _ => .effect (fun _ ht => ht) fun a t ht => ?_
  split_ifs <;> exact ht

/-! ### Files that are not named -/

variable {named : String → List String → Prop} {w₀ : World}

/-- The visible files that are not named are as they were. -/
def Agrees (named : String → List String → Prop) (w₀ w : World) : Prop :=
  ∀ q path, isVisible path = true → ¬ named q path → w.file q path = w₀.file q path

/-- The rule for a program that keeps them, whatever it results in. -/
abbrev Agreeing {α : Type} (named : String → List String → Prop) (w₀ : World) (q : Step α) : Prop :=
  Triple (Agrees named w₀) q (either (fun _ => Agrees named w₀) fun _ => Agrees named w₀)
    (Agrees named w₀)

theorem Agrees.step (h : Agrees named w₀ w) (hsame : ∀ q path, isVisible path = true → ¬ named q path →
    w'.file q path = w.file q path) : Agrees named w₀ w' :=
  fun q path hvisible hnot => (hsame q path hvisible hnot).trans (h q path hvisible hnot)

theorem Agreeing.of_keeps {α : Type} {q : Step α} (h : Keeps World.file q) : Agreeing named w₀ q := by
  refine (h.triple fun w w' hfile hw => ?_).post fun a w hw => ?_
  · exact Agrees.step hw fun q path _ _ => by rw [hfile]
  · cases a <;> exact hw

theorem Agreeing.andThen {α β : Type} {q : Step α} {k : α → Step β} (hq : Agreeing named w₀ q)
    (hk : ∀ a, Agreeing named w₀ (k a)) : Agreeing named w₀ (q.andThen k) :=
  Triple.andThen hq (fun _ _ hw => hw) hk

theorem Agreeing.give {α : Type} (a : Except String α) : Agreeing named w₀ (give a) := by
  refine Triple.give fun w hw => ?_
  cases a <;> exact hw

theorem Agreeing.reading {α : Type} {k : World → Step α} (h : ∀ w, Agreeing named w₀ (k w)) :
    Agreeing named w₀ (Prog.reading k) :=
  Triple.reading fun w _ => (h w).pre fun _ ht => ht.1

theorem atomicWrite_agrees (bytes : ByteArray) (hpath : isVisible path = true → named pkg path) :
    Agreeing named w₀ (atomicWrite pkg path bytes) := by
  have hrest : ∀ w w', Agrees named w₀ w → Replaced pkg path bytes w w' → Agrees named w₀ w' := by
    intro w w' hw hreplaced
    refine hw.step fun q path' hvisible hnot => hreplaced.others q path' hvisible ?_
    rintro ⟨rfl, rfl⟩
    exact hnot (hpath hvisible)
  intro tape w hw
  have hrun := atomicWrite_rule pkg path bytes w tape w rfl
  cases hend : atomicWrite pkg path bytes tape w with
  | cut w' =>
    rw [hend] at hrun
    exact hrest w w' hw hrun
  | done a w' rest =>
    rw [hend] at hrun
    cases a <;> exact hrest w w' hw hrun

theorem moveFile_agrees {old new : List String} (hold : isVisible old = true → named pkg old)
    (hnew : isVisible new = true → named pkg new) : Agreeing named w₀ (moveFile pkg old new) := by
  refine .effect (fun _ hw => hw) fun a w hw => ?_
  split
  · exact hw
  · split_ifs
    · refine hw.step fun q path hvisible hnot => ?_
      have hne : ∀ other, (isVisible other = true → named pkg other) → ¬(q = pkg ∧ path = other) := by
        rintro other hother ⟨rfl, rfl⟩
        exact hnot (hother hvisible)
      rw [file_putFile, if_neg (hne new hnew), file_eraseFile, if_neg (hne old hold)]
    · exact hw

theorem removeFile_agrees (w₀ : World) (hpath : isVisible path = true → named pkg path) :
    Triple (Agrees named w₀) (removeFile pkg path) (fun _ => Agrees named w₀) (Agrees named w₀) := by
  refine .effect (fun _ hw => hw) fun a w hw => ?_
  dsimp only
  split_ifs
  · refine hw.step fun q path' hvisible hnot => ?_
    rw [file_eraseFile, if_neg]
    rintro ⟨rfl, rfl⟩
    exact hnot (hpath hvisible)
  · exact hw

theorem copyFiles_agrees (src : String) {dst : String} (hdst : ∀ path, named dst path) :
    ∀ paths : List (List String), Agreeing named w₀ (copyFiles src dst paths)
  | [] => .give _
  | path :: paths => by
    have hrest := copyFiles_agrees src hdst paths
    rw [copyFiles]
    split
    · exact hrest
    · refine Agreeing.andThen (.effect (fun _ hw => hw) fun a w hw => ?_) fun _ => hrest
      split
      · exact hw
      · split_ifs
        · refine hw.step fun q path' _ hnot => ?_
          rw [file_putFile, if_neg]
          rintro ⟨rfl, rfl⟩
          exact hnot (hdst _)
        · exact hw

/-! ### The operations -/

variable {p : Platform} {s : StoreFormats p}

theorem readManifest_keeps (src : String) : Keeps id (readManifest p s src) := by
  unfold readManifest
  split
  · exact .give
  · refine (tryRead_keeps _ _).andThen fun found => ?_
    cases found with
    | none => exact .give
    | some m => exact .give

theorem intoManifest_id {t : TextFormats} {input : PackageInput} {revision : Nat}
    {m : PackageManifest} (h : input.intoManifest p t revision = .ok m) :
    m.id = input.id ∧ m.revision = revision := by
  unfold PackageInput.intoManifest at h
  obtain ⟨_, _, h⟩ := bind_eq_ok.mp h
  obtain ⟨_, _, h⟩ := bind_eq_ok.mp h
  dsimp only at h
  split at h
  · cases h
  split at h
  · cases h
  obtain ⟨_, _, h⟩ := bind_eq_ok.mp h
  obtain ⟨_, _, h⟩ := bind_eq_ok.mp h
  obtain ⟨_, _, h⟩ := bind_eq_ok.mp h
  split at h
  · cases h
  obtain ⟨_, _, h⟩ := bind_eq_ok.mp h
  cases h
  exact ⟨rfl, rfl⟩

/-- The package of this id, if it is new. -/
def newPackage (w₀ : World) (id : String) (q : String) (_ : List String) : Prop :=
  q = id ∧ w₀.packages q = none

theorem Agrees.refl (named : String → List String → Prop) (w : World) : Agrees named w w :=
  fun _ _ _ _ => rfl

/-- RUN: a package that is created is the only one that changes. -/
theorem createPackage_agrees (input : PackageInput) :
    Triple (fun w => w = w₀) (createPackage p s input)
      (either (fun _ => Agrees (newPackage w₀ input.id) w₀) fun _ =>
        Agrees (newPackage w₀ input.id) w₀) (Agrees (newPackage w₀ input.id) w₀) := by
  unfold createPackage
  split
  · exact .give fun w hw => hw ▸ .refl _ _
  rename_i m hm
  rw [← (intoManifest_id hm).1]
  refine .reading fun w hw => ?_
  split_ifs with hsome
  · exact .give fun t ht => ht.1 ▸ .refl _ _
  · have hnew : newPackage w₀ m.id m.id = fun _ => True := by
      funext path
      rw [hw] at hsome
      simpa [newPackage] using hsome
    have hrun : Agreeing (newPackage w₀ m.id) w₀ ((makeDir m.id).andThen fun _ =>
        (makeDir m.id).andThen fun _ => (makeDir m.id).andThen fun _ =>
          (atomicWrite m.id manifestPath (manifestBytes m)).andThen fun _ => Prog.give (.ok m)) :=
      (Agreeing.of_keeps (makeDir_keeps _)).andThen fun _ =>
        (Agreeing.of_keeps (makeDir_keeps _)).andThen fun _ =>
          (Agreeing.of_keeps (makeDir_keeps _)).andThen fun _ =>
            (atomicWrite_agrees _ fun _ => hnew ▸ trivial).andThen fun _ => .give _
    exact hrun.pre fun t ht => ht.1 ▸ .refl _ _

/-- RUN: and so is the copy of a package. -/
theorem duplicatePackage_agrees (src newId : String) :
    Triple (fun w => w = w₀) (duplicatePackage p s src newId)
      (either (fun _ => Agrees (newPackage w₀ newId) w₀) fun _ => Agrees (newPackage w₀ newId) w₀)
      (Agrees (newPackage w₀ newId) w₀) := by
  unfold duplicatePackage
  split
  · exact .give fun w hw => hw ▸ .refl _ _
  have hagrees : ∀ w, w.packages = w₀.packages → Agrees (newPackage w₀ newId) w₀ w := by
    intro w hw q path _ _
    rw [World.file, hw, World.file]
  have hread : Triple (fun w => w = w₀) (readManifest p s src)
      (either (fun _ => Agrees (newPackage w₀ newId) w₀) fun _ w => w.packages = w₀.packages)
      (Agrees (newPackage w₀ newId) w₀) := by
    have hkeep : Keeps World.packages (readManifest p s src) := .of_id (readManifest_keeps src)
    intro tape w hw
    have hview := hkeep tape w
    rw [hw] at hview
    rw [hw]
    cases hrun : readManifest p s src tape w₀ with
    | cut w' =>
      rw [hrun] at hview
      exact hagrees w' hview
    | done a w' rest =>
      rw [hrun] at hview
      cases a with
      | error _ => exact hagrees w' hview
      | ok _ => exact hview
  refine hread.andThen (fun _ _ hw => hw) fun source => .reading fun w hw => ?_
  split_ifs with hsome
  · exact .give fun t ht => hagrees t ht.1
  · have hnew : ∀ path, newPackage w₀ newId newId path := by
      intro path
      rw [hw] at hsome
      exact ⟨rfl, by simpa using hsome⟩
    have hwrite : Agreeing (newPackage w₀ newId) w₀ (atomicWrite newId manifestPath
        (manifestBytes { source with id := newId, revision := 1 })) :=
      atomicWrite_agrees _ fun _ => hnew _
    have hrun : Agreeing (newPackage w₀ newId) w₀ _ :=
      (Agreeing.of_keeps (makeDir_keeps newId)).andThen fun _ =>
        (copyFiles_agrees src hnew (s.readDir ((w.packages src).getD noFiles))).andThen fun _ =>
          hwrite.andThen fun _ => .give (.ok { source with id := newId, revision := 1 })
    exact hrun.pre fun t ht => hagrees t ht.1

/-! ### Resources -/

/-- A path that is written to names this place. -/
def written (p : Platform) (pkg plugin path : String) (place : Place) : Prop :=
  (normalizeWrittenPath p path >>= resourcePath pkg plugin) = .ok place

/-- The places of a call. -/
def Call.Names (p : Platform) (place : Place) : Call → Prop
  | .writeText pkg plugin path _ _ _ | .writeBinary pkg plugin path _ _ _ =>
    written p pkg plugin path place
  | .replaceBinary pkg plugin oldPath newPath _ _ | .renameResource pkg plugin oldPath newPath =>
    written p pkg plugin oldPath place ∨ written p pkg plugin newPath place
  | .deleteResource pkg plugin path => locate p pkg plugin path = .ok place

/-- The places of what is done next. -/
def Phase.Names (place : Place) : Phase → Prop
  | .writing q _ _ _ | .removing q => place = q
  | .staging old new _ _ | .moving old new => place = old ∨ place = new
  | _ => False

theorem lookWrite_names {current : ByteArray → String} {d : Disk} {pkg plugin path : String}
    {bytes : ByteArray} {expected : Option String} {force : Bool} {phase : Phase}
    (h : lookWrite p current d pkg plugin path bytes expected force = .ok phase) :
    ∀ place, phase.Names place → written p pkg plugin path place := by
  obtain ⟨segs, hsegs, h⟩ := bind_eq_ok.mp h
  obtain ⟨place, hplace, h⟩ := bind_eq_ok.mp h
  obtain ⟨_, _, h⟩ := bind_eq_ok.mp h
  cases h
  rintro _ rfl
  exact bind_eq_ok.mpr ⟨segs, hsegs, hplace⟩

/-- INVERSION: a call does nothing anywhere else. -/
theorem look_names {d : Disk} {readable : Bool} {call : Call} {phase : Phase}
    (h : look p d readable call = .ok phase) : ∀ place, phase.Names place → call.Names p place := by
  cases call with
  | writeText pkg plugin path content expected force => exact lookWrite_names h
  | writeBinary pkg plugin path bytes expected force => exact lookWrite_names h
  | replaceBinary pkg plugin oldPath newPath bytes expected =>
    obtain ⟨old, hold, h⟩ := bind_eq_ok.mp h
    obtain ⟨new, hnew, h⟩ := bind_eq_ok.mp h
    split at h
    · exact fun place hplace => .inl (lookWrite_names h place hplace)
    · obtain ⟨oldPlace, holdPlace, h⟩ := bind_eq_ok.mp h
      obtain ⟨newPlace, hnewPlace, h⟩ := bind_eq_ok.mp h
      cases hfile : d oldPlace with
      | none =>
        rw [hfile] at h
        cases h
      | some original =>
        simp only [hfile] at h
        split_ifs at h
        cases h
        rintro place (rfl | rfl)
        · exact .inl (bind_eq_ok.mpr ⟨old, hold, holdPlace⟩)
        · exact .inr (bind_eq_ok.mpr ⟨new, hnew, hnewPlace⟩)
  | renameResource pkg plugin oldPath newPath =>
    obtain ⟨old, hold, h⟩ := bind_eq_ok.mp h
    obtain ⟨new, hnew, h⟩ := bind_eq_ok.mp h
    split at h
    · cases h
    · obtain ⟨oldPlace, holdPlace, h⟩ := bind_eq_ok.mp h
      obtain ⟨newPlace, hnewPlace, h⟩ := bind_eq_ok.mp h
      split_ifs at h
      cases h
      rintro place (rfl | rfl)
      · exact .inl (bind_eq_ok.mpr ⟨old, hold, holdPlace⟩)
      · exact .inr (bind_eq_ok.mpr ⟨new, hnew, hnewPlace⟩)
  | deleteResource pkg plugin path =>
    obtain ⟨segs, hsegs, h⟩ := bind_eq_ok.mp h
    obtain ⟨place, hplace, h⟩ := bind_eq_ok.mp h
    split_ifs at h
    cases h
    rintro _ rfl
    exact bind_eq_ok.mpr ⟨segs, hsegs, hplace⟩

/-- The files of the places that a call names. -/
def namedFiles (p : Platform) (call : Call) (q : String) (path : List String) : Prop :=
  ∃ place, call.Names p place ∧ q = place.pkg ∧ path = place.path

theorem relocate_agrees {old new : Place} (hold : named old.pkg old.path)
    (hnew : named old.pkg new.path) : Agreeing named w₀ (relocate old new) := by
  refine .reading fun w => ?_
  split
  · exact .give _
  split
  · exact .give _
  · exact (Agreeing.of_keeps (makeDir_keeps _)).andThen fun _ =>
      moveFile_agrees (fun _ => hold) fun _ => hnew

theorem replaceResource_agrees {old new : Place} (hpkg : new.pkg = old.pkg)
    (hold : named old.pkg old.path) (hnew : named old.pkg new.path) (bytes : ByteArray) :
    Agreeing named w₀ (replaceResource old new bytes) := by
  have hnew' : named new.pkg new.path := hpkg ▸ hnew
  have hold' : named new.pkg old.path := hpkg ▸ hold
  have hstaged : Triple (Agrees named w₀) (stagedPath new)
      (fun staged w => Agrees named w₀ w ∧ isVisible staged = false) (Agrees named w₀) :=
    .effect (fun _ hw => hw) fun a w hw => ⟨hw, by simp [isVisible, String.toList_append]⟩
  refine hstaged.bind fun staged => Triple.fact fun hhidden => ?_
  have hspare : ∀ {path}, isVisible staged = true → named new.pkg path := fun h => by
    rw [hhidden] at h
    cases h
  have hremove : Triple (Agrees named w₀) (removeFile new.pkg staged) _ _ :=
    removeFile_agrees w₀ hspare
  refine (atomicWrite_agrees bytes hspare).andThen fun _ => ?_
  refine Triple.orFail (relocate_agrees hold hnew)
    (fun error => hremove.bind fun _ => .give fun _ hw => hw) fun _ => ?_
  refine Triple.orFail (moveFile_agrees hspare fun _ => hnew') (fun _ => ?_)
    fun _ => .give fun _ hw => hw
  refine Triple.bind (Q := fun _ => Agrees named w₀)
    ((relocate_agrees hnew' hold').post fun a w hw => by cases a <;> exact hw) fun rollback => ?_
  refine hremove.bind fun _ => .give fun w hw => ?_
  cases rollback <;> exact hw

theorem resourcePath_ok {pkg plugin : String} {segs : List String} {place : Place}
    (h : resourcePath pkg plugin segs = .ok place) : place = ⟨pkg, plugin, segs⟩ := by
  obtain ⟨_, _, h⟩ := bind_eq_ok.mp h
  obtain ⟨_, _, h⟩ := bind_eq_ok.mp h
  cases h
  rfl

/-- The package of a call. -/
def Call.target : Call → String
  | .writeText pkg _ _ _ _ _ | .writeBinary pkg _ _ _ _ _ | .replaceBinary pkg _ _ _ _ _
  | .renameResource pkg _ _ _ | .deleteResource pkg _ _ => pkg

theorem written_pkg {pkg plugin path : String} {place : Place}
    (h : written p pkg plugin path place) : place.pkg = pkg := by
  obtain ⟨segs, _, h⟩ := bind_eq_ok.mp h
  rw [resourcePath_ok h]

theorem names_target {call : Call} {place : Place} (h : call.Names p place) :
    place.pkg = call.target := by
  cases call with
  | writeText pkg plugin path content expected force => exact written_pkg h
  | writeBinary pkg plugin path bytes expected force => exact written_pkg h
  | replaceBinary pkg plugin oldPath newPath bytes expected => exact h.elim written_pkg written_pkg
  | renameResource pkg plugin oldPath newPath => exact h.elim written_pkg written_pkg
  | deleteResource pkg plugin path =>
    obtain ⟨segs, _, h⟩ := bind_eq_ok.mp h
    rw [resourcePath_ok h]
    rfl

/-- RUN: a call changes no file but those of its places. -/
theorem resourceCall_agrees (call : Call) :
    Agreeing (namedFiles p call) w₀ (resourceCall p call) := by
  refine Triple.andThen (E := fun _ => Agrees (namedFiles p call) w₀)
    (K := fun phase w => Agrees (namedFiles p call) w₀ w ∧ ∀ place, phase.Names place →
      call.Names p place) (.effect (fun _ hw => hw) fun a w hw => ?_) (fun _ _ hw => hw) fun phase => ?_
  · dsimp only
    cases hlook : look p w.disk a.works call with
    | error _ => exact hw
    | ok phase => exact ⟨hw, look_names hlook⟩
  refine Triple.fact fun hnames => ?_
  have hfile : ∀ place, phase.Names place → namedFiles p call place.pkg place.path :=
    fun place h => ⟨place, hnames place h, rfl, rfl⟩
  have hpair : ∀ old new, phase.Names old → phase.Names new →
      new.pkg = old.pkg ∧ namedFiles p call old.pkg new.path := by
    intro old new hold hnew
    have hpkg : new.pkg = old.pkg := 
      (names_target (hnames new hnew)).trans (names_target (hnames old hold)).symm
    exact ⟨hpkg, hpkg ▸ hfile new hnew⟩
  cases phase with
  | writing place bytes expected force => exact atomicWrite_agrees bytes fun _ => hfile place rfl
  | staging old new bytes expected =>
    have hboth := hpair old new (.inl rfl) (.inr rfl)
    exact replaceResource_agrees hboth.1 (hfile old (.inl rfl)) hboth.2 bytes
  | moving old new =>
    have hboth := hpair old new (.inl rfl) (.inr rfl)
    exact (Agreeing.of_keeps (makeDir_keeps _)).andThen fun _ =>
      moveFile_agrees (fun _ => hfile old (.inl rfl)) fun _ => hboth.2
  | removing place =>
    exact (removeFile_agrees w₀ fun _ => hfile place rfl).bind fun _ => .give fun _ hw => hw
  | idle => exact Agreeing.give _
  | waiting call => exact Agreeing.give _
  | entered call => exact Agreeing.give _
  | relocating old new bytes expected => exact Agreeing.give _
  | publishing old new bytes expected => exact Agreeing.give _

/-! ### The manifest -/

/-- The manifest that an update writes. -/
def updated (p : Platform) (s : StoreFormats p) (w : World) (pkg : String) (input : PackageInput)
    (m : PackageManifest) : Prop :=
  input.id = pkg ∧ ∃ current, w.tryManifest s.media pkg = some current ∧
    input.intoManifest p s.text (current.revision + 1) = .ok m

/-- Nothing but the manifest's file changes, and it has one of two contents. -/
def Updating (p : Platform) (s : StoreFormats p) (pkg : String) (input : PackageInput)
    (w₀ w : World) : Prop :=
  Agrees (fun q path => q = pkg ∧ path = manifestPath) w₀ w ∧
    (w.file pkg manifestPath = w₀.file pkg manifestPath ∨ ∃ m, updated p s w₀ pkg input m ∧
      w.file pkg manifestPath = some (manifestBytes m))

theorem Updating.refl {input : PackageInput} (w : World) : Updating p s pkg input w w :=
  ⟨.refl _ _, .inl rfl⟩

/-- RUN: an update replaces the manifest or leaves it. -/
theorem updateManifest_rule (pkg : String) (input : PackageInput) (expected : Option Nat)
    (force : Bool) :
    Triple (fun w => w = w₀) (updateManifest p s pkg input expected force)
      (either (fun _ => Updating p s pkg input w₀) fun _ => Updating p s pkg input w₀)
      (Updating p s pkg input w₀) := by
  unfold updateManifest
  split
  · exact .give fun w hw => hw ▸ .refl _
  rename_i hid
  have hread : Triple (fun w => w = w₀) (readManifest p s pkg)
      (either (fun _ => Updating p s pkg input w₀) fun m w => w = w₀ ∧
        w₀.tryManifest s.media pkg = some m) (Updating p s pkg input w₀) := by
    unfold readManifest
    split
    · exact .give fun w hw => hw ▸ .refl _
    · refine (tryRead_rule (fun w hw => hw ▸ .refl _) _ _).andThen (fun _ w hw => hw ▸ .refl _)
        fun found => ?_
      cases found with
      | none => exact .give fun w hw => hw.1 ▸ .refl _
      | some m => exact .give fun w hw => ⟨hw.1, by rw [hw.2, hw.1]⟩
  refine hread.andThen (fun _ _ hw => hw) fun current => Triple.fact fun hcurrent => ?_
  split
  · exact .give fun w hw => hw ▸ .refl _
  split
  · exact .give fun w hw => hw ▸ .refl _
  rename_i m hm
  have hwrite : ∀ w, Replaced pkg manifestPath (manifestBytes m) w₀ w → Updating p s pkg input w₀ w :=
    fun w hw => ⟨fun q path hvisible hnot => hw.others q path hvisible hnot,
      hw.here.imp_right fun h => ⟨m, ⟨Decidable.of_not_not hid, current, hcurrent, hm⟩, h⟩⟩
  have hrun : Triple (fun w => w = w₀) (atomicWrite pkg manifestPath (manifestBytes m))
      (either (fun _ => Updating p s pkg input w₀) fun _ => Updating p s pkg input w₀)
      (Updating p s pkg input w₀) := by
    intro tape w hw
    have hrule := atomicWrite_rule pkg manifestPath (manifestBytes m) w₀ tape w hw
    cases hend : atomicWrite pkg manifestPath (manifestBytes m) tape w with
    | cut w' =>
      rw [hend] at hrule
      exact hwrite w' hrule
    | done a w' rest =>
      rw [hend] at hrule
      cases a <;> exact hwrite w' hrule
  exact hrun.andThen (fun _ _ hw => hw) fun _ => .give fun _ hw => hw

/-! ### After the next open -/

/-- The manifest that an operation puts in the place of a package's. -/
def Operation.Puts (p : Platform) (s : StoreFormats p) (w₀ : World) (pkg : String)
    (m : PackageManifest) : Operation → Prop
  | .commitImport r => pkg = r.pkg ∧ ∃ staged, w₀.staging r.staged = some staged ∧
      ((staged manifestPath).bind s.media.parsePackageToml) = some m
  | .updateManifest pkg' input _ _ => pkg = pkg' ∧ updated p s w₀ pkg input m
  | .createPackage _ | .duplicatePackage _ _ | .resource _ => False

/-- The resources that an operation names. -/
def Operation.Names (p : Platform) (place : Place) : Operation → Prop
  | .commitImport r => place.pkg = r.pkg
  | .createPackage input => place.pkg = input.id
  | .duplicatePackage _ newId => place.pkg = newId
  | .updateManifest _ _ _ _ => False
  | .resource call => call.Names p place

/-- No package is lost, and no resource that is not named. -/
structure Survives (p : Platform) (s : StoreFormats p) (op : Operation) (w₀ w : World) : Prop where
  packages : ∀ pkg m, w₀.Lists p s pkg m →
    w.Lists p s pkg m ∨ ∃ m', op.Puts p s w₀ pkg m' ∧ w.Lists p s pkg m'
  resources : ∀ pkg plugin path,
    (∀ place, locate p pkg plugin path = .ok place → ¬ op.Names p place) →
    w.readBinary p pkg plugin path = w₀.readBinary p pkg plugin path

/-- What the store is called with: names that differ, and a staged manifest of the package. -/
def Operation.Called (p : Platform) (s : StoreFormats p) (w₀ : World) : Operation → Prop
  | .commitImport r => r.Distinct ∧ w₀.moves = [] ∧ ∃ staged m, w₀.staging r.staged = some staged ∧
      (staged manifestPath).bind s.media.parsePackageToml = some m ∧ m.id = r.pkg
  | _ => True

/-- The crash is not in between two moves of a package that was listed, and a manifest's text that
    has replaced the old one reads back, as the new manifest or the old. -/
def Operation.Spares (p : Platform) (s : StoreFormats p) (w₀ w : World) : Operation → Prop
  | .commitImport r => (∃ m, w₀.Lists p s r.pkg m) →
      w.moves.head? ≠ some .aside ∧ w.moves.head? ≠ some .withdraw
  | .updateManifest pkg input _ _ => ∀ m, updated p s w₀ pkg input m →
      w.file pkg manifestPath = w₀.file pkg manifestPath ∨
      parsePackageToml p s.text (manifestBytes m) = some m ∨
      parsePackageToml p s.text (manifestBytes m) = w₀.tryManifest s.media pkg
  | _ => True

theorem lists_congr {m : PackageManifest} (h : w.file pkg manifestPath = w₀.file pkg manifestPath)
    (hm : w₀.Lists p s pkg m) : w.Lists p s pkg m := by
  refine ⟨hm.1, ?_⟩
  rw [← hm.2, World.tryManifest, World.tryManifest]
  exact congrArg _ (congrArg (fun file => file.bind s.media.parsePackageToml) h)

theorem lists_iff {m : PackageManifest} :
    w.Lists p s pkg m ↔ validateScopeId "package id" pkg = .ok () ∧ m.id = pkg ∧
      (w.file pkg manifestPath).bind (parsePackageToml p s.text) = some m := by
  rw [World.Lists, World.tryManifest, Option.filter_eq_some_iff, s.parse, s.id, decide_eq_true_iff]
  exact and_congr_right fun _ => and_comm

theorem visible_manifestPath : isVisible manifestPath = true := by decide

theorem sanitizeSegment_visible {seg : List Char} {name : String}
    (h : sanitizeSegment p seg = some name) : name.toList.head? ≠ some '.' := by
  unfold sanitizeSegment at h
  split_ifs at h with hbad
  cases h
  simp only [Bool.or_eq_true, decide_eq_true_eq, not_or] at hbad
  rw [String.toList_ofList]
  exact hbad.1.1.2

/-- INVERSION: as many names as there are segments, and none of them is hidden. -/
theorem mapM_sanitize : ∀ {segs : List (List Char)} {names : List String},
    segs.mapM (sanitizeSegment p) = some names →
    names.length = segs.length ∧ ∀ name ∈ names, name.toList.head? ≠ some '.'
  | [], names, h => by
    cases h
    exact ⟨rfl, fun _ h => by cases h⟩
  | seg :: segs, names, h => by
    rw [List.mapM_cons] at h
    obtain ⟨name, hname, h⟩ := Option.bind_eq_some_iff.mp h
    obtain ⟨rest, hrest, h⟩ := Option.bind_eq_some_iff.mp h
    cases h
    obtain ⟨hlen, hall⟩ := mapM_sanitize hrest
    refine ⟨congrArg (· + 1) hlen, fun other hother => ?_⟩
    rcases List.mem_cons.mp hother with rfl | hother
    · exact sanitizeSegment_visible hname
    · exact hall other hother

/-- A resource is no hidden file. -/
theorem locate_visible {plugin resource : String} {place : Place}
    (h : locate p pkg plugin resource = .ok place) : isVisible place.path = true := by
  obtain ⟨segs, hsegs, h⟩ := bind_eq_ok.mp h
  rw [resourcePath_ok h]
  unfold sanitizeRelPath at hsegs
  split_ifs at hsegs
  split at hsegs
  · rename_i names hnames
    rw [Except.ok.inj hsegs] at hnames
    obtain ⟨hlen, hall⟩ := mapM_sanitize hnames
    have hne : segs ≠ [] := by
      rintro rfl
      exact List.splitOn_ne_nil '/' resource.toList (List.length_eq_zero_iff.mp hlen.symm)
    obtain ⟨init, last, rfl⟩ := (List.eq_nil_or_concat segs).resolve_left hne
    have hlast := hall last (by simp)
    rw [List.concat_eq_append]
    show isVisible (("plugins" :: plugin :: init) ++ [last]) = true
    rw [isVisible, List.getLastD_concat]
    exact decide_eq_true hlast
  · cases hsegs

theorem path_inj {place place' : Place} (hpkg : place.pkg = place'.pkg)
    (hpath : place.path = place'.path) : place = place' := by
  obtain ⟨q, plugin, segs⟩ := place
  obtain ⟨q', plugin', segs'⟩ := place'
  cases hpkg
  simp only [Place.path, List.cons.injEq, true_and] at hpath
  rw [hpath.1, hpath.2]

theorem path_ne_manifest (place : Place) : place.path ≠ manifestPath := by
  simp [Place.path, manifestPath]

/-- Files that are kept are read, and listed, as before. -/
theorem Agrees.survives {op : Operation} (h : Agrees named w₀ w)
    (hmanifest : ∀ pkg m, w₀.Lists p s pkg m → ¬ named pkg manifestPath)
    (hplace : ∀ place, isVisible place.path = true → named place.pkg place.path → op.Names p place) :
    Survives p s op w₀ w := by
  refine ⟨fun pkg m hm => .inl ?_, fun pkg plugin path hnot => ?_⟩
  · exact lists_congr (h pkg manifestPath visible_manifestPath (hmanifest pkg m hm)) hm
  · unfold World.readBinary
    cases hlocate : locate p pkg plugin path with
    | error _ => rfl
    | ok place =>
      have hvisible := locate_visible hlocate
      exact h place.pkg place.path hvisible fun hnamed =>
        hnot place hlocate (hplace place hvisible hnamed)

/-- RUN: an import loses its package exactly in between the moves. -/
theorem placed_survives {r : ImportRequest} (hplaced : Placed r w₀ w) {staged : Folder}
    {m : PackageManifest} (hstaged : w₀.staging r.staged = some staged)
    (hm : (staged manifestPath).bind s.media.parsePackageToml = some m) (hid : m.id = r.pkg) :
    Survives p s (.commitImport r) w₀ w ↔ (Operation.commitImport r).Spares p s w₀ w := by
  have hhere := hplaced.here
  constructor
  · rintro hsurvives ⟨m₀, hm₀⟩
    have hthere : w.packages r.pkg ≠ none := by
      intro hnone
      have hlost : ∀ m, ¬ w.Lists p s r.pkg m := by
        intro m hm
        have hfile := (lists_iff.mp hm).2.2
        rw [World.file, hnone] at hfile
        cases hfile
      rcases hsurvives.packages r.pkg m₀ hm₀ with h | ⟨m', _, h⟩
      · exact hlost _ h
      · exact hlost _ h
    refine ⟨fun hlast => hthere ?_, fun hlast => hthere ?_⟩
    · rw [hhere, hlast]
      rfl
    · rw [hhere, hlast]
      rfl
  · intro hspares
    refine ⟨fun pkg m₀ hm₀ => ?_, fun pkg plugin path hnot => ?_⟩
    · by_cases hpkg : pkg = r.pkg
      · subst hpkg
        have hbefore : w.packages r.pkg = w₀.packages r.pkg → w.Lists p s r.pkg m₀ := fun h =>
          lists_congr (by rw [World.file, h, World.file]) hm₀
        obtain ⟨haside, hwithdraw⟩ := hspares ⟨m₀, hm₀⟩
        cases hlast : w.moves.head? with
        | none => exact .inl (hbefore (by rw [hhere, hlast]; rfl))
        | some move =>
          cases move with
          | aside => exact absurd hlast haside
          | withdraw => exact absurd hlast hwithdraw
          | putBack => exact .inl (hbefore (by rw [hhere, hlast]; rfl))
          | install =>
            refine .inr ⟨m, ⟨rfl, staged, hstaged, hm⟩, lists_iff.mpr ⟨hm₀.1, hid, ?_⟩⟩
            have hnew : w.packages r.pkg = some staged := by
              rw [hhere, hlast]
              exact hstaged
            rw [World.file, hnew, ← s.parse]
            exact hm
      · refine .inl (lists_congr ?_ hm₀)
        rw [World.file, hplaced.there pkg hpkg, World.file]
    · unfold World.readBinary
      cases hlocate : locate p pkg plugin path with
      | error _ => rfl
      | ok place =>
        have hpkg : place.pkg ≠ r.pkg := hnot place hlocate
        show w.file place.pkg place.path = w₀.file place.pkg place.path
        rw [World.file, hplaced.there place.pkg hpkg, World.file]

/-- RUN: an update loses its package exactly if the text does not read back. -/
theorem updating_survives {input : PackageInput} {expected : Option Nat} {force : Bool}
    (h : Updating p s pkg input w₀ w) :
    Survives p s (.updateManifest pkg input expected force) w₀ w ↔
      (Operation.updateManifest pkg input expected force).Spares p s w₀ w := by
  obtain ⟨hagrees, hfile⟩ := h
  have hresources : ∀ q plugin path, w.readBinary p q plugin path = w₀.readBinary p q plugin path := by
    intro q plugin path
    unfold World.readBinary
    cases hlocate : locate p q plugin path with
    | error _ => rfl
    | ok place =>
      exact hagrees place.pkg place.path (locate_visible hlocate) fun hnamed =>
        path_ne_manifest place hnamed.2
  have hothers : ∀ q m, q ≠ pkg → w₀.Lists p s q m → w.Lists p s q m := fun q m hq hm =>
    lists_congr (hagrees q manifestPath visible_manifestPath fun hnamed => hq hnamed.1) hm
  have hunique : ∀ {m m'}, updated p s w₀ pkg input m → updated p s w₀ pkg input m' → m = m' := by
    rintro m m' ⟨_, current, hcurrent, hm⟩ ⟨_, current', hcurrent', hm'⟩
    obtain rfl := Option.some.inj (hcurrent.symm.trans hcurrent')
    exact Except.ok.inj (hm.symm.trans hm')
  rcases hfile with hsame | ⟨m, hm, hwritten⟩
  · refine ⟨fun _ _ _ => .inl hsame, fun _ => ⟨fun q m hm => .inl ?_, fun q plugin path _ =>
      hresources q plugin path⟩⟩
    by_cases hq : q = pkg
    · subst hq
      exact lists_congr hsame hm
    · exact hothers q m hq hm
  · obtain ⟨hid, current, hcurrent, hinput⟩ := hm
    have hvalid : validateScopeId "package id" pkg = .ok () := by
      unfold PackageInput.intoManifest at hinput
      obtain ⟨_, hscope, _⟩ := bind_eq_ok.mp hinput
      rw [← hid]
      exact hscope
    have hlisted : w₀.Lists p s pkg current := ⟨hvalid, hcurrent⟩
    have hlists : ∀ m', w.Lists p s pkg m' ↔
        m'.id = pkg ∧ parsePackageToml p s.text (manifestBytes m) = some m' := by
      intro m'
      rw [lists_iff, hwritten]
      exact and_iff_right hvalid
    constructor
    · intro hsurvives m' hm'
      obtain rfl := hunique hm' ⟨hid, current, hcurrent, hinput⟩
      refine .inr ?_
      rcases hsurvives.packages pkg current hlisted with h | ⟨m₁, ⟨_, hm₁⟩, h⟩
      · exact .inr (((hlists current).mp h).2.trans hcurrent.symm)
      · obtain rfl := hunique hm₁ ⟨hid, current, hcurrent, hinput⟩
        exact .inl ((hlists m₁).mp h).2
    · intro hspares
      refine ⟨fun q m₀ hm₀ => ?_, fun q plugin path _ => hresources q plugin path⟩
      by_cases hq : q = pkg
      · subst hq
        rcases hspares m ⟨hid, current, hcurrent, hinput⟩ with hsame | hback | hback
        · exact .inl (lists_congr hsame hm₀)
        · exact .inr ⟨m, ⟨rfl, hid, current, hcurrent, hinput⟩, (hlists m).mpr
            ⟨(intoManifest_id hinput).1.trans hid, hback⟩⟩
        · rw [hm₀.2] at hback
          exact .inl ((hlists m₀).mpr ⟨(lists_iff.mp hm₀).2.1, hback⟩)
      · exact .inl (hothers q m₀ hq hm₀)

end

/-! ### A store of one package -/

def demoInput : PackageInput := ⟨"demo", none, none, none, ["*"], [], []⟩

def demoManifest : PackageManifest := ⟨"demo", none, "0.1.0", none, ["*"], [], [], 1⟩

/-- One text that can be read. -/
def demoText : TextFormats where
  parseUrl _ := none
  readToml bytes := if bytes.data.toList = [1] then some (demoInput, none) else none

def demoFormats : StoreFormats plainPlatform where
  media :=
    { readMeta := fun _ => none
      writeMeta := fun _ _ => none
      read_write := fun h => by cases h
      parseMediaIndex := fun _ => .ok []
      readPackagePresets := fun _ => .ok []
      validPreset := fun _ => true
      parsePackageToml := parsePackageToml plainPlatform demoText
      manifestId := PackageManifest.id
      sha256Hex := fun _ => "" }
  text := demoText
  parse := rfl
  id := rfl
  readDir _ := []

def demoFolder : Folder := fun path => if path = manifestPath then some ⟨#[1]⟩ else none

def demoWorld : World where
  packages pkg := if pkg = "demo" then some demoFolder else none
  staging name := if name = "new" then some demoFolder else none
  media := ∅
  presets := ∅
  moves := []

/-- The package is replaced by one with the same manifest. -/
def demoImport : Operation := .commitImport ⟨"demo", "new", "old", "copies", true, false⟩

theorem demoImport_called : demoImport.Called plainPlatform demoFormats demoWorld :=
  ⟨⟨by decide, by decide, by decide⟩, rfl, demoFolder, demoManifest, rfl, by decide +kernel, rfl⟩

section
variable {p : Platform} {s : StoreFormats p} {w₀ : World}

/-- SAFETY: at every crash point, exactly these two crashes lose a package. -/
theorem survives_iff_spares (op : Operation) (hcalled : op.Called p s w₀) (tape : List Answer) :
    Survives p s op w₀ (op.run p s tape w₀).state.openStore ↔
      op.Spares p s w₀ (op.run p s tape w₀).state := by
  have hend : ∀ {α : Type} {q : Prog Answer World (Except String α)} {Q : World → Prop},
      Triple (fun w => w = w₀) q (either (fun _ => Q) fun _ => Q) Q →
      Q ((q >>= fun _ => give ()) tape w₀).state := by
    intro α q Q hq
    refine Triple.state (P := fun w => w = w₀) (hq.bind fun a => .give fun w hw => ?_) rfl tape
    cases a <;> exact hw
  cases op with
  | commitImport r =>
    obtain ⟨hr, hmoves, staged, m, hstaged, hm, hid⟩ := hcalled
    refine placed_survives (Triple.state (P := fun w => w = w₀)
      ((commitPackageImport_placed hr hmoves).bind fun _ => .give fun _ hw => hw) rfl tape) hstaged hm hid
  | createPackage input =>
    refine iff_of_true ((hend (createPackage_agrees input)).survives ?_ ?_) trivial
    · rintro pkg m hm ⟨_, hnone⟩
      have hfile := (lists_iff.mp hm).2.2
      rw [World.file, hnone] at hfile
      cases hfile
    · exact fun place _ hnamed => hnamed.1
  | updateManifest pkg input expected force =>
    exact updating_survives (hend (updateManifest_rule pkg input expected force))
  | duplicatePackage src newId =>
    refine iff_of_true ((hend (duplicatePackage_agrees src newId)).survives ?_ ?_) trivial
    · rintro pkg m hm ⟨_, hnone⟩
      have hfile := (lists_iff.mp hm).2.2
      rw [World.file, hnone] at hfile
      cases hfile
    · exact fun place _ hnamed => hnamed.1
  | resource call =>
    have hcall : Agrees (namedFiles p call) w₀ _ := hend ((resourceCall_agrees call).pre
      fun w hw => hw ▸ .refl _ _)
    refine iff_of_true (hcall.survives ?_ ?_) trivial
    · rintro pkg m _ ⟨place, _, _, hpath⟩
      exact path_ne_manifest place hpath.symm
    · rintro place _ ⟨place', hnames, hpkg, hpath⟩
      rw [path_inj hpkg hpath]
      exact hnames

end

/-- An import that comes to its end keeps the package. -/
theorem import_survives : Survives plainPlatform demoFormats demoImport demoWorld
    (demoImport.run plainPlatform demoFormats (answers (List.replicate 8 true))
      demoWorld).state.openStore := by
  refine (survives_iff_spares demoImport demoImport_called _).mpr fun _ => ?_
  have hlast : (demoImport.run plainPlatform demoFormats (answers (List.replicate 8 true))
      demoWorld).state.moves.head? = some .install := by decide +kernel
  rw [hlast]
  exact ⟨by decide, by decide⟩

/-- One that is cut off after its first move loses it. -/
theorem import_loses : ¬ Survives plainPlatform demoFormats demoImport demoWorld
    (demoImport.run plainPlatform demoFormats (answers (List.replicate 4 true))
      demoWorld).state.openStore := by
  intro h
  have hbefore : demoWorld.Lists plainPlatform demoFormats "demo" demoManifest :=
    ⟨by decide +kernel, by decide +kernel⟩
  have hgone : (demoImport.run plainPlatform demoFormats (answers (List.replicate 4 true))
      demoWorld).state.openStore.tryManifest demoFormats.media "demo" = none := by decide +kernel
  rcases h.packages "demo" demoManifest hbefore with hafter | ⟨m, _, hafter⟩
  · rw [hafter.2] at hgone
    cases hgone
  · rw [hafter.2] at hgone
    cases hgone

end Gamer.Packages
