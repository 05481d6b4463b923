import Gamer.Lib.Served
import Gamer.Packages.CrashSafe

/-! A package that could not be made. Both ways to make one refuse a directory that is there, and
    make the directory first:

        is there? ──no──▶ create_dir ▶ … ▶ package.toml
            └─yes─▶ Err                └─ a step fails ─▶ Err, and the directory is there

    A call that is made again succeeds only if the first one failed before that. -/

namespace Gamer.Packages
open Gamer.Lib Gamer.Lib.Prog

inductive Making where
  | create (input : PackageInput)
  | duplicate (src newId : String)

section
variable (p : Platform) (s : StoreFormats p)

def Making.call : Making → Step PackageManifest
  | .create input => createPackage p s input
  | .duplicate src newId => duplicatePackage p s src newId

/-- The package that is made. -/
def Making.target : Making → String
  | .create input => input.id
  | .duplicate _ newId => newId

/-- The steps up to the one that makes the package's directory: a copy reads a manifest before. -/
def Making.lead : Making → Nat
  | .create _ => 1
  | .duplicate _ _ => 2

/-- If no step fails the call succeeds. -/
def Succeeds (making : Making) (w : World) : Prop :=
  ∃ n, Serves (fun a : Answer => a.works = true) n (fun t => t = w) (making.call p s)
    fun r _ => ∃ m, r = .ok m

/-- `list_packages` returns the same packages. -/
def SameList (w w' : World) : Prop := ∀ pkg m, w'.Lists p s pkg m ↔ w.Lists p s pkg m

end

/-! ### The directory stays -/

def There (pkg : String) (w : World) : Prop := (w.packages pkg).isSome = true

/-- A program that does not remove the package's directory. -/
def Stays {α : Type} (pkg : String) (q : Prog Answer World α) : Prop :=
  Triple (There pkg) q (fun _ => There pkg) (There pkg)

section
variable {pkg : String} {α β : Type}

theorem Stays.effect {f : Answer → World → α × World}
    (h : ∀ a w, There pkg w → There pkg (f a w).2) : Stays pkg (.effect f) :=
  Triple.effect (fun _ hw => hw) h

theorem Stays.give (a : α) : Stays pkg (Prog.give a) := Triple.give fun _ hw => hw

theorem Stays.bind {q : Prog Answer World α} {k : α → Prog Answer World β} (hq : Stays pkg q)
    (hk : ∀ a, Stays pkg (k a)) : Stays pkg (q >>= k) := Triple.bind hq hk

theorem Stays.orFail {q : Step α} {fail : String → Prog Answer World β}
    {k : α → Prog Answer World β} (hq : Stays pkg q) (hfail : ∀ e, Stays pkg (fail e))
    (hk : ∀ a, Stays pkg (k a)) : Stays pkg (q.orFail fail k) := by
  refine hq.bind fun r => ?_
  cases r with
  | error e => exact hfail e
  | ok a => exact hk a

theorem Stays.andThen {q : Step α} {k : α → Step β} (hq : Stays pkg q)
    (hk : ∀ a, Stays pkg (k a)) : Stays pkg (q.andThen k) :=
  hq.orFail (fun _ => .give _) hk

theorem There.set {w : World} (h : There pkg w) {q : String} {folder : Option Folder}
    (hfolder : q = pkg → folder.isSome = true) : There pkg (w.setPackage q folder) := by
  unfold There World.setPackage
  dsimp only
  split
  · next heq => exact hfolder heq.symm
  · exact h

theorem There.put {w : World} (h : There pkg w) (q : String) (path : List String)
    (bytes : ByteArray) : There pkg (w.putFile q path bytes) := h.set fun _ => rfl

theorem There.erase {w : World} (h : There pkg w) (q : String) (path : List String) :
    There pkg (w.eraseFile q path) := by
  refine h.set fun heq => ?_
  rw [heq, Option.isSome_map]
  exact h

theorem makeDir_stays (q : String) : Stays pkg (makeDir q) := by
  refine .effect fun a w hw => ?_
  split
  · exact hw.set fun _ => rfl
  · exact hw

theorem createTemp_stays (q : String) (path : List String) : Stays pkg (createTemp q path) := by
  refine .effect fun a w hw => ?_
  dsimp only
  split
  · exact hw.put _ _ _
  · exact hw

theorem writeTemp_stays (q : String) (temp : List String) (bytes : ByteArray) :
    Stays pkg (writeTemp q temp bytes) := by
  refine .effect fun a w hw => ?_
  split
  · exact hw.put _ _ _
  · exact hw

theorem moveFile_stays (q : String) (old new : List String) : Stays pkg (moveFile q old new) := by
  refine .effect fun a w hw => ?_
  split
  · exact hw
  · split
    · exact (hw.erase _ _).put _ _ _
    · exact hw

theorem removeFile_stays (q : String) (path : List String) : Stays pkg (removeFile q path) := by
  refine .effect fun a w hw => ?_
  dsimp only
  split
  · exact hw.erase _ _
  · exact hw

theorem syncParent_stays : Stays pkg syncParent := by
  refine .effect fun a w hw => ?_
  split
  · exact hw
  · exact hw

theorem atomicWrite_stays (q : String) (path : List String) (bytes : ByteArray) :
    Stays pkg (atomicWrite q path bytes) := by
  refine (makeDir_stays q).andThen fun _ => (createTemp_stays q path).andThen fun temp => ?_
  refine Stays.orFail ?_ (fun _ => (removeFile_stays q temp).bind fun _ => .give _) fun _ => .give _
  exact (writeTemp_stays q temp bytes).andThen fun _ =>
    (moveFile_stays q temp path).andThen fun _ => syncParent_stays

theorem copyFiles_stays (src dst : String) : ∀ paths : List (List String),
    Stays pkg (copyFiles src dst paths)
  | [] => .give _
  | path :: paths => by
    rw [copyFiles]
    split
    · exact copyFiles_stays src dst paths
    · refine Stays.andThen (.effect fun a w hw => ?_) fun _ => copyFiles_stays src dst paths
      split
      · exact hw
      · split
        · exact hw.put _ _ _
        · exact hw

end

/-! ### The calls, up to the directory -/

theorem ite_run {α : Type} (c : Prop) [Decidable c] (q q' : Step α) (tape : List Answer)
    (w : World) : (if c then q else q') tape w = if c then q tape w else q' tape w := by
  split
  · rfl
  · rfl

section
variable {p : Platform} {s : StoreFormats p} {w w' : World} {making : Making}
  {tape rest : List Answer}

/-- What is left of a creation once the package's directory is made. -/
def filled (m : PackageManifest) : Step PackageManifest :=
  (makeDir m.id).andThen fun _ => (makeDir m.id).andThen fun _ =>
    (atomicWrite m.id manifestPath (manifestBytes m)).andThen fun _ => give (.ok m)

/-- What is left of a copy then. -/
def copied (src : String) (m : PackageManifest) (paths : List (List String)) :
    Step PackageManifest :=
  (copyFiles src m.id paths).andThen fun _ =>
    (atomicWrite m.id manifestPath (manifestBytes m)).andThen fun _ => give (.ok m)

theorem filled_stays (m : PackageManifest) : Stays m.id (filled m) :=
  (makeDir_stays _).andThen fun _ => (makeDir_stays _).andThen fun _ =>
    (atomicWrite_stays _ _ _).andThen fun _ => .give _

theorem copied_stays (src : String) (m : PackageManifest) (paths : List (List String)) :
    Stays m.id (copied src m paths) :=
  (copyFiles_stays _ _ _).andThen fun _ => (atomicWrite_stays _ _ _).andThen fun _ => .give _

section
variable {input : PackageInput} {m : PackageManifest} (h : input.intoManifest p s.text 1 = .ok m)
include h

theorem createPackage_taken (hsome : (w.packages m.id).isSome = true) (tape : List Answer) :
    createPackage p s input tape w = .done (.error "配置已存在") w tape := by
  rw [createPackage, h]
  exact (ite_run ((w.packages m.id).isSome = true) _ _ tape w).trans (if_pos hsome)

theorem createPackage_free (hnone : w.packages m.id = none) (tape : List Answer) :
    createPackage p s input tape w = ((makeDir m.id).andThen fun _ => filled m) tape w := by
  rw [createPackage, h]
  exact (ite_run ((w.packages m.id).isSome = true) _ _ tape w).trans (if_neg (by simp [hnone]))

end

section
variable {src newId : String} (hnew : validateScopeId "package id" newId = .ok ())
  {source : PackageManifest} (hread : readManifest p s src tape w = .done (.ok source) w rest)
include hnew hread

theorem duplicatePackage_taken (hsome : (w.packages newId).isSome = true) :
    duplicatePackage p s src newId tape w = .done (.error "配置已存在") w rest := by
  rw [duplicatePackage, hnew]
  refine (andThen_of_ok hread).trans ?_
  exact (ite_run ((w.packages newId).isSome = true) _ _ rest w).trans (if_pos hsome)

theorem duplicatePackage_free (hnone : w.packages newId = none) :
    duplicatePackage p s src newId tape w = ((makeDir newId).andThen fun _ =>
      copied src { source with id := newId, revision := 1 }
        (s.readDir ((w.packages src).getD noFiles))) rest w := by
  rw [duplicatePackage, hnew]
  refine (andThen_of_ok hread).trans ?_
  exact (ite_run ((w.packages newId).isSome = true) _ _ rest w).trans (if_neg (by simp [hnone]))

end

/-- The manifest is read in one step. -/
theorem readManifest_run {src : String} (h : validateScopeId "package id" src = .ok ())
    (a : Answer) (tape : List Answer) (w : World) : readManifest p s src (a :: tape) w =
      .done (if a.works then
        match w.tryManifest s.media src with
        | none => .error "配置不存在"
        | some m => .ok m
      else .error "配置不存在") w tape := by
  rw [readManifest, h]
  by_cases ha : a.works = true
  · have hread : tryRead "配置不存在" (fun w => w.tryManifest s.media src) (a :: tape) w =
        .done (.ok (w.tryManifest s.media src)) w tape := by
      simp [tryRead, Prog.effect, ha]
    rw [if_pos ha]
    refine (andThen_of_ok hread).trans ?_
    cases w.tryManifest s.media src with
    | none => rfl
    | some m => rfl
  · have hread : tryRead "配置不存在" (fun w => w.tryManifest s.media src) (a :: tape) w =
        .done (.error "配置不存在") w tape := by
      simp [tryRead, Prog.effect, ha]
    rw [if_neg ha]
    exact andThen_of_error hread

/-- STEP: the directory is made, and stays, or nothing has happened. -/
theorem makeDir_first {pkg : String} {k : Unit → Step PackageManifest}
    (hk : ∀ a, Stays pkg (k a)) (a : Answer) {r : Except String PackageManifest}
    (hrun : (makeDir pkg).andThen k (a :: tape) w = .done r w' rest) :
    (a.works = false → w' = w ∧ ∃ e, r = .error e) ∧ (a.works = true → There pkg w') := by
  constructor
  · intro ha
    have hmake : makeDir pkg (a :: tape) w = .done (.error "create_dir_all") w tape := by
      simp [makeDir, Prog.effect, ha]
    rw [andThen_of_error hmake] at hrun
    cases hrun
    exact ⟨rfl, _, rfl⟩
  · intro ha
    have hmake : makeDir pkg (a :: tape) w =
        .done (.ok ()) (w.setPackage pkg (some ((w.packages pkg).getD noFiles))) tape := by
      simp [makeDir, Prog.effect, ha]
    have hthere : There pkg (w.setPackage pkg (some ((w.packages pkg).getD noFiles))) := by
      simp [There, World.setPackage]
    have hstays := hk () tape _ hthere
    rw [andThen_of_ok hmake] at hrun
    rw [hrun] at hstays
    exact hstays

/-- A package whose directory is there is not made. -/
theorem taken_fails (h : There making.target w) (tape : List Answer) :
    (making.call p s tape w).succeeded = false := by
  cases making with
  | create input =>
    show (createPackage p s input tape w).succeeded = false
    cases hm : input.intoManifest p s.text 1 with
    | error e =>
      rw [createPackage, hm]
      rfl
    | ok m =>
      have hthere : (w.packages m.id).isSome = true := (intoManifest_id hm).1 ▸ h
      rw [createPackage_taken hm hthere]
      rfl
  | duplicate src newId =>
    show (duplicatePackage p s src newId tape w).succeeded = false
    cases hnew : validateScopeId "package id" newId with
    | error e =>
      rw [duplicatePackage, hnew]
      rfl
    | ok _ =>
      have hkeep := readManifest_keeps (p := p) (s := s) src tape w
      cases hrun : readManifest p s src tape w with
      | cut t =>
        rw [duplicatePackage, hnew]
        dsimp only
        rw [andThen_of_cut hrun]
        rfl
      | done r t rest =>
        rw [hrun] at hkeep
        obtain rfl : t = w := hkeep
        cases r with
        | error e =>
          rw [duplicatePackage, hnew]
          dsimp only
          rw [andThen_of_error hrun]
          rfl
        | ok source =>
          rw [duplicatePackage_taken hnew hrun h]
          rfl

/-- A call that succeeds if no step fails has a run that does. -/
theorem Succeeds.run (h : Succeeds p s making w) : ∃ tape m w' rest,
    making.call p s tape w = .done (.ok m) w' rest ∧ ∀ a ∈ tape, a.works = true := by
  obtain ⟨n, hserves⟩ := h
  have hworks : ∀ a ∈ List.replicate n (⟨true, "", ""⟩ : Answer), a.works = true := by
    intro a ha
    rw [List.eq_of_mem_replicate ha]
  obtain ⟨r, w', rest, hrun, ⟨m, rfl⟩, -⟩ := hserves.run _ w rfl hworks (by simp)
  exact ⟨_, m, w', rest, hrun, hworks⟩

theorem Succeeds.free (h : Succeeds p s making w) : w.packages making.target = none := by
  obtain ⟨tape, m, w', rest, hrun, -⟩ := h.run
  by_contra hsome
  have hthere : There making.target w := Option.isSome_iff_ne_none.mpr hsome
  have hfails : (making.call p s tape w).succeeded = false := taken_fails hthere tape
  rw [hrun] at hfails
  cases hfails

theorem Succeeds.manifest {input : PackageInput} (h : Succeeds p s (.create input) w) :
    ∃ m, input.intoManifest p s.text 1 = .ok m := by
  obtain ⟨tape, m, w', rest, hrun, -⟩ := h.run
  have hrun : createPackage p s input tape w = .done (.ok m) w' rest := hrun
  cases hm : input.intoManifest p s.text 1 with
  | ok m => exact ⟨m, rfl⟩
  | error e =>
    rw [createPackage, hm] at hrun
    cases hrun

theorem Succeeds.source {src newId : String} (h : Succeeds p s (.duplicate src newId) w) :
    validateScopeId "package id" newId = .ok () ∧ validateScopeId "package id" src = .ok () ∧
      ∃ source, w.tryManifest s.media src = some source := by
  obtain ⟨tape, m, w', rest, hrun, hworks⟩ := h.run
  have hrun : duplicatePackage p s src newId tape w = .done (.ok m) w' rest := hrun
  cases hnew : validateScopeId "package id" newId with
  | error e =>
    rw [duplicatePackage, hnew] at hrun
    cases hrun
  | ok _ =>
    rw [duplicatePackage, hnew] at hrun
    dsimp only at hrun
    cases hsrc : validateScopeId "package id" src with
    | error e =>
      rw [readManifest, hsrc] at hrun
      cases hrun
    | ok _ =>
      cases tape with
      | nil =>
        have hcut : readManifest p s src [] w = .cut w := by
          rw [readManifest, hsrc]
          rfl
        rw [andThen_of_cut hcut] at hrun
        cases hrun
      | cons a tape =>
        have hread := readManifest_run hsrc (s := s) a tape w
        rw [if_pos (hworks a List.mem_cons_self)] at hread
        cases hfound : w.tryManifest s.media src with
        | some source => exact ⟨rfl, rfl, source, rfl⟩
        | none =>
          rw [hfound] at hread
          rw [andThen_of_error hread] at hrun
          cases hrun

/-- STEP: a run that ends has made the directory, and it is there still, unless a step up to that
    one has failed; then nothing has happened. -/
theorem call_leaves (h : Succeeds p s making w) {r : Except String PackageManifest}
    (hrun : making.call p s tape w = .done r w' rest) :
    ((∃ a ∈ tape.take making.lead, a.works = false) ∧ w' = w) ∨
    ((∀ a ∈ tape.take making.lead, a.works = true) ∧ There making.target w') := by
  have hfree := h.free
  cases making with
  | create input =>
    obtain ⟨m, hm⟩ := h.manifest
    have hid := (intoManifest_id hm).1
    have hrun : createPackage p s input tape w = .done r w' rest := hrun
    rw [createPackage_free hm (hid ▸ hfree)] at hrun
    cases tape with
    | nil => cases hrun
    | cons a tape =>
      obtain ⟨hfails, hworks⟩ := makeDir_first (fun _ => filled_stays m) a hrun
      cases ha : a.works with
      | false => exact .inl ⟨⟨a, List.mem_cons_self, ha⟩, (hfails ha).1⟩
      | true =>
        refine .inr ⟨fun b hb => ?_, (hid ▸ hworks ha : There input.id w')⟩
        obtain rfl := List.mem_singleton.mp hb
        exact ha
  | duplicate src newId =>
    obtain ⟨hnew, hsrc, source, hfound⟩ := h.source
    have hrun : duplicatePackage p s src newId tape w = .done r w' rest := hrun
    cases tape with
    | nil =>
      have hcut : readManifest p s src [] w = .cut w := by
        rw [readManifest, hsrc]
        rfl
      rw [duplicatePackage, hnew] at hrun
      dsimp only at hrun
      rw [andThen_of_cut hcut] at hrun
      cases hrun
    | cons a tape =>
      have hread := readManifest_run hsrc (s := s) a tape w
      cases ha : a.works with
      | false =>
        rw [if_neg (by simp [ha])] at hread
        rw [duplicatePackage, hnew] at hrun
        dsimp only at hrun
        rw [andThen_of_error hread] at hrun
        cases hrun
        exact .inl ⟨⟨a, List.mem_cons_self, ha⟩, rfl⟩
      | true =>
        rw [if_pos ha, hfound] at hread
        rw [duplicatePackage_free hnew hread hfree] at hrun
        cases tape with
        | nil => cases hrun
        | cons b tape =>
          have hstays := copied_stays src { source with id := newId, revision := 1 }
            (s.readDir ((w.packages src).getD noFiles))
          obtain ⟨hfails, hworks⟩ := makeDir_first (fun _ => hstays) b hrun
          cases hb : b.works with
          | false => exact .inl ⟨⟨b, by simp [Making.lead], hb⟩, (hfails hb).1⟩
          | true =>
            refine .inr ⟨fun c hc => ?_, hworks hb⟩
            have hcases : c = a ∨ c = b := by simpa [Making.lead] using hc
            rcases hcases with rfl | rfl
            · exact ha
            · exact hb

/-! ### A call without failures -/

/-- Every answer is that the step works. -/
def Working (a : Answer) : Prop := a.works = true

def Empty (pkg : String) (w : World) : Prop := ∀ path, w.file pkg path = none

theorem makeDir_serves (pkg : String) :
    Serves Working 1 (Empty pkg) (makeDir pkg) fun r w => ∃ a, r = .ok a ∧ Empty pkg w := by
  refine Serves.effect fun a w ha hw => ⟨(), ?_, fun path => ?_⟩
  · simp [show a.works = true from ha]
  · have hkeep := makeDir_keeps pkg [a] w
    have hfile : (makeDir pkg [a] w).state.file pkg path = w.file pkg path := by rw [hkeep]
    exact hfile.trans (hw path)

theorem atomicWrite_serves (pkg : String) (path : List String) (bytes : ByteArray) :
    Serves Working 5 (Empty pkg) (atomicWrite pkg path bytes) fun r _ => ∃ a, r = .ok a := by
  have hcreate : Serves Working 1 (Empty pkg) (createTemp pkg path) fun r w =>
      ∃ temp, r = .ok temp ∧ (w.file pkg temp).isSome = true := by
    refine Serves.effect fun a w ha hw => ⟨tempPath path a.fresh, ?_, ?_⟩
    · simp [show a.works = true from ha, hw (tempPath path a.fresh)]
    · simp [show a.works = true from ha, hw (tempPath path a.fresh), file_putFile]
  have hwrite : ∀ temp, Serves Working 1 (fun w => (w.file pkg temp).isSome = true)
      (writeTemp pkg temp bytes) fun r w => ∃ a, r = .ok a ∧ (w.file pkg temp).isSome = true := by
    refine fun temp => Serves.effect fun a w ha hw => ⟨(), ?_, ?_⟩
    · simp [show a.works = true from ha]
    · simp [show a.works = true from ha, file_putFile]
  have hmove : ∀ temp, Serves Working 1 (fun w => (w.file pkg temp).isSome = true)
      (moveFile pkg temp path) fun r _ => ∃ a, r = .ok a ∧ True := by
    refine fun temp => Serves.effect fun a w ha hw => ⟨(), ?_, trivial⟩
    obtain ⟨content, hcontent⟩ := Option.isSome_iff_exists.mp hw
    simp [show a.works = true from ha, hcontent]
  have hsync : Serves Working 1 (fun _ => True) syncParent fun r _ => ∃ a, r = .ok a := by
    refine Serves.effect fun a w ha _ => ⟨(), ?_⟩
    simp [show a.works = true from ha]
  refine (makeDir_serves pkg).andThen (m := 4) fun _ => hcreate.andThen (m := 3) fun temp => ?_
  refine Serves.bind (m := 0) ((hwrite temp).andThen (m := 2) fun _ =>
    (hmove temp).andThen (m := 1) fun _ => hsync) fun r => ⟨fun tape w hr _ _ => ?_⟩
  obtain ⟨a, rfl⟩ := hr
  exact ⟨_, w, tape, rfl, ⟨a, rfl⟩, List.suffix_refl _, Nat.le_refl _⟩

/-- A creation fails for three reasons: the input, the directory, a step. -/
theorem create_succeeds {input : PackageInput} {m : PackageManifest}
    (hm : input.intoManifest p s.text 1 = .ok m) (hnone : w.packages input.id = none) :
    Succeeds p s (.create input) w := by
  have hid := (intoManifest_id hm).1
  have hempty : Empty m.id w := by
    intro path
    rw [World.file, hid, hnone]
    rfl
  have hserves : Serves Working 8 (Empty m.id) ((makeDir m.id).andThen fun _ => filled m)
      fun r _ => ∃ m, r = .ok m := by
    refine (makeDir_serves _).andThen (m := 7) fun _ => (makeDir_serves _).andThen (m := 6) fun _ =>
      (makeDir_serves _).andThen (m := 5) fun _ => ?_
    refine Serves.bind (m := 0) (atomicWrite_serves _ _ _) fun r => ⟨fun tape w hr _ _ => ?_⟩
    obtain ⟨a, rfl⟩ := hr
    exact ⟨_, w, tape, rfl, ⟨m, rfl⟩, List.suffix_refl _, Nat.le_refl _⟩
  refine ⟨8, ⟨fun tape w' hw hgood hlen => ?_⟩⟩
  subst hw
  show ∃ a s' rest, createPackage p s input tape w' = _ ∧ _
  rw [createPackage_free hm (hid ▸ hnone)]
  exact hserves.run tape w' hempty hgood hlen

/-- A failed call can be made again, and has not changed the list, exactly where the step that
    failed comes no later than the one that makes the package's directory. -/
theorem failed_call_retried_iff (h : Succeeds p s making w) {e : String}
    (hrun : making.call p s tape w = .done (.error e) w' rest) :
    SameList p s w w' ∧ Succeeds p s making w' ↔ ∃ a ∈ tape.take making.lead, a.works = false := by
  rcases call_leaves h hrun with ⟨hfails, rfl⟩ | ⟨hworks, hthere⟩
  · exact ⟨fun _ => hfails, fun _ => ⟨fun _ _ => Iff.rfl, h⟩⟩
  · constructor
    · rintro ⟨-, hagain⟩
      have hfree := hagain.free
      rw [There, hfree] at hthere
      cases hthere
    · rintro ⟨a, ha, hfails⟩
      rw [hworks a ha] at hfails
      cases hfails

end

/-! ### A step that fails -/

def emptyWorld : World := { demoWorld with packages := fun _ => none }

theorem demo_succeeds : Succeeds plainPlatform demoFormats (.create demoInput) emptyWorld :=
  create_succeeds (m := demoManifest) (by decide +kernel) rfl

/-- The package's directory is made, and the one in it is not. -/
theorem demo_fails : ∃ w, Making.call plainPlatform demoFormats (.create demoInput)
    (answers [true, false]) emptyWorld = .done (.error "create_dir_all") w [] := by
  have hm : demoInput.intoManifest plainPlatform demoFormats.text 1 = .ok demoManifest := by
    decide +kernel
  have hrun := createPackage_free hm (w := emptyWorld) rfl (answers [true, false])
  exact ⟨_, hrun⟩

theorem failed_call_retried_iff_demo : ∃ w,
    (SameList plainPlatform demoFormats emptyWorld w ∧
      Succeeds plainPlatform demoFormats (.create demoInput) w ↔
    ∃ a ∈ (answers [true, false]).take 1, a.works = false) := by
  obtain ⟨w, hrun⟩ := demo_fails
  exact ⟨w, failed_call_retried_iff demo_succeeds hrun⟩

/-- The same call is refused from then on. -/
theorem demo_refused : ∃ w, Making.call plainPlatform demoFormats (.create demoInput)
      (answers [true, false]) emptyWorld = .done (.error "create_dir_all") w [] ∧
    ∀ tape, (Making.call plainPlatform demoFormats (.create demoInput) tape w).succeeded =
      false := by
  obtain ⟨w, hrun⟩ := demo_fails
  refine ⟨w, hrun, taken_fails ?_⟩
  rcases call_leaves demo_succeeds hrun with ⟨⟨a, ha, hfails⟩, -⟩ | ⟨-, hthere⟩
  · obtain rfl := List.mem_singleton.mp ha
    cases hfails
  · exact hthere

end Gamer.Packages
