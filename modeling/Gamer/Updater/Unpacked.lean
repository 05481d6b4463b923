import Gamer.Updater.Extracted

/-! The tree an archive unpacks to, entry by entry, and that an extraction which succeeds leaves
    this tree in its staging directory, the directories included. -/

namespace Gamer.Updater.Archive
open Gamer.Lib Gamer.Lib.Prog Gamer.Updater.Files Gamer.Updater.PathSafe

/-- What the reads of an entry come to. -/
def contentOf : List (Except String Bytes) → Bytes
  | .ok chunk :: rest => if chunk = [] then [] else chunk ++ contentOf rest
  | _ => []

section
variable (fold : String → String)

/-- One entry more: its file or directory, and the directories above it. -/
def place (tree : Path → Option (Node Bytes)) (entry : Entry) : Path → Option (Node Bytes) :=
  match entry.name with
  | .error _ => tree
  | .ok name =>
    let p := (components name).map fold
    if entry.isDir then fun r => if r <+: p then some .dir else tree r
    else fun r =>
      if r = p then some (.file (contentOf entry.reads))
      else if r <+: p then some .dir
      else tree r

/-- The entries in turn, as far as the library gives them. -/
def placeAll (tree : Path → Option (Node Bytes)) : Zip → Path → Option (Node Bytes)
  | [] => tree
  | .error _ :: rest => placeAll tree rest
  | .ok entry :: rest => placeAll (place fold tree entry) rest

/-- The tree of an empty directory. -/
def emptyDir : Path → Option (Node Bytes) := fun r => if r = [] then some .dir else none

/-- The tree of an archive, from its top. -/
def unpacked (zip : Zip) : Path → Option (Node Bytes) := placeAll fold emptyDir zip

end

/-! ### Effects that succeed -/

/-- Directories that are made stand there, and nothing else changes. -/
theorem createDirs_ok (base rest : Path) (w₀ : World) :
    Triple (fun w => w = w₀ ∧ w.tree.get base = some .dir) (createDirs base rest)
      (either (fun _ _ => True) fun _ w => ∀ q, w.tree.get q =
        if base <+: q ∧ q <+: base ++ rest then some .dir else w₀.tree.get q)
      fun _ => True := by
  induction rest generalizing base w₀ with
  | nil =>
    refine Triple.give ?_
    rintro w ⟨rfl, hbase⟩ q
    rw [List.append_nil]
    split_ifs with hq
    · rw [← hq.1.eq_of_length_le hq.2.length_le, hbase]
    · rfl
  | cons name rest ih =>
    refine Triple.andThen (E := fun _ _ => True) (K := fun _ w => ∀ q, w.tree.get q =
        if q = base ++ [name] ∨ q = base then some .dir else w₀.tree.get q)
      (Triple.effect (fun _ _ => trivial) ?_) (fun _ _ _ => trivial) fun _ => ?_
    · rintro e w ⟨rfl, hbase⟩
      split
      case isTrue hdir =>
        intro q
        split_ifs with hq
        · rcases hq with rfl | rfl
          · exact FileTree.isDir_iff.mp hdir
          · exact hbase
        · rfl
      case isFalse =>
        split
        case isTrue hset =>
          simp only [Bool.and_eq_true] at hset
          intro q
          refine (FileTree.get_set hset.2).trans ?_
          by_cases hq : q = base ++ [name]
          · simp [hq]
          · by_cases hqb : q = base
            · subst hqb
              simp [hbase]
            · simp [hq, hqb]
        case isFalse => trivial
    · refine Triple.each fun w hw => ((ih (base ++ [name]) w).pre ?_).post fun r s hs => ?_
      · rintro s rfl
        exact ⟨rfl, by rw [hw, if_pos (.inl rfl)]⟩
      · cases r with
        | error x => trivial
        | ok =>
          intro q
          rw [hs q, hw q, List.append_assoc, List.singleton_append]
          by_cases hbelow : base ++ [name] <+: q
          · have hbase : base <+: q := (List.prefix_append base [name]).trans hbelow
            by_cases hq : q <+: base ++ name :: rest
            · simp [hbelow, hbase, hq]
            · have hne : q ≠ base ++ [name] ∧ q ≠ base := by
                constructor <;> rintro rfl
                · exact hq ⟨rest, by simp⟩
                · exact hq (List.prefix_append _ _)
              simp [hq, hne]
          · by_cases hq : q = base
            · subst hq
              simp
            · have hnot : ¬ (base <+: q ∧ q <+: base ++ name :: rest) := by
                rintro ⟨⟨t, rfl⟩, hpre⟩
                rw [List.prefix_append_right_inj] at hpre
                cases t with
                | nil => simp at hq
                | cons x t =>
                  obtain rfl : x = name := (List.cons_prefix_cons.mp hpre).1
                  exact hbelow ⟨t, by simp⟩
              have hne : q ≠ base ++ [name] := by
                rintro rfl
                exact hbelow (List.prefix_refl _)
              simp [hbelow, hnot, hne, hq]

theorem createDirAll_ok (p : Path) (w₀ : World) :
    Triple (fun w => w = w₀) (createDirAll p)
      (either (fun _ _ => True) fun _ w => ∀ q, w.tree.get q =
        if q <+: p then some .dir else w₀.tree.get q)
      fun _ => True := by
  refine ((createDirs_ok [] p w₀).pre fun w hw => ⟨hw, w.tree.root⟩).post fun r w hw => ?_
  cases r with
  | error x => trivial
  | ok => simpa using hw

theorem orElse_ok {χ α : Type} {f : χ → ArchiveError} {p : Step χ α} {P : World → Prop}
    {K : α → World → Prop} (h : Triple P p (either (fun _ _ => True) K) fun _ => True) :
    Triple P (orElse f p) (either (fun _ _ => True) K) fun _ => True :=
  orElse_rule h

section
variable {fold : String → String} {lower : String → String} {sha256 : Bytes → String}
  {opts : ExtractOptions} {staging : Path}

/-- RUN: an entry that is copied to its end is in its file, and nothing else changes. -/
theorem copyEntry_ok {name : String} {p : Path} (reads : List (Except String Bytes))
    (written total : Nat) (c : Bytes) (w₀ : World) :
    Triple (fun w => w = w₀ ∧ w.tree.get p = some (.file c))
      (copyEntry opts name p written total reads)
      (either (fun _ _ => True) fun _ w => ∀ q, w.tree.get q =
        if q = p then some (.file (c ++ contentOf reads)) else w₀.tree.get q)
      fun _ => True := by
  have hend : ∀ w : World, w = w₀ ∧ w.tree.get p = some (.file c) → ∀ q, w.tree.get q =
      if q = p then some (.file c) else w₀.tree.get q := by
    rintro w ⟨rfl, hc⟩ q
    split_ifs with hq
    · rw [hq, hc]
    · rfl
  induction reads generalizing written total c w₀ with
  | nil => exact Triple.give fun w hw q => by simpa [contentOf] using hend w hw q
  | cons read rest ih =>
    cases read with
    | error text => exact Triple.give fun _ _ => trivial
    | ok chunk =>
      rw [copyEntry]
      split
      case isTrue hchunk =>
        exact Triple.give fun w hw q => by simpa [contentOf, hchunk] using hend w hw q
      case isFalse hchunk =>
        split
        · exact Triple.any.bind fun _ => Triple.give fun _ _ => trivial
        · refine Triple.andThen (E := fun _ _ => True) (K := fun _ w => ∀ q, w.tree.get q =
              if q = p then some (.file (c ++ chunk)) else w₀.tree.get q)
            (orElse_ok (Triple.effect (fun _ _ => trivial) ?_)) (fun _ _ _ => trivial) fun _ => ?_
          · rintro e w ⟨rfl, hc⟩
            split
            · intro q
              have hfile := FileTree.fileAt_eq_some.mpr hc
              simp only [World.append, hfile]
              exact FileTree.get_set (FileTree.settable_of_fileAt hfile)
            · trivial
          · refine Triple.each fun w hw => ?_
            have hat : w.tree.get p = some (.file (c ++ chunk)) := by rw [hw, if_pos rfl]
            refine ((ih (written + chunk.length) (total + chunk.length) (c ++ chunk) w ?_).pre
              fun s hs => ⟨hs, hs ▸ hat⟩).post fun r s hs => ?_
            · rintro s ⟨rfl, hs⟩ q
              split_ifs with hq
              · rw [hq, hs]
              · rfl
            · cases r with
              | error x => trivial
              | ok =>
                intro q
                rw [hs q]
                split_ifs with hq
                · simp [contentOf, hchunk]
                · rw [hw, if_neg hq]

/-- What is in the staging directory. -/
def Holds (staging : Path) (tree : Path → Option (Node Bytes)) (w : World) : Prop :=
  ∀ r, w.tree.get (staging ++ r) = tree r

/-- STEP: an entry that is written is placed. -/
theorem writeEntry_ok {entry : Entry} {name : String} {required : Option (List RequiredFile)}
    {total : Nat} {tree : Path → Option (Node Bytes)} (hentry : Passed required entry name) :
    Triple (Holds staging tree) (writeEntry fold opts staging total entry)
      (either (fun _ _ => True) fun _ => Holds staging (place fold tree entry))
      fun _ => True := by
  have hclean : Safe (clean (clean name)) := by
    rw [clean_safe hentry.safe]
    exact hentry.safe
  rw [writeEntry, hentry.named, place, hentry.named]
  dsimp only
  rw [← components_clean name]
  obtain ⟨p, hp⟩ : ∃ p, (components (clean name)).map fold = p := ⟨_, rfl⟩
  have hne : p ≠ [] := by simpa [← hp] using components_ne_nil hentry.safe
  split
  · rw [join_of_clean_safe hclean, clean_safe hentry.safe, hp]
    refine Triple.andThen (E := fun _ _ => True) (orElse_ok (Triple.each fun w hw =>
      (createDirAll_ok (staging ++ p) w).post (Q := either (fun _ _ => True) fun _ =>
        Holds staging fun r => if r <+: p then some .dir else tree r) fun r s hs => ?_))
      (fun _ _ _ => trivial) fun _ => Triple.give fun w hw => hw
    cases r with
    | error x => trivial
    | ok =>
      intro r
      refine (hs _).trans ?_
      simp only [List.prefix_append_right_inj, hw r]
  · rw [join_of_clean_safe hentry.safe, hp, List.dropLast_append_of_ne_nil hne]
    refine Triple.each fun w hw => ?_
    refine Triple.andThen (E := fun _ _ => True) (orElse_ok (createDirAll_ok _ w))
      (fun _ _ _ => trivial) fun _ => ?_
    refine Triple.each fun w₁ hw₁ => ?_
    refine Triple.andThen (E := fun _ _ => True) (K := fun _ w₂ => ∀ q, w₂.tree.get q =
        if q = staging ++ p then some (.file []) else w₁.tree.get q)
      (orElse_ok (Triple.effect (fun _ _ => trivial) ?_)) (fun _ _ _ => trivial) fun _ => ?_
    · rintro e s rfl
      split
      case isTrue hset =>
        simp only [Bool.and_eq_true] at hset
        exact fun q => FileTree.get_set hset.1.2
      case isFalse => trivial
    · refine Triple.each fun w₂ hw₂ => ?_
      refine Triple.andThen (E := fun _ _ => True) ((copyEntry_ok entry.reads 0 total [] w₂).pre
        fun s hs => ⟨hs, by rw [hs, hw₂, if_pos rfl]⟩) (fun _ _ _ => trivial) fun done => ?_
      split
      · exact Triple.give fun _ _ => trivial
      · refine Triple.give fun s hs r => ?_
        refine (hs _).trans ?_
        simp only [hw₂, hw₁, hw r, List.prefix_append_right_inj, List.append_cancel_left_eq,
          List.nil_append]
        by_cases hr : r = p
        · simp [hr]
        · have hpre : r <+: p.dropLast ↔ r <+: p := by
            conv_rhs => rw [← List.dropLast_concat_getLast hne, List.prefix_concat_iff,
              List.dropLast_concat_getLast hne]
            simp [hr]
          simp [hr, hpre]

/-- RUN: what pass 2 leaves is what the entries come to. -/
theorem writeEntries_ok {zip : Zip} {required : Option (List RequiredFile)} {total : Nat}
    {tree : Path → Option (Node Bytes)}
    (hzip : ∀ e ∈ zip, ∃ entry name, e = .ok entry ∧ Passed required entry name) :
    Triple (Holds staging tree) (writeEntries fold opts staging total zip)
      (either (fun _ _ => True) fun _ => Holds staging (placeAll fold tree zip))
      fun _ => True := by
  induction zip generalizing total tree with
  | nil => exact Triple.give fun w hw => hw
  | cons e zip ih =>
    obtain ⟨⟨entry, name, rfl, hentry⟩, hrest⟩ := List.forall_mem_cons.mp hzip
    exact (writeEntry_ok hentry).andThen (fun _ _ _ => trivial) fun _ => ih hrest

/-- A staging directory that is ready is an empty directory. -/
theorem prepareFreshStaging_ok :
    Triple (fun _ => True) (prepareFreshStaging staging)
      (either (fun _ _ => True) fun _ =>
        Holds staging emptyDir)
      fun _ => True := by
  refine Triple.reading fun w _ => ?_
  split
  · split
    · exact Triple.give fun _ _ => trivial
    case isFalse hdir =>
      have hdir : w.tree.get staging = some .dir := FileTree.isDir_iff.mp (by simpa using hdir)
      refine Triple.andThen (E := fun _ _ => True)
        (K := fun below s => s = w ∧ below = w.tree.below staging)
        (orElse_ok (Triple.effect (fun _ _ => trivial) ?_)) (fun _ _ _ => trivial) fun below => ?_
      · rintro e s ⟨-, rfl⟩
        split
        · exact ⟨rfl, rfl⟩
        · trivial
      · split
        · exact Triple.give fun _ _ => trivial
        case isFalse hbelow =>
          refine Triple.give ?_
          rintro s ⟨rfl, hlist⟩ r
          rw [emptyDir]
          split_ifs with hr
          · simpa [hr] using hdir
          · refine FileTree.get_of_below_nil (hlist ▸ not_not.mp hbelow) (List.prefix_append _ _) ?_
            simpa using hr
  case isFalse hnew =>
    refine orElse_ok (((createDirAll_ok staging w).pre fun s hs => hs.2).post fun r s hs => ?_)
    cases r with
    | error x => trivial
    | ok =>
      intro r
      refine (hs _).trans ?_
      by_cases hr : r = []
      · simp [hr, emptyDir]
      · have hnot : ¬ staging ++ r <+: staging := fun hpre =>
          hr (by simpa using hpre.length_le)
        rw [emptyDir, if_neg hnot, if_neg hr]
        refine FileTree.get_below (fun hdir => hnew ?_) hr
        simp [FileTree.has, hdir]

theorem Holds.kept {α : Type} {tree : Path → Option (Node Bytes)} {p : Prog Answer World α}
    (h : Keeps id p) : Triple (Holds staging tree) p (fun _ => Holds staging tree) fun _ => True :=
  (h.triple fun s t hview hs => (show t = s from hview) ▸ hs).cuts fun _ _ => trivial

/-- RUN: from an empty staging directory the passes leave the tree of the archive in it. -/
theorem unpack_ok {zip : Zip} {required : Option (List RequiredFile)} :
    Triple (Holds staging emptyDir)
      (unpack fold sha256 lower staging required opts zip)
      (either (fun _ _ => True) fun _ => Holds staging (unpacked fold zip)) fun _ => True := by
  unfold unpack
  cases hnaming : namingPass lower required opts zip with
  | error x => exact Triple.give fun _ _ => trivial
  | ok declared =>
    refine ((Holds.kept (orElse_keeps freeDiskBytes_keeps)).post fun r s hs => ?_).andThen
      (E := fun _ _ => True)
      (K := fun _ => Holds staging emptyDir)
      (fun _ _ _ => trivial) fun available => ?_
    · cases r with
      | error x => trivial
      | ok => exact hs
    cases checkSpace declared available with
    | error x => exact Triple.give fun _ _ => trivial
    | ok =>
      refine Triple.andThen (writeEntries_ok (namingPass_ok hnaming).1) (fun _ _ _ => trivial)
        fun _ => ?_
      refine ((Holds.kept scanNoReparse_keeps).post fun r s hs => ?_).andThen (E := fun _ _ => True)
        (K := fun _ => Holds staging (unpacked fold zip)) (fun _ _ _ => trivial) fun _ => ?_
      · cases r with
        | error x => trivial
        | ok => exact hs
      refine (Holds.kept (verifyRequired_keeps _)).post fun r s hs => ?_
      cases r with
      | error x => trivial
      | ok => exact hs

end

end Gamer.Updater.Archive
