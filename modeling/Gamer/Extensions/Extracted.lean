import Gamer.Extensions.Scanned

/-! What an extraction comes to. Every pass keeps to the limit of what it reads, the scan's read of
    the manifest apart, and one that succeeds has written the archive's files, each once:

        files of a, b, …   ──entry c──▶   files of a, b, …, c   ──▶   archiveFiles              -/

namespace Gamer.Extensions.Archive
open Gamer.Lib Gamer.Lib.Prog Gamer.Core

/-! ### Openings -/

/-- Everything opened so far kept to its limit. -/
def World.Limited (w : World) : Prop := ∀ o ∈ w.opened, o.Limited

def World.Exceeded (w : World) : Prop := ∃ o ∈ w.opened, ¬ o.Limited

theorem World.Exceeded.open {w : World} (h : w.Exceeded) (limit : Nat) : (w.open limit).Exceeded := by
  obtain ⟨o, ho, hlimited⟩ := h
  exact ⟨o, List.mem_cons_of_mem _ ho, hlimited⟩

theorem World.Exceeded.scanned {w : World} (h : w.Exceeded) (opened : List Opening) :
    (w.scanned opened).Exceeded := by
  obtain ⟨o, ho, hlimited⟩ := h
  exact ⟨o, List.mem_append_right _ ho, hlimited⟩

/-- What is read does not become less. -/
theorem World.Exceeded.decompress {w : World} (h : w.Exceeded) (n : Nat) :
    (w.decompress n).Exceeded := by
  obtain ⟨o, ho, hlimited⟩ := h
  unfold World.decompress
  split
  · rename_i hopened
    rw [hopened] at ho
    cases ho
  · rename_i o₀ rest hopened
    rw [hopened] at ho
    rcases List.mem_cons.mp ho with rfl | ho
    · refine ⟨_, List.mem_cons_self, fun hmore => hlimited ?_⟩
      unfold Opening.Limited at hmore ⊢
      dsimp only at hmore
      omega
    · exact ⟨o, List.mem_cons_of_mem _ ho, hlimited⟩

/-- What is noted is a change of the state. -/
theorem note_rule {α : Type} {f : World → World} {k : Unit → Step α} {P R : World → Prop}
    {Q : Except ExtensionError α → World → Prop} {C : World → Prop} (hf : ∀ w, P w → R (f w))
    (hk : Triple R (k ()) Q C) : Triple P ((note f).andThen k) Q C :=
  fun tape w hw => hk tape (f w) (hf w hw)

/-- A pass that writes nothing, and what follows where it succeeds. -/
theorem pass_rule {α β : Type} {scan : Except ExtensionError α × List Opening} {k : α → Step β}
    {P R : World → Prop} {Q : Except ExtensionError β → World → Prop} {C : World → Prop}
    (hscan : ∀ w, P w → R (w.scanned scan.2)) (herror : ∀ x w, R w → Q (.error x) w)
    (hk : ∀ a, scan.1 = .ok a → Triple R (k a) Q C) : Triple P ((pass scan).andThen k) Q C := by
  obtain ⟨result, opened⟩ := scan
  cases result with
  | error x => exact fun tape w hw => herror x _ (hscan w hw)
  | ok a => exact fun tape w hw => hk a rfl tape _ (hscan w hw)

/-! ### Effects -/

section Effects
variable (p : List String)

theorem createDir_opened : Keeps World.opened (createDir p) :=
  .effect fun e w => by split_ifs <;> rfl

theorem createDirs_opened (base : List String) : Keeps World.opened (createDirs base p) := by
  induction p generalizing base with
  | nil => exact .give
  | cons name rest ih => exact (createDir_opened _).andThen fun _ => ih _

theorem createNew_opened : Keeps World.opened (createNew p) :=
  .effect fun e w => by split_ifs <;> rfl

theorem append_opened (w : World) (bytes : Bytes) : (w.append p bytes).opened = w.opened := by
  unfold World.append
  split <;> rfl

theorem writeAll_opened (bytes : Bytes) : Keeps World.opened (writeAll p bytes) :=
  .effect fun e w => by split_ifs <;> exact append_opened p w _

theorem sync_opened : Keeps World.opened sync :=
  .effect fun e w => by split_ifs <;> rfl

/-- FRAME: a predicate on the openings. -/
theorem opened_triple {α : Type} {prog : Step α} (h : Keeps World.opened prog)
    (P : List Opening → Prop) :
    Triple (fun w => P w.opened) prog (fun _ w => P w.opened) fun w => P w.opened :=
  h.triple fun s t hview hs => by rwa [hview]

/-- What is seen of the files. -/
def World.files (w : World) : List String → Option Bytes := w.tree.fileAt

theorem createDir_files : Keeps World.files (createDir p) := by
  refine .effect fun e w => ?_
  split_ifs with hdir hnew
  · rfl
  · simp only [Bool.and_eq_true, Bool.not_eq_true'] at hnew
    exact funext fun q => FileTree.fileAt_set_dir hnew.1.2
  · rfl

theorem createDirs_files (base : List String) : Keeps World.files (createDirs base p) := by
  induction p generalizing base with
  | nil => exact .give
  | cons name rest ih => exact (createDir_files _).andThen fun _ => ih _

theorem sync_files : Keeps World.files sync :=
  .effect fun e w => by split_ifs <;> rfl

end Effects

/-! ### The limits -/

section Limits

/-- RUN: the copy loop ends at the first buffer beyond the limit. -/
theorem copyReads_limited {destination : List String} {copied total : Nat} {fault : Option String}
    {reads : List Bytes} (hreads : ∀ read ∈ reads, read.length ≤ bufferBytes) :
    Triple (fun w => ∃ rest, w.opened = ⟨maxExtensionFileBytes, copied⟩ :: rest ∧
        (∀ o ∈ rest, o.Limited) ∧ copied ≤ maxExtensionFileBytes)
      (copyReads destination copied total fault reads) (fun _ => World.Limited) World.Limited := by
  induction reads generalizing copied total with
  | nil =>
    have hend : ∀ w : World, (∃ rest, w.opened = ⟨maxExtensionFileBytes, copied⟩ :: rest ∧
        (∀ o ∈ rest, o.Limited) ∧ copied ≤ maxExtensionFileBytes) → w.Limited := by
      rintro w ⟨rest, hopened, hrest, hcopied⟩ o ho
      rw [hopened] at ho
      rcases List.mem_cons.mp ho with rfl | ho
      · exact Nat.le_add_right_of_le hcopied
      · exact hrest o ho
    unfold copyReads
    cases fault with
    | none => exact .give hend
    | some text => exact .give hend
  | cons read reads ih =>
    have hread := hreads read List.mem_cons_self
    have hrest := fun read hmem => hreads read (List.mem_cons_of_mem _ hmem)
    unfold copyReads
    refine note_rule (R := fun w => ∃ rest,
      w.opened = ⟨maxExtensionFileBytes, copied + read.length⟩ :: rest ∧
        (∀ o ∈ rest, o.Limited) ∧ copied ≤ maxExtensionFileBytes) ?_ ?_
    · rintro w ⟨rest, hopened, hrest, hcopied⟩
      exact ⟨rest, by simp [World.decompress, hopened], hrest, hcopied⟩
    · have hend : ∀ w : World, (∃ rest,
          w.opened = ⟨maxExtensionFileBytes, copied + read.length⟩ :: rest ∧
            (∀ o ∈ rest, o.Limited) ∧ copied ≤ maxExtensionFileBytes) → w.Limited := by
        rintro w ⟨rest, hopened, hrest, hcopied⟩ o ho
        rw [hopened] at ho
        rcases List.mem_cons.mp ho with rfl | ho
        · exact Nat.add_le_add hcopied hread
        · exact hrest o ho
      split_ifs with hnil hwide hwide hlarge
      · exact .give hend
      · exact .give hend
      · exact .give hend
      · exact .give hend
      · rw [not_or, Nat.not_lt, Nat.not_lt] at hlarge
        refine Triple.andThen_frame (opened_triple (writeAll_opened _ _) fun opened => ∃ rest,
          opened = ⟨maxExtensionFileBytes, copied + read.length⟩ :: rest ∧
            (∀ o ∈ rest, o.Limited) ∧ copied ≤ maxExtensionFileBytes) hend fun _ => ?_
        refine (ih hrest).pre ?_
        rintro w ⟨rest, hopened, hrest, hcopied⟩
        exact ⟨rest, hopened, hrest, hlarge.1⟩

end Limits


/-! ### The files -/

section Files
variable {p r : List String} {files : List (List String × Bytes)} {t : FileTree String Bytes}

/-- The regular files below a directory, each listed once. -/
structure Holds (t : FileTree String Bytes) (p : List String)
    (files : List (List String × Bytes)) : Prop where
  stored : ∀ r c, t.fileAt (p ++ r) = some c ↔ (r, c) ∈ files
  distinct : (files.map Prod.fst).Nodup

theorem Holds.not_mem (h : Holds t p files) (hnone : t.fileAt (p ++ r) = none) :
    r ∉ files.map Prod.fst := by
  intro hmem
  obtain ⟨⟨r', c⟩, hc, rfl⟩ := List.mem_map.mp hmem
  rw [(h.stored r' c).mpr hc] at hnone
  cases hnone

/-- A file is put where none of the others is. -/
theorem Holds.put {c : Bytes} (hfiles : ∀ q c', q ≠ r → (t.fileAt (p ++ q) = some c' ↔ (q, c') ∈ files))
    (hdistinct : (files.map Prod.fst).Nodup) (hnew : r ∉ files.map Prod.fst)
    (hset : t.settable (p ++ r) = true) : Holds (t.set (p ++ r) (.file c)) p (files ++ [(r, c)]) where
  stored := fun q c' => by
    rw [FileTree.fileAt_set_file hset, List.mem_append, List.mem_singleton]
    by_cases hq : q = r
    · subst hq
      have hnot : (q, c') ∉ files := fun hmem => hnew (List.mem_map_of_mem hmem)
      simp [hnot, eq_comm]
    · rw [if_neg fun heq => hq (List.append_cancel_left heq), hfiles q c' hq]
      simp [hq]
  distinct := by
    rw [List.map_append, List.nodup_append]
    refine ⟨hdistinct, List.nodup_singleton _, ?_⟩
    rintro a ha b hb rfl
    obtain rfl : a = r := by simpa using hb
    exact hnew ha

/-- The file written last grows. -/
theorem Holds.append {done more : Bytes} {w : World}
    (h : Holds w.tree p (files ++ [(r, done)])) :
    Holds (w.append (p ++ r) more).tree p (files ++ [(r, done ++ more)]) := by
  have hfile : w.tree.fileAt (p ++ r) = some done := (h.stored r done).mpr (by simp)
  have hdistinct := h.distinct
  rw [List.map_append, List.nodup_append] at hdistinct
  unfold World.append
  rw [hfile]
  refine Holds.put (fun q c' hq => ?_) hdistinct.1
    (fun hmem => hdistinct.2.2 r hmem r (by simp) rfl) (FileTree.settable_of_fileAt hfile)
  rw [h.stored q c', List.mem_append, List.mem_singleton]
  simp [hq]

theorem Holds.of_files {w w' : World} (h : Holds w.tree p files) (hsame : w'.files = w.files) :
    Holds w'.tree p files where
  stored := fun q c => by rw [← h.stored q c]; exact (congrArg (· = some c) (congrFun hsame _)).to_iff
  distinct := h.distinct

/-- FRAME: a part that puts no file anywhere. -/
theorem files_triple {α : Type} {prog : Step α} (h : Keeps World.files prog) :
    Triple (fun w => Holds w.tree p files) prog
      (either (fun _ _ => True) fun _ w => Holds w.tree p files) fun _ => True := by
  refine ((h.triple fun s t hview hs => Holds.of_files hs hview).post fun r w hw => ?_).cuts
    fun _ _ => trivial
  cases r with
  | error x => trivial
  | ok a => exact hw

theorem createNew_rule : Triple (fun w => Holds w.tree p files) (createNew (p ++ r))
    (either (fun _ _ => True) fun _ w => Holds w.tree p (files ++ [(r, [])])) fun _ => True := by
  refine .effect (fun _ _ => trivial) fun e w hw => ?_
  split_ifs with hnew
  · simp only [Bool.and_eq_true, Bool.not_eq_true'] at hnew
    have hnone : w.tree.fileAt (p ++ r) = none := by
      simp [FileTree.fileAt, FileTree.has_eq_false.mp hnew.1.2]
    exact Holds.put (fun q c' _ => hw.stored q c') hw.distinct (hw.not_mem hnone) hnew.2
  · trivial

theorem writeAll_rule {done more : Bytes} :
    Triple (fun w => Holds w.tree p (files ++ [(r, done)])) (writeAll (p ++ r) more)
      (either (fun _ _ => True) fun _ w => Holds w.tree p (files ++ [(r, done ++ more)]))
      fun _ => True := by
  refine .effect (fun _ _ => trivial) fun e w hw => ?_
  split_ifs
  · exact hw.append
  · trivial

/-- RUN: a copy loop that succeeds has written all that the entry comes to. -/
theorem copyReads_rule {done : Bytes} {total : Nat} {fault : Option String} {reads : List Bytes}
    (hreads : ∀ read ∈ reads, read ≠ []) (htotal : total ≤ importMaxTotalBytes) :
    Triple (fun w => Holds w.tree p (files ++ [(r, done)]))
      (copyReads (p ++ r) done.length total fault reads)
      (either (fun _ _ => True) fun total' w =>
        Holds w.tree p (files ++ [(r, done ++ reads.flatten)]) ∧
          total' = total + reads.flatten.length ∧ total' ≤ importMaxTotalBytes)
      fun _ => True := by
  induction reads generalizing done total with
  | nil =>
    unfold copyReads
    cases fault with
    | none =>
      refine .give fun w hw => ⟨?_, rfl, htotal⟩
      rwa [List.flatten_nil, List.append_nil]
    | some text => exact .give fun _ _ => trivial
  | cons read reads ih =>
    have hread := hreads read List.mem_cons_self
    have hrest := fun read hmem => hreads read (List.mem_cons_of_mem _ hmem)
    unfold copyReads
    refine note_rule (R := fun w => Holds w.tree p (files ++ [(r, done)])) (fun w hw => ?_) ?_
    · unfold World.decompress
      split <;> exact hw
    · rw [if_neg hread]
      split_ifs with hwide hwide' hlarge
      · exact .give fun _ _ => trivial
      · exact .give fun _ _ => trivial
      · exact .give fun _ _ => trivial
      · rw [not_or, Nat.not_lt, Nat.not_lt] at hlarge
        refine writeAll_rule.andThen (fun _ _ _ => trivial) fun _ => ?_
        rw [← List.length_append]
        refine (ih hrest hlarge.2).post fun result w hw => ?_
        cases result with
        | error x => trivial
        | ok total' =>
          obtain ⟨hholds, hsum, hmax⟩ := hw
          refine ⟨?_, ?_, hmax⟩
          · rwa [List.flatten_cons, ← List.append_assoc]
          · rw [hsum, List.flatten_cons, List.length_append, Nat.add_assoc]

end Files

section
variable {Manifest : Type} (host : Host Manifest)

/-! ### Entries -/

/-- The file an entry stands for, where it stands for one. -/
def entryFile (entry : Entry) : Option (List String × Bytes) :=
  if entry.isDir then none
  else (entryName host entry).map fun name => ((components name).map host.fold, entry.content)

/-- A candidate of the scan, and the entry that the second opening gives for it. -/
def Matches (zip : Zip) (c : ArchiveEntry) (e : Entry) : Prop :=
  zip.byIndex c.archiveIndex = .ok e ∧ entryName host e = some c.name

variable {host} {zip : Zip} {staging : List String} {files : List (List String × Bytes)}

theorem matches_found {es : List Entry} (hes : zip.entries = es.map .ok)
    (hadm : Admissible host es) : List.Forall₂ (Matches host zip) (es.mapIdx (found host)) es := by
  refine List.forall₂_iff_get.mpr ⟨List.length_mapIdx, fun i hi hi' => ?_⟩
  rw [List.get_eq_getElem, List.get_eq_getElem, List.getElem_mapIdx]
  obtain ⟨name, hname⟩ := hadm.named es[i] (List.getElem_mem hi')
  refine ⟨?_, ?_⟩
  · show zip.entries.getD i _ = .ok es[i]
    rw [hes, List.getD_eq_getElem?_getD, List.getElem?_map, List.getElem?_eq_getElem hi']
    rfl
  · rw [found_name hname, hname]

/-- The bytes of files. -/
def totalBytes (files : List (List String × Bytes)) : Nat := (files.map fun f => f.2.length).sum

theorem totalBytes_append (files more : List (List String × Bytes)) :
    totalBytes (files ++ more) = totalBytes files + totalBytes more := by
  simp [totalBytes]

/-- STEP: an entry more. -/
theorem extractEntry_rule {total : Nat} {c : ArchiveEntry} {e : Entry} (hmatch : Matches host zip c e)
    (htotal : total ≤ importMaxTotalBytes) :
    Triple (fun w => Holds w.tree staging files) (extractEntry host staging zip total c)
      (either (fun _ _ => True) fun total' w =>
        Holds w.tree staging (files ++ (entryFile host e).toList) ∧
          total' = total + totalBytes (entryFile host e).toList ∧ total' ≤ importMaxTotalBytes ∧
          parsePath host c.name = .ok c.name)
      fun _ => True := by
  obtain ⟨hindex, hname⟩ := hmatch
  unfold extractEntry
  rw [hindex]
  dsimp only
  cases hparse : parsePath host c.name with
  | error x => exact .give fun _ _ => trivial
  | ok path =>
    obtain rfl : path = c.name :=
      (parsePath_eq host hparse).trans (entryName_trimmed host hname)
    dsimp only
    cases hdir : e.isDir with
    | true =>
      have hnone : entryFile host e = none := by simp [entryFile, hdir]
      rw [if_pos rfl, hnone]
      refine (files_triple (createDirs_files _ _)).andThen (fun _ _ _ => trivial) fun _ =>
        .give fun w hw => ⟨?_, rfl, htotal, rfl⟩
      rwa [Option.toList_none, List.append_nil]
    | false =>
      have hfile : entryFile host e =
          some ((components c.name).map host.fold, e.content) := by simp [entryFile, hdir, hname]
      rw [if_neg Bool.false_ne_true, hfile]
      split_ifs
      · exact .give fun _ _ => trivial
      refine (files_triple (createDirs_files _ _)).andThen (fun _ _ _ => trivial) fun _ =>
        createNew_rule.andThen (fun _ _ _ => trivial) fun _ => ?_
      have hreads : ∀ read ∈ e.reads, read ≠ [] := fun read hmem => (e.buffered read hmem).1
      have hcopy : Triple (fun w => Holds w.tree staging
            (files ++ [((components c.name).map host.fold, [])]))
          (copyEntry (appendPath host staging c.name) total e)
          (either (fun _ _ => True) fun total' w =>
            Holds w.tree staging (files ++ [((components c.name).map host.fold, e.content)]) ∧
              total' = total + e.content.length ∧ total' ≤ importMaxTotalBytes)
          fun _ => True :=
        note_rule (fun w hw => hw)
          (@copyReads_rule staging _ files [] total e.fault e.reads hreads htotal)
      refine hcopy.andThen (fun _ _ _ => trivial) fun total' => ?_
      refine Triple.fact fun hsum => ?_
      refine (files_triple sync_files).andThen (fun _ _ _ => trivial) fun _ =>
        (files_triple sync_files).andThen (fun _ _ _ => trivial) fun _ =>
          .give fun w hw => ⟨hw, ?_, hsum.2, rfl⟩
      rw [hsum.1]
      simp [totalBytes]

/-- RUN: an extraction that succeeds has written the files of all entries. -/
theorem extractEntries_rule {cs : List ArchiveEntry} {es : List Entry}
    (hmatch : List.Forall₂ (Matches host zip) cs es) :
    ∀ {files : List (List String × Bytes)} {total : Nat}, total ≤ importMaxTotalBytes →
      Triple (fun w => Holds w.tree staging files) (extractEntries host staging zip total cs)
        (either (fun _ _ => True) fun _ w =>
          Holds w.tree staging (files ++ es.filterMap (entryFile host)) ∧
            total + totalBytes (es.filterMap (entryFile host)) ≤ importMaxTotalBytes ∧
            ∀ c ∈ cs, parsePath host c.name = .ok c.name)
        fun _ => True := by
  induction hmatch with
  | nil =>
    intro files total htotal
    refine .give fun w hw => ⟨?_, ?_, fun c hc => by cases hc⟩
    · rwa [List.filterMap_nil, List.append_nil]
    · exact htotal
  | @cons c e cs es hce _ ih =>
    intro files total htotal
    unfold extractEntries
    refine (extractEntry_rule hce htotal).andThen (fun _ _ _ => trivial) fun total' => ?_
    refine Triple.fact fun hsum => ?_
    obtain ⟨hsum, hmax, hparse⟩ := hsum
    have hsplit : (e :: es).filterMap (entryFile host) =
        (entryFile host e).toList ++ es.filterMap (entryFile host) := by
      rw [List.filterMap_cons]
      cases entryFile host e <;> rfl
    refine (ih hmax).post fun result w hw => ?_
    cases result with
    | error x => trivial
    | ok u =>
      obtain ⟨hholds, hbytes, hparsed⟩ := hw
      refine ⟨?_, ?_, fun c' hc' => ?_⟩
      · rwa [hsplit, ← List.append_assoc]
      · rw [hsplit, totalBytes_append]
        omega
      · rcases List.mem_cons.mp hc' with rfl | hc'
        · exact hparse
        · exact hparsed c' hc'

/-! ### The promise -/

variable (host) in
/-- The archive's files, each with where it belongs below the staging directory. -/
def archiveFiles (zip : Zip) : List (List String × Bytes) :=
  zip.entries.filterMap fun
    | .ok entry => entryFile host entry
    | .error _ => none

variable (host) in
/-- What is promised of an extraction that succeeds. -/
structure Extracted (zip : Zip) (staging : List String) (manifest : Manifest)
    (t : FileTree String Bytes) : Prop where
  files : ∀ r c, t.fileAt (staging ++ r) = some c ↔ (r, c) ∈ archiveFiles host zip
  distinct : ((archiveFiles host zip).map Prod.fst).Nodup
  named : ∀ x ∈ zip.entries, ∃ e name, x = .ok e ∧ entryName host e = some name ∧
    parsePath host name = .ok name ∧
    ∀ component ∈ components name, component ≠ "" ∧ component ≠ "." ∧ component ≠ ".."
  total : totalBytes (archiveFiles host zip) ≤ importMaxTotalBytes
  manifest : ∃ c, ([host.fold manifestFileName], c) ∈ archiveFiles host zip ∧
    host.parseManifest c = .ok manifest

variable (host) in
/-- What is promised of a run, wherever it ends. -/
structure Promised (bytes : Bytes) (staging : List String)
    (run : Ended Answer World (Except ExtensionError Manifest)) : Prop where
  limited : run.state.Limited
  extracted : ∀ manifest w rest, run = .done (.ok manifest) w rest →
    ∃ zip, host.library bytes = .ok zip ∧ Extracted host zip staging manifest w.tree

/-- A directory with nothing in it. -/
def EmptyDir (t : FileTree String Bytes) (p : List String) : Prop :=
  t.isDir p = true ∧ ∀ r, r ≠ [] → t.get (p ++ r) = none

theorem EmptyDir.holds {t : FileTree String Bytes} {p : List String} (h : EmptyDir t p) :
    Holds t p [] where
  stored := fun r c => by
    have hnone : t.fileAt (p ++ r) = none := by
      unfold FileTree.fileAt
      by_cases hr : r = []
      · rw [hr, List.append_nil, FileTree.isDir_iff.mp h.1]
      · rw [h.2 r hr]
    simp [hnone]
  distinct := List.nodup_nil

theorem inspectArchive_ok {bytes : Bytes} {manifest : Manifest}
    (h : (inspectArchive host bytes).1 = .ok manifest) : ∃ cs content,
      (scanArchive host bytes).1 = .ok (cs, content) ∧ host.parseManifest content = .ok manifest := by
  unfold inspectArchive at h
  split at h
  · cases h
  · rename_i cs content opened hscan
    refine ⟨cs, content, by rw [hscan], ?_⟩
    obtain ⟨m, hparse, h⟩ := bind_eq_ok.mp h
    obtain ⟨_, _, h⟩ := bind_eq_ok.mp h
    obtain ⟨_, _, h⟩ := bind_eq_ok.mp h
    obtain ⟨_, _, h⟩ := bind_eq_ok.mp h
    cases h
    exact hparse

theorem inspectArchive_opened (bytes : Bytes) :
    (inspectArchive host bytes).2 = (scanArchive host bytes).2 := by
  unfold inspectArchive
  split <;> rename_i hscan <;> rw [hscan]

variable (host) in
theorem archiveFiles_eq {es : List Entry} (hes : zip.entries = es.map .ok) :
    archiveFiles host zip = es.filterMap (entryFile host) := by
  rw [archiveFiles, hes, List.filterMap_map]
  rfl

theorem components_manifestFileName : components manifestFileName = [manifestFileName] := by
  decide +kernel

variable (host) in
/-- An extraction that succeeds is as promised. -/
theorem extractArchive_extracted (bytes : Bytes) (staging : List String) :
    Triple (fun w => EmptyDir w.tree staging) (extractArchive host bytes staging)
      (either (fun _ _ => True) fun manifest w =>
        ∃ zip, host.library bytes = .ok zip ∧ Extracted host zip staging manifest w.tree)
      fun _ => True := by
  unfold extractArchive
  refine pass_rule (R := fun w => EmptyDir w.tree staging) (fun w hw => hw) (fun _ _ _ => trivial)
    fun manifest hinspect => ?_
  refine pass_rule (R := fun w => EmptyDir w.tree staging) (fun w hw => hw) (fun _ _ _ => trivial)
    fun scan hscan => ?_
  obtain ⟨cs, content, hscan', hparse⟩ := inspectArchive_ok hinspect
  obtain rfl : (cs, content) = scan := Except.ok.inj (hscan'.symm.trans hscan)
  obtain ⟨zip, es, hlibrary, hes, hadm, rfl, e, he, hname, rfl⟩ := scanArchive_ok hscan
  rw [hlibrary]
  refine Triple.pre ((files_triple (createDirs_files _ _)).andThen (fun _ _ _ => trivial)
    fun _ => ?_) fun w hw => hw.holds
  refine (extractEntries_rule (matches_found hes hadm) (Nat.zero_le _)).andThen
    (fun _ _ _ => trivial) fun _ => ?_
  refine Triple.fact fun hend => ?_
  obtain ⟨htotal, hparsed⟩ := hend
  refine (files_triple sync_files).andThen (fun _ _ _ => trivial) fun _ =>
    .give fun w hw => ⟨zip, rfl, ?_⟩
  rw [List.nil_append] at hw
  rw [Nat.zero_add] at htotal
  have hfiles := archiveFiles_eq host hes
  have hpath : ∀ e' ∈ es, ∃ name, entryName host e' = some name ∧
      parsePath host name = .ok name := by
    intro e' he'
    obtain ⟨name, hname'⟩ := hadm.named e' he'
    obtain ⟨i, hi, rfl⟩ := List.mem_iff_getElem.mp he'
    refine ⟨name, hname', ?_⟩
    have hc := hparsed (found host i es[i]) (List.mem_mapIdx.mpr ⟨i, hi, rfl⟩)
    rwa [found_name hname'] at hc
  refine ⟨fun r c => ?_, ?_, fun x hx => ?_, ?_, ?_⟩
  · rw [hfiles]
    exact hw.stored r c
  · rw [hfiles]
    exact hw.distinct
  · rw [hes] at hx
    obtain ⟨e', he', rfl⟩ := List.mem_map.mp hx
    obtain ⟨name, hname', hparse'⟩ := hpath e' he'
    exact ⟨e', name, rfl, hname', hparse', fun _ => component_of_parsePath host hparse'⟩
  · rw [hfiles]
    exact htotal
  · refine ⟨e.content, ?_, hparse⟩
    rw [hfiles]
    refine List.mem_filterMap.mpr ⟨e, he, ?_⟩
    have hfile : e.isDir = false := by
      rw [← Bool.not_eq_true]
      intro hdir
      have hfalse := (hadm.manifest e he hname).1
      rw [isDirEntry_of_isDir hdir] at hfalse
      cases hfalse
    simp [entryFile, hfile, hname, components_manifestFileName]

/-! ### The limits of a whole run -/

/-- What the copy loop keeps of the openings, the extraction of an entry keeps. -/
theorem extractEntry_keeps {P : List Opening → Prop}
    (hcopy : ∀ destination total entry, Triple (fun w => P w.opened)
      (copyEntry destination total entry) (fun _ w => P w.opened) fun w => P w.opened)
    (total : Nat) (c : ArchiveEntry) :
    Triple (fun w => P w.opened) (extractEntry host staging zip total c)
      (fun _ w => P w.opened) fun w => P w.opened := by
  unfold extractEntry
  split
  · exact .give fun _ hw => hw
  split
  · exact .give fun _ hw => hw
  dsimp only
  split_ifs
  · exact Triple.andThen_frame (opened_triple (createDirs_opened _ _) P) (fun _ hw => hw)
      fun _ => .give fun _ hw => hw
  · exact .give fun _ hw => hw
  · refine Triple.andThen_frame (opened_triple (createDirs_opened _ _) P) (fun _ hw => hw) fun _ => ?_
    refine Triple.andThen_frame (opened_triple (createNew_opened _) P) (fun _ hw => hw) fun _ => ?_
    refine Triple.andThen_frame (hcopy _ _ _) (fun _ hw => hw) fun _ => ?_
    refine Triple.andThen_frame (opened_triple sync_opened P) (fun _ hw => hw) fun _ => ?_
    exact Triple.andThen_frame (opened_triple sync_opened P) (fun _ hw => hw)
      fun _ => .give fun _ hw => hw

theorem extractEntries_keeps {P : List Opening → Prop}
    (hcopy : ∀ destination total entry, Triple (fun w => P w.opened)
      (copyEntry destination total entry) (fun _ w => P w.opened) fun w => P w.opened)
    (cs : List ArchiveEntry) (total : Nat) :
    Triple (fun w => P w.opened) (extractEntries host staging zip total cs)
      (fun _ w => P w.opened) fun w => P w.opened := by
  induction cs generalizing total with
  | nil => exact .give fun _ hw => hw
  | cons c cs ih =>
    unfold extractEntries
    exact Triple.andThen_frame (extractEntry_keeps hcopy total c) (fun _ hw => hw) fun total => ih total

/-- What the scans bring about and the copy loop keeps holds wherever the run ends. -/
theorem extractArchive_keeps {P : List Opening → Prop} {bytes : Bytes}
    (hcopy : ∀ destination total entry, Triple (fun w => P w.opened)
      (copyEntry destination total entry) (fun _ w => P w.opened) fun w => P w.opened)
    (hfirst : P ((scanArchive host bytes).2.reverse ++ []))
    (hscan : ∀ opened, P opened → P ((scanArchive host bytes).2.reverse ++ opened)) :
    Triple (fun w => w.opened = []) (extractArchive host bytes staging)
      (fun _ w => P w.opened) fun w => P w.opened := by
  unfold extractArchive
  refine pass_rule (R := fun w => P w.opened) (fun w hw => ?_) (fun _ _ hw => hw) fun _ _ => ?_
  · show P ((inspectArchive host bytes).2.reverse ++ w.opened)
    rw [inspectArchive_opened, hw]
    exact hfirst
  refine pass_rule (R := fun w => P w.opened) (fun w hw => hscan _ hw) (fun _ _ hw => hw) fun _ _ => ?_
  split
  · exact .give fun _ hw => hw
  refine Triple.andThen_frame (opened_triple (createDirs_opened _ _) P) (fun _ hw => hw) fun _ => ?_
  refine Triple.andThen_frame (extractEntries_keeps hcopy _ _) (fun _ hw => hw) fun _ => ?_
  exact Triple.andThen_frame (opened_triple sync_opened P) (fun _ hw => hw)
    fun _ => .give fun _ hw => hw

theorem copyEntry_limited (destination : List String) (total : Nat) (entry : Entry) :
    Triple World.Limited (copyEntry destination total entry) (fun _ => World.Limited)
      World.Limited :=
  note_rule (fun w hw => ⟨w.opened, rfl, hw, Nat.zero_le _⟩)
    (copyReads_limited fun read hmem => (entry.buffered read hmem).2)

/-- RUN: what exceeded its limit still does. -/
theorem copyReads_exceeded {destination : List String} {copied total : Nat} {fault : Option String}
    {reads : List Bytes} :
    Triple World.Exceeded (copyReads destination copied total fault reads)
      (fun _ => World.Exceeded) World.Exceeded := by
  induction reads generalizing copied total with
  | nil =>
    unfold copyReads
    cases fault with
    | none => exact .give fun _ hw => hw
    | some text => exact .give fun _ hw => hw
  | cons read reads ih =>
    unfold copyReads
    refine note_rule (R := World.Exceeded) (fun w hw => hw.decompress _) ?_
    split_ifs
    · exact .give fun _ hw => hw
    · exact .give fun _ hw => hw
    · exact .give fun _ hw => hw
    · exact .give fun _ hw => hw
    · exact Triple.andThen_frame (opened_triple (writeAll_opened _ _)
        fun opened => ∃ o ∈ opened, ¬ o.Limited) (fun _ hw => hw) fun _ => ih

theorem copyEntry_exceeded (destination : List String) (total : Nat) (entry : Entry) :
    Triple World.Exceeded (copyEntry destination total entry) (fun _ => World.Exceeded)
      World.Exceeded :=
  note_rule (fun _ hw => hw.open _) copyReads_exceeded

theorem extractArchive_limited {bytes : Bytes} (hfit : ManifestsFit host bytes) :
    Triple (fun w => w.opened = []) (extractArchive host bytes staging) (fun _ => World.Limited)
      World.Limited := by
  have hscan : ∀ opened : List Opening, (∀ o ∈ opened, o.Limited) →
      ∀ o ∈ (scanArchive host bytes).2.reverse ++ opened, o.Limited := by
    intro opened hopened o ho
    rcases List.mem_append.mp ho with ho | ho
    · exact scanArchive_limited hfit o (List.mem_reverse.mp ho)
    · exact hopened o ho
  exact extractArchive_keeps (P := fun opened => ∀ o ∈ opened, o.Limited) copyEntry_limited
    (hscan [] fun _ ho => by cases ho) hscan

theorem extractArchive_exceeded {bytes : Bytes} (hfit : ¬ ManifestsFit host bytes) :
    Triple (fun w => w.opened = []) (extractArchive host bytes staging) (fun _ => World.Exceeded)
      World.Exceeded := by
  obtain ⟨o, ho, hlimited⟩ := scanArchive_reads hfit
  have hscan : ∀ opened : List Opening,
      ∃ o ∈ (scanArchive host bytes).2.reverse ++ opened, ¬ o.Limited := fun opened =>
    ⟨o, List.mem_append_left _ (List.mem_reverse.mpr ho), hlimited⟩
  exact extractArchive_keeps (P := fun opened => ∃ o ∈ opened, ¬ o.Limited) copyEntry_exceeded
    (hscan []) fun opened _ => hscan opened

/-- A manifest that does not fit is read whole, and so the run is not as promised. -/
theorem not_promised {bytes : Bytes} {w : World} (hopened : w.opened = [])
    (hfit : ¬ ManifestsFit host bytes) (tape : List Answer) :
    ¬ Promised host bytes staging (extractArchive host bytes staging tape w) := by
  intro hpromised
  obtain ⟨o, ho, hlimited⟩ := (extractArchive_exceeded hfit).state hopened tape
  exact hlimited (hpromised.limited o ho)

end

/-! ### Archives -/

/-- A host that knows one archive, and takes every manifest for one of a builtin. -/
def plainHost (zip : Zip) : Host Bytes where
  alphanumeric := Char.isAlphanum
  quote := id
  library _ := .ok zip
  parseManifest content := .ok content
  execution _ := .builtin
  ui _ := []
  validateTools _ _ := .ok ()
  fold := id

/-- A manifest that declares one byte. -/
def manifestEntry (reads : List Bytes) (h : ∀ read ∈ reads, read ≠ [] ∧ read.length ≤ bufferBytes) :
    Entry where
  name := .ok manifestFileName
  encrypted := false
  isSymlink := false
  isDir := false
  size := 1
  reads := reads
  buffered := h
  fault := none

def manifestZip (entry : Entry) : Zip := ⟨[.ok entry], fun _ => .error "not found"⟩

def smallManifest : Entry := manifestEntry [[35]] (by decide)

/-- The staging directory, and nothing else. -/
def emptyStaging : World := ⟨FileTree.bare.set ["staging"] .dir, []⟩

/-- Six buffers, behind a declared size of one byte. -/
def largeManifest : Entry := manifestEntry (List.replicate 6 (List.replicate bufferBytes 35)) (by
  intro read hread
  rw [List.eq_of_mem_replicate hread]
  refine ⟨?_, ?_⟩
  · exact List.ne_nil_of_length_pos (by rw [List.length_replicate]; decide)
  · rw [List.length_replicate])

theorem emptyStaging_empty : EmptyDir emptyStaging.tree ["staging"] := by
  have hset : (FileTree.bare : FileTree String Bytes).settable ["staging"] = true := by decide
  refine ⟨?_, fun r hr => ?_⟩
  · rw [FileTree.isDir_iff]
    exact FileTree.get_set hset
  · have hne : ["staging"] ++ r ≠ ["staging"] := fun h => hr (by simpa using h)
    rw [emptyStaging, FileTree.get_set_ne hne]
    show (if "staging" :: r = [] then some Node.dir else none) = none
    exact if_neg (List.cons_ne_nil _ _)

theorem manifestEntry_name (reads : List Bytes) (h) :
    entryName (plainHost (manifestZip (manifestEntry reads h))) (manifestEntry reads h) =
      some manifestFileName := by
  have hlast : decide (manifestFileName.toList.getLast? = some '/') = false := by decide +kernel
  simp [entryName, manifestEntry, Entry.scansAsDir, normalizeArchivePath, trim_manifestFileName,
    hlast, Except.toOption]

theorem open_manifestZip (entry : Entry) :
    openArchive (plainHost (manifestZip entry)) [] = .ok (manifestZip entry) := rfl

theorem largeManifest_not_fit :
    ¬ ManifestsFit (plainHost (manifestZip largeManifest)) [] := by
  intro hfit
  have hname : entryName (plainHost (manifestZip largeManifest)) largeManifest =
      some manifestFileName := manifestEntry_name _ _
  have hadm : Admissible (plainHost (manifestZip largeManifest)) ([] ++ [largeManifest]) := by
    rw [List.nil_append]
    constructor
    · simp [largeManifest, manifestEntry]
    · intro e he
      obtain rfl := List.mem_singleton.mp he
      exact ⟨_, hname⟩
    · exact List.nodup_singleton _
    · simp [largeManifest, manifestEntry, importMaxTotalBytes]
    · simp [largeManifest, manifestEntry, maxExtensionFileBytes]
    · intro e he _
      obtain rfl := List.mem_singleton.mp he
      exact ⟨by decide, by decide⟩
  have hlength := hfit _ [] largeManifest [] (open_manifestZip _) rfl hadm hname
  have hlarge : largeManifest.content.length = 6 * bufferBytes := by
    simp only [Entry.content, largeManifest, manifestEntry, List.length_flatten, List.map_replicate,
      List.length_replicate, List.sum_replicate, smul_eq_mul]
  rw [hlarge] at hlength
  exact absurd hlength (by decide)

end Gamer.Extensions.Archive
