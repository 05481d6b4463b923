import Gamer.Updater.Restore

/-! A restore loses no file and can be run again. Until the two renames into the quarantine the live
    files are where they were; after them they are in the quarantine for good; and the next restore
    goes through the same steps from wherever the last one stopped:

        begun ──▶ data moved ──▶ config moved ──▶ data restored ──▶ config restored
          └─────────────┴──── stopped anywhere ─────────┴──▶ restore again ──▶ restored -/

namespace Gamer.Updater.Restore
open Gamer.Lib Gamer.Lib.Prog

/-! ### No file is lost -/

/-- What was live is live or in the quarantine of this restore, and the other quarantines are as
    they were. -/
structure Preserved (stamp : String) (d d' : Disk) : Prop where
  data : ∀ name file, d.data.bind (·.get name) = some file →
    d'.data.bind (·.get name) = some file ∨
      ∃ txn, d'.quarantine.get stamp = some txn ∧ txn.data.bind (·.get name) = some file
  config : ∀ content, d.config = some content → d'.config = some content ∨
    ∃ txn, d'.quarantine.get stamp = some txn ∧ txn.config = some content
  evidence : ∀ stamp', stamp' ≠ stamp → d'.quarantine.get stamp' = d.quarantine.get stamp'

/-- INVARIANT: where the live files of `d₀` are by now. -/
structure Kept (stamp : String) (d₀ d : Disk) : Prop where
  data : d₀.data = none ∨ d.data = d₀.data ∨
    ∃ txn, d.quarantine.get stamp = some txn ∧ txn.data = d₀.data
  config : d₀.config = none ∨ d.config = d₀.config ∨
    ∃ txn, d.quarantine.get stamp = some txn ∧ txn.config = d₀.config
  evidence : ∀ stamp', stamp' ≠ stamp → d.quarantine.get stamp' = d₀.quarantine.get stamp'
  backups : d.backups = d₀.backups

theorem Kept.refl (stamp : String) (d : Disk) : Kept stamp d d :=
  ⟨.inr (.inl rfl), .inr (.inl rfl), fun _ _ => rfl, rfl⟩

theorem Kept.preserved {stamp : String} {d₀ d : Disk} (h : Kept stamp d₀ d) :
    Preserved stamp d₀ d where
  data name file hfile := by
    rcases h.data with hnone | hlive | ⟨txn, htxn, hmoved⟩
    · rw [hnone] at hfile
      cases hfile
    · exact .inl (hlive ▸ hfile)
    · exact .inr ⟨txn, htxn, hmoved ▸ hfile⟩
  config content hcontent := by
    rcases h.config with hnone | hlive | ⟨txn, htxn, hmoved⟩
    · rw [hnone] at hcontent
      cases hcontent
    · exact .inl (hlive.trans hcontent)
    · exact .inr ⟨txn, htxn, hmoved.trans hcontent⟩
  evidence := h.evidence

/-- Nothing live was touched yet. -/
structure Begun (stamp : String) (d₀ d : Disk) : Prop extends Kept stamp d₀ d where
  live : d.data = d₀.data
  liveConfig : d.config = d₀.config

section
variable {stamp : String} {d₀ : Disk} {lower : String → String} {sha : Bytes → String}
  {digest : Manifest → String}

/-- A change of the stages is no change of what is kept. -/
theorem Begun.stages {d : Disk} (h : Begun stamp d₀ d) (stages : Table String Dir) :
    Begun stamp d₀ { d with stages := stages } :=
  ⟨⟨h.data, h.config, h.evidence, h.backups⟩, h.live, h.liveConfig⟩

/-- EFFECT RULE: what leaves the live files alone, in whatever it ends. -/
theorem begun_effect {α : Type} {f : Answer → Disk → Except String α × Disk}
    (h : ∀ e d, Begun stamp d₀ d → Begun stamp d₀ (f e d).2) :
    Triple (Begun stamp d₀) (Prog.effect f)
      (either (fun _ => Kept stamp d₀) fun _ => Begun stamp d₀) (Kept stamp d₀) := by
  refine .effect (fun d hd => hd.toKept) fun e d hd => ?_
  have hnext := h e d hd
  cases hr : (f e d).1 with
  | error text => exact hnext.toKept
  | ok a => exact hnext

theorem verify_begun (updateId : String) :
    Triple (Begun stamp d₀) (verify lower sha digest updateId)
      (either (fun _ => Kept stamp d₀) fun _ => Begun stamp d₀) (Kept stamp d₀) := by
  refine begun_effect fun e d hd => ?_
  split <;> exact hd

theorem createStage_begun (stage : String) :
    Triple (Begun stamp d₀) (createStage stage)
      (either (fun _ => Kept stamp d₀) fun _ => Begun stamp d₀) (Kept stamp d₀) := by
  refine begun_effect fun e d hd => ?_
  split
  · exact hd
  · split
    · exact hd.stages _
    · exact hd

theorem stageFile_begun (updateId stage : String) (f : ListedFile) :
    Triple (Begun stamp d₀) (stageFile lower updateId stage f)
      (either (fun _ => Kept stamp d₀) fun _ => Begun stamp d₀) (Kept stamp d₀) := by
  refine begun_effect fun e d hd => ?_
  split
  · exact hd.stages _
  · dsimp only
    split
    · exact hd.stages _
    · exact hd

/-- RUN: the copies into the stage, one by one. -/
theorem stageFiles_begun (updateId stage : String) (files : List ListedFile) :
    Triple (Begun stamp d₀) (stageFiles lower updateId stage files)
      (either (fun _ => Kept stamp d₀) fun _ => Begun stamp d₀) (Kept stamp d₀) := by
  induction files with
  | nil => exact .give fun d hd => hd
  | cons f rest ih =>
    exact (stageFile_begun updateId stage f).andThen (fun _ _ hd => hd) fun _ => ih

theorem verifyStage_begun (stage : String) (m : Manifest) :
    Triple (Begun stamp d₀) (verifyStage lower sha stage m)
      (either (fun _ => Kept stamp d₀) fun _ => Begun stamp d₀) (Kept stamp d₀) := by
  refine begun_effect fun e d hd => ?_
  split
  · split <;> exact hd
  · exact hd

/-- The directory is made, or is there already. -/
theorem createQuarantine_begun :
    Triple (Begun stamp d₀) (createQuarantine stamp)
      (either (fun _ => Kept stamp d₀) fun _ => Begun stamp d₀) (Kept stamp d₀) := by
  refine begun_effect fun e d hd => ?_
  split
  · exact hd
  · split
    · exact ⟨⟨.inr (.inl hd.live), .inr (.inl hd.liveConfig),
        fun stamp' hne => (Table.get_set_ne hne ..).trans (hd.evidence stamp' hne), hd.backups⟩,
        hd.live, hd.liveConfig⟩
    · exact hd

/-- STEP: `data/` is moved, or is where it was. -/
theorem takeData_kept :
    Triple (Begun stamp d₀) (takeData stamp)
      (either (fun _ => Kept stamp d₀) fun _ d => Kept stamp d₀ d ∧ d.config = d₀.config)
      (Kept stamp d₀) := by
  refine .effect (fun d hd => hd.toKept) fun e d hd => ?_
  split
  · exact ⟨hd.toKept, hd.liveConfig⟩
  · next files hfiles =>
    split
    · refine ⟨⟨.inr (.inr ⟨_, Table.get_set_self .., ?_⟩), .inr (.inl hd.liveConfig), ?_,
        hd.backups⟩, hd.liveConfig⟩
      · exact hfiles.symm.trans hd.live
      · exact fun stamp' hne => (Table.get_set_ne hne ..).trans (hd.evidence stamp' hne)
    · exact hd.toKept

/-- STEP: so is the configuration, and there is none after it. -/
theorem takeConfig_kept :
    Triple (fun d => Kept stamp d₀ d ∧ d.config = d₀.config) (takeConfig stamp)
      (either (fun _ => Kept stamp d₀) fun _ d => Kept stamp d₀ d ∧ d.config = none)
      (Kept stamp d₀) := by
  refine .effect (fun d hd => hd.1) fun e d hd => ?_
  obtain ⟨hkept, hlive⟩ := hd
  split
  · next hnone => exact ⟨hkept, hnone⟩
  · next content hcontent =>
    split
    · next txn _ htxn =>
      refine ⟨⟨?_, .inr (.inr ⟨_, Table.get_set_self .., hcontent.symm.trans hlive⟩), ?_,
        hkept.backups⟩, rfl⟩
      · rcases hkept.data with hnone | hdata | ⟨txn', htxn', hmoved⟩
        · exact .inl hnone
        · exact .inr (.inl hdata)
        · obtain rfl := Option.some.inj (htxn.symm.trans htxn')
          exact .inr (.inr ⟨_, Table.get_set_self .., hmoved⟩)
      · exact fun stamp' hne => (Table.get_set_ne hne ..).trans (hkept.evidence stamp' hne)
    · exact hkept

/-- STEP: the staged `data/` comes only where there is none. -/
theorem putData_kept (stage : String) :
    Triple (fun d => Kept stamp d₀ d ∧ d.config = none) (putData stage)
      (either (fun _ => Kept stamp d₀) fun _ d => Kept stamp d₀ d ∧ d.config = none)
      (Kept stamp d₀) := by
  refine .effect (fun d hd => hd.1) fun e d hd => ?_
  obtain ⟨hkept, hlive⟩ := hd
  split
  · next hnone _ =>
    refine ⟨⟨?_, hkept.config, hkept.evidence, hkept.backups⟩, hlive⟩
    rcases hkept.data with h | h | h
    · exact .inl h
    · exact .inl (h.symm.trans hnone)
    · exact .inr (.inr h)
  · exact hkept

theorem putConfig_kept (stage : String) (m : Manifest) :
    Triple (fun d => Kept stamp d₀ d ∧ d.config = none) (putConfig lower stage m)
      (either (fun _ => Kept stamp d₀) fun _ => Kept stamp d₀) (Kept stamp d₀) := by
  unfold putConfig
  split
  · refine .effect (fun d hd => hd.1) fun e d hd => ?_
    obtain ⟨hkept, hlive⟩ := hd
    split
    · refine ⟨hkept.data, ?_, hkept.evidence, hkept.backups⟩
      rcases hkept.config with h | h | h
      · exact .inl h
      · exact .inl (h.symm.trans hlive)
      · exact .inr (.inr h)
    · exact hkept
  · exact .give fun d hd => hd.1

theorem verifyLive_kept (m : Manifest) :
    Triple (Kept stamp d₀) (verifyLive lower sha m)
      (either (fun _ => Kept stamp d₀) fun _ => Kept stamp d₀) (Kept stamp d₀) := by
  refine .effect (fun d hd => hd) fun e d hd => ?_
  split
  · split <;> exact hd
  · exact hd

theorem removeStage_kept (stage : String) :
    Triple (Kept stamp d₀) (removeStage stage)
      (either (fun _ => Kept stamp d₀) fun _ => Kept stamp d₀) (Kept stamp d₀) := by
  refine .effect (fun d hd => hd) fun e d hd => ?_
  split <;> exact ⟨hd.data, hd.config, hd.evidence, hd.backups⟩

/-- RUN: wherever a restore ends, what was live is kept. -/
theorem restore_kept (updateId : String) :
    Triple (Begun stamp d₀) (restore lower sha digest updateId stamp)
      (either (fun _ => Kept stamp d₀) fun _ => Kept stamp d₀) (Kept stamp d₀) := by
  have hkept : ∀ (text : String) (d : Disk), Kept stamp d₀ d → Kept stamp d₀ d := fun _ _ hd => hd
  exact (verify_begun updateId).andThen hkept fun m =>
    (createStage_begun _).andThen hkept fun _ =>
    (stageFiles_begun updateId _ m.files).andThen hkept fun _ =>
    (verifyStage_begun _ m).andThen hkept fun _ =>
    createQuarantine_begun.andThen hkept fun _ => takeData_kept.andThen hkept fun _ =>
    takeConfig_kept.andThen hkept fun _ => (putData_kept _).andThen hkept fun _ =>
    (putConfig_kept _ m).andThen hkept fun _ => (verifyLive_kept m).andThen hkept fun _ =>
    removeStage_kept _

end

/-! ### A stage -/

section
variable (lower : String → String) (sha : Bytes → String) (digest : Manifest → String)

/-- What a copy of a listed file is. -/
def Copied (b : Backup) (files : List ListedFile) (name : String) (file : File) : Prop :=
  ∃ f ∈ files, lower f.path = name ∧ file.name = f.path ∧
    (b.files.get name).map (·.content) = some file.content

/-- The stage holds the copies of these files, and nothing else. -/
structure Staged (b : Backup) (files : List ListedFile) (t : Dir) : Prop where
  get : ∀ name file, t.get name = some file ↔ Copied lower b files name file
  length : t.entries.length = files.length

/-- What a verified snapshot comes with. -/
structure Sealed (b : Backup) (m : Manifest) : Prop where
  safe : ∀ f ∈ m.files, checkManifestPath f.path
  distinct : (m.files.map fun f => lower f.path).Nodup
  file : ∀ f ∈ m.files, ∃ file, b.files.get (lower f.path) = some file ∧
    file.content.length = f.size ∧ sha file.content = f.sha256

end

section
variable {lower : String → String} {sha : Bytes → String} {digest : Manifest → String}
  {b : Backup} {m : Manifest}

theorem verified_sealed {updateId : String} (h : verified lower sha digest b updateId = some m) :
    Sealed lower sha b m := by
  unfold verified at h
  split at h
  · next m' files hm hfiles =>
    split at h
    · next hall =>
      obtain rfl := Option.some.inj h
      simp only [Bool.and_eq_true] at hall
      obtain ⟨⟨-, hshape⟩, hmap⟩ := hall
      simp only [validShape, Bool.and_eq_true, List.all_eq_true, decide_eq_true_eq] at hshape
      simp only [verifyFileMap, Bool.and_eq_true, List.all_eq_true] at hmap
      refine ⟨fun f hf => (hshape.1.1.1.1.2 f hf).1, hshape.1.1.1.2, fun f hf => ?_⟩
      have hfile := hmap.2 f hf
      split at hfile
      · next file hget =>
        simp only [Bool.and_eq_true, decide_eq_true_eq] at hfile
        refine ⟨file, ?_, hfile⟩
        unfold listedSnapshotFiles listedFiles at hfiles
        split at hfiles
        · obtain rfl := Option.some.inj hfiles
          exact (Table.get_filter_eq_some.mp hget).1
        · cases hfiles
      · cases hfile
    · cases h
  · cases h

theorem Staged.empty : Staged lower b [] ∅ where
  get name file := by simp [Copied]
  length := rfl

/-- STEP: one more file is copied. -/
theorem Staged.copy {files : List ListedFile} {t : Dir} (h : Staged lower b files t)
    {f : ListedFile} {file : File} (hfile : b.files.get (lower f.path) = some file)
    (hnew : lower f.path ∉ files.map fun f => lower f.path) :
    Staged lower b (files ++ [f]) (t.set (lower f.path) ⟨f.path, file.content⟩) := by
  have hnone : t.get (lower f.path) = none := by
    rw [Option.eq_none_iff_forall_ne_some]
    intro file' hfile'
    obtain ⟨f', hf', hname, -⟩ := (h.get _ _).mp hfile'
    exact hnew (List.mem_map.mpr ⟨f', hf', hname⟩)
  constructor
  · intro name file'
    rw [Table.get_set]
    split
    · next heq =>
      subst heq
      constructor
      · rintro hsome
        obtain rfl := Option.some.inj hsome
        exact ⟨f, by simp, rfl, rfl, by simp [hfile]⟩
      · rintro ⟨f', hf', hname, hfname, hcontent⟩
        rcases List.mem_append.mp hf' with hf' | hf'
        · exact absurd (List.mem_map.mpr ⟨f', hf', hname⟩) hnew
        · obtain rfl := List.mem_singleton.mp hf'
          rw [hfile] at hcontent
          obtain ⟨name', content'⟩ := file'
          obtain rfl : name' = f'.path := hfname
          obtain rfl : file.content = content' := Option.some.inj hcontent
          rfl
    · next hne =>
      rw [h.get]
      constructor
      · rintro ⟨f', hf', hrest⟩
        exact ⟨f', List.mem_append_left _ hf', hrest⟩
      · rintro ⟨f', hf', hname, hrest⟩
        rcases List.mem_append.mp hf' with hf' | hf'
        · exact ⟨f', hf', hname, hrest⟩
        · obtain rfl := List.mem_singleton.mp hf'
          exact absurd hname.symm hne
  · rw [Table.entries_set, List.length_cons, Table.del_of_get_none hnone, h.length]
    simp

/-- Two directories with the same files pass the same checks. -/
theorem verifyFileMap_congr {t t' : Dir} (h : ∀ name, t.get name = t'.get name) :
    verifyFileMap lower sha t m = verifyFileMap lower sha t' m := by
  have hperm : t.entries.Perm t'.entries := by
    refine List.lookup_ext t.nodupKeys t'.nodupKeys fun name file => ?_
    show file ∈ t.get name ↔ file ∈ t'.get name
    rw [h]
  simp only [verifyFileMap, hperm.length_eq, h]

/-- A stage of a sealed snapshot passes. -/
theorem Staged.verifies {t : Dir} (h : Staged lower b m.files t) (hsealed : Sealed lower sha b m) :
    verifyFileMap lower sha t m := by
  simp only [verifyFileMap, Bool.and_eq_true, List.all_eq_true, decide_eq_true_eq]
  refine ⟨by rw [hsealed.distinct.dedup, h.length, List.length_map], fun f hf => ?_⟩
  obtain ⟨file, hfile, hsize, hsha⟩ := hsealed.file f hf
  have hget : t.get (lower f.path) = some ⟨f.path, file.content⟩ :=
    (h.get _ _).mpr ⟨f, hf, rfl, rfl, by simp [hfile]⟩
  simp [hget, hsize, hsha]

theorem Staged.safe {t : Dir} (h : Staged lower b m.files t) (hsealed : Sealed lower sha b m) :
    ∀ file ∈ t.values, checkManifestPath file.name := by
  intro file hfile
  obtain ⟨name, hget⟩ := Table.get_of_mem_values hfile
  obtain ⟨f, hf, -, hname, -⟩ := (h.get _ _).mp hget
  rw [hname]
  exact hsealed.safe f hf

/-! ### A run with no failure -/

/-- After a restore: the listed files with the bytes of the snapshot, and no others. -/
structure Restored (lower : String → String) (b : Backup) (m : Manifest) (d : Disk) : Prop where
  data : ∀ name content,
    (d.data.bind fun t => (t.get name).map (·.content)) = some content ↔
      ∃ f ∈ m.files, inData f.path ∧ lower f.path = name ∧
        (b.files.get name).map (·.content) = some content
  config : ∀ content, d.config = some content ↔ ∃ f ∈ m.files, f.path = configPath ∧
    (b.files.get (lower configPath)).map (·.content) = some content

variable {updateId stage stamp : String}

/-- The stage holds the copies, and the quarantine of this restore is not there yet. -/
structure Filling (lower : String → String) (b : Backup) (updateId stage stamp : String)
    (files : List ListedFile) (d : Disk) : Prop where
  backup : d.backups.get updateId = some b
  stage : ∃ t, d.stages.get stage = some t ∧ Staged lower b files t
  fresh : d.quarantine.get stamp = none

theorem stageFile_serves {files : List ListedFile} {f : ListedFile} {file : File}
    (hfile : b.files.get (lower f.path) = some file)
    (hnew : lower f.path ∉ files.map fun f => lower f.path) :
    Serves (fun e : Answer => e.ok) 1 (Filling lower b updateId stage stamp files)
      (stageFile lower updateId stage f) fun r d =>
        ∃ a, r = .ok a ∧ Filling lower b updateId stage stamp (files ++ [f]) d := by
  refine .effect fun e d hok hd => ?_
  obtain ⟨t, ht, hstaged⟩ := hd.stage
  have hsource :
      ((d.backups.get updateId).bind fun b => b.files.get (lower f.path)) = some file := by
    rw [hd.backup]
    exact hfile
  rw [hok, hsource]
  refine ⟨(), rfl, hd.backup, ⟨_, ?_, hstaged.copy hfile hnew⟩, hd.fresh⟩
  show (d.stages.modify stage _).get stage = _
  rw [Table.get_modify, if_pos rfl, ht]
  rfl

/-- RUN: all copies succeed. -/
theorem stageFiles_serves (hsealed : Sealed lower sha b m) (rest : List ListedFile) :
    ∀ files, files ++ rest = m.files →
      Serves (fun e : Answer => e.ok) rest.length (Filling lower b updateId stage stamp files)
        (stageFiles lower updateId stage rest) fun r d =>
          ∃ a, r = .ok a ∧ Filling lower b updateId stage stamp m.files d := by
  induction rest with
  | nil =>
    rintro files hfiles
    rw [List.append_nil] at hfiles
    exact .pure fun d hd => ⟨(), rfl, hfiles ▸ hd⟩
  | cons f rest ih =>
    intro files hfiles
    have hmem : f ∈ m.files := hfiles ▸ by simp
    obtain ⟨file, hfile, -⟩ := hsealed.file f hmem
    have hnew : lower f.path ∉ files.map fun f => lower f.path := by
      intro hold
      have hnodup := hsealed.distinct
      rw [← hfiles, List.map_append] at hnodup
      exact (List.disjoint_of_nodup_append hnodup) hold (by simp)
    rw [List.length_cons, Nat.add_comm]
    exact (stageFile_serves hfile hnew).andThen fun _ => ih _ (by simpa using hfiles)

theorem get_filter_of {t : Dir} {p : String → File → Bool} {name : String}
    (h : ∀ file, t.get name = some file → p name file) : (t.filter p).get name = t.get name := by
  refine Option.ext fun file => ?_
  show (t.filter p).get name = some file ↔ t.get name = some file
  rw [Table.get_filter_eq_some]
  exact ⟨fun hget => hget.1, fun hget => ⟨hget, h file hget⟩⟩

theorem inData_config : inData configPath = false := by decide

/-- What the staged copies say of a name. -/
theorem Staged.name {t : Dir} (h : Staged lower b m.files t) (hsealed : Sealed lower sha b m)
    {name : String} {file : File} (hget : t.get name = some file)
    (hdata : inData file.name = false) :
    name = lower configPath ∧ m.files.any (·.path = configPath) := by
  obtain ⟨f, hf, rfl, hname, -⟩ := (h.get _ _).mp hget
  have hsafe := hsealed.safe f hf
  rw [hname] at hdata
  simp only [checkManifestPath, Bool.and_eq_true, Bool.or_eq_true, decide_eq_true_eq] at hsafe
  have hpath : f.path = configPath := hsafe.2.resolve_right (by simp [hdata])
  exact ⟨by rw [hpath], List.any_eq_true.mpr ⟨f, hf, by simp [hpath]⟩⟩

/-- The stage is listed as it is: no name in it is taken for a sidecar. -/
theorem Staged.listed {t : Dir} (h : Staged lower b m.files t) (hsealed : Sealed lower sha b m) :
    ∃ files, listedFiles lower t [] = some files ∧ verifyFileMap lower sha files m := by
  have hsafe : t.values.all fun f => checkManifestPath f.name :=
    List.all_eq_true.mpr (h.safe hsealed)
  refine ⟨_, if_pos hsafe, ?_⟩
  rw [← h.verifies hsealed]
  refine verifyFileMap_congr fun name => get_filter_of fun file _ => ?_
  simp [isUnlistedSidecar]

/-- The configuration, where the manifest lists one. -/
theorem Staged.config {t : Dir} (h : Staged lower b m.files t) (hsealed : Sealed lower sha b m)
    (hlisted : m.files.any (·.path = configPath)) :
    ∃ content, t.get (lower configPath) = some ⟨configPath, content⟩ := by
  obtain ⟨f, hf, hpath⟩ := List.any_eq_true.mp hlisted
  have hpath : f.path = configPath := by simpa using hpath
  obtain ⟨file, hfile, -⟩ := hsealed.file f hf
  rw [hpath] at hfile
  exact ⟨file.content, (h.get _ _).mpr ⟨f, hf, by rw [hpath], hpath.symm, by simp [hfile]⟩⟩

/-- Where the copies are while the live files are swapped. -/
structure Swapping (lower : String → String) (b : Backup) (m : Manifest) (stage : String)
    (d : Disk) : Prop where
  stage : ∃ t, d.stages.get stage = some t ∧ Staged lower b m.files t

/-- Both are in place. -/
structure Swapped (lower : String → String) (b : Backup) (m : Manifest) (d : Disk) : Prop where
  live : ∃ t, Staged lower b m.files t ∧ d.data = some (t.filter fun _ f => inData f.name) ∧
    d.config = if m.files.any (·.path = configPath) then
      (t.get (lower configPath)).map (·.content) else none

theorem createQuarantine_serves :
    Serves (fun e : Answer => e.ok) 1 (Filling lower b updateId stage stamp m.files)
      (createQuarantine stamp) fun r d => ∃ a, r = .ok a ∧ (Swapping lower b m stage d ∧
        (d.data = none ∧ d.config = none ∨ d.quarantine.get stamp = some ⟨none, none⟩)) := by
  refine .effect fun e d hok hd => ?_
  split
  · next hnone =>
    simp only [Bool.and_eq_true, Option.isNone_iff_eq_none] at hnone
    exact ⟨(), rfl, ⟨hd.stage⟩, .inl hnone⟩
  · refine ⟨(), rfl, ⟨hd.stage⟩, .inr ?_⟩
    rw [hd.fresh]
    exact Table.get_set_self ..

theorem takeData_serves :
    Serves (fun e : Answer => e.ok) 1 (fun d => Swapping lower b m stage d ∧
        (d.data = none ∧ d.config = none ∨ d.quarantine.get stamp = some ⟨none, none⟩))
      (takeData stamp) fun r d => ∃ a, r = .ok a ∧ (Swapping lower b m stage d ∧ d.data = none ∧
        (d.config = none ∨ ∃ txn, d.quarantine.get stamp = some txn)) := by
  refine .effect fun e d hok hd => ?_
  obtain ⟨hstage, hquarantine⟩ := hd
  split
  · next hnone => exact ⟨(), rfl, hstage, hnone, hquarantine.imp (·.2) fun h => ⟨_, h⟩⟩
  · next files hfiles =>
    rcases hquarantine with ⟨hnone, -⟩ | htxn
    · rw [hnone] at hfiles
      cases hfiles
    · rw [hok, htxn]
      exact ⟨(), rfl, ⟨hstage.stage⟩, rfl, .inr ⟨_, Table.get_set_self ..⟩⟩

theorem takeConfig_serves :
    Serves (fun e : Answer => e.ok) 1 (fun d => Swapping lower b m stage d ∧ d.data = none ∧
        (d.config = none ∨ ∃ txn, d.quarantine.get stamp = some txn))
      (takeConfig stamp) fun r d => ∃ a, r = .ok a ∧
        (Swapping lower b m stage d ∧ d.data = none ∧ d.config = none) := by
  refine .effect fun e d hok hd => ?_
  obtain ⟨hstage, hdata, hquarantine⟩ := hd
  split
  · next hnone => exact ⟨(), rfl, hstage, hdata, hnone⟩
  · next content hcontent =>
    rcases hquarantine with hnone | ⟨txn, htxn⟩
    · rw [hnone] at hcontent
      cases hcontent
    · rw [hok, htxn]
      exact ⟨(), rfl, ⟨hstage.stage⟩, hdata, rfl⟩

/-- The staged `data/` is in place, and the configuration still staged. -/
structure DataIn (lower : String → String) (b : Backup) (m : Manifest) (stage : String)
    (d : Disk) : Prop where
  live : ∃ t, Staged lower b m.files t ∧
    d.stages.get stage = some (t.filter fun _ f => !inData f.name) ∧
    d.data = some (t.filter fun _ f => inData f.name) ∧ d.config = none

theorem putData_serves :
    Serves (fun e : Answer => e.ok) 1
      (fun d => Swapping lower b m stage d ∧ d.data = none ∧ d.config = none)
      (putData stage) fun r d => ∃ a, r = .ok a ∧ DataIn lower b m stage d := by
  refine .effect fun e d hok hd => ?_
  obtain ⟨⟨t, ht, hstaged⟩, hnone, hconfig⟩ := hd
  rw [hok, hnone, ht]
  exact ⟨(), rfl, ⟨t, hstaged, Table.get_set_self .., rfl, hconfig⟩⟩

theorem putConfig_serves (hsealed : Sealed lower sha b m) :
    Serves (fun e : Answer => e.ok) 1 (DataIn lower b m stage) (putConfig lower stage m)
      fun r d => ∃ a, r = .ok a ∧ Swapped lower b m d := by
  unfold putConfig
  split
  · next hlisted =>
    refine .effect fun e d hok hd => ?_
    obtain ⟨t, hstaged, hstage, hlive, hconfig⟩ := hd.live
    obtain ⟨content, hget⟩ := hstaged.config hsealed hlisted
    have hstaged' : (t.filter fun _ f => !inData f.name).get (lower configPath) =
        some ⟨configPath, content⟩ :=
      Table.get_filter_eq_some.mpr ⟨hget, by rw [inData_config]; rfl⟩
    rw [hok, hstage, Option.bind_some, hstaged', Option.map_some]
    exact ⟨(), rfl, ⟨t, hstaged, hlive, by rw [if_pos hlisted, hget]; rfl⟩⟩
  · next hlisted =>
    refine (Serves.pure fun d hd => ?_).mono (Nat.zero_le 1)
    obtain ⟨t, hstaged, -, hlive, hconfig⟩ := hd.live
    exact ⟨(), rfl, ⟨t, hstaged, hlive, by rw [if_neg hlisted]; exact hconfig⟩⟩

/-- The final check compares the live files with the manifest, and they are the copies. -/
theorem verifyLive_serves (hsealed : Sealed lower sha b m) :
    Serves (fun e : Answer => e.ok) 1 (Swapped lower b m) (verifyLive lower sha m)
      fun r d => ∃ a, r = .ok a ∧ Swapped lower b m d := by
  refine .effect fun e d hok hd => ?_
  have hlisted : ∃ files, listedLiveFiles lower d = some files ∧
      verifyFileMap lower sha files m := by
    obtain ⟨t, hstaged, hdata, hconfig⟩ := hd.live
    have hsafe : (t.filter fun _ f => inData f.name).values.all
        fun f => checkManifestPath f.name := by
      refine List.all_eq_true.mpr fun file hfile => ?_
      obtain ⟨name, hget⟩ := Table.get_of_mem_values hfile
      exact hstaged.safe hsealed file
        (Table.mem_values_of_get (Table.get_filter_eq_some.mp hget).1)
    simp only [listedLiveFiles, hdata, Option.getD_some, hsafe, if_true]
    by_cases hlisted : m.files.any (·.path = configPath) = true
    · obtain ⟨content, hget⟩ := hstaged.config hsealed hlisted
      have hnone : (t.filter fun _ f => inData f.name).get (lower configPath) = none := by
        rw [Option.eq_none_iff_forall_ne_some]
        intro file hfile
        obtain ⟨hfile, hin⟩ := Table.get_filter_eq_some.mp hfile
        obtain rfl := Option.some.inj (hget.symm.trans hfile)
        exact absurd hin (by rw [inData_config]; decide)
      rw [if_pos hlisted, hget] at hconfig
      rw [hconfig]
      refine ⟨_, by rw [Option.map_some, hnone]; rfl, ?_⟩
      rw [← hstaged.verifies hsealed]
      refine verifyFileMap_congr fun name => ?_
      rw [Table.get_set]
      split
      · next heq => rw [heq, hget]
      · next hne =>
        refine get_filter_of fun file hfile => ?_
        by_contra hin
        exact hne (hstaged.name hsealed hfile (by simpa using hin)).1
    · rw [if_neg hlisted] at hconfig
      rw [hconfig]
      refine ⟨_, rfl, ?_⟩
      rw [← hstaged.verifies hsealed]
      refine verifyFileMap_congr fun name => get_filter_of fun file hfile => ?_
      by_contra hin
      exact hlisted (hstaged.name hsealed hfile (by simpa using hin)).2
  obtain ⟨files, hfiles, hverifies⟩ := hlisted
  rw [hok, hfiles]
  dsimp only
  rw [if_pos hverifies]
  exact ⟨(), rfl, hd⟩

/-- The copies that are live are what the manifest lists. -/
theorem Swapped.restored {d : Disk} (h : Swapped lower b m d) (hsealed : Sealed lower sha b m) :
    Restored lower b m d := by
  obtain ⟨t, hstaged, hdata, hconfig⟩ := h.live
  constructor
  · intro name content
    rw [hdata, Option.bind_some]
    constructor
    · intro hget
      obtain ⟨file, hfile, rfl⟩ := Option.map_eq_some_iff.mp hget
      obtain ⟨hfile, hin⟩ := Table.get_filter_eq_some.mp hfile
      obtain ⟨f, hf, hname, hpath, hcontent⟩ := (hstaged.get _ _).mp hfile
      exact ⟨f, hf, hpath ▸ hin, hname, hcontent⟩
    · rintro ⟨f, hf, hin, hname, hcontent⟩
      have hget : t.get name = some ⟨f.path, content⟩ :=
        (hstaged.get _ _).mpr ⟨f, hf, hname, rfl, hcontent⟩
      rw [Table.get_filter_eq_some.mpr ⟨hget, hin⟩]
      rfl
  · intro content
    rw [hconfig]
    split
    · next hlisted =>
      constructor
      · intro hget
        obtain ⟨copied, hcopy⟩ := hstaged.config hsealed hlisted
        have hcontent : copied = content := by simpa [hcopy] using hget
        obtain ⟨f, hf, -, hpath, hbytes⟩ := (hstaged.get _ _).mp hcopy
        exact ⟨f, hf, hpath.symm, hcontent ▸ hbytes⟩
      · rintro ⟨f, hf, hpath, hcontent⟩
        have hget : t.get (lower configPath) = some ⟨f.path, content⟩ :=
          (hstaged.get _ _).mpr ⟨f, hf, by rw [hpath], rfl, hcontent⟩
        rw [hget]
        rfl
    · next hlisted =>
      refine ⟨fun hnone => (by cases hnone), ?_⟩
      rintro ⟨f, hf, hpath, -⟩
      exact absurd (List.any_eq_true.mpr ⟨f, hf, by simp [hpath]⟩) hlisted

theorem removeStage_serves (hsealed : Sealed lower sha b m) :
    Serves (fun e : Answer => e.ok) 1 (Swapped lower b m) (removeStage stage)
      fun r d => r = .ok () ∧ Restored lower b m d := by
  refine .effect fun e d hok hd => ?_
  rw [hok]
  exact ⟨rfl, Swapped.restored ⟨hd.live⟩ hsealed⟩

/-- RUN: the swap, from whatever is live. -/
theorem swapIn_serves (hsealed : Sealed lower sha b m) :
    Serves (fun e : Answer => e.ok) 7 (Filling lower b updateId stage stamp m.files)
      (swapIn lower sha stage stamp m) fun r d => r = .ok () ∧ Restored lower b m d :=
  createQuarantine_serves.andThen (m := 6) fun _ => takeData_serves.andThen (m := 5) fun _ =>
    takeConfig_serves.andThen (m := 4) fun _ => putData_serves.andThen (m := 3) fun _ =>
    (putConfig_serves hsealed).andThen (m := 2) fun _ =>
    (verifyLive_serves hsealed).andThen (m := 1) fun _ => removeStage_serves hsealed

/-- RUN: a restore whose steps succeed restores. -/
theorem restore_serves (hm : verified lower sha digest b updateId = some m) :
    Serves (fun e : Answer => e.ok) (m.files.length + 10)
      (fun d => d.backups.get updateId = some b ∧
        d.stages.get (stageName updateId stamp) = none ∧ d.quarantine.get stamp = none)
      (restore lower sha digest updateId stamp) fun r d => r = .ok () ∧ Restored lower b m d := by
  have hsealed := verified_sealed hm
  have hverify : Serves (fun e : Answer => e.ok) 1
      (fun d => d.backups.get updateId = some b ∧
        d.stages.get (stageName updateId stamp) = none ∧ d.quarantine.get stamp = none)
      (verify lower sha digest updateId) fun r d => ∃ m', r = .ok m' ∧
        ((d.backups.get updateId = some b ∧
          d.stages.get (stageName updateId stamp) = none ∧ d.quarantine.get stamp = none) ∧
          m' = m) := by
    refine .effect fun e d hok hd => ?_
    rw [hok, hd.1, Option.bind_some, hm]
    exact ⟨m, rfl, hd, rfl⟩
  have hcreate : Serves (fun e : Answer => e.ok) 1
      (fun d => d.backups.get updateId = some b ∧
        d.stages.get (stageName updateId stamp) = none ∧ d.quarantine.get stamp = none)
      (createStage (stageName updateId stamp)) fun r d => ∃ a, r = .ok a ∧
        Filling lower b updateId (stageName updateId stamp) stamp [] d := by
    refine .effect fun e d hok hd => ?_
    rw [hd.2.1, hok]
    exact ⟨(), rfl, hd.1, ⟨∅, Table.get_set_self .., .empty⟩, hd.2.2⟩
  have hcheck : Serves (fun e : Answer => e.ok) 1
      (Filling lower b updateId (stageName updateId stamp) stamp m.files)
      (verifyStage lower sha (stageName updateId stamp) m) fun r d => ∃ a, r = .ok a ∧
        Filling lower b updateId (stageName updateId stamp) stamp m.files d := by
    refine .effect fun e d hok hd => ?_
    obtain ⟨t, ht, hstaged⟩ := hd.stage
    obtain ⟨files, hfiles, hverifies⟩ := hstaged.listed hsealed
    rw [hok, ht, Option.bind_some, hfiles]
    dsimp only
    rw [if_pos hverifies]
    exact ⟨(), rfl, hd⟩
  have hrest := hcreate.andThen fun _ => (stageFiles_serves hsealed m.files [] rfl).andThen fun _ =>
    hcheck.andThen fun _ => swapIn_serves hsealed
  have hlen : m.files.length + 10 = 1 + (1 + (m.files.length + (1 + 7))) := by omega
  rw [hlen]
  refine hverify.andThen fun m' => .fact fun hm' => ?_
  subst hm'
  exact hrest

end

/-- A restore loses no live file wherever it stops, and the next one, at an instant of its own and
    with no failure, leaves exactly the files of the manifest with the bytes of the snapshot, and
    keeps what the first one left in the quarantine. -/
theorem restore_reentrant (lower : String → String) (sha : Bytes → String)
    (digest : Manifest → String) (updateId stamp : String) (tape : List Answer) {d : Disk}
    {b : Backup} {m : Manifest} (hb : d.backups.get updateId = some b)
    (hm : verified lower sha digest b updateId = some m) :
    let stopped := (restore lower sha digest updateId stamp tape d).state
    Preserved stamp d stopped ∧
      ∀ (stamp' : String) (tape' : List Answer),
        stopped.stages.get (stageName updateId stamp') = none →
        stopped.quarantine.get stamp' = none →
        (∀ e ∈ tape', e.ok) → m.files.length + 10 ≤ tape'.length →
        ∃ d' rest, restore lower sha digest updateId stamp' tape' stopped = .done (.ok ()) d' rest ∧
          Restored lower b m d' ∧ Preserved stamp' stopped d' ∧
          ∀ f ∈ m.files, ∃ file, b.files.get (lower f.path) = some file ∧
            file.content.length = f.size ∧ sha file.content = f.sha256 := by
  intro stopped
  have hkept : Kept stamp d stopped :=
    Triple.state ((restore_kept updateId).post fun r _ => by cases r <;> exact id)
      ⟨Kept.refl stamp d, rfl, rfl⟩ tape
  refine ⟨hkept.preserved, fun stamp' tape' hstage hquarantine hgood hlen => ?_⟩
  have hb' : stopped.backups.get updateId = some b := by rw [hkept.backups, hb]
  obtain ⟨r, d', rest, hrun, ⟨rfl, hrestored⟩, -⟩ :=
    (restore_serves hm).run tape' stopped ⟨hb', hstage, hquarantine⟩ hgood hlen
  refine ⟨d', rest, hrun, hrestored, ?_, (verified_sealed hm).file⟩
  have hall : Triple (Begun stamp' stopped) (restore lower sha digest updateId stamp')
      (either (fun _ => Kept stamp' stopped) fun _ => Kept stamp' stopped) (Kept stamp' stopped) :=
    restore_kept updateId
  have hlater := hall tape' stopped ⟨Kept.refl stamp' stopped, rfl, rfl⟩
  rw [hrun] at hlater
  exact Kept.preserved hlater

namespace Sample

def lower (s : String) : String := String.ofList (s.toList.map Char.toLower)

/-- A digest of 64 digits. -/
def zeros : String := String.ofList (List.replicate 64 '0')

def manifest : Manifest :=
  ⟨1, "u1", [⟨"data/Settings", 2, zeros⟩, ⟨"config/config.toml", 1, zeros⟩], 2, 3, zeros⟩

/-- A snapshot of one data file and the configuration, with a sidecar nobody listed. -/
def backup : Backup where
  files := ((Table.set ∅ "data/settings" ⟨"data/Settings", [1, 2]⟩).set "config/config.toml"
    ⟨"config/config.toml", [3]⟩).set "data/settings-wal" ⟨"data/settings-wal", [4]⟩
  manifest := some manifest

/-- The candidate has written other files since. -/
def disk : Disk where
  data := some (Table.set ∅ "data/new" ⟨"data/new", [5]⟩)
  config := some [6]
  backups := Table.set ∅ "u1" backup
  stages := ∅
  quarantine := ∅

def done : Answer := ⟨true, "", none, fun _ => false⟩

end Sample

open Sample in
/-- Stopped after both were moved away, and run again. -/
theorem restore_reentrant_stopped :
    let restore := restore lower (fun _ => zeros) (fun _ => zeros) "u1"
    let stopped := (restore "1" (List.replicate 8 done) disk).state
    ∃ d' rest, restore "2" (List.replicate 12 done) stopped = .done (.ok ()) d' rest ∧
      Restored lower backup manifest d' ∧ Preserved "2" stopped d' ∧
      ∀ f ∈ manifest.files, ∃ file, backup.files.get (lower f.path) = some file ∧
        file.content.length = f.size ∧ zeros = f.sha256 :=
  (restore_reentrant lower (fun _ => zeros) (fun _ => zeros) "u1" "1" (List.replicate 8 done)
    (d := disk) rfl (by decide +kernel)).2 "2" (List.replicate 12 done) (by decide +kernel)
    (Option.isNone_iff_eq_none.mp (by decide +kernel)) (by simp [done]) (by decide)

end Gamer.Updater.Restore
