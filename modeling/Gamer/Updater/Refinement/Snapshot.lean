import Gamer.Updater.Refinement.Rollback

/-! The snapshot an installation takes. Where nothing else writes the files, a snapshot that is
    reported holds exactly the live ones. -/

namespace Gamer.Updater

theorem World.liveTree_get (w : World) (r : Rel) : w.liveTree.get r = w.live r := by
  cases r with
  | data p => cases hd : w.data <;> simp [liveTree, Tree.get, live, hd]
  | config => rfl

namespace Transaction
open Gamer.Lib Gamer.Lib.Prog

def InState (s : UpdateState) (w : World) : Prop := w.journal.state = s

theorem InState.stable {s : UpdateState} : Stable (InState s) := by
  intro w e h
  simpa [InState] using h

/-- In the state, and if nothing runs that could change the files, with the fact. -/
def Calm (c : Setting) (s : UpdateState) (G : World → Prop) (w : World) : Prop :=
  InState s w ∧ (c.quiet → w.candidate = none ∧ G w)

theorem Calm.stable {c : Setting} {s : UpdateState} {G : World → Prop} : Stable (Calm c s G) :=
  InState.stable.and .calm

theorem Calm.mono {c : Setting} {s : UpdateState} {G G' : World → Prop} {w : World}
    (h : Calm c s G w) (hG : G w → G' w) : Calm c s G' w :=
  ⟨h.1, fun hq => ⟨(h.2 hq).1, hG (h.2 hq).2⟩⟩

/-- The backup holds these of the live files. -/
def Held (id : String) (paths : List Rel) (w : World) : Prop :=
  ∃ snap, w.backups.get id = some snap ∧
    ∀ r, snap.tree.get r = if r ∈ paths then w.live r else none

section
variable {c : Setting} {start : Phase × World} {s : UpdateState} {G : World → Prop}

theorem At.inState {ph : Phase} {w : World} (h : At c start ph (Calm c s G) w) :
    At c start ph (InState s) w :=
  h.mono fun _ h => h.1

/-! ### The snapshot -/

theorem removeBackup_rule (id : String) :
    Triple (At c start .installing (Calm c .snapshotting fun _ => True)) (Snapshot.removeBackup id)
      (either (fun _ => At c start .installing (InState .snapshotting))
        fun _ => At c start .installing (Calm c .snapshotting fun _ => True))
      (Covered c start) := by
  refine act_rule Calm.stable fun e w hw => ?_
  split
  · exact hw
  · split
    · exact hw.step (.stores .installing _ hw.2.1) hw.2
    · exact hw.inState

theorem walkSources_rule :
    Triple (At c start .installing (Calm c .snapshotting fun _ => True)) Snapshot.walkSources
      (either (fun _ => At c start .installing (InState .snapshotting)) fun sources =>
        At c start .installing (Calm c .snapshotting fun w => sources = w.liveTree.paths))
      (Covered c start) := by
  refine act_rule Calm.stable fun e w hw => ?_
  split
  · exact ⟨hw.1, hw.2.mono fun _ => rfl⟩
  · exact hw.inState

theorem createRoot_rule (id : String) (sources : List Rel) :
    Triple (At c start .installing (Calm c .snapshotting fun w => sources = w.liveTree.paths))
      (Snapshot.createRoot id)
      (either (fun _ => At c start .installing (InState .snapshotting)) fun _ =>
        At c start .installing
          (Calm c .snapshotting fun w => sources = w.liveTree.paths ∧ Held id [] w))
      (Covered c start) := by
  refine act_rule Calm.stable fun e w hw => ?_
  split
  · refine hw.step (.stores .installing _ hw.2.1) ⟨hw.2.1, fun hq => ?_⟩
    obtain ⟨hnone, hsources⟩ := hw.2.2 hq
    exact ⟨hnone, hsources, ⟨.empty, none⟩, Table.get_set_self .., fun r => by cases r <;> rfl⟩
  · exact hw.inState

/-- STEP: one more of the live files is in the backup. -/
theorem Held.put {id : String} {paths : List Rel} {w : World} {r : Rel} {content : String}
    {snap : Snapshot} (h : Held id paths w) (hsnap : w.backups.get id = some snap)
    (hlive : w.live r = some content) :
    Held id (paths ++ [r]) { w with
      backups := w.backups.set id { snap with tree := snap.tree.put content r } } := by
  obtain ⟨snap', hsnap', hget⟩ := h
  cases hsnap.symm.trans hsnap'
  refine ⟨_, Table.get_set_self .., fun r' => ?_⟩
  show (snap.tree.put content r).get r' = if r' ∈ paths ++ [r] then w.live r' else none
  rw [Tree.get_put, hget]
  by_cases heq : r' = r
  · simp [heq, hlive]
  · simp [heq]

theorem copyFile_rule (sha : String → String) (id : String) (sources : List Rel) (r : Rel)
    (files : List SnapshotFile) :
    Triple (At c start .installing (Calm c .snapshotting fun w =>
        sources = w.liveTree.paths ∧ Held id (files.map (·.path)) w))
      (Snapshot.copyFile sha id r)
      (either (fun _ => At c start .installing (InState .snapshotting)) fun f w =>
        At c start .installing (Calm c .snapshotting fun w =>
          sources = w.liveTree.paths ∧ Held id ((files ++ [f]).map (·.path)) w) w ∧ f.path = r)
      (Covered c start) := by
  refine act_rule Calm.stable fun e w hw => ?_
  split
  · next content snap _ hlive hsnap =>
    refine ⟨hw.step (.stores .installing _ hw.2.1) ⟨hw.2.1, fun hq => ?_⟩, rfl⟩
    obtain ⟨hnone, hsources, hheld⟩ := hw.2.2 hq
    rw [List.map_append]
    exact ⟨hnone, hsources, hheld.put hsnap hlive⟩
  · exact hw.inState

theorem copyFiles_rule (sha : String → String) (id : String) (sources rest : List Rel)
    (files : List SnapshotFile) :
    Triple (At c start .installing (Calm c .snapshotting fun w =>
        sources = w.liveTree.paths ∧ Held id (files.map (·.path)) w))
      (Snapshot.copyFiles sha id rest files)
      (either (fun _ => At c start .installing (InState .snapshotting)) fun files' w =>
        At c start .installing (Calm c .snapshotting fun w =>
          sources = w.liveTree.paths ∧ Held id (files'.map (·.path)) w) w ∧
          files'.map (·.path) = files.map (·.path) ++ rest) (Covered c start) := by
  induction rest generalizing files with
  | nil => exact .pure fun w hw => ⟨hw, by simp⟩
  | cons r rest ih =>
    refine (copyFile_rule sha id sources r files).andThen (fun _ _ h => h) fun f => ?_
    refine Triple.fact fun hpath => (ih (files ++ [f])).post ?_
    intro result w hw
    cases result
    · exact hw
    · exact ⟨hw.1, by simpa [hpath] using hw.2⟩

/-- The copies and the manifest over them are a complete snapshot of the live files. -/
theorem Held.complete {id : String} {files : List SnapshotFile} {w : World}
    (h : Held id (files.map (·.path)) w) (hsources : files.map (·.path) = w.liveTree.paths)
    {snap : Snapshot} (hsnap : w.backups.get id = some snap) :
    Complete { w with
      backups := w.backups.set id { snap with manifest := some (Snapshot.manifestOf id files) } }
      id w.live := by
  obtain ⟨snap', hsnap', hget⟩ := h
  cases hsnap.symm.trans hsnap'
  refine ⟨_, _, Table.get_set_self .., rfl, fun r => ?_⟩
  have hlisted : r ∈ files.map (·.path) ↔ (w.live r).isSome := by
    rw [hsources, Tree.mem_paths, World.liveTree_get]
  refine ⟨?_, hlisted⟩
  show snap.tree.get r = w.live r
  rw [hget]
  split
  · rfl
  · next hr => exact (Option.not_isSome_iff_eq_none.mp (mt hlisted.mpr hr)).symm

theorem writeManifest_rule (id : String) (sources : List Rel) (files : List SnapshotFile)
    (hfiles : files.map (·.path) = sources) :
    Triple (At c start .installing (Calm c .snapshotting fun w =>
        sources = w.liveTree.paths ∧ Held id (files.map (·.path)) w))
      (Snapshot.writeManifest (Snapshot.manifestOf id files))
      (either (fun _ => At c start .installing (InState .snapshotting)) fun _ =>
        At c start .installing (Calm c .snapshotting fun w => Complete w id w.live))
      (Covered c start) := by
  refine act_rule Calm.stable fun e w hw => ?_
  split
  · next snap _ hsnap =>
    refine hw.step (.stores .installing _ hw.2.1) ⟨hw.2.1, fun hq => ?_⟩
    obtain ⟨hnone, hsources, hheld⟩ := hw.2.2 hq
    exact ⟨hnone, hheld.complete (hfiles.trans hsources) hsnap⟩
  · exact hw.inState

theorem inspectSnapshotCopy_rule (m : SnapshotManifest) (candidateExe : Bool) :
    Triple (At c start .installing (Calm c s G)) (Snapshot.inspectSnapshotCopy m candidateExe)
      (either (fun _ => At c start .installing (InState s))
        fun _ => At c start .installing (Calm c s G)) (Covered c start) := by
  unfold Snapshot.inspectSnapshotCopy
  split
  · exact .pure fun _ hw => hw
  · split
    · exact .pure fun _ hw => hw.inState
    · refine act_rule Calm.stable fun e w hw => ?_
      split
      · exact hw
      · exact hw.inState

/-- A snapshot that is reported holds the live files. -/
theorem create_rule (sha : String → String) (id : String) (candidateExe : Bool) :
    Triple (At c start .installing (Calm c .snapshotting fun _ => True))
      (Snapshot.create sha id candidateExe)
      (either (fun _ => At c start .installing (InState .snapshotting)) fun report =>
        At c start .installing (Calm c .snapshotting fun w => Complete w report.id w.live))
      (Covered c start) := by
  unfold Snapshot.create
  split
  · exact .pure fun _ hw => hw.inState
  refine (removeBackup_rule id).andThen (fun _ _ h => h) fun _ => ?_
  refine walkSources_rule.andThen (fun _ _ h => h) fun sources => ?_
  refine (createRoot_rule id sources).andThen (fun _ _ h => h) fun _ => ?_
  refine (copyFiles_rule sha id sources sources []).andThen (fun _ _ h => h) fun files =>
    Triple.fact fun hfiles => ?_
  refine (writeManifest_rule id sources files hfiles).andThen (fun _ _ h => h) fun _ => ?_
  refine (verify_rule Calm.stable sha id).andThen (fun _ _ h => h.inState) fun m => ?_
  refine Triple.pre ?_ fun w hw => hw.mono fun _ h => h.1
  exact (inspectSnapshotCopy_rule m candidateExe).andThen (fun _ _ h => h) fun _ =>
    .pure fun _ hw => hw

end

end Transaction

end Gamer.Updater
