import Gamer.Recording.Steady

/-! When a call of `events` is right: in every life of a session, what the call returns is complete
    exactly where nothing was lost or something tells of the loss.

        Whole ∧ no issue ∧ #files ≥ event_count ─▶ Ok(files)      lost ∧ nothing tells ─▶ wrong  -/

namespace Gamer.Recording.Service
open Gamer.Lib Gamer.Lib.Prog Gamer.Core
variable {sha256 : Bytes → String}

/-! ### Reading -/

theorem collectLines_eq (out : List InputEventRecord)
    {lines : List (List (Piece InputEventRecord))} (hlines : ∀ line ∈ lines, (Piece.parse line).isSome)
    (hids : ((out ++ lines.filterMap Piece.parse).map (·.eventId)).Nodup) :
    collectLines out lines = .ok (out ++ lines.filterMap Piece.parse) := by
  induction lines generalizing out with
  | nil => simp [collectLines]
  | cons line lines ih =>
    obtain ⟨record, hrecord⟩ := Option.isSome_iff_exists.mp (hlines line (by simp))
    rw [List.filterMap_cons_some hrecord] at hids ⊢
    have hnew : record.eventId ∉ out.map (·.eventId) := by
      rintro hold
      rw [List.map_append, List.map_cons] at hids
      exact (List.nodup_append.mp hids).2.2 _ hold _ (by simp) rfl
    simp only [collectLines, hrecord, if_neg hnew]
    rw [List.append_cons out record (lines.filterMap Piece.parse)] at hids ⊢
    exact ih _ (fun l hl => hlines l (by simp [hl])) hids

theorem collectLines_ok {out result : List InputEventRecord}
    {lines : List (List (Piece InputEventRecord))} (h : collectLines out lines = .ok result)
    (hout : (out.map (·.eventId)).Nodup) :
    (∀ line ∈ lines, (Piece.parse line).isSome) ∧ result = out ++ lines.filterMap Piece.parse ∧
      (result.map (·.eventId)).Nodup := by
  induction lines generalizing out with
  | nil =>
    rw [collectLines] at h
    obtain rfl := Except.ok.inj h
    exact ⟨by simp, by simp, hout⟩
  | cons line lines ih =>
    rw [collectLines] at h
    cases hrecord : Piece.parse line with
    | none => simp [hrecord] at h
    | some record =>
      simp only [hrecord] at h
      split at h
      · cases h
      · next hnew =>
        have hnodup : ((out ++ [record]).map (·.eventId)).Nodup := by
          rw [List.map_append, List.nodup_append]
          refine ⟨hout, by simp, ?_⟩
          rintro id hid id' hid' rfl
          obtain rfl : id = record.eventId := by simpa using hid'
          exact hnew hid
        obtain ⟨hall, hresult, hids⟩ := ih h hnodup
        refine ⟨?_, ?_, hids⟩
        · rintro l (_ | ⟨_, hl⟩)
          · simp [hrecord]
          · exact hall l hl
        · rw [hresult, List.filterMap_cons_some hrecord, List.append_assoc, List.singleton_append]

namespace Disk

/-- The lines of all files, in the order they are read in. -/
def lines (d : Disk) : List (List (Piece InputEventRecord)) := d.texts.flatMap Piece.lines

theorem texts_perm (d : Disk) : d.texts.Perm (d.eventFiles.entries.map (·.2)) :=
  (List.mergeSort_perm _ _).map _

theorem whole_iff (d : Disk) : d.Whole ↔ ∀ line ∈ d.lines, (Piece.parse line).isSome := by
  have hmem : ∀ text, text ∈ d.texts ↔ ∃ file ∈ d.eventFiles.entries, file.2 = text := fun text => by
    rw [d.texts_perm.mem_iff, List.mem_map]
  simp only [lines, List.mem_flatMap]
  constructor
  · rintro h line ⟨text, htext, hline⟩
    obtain ⟨file, hfile, rfl⟩ := (hmem text).mp htext
    exact h file hfile line hline
  · rintro h file hfile line hline
    exact h line ⟨file.2, (hmem _).mpr ⟨file, hfile, rfl⟩, hline⟩

/-- Where every line can be read, what is read is every record that is in the files. -/
theorem Whole.read {d : Disk} (h : d.Whole) : (d.lines.filterMap Piece.parse).Perm d.records := by
  have htexts : ∀ text ∈ d.texts, Piece.Whole text := by
    rintro text htext
    obtain ⟨file, hfile, rfl⟩ := List.mem_map.mp (d.texts_perm.mem_iff.mp htext)
    exact h file hfile
  have hread : d.lines.filterMap Piece.parse = d.texts.flatMap Piece.records := by
    rw [lines, List.filterMap_flatMap]
    exact List.flatMap_congr fun text htext => (htexts text htext).read
  rw [hread]
  refine (d.texts_perm.flatMap_right _).trans (List.Perm.of_eq ?_)
  rw [List.flatMap_map]
  rfl

end Disk

/-- What the files hold when they can be read. -/
theorem readEventsChecked_ok {dir : String} {d : Disk} {events : List InputEventRecord}
    (h : readEventsChecked dir dir d = .ok events) :
    d.Whole ∧ events.Perm d.records ∧ events.Nodup := by
  rw [readEventsChecked, if_neg (not_not.mpr rfl)] at h
  cases hlines : collectLines [] (d.texts.flatMap Piece.lines) with
  | error e => rw [hlines] at h; cases h
  | ok out =>
    rw [hlines] at h
    have h := Except.ok.inj h
    obtain ⟨hall, hout, hids⟩ := collectLines_ok hlines List.nodup_nil
    have hwhole : d.Whole := d.whole_iff.mpr hall
    have hsorted : events.Perm out := h ▸ List.mergeSort_perm _ _
    have hrecords : out.Perm d.records := by
      rw [hout]
      exact hwhole.read
    exact ⟨hwhole, hsorted.trans hrecords, hsorted.nodup_iff.mpr (.of_map _ hids)⟩

theorem readEventsChecked_whole (dir : String) {d : Disk} (hwhole : d.Whole)
    (hids : (d.records.map (·.eventId)).Nodup) :
    ∃ events, readEventsChecked dir dir d = .ok events := by
  have hread : ((d.lines.filterMap Piece.parse).map (·.eventId)).Nodup :=
    (hwhole.read.map _).nodup_iff.mpr hids
  have hcollect := collectLines_eq [] (d.whole_iff.mp hwhole) (by simpa using hread)
  have hread : collectLines [] (d.texts.flatMap Piece.lines) =
      .ok ([] ++ d.lines.filterMap Piece.parse) := hcollect
  rw [readEventsChecked, if_neg (not_not.mpr rfl), hread]
  exact ⟨_, rfl⟩

/-! ### Recovery -/

theorem RecordingSessionMeta.recovered_eventCount (info : RecordingSessionMeta) (endedAt : String) :
    (info.recovered endedAt).eventCount = info.eventCount := by
  unfold RecordingSessionMeta.recovered
  split <;> rfl

/-- What a recovery leaves, and what it finds. -/
structure Loaded (dir : String) (emitted : List InputEventRecord)
    (result : Option (RecordingSessionMeta × String) × Disk) : Prop where
  disk : result.2.Kept dir emitted
  found : ∀ info mediaDir, result.1 = some (info, mediaDir) →
    mediaDir = dir ∧ info.eventCount ≤ emitted.length

theorem Loaded.none {dir : String} {emitted : List InputEventRecord} {d : Disk}
    (h : d.Kept dir emitted) : Loaded dir emitted (none, d) :=
  ⟨h, fun _ _ hfound => by cases hfound⟩

theorem Loaded.some {dir : String} {emitted : List InputEventRecord} {d : Disk}
    {info : RecordingSessionMeta} (h : d.Kept dir emitted) (hcount : info.eventCount ≤ emitted.length) :
    Loaded dir emitted (some (info, dir), d) := by
  refine ⟨h, ?_⟩
  rintro info' mediaDir hfound
  obtain ⟨rfl, rfl⟩ := Prod.mk.inj (Option.some.inj hfound)
  exact ⟨rfl, hcount⟩

theorem recovered_counted {dir : String} {emitted : List InputEventRecord} {d : Disk}
    (h : d.Kept dir emitted) {info : RecordingSessionMeta} (endedAt : String)
    (hinfo : d.sessionJson = some info ∨ d.archiveJson = some info) :
    (info.recovered endedAt).eventCount ≤ emitted.length := by
  rw [info.recovered_eventCount]
  exact h.counted info hinfo

theorem Disk.Kept.recoverSession {dir : String} {emitted : List InputEventRecord} {d : Disk}
    (h : d.Kept dir emitted) {info : RecordingSessionMeta} (a : Answer)
    (hinfo : d.sessionJson = some info) : (d.recoverSession info a).Kept dir emitted := by
  unfold Disk.recoverSession
  split
  · refine ⟨h.written, ?_, h.located⟩
    rintro info' (hnew | hold)
    · rw [← Option.some.inj hnew]
      exact recovered_counted h _ (.inl hinfo)
    · exact h.counted info' (.inr hold)
  · exact h

theorem Disk.Kept.recoverArchive {dir : String} {emitted : List InputEventRecord} {d : Disk}
    (h : d.Kept dir emitted) {info : RecordingSessionMeta} (a : Answer)
    (hinfo : d.archiveJson = some info) : (d.recoverArchive info a).Kept dir emitted := by
  unfold Disk.recoverArchive
  split
  · refine ⟨h.written, ?_, h.located⟩
    rintro info' (hold | hnew)
    · exact h.counted info' (.inl hold)
    · rw [← Option.some.inj hnew]
      exact recovered_counted h _ (.inr hinfo)
  · exact h

theorem scanMedia_loaded {id dir : String} {emitted : List InputEventRecord} (a : Answer) {d : Disk}
    (h : d.Kept dir emitted) : Loaded dir emitted (scanMedia id dir a d) := by
  unfold scanMedia
  split
  · exact .none h
  next info hinfo =>
    split
    · exact .none h
    · exact .some (h.recoverSession a hinfo) (recovered_counted h _ (.inl hinfo))

/-- STEP: a recovery finds a copy whose count is not too large, and leaves such copies. -/
theorem loadFromDisk_loaded (id : String) {dir : String} {emitted : List InputEventRecord} (a : Answer)
    {d : Disk} (h : d.Kept dir emitted) : Loaded dir emitted (loadFromDisk id dir a d) := by
  unfold loadFromDisk
  split
  · exact .none h
  · split
    · exact scanMedia_loaded a h
    next info hinfo =>
      split
      · exact scanMedia_loaded a h
      · have harchive := h.recoverArchive a hinfo
        split
        · exact scanMedia_loaded a harchive
        next source hsource =>
          split
          · rw [h.located source hsource]
            exact .some harchive (recovered_counted h _ (.inr hinfo))
          · exact scanMedia_loaded a harchive

/-! ### Whole lives -/

def Process.Kept : Process → Prop
  | .running w => w.Kept w.dir 0
  | .restarted _ dir disk emitted => Numbered emitted ∧ disk.Kept dir emitted

theorem Process.Kept.named {p : Process} (h : p.Kept) : Numbered p.emitted := by
  cases p with
  | running w => exact World.Kept.named h
  | restarted => exact h.1

theorem Process.Kept.disk {p : Process} (h : p.Kept) : p.disk.Kept p.dir p.emitted := by
  cases p with
  | running w => exact World.Kept.disk h
  | restarted => exact h.2

/-- The call goes by a count that is not too large. -/
structure Reader.Kept (p : Process) (r : Reader) : Prop where
  located : r.mediaDir = p.dir
  counted : r.info.eventCount ≤ p.emitted.length

structure Life.Kept (l : Life) : Prop where
  process : l.process.Kept
  readers : ∀ r ∈ l.readers, r.Kept l.process

theorem World.Kept.crash {dir : String} {least : Nat} {w : World} (h : w.Kept dir least) :
    w.crash.Kept := ⟨h.named, h.place ▸ h.disk⟩

theorem Life.Kept.crashed {dir : String} {least : Nat} {w : World} (h : w.Kept dir least) :
    Life.Kept ⟨w.crash, []⟩ := ⟨h.crash, by simp⟩

theorem Life.Kept.reader {p : Process} {readers : List Reader} {r : Reader}
    (h : Life.Kept ⟨p, readers⟩) (hr : r.Kept p) : Life.Kept ⟨p, r :: readers⟩ := by
  refine ⟨h.process, ?_⟩
  rintro r' (_ | ⟨_, hr'⟩)
  · exact hr
  · exact h.readers r' hr'

/-- STEP: a section, a crash or the beginning of a call. -/
theorem Life.Kept.step {l l' : Life} (a : Act) (h : l.Kept) (hstep : step sha256 l a = some l') :
    l'.Kept := by
  obtain ⟨process, readers⟩ := l
  cases process with
  | running w =>
    have hw : w.Kept w.dir 0 := h.process
    cases a with
    | section_ now source op tape =>
      have hstart : ({ w with now := now, source := source } : World).Kept w.dir w.emitted.length :=
        ⟨rfl, le_refl _, hw.counted, hw.numbered, hw.named, hw.disk⟩
      have hend := op.steady sha256 tape _ hstart
      simp only [Service.step] at hstep
      cases hrun : op.run sha256 tape { w with now := now, source := source } with
      | cut w' =>
        rw [hrun] at hstep hend
        obtain rfl := Option.some.inj hstep
        exact .crashed hend
      | done u w' rest =>
        rw [hrun] at hstep hend
        obtain rfl := Option.some.inj hstep
        refine ⟨⟨rfl, Nat.zero_le _, hend.counted, hend.numbered, hend.named, hend.place.symm ▸ hend.disk⟩, ?_⟩
        rintro r hr
        obtain ⟨hlocated, hcounted⟩ := h.readers r hr
        exact ⟨hlocated.trans hend.place.symm, hcounted.trans hend.grown⟩
    | crash =>
      obtain rfl := Option.some.inj hstep
      exact .crashed hw
    | events a =>
      obtain rfl := Option.some.inj hstep
      exact h.reader ⟨rfl, hw.counted.le⟩
  | restarted id dir disk emitted =>
    cases a with
    | section_ => cases hstep
    | crash => cases hstep
    | events a =>
      have hload := loadFromDisk_loaded id a h.process.2
      simp only [Service.step] at hstep
      rcases hfound : loadFromDisk id dir a disk with ⟨found, disk'⟩
      rw [hfound] at hstep hload
      have hlife : Life.Kept ⟨.restarted id dir disk' emitted, readers⟩ :=
        ⟨⟨h.process.1, hload.disk⟩, fun r hr => ⟨(h.readers r hr).located, (h.readers r hr).counted⟩⟩
      cases found with
      | none =>
        obtain rfl := Option.some.inj hstep
        exact hlife
      | some found =>
        obtain ⟨info, mediaDir⟩ := found
        obtain rfl := Option.some.inj hstep
        obtain ⟨hdir, hcount⟩ := hload.found info mediaDir rfl
        exact hlife.reader ⟨hdir, hcount⟩

theorem World.start_kept (id deviceId dir startedAt assetBaseName : String) (width height : Nat)
    (ffmpeg : Option String) :
    Life.Kept ⟨.running (.start id deviceId dir startedAt assetBaseName width height ffmpeg), []⟩ := by
  refine ⟨⟨rfl, le_refl _, rfl, rfl, rfl, ?_⟩, by simp⟩
  refine ⟨List.Subperm.refl _, ?_, ?_⟩
  · rintro info (hinfo | hinfo) <;> cases hinfo
  · rintro source hsource
    cases hsource

/-! ### What a call returns -/

/-- If the call returns a list, every event emitted before it is in there, exactly once. -/
def Reader.Right (r : Reader) (p : Process) : Prop :=
  ∀ events, r.read p.dir p.disk = .ok events → events.Nodup ∧ ∀ e ∈ r.before, e ∈ events

/-- Nothing was lost, or there is something that tells of it: a line that is not whole, an issue in
    the record the call goes by, or more losses than that record is late. -/
def Reader.Told (r : Reader) (p : Process) : Prop :=
  (∀ e ∈ r.before, e ∈ p.disk.records) ∨ ¬p.disk.Whole ∨ r.info.tellsOfFailedWrite = true ∨
    p.emitted.length - r.info.eventCount < p.lost

/-- What a call returns has passed all three checks. -/
theorem Reader.read_ok {r : Reader} {p : Process} (hr : r.Kept p) {events : List InputEventRecord}
    (h : r.read p.dir p.disk = .ok events) :
    readEventsChecked p.dir p.dir p.disk = .ok events ∧ r.info.eventCount ≤ events.length ∧
      r.info.tellsOfFailedWrite = false := by
  unfold Reader.read at h
  rw [hr.located] at h
  split at h
  · cases h
  next events' hread =>
    split at h
    · cases h
    next hcount =>
      split at h
      · cases h
      next htells =>
        obtain rfl := Except.ok.inj h
        exact ⟨hread, Nat.le_of_not_lt hcount, by simpa using htells⟩

theorem Reader.read_eq {r : Reader} {p : Process} (hr : r.Kept p) {events : List InputEventRecord}
    (hread : readEventsChecked p.dir p.dir p.disk = .ok events)
    (hcount : r.info.eventCount ≤ events.length) (htells : r.info.tellsOfFailedWrite = false) :
    r.read p.dir p.disk = .ok events := by
  unfold Reader.read
  rw [hr.located, hread]
  simp only [htells, Nat.not_lt.mpr hcount, if_false, Bool.false_eq_true]

theorem Process.Kept.lost_eq {p : Process} (h : p.Kept) :
    p.disk.records.length + p.lost = p.emitted.length := by
  have hle := h.disk.written.length_le
  unfold Process.lost
  omega

/-- The records on disk are those of distinct events. -/
theorem Process.Kept.records_nodup {p : Process} (h : p.Kept) :
    (p.disk.records.map (·.eventId)).Nodup := by
  obtain ⟨l, hperm, hsub⟩ := h.disk.written
  exact (hperm.map _).nodup_iff.mp (h.named.nodup.sublist (hsub.map _))

def good : Answer := ⟨true, true, .nothing, none, "", "now", none⟩

/-- The event file cannot be opened. -/
def bad : Answer := ⟨false, false, .nothing, none, "not a directory", "now", none⟩

def recorder : World := .start "rec" "device" "media" "now" "recording" 100 100 none

/-- A tap whose event is not written, and a crash before the session's record is written again. -/
def lossRun : List Act :=
  [.section_ 0 "manual" .persist [good, good, good],
    .section_ 10 "manual" (.observe (.touch touchDown 1 10 10)) [],
    .section_ 20 "manual" (.observe (.touch touchUp 1 10 10)) [bad],
    .crash, .events good]

end Gamer.Recording.Service
