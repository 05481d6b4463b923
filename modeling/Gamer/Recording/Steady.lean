import Gamer.Recording.Evidence

/-! Every section of a session keeps what ties the files and the copies to the events: the files
    hold each event once at most, the counts in memory are exact, and the counts in the copies are
    too small at worst:

        files ⊆ emitted       memory: event_count = #emitted       copy: event_count ≤ #emitted  -/

namespace Gamer.Recording.Service
open Gamer.Lib Gamer.Lib.Prog Gamer.Core
variable {sha256 : Bytes → String}

/-! ### Event names -/

theorem eventId_injective : Function.Injective eventId := by
  intro n m h
  have hpadded : padded 9 n = padded 9 m := by
    have hlist := congrArg String.toList h
    simp only [eventId, String.toList_append] at hlist
    exact String.toList_inj.mp (List.append_cancel_left hlist)
  exact padded_injective 9 hpadded

/-- The events are numbered from one on. -/
def Numbered (emitted : List InputEventRecord) : Prop :=
  emitted.map (·.eventId) = (List.range emitted.length).map fun i => eventId (i + 1)

theorem Numbered.nodup {emitted : List InputEventRecord} (h : Numbered emitted) :
    (emitted.map (·.eventId)).Nodup := by
  rw [h]
  refine List.nodup_range.map fun i j hij => ?_
  exact Nat.succ.inj (eventId_injective hij)

theorem Numbered.emit {emitted : List InputEventRecord} (h : Numbered emitted)
    {record : InputEventRecord} (hid : record.eventId = eventId (emitted.length + 1)) :
    Numbered (emitted ++ [record]) := by
  rw [Numbered, List.map_append, h, List.length_append, List.length_singleton, List.range_succ,
    List.map_append, List.map_singleton, List.map_singleton, hid]

/-! ### The files -/

theorem Disk.records_append (d : Disk) (seq : Nat) (pieces : List (Piece InputEventRecord)) :
    ∃ added : List InputEventRecord, (d.append seq pieces).records.Perm (d.records ++ added) ∧
      added.Sublist (Piece.records pieces) := by
  unfold Disk.append Table.modify Disk.records
  cases hfile : d.eventFiles.get seq with
  | none => exact ⟨[], by simp, List.nil_sublist _⟩
  | some text =>
    refine ⟨Piece.records pieces, ?_, List.Sublist.refl _⟩
    have hfiles := (Table.entries_perm hfile).flatMap_right fun file => Piece.records file.2
    simp only [Table.entries_set, List.flatMap_cons, Piece.records_append] at hfiles ⊢
    refine List.Perm.trans ?_ (hfiles.symm.append_right _)
    rw [List.append_assoc, List.append_assoc]
    exact List.Perm.append_left _ List.perm_append_comm

theorem Disk.records_openFile (d : Disk) (seq : Nat) : (d.openFile seq).records.Perm d.records := by
  unfold Disk.openFile
  cases hfile : d.eventFiles.get seq with
  | some text => exact .refl _
  | none =>
    refine List.Perm.of_eq ?_
    simp only [Disk.records, Table.entries_set, List.flatMap_cons, Table.del_of_get_none hfile]
    rfl

/-- What ties what is on disk to the events. -/
structure Disk.Kept (dir : String) (emitted : List InputEventRecord) (d : Disk) : Prop where
  written : d.records.Subperm emitted
  counted : ∀ info, d.sessionJson = some info ∨ d.archiveJson = some info →
    info.eventCount ≤ emitted.length
  located : ∀ source, d.eventSource = some source → source = dir

/-- Only the copies are left as they are. -/
structure SameCopies (d d' : Disk) : Prop where
  sessionJson : d'.sessionJson = d.sessionJson
  archiveJson : d'.archiveJson = d.archiveJson
  eventSource : d'.eventSource = d.eventSource

theorem SameCopies.trans {a b c : Disk} (h : SameCopies a b) (h' : SameCopies b c) :
    SameCopies a c :=
  ⟨h'.1.trans h.1, h'.2.trans h.2, h'.3.trans h.3⟩

theorem Disk.append_copies (d : Disk) (seq : Nat) (pieces : List (Piece InputEventRecord)) :
    SameCopies d (d.append seq pieces) := ⟨rfl, rfl, rfl⟩

theorem Disk.openFile_copies (d : Disk) (seq : Nat) : SameCopies d (d.openFile seq) := by
  unfold Disk.openFile
  split <;> exact ⟨rfl, rfl, rfl⟩

/-- One more event, which is in the files or not. -/
theorem Disk.Kept.emit {dir : String} {emitted : List InputEventRecord} {d d' : Disk}
    (h : d.Kept dir emitted) (record : InputEventRecord) (hcopies : SameCopies d d')
    (hadded : ∃ added : List InputEventRecord, d'.records.Perm (d.records ++ added) ∧
      added.Sublist [record]) : d'.Kept dir (emitted ++ [record]) := by
  obtain ⟨added, hperm, hsub⟩ := hadded
  refine ⟨?_, ?_, ?_⟩
  · exact hperm.subperm.trans ((List.subperm_append_right added).mpr h.written |>.trans
      ((List.subperm_append_left emitted).mpr hsub.subperm))
  · rintro info hinfo
    rw [hcopies.sessionJson, hcopies.archiveJson] at hinfo
    have hcount := h.counted info hinfo
    rw [List.length_append]
    omega
  · rintro source hsource
    exact h.located source (hcopies.eventSource ▸ hsource)

theorem Torn.records_pieces (record : InputEventRecord) (torn : Torn) :
    (Piece.records (torn.pieces record)).Sublist [record] := by
  cases torn
  · exact List.nil_sublist _
  · exact List.nil_sublist _
  · exact List.Sublist.refl _

theorem EventLog.roll_disk (log : EventLog) (a : Answer) (d : Disk) :
    SameCopies d (log.roll a d).2.1 ∧ (log.roll a d).2.1.records.Perm d.records := by
  unfold EventLog.roll
  split
  · split
    · exact ⟨d.openFile_copies _, d.records_openFile _⟩
    · exact ⟨⟨rfl, rfl, rfl⟩, .refl _⟩
  · exact ⟨⟨rfl, rfl, rfl⟩, .refl _⟩

/-- STEP: one append adds the record, or part of it, or nothing. -/
theorem EventLog.append_disk (log : EventLog) (a : Answer) (d : Disk) (record : InputEventRecord) :
    SameCopies d (log.append a d record).2.1 ∧
      ∃ added : List InputEventRecord,
        (log.append a d record).2.1.records.Perm (d.records ++ added) ∧ added.Sublist [record] := by
  obtain ⟨hcopies, hrecords⟩ := log.roll_disk a d
  have hnone : ∃ added : List InputEventRecord,
      (log.roll a d).2.1.records.Perm (d.records ++ added) ∧ added.Sublist [record] :=
    ⟨[], by simpa using hrecords, List.nil_sublist _⟩
  have hsome : ∀ seq pieces, (Piece.records pieces).Sublist [record] →
      ∃ added : List InputEventRecord,
        ((log.roll a d).2.1.append seq pieces).records.Perm (d.records ++ added) ∧
          added.Sublist [record] := by
    intro seq pieces hpieces
    obtain ⟨added, hperm, hsub⟩ := (log.roll a d).2.1.records_append seq pieces
    exact ⟨added, hperm.trans (hrecords.append_right added), hsub.trans hpieces⟩
  unfold EventLog.append
  split
  next log' d' hroll =>
    rw [hroll] at hcopies hnone
    exact ⟨hcopies, hnone⟩
  next log' d' hroll =>
    rw [hroll] at hcopies hnone hsome
    split
    · exact ⟨hcopies, hnone⟩
    · split
      · exact ⟨hcopies.trans (d'.append_copies _ _), hsome _ _ (List.Sublist.refl _)⟩
      · exact ⟨hcopies.trans (d'.append_copies _ _), hsome _ _ (Torn.records_pieces record _)⟩

/-! ### The sections -/

/-- INVARIANT: the counters are exact, and the disk is behind at worst. The session had emitted
    `least` events before. -/
structure World.Kept (dir : String) (least : Nat) (w : World) : Prop where
  place : w.dir = dir
  grown : least ≤ w.emitted.length
  counted : w.st.info.eventCount = w.emitted.length
  numbered : w.st.evtCounter = w.emitted.length
  named : Numbered w.emitted
  disk : w.disk.Kept dir w.emitted

/-- What the invariant is about. -/
def World.evidence (w : World) : String × List InputEventRecord × Disk × Nat × Nat :=
  (w.dir, w.emitted, w.disk, w.st.info.eventCount, w.st.evtCounter)

theorem World.Kept.same {dir : String} {least : Nat} {w w' : World} (h : w.Kept dir least)
    (hsame : w'.evidence = w.evidence) : w'.Kept dir least := by
  simp only [World.evidence, Prod.mk.injEq] at hsame
  obtain ⟨hdir, hemitted, hdisk, hcount, hcounter⟩ := hsame
  refine ⟨hdir ▸ h.place, ?_, ?_, ?_, ?_, ?_⟩
  · rw [hemitted]; exact h.grown
  · rw [hcount, hemitted]; exact h.counted
  · rw [hcounter, hemitted]; exact h.numbered
  · rw [hemitted]; exact h.named
  · rw [hdisk, hemitted]; exact h.disk

/-- The section keeps the invariant, to its end and wherever it is cut off. -/
def Steady (dir : String) (least : Nat) {α : Type} (p : Section α) : Prop :=
  Triple (World.Kept dir least) p (fun _ => World.Kept dir least) (World.Kept dir least)

namespace Steady
variable {dir : String} {least : Nat} {α β : Type}

theorem give {a : α} : Steady dir least (.give a) := Triple.give fun _ h => h

theorem bind {p : Section α} {k : α → Section β} (hp : Steady dir least p)
    (hk : ∀ a, Steady dir least (k a)) : Steady dir least (p >>= k) := Triple.bind hp hk

theorem reading {k : World → Section α} (h : ∀ w, Steady dir least (k w)) :
    Steady dir least (.reading k) :=
  Triple.reading fun w _ => (h w).pre fun _ ht => ht.1

theorem keeps {p : Section α} (h : Keeps World.evidence p) : Steady dir least p :=
  h.triple fun _ _ hsame hkept => hkept.same hsame

theorem change {f : World → World} (h : ∀ w, (f w).evidence = w.evidence) :
    Steady dir least (.change f) := keeps (.change h)

theorem orFail {p : Section (Except String α)} {fail : String → Section β} {k : α → Section β}
    (hp : Steady dir least p) (hfail : ∀ e, Steady dir least (fail e))
    (hk : ∀ a, Steady dir least (k a)) : Steady dir least (p.orFail fail k) := by
  refine bind hp fun r => ?_
  cases r with
  | error e => exact hfail e
  | ok a => exact hk a

end Steady

variable {dir : String} {least : Nat}

theorem SessionState.addIssue_eventCount (st : SessionState) (text : String) :
    (st.addIssue text).info.eventCount = st.info.eventCount ∧
      (st.addIssue text).evtCounter = st.evtCounter := by
  unfold SessionState.addIssue
  split <;> exact ⟨rfl, rfl⟩

@[simp] theorem World.evidenceIssue_evidence (w : World) (text : String) :
    (w.evidenceIssue text).evidence = w.evidence := by
  simp [World.evidence, World.evidenceIssue, World.setState, SessionState.addIssue_eventCount]

theorem issue_steady (text : String) : Steady dir least (issue text) :=
  .change fun w => w.evidenceIssue_evidence text

/-- STEP: one event more, in memory and among the events; in the files if the write succeeds. -/
theorem emit_steady {kind : String} {payload : Json} {timelineUs : Nat} {operationId : String} :
    Steady dir least (emit kind payload timelineUs operationId) := by
  refine Triple.effect (fun w h => h) fun a w h => ?_
  let record := w.record kind payload timelineUs operationId
  have hid : record.eventId = eventId (w.emitted.length + 1) := by
    rw [← h.numbered]
    rfl
  have hlength : (w.emitted ++ [record]).length = w.emitted.length + 1 := by simp
  obtain ⟨hcopies, hadded⟩ := w.st.events.append_disk a w.disk record
  show (w.appended record (w.st.events.append a w.disk record)).Kept dir least
  generalize w.st.events.append a w.disk record = result at hcopies hadded ⊢
  obtain ⟨events, disk, wrote⟩ := result
  have hkept : (w.withEvent record events disk).Kept dir least :=
    ⟨h.place, (h.grown.trans (Nat.le_succ _)).trans hlength.ge,
      (congrArg (· + 1) h.counted).trans hlength.symm,
      (congrArg (· + 1) h.numbered).trans hlength.symm, h.named.emit hid,
      h.disk.emit record hcopies hadded⟩
  cases wrote with
  | ok _ => exact hkept
  | error e => exact hkept.same (World.evidenceIssue_evidence _ _)

theorem nextOp_steady {k : String → Section Unit} (hk : ∀ op, Steady dir least (k op)) :
    Steady dir least (nextOp k) :=
  .reading fun _ => .bind (.change fun _ => rfl) fun _ => hk _

theorem World.Kept.onDisk {w : World} {d : Disk} (h : w.Kept dir least)
    (hdisk : d.Kept dir w.emitted) : ({ w with disk := d } : World).Kept dir least :=
  ⟨h.place, h.grown, h.counted, h.numbered, h.named, hdisk⟩

/-- A copy is written from what is in memory, where the count is exact. -/
theorem persist_steady : Steady dir least persist := by
  have hcopy : ∀ {w : World} {info : RecordingSessionMeta}, w.Kept dir least →
      some w.st.info = some info ∨ w.disk.sessionJson = some info ∨
        w.disk.archiveJson = some info → info.eventCount ≤ w.emitted.length := by
    rintro w info h (hinfo | hinfo)
    · rw [← Option.some.inj hinfo, h.counted]
    · exact h.disk.counted info hinfo
  refine .bind (Triple.effect (fun w h => h) fun a w h => ?_) fun _ =>
    .bind (Triple.effect (fun w h => h) fun a w h => ?_) fun made =>
    Triple.effect (fun w h => h) fun a w h => ?_
  · dsimp only
    split
    · refine h.onDisk ⟨h.disk.written, ?_, h.disk.located⟩
      rintro info (hinfo | hinfo)
      · exact hcopy h (.inl hinfo)
      · exact hcopy h (.inr (.inr hinfo))
    · exact h
  · dsimp only
    split
    · refine h.onDisk ⟨h.disk.written, ?_, h.disk.located⟩
      rintro info (hinfo | hinfo)
      · exact hcopy h (.inr (.inl hinfo))
      · exact hcopy h (.inl hinfo)
    · exact h
  · dsimp only
    split
    · exact h.onDisk ⟨h.disk.written, h.disk.counted,
        fun source hsource => (Option.some.inj hsource).symm.trans h.place⟩
    · exact h

/-! ### What is observed -/

theorem whileRecording_steady {k : World → Section Unit} (hk : ∀ w, Steady dir least (k w)) :
    Steady dir least (whileRecording k) := by
  refine .reading fun w => ?_
  split
  · exact hk w
  · exact .give

theorem onTouch_steady {action pointerId x y : Nat} :
    Steady dir least (onTouch action pointerId x y) := by
  refine whileRecording_steady fun w => ?_
  split
  · refine .reading fun w => ?_
    split
    · exact issue_steady _
    · refine .bind ?_ fun _ => nextOp_steady fun op => .change fun _ => rfl
      split
      · exact .give
      · exact Steady.bind (.change fun _ => rfl) fun _ => emit_steady
  · split
    · refine .reading fun w => ?_
      split
      · exact Steady.bind (.change fun _ => rfl) fun _ => emit_steady
      · exact .bind (issue_steady _) fun _ => nextOp_steady fun op => emit_steady
    · split
      · refine .reading fun w => ?_
        split
        · exact .change fun _ => rfl
        · exact issue_steady _
      · refine .reading fun w => .bind ?_ fun _ => issue_steady _
        split
        · exact .give
        · exact Steady.bind (.change fun _ => rfl) fun _ => emit_steady

theorem onKey_steady {action code : Nat} : Steady dir least (onKey action code) := by
  refine whileRecording_steady fun w => ?_
  split
  · refine .reading fun w => ?_
    split
    · exact .give
    · split
      · exact issue_steady _
      · exact nextOp_steady fun op => .change fun _ => rfl
  · split
    · refine .reading fun w => ?_
      split
      · exact Steady.bind (.change fun _ => rfl) fun _ => emit_steady
      · exact .bind (issue_steady _) fun _ => nextOp_steady fun op => emit_steady
    · exact .give

theorem onNamedKey_steady {action name : String} : Steady dir least (onNamedKey action name) := by
  refine whileRecording_steady fun w => ?_
  split
  · refine .reading fun w => ?_
    split
    · exact .give
    · split
      · exact issue_steady _
      · exact nextOp_steady fun op => .change fun _ => rfl
  · split
    · refine .reading fun w => ?_
      split
      · exact Steady.bind (.change fun _ => rfl) fun _ => emit_steady
      · exact nextOp_steady fun op => .bind (issue_steady _) fun _ => emit_steady
    · split <;> exact nextOp_steady fun op => emit_steady

/-- STEP: no input changes the invariant, whatever becomes of its event. -/
theorem observe_steady (input : Input) : Steady dir least (observe input) := by
  cases input with
  | touch action pointerId x y => exact onTouch_steady
  | key action code => exact onKey_steady
  | namedKey action name => exact onNamedKey_steady
  | text text => exact whileRecording_steady fun w => nextOp_steady fun op => emit_steady
  | unsupported inputType =>
    exact whileRecording_steady fun w => nextOp_steady fun op => emit_steady

/-! ### Segments and the end -/

theorem openSegment_steady (firstPts : Nat) : Steady dir least (openSegment firstPts) := by
  refine .orFail (.keeps (.effect fun a w => ?_)) (fun _ => .give) fun _ =>
    .bind persist_steady fun _ => .give
  dsimp only
  split <;> rfl

theorem closeSegment_steady (reason : SegmentReason) :
    Steady dir least (closeSegment sha256 reason) := by
  refine .keeps (.effect fun a w => ?_)
  split
  · rfl
  · dsimp only
    split
    · rfl
    · exact World.evidenceIssue_evidence _ _

theorem emitEach_steady {κ ν : Type} {kind : String} {payload : κ → ν → Json}
    {stamp : ν → Nat × String} (entries : List (Sigma fun _ : κ => ν)) :
    Steady dir least (emitEach kind payload stamp entries) := by
  induction entries with
  | nil => exact .give
  | cons entry entries ih => exact .bind emit_steady fun _ => ih

theorem emitPartial_steady : Steady dir least emitPartial :=
  .bind (.reading fun _ => .bind (.change fun _ => rfl) fun _ => emitEach_steady _) fun _ =>
  .bind (.reading fun _ => .bind (.change fun _ => rfl) fun _ => emitEach_steady _) fun _ =>
  .reading fun _ => .bind (.change fun _ => rfl) fun _ => emitEach_steady _

theorem World.ended_evidence (w : World) (target : RecordingState) (endedAt : String)
    (error : Option String) : (w.ended target endedAt error).evidence = w.evidence := by
  unfold World.ended
  dsimp only
  split
  · exact World.evidenceIssue_evidence (w.setMeta _) _
  · rfl

theorem World.releaseDevice_evidence (w : World) : w.releaseDevice.evidence = w.evidence := by
  unfold World.releaseDevice
  split <;> rfl

theorem finalizeWith_steady {target : RecordingState} {reason : SegmentReason}
    {error : Option String} : Steady dir least (finalizeWith sha256 target reason error) := by
  refine .reading fun w => ?_
  split
  · exact .give
  · exact .bind (.change fun _ => rfl) fun _ =>
      .bind emitPartial_steady fun _ =>
      .bind (.change fun _ => rfl) fun _ =>
      .bind (closeSegment_steady _) fun _ =>
      .bind (.keeps (.effect fun a w => w.ended_evidence ..)) fun _ =>
      .bind persist_steady fun _ =>
      .bind (.change World.releaseDevice_evidence) fun _ =>
      .reading fun _ => .give

theorem failWith_steady (text : String) : Steady dir least (failWith sha256 text) :=
  .bind finalizeWith_steady fun _ => .give

/-! ### Frames -/

theorem checkSpace_steady : Steady dir least (checkSpace sha256) := by
  refine .reading fun w => ?_
  split
  · exact .give
  · refine .bind (.keeps (.effect fun a w => rfl)) fun pressured => ?_
    split
    · exact .bind (closeSegment_steady _) fun _ => .bind finalizeWith_steady fun _ => .give
    · exact .give

theorem writeSample_steady (frame : VideoFrame) : Steady dir least (writeSample sha256 frame) := by
  refine .orFail (.keeps (.effect fun a w => ?_)) (fun _ => failWith_steady _) fun _ =>
    checkSpace_steady
  split
  · rfl
  · split <;> rfl

theorem openThen_steady {firstPts : Nat} {p : Section Unit} (hp : Steady dir least p) :
    Steady dir least ((openSegment firstPts).orFail
      (fun e => failWith sha256 ("录制开段失败: " ++ e)) fun _ => p) :=
  .orFail (openSegment_steady _) (fun _ => failWith_steady _) fun _ => hp

theorem feedSample_steady (frame : VideoFrame) : Steady dir least (feedSample sha256 frame) := by
  refine .reading fun w => ?_
  split
  · exact .give
  · split
    · refine .bind (closeSegment_steady _) fun _ => .bind persist_steady fun _ => ?_
      split
      · exact openThen_steady (writeSample_steady frame)
      · exact .give
    · exact writeSample_steady frame

theorem feedConfig_steady (data : Bytes) : Steady dir least (feedConfig sha256 data) := by
  refine .reading fun w => ?_
  split
  · exact .give
  · refine .bind ?_ fun _ => .change fun _ => rfl
    split
    · exact .bind (closeSegment_steady _) fun _ => persist_steady
    · exact .give

/-- STEP: no frame changes the invariant. -/
theorem feedFrame_steady (frame : VideoFrame) : Steady dir least (feedFrame sha256 frame) := by
  refine whileRecording_steady fun w => ?_
  split
  · exact feedConfig_steady _
  · split
    · exact feedSample_steady frame
    · split
      · exact .give
      · split
        · exact .give
        · exact openThen_steady (feedSample_steady frame)

/-! ### A browser's recording -/

theorem collectFrame_steady (bytes : Nat) : Steady dir least (collectFrame bytes) := by
  refine .reading fun w => ?_
  split
  · exact .give
  · split
    · exact .give
    · refine .keeps (.effect fun a w => ?_)
      split
      · rfl
      · split
        · rfl
        · split <;> rfl

theorem takeBrowser_steady : Steady dir least takeBrowser := by
  refine .reading fun w => ?_
  split
  · exact .give
  · exact .bind (.change fun _ => rfl) fun _ => .bind persist_steady fun _ => .reading fun _ => .give

theorem putBrowser_steady {result : Except String (Option SegmentMeta)} {target : RecordingState}
    {reason : SegmentReason} {error : Option String} :
    Steady dir least (putBrowser sha256 result target reason error) := by
  refine .reading fun w => ?_
  split
  · exact finalizeWith_steady
  · exact .bind (.change fun _ => rfl) fun _ => finalizeWith_steady
  · split <;> exact finalizeWith_steady

theorem acceptFinish_steady : Steady dir least acceptFinish := by
  refine .reading fun w => ?_
  split
  · exact .give
  · exact .bind (.change fun _ => rfl) fun _ => .bind persist_steady fun _ => .reading fun _ => .give

/-- STEP: every section keeps the invariant, to its end and wherever it is cut off. -/
theorem Op.steady (sha256 : Bytes → String) (op : Op) : Steady dir least (op.run sha256) := by
  cases op with
  | persist => exact persist_steady
  | observe input => exact observe_steady input
  | feedFrame frame => exact feedFrame_steady frame
  | noteDropped n => exact .change fun _ => rfl
  | collectFrame bytes => exact .bind (collectFrame_steady bytes) fun _ => .give
  | boundary reason =>
    exact whileRecording_steady fun _ => .bind (closeSegment_steady _) fun _ => persist_steady
  | takeBrowser => exact .bind takeBrowser_steady fun _ => .give
  | putBrowser result target reason error => exact .bind putBrowser_steady fun _ => .give
  | finalizeWith target reason error => exact .bind finalizeWith_steady fun _ => .give
  | acceptFinish => exact .bind acceptFinish_steady fun _ => .give

end Gamer.Recording.Service
