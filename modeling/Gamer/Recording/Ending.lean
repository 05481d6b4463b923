import Gamer.Recording.Observed

/-! Segments of video, and the end of a session. A session goes through `Finalizing` once, and in
    the section that does so its open presses become events, its segment is closed, and the device
    is free again:

        Recording ─▶ Finalizing ─▶ Completed | Cancelled | Interrupted | Failed             -/

namespace Gamer.Recording.Service
open Gamer.Lib Gamer.Lib.Prog Gamer.Core
variable (sha256 : Bytes → String)

def segmentAssetName (base : String) (seq : Nat) : String :=
  if seq ≤ 1 then base else base ++ "-part" ++ toString seq

def auContainsParamSet (au : Bytes) : Bool :=
  (splitAnnexb au).any fun nal => nalType nal = 7 || nalType nal = 8

/-- One frame of the device's stream. -/
structure VideoFrame where
  data : Bytes
  ptsUs : Nat
  isKeyframe : Bool
  isConfig : Bool

/-- The first segment is kept in the session's own directory. -/
def World.segmentMedia (w : World) (fresh : String) : String :=
  if w.st.segmentSeq = 0 then w.dir else fresh

def SessionState.segmentWriter (st : SessionState) : Writer :=
  match st.pendingConfig with
  | some config => (Writer.create st.width st.height).setConfig config
  | none => Writer.create st.width st.height

def openSegment (firstPts : Nat) : Section (Except String Unit) :=
  (Prog.effect fun a w =>
    if a.works then
      let media := w.segmentMedia a.fresh
      let seq := w.st.segmentSeq + 1
      let segment : SegmentWriter :=
        ⟨media, segmentAssetName w.st.assetBaseName seq, w.elapsedUs, firstPts, firstPts, 0,
          w.st.segmentWriter⟩
      let st := { w.st with pendingConfig := none, segmentSeq := seq, current := some segment }
      (.ok (), { w with st := st, opened := w.opened ++ [media] })
    else (.error a.error, w) : Section (Except String Unit)).andThen fun _ =>
  persist >>= fun _ => .give (.ok ())

def World.listSegment (w : World) (segment : SegmentMeta) : World :=
  w.setMeta { w.st.info with segments := w.st.info.segments ++ [segment] }

def closeSegment (reason : SegmentReason) : Section Unit := .effect fun a w =>
  match w.st.current with
  | none => ((), w)
  | some seg =>
    let w := w.setState { w.st with current := none }
    match seg.writer.finish (if a.works then none else some a.error) sha256 with
    | .ok _ =>
      let w := { w with closed := w.closed ++ [(seg.mediaId, SegmentEnd.listed)] }
      ((), w.listSegment ⟨seg.mediaId, seg.startUs, w.elapsedUs - seg.startUs, seg.basePts, reason⟩)
    | .error e =>
      let text := "segment_finalize_failed: " ++ e
      let w := { w with closed := w.closed ++ [(seg.mediaId, SegmentEnd.issue text)] }
      ((), w.evidenceIssue text)

def segmentBoundary (reason : SegmentReason) : Section Unit :=
  closeSegment sha256 reason >>= fun _ => persist

/-! ### The end of a session -/

/-- The same event for every key, in the order of the table. -/
def emitEach {κ ν : Type} (kind : String) (payload : κ → ν → Json) (at_ : ν → Nat × String) :
    List (Sigma fun _ : κ => ν) → Section Unit
  | [] => .give ()
  | ⟨k, v⟩ :: rest =>
    emit kind (payload k v) (at_ v).1 (at_ v).2 >>= fun _ => emitEach kind payload at_ rest

/-- Every press that has no release yet becomes an event. -/
def emitPartial : Section Unit :=
  (.reading fun w =>
    .change (fun w => w.setState { w.st with touch := ∅ }) >>= fun _ =>
    emitEach "gesture_incomplete" (fun _ (g : TouchGesture) => object [("x", number g.x0),
      ("y", number g.y0), ("duration_us", number (w.elapsedUs - g.downUs))])
      (fun g => (g.downUs, g.operationId)) w.st.touch.entries) >>= fun _ =>
  (.reading fun w =>
    .change (fun w => w.setState { w.st with keys := ∅ }) >>= fun _ =>
    emitEach "key_incomplete" (fun code (k : KeyPending) => object [("code", number code),
      ("duration_us", number (w.elapsedUs - k.downUs))])
      (fun k => (k.downUs, k.operationId)) w.st.keys.entries) >>= fun _ =>
  .reading fun w =>
    .change (fun w => w.setState { w.st with namedKeys := ∅ }) >>= fun _ =>
    emitEach "key_incomplete" (fun name (k : KeyPending) => object [("code", .str name),
      ("duration_us", number (w.elapsedUs - k.downUs))])
      (fun k => (k.downUs, k.operationId)) w.st.namedKeys.entries

def World.freeze (w : World) : World := w.setState { w.st with stoppedUs := some w.elapsedUs }

def World.finalizing (w : World) : World :=
  { w.setMeta { w.st.info with state := .finalizing } with stopping := true }

def World.ended (w : World) (target : RecordingState) (endedAt : String) (error : Option String) :
    World :=
  let w := w.setMeta { w.st.info with state := target, endedAt := some endedAt, error := error }
  let w := if 0 < w.st.droppedFrames then
    w.evidenceIssue ("frames_dropped: " ++ toString w.st.droppedFrames) else w
  w.setState { w.st with events := { w.st.events with file := none } }

/-- The device is let go of where this session holds it. -/
def World.releaseDevice (w : World) : World :=
  if w.activeByDevice.get w.deviceId = some w.id then
    { w with activeByDevice := w.activeByDevice.del w.deviceId, stopping := true }
  else { w with stopping := true }

/-- A session that has ended stays as it is. -/
def finalizeWith (target : RecordingState) (closeReason : SegmentReason) (error : Option String) :
    Section RecordingSessionMeta := .reading fun w =>
  if w.st.info.state.terminal then .give w.st.info
  else
    .change World.freeze >>= fun _ =>
    emitPartial >>= fun _ =>
    .change World.finalizing >>= fun _ =>
    closeSegment sha256 closeReason >>= fun _ =>
    .effect (fun a w => ((), w.ended target a.fresh error)) >>= fun _ =>
    persist >>= fun _ =>
    .change World.releaseDevice >>= fun _ =>
    .reading fun w => .give w.st.info

/-! ### Frames -/

def SessionState.wrote (st : SessionState) (seg : SegmentWriter) (n ptsUs : Nat) : SessionState :=
  { st with
    writtenBytes := st.writtenBytes + n
    current := some { seg with frames := seg.frames + 1, lastRawPts := ptsUs }
    framesSinceSpaceCheck := st.framesSinceSpaceCheck + 1 }

/-- Every 512 frames the room that is left is looked at. -/
def checkSpace : Section Unit := .reading fun w =>
  if w.st.framesSinceSpaceCheck < 512 then .give ()
  else
    .effect (fun a w => (decide (maxSessionBytes ≤ w.st.writtenBytes ∨
        ∃ free, a.freeBytes = some free ∧ free < minFreeBytes),
      w.setState { w.st with framesSinceSpaceCheck := 0 })) >>= fun pressured =>
    if pressured then
      closeSegment sha256 .diskPressure >>= fun _ =>
      finalizeWith sha256 .interrupted .diskPressure
        (some "磁盘空间不足或达到会话容量上限，录制已安全收尾") >>= fun _ => .give ()
    else .give ()

def failWith (text : String) : Section Unit :=
  finalizeWith sha256 .failed .normal (some text) >>= fun _ => .give ()

/-- The sample goes to the open segment. -/
def writeSample (frame : VideoFrame) : Section Unit :=
  (Prog.effect fun a w =>
    match w.st.current with
    | none => (.error "current segment open above", w)
    | some seg =>
      match seg.writer.writeAnnexbSample a.fault frame.data (frame.ptsUs - seg.basePts)
          frame.isKeyframe with
      | (writer, .ok n) => (.ok (), w.setState (w.st.wrote { seg with writer := writer } n frame.ptsUs))
      | (writer, .error e) =>
        (.error e, w.setState { w.st with current := some { seg with writer := writer } }) :
    Section (Except String Unit)).orFail
  (fun e => failWith sha256 ("录制写入失败: " ++ e)) fun _ => checkSpace sha256

/-- A clock that runs backwards begins a new segment. -/
def feedSample (frame : VideoFrame) : Section Unit := .reading fun w =>
  match w.st.current with
  | none => .give ()
  | some seg =>
    if frame.ptsUs + 500000 < seg.lastRawPts then
      closeSegment sha256 .codecChange >>= fun _ =>
      persist >>= fun _ =>
      if frame.isKeyframe then
        (openSegment frame.ptsUs).orFail (fun e => failWith sha256 ("录制开段失败: " ++ e)) fun _ =>
        writeSample sha256 frame
      else .give ()
    else writeSample sha256 frame

def feedConfig (data : Bytes) : Section Unit := .reading fun w =>
  if w.st.pendingConfig = some data then .give ()
  else
    (if w.st.current.isSome then closeSegment sha256 .codecChange >>= fun _ => persist
      else .give ()) >>= fun _ =>
    .change fun w => w.setState { w.st with pendingConfig := some data }

/-- Recording begins at a key frame whose parameter sets are known. -/
def feedFrame (frame : VideoFrame) : Section Unit := whileRecording fun w =>
  if frame.isConfig then feedConfig sha256 frame.data
  else if w.st.current.isSome then feedSample sha256 frame
  else if !frame.isKeyframe then .give ()
  else if w.st.pendingConfig.isNone ∧ !auContainsParamSet frame.data then .give ()
  else (openSegment frame.ptsUs).orFail (fun e => failWith sha256 ("录制开段失败: " ++ e)) fun _ =>
    feedSample sha256 frame

def noteDropped (n : Nat) : Section Unit :=
  .change fun w => w.setState { w.st with droppedFrames := w.st.droppedFrames + n }

/-! ### A browser's frames -/

/-- One picture of a browser, kept as a file until the end. -/
def collectFrame (bytes : Nat) : Section (Except String Unit) := .reading fun w =>
  if w.st.info.state ≠ .recording then .give (.ok ())
  else if maxSessionBytes < w.st.writtenBytes + bytes then .give (.error "录制临时文件达到 4 GiB 上限")
  else .effect fun a w =>
    match w.st.browser with
    | none => (.error "unwrap", w)
    | some recording =>
      if recording.frames.length % 90 = 0 ∧ ∃ free, a.freeBytes = some free ∧ free < minFreeBytes then
        (.error "磁盘空间不足，录制已结束", w)
      else if a.works then
        (.ok (), w.setState { w.st with
          browser := some { recording with frames := recording.frames ++ [w.elapsedUs] }
          writtenBytes := w.st.writtenBytes + bytes })
      else (.error a.error, w)

/-- What a browser's recorder is finished with. -/
structure Taken where
  recording : BrowserRecording
  endUs : Nat

/-- The recorder is taken out of the state, and is finished without the lock. -/
def takeBrowser : Section (Option Taken) := .reading fun w =>
  match w.st.browser with
  | none => .give none
  | some recording =>
    .change (fun w => (w.setState { w.st with browser := none }).freeze.finalizing) >>= fun _ =>
    persist >>= fun _ => .reading fun w => .give (some ⟨recording, w.elapsedUs⟩)

/-- What the encoder gives: nothing without frames, one segment, or an error. -/
def World.encoded (w : World) (t : Taken) (reason : SegmentReason) (a : Answer) :
    Except String (Option SegmentMeta) :=
  match t.recording.frames.head? with
  | none => .ok none
  | some startUs =>
    if a.works ∧ !w.encodingCancelled then
      .ok (some ⟨w.dir, startUs, max t.endUs (startUs + 1) - startUs, 0, reason⟩)
    else .error (if w.encodingCancelled then "服务停止，录像原始帧保留" else a.error)

/-- Back under the lock, with the encoder's result. -/
def putBrowser (result : Except String (Option SegmentMeta)) (target : RecordingState)
    (reason : SegmentReason) (error : Option String) : Section RecordingSessionMeta :=
  .reading fun w =>
    match result with
    | .ok none => finalizeWith sha256 target reason error
    | .ok (some segment) =>
      .change (fun w => w.listSegment segment) >>= fun _ => finalizeWith sha256 target reason error
    | .error e =>
      if w.encodingCancelled then
        finalizeWith sha256 .interrupted reason (some "服务停止导致保存中断，原始帧保留在录制目录")
      else finalizeWith sha256 .failed reason (some ("浏览器录像封装失败: " ++ e))

/-- `request_finish`: a stop is accepted once, while the session records. -/
def acceptFinish : Section (Bool × RecordingSessionMeta) := .reading fun w =>
  if w.st.info.state ≠ .recording then .give (false, w.st.info)
  else
    .change (fun w => w.freeze.finalizing) >>= fun _ =>
    persist >>= fun _ => .reading fun w => .give (true, w.st.info)

/-- The segment alone ends here, the session goes on. -/
def boundary (reason : SegmentReason) : Section Unit := whileRecording fun _ =>
  segmentBoundary sha256 reason

end Gamer.Recording.Service
