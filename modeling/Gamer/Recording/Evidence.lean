import Gamer.Lib.Machine
import Gamer.Recording.Ending

/-! What `events` returns. A call takes the session's record from memory, or after a restart from a
    copy on disk, and then reads the event files; the record says how many events there must be and
    whether a write failed. The copies are older than the files:

        emit ─▶ files         lost ⟺ not in the files
        persist ─▶ copy       crash ─▶ the copy is all that tells of a loss                   -/

namespace Gamer.Recording.Service
open Gamer.Lib Gamer.Lib.Prog Gamer.Core
variable (sha256 : Bytes → String)

/-! ### Reading -/

def eventFileName (seq : Nat) : String := "events-" ++ padded 4 seq ++ ".jsonl"

/-- The texts of the event files, in the order of their names. -/
def Disk.texts (d : Disk) : List (List (Piece InputEventRecord)) :=
  (d.eventFiles.entries.mergeSort fun a b => eventFileName a.1 ≤ eventFileName b.1).map (·.2)

/-- One line after the other. -/
def collectLines : List InputEventRecord → List (List (Piece InputEventRecord)) →
    Except String (List InputEventRecord)
  | out, [] => .ok out
  | out, line :: rest =>
    match Piece.parse line with
    | none => .error "recording_events_corrupt"
    | some record =>
      if record.eventId ∈ out.map (·.eventId) then
        .error "recording_events_corrupt: duplicate event id"
      else collectLines (out ++ [record]) rest

/-- A directory that is not there has no events. -/
def readEventsChecked (dir mediaDir : String) (d : Disk) : Except String (List InputEventRecord) :=
  if mediaDir ≠ dir then .ok []
  else (collectLines [] (d.texts.flatMap Piece.lines)).map fun out =>
    out.mergeSort fun a b => a.timelineUs ≤ b.timelineUs

/-- A call of `events` that has the session's record. `before` is no data of the code but what the
    session had emitted when the call began. -/
structure Reader where
  info : RecordingSessionMeta
  mediaDir : String
  before : List InputEventRecord

def RecordingSessionMeta.tellsOfFailedWrite (info : RecordingSessionMeta) : Bool :=
  info.evidenceIssues.any fun issue => "event_write_failed".toList.isPrefixOf issue.toList

def Reader.read (r : Reader) (dir : String) (d : Disk) : Except String (List InputEventRecord) :=
  match readEventsChecked dir r.mediaDir d with
  | .error e => .error e
  | .ok events =>
    if events.length < r.info.eventCount then
      .error "recording_events_missing: 录制事件缺失或写入失败"
    else if r.info.tellsOfFailedWrite then .error "recording_events_missing: 事件写入失败"
    else .ok events

/-! ### Recovery -/

def validName (name : String) : Bool :=
  name ≠ "" && name.toList.all fun c => c.isAlphanum || c = '-' || c = '_'

/-- A session that was going on when the process died. -/
def RecordingSessionMeta.recovered (info : RecordingSessionMeta) (endedAt : String) :
    RecordingSessionMeta :=
  if info.state.terminal then info
  else { info with
    state := .interrupted
    endedAt := some endedAt
    error := some "服务重启导致录制中断（已收口部分保留）" }

/-- A copy of a session that was going on is written again; a failure is no error. -/
def Disk.recoverSession (d : Disk) (info : RecordingSessionMeta) (a : Answer) : Disk :=
  if !info.state.terminal ∧ a.works then { d with sessionJson := some (info.recovered a.fresh) }
  else d

def Disk.recoverArchive (d : Disk) (info : RecordingSessionMeta) (a : Answer) : Disk :=
  if !info.state.terminal ∧ a.opens then { d with archiveJson := some (info.recovered a.fresh) }
  else d

/-- The copy in the session's own directory. -/
def scanMedia (id dir : String) (a : Answer) (d : Disk) :
    Option (RecordingSessionMeta × String) × Disk :=
  match d.sessionJson with
  | none => (none, d)
  | some info =>
    if info.id ≠ id then (none, d)
    else (some (info.recovered a.fresh, dir), d.recoverSession info a)

/-- The archived copy first. -/
def loadFromDisk (id dir : String) (a : Answer) (d : Disk) :
    Option (RecordingSessionMeta × String) × Disk :=
  if !validName id then (none, d)
  else
    match d.archiveJson with
    | none => scanMedia id dir a d
    | some info =>
      if info.id ≠ id then scanMedia id dir a d
      else
        match d.eventSource with
        | none => scanMedia id dir a (d.recoverArchive info a)
        | some source =>
          if validName source then
            (some (info.recovered a.fresh, source), d.recoverArchive info a)
          else scanMedia id dir a (d.recoverArchive info a)

/-! ### The session over its whole life -/

/-- A session in the process that records it, or what a crash has left of it. -/
inductive Process where
  | running (w : World)
  | restarted (id dir : String) (disk : Disk) (emitted : List InputEventRecord)

def Process.dir : Process → String
  | .running w => w.dir
  | .restarted _ dir _ _ => dir

def Process.disk : Process → Disk
  | .running w => w.disk
  | .restarted _ _ disk _ => disk

def Process.emitted : Process → List InputEventRecord
  | .running w => w.emitted
  | .restarted _ _ _ emitted => emitted

structure Life where
  process : Process
  readers : List Reader

/-- The sections that run under the session's lock. -/
inductive Op where
  | persist
  | observe (input : Input)
  | feedFrame (frame : VideoFrame)
  | noteDropped (n : Nat)
  | collectFrame (bytes : Nat)
  | boundary (reason : SegmentReason)
  | takeBrowser
  | putBrowser (result : Except String (Option SegmentMeta)) (target : RecordingState)
      (reason : SegmentReason) (error : Option String)
  | finalizeWith (target : RecordingState) (reason : SegmentReason) (error : Option String)
  | acceptFinish

def Op.run : Op → Section Unit
  | .persist => Service.persist
  | .observe input => Service.observe input
  | .feedFrame frame => Service.feedFrame sha256 frame
  | .noteDropped n => Service.noteDropped n
  | .collectFrame bytes => Service.collectFrame bytes >>= fun _ => .give ()
  | .boundary reason => Service.boundary sha256 reason
  | .takeBrowser => Service.takeBrowser >>= fun _ => .give ()
  | .putBrowser result target reason error =>
    Service.putBrowser sha256 result target reason error >>= fun _ => .give ()
  | .finalizeWith target reason error =>
    Service.finalizeWith sha256 target reason error >>= fun _ => .give ()
  | .acceptFinish => Service.acceptFinish >>= fun _ => .give ()

/-- The process is gone, and what was in memory with it. -/
def World.crash (w : World) : Process := .restarted w.id w.dir w.disk w.emitted

inductive Act where
  | section_ (now : Nat) (source : String) (op : Op) (tape : List Answer)
  | crash
  | events (a : Answer)

/-- A section may be cut off by a crash; a call of `events` begins with the session's record. -/
def step (l : Life) : Act → Option Life
  | .section_ now source op tape =>
    match l.process with
    | .restarted .. => none
    | .running w =>
      match op.run sha256 tape { w with now := now, source := source } with
      | .cut w => some ⟨w.crash, []⟩
      | .done _ w _ => some ⟨.running w, l.readers⟩
  | .crash =>
    match l.process with
    | .restarted .. => none
    | .running w => some ⟨w.crash, []⟩
  | .events a =>
    match l.process with
    | .running w => some ⟨l.process, ⟨w.st.info, w.dir, w.emitted⟩ :: l.readers⟩
    | .restarted id dir disk emitted =>
      match loadFromDisk id dir a disk with
      | (none, disk) => some ⟨.restarted id dir disk emitted, l.readers⟩
      | (some (info, mediaDir), disk) =>
        some ⟨.restarted id dir disk emitted, ⟨info, mediaDir, emitted⟩ :: l.readers⟩

/-- What `start` makes of a new recording. -/
def World.start (id deviceId dir startedAt assetBaseName : String) (width height : Nat)
    (ffmpeg : Option String) : World where
  id := id
  deviceId := deviceId
  dir := dir
  st :=
    { info := ⟨id, deviceId, .recording, startedAt, none, [], 0, [], none⟩
      stoppedUs := none
      width := width
      height := height
      assetBaseName := assetBaseName
      current := none
      browser := ffmpeg.map fun path => ⟨path, []⟩
      pendingConfig := none
      events := ⟨none, 0, 0⟩
      droppedFrames := 0
      writtenBytes := 0
      segmentSeq := 0
      opCounter := 0
      evtCounter := 0
      touch := ∅
      keys := ∅
      namedKeys := ∅
      framesSinceSpaceCheck := 0 }
  stopping := false
  encodingCancelled := false
  activeByDevice := (∅ : Table String String).set deviceId id
  disk := ⟨none, none, none, ∅⟩
  now := 0
  source := "manual"
  emitted := []
  opened := []
  closed := []

/-! ### What the files have of the events -/

def Disk.records (d : Disk) : List InputEventRecord :=
  d.eventFiles.entries.flatMap fun file => Piece.records file.2

/-- Every line of every file is one record. -/
def Disk.Whole (d : Disk) : Prop := ∀ file ∈ d.eventFiles.entries, Piece.Whole file.2

/-- How many events are in no file. -/
def Process.lost (p : Process) : Nat := p.emitted.length - p.disk.records.length

end Gamer.Recording.Service
