import Gamer.Core.Json
import Gamer.Lib.Crash
import Gamer.Lib.Decimal
import Gamer.Lib.Lines
import Gamer.Lib.Table
import Gamer.Recording.Writer

/-! A recording session: its state under the lock, what it has on disk, and the sections of the
    code that run under that lock. Events are appended to their files at once, the session's own
    record is written out only now and then, in two copies:

        emit ─▶ events-NNNN.jsonl          persist ─▶ recording/session.json
                                                   ─▶ .recording-history/<id>/session.json   -/

namespace Gamer.Recording.Service
open Gamer.Lib Gamer.Lib.Prog Gamer.Core

inductive RecordingState where
  | recording
  | finalizing
  | completed
  | interrupted
  | failed
  | cancelled
  deriving DecidableEq

/-- Not `Recording` and not `Finalizing`. -/
def RecordingState.terminal : RecordingState → Bool
  | .recording | .finalizing => false
  | _ => true

inductive SegmentReason where
  | normal
  | disconnect
  | codecChange
  | diskPressure
  deriving DecidableEq

structure SegmentMeta where
  mediaId : String
  startUs : Nat
  durationUs : Nat
  basePtsUs : Nat
  reason : SegmentReason
  deriving DecidableEq

structure RecordingSessionMeta where
  id : String
  deviceId : String
  state : RecordingState
  startedAt : String
  endedAt : Option String
  segments : List SegmentMeta
  eventCount : Nat
  evidenceIssues : List String
  error : Option String
  deriving DecidableEq

structure DisplaySize where
  width : Nat
  height : Nat

structure InputEventRecord where
  schemaVersion : Nat
  eventId : String
  operationId : String
  sessionId : String
  source : String
  kind : String
  timelineUs : Nat
  timeDomain : String
  coordinateSpace : String
  displaySize : DisplaySize
  payload : Json
  status : String

def tapMaxDrift : Nat := 8
def eventsFileMaxLines : Nat := 20000
def maxSessionBytes : Nat := 4 * 1024 * 1024 * 1024
def minFreeBytes : Nat := 1024 * 1024 * 1024
def maxActiveGestures : Nat := 64

def touchDown : Nat := 0
def touchUp : Nat := 1
def keyDown : Nat := 0
def keyUp : Nat := 1

structure TouchGesture where
  x0 : Nat
  y0 : Nat
  lastX : Nat
  lastY : Nat
  downUs : Nat
  operationId : String
  maxDrift : Nat
  unsupported : Bool
  points : List (Nat × Nat × Nat)

structure KeyPending where
  downUs : Nat
  operationId : String

structure SegmentWriter where
  mediaId : String
  name : String
  startUs : Nat
  basePts : Nat
  lastRawPts : Nat
  frames : Nat
  writer : Writer

structure BrowserRecording where
  ffmpeg : String
  frames : List Nat

structure EventLog where
  file : Option Nat
  fileSeq : Nat
  lines : Nat

structure SessionState where
  info : RecordingSessionMeta
  stoppedUs : Option Nat
  width : Nat
  height : Nat
  assetBaseName : String
  current : Option SegmentWriter
  browser : Option BrowserRecording
  pendingConfig : Option Bytes
  events : EventLog
  droppedFrames : Nat
  writtenBytes : Nat
  segmentSeq : Nat
  opCounter : Nat
  evtCounter : Nat
  touch : Table Nat TouchGesture
  keys : Table Nat KeyPending
  namedKeys : Table String KeyPending
  framesSinceSpaceCheck : Nat

/-- What is on disk under the session's id. Writes of a copy replace it at once. -/
structure Disk where
  sessionJson : Option RecordingSessionMeta
  archiveJson : Option RecordingSessionMeta
  eventSource : Option String
  eventFiles : Table Nat (List (Piece InputEventRecord))

/-- How the segments that were opened ended: in the list, or as an issue with this text. -/
inductive SegmentEnd where
  | listed
  | issue (text : String)
  deriving DecidableEq

/-- A session in the process that records it. `now` and `source` are the clock since the start and
    the input source of the task that holds the lock; `emitted`, `opened` and `closed` are no data
    of the code but the record of what it did. -/
structure World where
  id : String
  deviceId : String
  /-- The name of the main media directory. -/
  dir : String
  st : SessionState
  stopping : Bool
  encodingCancelled : Bool
  activeByDevice : Table String String
  disk : Disk
  now : Nat
  source : String
  emitted : List InputEventRecord
  opened : List String
  closed : List (String × SegmentEnd)

/-- What a `write_all` that fails leaves at the end of the file. -/
inductive Torn where
  | nothing
  | fragment
  | text
  deriving DecidableEq

/-- What the file system and the clock answer to one effect. -/
structure Answer where
  opens : Bool
  works : Bool
  torn : Torn
  fault : Option Nat
  error : String
  fresh : String
  freeBytes : Option Nat

abbrev Section (α : Type) := Prog Answer World α

namespace World

def elapsedUs (w : World) : Nat := w.st.stoppedUs.getD w.now

def setState (w : World) (st : SessionState) : World := { w with st := st }

def setMeta (w : World) (info : RecordingSessionMeta) : World := { w with st := { w.st with info := info } }

end World

/-! ### Events -/

def SessionState.addIssue (st : SessionState) (issue : String) : SessionState :=
  if st.info.evidenceIssues.length < 64 ∧ issue ∉ st.info.evidenceIssues then
    { st with info := { st.info with evidenceIssues := st.info.evidenceIssues ++ [issue] } }
  else st

def World.evidenceIssue (w : World) (issue : String) : World := w.setState (w.st.addIssue issue)

/-- The file with these pieces behind what it had. -/
def Disk.append (d : Disk) (seq : Nat) (pieces : List (Piece InputEventRecord)) : Disk :=
  { d with eventFiles := d.eventFiles.modify seq (· ++ pieces) }

/-- `create(true).append(true)`: a file that is there stays as it is. -/
def Disk.openFile (d : Disk) (seq : Nat) : Disk :=
  match d.eventFiles.get seq with
  | some _ => d
  | none => { d with eventFiles := d.eventFiles.set seq [] }

/-- The next file, where there is none or it is full. -/
def EventLog.roll (log : EventLog) (a : Answer) (d : Disk) : EventLog × Disk × Bool :=
  if log.file.isNone ∨ eventsFileMaxLines ≤ log.lines then
    let seq := log.fileSeq + 1
    if a.opens then (⟨some seq, seq, 0⟩, d.openFile seq, true)
    else ({ log with fileSeq := seq }, d, false)
  else (log, d, true)

def Torn.pieces (record : InputEventRecord) : Torn → List (Piece InputEventRecord)
  | .nothing => []
  | .fragment => [.fragment]
  | .text => [.record record]

def EventLog.append (log : EventLog) (a : Answer) (d : Disk) (record : InputEventRecord) :
    EventLog × Disk × Except String Unit :=
  match log.roll a d with
  | (log, d, false) => (log, d, .error a.error)
  | (log, d, true) =>
    match log.file with
    | none => (log, d, .error "event file unavailable")
    | some seq =>
      if a.works then
        ({ log with lines := log.lines + 1 }, d.append seq [.record record, .newline], .ok ())
      else (log, d.append seq (a.torn.pieces record), .error a.error)

def eventId (n : Nat) : String := "evt-" ++ padded 9 n

/-- The next event of the session. -/
def World.record (w : World) (kind : String) (payload : Json) (timelineUs : Nat)
    (operationId : String) : InputEventRecord where
  schemaVersion := 1
  eventId := eventId (w.st.evtCounter + 1)
  operationId := operationId
  sessionId := w.id
  source := w.source
  kind := kind
  timelineUs := timelineUs
  timeDomain := "recording"
  coordinateSpace := "device-display"
  displaySize := ⟨w.st.width, w.st.height⟩
  payload := payload
  status := "accepted"

/-- One event more, with the files as the append left them. -/
def World.withEvent (w : World) (record : InputEventRecord) (events : EventLog) (disk : Disk) :
    World :=
  { w with
    st := { w.st with
      evtCounter := w.st.evtCounter + 1
      info := { w.st.info with eventCount := w.st.info.eventCount + 1 }
      events := events }
    disk := disk
    emitted := w.emitted ++ [record] }

/-- A write that failed is an issue of the session. -/
def World.appended (w : World) (record : InputEventRecord) :
    EventLog × Disk × Except String Unit → World
  | (events, disk, .ok ()) => w.withEvent record events disk
  | (events, disk, .error e) =>
    (w.withEvent record events disk).evidenceIssue ("event_write_failed: " ++ e)

def emit (kind : String) (payload : Json) (timelineUs : Nat) (operationId : String) : Section Unit :=
  .effect fun a w =>
    let record := w.record kind payload timelineUs operationId
    ((), w.appended record (w.st.events.append a w.disk record))

/-- `next_op`: the operation's name is taken, and the rest goes on with it. -/
def nextOp (k : String → Section Unit) : Section Unit := .reading fun w =>
  let op := w.st.opCounter + 1
  .change (fun w => w.setState { w.st with opCounter := op }) >>= fun _ => k ("op-" ++ padded 9 op)

/-! ### The session's own record -/

/-- Two copies and the note where the events are. No failure stops it. -/
def persist : Section Unit :=
  .effect (fun a w => ((), if a.works then
    { w with disk := { w.disk with sessionJson := some w.st.info } } else w)) >>= fun _ =>
  .effect (fun a w => (a.opens, if a.opens ∧ a.works then
    { w with disk := { w.disk with archiveJson := some w.st.info } } else w)) >>= fun made =>
  .effect fun a w => ((), if made ∧ a.works then
    { w with disk := { w.disk with eventSource := some w.dir } } else w)

end Gamer.Recording.Service
