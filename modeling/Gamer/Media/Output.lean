import Mathlib.Data.List.Basic
import Gamer.Lib.Machine

/-! Live output. One worker feeds an encoder from the active source; a switch prepares the next
    source, sends it to the worker with a reply channel and waits for the reply:

        switch    preparing ─▶ sending ─▶ waiting ─▶ ended
                                  │          ▲
        queue                     └─▶ [cmd]  │ reply
                                        │    │
        worker    opening ─▶ header ─▶ pumping ─▶ fitting ─▶ writing ─▶ pumping
                     ▲                    │
                     └──── backing off ◀──┘                                                       -/

namespace Gamer.Media.Live
open Gamer.Lib Gamer.Lib.Machine

/-- What a source shows: a device, or the video folder of the output. -/
structure Target where
  deviceId : String
  folder : Bool
  deriving DecidableEq, Repr

structure Source where
  target : Target
  /-- It has been told to stop. -/
  told : Bool := false
  deriving DecidableEq, Repr

inductive CallStage where
  | preparing
  | sending (source : Nat)
  | waiting (source : Nat)
  /-- The call has returned or was dropped; `source` is what it had prepared. -/
  | ended (source : Option Nat) (ok : Bool)
  deriving DecidableEq, Repr

/-- A call of `switch_device` or `switch_video_folder`. -/
structure Call where
  target : Target
  stage : CallStage
  deriving DecidableEq, Repr

def Call.isEnded (c : Call) : Bool :=
  match c.stage with
  | .ended _ _ => true
  | _ => false

structure SwitchCommand where
  source : Nat
  /-- The call that waits for the reply. -/
  reply : Nat
  deriving DecidableEq, Repr

/-- A run of `pump`: its source, and the reply that the first frame is to answer. -/
structure Pump where
  attempt : Nat
  source : Nat
  initialReply : Option Nat
  deriving DecidableEq, Repr

inductive Stage where
  /-- At the head of the loop; `prepared` is a source that came during the back-off. -/
  | turning (attempt : Nat) (prepared : Option (Nat × Option Nat))
  | preparing (attempt : Nat)
  | opening (p : Pump)
  | writingHeader (p : Pump)
  | pumping (p : Pump)
  | rendering (p : Pump)
  | fitting (p : Pump) (next : SwitchCommand)
  | writing (p : Pump) (next : SwitchCommand)
  /-- `pump` waits for its old sources and its process. -/
  | closing (attempt : Nat) (ok : Bool)
  | backingOff (attempt : Nat)
  | ended
  deriving DecidableEq, Repr

/-- A source becomes the active one. -/
structure Activation where
  source : Nat
  /-- Its call had ended before. -/
  late : Bool
  deriving DecidableEq, Repr

structure OutputHandle where
  /-- `device_id` and `source_kind` of the status. -/
  status : Target
  sources : List Source
  calls : List Call := []
  queue : List SwitchCommand := []
  stage : Stage
  active : Option Nat := none
  stopped : Bool := false
  activations : List Activation := []
  deriving DecidableEq, Repr

/-- What the worker meets where it waits. -/
inductive Event where
  | ok
  /-- The command is refused: its source has failed, or its frame does not fit. -/
  | refuse
  | fail
  /-- A command is received. -/
  | take
  /-- The video clock. -/
  | tick
  | stop
  deriving DecidableEq, Repr

inductive Move where
  | switch (target : Target)
  | prepared (call : Nat) (ok : Bool)
  | send (call : Nat)
  /-- The call's timer is over, or its future is dropped. -/
  | giveUp (call : Nat)
  | stop
  /-- `stop` gives up on the worker and aborts it. -/
  | abort
  | work (event : Event)
  deriving DecidableEq, Repr

namespace OutputHandle

/-- `reply.is_closed()`. -/
def closed (s : OutputHandle) (call : Nat) : Bool := s.calls[call]?.any (·.isEnded)

/-- The source is told to stop, by `stop` or by its destructor. -/
def tell (s : OutputHandle) (x : Nat) : OutputHandle :=
  { s with sources := s.sources.modify x fun src => { src with told := true } }

def setCall (s : OutputHandle) (c : Nat) (stage : CallStage) : OutputHandle :=
  { s with calls := s.calls.modify c fun call => { call with stage := stage } }

/-- `reply.send`, and the destructor of a reply that was not sent. -/
def answer (s : OutputHandle) (c : Nat) (ok : Bool) : OutputHandle :=
  match s.calls[c]? with
  | some ⟨_, .waiting x⟩ => s.setCall c (.ended (some x) ok)
  | _ => s

def answerAny (s : OutputHandle) (reply : Option Nat) (ok : Bool) : OutputHandle :=
  match reply with
  | some c => s.answer c ok
  | none => s

/-- A command is dropped with its source. -/
def discard (s : OutputHandle) (cmd : SwitchCommand) : OutputHandle :=
  (s.tell cmd.source).answer cmd.reply false

/-- The worker's task is over, and its end of the queue is dropped. -/
def finish (s : OutputHandle) : OutputHandle :=
  { s.queue.foldl discard s with queue := [], stage := .ended, stopped := true }

/-- The encoder's run is over. -/
def endPump (s : OutputHandle) (p : Pump) (ok : Bool) : OutputHandle :=
  { (s.tell p.source).answerAny p.initialReply false with
    active := none
    stage := .closing p.attempt ok }

/-- The header is written: the source becomes the active one. -/
def activate (s : OutputHandle) (p : Pump) : OutputHandle :=
  { s with
    active := some p.source
    activations := ⟨p.source, p.initialReply.any s.closed⟩ :: s.activations
    stage := .pumping p }

/-- What `update_status` takes from a source. -/
def statusOf (s : OutputHandle) (x : Nat) : Target := (s.sources[x]?.map (·.target)).getD s.status

/-- The next turn of the loop over the attempts `0..=5`. -/
def turn (s : OutputHandle) (attempt : Nat) (prepared : Option (Nat × Option Nat)) : OutputHandle :=
  if attempt < 5 then { s with stage := .turning (attempt + 1) prepared } else s.finish

/-- The worker, at the head of its loop. -/
def head (s : OutputHandle) (attempt : Nat) (prepared : Option (Nat × Option Nat)) : OutputHandle :=
  match prepared with
  | some (x, reply) =>
    if s.stopped then ((s.tell x).answerAny reply false).finish
    else { s with stage := .opening ⟨attempt, x, reply⟩ }
  | none => if s.stopped then s.finish else { s with stage := .preparing attempt }

/-- `prepare_source`, for what the status shows. -/
def prepareSource (s : OutputHandle) (attempt : Nat) : OutputHandle :=
  { s with
    sources := s.sources ++ [{ target := s.status }]
    stage := .opening ⟨attempt, s.sources.length, none⟩ }

/-- A closed command is received while no encoder runs. -/
def skip (s : OutputHandle) (attempt : Nat) (cmd : SwitchCommand) (queue : List SwitchCommand) :
    OutputHandle :=
  { s.discard cmd with queue := queue }.turn attempt none

/-- A command is received before the source of the next run is there: it takes its place. -/
def takePreparing (s : OutputHandle) (attempt : Nat) : Option OutputHandle :=
  match s.queue with
  | [] => none
  | cmd :: queue =>
    some (if s.closed cmd.reply then s.skip attempt cmd queue
      else { s with queue := queue, stage := .opening ⟨attempt, cmd.source, some cmd.reply⟩ })

/-- A command is received in the back-off. -/
def takeBackingOff (s : OutputHandle) (attempt : Nat) : Option OutputHandle :=
  match s.queue with
  | [] => none
  | cmd :: queue =>
    some (if s.closed cmd.reply then s.skip attempt cmd queue
      else { s with
        queue := queue
        stage := .turning (attempt + 1) (some (cmd.source, some cmd.reply)) })

/-- A command is received by the pump. -/
def takePumping (s : OutputHandle) (p : Pump) : Option OutputHandle :=
  match s.queue with
  | [] => none
  | cmd :: queue =>
    some (if s.closed cmd.reply then { s.discard cmd with queue := queue }
      else { s with queue := queue, stage := .fitting p cmd })

/-- The packet of the new source is written: it replaces the old one. -/
def replaced (s : OutputHandle) (p : Pump) (cmd : SwitchCommand) : OutputHandle :=
  { s.tell p.source with
    active := some cmd.source
    activations := ⟨cmd.source, s.closed cmd.reply⟩ :: s.activations
    status := s.statusOf cmd.source
    stage := .pumping { p with source := cmd.source } }

def swap (s : OutputHandle) (p : Pump) (cmd : SwitchCommand) : OutputHandle :=
  (s.replaced p cmd).answer cmd.reply true

/-- The frame is written; the first one answers the call that the encoder was started for. -/
def rendered (s : OutputHandle) (p : Pump) : OutputHandle :=
  { s.answerAny p.initialReply true with
    status := s.statusOf p.source
    stage := .pumping { p with initialReply := none } }

/-- A step of the worker. -/
def work (s : OutputHandle) (e : Event) : Option OutputHandle :=
  match s.stage, e with
  | .turning attempt prepared, .ok => some (s.head attempt prepared)
  | .preparing attempt, .ok => some (s.prepareSource attempt)
  | .preparing attempt, .fail => some { s with stage := .closing attempt false }
  | .preparing attempt, .take => s.takePreparing attempt
  | .preparing _, .stop => if s.stopped then some s.finish else none
  | .opening p, .ok =>
    if p.initialReply.any s.closed then some (s.endPump p false)
    else some { s with stage := .writingHeader p }
  | .opening p, .fail => some (s.endPump p false)
  | .writingHeader p, .ok => some (s.activate p)
  | .writingHeader p, .fail => some (s.endPump p false)
  | .pumping p, .tick =>
    if p.initialReply.any s.closed then some (s.endPump p false)
    else some { s with stage := .rendering p }
  | .pumping p, .take => s.takePumping p
  | .pumping p, .fail => some (s.endPump p false)
  | .pumping p, .stop => if s.stopped then some (s.endPump p true) else none
  | .rendering p, .ok => some (s.rendered p)
  | .rendering p, .fail => some (s.endPump p false)
  | .fitting p cmd, .ok =>
    if s.closed cmd.reply then some { s.discard cmd with stage := .pumping p }
    else some { s with stage := .writing p cmd }
  | .fitting p cmd, .refuse => some { s.discard cmd with stage := .pumping p }
  | .fitting p cmd, .fail => some ((s.discard cmd).endPump p false)
  | .writing p cmd, .ok => some (s.swap p cmd)
  | .writing p cmd, .fail => some ((s.discard cmd).endPump p false)
  | .closing attempt ok, .ok =>
    if s.stopped || ok || attempt = 5 then some s.finish
    else some { s with stage := .backingOff attempt }
  | .backingOff attempt, .ok => some (s.turn attempt none)
  | .backingOff attempt, .take => s.takeBackingOff attempt
  | .backingOff _, .stop => if s.stopped then some s.finish else none
  | _, _ => none

/-- The worker is aborted: all that it has in hand is dropped. -/
def abort (s : OutputHandle) : OutputHandle :=
  match s.stage with
  | .turning _ (some (x, reply)) => ((s.tell x).answerAny reply false).finish
  | .opening p | .writingHeader p | .pumping p | .rendering p => (s.endPump p false).finish
  | .fitting p cmd | .writing p cmd => ((s.discard cmd).endPump p false).finish
  | _ => s.finish

/-! ### The calls -/

/-- The switch gate is taken. -/
def switching (s : OutputHandle) : Bool := s.calls.any fun c => !c.isEnded

/-- The status shows the target already. -/
def shows (s : OutputHandle) (target : Target) : Bool :=
  s.status.folder = target.folder ∧ (target.folder ∨ s.status.deviceId = target.deviceId)

/-- `switch_device` and `switch_video_folder` up to the preparation. -/
def switch (s : OutputHandle) (target : Target) : Option OutputHandle :=
  if s.switching then none
  else
    let stage : CallStage :=
      if s.stopped then .ended none false
      else if s.shows target then .ended none true
      else .preparing
    some { s with calls := s.calls ++ [⟨target, stage⟩] }

/-- The source of the call is prepared, or is not. -/
def prepared (s : OutputHandle) (c : Nat) (ok : Bool) (call : Call) : Option OutputHandle :=
  match call.stage with
  | .preparing =>
    if ok then
      some { s.setCall c (.sending s.sources.length) with
        sources := s.sources ++ [{ target := call.target }] }
    else some (s.setCall c (.ended none false))
  | _ => none

/-- `commit_source` up to its wait: the queue has four places. -/
def send (s : OutputHandle) (c : Nat) (call : Call) : Option OutputHandle :=
  match call.stage with
  | .sending x =>
    if s.stage = .ended then some ((s.tell x).setCall c (.ended (some x) false))
    else if s.queue.length < 4 then
      some { s.setCall c (.waiting x) with queue := s.queue ++ [⟨x, c⟩] }
    else none
  | _ => none

def giveUp (s : OutputHandle) (c : Nat) (call : Call) : Option OutputHandle :=
  match call.stage with
  | .preparing => some (s.setCall c (.ended none false))
  | .sending x => some ((s.tell x).setCall c (.ended (some x) false))
  | .waiting x => some (s.setCall c (.ended (some x) false))
  | .ended _ _ => none

def step (s : OutputHandle) : Move → Option OutputHandle
  | .switch target => s.switch target
  | .prepared c ok => s.calls[c]?.bind (s.prepared c ok)
  | .send c => s.calls[c]?.bind (s.send c)
  | .giveUp c => s.calls[c]?.bind (s.giveUp c)
  | .stop => some { s with stopped := true }
  | .abort => if s.stopped then some s.abort else none
  | .work e => s.work e

/-- The output has been started with a prepared source. -/
def start (target : Target) : OutputHandle :=
  { status := target, sources := [{ target := target }], stage := .turning 0 (some (0, none)) }

end OutputHandle

end Gamer.Media.Live
