import Gamer.Webrtc.Frames

/-! The pusher of one viewer (`spawn_pusher`): the replay of the initial GOP, the trimming of the
    queue and the send loop.

        subscribe ─▶ snapshot ─▶ start (replay) ─▶ iterate ─▶ iterate ─▶ ⋯ ─▶ stop
                        ▲│                          drain, then send or repeat
                        └┘ until it has a key frame

    One iteration of the loop is one move: what it drains is its own, and nothing else reads or
    writes what it changes. What the peer and the transport answer is part of the move. -/

namespace Gamer.Webrtc
open Gamer.Lib

/-! ### Writing packets -/

/-- The outcome of one `write_rtp`: the bytes written (none before SRTP is ready), or an error or
    timeout. -/
inductive Write where
  | bytes (n : Nat)
  | failed
  deriving DecidableEq, Repr

/-- Writes the packets of a frame until one fails. -/
def writePackets : List Write → Nat → Bool × Nat
  | [], written => (true, written)
  | .bytes n :: rest, written => writePackets rest (written + n)
  | .failed :: _, written => (false, written)

/-- `push_rtp`: whether to go on, and the bytes written. The payloader makes the packets, or
    fails. -/
def pushRtp : Option (List Write) → Bool × Nat
  | none => (true, 0)
  | some packets => writePackets packets 0

/-- There were packets and all of them were written. -/
def allWritten (packets : List Write) : Bool :=
  !packets.isEmpty && packets.all fun
    | .bytes n => n > 0
    | .failed => false

/-- `send_config_nalus`: whether no packet failed; one packet for each SPS/PPS unit. -/
def sendConfigNalus (packets : List Write) : Bool := packets.all fun w => w != .failed

/-- What one frame meets on its turn. -/
structure Turn where
  connected : Bool
  config : List Write
  payload : Option (List Write)
  deriving DecidableEq, Repr

/-- All packets of the frame were written. -/
def Turn.whole (t : Turn) : Bool := t.payload.any allWritten

/-- Some packet of the frame was written. -/
def Turn.wrote (t : Turn) : Bool := (pushRtp t.payload).2 > 0

/-- No packet of the frame failed. -/
def Turn.goesOn (t : Turn) : Bool := (pushRtp t.payload).1

/-- The turns of the frames behind the first. -/
def later (turns : Nat → Turn) : Nat → Turn := fun i => turns (i + 1)

abbrev Wire := List (Chain.Entry Emitted Bytes)

/-- The wire after the packets of a config frame. -/
def Wire.config (wire : Wire) (data : Bytes) (t : Turn) : Wire :=
  if allWritten t.config then .header data :: wire else wire

/-- The wire after the packets of a frame. -/
def Wire.frame (wire : Wire) (f : Emitted) (t : Turn) : Wire :=
  if t.wrote then .item f t.whole :: wire else wire

/-! ### The state of the pusher -/

structure Pusher where
  waitingKey : Bool := false
  pendingConfig : Bool := false
  configNalu : Option Bytes := none
  lastSent : Option Emitted := none
  wire : Wire := []
  deriving DecidableEq, Repr

/-! ### Initial replay -/

/-- One attempt to replay the initial frames. -/
structure Attempt where
  ok : Bool := true
  written : Nat := 0
  hadKey : Bool := false
  lastSent : Option Emitted := none
  wire : Wire := []
  deriving DecidableEq, Repr

def Attempt.replay : List Emitted → (Nat → Turn) → Attempt → Attempt
  | [], _, a => a
  | f :: fs, turns, a =>
    let t := turns 0
    if f.isConfig then
      let a := { a with wire := a.wire.config f.data t }
      if sendConfigNalus t.config then replay fs (later turns) a else { a with ok := false }
    else
      let a := { a with
        hadKey := a.hadKey || f.isKeyframe
        written := a.written + (pushRtp t.payload).2
        wire := a.wire.frame f t }
      if t.goesOn then replay fs (later turns) { a with lastSent := some f }
      else { a with ok := false }

/-- The attempts to replay the initial frames, and whether the last one wrote anything. -/
def Attempt.retry (frames : List Emitted) : Nat → (Nat → Nat → Turn) → Attempt → Bool × Attempt
  | 0, _, a => (false, a)
  | n + 1, attempts, a =>
    let a := replay frames (attempts 0) { a with ok := true, written := 0 }
    if !a.ok then (false, a)
    else if a.written > 0 || frames.isEmpty then (true, a)
    else retry frames n (fun i => attempts (i + 1)) a

def REPLAY_ATTEMPTS : Nat := 3

/-- The config frame among the initial frames, which `ViewerSession::create` keeps. -/
def configOf (initial : Option (List Emitted)) : Option Bytes :=
  initial.bind fun frames => (frames.find? fun f => f.isConfig).map fun f => f.data

/-- The pusher as it enters its loop. -/
def Pusher.start (initial : Option (List Emitted)) (attempts : Nat → Nat → Turn) : Pusher :=
  let p : Pusher := { configNalu := configOf initial }
  match initial with
  | none => p
  | some frames =>
    let (replayOk, a) := Attempt.retry frames REPLAY_ATTEMPTS attempts {}
    { p with waitingKey := !replayOk || !a.hadKey, lastSent := a.lastSent, wire := a.wire }

/-! ### Draining the queue -/

inductive PusherDrainDecision where
  | drainAll
  | drainToKeyframe (dropPrefix : Nat) (requestIdr : Bool)
  | keep
  deriving DecidableEq, Repr

def decidePusherDrain (queueLen backlogLimit : Nat) (overflowed waitingKey : Bool)
    (keyframeIndex : Option Nat) : PusherDrainDecision :=
  if overflowed then .drainAll
  else if waitingKey then
    match keyframeIndex with
    | some ki => .drainToKeyframe ki false
    | none => .drainAll
  else if queueLen > backlogLimit then
    match keyframeIndex with
    | some 0 => .keep
    | some ki => .drainToKeyframe ki false
    | none => .drainAll
  else .keep

/-- About one second of frames. -/
def backlogLimit (minFrameIntervalMs : Nat) : Nat :=
  if minFrameIntervalMs = 0 then 60 else max (1000 / minFrameIntervalMs) 60

/-- The newest config frame of the queue, or else the one already known. -/
def lastConfig (known : Option Bytes) : List Emitted → Option Bytes
  | [] => known
  | f :: fs => lastConfig (if f.isConfig then some f.data else known) fs

/-- What the pusher decides about a queue from which the config frames have been taken. -/
def Pusher.decision (p : Pusher) (limit : Nat) (overflowed : Bool) (q : List Emitted) :
    PusherDrainDecision :=
  let keyframeIndex := q.findIdx? fun f => f.isKeyframe
  let decision := if overflowed then .drainAll
    else decidePusherDrain q.length limit false p.waitingKey keyframeIndex
  match decision, keyframeIndex with
  | .drainAll, some ki =>
    if !p.waitingKey && q.length > limit then .drainToKeyframe ki false else .drainAll
  | _, _ => decision

/-- The frames a decision leaves to send. -/
def PusherDrainDecision.kept (q : List Emitted) : PusherDrainDecision → List Emitted
  | .drainAll => []
  | .drainToKeyframe dropPrefix _ => q.drop dropPrefix
  | .keep => q

/-- The waiting flag after a decision. -/
def PusherDrainDecision.waits (waitingKey : Bool) : PusherDrainDecision → Bool
  | .drainAll => true
  | .drainToKeyframe _ _ => false
  | .keep => waitingKey

/-- The lock section of an iteration: the pusher after it, and the frames to send. -/
def Pusher.drain (p : Pusher) (limit : Nat) (overflowed : Bool) (queue : List Emitted) :
    Pusher × List Emitted :=
  if queue.isEmpty then (p, [])
  else
    let q := pictures queue
    let decision := p.decision limit overflowed q
    ({ p with
        configNalu := lastConfig p.configNalu queue
        pendingConfig := p.pendingConfig || queue.any fun f => f.isConfig
        waitingKey := decision.waits p.waitingKey },
      decision.kept q)

/-! ### The send loop -/

/-- Pushes the packets of a frame. `false` leaves the loop over the drained frames. -/
def Pusher.pushFrame (p : Pusher) (f : Emitted) (t : Turn) : Bool × Pusher :=
  let p := { p with wire := p.wire.frame f t }
  if t.goesOn then (true, { p with lastSent := some f }) else (false, p)

/-- One frame of the loop. -/
def Pusher.sendFrame (p : Pusher) (f : Emitted) (t : Turn) : Bool × Pusher :=
  if !t.connected then (true, { p with waitingKey := true })
  else if f.isKeyframe then
    let p := { p with pendingConfig := false }
    match p.configNalu with
    | some cfg =>
      let p := { p with wire := p.wire.config cfg t }
      if sendConfigNalus t.config then p.pushFrame f t else (false, p)
    | none => p.pushFrame f t
  else p.pushFrame f t

def Pusher.sendLoop : List Emitted → (Nat → Turn) → Pusher → Pusher
  | [], _, p => p
  | f :: fs, turns, p =>
    match p.sendFrame f (turns 0) with
    | (true, p) => sendLoop fs (later turns) p
    | (false, p) => p

/-- Whether an idle pusher goes on: it repeats the last frame it has sent, unless it waits for a
    key frame and that not for long, and stops when the repeat fails. -/
def Pusher.repeatLast (p : Pusher) (late : Bool) (t : Turn) : Bool :=
  if (p.pendingConfig || p.waitingKey) && !late then true
  else if t.connected && p.lastSent.isSome then t.goesOn
  else true

/-! ### Runs -/

inductive Phase where
  | connecting | subscribed | sampled | pushing | stopped
  deriving DecidableEq, Repr

structure Stream where
  minFrameIntervalMs : Nat
  feed : Feed
  phase : Phase := .connecting
  initial : Option (List Emitted) := none
  pusher : Pusher := {}
  deriving DecidableEq, Repr

inductive Move where
  | feed (frame : VideoFrame)
  | publish
  | forward
  | subscribe
  | snapshot
  | start (attempts : Nat → Nat → Turn)
  | iterate (late : Bool) (turns : Nat → Turn)
  | stop

def hasGop (initial : Option (List Emitted)) : Bool :=
  initial.any fun frames => frames.any fun f => f.isKeyframe

/-- One iteration of the loop. -/
def Stream.iterate (s : Stream) (late : Bool) (turns : Nat → Turn) : Stream :=
  let (p, toSend) :=
    s.pusher.drain (backlogLimit s.minFrameIntervalMs) s.feed.overflowed s.feed.queue
  let s := { s with feed := { s.feed with
    queue := [], overflowed := s.feed.overflowed && s.feed.queue.isEmpty } }
  if toSend.isEmpty then
    { s with pusher := p, phase := if p.repeatLast late (turns 0) then s.phase else .stopped }
  else { s with pusher := p.sendLoop toSend turns }

def Stream.step (s : Stream) : Move → Option Stream
  | .feed frame => (s.feed.feed frame).map fun feed => { s with feed := feed }
  | .publish => s.feed.publish.map fun feed => { s with feed := feed }
  | .forward => s.feed.forward.map fun feed => { s with feed := feed }
  | .subscribe =>
    if s.phase = .connecting then
      some { s with phase := .subscribed, feed := { s.feed with subscribed := true } }
    else none
  | .snapshot =>
    if (s.phase = .subscribed ∨ s.phase = .sampled) ∧ hasGop s.initial = false then
      some { s with
        phase := .sampled
        initial := (s.feed.cache.bind FrameCache.initialFrames).or s.initial }
    else none
  | .start attempts =>
    if s.phase = .sampled then
      some { s with phase := .pushing, pusher := .start s.initial attempts }
    else none
  | .iterate late turns =>
    if s.phase = .pushing then some (s.iterate late turns) else none
  | .stop => some { s with phase := .stopped }

/-- A device session as it begins, with or without a frame cache, and one viewer to come. -/
def Stream.opened (minFrameIntervalMs : Nat) (decodeFrames : Bool) : Stream :=
  { minFrameIntervalMs, feed := { cache := if decodeFrames then some {} else none } }

end Gamer.Webrtc
