import Gamer.Lib.Chain
import Mathlib.Algebra.GroupWithZero.Nat

/-! The way of a video frame from the device to the queue of one viewer:

        device ──▶ frame cache (SPS/PPS and the current GOP)
               └─▶ broadcast (128) ──▶ forwarder ──▶ ring queue (256)

    The frames are numbered in the order the device emits them, config frames apart; the numbers,
    and the config frame that was the newest when a frame was emitted, are carried for the
    statements and read by no function. -/

namespace Gamer.Webrtc
open Gamer.Lib

/-- Encoded bytes. -/
abbrev Bytes := List UInt8

structure VideoFrame where
  data : Bytes
  isConfig : Bool
  isKeyframe : Bool
  deriving DecidableEq, Repr

/-- A frame the device has emitted. -/
structure Emitted extends VideoFrame where
  no : Nat
  newest : Option Bytes
  deriving DecidableEq, Repr

/-- The coding of the stream: a key frame needs the newest config frame, every other frame the one
    before it. -/
def coding : Chain.Coding Emitted Bytes :=
  ⟨Emitted.no, fun f => f.isKeyframe, Emitted.newest⟩

@[simp] theorem coding_no (f : Emitted) : coding.no f = f.no := rfl
@[simp] theorem coding_root (f : Emitted) : coding.root f = f.isKeyframe := rfl
@[simp] theorem coding_header (f : Emitted) : coding.header f = f.newest := rfl

/-- The frames that carry a picture. -/
def pictures (fs : List Emitted) : List Emitted := fs.filter fun f => !f.isConfig

@[simp] theorem pictures_nil : pictures [] = [] := rfl

@[simp] theorem pictures_append (fs gs : List Emitted) :
    pictures (fs ++ gs) = pictures fs ++ pictures gs := List.filter_append ..

theorem pictures_cons_config {f : Emitted} (h : f.isConfig = true) (fs : List Emitted) :
    pictures (f :: fs) = pictures fs := by simp [pictures, h]

theorem pictures_cons_picture {f : Emitted} (h : f.isConfig = false) (fs : List Emitted) :
    pictures (f :: fs) = f :: pictures fs := by simp [pictures, h]

/-! ### The frame cache -/

def GOP_MAX_FRAMES : Nat := 800
def GOP_MAX_BYTES : Nat := 64 * 1024 * 1024

/-- The newest parameter sets (empty if there are none yet) and the frames since the last key
    frame. -/
structure FrameCache where
  configBuf : Bytes := []
  gop : List Emitted := []
  deriving DecidableEq, Repr

def gopBytes (gop : List Emitted) : Nat := (gop.map fun f => f.data.length).sum

def FrameCache.feed (c : FrameCache) (frame : Emitted) : FrameCache :=
  if frame.isConfig then
    if c.configBuf.isEmpty || c.configBuf != frame.data then
      { configBuf := frame.data, gop := if c.configBuf.isEmpty then c.gop else [] }
    else c
  else if frame.isKeyframe then
    { c with gop := if gopBytes [frame] > GOP_MAX_BYTES then [] else [frame] }
  else if c.gop.isEmpty then c
  else
    let gop := c.gop ++ [frame]
    { c with gop :=
        if gop.length > GOP_MAX_FRAMES || gopBytes gop > GOP_MAX_BYTES then [] else gop }

/-- The parameter sets the cache holds. -/
def FrameCache.config (c : FrameCache) : Option Bytes :=
  if c.configBuf.isEmpty then none else some c.configBuf

/-- The frames a new viewer is sent first. -/
def FrameCache.initialFrames (c : FrameCache) : Option (List Emitted) :=
  let config : List Emitted :=
    if c.configBuf.isEmpty then []
    else [{ data := c.configBuf, isConfig := true, isKeyframe := false, no := 0, newest := none }]
  let frames := config ++ c.gop
  if frames.isEmpty then none else some frames

/-! ### Broadcast and ring queue -/

/-- The capacity of the broadcast, and of the ring queue of a viewer. -/
def BROADCAST_CAP : Nat := 128
def QUEUE_CAP : Nat := 256

/-- The device with its cache, and what lies between it and the pusher of one viewer. -/
structure Feed where
  cache : Option FrameCache
  count : Nat := 0
  newest : Option Bytes := none
  inflight : Option Emitted := none
  subscribed : Bool := false
  channel : List Emitted := []
  queue : List Emitted := []
  overflowed : Bool := false
  deriving DecidableEq, Repr

/-- The consuming task takes the device's next frame and feeds the cache with it. -/
def Feed.feed (s : Feed) (frame : VideoFrame) : Option Feed :=
  match s.inflight with
  | some _ => none
  | none =>
    let frame : Emitted := { frame with no := s.count, newest := s.newest }
    some { s with
      cache := s.cache.map (·.feed frame)
      count := if frame.isConfig then s.count else s.count + 1
      newest := if frame.isConfig then some frame.data else s.newest
      inflight := some frame }

/-- The consuming task broadcasts the frame. A subscriber that lags loses its oldest frame. -/
def Feed.publish (s : Feed) : Option Feed :=
  match s.inflight with
  | none => none
  | some frame =>
    let s := { s with inflight := none }
    if s.subscribed then
      let kept := if s.channel.length < BROADCAST_CAP then s.channel else s.channel.tail
      some { s with channel := kept ++ [frame] }
    else some s

/-- The forwarder of `make_frame_queue` takes a frame over. A full ring drops its oldest frame. -/
def Feed.forward (s : Feed) : Option Feed :=
  match s.channel with
  | [] => none
  | frame :: rest =>
    if s.queue.length ≥ QUEUE_CAP then
      some { s with channel := rest, queue := s.queue.tail ++ [frame], overflowed := true }
    else some { s with channel := rest, queue := s.queue ++ [frame] }

/-- The frames on their way to the pusher, the oldest first. -/
def Feed.pipe (s : Feed) : List Emitted := s.queue ++ s.channel ++ s.inflight.toList

end Gamer.Webrtc
