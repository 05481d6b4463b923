import Gamer.Lib.Machine

/-! The viewers of one device: the signaling sessions (`handle_ws`), the registry they share, and the
    teardown of a viewer, each cut where the code gives the registry's lock back or awaits.

        reading ──offer──▶ creating ──▶ created ──▶ replacing ──▶ watching
           │                  │         (insert)    (teardown of     │
           │                  │                      the old one)    ▼
           ▼                  ▼                                   leaving ──▶ removing ──▶ tearing
         ended              ended                                    │ not mine             │
                                                                     ▼                      ▼
                                                                   ended                  ended

    A session creates one viewer at most, which goes by the session's number. -/

namespace Gamer.Webrtc
open Gamer.Lib

inductive ViewerDisconnectReason where
  | takenOver | deviceDisconnected | shutdown | peerClosed
  deriving DecidableEq, Repr

def ViewerDisconnectReason.notificationType : ViewerDisconnectReason → Option String
  | .takenOver => some "taken_over"
  | .deviceDisconnected | .shutdown | .peerClosed => none

/-- A viewer: the handle's flag, whether the page can still be notified, and the peer. -/
structure Viewer where
  running : Bool := true
  notify : Bool := true
  peerOpen : Bool := true
  deriving DecidableEq, Repr

/-- How far a teardown has come: it holds the handle, has marked the viewer as not running, and has
    its touches released. -/
inductive Stage where
  | taken | stopped | released
  deriving DecidableEq, Repr

structure Teardown where
  viewer : Nat
  reason : ViewerDisconnectReason
  stage : Stage := .taken
  deriving DecidableEq, Repr

inductive SessionPhase where
  | reading
  | creating (force : Bool)
  | created (force : Bool)
  | replacing (t : Teardown)
  | watching
  | leaving
  | removing
  | tearing (t : Teardown)
  | ended
  deriving DecidableEq, Repr

structure Session where
  phase : SessionPhase := .reading
  viewer : Option Viewer := none
  deriving DecidableEq, Repr

def Session.isRunning (se : Session) : Bool := se.viewer.any fun v => v.running

/-- The first part of a teardown: the flag, then the notice to the page. -/
def Session.stop (reason : ViewerDisconnectReason) (se : Session) : Session :=
  { se with viewer := se.viewer.map fun v => { v with
      running := false, notify := v.notify && reason.notificationType.isNone } }

/-- The peer is closed, or fails. -/
def Session.closePeer (se : Session) : Session :=
  { se with viewer := se.viewer.map fun v => { v with running := false, peerOpen := false } }

/-- What is done to a viewer: taken over on an offer, or torn down on the exit of a session. -/
inductive ViewerEvent where
  | takenOver (session : Nat) (force : Bool) (old : Nat) (running : Bool)
  | tornDown (session : Nat) (viewer : Nat)
  deriving DecidableEq, Repr

/-- The registry's entry for the device, the sessions, the teardowns of device disconnects, and what
    has been done to viewers. -/
structure Hub where
  registered : Option Nat := none
  sessions : List Session := []
  disconnects : List Teardown := []
  log : List ViewerEvent := []
  deriving DecidableEq, Repr

namespace Hub

def phase (s : Hub) (k : Nat) : Option SessionPhase := (s.sessions[k]?).map fun se => se.phase

def running (s : Hub) (k : Nat) : Bool := (s.sessions[k]?).any fun se => se.isRunning

/-- The occupied check of an offer without `force`. -/
def occupied (s : Hub) : Bool := s.registered.any fun k => s.running k

def edit (s : Hub) (k : Nat) (f : Session → Session) : Hub :=
  { s with sessions := s.sessions.modify k f }

def enter (s : Hub) (k : Nat) (p : SessionPhase) : Hub := s.edit k fun se => { se with phase := p }

/-- `teardown_viewer`, one part at a time. -/
def tear (s : Hub) (t : Teardown) : Hub × Option Teardown :=
  match t.stage with
  | .taken => (s.edit t.viewer (Session.stop t.reason), some { t with stage := .stopped })
  | .stopped => (s, some { t with stage := .released })
  | .released => (s.edit t.viewer Session.closePeer, none)

end Hub

/-- Why a session with a viewer leaves its loop. -/
inductive LeaveCause where
  | socketClosed | accountChanged | peerClosed
  deriving DecidableEq, Repr

inductive HubMove where
  | connect
  | offer (k : Nat) (force : Bool)
  | quit (k : Nat)
  | create (k : Nat) (ok : Bool)
  | register (k : Nat)
  | leave (k : Nat) (cause : LeaveCause)
  | check (k : Nat)
  | remove (k : Nat)
  | tear (k : Nat)
  | disconnect
  | tearDisconnect (i : Nat)
  | fail (k : Nat)
  deriving DecidableEq, Repr

namespace Hub

/-- The registration of a viewer: it replaces the registered one, which is then torn down as taken
    over. -/
def register (s : Hub) (k : Nat) (force : Bool) : Hub :=
  match s.registered with
  | none => { s.enter k .watching with registered := some k }
  | some old =>
    { s.enter k (.replacing { viewer := old, reason := .takenOver }) with
      registered := some k
      log := .takenOver k force old (s.running old) :: s.log }

/-- `remove_and_teardown_viewer` of a session's exit: it takes whatever is registered. -/
def remove (s : Hub) (k : Nat) : Hub :=
  match s.registered with
  | none => s.enter k .ended
  | some v =>
    { s.enter k (.tearing { viewer := v, reason := .peerClosed }) with
      registered := none
      log := .tornDown k v :: s.log }

def step (s : Hub) : HubMove → Option Hub
  | .connect => some { s with sessions := s.sessions ++ [{}] }
  | .offer k force =>
    if s.phase k = some .reading then
      -- a conflict is answered and the session reads on
      some (if !force && s.occupied then s else s.enter k (.creating force))
    else none
  | .quit k => if s.phase k = some .reading then some (s.enter k .ended) else none
  | .create k ok =>
    match s.phase k with
    | some (.creating force) =>
      some (s.edit k fun se =>
        if ok then { phase := .created force, viewer := some {} } else { se with phase := .ended })
    | _ => none
  | .register k =>
    match s.phase k with
    | some (.created force) => some (s.register k force)
    | _ => none
  | .leave k cause =>
    if s.phase k = some .watching ∧ (cause = .peerClosed →
        (s.sessions[k]?).any fun se => se.viewer.any fun v => !v.peerOpen) then
      some (s.enter k .leaving)
    else none
  | .check k =>
    if s.phase k = some .leaving then
      some (s.enter k (if s.registered = some k then .removing else .ended))
    else none
  | .remove k => if s.phase k = some .removing then some (s.remove k) else none
  | .tear k =>
    match s.phase k with
    | some (.replacing t) =>
      let (s, t) := s.tear t
      some (s.enter k (t.elim .watching .replacing))
    | some (.tearing t) =>
      let (s, t) := s.tear t
      some (s.enter k (t.elim .ended .tearing))
    | _ => none
  | .disconnect =>
    match s.registered with
    | none => some s
    | some v => some { s with
        registered := none
        disconnects := s.disconnects ++ [{ viewer := v, reason := .deviceDisconnected }] }
  | .tearDisconnect i =>
    match s.disconnects[i]? with
    | none => none
    | some t =>
      let (s, t) := s.tear t
      some { s with disconnects := t.elim (s.disconnects.eraseIdx i) (s.disconnects.set i ·) }
  | .fail k => some (s.edit k Session.closePeer)

end Hub

end Gamer.Webrtc
