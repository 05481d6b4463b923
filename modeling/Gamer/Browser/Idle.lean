import Mathlib.Data.List.Basic
import Gamer.Lib.Locks
import Gamer.Lib.Machine
import Gamer.Lib.Table

/-! Idle browsers. A pass visits the targets one by one and samples their use; a target's timer runs
    from the first pass that finds it unused, and when it is over the pass closes the browser behind
    three locks:

        probing ─busy─▶ (timer stopped)
           └─idle─▶ timing ─ready─▶ reserving ─▶ checking ─▶ streaming ─▶ gating ─▶ sealing ─▶ closing

    The calls that use a browser are the other tasks of the same list. -/

namespace Gamer.Browser.Idle
open Gamer.Lib Gamer.Lib.Machine

/-- A clock's ticks in a second. -/
def ofSecs (secs : Nat) : Nat := secs * 1000000000

structure IdleTimer where
  since : Option Nat := none
  deriving DecidableEq, Repr

/-- `IdleTimer::ready`: whether the grace is over, and the timer behind the sample. -/
def IdleTimer.ready (timer : IdleTimer) (now timeout : Nat) (busy : Bool) : Bool × IdleTimer :=
  if busy || timeout = 0 then (false, ⟨none⟩)
  else
    let since := timer.since.getD now
    (decide (timeout ≤ now - since), ⟨some since⟩)

structure CdpSession where
  id : String
  /-- The transport and the pointer guard are alive. -/
  attached : Bool := true
  closed : Bool := false
  /-- A counter that wraps would be negative. -/
  runs : Int := 0
  previewActive : Bool := false
  recordingActive : Bool := false
  outputConsumers : Nat := 0
  /-- The last moment at which the session was in use. -/
  lastUse : Option Nat := none
  /-- A pass has marked it closed. -/
  reclaimed : Bool := false
  deriving DecidableEq, Repr

namespace CdpSession

def isAlive (c : CdpSession) : Bool := !c.closed && c.attached

def isFullResolutionActive (c : CdpSession) : Bool := c.recordingActive || c.outputConsumers > 0

def hasStreamConsumers (c : CdpSession) : Bool := c.previewActive || c.isFullResolutionActive

/-- `invalidate`, and the mark of `close`. -/
def close (c : CdpSession) : CdpSession := { c with closed := true }

end CdpSession

/-- The calls that hold the stream gate while they talk to the page. -/
inductive StreamOp where
  | startPreview
  | configurePreview
  | stopPreview
  | startRecording
  | refreshRecording
  | stopRecording
  | refreshMediaOutput
  | reconcileMediaOutput
  deriving DecidableEq, Repr

namespace StreamOp

/-- The call hands out a stream of frames. -/
def hands : StreamOp → Bool
  | .startPreview | .startRecording | .refreshRecording | .refreshMediaOutput => true
  | _ => false

/-- What the call does with the gate before it waits for the page; `none` is a refusal. -/
def enter : StreamOp → CdpSession → Option CdpSession
  | .startPreview, c => if c.isAlive then some { c with previewActive := true } else none
  | .configurePreview, c => if c.isAlive then some c else none
  | .stopPreview, c => some { c with previewActive := false }
  | .startRecording, c =>
    if c.isAlive && !c.recordingActive then some { c with recordingActive := true } else none
  | .refreshRecording, c => if c.recordingActive then some c else none
  | .stopRecording, c => some { c with recordingActive := false }
  | .refreshMediaOutput, c => if c.outputConsumers > 0 then some c else none
  | .reconcileMediaOutput, c => some c

/-- What it does when the page has answered. -/
def leave (ok : Bool) : StreamOp → CdpSession → CdpSession
  | .startPreview, c => if ok then c else { c with previewActive := false }
  | .startRecording, c => if ok then c else { c with recordingActive := false }
  | _, c => c

end StreamOp

/-- `start_media_output` behind the stream gate. -/
def CdpSession.addOutput (c : CdpSession) : CdpSession :=
  { c with outputConsumers := c.outputConsumers + 1 }

/-- `decrement_if_positive` of the outputs. -/
def CdpSession.dropOutput (c : CdpSession) : CdpSession :=
  { c with outputConsumers := c.outputConsumers - 1 }

/-! ### The tasks and their locks -/

inductive Lock where
  /-- At most one pass is under way: one loop makes them all. -/
  | pass
  | lifecycle (id : String)
  | viewer (session : Nat)
  | stream (session : Nat)
  | gate (session : Nat)
  deriving DecidableEq, Repr

/-- What a pass reads to find a target busy, in the order in which it reads. -/
inductive Probe where
  | external
  | owner
  | runs
  | preview
  | recording
  | outputs
  | viewer
  | stream
  | gate
  deriving DecidableEq, Repr

def Probe.order : List Probe :=
  [.external, .owner, .runs, .preview, .recording, .outputs, .viewer, .stream, .gate]

inductive VisitStage where
  | probing (left : List Probe)
  | timing (busy : Bool)
  | reserving
  | checking
  | streaming
  | gating
  | sealing
  | closing
  deriving DecidableEq, Repr

structure Visit where
  id : String
  session : Nat
  /-- The setting, as the visit has read it. -/
  secs : Nat
  stage : VisitStage
  deriving DecidableEq, Repr

inductive Task where
  | done
  /-- `prepare`: behind the lifecycle gate it launches a browser. -/
  | preparing (id : String) (launching : Bool)
  /-- `output_stream`. -/
  | outputting (id : String)
  | opening (id : String) (session : Nat)
  | starting (id : String) (session : Nat)
  /-- `close`, and with `forced` the closing of a shutdown. -/
  | closing (id : String) (forced : Bool) (entered : Bool)
  | rebinding (id : String)
  | binding (id : String) (session : Nat) (gated : Bool)
  | swapping (id : String)
  /-- `save` and `remove`. -/
  | saving (id : String) (entered : Bool)
  | acquiring (id : String) (session : Option Nat)
  /-- A `BrowserRunLease`, until its count is given back. -/
  | lease (session : Nat) (cleaning : Bool)
  /-- A preview page; it has the viewer's mutex from the upgrade on. -/
  | viewer (session : Nat) (attached : Bool)
  | streaming (op : StreamOp) (session : Nat) (entered : Bool)
  /-- Inputs, captures and releases. -/
  | input (session : Nat) (entered : Bool)
  /-- `reclaim_idle`, which began at `now`. -/
  | reclaiming (now : Nat) (left : List (String × Nat)) (visit : Option Visit)
  deriving DecidableEq, Repr

def Visit.locks (v : Visit) : List Lock :=
  .lifecycle v.id :: match v.stage with
    | .probing _ | .timing _ | .reserving => []
    | .checking | .streaming => [.viewer v.session]
    | .gating | .closing => [.viewer v.session, .stream v.session]
    | .sealing => [.viewer v.session, .stream v.session, .gate v.session]

def Task.locks : Task → List Lock
  | .preparing id true | .opening id _ | .closing id _ true | .swapping id | .saving id true
  | .binding id _ false | .acquiring id (some _) => [.lifecycle id]
  | .starting id k => [.lifecycle id, .stream k]
  | .binding id k true => [.lifecycle id, .gate k]
  | .viewer k true => [.viewer k]
  | .streaming _ k true => [.stream k]
  | .input k true => [.gate k]
  | .reclaiming _ _ none => [.pass]
  | .reclaiming _ _ (some v) => .pass :: v.locks
  | _ => []

/-- A run lease of the session. -/
def Task.isLease (k : Nat) : Task → Bool
  | .lease j _ => j = k
  | _ => false

/-- A viewer of the session. -/
def Task.isViewer (k : Nat) : Task → Bool
  | .viewer j true => j = k
  | _ => false

structure Closing where
  session : Nat
  time : Nat
  secs : Nat
  used : Bool
  lastUse : Option Nat
  deriving DecidableEq, Repr

/-- A lease or a stream is handed out. -/
structure Handing where
  session : Nat
  reclaimed : Bool
  deriving DecidableEq, Repr

structure Manager where
  now : Nat := 0
  /-- `browser_idle_secs`. -/
  secs : Nat
  shuttingDown : Bool := false
  sessions : List CdpSession := []
  /-- The session that a target has. -/
  current : Table String Nat := ∅
  idle : Table String IdleTimer := ∅
  /-- Targets with a control owner; the phase is `Idle` exactly without one. -/
  owners : List String := []
  /-- Targets with an external consumer. -/
  external : List String := []
  tasks : List Task := []
  closings : List Closing := []
  handed : List Handing := []

namespace Manager

def free (s : Manager) (l : Lock) : Bool := Locks.free Task.locks s.tasks l

def leases (s : Manager) (k : Nat) : Nat := s.tasks.countP (Task.isLease k)

/-- The session is in use. -/
def used (s : Manager) (k : Nat) (c : CdpSession) : Bool :=
  c.runs ≠ 0 || c.hasStreamConsumers || s.tasks.any (Task.isViewer k) || s.owners.contains c.id ||
    s.external.contains c.id

/-- What a probe finds busy. -/
def busy (s : Manager) (k : Nat) (c : CdpSession) : Probe → Bool
  | .external => s.external.contains c.id
  | .owner => s.owners.contains c.id
  | .runs => c.runs ≠ 0
  | .preview => c.previewActive
  | .recording => c.recordingActive
  | .outputs => c.outputConsumers > 0
  | .viewer => !s.free (.viewer k)
  | .stream => !s.free (.stream k)
  | .gate => !s.free (.gate k)

def modify (s : Manager) (k : Nat) (f : CdpSession → CdpSession) : Manager :=
  { s with sessions := s.sessions.modify k f }

def stopTimer (s : Manager) (id : String) : Manager := { s with idle := s.idle.del id }

/-- `close_inner`. -/
def closeInner (s : Manager) (id : String) : Manager :=
  match s.current.get id with
  | some k => { (s.stopTimer id).modify k .close with current := s.current.del id }
  | none => s.stopTimer id

/-- A new browser of the target, or a new page of it. -/
def insertSession (s : Manager) (id : String) : Manager :=
  { s with
    sessions := s.sessions ++ [{ id := id }]
    current := s.current.set id s.sessions.length }

def hand (s : Manager) (k : Nat) : Manager :=
  { s with handed := (s.sessions[k]?.map fun c => (⟨k, c.reclaimed⟩ : Handing)).toList ++ s.handed }

/-! ### The steps of a task -/

/-- `prepare` behind the lifecycle gate. -/
def prepare (s : Manager) (id : String) : Manager × Task :=
  if s.shuttingDown then (s, .done)
  else match s.current.get id with
    | none => (s.stopTimer id, .preparing id true)
    | some k =>
      match s.sessions[k]? with
      | none => (s.stopTimer id, .done)
      | some c =>
        if c.isAlive || c.runs ≠ 0 then (s.stopTimer id, .done)
        else (s.closeInner id, .preparing id true)

/-- `acquire` behind the lifecycle gate. -/
def acquire (s : Manager) (id : String) : Task :=
  if s.shuttingDown then .done
  else match s.current.get id with
    | none => .done
    | some k => if s.sessions[k]?.any (·.isAlive) then .acquiring id (some k) else .done

/-- `close` behind the lifecycle gate; `ok` says that no run of the target is active. -/
def close (s : Manager) (id : String) (forced ok : Bool) : Manager × Task :=
  match s.current.get id with
  | none => if forced || ok then (s.closeInner id, .closing id forced true) else (s, .done)
  | some k =>
    if forced || (ok && s.sessions[k]?.all (·.runs = 0)) then
      (s.closeInner id, .closing id forced true)
    else (s, .done)

/-- The pass goes on to the next target. -/
def visitNext (s : Manager) (now : Nat) (left : List (String × Nat)) : Manager × Task :=
  match left with
  | [] => (s, .done)
  | (id, k) :: left =>
    if !s.free (.lifecycle id) then (s, .reclaiming now left none)
    else if s.secs = 0 then ({ s with idle := ∅ }, .done)
    else if s.current.get id = some k then
      (s, .reclaiming now left (some ⟨id, k, s.secs, .probing Probe.order⟩))
    else (s, .reclaiming now left none)

/-- The target is in use after all: its timer is forgotten and the pass goes on. -/
def giveUp (s : Manager) (now : Nat) (left : List (String × Nat)) (v : Visit) : Manager × Task :=
  (s.stopTimer v.id, .reclaiming now left none)

/-- `when_idle` marks the session closed. -/
def markClosed (s : Manager) (v : Visit) (c : CdpSession) : Manager :=
  { s.modify v.session fun c => { c.close with reclaimed := true } with
    closings := ⟨v.session, s.now, v.secs, s.used v.session c, c.lastUse⟩ :: s.closings }

/-- `idle.entry(id).or_default().ready(…)`. -/
def sample (s : Manager) (now : Nat) (v : Visit) (busy : Bool) : Bool × IdleTimer :=
  ((s.idle.get v.id).getD {}).ready now (ofSecs v.secs) busy

/-- A step of a visit. What `sealing` reads can only fall while the visit holds its locks, so one
    step reads all of it. -/
def visitStep (s : Manager) (now : Nat) (left : List (String × Nat)) (v : Visit) (c : CdpSession) :
    Manager × Task :=
  let stay (stage : VisitStage) : Manager × Task :=
    (s, .reclaiming now left (some { v with stage := stage }))
  match v.stage with
  | .probing [] => stay (.timing false)
  | .probing (p :: left) => stay (if s.busy v.session c p then .timing true else .probing left)
  | .timing busy =>
    let sample := s.sample now v busy
    ({ s with idle := s.idle.set v.id sample.2 },
      .reclaiming now left (if sample.1 then some { v with stage := .reserving } else none))
  | .reserving => if s.free (.viewer v.session) then stay .checking else s.giveUp now left v
  | .checking => if s.external.contains v.id then s.giveUp now left v else stay .streaming
  | .streaming => if s.free (.stream v.session) then stay .gating else s.giveUp now left v
  | .gating => if s.free (.gate v.session) then stay .sealing else s.giveUp now left v
  | .sealing =>
    if !c.isAlive || c.hasStreamConsumers || c.runs ≠ 0 || s.owners.contains v.id then
      s.giveUp now left v
    else (s.markClosed v c, .reclaiming now left (some { v with stage := .closing }))
  | .closing =>
    ({ s.stopTimer v.id with current := s.current.del v.id }, .reclaiming now left none)

/-- The task's next step; `ok` is what the outside answers. -/
def stepTask (s : Manager) (ok : Bool) : Task → Option (Manager × Task)
  | .done => none
  | .preparing id false => if s.free (.lifecycle id) then some (s.prepare id) else none
  | .preparing id true => some (if ok then s.insertSession id else s, .done)
  | .outputting id =>
    if !s.free (.lifecycle id) then none
    else match s.shuttingDown, s.current.get id with
      | false, some k => some (s, .opening id k)
      | _, _ => some (s, .done)
  | .opening id k =>
    if !s.free (.stream k) then none
    else if s.sessions[k]?.any (·.isAlive) then some (s.modify k .addOutput, .starting id k)
    else some (s, .done)
  | .starting id k =>
    if ok then some ((s.hand k).stopTimer id, .done) else some (s.modify k .dropOutput, .done)
  | .closing id forced false => if s.free (.lifecycle id) then some (s.close id forced ok) else none
  | .closing _ _ true => some (s, .done)
  | .rebinding id =>
    if !s.free (.lifecycle id) then none
    else match ok, s.current.get id with
      | true, some k => some (s, .binding id k false)
      | _, _ => some (s, .done)
  | .binding id k false =>
    if !s.free (.gate k) then none
    else if s.sessions[k]?.all (·.runs = 0) then some (s, .binding id k true)
    else some (s, .done)
  | .binding id k true => if ok then some (s.modify k .close, .swapping id) else some (s, .done)
  | .swapping id => some ((s.insertSession id).stopTimer id, .done)
  | .saving id false => if s.free (.lifecycle id) then some (s, .saving id true) else none
  | .saving _ true => some (s, .done)
  | .acquiring id none =>
    if s.free (.lifecycle id) then some (s, s.acquire id) else some (s, .done)
  | .acquiring id (some k) =>
    some ((s.hand k).modify k (fun c => { c with runs := c.runs + 1 }) |>.stopTimer id,
      .lease k false)
  | .lease k false => some (s, .lease k true)
  | .lease k true => some (s.modify k (fun c => { c with runs := c.runs - 1 }), .done)
  | .viewer k false =>
    if !s.free (.viewer k) then none
    else some (s, if s.sessions[k]?.any (·.isAlive) then .viewer k true else .done)
  | .viewer _ true => some (s, .done)
  | .streaming op k false =>
    if !s.free (.stream k) then none
    else match s.sessions[k]?.bind op.enter with
      | some c => some (s.modify k fun _ => c, .streaming op k true)
      | none => some (s, .done)
  | .streaming op k true =>
    let handed := if ok && op.hands then s.hand k else s
    some (handed.modify k (op.leave ok), .done)
  | .input k false => if s.free (.gate k) then some (s, .input k true) else none
  | .input _ true => some (s, .done)
  | .reclaiming now left none => some (s.visitNext now left)
  | .reclaiming now left (some v) => s.sessions[v.session]?.map (s.visitStep now left v)

/-- The task's future is dropped where it waits. A lease that is dropped is still cleaned up. -/
def dropTask : Task → Option Task
  | .done | .acquiring _ _ => none
  | .lease k _ => some (.lease k true)
  | .reclaiming _ _ (some v) => if v.stage = .closing then some .done else none
  | .reclaiming _ _ none => none
  | _ => some .done

end Manager

/-- A call of the manager or of a session. -/
inductive Call where
  | prepare (id : String)
  | outputStream (id : String)
  | close (id : String)
  | rebind (id : String)
  | save (id : String)
  | acquire (id : String)
  | viewer (session : Nat)
  | stream (op : StreamOp) (session : Nat)
  | input (session : Nat)
  deriving DecidableEq, Repr

def Call.task : Call → Task
  | .prepare id => .preparing id false
  | .outputStream id => .outputting id
  | .close id => .closing id false false
  | .rebind id => .rebinding id
  | .save id => .saving id false
  | .acquire id => .acquiring id none
  | .viewer k => .viewer k false
  | .stream op k => .streaming op k false
  | .input k => .input k false

inductive Move where
  | tick (elapsed : Nat)
  | setSecs (secs : Nat)
  | claim (id : String)
  | unclaim (id : String)
  | externalBegins (id : String)
  | externalEnds (id : String)
  /-- `invalidate`, or the browser is lost. -/
  | fail (session : Nat)
  /-- `release_media_output_count`. -/
  | releaseOutput (session : Nat)
  /-- `shutdown`, and its turn to a target. -/
  | beginShutdown
  | shutdown (id : String)
  | call (call : Call)
  | reclaimIdle
  | step (task : Nat) (ok : Bool)
  | drop (task : Nat)
  deriving DecidableEq, Repr

namespace Manager

def push (s : Manager) (t : Task) : Manager := { s with tasks := s.tasks ++ [t] }

/-- `reclaim_idle` up to its first visit. -/
def reclaimIdle (s : Manager) : Option Manager :=
  if !s.free .pass then none
  else if s.secs = 0 then some { s with idle := ∅ }
  else some (s.push (.reclaiming s.now (s.current.entries.map fun e => (e.1, e.2)) none))

def act (s : Manager) : Move → Option Manager
  | .tick elapsed => some { s with now := s.now + elapsed }
  | .setSecs secs => some { s with secs := secs }
  | .claim id => some { s with owners := id :: s.owners }
  | .unclaim id => some { s with owners := s.owners.filter (· ≠ id) }
  | .externalBegins id => some { s with external := id :: s.external }
  | .externalEnds id => some { s with external := s.external.filter (· ≠ id) }
  | .fail k => some (s.modify k .close)
  | .releaseOutput k => some (s.modify k .dropOutput)
  | .beginShutdown => some { s with shuttingDown := true }
  | .shutdown id => some (s.push (.closing id true false))
  | .call call => some (s.push call.task)
  | .reclaimIdle => s.reclaimIdle
  | .step i ok => s.tasks[i]?.bind fun t => (s.stepTask ok t).map fun r =>
      { r.1 with tasks := r.1.tasks.set i r.2 }
  | .drop i => s.tasks[i]?.bind fun t => (dropTask t).map fun t' =>
      { s with tasks := s.tasks.set i t' }

/-- A session in use is so at this moment. -/
def observed (s : Manager) (k : Nat) (c : CdpSession) : CdpSession :=
  { c with lastUse := if s.used k c then some s.now else c.lastUse }

def observe (s : Manager) : Manager := { s with sessions := s.sessions.mapIdx s.observed }

def step (s : Manager) (m : Move) : Option Manager := (s.act m).map observe

end Manager

end Gamer.Browser.Idle
