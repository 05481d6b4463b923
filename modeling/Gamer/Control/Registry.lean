import Mathlib.Control.Monad.Basic
import Gamer.Lib.Machine

/-! One target of the control registry: who may send input to it. The state is behind a lock, the
    operations behind a gate; a call checks the state, waits for the gate, and looks at the state
    again, and whoever waits may be dropped while it waits:

        execute, manual_with, admit   entering ──▶ waiting ══▶ checking ──▶ inside
        claim                         claiming ──▶ reserved ══▶ granted ──▶ leaving
        pause, resume                 moving ──▶ barred ══▶ cleaning ──▶ leaving
        release                       releasing ──▶ moving …
        cleanup_manual                flushing ══▶ inspecting ──▶ wiping

    A double arrow takes the gate. A claim or a transition that does not come to its end unwinds:
    the gate goes first, then the recovery puts the state back. -/

namespace Gamer.Control
open Gamer.Lib

@[ext] structure ControlLease where
  owner : String
  generation : Nat
  deriving DecidableEq

structure ManualLease where
  generation : Nat
  deriving DecidableEq

inductive ControlPhase where | idle | running | pausing | paused | resuming | stopping
  deriving DecidableEq

structure State where
  owner : Option String
  generation : Nat
  manualGeneration : Nat
  phase : ControlPhase
  deriving DecidableEq

inductive Identity where
  | owned (lease : ControlLease)
  | manual (lease : ManualLease)
  | automatic
  | cleanup
  deriving DecidableEq

/-- The lease is that of the current owner. -/
def ControlLease.current (s : State) (lease : ControlLease) : Prop :=
  s.owner = some lease.owner ∧ s.generation = lease.generation

instance (s : State) (lease : ControlLease) : Decidable (lease.current s) :=
  inferInstanceAs (Decidable (_ ∧ _))

def ControlPhase.manualAllowed : ControlPhase → Bool
  | .idle | .paused => true
  | .running | .pausing | .resuming | .stopping => false

namespace State

def check (s : State) : Identity → Except String Unit
  | .owned lease =>
    if ¬ lease.current s then .error "stale_generation: 控制会话已变化"
    else if s.phase ≠ .running then .error "ai_paused: AI 当前不能执行操作"
    else .ok ()
  | .manual lease =>
    if s.manualGeneration ≠ lease.generation then .error "stale_generation: 人工输入已过期"
    else if !s.phase.manualAllowed then
      .error "control_owned: 请先暂停 AI，等待暂停完成后再人工操作"
    else .ok ()
  | .automatic =>
    if s.phase ≠ .idle then .error "control_owned: 目标控制权属于其他运行" else .ok ()
  | .cleanup => .ok ()

end State

/-! ### Claims and transitions -/

/-- `ClaimRecovery`. -/
structure ClaimRecovery where
  lease : ControlLease
  previousManualGeneration : Nat
  deriving DecidableEq

/-- `TransitionRecovery`. -/
structure TransitionRecovery where
  original : ControlLease
  currentGeneration : Nat
  deriving DecidableEq

/-- What the transition hands out. -/
def TransitionRecovery.next (r : TransitionRecovery) : ControlLease :=
  { r.original with generation := r.currentGeneration }

inductive Recovery where
  | claim (r : ClaimRecovery)
  | transition (r : TransitionRecovery)
  deriving DecidableEq

/-- The two `Drop` implementations. -/
def Recovery.drop (s : State) : Recovery → State
  | .claim r =>
    if r.lease.current s ∧ s.phase = .resuming then { s with
      owner := none, phase := .idle, manualGeneration := r.previousManualGeneration }
    else s
  | .transition r =>
    if r.next.current s then { s with generation := r.original.generation } else s

inductive Transition where | pause | resume | release
  deriving DecidableEq

namespace Transition

def during : Transition → ControlPhase
  | .pause => .pausing
  | .resume => .resuming
  | .release => .stopping

def after : Transition → ControlPhase
  | .pause => .paused
  | .resume => .running
  | .release => .idle

end Transition

namespace State

/-- The lock section a claim begins with. -/
def reserve (s : State) (owner : String) : Except String (State × ClaimRecovery) :=
  if owner.toList.isEmpty then .error "empty control owner"
  else if s.phase ≠ .idle then .error "control_owned: 目标已有控制会话"
  else .ok ({ s with
      owner := some owner
      generation := s.generation + 1
      manualGeneration := s.manualGeneration + 1
      phase := .resuming },
    ⟨⟨owner, s.generation + 1⟩, s.manualGeneration⟩)

/-- The lock section a transition begins with. -/
def begin (s : State) (kind : Transition) (lease : ControlLease) (from' : ControlPhase) :
    Except String (State × TransitionRecovery) :=
  if ¬ lease.current s then .error "stale_generation: 控制会话已变化"
  else if s.phase ≠ from' then .error "control_transition: 控制状态不允许此操作"
  else .ok ({ s with
      phase := kind.during
      generation := s.generation + 1
      manualGeneration := s.manualGeneration + 1 },
    ⟨lease, s.generation + 1⟩)

/-- The lock section after the cleanup of a transition. -/
def complete (s : State) (kind : Transition) (r : TransitionRecovery) : Except String State :=
  if ¬ r.next.current s then .error "stale_generation: 控制会话已变化"
  else .ok { s with
    phase := kind.after
    owner := if kind.after = .idle then none else s.owner }

end State

/-! ### Calls -/

/-- The end of a call; `dropped` when its caller gave it up. -/
inductive Reply where
  | ok
  | lease (lease : ControlLease)
  | error (text : String)
  | cleanupFailed
  | dropped
  deriving DecidableEq

/-- The call has returned `Ok`. -/
def Reply.isOk : Reply → Bool
  | .ok | .lease _ => true
  | .error _ | .cleanupFailed | .dropped => false

def Transition.reply (kind : Transition) (r : TransitionRecovery) : Reply :=
  match kind with
  | .pause | .resume => .lease r.next
  | .release => .ok

/-- A call in flight. An operation keeps the guard of the gate as long as one of its clones is
    alive: nested admissions and workers inherit it. -/
inductive Task where
  | entering (identity : Identity)
  | waiting (identity : Identity)
  | checking (identity : Identity)
  | inside (identity : Identity) (clones : Nat)
  | claiming (owner : String)
  | reserved (r : ClaimRecovery)
  | granted (r : ClaimRecovery)
  | releasing (lease : ControlLease)
  | moving (kind : Transition) (lease : ControlLease) (from' : ControlPhase)
  | barred (kind : Transition) (r : TransitionRecovery)
  | cleaning (kind : Transition) (r : TransitionRecovery)
  | unwinding (r : Recovery) (reply : Reply)
  | flushing (lease : ManualLease)
  | inspecting (lease : ManualLease)
  | wiping (lease : ManualLease)
  | leaving (reply : Reply)
  | returned (reply : Reply)
  deriving DecidableEq

namespace Task

/-- The guard of the gate is held. -/
def holds : Task → Option Unit
  | .checking _ | .inside .. | .granted _ | .cleaning .. => some ()
  | .inspecting _ | .wiping _ | .leaving _ => some ()
  | _ => none

/-- The recovery the call would run if it were dropped. -/
def recovery : Task → Option Recovery
  | .reserved r | .granted r => some (.claim r)
  | .barred _ r | .cleaning _ r => some (.transition r)
  | .unwinding r _ => some r
  | _ => none

/-- The gate is handed to the call. -/
def acquired : Task → Option Task
  | .waiting i => some (.checking i)
  | .reserved r => some (.granted r)
  | .barred kind r => some (.cleaning kind r)
  | .flushing lease => some (.inspecting lease)
  | _ => none

/-- The call is dropped at one of its awaits. -/
def dropped : Task → Option Task
  | .reserved r | .granted r => some (.unwinding (.claim r) .dropped)
  | .barred _ r | .cleaning _ r => some (.unwinding (.transition r) .dropped)
  | .entering _ | .waiting _ | .checking _ | .claiming _ | .releasing _ | .moving ..
  | .flushing _ | .inspecting _ | .wiping _ => some (.returned .dropped)
  | .inside .. | .unwinding .. | .leaving _ | .returned _ => none

end Task

/-- A call of the registry; `manualWith` and `cleanupManual` bring a lease read earlier. -/
inductive Call where
  | execute (lease : ControlLease)
  | manualWith (lease : ManualLease)
  | admitAutomatic
  | claim (owner : String)
  | pause (lease : ControlLease)
  | resume (lease : ControlLease)
  | release (lease : ControlLease)
  | cleanupManual (lease : ManualLease)

def Call.task : Call → Task
  | .execute lease => .entering (.owned lease)
  | .manualWith lease => .entering (.manual lease)
  | .admitAutomatic => .entering .automatic
  | .claim owner => .claiming owner
  | .pause lease => .moving .pause lease .running
  | .resume lease => .moving .resume lease .paused
  | .release lease => .releasing lease
  | .cleanupManual lease => .flushing lease

/-! ### The target -/

/-- One target with the calls on it; `issued` and `tickets` are the leases handed out so far, the
    latest first. -/
structure Target where
  state : State
  gate : Option Nat
  tasks : List Task
  issued : List ControlLease
  tickets : List ManualLease

inductive Move where
  | manualLease
  | call (c : Call)
  | acquire (k : Nat)
  | run (k : Nat)
  | share (k : Nat)
  | finish (k : Nat) (ok : Bool)
  | drop (k : Nat)

namespace Target

def start : Target := ⟨⟨none, 0, 0, .idle⟩, none, [], [], []⟩

/-- Leases come from the registry: nobody makes one up. -/
def knows (s : Target) : Call → Bool
  | .execute lease | .pause lease | .resume lease | .release lease => lease ∈ s.issued
  | .manualWith lease | .cleanupManual lease => lease ∈ s.tickets
  | .admitAutomatic | .claim _ => true

/-- Call `k` goes on as `t`. -/
def become (s : Target) (k : Nat) (t : Task) : Target := { s with tasks := s.tasks.set k t }

/-- Call `k` gives the gate back and goes on as `t`. -/
def leave (s : Target) (k : Nat) (t : Task) : Target := { s with gate := none }.become k t

/-- The next lock section of a call, or what it does next without waiting. -/
def run (s : Target) (k : Nat) : Task → Option Target
  | .entering i => some (s.become k (match s.state.check i with
    | .ok () => .waiting i
    | .error text => .returned (.error text)))
  | .checking i => some (s.become k (match s.state.check i with
    | .ok () => .inside i 0
    | .error text => .leaving (.error text)))
  | .claiming owner => some (match s.state.reserve owner with
    | .ok (state, r) => { s with state := state }.become k (.reserved r)
    | .error text => s.become k (.returned (.error text)))
  | .granted r => some ({ s with state := { s.state with phase := .running } }.become k
      (.leaving (.lease r.lease)))
  | .releasing lease => some (s.become k (
      if lease.current s.state then .moving .release lease s.state.phase else .returned .ok))
  | .moving kind lease from' => some (match s.state.begin kind lease from' with
    | .ok (state, r) => { s with state := state }.become k (.barred kind r)
    | .error text => s.become k (.returned (.error text)))
  | .unwinding r reply => some ({ s with state := r.drop s.state }.become k (.returned reply))
  | .inspecting lease => some (s.become k (
      if s.state.manualGeneration ≠ lease.generation || !s.state.phase.manualAllowed then
        .leaving .ok
      else .wiping lease))
  | .leaving reply => some ({ s with issued := match reply with
      | .lease lease => lease :: s.issued
      | _ => s.issued }.leave k (.returned reply))
  | _ => none

/-- The operation or the cleanup of a call comes to its end. -/
def finish (s : Target) (k : Nat) (ok : Bool) : Task → Option Target
  | .inside _ 0 => some (s.leave k (.returned .ok))
  | .inside i (clones + 1) => some (s.become k (.inside i clones))
  | .cleaning kind r =>
    if ok then some (match s.state.complete kind r with
      | .ok state => { s with state := state }.become k (.leaving (kind.reply r))
      | .error text => s.leave k (.unwinding (.transition r) (.error text)))
    else some (s.leave k (.unwinding (.transition r) .cleanupFailed))
  | .wiping _ => some (s.leave k (.returned (if ok then .ok else .cleanupFailed)))
  | _ => none

def step (s : Target) : Move → Option Target
  | .manualLease => some { s with tickets := ⟨s.state.manualGeneration⟩ :: s.tickets }
  | .call c => if s.knows c then some { s with tasks := s.tasks ++ [c.task] } else none
  | .acquire k => match s.gate with
    | some _ => none
    | none => (s.tasks[k]?.bind Task.acquired).map fun t => { s with gate := some k }.become k t
  | .run k => s.tasks[k]?.bind (s.run k)
  | .share k => match s.tasks[k]? with
    | some (.inside i clones) => some (s.become k (.inside i (clones + 1)))
    | _ => none
  | .finish k ok => s.tasks[k]?.bind (s.finish k ok)
  | .drop k => s.tasks[k]?.bind fun t => t.dropped.map fun t' =>
      if t.holds.isSome then s.leave k t' else s.become k t'

end Target

end Gamer.Control
