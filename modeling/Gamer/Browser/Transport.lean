import Gamer.Lib.Table
import Gamer.Lib.Machine

/-! The connection to a browser page, as far as it confirms the question whether to leave the page.
    A reload that was asked for may be confirmed, by itself and once:

        caller     make ─▶ insert ─▶ send ─▶ (answered | timed out) ─▶ finish      (or dropped)
                                      │                                  │
        socket                     receive ─▶ check ─▶ arm ─▶ recheck ─▶ write
                                                        │                │
        permission                                   active ·····dialog: accept once
                                              cleared by: finish, cancel, navigation, other intent

    The socket loop handles one command or one message at a time; calls, cancellations and the page
    go on beside it. -/

namespace Gamer.Browser
open Gamer.Lib

/-- The largest `u64`. -/
def U64_MAX : Nat := 18446744073709551615

/-! ### Permissions -/

/-- 20 seconds; times are in milliseconds. -/
def RELOAD_DIALOG_TIMEOUT : Nat := 20000

structure ReloadAttempt where
  operation : Nat
  deadline : Nat
  accepted : Bool
  deriving DecidableEq

structure ReloadDialogs where
  active : Option ReloadAttempt := none
  retiredThrough : Nat := 0
  deriving DecidableEq

namespace ReloadDialogs

def clear (d : ReloadDialogs) : ReloadDialogs := { d with active := none }

def arm (d : ReloadDialogs) (operation now : Nat) : Option ReloadDialogs :=
  if operation ≤ d.retiredThrough then none
  else some { d with active := some ⟨operation, now + RELOAD_DIALOG_TIMEOUT, false⟩ }

def expire (d : ReloadDialogs) (now : Nat) : ReloadDialogs :=
  match d.active with
  | some scope => if scope.deadline ≤ now then d.clear else d
  | none => d

/-- The operation a dialog is accepted for, if one is. -/
def dialog (d : ReloadDialogs) (kind : String) (now : Nat) : Option Nat × ReloadDialogs :=
  let d := d.expire now
  if kind ≠ "beforeunload" then (none, d.clear)
  else
    match d.active with
    | some scope =>
      if scope.accepted then (none, d)
      else (some scope.operation, { d with active := some { scope with accepted := true } })
    | none => (none, d)

def finish (d : ReloadDialogs) (operation : Nat) : ReloadDialogs :=
  let d := if d.active.any fun scope => scope.operation = operation then d.clear else d
  { d with retiredThrough := max d.retiredThrough operation }

def cancelThrough (d : ReloadDialogs) (operation : Nat) : ReloadDialogs :=
  { d with retiredThrough := max d.retiredThrough operation }.clear

end ReloadDialogs

/-! ### Calls -/

inductive CallPhase
  | made
  | inserted
  | sent
  | answered (ok : Bool)
  | timedOut
  | returned (ok : Bool)
  | dropped
  deriving DecidableEq

/-- Where the command of a call is. -/
inductive CommandPlace
  | caller | channel | taken
  deriving DecidableEq

structure TransportCall where
  method : String
  revision : Option Nat
  explicitReload : Bool
  phase : CallPhase := .made
  command : CommandPlace := .caller
  /-- There is an entry for it in `pending`. -/
  pending : Bool := false
  deriving DecidableEq

namespace TransportCall

/-- Nobody waits for the reply any more. -/
def closed (c : TransportCall) : Bool :=
  !c.pending ||
    match c.phase with
    | .timedOut | .returned _ | .dropped => true
    | .made | .inserted | .sent | .answered _ => false

/-- A navigation or an input. -/
def isIntent (c : TransportCall) : Bool :=
  !c.explicitReload && (c.method = "Page.navigate" || "Input.".toList.isPrefixOf c.method.toList)

/-- The loop answers a call. -/
def reply (c : TransportCall) (ok : Bool) : TransportCall :=
  { c with
    pending := false
    phase := if c.pending ∧ (c.phase = .sent ∨ c.phase = .inserted) then .answered ok else c.phase }

def forget (c : TransportCall) : TransportCall := { c with pending := false }

end TransportCall

/-! ### The connection -/

inductive HandlingStage
  | received | admitted | armed | ready
  deriving DecidableEq

inductive TransportEvent
  | armed (operation at_ : Nat)
  | wrote (operation : Nat) (explicitReload intent : Bool)
  | accepted (operation : Nat) (kind : String) (at_ : Nat)
  /-- The reload returned an error or was dropped. -/
  | gaveUp (operation : Nat)
  | cancelled (barrier : Nat)
  | navigated
  deriving DecidableEq

structure Transport where
  now : Nat := 0
  reloadDialogs : ReloadDialogs := {}
  revision : Nat := 1
  next : Nat := 1
  calls : Table Nat TransportCall := ∅
  /-- The command the loop is at. -/
  handling : Option (Nat × HandlingStage) := none
  /-- Cancellations that have their number and not the lock. -/
  barriers : List Nat := []
  alive : Bool := true
  /-- What has happened, the latest first. -/
  log : List TransportEvent := []

inductive TransportMove
  | beginReload (revision : Nat)
  | beginCall (method : String) (revision : Option Nat)
  | insert (k : Nat)
  | send (k : Nat)
  | sendFails (k : Nat)
  | timeout (k : Nat)
  | finish (k : Nat)
  | drop (k : Nat)
  | takeBarrier
  | applyBarrier (barrier : Nat)
  | tick (d : Nat)
  | expire
  | receive (k : Nat)
  | check
  | arm
  | recheck
  | write
  | stop
  | dropTransport
  | respond (k : Nat) (ok : Bool)
  | acceptRefused (operation : Nat)
  | dialog (kind : String)
  | dialogClosed (result : Bool)
  | navigated
  | pageChanged

namespace Transport

def begin_ (s : Transport) (c : TransportCall) : Transport :=
  { s with next := s.next + 1, calls := s.calls.set s.next c }

def update (s : Transport) (k : Nat) (f : TransportCall → TransportCall) : Transport :=
  { s with calls := s.calls.modify k f }

def emit (s : Transport) (e : TransportEvent) : Transport := { s with log := e :: s.log }

/-- `ReloadRequest::drop`, unless it was acknowledged. -/
def giveUp (s : Transport) (k : Nat) (c : TransportCall) : Transport :=
  if c.explicitReload then
    { s with reloadDialogs := s.reloadDialogs.finish k }.emit (.gaveUp k)
  else s

/-- The loop is done with its command. -/
def idle (s : Transport) : Transport := { s with handling := none }

/-- A step of the caller of one call. -/
def callerStep (s : Transport) (k : Nat) (f : TransportCall → Option Transport) :
    Option Transport :=
  (s.calls.get k).bind f

/-- A step of the loop with the command it is at. -/
def loopStep (s : Transport) (stage : HandlingStage) (f : Nat → TransportCall → Option Transport) :
    Option Transport :=
  match s.handling with
  | some (k, at_) => if at_ = stage then (s.calls.get k).bind (f k) else none
  | none => none

/-- The loop reads a message of the page. -/
def readStep (s : Transport) (s' : Transport) : Option Transport :=
  if s.alive ∧ s.handling = none then some s' else none

def armCommand (s : Transport) (k : Nat) (c : TransportCall) : Transport :=
  if c.explicitReload then
    match s.reloadDialogs.arm k s.now with
    | none => (s.update k fun c => c.reply false).idle
    | some d => { s with reloadDialogs := d, handling := some (k, .armed) }.emit (.armed k s.now)
  else if c.isIntent then
    { s with reloadDialogs := s.reloadDialogs.cancelThrough k, handling := some (k, .ready) }
  else { s with handling := some (k, .ready) }

def openDialog (s : Transport) (kind : String) : Transport :=
  match s.reloadDialogs.dialog kind s.now with
  | (none, d) => { s with reloadDialogs := d }
  | (some operation, d) => { s with reloadDialogs := d }.emit (.accepted operation kind s.now)

def step (s : Transport) : TransportMove → Option Transport
  | .beginReload revision =>
    some (s.begin_ ⟨"Page.reload", some revision, true, .made, .caller, false⟩)
  | .beginCall method revision => some (s.begin_ ⟨method, revision, false, .made, .caller, false⟩)
  | .insert k => s.callerStep k fun c =>
      if c.phase = .made then
        some (s.update k fun c => { c with phase := .inserted, pending := true })
      else none
  | .send k => s.callerStep k fun c =>
      if c.phase = .inserted ∧ c.command = .caller then
        some (s.update k fun c => { c with phase := .sent, command := .channel })
      else none
  | .sendFails k => s.callerStep k fun c =>
      if c.phase = .inserted ∧ !s.alive then
        some (s.update k fun c => { c with phase := .answered false })
      else none
  | .timeout k => s.callerStep k fun c =>
      if c.phase = .inserted ∨ c.phase = .sent then
        some (s.update k fun c => { c with phase := .timedOut })
      else none
  | .finish k => s.callerStep k fun c =>
      match c.phase with
      | .answered true => some (s.update k fun c => { c.forget with phase := .returned true })
      | .answered false | .timedOut =>
        some ((s.update k fun c => { c.forget with phase := .returned false }).giveUp k c)
      | _ => none
  | .drop k => s.callerStep k fun c =>
      match c.phase with
      | .returned _ | .dropped => none
      | _ => some ((s.update k fun c => { c with phase := .dropped }).giveUp k c)
  | .takeBarrier => some { s with next := s.next + 1, barriers := s.next :: s.barriers }
  | .applyBarrier barrier =>
    if barrier ∈ s.barriers then
      some ({ s with
        barriers := s.barriers.erase barrier
        reloadDialogs := s.reloadDialogs.cancelThrough barrier }.emit (.cancelled barrier))
    else none
  | .tick d => some { s with now := s.now + d }
  | .expire => s.readStep { s with reloadDialogs := s.reloadDialogs.expire s.now }
  | .receive k =>
    if s.alive ∧ s.handling = none then
      s.callerStep k fun c =>
        if c.command = .channel then
          some { s.update k fun c => { c with command := .taken } with
            handling := some (k, .received) }
        else none
    else none
  | .check => s.loopStep .received fun k c =>
      if c.closed then some (s.update k TransportCall.forget).idle
      else if c.revision.any fun r => r ≠ s.revision then
        some (s.update k fun c => c.reply false).idle
      else some { s with handling := some (k, .admitted) }
  | .arm => s.loopStep .admitted fun k c => some (s.armCommand k c)
  | .recheck => s.loopStep .armed fun k c =>
      if c.closed then
        some ({ s with reloadDialogs := s.reloadDialogs.finish k }.update k
          TransportCall.forget).idle
      else some { s with handling := some (k, .ready) }
  | .write => s.loopStep .ready fun k c =>
      some (s.idle.emit (.wrote k c.explicitReload c.isIntent))
  | .stop =>
    if s.alive then
      some { s with
        alive := false
        handling := none
        reloadDialogs := s.reloadDialogs.cancelThrough U64_MAX
        calls := s.calls.map fun c => c.reply false }
    else none
  | .dropTransport =>
    some { s with reloadDialogs := s.reloadDialogs.cancelThrough U64_MAX }
  | .respond k ok => s.readStep (s.update k fun c => c.reply ok)
  | .acceptRefused operation =>
    s.readStep { s with reloadDialogs := s.reloadDialogs.finish operation }
  | .dialog kind => s.readStep (s.openDialog kind)
  | .dialogClosed result =>
    s.readStep (if result then s else { s with reloadDialogs := s.reloadDialogs.clear })
  | .navigated =>
    s.readStep ({ s with
      reloadDialogs := s.reloadDialogs.clear
      revision := s.revision + 1 }.emit .navigated)
  | .pageChanged => s.readStep { s with revision := s.revision + 1 }

end Transport

end Gamer.Browser
