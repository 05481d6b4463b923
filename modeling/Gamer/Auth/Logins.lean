import Gamer.Lib.Machine
import Gamer.Auth.Accounts

/-! Logins over the life of a data directory. Every operation holds the session table's lock from
    its first look to its last change, so that operations follow one another; what can come in
    between is the end of the process, at any point of an operation:

        insert ──▶ write the file ──▶ return           a crash cuts here │ or here │
                        │ error
                        └──▶ take the insert back

    A write that fails has replaced nothing, or has replaced the file and failed to make the
    directory durable. -/

namespace Gamer.Auth
open Gamer.Lib

/-- How a write of the session file ends. -/
inductive Write where
  | ok
  | failed
  /-- The file is replaced, and the directory cannot be synced. -/
  | unsynced
  | crashed (replaced : Bool)
  deriving DecidableEq, Repr

def Write.replaces : Write → Bool
  | .ok | .unsynced => true
  | .failed => false
  | .crashed replaced => replaced

/-- How a write of the configuration file ends. -/
inductive ConfigWrite where
  | ok
  | failed
  | crashed (replaced : Bool)
  deriving DecidableEq, Repr

/-- How the login of a session in the file has ended. -/
inductive Outcome where
  | returned
  /-- The process ended after the file was replaced and before the login returned. -/
  | interrupted
  /-- The login returned an error although the file was replaced. -/
  | unsynced
  deriving DecidableEq, Repr

/-- What has happened. -/
inductive Event where
  | opened (sid revision : String) (session : Session) (outcome : Outcome)
  | refused (sid : String)
  | used (sid : String) (now : Nat)
  | destroyed (sid : String)
  | replaced (revision : String)
  deriving DecidableEq, Repr

structure World where
  now : Nat
  settings : LoginSettings
  config : AuthConfig
  file : Option SessionFile
  process : Option Process
  /-- Every revision the account has had. -/
  revisions : List String
  /-- The newest event first. -/
  history : List Event

inductive Move where
  | wait (ms : Nat)
  | configure (settings : LoginSettings)
  | login (username password ip : String) (remember : Bool) (sid : String) (write : Write)
  | issue (remember : Bool) (sid : String) (write : Write)
  /-- `now` has been read before the lock was taken. -/
  | validate (sid : String) (now : Nat) (write : Write)
  | destroy (sid : String) (write : Write)
  | sweep (write : Write)
  | change (req : UpdateAccount) (ip : String) (sid : Option String) (readable : Bool)
      (encoded : Option String) (revision : String) (config : ConfigWrite) (write : Write)
  | crash
  /-- A development password in the environment comes with its hash. -/
  | restart (dev : Option (String × String)) (write : Write)
  deriving DecidableEq

/-- The session id an event is about. -/
def Event.sid : Event → Option String
  | .opened sid .. | .refused sid | .used sid _ | .destroyed sid => some sid
  | .replaced _ => none

namespace World
variable (C : Crypto)

/-- `persist_sessions`, as far as the disk is concerned. -/
def persist (w : World) (p : Process) (write : Write) : World :=
  if write.replaces then { w with file := some p.sessionFile } else w

/-- The process goes on as `p`, or has ended. -/
def resume (w : World) (p : Process) : Write → World
  | .crashed _ => { w with process := none }
  | .ok | .failed | .unsynced => { w with process := some p }

def record (w : World) (e : Event) : World := { w with history := e :: w.history }

/-- The common end of both logins. Nobody hears the result of a process that has ended. -/
def openSession (w : World) (p : Process) (remember : Bool) (sid : String) (write : Write) :
    World × Except LoginError (String × String) :=
  let key := C.digest sid
  let session := p.makeSession w.settings w.now remember
  let opened := { p with sessions := p.sessions.set key session }
  let undone := { p with sessions := opened.sessions.del key }
  let event := Event.opened sid p.account.revision session
  let w := w.persist opened write
  match write with
  | .ok => ((w.record (event .returned)).resume opened write, .ok (sid, p.account.username))
  | .failed => ((w.record (.refused sid)).resume undone write, .error .persist)
  | .unsynced => ((w.record (event .unsynced)).resume undone write, .error .persist)
  | .crashed true => ((w.record (event .interrupted)).resume undone write, .error .persist)
  | .crashed false => (w.resume undone write, .error .persist)

def attemptLogin (w : World) (p : Process) (username password ip : String) (remember : Bool)
    (sid : String) (write : Write) : World × Except LoginError (String × String) :=
  match p.checkLogin C w.settings w.now username password ip with
  | (p, some e) => ({ w with process := some p }, .error e)
  | (p, none) => w.openSession C p remember sid write

def validate (w : World) (p : Process) (sid : String) (now : Nat) (write : Write) :
    World × Option String :=
  let key := C.digest sid
  match p.sessions.get key with
  | none => (w, none)
  | some s =>
    if !p.sessionActive s now then
      ({ w with process := some { p with sessions := p.sessions.del key } }, none)
    else if !s.remember ∧ now / 1000 ≠ s.lastSeen / 1000 then
      let renewed := { p with sessions := p.sessions.set key { s with lastSeen := now } }
      let w := (w.record (.used sid now)).persist renewed write
      match write with
      | .ok => (w.resume renewed write, some s.username)
      | .failed | .unsynced | .crashed _ => (w.resume p write, none)
    else (w.record (.used sid now), some s.username)

def destroy (w : World) (p : Process) (sid : String) (write : Write) : World × Bool :=
  let key := C.digest sid
  let without := { p with sessions := p.sessions.del key }
  let w := w.persist without write
  match write with
  | .ok => ((w.record (.destroyed sid)).resume without write, true)
  | .failed | .unsynced | .crashed _ => (w.resume p write, false)

def sweep (w : World) (p : Process) (write : Write) : World :=
  let kept := { p with sessions := p.sessions.filter fun _ s => p.sessionActive s w.now }
  (w.persist kept write).resume (kept.pruneFails w.settings w.now) write

/-- The configuration file is replaced. -/
def replaceConfig (w : World) (p : Process) : World :=
  { w with
    config := { username := p.account.username, accountRevision := p.account.revision,
                passwordHash := match p.account.credential with
                  | .argon2 encoded .config => encoded
                  | _ => w.config.passwordHash },
    revisions := p.account.revision :: w.revisions,
    history := .replaced p.account.revision :: w.history }

/-- `change_account` from the hashing of the new password on. -/
def commitAccount (w : World) (p : Process) (req : UpdateAccount) (encoded : Option String)
    (revision : String) (config : ConfigWrite) (write : Write) : World × Except Refusal Unit :=
  if req.newPassword ≠ "" ∧ encoded = none then
    ({ w with process := some p }, .error (500, "account_update_failed"))
  else
    let changed := p.changed req.username revision (if req.newPassword = "" then none else encoded)
    match config with
    | .failed => ({ w with process := some p }, .error (500, "account_config_write_failed"))
    | .crashed false => ({ w with process := none }, .error (500, "account_config_write_failed"))
    | .crashed true =>
      ({ w.replaceConfig changed with process := none }, .error (500, "account_update_failed"))
    | .ok => (((w.replaceConfig changed).persist changed write).resume changed write, .ok ())

def changeAccount (w : World) (p : Process) (req : UpdateAccount) (ip : String)
    (sid : Option String) (readable : Bool) (encoded : Option String) (revision : String)
    (config : ConfigWrite) (write : Write) : World × Except Refusal Unit :=
  match req.check with
  | some refusal => (w, .error refusal)
  | none =>
    match p.checkAccount C req sid w.now with
    | some refusal => (w, .error refusal)
    | none =>
      match p.checkPassword C w.settings w.now req ip with
      | (p, some refusal) => ({ w with process := some p }, .error refusal)
      | (p, none) =>
        if !readable then
          ({ w with process := some p }, .error (500, "account_config_read_failed"))
        else if !p.savedMatches w.config then
          ({ w with process := some p }, .error (409, "account_config_changed"))
        else w.commitAccount p req encoded revision config write

/-- A new process on the files as they are. If it cannot write the session file it does not
    start. -/
def restart (w : World) (dev : Option (String × String)) (write : Write) : World :=
  let p := Process.init C w.config w.settings dev
  let start (p : Process) : World :=
    let w := w.persist p write
    match write with
    | .ok => { w with process := some p }
    | .failed | .unsynced | .crashed _ => { w with process := none }
  match w.file with
  | none => start p
  | some file =>
    if file.schemaVersion ≠ 1 then { w with process := none }
    else start { p with sessions := p.loadSessions C file dev w.now }

/-- No event is about the id: ids are drawn at random. -/
def Fresh (w : World) (sid : String) : Prop := ∀ e ∈ w.history, e.sid ≠ some sid

instance (w : World) (sid : String) : Decidable (w.Fresh sid) :=
  inferInstanceAs (Decidable (∀ e ∈ w.history, e.sid ≠ some sid))

/-- Ids and revisions are drawn fresh; the clock a validation has read is not ahead. -/
def step (w : World) : Move → Option World
  | .wait ms => some { w with now := w.now + ms }
  | .configure settings => some { w with settings := settings }
  | .login username password ip remember sid write =>
    if w.Fresh sid then
      w.process.map fun p => (w.attemptLogin C p username password ip remember sid write).1
    else none
  | .issue remember sid write =>
    if w.Fresh sid then w.process.map fun p => (w.openSession C p remember sid write).1 else none
  | .validate sid now write =>
    if now ≤ w.now then w.process.map fun p => (w.validate C p sid now write).1 else none
  | .destroy sid write => w.process.map fun p => (w.destroy C p sid write).1
  | .sweep write => w.process.map fun p => w.sweep p write
  | .change req ip sid readable encoded revision config write =>
    if revision ∉ w.revisions then
      w.process.map fun p =>
        (w.changeAccount C p req ip sid readable encoded revision config write).1
    else none
  | .crash => some { w with process := none }
  | .restart dev write => if w.process.isNone then some (w.restart C dev write) else none

/-- A data directory before its first start. -/
def fresh (config : AuthConfig) (settings : LoginSettings) (now : Nat) : World :=
  { now, settings, config, file := none, process := none, revisions := [config.accountRevision],
    history := [] }

end World

end Gamer.Auth
