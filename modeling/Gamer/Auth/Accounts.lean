import Mathlib.Data.List.Basic
import Gamer.Lib.Table

/-! The administrator's account and the login sessions under it, in memory and in the session file
    next to it. A session is stored under its id's digest with its own limits; the file carries the
    account revision it was written under:

        config.toml        username, account_revision, password_hash
        auth-sessions.json account_revision, credential, sessions
        memory             account, sessions, fails                                            -/

namespace Gamer.Auth
open Gamer.Lib

def rememberSecs : Nat := 30 * 24 * 3600

def maxTrackedLoginKeys : Nat := 10000

structure Session where
  username : String
  absExpire : Nat
  lastSeen : Nat
  remember : Bool
  idleSecs : Option Nat
  deriving DecidableEq, Repr

inductive CredentialSource where
  | config | devEnv
  deriving DecidableEq, Repr

inductive Credential where
  | argon2 (encoded : String) (source : CredentialSource)
  | unavailable
  deriving DecidableEq, Repr

structure Account where
  username : String
  revision : String
  credential : Credential
  deriving DecidableEq, Repr

/-- The live settings a login reads. -/
structure LoginSettings where
  sessionAbsSecs : Nat
  sessionIdleSecs : Nat
  loginMaxFails : Nat
  loginWindowSecs : Nat
  deriving DecidableEq, Repr

/-- `[auth]` of the configuration file. -/
structure AuthConfig where
  username : String
  accountRevision : String
  passwordHash : String
  deriving DecidableEq, Repr

structure SessionFile where
  schemaVersion : Nat
  credential : String
  accountRevision : String
  sessions : Table String Session

structure LoginKey where
  ip : String
  username : String
  deriving DecidableEq, Repr

/-- What the process keeps in memory. `idleSecs` is the policy it was started with. -/
structure Process where
  account : Account
  idleSecs : Nat
  sessions : Table String Session
  fails : Table LoginKey (List Nat)

/-- The cryptography: a session id's digest, a password hash as far as it is one of the fixed
    parameters, and the check of a password against it. -/
structure Crypto where
  digest : String → String
  parsePasswordHash : String → Option String
  verify : String → String → Bool

inductive LoginError where
  | persist
  | invalid
  | rateLimited (retryAfterSecs : Nat)
  deriving DecidableEq, Repr

def Crypto.verifyCredentials (C : Crypto) (credential : Credential) (input : String) : Bool :=
  match credential with
  | .argon2 encoded _ => C.verify encoded input
  | .unavailable => false

namespace Process

def sessionActive (p : Process) (s : Session) (now : Nat) : Bool :=
  let idle := if s.remember then rememberSecs else max (s.idleSecs.getD p.idleSecs) 1
  s.username == p.account.username && decide (now < s.absExpire) &&
    decide (now - s.lastSeen < idle * 1000)

def makeSession (p : Process) (settings : LoginSettings) (now : Nat) (remember : Bool) : Session :=
  let ttl := if remember then rememberSecs else max settings.sessionAbsSecs 1
  { username := p.account.username, absExpire := now + ttl * 1000, lastSeen := now, remember,
    idleSecs := some settings.sessionIdleSecs }

/-- What `persist_sessions` writes. -/
def sessionFile (p : Process) : SessionFile :=
  let credential := match p.account.credential with
    | .argon2 encoded _ => encoded
    | .unavailable => ""
  { schemaVersion := 1, credential, accountRevision := p.account.revision, sessions := p.sessions }

/-! ### Failed logins -/

def pruneFails (p : Process) (settings : LoginSettings) (now : Nat) : Process :=
  let window := max settings.loginWindowSecs 1 * 1000
  let recent := p.fails.map fun attempts => attempts.filter fun t => now - t < window
  { p with fails := recent.filter fun _ attempts => !attempts.isEmpty }

def attempts (p : Process) (key : LoginKey) : List Nat := (p.fails.get key).getD []

/-- One more failed login: at most as many are kept as the limit asks for, and a table that has
    grown out of bounds is forgotten. -/
def countFail (p : Process) (settings : LoginSettings) (now : Nat) (key : LoginKey) : Process :=
  let attempts := p.attempts key ++ [now]
  let fails := p.fails.set key (attempts.drop (attempts.length - settings.loginMaxFails))
  { p with fails := if fails.entries.length > maxTrackedLoginKeys then ∅ else fails }

def retryAfter (settings : LoginSettings) (now : Nat) (attempts : List Nat) : Nat :=
  let window := max settings.loginWindowSecs 1 * 1000
  let elapsed := now - attempts.headD now
  if elapsed ≤ window then max ((window - elapsed) / 1000) 1 else 1

/-- The check in front of every login: the rate limit, then the credentials. -/
def checkLogin (p : Process) (C : Crypto) (settings : LoginSettings) (now : Nat)
    (username password ip : String) : Process × Option LoginError :=
  let p := p.pruneFails settings now
  let key : LoginKey := ⟨ip, username⟩
  if (p.fails.get key).any fun attempts => settings.loginMaxFails ≤ attempts.length then
    (p, some (.rateLimited (retryAfter settings now (p.attempts key))))
  else if username = p.account.username ∧ username ≠ "" ∧ password ≠ "" ∧
      password.utf8ByteSize ≤ 1024 ∧ C.verifyCredentials p.account.credential password then
    ({ p with fails := p.fails.del key }, none)
  else (p.countFail settings now key, some .invalid)

/-! ### Starting -/

/-- `resolve_credential`: a development password in the environment goes before the file. -/
def resolveCredential (C : Crypto) (config : AuthConfig) (dev : Option (String × String)) :
    Credential :=
  match dev with
  | some (_, encoded) => .argon2 encoded .devEnv
  | none =>
    match C.parsePasswordHash config.passwordHash with
    | some encoded => .argon2 encoded .config
    | none => .unavailable

def init (C : Crypto) (config : AuthConfig) (settings : LoginSettings)
    (dev : Option (String × String)) : Process :=
  { account := ⟨config.username, config.accountRevision, resolveCredential C config dev⟩,
    idleSecs := settings.sessionIdleSecs, sessions := ∅, fails := ∅ }

def isHexKey (key : String) : Bool :=
  key.toList.length == 64 && key.toList.all fun c => c.isDigit || ('a' ≤ c && c ≤ 'f') ||
    ('A' ≤ c && c ≤ 'F')

/-- The file was written under the credential now in force. -/
def sameCredential (p : Process) (C : Crypto) (file : SessionFile)
    (dev : Option (String × String)) : Bool :=
  match p.account.credential with
  | .argon2 encoded .config => encoded == file.credential
  | .argon2 _ .devEnv => dev.any fun (password, _) =>
      C.verifyCredentials p.account.credential password && C.verify file.credential password
  | .unavailable => false

/-- The sessions of the file that are still good, their idle limit frozen. -/
def loadSessions (p : Process) (C : Crypto) (file : SessionFile) (dev : Option (String × String))
    (now : Nat) : Table String Session :=
  if p.sameCredential C file dev ∧ file.accountRevision = p.account.revision then
    (file.sessions.filter fun key s => isHexKey key && p.sessionActive s now).map fun s =>
      { s with idleSecs := some (s.idleSecs.getD p.idleSecs) }
  else ∅

end Process

/-! ### Changing the account -/

structure UpdateAccount where
  username : String
  currentPassword : String
  newPassword : String
  confirmPassword : String
  expectedRevision : String
  deriving DecidableEq, Repr

def validUsername (value : String) : Bool :=
  value ≠ "" && decide (value.utf8ByteSize ≤ 64) &&
    value.toList.all fun c => c.isAlphanum || c == '.' || c == '_' || c == '-'

/-- A refused change: the status and the error's code. -/
abbrev Refusal := Nat × String

/-- The checks on the request alone. -/
def UpdateAccount.check (req : UpdateAccount) : Option Refusal :=
  if !validUsername req.username then some (400, "invalid_username")
  else if req.currentPassword = "" ∨ req.currentPassword.utf8ByteSize > 1024 then
    some (400, "current_password_required")
  else if req.newPassword ≠ "" ∧
      ¬ (8 ≤ req.newPassword.utf8ByteSize ∧ req.newPassword.utf8ByteSize ≤ 1024) then
    some (400, "weak_password")
  else if req.newPassword ≠ req.confirmPassword then some (400, "password_mismatch")
  else none

namespace Process

def passwordEditable (p : Process) : Bool :=
  match p.account.credential with
  | .argon2 _ .config => true
  | _ => false

/-- The checks under the locks, up to the failed logins. -/
def checkAccount (p : Process) (C : Crypto) (req : UpdateAccount) (sid : Option String)
    (now : Nat) : Option Refusal :=
  if sid.any fun sid => !(p.sessions.get (C.digest sid)).any fun s => p.sessionActive s now then
    some (401, "unauthorized")
  else if req.expectedRevision ≠ p.account.revision then some (409, "account_revision_conflict")
  else if req.username = p.account.username ∧ req.newPassword = "" then
    some (400, "account_unchanged")
  else if req.newPassword ≠ "" ∧ !p.passwordEditable then
    some (409, "password_managed_by_environment")
  else none

/-- The password check, counted like a failed login. -/
def checkPassword (p : Process) (C : Crypto) (settings : LoginSettings) (now : Nat)
    (req : UpdateAccount) (ip : String) : Process × Option Refusal :=
  let key : LoginKey := ⟨ip, p.account.username⟩
  let p := p.pruneFails settings now
  if (p.fails.get key).any fun attempts => settings.loginMaxFails ≤ attempts.length then
    (p, some (429, "too_many_attempts"))
  else if !C.verifyCredentials p.account.credential req.currentPassword then
    ({ p with fails := p.fails.set key (p.attempts key ++ [now]) },
      some (403, "invalid_current_password"))
  else (p, none)

/-- The file still says what the account says. -/
def savedMatches (p : Process) (config : AuthConfig) : Bool :=
  let sourceMatches := match p.account.credential with
    | .argon2 encoded .config => config.passwordHash == encoded
    | .argon2 _ .devEnv => true
    | .unavailable => false
  config.username == p.account.username && config.accountRevision == p.account.revision &&
    sourceMatches

/-- The account once the file has been replaced. -/
def changed (p : Process) (username revision : String) (encoded : Option String) : Process :=
  let credential := encoded.elim p.account.credential fun encoded => .argon2 encoded .config
  { p with account := ⟨username, revision, credential⟩, sessions := ∅, fails := ∅ }

end Process

end Gamer.Auth
