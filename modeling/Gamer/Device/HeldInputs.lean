import Mathlib.Data.List.Basic
import Mathlib.Tactic.SplitIfs
import Gamer.Lib.Machine
import Gamer.Lib.Token

/-! What a device may be left with. A press is recorded before its message is written, and the record
    goes when a release has been written, each under a lock that is not held in between:

        down:  record ──▶ check ──▶ write            up:  check ──▶ write ──▶ remove
        release_inputs:  test ──▶ snapshot ──▶ an up for every record ──▶ test

    A record that is removed behind a later press of the same input is the whole defect.      -/

namespace Gamer.Device.HeldInputs
open Gamer.Lib Gamer.Lib.Machine

inductive Input where
  | pointer (id : Nat)
  | key (code : Nat)
  deriving DecidableEq, Repr

def actionDown : Nat := 0

def actionUp : Nat := 1

def actionMove : Nat := 2

/-- A control message, as far as it presses and releases. -/
structure Message where
  input : Input
  action : Nat
  deriving DecidableEq, Repr

/-- What is recorded before the message is written: any touch but an up, and a key's down. -/
def Message.records (m : Message) : Bool :=
  match m.input with
  | .pointer _ => m.action ≠ actionUp
  | .key _ => m.action = actionDown

/-- What the device makes of a message it has received whole. -/
def Message.apply (m : Message) (device : List Input) : List Input :=
  if m.action = actionDown then device.insert m.input
  else if m.action = actionUp then device.filter (· ≠ m.input)
  else device

inductive Request where
  | injectTouch (action pointer : Nat)
  | injectKeycode (action keycode : Nat)
  | tap
  | swipe
  | pressKey (keycode : Nat)
  deriving DecidableEq, Repr

/-- The messages of a call, each behind the one before it. -/
def Request.messages : Request → List Message
  | .injectTouch action pointer => [⟨.pointer pointer, action⟩]
  | .injectKeycode action keycode => [⟨.key keycode, action⟩]
  | .tap => [⟨.pointer 0, actionDown⟩, ⟨.pointer 0, actionUp⟩]
  | .swipe => ⟨.pointer 0, actionDown⟩ ::
      (List.replicate 20 ⟨.pointer 0, actionMove⟩ ++ [⟨.pointer 0, actionUp⟩])
  | .pressKey keycode => [⟨.key keycode, actionDown⟩, ⟨.key keycode, actionUp⟩]

/-- Where a call is with its first message, or with the connection. -/
inductive Phase where
  | recording
  | checking
  /-- At the lock of the control socket. -/
  | locking
  | writing
  | removing
  /-- `release_inputs`: at its first test, and at the records. -/
  | testing
  | listing
  /-- `release_inputs`: at its last test. -/
  | closing
  /-- `discard_disconnected_inputs`: at the socket, and at the records. -/
  | taking
  | clearing
  | ended
  deriving DecidableEq, Repr

structure Call where
  /-- It is a `release_inputs`. -/
  releases : Bool
  messages : List Message
  phase : Phase
  error : Bool := false
  /-- No other call that can press anything has been in progress since it began. -/
  alone : Bool := false
  deriving DecidableEq, Repr

/-- A `release_inputs` that returned `Ok`, and what it left. -/
structure Released where
  alone : Bool
  connected : Bool
  socket : Bool
  device : List Input
  deriving DecidableEq, Repr

/-- `ScrcpySession`, its device and the calls. -/
structure Session where
  connected : Bool := true
  socket : Bool := true
  held : List Input := []
  /-- What is down on the device. -/
  device : List Input := []
  calls : List Call := []
  log : List Released := []
  deriving DecidableEq, Repr

inductive Move where
  | request (request : Request)
  | releaseInputs
  | record (call : Nat)
  | check (call : Nat)
  | enter (call : Nat)
  | write (call : Nat) (ok : Bool)
  | remove (call : Nat)
  | test (call : Nat)
  | list (call : Nat)
  | close (call : Nat)
  | take (call : Nat)
  | clear (call : Nat)
  | drop (call : Nat)
  /-- The video ends, or the watchdog gives the session up. -/
  | disconnect
  deriving DecidableEq, Repr

/-- The phase a message begins with. -/
def Message.first (m : Message) : Phase := if m.records then .recording else .checking

/-- The call is with the messages that are left. -/
def Call.go (c : Call) (messages : List Message) : Call :=
  match messages with
  | [] => { c with messages := [], phase := if c.releases then .closing else .ended }
  | m :: rest => { c with messages := m :: rest, phase := m.first }

/-- A message has failed. Only `release_inputs` goes on. -/
def Call.fail (c : Call) : Call :=
  if c.releases then { c with error := true }.go c.messages.tail
  else { c with messages := [], phase := .ended }

namespace Session

def setCall (s : Session) (k : Nat) (c : Call) : Session := { s with calls := s.calls.set k c }

/-- Nobody has the control socket. -/
def socketFree (s : Session) : Bool := s.calls.all fun c => c.phase ≠ .writing

/-- `inject_touch`, `inject_keycode` and `send_control`. -/
def stepMessage (s : Session) (k : Nat) (c : Call) (m : Message) : Move → Option Session
  | .record _ =>
    if c.phase = .recording then
      some (setCall { s with held := s.held.insert m.input } k { c with phase := .checking })
    else none
  | .check _ =>
    if c.phase ≠ .checking then none
    else if s.connected then some (s.setCall k { c with phase := .locking })
    else some (s.setCall k c.fail)
  | .enter _ =>
    if c.phase ≠ .locking || !s.socketFree then none
    else if !s.connected then some (s.setCall k c.fail)
    else if !s.socket then some (setCall { s with connected := false } k c.fail)
    else some (s.setCall k { c with phase := .writing })
  | .write _ ok =>
    if c.phase ≠ .writing then none
    else if !ok then some (setCall { s with connected := false, socket := false } k c.fail)
    else some (setCall { s with device := m.apply s.device } k
      (if m.action = actionUp then { c with phase := .removing } else c.go c.messages.tail))
  | .remove _ =>
    if c.phase = .removing then
      some (setCall { s with held := s.held.filter (· ≠ m.input) } k (c.go c.messages.tail))
    else none
  | _ => none

/-- It returns `Ok`. -/
def released (s : Session) (c : Call) : Session :=
  { s with log := ⟨c.alone, s.connected, s.socket, s.device⟩ :: s.log }

/-- `release_inputs` and `discard_disconnected_inputs`. -/
def stepRelease (s : Session) (k : Nat) (c : Call) : Move → Option Session
  | .test _ =>
    if c.phase ≠ .testing then none
    else if s.connected then some (s.setCall k { c with phase := .listing })
    else some (s.setCall k { c with phase := .taking })
  | .list _ =>
    if c.phase = .listing then some (s.setCall k (c.go (s.held.map fun input => ⟨input, actionUp⟩)))
    else none
  | .close _ =>
    if c.phase ≠ .closing then none
    else if !s.connected then some (s.setCall k { c with phase := .taking })
    else if c.error then some (s.setCall k { c with phase := .ended })
    else some ((s.setCall k { c with phase := .ended }).released c)
  | .take _ =>
    if c.phase = .taking && s.socketFree then
      some (setCall { s with socket := false } k { c with phase := .clearing })
    else none
  | .clear _ =>
    if c.phase = .clearing then
      some ((setCall { s with held := [] } k { c with phase := .ended }).released c)
    else none
  | _ => none

def stepDrop (s : Session) (k : Nat) (c : Call) : Option Session :=
  if c.phase = .ended then none else some (s.setCall k { c with messages := [], phase := .ended })

/-- A call that can press something is in progress. -/
def pressing (s : Session) : Bool := s.calls.any fun c => !c.releases && c.phase ≠ .ended

def step (s : Session) (m : Move) : Option Session :=
  match m with
  | .request r => some { s with
      calls := (s.calls.map fun c => { c with alone := false }) ++
        [Call.go ⟨false, [], .ended, false, false⟩ r.messages] }
  | .releaseInputs => some { s with
      calls := s.calls ++ [⟨true, [], .testing, false, !s.pressing⟩] }
  | .disconnect => some { s with connected := false }
  | .record k | .check k | .enter k | .write k _ | .remove k =>
    s.calls[k]?.bind fun c => c.messages.head?.bind fun message => s.stepMessage k c message m
  | .test k | .list k | .close k | .take k | .clear k => s.calls[k]?.bind fun c => s.stepRelease k c m
  | .drop k => s.calls[k]?.bind fun c => s.stepDrop k c

/-! ### What is promised -/

/-- A release that met no other call left nothing down, or a session that sends nothing more. -/
def Promise (s : Session) : Prop :=
  ∀ r ∈ s.log, r.alone = true → (r.connected = false ∧ r.socket = false) ∨ r.device = []

end Session

/-- The input it is about to press, and has recorded. -/
def Call.presses (c : Call) : Option Input :=
  match c.phase with
  | .checking | .locking | .writing =>
    (c.messages.head?.filter fun m => m.action = actionDown).map Message.input
  | _ => none

namespace Session

/-- No record is removed that a later press of the same input counts on. -/
def kept (s : Session) : Move → Bool
  | .remove k => (s.calls[k]?.bind fun c => c.messages.head?).all fun m =>
      decide (m.input ∉ s.device) && s.calls.all fun c' => c'.presses ≠ some m.input
  | _ => true

end Session

/-! ### Calls -/

/-- A phase of `release_inputs` only. -/
def Phase.ofRelease : Phase → Bool
  | .testing | .listing | .closing | .taking | .clearing => true
  | _ => false

/-- The records are listed, and their ups are on the way. -/
def Phase.listed : Phase → Bool
  | .recording | .checking | .locking | .writing | .removing | .closing => true
  | _ => false

/-- The inputs whose messages are still to be written. -/
def Call.upcoming (c : Call) : List Input :=
  match c.phase with
  | .removing => c.messages.tail.map Message.input
  | _ => c.messages.map Message.input

@[simp] theorem Call.go_releases (c : Call) (messages : List Message) :
    (c.go messages).releases = c.releases := by
  cases messages <;> rfl

@[simp] theorem Call.go_alone (c : Call) (messages : List Message) :
    (c.go messages).alone = c.alone := by
  cases messages <;> rfl

@[simp] theorem Call.go_error (c : Call) (messages : List Message) :
    (c.go messages).error = c.error := by
  cases messages <;> rfl

@[simp] theorem Call.go_messages (c : Call) (messages : List Message) :
    (c.go messages).messages = messages := by
  cases messages <;> rfl

@[simp] theorem Call.fail_releases (c : Call) : c.fail.releases = c.releases := by
  unfold Call.fail
  split_ifs <;> simp

@[simp] theorem Call.fail_alone (c : Call) : c.fail.alone = c.alone := by
  unfold Call.fail
  split_ifs <;> simp

theorem Call.presses_eq {c : Call} {m : Message} {p : Input} (hm : c.messages.head? = some m)
    (h : c.presses = some p) : p = m.input ∧ m.action = actionDown := by
  unfold Call.presses at h
  rw [hm] at h
  split at h
  · obtain ⟨m', hm', rfl⟩ := Option.map_eq_some_iff.mp h
    obtain ⟨hm', hdown⟩ := Option.filter_eq_some_iff.mp hm'
    cases hm'
    exact ⟨rfl, by simpa using hdown⟩
  · obtain ⟨m', hm', rfl⟩ := Option.map_eq_some_iff.mp h
    obtain ⟨hm', hdown⟩ := Option.filter_eq_some_iff.mp hm'
    cases hm'
    exact ⟨rfl, by simpa using hdown⟩
  · obtain ⟨m', hm', rfl⟩ := Option.map_eq_some_iff.mp h
    obtain ⟨hm', hdown⟩ := Option.filter_eq_some_iff.mp hm'
    cases hm'
    exact ⟨rfl, by simpa using hdown⟩
  · cases h

/-- A press is recorded before anything else. -/
theorem Call.go_presses (c : Call) (messages : List Message) : (c.go messages).presses = none := by
  cases messages with
  | nil =>
    unfold Call.go
    cases c.releases <;> rfl
  | cons m rest =>
    have hdown : m.action = actionDown → m.records = true := by
      intro h
      unfold Message.records
      split <;> simp [h, actionDown, actionUp]
    show Call.presses { c with messages := m :: rest, phase := m.first } = none
    unfold Message.first
    by_cases hrecords : m.records = true
    · rw [if_pos hrecords]
      rfl
    · have hnot : m.action ≠ actionDown := fun h => hrecords (hdown h)
      rw [if_neg hrecords]
      simp [Call.presses, hnot]

/-- A list of ups begins with no record. -/
theorem Message.first_of_up {m : Message} (h : m.action = actionUp) : m.first = .checking := by
  unfold Message.first Message.records
  split <;> simp [h, actionDown, actionUp]

theorem Call.go_phase_of_ups {c : Call} {messages : List Message} (hreleases : c.releases = true)
    (hups : ∀ m ∈ messages, m.action = actionUp) :
    (c.go messages).phase = .checking ∨ (c.go messages).phase = .closing := by
  cases messages with
  | nil =>
    unfold Call.go
    rw [hreleases]
    exact .inr rfl
  | cons m rest => exact .inl (Message.first_of_up (hups m List.mem_cons_self))

theorem Call.go_phase (c : Call) (messages : List Message) : (c.go messages).phase ≠ .taking ∧
    (c.go messages).phase ≠ .clearing ∧
    ((c.go messages).phase.ofRelease = true → c.releases = true) := by
  cases messages with
  | nil =>
    unfold Call.go
    cases hreleases : c.releases <;> simp [Phase.ofRelease]
  | cons m rest =>
    show m.first ≠ .taking ∧ m.first ≠ .clearing ∧ (m.first.ofRelease = true → c.releases = true)
    unfold Message.first
    split_ifs
    · exact ⟨by decide, by decide, fun h => by cases h⟩
    · exact ⟨by decide, by decide, fun h => by cases h⟩

theorem Call.upcoming_go {c : Call} {messages : List Message} (hreleases : c.releases = true)
    (hups : ∀ m ∈ messages, m.action = actionUp) :
    (c.go messages).upcoming = messages.map Message.input := by
  unfold Call.upcoming
  rcases Call.go_phase_of_ups hreleases hups with h | h <;> rw [h] <;> simp

namespace Session
variable {s s' : Session}

/-- INVARIANT: what holds of a call. -/
structure CallInv (s : Session) (c : Call) : Prop where
  recorded : s.connected = true → ∀ p, c.presses = some p → p ∈ s.held
  ups : c.releases = true → ∀ m ∈ c.messages, m.action = actionUp
  failed : c.releases = true → c.error = true → s.connected = false
  taking : c.phase = .taking ∨ c.phase = .clearing → s.connected = false
  clearing : c.phase = .clearing → s.socket = false
  closing : c.phase = .closing → c.messages = []
  kind : c.phase.ofRelease = true → c.releases = true
  /-- Nothing is down but what it is going to release. -/
  left : s.connected = true → c.releases = true → c.alone = true → c.phase.listed = true →
    ∀ p ∈ s.device, p ∈ c.upcoming

/-- INVARIANT: as long as the session is connected, what is down is recorded. -/
structure Inv (s : Session) : Prop where
  held : s.connected = true → ∀ p ∈ s.device, p ∈ s.held
  call : ∀ c ∈ s.calls, s.CallInv c
  alone : ∀ c ∈ s.calls, c.releases = true → c.alone = true → c.phase ≠ .ended →
    ∀ c' ∈ s.calls, c'.releases = false → c'.phase = .ended
  promise : s.Promise

/-- A call that has ended needs nothing. -/
theorem CallInv.ended {c : Call} (hphase : c.phase = .ended) (hmessages : c.messages = [])
    (hfailed : c.releases = true → c.error = true → s.connected = false) : s.CallInv c where
  recorded := fun _ p hp => by
    unfold Call.presses at hp
    rw [hphase] at hp
    cases hp
  ups := fun _ m hm => by
    rw [hmessages] at hm
    cases hm
  failed := hfailed
  taking := fun h => by
    rw [hphase] at h
    rcases h with h | h <;> cases h
  clearing := fun h => by
    rw [hphase] at h
    cases h
  closing := fun _ => hmessages
  kind := fun h => by
    rw [hphase] at h
    cases h
  left := fun _ _ _ h => by
    rw [hphase] at h
    cases h

/-- FRAME: a call that does nothing while others do. -/
theorem CallInv.frame {c : Call} (hc : s.CallInv c) (hconnected : s'.connected = true → s.connected = true)
    (hsocket : s.socket = false → s'.socket = false)
    (hheld : s'.connected = true → ∀ p, c.presses = some p → p ∈ s.held → p ∈ s'.held)
    (hdevice : s'.connected = true → c.releases = true → c.alone = true → c.phase ≠ .ended →
      ∀ p ∈ s'.device, p ∈ s.device) : s'.CallInv c where
  recorded := fun h p hp => hheld h p hp (hc.recorded (hconnected h) p hp)
  ups := hc.ups
  failed := fun hr he => by
    have := hc.failed hr he
    rw [← Bool.not_eq_true] at this ⊢
    exact fun h => this (hconnected h)
  taking := fun h => by
    have := hc.taking h
    rw [← Bool.not_eq_true] at this ⊢
    exact fun h => this (hconnected h)
  clearing := fun h => hsocket (hc.clearing h)
  closing := hc.closing
  kind := hc.kind
  left := fun h hr ha hl p hp => by
    have hne : c.phase ≠ .ended := by
      intro hended
      rw [hended] at hl
      cases hl
    exact hc.left (hconnected h) hr ha hl p (hdevice h hr ha hne p hp)

/-- UPDATE RULE: one call goes on, and the session with it. -/
theorem Inv.update (hi : s.Inv) {k : Nat} {c c' : Call} (hk : s.calls[k]? = some c)
    {connected socket : Bool} {held device : List Input}
    (hconnected : connected = true → s.connected = true) (hsocket : s.socket = false → socket = false)
    (hheld : connected = true → ∀ p ∈ device, p ∈ held)
    (hkeep : connected = true → ∀ c₁ ∈ s.calls, ∀ p, c₁.presses = some p → p ∈ s.held → p ∈ held)
    (hdevice : c.releases = true → ∀ p ∈ device, p ∈ s.device) (hrunning : c.phase ≠ .ended)
    (hreleases : c'.releases = c.releases) (halone : c'.alone = c.alone)
    (hcall : CallInv ⟨connected, socket, held, device, s.calls, s.log⟩ c') :
    Inv ⟨connected, socket, held, device, s.calls.set k c', s.log⟩ where
  held := hheld
  call := fun c₁ hc₁ => by
    obtain ⟨j, hj⟩ := List.mem_iff_getElem?.mp hc₁
    rcases (Token.getElem?_set_eq_some hk).mp hj with ⟨_, rfl⟩ | ⟨_, hj⟩
    · exact ⟨hcall.recorded, hcall.ups, hcall.failed, hcall.taking, hcall.clearing, hcall.closing,
        hcall.kind, hcall.left⟩
    · have hmem : c₁ ∈ s.calls := List.mem_of_getElem? hj
      refine (hi.call c₁ hmem).frame hconnected hsocket (fun h => hkeep h c₁ hmem)
        fun _ hr ha hne => hdevice ?_
      by_contra hplain
      exact hrunning (hi.alone c₁ hmem hr ha hne c (List.mem_of_getElem? hk)
        (Bool.not_eq_true _ ▸ hplain))
  alone := fun c₁ hc₁ hr ha hne c₂ hc₂ hplain => by
    have hold : ∀ c₃, c₃ ∈ s.calls.set k c' → c₃ = c' ∨ c₃ ∈ s.calls := fun c₃ hmem =>
      (List.mem_or_eq_of_mem_set hmem).symm
    rcases hold c₁ hc₁ with rfl | hmem₁
    · have hall := hi.alone c (List.mem_of_getElem? hk) (hreleases ▸ hr) (halone ▸ ha) hrunning
      rcases hold c₂ hc₂ with rfl | hmem₂
      · rw [hr] at hplain
        cases hplain
      · exact hall c₂ hmem₂ hplain
    · have hall := hi.alone c₁ hmem₁ hr ha hne
      rcases hold c₂ hc₂ with rfl | hmem₂
      · exact absurd (hall c (List.mem_of_getElem? hk) (hreleases ▸ hplain)) hrunning
      · exact hall c₂ hmem₂ hplain
  promise := hi.promise

/-! ### Steps -/

/-- The call goes on with messages that are left. -/
theorem CallInv.go {c : Call} {messages : List Message}
    (hups : c.releases = true → ∀ m ∈ messages, m.action = actionUp)
    (hfailed : c.releases = true → c.error = true → s.connected = false)
    (hleft : s.connected = true → c.releases = true → c.alone = true →
      ∀ p ∈ s.device, p ∈ messages.map Message.input) : s.CallInv (c.go messages) where
  recorded := fun _ p hp => by
    rw [Call.go_presses] at hp
    cases hp
  ups := fun hr m hm => by
    rw [Call.go_releases] at hr
    rw [Call.go_messages] at hm
    exact hups hr m hm
  failed := by
    rw [Call.go_releases, Call.go_error]
    exact hfailed
  taking := fun h => by
    rcases h with h | h
    · exact absurd h (Call.go_phase c messages).1
    · exact absurd h (Call.go_phase c messages).2.1
  clearing := fun h => absurd h (Call.go_phase c messages).2.1
  closing := fun h => by
    cases messages with
    | nil => exact Call.go_messages c []
    | cons m rest =>
      change m.first = .closing at h
      unfold Message.first at h
      split_ifs at h
  kind := fun h => by
    rw [Call.go_releases]
    exact (Call.go_phase c messages).2.2 h
  left := fun hconnected hr ha _ p hp => by
    rw [Call.go_releases] at hr
    rw [Call.go_alone] at ha
    rw [Call.upcoming_go hr (hups hr)]
    exact hleft hconnected hr ha p hp

/-- A message fails where the session is not connected any more. -/
theorem CallInv.fail {c : Call} (hups : c.releases = true → ∀ m ∈ c.messages, m.action = actionUp)
    (hgone : s.connected = false) : s.CallInv c.fail := by
  unfold Call.fail
  split_ifs with hreleases
  · refine CallInv.go (c := { c with error := true })
      (fun hr m hm => hups hr m (List.mem_of_mem_tail hm)) (fun _ _ => hgone) fun h => ?_
    rw [hgone] at h
    cases h
  · exact .ended rfl rfl fun _ _ => hgone

theorem CallInv.phase {c : Call} (hc : s.CallInv c)
    (hlisted : c.phase.listed = true) {phase : Phase} (hplain' : phase.ofRelease = false)
    (hremoving : c.phase ≠ .removing) (hremoving' : phase ≠ .removing)
    (hpresses : ∀ p, Call.presses { c with phase := phase } = some p → p ∈ s.held) :
    s.CallInv { c with phase := phase } where
  recorded := fun _ => hpresses
  ups := hc.ups
  failed := hc.failed
  taking := fun h => by
    rcases h with h | h <;> (change phase = _ at h; rw [h] at hplain'; cases hplain')
  clearing := fun h => by
    change phase = _ at h
    rw [h] at hplain'
    cases hplain'
  closing := fun h => by
    change phase = _ at h
    rw [h] at hplain'
    cases hplain'
  kind := fun h => by
    change phase.ofRelease = true at h
    rw [hplain'] at h
    cases h
  left := fun hconnected hr ha _ p hp => by
    have hold := hc.left hconnected hr ha hlisted p hp
    have hupcoming : Call.upcoming { c with phase := phase } = c.upcoming := by
      have hleft : Call.upcoming { c with phase := phase } = c.messages.map Message.input := by
        unfold Call.upcoming
        split
        · exact absurd ‹_› hremoving'
        · rfl
      have hright : c.upcoming = c.messages.map Message.input := by
        unfold Call.upcoming
        split
        · exact absurd ‹_› hremoving
        · rfl
      rw [hleft, hright]
    rw [hupcoming]
    exact hold

theorem mem_apply {m : Message} {device : List Input} {p : Input} (h : p ∈ m.apply device) :
    p ∈ device ∨ (m.action = actionDown ∧ p = m.input) := by
  unfold Message.apply at h
  split_ifs at h with hdown hup
  · rcases List.mem_insert_iff.mp h with rfl | h
    · exact .inr ⟨hdown, rfl⟩
    · exact .inl h
  · exact .inl (List.mem_filter.mp h).1
  · exact .inl h

/-- STEP: a message of a call goes on. -/
theorem Inv.stepMessage (hi : s.Inv) {k : Nat} {c : Call} {m : Message} {move : Move}
    (hk : s.calls[k]? = some c) (hm : c.messages.head? = some m)
    (hkept : ∀ j, move = .remove j → m.input ∉ s.device ∧ ∀ c' ∈ s.calls, c'.presses ≠ some m.input)
    (h : s.stepMessage k c m move = some s') : s'.Inv := by
  have hmem : c ∈ s.calls := List.mem_of_getElem? hk
  have hc := hi.call c hmem
  obtain ⟨rest, hmessages⟩ : ∃ rest, c.messages = m :: rest := by
    cases hc₀ : c.messages with
    | nil => rw [hc₀] at hm; cases hm
    | cons m' rest => rw [hc₀] at hm; cases hm; exact ⟨rest, rfl⟩
  have hhead : m ∈ c.messages := by rw [hmessages]; exact List.mem_cons_self
  -- a message that fails leaves the session behind
  have hfail : ∀ {connected socket : Bool}, connected = false → (s.socket = false → socket = false) →
      c.phase ≠ .ended →
      Inv ⟨connected, socket, s.held, s.device, s.calls.set k c.fail, s.log⟩ := by
    intro connected socket hgone hsocket hrunning
    refine hi.update hk (fun h => ?_) hsocket (fun h => ?_) (fun h => ?_) (fun _ p hp => hp) hrunning
      (Call.fail_releases c) (Call.fail_alone c) (.fail hc.ups hgone)
    all_goals rw [hgone] at h; cases h
  cases move with
  | record _ =>
    rw [Session.stepMessage] at h
    split_ifs at h with hphase
    cases h
    refine hi.update hk id id (fun hcon p hp => ?_) (fun hcon c₁ _ p _ hp => ?_) (fun _ p hp => hp)
      (by rw [hphase]; decide) rfl rfl ?_
    · exact List.mem_insert_of_mem (hi.held hcon p hp)
    · exact List.mem_insert_of_mem hp
    · have hc' : CallInv ⟨s.connected, s.socket, s.held.insert m.input, s.device, s.calls, s.log⟩ c :=
        hc.frame id id (fun _ p _ hp => List.mem_insert_of_mem hp) fun _ _ _ _ p hp => hp
      refine hc'.phase (by rw [hphase]; rfl) rfl (by rw [hphase]; decide) (by decide) fun p hp => ?_
      rw [(Call.presses_eq (c := { c with phase := .checking }) hm hp).1]
      exact List.mem_insert_self
  | check _ =>
    rw [Session.stepMessage] at h
    split_ifs at h with hphase hconnected
    · cases h
      rw [not_not] at hphase
      refine hi.update hk id id hi.held (fun _ _ _ _ _ hp => hp) (fun _ p hp => hp)
        (by rw [hphase]; decide) rfl rfl ?_
      refine hc.phase (by rw [hphase]; rfl) rfl (by rw [hphase]; decide) (by decide) fun p hp => ?_
      refine hc.recorded hconnected p ?_
      rw [← hp]
      simp [Call.presses, hphase]
    · cases h
      rw [not_not] at hphase
      exact hfail (Bool.not_eq_true _ ▸ hconnected) id (by rw [hphase]; decide)
  | enter _ =>
    rw [Session.stepMessage] at h
    split_ifs at h with hphase hconnected hsocket
    all_goals
      simp only [Bool.or_eq_true, decide_eq_true_eq, not_or, not_not] at hphase
      cases h
    · exact hfail (by simpa using hconnected) id (by rw [hphase.1]; decide)
    · exact hfail rfl id (by rw [hphase.1]; decide)
    · refine hi.update hk id id hi.held (fun _ _ _ _ _ hp => hp) (fun _ p hp => hp)
        (by rw [hphase.1]; decide) rfl rfl ?_
      refine hc.phase (by rw [hphase.1]; rfl) rfl (by rw [hphase.1]; decide) (by decide) fun p hp => ?_
      refine hc.recorded (by simpa using hconnected) p ?_
      rw [← hp]
      simp [Call.presses, hphase.1]
  | write _ ok =>
    rw [Session.stepMessage] at h
    split_ifs at h with hphase hok hup
    all_goals
      rw [not_not] at hphase
      cases h
    · exact hfail rfl (fun _ => rfl) (by rw [hphase]; decide)
    · have hdevice : ∀ p ∈ m.apply s.device, p ∈ s.device ∧ p ≠ m.input := by
        intro p hp
        have hdown : m.action ≠ actionDown := by rw [hup]; decide
        rw [Message.apply, if_neg hdown, if_pos hup] at hp
        simpa using hp
      refine hi.update hk id id (fun hcon p hp => hi.held hcon p (hdevice p hp).1)
        (fun _ _ _ _ _ hp => hp) (fun _ p hp => (hdevice p hp).1) (by rw [hphase]; decide) rfl rfl ?_
      refine ⟨fun _ p hp => ?_, hc.ups, hc.failed, fun h => ?_, fun h => ?_, fun h => ?_, fun h => ?_,
        fun hcon hr ha _ p hp => ?_⟩
      · cases hp
      · rcases h with h | h <;> cases h
      · cases h
      · cases h
      · cases h
      · have hup' := hc.left hcon hr ha (by rw [hphase]; rfl) p (hdevice p hp).1
        have hold : c.upcoming = c.messages.map Message.input := by
          simp [Call.upcoming, hphase]
        rw [hold, hmessages] at hup'
        rcases List.mem_cons.mp hup' with heq | hmem'
        · exact absurd heq (hdevice p hp).2
        · show p ∈ c.messages.tail.map Message.input
          rw [hmessages]
          exact hmem'
    · have hpresses : m.action = actionDown → c.presses = some m.input := by
        intro hdown
        simp [Call.presses, hphase, hmessages, hdown]
      have hplain : c.releases = true → False := fun hr => hup (hc.ups hr m hhead)
      refine hi.update hk id id (fun hcon p hp => ?_) (fun _ _ _ _ _ hp => hp)
        (fun hr => (hplain hr).elim) (by rw [hphase]; decide) (Call.go_releases _ _)
        (Call.go_alone _ _) (.go (fun hr m' hm' => hc.ups hr m' (List.mem_of_mem_tail hm'))
          (fun hr => (hplain hr).elim) fun _ hr => (hplain hr).elim)
      rcases mem_apply hp with hp | ⟨hdown, rfl⟩
      · exact hi.held hcon p hp
      · exact hc.recorded hcon _ (hpresses hdown)
  | remove _ =>
    rw [Session.stepMessage] at h
    split_ifs at h with hphase
    cases h
    obtain ⟨hup, hnone⟩ := hkept _ rfl
    have hstays : ∀ {p : Input}, p ≠ m.input → p ∈ s.held → p ∈ s.held.filter (· ≠ m.input) :=
      fun hne hp => List.mem_filter.mpr ⟨hp, by simpa using hne⟩
    refine hi.update hk id id (fun hcon p hp => ?_) (fun _ c₁ hc₁ p hp => hstays ?_) (fun _ p hp => hp)
      (by rw [hphase]; decide) (Call.go_releases _ _) (Call.go_alone _ _)
      (.go (fun hr m' hm' => hc.ups hr m' (List.mem_of_mem_tail hm')) hc.failed
        fun hcon hr ha p hp => ?_)
    · refine hstays ?_ (hi.held hcon p hp)
      rintro rfl
      exact hup hp
    · rintro rfl
      exact hnone c₁ hc₁ hp
    · have hleft := hc.left hcon hr ha (by rw [hphase]; rfl) p hp
      simpa [Call.upcoming, hphase] using hleft
  | _ => cases h

/-- One call ends or goes on, and nothing else changes. -/
theorem Inv.setCall (hi : s.Inv) {k : Nat} {c c' : Call} (hk : s.calls[k]? = some c)
    (hrunning : c.phase ≠ .ended) (hreleases : c'.releases = c.releases)
    (halone : c'.alone = c.alone) (hcall : s.CallInv c') : (s.setCall k c').Inv :=
  hi.update hk id id hi.held (fun _ _ _ _ _ hp => hp) (fun _ _ hp => hp) hrunning hreleases halone
    ⟨hcall.recorded, hcall.ups, hcall.failed, hcall.taking, hcall.clearing, hcall.closing,
      hcall.kind, hcall.left⟩

/-- A release that is left without messages. -/
theorem CallInv.idle {c : Call} (hc : s.CallInv c) {phase : Phase} (hreleases : c.releases = true)
    (hlisted : phase.listed = false) (htaking : phase = .taking ∨ phase = .clearing →
      s.connected = false) (hclearing : phase = .clearing → s.socket = false) :
    s.CallInv { c with phase := phase } where
  recorded := fun _ _ hp => by
    unfold Call.presses at hp
    split at hp
    all_goals first
      | cases hp
      | (rename_i hphase; change phase = _ at hphase; rw [hphase] at hlisted; cases hlisted)
  ups := hc.ups
  failed := hc.failed
  taking := htaking
  clearing := hclearing
  closing := fun h => by
    change phase = _ at h
    rw [h] at hlisted
    cases hlisted
  kind := fun _ => hreleases
  left := fun _ _ _ h => by
    change phase.listed = true at h
    rw [hlisted] at h
    cases h

/-- A release returns `Ok`. -/
theorem Inv.released (hi : s.Inv) (c : Call)
    (h : c.alone = true → (s.connected = false ∧ s.socket = false) ∨ s.device = []) :
    (s.released c).Inv where
  held := hi.held
  call := fun c₁ hc₁ => (hi.call c₁ hc₁).frame id id (fun _ _ _ hp => hp) fun _ _ _ _ _ hp => hp
  alone := hi.alone
  promise := fun r hr ha => by
    rcases List.mem_cons.mp hr with rfl | hr
    · exact h ha
    · exact hi.promise r hr ha

/-- STEP: a `release_inputs` goes on. -/
theorem Inv.stepRelease (hi : s.Inv) {k : Nat} {c : Call} {move : Move} (hk : s.calls[k]? = some c)
    (h : s.stepRelease k c move = some s') : s'.Inv := by
  have hc := hi.call c (List.mem_of_getElem? hk)
  cases move with
  | test _ =>
    rw [Session.stepRelease] at h
    split_ifs at h with hphase hconnected
    all_goals
      rw [not_not] at hphase
      cases h
    · refine hi.setCall hk (by rw [hphase]; decide) rfl rfl
        (hc.idle (hc.kind (by rw [hphase]; rfl)) rfl (fun h => ?_) fun h => by cases h)
      rcases h with h | h <;> cases h
    · exact hi.setCall hk (by rw [hphase]; decide) rfl rfl
        (hc.idle (hc.kind (by rw [hphase]; rfl)) rfl (fun _ => by simpa using hconnected)
          fun h => by cases h)
  | list _ =>
    rw [Session.stepRelease] at h
    split_ifs at h with hphase
    cases h
    have hups : ∀ m ∈ s.held.map fun input => (⟨input, actionUp⟩ : Message), m.action = actionUp := by
      intro m hm
      obtain ⟨input, _, rfl⟩ := List.mem_map.mp hm
      rfl
    refine hi.setCall hk (by rw [hphase]; decide) (Call.go_releases _ _) (Call.go_alone _ _)
      (.go (fun _ => hups) hc.failed fun hcon _ _ p hp => ?_)
    -- what is down is recorded, and so it is on the list
    rw [List.map_map]
    exact List.mem_map.mpr ⟨p, hi.held hcon p hp, rfl⟩
  | close _ =>
    rw [Session.stepRelease] at h
    split_ifs at h with hphase hconnected herror
    all_goals
      rw [not_not] at hphase
      cases h
      have hreleases := hc.kind (by rw [hphase]; rfl)
    · exact hi.setCall hk (by rw [hphase]; decide) rfl rfl
        (hc.idle hreleases rfl (fun _ => by simpa using hconnected) fun h => by cases h)
    · refine hi.setCall hk (by rw [hphase]; decide) rfl rfl
        (hc.idle hreleases rfl (fun h => ?_) fun h => by cases h)
      rcases h with h | h <;> cases h
    · have hcon : s.connected = true := by simpa using hconnected
      have hended : (s.setCall k { c with phase := .ended }).Inv := by
        refine hi.setCall hk (by rw [hphase]; decide) rfl rfl
          (hc.idle hreleases rfl (fun h => ?_) fun h => by cases h)
        rcases h with h | h <;> cases h
      · refine hended.released c fun ha => .inr ?_
        refine List.eq_nil_iff_forall_not_mem.mpr fun p hp => ?_
        have hleft := hc.left hcon hreleases ha (by rw [hphase]; rfl) p hp
        simp [Call.upcoming, hphase, hc.closing hphase] at hleft
  | take _ =>
    rw [Session.stepRelease] at h
    split_ifs at h with htake
    cases h
    simp only [Bool.and_eq_true, decide_eq_true_eq] at htake
    have hphase := htake.1
    have hgone := hc.taking (.inl hphase)
    have hreleases := hc.kind (by rw [hphase]; rfl)
    refine hi.update hk id (fun _ => rfl) hi.held (fun _ _ _ _ _ hp => hp) (fun _ p hp => hp)
      (by rw [hphase]; decide) rfl rfl ?_
    have hc' : CallInv ⟨s.connected, false, s.held, s.device, s.calls, s.log⟩ c :=
      hc.frame id (fun _ => rfl) (fun _ _ _ hp => hp) fun _ _ _ _ _ hp => hp
    exact hc'.idle hreleases rfl (fun _ => hgone) fun _ => rfl
  | clear _ =>
    rw [Session.stepRelease] at h
    split_ifs at h with hphase
    cases h
    have hgone := hc.taking (.inr hphase)
    have hreleases := hc.kind (by rw [hphase]; rfl)
    have hvoid : ∀ {P : Prop}, s.connected = true → P := fun h => by
      rw [hgone] at h
      cases h
    have hc' : CallInv ⟨s.connected, s.socket, [], s.device, s.calls, s.log⟩ c :=
      hc.frame id id hvoid fun _ _ _ _ _ hp => hp
    have hended : (Session.setCall { s with held := [] } k { c with phase := .ended }).Inv :=
      hi.update hk id id hvoid hvoid (fun _ p hp => hp) (by rw [hphase]; decide) rfl rfl
        (hc'.idle hreleases rfl (fun _ => hgone) fun h => by cases h)
    exact hended.released c fun _ => .inl ⟨hgone, hc.clearing hphase⟩
  | _ => cases h

/-! ### Runs -/

/-- STEP: every move keeps the invariant, as long as no record is removed too late. -/
theorem Inv.step (hi : s.Inv) {move : Move} (hkept : s.kept move = true) (h : s.step move = some s') :
    s'.Inv := by
  have hmessage : ∀ k : Nat, (s.calls[k]?.bind fun c => c.messages.head?.bind fun m =>
      s.stepMessage k c m move) = some s' →
      (∀ (c : Call) (m : Message), s.calls[k]? = some c → c.messages.head? = some m →
        ∀ j, move = .remove j →
          m.input ∉ s.device ∧ ∀ c' ∈ s.calls, c'.presses ≠ some m.input) → s'.Inv := by
    intro k h hk
    obtain ⟨c, hc, h⟩ := Option.bind_eq_some_iff.mp h
    obtain ⟨m, hm, h⟩ := Option.bind_eq_some_iff.mp h
    exact hi.stepMessage hc hm (hk c m hc hm) h
  have hrelease : ∀ k : Nat, (s.calls[k]?.bind fun c => s.stepRelease k c move) = some s' → s'.Inv := by
    intro k h
    obtain ⟨c, hc, h⟩ := Option.bind_eq_some_iff.mp h
    exact hi.stepRelease hc h
  cases move with
  | request r =>
    cases h
    have hnone : ∀ c ∈ (s.calls.map fun c => { c with alone := false }) ++
        [Call.go ⟨false, [], .ended, false, false⟩ r.messages], c.alone = false := by
      intro c hc
      rcases List.mem_append.mp hc with hc | hc
      · obtain ⟨c₀, _, rfl⟩ := List.mem_map.mp hc
        rfl
      · obtain rfl := List.mem_singleton.mp hc
        exact Call.go_alone _ _
    refine ⟨hi.held, fun c hc => ?_, fun c hc _ ha => ?_, hi.promise⟩
    · rcases List.mem_append.mp hc with hc | hc
      · obtain ⟨c₀, hc₀, rfl⟩ := List.mem_map.mp hc
        have hold := hi.call c₀ hc₀
        exact ⟨hold.recorded, hold.ups, hold.failed, hold.taking, hold.clearing, hold.closing,
          hold.kind, fun _ _ ha => by cases ha⟩
      · obtain rfl := List.mem_singleton.mp hc
        exact .go (fun h => by cases h) (fun h => by cases h) fun _ h => by cases h
    · rw [hnone c hc] at ha
      cases ha
  | releaseInputs =>
    cases h
    refine ⟨hi.held, fun c hc => ?_, fun c hc hr ha hne c' hc' hplain => ?_, hi.promise⟩
    · rcases List.mem_append.mp hc with hc | hc
      · exact (hi.call c hc).frame id id (fun _ _ _ hp => hp) fun _ _ _ _ _ hp => hp
      · obtain rfl := List.mem_singleton.mp hc
        refine ⟨fun _ p hp => ?_, fun _ m hm => ?_, fun _ h => ?_, fun h => ?_, fun h => ?_,
          fun _ => rfl, fun _ => rfl, fun _ _ _ h => ?_⟩
        · cases hp
        · cases hm
        · cases h
        · rcases h with h | h <;> cases h
        · cases h
        · cases h
    · rcases List.mem_append.mp hc' with hc' | hc'
      · rcases List.mem_append.mp hc with hc | hc
        · exact hi.alone c hc hr ha hne c' hc' hplain
        · obtain rfl := List.mem_singleton.mp hc
          have hquiet : s.pressing = false := by simpa using ha
          have hcalm := List.any_eq_false.mp hquiet c' hc'
          simpa [hplain] using hcalm
      · obtain rfl := List.mem_singleton.mp hc'
        cases hplain
  | disconnect =>
    cases h
    refine ⟨fun h => (by cases h), fun c hc => ?_, hi.alone, hi.promise⟩
    exact (hi.call c hc).frame (fun h => by cases h) id (fun h => by cases h) fun h => by cases h
  | record k => exact hmessage k h fun _ _ _ _ _ hj => by cases hj
  | check k => exact hmessage k h fun _ _ _ _ _ hj => by cases hj
  | enter k => exact hmessage k h fun _ _ _ _ _ hj => by cases hj
  | write k ok => exact hmessage k h fun _ _ _ _ _ hj => by cases hj
  | remove k =>
    refine hmessage k h fun c m hc hm _ _ => ?_
    rw [kept, hc] at hkept
    simpa [hm] using hkept
  | test k => exact hrelease k h
  | list k => exact hrelease k h
  | close k => exact hrelease k h
  | take k => exact hrelease k h
  | clear k => exact hrelease k h
  | drop k =>
    obtain ⟨c, hc, h⟩ := Option.bind_eq_some_iff.mp h
    rw [stepDrop] at h
    split_ifs at h with hended
    cases h
    exact hi.setCall hc hended rfl rfl (.ended rfl rfl (hi.call c (List.mem_of_getElem? hc)).failed)

theorem Inv.start : Inv {} where
  held := fun _ p hp => by cases hp
  call := fun c hc => by cases hc
  alone := fun c hc => by cases hc
  promise := fun r hr => by cases hr

/-- RUN: as long as no record is removed behind a later press of the same input, a release that met
    no other call leaves nothing down. -/
theorem nothing_down_of_kept {moves : List Move}
    (hkept : Along Session.step (fun s m => s.kept m = true) {} moves)
    (hrun : exec Session.step {} moves = some s) : s.Promise := by
  have hinv : s.Inv := ReachesBy.invariant ⟨moves, hrun, hkept⟩
    (fun s move s' hi hkept h => hi.step hkept h) .start
  exact hinv.promise

/-- A press that is released, and a release of nothing. -/
def sampleMoves : List Move :=
  [.request (.pressKey 3), .record 0, .check 0, .enter 0, .write 0 true, .check 0, .enter 0,
    .write 0 true, .remove 0, .releaseInputs, .test 1, .list 1, .close 1]

theorem nothing_down_of_kept_sample : ∃ s : Session, exec Session.step {} sampleMoves = some s ∧
    s.log = [⟨true, true, true, []⟩] ∧ s.Promise := by
  have hkept : Along Session.step (fun s m => s.kept m = true) {} sampleMoves := by decide +kernel
  exact ⟨_, rfl, rfl, nothing_down_of_kept hkept rfl⟩

/-- Two fingers on one pointer: the second press is written before the first one's record goes. -/
def lateRemoval : List Move :=
  [.request (.injectTouch actionDown 7), .record 0, .check 0, .enter 0, .write 0 true,
    .request (.injectTouch actionUp 7), .check 1, .enter 1, .write 1 true,
    .request (.injectTouch actionDown 7), .record 2, .check 2, .enter 2, .write 2 true,
    .remove 1, .releaseInputs, .test 3, .list 3, .close 3]

/-- The pointer is down when `release_inputs` returns `Ok`. -/
theorem lateRemoval_down : ∃ s : Session, exec Session.step {} lateRemoval = some s ∧
    s.log = [⟨true, true, true, [.pointer 7]⟩] ∧ ¬ s.Promise := by
  refine ⟨_, rfl, rfl, fun hpromise => ?_⟩
  rcases hpromise _ List.mem_cons_self rfl with ⟨h, _⟩ | h
  · cases h
  · cases h

end Session

end Gamer.Device.HeldInputs
