import Gamer.Lib.Results
import Gamer.Packages.Resources

/-! No lost update. Between the gate and the replacement the lock is held, so the file that a write
    replaces is the one whose version was compared. The writers give a file that they cannot read the
    empty version, which a client can send.

        gate: expected = version b ──lock held──▶ replace: before = b                       -/

namespace Gamer.Packages
open Gamer.Lib

variable (p : Platform)

/-- A write without force creates a file and has no version, or has the version of what it replaces. -/
def Written.Justified (w : Written) : Prop :=
  w.force = false → (w.before = none ∧ w.expected = none) ∨
    ∃ b, w.before = some b ∧ w.expected = some (bytesVersion p b)

def NoLostUpdate (s : State) : Prop := ∀ w ∈ s.log, w.Justified p

/-- The next write of the client has the empty version, no force, and a file to replace. -/
def Blind (s : State) (c : Nat) : Prop :=
  ∃ place bytes b, s.phases c = .writing place bytes (some "") false ∧ s.disk place = some b

/-- No blind write replaces its file. -/
def Careful (s : State) : Action → Prop
  | .proceed c o => o.works = true → ¬ Blind s c
  | _ => True

/-! ### Versions -/

theorem bytesVersion_ne_empty (b : ByteArray) : bytesVersion p b ≠ "" := by
  intro h
  have hlen := congrArg (fun s : String => s.toList.length) h
  simp only [bytesVersion, String.toList_ofList, List.length_flatMap, List.length_cons,
    List.length_nil, List.map_const', List.length_take, p.sha256_length,
    List.sum_replicate_nat] at hlen
  exact absurd hlen (by decide)

/-- Text's version is its bytes'. -/
theorem textCurrent_eq (readable : Bool) (b : ByteArray) :
    textCurrent p readable b = bytesVersion p b ∨ textCurrent p readable b = "" := by
  unfold textCurrent readToString
  split
  · cases htext : String.fromUTF8? b with
    | none => exact .inr rfl
    | some text =>
      refine .inl ?_
      unfold String.fromUTF8? at htext
      split at htext <;> cases htext
      rfl
  · exact .inr rfl

theorem binaryCurrent_eq (readable : Bool) (b : ByteArray) :
    binaryCurrent p readable b = bytesVersion p b ∨ binaryCurrent p readable b = "" := by
  unfold binaryCurrent
  split
  · exact .inl rfl
  · exact .inr rfl

/-! ### The lock -/

/-- The client is behind the lock. -/
def Phase.inside : Phase → Bool
  | .idle | .waiting _ => false
  | _ => true

/-- What a client behind the lock has made sure of. -/
def Phase.Sure (d : Disk) : Phase → Prop
  | .writing place _ expected force => force = false →
      (d place = none ∧ expected = none) ∨
      ∃ b, d place = some b ∧ (expected = some (bytesVersion p b) ∨ expected = some "")
  | .staging old new _ expected | .relocating old new _ expected =>
      old ≠ new ∧ ∃ b, d old = some b ∧ bytesVersion p b = expected
  | .publishing _ new _ expected => ∃ b, d new = some b ∧ bytesVersion p b = expected
  | _ => True

/-- INVARIANT: only the holder is behind the lock, and what it made sure of still holds. -/
structure Inv (s : State) : Prop where
  alone : ∀ c, (s.phases c).inside = true → s.holder = some c
  sure : ∀ c, (s.phases c).Sure p s.disk

variable {p}

theorem Phase.Sure.of_outside {d : Disk} {phase : Phase} (h : phase.inside = false) :
    phase.Sure p d := by
  cases phase with
  | idle | waiting _ => trivial
  | _ => cases h

theorem Inv.others {s : State} (h : Inv p s) {c : Nat} (hc : s.holder = some c) {d : Nat}
    (hne : d ≠ c) : (s.phases d).inside = false := by
  cases hin : (s.phases d).inside with
  | false => rfl
  | true => exact absurd (Option.some.inj ((h.alone d hin).symm.trans hc)) hne

/-- RULE: whatever the holder did to the disk, when its call returns nobody is behind the lock. -/
theorem Inv.answered {s : State} {c : Nat} (hothers : ∀ d, d ≠ c → (s.phases d).inside = false)
    (result : Except String Unit) : Inv p (s.answer c result) := by
  have hout : ∀ d, ((s.answer c result).phases d).inside = false := by
    intro d
    by_cases hd : d = c
    · simp [State.answer, State.setPhase, hd, Phase.inside]
    · simpa [State.answer, State.setPhase, hd] using hothers d hd
  refine ⟨fun d hd => ?_, fun d => .of_outside (hout d)⟩
  rw [hout d] at hd
  cases hd

/-- RULE: the holder goes on with something it has made sure of. -/
theorem Inv.advanced {s : State} {c : Nat} (hc : s.holder = some c)
    (hothers : ∀ d, d ≠ c → (s.phases d).inside = false) {phase : Phase}
    (hsure : phase.Sure p s.disk) : Inv p (s.setPhase c phase) := by
  have hphase : ∀ d, d ≠ c → (s.setPhase c phase).phases d = s.phases d :=
    fun d hd => by simp [State.setPhase, hd]
  have hself : (s.setPhase c phase).phases c = phase := by simp [State.setPhase]
  refine ⟨fun d hd => ?_, fun d => ?_⟩ <;> by_cases heq : d = c
  · rw [heq]
    exact hc
  · rw [hphase d heq, hothers d heq] at hd
    cases hd
  · rw [heq, hself]
    exact hsure
  · rw [hphase d heq]
    exact .of_outside (hothers d heq)

/-! ### The gate -/

/-- INVERSION: what gets through the gate without force. -/
theorem gate_ok {current expected : Option String} (h : gate current expected false = .ok ()) :
    current = expected := by
  cases current with
  | none =>
    cases expected with
    | none => rfl
    | some e => cases h
  | some v =>
    cases expected with
    | none => cases h
    | some e =>
      simp only [gate, Bool.false_eq_true, if_false] at h
      split at h
      · cases h
      · rename_i heq
        rw [Decidable.of_not_not heq]

theorem lookWrite_sure {current : ByteArray → String} {d : Disk} {pkg plugin path : String}
    {bytes : ByteArray} {expected : Option String} {force : Bool} {phase : Phase}
    (hcurrent : ∀ b, current b = bytesVersion p b ∨ current b = "")
    (h : lookWrite p current d pkg plugin path bytes expected force = .ok phase) :
    phase.Sure p d := by
  obtain ⟨segs, _, h⟩ := bind_eq_ok.mp h
  obtain ⟨place, _, h⟩ := bind_eq_ok.mp h
  obtain ⟨_, hgate, h⟩ := bind_eq_ok.mp h
  cases h
  rintro rfl
  have hversion := gate_ok hgate
  cases hfile : d place with
  | none =>
    rw [hfile] at hversion
    exact .inl ⟨rfl, hversion.symm⟩
  | some b =>
    rw [hfile, Option.map_some] at hversion
    refine .inr ⟨b, rfl, ?_⟩
    rcases hcurrent b with hb | hb
    · exact .inl (by rw [← hversion, hb])
    · exact .inr (by rw [← hversion, hb])

/-- INVERSION: what the gate of each call lets through. -/
theorem look_sure {d : Disk} {readable : Bool} {call : Call} {phase : Phase}
    (h : look p d readable call = .ok phase) : phase.Sure p d := by
  cases call with
  | writeText pkg plugin path content expected force =>
    exact lookWrite_sure (textCurrent_eq p readable) h
  | writeBinary pkg plugin path bytes expected force =>
    exact lookWrite_sure (binaryCurrent_eq p readable) h
  | replaceBinary pkg plugin oldPath newPath bytes expected =>
    obtain ⟨old, _, h⟩ := bind_eq_ok.mp h
    obtain ⟨new, _, h⟩ := bind_eq_ok.mp h
    split at h
    · exact lookWrite_sure (binaryCurrent_eq p readable) h
    · rename_i hne
      obtain ⟨oldPlace, hold, h⟩ := bind_eq_ok.mp h
      obtain ⟨newPlace, hnew, h⟩ := bind_eq_ok.mp h
      cases hfile : d oldPlace with
      | none =>
        rw [hfile] at h
        cases h
      | some original =>
        simp only [hfile] at h
        split_ifs at h with hread hversion hthere
        cases h
        refine ⟨?_, original, hfile, Decidable.of_not_not hversion⟩
        rintro rfl
        simp [hfile] at hthere
  | renameResource pkg plugin oldPath newPath =>
    obtain ⟨old, _, h⟩ := bind_eq_ok.mp h
    obtain ⟨new, _, h⟩ := bind_eq_ok.mp h
    split at h
    · cases h
    · obtain ⟨oldPlace, _, h⟩ := bind_eq_ok.mp h
      obtain ⟨newPlace, _, h⟩ := bind_eq_ok.mp h
      split_ifs at h
      cases h
      trivial
  | deleteResource pkg plugin path =>
    obtain ⟨segs, _, h⟩ := bind_eq_ok.mp h
    obtain ⟨place, _, h⟩ := bind_eq_ok.mp h
    split_ifs at h
    cases h
    trivial

/-! ### Steps -/

theorem put_same (d : Disk) (at_ : Place) (bytes : ByteArray) : d.put at_ bytes at_ = some bytes := by
  simp [Disk.put]

theorem not_blind {s : State} {c : Nat} (h : ∀ place bytes, s.phases c ≠ .writing place bytes (some "") false) :
    ¬ Blind s c := by
  rintro ⟨place, bytes, b, hphase, _⟩
  exact h place bytes hphase

/-- The replacement of a write is justified exactly if it is not blind. -/
theorem writing_justified {s : State} {c : Nat} {place : Place} {bytes : ByteArray}
    {expected : Option String} {force : Bool}
    (hphase : s.phases c = .writing place bytes expected force)
    (hsure : (Phase.writing place bytes expected force).Sure p s.disk) :
    (Written.mk place (s.disk place) bytes expected force).Justified p ↔ ¬ Blind s c := by
  constructor
  · rintro hjust ⟨place', bytes', b, hblind, hfile⟩
    rw [hphase] at hblind
    cases hblind
    rcases hjust rfl with ⟨hnone, _⟩ | ⟨b', hb', hversion⟩
    · exact absurd (hfile.symm.trans hnone) (by simp)
    · exact bytesVersion_ne_empty p b' (Option.some.inj hversion).symm
  · rintro hblind rfl
    rcases hsure rfl with hnew | ⟨b, hfile, hversion | hempty⟩
    · exact .inl hnew
    · exact .inr ⟨b, hfile, hversion⟩
    · rw [hempty] at hphase
      exact absurd ⟨place, bytes, b, hphase, hfile⟩ hblind

/-- STEP: what the holder does keeps the invariant, and what it writes is justified exactly if it is
    not blind. -/
theorem proceed_step {s s' : State} (h : Inv p s) {c : Nat} (hc : s.holder = some c) {o : Outcome}
    (hstep : proceed p s c o (s.phases c) = some s') :
    Inv p s' ∧ ((s'.log = s.log ∧ (o.works = true → ¬ Blind s c)) ∨ ∃ w, s'.log = s.log ++ [w] ∧
      (w.Justified p ↔ (o.works = true → ¬ Blind s c))) := by
  have hothers : ∀ d, d ≠ c → (s.phases d).inside = false := fun d hd => h.others hc hd
  have hsure := h.sure c
  cases hphase : s.phases c with
  | idle => rw [hphase] at hstep; cases hstep
  | waiting call => rw [hphase] at hstep; cases hstep
  | entered call =>
    have hnot : ¬ Blind s c := not_blind fun _ _ => by simp [hphase]
    rw [hphase] at hstep
    simp only [proceed] at hstep
    cases hlook : look p s.disk o.readable call with
    | error e =>
      rw [hlook] at hstep
      cases hstep
      exact ⟨.answered hothers _, .inl ⟨rfl, fun _ => hnot⟩⟩
    | ok phase =>
      rw [hlook] at hstep
      cases hstep
      exact ⟨.advanced hc hothers (look_sure hlook), .inl ⟨rfl, fun _ => hnot⟩⟩
  | writing place bytes expected force =>
    rw [hphase] at hsure
    have hjust := writing_justified hphase hsure
    rw [hphase] at hstep
    simp only [proceed] at hstep
    split_ifs at hstep with hworks hlate
    · cases hstep
      exact ⟨.answered (s := s.replace place bytes expected force) hothers _, .inr ⟨_, rfl, by simp [hjust, hworks]⟩⟩
    · cases hstep
      exact ⟨.answered (s := { s with disk := s.disk.put place bytes }) hothers _, .inl ⟨rfl, fun hw => absurd hw hworks⟩⟩
    · cases hstep
      exact ⟨.answered hothers _, .inl ⟨rfl, fun hw => absurd hw hworks⟩⟩
  | staging old new bytes expected =>
    have hnot : ¬ Blind s c := not_blind fun _ _ => by simp [hphase]
    rw [hphase] at hstep hsure
    simp only [proceed] at hstep
    split_ifs at hstep <;> cases hstep
    · exact ⟨.advanced hc hothers hsure, .inl ⟨rfl, fun _ => hnot⟩⟩
    · exact ⟨.answered hothers _, .inl ⟨rfl, fun _ => hnot⟩⟩
  | relocating old new bytes expected =>
    have hnot : ¬ Blind s c := not_blind fun _ _ => by simp [hphase]
    rw [hphase] at hstep hsure
    obtain ⟨hne, b, hfile, hversion⟩ := hsure
    have hrename : (s.rename old new).disk new = some b := by
      simp only [State.rename, hfile]
      exact put_same _ new b
    have hlog : (s.rename old new).log = s.log := by simp only [State.rename, hfile]
    have hphases : (s.rename old new).phases = s.phases := by simp only [State.rename, hfile]
    have hholder : (s.rename old new).holder = s.holder := by simp only [State.rename, hfile]
    simp only [proceed] at hstep
    split_ifs at hstep <;> cases hstep
    · exact ⟨.answered hothers _, .inl ⟨rfl, fun _ => hnot⟩⟩
    · exact ⟨.answered hothers _, .inl ⟨rfl, fun _ => hnot⟩⟩
    · refine ⟨.advanced (hholder.trans hc) (by rwa [hphases]) ⟨b, hrename, hversion⟩,
        .inl ⟨hlog, fun _ => hnot⟩⟩
    · exact ⟨.answered hothers _, .inl ⟨rfl, fun _ => hnot⟩⟩
  | publishing old new bytes expected =>
    have hnot : ¬ Blind s c := not_blind fun _ _ => by simp [hphase]
    rw [hphase] at hstep hsure
    obtain ⟨b, hfile, hversion⟩ := hsure
    have hphases : (s.rename new old).phases = s.phases := by simp only [State.rename, hfile]
    have hlog : (s.rename new old).log = s.log := by simp only [State.rename, hfile]
    simp only [proceed] at hstep
    split_ifs at hstep <;> cases hstep
    · refine ⟨.answered (s := s.replace new bytes (some expected) false) hothers _, .inr ⟨_, rfl, ?_⟩⟩
      exact iff_of_true (fun _ => .inr ⟨b, hfile, congrArg some hversion.symm⟩) fun _ => hnot
    · exact ⟨.answered (by rwa [hphases]) _, .inl ⟨hlog, fun _ => hnot⟩⟩
    · exact ⟨.answered hothers _, .inl ⟨rfl, fun _ => hnot⟩⟩
  | moving old new =>
    have hnot : ¬ Blind s c := not_blind fun _ _ => by simp [hphase]
    have hphases : (s.rename old new).phases = s.phases := by unfold State.rename; split <;> rfl
    have hlog : (s.rename old new).log = s.log := by unfold State.rename; split <;> rfl
    rw [hphase] at hstep
    simp only [proceed] at hstep
    split_ifs at hstep <;> cases hstep
    · exact ⟨.answered (by rwa [hphases]) _, .inl ⟨hlog, fun _ => hnot⟩⟩
    · exact ⟨.answered hothers _, .inl ⟨rfl, fun _ => hnot⟩⟩
  | removing place =>
    have hnot : ¬ Blind s c := not_blind fun _ _ => by simp [hphase]
    rw [hphase] at hstep
    simp only [proceed] at hstep
    split_ifs at hstep <;> cases hstep
    · exact ⟨.answered (s := { s with disk := s.disk.erase place }) hothers _, .inl ⟨rfl, fun _ => hnot⟩⟩
    · exact ⟨.answered hothers _, .inl ⟨rfl, fun _ => hnot⟩⟩

theorem Inv.call {s s' : State} (h : Inv p s) {c : Nat} {call : Call}
    (hstep : step p s (.call c call) = some s') : Inv p s' ∧ s'.log = s.log := by
  simp only [step] at hstep
  split at hstep
  · rename_i hidle
    cases hstep
    have hphase : ∀ d, d ≠ c → (s.setPhase c (.waiting call)).phases d = s.phases d :=
      fun d hd => by simp [State.setPhase, hd]
    have hself : (s.setPhase c (.waiting call)).phases c = .waiting call := by
      simp [State.setPhase]
    refine ⟨⟨fun d hd => ?_, fun d => ?_⟩, rfl⟩ <;> by_cases heq : d = c
    · rw [heq, hself] at hd
      cases hd
    · rw [hphase d heq] at hd
      exact h.alone d hd
    · rw [heq, hself]
      trivial
    · rw [hphase d heq]
      exact h.sure d
  · cases hstep

/-- The lock is free, so nobody is behind it. -/
theorem Inv.lock {s s' : State} (h : Inv p s) {c : Nat} (hstep : step p s (.lock c) = some s') :
    Inv p s' ∧ s'.log = s.log := by
  simp only [step] at hstep
  split at hstep
  · rename_i call hwaiting hfree
    cases hstep
    have hout : ∀ d, (s.phases d).inside = false := by
      intro d
      cases hin : (s.phases d).inside with
      | false => rfl
      | true =>
        have hholder := h.alone d hin
        rw [hfree] at hholder
        cases hholder
    exact ⟨.advanced (s := { s with holder := some c }) rfl (fun d _ => hout d) trivial, rfl⟩
  · cases hstep

/-- STEP: the invariant is kept, and the log stays justified exactly if no blind write replaces its
    file. -/
theorem step_exact {s s' : State} {a : Action} (h : Inv p s) (hlog : NoLostUpdate p s)
    (hstep : step p s a = some s') : (NoLostUpdate p s' ↔ Careful s a) ∧ Inv p s' := by
  cases a with
  | call c call =>
    obtain ⟨hinv, heq⟩ := h.call hstep
    refine ⟨iff_of_true ?_ trivial, hinv⟩
    rwa [NoLostUpdate, heq]
  | lock c =>
    obtain ⟨hinv, heq⟩ := h.lock hstep
    refine ⟨iff_of_true ?_ trivial, hinv⟩
    rwa [NoLostUpdate, heq]
  | proceed c o =>
    simp only [step] at hstep
    split at hstep
    · rename_i hc
      obtain ⟨hinv, ⟨heq, hcareful⟩ | ⟨w, heq, hw⟩⟩ := proceed_step h hc hstep
      · refine ⟨iff_of_true ?_ hcareful, hinv⟩
        rwa [NoLostUpdate, heq]
      · refine ⟨?_, hinv⟩
        show NoLostUpdate p s' ↔ (o.works = true → ¬ Blind s c)
        rw [← hw, NoLostUpdate, heq]
        constructor
        · exact fun hall => hall w (by simp)
        · intro hlast w' hw'
          rcases List.mem_append.mp hw' with hold | hnew
          · exact hlog w' hold
          · obtain rfl := List.mem_singleton.mp hnew
            exact hlast
    · cases hstep

theorem start_inv (disk : Disk) : Inv p (start disk) :=
  ⟨fun _ h => Bool.noConfusion h, fun _ => trivial⟩

variable (p)

/-- SAFETY: no update is lost exactly in the runs in which no write with the empty version, and
    without force, gets to replace a file. -/
theorem no_lost_update {disk : Disk} {actions : List Action} {s : State}
    (hrun : Machine.exec (step p) (start disk) actions = some s) :
    Machine.Throughout (step p) (NoLostUpdate p) (start disk) actions ↔
      Machine.Along (step p) Careful (start disk) actions := by
  refine Machine.throughout_iff_along (I := Inv p) (A := fun _ _ => True) ?_ hrun
    (.of_forall fun _ _ => trivial) (start_inv disk) fun w hw => by cases hw
  intro s a s' hinv hlog _ hstep
  obtain ⟨hiff, hnext⟩ := step_exact hinv hlog hstep
  exact ⟨hiff, fun _ => hnext⟩

/-! ### Two runs -/

def Blind.check (s : State) (c : Nat) : Bool :=
  match s.phases c with
  | .writing place _ expected force => expected = some "" && !force && (s.disk place).isSome
  | _ => false

theorem Blind.check_iff (s : State) (c : Nat) : Blind.check s c = true ↔ Blind s c := by
  unfold Blind.check
  constructor
  · intro h
    split at h
    · rename_i place bytes expected force hphase
      simp only [Bool.and_eq_true, decide_eq_true_eq, Bool.not_eq_true'] at h
      obtain ⟨⟨rfl, rfl⟩, hsome⟩ := h
      obtain ⟨b, hb⟩ := Option.isSome_iff_exists.mp hsome
      exact ⟨place, bytes, b, hphase, hb⟩
    · cases h
  · rintro ⟨place, bytes, b, hphase, hb⟩
    rw [hphase]
    simp [hb]

instance (s : State) (c : Nat) : Decidable (Blind s c) :=
  decidable_of_iff _ (Blind.check_iff s c)

instance (s : State) : (a : Action) → Decidable (Careful s a)
  | .call .. | .lock _ => inferInstanceAs (Decidable True)
  | .proceed c o => inferInstanceAs (Decidable (o.works = true → ¬ Blind s c))

/-- The hashes of the letter a, and of a byte that is no text. -/
def sampleSha256 (b : ByteArray) : List UInt8 :=
  if b.data.toList = [0x61] then
    [0xca, 0x97, 0x81, 0x12, 0xca, 0x1b, 0xbd, 0xca, 0xfa, 0xc2, 0x31, 0xb3, 0x9a, 0x23, 0xdc,
    0x4d, 0xa7, 0x86, 0xef, 0xf8, 0x14, 0x7c, 0x4e, 0x72, 0xb9, 0x80, 0x77, 0x85, 0xaf, 0xee,
    0x48, 0xbb]
  else
    [0xa8, 0x10, 0x0a, 0xe6, 0xaa, 0x19, 0x40, 0xd0, 0xb6, 0x63, 0xbb, 0x31, 0xcd, 0x46, 0x61,
    0x42, 0xeb, 0xbd, 0xbd, 0x51, 0x87, 0x13, 0x1b, 0x92, 0xd9, 0x38, 0x18, 0x98, 0x78, 0x32,
    0xeb, 0x89]

def samplePlatform : Platform where
  alphanumeric := Char.isAlphanum
  whitespace := Char.isWhitespace
  sha256 := sampleSha256
  sha256_length b := by
    unfold sampleSha256
    split <;> rfl

def samplePlace : Place := ⟨"game", "maps", ["town"]⟩

/-- Only this file. -/
def sampleDisk (bytes : ByteArray) : Disk := fun q => if q = samplePlace then some bytes else none

def fine : Outcome := ⟨true, true, false, true⟩

/-- Two clients saw the same version; the first one's write makes the second one's fail. -/
def racingActions : List Action :=
  [.call 0 (.writeBinary "game" "maps" "town" ⟨#[0xff]⟩ (some "ca978112ca1b") false),
    .call 1 (.writeText "game" "maps" " town" "b" (some "ca978112ca1b") false),
    .lock 0, .proceed 0 fine, .proceed 0 fine, .lock 1, .proceed 1 fine]

theorem no_lost_update_racing : ∃ s,
    Machine.exec (step samplePlatform) (start (sampleDisk "a".toUTF8)) racingActions = some s ∧
    s.answers.map (fun a => (a.1, a.2.isOk)) = [(0, true), (1, false)] ∧
    Machine.Throughout (step samplePlatform) (NoLostUpdate samplePlatform)
      (start (sampleDisk "a".toUTF8)) racingActions := by
  obtain ⟨s, hrun, hanswers⟩ : ∃ s, Machine.exec (step samplePlatform)
      (start (sampleDisk "a".toUTF8)) racingActions = some s ∧
      s.answers.map (fun a => (a.1, a.2.isOk)) = [(0, true), (1, false)] :=
    Machine.exec_eval (by decide +kernel)
  exact ⟨s, hrun, hanswers, (no_lost_update samplePlatform hrun).mpr (by decide +kernel)⟩

/-- A client that sends the empty version saves text over a file that is not text. -/
def blindActions : List Action :=
  [.call 0 (.writeText "game" "maps" "town" "a" (some "") false), .lock 0, .proceed 0 fine,
    .proceed 0 fine]

theorem update_lost : ∃ s,
    Machine.exec (step samplePlatform) (start (sampleDisk ⟨#[0xff]⟩)) blindActions = some s ∧
    s.answers.map (fun a => (a.1, a.2.isOk)) = [(0, true)] ∧ ¬ NoLostUpdate samplePlatform s := by
  obtain ⟨s, hrun, hanswers, hlog⟩ : ∃ s, Machine.exec (step samplePlatform)
      (start (sampleDisk ⟨#[0xff]⟩)) blindActions = some s ∧
      s.answers.map (fun a => (a.1, a.2.isOk)) = [(0, true)] ∧
      s.log.map (fun w => (w.before.isSome, w.expected, w.force)) = [(true, some "", false)] :=
    Machine.exec_eval (by decide +kernel)
  refine ⟨s, hrun, hanswers, fun hall => ?_⟩
  obtain ⟨w, hw, hfields⟩ := List.mem_map.mp (hlog ▸ List.mem_singleton_self (true, some "", false))
  simp only [Prod.mk.injEq] at hfields
  obtain ⟨hbefore, hexpected, hforce⟩ := hfields
  rcases hall w hw hforce with ⟨hnone, _⟩ | ⟨b, _, hversion⟩
  · rw [hnone] at hbefore
    cases hbefore
  · rw [hexpected] at hversion
    exact bytesVersion_ne_empty samplePlatform b (Option.some.inj hversion).symm

end Gamer.Packages
