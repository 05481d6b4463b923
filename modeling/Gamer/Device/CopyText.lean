import Gamer.Lib.Machine

/-! COPY on a device. Requests carry no number, so a call must not take the answer to another one's
    request: one call at a time, and none while an answer is still on its way.

        acquire ─▶ check ─▶ subscribe ─▶ mark ─▶ send ──────────▶ changed ─▶ read
                   pending?  seen       pending   │                  ▲
                                       := true    ▼                  │
                                               device ─▶ answer ─▶ take ─▶ clear (pending := false)

    Calls are numbered in the order in which they get the lock; one that gives up before that does
    nothing. -/

namespace Gamer.Device
open Gamer.Lib

/-- How far the call with the lock has come; `seen` is the version of the watch it has seen. -/
inductive CopyPhase
  | entered
  | checked
  | subscribed (seen : Nat)
  | sending (seen : Nat)
  | waiting (seen : Nat)
  | changed
  deriving DecidableEq

structure CopyState where
  /-- `clipboard_request`. -/
  request : Option (Nat × CopyPhase) := none
  next : Nat := 0
  clipboardPending : Bool := false
  /-- `clipboard`, a watch channel. -/
  version : Nat := 0
  clipboard : Option String := none
  /-- Requests that are with the device. -/
  requests : List Nat := []
  /-- Answers that are on their way. -/
  answers : List (Nat × String) := []
  /-- The reader has published this call's answer and not cleared the flag yet. -/
  publishing : Option Nat := none
  reading : Bool := true
  /-- What the device has answered, and what calls have returned. -/
  answered : List (Nat × String) := []
  returned : List (Nat × String) := []
  deriving DecidableEq

inductive CopyMove
  | acquire
  | check
  | subscribe
  | mark
  | send
  /-- The write fails; whether the device has the message then is open. -/
  | sendFails (reached : Bool)
  | changed
  | read
  | timeout
  | drop (reached : Bool)
  | answer (text : String)
  | take
  | clear
  | readerStops

namespace CopyState

/-- The call with the lock ends without a text. -/
def leave (s : CopyState) : CopyState := { s with request := none }

/-- The message of a call gets to the device. -/
def deliver (s : CopyState) (k : Nat) : CopyState := { s with requests := s.requests ++ [k] }

/-- The call that is dropped or fails while it sends may have sent. -/
def abandon (s : CopyState) (k : Nat) (sending reached : Bool) : CopyState :=
  if sending && reached then (s.deliver k).leave else s.leave

def isSending : CopyPhase → Bool
  | .sending _ => true
  | .entered | .checked | .subscribed _ | .waiting _ | .changed => false

def step (s : CopyState) : CopyMove → Option CopyState
  | .acquire =>
    if s.request = none then
      some { s with request := some (s.next, .entered), next := s.next + 1 }
    else none
  | .check =>
    match s.request with
    | some (k, .entered) =>
      if s.clipboardPending then some s.leave else some { s with request := some (k, .checked) }
    | _ => none
  | .subscribe =>
    match s.request with
    | some (k, .checked) => some { s with request := some (k, .subscribed s.version) }
    | _ => none
  | .mark =>
    match s.request with
    | some (k, .subscribed seen) =>
      some { s with request := some (k, .sending seen), clipboardPending := true }
    | _ => none
  | .send =>
    match s.request with
    | some (k, .sending seen) => some { s.deliver k with request := some (k, .waiting seen) }
    | _ => none
  | .sendFails reached =>
    match s.request with
    | some (k, .sending _) => some (s.abandon k true reached)
    | _ => none
  | .changed =>
    match s.request with
    | some (k, .waiting seen) =>
      if s.version ≠ seen then some { s with request := some (k, .changed) } else none
    | _ => none
  | .read =>
    match s.request with
    | some (k, .changed) =>
      some { s.leave with returned := s.returned ++ [(k, s.clipboard.getD "")] }
    | _ => none
  | .timeout =>
    match s.request with
    | some (_, .waiting _) => some s.leave
    | _ => none
  | .drop reached =>
    match s.request with
    | some (k, phase) => some (s.abandon k (isSending phase) reached)
    | none => none
  | .answer text =>
    match s.requests with
    | k :: requests =>
      some { s with
        requests := requests
        answers := s.answers ++ [(k, text)]
        answered := s.answered ++ [(k, text)] }
    | [] => none
  | .take =>
    match s.answers with
    | (k, text) :: answers =>
      if s.reading ∧ s.publishing = none then
        some { s with
          answers := answers
          clipboard := some text
          version := s.version + 1
          publishing := some k }
      else none
    | [] => none
  | .clear =>
    if s.publishing.isSome then some { s with publishing := none, clipboardPending := false }
    else none
  | .readerStops =>
    if s.publishing = none then some { s with reading := false } else none

/-! ### The invariant -/

/-- The call's answer is the last one published, and none is left to come. -/
def Published (s : CopyState) (k : Nat) : Prop :=
  s.requests = [] ∧ s.answers = [] ∧ ∃ text, s.clipboard = some text ∧ (k, text) ∈ s.answered

/-- Nothing is on its way. -/
def Silent (s : CopyState) : Prop :=
  s.requests = [] ∧ s.answers = [] ∧ s.publishing = none

/-- Only this call's request or answer is on its way. -/
def OnItsWay (s : CopyState) (k : Nat) : Prop :=
  (s.requests = [k] ∧ s.answers = [] ∧ s.publishing = none) ∨
    (s.requests = [] ∧ (∃ text, s.answers = [(k, text)]) ∧ s.publishing = none) ∨
    (s.requests = [] ∧ s.answers = [] ∧ s.publishing = some k)

/-- What holds of the call with the lock. -/
def PhaseOk (s : CopyState) (k : Nat) : CopyPhase → Prop
  | .entered => True
  | .checked => s.clipboardPending = false
  | .subscribed seen => s.clipboardPending = false ∧ seen = s.version
  | .sending seen => s.Silent ∧ s.clipboardPending = true ∧ seen = s.version
  | .waiting seen =>
    (seen = s.version ∧ s.OnItsWay k ∧ s.publishing = none) ∨ s.Published k
  | .changed => s.Published k

/-- The call has not sent yet. -/
def early : CopyPhase → Bool
  | .entered | .checked | .subscribed _ | .sending _ => true
  | .waiting _ | .changed => false

/-- INVARIANT -/
structure Inv (s : CopyState) : Prop where
  one : s.Silent ∨ ∃ k, s.OnItsWay k
  quiet : s.clipboardPending = false → s.Silent
  phase : ∀ k p, s.request = some (k, p) → s.PhaseOk k p
  known : ∀ k p, s.request = some (k, p) → k < s.next
  fresh : ∀ k p, s.request = some (k, p) → early p = true →
    k ∉ s.requests ∧ ∀ text, (k, text) ∉ s.answered
  sent : ∀ k ∈ s.requests, k < s.next ∧ ∀ text, (k, text) ∉ s.answered
  old : ∀ k text, (k, text) ∈ s.answered → k < s.next
  unique : ∀ k text text', (k, text) ∈ s.answered → (k, text') ∈ s.answered → text = text'
  answers : ∀ a ∈ s.answers, a ∈ s.answered
  returned : ∀ r ∈ s.returned, r ∈ s.answered


theorem Inv.init : Inv {} where
  one := .inl ⟨rfl, rfl, rfl⟩
  quiet := fun _ => ⟨rfl, rfl, rfl⟩
  phase := by simp
  known := by simp
  fresh := by simp
  sent := by simp
  old := by simp
  unique := by simp
  answers := by simp
  returned := by simp

/-- STEP: the call with the lock goes on without touching anything else. -/
theorem Inv.goOn {s : CopyState} (h : s.Inv) {k : Nat} {p p' : CopyPhase}
    (hreq : s.request = some (k, p)) (hearly : early p' = true → early p = true)
    (hp : s.PhaseOk k p') : Inv { s with request := some (k, p') } where
  one := h.one
  quiet := h.quiet
  phase := by
    rintro j q hj
    cases hj
    exact hp
  known := by
    rintro j q hj
    cases hj
    exact h.known k p hreq
  fresh := by
    rintro j q hj hq
    cases hj
    exact h.fresh k p hreq (hearly hq)
  sent := h.sent
  old := h.old
  unique := h.unique
  answers := h.answers
  returned := h.returned

/-- STEP: the lock is given back, perhaps with a text. -/
theorem Inv.leave {s : CopyState} (h : s.Inv) {returned : List (Nat × String)}
    (hr : ∀ r ∈ returned, r ∈ s.answered) :
    Inv { s with request := none, returned := returned } where
  one := h.one
  quiet := h.quiet
  phase := by simp
  known := by simp
  fresh := by simp
  sent := h.sent
  old := h.old
  unique := h.unique
  answers := h.answers
  returned := hr

theorem Inv.acquire {s : CopyState} (h : s.Inv) :
    Inv { s with request := some (s.next, .entered), next := s.next + 1 } where
  one := h.one
  quiet := h.quiet
  phase := by
    rintro j q hj
    cases hj
    trivial
  known := by
    rintro j q hj
    cases hj
    exact Nat.lt_succ_self _
  fresh := by
    rintro j q hj _
    cases hj
    exact ⟨fun hmem => Nat.lt_irrefl _ (h.sent _ hmem).1,
      fun text hmem => Nat.lt_irrefl _ (h.old _ _ hmem)⟩
  sent := fun k hk => ⟨Nat.lt_succ_of_lt (h.sent k hk).1, (h.sent k hk).2⟩
  old := fun k text hk => Nat.lt_succ_of_lt (h.old k text hk)
  unique := h.unique
  answers := h.answers
  returned := h.returned

/-- STEP: the flag goes up before anything is sent. -/
theorem Inv.mark {s : CopyState} (h : s.Inv) {k seen : Nat}
    (hreq : s.request = some (k, .subscribed seen)) :
    Inv { s with request := some (k, .sending seen), clipboardPending := true } where
  one := h.one
  quiet := by simp
  phase := by
    rintro j q hj
    cases hj
    obtain ⟨hpending, hseen⟩ := h.phase k _ hreq
    exact ⟨h.quiet hpending, rfl, hseen⟩
  known := by
    rintro j q hj
    cases hj
    exact h.known k _ hreq
  fresh := by
    rintro j q hj _
    cases hj
    exact h.fresh k _ hreq rfl
  sent := h.sent
  old := h.old
  unique := h.unique
  answers := h.answers
  returned := h.returned

/-- STEP: the request is with the device; nothing else was on its way. -/
theorem Inv.deliver {s : CopyState} (h : s.Inv) {k seen : Nat}
    (hreq : s.request = some (k, .sending seen)) {request : Option (Nat × CopyPhase)}
    (hrequest : request = none ∨ request = some (k, .waiting seen)) :
    Inv { s.deliver k with request := request } := by
  obtain ⟨⟨hrequests, hanswers, hpublishing⟩, hpending, hseen⟩ := h.phase k _ hreq
  have hknown := h.known k _ hreq
  obtain ⟨-, hfresh⟩ := h.fresh k _ hreq rfl
  have hone : (s.deliver k).OnItsWay k := .inl ⟨by simp [CopyState.deliver, hrequests], hanswers,
    hpublishing⟩
  refine ⟨.inr ⟨k, hone⟩, fun hfalse => ?_, fun j q hj => ?_, fun j q hj => ?_,
    fun j q hj hq => ?_, fun j hj => ?_, h.old, h.unique, h.answers, h.returned⟩
  · exact absurd (hfalse.symm.trans hpending) Bool.false_ne_true
  · rcases hrequest with rfl | rfl
    · cases hj
    · cases hj
      exact .inl ⟨hseen, hone, hpublishing⟩
  · rcases hrequest with rfl | rfl
    · cases hj
    · cases hj
      exact hknown
  · rcases hrequest with rfl | rfl
    · cases hj
    · cases hj
      cases hq
  · have hj' : j = k := by simpa [CopyState.deliver, hrequests] using hj
    subst hj'
    exact ⟨hknown, hfresh⟩

/-- A request that is with the device is the only thing on its way. -/
theorem Inv.onItsWay {s : CopyState} (h : s.Inv) {k : Nat} {requests : List Nat}
    (hrequests : s.requests = k :: requests) :
    requests = [] ∧ s.answers = [] ∧ s.publishing = none := by
  rcases h.one with ⟨hnil, -⟩ | ⟨j, ⟨hj, hanswers, hpublishing⟩ | ⟨hnil, -⟩ | ⟨hnil, -⟩⟩
  · rw [hrequests] at hnil
    cases hnil
  · rw [hrequests] at hj
    exact ⟨(List.cons.inj hj).2, hanswers, hpublishing⟩
  · rw [hrequests] at hnil
    cases hnil
  · rw [hrequests] at hnil
    cases hnil

/-- An answer that is not read yet is the only thing on its way. -/
theorem Inv.answerOnItsWay {s : CopyState} (h : s.Inv) {a : Nat × String}
    {answers : List (Nat × String)} (hanswers : s.answers = a :: answers) :
    s.requests = [] ∧ answers = [] ∧ s.publishing = none := by
  rcases h.one with ⟨-, hnil, -⟩ | ⟨j, ⟨-, hnil, -⟩ | ⟨hreq, ⟨text, hj⟩, hpub⟩ | ⟨-, hnil, -⟩⟩
  · rw [hanswers] at hnil
    cases hnil
  · rw [hanswers] at hnil
    cases hnil
  · rw [hanswers] at hj
    exact ⟨hreq, (List.cons.inj hj).2, hpub⟩
  · rw [hanswers] at hnil
    cases hnil

/-- STEP: while something is on its way the call with the lock has only come in or waits for it. -/
theorem Inv.waiter {s : CopyState} (h : s.Inv) (hbusy : ¬ s.Silent) {k : Nat} {p : CopyPhase}
    (hreq : s.request = some (k, p)) :
    p = .entered ∨ (∃ seen, p = .waiting seen ∧
      ((seen = s.version ∧ s.OnItsWay k ∧ s.publishing = none) ∨ s.Published k)) ∨
      (p = .changed ∧ s.Published k) := by
  have hp := h.phase k p hreq
  cases p with
  | entered => exact .inl rfl
  | checked => exact absurd (h.quiet hp) hbusy
  | subscribed seen => exact absurd (h.quiet hp.1) hbusy
  | sending seen => exact absurd hp.1 hbusy
  | waiting seen => exact .inr (.inl ⟨seen, rfl, hp⟩)
  | changed => exact .inr (.inr ⟨rfl, hp⟩)

/-- STEP: the device answers. -/
theorem Inv.answer {s : CopyState} (h : s.Inv) {k : Nat} {requests : List Nat}
    (hrequests : s.requests = k :: requests) (text : String) :
    Inv { s with
      requests := requests
      answers := s.answers ++ [(k, text)]
      answered := s.answered ++ [(k, text)] } := by
  obtain ⟨rfl, hanswers, hpublishing⟩ := h.onItsWay hrequests
  have hk : k ∈ s.requests := by simp [hrequests]
  obtain ⟨hknown, hnew⟩ := h.sent k hk
  have hbusy : ¬ s.Silent := by
    rintro ⟨hnil, -⟩
    rw [hrequests] at hnil
    cases hnil
  have hway : ∀ t : CopyState, t.requests = [] → t.answers = s.answers ++ [(k, text)] →
      t.publishing = s.publishing → t.OnItsWay k := by
    intro t hr ha hp
    exact .inr (.inl ⟨hr, ⟨text, by rw [ha, hanswers]; rfl⟩, hp.trans hpublishing⟩)
  refine ⟨.inr ⟨k, hway _ rfl rfl rfl⟩, fun hfalse => absurd (h.quiet hfalse) hbusy,
    fun j p hj => ?_, h.known, fun j p hj hp => ?_, by simp, fun j t hj => ?_,
    fun j t t' hj hj' => ?_, fun a ha => ?_, fun r hr => ?_⟩
  · rcases h.waiter hbusy hj with rfl | ⟨seen, rfl, ⟨hseen, hjway, -⟩ | ⟨hnil, -⟩⟩ | ⟨-, hnil, -⟩
    · trivial
    · rcases hjway with ⟨hjr, -⟩ | ⟨hnil, -⟩ | ⟨hnil, -⟩
      · rw [hrequests] at hjr
        obtain ⟨rfl, -⟩ := List.cons.inj hjr
        exact .inl ⟨hseen, hway _ rfl rfl rfl, hpublishing⟩
      · rw [hrequests] at hnil
        cases hnil
      · rw [hrequests] at hnil
        cases hnil
    · rw [hrequests] at hnil
      cases hnil
    · rw [hrequests] at hnil
      cases hnil
  · obtain ⟨hnot, hfresh⟩ := h.fresh j p hj hp
    refine ⟨by simp, fun t ht => ?_⟩
    rcases List.mem_append.mp ht with ht | ht
    · exact hfresh t ht
    · obtain ⟨rfl, -⟩ : j = k ∧ t = text := by simpa using ht
      exact hnot hk
  · rcases List.mem_append.mp hj with hj | hj
    · exact h.old j t hj
    · obtain ⟨rfl, -⟩ : j = k ∧ t = text := by simpa using hj
      exact hknown
  · rcases List.mem_append.mp hj with hold | hold <;>
      rcases List.mem_append.mp hj' with hold' | hold'
    · exact h.unique j t t' hold hold'
    · obtain ⟨rfl, -⟩ : j = k ∧ t' = text := by simpa using hold'
      exact absurd hold (hnew t)
    · obtain ⟨rfl, -⟩ : j = k ∧ t = text := by simpa using hold
      exact absurd hold' (hnew t')
    · obtain ⟨-, rfl⟩ : j = k ∧ t = text := by simpa using hold
      obtain ⟨-, rfl⟩ : j = k ∧ t' = t := by simpa using hold'
      rfl
  · rw [hanswers] at ha
    exact List.mem_append_right _ ha
  · exact List.mem_append_left _ (h.returned r hr)

/-- STEP: the reader publishes an answer. -/
theorem Inv.take {s : CopyState} (h : s.Inv) {k : Nat} {text : String}
    {answers : List (Nat × String)} (hanswers : s.answers = (k, text) :: answers) :
    Inv { s with
      answers := answers
      clipboard := some text
      version := s.version + 1
      publishing := some k } := by
  obtain ⟨hrequests, rfl, hpublishing⟩ := h.answerOnItsWay hanswers
  have hk : (k, text) ∈ s.answered := h.answers _ (by simp [hanswers])
  have hbusy : ¬ s.Silent := by
    rintro ⟨-, hnil, -⟩
    rw [hanswers] at hnil
    cases hnil
  refine ⟨.inr ⟨k, .inr (.inr ⟨hrequests, rfl, rfl⟩)⟩, fun hfalse => absurd (h.quiet hfalse) hbusy,
    fun j p hj => ?_, h.known, h.fresh, h.sent, h.old, h.unique, by simp, h.returned⟩
  rcases h.waiter hbusy hj with
    rfl | ⟨seen, rfl, ⟨-, hjway, -⟩ | ⟨-, hnil, -⟩⟩ | ⟨-, -, hnil, -⟩
  · trivial
  · rcases hjway with ⟨-, hnil, -⟩ | ⟨-, ⟨t, ht⟩, -⟩ | ⟨-, hnil, -⟩
    · rw [hanswers] at hnil
      cases hnil
    · rw [hanswers] at ht
      cases ht
      exact .inr ⟨hrequests, rfl, text, rfl, hk⟩
    · rw [hanswers] at hnil
      cases hnil
  · rw [hanswers] at hnil
    cases hnil
  · rw [hanswers] at hnil
    cases hnil

/-- STEP: the flag comes down once nothing is on its way any more. -/
theorem Inv.clear {s : CopyState} (h : s.Inv) {k : Nat} (hpublishing : s.publishing = some k) :
    Inv { s with publishing := none, clipboardPending := false } := by
  have hbusy : ¬ s.Silent := by
    rintro ⟨-, -, hnone⟩
    rw [hpublishing] at hnone
    cases hnone
  have hrest : s.requests = [] ∧ s.answers = [] := by
    rcases h.one with hsilent | ⟨j, ⟨-, -, hnone⟩ | ⟨-, -, hnone⟩ | ⟨hr, ha, -⟩⟩
    · exact absurd hsilent hbusy
    · rw [hpublishing] at hnone
      cases hnone
    · rw [hpublishing] at hnone
      cases hnone
    · exact ⟨hr, ha⟩
  refine ⟨.inl ⟨hrest.1, hrest.2, rfl⟩, fun _ => ⟨hrest.1, hrest.2, rfl⟩, fun j p hj => ?_, h.known,
    h.fresh, h.sent, h.old, h.unique, h.answers, h.returned⟩
  rcases h.waiter hbusy hj with rfl | ⟨seen, rfl, ⟨-, -, hnone⟩ | hpub⟩ | ⟨rfl, hpub⟩
  · trivial
  · rw [hpublishing] at hnone
    cases hnone
  · exact .inr hpub
  · exact hpub

/-- STEP: a call that gives up may have sent its request. -/
theorem Inv.abandon {s : CopyState} (h : s.Inv) {k : Nat} {p : CopyPhase}
    (hreq : s.request = some (k, p)) (reached : Bool) :
    (s.abandon k (isSending p) reached).Inv := by
  rw [CopyState.abandon]
  split
  · rename_i hsending
    cases p with
    | sending seen => exact h.deliver hreq (.inl rfl)
    | _ => cases hsending
  · exact h.leave h.returned

/-- STEP -/
theorem Inv.step {s s' : CopyState} {m : CopyMove} (h : s.Inv) (hstep : s.step m = some s') :
    s'.Inv := by
  cases m with
  | acquire =>
    rw [CopyState.step] at hstep
    split at hstep
    · cases hstep
      exact h.acquire
    · cases hstep
  | check =>
    rw [CopyState.step] at hstep
    split at hstep
    · rename_i k hreq
      split at hstep
      · cases hstep
        exact h.leave h.returned
      · rename_i hpending
        cases hstep
        exact h.goOn hreq (fun _ => rfl) (Bool.eq_false_iff.mpr hpending)
    · cases hstep
  | subscribe =>
    rw [CopyState.step] at hstep
    split at hstep
    · rename_i k hreq
      cases hstep
      exact h.goOn hreq (fun _ => rfl) ⟨h.phase k _ hreq, rfl⟩
    · cases hstep
  | mark =>
    rw [CopyState.step] at hstep
    split at hstep
    · rename_i k seen hreq
      cases hstep
      exact h.mark hreq
    · cases hstep
  | send =>
    rw [CopyState.step] at hstep
    split at hstep
    · rename_i k seen hreq
      cases hstep
      exact h.deliver hreq (.inr rfl)
    · cases hstep
  | sendFails reached =>
    rw [CopyState.step] at hstep
    split at hstep
    · rename_i k seen hreq
      cases hstep
      exact h.abandon hreq reached
    · cases hstep
  | changed =>
    rw [CopyState.step] at hstep
    split at hstep
    · rename_i k seen hreq
      split at hstep
      · rename_i hne
        cases hstep
        rcases h.phase k _ hreq with ⟨heq, -⟩ | hpub
        · exact absurd heq.symm hne
        · exact h.goOn hreq (fun hearly => by cases hearly) hpub
      · cases hstep
    · cases hstep
  | read =>
    rw [CopyState.step] at hstep
    split at hstep
    · rename_i k hreq
      cases hstep
      refine h.leave fun r hr => ?_
      rcases List.mem_append.mp hr with hr | hr
      · exact h.returned r hr
      · obtain ⟨-, -, text, htext, hmem⟩ := h.phase k _ hreq
        obtain rfl : r = (k, text) := by simpa [htext] using hr
        exact hmem
    · cases hstep
  | timeout =>
    rw [CopyState.step] at hstep
    split at hstep
    · cases hstep
      exact h.leave h.returned
    · cases hstep
  | drop reached =>
    rw [CopyState.step] at hstep
    split at hstep
    · rename_i k p hreq
      cases hstep
      exact h.abandon hreq reached
    · cases hstep
  | answer text =>
    rw [CopyState.step] at hstep
    split at hstep
    · rename_i k requests hrequests
      cases hstep
      exact h.answer hrequests text
    · cases hstep
  | take =>
    rw [CopyState.step] at hstep
    split at hstep
    · rename_i k text answers hanswers
      split at hstep
      · cases hstep
        exact h.take hanswers
      · cases hstep
    · cases hstep
  | clear =>
    rw [CopyState.step] at hstep
    split at hstep
    · rename_i hsome
      obtain ⟨k, hk⟩ := Option.isSome_iff_exists.mp hsome
      cases hstep
      exact h.clear hk
    · cases hstep
  | readerStops =>
    rw [CopyState.step] at hstep
    split at hstep
    · cases hstep
      exact ⟨h.one, h.quiet, h.phase, h.known, h.fresh, h.sent, h.old, h.unique, h.answers,
        h.returned⟩
    · cases hstep

/-- RUN: the invariant holds in every state that can be reached. -/
theorem Inv.reaches {s : CopyState} (h : Machine.Reaches CopyState.step {} s) : s.Inv :=
  h.invariant (fun _ _ _ hinv hstep => hinv.step hstep) Inv.init

/-- SAFETY: what a call returns is what the device answered to its own request, and the device
    answered that once. -/
theorem copied_text_is_own {s : CopyState} (hrun : Machine.Reaches step {} s) {k : Nat}
    {text : String} (h : (k, text) ∈ s.returned) :
    (k, text) ∈ s.answered ∧ ∀ other, (k, other) ∈ s.answered → other = text := by
  have hinv := Inv.reaches hrun
  have hmem := hinv.returned _ h
  exact ⟨hmem, fun other hother => hinv.unique k other text hother hmem⟩

/-- The answer to a request that ran out of time comes late and goes to nobody. -/
theorem late_answer_not_copied : ∃ s, Machine.Reaches step {} s ∧ (0, "a") ∈ s.answered ∧
    s.returned = [(2, "b")] ∧ (2, "b") ∈ s.answered ∧
    ∀ other, (2, other) ∈ s.answered → other = "b" := by
  have hrun : ∃ s, Machine.exec step {} [.acquire, .check, .subscribe, .mark, .send, .timeout,
      .acquire, .check, .answer "a", .take, .clear, .acquire, .check, .subscribe, .mark, .send,
      .answer "b", .take, .changed, .read] = some s ∧
      ((0, "a") ∈ s.answered ∧ s.returned = [(2, "b")]) :=
    Machine.exec_eval (by decide +kernel)
  obtain ⟨s, hs, hlate, hreturned⟩ := hrun
  exact ⟨s, ⟨_, hs⟩, hlate, hreturned, copied_text_is_own ⟨_, hs⟩ (by rw [hreturned]; simp)⟩

end CopyState

end Gamer.Device
