import Mathlib.Algebra.GroupWithZero.Nat
import Mathlib.Control.Monad.Basic
import Gamer.Lib.Machine
import Gamer.Timer.Task

/-! One trigger of a task, from its admission to the last submission. `dispatch` and `submit_now`
    choose between three paths by the number of effective inputs:

        1 input    run_request            ──▶ submit
        dispatch   input_request, spawn   ──▶ permit ──▶ submit      (the loop does not wait)
        submit_now input_request, spawn   ──▶ permit ──▶ submit, joined before the next input

    A permit is held from the submission to the completion of the run, a refused submission, or
    the drop of the completion callback. The runner is outside: its answers, its completions and
    a panic of `submit` are actions. -/

namespace Gamer.Timer
open Gamer.Lib Gamer.Core

/-- The path of a trigger: `dispatch` and `submit_now` share the first. -/
inductive Path where | single | dispatchMulti | submitNowMulti
  deriving DecidableEq

/-- Where one input stands. `permit` says that its permit is still out. -/
inductive InputPhase where
  | unread
  | rejected (why : Rejection)
  | failed (why : Rejection)
  | queued (request : RunRequest)
  | submitting (request : RunRequest) (permit : Bool)
  | submitted (request : RunRequest) (permit : Bool)

/-- What is recorded about an input, by its cause. -/
inductive Recorded where
  | rejected (why : Rejection)
  | refused (error : TimerRunnerError)
  | joinFailed
  | completed (outcome : TimerOutcome)

/-- `outcome_name` of what is recorded. -/
def Recorded.state : Recorded → String
  | .rejected _ | .joinFailed => "failed"
  | .refused error => match outcomeOfError error with
    | .success => "success"
    | .failed _ => "failed"
    | .cancelled => "cancelled"
  | .completed .success => "success"
  | .completed (.failed _) => "failed"
  | .completed .cancelled => "cancelled"

/-- One admitted trigger. `attempts` lists the calls of `runner.submit`, `records` what was
    recorded about which input. -/
structure Batch where
  task : Task
  path : Path
  next : Nat
  phases : List InputPhase
  permits : Nat
  attempts : List (Nat × RunRequest)
  records : List (Nat × Recorded)

inductive BatchAction where
  | read
  | recordRejected
  | attempt (i : Nat)
  | resolve (i : Nat) (error : Option TimerRunnerError)
  | panic (i : Nat)
  | complete (i : Nat) (outcome : TimerOutcome)
  | dropPermit (i : Nat)

namespace InputPhase

/-- The spawned submission has not come back. -/
def pending : InputPhase → Bool
  | .queued _ | .submitting .. => true
  | _ => false

/-- The input is rejected and still to be recorded. -/
def isRejected : InputPhase → Bool
  | .rejected _ => true
  | _ => false

/-- The request handed to the runner. -/
def started : InputPhase → Option RunRequest
  | .submitting r _ | .submitted r _ => some r
  | _ => none

/-- The permits the input has out. -/
def held : InputPhase → Nat
  | .submitting _ p | .submitted _ p => p.toNat
  | _ => 0

end InputPhase

/-- The request of one input along a path. -/
def requestOf (path : Path) (t : Task) (input : Json) : Except Rejection RunRequest :=
  match path with
  | .single => t.runRequest
  | _ => inputRequest t input

namespace Batch

def new (t : Task) (path : Path) : Batch where
  task := t
  path := path
  next := 0
  phases := List.replicate (taskEffectiveInputs t).length .unread
  permits := t.concurrencyLimit
  attempts := []
  records := []

def inputs (b : Batch) : List Json := taskEffectiveInputs b.task

/-- The loop takes the next input. -/
def read (b : Batch) (input : Json) : Batch :=
  let b' := { b with next := b.next + 1 }
  match requestOf b.path b.task input, b.path with
  | .error why, .dispatchMulti => { b' with phases := b.phases.set b.next (.rejected why) }
  | .error why, _ => { b' with
      phases := b.phases.set b.next (.failed why)
      records := b.records ++ [(b.next, .rejected why)] }
  -- the single path submits at once, with no permit
  | .ok r, .single => { b' with
      phases := b.phases.set b.next (.submitting r false)
      attempts := b.attempts ++ [(b.next, r)] }
  | .ok r, _ => { b' with phases := b.phases.set b.next (.queued r) }

def step (b : Batch) : BatchAction → Option Batch
  | .read =>
    match b.inputs[b.next]? with
    | none => none
    | some input =>
      -- `submit_now_multi` joins the submission it spawned before it goes on
      if b.path = .submitNowMulti && b.phases.any InputPhase.pending then none
      else some (b.read input)
  | .recordRejected =>
    if b.next < b.inputs.length then none
    else match b.phases.findIdx? InputPhase.isRejected with
      | none => none
      | some i => match b.phases[i]? with
        | some (.rejected why) => some { b with
            phases := b.phases.set i (.failed why)
            records := b.records ++ [(i, .rejected why)] }
        | _ => none
  | .attempt i =>
    match b.phases[i]?, b.permits with
    | some (.queued r), permits + 1 => some { b with
        phases := b.phases.set i (.submitting r true)
        permits := permits
        attempts := b.attempts ++ [(i, r)] }
    | _, _ => none
  | .resolve i error =>
    match b.phases[i]?, error with
    | some (.submitting r permit), none =>
      some { b with phases := b.phases.set i (.submitted r permit) }
    | some (.submitting r permit), some e => some { b with
        phases := b.phases.set i (.submitted r false)
        permits := b.permits + permit.toNat
        records := b.records ++ [(i, .refused e)] }
    | _, _ => none
  | .panic i =>
    match b.phases[i]? with
    | some (.submitting r permit) => some { b with
        phases := b.phases.set i (.submitted r permit)
        -- only `dispatch_multi` watches its submissions
        records := if b.path = .dispatchMulti then b.records ++ [(i, .joinFailed)]
          else b.records }
    | _ => none
  | .complete i outcome =>
    match b.phases[i]? with
    | some (.submitting r permit) => some { b with
        phases := b.phases.set i (.submitting r false)
        permits := b.permits + permit.toNat
        records := b.records ++ [(i, .completed outcome)] }
    | some (.submitted r permit) => some { b with
        phases := b.phases.set i (.submitted r false)
        permits := b.permits + permit.toNat
        records := b.records ++ [(i, .completed outcome)] }
    | _ => none
  | .dropPermit i =>
    match b.phases[i]? with
    | some (.submitted r true) => some { b with
        phases := b.phases.set i (.submitted r false)
        permits := b.permits + 1 }
    | _ => none

end Batch

/-! ### Triggers -/

/-- How a task is triggered. `claim` is the answer of `claim_scheduled_run_async`, asked when the
    trigger has an occurrence. -/
inductive Trigger where
  | dispatch (claim : Option (Except String Bool))
  | submitNow

/-- The trigger is let through: its occurrence is claimed, or the task is active. -/
def Trigger.admitted (t : Task) : Trigger → Bool
  | .dispatch (some (.ok claimed)) => claimed
  | .dispatch (some (.error _)) => false
  | .dispatch none => true
  | .submitNow => t.isSchedulable

/-- `dispatch` and `submit_now` up to the choice of the path. -/
def Trigger.start (trigger : Trigger) (t : Task) (supports : Bool) : Option Batch :=
  let inputs := taskEffectiveInputs t
  match trigger with
  | .dispatch (some (.ok false)) | .dispatch (some (.error _)) => none
  | .dispatch _ =>
    if !supports then none
    else some (Batch.new t (if inputs.length ≤ 1 then .single else .dispatchMulti))
  | .submitNow =>
    if !supports then none
    else if !t.isSchedulable then none
    else some (Batch.new t (if 1 < inputs.length then .submitNowMulti else .single))

/-! ### What one action does -/

/-- An input moves from phase `p` to `q`; `as` and `rs` are the submissions and records made. -/
structure Batch.Moved (b b' : Batch) (i : Nat) (p q : InputPhase) (as : List (Nat × RunRequest))
    (rs : List (Nat × Recorded)) : Prop where
  task : b'.task = b.task
  path : b'.path = b.path
  old : b.phases[i]? = some p
  phases : b'.phases = b.phases.set i q
  permits : b'.permits + q.held = b.permits + p.held
  attempts : b'.attempts = b.attempts ++ as
  records : b'.records = b.records ++ rs

/-- The five kinds of action, apart from the inputs they do not touch. -/
inductive BatchEffect (b b' : Batch) : Prop
  | read (input : Json) (p q : InputPhase) (as : List (Nat × RunRequest))
      (rs : List (Nat × Recorded)) (hi : b.inputs[b.next]? = some input)
      (hnext : b'.next = b.next + 1) (hm : b.Moved b' b.next p q as rs)
      (hq : (∃ why, requestOf b.path b.task input = .error why ∧ as = [] ∧
          (q = .rejected why ∧ rs = [] ∨ q = .failed why ∧ rs = [(b.next, .rejected why)])) ∨
        (∃ r, requestOf b.path b.task input = .ok r ∧ rs = [] ∧
          (q = .queued r ∧ as = [] ∨ q = .submitting r false ∧ as = [(b.next, r)])))
  | record (i : Nat) (why : Rejection) (hnext : b'.next = b.next)
      (hm : b.Moved b' i (.rejected why) (.failed why) [] [(i, .rejected why)])
  | attempt (i : Nat) (r : RunRequest) (hnext : b'.next = b.next)
      (hm : b.Moved b' i (.queued r) (.submitting r true) [(i, r)] [])
  | work (i : Nat) (r : RunRequest) (p q : InputPhase) (rs : List (Nat × Recorded))
      (hnext : b'.next = b.next) (hp : p.started = some r) (hq : q.started = some r)
      (hrs : ∀ x ∈ rs, ∀ why, x.2 ≠ .rejected why) (hm : b.Moved b' i p q [] rs)

/-- INVERSION: every enabled action has one of these effects. -/
theorem Batch.step_effect {b b' : Batch} {a : BatchAction}
    (hunread : ∀ i, b.next ≤ i → i < b.inputs.length → b.phases[i]? = some .unread)
    (h : b.step a = some b') : BatchEffect b b' := by
  cases a with
  | read =>
    simp only [Batch.step] at h
    split at h
    · cases h
    · next input hi =>
      split at h
      · cases h
      · cases h
        have hlt : b.next < b.inputs.length := (List.getElem?_eq_some_iff.mp hi).1
        have hold := hunread b.next (Nat.le_refl _) hlt
        unfold Batch.read
        dsimp only
        split
        · next why hreq hpath =>
          exact .read input _ _ _ _ hi rfl ⟨rfl, rfl, hold, rfl, rfl, (List.append_nil _).symm,
            (List.append_nil _).symm⟩ (.inl ⟨why, hreq, rfl, .inl ⟨rfl, rfl⟩⟩)
        · next why hreq hpath =>
          exact .read input _ _ _ _ hi rfl ⟨rfl, rfl, hold, rfl, rfl, (List.append_nil _).symm,
            rfl⟩ (.inl ⟨why, hreq, rfl, .inr ⟨rfl, rfl⟩⟩)
        · next r hreq hpath =>
          exact .read input _ _ _ _ hi rfl ⟨rfl, rfl, hold, rfl, rfl, rfl,
            (List.append_nil _).symm⟩ (.inr ⟨r, hreq, rfl, .inr ⟨rfl, rfl⟩⟩)
        · next r hreq hpath =>
          exact .read input _ _ _ _ hi rfl ⟨rfl, rfl, hold, rfl, rfl, (List.append_nil _).symm,
            (List.append_nil _).symm⟩ (.inr ⟨r, hreq, rfl, .inl ⟨rfl, rfl⟩⟩)
  | recordRejected =>
    simp only [Batch.step] at h
    split at h
    · cases h
    · split at h
      · cases h
      · next i hi =>
        split at h <;> cases h
        next why hold =>
          exact .record i why rfl ⟨rfl, rfl, hold, rfl, rfl, (List.append_nil _).symm, rfl⟩
  | attempt i =>
    simp only [Batch.step] at h
    split at h <;> cases h
    next r permits hold hpermits =>
      refine .attempt i r rfl ⟨rfl, rfl, hold, rfl, ?_, rfl, (List.append_nil _).symm⟩
      simp only [InputPhase.held, Bool.toNat_true, hpermits]
  | resolve i error =>
    simp only [Batch.step] at h
    split at h <;> cases h
    · next r permit hold =>
      exact .work i r _ _ [] rfl rfl rfl (by simp) ⟨rfl, rfl, hold, rfl, rfl,
        (List.append_nil _).symm, (List.append_nil _).symm⟩
    · next r permit e hold =>
      exact .work i r _ _ [(i, .refused e)] rfl rfl rfl (by simp) ⟨rfl, rfl, hold, rfl,
        by simp [InputPhase.held], (List.append_nil _).symm, rfl⟩
  | panic i =>
    simp only [Batch.step] at h
    split at h <;> cases h
    next r permit hold =>
      cases hp : b.path with
      | dispatchMulti =>
        exact .work i r _ _ [(i, .joinFailed)] rfl rfl rfl (by simp) ⟨rfl, hp.symm, hold, rfl, rfl,
          (List.append_nil _).symm, by simp⟩
      | _ =>
        exact .work i r _ _ [] rfl rfl rfl (by simp) ⟨rfl, hp.symm, hold, rfl, rfl,
          (List.append_nil _).symm, by simp⟩
  | complete i outcome =>
    simp only [Batch.step] at h
    split at h <;> cases h
    · next r permit hold =>
      exact .work i r _ _ [(i, .completed outcome)] rfl rfl rfl (by simp) ⟨rfl, rfl, hold, rfl,
        by simp [InputPhase.held], (List.append_nil _).symm, rfl⟩
    · next r permit hold =>
      exact .work i r _ _ [(i, .completed outcome)] rfl rfl rfl (by simp) ⟨rfl, rfl, hold, rfl,
        by simp [InputPhase.held], (List.append_nil _).symm, rfl⟩
  | dropPermit i =>
    simp only [Batch.step] at h
    split at h <;> cases h
    next r hold =>
      exact .work i r _ _ [] rfl rfl rfl (by simp) ⟨rfl, rfl, hold, rfl,
        by simp [InputPhase.held], (List.append_nil _).symm, (List.append_nil _).symm⟩

/-! ### The invariant of a trigger -/

/-- What the phase of an input says about its request. -/
def InputPhase.Built (request : Except Rejection RunRequest) : InputPhase → Prop
  | .unread => True
  | .rejected why | .failed why => request = .error why
  | .queued r | .submitting r _ | .submitted r _ => request = .ok r

/-- INVARIANT of a trigger: every input is submitted at most once, with its own request, or
    recorded as rejected; every permit is free or out. -/
structure Coherent (b : Batch) : Prop where
  length : b.phases.length = b.inputs.length
  next_le : b.next ≤ b.inputs.length
  unread : ∀ i, b.next ≤ i → i < b.inputs.length → b.phases[i]? = some .unread
  read : ∀ i, i < b.next → b.phases[i]? ≠ some .unread
  built : ∀ (i : Nat) (p : InputPhase), b.phases[i]? = some p →
    ∃ input, b.inputs[i]? = some input ∧ p.Built (requestOf b.path b.task input)
  attempts : ∀ i : Nat, (b.attempts.filter fun x => x.1 = i) =
    match b.phases[i]?.bind InputPhase.started with
    | some r => [(i, r)]
    | none => []
  recorded : ∀ (i : Nat) (why : Rejection), b.phases[i]? = some (.failed why) ↔ (i, Recorded.rejected why) ∈ b.records
  permits : b.permits + (b.phases.map InputPhase.held).sum = b.task.concurrencyLimit

/-- Changing one entry of a list changes a sum over it by the difference. -/
theorem sum_map_set {α : Type} (f : α → Nat) (l : List α) (i : Nat) (p q : α)
    (h : l[i]? = some p) : ((l.set i q).map f).sum + f p = (l.map f).sum + f q := by
  induction l generalizing i with
  | nil => cases h
  | cons x l ih =>
    cases i with
    | zero => cases h; simp only [List.set_cons_zero, List.map_cons, List.sum_cons]; omega
    | succ i =>
      have hrest := ih i h
      simp only [List.set_cons_succ, List.map_cons, List.sum_cons]
      omega

theorem Coherent.new (t : Task) (path : Path) : Coherent (Batch.new t path) := by
  have hphase : ∀ i : Nat, (Batch.new t path).phases[i]? =
      if i < (taskEffectiveInputs t).length then some .unread else none := fun i => by
    simp only [Batch.new, List.getElem?_replicate]
  refine ⟨by simp [Batch.new, Batch.inputs], Nat.zero_le _, fun i _ hi => ?_,
    fun i hi => absurd hi (Nat.not_lt_zero i), fun i p hp => ?_, fun i => ?_, fun i why => ?_, ?_⟩
  · exact (hphase i).trans (if_pos hi)
  · rw [hphase] at hp
    split at hp
    · next hi => cases hp; exact ⟨_, List.getElem?_eq_getElem hi, trivial⟩
    · cases hp
  · rw [hphase]
    by_cases hi : i < (taskEffectiveInputs t).length <;>
      simp [Batch.new, hi, InputPhase.started]
  · rw [hphase]
    by_cases hi : i < (taskEffectiveInputs t).length <;> simp [Batch.new, hi]
  · simp [Batch.new, InputPhase.held]

theorem Batch.Moved.get {b b' : Batch} {i : Nat} {p q : InputPhase} {as : List (Nat × RunRequest)}
    {rs : List (Nat × Recorded)} (h : b.Moved b' i p q as rs) (j : Nat) :
    b'.phases[j]? = if j = i then some q else b.phases[j]? := by
  have hlt : i < b.phases.length := (List.getElem?_eq_some_iff.mp h.old).1
  rw [h.phases, List.getElem?_set]
  by_cases hij : i = j
  · subst hij; simp [hlt]
  · simp [hij, Ne.symm hij]

theorem Batch.Moved.inputs {b b' : Batch} {i : Nat} {p q : InputPhase}
    {as : List (Nat × RunRequest)} {rs : List (Nat × Recorded)} (h : b.Moved b' i p q as rs) :
    b'.inputs = b.inputs := by
  unfold Batch.inputs
  rw [h.task]

/-- STEP: an input that moves in agreement with its request keeps the trigger coherent. -/
theorem Coherent.moved {b b' : Batch} (hb : Coherent b) {i : Nat} {p q : InputPhase}
    {as : List (Nat × RunRequest)} {rs : List (Nat × Recorded)} (hm : b.Moved b' i p q as rs)
    (hnext : b'.next = b.next ∧ p ≠ .unread ∨ b'.next = b.next + 1 ∧ i = b.next)
    (hq : q ≠ .unread)
    (hbuilt : ∀ input, b.inputs[i]? = some input → q.Built (requestOf b.path b.task input))
    (has : (q.started = p.started ∧ as = []) ∨
      (p.started = none ∧ ∃ r, q.started = some r ∧ as = [(i, r)]))
    (hrs : ∀ why, q = .failed why ↔ p = .failed why ∨ (i, Recorded.rejected why) ∈ rs)
    (hother : ∀ x ∈ rs, ∀ why, x.2 = .rejected why → x.1 = i) : Coherent b' := by
  have hlt : i < b.inputs.length := by
    rw [← hb.length]
    exact (List.getElem?_eq_some_iff.mp hm.old).1
  have hget := hm.get
  refine ⟨?_, ?_, fun j hj hjlt => ?_, fun j hj => ?_, fun j r hr => ?_, fun j => ?_,
    fun j why => ?_, ?_⟩
  · rw [hm.phases, List.length_set, hm.inputs]
    exact hb.length
  · rw [hm.inputs]
    have hle := hb.next_le
    rcases hnext with ⟨hn, _⟩ | ⟨hn, rfl⟩ <;> omega
  · rw [hm.inputs] at hjlt
    have hji : j ≠ i := by
      rintro rfl
      rcases hnext with ⟨hn, hp⟩ | ⟨hn, rfl⟩
      · have hu := hb.unread j (by omega) hjlt
        rw [hm.old] at hu
        exact hp (Option.some.inj hu)
      · omega
    rw [hget, if_neg hji]
    exact hb.unread j (by rcases hnext with ⟨hn, _⟩ | ⟨hn, _⟩ <;> omega) hjlt
  · rw [hget]
    split
    · intro h; exact hq (Option.some.inj h)
    · next hji =>
      refine hb.read j ?_
      rcases hnext with ⟨hn, _⟩ | ⟨hn, rfl⟩ <;> omega
  · rw [hget] at hr
    rw [hm.inputs, hm.path, hm.task]
    split at hr
    · next hji =>
      cases hr
      subst hji
      obtain ⟨input, hinput, _⟩ := hb.built j p hm.old
      exact ⟨input, hinput, hbuilt input hinput⟩
    · exact hb.built j r hr
  · have hold := hb.attempts j
    rw [hget, hm.attempts, List.filter_append, hold]
    by_cases hji : j = i
    · subst hji
      rw [if_pos rfl, hm.old]
      rcases has with ⟨hs, rfl⟩ | ⟨hs, r, hr, rfl⟩
      · simp [hs]
      · simp [hs, hr]
    · rw [if_neg hji]
      rcases has with ⟨hs, rfl⟩ | ⟨hs, r, hr, rfl⟩
      · simp
      · simp [Ne.symm hji]
  · rw [hget, hm.records, List.mem_append]
    by_cases hji : j = i
    · subst hji
      rw [if_pos rfl, ← hb.recorded, hm.old]
      simpa using hrs why
    · rw [if_neg hji, hb.recorded]
      constructor
      · exact Or.inl
      · rintro (h | h)
        · exact h
        · exact absurd (hother _ h why rfl) hji
  · have hsum := sum_map_set InputPhase.held b.phases i p q hm.old
    have hold := hb.permits
    have hperm := hm.permits
    rw [hm.task, hm.phases]
    omega

theorem Coherent.step {b b' : Batch} {a : BatchAction} (hb : Coherent b)
    (h : b.step a = some b') : Coherent b' := by
  cases Batch.step_effect hb.unread h with
  | read input p q as rs hi hnext hm hq =>
    have hold := hb.unread b.next (Nat.le_refl _) (List.getElem?_eq_some_iff.mp hi).1
    rw [hm.old] at hold
    obtain rfl := Option.some.inj hold
    have hbuilt : ∀ {q : InputPhase}, q.Built (requestOf b.path b.task input) →
        ∀ input, b.inputs[b.next]? = some input → q.Built (requestOf b.path b.task input) := by
      intro q hq input' hi'
      rw [hi] at hi'; cases hi'
      exact hq
    rcases hq with ⟨why, hreq, rfl, ⟨rfl, rfl⟩ | ⟨rfl, rfl⟩⟩ | ⟨r, hreq, rfl, ⟨rfl, rfl⟩ | ⟨rfl, rfl⟩⟩
    · exact hb.moved hm (.inr ⟨hnext, rfl⟩) (by simp) (hbuilt hreq) (.inl ⟨rfl, rfl⟩) (by simp)
        (by simp)
    · exact hb.moved hm (.inr ⟨hnext, rfl⟩) (by simp) (hbuilt hreq) (.inl ⟨rfl, rfl⟩)
        (by simp [eq_comm]) (by simp)
    · exact hb.moved hm (.inr ⟨hnext, rfl⟩) (by simp) (hbuilt hreq) (.inl ⟨rfl, rfl⟩) (by simp)
        (by simp)
    · exact hb.moved hm (.inr ⟨hnext, rfl⟩) (by simp) (hbuilt hreq) (.inr ⟨rfl, r, rfl, rfl⟩)
        (by simp) (by simp)
  | record i why hnext hm =>
    obtain ⟨input, hi, hreq⟩ := hb.built i _ hm.old
    refine hb.moved hm (.inl ⟨hnext, by simp⟩) (by simp) (fun input' hi' => ?_) (.inl ⟨rfl, rfl⟩)
      (by simp [eq_comm]) (by simp)
    rw [hi] at hi'; cases hi'
    exact hreq
  | attempt i r hnext hm =>
    obtain ⟨input, hi, hreq⟩ := hb.built i _ hm.old
    refine hb.moved hm (.inl ⟨hnext, by simp⟩) (by simp) (fun input' hi' => ?_)
      (.inr ⟨rfl, r, rfl, rfl⟩) (by simp) (by simp)
    rw [hi] at hi'; cases hi'
    exact hreq
  | work i r p q rs hnext hp hq hrs hm =>
    obtain ⟨input, hi, hreq⟩ := hb.built i _ hm.old
    have hstarted : ∀ {p : InputPhase}, p.started = some r →
        p ≠ .unread ∧ (∀ why, p ≠ .failed why) ∧
          ∀ request : Except Rejection RunRequest, p.Built request ↔ request = .ok r := by
      intro p hp
      cases p <;> simp_all [InputPhase.started, InputPhase.Built]
    obtain ⟨hp₁, hp₂, hp₃⟩ := hstarted hp
    obtain ⟨hq₁, hq₂, hq₃⟩ := hstarted hq
    refine hb.moved hm (.inl ⟨hnext, hp₁⟩) hq₁ (fun input' hi' => ?_)
      (.inl ⟨hq.trans hp.symm, rfl⟩) (fun why => ?_) (fun x hx why hwhy => absurd hwhy (hrs x hx why))
    · rw [hi] at hi'; cases hi'
      exact (hq₃ _).mpr ((hp₃ _).mp hreq)
    · simp only [hq₂ why, hp₂ why, false_or, false_iff]
      exact fun hmem => hrs _ hmem why rfl

/-! ### Every trigger comes to its end -/

/-- Every input is submitted, or recorded as rejected. -/
def Batch.Settled (b : Batch) : Prop :=
  ∀ i : Nat, i < b.inputs.length → (∃ why, b.phases[i]? = some (.failed why)) ∨
    ∃ r permit, b.phases[i]? = some (.submitted r permit)

/-- The way an input still has to go. -/
def InputPhase.weight : InputPhase → Nat
  | .unread => 5
  | .queued _ => 4
  | .submitting _ permit => 2 + permit.toNat
  | .rejected _ => 1
  | .submitted _ permit => permit.toNat
  | .failed _ => 0

def Batch.size (b : Batch) : Nat := (b.phases.map InputPhase.weight).sum

theorem Batch.Moved.size {b b' : Batch} {i : Nat} {p q : InputPhase} {as : List (Nat × RunRequest)}
    {rs : List (Nat × Recorded)} (h : b.Moved b' i p q as rs) :
    b'.size + p.weight = b.size + q.weight := by
  have hsum := sum_map_set InputPhase.weight b.phases i p q h.old
  unfold Batch.size
  rw [h.phases]
  exact hsum

theorem Task.concurrencyLimit_pos (t : Task) : 0 < t.concurrencyLimit := by
  unfold Task.concurrencyLimit taskMaxConcurrency
  omega

/-- With no permit left, some submitted input has its permit out. -/
theorem Coherent.held_of_no_permit {b : Batch} (hb : Coherent b) (hp : b.permits = 0) :
    ∃ (i : Nat) (p : InputPhase), b.phases[i]? = some p ∧ 0 < p.held := by
  have hsum : 0 < (b.phases.map InputPhase.held).sum := by
    have hpermits := hb.permits
    have hpos := b.task.concurrencyLimit_pos
    omega
  obtain ⟨n, hn, hpos⟩ := List.sum_pos_iff_exists_pos_nat.mp hsum
  obtain ⟨p, hmem, rfl⟩ := List.mem_map.mp hn
  obtain ⟨i, hi⟩ := List.mem_iff_getElem?.mp hmem
  exact ⟨i, p, hi, hpos⟩

/-- PROGRESS: a trigger that is not settled has an action that brings it closer. -/
theorem Coherent.advances {b : Batch} (hb : Coherent b) (hopen : ¬ b.Settled) :
    ∃ b', Machine.Reaches Batch.step b b' ∧ Coherent b' ∧ b'.size < b.size := by
  have htake : ∀ {a : BatchAction} {b' : Batch} {i : Nat} {p q : InputPhase}
      {as : List (Nat × RunRequest)} {rs : List (Nat × Recorded)}, b.step a = some b' →
      b.Moved b' i p q as rs → q.weight < p.weight →
      ∃ b', Machine.Reaches Batch.step b b' ∧ Coherent b' ∧ b'.size < b.size := by
    intro a b' i p q as rs hs hm hlt
    have hsize := hm.size
    exact ⟨b', .single hs, hb.step hs, by omega⟩
  by_cases hsubmitting : ∃ (i : Nat) (r : RunRequest) (permit : Bool),
      b.phases[i]? = some (.submitting r permit)
  · obtain ⟨i, r, permit, hi⟩ := hsubmitting
    have hs : b.step (.resolve i none) =
        some { b with phases := b.phases.set i (.submitted r permit) } := by
      simp only [Batch.step, hi]
    exact htake hs ⟨rfl, rfl, hi, rfl, rfl, (List.append_nil _).symm, (List.append_nil _).symm⟩
      (by simp [InputPhase.weight])
  by_cases hqueued : ∃ (i : Nat) (r : RunRequest), b.phases[i]? = some (.queued r)
  · obtain ⟨i, r, hi⟩ := hqueued
    cases hp : b.permits with
    | succ permits =>
      have hs : b.step (.attempt i) = some { b with
          phases := b.phases.set i (.submitting r true)
          permits := permits
          attempts := b.attempts ++ [(i, r)] } := by
        simp only [Batch.step, hi, hp]
      exact htake hs ⟨rfl, rfl, hi, rfl, by simp [InputPhase.held, hp], rfl,
        (List.append_nil _).symm⟩ (by simp [InputPhase.weight])
    | zero =>
      -- all permits are out with submitted runs: one of them completes
      obtain ⟨j, p, hj, hheld⟩ := hb.held_of_no_permit hp
      cases p with
      | submitting r' permit => exact absurd ⟨j, r', permit, hj⟩ hsubmitting
      | submitted r' permit =>
        cases permit with
        | false => cases hheld
        | true =>
          have hs : b.step (.dropPermit j) = some { b with
              phases := b.phases.set j (.submitted r' false)
              permits := b.permits + 1 } := by
            simp only [Batch.step, hj]
          exact htake hs ⟨rfl, rfl, hj, rfl, by simp [InputPhase.held],
            (List.append_nil _).symm, (List.append_nil _).symm⟩ (by simp [InputPhase.weight])
      | _ => cases hheld
  · have hidle : b.phases.any InputPhase.pending = false := by
      rw [List.any_eq_false]
      intro p hp
      obtain ⟨i, hi⟩ := List.mem_iff_getElem?.mp hp
      cases p with
      | queued r => exact absurd ⟨i, r, hi⟩ hqueued
      | submitting r permit => exact absurd ⟨i, r, permit, hi⟩ hsubmitting
      | _ => simp [InputPhase.pending]
    by_cases hnext : b.next < b.inputs.length
    · have hi : b.inputs[b.next]? = some b.inputs[b.next] := List.getElem?_eq_getElem hnext
      have hs : b.step .read = some (b.read b.inputs[b.next]) := by
        simp only [Batch.step, hi, hidle, Bool.and_false]
        rfl
      cases Batch.step_effect hb.unread hs with
      | read input p q as rs hi' hn hm hq =>
        have hold := hb.unread b.next (Nat.le_refl _) hnext
        rw [hm.old] at hold
        obtain rfl := Option.some.inj hold
        refine htake hs hm ?_
        rcases hq with ⟨why, _, _, ⟨rfl, _⟩ | ⟨rfl, _⟩⟩ | ⟨r, _, _, ⟨rfl, _⟩ | ⟨rfl, _⟩⟩ <;>
          simp [InputPhase.weight]
      | record i why hn hm => exact absurd hn (by simp [Batch.read]; split <;> simp)
      | attempt i r hn hm => exact absurd hn (by simp [Batch.read]; split <;> simp)
      | work i r p q rs hn hp hq hrs hm => exact absurd hn (by simp [Batch.read]; split <;> simp)
    · cases hfind : b.phases.findIdx? InputPhase.isRejected with
      | some i =>
        obtain ⟨hlt, hrej, _⟩ := List.findIdx?_eq_some_iff_getElem.mp hfind
        have hi := List.getElem?_eq_getElem hlt
        cases hp : b.phases[i] with
        | rejected why =>
          rw [hp] at hi
          have hs : b.step .recordRejected = some { b with
              phases := b.phases.set i (.failed why)
              records := b.records ++ [(i, .rejected why)] } := by
            simp only [Batch.step, if_neg hnext, hfind, hi]
          exact htake hs ⟨rfl, rfl, hi, rfl, rfl, (List.append_nil _).symm, rfl⟩
            (by simp [InputPhase.weight])
        | _ => rw [hp] at hrej; cases hrej
      | none =>
        -- nothing is left to read, to submit or to record
        refine absurd (fun i hi => ?_) hopen
        have hlt : i < b.phases.length := by rw [hb.length]; exact hi
        have hget := List.getElem?_eq_getElem hlt
        have hmem : b.phases[i] ∈ b.phases := List.getElem_mem hlt
        cases hp : b.phases[i] with
        | unread =>
          rw [hp] at hget
          exact absurd hget (hb.read i (by omega))
        | rejected why =>
          have hnone := List.findIdx?_eq_none_iff.mp hfind _ hmem
          rw [hp] at hnone; cases hnone
        | failed why => exact Or.inl ⟨why, by rw [hget, hp]⟩
        | queued r => exact absurd ⟨i, r, by rw [hget, hp]⟩ hqueued
        | submitting r permit => exact absurd ⟨i, r, permit, by rw [hget, hp]⟩ hsubmitting
        | submitted r permit => exact Or.inr ⟨r, permit, by rw [hget, hp]⟩

theorem Coherent.settles {b : Batch} (hb : Coherent b) :
    ∃ b', Machine.Reaches Batch.step b b' ∧ b'.Settled :=
  Machine.Reaches.goal Batch.size (fun _ hb hopen => hb.advances hopen) hb

/-! ### Covering the declared inputs -/

/-- The request is the one declared by the input: its fields over the task's payload, on the
    device it names. -/
def Carries (t : Task) (input : Json) (r : RunRequest) : Prop :=
  r.payload = mergePayload t.payload input ∧
    ∀ v, input.get "device_id" = some v →
      ∃ d, v = .str d ∧ Identifier.new "device_id" d = .ok r.deviceId

/-- The trigger attempts one submission for each declared input, with the input's own request, or
    records the input as failed without one; and it comes to its end. -/
structure Covers (t : Task) (b₀ : Batch) : Prop where
  once : ∀ b, Machine.Reaches Batch.step b₀ b →
    ∀ i : Nat, (b.attempts.filter fun x => x.1 = i).length ≤ 1
  carries : ∀ b, Machine.Reaches Batch.step b₀ b →
    ∀ x ∈ b.attempts, ∃ input, t.inputs[x.1]? = some input ∧ Carries t input x.2
  settles : ∀ b, Machine.Reaches Batch.step b₀ b → ∃ b', Machine.Reaches Batch.step b b' ∧ b'.Settled
  complete : ∀ b, Machine.Reaches Batch.step b₀ b → b.Settled → ∀ i : Nat, i < t.inputs.length →
    ((∃ r, (b.attempts.filter fun x => x.1 = i) = [(i, r)]) ∧
      ∀ why, (i, Recorded.rejected why) ∉ b.records) ∨
    ((b.attempts.filter fun x => x.1 = i) = [] ∧
      ∃ what, (i, what) ∈ b.records ∧ what.state = "failed")

/-- The task's inputs agree with the path its trigger takes: where the delegation decodes, an
    input names its device by a string, and an only input adds nothing to the task itself. -/
def Task.InputsAgree (t : Task) : Prop :=
  ExecutionPolicy.fromTaskExtensions t.extensions = .error () ∨
  ((∀ input ∈ t.inputs, ∀ v, input.get "device_id" = some v → ∃ d, v = .str d) ∧
    (t.inputs.length = 1 → ∀ input ∈ t.inputs, t.payload = mergePayload t.payload input ∧
      ∀ d, input.getStr "device_id" = some d →
        Identifier.new "device_id" d = .ok t.app.deviceId))

theorem getStr_eq_some {v : Json} {k d : String} : v.getStr k = some d ↔ v.get k = some (.str d) := by
  unfold Json.getStr
  cases v.get k with
  | none => simp
  | some w => cases w <;> simp [Json.asStr]

/-- What the request of one input carries. -/
theorem inputRequest_ok {t : Task} (hval : t.validate = .ok ()) {input : Json} {r : RunRequest}
    (h : inputRequest t input = .ok r) : r.payload = mergePayload t.payload input ∧
      (∀ d, input.getStr "device_id" = some d → Identifier.new "device_id" d = .ok r.deviceId) := by
  unfold inputRequest inputDevice at h
  have hdelegated : ∀ {app : AppContext}, delegated t app (mergePayload t.payload input) = .ok r →
      r.payload = mergePayload t.payload input ∧ r.deviceId = app.deviceId := by
    intro app hr
    rw [delegated_eq hval] at hr
    split at hr <;> cases hr
    exact ⟨rfl, rfl⟩
  cases hd : input.getStr "device_id" with
  | none =>
    simp only [hd, bind, Except.bind] at h
    exact ⟨(hdelegated h).1, fun d hd' => by cases hd'⟩
  | some d =>
    cases hid : Identifier.new "device_id" d with
    | error e => simp only [hd, hid, bind, Except.bind] at h; cases h
    | ok deviceId =>
      simp only [hd, hid, bind, Except.bind] at h
      obtain ⟨hp, hdev⟩ := hdelegated h
      refine ⟨hp, fun d' hd' => ?_⟩
      cases hd'
      rw [hid, hdev]

/-- Where the delegation decodes, only a device name keeps a request from being built. -/
theorem inputRequest_error {t : Task} (hval : t.validate = .ok ())
    (hpolicy : ExecutionPolicy.fromTaskExtensions t.extensions ≠ .error ()) {input : Json}
    {why : Rejection} (h : inputRequest t input = .error why) :
    ∃ d, input.getStr "device_id" = some d := by
  cases hd : input.getStr "device_id" with
  | some d => exact ⟨d, rfl⟩
  | none =>
    simp only [inputRequest, inputDevice, hd, bind, Except.bind] at h
    rw [delegated_eq hval] at h
    split at h
    · next hp => exact absurd hp hpolicy
    · cases h

theorem runRequest_cases {t : Task} (hval : t.validate = .ok ()) :
    (ExecutionPolicy.fromTaskExtensions t.extensions = .error () ∧
      t.runRequest = .error .policy) ∨
    (ExecutionPolicy.fromTaskExtensions t.extensions ≠ .error () ∧
      ∃ r, t.runRequest = .ok r ∧ r.payload = t.payload ∧ r.deviceId = t.app.deviceId) := by
  unfold Task.runRequest
  rw [delegated_eq hval]
  cases hp : ExecutionPolicy.fromTaskExtensions t.extensions with
  | error u => exact Or.inl ⟨rfl, rfl⟩
  | ok policy => exact Or.inr ⟨by simp, _, rfl, rfl, rfl⟩

theorem Coherent.of_reaches {t : Task} {path : Path} {b : Batch}
    (h : Machine.Reaches Batch.step (Batch.new t path) b) :
    Coherent b ∧ b.task = t ∧ b.path = path := by
  refine h.invariant (I := fun b => Coherent b ∧ b.task = t ∧ b.path = path) ?_
    ⟨.new t path, rfl, rfl⟩
  rintro b a b' ⟨hb, ht, hp⟩ hs
  refine ⟨hb.step hs, ?_⟩
  cases Batch.step_effect hb.unread hs with
  | read input p q as rs hi hn hm hq => exact ⟨hm.task.trans ht, hm.path.trans hp⟩
  | record i why hn hm => exact ⟨hm.task.trans ht, hm.path.trans hp⟩
  | attempt i r hn hm => exact ⟨hm.task.trans ht, hm.path.trans hp⟩
  | work i r p q rs hn hp' hq hrs hm => exact ⟨hm.task.trans ht, hm.path.trans hp⟩

/-- What a submission of a trigger was built from. -/
theorem Coherent.of_attempt {b : Batch} (hb : Coherent b) {x : Nat × RunRequest}
    (hx : x ∈ b.attempts) :
    ∃ input, b.inputs[x.1]? = some input ∧ requestOf b.path b.task input = .ok x.2 := by
  have hmem : x ∈ b.attempts.filter fun y => y.1 = x.1 := List.mem_filter.mpr ⟨hx, by simp⟩
  rw [hb.attempts] at hmem
  cases hp : b.phases[x.1]? with
  | none => rw [hp] at hmem; cases hmem
  | some p =>
    obtain ⟨input, hi, hbuilt⟩ := hb.built x.1 p hp
    refine ⟨input, hi, ?_⟩
    rw [hp] at hmem
    cases p <;> simp [InputPhase.started, InputPhase.Built] at hmem hbuilt
    all_goals rw [hbuilt, hmem]

/-- ONCE AND IN FULL: every trigger submits each effective input once or records it as rejected. -/
theorem Coherent.complete {b : Batch} (hb : Coherent b) (hend : b.Settled) {i : Nat}
    (hi : i < b.inputs.length) :
    (∃ r, (b.attempts.filter fun x => x.1 = i) = [(i, r)] ∧
      ∀ why, (i, Recorded.rejected why) ∉ b.records) ∨
    ((b.attempts.filter fun x => x.1 = i) = [] ∧
      ∃ why input, (i, Recorded.rejected why) ∈ b.records ∧ b.inputs[i]? = some input ∧
        requestOf b.path b.task input = .error why) := by
  rw [hb.attempts]
  rcases hend i hi with ⟨why, hp⟩ | ⟨r, permit, hp⟩
  · obtain ⟨input, hinput, hbuilt⟩ := hb.built i _ hp
    exact Or.inr ⟨by rw [hp]; rfl, why, input, (hb.recorded i why).mp hp, hinput, hbuilt⟩
  · refine Or.inl ⟨r, by rw [hp]; rfl, fun why hmem => ?_⟩
    rw [(hb.recorded i why).mpr hmem] at hp
    cases hp

theorem taskEffectiveInputs_of_ne {t : Task} (hne : t.inputs ≠ []) :
    taskEffectiveInputs t = t.inputs := by
  unfold taskEffectiveInputs
  rw [if_neg (by simpa using hne)]

/-- A path covers the inputs exactly if each request it builds is the declared one. -/
theorem covers_path_iff {t : Task} (hne : t.inputs ≠ []) (path : Path) :
    Covers t (Batch.new t path) ↔
      ∀ input ∈ t.inputs, ∀ r, requestOf path t input = .ok r → Carries t input r := by
  have hinputs : ∀ {b : Batch}, b.task = t → b.inputs = t.inputs := by
    rintro b rfl
    exact taskEffectiveInputs_of_ne hne
  constructor
  · intro hcovers input hmem r hr
    obtain ⟨i, hi⟩ := List.mem_iff_getElem?.mp hmem
    have hlt : i < t.inputs.length := (List.getElem?_eq_some_iff.mp hi).1
    obtain ⟨b, hrun, hend⟩ := hcovers.settles _ (.refl _)
    obtain ⟨hb, ht, hp⟩ := Coherent.of_reaches hrun
    rcases hb.complete hend (by rw [hinputs ht]; exact hlt) with
      ⟨r', hone, _⟩ | ⟨_, why, input', _, hi', hwhy⟩
    · have hx : (i, r') ∈ b.attempts := by
        have hmem' : (i, r') ∈ b.attempts.filter fun x => x.1 = i := by rw [hone]; simp
        exact (List.mem_filter.mp hmem').1
      obtain ⟨input', hi', hr'⟩ := hb.of_attempt hx
      rw [hinputs ht, hi] at hi'; cases hi'
      rw [hp, ht, hr] at hr'; cases hr'
      obtain ⟨input'', hi'', hcarries⟩ := hcovers.carries b hrun _ hx
      rw [hi] at hi''; cases hi''
      exact hcarries
    · rw [hinputs ht, hi] at hi'; cases hi'
      rw [hp, ht, hr] at hwhy; cases hwhy
  · intro hall
    refine ⟨fun b hrun i => ?_, fun b hrun x hx => ?_, fun b hrun => ?_,
      fun b hrun hend i hi => ?_⟩
    · rw [(Coherent.of_reaches hrun).1.attempts]
      split <;> simp
    · obtain ⟨hb, ht, hp⟩ := Coherent.of_reaches hrun
      obtain ⟨input, hinput, hr⟩ := hb.of_attempt hx
      rw [hinputs ht] at hinput
      rw [hp, ht] at hr
      exact ⟨input, hinput, hall input (List.mem_of_getElem? hinput) _ hr⟩
    · exact (Coherent.of_reaches hrun).1.settles
    · obtain ⟨hb, ht, hp⟩ := Coherent.of_reaches hrun
      rcases hb.complete hend (by rw [hinputs ht]; exact hi) with
        ⟨r, hone, hnot⟩ | ⟨hnone, why, input, hrec, _⟩
      · exact Or.inl ⟨⟨r, hone⟩, hnot⟩
      · exact Or.inr ⟨hnone, .rejected why, hrec, rfl⟩

/-- Both multi-input paths build the declared request wherever the device is named by a string. -/
theorem carries_multi_iff {t : Task} (hval : t.validate = .ok ()) {path : Path}
    (hpath : path ≠ .single) :
    (∀ input ∈ t.inputs, ∀ r, requestOf path t input = .ok r → Carries t input r) ↔
      ExecutionPolicy.fromTaskExtensions t.extensions = .error () ∨
        ∀ input ∈ t.inputs, ∀ v, input.get "device_id" = some v → ∃ d, v = .str d := by
  have hreq : ∀ input, requestOf path t input = inputRequest t input := by
    intro input
    cases path <;> first | exact absurd rfl hpath | rfl
  simp only [hreq]
  constructor
  · intro hall
    by_cases hpolicy : ExecutionPolicy.fromTaskExtensions t.extensions = .error ()
    · exact Or.inl hpolicy
    · refine Or.inr fun input hmem v hv => ?_
      cases hr : inputRequest t input with
      | ok r =>
        obtain ⟨d, hd, _⟩ := (hall input hmem r hr).2 v hv
        exact ⟨d, hd⟩
      | error why =>
        obtain ⟨d, hd⟩ := inputRequest_error hval hpolicy hr
        rw [getStr_eq_some.mp hd] at hv
        exact ⟨d, (Option.some.inj hv).symm⟩
  · rintro (hpolicy | hnames) input hmem r hr
    · exfalso
      unfold inputRequest at hr
      cases hd : inputDevice t input with
      | error e => rw [hd] at hr; cases hr
      | ok app =>
        rw [hd] at hr
        simp only [bind, Except.bind] at hr
        rw [delegated_eq hval, hpolicy] at hr
        cases hr
    · obtain ⟨hpayload, hdevice⟩ := inputRequest_ok hval hr
      refine ⟨hpayload, fun v hv => ?_⟩
      obtain ⟨d, rfl⟩ := hnames input hmem v hv
      exact ⟨d, rfl, hdevice d (getStr_eq_some.mpr hv)⟩

/-- The single path builds the declared request only where the input adds nothing. -/
theorem carries_single_iff {t : Task} (hval : t.validate = .ok ()) :
    (∀ input ∈ t.inputs, ∀ r, requestOf .single t input = .ok r → Carries t input r) ↔
      ExecutionPolicy.fromTaskExtensions t.extensions = .error () ∨
        ∀ input ∈ t.inputs, t.payload = mergePayload t.payload input ∧
          ∀ v, input.get "device_id" = some v →
            ∃ d, v = .str d ∧ Identifier.new "device_id" d = .ok t.app.deviceId := by
  rcases runRequest_cases hval with ⟨hpolicy, herr⟩ | ⟨hpolicy, r, hr, hpayload, hdevice⟩
  · refine ⟨fun _ => Or.inl hpolicy, fun _ input hmem r hr => ?_⟩
    rw [show requestOf .single t input = t.runRequest from rfl, herr] at hr
    cases hr
  · constructor
    · intro hall
      refine Or.inr fun input hmem => ?_
      have hcarries := hall input hmem r hr
      unfold Carries at hcarries
      rw [hpayload, hdevice] at hcarries
      exact hcarries
    · rintro (h | hagree) input hmem r' hr'
      · exact absurd h hpolicy
      · rw [show requestOf .single t input = t.runRequest from rfl, hr] at hr'
        cases hr'
        unfold Carries
        rw [hpayload, hdevice]
        exact hagree input hmem

/-- COVERAGE: a trigger of a validated task covers its declared inputs exactly if it is admitted
    and the inputs agree with the path it takes. -/
theorem trigger_covers_iff (trigger : Trigger) {t : Task} (hval : t.validate = .ok ())
    (hne : t.inputs ≠ []) :
    (∃ b₀, trigger.start t true = some b₀ ∧ Covers t b₀) ↔
      trigger.admitted t = true ∧ t.InputsAgree := by
  have heff : taskEffectiveInputs t = t.inputs := taskEffectiveInputs_of_ne hne
  have hpos : 0 < t.inputs.length := List.length_pos_iff.mpr hne
  -- the path is chosen by the number of inputs
  have hagree : ∀ {path : Path}, (path = .single ↔ t.inputs.length = 1) →
      (Covers t (Batch.new t path) ↔ t.InputsAgree) := by
    intro path hpath
    rw [covers_path_iff hne]
    by_cases hone : t.inputs.length = 1
    · obtain rfl := hpath.mpr hone
      rw [carries_single_iff hval]
      unfold Task.InputsAgree
      refine or_congr_right ⟨fun h => ⟨fun input hmem v hv => ?_, fun _ input hmem => ?_⟩, ?_⟩
      · obtain ⟨d, hd, _⟩ := (h input hmem).2 v hv
        exact ⟨d, hd⟩
      · refine ⟨(h input hmem).1, fun d hd => ?_⟩
        obtain ⟨d', hd', hid⟩ := (h input hmem).2 _ (getStr_eq_some.mp hd)
        cases hd'
        exact hid
      · rintro ⟨hnames, honly⟩ input hmem
        obtain ⟨hpayload, hdevice⟩ := honly hone input hmem
        refine ⟨hpayload, fun v hv => ?_⟩
        obtain ⟨d, rfl⟩ := hnames input hmem v hv
        exact ⟨d, rfl, hdevice d (getStr_eq_some.mpr hv)⟩
    · rw [carries_multi_iff hval fun h => hone (hpath.mp h)]
      unfold Task.InputsAgree
      exact or_congr_right ⟨fun h => ⟨h, fun hone' => absurd hone' hone⟩, fun h => h.1⟩
  have hstarts : ∀ {path : Path} {b : Option Batch}, b = some (Batch.new t path) →
      (path = .single ↔ t.inputs.length = 1) → trigger.admitted t = true →
      ((∃ b₀, b = some b₀ ∧ Covers t b₀) ↔ trigger.admitted t = true ∧ t.InputsAgree) := by
    rintro path b rfl hpath hadm
    constructor
    · rintro ⟨b₀, hb₀, hcovers⟩
      cases hb₀
      exact ⟨hadm, (hagree hpath).mp hcovers⟩
    · rintro ⟨_, ha⟩
      exact ⟨_, rfl, (hagree hpath).mpr ha⟩
  have hrefused : trigger.start t true = none → trigger.admitted t = false →
      ((∃ b₀, trigger.start t true = some b₀ ∧ Covers t b₀) ↔
        trigger.admitted t = true ∧ t.InputsAgree) := by
    intro hnone hadm
    rw [hnone, hadm]
    simp
  have hdispatch : (if t.inputs.length ≤ 1 then Path.single else .dispatchMulti) = .single ↔
      t.inputs.length = 1 := by
    split
    · simp; omega
    · simp; omega
  have hnow : (if 1 < t.inputs.length then Path.submitNowMulti else .single) = .single ↔
      t.inputs.length = 1 := by
    split
    · simp; omega
    · simp; omega
  cases trigger with
  | dispatch claim =>
    rcases claim with _ | (e | claimed)
    · exact hstarts (by simp only [Trigger.start, heff]; rfl) hdispatch rfl
    · exact hrefused rfl rfl
    · cases claimed with
      | false => exact hrefused rfl rfl
      | true => exact hstarts (by simp only [Trigger.start, heff]; rfl) hdispatch rfl
  | submitNow =>
    cases hs : t.isSchedulable with
    | false => exact hrefused (by simp [Trigger.start, hs]) hs
    | true => exact hstarts (by simp [Trigger.start, hs, heff]) hnow hs

theorem phone_accepted : ∃ raw, validateIdentifier "device_id" raw = .ok "phone" :=
  ⟨"phone", by decide⟩

/-- A task for the device `phone` with the given inputs. -/
def phoneTask (inputs : List Json) : Task where
  id := "task-1"
  name := "daily"
  app := ⟨⟨"phone", phone_accepted⟩, none, none⟩
  runnerId := "script"
  entrypoint := "main"
  payload := .obj []
  extensions := .obj []
  inputs := inputs
  concurrency := 0
  schedule := ⟨"cron", .null⟩
  state := .active
  enabled := true
  nextWakeup := none
  lastResult := none
  suspendReason := none

def tabletInput (id : String) : Json := .obj [("device_id", .str "tablet"), ("id", .str id)]

/-- Two inputs, one trigger. -/
theorem trigger_covers_iff_two_inputs :
    ∃ b₀, (Trigger.dispatch (some (.ok true))).start (phoneTask [tabletInput "a", tabletInput "b"])
      true = some b₀ ∧ Covers (phoneTask [tabletInput "a", tabletInput "b"]) b₀ := by
  refine (trigger_covers_iff _ rfl (by simp [phoneTask])).mpr ⟨rfl, Or.inr ⟨?_, fun h => ?_⟩⟩
  · intro input hmem v hv
    have hdevice : ∀ id, (tabletInput id).get "device_id" = some (.str "tablet") := fun _ => rfl
    simp only [phoneTask, List.mem_cons, List.not_mem_nil, or_false] at hmem
    rcases hmem with rfl | rfl <;> rw [hdevice] at hv <;>
      exact ⟨"tablet", (Option.some.inj hv).symm⟩
  · cases h

/-- An only input with a device of its own is run on the task's device. -/
theorem trigger_ignores_only_input :
    ¬ ∀ (trigger : Trigger) (t : Task), t.validate = .ok () → t.inputs ≠ [] →
      trigger.admitted t = true → ∃ b₀, trigger.start t true = some b₀ ∧ Covers t b₀ := by
  intro hall
  have hval : (phoneTask [tabletInput "a"]).validate = .ok () := rfl
  obtain ⟨b₀, hstart, hcovers⟩ :=
    hall (.dispatch none) (phoneTask [tabletInput "a"]) hval (by simp [phoneTask]) rfl
  cases hstart
  rcases (carries_single_iff hval).mp ((covers_path_iff (by simp [phoneTask]) .single).mp hcovers)
    with hpolicy | hagree
  · cases hpolicy
  · obtain ⟨d, hd, hid⟩ := (hagree (tabletInput "a") (by simp [phoneTask])).2 _ rfl
    cases hd
    have hvalue := congrArg (Except.map Identifier.value) hid
    revert hvalue
    decide

end Gamer.Timer
