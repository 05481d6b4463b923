import Mathlib.Data.List.Basic
import Mathlib.Tactic.SplitIfs
import Gamer.Lib.Machine
import Gamer.Lib.Table

/-! The running guests. Each has a thread of its own, and whoever holds the thread's join handle has
    to end it: the start that spawned it, the entry it is registered under, the stop that took the
    entry out. A future that is dropped while it holds one leaves the thread to itself:

        start ──spawn──▶ waiting ──ready──▶ ready ──register──▶ entry ──remove──▶ stop ──join──▶ ended
                            │                  │                                   │
                            └──── dropped ─────┴──────────── nobody ◀── dropped ───┘             -/

namespace Gamer.Extensions.Instances
open Gamer.Lib Gamer.Lib.Machine

/-- The bound of the command channel. -/
def commandCapacity : Nat := 16

/-- `RuntimeCommand`: a call, with the handle it was made with, or a stop. -/
inductive RuntimeCommand where
  | call (call handle : Nat)
  | stop (stop : Nat)
  deriving DecidableEq, Repr

/-- What an instance's thread is at. -/
inductive Phase where
  | instantiating
  | entry
  | serving
  | calling (call : Nat)
  | ended (ok : Bool)
  deriving DecidableEq, Repr

structure InstanceThread where
  phase : Phase
  /-- What it has sent on `ready_tx`. -/
  ready : Option Bool
  cancelled : Bool
  commands : List RuntimeCommand
  deriving DecidableEq, Repr

def InstanceThread.isEnded (thread : InstanceThread) : Bool :=
  match thread.phase with
  | .ended _ => true
  | _ => false

/-- The thread returns, and the receiver of its commands is gone. -/
def InstanceThread.finish (thread : InstanceThread) (ok : Bool) : InstanceThread :=
  { thread with phase := .ended ok, commands := [] }

inductive StartFuture where
  | preparing
  /-- At `ready_rx.await`. -/
  | waiting (thread : Nat)
  /-- At the lock of `instances`. -/
  | ready (thread : Nat)
  | returned (handle : Option Nat)
  | dropped
  deriving DecidableEq, Repr

inductive StopFuture where
  | locking (handle : Nat)
  | signalling (handle thread : Nat)
  | acknowledging (handle thread : Nat)
  | joining (handle thread : Nat)
  | returned (handle : Nat) (ok : Bool)
  | dropped
  deriving DecidableEq, Repr

inductive CallFuture (Reply : Type) where
  | locking (handle : Nat)
  | sending (handle thread : Nat)
  | waiting (handle thread : Nat)
  | replied (handle thread : Nat) (reply : Reply)
  /-- The thread ended without a reply. -/
  | lost (handle thread : Nat)
  /-- The future was dropped behind its command. -/
  | abandoned (handle thread : Nat)
  | failed
  deriving DecidableEq, Repr

/-- What guests execute, and the stops that returned `Ok`. -/
inductive Event (Reply : Type) where
  | began (call handle : Nat)
  | finished (call : Nat) (reply : Reply)
  | stopped (handle : Nat)
  deriving DecidableEq, Repr

/-- `LazyWasmtimeRuntime`, with its threads and the futures on it. -/
structure Runtime (Reply : Type) where
  threads : List InstanceThread := []
  instances : Table Nat Nat := ∅
  /-- The thread each handle was made for; a new handle is a new number. -/
  registered : List Nat := []
  starts : List StartFuture := []
  stops : List StopFuture := []
  calls : List (CallFuture Reply) := []
  log : List (Event Reply) := []

inductive Move (Reply : Type) where
  | start
  | fail (start : Nat)
  | spawn (start : Nat)
  | hear (start : Nat)
  | register (start : Nat)
  | reject (start : Nat)
  | dropStart (start : Nat)
  | stop (handle : Nat)
  | remove (stop : Nat)
  | signal (stop : Nat)
  | acknowledge (stop : Nat)
  | join (stop : Nat)
  | dropStop (stop : Nat)
  | call (handle : Nat)
  | lookup (call : Nat)
  | send (call : Nat)
  | lose (call : Nat)
  | dropCall (call : Nat)
  /-- The guest does what it likes, as long as it likes. -/
  | instantiate (thread : Nat) (ok : Bool)
  | enter (thread : Nat) (trap : Bool)
  | receive (thread : Nat)
  | reply (thread : Nat) (reply : Reply)
  | panic (thread : Nat)
  deriving DecidableEq

variable {Reply : Type}

/-- The thread whose join handle the future has. -/
def StartFuture.thread : StartFuture → Option Nat
  | .waiting thread | .ready thread => some thread
  | _ => none

def StopFuture.thread : StopFuture → Option Nat
  | .signalling _ thread | .acknowledging _ thread | .joining _ thread => some thread
  | _ => none

def StartFuture.inProgress : StartFuture → Bool
  | .preparing | .waiting _ | .ready _ => true
  | .returned _ | .dropped => false

def StopFuture.inProgress : StopFuture → Bool
  | .returned .. | .dropped => false
  | _ => true

def CallFuture.answer (reply : Reply) : CallFuture Reply → CallFuture Reply
  | .waiting handle thread => .replied handle thread reply
  | call => call

namespace Runtime

def setStart (s : Runtime Reply) (i : Nat) (f : StartFuture) : Runtime Reply :=
  { s with starts := s.starts.set i f }

def setStop (s : Runtime Reply) (k : Nat) (f : StopFuture) : Runtime Reply :=
  { s with stops := s.stops.set k f }

def setCall (s : Runtime Reply) (c : Nat) (f : CallFuture Reply) : Runtime Reply :=
  { s with calls := s.calls.set c f }

def setThread (s : Runtime Reply) (t : Nat) (thread : InstanceThread) : Runtime Reply :=
  { s with threads := s.threads.set t thread }

def push (s : Runtime Reply) (e : Event Reply) : Runtime Reply := { s with log := s.log ++ [e] }

/-- Somebody has a sender of the thread's commands. -/
def hasSender (s : Runtime Reply) (t : Nat) : Bool :=
  (s.starts.any fun f => f.thread == some t) || (s.instances.values.contains t) ||
    (s.stops.any fun f => f.thread == some t) ||
    s.calls.any fun
      | .sending _ thread => thread == t
      | _ => false

/-- `start`. -/
def stepStart (s : Runtime Reply) (i : Nat) : Move Reply → Option (Runtime Reply)
  | .fail _ =>
    match s.starts[i]? with
    | some .preparing => some (s.setStart i (.returned none))
    | _ => none
  | .spawn _ =>
    match s.starts[i]? with
    | some .preparing =>
      some (setStart { s with threads := s.threads ++ [⟨.instantiating, none, false, []⟩] } i
        (.waiting s.threads.length))
    | _ => none
  | .hear _ =>
    match s.starts[i]? with
    | some (.waiting t) =>
      if s.threads[t]?.any fun thread => thread.ready == some true then
        some (s.setStart i (.ready t))
      else none
    | _ => none
  | .register _ =>
    match s.starts[i]? with
    | some (.ready t) =>
      some (setStart { s with
        instances := s.instances.set s.registered.length t
        registered := s.registered ++ [t] } i (.returned (some s.registered.length)))
    | _ => none
  | .reject _ =>
    -- the error has come, or the thread is gone without a word; it is joined here
    match s.starts[i]? with
    | some (.waiting t) =>
      if s.threads[t]?.any fun thread => thread.ready != some true && thread.isEnded then
        some (s.setStart i (.returned none))
      else none
    | _ => none
  | .dropStart _ =>
    if s.starts[i]?.any StartFuture.inProgress then some (s.setStart i .dropped) else none
  | _ => none

/-- `stop`. -/
def stepStop (s : Runtime Reply) (k : Nat) : Move Reply → Option (Runtime Reply)
  | .remove _ =>
    match s.stops[k]? with
    | some (.locking h) =>
      match s.instances.get h with
      | none => some (s.setStop k (.returned h false))
      | some t =>
        some (setStop { s with
          instances := s.instances.del h
          threads := s.threads.modify t fun thread => { thread with cancelled := true } } k
            (.signalling h t))
    | _ => none
  | .signal _ =>
    match s.stops[k]? with
    | some (.signalling h t) =>
      match s.threads[t]? with
      | none => none
      | some thread =>
        if thread.isEnded then some (s.setStop k (.joining h t))
        else if thread.commands.length < commandCapacity then
          some ((s.setThread t { thread with commands := thread.commands ++ [.stop k] }).setStop k
            (.acknowledging h t))
        else none
    | _ => none
  | .acknowledge _ =>
    match s.stops[k]? with
    | some (.acknowledging h t) =>
      if s.threads[t]?.any fun thread => !thread.commands.contains (.stop k) then
        some (s.setStop k (.joining h t))
      else none
    | _ => none
  | .join _ =>
    match s.stops[k]? with
    | some (.joining h t) =>
      match (s.threads[t]?.map InstanceThread.phase : Option Phase) with
      | some (.ended true) => some ((s.setStop k (.returned h true)).push (.stopped h))
      | some (.ended false) => some (s.setStop k (.returned h false))
      | _ => none
    | _ => none
  | .dropStop _ =>
    if s.stops[k]?.any StopFuture.inProgress then some (s.setStop k .dropped) else none
  | _ => none

/-- `call`. -/
def stepCall (s : Runtime Reply) (c : Nat) : Move Reply → Option (Runtime Reply)
  | .lookup _ =>
    match s.calls[c]? with
    | some (.locking h) =>
      match s.instances.get h with
      | none => some (s.setCall c .failed)
      | some t => some (s.setCall c (.sending h t))
    | _ => none
  | .send _ =>
    match s.calls[c]? with
    | some (.sending h t) =>
      match s.threads[t]? with
      | none => none
      | some thread =>
        if thread.isEnded then some (s.setCall c .failed)
        else if thread.commands.length < commandCapacity then
          some ((s.setThread t { thread with commands := thread.commands ++ [.call c h] }).setCall c
            (.waiting h t))
        else none
    | _ => none
  | .lose _ =>
    match s.calls[c]? with
    | some (.waiting h t) =>
      if s.threads[t]?.any InstanceThread.isEnded then some (s.setCall c (.lost h t)) else none
    | _ => none
  | .dropCall _ =>
    match s.calls[c]? with
    | some (.locking _) | some (.sending _ _) => some (s.setCall c .failed)
    | some (.waiting h t) | some (.replied h t _) => some (s.setCall c (.abandoned h t))
    | _ => none
  | _ => none

/-- The thread of an instance. -/
def stepThread (s : Runtime Reply) (t : Nat) (thread : InstanceThread) :
    Move Reply → Option (Runtime Reply)
  | .instantiate _ ok =>
    match thread.phase with
    | .instantiating =>
      if ok then some (s.setThread t { thread with phase := .entry, ready := some true })
      else some (s.setThread t ({ thread with ready := some false }.finish false))
    | _ => none
  | .enter _ trap =>
    match thread.phase with
    | .entry =>
      if trap then some (s.setThread t (thread.finish thread.cancelled))
      else some (s.setThread t { thread with phase := .serving })
    | _ => none
  | .receive _ =>
    match thread.phase, thread.commands with
    | .serving, [] => if s.hasSender t then none else some (s.setThread t (thread.finish true))
    | .serving, .call c h :: rest =>
      some ((s.setThread t { thread with phase := .calling c, commands := rest }).push (.began c h))
    | .serving, .stop _ :: _ => some (s.setThread t (thread.finish true))
    | _, _ => none
  | .reply _ reply =>
    match thread.phase with
    | .calling c =>
      some (push { s.setThread t { thread with phase := .serving } with
        calls := s.calls.modify c (CallFuture.answer reply) } (.finished c reply))
    | _ => none
  | .panic _ => if thread.isEnded then none else some (s.setThread t (thread.finish false))
  | _ => none

def step (s : Runtime Reply) (m : Move Reply) : Option (Runtime Reply) :=
  match m with
  | .start => some { s with starts := s.starts ++ [.preparing] }
  | .stop h => some { s with stops := s.stops ++ [.locking h] }
  | .call h => some { s with calls := s.calls ++ [.locking h] }
  | .fail i | .spawn i | .hear i | .register i | .reject i | .dropStart i => s.stepStart i m
  | .remove k | .signal k | .acknowledge k | .join k | .dropStop k => s.stepStop k m
  | .lookup c | .send c | .lose c | .dropCall c => s.stepCall c m
  | .instantiate t _ | .enter t _ | .receive t | .reply t _ | .panic t =>
    s.threads[t]?.bind fun thread => s.stepThread t thread m

/-! ### What is promised -/

/-- The thread still runs. -/
def Live (s : Runtime Reply) (t : Nat) : Prop :=
  ∃ thread, s.threads[t]? = some thread ∧ thread.isEnded = false

def Ended (s : Runtime Reply) (t : Nat) : Prop :=
  ∃ thread, s.threads[t]? = some thread ∧ thread.isEnded = true

/-- No start and no stop is in progress. -/
def Settled (s : Runtime Reply) : Prop :=
  (∀ f ∈ s.starts, f.inProgress = false) ∧ ∀ f ∈ s.stops, f.inProgress = false

/-- Every thread that runs belongs to one entry. -/
def AllOwned (s : Runtime Reply) : Prop :=
  s.Settled → ∀ t, s.Live t → ∃ h, s.instances.get h = some t ∧
    ∀ h', s.instances.get h' = some t → h' = h

/-- How often the guest began to execute a call. -/
def began (s : Runtime Reply) (c : Nat) : Nat :=
  s.log.countP fun
    | .began call _ => call == c
    | _ => false

/-- The results of the executions of a call. -/
def results (s : Runtime Reply) (c : Nat) : List Reply :=
  s.log.filterMap fun
    | .finished call reply => if call = c then some reply else none
    | _ => none

/-- A stop that returned `Ok` has ended the thread of its handle. -/
def Stopped (s : Runtime Reply) : Prop :=
  ∀ k h : Nat, s.stops[k]? = some (.returned h true) → ∃ t, s.registered[h]? = some t ∧ s.Ended t

/-- Behind a stop that returned `Ok` no call with its handle is executed. -/
def Final (s : Runtime Reply) : Prop :=
  s.log.Pairwise fun e later => ∀ c h, e = .stopped h → later ≠ .began c h

/-- A reply is the result of the one execution of the call. -/
def Answered (s : Runtime Reply) : Prop :=
  ∀ c h t reply, s.calls[c]? = some (.replied h t reply) →
    s.began c = 1 ∧ s.results c = [reply]

/-- No future is dropped that has the join handle of a thread that still runs. -/
def Kept (s : Runtime Reply) : Move Reply → Prop
  | .dropStart i => ∀ t, s.starts[i]?.bind StartFuture.thread = some t → s.Ended t
  | .dropStop k => ∀ t, s.stops[k]?.bind StopFuture.thread = some t → s.Ended t
  | _ => True

/-! ### Join handles -/

/-- Who can hold the join handle of a thread. -/
inductive Owner where
  | start (i : Nat)
  | entry (h : Nat)
  | stop (k : Nat)
  deriving DecidableEq, Repr

def held (s : Runtime Reply) : Owner → Option Nat
  | .start i => s.starts[i]?.bind StartFuture.thread
  | .entry h => s.instances.get h
  | .stop k => s.stops[k]?.bind StopFuture.thread

/-- INVARIANT: every thread that runs has one owner. -/
structure Owners (s : Runtime Reply) : Prop where
  owned : ∀ {t}, s.Live t → ∃ o, s.held o = some t
  once : ∀ {o o' t}, s.held o = some t → s.held o' = some t → o = o'
  below : ∀ {o t}, s.held o = some t → t < s.threads.length
  fresh : ∀ {h}, s.registered.length ≤ h → s.instances.get h = none

theorem Ended.not_live {s : Runtime Reply} {t : Nat} (h : s.Ended t) : ¬ s.Live t := by
  rintro ⟨thread, hthread, hlive⟩
  obtain ⟨thread', hthread', hended⟩ := h
  obtain rfl : thread = thread' := Option.some.inj (hthread.symm.trans hthread')
  rw [hlive] at hended
  cases hended

section Owners
variable {s s' : Runtime Reply}

/-- No join handle changes hands. -/
theorem Owners.same (hi : s.Owners) (hheld : ∀ o, s'.held o = s.held o)
    (hlive : ∀ t, s'.Live t → s.Live t) (hlen : s'.threads.length = s.threads.length)
    (hfresh : s'.registered = s.registered) : s'.Owners where
  owned := fun {t} ht => by
    obtain ⟨o, ho⟩ := hi.owned (hlive t ht)
    exact ⟨o, (hheld o).trans ho⟩
  once := fun {o o' t} ho ho' => hi.once ((hheld o).symm.trans ho) ((hheld o').symm.trans ho')
  below := fun {o t} ho => hlen ▸ hi.below ((hheld o).symm.trans ho)
  fresh := fun {h} hh => (hheld (.entry h)).trans (hi.fresh (hfresh ▸ hh))

/-- A new thread has an owner from the start. -/
theorem Owners.take (hi : s.Owners) (owner : Owner) (hnone : s.held owner = none)
    (hheld : ∀ o, s'.held o = if o = owner then some s.threads.length else s.held o)
    (hlive : ∀ t, s'.Live t → s.Live t ∨ t = s.threads.length)
    (hlen : s'.threads.length = s.threads.length + 1)
    (hfresh : ∀ {h}, s'.registered.length ≤ h → s'.instances.get h = none) : s'.Owners where
  owned := fun {t} ht => by
    rcases hlive t ht with hold | rfl
    · obtain ⟨o, ho⟩ := hi.owned hold
      refine ⟨o, ?_⟩
      rw [hheld, if_neg, ho]
      rintro rfl
      rw [hnone] at ho
      cases ho
    · exact ⟨owner, by rw [hheld, if_pos rfl]⟩
  once := fun {o o' t} ho ho' => by
    rw [hheld] at ho ho'
    split_ifs at ho ho' with h h' h'
    · rw [h, h']
    · have := hi.below ho'
      cases ho
      omega
    · have := hi.below ho
      cases ho'
      omega
    · exact hi.once ho ho'
  below := fun {o t} ho => by
    rw [hheld] at ho
    rw [hlen]
    split_ifs at ho
    · cases ho
      omega
    · have := hi.below ho
      omega
  fresh := hfresh

/-- A join handle goes from one owner to another. -/
theorem Owners.pass (hi : s.Owners) (giver taker : Owner) {t₀ : Nat} (hfrom : s.held giver = some t₀)
    (hto : s.held taker = none)
    (hheld : ∀ o, s'.held o = if o = taker then some t₀ else if o = giver then none else s.held o)
    (hlive : ∀ t, s'.Live t → s.Live t) (hlen : s'.threads.length = s.threads.length)
    (hfresh : ∀ {h}, s'.registered.length ≤ h → s'.instances.get h = none) : s'.Owners where
  owned := fun {t} ht => by
    obtain ⟨o, ho⟩ := hi.owned (hlive t ht)
    by_cases ht₀ : t = t₀
    · exact ⟨taker, by rw [hheld, if_pos rfl, ht₀]⟩
    · refine ⟨o, ?_⟩
      have hne : o ≠ taker := by
        rintro rfl
        rw [hto] at ho
        cases ho
      have hne' : o ≠ giver := by
        rintro rfl
        exact ht₀ (Option.some.inj (ho.symm.trans hfrom))
      rw [hheld, if_neg hne, if_neg hne', ho]
  once := fun {o o' t} ho ho' => by
    rw [hheld] at ho ho'
    split_ifs at ho ho' with h h'
    · rw [h, h']
    · cases ho
      exact absurd (hi.once ho' hfrom) ‹_›
    · cases ho'
      exact absurd (hi.once ho hfrom) ‹_›
    · exact hi.once ho ho'
  below := fun {o t} ho => by
    rw [hheld] at ho
    rw [hlen]
    split_ifs at ho
    · cases ho
      exact hi.below hfrom
    · exact hi.below ho
  fresh := hfresh

/-- An owner that lets go of an ended thread, or holds none. -/
theorem Owners.release (hi : s.Owners) (owner : Owner)
    (hended : ∀ t, s.held owner = some t → s.Ended t)
    (hheld : ∀ o, s'.held o = if o = owner then none else s.held o)
    (hlive : ∀ t, s'.Live t → s.Live t) (hlen : s'.threads.length = s.threads.length)
    (hfresh : ∀ {h}, s'.registered.length ≤ h → s'.instances.get h = none) : s'.Owners where
  owned := fun {t} ht => by
    obtain ⟨o, ho⟩ := hi.owned (hlive t ht)
    refine ⟨o, ?_⟩
    rw [hheld, if_neg, ho]
    rintro rfl
    exact (hended t ho).not_live (hlive t ht)
  once := fun {o o' t} ho ho' => by
    rw [hheld] at ho ho'
    split_ifs at ho ho'
    exact hi.once ho ho'
  below := fun {o t} ho => by
    rw [hheld] at ho
    rw [hlen]
    split_ifs at ho
    exact hi.below ho
  fresh := hfresh

/-! ### What a change of one future holds -/

theorem held_setStart {i : Nat} {f f' : StartFuture} (hf : s.starts[i]? = some f) (o : Owner) :
    (s.setStart i f').held o = if o = .start i then f'.thread else s.held o := by
  cases o with
  | start j =>
    by_cases hj : j = i
    · subst hj
      have hlt := (List.getElem?_eq_some_iff.mp hf).1
      simp [held, setStart, List.getElem?_set_self hlt]
    · have hne : Owner.start j ≠ .start i := fun heq => hj (Owner.start.inj heq)
      rw [if_neg hne, held, held, setStart]
      dsimp only
      rw [List.getElem?_set_ne (Ne.symm hj)]
  | entry h => rfl
  | stop k => rfl

theorem held_setStop {k : Nat} {f f' : StopFuture} (hf : s.stops[k]? = some f) (o : Owner) :
    (s.setStop k f').held o = if o = .stop k then f'.thread else s.held o := by
  cases o with
  | start i => rfl
  | entry h => rfl
  | stop j =>
    by_cases hj : j = k
    · subst hj
      have hlt := (List.getElem?_eq_some_iff.mp hf).1
      simp [held, setStop, List.getElem?_set_self hlt]
    · have hne : Owner.stop j ≠ .stop k := fun heq => hj (Owner.stop.inj heq)
      rw [if_neg hne, held, held, setStop]
      dsimp only
      rw [List.getElem?_set_ne (Ne.symm hj)]

theorem held_start {i : Nat} {f : StartFuture} (hf : s.starts[i]? = some f) :
    s.held (.start i) = f.thread := by
  rw [held, hf]
  rfl

theorem held_stop {k : Nat} {f : StopFuture} (hf : s.stops[k]? = some f) :
    s.held (.stop k) = f.thread := by
  rw [held, hf]
  rfl

/-- A thread that has ended stays so. -/
theorem live_of_setThread {t t' : Nat} {thread thread' : InstanceThread}
    (hthread : s.threads[t]? = some thread) (h : thread.isEnded = true → thread'.isEnded = true)
    (hlive : (s.setThread t thread').Live t') : s.Live t' := by
  obtain ⟨th, hth, hrun⟩ := hlive
  by_cases ht : t' = t
  · subst ht
    rw [setThread, List.getElem?_set_self (List.getElem?_eq_some_iff.mp hthread).1] at hth
    obtain rfl := Option.some.inj hth
    refine ⟨thread, hthread, ?_⟩
    cases hended : thread.isEnded with
    | false => rfl
    | true => rw [h hended] at hrun; cases hrun
  · rw [setThread, List.getElem?_set_ne (Ne.symm ht)] at hth
    exact ⟨th, hth, hrun⟩

theorem Owners.setThread (hi : s.Owners) {t : Nat} {thread : InstanceThread}
    (thread' : InstanceThread) (hthread : s.threads[t]? = some thread) (h : thread.isEnded = true → thread'.isEnded = true) :
    (s.setThread t thread').Owners :=
  hi.same (fun _ => rfl) (fun _ => live_of_setThread hthread h) (List.length_set ..) rfl

theorem Owners.sendCommand (hi : s.Owners) {t : Nat} {thread : InstanceThread}
    (hthread : s.threads[t]? = some thread) (command : RuntimeCommand) :
    (s.setThread t { thread with commands := thread.commands ++ [command] }).Owners :=
  hi.setThread { thread with commands := thread.commands ++ [command] } hthread fun hend => hend

/-- What calls and the log say does not matter. -/
theorem Owners.congr (hi : s.Owners) (hthreads : s'.threads = s.threads)
    (hinstances : s'.instances = s.instances) (hregistered : s'.registered = s.registered)
    (hstarts : s'.starts = s.starts) (hstops : s'.stops = s.stops) : s'.Owners := by
  refine hi.same (fun o => ?_) (fun t ht => ?_) (by rw [hthreads]) hregistered
  · cases o with
    | start i => rw [held, held, hstarts]
    | entry h => rw [held, held, hinstances]
    | stop k => rw [held, held, hstops]
  · rwa [Live, hthreads] at ht

theorem Owners.setCall (hi : s.Owners) (c : Nat) (f : CallFuture Reply) : (s.setCall c f).Owners :=
  hi.congr rfl rfl rfl rfl rfl

theorem Owners.push (hi : s.Owners) (e : Event Reply) : (s.push e).Owners :=
  hi.congr rfl rfl rfl rfl rfl

/-- A start that goes on with what it holds. -/
theorem Owners.setStart (hi : s.Owners) {i : Nat} {f f' : StartFuture}
    (hf : s.starts[i]? = some f) (hsame : f'.thread = f.thread) : (s.setStart i f').Owners := by
  refine hi.same (fun o => ?_) (fun _ h => h) rfl rfl
  rw [held_setStart hf]
  split_ifs with ho
  · rw [ho, held_start hf, hsame]
  · rfl

theorem Owners.setStop (hi : s.Owners) {k : Nat} {f f' : StopFuture}
    (hf : s.stops[k]? = some f) (hsame : f'.thread = f.thread) : (s.setStop k f').Owners := by
  refine hi.same (fun o => ?_) (fun _ h => h) rfl rfl
  rw [held_setStop hf]
  split_ifs with ho
  · rw [ho, held_stop hf, hsame]
  · rfl

/-- A start that lets go of what it holds. -/
theorem Owners.letGoStart (hi : s.Owners) {i : Nat} {f f' : StartFuture}
    (hf : s.starts[i]? = some f) (hnone : f'.thread = none)
    (hended : ∀ t, f.thread = some t → s.Ended t) : (s.setStart i f').Owners := by
  refine hi.release (.start i) (fun t ht => hended t ?_) (fun o => ?_) (fun _ h => h) rfl
    hi.fresh
  · rwa [held_start hf] at ht
  · rw [held_setStart hf, hnone]

theorem Owners.letGoStop (hi : s.Owners) {k : Nat} {f f' : StopFuture}
    (hf : s.stops[k]? = some f) (hnone : f'.thread = none)
    (hended : ∀ t, f.thread = some t → s.Ended t) : (s.setStop k f').Owners := by
  refine hi.release (.stop k) (fun t ht => hended t ?_) (fun o => ?_) (fun _ h => h) rfl
    hi.fresh
  · rwa [held_stop hf] at ht
  · rw [held_setStop hf, hnone]

/-! ### Steps -/

/-- STEP: a start. -/
theorem Owners.stepStart (hi : s.Owners) {i : Nat} {m : Move Reply} (hkept : s.Kept m)
    (h : s.stepStart i m = some s') (hm : ∀ j, m = .dropStart j → j = i) : s'.Owners := by
  cases m with
  | fail _ =>
    rw [Runtime.stepStart] at h
    split at h
    · rename_i hf
      cases h
      exact hi.setStart hf rfl
    · cases h
  | spawn _ =>
    rw [Runtime.stepStart] at h
    split at h
    · rename_i hf
      cases h
      have hf' : ({ s with threads := s.threads ++ [⟨.instantiating, none, false, []⟩] } :
        Runtime Reply).starts[i]? = some .preparing := hf
      refine hi.take (.start i) (by rw [held_start hf]; rfl) (fun o => ?_) (fun t ht => ?_)
        (by simp [Runtime.setStart]) hi.fresh
      · rw [held_setStart hf']
        rfl
      · obtain ⟨th, hth, hrun⟩ := ht
        rcases Nat.lt_or_ge t s.threads.length with hlt | hge
        · refine .inl ⟨th, ?_, hrun⟩
          rwa [Runtime.setStart, List.getElem?_append_left hlt] at hth
        · have hlen := (List.getElem?_eq_some_iff.mp hth).1
          simp only [Runtime.setStart, List.length_append, List.length_singleton] at hlen
          exact .inr (by omega)
    · cases h
  | hear _ =>
    rw [Runtime.stepStart] at h
    split at h
    · rename_i t hf
      split_ifs at h
      cases h
      exact hi.setStart hf rfl
    · cases h
  | register _ =>
    rw [Runtime.stepStart] at h
    split at h
    · rename_i t hf
      cases h
      have hnone := hi.fresh (Nat.le_refl s.registered.length)
      refine hi.pass (.start i) (.entry s.registered.length)
        (by rw [held_start hf]; rfl) hnone (fun o => ?_) (fun _ hl => hl) rfl (fun {h} hh => ?_)
      · rw [held_setStart (s := { s with
          instances := s.instances.set s.registered.length t
          registered := s.registered ++ [t] }) hf]
        cases o with
        | start j => simp [held, StartFuture.thread]
        | entry h => simp [held, Table.get_set]
        | stop k => simp [held]
      · simp only [Runtime.setStart, List.length_append, List.length_singleton] at hh
        simp only [Runtime.setStart]
        rw [Table.get_set_ne (by omega)]
        exact hi.fresh (by omega)
    · cases h
  | reject _ =>
    rw [Runtime.stepStart] at h
    split at h
    · rename_i t hf
      split_ifs at h with hended
      cases h
      refine hi.letGoStart hf rfl fun t' ht' => ?_
      obtain rfl : t = t' := Option.some.inj ht'
      cases hthread : s.threads[t]? with
      | none => rw [hthread] at hended; cases hended
      | some thread =>
        rw [hthread, Option.any_some, Bool.and_eq_true] at hended
        exact ⟨thread, hthread, hended.2⟩
    · cases h
  | dropStart j =>
    obtain rfl := hm j rfl
    rw [Runtime.stepStart] at h
    split_ifs at h with hprogress
    cases h
    cases hf : s.starts[j]? with
    | none => rw [hf] at hprogress; cases hprogress
    | some f => exact hi.letGoStart hf rfl fun t ht => hkept t (by rw [hf]; exact ht)
  | _ => cases h

/-- STEP: a stop. -/
theorem Owners.stepStop (hi : s.Owners) {k : Nat} {m : Move Reply} (hkept : s.Kept m)
    (h : s.stepStop k m = some s') (hm : ∀ j, m = .dropStop j → j = k) : s'.Owners := by
  cases m with
  | remove _ =>
    rw [Runtime.stepStop] at h
    split at h
    · rename_i h₀ hf
      split at h
      · cases h
        exact hi.setStop hf rfl
      · rename_i t hget
        cases h
        have hlive : ∀ t', (Runtime.setStop { s with
            instances := s.instances.del h₀
            threads := s.threads.modify t fun thread => { thread with cancelled := true } } k
            (.signalling h₀ t)).Live t' → s.Live t' := by
          rintro t' ⟨th, hth, hrun⟩
          simp only [Runtime.setStop, List.getElem?_modify] at hth
          obtain ⟨thread, hthread, rfl⟩ := Option.map_eq_some_iff.mp hth
          refine ⟨thread, hthread, ?_⟩
          split_ifs at hrun
          · exact hrun
          · exact hrun
        refine hi.pass (.entry h₀) (.stop k) hget (by rw [held_stop hf]; rfl)
          (fun o => ?_) hlive (by simp [Runtime.setStop]) (fun {h} hh => ?_)
        · rw [held_setStop (s := { s with
            instances := s.instances.del h₀
            threads := s.threads.modify t fun thread => { thread with cancelled := true } }) hf]
          cases o with
          | start i => simp [held]
          | entry h => simp [held, Table.get_del]
          | stop j => simp [held, StopFuture.thread]
        · simp only [Runtime.setStop]
          rw [Table.get_del]
          split_ifs
          · rfl
          · exact hi.fresh hh
    · cases h
  | signal _ =>
    rw [Runtime.stepStop] at h
    split at h
    · rename_i h₀ t hf
      split at h
      · cases h
      · rename_i thread hthread
        split_ifs at h with hended hroom
        · cases h
          exact hi.setStop hf rfl
        · cases h
          exact (hi.sendCommand hthread _).setStop hf rfl
    · cases h
  | acknowledge _ =>
    rw [Runtime.stepStop] at h
    split at h
    · rename_i h₀ t hf
      split_ifs at h
      cases h
      exact hi.setStop hf rfl
    · cases h
  | join _ =>
    rw [Runtime.stepStop] at h
    split at h
    · rename_i h₀ t hf
      have hphase : ∀ ok, s.threads[t]?.map InstanceThread.phase = some (.ended ok) →
          ∀ t', (StopFuture.joining h₀ t).thread = some t' → s.Ended t' := by
        rintro ok hmap t' ht'
        obtain rfl : t = t' := Option.some.inj ht'
        obtain ⟨thread, hthread, hended⟩ := Option.map_eq_some_iff.mp hmap
        exact ⟨thread, hthread, by rw [InstanceThread.isEnded, hended]⟩
      split at h
      · rename_i hended
        cases h
        exact (hi.letGoStop hf rfl (hphase _ hended)).push _
      · rename_i hended
        cases h
        exact hi.letGoStop hf rfl (hphase _ hended)
      · cases h
    · cases h
  | dropStop j =>
    obtain rfl := hm j rfl
    rw [Runtime.stepStop] at h
    split_ifs at h with hprogress
    cases h
    cases hf : s.stops[j]? with
    | none => rw [hf] at hprogress; cases hprogress
    | some f => exact hi.letGoStop hf rfl fun t ht => hkept t (by rw [hf]; exact ht)
  | _ => cases h

/-- STEP: a call. -/
theorem Owners.stepCall (hi : s.Owners) {c : Nat} {m : Move Reply}
    (h : s.stepCall c m = some s') : s'.Owners := by
  cases m with
  | lookup _ =>
    rw [Runtime.stepCall] at h
    split at h
    · split at h
      · cases h
        exact hi.setCall c _
      · cases h
        exact hi.setCall c _
    · cases h
  | send _ =>
    rw [Runtime.stepCall] at h
    split at h
    · split at h
      · cases h
      · rename_i thread hthread
        split_ifs at h
        · cases h
          exact hi.setCall c _
        · cases h
          exact (hi.sendCommand hthread _).setCall c _
    · cases h
  | lose _ =>
    rw [Runtime.stepCall] at h
    split at h
    · split_ifs at h
      cases h
      exact hi.setCall c _
    · cases h
  | dropCall _ =>
    rw [Runtime.stepCall] at h
    split at h
    · cases h
      exact hi.setCall c _
    · cases h
      exact hi.setCall c _
    · cases h
      exact hi.setCall c _
    · cases h
      exact hi.setCall c _
    · cases h
  | _ => cases h

/-- STEP: a thread. -/
theorem Owners.stepThread (hi : s.Owners) {t : Nat} {thread : InstanceThread} {m : Move Reply}
    (hthread : s.threads[t]? = some thread) (h : s.stepThread t thread m = some s') : s'.Owners := by
  have hfinish : ∀ ok, (s.setThread t (thread.finish ok)).Owners := fun ok =>
    hi.setThread _ hthread fun _ => rfl
  have hrun : ∀ thread' : InstanceThread, thread.isEnded = false →
      (s.setThread t thread').Owners := fun thread' hlive =>
    hi.setThread thread' hthread fun hend => by rw [hlive] at hend; cases hend
  cases m with
  | instantiate _ ok =>
    rw [Runtime.stepThread] at h
    split at h
    · rename_i hphase
      have hlive : thread.isEnded = false := by rw [InstanceThread.isEnded, hphase]
      split_ifs at h
      · cases h
        exact hrun _ hlive
      · cases h
        exact hrun _ hlive
    · cases h
  | enter _ trap =>
    rw [Runtime.stepThread] at h
    split at h
    · rename_i hphase
      split_ifs at h
      · cases h
        exact hfinish _
      · cases h
        exact hrun _ (by rw [InstanceThread.isEnded, hphase])
    · cases h
  | receive _ =>
    rw [Runtime.stepThread] at h
    split at h
    · split_ifs at h
      cases h
      exact hfinish _
    · rename_i hphase _
      cases h
      exact (hrun _ (by rw [InstanceThread.isEnded, hphase])).push _
    · cases h
      exact hfinish _
    · cases h
  | reply _ reply =>
    rw [Runtime.stepThread] at h
    split at h
    · rename_i c hphase
      cases h
      have hlive : thread.isEnded = false := by rw [InstanceThread.isEnded, hphase]
      exact (hrun { thread with phase := .serving } hlive).congr rfl rfl rfl rfl rfl
    · cases h
  | panic _ =>
    rw [Runtime.stepThread] at h
    split_ifs at h
    cases h
    exact hfinish _
  | _ => cases h

/-- STEP: as long as no join handle of a running thread is dropped, every running thread keeps its
    one owner. -/
theorem Owners.step (hi : s.Owners) {m : Move Reply} (hkept : s.Kept m)
    (h : s.step m = some s') : s'.Owners := by
  have hthread : ∀ t, (s.threads[t]?.bind fun thread => s.stepThread t thread m) = some s' →
      s'.Owners := by
    intro t ht
    obtain ⟨thread, hthread, hstep⟩ := Option.bind_eq_some_iff.mp ht
    exact hi.stepThread hthread hstep
  cases m with
  | start =>
    cases h
    refine hi.same (fun o => ?_) (fun _ hl => hl) rfl rfl
    cases o with
    | start i =>
      rw [held, held]
      rcases Nat.lt_trichotomy i s.starts.length with hlt | rfl | hgt
      · dsimp only
        rw [List.getElem?_append_left hlt]
      · dsimp only
        rw [List.getElem?_concat_length, List.getElem?_eq_none (Nat.le_refl _)]
        rfl
      · dsimp only
        rw [List.getElem?_eq_none (by simp; omega), List.getElem?_eq_none (by omega)]
    | entry h => rfl
    | stop k => rfl
  | stop h₀ =>
    cases h
    refine hi.same (fun o => ?_) (fun _ hl => hl) rfl rfl
    cases o with
    | start i => rfl
    | entry h => rfl
    | stop k =>
      rw [held, held]
      rcases Nat.lt_trichotomy k s.stops.length with hlt | rfl | hgt
      · dsimp only
        rw [List.getElem?_append_left hlt]
      · dsimp only
        rw [List.getElem?_concat_length, List.getElem?_eq_none (Nat.le_refl _)]
        rfl
      · dsimp only
        rw [List.getElem?_eq_none (by simp; omega), List.getElem?_eq_none (by omega)]
  | call h₀ =>
    cases h
    exact hi.congr rfl rfl rfl rfl rfl
  | fail i => exact hi.stepStart hkept h fun j hj => by cases hj
  | spawn i => exact hi.stepStart hkept h fun j hj => by cases hj
  | hear i => exact hi.stepStart hkept h fun j hj => by cases hj
  | register i => exact hi.stepStart hkept h fun j hj => by cases hj
  | reject i => exact hi.stepStart hkept h fun j hj => by cases hj
  | dropStart i => exact hi.stepStart hkept h fun j hj => by cases hj; rfl
  | remove k => exact hi.stepStop hkept h fun j hj => by cases hj
  | signal k => exact hi.stepStop hkept h fun j hj => by cases hj
  | acknowledge k => exact hi.stepStop hkept h fun j hj => by cases hj
  | join k => exact hi.stepStop hkept h fun j hj => by cases hj
  | dropStop k => exact hi.stepStop hkept h fun j hj => by cases hj; rfl
  | lookup c => exact hi.stepCall (c := c) (m := .lookup c) h
  | send c => exact hi.stepCall (c := c) (m := .send c) h
  | lose c => exact hi.stepCall (c := c) (m := .lose c) h
  | dropCall c => exact hi.stepCall (c := c) (m := .dropCall c) h
  | instantiate t ok => exact hthread t h
  | enter t trap => exact hthread t h
  | receive t => exact hthread t h
  | reply t reply => exact hthread t h
  | panic t => exact hthread t h

theorem Owners.start : Owners ({} : Runtime Reply) where
  owned := fun {t} ht => by
    obtain ⟨thread, hthread, -⟩ := ht
    cases hthread
  once := fun {o o' t} ho => by cases o <;> cases ho
  below := fun {o t} ho => by cases o <;> cases ho
  fresh := fun {h} _ => rfl

/-- SAFETY: with no start and no stop in progress, only entries are owners. -/
theorem Owners.allOwned (hi : s.Owners) : s.AllOwned := by
  rintro ⟨hstarts, hstops⟩ t ht
  obtain ⟨o, ho⟩ := hi.owned ht
  cases o with
  | start i =>
    obtain ⟨f, hf, hthread⟩ := Option.bind_eq_some_iff.mp ho
    have hidle := hstarts f (List.mem_of_getElem? hf)
    cases f <;> cases hthread <;> cases hidle
  | stop k =>
    obtain ⟨f, hf, hthread⟩ := Option.bind_eq_some_iff.mp ho
    have hidle := hstops f (List.mem_of_getElem? hf)
    cases f <;> cases hthread <;> cases hidle
  | entry h =>
    exact ⟨h, ho, fun h' hh' => Owner.entry.inj (hi.once (show s.held (.entry h') = some t from hh') ho)⟩

end Owners

end Runtime

end Gamer.Extensions.Instances
