import Mathlib.Data.List.Basic
import Mathlib.Data.List.Pairwise
import Gamer.Lib.Token

/-! The thread that owns the database. Log records wait until a batch of them is written in one
    transaction; everything else is a task that is run at once, behind the logs received before it:

        log …… log ─┬─ batch full ─┬──▶ one transaction ──▶ an answer to each log that waits for it
                    ├─ answer due ─┤
                    ├─ call ───────┤──▶ task, or the error of the transaction in its place
                    ├─ time-out ───┤
                    └─ end ────────┘

    A batch that is not written is given up, and the call that made it due is not run.     -/

namespace Gamer.Storage.LogBatch
open Gamer.Lib

def logBatchSize : Nat := 100

/-- `DbCommand`: a task works on the connection. -/
inductive DbCommand (Conn Record Value Error : Type) where
  | log (record : Record) (completion : Bool)
  | call (task : Conn → Except Error Value × Conn)
  | shutdown

/-- What waiting for a command comes to. -/
inductive Received (Conn Record Value Error : Type) where
  | command (command : DbCommand Conn Record Value Error)
  | timeout
  | disconnected

/-- `PendingLog`, with the place at which it was received. -/
structure PendingLog (Record : Type) where
  log : Nat
  record : Record
  completion : Bool

/-- What the worker does: it ends a transaction, runs a task, and answers either. A transaction is
    named by the place of the command at which it was due. -/
inductive Effect (Record Value Error : Type) where
  | flushed (cause : Nat) (batch : List (PendingLog Record)) (result : Except Error Unit)
  | completed (log : Nat) (result : Except Error Unit)
  | ran (call : Nat) (result : Except Error Value)
  | replied (call : Nat) (result : Except Error Value)

structure Worker (Conn Record Value Error : Type) where
  conn : Conn
  pendingLogs : List (PendingLog Record)
  received : Nat
  stopped : Bool
  trace : List (Effect Record Value Error)

variable {Conn Record Value Error : Type}

/-- What the logs of a batch that wait for an answer are sent. -/
def completions (batch : List (PendingLog Record)) (result : Except Error Unit) :
    List (Effect Record Value Error) :=
  (batch.filter fun log => log.completion).map fun log => .completed log.log result

section Model
-- the transaction of a batch: all its records are written, or none and there is an error
variable (write : List Record → Conn → Except Error Unit × Conn)

/-- `flush_logs`. -/
def flushLogs (w : Worker Conn Record Value Error) :
    Except Error Unit × Worker Conn Record Value Error :=
  if w.pendingLogs.isEmpty then (.ok (), w)
  else
    let written := write (w.pendingLogs.map (·.record)) w.conn
    (written.1, { w with
      conn := written.2
      pendingLogs := []
      trace := w.trace ++ .flushed w.received w.pendingLogs written.1 ::
        completions w.pendingLogs written.1 })

/-- `DbCommand::Log`. -/
def receiveLog (w : Worker Conn Record Value Error) (record : Record) (completion : Bool) :
    Worker Conn Record Value Error :=
  let w := { w with pendingLogs := w.pendingLogs ++ [⟨w.received, record, completion⟩] }
  if w.pendingLogs.length ≥ logBatchSize || completion then (flushLogs write w).2 else w

/-- `DbCommand::Call`. -/
def receiveCall (w : Worker Conn Record Value Error) (task : Conn → Except Error Value × Conn) :
    Worker Conn Record Value Error :=
  match flushLogs write w with
  | (.error err, w) => { w with trace := w.trace ++ [.replied w.received (.error err)] }
  | (.ok (), w) =>
    let done := task w.conn
    { w with
      conn := done.2
      trace := w.trace ++ [.ran w.received done.1, .replied w.received done.1] }

/-- One turn of the loop. -/
def receive (w : Worker Conn Record Value Error) :
    Received Conn Record Value Error → Worker Conn Record Value Error
  | .command (.log record completion) =>
    let w := receiveLog write w record completion
    { w with received := w.received + 1 }
  | .command (.call task) =>
    let w := receiveCall write w task
    { w with received := w.received + 1 }
  | .command .shutdown =>
    let w := (flushLogs write w).2
    { w with received := w.received + 1, stopped := true }
  | .timeout =>
    let w := (flushLogs write w).2
    { w with received := w.received + 1 }
  | .disconnected =>
    let w := (flushLogs write w).2
    { w with received := w.received + 1, stopped := true }

/-- The loop of `run_worker`, until a command ends it. -/
def loop (w : Worker Conn Record Value Error) :
    List (Received Conn Record Value Error) → Worker Conn Record Value Error
  | [] => w
  | received :: rest =>
    let w := receive write w received
    if w.stopped then w else loop w rest

def runWorker (conn : Conn) (received : List (Received Conn Record Value Error)) :
    Worker Conn Record Value Error :=
  loop write ⟨conn, [], 0, false, []⟩ received

end Model

/-! ### What happened to one command -/

/-- What was done for a call. -/
def Effect.ofCall (call : Nat) : Effect Record Value Error → Bool
  | .ran other _ => other = call
  | .replied other _ => other = call
  | _ => false

def callEffects (call : Nat) (trace : List (Effect Record Value Error)) :
    List (Effect Record Value Error) :=
  trace.filter (Effect.ofCall call)

/-- The batch that was due at a command was not written. -/
def Effect.refusal (cause : Nat) : Effect Record Value Error → Option Error
  | .flushed other _ (.error err) => if other = cause then some err else none
  | _ => none

def refusals (cause : Nat) (trace : List (Effect Record Value Error)) : List Error :=
  trace.filterMap (Effect.refusal cause)

/-- The transactions a log was part of. -/
def Effect.flushes (log : Nat) : Effect Record Value Error → Bool
  | .flushed _ batch _ => batch.any fun other => other.log = log
  | _ => false

def flushesOf (log : Nat) (trace : List (Effect Record Value Error)) :
    List (Effect Record Value Error) :=
  trace.filter (Effect.flushes log)

def Effect.answer (log : Nat) : Effect Record Value Error → Option (Except Error Unit)
  | .completed other result => if other = log then some result else none
  | _ => none

/-- What a log was answered. -/
def answersOf (log : Nat) (trace : List (Effect Record Value Error)) :
    List (Except Error Unit) :=
  trace.filterMap (Effect.answer log)

/-- What is in order: calls run as they were received, no log received before a call is written
    behind it, and none is answered before its transaction ended. -/
def Effect.Before : Effect Record Value Error → Effect Record Value Error → Prop
  | .ran call _, .ran later _ => call < later
  | .ran call _, .flushed _ batch _ => ∀ log ∈ batch, call < log.log
  | .completed done _, .flushed _ batch _ => ∀ log ∈ batch, done < log.log
  | .flushed _ batch _, .flushed _ later _ => ∀ log ∈ batch, ∀ next ∈ later, log.log < next.log
  | _, _ => True

/-- A call was run once and was sent what it returned. -/
def Executed (task : Conn → Except Error Value × Conn) (call : Nat)
    (trace : List (Effect Record Value Error)) : Prop :=
  ∃ conn, callEffects call trace = [.ran call (task conn).1, .replied call (task conn).1]

/-- A call was not run and was sent the error of the batch before it. -/
def Refused (call : Nat) (trace : List (Effect Record Value Error)) : Prop :=
  ∃ err, refusals call trace = [err] ∧ callEffects call trace = [.replied call (.error err)]

/-- A log was part of one transaction, and was answered what came of it if it waits for that. -/
def Settled (log : PendingLog Record) (trace : List (Effect Record Value Error)) : Prop :=
  ∃ cause batch result, log ∈ batch ∧ flushesOf log.log trace = [.flushed cause batch result] ∧
    answersOf log.log trace = if log.completion then [result] else []

/-! ### What a transaction adds -/

section Selectors
variable (i : Nat) (trace more : List (Effect Record Value Error))

@[simp] theorem callEffects_append :
    callEffects i (trace ++ more) = callEffects i trace ++ callEffects i more :=
  List.filter_append ..

@[simp] theorem refusals_append :
    refusals i (trace ++ more) = refusals i trace ++ refusals i more :=
  List.filterMap_append

@[simp] theorem flushesOf_append :
    flushesOf i (trace ++ more) = flushesOf i trace ++ flushesOf i more :=
  List.filter_append ..

@[simp] theorem answersOf_append :
    answersOf i (trace ++ more) = answersOf i trace ++ answersOf i more :=
  List.filterMap_append

end Selectors

def errorOf : Except Error Unit → List Error
  | .error err => [err]
  | .ok () => []

/-- The part of the trace one transaction makes. -/
def flushBlock (cause : Nat) (batch : List (PendingLog Record)) (result : Except Error Unit) :
    List (Effect Record Value Error) :=
  .flushed cause batch result :: completions batch result

section Block
variable {batch : List (PendingLog Record)} {result : Except Error Unit} {cause i : Nat}

theorem mem_completions {e : Effect Record Value Error} :
    e ∈ completions batch result ↔
      ∃ log ∈ batch, log.completion = true ∧ e = .completed log.log result := by
  simp only [completions, List.mem_map, List.mem_filter]
  constructor
  · rintro ⟨log, ⟨hlog, hcompletion⟩, rfl⟩
    exact ⟨log, hlog, hcompletion, rfl⟩
  · rintro ⟨log, hlog, hcompletion, rfl⟩
    exact ⟨log, ⟨hlog, hcompletion⟩, rfl⟩

@[simp] theorem callEffects_flushBlock :
    callEffects i (flushBlock cause batch result : List (Effect Record Value Error)) = [] := by
  refine List.filter_eq_nil_iff.mpr fun e he => ?_
  rcases List.mem_cons.mp he with rfl | he
  · simp [Effect.ofCall]
  · obtain ⟨log, -, -, rfl⟩ := mem_completions.mp he
    simp [Effect.ofCall]

theorem refusals_flushBlock :
    refusals i (flushBlock cause batch result : List (Effect Record Value Error)) =
      if cause = i then errorOf result else [] := by
  have hnone : (completions batch result : List (Effect Record Value Error)).filterMap
      (Effect.refusal i) = [] := by
    refine List.filterMap_eq_nil_iff.mpr fun e he => ?_
    obtain ⟨log, -, -, rfl⟩ := mem_completions.mp he
    rfl
  rw [refusals, flushBlock, List.filterMap_cons, hnone]
  rcases result with err | ⟨⟩
  · by_cases h : cause = i
    · simp [Effect.refusal, errorOf, h]
    · simp [Effect.refusal, h]
  · simp [Effect.refusal, errorOf]

theorem flushesOf_flushBlock :
    flushesOf i (flushBlock cause batch result : List (Effect Record Value Error)) =
      if batch.any fun log => log.log = i then [.flushed cause batch result] else [] := by
  have hnone : (completions batch result : List (Effect Record Value Error)).filter
      (Effect.flushes i) = [] := by
    refine List.filter_eq_nil_iff.mpr fun e he => ?_
    obtain ⟨log, -, -, rfl⟩ := mem_completions.mp he
    simp [Effect.flushes]
  rw [flushesOf, flushBlock, List.filter_cons, hnone]
  rfl

/-- The logs of a batch have different places, so each is answered once. -/
theorem answersOf_flushBlock {log : PendingLog Record}
    (hsorted : batch.Pairwise fun log later => log.log < later.log) (hlog : log ∈ batch) :
    answersOf log.log (flushBlock cause batch result : List (Effect Record Value Error)) =
      if log.completion then [result] else [] := by
  have hcons : answersOf log.log (flushBlock cause batch result : List (Effect Record Value Error)) =
      answersOf log.log (completions batch result : List (Effect Record Value Error)) :=
    List.filterMap_cons_none rfl
  rw [hcons]
  clear hcons
  induction batch with
  | nil => simp at hlog
  | cons first batch ih =>
    obtain ⟨hfirst, hrest⟩ := List.pairwise_cons.mp hsorted
    have hsplit : answersOf log.log
        (completions (first :: batch) result : List (Effect Record Value Error)) =
        (if first.completion then if first.log = log.log then [result] else [] else []) ++
          answersOf log.log (completions batch result : List (Effect Record Value Error)) := by
      by_cases hc : first.completion = true
      · by_cases hl : first.log = log.log
        · simp [completions, answersOf, Effect.answer, hc, hl]
        · simp [completions, answersOf, Effect.answer, hc, hl]
      · simp [completions, hc]
    rw [hsplit]
    rcases List.mem_cons.mp hlog with rfl | hlog
    · have hnone : answersOf log.log
          (completions batch result : List (Effect Record Value Error)) = [] := by
        refine List.filterMap_eq_nil_iff.mpr fun e he => ?_
        obtain ⟨other, hother, -, rfl⟩ := mem_completions.mp he
        have := hfirst other hother
        simp only [Effect.answer]
        rw [if_neg (by omega)]
      rw [hnone, List.append_nil, if_pos rfl]
    · have := hfirst log hlog
      rw [ih hrest hlog, if_neg (show ¬ first.log = log.log by omega)]
      simp

theorem answersOf_flushBlock_of_not_mem (h : ∀ log ∈ batch, log.log ≠ i) :
    answersOf i (flushBlock cause batch result : List (Effect Record Value Error)) = [] := by
  refine List.filterMap_eq_nil_iff.mpr fun e he => ?_
  rcases List.mem_cons.mp he with rfl | he
  · rfl
  · obtain ⟨other, hother, -, rfl⟩ := mem_completions.mp he
    simp only [Effect.answer]
    rw [if_neg (h other hother)]

end Block

/-! ### Invariant -/

/-- Everything the effect is about was received before `bound`. -/
def Effect.Older (bound : Nat) : Effect Record Value Error → Prop
  | .flushed _ batch _ => ∀ log ∈ batch, log.log < bound
  | .completed log _ => log < bound
  | .ran call _ => call < bound
  | .replied call _ => call < bound

/-- INVARIANT: what is true of the commands received so far, of the logs that wait and of what was
    done. -/
structure Inv (received : List (Received Conn Record Value Error))
    (pending : List (PendingLog Record)) (trace : List (Effect Record Value Error)) : Prop where
  sorted : pending.Pairwise fun log later => log.log < later.log
  own : ∀ log ∈ pending,
    received[log.log]? = some (.command (.log log.record log.completion))
  older : ∀ e ∈ trace, e.Older received.length
  behind : ∀ e ∈ trace, ∀ log ∈ pending, e.Older log.log
  ordered : trace.Pairwise Effect.Before
  calls : ∀ {i task}, received[i]? = some (.command (.call task)) →
    Executed task i trace ∧ refusals i trace = [] ∨ Refused i trace
  logs : ∀ {i record completion}, received[i]? = some (.command (.log record completion)) →
    ⟨i, record, completion⟩ ∈ pending ∨ Settled ⟨i, record, completion⟩ trace

theorem Effect.Older.mono {bound bound' : Nat} {e : Effect Record Value Error}
    (h : e.Older bound) (hle : bound ≤ bound') : e.Older bound' := by
  cases e with
  | flushed cause batch result => exact fun log hlog => Nat.lt_of_lt_of_le (h log hlog) hle
  | completed log result => exact Nat.lt_of_lt_of_le h hle
  | ran call result => exact Nat.lt_of_lt_of_le h hle
  | replied call result => exact Nat.lt_of_lt_of_le h hle

/-- A transaction stands behind everything that is about older commands. -/
theorem Effect.before_flushed {e : Effect Record Value Error} {batch : List (PendingLog Record)}
    {cause : Nat} {result : Except Error Unit} (h : ∀ log ∈ batch, e.Older log.log) :
    e.Before (.flushed cause batch result) := by
  cases e with
  | flushed cause older result => exact fun log hlog next hnext => h next hnext log hlog
  | completed log result => exact h
  | ran call result => exact h
  | replied call result => trivial

theorem callEffects_of_older {trace : List (Effect Record Value Error)} {i bound : Nat}
    (h : ∀ e ∈ trace, e.Older bound) (hi : bound ≤ i) : callEffects i trace = [] := by
  refine List.filter_eq_nil_iff.mpr fun e he => ?_
  have hold := h e he
  cases e with
  | flushed cause batch result => simp [Effect.ofCall]
  | completed log result => simp [Effect.ofCall]
  | ran call result =>
    have : call < bound := hold
    simp only [Effect.ofCall, decide_eq_true_eq]
    omega
  | replied call result =>
    have : call < bound := hold
    simp only [Effect.ofCall, decide_eq_true_eq]
    omega

theorem flushesOf_of_older {trace : List (Effect Record Value Error)} {i : Nat}
    (h : ∀ e ∈ trace, e.Older i) : flushesOf i trace = [] := by
  refine List.filter_eq_nil_iff.mpr fun e he => ?_
  have hold := h e he
  cases e with
  | flushed cause batch result =>
    simp only [Effect.flushes, List.any_eq_true, decide_eq_true_eq, not_exists, not_and]
    intro log hlog hi
    have : log.log < i := hold log hlog
    omega
  | completed log result => simp [Effect.flushes]
  | ran call result => simp [Effect.flushes]
  | replied call result => simp [Effect.flushes]

theorem answersOf_of_older {trace : List (Effect Record Value Error)} {i : Nat}
    (h : ∀ e ∈ trace, e.Older i) : answersOf i trace = [] := by
  refine List.filterMap_eq_nil_iff.mpr fun e he => ?_
  have hold := h e he
  cases e with
  | flushed cause batch result => rfl
  | completed log result =>
    have : log < i := hold
    simp only [Effect.answer]
    rw [if_neg (by omega)]
  | ran call result => rfl
  | replied call result => rfl

section Steps
variable {received : List (Received Conn Record Value Error)} {pending : List (PendingLog Record)}
  {trace : List (Effect Record Value Error)}

theorem Inv.start : Inv ([] : List (Received Conn Record Value Error)) [] [] where
  sorted := List.Pairwise.nil
  own := by simp
  older := by simp
  behind := by simp
  ordered := List.Pairwise.nil
  calls := by simp
  logs := by simp

theorem lt_of_snoc_le {r : Received Conn Record Value Error} {i : Nat}
    (h : (received ++ [r]).length ≤ i) : received.length < i := by
  rw [List.length_append, List.length_singleton] at h
  omega

theorem getElem?_snoc {r x : Received Conn Record Value Error} {i : Nat}
    (h : received[i]? = some x) : (received ++ [r])[i]? = some x := by
  obtain ⟨hlt, -⟩ := List.getElem?_eq_some_iff.mp h
  rwa [List.getElem?_append_left hlt]

/-- STEP: a log joins the logs that wait. -/
theorem Inv.push (hi : Inv received pending trace) (record : Record) (completion : Bool) :
    Inv (received ++ [.command (.log record completion)])
      (pending ++ [⟨received.length, record, completion⟩]) trace where
  sorted := by
    refine List.pairwise_append.mpr ⟨hi.sorted, List.pairwise_singleton _ _, ?_⟩
    intro log hlog new hnew
    obtain rfl := List.mem_singleton.mp hnew
    exact (List.getElem?_eq_some_iff.mp (hi.own log hlog)).1
  own := by
    intro log hlog
    rcases List.mem_append.mp hlog with hlog | hlog
    · exact getElem?_snoc (hi.own log hlog)
    · obtain rfl := List.mem_singleton.mp hlog
      exact List.getElem?_concat_length
  older := fun e he => (hi.older e he).mono (by simp)
  behind := by
    intro e he log hlog
    rcases List.mem_append.mp hlog with hlog | hlog
    · exact hi.behind e he log hlog
    · obtain rfl := List.mem_singleton.mp hlog
      exact hi.older e he
  ordered := hi.ordered
  calls := by
    intro i task h
    rcases Token.getElem?_push_eq_some.mp h with h | ⟨-, hlast⟩
    · exact hi.calls h
    · cases hlast
  logs := by
    intro i record' completion' h
    rcases Token.getElem?_push_eq_some.mp h with h | ⟨rfl, hlast⟩
    · rcases hi.logs h with h | h
      · exact .inl (List.mem_append_left _ h)
      · exact .inr h
    · cases hlast
      exact .inl (by simp)

/-- STEP: what is neither a log nor a call. -/
theorem Inv.skip (hi : Inv received pending trace) {r : Received Conn Record Value Error}
    (hlog : ∀ record completion, r ≠ .command (.log record completion))
    (hcall : ∀ task, r ≠ .command (.call task)) : Inv (received ++ [r]) pending trace where
  sorted := hi.sorted
  own := fun log hlog => getElem?_snoc (hi.own log hlog)
  older := fun e he => (hi.older e he).mono (by simp)
  behind := hi.behind
  ordered := hi.ordered
  calls := by
    intro i task h
    rcases Token.getElem?_push_eq_some.mp h with h | ⟨-, hlast⟩
    · exact hi.calls h
    · exact absurd hlast.symm (hcall task)
  logs := by
    intro i record completion h
    rcases Token.getElem?_push_eq_some.mp h with h | ⟨-, hlast⟩
    · exact hi.logs h
    · exact absurd hlast.symm (hlog record completion)

/-- STEP: a transaction over all logs that wait. -/
theorem Inv.flush (hi : Inv received pending trace) {cause : Nat} (result : Except Error Unit)
    (hcause : ∀ task, received[cause]? ≠ some (.command (.call task))) :
    Inv received [] (trace ++ flushBlock cause pending result) where
  sorted := List.Pairwise.nil
  own := by simp
  older := by
    intro e he
    have hplace : ∀ log ∈ pending, log.log < received.length := fun log hlog =>
      (List.getElem?_eq_some_iff.mp (hi.own log hlog)).1
    rcases List.mem_append.mp he with he | he
    · exact hi.older e he
    · rcases List.mem_cons.mp he with rfl | he
      · exact hplace
      · obtain ⟨log, hlog, -, rfl⟩ := mem_completions.mp he
        exact hplace log hlog
  behind := by simp
  ordered := by
    refine List.pairwise_append.mpr ⟨hi.ordered, ?_, ?_⟩
    · refine List.pairwise_cons.mpr ⟨fun e he => ?_, ?_⟩
      · obtain ⟨log, -, -, rfl⟩ := mem_completions.mp he
        trivial
      · refine List.pairwise_of_forall_mem_list fun e he e' he' => ?_
        obtain ⟨log, -, -, rfl⟩ := mem_completions.mp he
        obtain ⟨log', -, -, rfl⟩ := mem_completions.mp he'
        trivial
    · intro e he e' he'
      rcases List.mem_cons.mp he' with rfl | he'
      · exact Effect.before_flushed (hi.behind e he)
      · obtain ⟨log, -, -, rfl⟩ := mem_completions.mp he'
        cases e <;> trivial
  calls := by
    intro i task h
    have hne : cause ≠ i := fun heq => hcause task (heq ▸ h)
    have hcalls : callEffects i (trace ++ flushBlock cause pending result) = callEffects i trace := by
      simp
    have hrefusals : refusals i (trace ++ flushBlock cause pending result) = refusals i trace := by
      rw [refusals_append, refusals_flushBlock, if_neg hne, List.append_nil]
    rcases hi.calls h with ⟨⟨conn, hexec⟩, hnone⟩ | ⟨err, hrefused, hreply⟩
    · exact .inl ⟨⟨conn, hcalls.trans hexec⟩, hrefusals.trans hnone⟩
    · exact .inr ⟨err, hrefusals.trans hrefused, hcalls.trans hreply⟩
  logs := by
    intro i record completion h
    refine .inr ?_
    rcases hi.logs h with hmem | ⟨cause', batch, result', hbatch, hflush, hanswer⟩
    · -- it waited: this is its one transaction
      refine ⟨cause, pending, result, hmem, ?_, ?_⟩
      · rw [flushesOf_append, flushesOf_of_older fun e he => hi.behind e he _ hmem,
          flushesOf_flushBlock, if_pos (List.any_eq_true.mpr ⟨_, hmem, by simp⟩), List.nil_append]
      · rw [answersOf_append, answersOf_of_older fun e he => hi.behind e he _ hmem,
          answersOf_flushBlock hi.sorted hmem, List.nil_append]
    · -- its transaction is over, and every log that waits was received behind it
      have hother : ∀ log ∈ pending, log.log ≠ i := by
        intro log hlog
        have hin : (.flushed cause' batch result' : Effect Record Value Error) ∈ trace := by
          have hone : .flushed cause' batch result' ∈ flushesOf i trace := by
            rw [hflush]
            exact List.mem_singleton.mpr rfl
          exact (List.mem_filter.mp hone).1
        have : i < log.log := hi.behind _ hin log hlog _ hbatch
        omega
      refine ⟨cause', batch, result', hbatch, ?_, ?_⟩
      · have hany : (pending.any fun log => decide (log.log = i)) = false := by
          simpa using hother
        rw [flushesOf_append, hflush, flushesOf_flushBlock, hany]
        rfl
      · rw [answersOf_append, hanswer, answersOf_flushBlock_of_not_mem hother, List.append_nil]

/-- STEP: a call is done, with nothing waiting. -/
theorem Inv.call (hi : Inv received [] trace) (task : Conn → Except Error Value × Conn)
    (more : List (Effect Record Value Error))
    (hmore : ∀ e ∈ more, ∃ result, e = .ran received.length result ∨ e = .replied received.length result)
    (hordered : more.Pairwise Effect.Before)
    (hcall : Executed task received.length (trace ++ more) ∧
        refusals received.length (trace ++ more) = [] ∨ Refused received.length (trace ++ more)) :
    Inv (received ++ [.command (.call task)]) [] (trace ++ more) where
  sorted := List.Pairwise.nil
  own := by simp
  older := by
    intro e he
    rcases List.mem_append.mp he with he | he
    · exact (hi.older e he).mono (by simp)
    · obtain ⟨result, rfl | rfl⟩ := hmore e he
      · simp [Effect.Older]
      · simp [Effect.Older]
  behind := by simp
  ordered := by
    refine List.pairwise_append.mpr ⟨hi.ordered, hordered, fun e he e' he' => ?_⟩
    have hold := hi.older e he
    obtain ⟨result, rfl | rfl⟩ := hmore e' he'
    · cases e with
      | ran call result => exact hold
      | flushed cause batch result => trivial
      | completed log result => trivial
      | replied call result => trivial
    · cases e <;> trivial
  calls := by
    intro i task' h
    rcases Token.getElem?_push_eq_some.mp h with h | ⟨rfl, hlast⟩
    · have hlt := (List.getElem?_eq_some_iff.mp h).1
      have hcalls : callEffects i (trace ++ more) = callEffects i trace := by
        have hnone : callEffects i more = [] := by
          refine List.filter_eq_nil_iff.mpr fun e he => ?_
          obtain ⟨result, rfl | rfl⟩ := hmore e he
          · simp only [Effect.ofCall, decide_eq_true_eq]
            omega
          · simp only [Effect.ofCall, decide_eq_true_eq]
            omega
        rw [callEffects_append, hnone, List.append_nil]
      have hrefusals : refusals i (trace ++ more) = refusals i trace := by
        have hnone : refusals i more = [] := by
          refine List.filterMap_eq_nil_iff.mpr fun e he => ?_
          obtain ⟨result, rfl | rfl⟩ := hmore e he
          · rfl
          · rfl
        rw [refusals_append, hnone, List.append_nil]
      rcases hi.calls h with ⟨⟨conn, hexec⟩, hnone⟩ | ⟨err, hrefused, hreply⟩
      · exact .inl ⟨⟨conn, hcalls.trans hexec⟩, hrefusals.trans hnone⟩
      · exact .inr ⟨err, hrefusals.trans hrefused, hcalls.trans hreply⟩
    · cases hlast
      exact hcall
  logs := by
    intro i record completion h
    rcases Token.getElem?_push_eq_some.mp h with h | ⟨-, hlast⟩
    · rcases hi.logs h with h | ⟨cause, batch, result, hbatch, hflush, hanswer⟩
      · simp at h
      · have hnone : flushesOf i more = [] := by
          refine List.filter_eq_nil_iff.mpr fun e he => ?_
          obtain ⟨result, rfl | rfl⟩ := hmore e he
          · simp [Effect.flushes]
          · simp [Effect.flushes]
        have hsilent : answersOf i more = [] := by
          refine List.filterMap_eq_nil_iff.mpr fun e he => ?_
          obtain ⟨result, rfl | rfl⟩ := hmore e he
          · rfl
          · rfl
        refine .inr ⟨cause, batch, result, hbatch, ?_, ?_⟩
        · rw [flushesOf_append, hflush, hnone, List.append_nil]
        · rw [answersOf_append, hanswer, hsilent, List.append_nil]
    · cases hlast

end Steps

/-! ### The worker -/

section Worker
variable (write : List Record → Conn → Except Error Unit × Conn)
  {w : Worker Conn Record Value Error} {received : List (Received Conn Record Value Error)}

/-- INVARIANT: of the worker between two commands. -/
structure Good (received : List (Received Conn Record Value Error))
    (w : Worker Conn Record Value Error) : Prop where
  count : w.received = received.length
  inv : Inv received w.pendingLogs w.trace
  fresh : ∀ i, received.length ≤ i → refusals i w.trace = []
  ended : w.stopped = true → w.pendingLogs = []

/-- What writing the logs that wait leaves. -/
structure Written (received : List (Received Conn Record Value Error))
    (w : Worker Conn Record Value Error) (result : Except Error Unit)
    (w' : Worker Conn Record Value Error) : Prop where
  count : w'.received = w.received
  stopped : w'.stopped = w.stopped
  empty : w'.pendingLogs = []
  inv : Inv received [] w'.trace
  refusals : ∀ i, refusals i w'.trace =
    refusals i w.trace ++ if w.received = i then errorOf result else []

/-- STEP: `flush_logs`. -/
theorem flushLogs_written (hi : Inv received w.pendingLogs w.trace)
    (hcause : ∀ task, received[w.received]? ≠ some (.command (.call task))) :
    Written received w (flushLogs write w).1 (flushLogs write w).2 := by
  rw [flushLogs]
  split
  · rename_i hempty
    have hnil : w.pendingLogs = [] := List.isEmpty_iff.mp hempty
    exact ⟨rfl, rfl, hnil, hnil ▸ hi, fun i => by simp [errorOf]⟩
  · exact ⟨rfl, rfl, rfl, hi.flush _ hcause, fun i => by
      rw [← refusals_flushBlock, ← refusals_append]; rfl⟩

theorem Good.start (conn : Conn) :
    Good [] (⟨conn, [], 0, false, []⟩ : Worker Conn Record Value Error) :=
  ⟨rfl, .start, fun _ _ => rfl, by simp⟩

theorem Good.no_call (hg : Good received w) (task : Conn → Except Error Value × Conn) :
    received[w.received]? ≠ some (.command (.call task)) := by
  rw [hg.count, List.getElem?_eq_none (Nat.le_refl _)]
  simp

/-- A command that only has the logs written. -/
theorem Good.flushed (hg : Good received w) {r : Received Conn Record Value Error}
    (hlog : ∀ record completion, r ≠ .command (.log record completion))
    (hcall : ∀ task, r ≠ .command (.call task)) (stopped : Bool) :
    Good (received ++ [r])
      { (flushLogs write w).2 with received := (flushLogs write w).2.received + 1, stopped := stopped } := by
  have hw := flushLogs_written write hg.inv hg.no_call
  refine ⟨by simp [hw.count, hg.count], ?_, fun i hi => ?_, fun _ => hw.empty⟩
  · show Inv _ (flushLogs write w).2.pendingLogs _
    rw [hw.empty]
    exact hw.inv.skip hlog hcall
  · have hlt := lt_of_snoc_le hi
    have hne : ¬ w.received = i := by
      rw [hg.count]
      omega
    rw [hw.refusals, hg.fresh i (by omega), if_neg hne, List.append_nil]

theorem Good.log (hg : Good received w) (hs : w.stopped = false) (record : Record)
    (completion : Bool) :
    Good (received ++ [.command (.log record completion)])
      { receiveLog write w record completion with
        received := (receiveLog write w record completion).received + 1 } := by
  have hpush := hg.inv.push record completion
  rw [← hg.count] at hpush
  rw [receiveLog]
  dsimp only
  split
  · have hcause : ∀ task, (received ++ [.command (.log record completion)])[w.received]? ≠
        some (.command (.call task)) := by
      intro task
      rw [hg.count, List.getElem?_concat_length]
      simp
    have hw := flushLogs_written write
      (w := { w with pendingLogs := w.pendingLogs ++ [⟨w.received, record, completion⟩] })
      hpush hcause
    have hcount : (flushLogs write { w with
        pendingLogs := w.pendingLogs ++ [⟨w.received, record, completion⟩] }).2.received =
        received.length := hw.count.trans hg.count
    refine ⟨by simp [hcount], ?_, fun i hi => ?_, fun _ => hw.empty⟩
    · dsimp only
      rw [hw.empty]
      exact hw.inv
    · have hlt := lt_of_snoc_le hi
      have hne : ¬ w.received = i := by
        rw [hg.count]
        omega
      have hfresh := hg.fresh i (by omega)
      rw [hw.refusals, if_neg hne, List.append_nil]
      exact hfresh
  · refine ⟨by simp [hg.count], hpush, fun i hi => ?_, by simp [hs]⟩
    have hlt := lt_of_snoc_le hi
    exact hg.fresh i (by omega)

theorem Good.call (hg : Good received w) (task : Conn → Except Error Value × Conn) :
    Good (received ++ [.command (.call task)])
      { receiveCall write w task with received := (receiveCall write w task).received + 1 } := by
  have hw := flushLogs_written write hg.inv hg.no_call
  have hold : ∀ e ∈ (flushLogs write w).2.trace, e.Older received.length := hw.inv.older
  have hnone := callEffects_of_older hold (Nat.le_refl _)
  have hfresh : ∀ i, received.length < i → ¬ w.received = i := by
    intro i hi
    rw [hg.count]
    omega
  have hhere := hw.refusals received.length
  rw [hg.fresh _ (Nat.le_refl _), if_pos hg.count, List.nil_append] at hhere
  rw [receiveCall]
  split
  · rename_i err w' heq
    rw [heq] at hw hold hnone hhere
    have hcount : w'.received = received.length := hw.count.trans hg.count
    have hinv := hw.inv.call task [.replied received.length (.error err)]
      (by simp) (List.pairwise_singleton _ _)
      (.inr ⟨err, by rw [refusals_append, hhere]; rfl,
        by rw [callEffects_append, hnone]; simp [callEffects, Effect.ofCall]⟩)
    refine ⟨by simp [hcount], ?_, fun i hi => ?_, fun _ => hw.empty⟩
    · dsimp only
      rw [hw.empty, hcount]
      exact hinv
    · have hlt := lt_of_snoc_le hi
      rw [refusals_append, hw.refusals, hg.fresh i (by omega), if_neg (hfresh i hlt)]
      rfl
  · rename_i w' heq
    rw [heq] at hw hold hnone hhere
    have hcount : w'.received = received.length := hw.count.trans hg.count
    have hinv := hw.inv.call task
      [.ran received.length (task w'.conn).1, .replied received.length (task w'.conn).1]
      (by simp) (by simp [Effect.Before])
      (.inl ⟨⟨w'.conn, by rw [callEffects_append, hnone]; simp [callEffects, Effect.ofCall]⟩,
        by rw [refusals_append, hhere]; rfl⟩)
    refine ⟨by simp [hcount], ?_, fun i hi => ?_, fun _ => hw.empty⟩
    · dsimp only
      rw [hw.empty, hcount]
      exact hinv
    · have hlt := lt_of_snoc_le hi
      rw [refusals_append, hw.refusals, hg.fresh i (by omega), if_neg (hfresh i hlt)]
      rfl

/-- STEP: one turn of the loop. -/
theorem Good.receive (hg : Good received w) (hs : w.stopped = false)
    (r : Received Conn Record Value Error) : Good (received ++ [r]) (receive write w r) := by
  cases r with
  | timeout =>
    have hw := hg.flushed write (r := .timeout) (by simp) (by simp)
      (flushLogs write w).2.stopped
    exact hw
  | disconnected => exact hg.flushed write (by simp) (by simp) true
  | command command =>
    cases command with
    | log record completion => exact hg.log write hs record completion
    | call task => exact hg.call write task
    | shutdown => exact hg.flushed write (by simp) (by simp) true

/-- RUN: the invariant holds of the commands handled, and these are all unless one ended the
    worker. -/
theorem Good.loop (hg : Good received w) (hs : w.stopped = false)
    (rest : List (Received Conn Record Value Error)) :
    ∃ handled unread, rest = handled ++ unread ∧ Good (received ++ handled) (loop write w rest) ∧
      ((LogBatch.loop write w rest).stopped = false → unread = []) := by
  induction rest generalizing received w with
  | nil => exact ⟨[], [], rfl, by rwa [List.append_nil], fun _ => rfl⟩
  | cons r rest ih =>
    have hr := hg.receive write hs r
    rw [LogBatch.loop]
    split
    · rename_i hstop
      exact ⟨[r], rest, rfl, hr, fun h => by simp [hstop] at h⟩
    · rename_i hgo
      obtain ⟨handled, unread, rfl, hdone, hall⟩ := ih hr (by simpa using hgo)
      exact ⟨r :: handled, unread, rfl, by simpa using hdone, hall⟩

end Worker

/-! ### Runs -/

/-- What the batching promises: calls and transactions are in order, every log is part of one
    transaction at most and is answered what came of it, and a call is run unless the logs before
    it could not be written. -/
structure Batched (received : List (Received Conn Record Value Error))
    (w : Worker Conn Record Value Error) : Prop where
  ordered : w.trace.Pairwise Effect.Before
  logs : ∀ {i record completion}, i < w.received →
    received[i]? = some (.command (.log record completion)) →
    Settled ⟨i, record, completion⟩ w.trace ∨
      ⟨i, record, completion⟩ ∈ w.pendingLogs ∧ flushesOf i w.trace = [] ∧ answersOf i w.trace = []
  calls : ∀ {i task}, i < w.received → received[i]? = some (.command (.call task)) →
    Executed task i w.trace ∧ refusals i w.trace = [] ∨ Refused i w.trace
  ended : w.stopped = true → w.pendingLogs = []
  handled : w.received ≤ received.length ∧ (w.stopped = false → w.received = received.length)

/-- Every call is run. -/
def Undisturbed (received : List (Received Conn Record Value Error))
    (w : Worker Conn Record Value Error) : Prop :=
  Batched received w ∧ ∀ i task, i < w.received → received[i]? = some (.command (.call task)) →
    Executed task i w.trace

/-- RULE: whatever is received and whichever transactions fail, the worker keeps its promise. -/
theorem runWorker_batched (write : List Record → Conn → Except Error Unit × Conn) (conn : Conn)
    (received : List (Received Conn Record Value Error)) :
    Batched received (runWorker write conn received) := by
  obtain ⟨handled, unread, rfl, hg, hall⟩ :=
    (Good.start conn : Good [] (⟨conn, [], 0, false, []⟩ : Worker Conn Record Value Error)).loop
      write rfl received
  rw [List.nil_append] at hg
  have hread : ∀ {i x}, i < (runWorker write conn (handled ++ unread)).received →
      (handled ++ unread)[i]? = some x → handled[i]? = some x := by
    intro i x hi hx
    rwa [List.getElem?_append_left (by rw [← hg.count]; exact hi)] at hx
  refine ⟨hg.inv.ordered, fun hi hx => ?_, fun hi hx => hg.inv.calls (hread hi hx), hg.ended, ?_⟩
  · rcases hg.inv.logs (hread hi hx) with hwait | hsettled
    · exact .inr ⟨hwait, flushesOf_of_older fun e he => hg.inv.behind e he _ hwait,
        answersOf_of_older fun e he => hg.inv.behind e he _ hwait⟩
    · exact .inl hsettled
  · have hcount : (runWorker write conn (handled ++ unread)).received = handled.length := hg.count
    rw [hcount, List.length_append]
    refine ⟨Nat.le_add_right _ _, fun hrun => ?_⟩
    rw [hall hrun, List.length_nil, Nat.add_zero]

/-- A log that cannot be written, with a call behind it that is then not run. -/
theorem not_undisturbed :
    ¬ Undisturbed [.command (.log () false), .command (.call fun conn => (.ok (), conn))]
      (runWorker (fun (_ : List Unit) conn => (.error (), conn)) ()
        [.command (.log () false), .command (.call fun conn => (.ok (), conn))]) := by
  rintro ⟨-, h⟩
  obtain ⟨conn, hexec⟩ := h 1 (fun conn => (.ok (), conn)) (by decide) rfl
  have hlen : 1 = 2 := congrArg List.length hexec
  omega

end Gamer.Storage.LogBatch
