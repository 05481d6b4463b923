import Mathlib
import Gamer.Core.Json
import Gamer.Lib.Machine
import Gamer.Lib.Table

/-! The events of a run, as `run_events` keeps them. An observation that repeats the last one of its
    run is counted in a buffer; every other event is a row at once:

        append ──same key──▶ buffer (count, last payload, max score)
          └──other────▶ row        │
                         ▲         ▼  other key, 2 s, 1024, 64 buffers, flush, drop
                         └──── row with `aggregation`                                    -/

namespace Gamer.Journal
open Gamer.Core Gamer.Lib

/-- The numbers and the digest of the host. -/
structure EventCodec (F : Type) where
  /-- `Value::as_f64`, `f64::max`, and a number as a value. -/
  asF64 : Json → Option F
  max : F → F → F
  ofF64 : F → Json
  /-- The SHA-256 of a text, in hexadecimal. -/
  digest : String → String

/-- `value[key] = item`, where that does not panic. -/
def setField (key : String) (item : Json) : Json → Option Json
  | .obj entries => some (.obj (Json.insertKey key item entries))
  | .null => some (.obj [(key, item)])
  | _ => none

def eventBytes : Nat := 128 * 1024

/-- The payload as it is kept: a large one loses its data, or all of it. -/
def capped (digest : String → String) (payload : Json) : Option Json := do
  let payload ←
    if eventBytes < payload.toText.utf8ByteSize then
      setField "data" (.obj [("message", .str "内容超过 128 KiB，已省略"), ("truncated", .bool true)])
        payload
    else some payload
  if eventBytes < payload.toText.utf8ByteSize then
    return .obj [("data", .obj [("original_bytes", .num (toString payload.toText.utf8ByteSize)),
      ("sha256", .str (digest payload.toText)), ("truncated", .bool true)]),
      ("ev", .str "detail"), ("name", .str "diagnostic_truncation")]
  else return payload

/-- What is the same of repeated failed observations: all but the score. -/
def observationKey (payload : Json) : Option String :=
  if payload.getStr "ev" = some "vision" ∧ (payload.get "found").any isFalse then
    payload.asObject.map fun entries => (Json.obj (entries.filter fun e => e.1 ≠ "score")).toText
  else none
where
  isFalse : Json → Bool
    | .bool false => true
    | _ => false

/-- What has been seen of an observation since its row. -/
structure RepeatedObservation (F : Type) where
  key : String
  payload : Json
  count : Nat
  firstAt : String
  lastAt : String
  maxScore : Option F
  since : Nat
  /-- Only observations are counted. -/
  observed : observationKey payload = some key

/-- A row of `run_events`; the id is its position. -/
structure EventRow where
  runId : String
  time : String
  payload : Json

/-- An event: when it was appended, and its payload as it is kept. -/
structure Event where
  time : String
  payload : Json

def Event.row (e : Event) (runId : String) : EventRow := ⟨runId, e.time, e.payload⟩

section
variable {F : Type} (c : EventCodec F)

def aggregation (count : Nat) (firstAt lastAt : String) (maxScore : Option F) : Json :=
  .obj [("additional_observations", .num (toString count)), ("first_at", .str firstAt),
    ("last_at", .str lastAt), ("max_score", (maxScore.map c.ofF64).getD .null)]

/-- `payload["aggregation"] = …` of an observation, which is an object. -/
def withAggregation (payload item : Json) : Json :=
  .obj (Json.insertKey "aggregation" item (payload.asObject.getD []))

def RepeatedObservation.finish (r : RepeatedObservation F) : Option Event :=
  if r.count = 0 then none
  else some ⟨r.lastAt,
    withAggregation r.payload (aggregation c r.count r.firstAt r.lastAt r.maxScore)⟩

/-- The row of a buffer that is given up. -/
def RepeatedObservation.rows (r : RepeatedObservation F) (runId : String) : List EventRow :=
  (r.finish c).toList.map (·.row runId)

def maxOf : Option F → Option F → Option F
  | some a, some b => some (c.max a b)
  | a, b => a.or b

def Event.score (e : Event) : Option F := c.asF64 ((e.payload.get "score").getD .null)

/-- One more of the same. -/
def RepeatedObservation.joined (r : RepeatedObservation F) (e : Event)
    (h : observationKey e.payload = some r.key) : RepeatedObservation F :=
  { r with
    payload := e.payload
    count := r.count + 1
    firstAt := if r.count = 0 then e.time else r.firstAt
    lastAt := e.time
    maxScore := maxOf c r.maxScore (e.score c)
    observed := h }

structure EventStore (F : Type) where
  repeats : Table String (RepeatedObservation F)
  rows : List EventRow

/-- The store is opened on the rows there are. -/
def EventStore.opened (rows : List EventRow) : EventStore F := ⟨∅, rows⟩

/-- A call, with the readings of the clocks and the choices of the map's order. Times are
    nanoseconds. -/
inductive Call where
  | append (runId : String) (payload : Json) (time : String) (now since : Nat) (oldest : String)
  | flush (runId : String)
  | drop (order : List String)

/-- Make room for one more buffer: the oldest of 64 is given up. -/
def evict (repeats : Table String (RepeatedObservation F)) (oldest : String) :
    Option (Table String (RepeatedObservation F) × List EventRow) :=
  if repeats.entries.length < 64 then some (repeats, [])
  else match repeats.get oldest with
    | none => none
    | some r =>
      if repeats.values.all fun other => decide (r.since ≤ other.since) then
        some (repeats.del oldest, r.rows c oldest)
      else none

/-- The event becomes a row, behind those of the buffers that are given up for it. -/
def stored (s : EventStore F) (repeats : Table String (RepeatedObservation F))
    (settled : List EventRow) (runId : String) (e : Event) (observation : Bool) (since : Nat)
    (oldest : String) : Option (EventStore F) :=
  match observation, h : observationKey e.payload with
  | true, some key =>
    (evict c repeats oldest).map fun evicted => {
      repeats := evicted.1.set runId ⟨key, e.payload, 0, e.time, e.time, none, since, h⟩
      rows := s.rows ++ (settled ++ evicted.2 ++ [e.row runId]) }
  | _, _ => some { repeats := repeats, rows := s.rows ++ (settled ++ [e.row runId]) }

/-- An event that is kept. -/
def appendEvent (aggregate : Bool) (s : EventStore F) (runId : String) (e : Event) (now since : Nat)
    (oldest : String) : Option (EventStore F) :=
  match s.repeats.get runId with
  | none => stored c s (s.repeats.del runId) [] runId e aggregate since oldest
  | some prior =>
    if h : (aggregate = true ∧ observationKey e.payload = some prior.key) ∧
        now - prior.since < 2 * 10 ^ 9 ∧ prior.count < 1024 then
      some { s with repeats := (s.repeats.del runId).set runId (prior.joined c e h.1.2) }
    else stored c s (s.repeats.del runId) (prior.rows c runId) runId e aggregate since oldest

/-- A call whose writes succeed. An event that cannot be kept panics before anything is touched. -/
def step (aggregate : Bool) (s : EventStore F) : Call → Option (EventStore F)
  | .append runId payload time now since oldest =>
    match capped c.digest payload with
    | none => some s
    | some payload => appendEvent c aggregate s runId ⟨time, payload⟩ now since oldest
  | .flush runId =>
    some ⟨s.repeats.del runId, s.rows ++ ((s.repeats.get runId).map (·.rows c runId)).getD []⟩
  | .drop order =>
    if order.Perm s.repeats.keys then
      some ⟨∅, s.rows ++ order.flatMap fun runId =>
        ((s.repeats.get runId).map (·.rows c runId)).getD []⟩
    else none

/-- What a call appends to a run. -/
def Call.eventsOf (runId : String) : Call → List Event
  | .append id payload time _ _ _ =>
    if id = runId then ((capped c.digest payload).map (Event.mk time)).toList else []
  | _ => []

end

/-! ### One run -/

/-- How events of a run are stored: each as a row, or some as one. -/
inductive Entry where
  | single (e : Event)
  | merged (first : Event) (more : List Event)

def Entry.events : Entry → List Event
  | .single e => [e]
  | .merged first more => first :: more

/-- What a row counts for. -/
def Entry.count : Entry → Nat
  | .single _ => 1
  | .merged _ more => more.length + 1

section
variable {F : Type} (c : EventCodec F)

def maxScore (events : List Event) : Option F :=
  events.foldl (fun m e => maxOf c m (e.score c)) none

/-- The row of an entry. -/
def Entry.row : Entry → Event
  | .single e => e
  | .merged first more =>
    let last := more.getLastD first
    ⟨last.time, withAggregation last.payload
      (aggregation c (more.length + 1) first.time last.time (maxScore c (first :: more)))⟩

/-- Only observations are merged, and only those that are the same. -/
def Entry.Observed : Entry → Prop
  | .single _ => True
  | .merged first more => ∃ key, ∀ e ∈ first :: more, observationKey e.payload = some key

/-- The rows of a run, in the order of their ids. -/
def eventsIn (runId : String) (rows : List EventRow) : List Event :=
  (rows.filter fun row => row.runId = runId).map fun row => ⟨row.time, row.payload⟩

def EventStore.rowsOf (s : EventStore F) (runId : String) : List Event := eventsIn runId s.rows

/-- How many events of a run are still in its buffer. -/
def EventStore.pending (s : EventStore F) (runId : String) : Nat :=
  ((s.repeats.get runId).map (·.count)).getD 0

/-- The row that is left of a buffer. -/
def given (buffer : Option (RepeatedObservation F)) : List Event :=
  (buffer.bind fun r => r.finish c).toList

/-- STEP: what a call does to the rows and the buffer of a run. -/
inductive RunStep (rows : List Event) (buffer : Option (RepeatedObservation F)) :
    List Event → List Event → Option (RepeatedObservation F) → Prop
  | same : RunStep rows buffer [] rows buffer
  | settled : RunStep rows buffer [] (rows ++ given c buffer) none
  | stored (e : Event) (buffer' : Option (RepeatedObservation F))
      (hfresh : ∀ r ∈ buffer', r.count = 0 ∧ r.maxScore = none ∧
        observationKey e.payload = some r.key) :
      RunStep rows buffer [e] (rows ++ given c buffer ++ [e]) buffer'
  | joined (e : Event) (r : RepeatedObservation F)
      (h : observationKey e.payload = some r.key) (hbuffer : buffer = some r) :
      RunStep rows buffer [e] rows (some (r.joined c e h))

/-- INVARIANT: the buffer of a run counts the events since its last row. -/
structure Counts (r : RepeatedObservation F) (pending : List Event) : Prop where
  count : r.count = pending.length
  key : ∀ e ∈ pending, observationKey e.payload = some r.key
  score : r.maxScore = maxScore c pending
  ends : ∀ first more, pending = first :: more → r.firstAt = first.time ∧
    r.lastAt = (more.getLastD first).time ∧ r.payload = (more.getLastD first).payload

/-- INVARIANT: the rows of a run since `before` are its events, up to those in its buffer. -/
structure Accounted (before rows : List Event) (buffer : Option (RepeatedObservation F))
    (events : List Event) (entries : List Entry) (pending : List Event) : Prop where
  rows : rows = before ++ entries.map (Entry.row c)
  events : events = entries.flatMap Entry.events ++ pending
  observed : ∀ entry ∈ entries, entry.Observed
  buffered : ∀ r, buffer = some r → Counts c r pending
  idle : buffer = none → pending = []

variable {c}

/-- The entry that a buffer is given up as. -/
def entryOf : List Event → List Entry
  | [] => []
  | first :: more => [.merged first more]

theorem flatMap_entryOf (pending : List Event) :
    (entryOf pending).flatMap Entry.events = pending := by
  cases pending with
  | nil => rfl
  | cons first more => simp [entryOf, Entry.events]

/-- A buffer is given up as the row of what it counts. -/
theorem Counts.given_eq {r : RepeatedObservation F} {pending : List Event} (h : Counts c r pending) :
    given c (some r) = (entryOf pending).map (Entry.row c) := by
  cases pending with
  | nil =>
    have hcount : r.count = 0 := h.count
    simp [given, RepeatedObservation.finish, hcount, entryOf]
  | cons first more =>
    obtain ⟨hfirst, hlast, hpayload⟩ := h.ends first more rfl
    have hcount : r.count = more.length + 1 := h.count
    simp [given, RepeatedObservation.finish, hcount, entryOf, Entry.row, hfirst, hlast,
      hpayload, h.score]

theorem Counts.entryOf_observed {r : RepeatedObservation F} {pending : List Event}
    (h : Counts c r pending) : ∀ entry ∈ entryOf pending, entry.Observed := by
  cases pending with
  | nil =>
    intro entry hentry
    cases hentry
  | cons first more =>
    intro entry hentry
    obtain rfl := List.mem_singleton.mp hentry
    exact ⟨r.key, h.key⟩

/-- A fresh buffer counts nothing. -/
theorem Counts.fresh {r : RepeatedObservation F} (hcount : r.count = 0)
    (hscore : r.maxScore = none) : Counts c r [] where
  count := hcount
  key _ he := nomatch he
  score := hscore
  ends _ _ h := nomatch h

/-- STEP: one more event in the buffer. -/
theorem Counts.joined {r : RepeatedObservation F} {pending : List Event} (h : Counts c r pending)
    {e : Event} (hkey : observationKey e.payload = some r.key) :
    Counts c (r.joined c e hkey) (pending ++ [e]) where
  count := by
    rw [List.length_append]
    exact congrArg (· + 1) h.count
  key e' he' := by
    rcases List.mem_append.mp he' with hold | hnew
    · exact h.key e' hold
    · rw [List.mem_singleton.mp hnew]
      exact hkey
  score := by
    show maxOf c r.maxScore (e.score c) = _
    rw [maxScore, List.foldl_append, h.score]
    rfl
  ends first more hpending := by
    cases pending with
    | nil =>
      have hcount : r.count = 0 := h.count
      cases hpending
      refine ⟨?_, rfl, rfl⟩
      show (if r.count = 0 then e.time else r.firstAt) = e.time
      rw [if_pos hcount]
    | cons first' more' =>
      have hcount : r.count ≠ 0 := by
        rw [h.count]
        exact Nat.succ_ne_zero _
      cases hpending
      obtain ⟨hfirst, -, -⟩ := h.ends first more' rfl
      refine ⟨?_, ?_, ?_⟩
      · show (if r.count = 0 then e.time else r.firstAt) = first.time
        rw [if_neg hcount, hfirst]
      · show e.time = _
        simp
      · show e.payload = _
        simp

/-- STEP: the buffer is given up. -/
theorem Accounted.settle {before rows events pending : List Event}
    {buffer : Option (RepeatedObservation F)} {entries : List Entry}
    (h : Accounted c before rows buffer events entries pending) :
    Accounted c before (rows ++ given c buffer) none events (entries ++ entryOf pending) [] where
  rows := by
    rw [List.map_append, ← List.append_assoc, ← h.rows]
    cases hbuffer : buffer with
    | none => simp [given, h.idle hbuffer, entryOf]
    | some r => rw [(h.buffered r hbuffer).given_eq]
  events := by
    rw [List.flatMap_append, flatMap_entryOf, List.append_nil]
    exact h.events
  observed entry hentry := by
    rcases List.mem_append.mp hentry with hold | hnew
    · exact h.observed entry hold
    · cases hbuffer : buffer with
      | none =>
        rw [h.idle hbuffer] at hnew
        cases hnew
      | some r => exact (h.buffered r hbuffer).entryOf_observed entry hnew
  buffered r hr := nomatch hr
  idle _ := rfl

/-- STEP: an event is a row of its own. -/
theorem Accounted.single {before rows events : List Event} {entries : List Entry}
    (h : Accounted c before rows none events entries []) (e : Event)
    {buffer : Option (RepeatedObservation F)} (hfresh : ∀ r, buffer = some r → Counts c r []) :
    Accounted c before (rows ++ [e]) buffer (events ++ [e]) (entries ++ [.single e]) [] where
  rows := by
    rw [List.map_append, ← List.append_assoc, ← h.rows]
    rfl
  events := by
    rw [List.flatMap_append, h.events, List.append_nil, List.append_nil]
    rfl
  observed entry hentry := by
    rcases List.mem_append.mp hentry with hold | hnew
    · exact h.observed entry hold
    · rw [List.mem_singleton.mp hnew]
      trivial
  buffered := hfresh
  idle _ := rfl

/-- STEP: every call keeps account of every run. -/
theorem Accounted.step {before rows rows' events more pending : List Event}
    {buffer buffer' : Option (RepeatedObservation F)} {entries : List Entry}
    (h : Accounted c before rows buffer events entries pending)
    (hstep : RunStep c rows buffer more rows' buffer') :
    ∃ entries' pending', Accounted c before rows' buffer' (events ++ more) entries' pending' := by
  cases hstep with
  | same =>
    rw [List.append_nil]
    exact ⟨entries, pending, h⟩
  | settled =>
    rw [List.append_nil]
    exact ⟨_, _, h.settle⟩
  | stored e buffer' hfresh =>
    refine ⟨_, _, h.settle.single e fun r hr => ?_⟩
    obtain ⟨hcount, hscore, -⟩ := hfresh r hr
    exact .fresh hcount hscore
  | joined e r hkey hbuffer =>
    refine ⟨entries, pending ++ [e], h.rows, ?_, h.observed, ?_, fun hnone => nomatch hnone⟩
    · rw [h.events, List.append_assoc]
    · rintro _ ⟨⟩
      exact (h.buffered r hbuffer).joined hkey

/-! ### The calls -/

theorem eventsIn_append (runId : String) (rows rows' : List EventRow) :
    eventsIn runId (rows ++ rows') = eventsIn runId rows ++ eventsIn runId rows' := by
  simp [eventsIn]

theorem eventsIn_row (runId id : String) (e : Event) :
    eventsIn runId [e.row id] = if id = runId then [e] else [] := by
  by_cases h : id = runId
  · simp [eventsIn, Event.row, h]
  · simp [eventsIn, Event.row, h]

/-- The row of a buffer belongs to the run of the buffer. -/
theorem eventsIn_buffer (runId id : String) (buffer : Option (RepeatedObservation F)) :
    eventsIn runId ((buffer.map (·.rows c id)).getD []) =
      if id = runId then given c buffer else [] := by
  cases buffer with
  | none => simp [eventsIn, given]
  | some r =>
    cases hfinish : r.finish c with
    | none => simp [RepeatedObservation.rows, hfinish, eventsIn, given]
    | some e =>
      have hrow : r.rows c id = [e.row id] := by
        rw [RepeatedObservation.rows, hfinish]
        rfl
      rw [Option.map_some, Option.getD_some, hrow, eventsIn_row]
      simp [given, hfinish]

/-- STEP: making room gives up at most the buffer of one run. -/
theorem evict_run {repeats : Table String (RepeatedObservation F)} {oldest : String}
    {evicted : Table String (RepeatedObservation F) × List EventRow}
    (h : evict c repeats oldest = some evicted) (runId : String) :
    evicted.1.get runId = repeats.get runId ∧ eventsIn runId evicted.2 = [] ∨
      evicted.1.get runId = none ∧
        eventsIn runId evicted.2 = given c (repeats.get runId) := by
  unfold evict at h
  split at h
  · cases h
    exact .inl ⟨rfl, rfl⟩
  · split at h
    · cases h
    · next r hr =>
      split at h
      · cases h
        have hrows := eventsIn_buffer (c := c) runId oldest (some r)
        rw [Option.map_some, Option.getD_some] at hrows
        rw [Table.get_del, hrows]
        by_cases hid : runId = oldest
        · rw [if_pos hid, if_pos hid.symm, hid, hr]
          exact .inr ⟨rfl, rfl⟩
        · rw [if_neg hid, if_neg (Ne.symm hid)]
          exact .inl ⟨rfl, rfl⟩
      · cases h

/-- The events that a call appends to `runId`, which is the run `id` or another. -/
def eventsFor (runId id : String) (e : Event) : List Event := if id = runId then [e] else []

/-- STEP: an event that becomes a row, once the buffer of its run is given up. -/
theorem stored_run {s s' : EventStore F} {id oldest : String} {e : Event} {observation : Bool}
    {since : Nat}
    (h : stored c s (s.repeats.del id) (((s.repeats.get id).map (·.rows c id)).getD []) id e
      observation since oldest = some s') (runId : String) :
    RunStep c (s.rowsOf runId) (s.repeats.get runId) (eventsFor runId id e) (s'.rowsOf runId)
      (s'.repeats.get runId) := by
  have hsettled := eventsIn_buffer (c := c) runId id (s.repeats.get id)
  unfold stored at h
  split at h
  · next key hkey =>
    obtain ⟨evicted, hevict, rfl⟩ := Option.map_eq_some_iff.mp h
    have hrun := evict_run hevict runId
    simp only [EventStore.rowsOf, eventsIn_append, eventsIn_row, hsettled, eventsFor]
    by_cases hid : id = runId
    · subst hid
      have hrows : eventsIn id evicted.2 = [] := by
        rcases hrun with ⟨-, hrows⟩ | ⟨-, hrows⟩
        · exact hrows
        · rw [hrows, Table.get_del, if_pos rfl]
          rfl
      rw [if_pos rfl, if_pos rfl, hrows, List.append_nil, ← List.append_assoc,
        Table.get_set_self]
      refine .stored e _ fun r hr => ?_
      cases hr
      exact ⟨rfl, rfl, hkey⟩
    · rw [if_neg hid, if_neg hid, List.nil_append, List.append_nil,
        Table.get_set_ne (Ne.symm hid)]
      rw [Table.get_del, if_neg (Ne.symm hid)] at hrun
      rcases hrun with ⟨hbuffer, hrows⟩ | ⟨hbuffer, hrows⟩
      · rw [hbuffer, hrows, List.append_nil]
        exact .same
      · rw [hbuffer, hrows]
        exact .settled
  · cases h
    simp only [EventStore.rowsOf, eventsIn_append, eventsIn_row, hsettled, eventsFor,
      Table.get_del]
    by_cases hid : id = runId
    · subst hid
      rw [if_pos rfl, if_pos rfl, if_pos rfl, ← List.append_assoc]
      refine .stored e none fun r hr => ?_
      cases hr
    · rw [if_neg hid, if_neg hid, if_neg (Ne.symm hid), List.append_nil, List.append_nil]
      exact .same

/-- STEP: an event that is kept. -/
theorem appendEvent_run {aggregate : Bool} {s s' : EventStore F} {id oldest : String} {e : Event}
    {now since : Nat} (h : appendEvent c aggregate s id e now since oldest = some s')
    (runId : String) :
    RunStep c (s.rowsOf runId) (s.repeats.get runId) (eventsFor runId id e) (s'.rowsOf runId)
      (s'.repeats.get runId) := by
  unfold appendEvent at h
  split at h
  · next hnone =>
    have hstored : stored c s (s.repeats.del id)
        (((s.repeats.get id).map (·.rows c id)).getD []) id e aggregate since oldest = some s' := by
      rw [hnone]
      exact h
    exact stored_run hstored runId
  · next prior hprior =>
    split at h
    · next hsame =>
      cases h
      rw [eventsFor]
      by_cases hid : id = runId
      · subst hid
        rw [if_pos rfl, Table.get_set_self]
        exact .joined e prior hsame.1.2 hprior
      · rw [if_neg hid, Table.get_set_ne (Ne.symm hid), Table.get_del, if_neg (Ne.symm hid)]
        exact .same
    · have hstored : stored c s (s.repeats.del id)
          (((s.repeats.get id).map (·.rows c id)).getD []) id e aggregate since oldest =
            some s' := by
        rw [hprior]
        exact h
      exact stored_run hstored runId

/-- Each buffer is given up once, in whatever order. -/
theorem eventsIn_order (s : EventStore F) (runId : String) : ∀ order : List String, order.Nodup →
    eventsIn runId (order.flatMap fun id => ((s.repeats.get id).map (·.rows c id)).getD []) =
      if runId ∈ order then given c (s.repeats.get runId) else []
  | [], _ => rfl
  | id :: order, hnodup => by
    obtain ⟨hnot, hrest⟩ := List.nodup_cons.mp hnodup
    rw [List.flatMap_cons, eventsIn_append, eventsIn_buffer, eventsIn_order s runId order hrest]
    by_cases hid : id = runId
    · subst hid
      rw [if_pos rfl, if_neg hnot, if_pos List.mem_cons_self, List.append_nil]
    · rw [if_neg hid, List.nil_append]
      simp [Ne.symm hid]

/-- STEP: what a call does to a run. -/
theorem step_run {aggregate : Bool} {s s' : EventStore F} {call : Call}
    (h : step c aggregate s call = some s') (runId : String) :
    RunStep c (s.rowsOf runId) (s.repeats.get runId) (call.eventsOf c runId) (s'.rowsOf runId)
      (s'.repeats.get runId) := by
  cases call with
  | append id payload time now since oldest =>
    unfold step at h
    dsimp only at h
    simp only [Call.eventsOf]
    cases hcapped : capped c.digest payload with
    | none =>
      rw [hcapped] at h
      cases h
      rw [Option.map_none, Option.toList_none, ite_self]
      exact .same
    | some payload' =>
      rw [hcapped] at h
      exact appendEvent_run h runId
  | flush id =>
    cases h
    have hsettled := eventsIn_buffer (c := c) runId id (s.repeats.get id)
    simp only [EventStore.rowsOf, eventsIn_append, hsettled, Table.get_del, Call.eventsOf]
    by_cases hid : id = runId
    · subst hid
      rw [if_pos rfl, if_pos rfl]
      exact .settled
    · rw [if_neg hid, if_neg (Ne.symm hid), List.append_nil]
      exact .same
  | drop order =>
    unfold step at h
    dsimp only at h
    split at h
    · next hperm =>
      cases h
      have hnodup : order.Nodup := hperm.nodup_iff.mpr s.repeats.nodupKeys
      have hrows : eventsIn runId (order.flatMap fun id =>
          ((s.repeats.get id).map (·.rows c id)).getD []) = given c (s.repeats.get runId) := by
        rw [eventsIn_order s runId order hnodup]
        by_cases hmem : runId ∈ order
        · rw [if_pos hmem]
        · have hget : s.repeats.get runId = none := by
            refine AList.lookup_eq_none.mpr fun hkey => hmem (hperm.mem_iff.mpr hkey)
          rw [if_neg hmem, hget]
          rfl
      rw [EventStore.rowsOf, EventStore.rowsOf, eventsIn_append, hrows]
      exact .settled
    · cases h

/-! ### A whole run -/

variable (c) in
/-- What the calls append to a run, in their order. -/
def appended (runId : String) (calls : List Call) : List Event :=
  calls.flatMap (Call.eventsOf c runId)

/-- RUN: every call keeps account of every run. -/
theorem accounted {aggregate : Bool} {calls : List Call} {s s' : EventStore F} {runId : String}
    {before events pending : List Event} {entries : List Entry}
    (h : Machine.exec (step c aggregate) s calls = some s')
    (hs : Accounted c before (s.rowsOf runId) (s.repeats.get runId) events entries pending) :
    ∃ entries' pending', Accounted c before (s'.rowsOf runId) (s'.repeats.get runId)
      (events ++ appended c runId calls) entries' pending' := by
  induction calls generalizing s events entries pending with
  | nil =>
    cases h
    rw [appended, List.flatMap_nil, List.append_nil]
    exact ⟨entries, pending, hs⟩
  | cons call calls ih =>
    obtain ⟨m, hm, hrest⟩ := Machine.exec_cons_eq_some.mp h
    obtain ⟨entries', pending', hm'⟩ := hs.step (step_run hm runId)
    obtain ⟨entries'', pending'', hs'⟩ := ih hrest hm'
    rw [List.append_assoc] at hs'
    exact ⟨entries'', pending'', hs'⟩

/-- The buffer's count is what is pending. -/
theorem Accounted.pending_length {s : EventStore F} {runId : String}
    {before events pending : List Event} {entries : List Entry}
    (h : Accounted c before (s.rowsOf runId) (s.repeats.get runId) events entries pending) :
    s.pending runId = pending.length := by
  rw [EventStore.pending]
  cases hbuffer : s.repeats.get runId with
  | none =>
    rw [h.idle hbuffer]
    rfl
  | some r => exact (h.buffered r hbuffer).count

theorem Accounted.pending_observed {before rows events pending : List Event}
    {buffer : Option (RepeatedObservation F)} {entries : List Entry}
    (h : Accounted c before rows buffer events entries pending) :
    ∀ e ∈ pending, observationKey e.payload ≠ none := by
  intro e he
  cases hbuffer : buffer with
  | none =>
    rw [h.idle hbuffer] at he
    cases he
  | some r =>
    rw [(h.buffered r hbuffer).key e he]
    exact Option.some_ne_none _

theorem count_eq_length (entry : Entry) : entry.events.length = entry.count := by
  cases entry <;> rfl

/-- An aggregated row says how many events it counts. -/
theorem additional_observations (first : Event) (more : List Event) :
    ((Entry.row c (.merged first more)).payload.get "aggregation").bind
      (·.get "additional_observations") = some (.num (toString (more.length + 1))) := by
  have hfield : ∀ payload item : Json,
      (withAggregation payload item).get "aggregation" = some item := by
    intro payload item
    show Json.lookupKey "aggregation" (Json.insertKey "aggregation" item _) = some item
    rw [Json.lookupKey_insertKey, if_pos rfl]
  rw [Entry.row, hfield]
  rfl

/-- What is no observation is a row at once. -/
theorem RunStep.direct {rows rows' : List Event} {buffer buffer' : Option (RepeatedObservation F)}
    {e : Event} (h : RunStep c rows buffer [e] rows' buffer')
    (hkey : observationKey e.payload = none) :
    rows' = rows ++ given c buffer ++ [e] ∧ buffer' = none := by
  cases h with
  | stored e buffer' hfresh =>
    refine ⟨rfl, ?_⟩
    cases buffer' with
    | none => rfl
    | some r =>
      obtain ⟨-, -, hobserved⟩ := hfresh r rfl
      rw [hkey] at hobserved
      cases hobserved
  | joined e r hobserved =>
    rw [hkey] at hobserved
    cases hobserved

/-- Nothing is lost: the rows of a run are its events in their order, each in a row of its own or
    counted with the same observations, up to those its buffer counts; and what is no observation
    is a row when the call returns. -/
theorem events_accounted {aggregate : Bool} {rows : List EventRow} {calls : List Call}
    {s : EventStore F} (h : Machine.exec (step c aggregate) (.opened rows) calls = some s)
    (runId : String) :
    (∃ (entries : List Entry) (pending : List Event),
      s.rowsOf runId = eventsIn runId rows ++ entries.map (Entry.row c) ∧
      appended c runId calls = entries.flatMap Entry.events ++ pending ∧
      (appended c runId calls).length = (entries.map Entry.count).sum + s.pending runId ∧
      (∀ first more, .merged first more ∈ entries →
        ((Entry.row c (.merged first more)).payload.get "aggregation").bind
          (·.get "additional_observations") =
            some (.num (toString (Entry.merged first more).count)) ∧
        ∃ key, ∀ e ∈ first :: more, observationKey e.payload = some key) ∧
      ∀ e ∈ pending, observationKey e.payload ≠ none) ∧
    ∀ call s' e, step c aggregate s call = some s' → call.eventsOf c runId = [e] →
      observationKey e.payload = none →
      s'.rowsOf runId = s.rowsOf runId ++ given c (s.repeats.get runId) ++ [e] ∧
        s'.pending runId = 0 := by
  have hopened : Accounted c (eventsIn runId rows)
      ((EventStore.opened rows : EventStore F).rowsOf runId)
      ((EventStore.opened rows : EventStore F).repeats.get runId) [] [] [] :=
    ⟨(List.append_nil _).symm, rfl, fun _ h => (nomatch h), fun _ h => (nomatch h), fun _ => rfl⟩
  obtain ⟨entries, pending, hs⟩ := accounted h hopened
  rw [List.nil_append] at hs
  constructor
  · refine ⟨entries, pending, hs.rows, hs.events, ?_, ?_, hs.pending_observed⟩
    · rw [hs.pending_length, hs.events, List.length_append, List.length_flatMap]
      simp only [count_eq_length]
    · exact fun first more hmem => ⟨additional_observations first more, hs.observed _ hmem⟩
  · intro call s' e hcall hevents hkey
    have hrun := step_run hcall runId
    rw [hevents] at hrun
    obtain ⟨hrows, hbuffer⟩ := hrun.direct hkey
    refine ⟨hrows, ?_⟩
    rw [EventStore.pending, hbuffer]
    rfl

end

/-! ### A run with four failed observations and an error -/

/-- Scores as natural numbers. -/
def naturalCodec : EventCodec Nat where
  asF64
    | .num "1" => some 1
    | .num "8" => some 8
    | .num "2" => some 2
    | _ => none
  max a b := Nat.max a b
  ofF64 n := .num (toString n ++ ".0")
  digest _ := ""

def vision (score : String) : Json :=
  .obj [("ev", .str "vision"), ("found", .bool false), ("score", .num score),
    ("template", .str "a")]

def stepEnd : Json := .obj [("error", .str "FIND_TIMEOUT"), ("ev", .str "step_end")]

def observedRun : List Call :=
  [.append "r" (vision "1") "t0" 0 0 "", .append "r" (vision "8") "t1" 1 1 "",
    .append "r" (vision "2") "t2" 2 2 "", .append "r" stepEnd "t3" 3 3 "",
    .append "r" (vision "1") "t4" 4 4 "", .append "r" (vision "1") "t5" 5 5 ""]

/-- Six events: four rows that count for five, and one that is pending. -/
theorem events_accounted_six : ∃ s,
    Machine.exec (step naturalCodec true) (.opened []) observedRun = some s ∧
    s.pending "r" = 1 ∧ (s.rowsOf "r").length = 4 ∧
    ∃ (entries : List Entry) (pending : List Event),
      s.rowsOf "r" = entries.map (Entry.row naturalCodec) ∧
      appended naturalCodec "r" observedRun = entries.flatMap Entry.events ++ pending ∧
      (appended naturalCodec "r" observedRun).length =
        (entries.map Entry.count).sum + s.pending "r" := by
  have hpending : (Machine.exec (step naturalCodec true) (.opened []) observedRun).map
      (·.pending "r") = some 1 := by
    decide +kernel
  have hrows : (Machine.exec (step naturalCodec true) (.opened []) observedRun).map
      (fun s => (s.rowsOf "r").length) = some 4 := by
    decide +kernel
  cases hrun : Machine.exec (step naturalCodec true) (.opened []) observedRun with
  | none =>
    rw [hrun] at hrows
    cases hrows
  | some s =>
    rw [hrun] at hpending hrows
    obtain ⟨⟨entries, pending, hstored, hevents, hcount, -⟩, -⟩ := events_accounted hrun "r"
    exact ⟨s, rfl, Option.some.inj hpending, Option.some.inj hrows, entries, pending, hstored,
      hevents, hcount⟩

end Gamer.Journal
