import Gamer.Timer.Cancelled
import Gamer.Timer.Moves

/-! What a stop of a task stops. `suspend_task`, `cancel_task` and `delete_task` write the row and
    clear the cursor, but the run loop works through the tasks it listed before, and neither the
    cursor it stores nor the occurrence it claims looks at the row again:

        list [t] ──▶ suspend t: Ok ──▶ cursor of t stored ──▶ occurrence of t claimed ──▶ submitted

    The stop holds exactly if the loop has nothing of the task in hand when it is acknowledged: no
    listed snapshot it will act on, no cursor to store, no dispatch with runs left to submit. -/

namespace Gamer.Timer
open Gamer.Lib Gamer.Core

/-- The task the step stops: the writes of `suspend_task`, `cancel_task` and `delete_task`. -/
def Op.stops : Op → Option String
  | .suspendTask id _ | .cancelWrite id | .deleteTask id => some id
  | _ => none

/-- The task the step resumes or saves. -/
def Op.revives : Op → Option String
  | .resumeWrite id _ | .resumeWakeup id _ => some id
  | .resumeEach _ (t :: _) | .saveTask t => some t.id
  | _ => none

/-- The loop stores a cursor of the snapshot or fires it. -/
def Task.acts (ext : ScheduleExtension) (now : Int) (t : Task) : Bool :=
  match t.decision now (ext.answer t.schedule now) with
  | .store _ | .fire .. => true
  | .sleep | .reject => false

/-- The input waits for a permit. -/
def InputPhase.isQueued : InputPhase → Bool
  | .queued _ => true
  | _ => false

/-- Some input has not been submitted and may still be. -/
def Batch.unsubmitted (b : Batch) : Bool :=
  b.next < b.inputs.length || b.phases.any InputPhase.isQueued

/-- A dispatch of an occurrence of the task that may still submit a run. -/
def Thread.holds (id : String) : Thread → Bool
  | .running (.dispatch t (some _)) _ | .running (.route t (some _)) _ => t.id = id
  | .running (.trigger b (some _)) _ => b.task.id = id && b.unsubmitted
  | _ => false

def Loop.holds (ext : ScheduleExtension) (id : String) : Loop → Bool
  | .listing => false
  | .looking now rest | .waiting now _ rest => rest.any fun t => t.id = id && t.acts ext now
  | .storing now id' _ rest => id' = id || rest.any fun t => t.id = id && t.acts ext now
  | .advancing now t _ _ rest => t.id = id || rest.any fun t => t.id = id && t.acts ext now

/-- Somebody other than the loop dispatches the task. -/
def Move.dispatches (id : String) : Move → Bool
  | .call (.dispatch t _) => t.id = id
  | _ => false

namespace Scheduler

/-- The loop has the task in hand. -/
def holds (ext : ScheduleExtension) (id : String) (s : Scheduler) : Bool :=
  s.loop.holds ext id || s.threads.any (·.holds id)

/-- The call a move answers. -/
def answered (s : Scheduler) : Move → Option Op
  | .answer k _ => match s.threads[k]? with
    | some (.running op _) => some op
    | _ => none
  | _ => none

/-- The move is the acknowledged stop of the task. -/
def stops (id : String) (s : Scheduler) (m : Move) : Bool :=
  (s.answered m).any (·.stops = some id) && (s.request m).any fun x => x.2.db

def revives (id : String) (s : Scheduler) (m : Move) : Bool :=
  (s.answered m).any (·.revives = some id)

/-- The move submits a run for an occurrence of the task. -/
def submits (id : String) (s : Scheduler) : Move → Bool
  | .trigger k a _ => match s.threads[k]? with
    | some (.running (.trigger b (some _)) _) =>
      b.task.id = id && (b.step a).any fun b' => b.attempts.length < b'.attempts.length
    | _ => false
  | _ => false

/-- The task has no cursor. -/
def cursorNull (id : String) (s : Scheduler) : Bool := (s.row id).all fun t => t.nextWakeup = none

/-- What the loop asks the extension next. -/
def asked (s : Scheduler) : Option (TaskSchedule × Int) :=
  match s.loop with
  | .looking now (t :: _) => some (t.schedule, now)
  | _ => none

/-- The extension answers what the loop asks. -/
def answers (ext : ScheduleExtension) (s : Scheduler) : Move → Bool
  | .look ans => s.asked.all fun x => ans = ext.answer x.1 x.2
  | _ => true

/-- The moves after a stop: the task is neither resumed nor saved, and nobody but the run loop
    dispatches it. -/
structure Untouched (ext : ScheduleExtension) (id : String) (s : Scheduler) (m : Move) : Prop where
  answers : s.answers ext m = true
  unrevived : s.revives id m = false
  undispatched : m.dispatches id = false

instance (ext : ScheduleExtension) (id : String) (s : Scheduler) (m : Move) :
    Decidable (s.Untouched ext id m) :=
  decidable_of_iff (s.answers ext m = true ∧ s.revives id m = false ∧ m.dispatches id = false)
    ⟨fun ⟨h₁, h₂, h₃⟩ => ⟨h₁, h₂, h₃⟩, fun h => ⟨h.answers, h.unrevived, h.undispatched⟩⟩

end Scheduler

/-! ### The row -/

/-- Neither schedulable nor with a cursor. -/
def Task.stopped (t : Task) : Prop := t.isSchedulable = false ∧ t.nextWakeup = none

theorem Task.stopped_of_state {t : Task} (hs : t.state ≠ .active) (hn : t.nextWakeup = none) :
    t.stopped := by
  refine ⟨?_, hn⟩
  simp [Task.isSchedulable, hs]

/-- STEP: a stop stops the row. -/
theorem Op.rowAfter_stops {op : Op} {id : String} (h : op.stops = some id) {ans : Answer}
    (hdb : ans.db = true) {row : Option Task} {t : Task} (ht : op.rowAfter ans id row = some t) :
    t.stopped := by
  cases op with
  | suspendTask id' reason | cancelWrite id' =>
    cases h
    simp only [Op.rowAfter, hdb, Bool.not_true, Bool.false_eq_true, if_false, if_true] at ht
    obtain ⟨t₀, _, rfl⟩ := Option.map_eq_some_iff.mp ht
    exact Task.stopped_of_state (by simp) rfl
  | deleteTask id' =>
    cases h
    simp [Op.rowAfter, hdb] at ht
  | _ => cases h

/-- STEP: an edit keeps a stopped row stopped, unless it resumes the task or stores a cursor. -/
theorem Edit.stopped {ans : Answer} {id : String} {op : Op} {t t' : Task}
    (h : Edit ans id op t t') (hrevive : op.revives ≠ some id)
    (hcursor : ∀ next, op ≠ .setWakeup id next) (ht : t.stopped) : t'.stopped := by
  cases h with
  | same | labelled => exact ht
  | marked | markedNow | cancelled | suspended | uninstalled | gone =>
    exact Task.stopped_of_state (by simp) rfl
  | resumed | woken => exact absurd rfl hrevive
  | stored next => exact absurd rfl (hcursor next)
  | restored r t₀ ts next t heq => exact absurd (congrArg some heq) hrevive

/-! ### The triggers and the loop -/

/-- An input put into a phase that is not queued leaves no more to submit. -/
theorem Batch.queued_set {ps : List InputPhase} {i : Nat} {p : InputPhase}
    (h : ps.any InputPhase.isQueued = false) (hp : p.isQueued = false) :
    (ps.set i p).any InputPhase.isQueued = false := by
  rw [List.any_eq_false] at h ⊢
  intro q hq
  rcases List.mem_or_eq_of_mem_set hq with hq | rfl
  · exact h q hq
  · simp [hp]

/-- STEP: a trigger that has submitted all its inputs submits no more. -/
theorem Batch.step_submitted {b b' : Batch} {a : BatchAction} (h : b.step a = some b')
    (hb : b.unsubmitted = false) : b'.unsubmitted = false ∧ b'.attempts = b.attempts := by
  obtain ⟨hnext, hqueued⟩ := Bool.or_eq_false_iff.mp hb
  have hdone : ∀ {phases : List InputPhase} {permits : Nat} {records : List (Nat × Recorded)},
      phases.any InputPhase.isQueued = false → Batch.unsubmitted { b with
        phases := phases, permits := permits, records := records } = false := by
    intro phases permits records hphases
    exact Bool.or_eq_false_iff.mpr ⟨hnext, hphases⟩
  cases a with
  | read =>
    simp only [Batch.step] at h
    split at h
    · cases h
    · next input hi =>
      have hlt : b.next < b.inputs.length := (List.getElem?_eq_some_iff.mp hi).1
      simp [hlt] at hnext
  | recordRejected =>
    simp only [Batch.step] at h
    split at h
    · cases h
    · split at h
      · cases h
      · split at h <;> cases h
        exact ⟨hdone (Batch.queued_set hqueued rfl), rfl⟩
  | attempt i =>
    simp only [Batch.step] at h
    split at h <;> cases h
    next r permits hold _ =>
      have hmem := List.any_eq_false.mp hqueued _ (List.mem_of_getElem? hold)
      exact absurd rfl hmem
  | resolve i error | complete i outcome =>
    simp only [Batch.step] at h
    split at h <;> cases h <;> exact ⟨hdone (Batch.queued_set hqueued rfl), rfl⟩
  | panic i | dropPermit i =>
    simp only [Batch.step] at h
    split at h <;> cases h
    exact ⟨hdone (Batch.queued_set hqueued rfl), rfl⟩

theorem Batch.stepWith_submitted {runners : Table String String} {b b' : Batch}
    {a a' : BatchAction} {why : Cause} (h : b.stepWith runners a = some (b', a', why))
    (hb : b.unsubmitted = false) : b'.unsubmitted = false := by
  rcases Batch.stepWith_cases h with ⟨hstep, _⟩ | ⟨m, i, r, hm, hatt, _⟩
  · exact (Batch.step_submitted hstep hb).1
  · rw [(Batch.step_submitted hm hb).2] at hatt
    simp at hatt

/-- What a call leaves to do holds the task only if the call did. -/
theorem Leads.holds {id : String} {ans : Answer} {c : Core} {op op' : Op} {why : Cause}
    (h : Leads ans c op op') (hop : (Thread.running op why).holds id = false) (why' : Cause) :
    (Thread.running op' why').holds id = false := by
  cases h with
  | claimed => exact hop
  | triggered t due path =>
    cases due with
    | none => rfl
    | some due =>
      have hne : t.id ≠ id := by simpa [Thread.holds] using hop
      simp [Thread.holds, Batch.new, hne]
  | stays b due => cases due <;> exact hop
  | _ => rfl

/-- What a trigger reports submits nothing. -/
theorem Reports.holds {b : Batch} {due : Option Int} {a : BatchAction} {op : Op}
    (h : Reports b due a op) (id : String) (why : Cause) :
    (Thread.running op why).holds id = false := by
  cases h <;> rfl

namespace Scheduler
variable {ext : ScheduleExtension} {id : String} {s s' : Scheduler} {m : Move}

/-- The loop does not have the task in hand, and cursors are stored by the loop only. -/
structure Forgets (ext : ScheduleExtension) (id : String) (s : Scheduler) : Prop where
  loop : s.loop.holds ext id = false
  threads : ∀ th ∈ s.threads, th.holds id = false
  cursors : ∀ next why, Thread.running (.setWakeup id next) why ∉ s.threads
  keyed : s.core.db.Keyed

/-- INVARIANT: the task is stopped and the loop has forgotten it. -/
structure Quiet (ext : ScheduleExtension) (id : String) (s : Scheduler) : Prop
    extends s.Forgets ext id where
  row : ∀ t, s.row id = some t → t.stopped

/-- What a quiet scheduler asks of the database neither resumes the task nor stores its cursor. -/
theorem Quiet.request (hq : s.Quiet ext id) (hm : s.revives id m = false) {op : Op} {ans : Answer}
    (h : s.request m = some (op, ans)) :
    op.revives ≠ some id ∧ ∀ next, op ≠ .setWakeup id next := by
  cases m with
  | answer k a =>
    simp only [Scheduler.request] at h
    simp only [revives, answered] at hm
    split at h
    · next op' why hk =>
      cases h
      rw [hk] at hm
      refine ⟨by simpa using hm, ?_⟩
      rintro next rfl
      exact hq.cursors next why (List.mem_of_getElem? hk)
    · cases h
      exact ⟨by simp [Op.revives], by simp⟩
    · cases h
  | write ok =>
    simp only [Scheduler.request] at h
    have hloop := hq.loop
    split at h
    · next hstoring =>
      cases h
      rw [hstoring] at hloop
      simp only [Loop.holds, Bool.or_eq_false_iff, decide_eq_false_iff_not] at hloop
      exact ⟨by simp [Op.revives], fun next heq => by cases heq; exact hloop.1 rfl⟩
    · next hadvancing =>
      cases h
      rw [hadvancing] at hloop
      simp only [Loop.holds, Bool.or_eq_false_iff, decide_eq_false_iff_not] at hloop
      exact ⟨by simp [Op.revives], fun next heq => by cases heq; exact hloop.1 rfl⟩
    · cases h
  | _ => cases h

/-- STEP: the row stays stopped. -/
theorem Quiet.step_row (hq : s.Quiet ext id) (hm : s.revives id m = false)
    (h : s.step m = some s') : ∀ t, s'.row id = some t → t.stopped := by
  intro t ht
  rw [Scheduler.step_row h id] at ht
  cases hreq : s.request m with
  | none => rw [hreq] at ht; exact hq.row t ht
  | some req =>
    obtain ⟨op, ans⟩ := req
    rw [hreq] at ht
    obtain ⟨hrevive, hcursor⟩ := hq.request hm hreq
    rcases Op.rowAfter_edit ht with ⟨rfl, heq⟩ | ⟨t₀, ht₀, hedit⟩
    · exact absurd (congrArg some heq) hrevive
    · exact hedit.stopped hrevive hcursor (hq.row t₀ ht₀)

theorem Task.acts_of_stopped {t : Task} (h : t.isSchedulable = false) (now : Int) :
    t.acts ext now = false := by
  simp [Task.acts, Task.decision, h]

/-- STEP: the loop does not take the task up again. -/
theorem Quiet.step_loop (hq : s.Quiet ext id) (hm : s.answers ext m = true) (h : s.step m = some s') :
    s'.loop.holds ext id = false := by
  have hloop := hq.loop
  have hturns := Scheduler.step_loop h
  generalize s'.loop = l at hturns
  cases hturns with
  | same => exact hloop
  | ended | restarted => rfl
  | listed now =>
    simp only [Loop.holds, List.any_eq_false, Bool.and_eq_true, decide_eq_true_eq]
    rintro t ht ⟨heq, hacts⟩
    have hrow : s.row t.id = some t := hq.keyed.of_list ht
    rw [Task.acts_of_stopped (hq.row t (heq ▸ hrow)).1] at hacts
    cases hacts
  | slept ans now t rest hl | rejected ans now t rest hl =>
    rw [hl] at hloop
    exact (Bool.or_eq_false_iff.mp hloop).2
  | stores ans now next t rest hl hd | fires ans now due next t rest hl hd =>
    -- the loop acts on what it listed, so it is not on the task
    rw [hl] at hloop
    obtain ⟨hhead, hrest⟩ := Bool.or_eq_false_iff.mp hloop
    have hans : ans = ext.answer t.schedule now := by simpa [answers, asked, hl] using hm
    have hacts : t.acts ext now = true := by simp [Task.acts, ← hans, hd]
    have hhead : decide (t.id = id) = false := by simpa [hacts] using hhead
    exact Bool.or_eq_false_iff.mpr ⟨hhead, hrest⟩
  | stored ok now id' next rest hl =>
    rw [hl] at hloop
    exact (Bool.or_eq_false_iff.mp hloop).2
  | unstored now t due next rest hl | advanced now t due next rest hl =>
    rw [hl] at hloop
    exact (Bool.or_eq_false_iff.mp hloop).2
  | returned now k rest hl =>
    rw [hl] at hloop
    exact hloop

/-- STEP: no thread takes the task up again. -/
theorem Forgets.step_threads (hq : s.Forgets ext id)
    (hm : m.dispatches id = false) (h : s.step m = some s') :
    ∀ th ∈ s'.threads, th.holds id = false := by
  intro th hth
  rcases step_thread h hth with hth | hbegins | ⟨k, old, next, _, hk, hgoes, hth⟩
  · exact hq.threads th hth
  · cases hbegins with
    | @called c hext =>
      cases c with
      | dispatch t due =>
        cases due with
        | none => rfl
        | some due => exact hm
      | _ => rfl
    | dispatched hl =>
      have hloop := hq.loop
      rw [hl] at hloop
      exact (Bool.or_eq_false_iff.mp hloop).1
    | _ => rfl
  · have hold := hq.threads old (List.mem_of_getElem? hk)
    cases hgoes with
    | answered =>
      rcases Thread.after_ops hth with rfl | ⟨op', hop', rfl⟩
      · rfl
      · exact (Op.step_leads hop').holds hold _
    | unregistered | ended =>
      obtain rfl := List.mem_singleton.mp hth
      rfl
    | @triggered k a a' runId b b' due why why' hb =>
      obtain ⟨htask, _⟩ := Batch.stepWith_task hb
      rcases Batch.after_ops hth with rfl | rfl | rfl | ⟨op, hop, rfl⟩
      · cases due with
        | none => rfl
        | some due =>
          refine Bool.and_eq_false_imp.mpr fun heq => ?_
          have hdone := Bool.and_eq_false_imp.mp hold (by rw [← htask]; exact heq)
          exact Batch.stepWith_submitted hb hdone
      · rfl
      · rfl
      · exact (Batch.report_ops htask hop).holds id why'

/-- INVARIANT: only the loop stores cursors, and not as a thread. -/
theorem step_cursors (h : s.step m = some s')
    (hs : ∀ next why, Thread.running (.setWakeup id next) why ∉ s.threads) :
    ∀ next why, Thread.running (.setWakeup id next) why ∉ s'.threads := by
  intro next why hth
  rcases step_thread h hth with hth | hbegins | ⟨k, old, next', _, hk, hgoes, hth⟩
  · exact hs next why hth
  · generalize hop : Thread.running (.setWakeup id next) why = th at hbegins
    cases hbegins with
    | @called c hext => cases c <;> cases hop; cases hext
    | _ => cases hop
  · cases hgoes with
    | answered =>
      rcases Thread.after_ops hth with heq | ⟨op', hop', heq⟩
      · cases heq
      · cases heq
        have hleads := Op.step_leads hop'
        cases hleads
    | unregistered | ended => cases List.mem_singleton.mp hth
    | @triggered k a a' runId b b' due why why' hb =>
      rcases Batch.after_ops hth with heq | heq | heq | ⟨op, hop, heq⟩
      · cases heq
      · cases heq
      · cases heq
      · cases heq
        have hreports := Batch.report_ops (Batch.stepWith_task hb).1 hop
        cases hreports

/-- STEP: a scheduler that has forgotten the task submits nothing for it. -/
theorem Forgets.submits (hq : s.Forgets ext id) : s.submits id m = false := by
  unfold Scheduler.submits
  split
  · next k a runId =>
    split
    · next b due why hk =>
      refine Bool.and_eq_false_imp.mpr fun heq => ?_
      have hdone : b.unsubmitted = false :=
        Bool.and_eq_false_imp.mp (hq.threads _ (List.mem_of_getElem? hk)) heq
      cases hb : b.step a with
      | none => rfl
      | some b' => simp [(Batch.step_submitted hb hdone).2]
    · rfl
  · rfl

theorem Quiet.after (hq : s.Quiet ext id) (hm : s.Untouched ext id m) (h : s.step m = some s') :
    s'.Quiet ext id where
  loop := hq.step_loop hm.answers h
  threads := hq.step_threads hm.undispatched h
  cursors := step_cursors h hq.cursors
  keyed := step_keyed h hq.keyed
  row := hq.step_row hm.unrevived h

theorem Quiet.cursorNull (hq : s.Quiet ext id) : s.cursorNull id = true := by
  unfold Scheduler.cursorNull
  cases hrow : s.row id with
  | none => rfl
  | some t => simp [(hq.row t hrow).2]

/-- STEP: the acknowledged stop of a task the loop has forgotten. -/
theorem Forgets.stopped (hf : s.Forgets ext id) (hstops : s.stops id m = true)
    (h : s.step m = some s') : s'.Quiet ext id := by
  cases m with
  | answer k ans =>
    unfold stops answered at hstops
    simp only [request] at hstops
    cases hk : s.threads[k]? with
    | none => simp [hk] at hstops
    | some th =>
      cases th with
      | running op why =>
        simp only [hk, Option.any_some, Bool.and_eq_true, decide_eq_true_eq] at hstops
        obtain ⟨hop, hdb⟩ := hstops
        refine ⟨⟨?_, hf.step_threads rfl h, step_cursors h hf.cursors,
          step_keyed h hf.keyed⟩, fun t ht => ?_⟩
        · have hturns := Scheduler.step_loop h
          generalize s'.loop = l at hturns
          cases hturns
          exact hf.loop
        · rw [Scheduler.step_row h id] at ht
          simp only [request, hk] at ht
          exact Op.rowAfter_stops hop hdb ht
      | _ => simp [hk] at hstops
  | _ => simp [stops, answered] at hstops

/-! ### Runs -/

/-- RUN: nothing is submitted for a stopped task that the loop has forgotten. -/
theorem Quiet.along (hq : s.Quiet ext id) {ms : List Move}
    (hmoves : Machine.Along step (Untouched ext id) s ms) :
    Machine.Throughout step (fun s => s.cursorNull id = true) s ms ∧
    Machine.Along step (fun s m => s.submits id m = false) s ms := by
  induction ms generalizing s with
  | nil => exact ⟨hq.cursorNull, trivial⟩
  | cons m ms ih =>
    have hrest : ∀ s', step s m = some s' →
        Machine.Throughout step (fun s => s.cursorNull id = true) s' ms ∧
        Machine.Along step (fun s m => s.submits id m = false) s' ms :=
      fun s' h => ih (hq.after hmoves.1 h) (hmoves.2 s' h)
    exact ⟨⟨hq.cursorNull, fun s' h => (hrest s' h).1⟩, hq.submits, fun s' h => (hrest s' h).2⟩

/-- INVARIANT: of every scheduler a process reaches. -/
theorem reaches_forgets {db : Db} (hdb : db.Keyed) (hreach : Machine.Reaches step (start db) s)
    (hheld : s.holds ext id = false) : s.Forgets ext id := by
  obtain ⟨hloop, hthreads⟩ := Bool.or_eq_false_iff.mp hheld
  refine ⟨hloop, fun th hth => ?_, ?_, ?_⟩
  · simpa using List.any_eq_false.mp hthreads th hth
  · exact hreach.invariant (fun s m s' hs h => step_cursors h hs) (by simp [start])
  · exact hreach.invariant (fun s m s' hs h => step_keyed h hs) hdb

/-- Once a stop of the task has been acknowledged that found the loop without the task in hand, the
    loop submits no run of its occurrences and the task stays without a cursor, until it is resumed
    or saved. -/
theorem stopped_task_is_forgotten {db : Db} (hdb : db.Keyed) {s₁ : Scheduler} {stop : Move}
    {ms : List Move} (hreach : Machine.Reaches step (start db) s)
    (hstops : s.stops id stop = true) (hheld : s.holds ext id = false)
    (hstop : step s stop = some s₁) (hmoves : Machine.Along step (Untouched ext id) s₁ ms) :
    Machine.Throughout step (fun s => s.cursorNull id = true) s₁ ms ∧
    Machine.Along step (fun s m => s.submits id m = false) s₁ ms :=
  ((reaches_forgets hdb hreach hheld).stopped hstops hstop).along hmoves

/-- An occurrence every minute. -/
def minutely : ScheduleExtension where
  nextAfter := fun _ now => .ok (some (now + 60 * second))
  latestDue := fun _ now _ => .ok (some now)

/-- A store with one active task whose cursor stands at the given second. -/
def wakingDb (cursor : Option Int) : Db :=
  ⟨Table.set ∅ "a" { phoneTask [] with id := "a", nextWakeup := cursor }, ∅⟩

theorem wakingDb_keyed (cursor : Option Int) : (wakingDb cursor).Keyed := by
  intro id t ht
  simp only [Db.getTimerTask, wakingDb, Table.get_set, Table.get_empty] at ht
  split at ht
  · next heq => cases ht; exact heq.symm
  · cases ht

/-- The runner registers, the loop lists the task and its owner suspends it. -/
def listedRun : List Move :=
  [.register "script" "scripts", .answer 0 granted, .answer 0 granted,
   .list (instantOf 60) true, .call (.suspendTask "a" "disabled")]

/-- What the loop does about the task next. -/
def passRun : List Move :=
  [.look (minutely.answer ⟨"cron", .null⟩ (instantOf 60)), .write true,
   .answer 2 granted, .answer 2 granted, .trigger 2 .read "run-1"]

/-- The rest of a pass in which the task is not due, and the next pass. -/
def nextPassRun : List Move :=
  [.look (minutely.answer ⟨"cron", .null⟩ (instantOf 60)), .look ⟨.ok none, .ok none⟩,
   .list (instantOf 90) true]

theorem stopped_task_is_forgotten_waiting :
    ∃ s s₁, Machine.exec step (start (wakingDb (some 90))) listedRun = some s ∧
      step s (.answer 1 granted) = some s₁ ∧
      Machine.Throughout step (fun s => s.cursorNull "a" = true) s₁ nextPassRun := by
  have hlisted : ∃ s, Machine.exec step (start (wakingDb (some 90))) listedRun = some s ∧
      s.stops "a" (.answer 1 granted) = true ∧ s.holds minutely "a" = false ∧
      (step s (.answer 1 granted)).any (fun s₁ =>
        decide (Machine.Along step (Untouched minutely "a") s₁ nextPassRun)) = true :=
    Machine.exec_eval (by decide +kernel)
  obtain ⟨s, hrun, hstops, hheld, hany⟩ := hlisted
  obtain ⟨s₁, hstop, hmoves⟩ := (Option.any_eq_true _ _).mp hany
  exact ⟨s, s₁, hrun, hstop, (stopped_task_is_forgotten (wakingDb_keyed _) ⟨_, hrun⟩ hstops hheld
    hstop (of_decide_eq_true hmoves)).1⟩

/-- The task is due in the pass that is under way. -/
theorem stopped_task_is_dispatched :
    ¬ ∀ (ext : ScheduleExtension) (db : Db) (id : String) (s s₁ : Scheduler) (stop : Move)
      (ms : List Move), db.Keyed → Machine.Reaches step (start db) s → s.stops id stop = true →
      step s stop = some s₁ → Machine.Along step (Untouched ext id) s₁ ms →
      Machine.Throughout step (fun s => s.cursorNull id = true) s₁ ms ∧
      Machine.Along step (fun s m => s.submits id m = false) s₁ ms := by
  intro hall
  have hlisted : ∃ s, Machine.exec step (start (wakingDb (some 60))) listedRun = some s ∧
      s.stops "a" (.answer 1 granted) = true ∧
      (step s (.answer 1 granted)).any (fun s₁ =>
        decide (Machine.Along step (Untouched minutely "a") s₁ passRun) &&
        decide (¬ Machine.Along step (fun s m => s.submits "a" m = false) s₁ passRun)) = true :=
    Machine.exec_eval (by decide +kernel)
  obtain ⟨s, hrun, hstops, hany⟩ := hlisted
  obtain ⟨s₁, hstop, hboth⟩ := (Option.any_eq_true _ _).mp hany
  obtain ⟨hmoves, hsubmits⟩ := Bool.and_eq_true_iff.mp hboth
  exact of_decide_eq_true hsubmits (hall minutely _ "a" s s₁ _ passRun (wakingDb_keyed _)
    ⟨_, hrun⟩ hstops hstop (of_decide_eq_true hmoves)).2

end Scheduler

end Gamer.Timer
