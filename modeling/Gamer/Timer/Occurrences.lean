import Gamer.Timer.Cancelled
import Gamer.Timer.Moves

/-! What becomes of a scheduled occurrence. The run loop may present it any number of times (the
    cursor is written before the claim, is set to NULL by edits, and is looked up again after a
    restart), but its record in the database is made once and settled once:

        no record ──claim──▶ running ──finish──▶ final
                     │          └─attach─▶ running
                     └─▶ one trigger

    Each of the counts below is paid for out of a budget of one that the record and the threads
    between the claim and the trigger hold. -/

namespace Gamer.Timer
open Gamer.Lib Gamer.Core

namespace Scheduler

/-- The record of an occurrence. -/
def record (s : Scheduler) (key : String × Int) : Option ScheduledRun :=
  s.core.db.scheduled.get key

/-- The occurrence a move claims. -/
def claims (s : Scheduler) (m : Move) : List (String × Int) :=
  match s.request m with
  | some (op, ans) => (op.claims ans s.core).toList
  | none => []

/-- The occurrence a move starts to submit runs for: `dispatch` has claimed it and found the
    runner. -/
def triggers (s : Scheduler) : Move → List (String × Int)
  | .answer k _ => match s.threads[k]? with
    | some (.running (.route t (some due)) _) =>
      if (s.runners.get t.runnerId).isSome then [(t.id, due)] else []
    | _ => []
  | _ => []

/-- The record is there and has not been settled. -/
def running (s : Scheduler) (key : String × Int) : Bool :=
  (s.record key).any fun r => r.state = "running"

/-- The move settles the record. -/
def settles (key : String × Int) (s : Scheduler) (m : Move) : List Unit :=
  if s.running key ∧ (s.step m).any fun s' => !s'.running key then [()] else []

end Scheduler

/-! ### The record -/

namespace Kept

theorem isNone {r r' : Option ScheduledRun} (h : Kept r r') : r' = none ↔ r = none := by
  cases h with
  | same => exact Iff.rfl
  | updated r r' _ => simp

theorem settled {r r' : Option ScheduledRun} (h : Kept r r') {x : ScheduledRun} (hr : r = some x)
    (hx : x.state ≠ "running") : r' = some x := by
  cases h with
  | same => exact hr
  | updated y _ hy => cases hr; exact absurd hy hx

end Kept

namespace Scheduler
variable {s s' : Scheduler} {m : Move} {key : String × Int}

/-- STEP: a move claims the occurrence, or leaves its record alone unless it is running. -/
theorem step_record (h : s.step m = some s') (key : String × Int) :
    (s.claims m = [key] ∧ s.record key = none ∧ s'.record key = some ⟨"running", none⟩) ∨
      (key ∉ s.claims m ∧ Kept (s.record key) (s'.record key)) := by
  unfold record claims
  rw [step_db h]
  cases hreq : s.request m with
  | none => exact Or.inr ⟨by simp, .same _⟩
  | some req =>
    by_cases hclaim : req.1.claims req.2 s.core = some key
    · obtain ⟨hnone, hrunning⟩ := Op.step_claims hclaim
      exact Or.inl ⟨by simp [hclaim], hnone, hrunning⟩
    · exact Or.inr ⟨by simpa [Option.mem_toList] using hclaim, Op.step_kept hclaim⟩

/-- RUN: a record that has been settled is never written again. -/
theorem record_settled {ms : List Move} (hrun : Machine.exec step s ms = some s')
    {r : ScheduledRun} (hr : s.record key = some r) (hfinal : r.state ≠ "running") :
    s'.record key = some r := by
  refine Machine.Reaches.invariant (I := fun s => s.record key = some r) ⟨ms, hrun⟩ ?_ hr
  intro s m s' hrec h
  rcases step_record h key with ⟨_, hnone, _⟩ | ⟨_, hkept⟩
  · rw [hrec] at hnone; cases hnone
  · exact hkept.settled hrec hfinal

/-- One while the occurrence can still be claimed. -/
def unclaimed (s : Scheduler) (key : String × Int) : Nat := if s.record key = none then 1 else 0

/-- One while the record can still be settled. -/
def unsettled (s : Scheduler) (key : String × Int) : Nat :=
  match s.record key with
  | none => 1
  | some r => if r.state = "running" then 1 else 0

theorem step_unclaimed (h : s.step m = some s') (key : String × Int) :
    (s.claims m).count key + s'.unclaimed key ≤ s.unclaimed key := by
  unfold unclaimed
  rcases step_record h key with ⟨hclaim, hnone, hsome⟩ | ⟨hclaim, hkept⟩
  · rw [if_pos hnone, if_neg (by rw [hsome]; simp), hclaim]
    simp
  · rw [List.count_eq_zero_of_not_mem hclaim]
    simp only [hkept.isNone]
    omega

theorem step_unsettled (h : s.step m = some s') (key : String × Int) :
    (settles key s m).count () + s'.unsettled key ≤ s.unsettled key := by
  unfold unsettled settles running
  simp only [h, Option.any_some]
  rcases step_record h key with ⟨_, hnone, hsome⟩ | ⟨_, hkept⟩
  · rw [hnone, hsome]
    simp
  · cases hrec : s.record key with
    | none => rw [hkept.isNone.mpr hrec]; simp
    | some r =>
      by_cases hrun : r.state = "running"
      · cases hrec' : s'.record key with
        | none => rw [hkept.isNone.mp hrec'] at hrec; cases hrec
        | some r' => by_cases hrun' : r'.state = "running" <;> simp [hrun, hrun']
      · rw [hkept.settled hrec hrun]
        simp [hrun]

end Scheduler

/-! ### The trigger -/

/-- The thread has claimed the occurrence and not looked for the runner yet. -/
def Thread.routes (key : String × Int) : Thread → Bool
  | .running (.route t (some due)) _ => (t.id, due) = key
  | _ => false

theorem countP_set {α : Type} {p : α → Bool} {l : List α} {k : Nat} {a : α} (h : l[k]? = some a)
    (x : α) : (l.set k x).countP p + (if p a then 1 else 0) = l.countP p + if p x then 1 else 0 := by
  induction l generalizing k with
  | nil => simp at h
  | cons y l ih =>
    cases k with
    | zero =>
      simp only [List.getElem?_cons_zero, Option.some.injEq] at h
      subst h
      simp only [List.set_cons_zero, List.countP_cons]
      omega
    | succ k =>
      have hrest := ih (k := k) (by simpa using h)
      simp only [List.set_cons_succ, List.countP_cons]
      omega

theorem countP_routes_eq_zero {key : String × Int} {ths : List Thread}
    (h : ∀ th ∈ ths, th.routes key = false) : ths.countP (Thread.routes key) = 0 :=
  List.countP_eq_zero.mpr fun th hth => by simp [h th hth]

/-- Only the claim puts a thread on its way to the trigger. -/
theorem Op.step_routes {op op' : Op} {ans : Answer} {c : Core} {key : String × Int} {why : Cause}
    (h : op' ∈ (op.step ans c).2) (hroutes : (Thread.running op' why).routes key = true) :
    op.claims ans c = some key := by
  have hleads := Op.step_leads h
  cases hleads with
  | claimed t due hdb hwin => simpa [Op.claims, hdb, hwin, Thread.routes] using hroutes
  | _ => cases hroutes

/-- What a trigger reports is never on its way to one. -/
theorem Reports.routes {b : Batch} {due : Option Int} {a : BatchAction} {op : Op}
    (h : Reports b due a op) (key : String × Int) (why : Cause) :
    (Thread.running op why).routes key = false := by
  cases h <;> rfl

namespace Scheduler
variable {s s' : Scheduler} {m : Move} {key : String × Int}

/-- The thread after a call's step is on its way to a trigger only if the step claimed. -/
theorem after_routes (why : Cause) (op : Op) (ans : Answer) (c : Core) (key : String × Int) :
    ((Thread.after why (op.step ans c).2).1 :: (Thread.after why (op.step ans c).2).2).countP
      (Thread.routes key) ≤ (op.claims ans c).toList.count key := by
  by_cases hclaim : op.claims ans c = some key
  · have hone : ∀ rest : List Op, ((Thread.after why rest).1 :: (Thread.after why rest).2).countP
        (Thread.routes key) ≤ 1 := by
      intro rest
      unfold Thread.after
      split
      · simp [Thread.routes]
      · split <;> simp [Thread.routes]
      · exact List.countP_le_length
    rw [hclaim]
    exact Nat.le_trans (hone _) (by simp)
  · rw [countP_routes_eq_zero]
    · exact Nat.zero_le _
    intro th hth
    rcases Thread.after_ops hth with rfl | ⟨op', hop', rfl⟩
    · rfl
    · by_contra hroutes
      exact hclaim (Op.step_routes hop' (by simpa using hroutes))

/-- One for every claim that has not come to its trigger. -/
def routing (s : Scheduler) (key : String × Int) : Nat := s.threads.countP (Thread.routes key)

/-- A call that begins has claimed nothing yet. -/
theorem Begins.routes {th : Thread} (h : s.Begins m th) (key : String × Int) :
    th.routes key = false := by
  cases h with
  | @called c _ => cases c <;> rfl
  | _ => rfl

/-- Only an answer to a thread starts a trigger. -/
theorem triggers_of_thread (hm : m.thread = none) : s.triggers m = [] := by
  cases m with
  | answer k ans => cases hm
  | _ => rfl

theorem step_routing (h : s.step m = some s') (key : String × Int) :
    (s.triggers m).count key + s'.routing key ≤ s.routing key + (s.claims m).count key := by
  unfold routing
  have hset : ∀ {k : Nat} {old : Thread}, s.threads[k]? = some old → ∀ th : Thread × List Thread,
      (s.threads.set k th.1 ++ th.2).countP (Thread.routes key) + (if old.routes key then 1 else 0) =
        s.threads.countP (Thread.routes key) + (th.1 :: th.2).countP (Thread.routes key) := by
    intro k old hk th
    have hset := countP_set (p := Thread.routes key) hk th.1
    rw [List.countP_append, List.countP_cons]
    omega
  have hchanges := step_threads h
  generalize s'.threads = ths at hchanges
  cases hchanges with
  | same hm => rw [triggers_of_thread hm]; simp
  | begun hbegin =>
    have hroutes := hbegin.routes key
    have hnone : s.triggers m = [] := by cases hbegin <;> rfl
    rw [hnone, List.countP_append]
    simp [hroutes]
  | cleared hm => subst hm; simp [triggers]
  | @gone k old th hm hk hgoes =>
    have hcount := hset hk th
    cases hgoes with
    | @answered k ans op why =>
      cases hm
      have hafter := after_routes (op.cause why) op (s.supported op ans) s.core key
      have hclaims : s.claims (.answer k ans) =
          (op.claims (s.supported op ans) s.core).toList := by
        simp [claims, request, hk]
      have hpaid : (s.triggers (.answer k ans)).count key ≤
          if (Thread.running op why).routes key then 1 else 0 := by
        simp only [triggers, hk]
        cases op with
        | route t due =>
          cases due with
          | none => simp
          | some due =>
            simp only [Thread.routes]
            split <;> by_cases hkey : (t.id, due) = key <;> simp [hkey]
        | _ => simp
      rw [hclaims]
      omega
    | @unregistered k ans r rs =>
      cases hm
      simp [triggers, claims, hk, Thread.routes] at hcount ⊢
      omega
    | @ended k ans rs =>
      cases hm
      simp [triggers, claims, hk, Thread.routes] at hcount ⊢
      omega
    | @triggered k a a' runId b b' due why why' hb =>
      cases hm
      have hzero : ((b'.after due a' why' (b.report b' due a' runId s.core).2).1 ::
          (b'.after due a' why' (b.report b' due a' runId s.core).2).2).countP
            (Thread.routes key) = 0 := by
        refine countP_routes_eq_zero fun th hth => ?_
        rcases Batch.after_ops hth with rfl | rfl | rfl | ⟨op, hop, rfl⟩
        · rfl
        · rfl
        · rfl
        · exact (Batch.report_ops (Batch.stepWith_task hb).1 hop).routes key why'
      simp only [triggers, List.count_nil]
      omega

/-! ### Runs -/

/-- RUN: an occurrence is claimed no more than its record allows. -/
theorem claimed_once {ms : List Move} (hrun : Machine.exec step s ms = some s') :
    (Machine.log step claims s ms).count key ≤ 1 := by
  have hstep : ∀ s m s', step s m = some s' →
      (s.claims m).count key + s'.unclaimed key ≤ s.unclaimed key :=
    fun _ _ _ h => step_unclaimed h key
  have hpaid := Machine.log_budget (fun s => s.unclaimed key) hstep hrun
  have hone : s.unclaimed key ≤ 1 := by unfold unclaimed; split <;> omega
  omega

/-- RUN: and leads to no more triggers. -/
theorem triggered_once {ms : List Move} (hrun : Machine.exec step s ms = some s')
    (hfresh : s.routing key = 0) : (Machine.log step triggers s ms).count key ≤ 1 := by
  have hstep : ∀ s m s', step s m = some s' → (s.triggers m).count key +
      (s'.routing key + s'.unclaimed key) ≤ s.routing key + s.unclaimed key := by
    intro s m s' h
    have hrouting := step_routing h key
    have hunclaimed := step_unclaimed h key
    omega
  have hpaid := Machine.log_budget (fun s => s.routing key + s.unclaimed key) hstep hrun
  have hone : s.unclaimed key ≤ 1 := by unfold unclaimed; split <;> omega
  omega

/-- RUN: its record is settled once. -/
theorem settled_once {ms : List Move} (hrun : Machine.exec step s ms = some s') :
    (Machine.log step (settles key) s ms).length ≤ 1 := by
  have hstep : ∀ s m s', step s m = some s' →
      (settles key s m).count () + s'.unsettled key ≤ s.unsettled key :=
    fun _ _ _ h => step_unsettled h key
  have hpaid := Machine.log_budget (fun s => s.unsettled key) hstep hrun
  have hone : s.unsettled key ≤ 1 := by
    unfold unsettled
    split
    · exact Nat.le_refl 1
    · split <;> omega
  have hunits : ∀ us : List Unit, us.count () = us.length := fun us =>
    List.count_eq_length.mpr fun _ _ => rfl
  rw [hunits] at hpaid
  omega

/-- An occurrence is claimed at most once, leads to at most one trigger, and is settled at most
    once; what has settled it is never overwritten. The moves are every reading of the clock, every
    answer of the schedule extension, the database and the runners, every call and any number of
    restarts. -/
theorem occurrence_dispatched_once {db : Db} {s : Scheduler} {ms : List Move}
    (hrun : Machine.exec step (start db) ms = some s) (key : String × Int) :
    (Machine.log step claims (start db) ms).count key ≤ 1 ∧
    (Machine.log step triggers (start db) ms).count key ≤ 1 ∧
    (Machine.log step (settles key) (start db) ms).length ≤ 1 ∧
    ∀ as bs m r, ms = as ++ bs → Machine.exec step (start db) as = some m →
      m.record key = some r → r.state ≠ "running" → s.record key = some r := by
  refine ⟨claimed_once hrun, triggered_once hrun rfl, settled_once hrun, ?_⟩
  rintro as bs m r rfl has hr hfinal
  exact record_settled (Machine.exec_rest has hrun) hr hfinal

/-- A store with one active task whose cursor stands at second 60. -/
def dueDb : Db := ⟨Table.set ∅ "a" { phoneTask [] with id := "a", nextWakeup := some 60 }, ∅⟩

/-- The answers at second 60: the next occurrence is a minute later. -/
def everyMinute : ScheduleAnswer := ⟨.ok (some (instantOf 60)), .ok (some (instantOf 120))⟩

/-- The occurrence at second 60 is dispatched and its run completes before it is attached; then the
    process restarts on a cursor that an edit has cleared. -/
def repeatedRun : List Move :=
  [.register "script" "scripts", .answer 0 granted, .answer 0 granted,
   .list (instantOf 60) true, .look everyMinute, .write true,
   .answer 1 granted, .answer 1 granted,
   .trigger 1 .read "run-1", .trigger 1 (.complete 0 .success) "run-1", .answer 2 granted,
   .trigger 1 (.resolve 0 none) "run-1", .answer 1 granted, .answer 2 granted, .proceed,
   .call (.saveTask { phoneTask [] with id := "a" }), .answer 4 granted,
   .restart, .list (instantOf 90) true, .look everyMinute, .write true, .answer 0 granted]

theorem occurrence_dispatched_once_twice :
    (Machine.log step claims (start dueDb) repeatedRun).count ("a", 60) ≤ 1 ∧
    (Machine.log step triggers (start dueDb) repeatedRun).count ("a", 60) ≤ 1 ∧
    (Machine.log step (settles ("a", 60)) (start dueDb) repeatedRun).length ≤ 1 := by
  have hend : ∃ s, Machine.exec step (start dueDb) repeatedRun = some s ∧
      s.record ("a", 60) = some ⟨"success", some "run-1"⟩ := Machine.exec_eval (by decide +kernel)
  obtain ⟨s, hrun, _⟩ := hend
  obtain ⟨hclaims, htriggers, hsettles, _⟩ := occurrence_dispatched_once hrun ("a", 60)
  exact ⟨hclaims, htriggers, hsettles⟩

end Scheduler

end Gamer.Timer
