import Gamer.Timer.Stopped

/-! What the return of a runner recovers. A task whose runner is not registered is marked in four
    places, and the recovery of the runner finds it again by the text of the mark:

        runner.supports says no        missing_dependency=<runner_id>
        suspend_tasks_missing_runner   missing_dependency=<runner_id>
        TimerRunnerRegistry::submit    runner unavailable: <runner_id>      never found again
        the runner's own refusal, a rejected schedule: a text of their own

    `Cause` says why a task was marked; a mark is legible if its text says the same. -/

namespace Gamer.Timer
open Gamer.Lib Gamer.Core

theorem missingDependency_inj {r r' : String} (h : missingDependency r = missingDependency r') :
    r = r' := by
  have htoList : ("missing_dependency=" ++ r).toList = ("missing_dependency=" ++ r').toList :=
    congrArg String.toList h
  rw [String.toList_append, String.toList_append] at htoList
  exact String.toList_inj.mp (List.append_cancel_left htoList)

/-- The text `reason` of a mark on a task of `runnerId` says that its runner was missing exactly if
    that is why it was made. -/
def Cause.Legible (why : Cause) (runnerId reason : String) : Prop :=
  why.runnerMissing = true ↔ reason = missingDependency runnerId

/-- The step puts the task into another state than its runner's coming and going does, or for
    another cause. -/
def Op.displaces (id : String) (why : Cause) : Op → Bool
  | .markMissing t _ _ | .markMissingNow t _ => t.id = id && !why.runnerMissing
  | .suspendEach (t :: _) | .saveTask t => t.id = id
  | .cancelWrite id' | .suspendTask id' _ | .resumeWrite id' _ | .deleteTask id' => id' = id
  | _ => false

namespace Scheduler

/-- The task with its row's runner, if it has a row. -/
def current (s : Scheduler) (t : Task) : Bool := (s.row t.id).all fun row => row.runnerId = t.runnerId

/-- The task is missing its runner `r`. -/
def missing (id r : String) (enabled : Bool) (s : Scheduler) : Bool :=
  (s.row id).any (fun t => t.state = .dependencyMissing && t.runnerId = r && t.enabled = enabled) &&
    (s.causes id).runnerMissing

/-- The task is back. -/
def back (id : String) (enabled : Bool) (s : Scheduler) : Bool :=
  (s.row id).any fun t => t.state = .active && t.enabled = enabled

/-- The call a move answers, with its cause. -/
def marking (s : Scheduler) : Move → Option (Op × Cause)
  | .answer k _ => match s.threads[k]? with
    | some (.running op why) => some (op, why)
    | _ => none
  | _ => none

/-- The recovery of a runner is at a task. -/
def recovers (s : Scheduler) : Move → Option (String × Task × Answer)
  | .answer k ans => match s.threads[k]? with
    | some (.running (.resumeEach r (t :: _)) _) => some (r, t, ans)
    | _ => none
  | _ => none

/-- The recovery in call `k` has been through all the tasks it listed. -/
def recovered (k : Nat) (r : String) (s : Scheduler) : Bool :=
  match s.threads[k]? with
  | some (.running (.resumeEach r' []) _) => r' = r
  | _ => false

/-- Tasks are dispatched as they are stored, and edits are left out. -/
def lifecycle (s : Scheduler) : Move → Bool
  | .call (.dispatch t _) | .call (.submitNow t) => s.current t
  | .call (.saveTask _) => false
  | _ => true

/-- No mark says something else than its cause: no submission on the single path finds its runner
    unregistered, no runner refuses with the text of the registrar, and no schedule is rejected
    whose provider has the name of the task's runner. -/
def legible (s : Scheduler) : Move → Bool
  | .trigger k a _ => match s.threads[k]? with
    | some (.running (.trigger b _) _) => b.path ≠ .single ||
      (b.stepWith s.runners a).all fun x => x.2.2 ≠ .unavailable && match a with
        | .resolve _ (some (.dependencyMissing m)) => m ≠ missingDependency b.task.runnerId
        | _ => true
    | _ => true
  | .look ans => match s.loop with
    | .looking now (t :: _) => match t.decision now ans with
      | .reject => t.schedule.providerId ≠ t.runnerId
      | _ => true
    | _ => true
  | _ => true

/-- Until the recovery of a runner is done: the process goes on, nothing else happens to the task,
    and its provider accepts its schedule. -/
def undisturbed (id : String) (s : Scheduler) (m : Move) : Bool :=
  (match m with | .restart => false | _ => true) &&
  (s.marking m).all (fun x => !x.1.displaces id x.2) &&
  (s.recovers m).all fun x => x.2.1.id ≠ id || x.2.2.next.toOption.isSome

end Scheduler

/-! ### Marks -/

/-- The mark a step makes, once the database carries it out. -/
def Op.mark : Op → Option (Task × String)
  | .markMissing t _ reason | .markMissingNow t reason => some (t, reason)
  | _ => none

theorem Op.marks_eq (op : Op) (ans : Answer) :
    op.marks ans = if ans.db then op.mark.map fun x => x.1.id else none := by
  cases op <;> simp [Op.marks, Op.mark]

/-- STEP: the row a mark leaves. -/
theorem Op.rowAfter_mark {op : Op} {t₀ : Task} {reason : String} (h : op.mark = some (t₀, reason))
    (ans : Answer) (id : String) (row : Option Task) :
    op.rowAfter ans id row = if op.marks ans = some id then row.map fun t => { t with
      state := .dependencyMissing, suspendReason := some reason, nextWakeup := none } else row := by
  cases op with
  | markMissing t due reason' | markMissingNow t reason' =>
    cases h
    cases hdb : ans.db <;> simp [Op.rowAfter, Op.marks, hdb]
  | _ => cases h

/-- How a row of `id` comes to be in `DependencyMissing` after the step of a call. -/
inductive Misses (ans : Answer) (id : String) (op : Op) (t t' : Task) : Prop
  | kept (hmarks : op.marks ans ≠ some id) (hs : t.state = .dependencyMissing)
      (hreason : t'.suspendReason = t.suspendReason)
  | marked (t₀ : Task) (reason : String) (hmark : op.mark = some (t₀, reason))
      (hmarks : op.marks ans = some id) (hreason : t'.suspendReason = some reason)
  | gone (hop : op = .suspendMissing t.runnerId) (hs : t.isSchedulable = true)
      (hreason : t'.suspendReason = some (missingDependency t.runnerId))

/-- INVERSION: a row in `DependencyMissing` after the step of a call. -/
theorem Op.step_missing {op : Op} {ans : Answer} {id : String} {row : Option Task} {t' : Task}
    (h : op.rowAfter ans id row = some t') (hs : t'.state = .dependencyMissing)
    (hsave : op ≠ .saveTask t') : ∃ t, row = some t ∧ t'.runnerId = t.runnerId ∧
      t'.enabled = t.enabled ∧ Misses ans id op t t' := by
  cases hmark : op.mark with
  | some x =>
    obtain ⟨t₀, reason⟩ := x
    rw [Op.rowAfter_mark hmark] at h
    split at h
    · next hmarks =>
      obtain ⟨t, ht, rfl⟩ := Option.map_eq_some_iff.mp h
      exact ⟨t, ht, rfl, rfl, .marked t₀ reason hmark hmarks rfl⟩
    · next hmarks => exact ⟨t', h, rfl, rfl, .kept hmarks hs rfl⟩
  | none =>
    have hmarks : op.marks ans ≠ some id := by simp [Op.marks_eq, hmark]
    rcases Op.rowAfter_edit h with ⟨rfl, _⟩ | ⟨t, ht, hedit⟩
    · exact absurd rfl hsave
    · refine ⟨t, ht, hedit.frame.2.1, ?_⟩
      cases hedit with
      | same | labelled | woken | stored => exact ⟨rfl, .kept hmarks hs rfl⟩
      | marked | markedNow => cases hmark
      | gone r t hr hactive => subst hr; exact ⟨rfl, .gone rfl hactive rfl⟩
      | cancelled | suspended | uninstalled | resumed | restored => cases hs

namespace Scheduler
variable {s s' : Scheduler} {m : Move} {id : String}

/-- The cause of a task after a move. -/
def causeAfter (s : Scheduler) (id : String) : Move → Cause
  | .answer k ans => match s.threads[k]? with
    | some (.running op why) => if op.marks (s.supported op ans) = some id then why else s.causes id
    | some (.unregistering (r :: _)) =>
      if ans.db && (s.row id).any fun t => t.runnerId = r ∧ t.state = .active ∧ t.enabled then .gone
      else s.causes id
    | _ => s.causes id
  | _ => s.causes id

theorem step_causes (h : s.step m = some s') (id : String) : s'.causes id = s.causeAfter id m := by
  cases m with
  | answer k ans =>
    simp only [step] at h
    simp only [causeAfter]
    split at h
    · next op why hk =>
      rw [hk]
      split at h
      · cases h
      · cases h
        simp only [answer, become]
        cases op.marks (s.supported op ans) with
        | none => rfl
        | some id' => simp [Function.update_apply, eq_comm]
    · next rs hk =>
      cases h
      rw [hk]
      cases rs with
      | nil => rfl
      | cons r rs =>
        simp only [unregistered]
        cases ans.db with
        | false => rfl
        | true => cases hrow : s.row id <;> simp [become, hrow]
    · cases h
  | call c =>
    simp only [step] at h
    split at h <;> cases h
    rfl
  | register r o =>
    obtain rfl := Option.some.inj h
    unfold register causeAfter
    split
    · rfl
    · split <;> rfl
  | unregister o | restart => cases h; rfl
  | trigger k a runId =>
    simp only [step] at h
    split at h
    · obtain ⟨⟨b', a', why⟩, _, rfl⟩ := Option.map_eq_some_iff.mp h
      rfl
    · cases h
  | list now ok =>
    simp only [step] at h
    split at h <;> cases h
    cases ok <;> rfl
  | look ans =>
    simp only [step] at h
    split at h
    · cases h; rfl
    · cases h
      unfold look causeAfter
      split <;> rfl
    · cases h
  | write ok =>
    simp only [step] at h
    split at h
    · cases h; rfl
    · cases h
      cases ok <;> rfl
    · cases h
  | proceed =>
    simp only [step] at h
    split at h
    · split at h <;> cases h
      rfl
    · cases h

/-! ### Legible marks -/

/-- A call in flight works with tasks as they are stored, and the mark it is about to make says why
    it makes it. -/
def Fits (s : Scheduler) : Thread → Prop
  | .running (.dispatch t _) _ | .running (.route t _) _ | .running (.submitNow t) _ =>
    s.current t = true
  | .running (.trigger b _) _ => s.current b.task = true
  | .running (.markMissing t _ reason) why | .running (.markMissingNow t reason) why =>
    s.current t = true ∧ why.Legible t.runnerId reason
  | .running (.resumeEach r ts) _ => ∀ t ∈ ts, t.runnerId = r ∧ s.current t = true
  | .running (.saveTask _) _ | .running (.suspendMissing _) _ => False
  | _ => True

end Scheduler

/-- The tasks the loop has listed. -/
def Loop.tasks : Loop → List Task
  | .listing => []
  | .looking _ rest | .storing _ _ _ rest | .waiting _ _ rest => rest
  | .advancing _ t _ _ rest => t :: rest

namespace Scheduler
variable {s s' : Scheduler} {m : Move} {id : String}

/-- INVARIANT: the text of every mark says whether the runner was missing. -/
structure Legibility (s : Scheduler) : Prop where
  keyed : s.core.db.Keyed
  rows : ∀ id t, s.row id = some t → t.state = .dependencyMissing →
    ((s.causes id).runnerMissing = true ↔ t.suspendReason = some (missingDependency t.runnerId))
  threads : ∀ th ∈ s.threads, s.Fits th
  loop : ∀ t ∈ s.loop.tasks, s.current t = true

theorem current_iff {t : Task} :
    s.current t = true ↔ ∀ row, s.row t.id = some row → row.runnerId = t.runnerId := by
  unfold current
  cases hrow : s.row t.id <;> simp

theorem Legibility.current_row (hs : s.Legibility) {t : Task} (ht : t ∈ s.core.db.listTimerTasks) :
    s.current t = true := by
  rw [current_iff]
  intro row hrow
  obtain rfl : t = row := Option.some.inj ((hs.keyed.of_list ht).symm.trans hrow)
  rfl

/-- What a move asks of the database is not to save a task. -/
theorem Legibility.request_ne (hs : s.Legibility) {op : Op} {ans : Answer}
    (h : s.request m = some (op, ans)) (t : Task) : op ≠ .saveTask t := by
  rintro rfl
  cases m with
  | answer k a =>
    simp only [request] at h
    split at h
    · next hk => cases h; exact hs.threads _ (List.mem_of_getElem? hk)
    · cases h
    · cases h
  | write ok =>
    simp only [request] at h
    split at h <;> cases h
  | _ => cases h

/-- FRAME: no move changes the runner of a task. -/
theorem Legibility.step_runner (hs : s.Legibility) (h : s.step m = some s') {t' : Task}
    (ht : s'.row id = some t') : ∃ t, s.row id = some t ∧ t'.runnerId = t.runnerId := by
  rw [step_row h id] at ht
  cases hreq : s.request m with
  | none => rw [hreq] at ht; exact ⟨t', ht, rfl⟩
  | some req =>
    rw [hreq] at ht
    rcases Op.rowAfter_edit ht with ⟨hop, _⟩ | ⟨t, ht, hedit⟩
    · exact absurd hop (hs.request_ne hreq t')
    · exact ⟨t, ht, hedit.frame.2.1⟩

theorem Legibility.step_current (hs : s.Legibility) (h : s.step m = some s') {t : Task}
    (ht : s.current t = true) : s'.current t = true := by
  rw [current_iff] at ht ⊢
  intro row' hrow'
  obtain ⟨row, hrow, heq⟩ := hs.step_runner h hrow'
  exact heq.trans (ht row hrow)

theorem Legibility.step_fits (hs : s.Legibility) (h : s.step m = some s') {th : Thread}
    (hth : s.Fits th) : s'.Fits th := by
  unfold Fits at hth ⊢
  split at hth
  · exact hs.step_current h hth
  · exact hs.step_current h hth
  · exact hs.step_current h hth
  · exact hs.step_current h hth
  · exact ⟨hs.step_current h hth.1, hth.2⟩
  · exact ⟨hs.step_current h hth.1, hth.2⟩
  · exact fun t ht => ⟨(hth t ht).1, hs.step_current h (hth t ht).2⟩
  · exact hth
  · exact hth
  · trivial

/-- STEP: the row and the cause of a task after the answer to a call. -/
theorem Legibility.answered_row (hs : s.Legibility) {op : Op} {why : Cause} {ans : Answer}
    (hfits : s.Fits (.running op why)) {t' : Task}
    (ht : op.rowAfter ans id (s.row id) = some t') (hmiss : t'.state = .dependencyMissing) :
    (if op.marks ans = some id then why else s.causes id).runnerMissing = true ↔
      t'.suspendReason = some (missingDependency t'.runnerId) := by
  have hsave : op ≠ .saveTask t' := by
    rintro rfl
    exact hfits
  obtain ⟨t, hrow, hrunner, _, hhow⟩ := Op.step_missing ht hmiss hsave
  rw [hrunner]
  cases hhow with
  | kept hmarks hstate hreason =>
    rw [if_neg hmarks, hreason]
    exact hs.rows id t hrow hstate
  | gone hop => subst hop; exact hfits.elim
  | marked t₀ reason hmark hmarks hreason =>
    rw [if_pos hmarks, hreason, Option.some.injEq]
    have hid : t₀.id = id := by
      rw [Op.marks_eq, hmark] at hmarks
      split at hmarks
      · exact Option.some.inj hmarks
      · cases hmarks
    have hlegible : s.current t₀ = true ∧ why.Legible t₀.runnerId reason := by
      cases op <;> cases hmark <;> exact hfits
    rw [current_iff.mp hlegible.1 t (hid ▸ hrow)]
    exact hlegible.2

/-- STEP: the row and the cause of a task after the tasks of a removed runner are suspended. -/
theorem Legibility.unregistered_row (hs : s.Legibility) {r : String} {ans : Answer} {t' : Task}
    (ht : (Op.suspendMissing r).rowAfter ans id (s.row id) = some t')
    (hmiss : t'.state = .dependencyMissing) :
    (if ans.db && (s.row id).any fun t => t.runnerId = r ∧ t.state = .active ∧ t.enabled then
      Cause.gone else s.causes id).runnerMissing = true ↔
      t'.suspendReason = some (missingDependency t'.runnerId) := by
  cases hdb : ans.db with
  | false =>
    simp only [Op.rowAfter, hdb, Bool.not_false, if_true] at ht
    simpa using hs.rows id t' ht hmiss
  | true =>
    simp only [Op.rowAfter, hdb, Bool.not_true, Bool.false_eq_true, if_false] at ht
    obtain ⟨t, hrow, rfl⟩ := Option.map_eq_some_iff.mp ht
    split at hmiss
    · next hactive => simp [hrow, hactive, Cause.runnerMissing]
    · next hactive => simpa [hrow, hactive] using hs.rows id t hrow hmiss

/-- STEP: marks stay legible. -/
theorem Legibility.step_rows (hs : s.Legibility) (h : s.step m = some s') (id : String) (t' : Task)
    (ht : s'.row id = some t') (hmiss : t'.state = .dependencyMissing) :
    (s'.causes id).runnerMissing = true ↔
      t'.suspendReason = some (missingDependency t'.runnerId) := by
  rw [step_causes h id]
  rw [step_row h id] at ht
  cases m with
  | answer k ans =>
    cases hk : s.threads[k]? with
    | none =>
      simp only [request, causeAfter, hk] at ht ⊢
      exact hs.rows id t' ht hmiss
    | some th =>
      cases th with
      | running op why =>
        simp only [request, causeAfter, hk] at ht ⊢
        exact hs.answered_row (hs.threads _ (List.mem_of_getElem? hk)) ht hmiss
      | unregistering rs =>
        cases rs with
        | nil =>
          simp only [request, causeAfter, hk] at ht ⊢
          exact hs.rows id t' ht hmiss
        | cons r rs =>
          simp only [request, causeAfter, hk] at ht ⊢
          exact hs.unregistered_row ht hmiss
      | returned | panicked =>
        simp only [request, causeAfter, hk] at ht ⊢
        exact hs.rows id t' ht hmiss
  | write ok =>
    cases hreq : s.request (.write ok) with
    | none => rw [hreq] at ht; exact hs.rows id t' ht hmiss
    | some req =>
      obtain ⟨op, ans⟩ := req
      rw [hreq] at ht
      have hop : ∃ id' next, op = .setWakeup id' next := by
        simp only [request] at hreq
        split at hreq <;> cases hreq <;> exact ⟨_, _, rfl⟩
      obtain ⟨id', next, rfl⟩ := hop
      have hfits : s.Fits (.running (.setWakeup id' next) .runner) := trivial
      exact hs.answered_row hfits ht hmiss
  | _ => exact hs.rows id t' ht hmiss

/-- STEP: what is left of a call fits as the call did. -/
theorem Legibility.leads_fits (hs : s.Legibility) {op op' : Op} {ans : Answer} {why : Cause}
    (hfits : s.Fits (.running op why)) (h : Leads ans s.core op op') :
    s.Fits (.running op' (op.cause why)) := by
  cases h with
  | claimed | unscheduled | triggered | triggeredNow | stays => exact hfits
  | unsupported | unsupportedNow => exact ⟨hfits, by simp [Cause.Legible, Op.cause, Cause.runnerMissing]⟩
  | listed r =>
    intro t ht
    obtain ⟨ht, hcond⟩ := List.mem_filter.mp ht
    exact ⟨(of_decide_eq_true hcond).1, hs.current_row ht⟩
  | refused | restored => exact fun t ht => hfits t (List.mem_cons_of_mem _ ht)
  | _ => trivial

/-- STEP: what a trigger reports is legible. -/
theorem reports_fits {b b' : Batch} {due : Option Int} {a a' : BatchAction}
    {why : Cause} {op : Op} (hcurrent : s.current b.task = true)
    (hstep : b.stepWith s.runners a = some (b', a', why))
    (hlegible : b.path = .single → why ≠ .unavailable ∧ ∀ i reason,
      a = .resolve i (some (.dependencyMissing reason)) → reason ≠ missingDependency b.task.runnerId)
    (h : Reports b due a' op) : s.Fits (.running op why) := by
  cases h with
  | missing i reason hpath ha =>
    obtain ⟨havailable, hother⟩ := hlegible hpath
    rcases Batch.stepWith_cases hstep with ⟨_, rfl, rfl, _⟩ | ⟨_, _, _, _, _, _, _, _, rfl⟩
    · exact ⟨hcurrent, by simp [Cause.Legible, Cause.runnerMissing, hother i reason ha]⟩
    · exact absurd rfl havailable
  | _ => trivial

/-- What `legible` says of a step of a trigger. -/
theorem legible_trigger {k : Nat} {a a' : BatchAction} {runId : String} {b b' : Batch}
    {due : Option Int} {why why' : Cause} (h : s.legible (.trigger k a runId) = true)
    (hk : s.threads[k]? = some (.running (.trigger b due) why))
    (hstep : b.stepWith s.runners a = some (b', a', why')) (hpath : b.path = .single) :
    why' ≠ .unavailable ∧ ∀ i reason,
      a = .resolve i (some (.dependencyMissing reason)) →
        reason ≠ missingDependency b.task.runnerId := by
  simp only [legible, hk, hpath, hstep, Option.all_some, ne_eq, not_true_eq_false, decide_false,
    Bool.false_or, Bool.and_eq_true, decide_eq_true_eq] at h
  refine ⟨h.1, ?_⟩
  rintro i reason rfl
  simpa using h.2

/-- STEP: the calls in flight keep fitting. -/
theorem Legibility.step_threads (hs : s.Legibility) (hcalls : s.lifecycle m = true)
    (hlegible : s.legible m = true) (h : s.step m = some s') : ∀ th ∈ s'.threads, s'.Fits th := by
  intro th hth
  refine hs.step_fits h ?_
  rcases step_thread h hth with hth | hbegins | ⟨k, old, next, hmk, hk, hgoes, hth⟩
  · exact hs.threads th hth
  · cases hbegins with
    | @called c hext =>
      cases c with
      | dispatch t due | submitNow t => exact hcalls
      | saveTask t => cases hcalls
      | rejectSchedule | setWakeup | suspendTasksMissingRunner | resumeTasksMissingRunner =>
        cases hext
      | _ => trivial
    | registered | unregistering => trivial
    | @rejected ans now t rest hl hd =>
      have hne : t.schedule.providerId ≠ t.runnerId := by simpa [legible, hl, hd] using hlegible
      have hcurrent : s.current t = true := hs.loop t (by simp [hl, Loop.tasks])
      refine ⟨hcurrent, ?_⟩
      have hreason : missingDependency t.schedule.providerId ≠ missingDependency t.runnerId :=
        fun heq => hne (missingDependency_inj heq)
      simp [Cause.Legible, Cause.runnerMissing, hreason]
    | @dispatched now due t next rest hl => exact hs.loop t (by simp [hl, Loop.tasks])
  · have hold := hs.threads old (List.mem_of_getElem? hk)
    cases hgoes with
    | answered =>
      rcases Thread.after_ops hth with rfl | ⟨op', hop', rfl⟩
      · trivial
      · exact hs.leads_fits hold (Op.step_leads hop')
    | unregistered | ended =>
      obtain rfl := List.mem_singleton.mp hth
      trivial
    | @triggered k' a a' runId b b' due why why' hb =>
      obtain rfl := Option.some.inj hmk
      obtain ⟨htask, _⟩ := Batch.stepWith_task hb
      rcases Batch.after_ops hth with rfl | rfl | rfl | ⟨op, hop, rfl⟩
      · change s.current b'.task = true
        rw [htask]
        exact hold
      · trivial
      · trivial
      · exact reports_fits hold hb (legible_trigger hlegible hk hb) (Batch.report_ops htask hop)

/-- STEP: the loop works with tasks as they are stored. -/
theorem Legibility.step_loop (hs : s.Legibility) (h : s.step m = some s') :
    ∀ t ∈ s'.loop.tasks, s'.current t = true := by
  intro t ht
  refine hs.step_current h ?_
  have hloop := hs.loop
  have hturns := Scheduler.step_loop h
  generalize s'.loop = l at hturns ht
  cases hturns with
  | same => exact hloop t ht
  | ended | restarted => cases ht
  | listed => exact hs.current_row ht
  | slept ans now t₀ rest hl | rejected ans now t₀ rest hl | stores ans now next t₀ rest hl =>
    exact hloop t (by rw [hl]; exact List.mem_cons_of_mem _ ht)
  | fires ans now due next t₀ rest hl => exact hloop t (by rw [hl]; exact ht)
  | stored ok now id' next rest hl => exact hloop t (by rw [hl]; exact ht)
  | unstored now t₀ due next rest hl | advanced now t₀ due next rest hl =>
    exact hloop t (by rw [hl]; exact List.mem_cons_of_mem _ ht)
  | returned now k rest hl => exact hloop t (by rw [hl]; exact ht)

theorem Legibility.after (hs : s.Legibility) (hcalls : s.lifecycle m = true)
    (hlegible : s.legible m = true) (h : s.step m = some s') : s'.Legibility where
  keyed := step_keyed h hs.keyed
  rows := hs.step_rows h
  threads := hs.step_threads hcalls hlegible h
  loop := hs.step_loop h

/-- INVARIANT: of every scheduler a process reaches with legible marks. -/
theorem reaches_legibility {db : Db} (hdb : db.Keyed)
    (hreach : Machine.ReachesBy step (fun s m => s.lifecycle m = true ∧ s.legible m = true)
      (start db) s) : s.Legibility := by
  refine hreach.invariant (fun s m s' hs hm h => hs.after hm.1 hm.2 h) ⟨hdb, ?_, ?_, ?_⟩
  · intro id t ht _
    have ht : db.getTimerTask id = some t := ht
    simp only [start, ht]
    split
    · next heq => simp [Cause.runnerMissing, heq]
    · next hne => simp [Cause.runnerMissing, hne]
  · intro th hth
    cases hth
  · intro t ht
    cases ht

/-! ### The recovery of a runner -/

theorem missing_iff {r : String} {e : Bool} : s.missing id r e = true ↔
    (∃ t, s.row id = some t ∧ t.state = .dependencyMissing ∧ t.runnerId = r ∧ t.enabled = e) ∧
      (s.causes id).runnerMissing = true := by
  unfold missing
  cases hrow : s.row id <;> simp [and_assoc]

theorem back_iff {e : Bool} : s.back id e = true ↔
    ∃ t, s.row id = some t ∧ t.state = .active ∧ t.enabled = e := by
  unfold back
  cases hrow : s.row id <;> simp

end Scheduler

/-- STEP: the row of a task in `DependencyMissing` goes back to `Active` or stays, whatever happens
    to it short of a stop, a resume or an edit. -/
theorem Op.rowAfter_missing {op : Op} {ans : Answer} {id : String} {why : Cause} {t : Task}
    (hs : t.state = .dependencyMissing) (hop : op.displaces id why = false) :
    ∃ t', op.rowAfter ans id (some t) = some t' ∧ t'.runnerId = t.runnerId ∧
      t'.enabled = t.enabled ∧ (t'.state = .dependencyMissing ∨ t'.state = .active) := by
  have hsame : ∃ t', some t = some t' ∧ t'.runnerId = t.runnerId ∧ t'.enabled = t.enabled ∧
      (t'.state = .dependencyMissing ∨ t'.state = .active) := ⟨t, rfl, rfl, rfl, Or.inl hs⟩
  have hupdate : ∀ {id' : String} {f : Task → Task}, (f t).runnerId = t.runnerId →
      (f t).enabled = t.enabled → ((f t).state = .dependencyMissing ∨ (f t).state = .active) →
      ∃ t', (if id' = id then (some t).map f else some t) = some t' ∧ t'.runnerId = t.runnerId ∧
        t'.enabled = t.enabled ∧ (t'.state = .dependencyMissing ∨ t'.state = .active) := by
    intro id' f hr he hstate
    split
    · exact ⟨f t, rfl, hr, he, hstate⟩
    · exact hsame
  cases hdb : ans.db with
  | false => simpa only [Op.rowAfter, hdb, Bool.not_false, if_true] using hsame
  | true =>
    unfold Op.rowAfter
    simp only [hdb, Bool.not_true, Bool.false_eq_true, if_false]
    cases op with
    | markMissing t₀ due reason | markMissingNow t₀ reason => exact hupdate rfl rfl (Or.inl rfl)
    | result | missingResult | resumeWakeup | setWakeup => exact hupdate rfl rfl (Or.inl hs)
    | cancelWrite id' | suspendTask id' reason | resumeWrite id' next | deleteTask id' =>
      have hne : id' ≠ id := by simpa [Op.displaces] using hop
      simpa only [if_neg hne] using hsame
    | saveTask t₀ =>
      have hne : t₀.id ≠ id := by simpa [Op.displaces] using hop
      simpa only [if_neg hne] using hsame
    | suspendEach ts =>
      cases ts with
      | nil => exact hsame
      | cons t₀ ts =>
        have hne : t₀.id ≠ id := by simpa [Op.displaces] using hop
        simpa only [if_neg hne] using hsame
    | suspendMissing r =>
      have hne : ¬(t.runnerId = r ∧ t.state = .active ∧ t.enabled = true) := by simp [hs]
      simpa only [Option.map_some, if_neg hne] using hsame
    | resumeEach r ts =>
      cases ts with
      | nil => exact hsame
      | cons t₀ ts =>
        cases hnext : ans.next with
        | error e => exact hsame
        | ok next =>
          refine hupdate ?_ ?_ ?_
          all_goals split
          · rfl
          · rfl
          · rfl
          · rfl
          · exact Or.inr rfl
          · exact Or.inl hs
    | _ => exact hsame

theorem Op.displaces_of_marks {op : Op} {ans : Answer} {id : String}
    (h : op.marks ans = some id) (why : Cause) : op.displaces id why = !why.runnerMissing := by
  cases op with
  | markMissing t due reason | markMissingNow t reason =>
    have hid : t.id = id := by
      simp only [Op.marks] at h
      split at h
      · exact Option.some.inj h
      · cases h
    simp [Op.displaces, hid]
  | _ => cases h

namespace Scheduler
variable {s s' : Scheduler} {m : Move} {id r : String} {e : Bool}

/-- What a move asks of the database displaces the task only if the call it answers does. -/
theorem request_displaces {op : Op} {ans : Answer} (h : s.request m = some (op, ans))
    (hm : (s.marking m).all (fun x => !x.1.displaces id x.2) = true) :
    ∃ why, op.displaces id why = false := by
  cases m with
  | answer k a =>
    simp only [request] at h
    simp only [marking] at hm
    split at h
    · next op' why hk =>
      cases h
      rw [hk] at hm
      exact ⟨why, by simpa using hm⟩
    · cases h; exact ⟨.gone, rfl⟩
    · cases h
  | write ok =>
    simp only [request] at h
    split at h <;> cases h <;> exact ⟨.gone, rfl⟩
  | _ => cases h

/-- STEP: the cause stays that the runner is missing. -/
theorem causeAfter_missing (hcause : (s.causes id).runnerMissing = true)
    (hm : (s.marking m).all (fun x => !x.1.displaces id x.2) = true) :
    (s.causeAfter id m).runnerMissing = true := by
  cases m with
  | answer k ans =>
    simp only [marking] at hm
    simp only [causeAfter]
    split
    · next op why hk =>
      rw [hk] at hm
      split
      · next hmarks =>
        have hop : op.displaces id why = false := by simpa using hm
        rw [Op.displaces_of_marks hmarks] at hop
        simpa using hop
      · exact hcause
    · split
      · rfl
      · exact hcause
    · exact hcause
  | _ => exact hcause

/-- STEP: a task missing its runner is back, or still missing it. -/
theorem step_missing (hmissing : s.missing id r e = true)
    (hm : (s.marking m).all (fun x => !x.1.displaces id x.2) = true) (h : s.step m = some s') :
    s'.back id e = true ∨ s'.missing id r e = true := by
  obtain ⟨⟨t, hrow, hstate, hr, he⟩, hcause⟩ := missing_iff.mp hmissing
  have hrows : ∃ t', s'.row id = some t' ∧ t'.runnerId = t.runnerId ∧ t'.enabled = t.enabled ∧
      (t'.state = .dependencyMissing ∨ t'.state = .active) := by
    rw [step_row h id]
    cases hreq : s.request m with
    | none => exact ⟨t, hrow, rfl, rfl, Or.inl hstate⟩
    | some req =>
      obtain ⟨why, hop⟩ := request_displaces hreq hm
      rw [hrow]
      exact Op.rowAfter_missing hstate hop
  obtain ⟨t', hrow', hr', he', hstate' | hstate'⟩ := hrows
  · refine Or.inr (missing_iff.mpr ⟨⟨t', hrow', hstate', hr'.trans hr, he'.trans he⟩, ?_⟩)
    rw [step_causes h id]
    exact causeAfter_missing hcause hm
  · exact Or.inl (back_iff.mpr ⟨t', hrow', hstate', he'.trans he⟩)

/-- The recovery of the runner will still come to the task, or has failed. -/
def Recovering (id r : String) : Thread → Prop
  | .running (.resumeMissing r') _ => r' = r
  | .running (.resumeEach r' ts) _ => r' = r ∧ ∃ t ∈ ts, t.id = id
  | .returned => True
  | _ => False

/-- STEP: the recovery brings the task back, or will still come to it. -/
theorem Legibility.recovering (hs : s.Legibility) (hmissing : s.missing id r e = true)
    (hm : s.undisturbed id m = true) {k : Nat} {old : Thread} {next : Thread × List Thread}
    (hmk : m.thread = some k) (hk : s.threads[k]? = some old) (hgoes : s.Goes m old next)
    (hold : Recovering id r old) (h : s.step m = some s') :
    s'.back id e = true ∨ Recovering id r next.1 := by
  obtain ⟨⟨t, hrow, hstate, hr, he⟩, hcause⟩ := missing_iff.mp hmissing
  cases hgoes with
  | unregistered | ended | triggered => cases hold
  | @answered k' ans op why =>
    obtain rfl := Option.some.inj hmk
    cases op with
    | resumeMissing r' =>
      obtain rfl : r' = r := hold
      have hreason := (hs.rows id t hrow hstate).mp hcause
      have hlisted : t ∈ s.core.db.listTimerTasksMissingRunner r' := by
        refine List.mem_filter.mpr ⟨Table.mem_values_of_get hrow, ?_⟩
        simp [hr, hstate, hreason]
      simp only [Op.step]
      split
      · exact Or.inr ⟨rfl, t, hlisted, hs.keyed id t hrow⟩
      · exact Or.inr trivial
    | resumeEach r' ts =>
      obtain ⟨rfl, t₀, ht₀, hid⟩ := hold
      cases ts with
      | nil => cases ht₀
      | cons t₁ ts =>
        have haccepted : t₁.id ≠ id ∨ ans.next.toOption.isSome = true := by
          have hlast := (Bool.and_eq_true_iff.mp hm).2
          simpa [recovers, hk] using hlast
        by_cases hhead : t₁.id = id
        · cases hnext : ans.next with
          | error err => simp [hhead, hnext, Except.toOption] at haccepted
          | ok cursor =>
            cases hdb : ans.db with
            | false =>
              simp only [Op.step, supported, hnext, hdb]
              exact Or.inr trivial
            | true =>
              refine Or.inl (back_iff.mpr ?_)
              have hreason := (hs.rows id t hrow hstate).mp hcause
              rw [step_row h id, hrow]
              simp only [request, hk, supported]
              simp [Op.rowAfter, hnext, hdb, hhead, hstate, hreason, hr, he]
        · have hlater : Recovering id r' (.running (.resumeEach r' ts) why) := by
            refine ⟨rfl, t₀, ?_, hid⟩
            rcases List.mem_cons.mp ht₀ with rfl | ht₀
            · exact absurd hid hhead
            · exact ht₀
          refine Or.inr ?_
          cases hnext : ans.next with
          | error err => simp only [Op.step, supported, hnext]; exact hlater
          | ok cursor =>
            cases hdb : ans.db with
            | false => simp only [Op.step, supported, hnext, hdb]; trivial
            | true => simp only [Op.step, supported, hnext, hdb, if_true]; exact hlater
    | _ => cases hold

/-- INVARIANT: until the recovery of thread `k` brings the task back. -/
structure Awaited (id r : String) (e : Bool) (k : Nat) (s : Scheduler) : Prop
    extends s.Legibility where
  missing : s.missing id r e = true
  thread : ∃ th, s.threads[k]? = some th ∧ Recovering id r th

theorem Awaited.after {k : Nat} (ha : s.Awaited id r e k) (hcalls : s.lifecycle m = true)
    (hlegible : s.legible m = true) (hm : s.undisturbed id m = true) (h : s.step m = some s') :
    s'.back id e = true ∨ s'.Awaited id r e k := by
  obtain ⟨hs, hmissing, th, hk, hth⟩ := ha
  have hmarks : (s.marking m).all (fun x => !x.1.displaces id x.2) = true :=
    (Bool.and_eq_true_iff.mp (Bool.and_eq_true_iff.mp hm).1).2
  have hlt : k < s.threads.length := (List.getElem?_eq_some_iff.mp hk).1
  have hthread : s'.back id e = true ∨ ∃ th, s'.threads[k]? = some th ∧ Recovering id r th := by
    have hchanges := step_threads h
    generalize s'.threads = ths at hchanges
    cases hchanges with
    | same => exact Or.inr ⟨th, hk, hth⟩
    | begun => exact Or.inr ⟨th, by rw [List.getElem?_append_left hlt]; exact hk, hth⟩
    | cleared heq => subst heq; simp [undisturbed] at hm
    | @gone k' old next hmk hk' hgoes =>
      have hlen : k < (s.threads.set k' next.1).length := by simpa using hlt
      rw [List.getElem?_append_left hlen]
      by_cases heq : k' = k
      · subst heq
        obtain rfl : old = th := Option.some.inj (hk'.symm.trans hk)
        rcases hs.recovering hmissing hm hmk hk hgoes hth h with hback | hnext
        · exact Or.inl hback
        · exact Or.inr ⟨next.1, List.getElem?_set_self hlt, hnext⟩
      · exact Or.inr ⟨th, by rw [List.getElem?_set_ne heq]; exact hk, hth⟩
  rcases step_missing hmissing hmarks h with hback | hmissing'
  · exact Or.inl hback
  · rcases hthread with hback | hthread
    · exact Or.inl hback
    · exact Or.inr ⟨hs.after hcalls hlegible h, hmissing', hthread⟩

/-- STEP: what a recovery resumes was missing the runner that came back, and nothing else. -/
theorem Legibility.resumes (hs : s.Legibility) {t₀ : Task} {ans : Answer}
    (hrec : s.recovers m = some (r, t₀, ans)) (h : s.step m = some s') {t t' : Task}
    (ht : s.row id = some t) (ht' : s'.row id = some t') (hfrom : t.state ≠ .active)
    (hto : t'.state = .active) : s.missing id r t.enabled = true ∧ t'.enabled = t.enabled := by
  cases m with
  | answer k a =>
    simp only [recovers] at hrec
    split at hrec
    · next r' t₁ ts why hk =>
      cases hrec
      rw [step_row h id, ht] at ht'
      simp only [request, hk, supported] at ht'
      obtain ⟨hr, hcurrent⟩ := hs.threads _ (List.mem_of_getElem? hk) t₀ (List.mem_cons_self ..)
      -- the only edit of this request that leaves the row active
      rcases Op.rowAfter_edit ht' with ⟨hop, _⟩ | ⟨t₁, ht₁, hedit⟩
      · cases hop
      · cases ht₁
        cases hedit with
        | same | labelled => exact absurd hto hfrom
        | restored r t₁ ts next t hid hnext hstate hreason =>
          have hrunner : t.runnerId = r := (current_iff.mp hcurrent t (hid ▸ ht)).trans hr
          refine ⟨missing_iff.mpr ⟨⟨t, ht, hstate, hrunner, rfl⟩, ?_⟩, rfl⟩
          rw [hs.rows id t ht hstate, hrunner]
          exact hreason
    · cases hrec
  | _ => cases hrec

/-- RUN: the recovery of a runner brings every task back that is missing it. -/
theorem Legibility.recovered (hs : s.Legibility) (hmissing : s.missing id r e = true) {o : String}
    {s₁ s₂ : Scheduler} {ms : List Move} (hstep : step s (.register r o) = some s₁)
    (hspawned : s.threads.length < s₁.threads.length)
    (hmoves : Machine.Along step (fun s m => (s.lifecycle m = true ∧ s.legible m = true) ∧
      s.undisturbed id m = true) s₁ ms) (hrun : Machine.exec step s₁ ms = some s₂)
    (hdone : s₂.recovered s.threads.length r = true) :
    Machine.Sometime step (fun s => s.back id e = true) s₁ ms := by
  have hbegun : s₁.threads = s.threads ++ [.running (.resumeMissing r) .runner] := by
    have hchanges := Scheduler.step_threads hstep
    generalize s₁.threads = ths at hchanges hspawned
    cases hchanges with
    | same => exact absurd hspawned (Nat.lt_irrefl _)
    | begun hbegins => cases hbegins; rfl
    | gone hm => cases hm
    | cleared hm => cases hm
  have hmissing₁ : s₁.missing id r e = true := by
    rcases step_missing hmissing rfl hstep with hback | hmissing₁
    · obtain ⟨t, ht, hactive, _⟩ := back_iff.mp hback
      obtain ⟨⟨t₀, ht₀, hstate, _⟩, _⟩ := missing_iff.mp hmissing
      rw [step_row hstep id] at ht
      obtain rfl : t₀ = t := Option.some.inj (ht₀.symm.trans ht)
      rw [hstate] at hactive
      cases hactive
    · exact hmissing₁
  have hthread : s₁.threads[s.threads.length]? = some (.running (.resumeMissing r) .runner) := by
    rw [hbegun]
    exact List.getElem?_concat_length
  have hstart : s₁.Awaited id r e s.threads.length :=
    ⟨hs.after rfl rfl hstep, hmissing₁, _, hthread, rfl⟩
  rcases Machine.sometime_or_invariant (fun s m s' ha hm h => ha.after hm.1.1 hm.1.2 hm.2 h)
    hrun hmoves hstart with hback | hend
  · exact hback
  · obtain ⟨th, hth, hrecovering⟩ := hend.thread
    unfold Scheduler.recovered at hdone
    rw [hth] at hdone
    split at hdone
    · next heq =>
      cases heq
      obtain ⟨_, t, ht, _⟩ := hrecovering
      cases ht
    · cases hdone

/-- In every run whose marks are legible, a registration of a runner that succeeds brings back every
    task that was missing it, with `enabled` unchanged, and resumes nothing else. -/
theorem runner_recovery {db : Db} (hdb : db.Keyed)
    (hreach : Machine.ReachesBy step (fun s m => s.lifecycle m = true ∧ s.legible m = true)
      (start db) s) :
    (∀ (id r o : String) (e : Bool) (s₁ s₂ : Scheduler) (ms : List Move),
      s.missing id r e = true → step s (.register r o) = some s₁ →
      s.threads.length < s₁.threads.length →
      Machine.Along step (fun s m => (s.lifecycle m = true ∧ s.legible m = true) ∧
        s.undisturbed id m = true) s₁ ms → Machine.exec step s₁ ms = some s₂ →
      s₂.recovered s.threads.length r = true →
      Machine.Sometime step (fun s => s.back id e = true) s₁ ms) ∧
    ∀ (id r : String) (m : Move) (s' : Scheduler) (t₀ t t' : Task) (ans : Answer),
      s.recovers m = some (r, t₀, ans) → step s m = some s' → s.row id = some t →
      s'.row id = some t' → t.state ≠ .active → t'.state = .active →
      s.missing id r t.enabled = true ∧ t'.enabled = t.enabled := by
  have hs := reaches_legibility hdb hreach
  exact ⟨fun _ _ _ _ _ _ _ hmissing hstep hspawned hmoves hrun hdone =>
      hs.recovered hmissing hstep hspawned hmoves hrun hdone,
    fun _ _ _ _ _ _ _ _ hrec hstep ht ht' hfrom hto => hs.resumes hrec hstep ht ht' hfrom hto⟩

/-- The runner comes and goes, and the task is marked by the suspension of its runner's tasks. -/
def goneRun : List Move :=
  [.register "script" "scripts", .answer 0 granted, .answer 0 granted, .unregister "scripts",
   .answer 1 granted]

/-- The recovery of the third call in flight lists the tasks and comes to the first. -/
def recoveryRun : List Move := [.answer 2 granted, .answer 2 granted]

theorem runner_recovery_gone : ∃ s s₁,
    Machine.exec step (start (wakingDb none)) goneRun = some s ∧
    s.missing "a" "script" true = true ∧ step s (.register "script" "scripts") = some s₁ ∧
    Machine.Sometime step (fun s => s.back "a" true = true) s₁ recoveryRun := by
  have hgone : ∃ s, Machine.exec step (start (wakingDb none)) goneRun = some s ∧
      s.missing "a" "script" true = true ∧
      (step s (.register "script" "scripts")).any (fun s₁ =>
        s.threads.length < s₁.threads.length &&
        decide (Machine.Along step (fun s m => (s.lifecycle m = true ∧ s.legible m = true) ∧
          s.undisturbed "a" m = true) s₁ recoveryRun) &&
        (Machine.exec step s₁ recoveryRun).any fun s₂ => s₂.recovered s.threads.length "script") =
      true := Machine.exec_eval (by decide +kernel)
  have hlegible : Machine.Along step (fun s m => s.lifecycle m = true ∧ s.legible m = true)
      (start (wakingDb none)) goneRun := by decide +kernel
  obtain ⟨s, hrun, hmissing, hany⟩ := hgone
  obtain ⟨s₁, hstep, hall⟩ := (Option.any_eq_true _ _).mp hany
  simp only [Bool.and_eq_true, decide_eq_true_eq] at hall
  obtain ⟨⟨hspawned, hmoves⟩, hdone⟩ := hall
  obtain ⟨s₂, hrun₂, hdone⟩ := (Option.any_eq_true _ _).mp hdone
  exact ⟨s, s₁, hrun, hmissing, hstep, (runner_recovery (wakingDb_keyed none)
    ⟨_, hrun, hlegible⟩).1 "a" "script" "scripts" true s₁ s₂ recoveryRun hmissing hstep hspawned
    hmoves hrun₂ hdone⟩

/-- The runner goes between the check of a submission and its start. -/
def unavailableRun : List Move :=
  [.register "script" "scripts", .answer 0 granted, .answer 0 granted,
   .call (.submitNow { phoneTask [] with id := "a" }), .answer 1 granted, .unregister "scripts",
   .trigger 1 .read "run-1", .answer 1 granted]

theorem unavailable_task_is_not_recovered :
    ¬ ∀ (db : Db) (s s₁ s₂ : Scheduler) (id r o : String) (e : Bool) (ms : List Move), db.Keyed →
      Machine.ReachesBy step (fun s m => s.lifecycle m = true) (start db) s →
      s.missing id r e = true → step s (.register r o) = some s₁ →
      s.threads.length < s₁.threads.length →
      Machine.Along step (fun s m => s.lifecycle m = true ∧ s.undisturbed id m = true) s₁ ms →
      Machine.exec step s₁ ms = some s₂ → s₂.recovered s.threads.length r = true →
      Machine.Sometime step (fun s => s.back id e = true) s₁ ms := by
  intro hall
  have hmarked : ∃ s, Machine.exec step (start (wakingDb none)) unavailableRun = some s ∧
      s.missing "a" "script" true = true ∧
      (step s (.register "script" "scripts")).any (fun s₁ =>
        s.threads.length < s₁.threads.length &&
        decide (Machine.Along step (fun s m => s.lifecycle m = true ∧ s.undisturbed "a" m = true)
          s₁ [.answer 4 granted]) &&
        decide (¬ Machine.Sometime step (fun s => s.back "a" true = true) s₁ [.answer 4 granted]) &&
        (Machine.exec step s₁ [.answer 4 granted]).any fun s₂ =>
          s₂.recovered s.threads.length "script") = true := Machine.exec_eval (by decide +kernel)
  have hcalls : Machine.Along step (fun s m => s.lifecycle m = true) (start (wakingDb none))
      unavailableRun := by decide +kernel
  obtain ⟨s, hrun, hmissing, hany⟩ := hmarked
  obtain ⟨s₁, hstep, htests⟩ := (Option.any_eq_true _ _).mp hany
  simp only [Bool.and_eq_true, decide_eq_true_eq] at htests
  obtain ⟨⟨⟨hspawned, hmoves⟩, hnever⟩, hdone⟩ := htests
  obtain ⟨s₂, hrun₂, hdone⟩ := (Option.any_eq_true _ _).mp hdone
  exact hnever (hall (wakingDb none) s s₁ s₂ "a" "script" "scripts" true _ (wakingDb_keyed none)
    ⟨_, hrun, hcalls⟩ hmissing hstep hspawned hmoves hrun₂ hdone)

end Scheduler

end Gamer.Timer
