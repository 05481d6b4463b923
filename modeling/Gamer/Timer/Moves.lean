import Gamer.Timer.Scheduler

/-! What a move does, said once. The database sees at most one request of it, which is the request
    of some call's step; of the threads it changes at most one, or adds one:

        move ──request──▶ (op, answer) ─┬─▶ Leads            what is left of the call
                                        ├─▶ Op.rowAfter      the row of a task
                                        └─▶ Op.claims, Kept  the record of an occurrence
        move ──Changes──▶ one thread goes on, and what it leaves behind
        move ──Turns────▶ the run loop -/

namespace Gamer.Timer
open Gamer.Lib Gamer.Core

/-! ### What is left of a call -/

/-- The step of a call, by what is left of it afterwards. -/
inductive Leads (ans : Answer) (c : Core) : Op → Op → Prop
  | claimed (t : Task) (due : Int) (hdb : ans.db = true)
      (hwin : c.db.scheduled.get (t.id, due) = none) :
      Leads ans c (.dispatch t (some due)) (.route t (some due))
  | unscheduled (t : Task) : Leads ans c (.dispatch t none) (.route t none)
  | unsupported (t : Task) (due : Option Int) (h : ans.supports = false) :
      Leads ans c (.route t due) (.markMissing t due (missingDependency t.runnerId))
  | triggered (t : Task) (due : Option Int) (path : Path) (h : ans.supports = true) :
      Leads ans c (.route t due) (.trigger (.new t path) due)
  | stays (b : Batch) (due : Option Int) : Leads ans c (.trigger b due) (.trigger b due)
  | marked (t : Task) (due : Option Int) (reason : String) :
      Leads ans c (.markMissing t due reason) (.finishRejected t due "failed")
  | rejected (t : Task) (due : Option Int) (state label : String) :
      Leads ans c (.finishRejected t due state) (.result t.id label)
  | completed (t : Task) (due : Option Int) (runId : String) (outcome : TimerOutcome) :
      Leads ans c (.completed t due runId outcome) (.result t.id (completionLabels outcome).2)
  | unsupportedNow (t : Task) (h : ans.supports = false) :
      Leads ans c (.submitNow t) (.markMissingNow t (missingDependency t.runnerId))
  | triggeredNow (t : Task) (path : Path) (h : ans.supports = true) :
      Leads ans c (.submitNow t) (.trigger (.new t path) none)
  | markedNow (t : Task) (reason : String) :
      Leads ans c (.markMissingNow t reason) (.missingResult t reason)
  | missing (t : Task) (reason : String) :
      Leads ans c (.missingResult t reason) (.finishRejected t none "failed")
  | cancelling (id runId : String) : Leads ans c (.cancelTask id) (.cancelRun id runId)
  | idle (id : String) : Leads ans c (.cancelTask id) (.cancelWrite id)
  | cancelled (id runId : String) : Leads ans c (.cancelRun id runId) (.cancelWrite id)
  | read (id : String) (t : Task) (next : Option Int) (hrow : c.db.getTimerTask id = some t)
      (hnext : ans.next = .ok next) : Leads ans c (.resumeTask id) (.resumeWrite id next)
  | resumed (id : String) (next : Option Int) (hdb : ans.db = true) :
      Leads ans c (.resumeWrite id next) (.resumeWakeup id next)
  | affected (package : String) (ts : List Task) :
      Leads ans c (.uninstalled package) (.suspendEach ts)
  | suspended (t : Task) (ts : List Task) : Leads ans c (.suspendEach (t :: ts)) (.suspendEach ts)
  | listed (r : String) :
      Leads ans c (.resumeMissing r) (.resumeEach r (c.db.listTimerTasksMissingRunner r))
  | refused (r : String) (t : Task) (ts : List Task) (e : String) (hnext : ans.next = .error e) :
      Leads ans c (.resumeEach r (t :: ts)) (.resumeEach r ts)
  | restored (r : String) (t : Task) (ts : List Task) (next : Option Int)
      (hnext : ans.next = .ok next) (hdb : ans.db = true) :
      Leads ans c (.resumeEach r (t :: ts)) (.resumeEach r ts)

/-- INVERSION: what is left of a call after its step. -/
theorem Op.step_leads {op op' : Op} {ans : Answer} {c : Core} (h : op' ∈ (op.step ans c).2) :
    Leads ans c op op' := by
  cases op with
  | dispatch t due =>
    cases due with
    | none => obtain rfl := List.mem_singleton.mp h; exact .unscheduled t
    | some due =>
      simp only [Op.step] at h
      split at h
      · next hdb =>
        unfold Db.claimScheduledRun at h
        split at h
        · next hwin => obtain rfl := List.mem_singleton.mp h; exact .claimed t due hdb hwin
        · cases h
      · cases h
  | route t due =>
    simp only [Op.step] at h
    split at h
    · next hs =>
      obtain rfl := List.mem_singleton.mp h
      exact .unsupported t due (by simpa using hs)
    · next hs =>
      split at h <;> obtain rfl := List.mem_singleton.mp h <;>
        exact .triggered t due _ (by simpa using hs)
  | submitNow t =>
    simp only [Op.step] at h
    split at h
    · next hs =>
      obtain rfl := List.mem_singleton.mp h
      exact .unsupportedNow t (by simpa using hs)
    · next hs =>
      split at h
      · cases h
      · split at h <;> obtain rfl := List.mem_singleton.mp h <;>
          exact .triggeredNow t _ (by simpa using hs)
  | trigger b due => obtain rfl := List.mem_singleton.mp h; exact .stays b due
  | markMissing t due reason => obtain rfl := List.mem_singleton.mp h; exact .marked t due reason
  | finishRejected t due state =>
    cases due <;> obtain rfl := List.mem_singleton.mp h <;> exact .rejected t _ state _
  | completed t due runId outcome =>
    cases due <;> obtain rfl := List.mem_singleton.mp h <;> exact .completed t _ runId outcome
  | markMissingNow t reason =>
    simp only [Op.step] at h
    split at h
    · obtain rfl := List.mem_singleton.mp h; exact .markedNow t reason
    · cases h
  | missingResult t reason =>
    simp only [Op.step] at h
    split at h
    · obtain rfl := List.mem_singleton.mp h; exact .missing t reason
    · cases h
  | cancelTask id =>
    simp only [Op.step] at h
    split at h <;> obtain rfl := List.mem_singleton.mp h
    · exact .cancelling id _
    · exact .idle id
  | cancelRun id runId =>
    simp only [Op.step] at h
    split at h
    · obtain rfl := List.mem_singleton.mp h; exact .cancelled id runId
    · cases h
  | resumeTask id =>
    simp only [Op.step] at h
    split at h
    · next t next hrow hnext =>
      split at h
      · obtain rfl := List.mem_singleton.mp h; exact .read id t next hrow hnext
      · cases h
    · cases h
  | resumeWrite id next =>
    simp only [Op.step] at h
    split at h
    · next hdb => obtain rfl := List.mem_singleton.mp h; exact .resumed id next hdb
    · cases h
  | uninstalled package =>
    simp only [Op.step] at h
    split at h
    · obtain rfl := List.mem_singleton.mp h; exact .affected package _
    · cases h
  | suspendEach ts =>
    cases ts with
    | nil => cases h
    | cons t ts =>
      simp only [Op.step] at h
      split at h
      · obtain rfl := List.mem_singleton.mp h; exact .suspended t ts
      · cases h
  | resumeMissing r =>
    simp only [Op.step] at h
    split at h
    · obtain rfl := List.mem_singleton.mp h; exact .listed r
    · cases h
  | resumeEach r ts =>
    cases ts with
    | nil => cases h
    | cons t ts =>
      simp only [Op.step] at h
      split at h
      · next e hnext => obtain rfl := List.mem_singleton.mp h; exact .refused r t ts e hnext
      · next next hnext =>
        split at h
        · next hdb => obtain rfl := List.mem_singleton.mp h; exact .restored r t ts next hnext hdb
        · cases h
  | attach id due runId | finish id due state | result id label | cancelWrite id => cases h
  | suspendTask id reason | resumeWakeup id next | suspendMissing r | setWakeup id next => cases h
  | saveTask t | deleteTask id => cases h

/-! ### The row of a task -/

/-- The row of `id` after the step of a call, from the row before. -/
def Op.rowAfter (ans : Answer) (id : String) (op : Op) (row : Option Task) : Option Task :=
  let update (id' : String) (f : Task → Task) := if id' = id then row.map f else row
  if !ans.db then row else match op with
  | .markMissing t _ reason | .markMissingNow t reason => update t.id fun t => { t with
      state := .dependencyMissing, suspendReason := some reason, nextWakeup := none }
  | .result id' label => update id' fun t => { t with lastResult := some label }
  | .missingResult t _ => update t.id fun t => { t with lastResult := some "失败" }
  | .cancelWrite id' => update id' fun t => { t with
      state := .cancelled, enabled := false, nextWakeup := none, suspendReason := none }
  | .suspendTask id' reason => update id' fun t => { t with
      state := .suspended, enabled := false, nextWakeup := none, suspendReason := some reason }
  | .suspendEach (t :: _) => update t.id fun t => { t with
      state := .suspended, enabled := false, nextWakeup := none
      suspendReason := some "app package unavailable" }
  | .resumeWrite id' _ => update id' fun t => { t with
      state := .active, enabled := true, nextWakeup := none, suspendReason := none }
  | .resumeWakeup id' next | .setWakeup id' next => update id' fun t => { t with nextWakeup := next }
  | .suspendMissing r => row.map fun t =>
      if t.runnerId = r ∧ t.state = .active ∧ t.enabled then { t with
        state := .dependencyMissing
        suspendReason := some (missingDependency r)
        nextWakeup := none }
      else t
  | .resumeEach r (t :: _) => match ans.next with
    | .error _ => row
    | .ok next => update t.id fun t =>
        if t.state = .dependencyMissing ∧ t.suspendReason = some (missingDependency r) then
          { t with state := .active, suspendReason := none, nextWakeup := next }
        else t
  | .saveTask t => if t.id = id then some t else row
  | .deleteTask id' => if id' = id then none else row
  | _ => row

theorem Db.getTimerTask_updateTask (db : Db) (id id' : String) (f : Task → Task) :
    (db.updateTask id' f).getTimerTask id =
      if id' = id then (db.getTimerTask id).map f else db.getTimerTask id := by
  unfold Db.getTimerTask Db.updateTask
  rw [Table.get_modify]
  by_cases h : id' = id
  · subst h; simp
  · simp [h, Ne.symm h]

/-- A request on the row of one task. -/
theorem Core.getTimerTask_write {c : Core} {ok : Bool} {f : Db → Db} {g : Option Task → Option Task}
    {id : String} (h : (f c.db).getTimerTask id = g (c.db.getTimerTask id)) :
    (c.write ok f).db.getTimerTask id =
      if !ok then c.db.getTimerTask id else g (c.db.getTimerTask id) := by
  cases ok with
  | true => exact h
  | false => rfl

/-- STEP: the row of a task after the step of a call. -/
theorem Op.step_row (op : Op) (ans : Answer) (c : Core) (id : String) :
    (op.step ans c).1.db.getTimerTask id = op.rowAfter ans id (c.db.getTimerTask id) := by
  have hsame : ∀ {row : Option Task}, (if !ans.db then row else row) = row := by simp
  cases op with
  | markMissing t due reason | markMissingNow t reason =>
    exact Core.getTimerTask_write (Db.getTimerTask_updateTask c.db id t.id _)
  | missingResult t reason =>
    exact Core.getTimerTask_write (Db.getTimerTask_updateTask c.db id t.id _)
  | result id' label | cancelWrite id' | suspendTask id' reason | resumeWrite id' next =>
    exact Core.getTimerTask_write (Db.getTimerTask_updateTask c.db id id' _)
  | resumeWakeup id' next | setWakeup id' next =>
    exact Core.getTimerTask_write (Db.getTimerTask_updateTask c.db id id' _)
  | suspendEach ts =>
    cases ts with
    | nil => exact hsame.symm
    | cons t ts => exact Core.getTimerTask_write (Db.getTimerTask_updateTask c.db id t.id _)
  | suspendMissing r =>
    refine Core.getTimerTask_write ?_
    unfold Db.getTimerTask Db.suspendActiveTimerTasksForRunner
    rw [Table.get_map]
  | resumeEach r ts =>
    cases ts with
    | nil => exact hsame.symm
    | cons t ts =>
      cases hnext : ans.next with
      | error e => simpa only [Op.step, Op.rowAfter, hnext] using hsame.symm
      | ok next =>
        simp only [Op.step, Op.rowAfter, hnext]
        exact Core.getTimerTask_write
          (f := fun db => db.resumeTimerTaskFromDependencyMissing t.id r next)
          (g := fun row => if t.id = id then row.map _ else row)
          (Db.getTimerTask_updateTask c.db id t.id _)
  | saveTask t =>
    refine Core.getTimerTask_write (g := fun row => if t.id = id then some t else row) ?_
    unfold Db.getTimerTask Db.upsertTimerTask
    rw [Table.get_set]
    simp [eq_comm]
  | deleteTask id' =>
    refine Core.getTimerTask_write (g := fun row => if id' = id then none else row) ?_
    unfold Db.getTimerTask Db.deleteTimerTask
    rw [Table.get_del]
    simp [eq_comm]
  | dispatch t due =>
    refine Eq.trans ?_ hsame.symm
    cases due with
    | none => rfl
    | some due =>
      simp only [Op.step]
      split
      · unfold Db.claimScheduledRun
        split <;> rfl
      · rfl
  | route t due | submitNow t =>
    refine Eq.trans ?_ hsame.symm
    simp only [Op.step]
    repeat' split
    all_goals rfl
  | finishRejected t due state =>
    refine Eq.trans ?_ hsame.symm
    cases due with
    | none => rfl
    | some due => simp only [Op.step, Core.write]; split <;> rfl
  | completed t due runId outcome =>
    refine Eq.trans ?_ hsame.symm
    cases due with
    | none => rfl
    | some due => simp only [Op.step, Core.write]; split <;> rfl
  | attach id' due runId | finish id' due state =>
    refine Eq.trans ?_ hsame.symm
    simp only [Op.step, Core.write]
    split <;> rfl
  | cancelTask id' | resumeTask id' =>
    refine Eq.trans ?_ hsame.symm
    simp only [Op.step]
    split <;> rfl
  | trigger b due | cancelRun id' runId | uninstalled package | resumeMissing r =>
    exact hsame.symm

/-- What the step of a call may do to a row of `id` that stays: who writes which columns, and what
    the statement asks of the row. -/
inductive Edit (ans : Answer) (id : String) : Op → Task → Task → Prop
  | same (op : Op) (t : Task) : Edit ans id op t t
  | marked (t₀ : Task) (due : Option Int) (reason : String) (t : Task) (h : t₀.id = id) :
      Edit ans id (.markMissing t₀ due reason) t { t with
        state := .dependencyMissing, suspendReason := some reason, nextWakeup := none }
  | markedNow (t₀ : Task) (reason : String) (t : Task) (h : t₀.id = id) :
      Edit ans id (.markMissingNow t₀ reason) t { t with
        state := .dependencyMissing, suspendReason := some reason, nextWakeup := none }
  | labelled (op : Op) (label : String) (t : Task) :
      Edit ans id op t { t with lastResult := some label }
  | cancelled (t : Task) : Edit ans id (.cancelWrite id) t { t with
      state := .cancelled, enabled := false, nextWakeup := none, suspendReason := none }
  | suspended (reason : String) (t : Task) : Edit ans id (.suspendTask id reason) t { t with
      state := .suspended, enabled := false, nextWakeup := none, suspendReason := some reason }
  | uninstalled (t₀ : Task) (ts : List Task) (t : Task) (h : t₀.id = id) :
      Edit ans id (.suspendEach (t₀ :: ts)) t { t with
        state := .suspended, enabled := false, nextWakeup := none
        suspendReason := some "app package unavailable" }
  | resumed (next : Option Int) (t : Task) : Edit ans id (.resumeWrite id next) t { t with
      state := .active, enabled := true, nextWakeup := none, suspendReason := none }
  | woken (next : Option Int) (t : Task) :
      Edit ans id (.resumeWakeup id next) t { t with nextWakeup := next }
  | stored (next : Option Int) (t : Task) :
      Edit ans id (.setWakeup id next) t { t with nextWakeup := next }
  | gone (r : String) (t : Task) (hr : t.runnerId = r) (hs : t.isSchedulable = true) :
      Edit ans id (.suspendMissing r) t { t with
        state := .dependencyMissing
        suspendReason := some (missingDependency r)
        nextWakeup := none }
  | restored (r : String) (t₀ : Task) (ts : List Task) (next : Option Int) (t : Task)
      (h : t₀.id = id) (hnext : ans.next = .ok next) (hs : t.state = .dependencyMissing)
      (hreason : t.suspendReason = some (missingDependency r)) :
      Edit ans id (.resumeEach r (t₀ :: ts)) t { t with
        state := .active, suspendReason := none, nextWakeup := next }

/-- INVERSION: a row after a step is the task it saves, or an edit of the row before. -/
theorem Op.rowAfter_edit {op : Op} {ans : Answer} {id : String} {row : Option Task} {t' : Task}
    (h : op.rowAfter ans id row = some t') :
    (op = .saveTask t' ∧ t'.id = id) ∨ ∃ t, row = some t ∧ Edit ans id op t t' := by
  cases hdb : ans.db with
  | false =>
    simp only [Op.rowAfter, hdb, Bool.not_false, if_true] at h
    exact Or.inr ⟨t', h, .same op t'⟩
  | true =>
    -- an update of the row by `f`, or of another row
    have hupdate : ∀ {id' : String} {f : Task → Task},
        (if id' = id then row.map f else row) = some t' →
        (∀ t, id' = id → Edit ans id op t (f t)) → ∃ t, row = some t ∧ Edit ans id op t t' := by
      intro id' f h hf
      split at h
      · next heq =>
        obtain ⟨t, ht, rfl⟩ := Option.map_eq_some_iff.mp h
        exact ⟨t, ht, hf t heq⟩
      · exact ⟨t', h, .same op t'⟩
    unfold Op.rowAfter at h
    simp only [hdb, Bool.not_true, Bool.false_eq_true, if_false] at h
    cases op with
    | markMissing t₀ due reason => exact Or.inr (hupdate h fun t => .marked t₀ due reason t)
    | markMissingNow t₀ reason => exact Or.inr (hupdate h fun t => .markedNow t₀ reason t)
    | result id' label => exact Or.inr (hupdate h fun t _ => .labelled _ label t)
    | missingResult t₀ reason => exact Or.inr (hupdate h fun t _ => .labelled _ _ t)
    | cancelWrite id' => exact Or.inr (hupdate h fun t heq => by subst heq; exact .cancelled t)
    | suspendTask id' reason =>
      exact Or.inr (hupdate h fun t heq => by subst heq; exact .suspended reason t)
    | suspendEach ts =>
      cases ts with
      | nil => exact Or.inr ⟨t', h, .same _ t'⟩
      | cons t₀ ts => exact Or.inr (hupdate h fun t => .uninstalled t₀ ts t)
    | resumeWrite id' next =>
      exact Or.inr (hupdate h fun t heq => by subst heq; exact .resumed next t)
    | resumeWakeup id' next =>
      exact Or.inr (hupdate h fun t heq => by subst heq; exact .woken next t)
    | setWakeup id' next =>
      exact Or.inr (hupdate h fun t heq => by subst heq; exact .stored next t)
    | suspendMissing r =>
      obtain ⟨t, ht, rfl⟩ := Option.map_eq_some_iff.mp h
      refine Or.inr ⟨t, ht, ?_⟩
      split
      · next hactive =>
        exact .gone r t hactive.1 (by simp [Task.isSchedulable, hactive.2.1, hactive.2.2])
      · exact .same _ t
    | resumeEach r ts =>
      cases ts with
      | nil => exact Or.inr ⟨t', h, .same _ t'⟩
      | cons t₀ ts =>
        cases hnext : ans.next with
        | error e =>
          simp only [hnext] at h
          exact Or.inr ⟨t', h, .same _ t'⟩
        | ok next =>
          simp only [hnext] at h
          refine Or.inr (hupdate h fun t heq => ?_)
          split
          · next hmissing => exact .restored r t₀ ts next t heq hnext hmissing.1 hmissing.2
          · exact .same _ t
    | saveTask t =>
      dsimp only at h
      split at h
      · next heq => cases h; exact Or.inl ⟨rfl, heq⟩
      · exact Or.inr ⟨t', h, .same _ t'⟩
    | deleteTask id' =>
      dsimp only at h
      split at h
      · cases h
      · exact Or.inr ⟨t', h, .same _ t'⟩
    | _ => exact Or.inr ⟨t', h, .same _ t'⟩

/-- FRAME: no edit touches what the task is. -/
theorem Edit.frame {ans : Answer} {id : String} {op : Op} {t t' : Task} (h : Edit ans id op t t') :
    t'.id = t.id ∧ t'.runnerId = t.runnerId ∧ t'.schedule = t.schedule := by
  cases h <;> exact ⟨rfl, rfl, rfl⟩

/-- Every row is stored under the task's id, its primary key. -/
def Db.Keyed (db : Db) : Prop := ∀ id t, db.getTimerTask id = some t → t.id = id

theorem Db.Keyed.of_list {db : Db} (h : db.Keyed) {t : Task} (ht : t ∈ db.listTimerTasks) :
    db.getTimerTask t.id = some t := by
  obtain ⟨id, hid⟩ := Table.get_of_mem_values ht
  have heq : t.id = id := h id t hid
  rw [heq]
  exact hid

/-- INVARIANT: every step files the rows under their ids. -/
theorem Db.Keyed.step {c : Core} (h : c.db.Keyed) (op : Op) (ans : Answer) :
    (op.step ans c).1.db.Keyed := by
  intro id t ht
  rw [op.step_row ans c id] at ht
  rcases Op.rowAfter_edit ht with ⟨_, heq⟩ | ⟨t₀, ht₀, hedit⟩
  · exact heq
  · exact hedit.frame.1.trans (h id t₀ ht₀)

/-! ### The record of an occurrence -/

/-- The occurrence the step claims. -/
def Op.claims (ans : Answer) (c : Core) : Op → Option (String × Int)
  | .dispatch t (some due) =>
    if ans.db ∧ c.db.scheduled.get (t.id, due) = none then some (t.id, due) else none
  | _ => none

/-- What a request other than the claim may do to a record: nothing once it has left `running`. -/
inductive Kept : Option ScheduledRun → Option ScheduledRun → Prop
  | same (r : Option ScheduledRun) : Kept r r
  | updated (r r' : ScheduledRun) (h : r.state = "running") : Kept (some r) (some r')

theorem Db.updateRunning_kept (db : Db) (key : String × Int) (id : String) (due : Int)
    (f : ScheduledRun → ScheduledRun) :
    Kept (db.scheduled.get key) ((db.updateRunning id due f).scheduled.get key) := by
  unfold Db.updateRunning
  rw [Table.get_modify]
  by_cases hkey : key = (id, due)
  · subst hkey
    rw [if_pos rfl]
    cases hr : db.scheduled.get (id, due) with
    | none => exact .same none
    | some r =>
      by_cases hrun : r.state = "running"
      · exact .updated r _ hrun
      · rw [Option.map_some, if_neg hrun]
        exact .same (some r)
  · rw [if_neg hkey]
    exact .same _

theorem Core.write_kept {c : Core} {ok : Bool} {f : Db → Db} {key : String × Int}
    (h : Kept (c.db.scheduled.get key) ((f c.db).scheduled.get key)) :
    Kept (c.db.scheduled.get key) ((c.write ok f).db.scheduled.get key) := by
  cases ok with
  | true => exact h
  | false => exact .same _

/-- STEP: a claim makes the record. -/
theorem Op.step_claims {op : Op} {ans : Answer} {c : Core} {key : String × Int}
    (h : op.claims ans c = some key) : c.db.scheduled.get key = none ∧
      (op.step ans c).1.db.scheduled.get key = some ⟨"running", none⟩ := by
  cases op with
  | dispatch t due =>
    cases due with
    | none => cases h
    | some due =>
      simp only [Op.claims] at h
      split at h
      · next hwin =>
        cases h
        refine ⟨hwin.2, ?_⟩
        simp only [Op.step, hwin.1, Db.claimScheduledRun, hwin.2, if_true]
        exact Table.get_set_self ..
      · cases h
  | _ => cases h

/-- STEP: every other request leaves a record that is not running alone. -/
theorem Op.step_kept {op : Op} {ans : Answer} {c : Core} {key : String × Int}
    (h : op.claims ans c ≠ some key) :
    Kept (c.db.scheduled.get key) ((op.step ans c).1.db.scheduled.get key) := by
  cases op with
  | dispatch t due =>
    cases due with
    | none => exact .same _
    | some due =>
      simp only [Op.claims] at h
      cases hdb : ans.db with
      | false => simp only [Op.step, hdb]; exact .same _
      | true =>
        simp only [Op.step, hdb, Db.claimScheduledRun, if_true]
        cases hrec : c.db.scheduled.get (t.id, due) with
        | some r => exact .same _
        | none =>
          have hne : key ≠ (t.id, due) := by
            rintro rfl
            exact h (by simp [hdb, hrec])
          dsimp only
          rw [Table.get_set, if_neg hne]
          exact .same _
  | attach id due runId => exact Core.write_kept (Db.updateRunning_kept ..)
  | finish id due state => exact Core.write_kept (Db.updateRunning_kept ..)
  | finishRejected t due state =>
    cases due with
    | none => exact .same _
    | some due => exact Core.write_kept (Db.updateRunning_kept ..)
  | completed t due runId outcome =>
    cases due with
    | none => exact .same _
    | some due => exact Core.write_kept (Db.updateRunning_kept ..)
  | route t due | submitNow t =>
    simp only [Op.step]
    repeat' split
    all_goals exact .same _
  | cancelTask id | resumeTask id =>
    simp only [Op.step]
    split <;> exact .same _
  | suspendEach ts =>
    cases ts with
    | nil => exact .same _
    | cons t ts => exact Core.write_kept (.same _)
  | resumeEach r ts =>
    cases ts with
    | nil => exact .same _
    | cons t ts =>
      simp only [Op.step]
      split
      · exact .same _
      · exact Core.write_kept (.same _)
  | trigger b due | cancelRun id runId | uninstalled package | resumeMissing r => exact .same _
  | _ => exact Core.write_kept (.same _)

/-! ### Triggers -/

/-- FRAME: a trigger keeps its task and its path. -/
theorem Batch.step_task {b b' : Batch} {a : BatchAction} (h : b.step a = some b') :
    b'.task = b.task ∧ b'.path = b.path := by
  cases a with
  | read =>
    simp only [Batch.step] at h
    split at h
    · cases h
    · split at h <;> cases h
      unfold Batch.read
      dsimp only
      split <;> exact ⟨rfl, rfl⟩
  | recordRejected =>
    simp only [Batch.step] at h
    split at h
    · cases h
    · split at h
      · cases h
      · split at h <;> cases h
        exact ⟨rfl, rfl⟩
  | attempt i | resolve i error | panic i | complete i outcome | dropPermit i =>
    simp only [Batch.step] at h
    split at h <;> cases h <;> exact ⟨rfl, rfl⟩

/-- A step with the registry before the runner is one step of the trigger, or a submission that is
    refused at once. -/
theorem Batch.stepWith_cases {runners : Table String String} {b b' : Batch} {a a' : BatchAction}
    {why : Cause} (h : b.stepWith runners a = some (b', a', why)) :
    (b.step a = some b' ∧ a' = a ∧ why = .runner ∧
      ∀ i r, b'.attempts[b.attempts.length]? = some (i, r) → runners.get r.runnerId ≠ none) ∨
    ∃ m i r, b.step a = some m ∧ m.attempts[b.attempts.length]? = some (i, r) ∧
      runners.get r.runnerId = none ∧ a' = .resolve i (some (unavailable r.runnerId)) ∧
      m.step a' = some b' ∧ why = .unavailable := by
  obtain ⟨m, hm, h⟩ := Option.bind_eq_some_iff.mp h
  cases hatt : m.attempts[b.attempts.length]? with
  | none =>
    rw [hatt] at h; cases h
    exact Or.inl ⟨hm, rfl, rfl, fun i r hir => by rw [hatt] at hir; cases hir⟩
  | some x =>
    obtain ⟨i, r⟩ := x
    rw [hatt] at h
    dsimp only at h
    cases hr : runners.get r.runnerId with
    | some owner =>
      rw [hr] at h; cases h
      refine Or.inl ⟨hm, rfl, rfl, fun i' r' hir => ?_⟩
      rw [hatt] at hir; cases hir
      rw [hr]; simp
    | none =>
      rw [hr] at h
      obtain ⟨m', hm', heq⟩ := Option.map_eq_some_iff.mp h
      cases heq
      exact Or.inr ⟨m, i, r, hm, hatt, hr, rfl, hm', rfl⟩

theorem Batch.stepWith_task {runners : Table String String} {b b' : Batch} {a a' : BatchAction}
    {why : Cause} (h : b.stepWith runners a = some (b', a', why)) :
    b'.task = b.task ∧ b'.path = b.path := by
  rcases Batch.stepWith_cases h with ⟨hb, _⟩ | ⟨m, i, r, hm, _, _, _, hb, _⟩
  · exact Batch.step_task hb
  · obtain ⟨htask, hpath⟩ := Batch.step_task hm
    obtain ⟨htask', hpath'⟩ := Batch.step_task hb
    exact ⟨htask'.trans htask, hpath'.trans hpath⟩

/-- The thread a move is about. -/
def Move.thread : Move → Option Nat
  | .answer k _ | .trigger k .. => some k
  | _ => none

/-- What a trigger has the core do after an action. Only the single path puts its task into
    `DependencyMissing`, with the text of the refusal. -/
inductive Reports (b : Batch) (due : Option Int) (a : BatchAction) : Op → Prop
  | rejected (state : String) : Reports b due a (.finishRejected b.task due state)
  | attached (d : Int) (runId : String) (h : due = some d) :
      Reports b due a (.attach b.task.id d runId)
  | completed (runId : String) (outcome : TimerOutcome) :
      Reports b due a (.completed b.task due runId outcome)
  | missing (i : Nat) (reason : String) (hp : b.path = .single)
      (h : a = .resolve i (some (.dependencyMissing reason))) :
      Reports b due a (.markMissing b.task due reason)
  | summary (label : String) : Reports b due a (.result b.task.id label)
  | finished (d : Int) (state : String) (h : due = some d) :
      Reports b due a (.finish b.task.id d state)

theorem Batch.report_ops {b b' : Batch} {due : Option Int} {a : BatchAction} {runId : String}
    {c : Core} (htask : b'.task = b.task) {op : Op} (h : op ∈ (b.report b' due a runId c).2) :
    Reports b due a op := by
  have hattach : ∀ {op}, op ∈ (due.map fun d => Op.attach b.task.id d runId).toList →
      Reports b due a op := by
    intro op hop
    cases due with
    | none => cases hop
    | some d =>
      obtain rfl := List.mem_singleton.mp hop
      exact .attached d runId rfl
  have hmulti : ∀ {attached : List Op}, (∀ op ∈ attached, Reports b due a op) →
      ∀ op ∈ (if b.records.length < b.inputs.length ∧ b.inputs.length ≤ b'.records.length then
        (c, attached ++ b'.finalize due) else (c, attached)).2, Reports b due a op := by
    intro attached hattached op hop
    split at hop
    · rcases List.mem_append.mp hop with hop | hop
      · exact hattached op hop
      · unfold Batch.finalize at hop
        rw [htask] at hop
        rcases List.mem_cons.mp hop with rfl | hop
        · exact .summary _
        · cases due with
          | none => cases hop
          | some d =>
            obtain rfl := List.mem_singleton.mp hop
            exact .finished d _ rfl
    · exact hattached op hop
  unfold Batch.report at h
  split at h
  · split at h
    · cases h
    · obtain rfl := List.mem_singleton.mp h
      exact .rejected "failed"
  · exact hattach h
  · next i e hpath =>
    obtain rfl := List.mem_singleton.mp h
    cases e with
    | dependencyMissing message => exact .missing i message hpath rfl
    | _ => exact .rejected _
  · obtain rfl := List.mem_singleton.mp h
    exact .completed runId _
  · cases h
  · refine hmulti (fun op hop => ?_) op h
    split at hop
    · exact hattach hop
    · cases hop

/-- The threads a trigger leads to run what it reports, or are the trigger itself. -/
theorem Batch.after_ops {b' : Batch} {due : Option Int} {a : BatchAction} {why : Cause}
    {out : List Op} {th : Thread} (h : th ∈ (b'.after due a why out).1 ::
      (b'.after due a why out).2) :
    th = .running (.trigger b' due) .runner ∨ th = .returned ∨ th = .panicked ∨
      ∃ op ∈ out, th = .running op why := by
  unfold Batch.after at h
  dsimp only at h
  split at h
  · obtain rfl := List.mem_singleton.mp h
    exact Or.inr (Or.inr (Or.inr ⟨_, List.mem_cons_self .., rfl⟩))
  · rcases List.mem_cons.mp h with rfl | h
    · exact Or.inr (Or.inr (Or.inr ⟨_, List.mem_cons_self .., rfl⟩))
    · exact Or.inl (List.mem_singleton.mp h)
  · rcases List.mem_cons.mp h with rfl | h
    · exact Or.inr (Or.inl rfl)
    · exact Or.inl (List.mem_singleton.mp h)
  · rcases List.mem_cons.mp h with rfl | h
    · exact Or.inr (Or.inr (Or.inl rfl))
    · exact Or.inl (List.mem_singleton.mp h)
  · rcases List.mem_cons.mp h with rfl | h
    · exact Or.inl rfl
    · obtain ⟨op, hop, rfl⟩ := List.mem_map.mp h
      exact Or.inr (Or.inr (Or.inr ⟨op, hop, rfl⟩))

/-- The threads a call leads to run what is left of it. -/
theorem Thread.after_ops {why : Cause} {rest : List Op} {th : Thread}
    (h : th ∈ (Thread.after why rest).1 :: (Thread.after why rest).2) :
    th = .returned ∨ ∃ op ∈ rest, th = .running op why := by
  unfold Thread.after at h
  split at h
  · exact Or.inl (List.mem_singleton.mp h)
  · split at h
    · rcases List.mem_cons.mp h with rfl | h
      · exact Or.inl rfl
      · exact Or.inr ⟨_, List.mem_cons_self .., List.mem_singleton.mp h⟩
    · exact Or.inr ⟨_, List.mem_cons_self .., List.mem_singleton.mp h⟩
  · exact Or.inr ⟨_, List.mem_cons_self .., List.mem_singleton.mp h⟩

/-! ### Threads -/

namespace Scheduler

/-- The request a move makes to the database, and its answer. -/
def request (s : Scheduler) : Move → Option (Op × Answer)
  | .answer k ans => match s.threads[k]? with
    | some (.running op _) => some (op, s.supported op ans)
    | some (.unregistering (r :: _)) => some (.suspendMissing r, ans)
    | _ => none
  | .write ok =>
    let ans : Answer := ⟨ok, false, false, .ok none⟩
    match s.loop with
    | .storing _ id next _ => some (.setWakeup id (some (timestamp next)), ans)
    | .advancing _ t _ next _ => some (.setWakeup t.id (next.map timestamp), ans)
    | _ => none
  | _ => none

/-- A thread goes on: with an answer, as the suspension of removed runners, or as a trigger. -/
inductive Goes (s : Scheduler) : Move → Thread → Thread × List Thread → Prop
  | answered {k : Nat} {ans : Answer} {op : Op} {why : Cause} :
      Goes s (.answer k ans) (.running op why)
        (Thread.after (op.cause why) (op.step (s.supported op ans) s.core).2)
  | unregistered {k : Nat} {ans : Answer} {r : String} {rs : List String} :
      Goes s (.answer k ans) (.unregistering (r :: rs)) (.unregistering rs, [])
  | ended {k : Nat} {ans : Answer} {rs : List String} :
      Goes s (.answer k ans) (.unregistering rs) (.returned, [])
  | triggered {k : Nat} {a a' : BatchAction} {runId : String} {b b' : Batch} {due : Option Int}
      {why why' : Cause} (h : b.stepWith s.runners a = some (b', a', why')) :
      Goes s (.trigger k a runId) (.running (.trigger b due) why)
        (b'.after due a' why' (b.report b' due a' runId s.core).2)

/-- A call begins: from outside, from the registrar or from the run loop. -/
inductive Begins (s : Scheduler) : Move → Thread → Prop
  | called {c : Call} (h : c.external = true) : Begins s (.call c) (.running c.op .runner)
  | registered {r o : String} : Begins s (.register r o) (.running (.resumeMissing r) .runner)
  | unregistering {o : String} {rs : List String} : Begins s (.unregister o) (.unregistering rs)
  | rejected {ans : ScheduleAnswer} {now : Int} {t : Task} {rest : List Task}
      (hloop : s.loop = .looking now (t :: rest)) (hdec : t.decision now ans = .reject) :
      Begins s (.look ans)
        (.running (.markMissing t none (missingDependency t.schedule.providerId)) .schedule)
  | dispatched {now due : Int} {t : Task} {next : Option Int} {rest : List Task}
      (hloop : s.loop = .advancing now t due next rest) :
      Begins s (.write true) (.running
        (.dispatch { t with nextWakeup := next.map timestamp } (some (timestamp due))) .runner)

/-- The threads after a move. -/
inductive Changes (s : Scheduler) (m : Move) : List Thread → Prop
  | same (hm : m.thread = none) : Changes s m s.threads
  | begun {th : Thread} (h : s.Begins m th) : Changes s m (s.threads ++ [th])
  | gone {k : Nat} {old : Thread} {th : Thread × List Thread} (hm : m.thread = some k)
      (hk : s.threads[k]? = some old) (h : s.Goes m old th) : Changes s m (s.threads.set k th.1 ++ th.2)
  | cleared (h : m = .restart) : Changes s m []

/-- The database after a move is the database after its request. -/
theorem step_db {s s' : Scheduler} {m : Move} (h : s.step m = some s') :
    s'.core.db = match s.request m with
      | some (op, ans) => (op.step ans s.core).1.db
      | none => s.core.db := by
  cases m with
  | call c =>
    simp only [step] at h
    split at h <;> cases h
    rfl
  | register r o =>
    obtain rfl := Option.some.inj h
    simp only [request, register]
    split
    · rfl
    · split <;> rfl
  | unregister o => cases h; rfl
  | answer k ans =>
    simp only [step] at h
    simp only [request]
    split at h
    · next op why hk =>
      rw [hk]
      split at h
      · cases h
      · cases h; rfl
    · next rs hk =>
      cases h
      rw [hk]
      cases rs with
      | nil => rfl
      | cons r rs =>
        simp only [unregistered, Op.step, Core.write, become]
        cases ans.db <;> rfl
    · cases h
  | trigger k a runId =>
    simp only [step] at h
    split at h
    · obtain ⟨⟨b', a', why⟩, _, rfl⟩ := Option.map_eq_some_iff.mp h
      exact Batch.report_db ..
    · cases h
  | list now ok =>
    simp only [step] at h
    split at h
    · cases h
      cases ok <;> rfl
    · cases h
  | look ans =>
    simp only [step] at h
    split at h
    · cases h; rfl
    · cases h
      simp only [request, look]
      split <;> rfl
    · cases h
  | write ok =>
    cases hloop : s.loop with
    | storing now id next rest =>
      simp only [step, hloop, Option.some.injEq] at h
      subst h
      simp only [request, hloop]
      rfl
    | advancing now t due next rest =>
      simp only [step, hloop, Option.some.injEq] at h
      subst h
      simp only [request, hloop]
      cases ok <;> rfl
    | _ => simp [step, hloop] at h
  | proceed =>
    simp only [step] at h
    split at h
    · split at h <;> cases h
      rfl
    · cases h
  | restart => cases h; rfl

/-- The threads after a move. -/
theorem step_threads {s s' : Scheduler} {m : Move} (h : s.step m = some s') :
    s.Changes m s'.threads := by
  cases m with
  | call c =>
    simp only [step] at h
    split at h <;> cases h
    next hext => exact .begun (.called hext)
  | register r o =>
    obtain rfl := Option.some.inj h
    unfold register
    split
    · exact .same rfl
    · split
      · exact .same rfl
      · exact .begun .registered
  | unregister o => cases h; exact .begun .unregistering
  | answer k ans =>
    simp only [step] at h
    split at h
    · next op why hk =>
      split at h
      · cases h
      · cases h; exact .gone rfl hk .answered
    · next rs hk =>
      cases h
      cases rs with
      | nil => exact .gone rfl hk .ended
      | cons r rs =>
        simp only [unregistered]
        split
        · exact .gone rfl hk .unregistered
        · exact .gone rfl hk .ended
    · cases h
  | trigger k a runId =>
    simp only [step] at h
    split at h
    · next b due why hk =>
      obtain ⟨⟨b', a', why'⟩, hb, rfl⟩ := Option.map_eq_some_iff.mp h
      exact .gone rfl hk (.triggered hb)
    · cases h
  | list now ok =>
    simp only [step] at h
    split at h
    · cases h
      cases ok <;> exact .same rfl
    · cases h
  | look ans =>
    simp only [step] at h
    split at h
    · cases h; exact .same rfl
    · next now t rest hloop =>
      cases h
      simp only [look]
      split
      · exact .same rfl
      · next hdec => exact .begun (.rejected hloop hdec)
      · exact .same rfl
      · exact .same rfl
    · cases h
  | write ok =>
    simp only [step] at h
    split at h
    · cases h; exact .same rfl
    · next hloop =>
      cases h
      cases ok with
      | false => exact .same rfl
      | true => exact .begun (.dispatched hloop)
    · cases h
  | proceed =>
    simp only [step] at h
    split at h
    · split at h <;> cases h
      exact .same rfl
    · cases h
  | restart => cases h; exact .cleared rfl

/-- INVERSION: a thread after a move was there before, begins with it, or comes of the thread the
    move is about. -/
theorem step_thread {s s' : Scheduler} {m : Move} (h : s.step m = some s') {th : Thread}
    (hth : th ∈ s'.threads) : th ∈ s.threads ∨ s.Begins m th ∨
      ∃ k old next, m.thread = some k ∧ s.threads[k]? = some old ∧ s.Goes m old next ∧
        th ∈ next.1 :: next.2 := by
  have hchanges := step_threads h
  generalize s'.threads = ths at hchanges hth
  cases hchanges with
  | same => exact Or.inl hth
  | cleared => cases hth
  | begun hbegins =>
    rcases List.mem_append.mp hth with hth | hth
    · exact Or.inl hth
    · obtain rfl := List.mem_singleton.mp hth
      exact Or.inr (Or.inl hbegins)
  | gone hm hk hgoes =>
    rcases List.mem_append.mp hth with hth | hth
    · rcases List.mem_or_eq_of_mem_set hth with hth | rfl
      · exact Or.inl hth
      · exact Or.inr (Or.inr ⟨_, _, _, hm, hk, hgoes, List.mem_cons_self ..⟩)
    · exact Or.inr (Or.inr ⟨_, _, _, hm, hk, hgoes, List.mem_cons_of_mem _ hth⟩)

/-- The loop after a move. -/
inductive Turns (s : Scheduler) : Move → Loop → Prop
  | same (m : Move) : Turns s m s.loop
  | listed (now : Int) (hl : s.loop = .listing) :
      Turns s (.list now true) (.looking now s.core.db.listTimerTasks)
  | ended (ans : ScheduleAnswer) (now : Int) (hl : s.loop = .looking now []) :
      Turns s (.look ans) .listing
  | slept (ans : ScheduleAnswer) (now : Int) (t : Task) (rest : List Task)
      (hl : s.loop = .looking now (t :: rest)) (hd : t.decision now ans = .sleep) :
      Turns s (.look ans) (.looking now rest)
  | rejected (ans : ScheduleAnswer) (now : Int) (t : Task) (rest : List Task)
      (hl : s.loop = .looking now (t :: rest)) (hd : t.decision now ans = .reject) :
      Turns s (.look ans) (.waiting now s.threads.length rest)
  | stores (ans : ScheduleAnswer) (now next : Int) (t : Task) (rest : List Task)
      (hl : s.loop = .looking now (t :: rest)) (hd : t.decision now ans = .store next) :
      Turns s (.look ans) (.storing now t.id next rest)
  | fires (ans : ScheduleAnswer) (now due : Int) (next : Option Int) (t : Task) (rest : List Task)
      (hl : s.loop = .looking now (t :: rest)) (hd : t.decision now ans = .fire due next) :
      Turns s (.look ans) (.advancing now t due next rest)
  | stored (ok : Bool) (now : Int) (id : String) (next : Int) (rest : List Task)
      (hl : s.loop = .storing now id next rest) : Turns s (.write ok) (.looking now rest)
  | unstored (now : Int) (t : Task) (due : Int) (next : Option Int) (rest : List Task)
      (hl : s.loop = .advancing now t due next rest) : Turns s (.write false) (.looking now rest)
  | advanced (now : Int) (t : Task) (due : Int) (next : Option Int) (rest : List Task)
      (hl : s.loop = .advancing now t due next rest) :
      Turns s (.write true) (.waiting now s.threads.length rest)
  | returned (now : Int) (k : Nat) (rest : List Task) (hl : s.loop = .waiting now k rest) :
      Turns s .proceed (.looking now rest)
  | restarted : Turns s .restart .listing

theorem step_loop {s s' : Scheduler} {m : Move} (h : s.step m = some s') : s.Turns m s'.loop := by
  cases m with
  | call c =>
    simp only [step] at h
    split at h <;> cases h
    exact .same _
  | register r o =>
    obtain rfl := Option.some.inj h
    unfold register
    split
    · exact .same _
    · split <;> exact .same _
  | unregister o => cases h; exact .same _
  | answer k ans =>
    simp only [step] at h
    split at h
    · split at h <;> cases h
      exact .same _
    · next rs _ =>
      cases h
      cases rs with
      | nil => exact .same _
      | cons r rs =>
        simp only [unregistered]
        split <;> exact .same _
    · cases h
  | trigger k a runId =>
    simp only [step] at h
    split at h
    · obtain ⟨⟨b', a', why'⟩, _, rfl⟩ := Option.map_eq_some_iff.mp h
      exact .same _
    · cases h
  | list now ok =>
    simp only [step] at h
    split at h
    · next hl =>
      cases h
      cases ok with
      | true => exact .listed now hl
      | false => exact .same _
    · cases h
  | look ans =>
    simp only [step] at h
    split at h
    · next now hl => cases h; exact .ended ans now hl
    · next now t rest hl =>
      cases h
      simp only [look]
      split
      · next hd => exact .slept ans now t rest hl hd
      · next hd => exact .rejected ans now t rest hl hd
      · next hd => exact .stores ans now _ t rest hl hd
      · next hd => exact .fires ans now _ _ t rest hl hd
    · cases h
  | write ok =>
    simp only [step] at h
    split at h
    · next hl => cases h; exact .stored ok _ _ _ _ hl
    · next hl =>
      cases h
      cases ok with
      | true => exact .advanced _ _ _ _ _ hl
      | false => exact .unstored _ _ _ _ _ hl
    · cases h
  | proceed =>
    simp only [step] at h
    split at h
    · next hl =>
      split at h <;> cases h
      exact .returned _ _ _ hl
    · cases h
  | restart => cases h; exact .restarted

/-- INVARIANT: the store of a scheduler stays keyed. -/
theorem step_keyed {s s' : Scheduler} {m : Move} (h : s.step m = some s')
    (hk : s.core.db.Keyed) : s'.core.db.Keyed := by
  rw [step_db h]
  cases s.request m with
  | none => exact hk
  | some req => exact hk.step req.1 req.2

/-- The row of a task after a move. -/
theorem step_row {s s' : Scheduler} {m : Move} (h : s.step m = some s') (id : String) :
    s'.row id = match s.request m with
      | some (op, ans) => op.rowAfter ans id (s.row id)
      | none => s.row id := by
  unfold row
  rw [step_db h]
  cases hreq : s.request m with
  | none => rfl
  | some req => exact req.1.step_row req.2 s.core id

end Scheduler

end Gamer.Timer
