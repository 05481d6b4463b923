import Gamer.Timer.Stopped

/-! What the run loop works from after a resume. Three writers move the cursor of a task: the two
    writes of `resume_task`, the recovery of a runner, and the loop itself from the snapshot it
    listed. The next occurrence is computed long before it is written, and between the two writes of
    a resume the task is active without a cursor, which makes the loop look back an hour:

        resume at t ──▶ Active, cursor NULL ──▶ cursor = next_after(t)
                                  └─▶ list ──▶ latest_due ──▶ an occurrence ≤ t is dispatched

    A cursor is good for the schedule its row holds; what is good stays so as long as no edit
    changes the schedule behind somebody who still has a cursor to write. -/

namespace Gamer.Timer
open Gamer.Lib Gamer.Core

/-- The second of an occurrence of the schedule. -/
def Occurs (ext : ScheduleExtension) (schedule : TaskSchedule) (cursor : Int) : Prop :=
  ∃ after next, ext.nextAfter schedule after = .ok (some next) ∧ timestamp next = cursor

/-- The cursor as it is stored. -/
def stored (next : Except String (Option Int)) : Except String (Option Int) :=
  next.map (Option.map timestamp)

/-- The loop would look back for the task: it has no cursor, or one left behind. -/
def Task.looksBack (now : Int) (t : Task) : Bool :=
  t.isSchedulable && t.nextWakeup.all fun cursor => instantOf cursor < now - lookback

/-- The thread has a cursor of the task to write, or will compute one from what it listed. -/
def Thread.awaits (id : String) : Thread → Bool
  | .running (.resumeWrite id' _) _ | .running (.resumeWakeup id' _) _ => id' = id
  | .running (.resumeEach _ ts) _ => ts.any (·.id = id)
  | _ => false

/-- The cursor a resume of the task has computed and not written. -/
def Thread.owes (id : String) : Thread → Option Int
  | .running (.resumeWrite id' next) _ | .running (.resumeWakeup id' next) _ =>
    if id' = id then next else none
  | _ => none

/-- The task the step reads for `resume_task`. -/
def Op.resumes : Op → Option String
  | .resumeTask id => some id
  | _ => none

namespace Scheduler

/-- The move computes a cursor of the task: the answer and the schedule it is computed from. -/
def reads (id : String) (s : Scheduler) : Move → Option (Answer × TaskSchedule)
  | .answer k ans => match s.threads[k]? with
    | some (.running (.resumeTask id') _) =>
      if id' = id then (s.row id).map fun t => (ans, t.schedule) else none
    | some (.running (.resumeEach _ (t :: _)) _) => if t.id = id then some (ans, t.schedule) else none
    | _ => none
  | _ => none

/-- The move saves the task. -/
def saves (id : String) (s : Scheduler) (m : Move) : Option Task :=
  match s.answered m with
  | some (.saveTask t) => if t.id = id then some t else none
  | _ => none

/-- Nobody has a cursor of the task to write. -/
def Forgotten (ext : ScheduleExtension) (id : String) (s : Scheduler) : Prop :=
  s.loop.holds ext id = false ∧ ∀ th ∈ s.threads, th.awaits id = false

/-- The loop has turned to the task and looks back for it. -/
def looksBack (id : String) (s : Scheduler) : Bool :=
  match s.loop with
  | .looking now (t :: _) | .advancing now t _ _ _ => t.id = id && t.looksBack now
  | _ => false

/-- The loop dispatches an occurrence of the task that is not after `instant`. -/
def fires (id : String) (instant : Int) (s : Scheduler) : Move → Bool
  | .write true => match s.loop with
    | .advancing _ t due _ _ => t.id = id && instantOf (timestamp due) ≤ instant
    | _ => false
  | _ => false

/-- The cursor the loop works from is an occurrence of the persisted schedule. -/
def Computed (ext : ScheduleExtension) (id : String) (s : Scheduler) : Prop :=
  ∀ t, s.row id = some t → t.isSchedulable = true → ∀ cursor, t.nextWakeup = some cursor →
    Occurs ext t.schedule cursor

/-- The extension answers what it is asked, and an edit changes the schedule only when nobody has a
    cursor of the task to write. -/
structure Scheduled (ext : ScheduleExtension) (id : String) (s : Scheduler) (m : Move) : Prop where
  answers : s.answers ext m = true
  reads : ∀ ans schedule, s.reads id m = some (ans, schedule) →
    ∃ clock, ans.next = stored (ext.nextAfter schedule clock)
  saves : ∀ t, s.saves id m = some t →
    (t.isSchedulable = true → ∀ cursor, t.nextWakeup = some cursor →
      Occurs ext t.schedule cursor) ∧
    ((∃ t₀, s.row id = some t₀ ∧ t₀.schedule = t.schedule) ∨ s.Forgotten ext id)

/-- `resume_task` reads the clock at `instant`, and the next occurrence falls into a later second. -/
structure Resumes (ext : ScheduleExtension) (id : String) (instant : Int) (s : Scheduler)
    (m : Move) : Prop where
  call : (s.answered m).any (·.resumes = some id) = true
  next : ∀ ans schedule, s.reads id m = some (ans, schedule) →
    ans.next = stored (ext.nextAfter schedule instant) ∧
    ∀ next, ext.nextAfter schedule instant = .ok (some next) → timestamp instant < timestamp next

/-- From `instant` on the loop does not look back for the task, its cursors are computed no earlier
    and fall into a later second, and an edit keeps to them. -/
structure Later (ext : ScheduleExtension) (id : String) (instant : Int) (s : Scheduler)
    (m : Move) : Prop where
  looks : s.looksBack id = false
  reads : ∀ ans schedule, s.reads id m = some (ans, schedule) →
    ∃ clock, instant ≤ clock ∧ ans.next = stored (ext.nextAfter schedule clock) ∧
      ∀ next, ext.nextAfter schedule clock = .ok (some next) → timestamp clock < timestamp next
  saves : ∀ t, s.saves id m = some t → t.isSchedulable = true →
    ∀ cursor, t.nextWakeup = some cursor → instant < instantOf cursor

/-- When the resume reads the clock, the loop has nothing of the task in hand, and no cursor stored
    or still to be written lies at or before that instant. -/
structure Clear (ext : ScheduleExtension) (id : String) (instant : Int) (s : Scheduler) :
    Prop where
  loop : s.loop.holds ext id = false
  threads : ∀ th ∈ s.threads, ∀ cursor, th.owes id = some cursor → instant < instantOf cursor
  row : ∀ t, s.row id = some t → t.isSchedulable = true →
    ∀ cursor, t.nextWakeup = some cursor → instant < instantOf cursor

end Scheduler

/-! ### Seconds -/

@[simp] theorem timestamp_instantOf (cursor : Int) : timestamp (instantOf cursor) = cursor :=
  Int.mul_ediv_cancel cursor (by decide)

theorem lt_instantOf_of_lt {instant cursor : Int} (h : timestamp instant < cursor) :
    instant < instantOf cursor := by
  have hlt : instant < (timestamp instant + 1) * second := Int.lt_ediv_add_one_mul_self _ (by decide)
  have hle : (timestamp instant + 1) * second ≤ cursor * second :=
    Int.mul_le_mul_of_nonneg_right h (by decide)
  exact Int.lt_of_lt_of_le hlt hle

theorem le_timestamp_of_le {instant cursor : Int} (h : instantOf cursor ≤ instant) :
    cursor ≤ timestamp instant := by
  have hmono : timestamp (instantOf cursor) ≤ timestamp instant := Int.ediv_le_ediv (by decide) h
  rwa [timestamp_instantOf] at hmono

/-! ### What the loop decides -/

theorem Decision.onDue_fire {now due due' : Int} {next : Option Int} {ans : ScheduleAnswer}
    (h : Decision.onDue now due ans = .fire due' next) :
    due' = due ∧ due ≤ now ∧ ans.next = .ok next := by
  unfold Decision.onDue at h
  split at h
  · cases h
  · next hle =>
    split at h <;> cases h
    next hnext => exact ⟨rfl, by omega, hnext⟩

/-- The loop fires the cursor it listed, or looks back. -/
theorem Task.decision_fire {t : Task} {now due : Int} {next : Option Int} {ans : ScheduleAnswer}
    (h : t.decision now ans = .fire due next) : ans.next = .ok next ∧
      (t.looksBack now = true ∨ ∃ cursor, t.nextWakeup = some cursor ∧ due = instantOf cursor ∧
        instantOf cursor ≤ now) := by
  have hback : ∀ {due next}, Decision.lookBack now ans = .fire due next → ans.next = .ok next := by
    intro due next hb
    unfold Decision.lookBack at hb
    split at hb
    · exact (Decision.onDue_fire hb).2.2
    · split at hb <;> cases hb
    · cases hb
  unfold Task.decision at h
  split at h
  · cases h
  · next hs =>
    have hs : t.isSchedulable = true := by simpa using hs
    split at h
    · next hcursor => exact ⟨hback h, Or.inl (by simp [Task.looksBack, hs, hcursor])⟩
    · next cursor hcursor =>
      split at h
      · obtain ⟨rfl, hle, hnext⟩ := Decision.onDue_fire h
        exact ⟨hnext, Or.inr ⟨cursor, hcursor, rfl, hle⟩⟩
      · split at h
        · next hlt => exact ⟨hback h, Or.inl (by simp [Task.looksBack, hs, hcursor, hlt])⟩
        · cases h

/-- The loop stores a cursor without firing only when it looks back. -/
theorem Task.decision_store {t : Task} {now next : Int} {ans : ScheduleAnswer}
    (h : t.decision now ans = .store next) :
    t.looksBack now = true ∧ ans.next = .ok (some next) := by
  have hdue : ∀ {due next}, Decision.onDue now due ans ≠ .store next := by
    intro due next hd
    unfold Decision.onDue at hd
    split at hd
    · cases hd
    · split at hd <;> cases hd
  have hback : ∀ {next}, Decision.lookBack now ans = .store next → ans.next = .ok (some next) := by
    intro next hb
    unfold Decision.lookBack at hb
    split at hb
    · exact absurd hb hdue
    · split at hb <;> cases hb
      next hnext => exact hnext
    · cases hb
  unfold Task.decision at h
  split at h
  · cases h
  · next hs =>
    have hs : t.isSchedulable = true := by simpa using hs
    split at h
    · next hcursor => exact ⟨by simp [Task.looksBack, hs, hcursor], hback h⟩
    · next cursor hcursor =>
      split at h
      · exact absurd h hdue
      · split at h
        · next hlt => exact ⟨by simp [Task.looksBack, hs, hcursor, hlt], hback h⟩
        · cases h

/-! ### Good cursors -/

section Good
variable (Good : TaskSchedule → Int → Prop) (ext : ScheduleExtension) (id : String)

/-- What the thread has to write is good for the schedule in the row. -/
def Thread.Fits (row : Option Task) : Thread → Prop
  | .running (.resumeWrite id' next) _ | .running (.resumeWakeup id' next) _ =>
    id' = id → ∀ t cursor, row = some t → next = some cursor → Good t.schedule cursor
  | .running (.resumeEach _ ts) _ =>
    ∀ t ∈ ts, t.id = id → ∀ t₀, row = some t₀ → t.schedule = t₀.schedule
  | _ => True

/-- What the loop listed and will act on has the schedule in the row, and a good cursor. -/
def Fitting (row : Option Task) (now : Int) (rest : List Task) : Prop :=
  ∀ t ∈ rest, t.id = id → t.acts ext now = true →
    (∀ t₀, row = some t₀ → t.schedule = t₀.schedule) ∧
    ∀ cursor, t.nextWakeup = some cursor → Good t.schedule cursor

def Loop.Fits (row : Option Task) : Loop → Prop
  | .listing => True
  | .looking now rest | .waiting now _ rest => Fitting Good ext id row now rest
  | .storing now id' next rest =>
    (id' = id → ∀ t, row = some t → Good t.schedule (timestamp next)) ∧
      Fitting Good ext id row now rest
  | .advancing now t due next rest =>
    (t.id = id → (∀ t₀, row = some t₀ → t.schedule = t₀.schedule) ∧
      (∀ v, next = some v → Good t.schedule (timestamp v)) ∧
      (t.looksBack now = false → Good t.schedule (timestamp due))) ∧
    Fitting Good ext id row now rest

/-- INVARIANT: every cursor of the task, stored or still to be written, is good. -/
structure Scheduler.Cursors (s : Scheduler) : Prop where
  keyed : s.core.db.Keyed
  cursors : ∀ next why, Thread.running (.setWakeup id next) why ∉ s.threads
  row : ∀ t, s.row id = some t → t.isSchedulable = true →
    ∀ cursor, t.nextWakeup = some cursor → Good t.schedule cursor
  threads : ∀ th ∈ s.threads, th.Fits Good id (s.row id)
  loop : s.loop.Fits Good ext id (s.row id)

/-- A move that computes good cursors, and leaves the schedule to those who have one to write. -/
structure Scheduler.Timely (s : Scheduler) (m : Move) : Prop where
  answers : s.answers ext m = true
  looks : ∀ ans now t rest, m = .look ans → s.loop = .looking now (t :: rest) → t.id = id →
    t.looksBack now = true → ∀ v, ext.nextAfter t.schedule now = .ok (some v) → Good t.schedule (timestamp v)
  reads : ∀ ans schedule, s.reads id m = some (ans, schedule) →
    ∀ cursor, ans.next = .ok (some cursor) → Good schedule cursor
  saves : ∀ t, s.saves id m = some t →
    (t.isSchedulable = true → ∀ cursor, t.nextWakeup = some cursor → Good t.schedule cursor) ∧
    ((∃ t₀, s.row id = some t₀ ∧ t₀.schedule = t.schedule) ∨ s.Forgotten ext id)

/-- The occurrence after a good one that is due is good. -/
def Successive : Prop := ∀ schedule cursor now v, Good schedule cursor → instantOf cursor ≤ now →
  ext.nextAfter schedule now = .ok (some v) → Good schedule (timestamp v)

end Good

/-- The row after keeps the schedule of the row before. -/
def SameSchedule (row row' : Option Task) : Prop :=
  ∀ t', row' = some t' → ∃ t, row = some t ∧ t.schedule = t'.schedule

section Good
variable {Good : TaskSchedule → Int → Prop} {ext : ScheduleExtension} {id : String}
  {row row' : Option Task}

theorem Thread.Fits.same {th : Thread} (h : th.Fits Good id row) (hrow : SameSchedule row row') :
    th.Fits Good id row' := by
  unfold Thread.Fits at h ⊢
  split at h
  · intro heq t cursor ht hc
    obtain ⟨t₀, ht₀, hsch⟩ := hrow t ht
    rw [← hsch]
    exact h heq t₀ cursor ht₀ hc
  · intro heq t cursor ht hc
    obtain ⟨t₀, ht₀, hsch⟩ := hrow t ht
    rw [← hsch]
    exact h heq t₀ cursor ht₀ hc
  · intro t ht heq t₁ ht₁
    obtain ⟨t₀, ht₀, hsch⟩ := hrow t₁ ht₁
    rw [← hsch]
    exact h t ht heq t₀ ht₀
  · trivial

theorem Thread.Fits.of_awaits {th : Thread} (h : th.awaits id = false) : th.Fits Good id row := by
  unfold Thread.Fits
  split
  · intro heq; simp [Thread.awaits, heq] at h
  · intro heq; simp [Thread.awaits, heq] at h
  · intro t ht heq
    simp only [Thread.awaits, List.any_eq_false, decide_eq_true_eq] at h
    exact absurd heq (h t ht)
  · trivial

theorem Fitting.same {now : Int} {rest : List Task} (h : Fitting Good ext id row now rest)
    (hrow : SameSchedule row row') : Fitting Good ext id row' now rest := by
  intro t ht heq hacts
  obtain ⟨hsch, hgood⟩ := h t ht heq hacts
  refine ⟨fun t₁ ht₁ => ?_, hgood⟩
  obtain ⟨t₀, ht₀, heq₀⟩ := hrow t₁ ht₁
  rw [← heq₀]
  exact hsch t₀ ht₀

theorem Fitting.of_holds {now : Int} {rest : List Task}
    (h : (rest.any fun t => t.id = id && t.acts ext now) = false) :
    Fitting Good ext id row now rest := by
  intro t ht heq hacts
  simp only [List.any_eq_false, Bool.and_eq_true, decide_eq_true_eq] at h
  exact absurd ⟨heq, hacts⟩ (h t ht)

theorem Loop.Fits.same {l : Loop} (h : l.Fits Good ext id row) (hrow : SameSchedule row row') :
    l.Fits Good ext id row' := by
  cases l with
  | listing => trivial
  | looking | waiting => exact Fitting.same h hrow
  | storing now id' next rest =>
    refine ⟨fun heq t ht => ?_, h.2.same hrow⟩
    obtain ⟨t₀, ht₀, hsch⟩ := hrow t ht
    rw [← hsch]
    exact h.1 heq t₀ ht₀
  | advancing now t due next rest =>
    refine ⟨fun heq => ?_, h.2.same hrow⟩
    obtain ⟨hsch, hnext, hdue⟩ := h.1 heq
    refine ⟨fun t₁ ht₁ => ?_, hnext, hdue⟩
    obtain ⟨t₀, ht₀, heq₀⟩ := hrow t₁ ht₁
    rw [← heq₀]
    exact hsch t₀ ht₀

theorem Loop.Fits.of_holds {l : Loop} (h : l.holds ext id = false) : l.Fits Good ext id row := by
  cases l with
  | listing => trivial
  | looking | waiting => exact Fitting.of_holds h
  | storing now id' next rest =>
    obtain ⟨hid, hrest⟩ := Bool.or_eq_false_iff.mp h
    exact ⟨fun heq => by simp [heq] at hid, Fitting.of_holds hrest⟩
  | advancing now t due next rest =>
    obtain ⟨hid, hrest⟩ := Bool.or_eq_false_iff.mp h
    exact ⟨fun heq => by simp [heq] at hid, Fitting.of_holds hrest⟩

/-! ### One move -/

namespace Scheduler
variable {s s' : Scheduler} {m : Move}

/-- STEP: only an edit changes the schedule of the row. -/
theorem step_schedule (h : s.step m = some s') (hsaves : s.saves id m = none) :
    SameSchedule (s.row id) (s'.row id) := by
  intro t' ht'
  rw [step_row h id] at ht'
  cases hreq : s.request m with
  | none => rw [hreq] at ht'; exact ⟨t', ht', rfl⟩
  | some req =>
    obtain ⟨op, ans⟩ := req
    rw [hreq] at ht'
    rcases Op.rowAfter_edit ht' with ⟨rfl, heq⟩ | ⟨t, ht, hedit⟩
    · cases m with
      | answer k a =>
        simp only [request] at hreq
        simp only [saves, answered] at hsaves
        split at hreq
        · next hk => cases hreq; rw [hk] at hsaves; simp [heq] at hsaves
        · cases hreq
        · cases hreq
      | write ok =>
        simp only [request] at hreq
        split at hreq <;> cases hreq
      | _ => cases hreq
    · exact ⟨t, ht, hedit.frame.2.2.symm⟩

/-- STEP: the row keeps its schedule, or nobody cares. -/
theorem Timely.schedule (hm : s.Timely Good ext id m) (h : s.step m = some s') :
    SameSchedule (s.row id) (s'.row id) ∨ s.Forgotten ext id := by
  cases hsaves : s.saves id m with
  | none => exact Or.inl (step_schedule h hsaves)
  | some t =>
    refine (hm.saves t hsaves).2.imp (fun ⟨t₀, ht₀, hsch⟩ t' ht' => ?_) fun hf => hf
    cases m with
    | answer k a =>
      simp only [Scheduler.saves, answered] at hsaves
      split at hsaves
      · next op hop =>
        split at hsaves <;> cases hsaves
        next heq =>
        rw [step_row h id] at ht'
        split at hop
        · next why hk =>
          cases hop
          simp only [request, hk] at ht'
          rcases Op.rowAfter_edit ht' with ⟨hsave, _⟩ | ⟨t, ht, hedit⟩
          · cases hsave; exact ⟨t₀, ht₀, hsch⟩
          · exact ⟨t, ht, hedit.frame.2.2.symm⟩
        · cases hop
      · cases hsaves
    | _ => cases hsaves

/-- The cursors a move has the database write are good. -/
structure Writes (Good : TaskSchedule → Int → Prop) (id : String) (s : Scheduler) (m : Move)
    (op : Op) (ans : Answer) : Prop where
  woken : ∀ next, op = .resumeWakeup id next ∨ op = .setWakeup id next →
    ∀ t cursor, s.row id = some t → next = some cursor → Good t.schedule cursor
  restored : ∀ r t₀ ts, op = .resumeEach r (t₀ :: ts) → t₀.id = id → ∀ next, ans.next = .ok next →
    ∀ t cursor, s.row id = some t → next = some cursor → Good t.schedule cursor
  saved : ∀ t, op = .saveTask t → t.id = id → s.saves id m = some t

theorem Cursors.writes (hs : s.Cursors Good ext id) (hm : s.Timely Good ext id m) {op : Op}
    {ans : Answer} (hreq : s.request m = some (op, ans)) : s.Writes Good id m op ans := by
  cases m with
  | answer k a =>
    simp only [request] at hreq
    split at hreq
    · next op' why hk =>
      cases hreq
      have hfits := hs.threads _ (List.mem_of_getElem? hk)
      refine ⟨?_, ?_, ?_⟩
      · rintro next (rfl | rfl)
        · exact hfits rfl
        · exact absurd (List.mem_of_getElem? hk) (hs.cursors next why)
      · rintro r t₀ ts rfl heq next hnext t cursor ht rfl
        have hread : s.reads id (.answer k a) = some (a, t₀.schedule) := by
          simp [reads, hk, heq]
        rw [← hfits t₀ (List.mem_cons_self ..) heq t ht]
        exact hm.reads a _ hread cursor hnext
      · rintro t rfl heq
        simp [saves, answered, hk, heq]
    · cases hreq
      exact ⟨by simp, by simp, by simp⟩
    · cases hreq
  | write ok =>
    have hloop := hs.loop
    simp only [request] at hreq
    split at hreq
    · next hl =>
      cases hreq
      rw [hl] at hloop
      refine ⟨?_, by simp, by simp⟩
      rintro next (heq | heq) t cursor ht rfl <;> cases heq
      exact hloop.1 rfl t ht
    · next now t₀ due next₀ rest hl =>
      cases hreq
      rw [hl] at hloop
      refine ⟨?_, by simp, by simp⟩
      rintro next (heq | heq) t cursor ht hnext <;> cases heq
      obtain ⟨hsch, hgood, _⟩ := hloop.1 rfl
      obtain ⟨v, hv, rfl⟩ := Option.map_eq_some_iff.mp hnext
      rw [← hsch t ht]
      exact hgood v hv
    · cases hreq
  | _ => cases hreq

/-- STEP: the cursor in the row is good. -/
theorem Cursors.step_row (hs : s.Cursors Good ext id) (hm : s.Timely Good ext id m)
    (h : s.step m = some s') : ∀ t, s'.row id = some t → t.isSchedulable = true →
      ∀ cursor, t.nextWakeup = some cursor → Good t.schedule cursor := by
  intro t' ht' hsched cursor hcursor
  rw [Scheduler.step_row h id] at ht'
  cases hreq : s.request m with
  | none => rw [hreq] at ht'; exact hs.row t' ht' hsched cursor hcursor
  | some req =>
    obtain ⟨op, ans⟩ := req
    rw [hreq] at ht'
    have hwrites := hs.writes hm hreq
    rcases Op.rowAfter_edit ht' with ⟨hsave, heq⟩ | ⟨t, ht, hedit⟩
    · exact (hm.saves t' (hwrites.saved t' hsave heq)).1 hsched cursor hcursor
    · cases hedit with
      | same | labelled => exact hs.row _ ht hsched cursor hcursor
      | woken next => exact hwrites.woken next (Or.inl rfl) t cursor ht hcursor
      | stored next => exact hwrites.woken next (Or.inr rfl) t cursor ht hcursor
      | restored r t₀ ts next _ heq hnext =>
        exact hwrites.restored r t₀ ts rfl heq next hnext t cursor ht hcursor
      -- the other edits clear the cursor
      | _ => cases hcursor

/-- What a call leaves to write is good. -/
theorem Cursors.leads (hs : s.Cursors Good ext id) (hm : s.Timely Good ext id m) {k : Nat}
    {ans : Answer} {op op' : Op} {why why' : Cause} (hk : s.threads[k]? = some (.running op why))
    (hans : m = .answer k ans) (h : Leads (s.supported op ans) s.core op op') :
    (Thread.running op' why').Fits Good id (s.row id) := by
  subst hans
  have hfits := hs.threads _ (List.mem_of_getElem? hk)
  cases h with
  | read id' t next hrow hnext =>
    intro heq t₀ cursor ht₀ hc
    subst heq
    have hread : s.reads id' (.answer k ans) = some (ans, t₀.schedule) := by
      simp [reads, hk, ht₀]
    refine hm.reads ans _ hread cursor ?_
    rw [← hc]
    exact hnext
  | resumed => exact hfits
  | listed r =>
    intro t ht heq t₀ ht₀
    have hrow : s.row t.id = some t := hs.keyed.of_list (List.mem_of_mem_filter ht)
    rw [heq, ht₀] at hrow
    cases hrow
    rfl
  | refused | restored => exact fun t' ht' => hfits t' (List.mem_cons_of_mem _ ht')
  | _ => trivial

/-- STEP: what the threads have to write is good. -/
theorem Cursors.step_threads (hs : s.Cursors Good ext id) (hm : s.Timely Good ext id m)
    (h : s.step m = some s') : ∀ th ∈ s'.threads, th.Fits Good id (s'.row id) := by
  intro th hth
  rcases step_thread h hth with hth | hbegins | ⟨k, old, next, hthread, hk, hgoes, hth⟩
  · rcases hm.schedule h with hsame | hforgotten
    · exact (hs.threads th hth).same hsame
    · exact .of_awaits (hforgotten.2 th hth)
  · cases hbegins with
    | @called c hext => cases c <;> trivial
    | _ => trivial
  · cases hgoes with
    | @answered k' ans op why =>
      cases hthread
      rcases Thread.after_ops hth with rfl | ⟨op', hop', rfl⟩
      · trivial
      · have hleads := Op.step_leads hop'
        have hsaves : s.saves id (.answer k ans) = none := by
          simp only [saves, answered, hk]
          cases hleads <;> rfl
        exact (hs.leads hm hk rfl hleads).same (step_schedule h hsaves)
    | unregistered | ended =>
      obtain rfl := List.mem_singleton.mp hth
      trivial
    | @triggered k a a' runId b b' due why why' hb =>
      rcases Batch.after_ops hth with rfl | rfl | rfl | ⟨op, hop, rfl⟩
      · trivial
      · trivial
      · trivial
      · have hreports := Batch.report_ops (Batch.stepWith_task hb).1 hop
        cases hreports <;> trivial

/-- STEP: what the loop has to write is good. -/
theorem Cursors.step_loop (hs : s.Cursors Good ext id) (hsucc : Successive Good ext)
    (hm : s.Timely Good ext id m) (h : s.step m = some s') :
    s'.loop.Fits Good ext id (s'.row id) := by
  have hfits := hs.loop
  have hturns := Scheduler.step_loop h
  generalize s'.loop = l at hturns
  have hsame : m.thread = none → SameSchedule (s.row id) (s'.row id) := by
    intro hm
    refine step_schedule h ?_
    cases m with
    | answer k ans => cases hm
    | _ => rfl
  -- what was listed and is not the head of the list
  have htail : ∀ {now : Int} {t : Task} {rest : List Task}, s.loop = .looking now (t :: rest) →
      m.thread = none → Fitting Good ext id (s'.row id) now rest := by
    intro now t rest hl hm
    rw [hl] at hfits
    exact Fitting.same (fun t' ht' => hfits t' (List.mem_cons_of_mem _ ht')) (hsame hm)
  cases hturns with
  | same =>
    rcases hm.schedule h with hsame | hforgotten
    · exact hfits.same hsame
    · exact .of_holds hforgotten.1
  | ended | restarted => trivial
  | listed now =>
    have hrow : s'.row id = s.row id := Scheduler.step_row h id
    rw [hrow]
    intro t ht heq hacts
    have ht : s.row t.id = some t := hs.keyed.of_list ht
    rw [heq] at ht
    refine ⟨fun t₀ ht₀ => by rw [ht] at ht₀; cases ht₀; rfl, fun cursor hcursor => ?_⟩
    refine hs.row t ht ?_ cursor hcursor
    by_contra hsched
    rw [Task.acts_of_stopped (by simpa using hsched)] at hacts
    cases hacts
  | slept ans now t rest hl | rejected ans now t rest hl => exact htail hl rfl
  | stores ans now next t rest hl hd =>
    have hans : ans = ext.answer t.schedule now := by
      simpa [Scheduler.answers, asked, hl] using hm.answers
    have hacts : t.acts ext now = true := by simp [Task.acts, ← hans, hd]
    obtain ⟨hback, hnext⟩ := Task.decision_store hd
    refine ⟨fun heq t₁ ht₁ => ?_, htail hl rfl⟩
    rw [hl] at hfits
    obtain ⟨t₀, ht₀, hsch⟩ := hsame rfl t₁ ht₁
    rw [← hsch, ← (hfits t (List.mem_cons_self ..) heq hacts).1 t₀ ht₀]
    exact hm.looks ans now t rest rfl hl heq hback next (by rw [hans] at hnext; exact hnext)
  | fires ans now due next t rest hl hd =>
    have hans : ans = ext.answer t.schedule now := by
      simpa [Scheduler.answers, asked, hl] using hm.answers
    have hacts : t.acts ext now = true := by simp [Task.acts, ← hans, hd]
    obtain ⟨hnext, hdue⟩ := Task.decision_fire hd
    refine ⟨fun heq => ?_, htail hl rfl⟩
    have hfit := hfits
    rw [hl] at hfit
    obtain ⟨hschedule, hgood⟩ := hfit t (List.mem_cons_self ..) heq hacts
    refine ⟨fun t₁ ht₁ => ?_, fun v hv => ?_, fun hback => ?_⟩
    · obtain ⟨t₀, ht₀, hsch⟩ := hsame rfl t₁ ht₁
      rw [← hsch]
      exact hschedule t₀ ht₀
    · have hv : ext.nextAfter t.schedule now = .ok (some v) := by
        rw [hans, hv] at hnext
        exact hnext
      rcases hdue with hback | ⟨cursor, hcursor, _, hle⟩
      · exact hm.looks ans now t rest rfl hl heq hback v hv
      · exact hsucc t.schedule cursor now v (hgood cursor hcursor) hle hv
    · rcases hdue with hback' | ⟨cursor, hcursor, rfl, _⟩
      · rw [hback] at hback'; cases hback'
      · rw [timestamp_instantOf]
        exact hgood cursor hcursor
  | stored ok now id' next rest hl =>
    rw [hl] at hfits
    exact Fitting.same hfits.2 (hsame rfl)
  | unstored now t due next rest hl | advanced now t due next rest hl =>
    rw [hl] at hfits
    exact Fitting.same hfits.2 (hsame rfl)
  | returned now k rest hl =>
    rw [hl] at hfits
    exact Fitting.same hfits (hsame rfl)

theorem Cursors.after (hs : s.Cursors Good ext id) (hsucc : Successive Good ext)
    (hm : s.Timely Good ext id m) (h : s.step m = some s') : s'.Cursors Good ext id where
  keyed := step_keyed h hs.keyed
  cursors := step_cursors h hs.cursors
  row := hs.step_row hm h
  threads := hs.step_threads hm h
  loop := hs.step_loop hsucc hm h

end Scheduler

end Good

/-! ### Occurrences of the schedule, and those after an instant -/

/-- An occurrence of the schedule in a second after `instant`. -/
def OccursAfter (ext : ScheduleExtension) (instant : Int) (schedule : TaskSchedule)
    (cursor : Int) : Prop := Occurs ext schedule cursor ∧ instant < instantOf cursor

theorem stored_some {next : Except String (Option Int)} {cursor : Int}
    (h : stored next = .ok (some cursor)) : ∃ v, next = .ok (some v) ∧ timestamp v = cursor := by
  cases next with
  | error e => cases h
  | ok next =>
    cases next with
    | none => cases h
    | some v => cases h; exact ⟨v, rfl, rfl⟩

section
variable {ext : ScheduleExtension} {id : String} {instant : Int}

theorem occurs_of_stored {schedule : TaskSchedule} {clock cursor : Int}
    (h : stored (ext.nextAfter schedule clock) = .ok (some cursor)) :
    Occurs ext schedule cursor := by
  obtain ⟨v, hv, heq⟩ := stored_some h
  exact ⟨clock, v, hv, heq⟩

theorem occursAfter_of_stored {schedule : TaskSchedule} {clock cursor : Int}
    (hclock : instant ≤ clock)
    (hlater : ∀ v, ext.nextAfter schedule clock = .ok (some v) → timestamp clock < timestamp v)
    (h : stored (ext.nextAfter schedule clock) = .ok (some cursor)) :
    OccursAfter ext instant schedule cursor := by
  refine ⟨occurs_of_stored h, ?_⟩
  obtain ⟨v, hv, rfl⟩ := stored_some h
  exact Int.lt_of_le_of_lt hclock (lt_instantOf_of_lt (hlater v hv))

theorem successive_occurs : Successive (Occurs ext) ext :=
  fun _ _ now v _ _ hv => ⟨now, v, hv, rfl⟩

/-- LAW: with `next_after` later than what it is asked for, the cursors stay after `instant`. -/
theorem successive_occursAfter
    (hext : ∀ schedule a v, ext.nextAfter schedule a = .ok (some v) → a < v) :
    Successive (OccursAfter ext instant) ext := by
  rintro schedule cursor now v ⟨_, hlater⟩ hdue hv
  refine ⟨⟨now, v, hv, rfl⟩, ?_⟩
  have hnow : now < v := hext schedule now v hv
  have hle : cursor ≤ timestamp v := le_timestamp_of_le (by omega)
  have hmono : instantOf cursor ≤ instantOf (timestamp v) :=
    Int.mul_le_mul_of_nonneg_right hle (by decide)
  omega

namespace Scheduler
variable {s s' : Scheduler} {m : Move}

theorem Scheduled.timely (hm : s.Scheduled ext id m) : s.Timely (Occurs ext) ext id m where
  answers := hm.answers
  looks := fun _ now _ _ _ _ _ _ v hv => ⟨now, v, hv, rfl⟩
  reads := fun ans schedule hread cursor hnext => by
    obtain ⟨clock, hclock⟩ := hm.reads ans schedule hread
    exact occurs_of_stored (hclock.symm.trans hnext)
  saves := hm.saves

theorem Later.timely (hm : s.Scheduled ext id m) (hl : s.Later ext id instant m) :
    s.Timely (OccursAfter ext instant) ext id m where
  answers := hm.answers
  looks := fun ans now t rest _ hloop heq hback => by
    have hno := hl.looks
    simp [looksBack, hloop, heq, hback] at hno
  reads := fun ans schedule hread cursor hnext => by
    obtain ⟨clock, hle, hclock, hlater⟩ := hl.reads ans schedule hread
    exact occursAfter_of_stored hle hlater (hclock.symm.trans hnext)
  saves := fun t hsave => ⟨fun hsched cursor hcursor =>
    ⟨(hm.saves t hsave).1 hsched cursor hcursor, hl.saves t hsave hsched cursor hcursor⟩,
    (hm.saves t hsave).2⟩

theorem Resumes.timely (hm : s.Resumes ext id instant m) :
    s.Timely (OccursAfter ext instant) ext id m := by
  obtain ⟨hcall, hread⟩ := hm
  cases m with
  | answer k a =>
    refine ⟨rfl, by simp, fun ans schedule h cursor hnext => ?_, fun t hsave => ?_⟩
    · obtain ⟨hans, hlater⟩ := hread ans schedule h
      exact occursAfter_of_stored (Int.le_refl _) hlater (hans.symm.trans hnext)
    · unfold saves at hsave
      split at hsave
      · next hop => simp [hop, Op.resumes] at hcall
      · cases hsave
  | _ => cases hcall

/-- INVARIANT: in every state of a run that computes its cursors from the persisted schedule. -/
theorem reaches_cursors {db : Db} (hdb : db.Keyed) (hcomputed : (start db).Computed ext id)
    (hreach : Machine.ReachesBy step (Scheduled ext id) (start db) s) :
    s.Cursors (Occurs ext) ext id :=
  hreach.invariant (fun _ _ _ hs hm h => hs.after successive_occurs hm.timely h)
    ⟨hdb, by simp [start], hcomputed, by simp [start], trivial⟩

/-- A clear state has no cursor at or before `instant`. -/
theorem Clear.cursors (hc : s.Clear ext id instant) (hs : s.Cursors (Occurs ext) ext id) :
    s.Cursors (OccursAfter ext instant) ext id where
  keyed := hs.keyed
  cursors := hs.cursors
  row := fun t ht hsched cursor hcursor =>
    ⟨hs.row t ht hsched cursor hcursor, hc.row t ht hsched cursor hcursor⟩
  threads := fun th hth => by
    have hfits := hs.threads th hth
    have howes := hc.threads th hth
    unfold Thread.Fits at hfits ⊢
    split
    · next id' next why =>
      intro heq t cursor ht hnext
      exact ⟨hfits heq t cursor ht hnext, howes cursor (by simp [Thread.owes, heq, hnext])⟩
    · next id' next why =>
      intro heq t cursor ht hnext
      exact ⟨hfits heq t cursor ht hnext, howes cursor (by simp [Thread.owes, heq, hnext])⟩
    · exact hfits
    · trivial
  loop := .of_holds hc.loop

/-- STEP: the loop does not fire what is not after `instant`. -/
theorem Cursors.fires (hs : s.Cursors (OccursAfter ext instant) ext id)
    (hback : s.looksBack id = false) : s.fires id instant m = false := by
  unfold Scheduler.fires
  split
  · have hloop := hs.loop
    unfold looksBack at hback
    split
    · next now t due next rest hl =>
      rw [hl] at hloop hback
      refine Bool.and_eq_false_imp.mpr fun heq => ?_
      have heq : t.id = id := by simpa using heq
      have hgood := (hloop.1 heq).2.2 (by simpa [heq] using hback)
      simpa using hgood.2
    · rfl
  · rfl

/-! ### Runs -/

/-- RUN: from a state in which every cursor lies after `instant`. -/
theorem Cursors.along (hext : ∀ schedule a v, ext.nextAfter schedule a = .ok (some v) → a < v)
    (hs : s.Cursors (OccursAfter ext instant) ext id) {ms : List Move}
    (hmoves : Machine.Along step
      (fun s m => s.Scheduled ext id m ∧ s.Later ext id instant m) s ms) :
    Machine.Along step (fun s m => s.fires id instant m = false) s ms ∧
    Machine.Throughout step (Computed ext id) s ms := by
  have hcomputed : ∀ {s : Scheduler}, s.Cursors (OccursAfter ext instant) ext id →
      s.Computed ext id :=
    fun hs t ht hsched cursor hcursor => (hs.row t ht hsched cursor hcursor).1
  induction ms generalizing s with
  | nil => exact ⟨trivial, hcomputed hs⟩
  | cons m ms ih =>
    obtain ⟨⟨hm, hl⟩, hrest⟩ := hmoves
    have hafter : ∀ s', step s m = some s' → _ := fun s' h =>
      ih (hs.after (successive_occursAfter hext) (Later.timely hm hl) h) (hrest s' h)
    exact ⟨⟨hs.fires hl.looks, fun s' h => (hafter s' h).1⟩, hcomputed hs,
      fun s' h => (hafter s' h).2⟩

/-- A resume of the task at `instant` leaves the past alone, and the loop works from occurrences of
    the persisted schedule: if nothing of the task was under way when the resume read the clock, if
    the loop does not look back for it afterwards, if its occurrences fall into later seconds than
    the clock they are computed from, and if no edit changes the schedule behind a cursor that is
    still to be written. -/
theorem resumed_task_keeps_to_the_future
    (hext : ∀ schedule a v, ext.nextAfter schedule a = .ok (some v) → a < v)
    {db : Db} (hdb : db.Keyed) (hcomputed : (start db).Computed ext id) {s₁ : Scheduler}
    {ms : List Move} (hreach : Machine.ReachesBy step (Scheduled ext id) (start db) s)
    (hclear : s.Clear ext id instant) (hresume : s.Resumes ext id instant m)
    (hstep : step s m = some s₁)
    (hmoves : Machine.Along step
      (fun s m => s.Scheduled ext id m ∧ s.Later ext id instant m) s₁ ms) :
    Machine.Along step (fun s m => s.fires id instant m = false) s₁ ms ∧
    Machine.Throughout step (Computed ext id) s₁ ms :=
  ((hclear.cursors (reaches_cursors hdb hcomputed hreach)).after (successive_occursAfter hext)
    hresume.timely hstep).along hext hmoves

end Scheduler

end

namespace Scheduler

/-- An occurrence at every full minute. -/
def fullMinutes : ScheduleExtension where
  nextAfter := fun _ after => .ok (some ((after / (60 * second) + 1) * (60 * second)))
  latestDue := fun _ now _ => .ok (some (now / (60 * second) * (60 * second)))

theorem fullMinutes_later (schedule : TaskSchedule) (a v : Int)
    (h : fullMinutes.nextAfter schedule a = .ok (some v)) : a < v := by
  cases h
  exact Int.lt_ediv_add_one_mul_self a (by decide)

/-- A move that neither computes a cursor of the task nor saves it. -/
def plain (s : Scheduler) (m : Move) : Bool :=
  s.answers fullMinutes m && (s.reads "a" m).isNone && (s.saves "a" m).isNone

theorem plain.scheduled {s : Scheduler} {m : Move} (h : s.plain m = true) :
    s.Scheduled fullMinutes "a" m := by
  simp only [plain, Bool.and_eq_true, Option.isNone_iff_eq_none] at h
  obtain ⟨⟨hans, hreads⟩, hsaves⟩ := h
  exact ⟨hans, by simp [hreads], by simp [hsaves]⟩

theorem plain.later {s : Scheduler} {m : Move} {instant : Int} (h : s.plain m = true)
    (hback : s.looksBack "a" = false) : s.Later fullMinutes "a" instant m := by
  simp only [plain, Bool.and_eq_true, Option.isNone_iff_eq_none] at h
  obtain ⟨⟨_, hreads⟩, hsaves⟩ := h
  exact ⟨hback, by simp [hreads], by simp [hsaves]⟩

/-- A store with one suspended task. -/
def suspendedDb : Db :=
  ⟨Table.set ∅ "a" { phoneTask [] with id := "a", state := .suspended, enabled := false }, ∅⟩

theorem suspendedDb_keyed : suspendedDb.Keyed := by
  intro id t ht
  simp only [Db.getTimerTask, suspendedDb, Table.get_set, Table.get_empty] at ht
  split at ht
  · next heq => cases ht; exact heq.symm
  · cases ht

theorem suspendedDb_computed : (start suspendedDb).Computed fullMinutes "a" := by
  intro t ht hsched
  cases ht
  cases hsched

/-- The owner resumes the task; at second 90 the next occurrence is at second 120. -/
def resuming : Scheduler := (start suspendedDb).spawn (.running (.resumeTask "a") .runner)

def resumeAnswer : Answer := ⟨true, true, true, .ok (some 120)⟩

theorem resuming_reached :
    Machine.ReachesBy step (Scheduled fullMinutes "a") (start suspendedDb) resuming :=
  ⟨[.call (.resumeTask "a")], rfl, plain.scheduled (by decide), fun _ _ => trivial⟩

theorem resuming_clear : resuming.Clear fullMinutes "a" (instantOf 90) := by
  refine ⟨rfl, fun th hth cursor hcursor => ?_, fun t ht hsched => ?_⟩
  · obtain rfl := List.mem_singleton.mp hth
    cases hcursor
  · cases ht
    cases hsched

theorem resuming_resumes :
    resuming.Resumes fullMinutes "a" (instantOf 90) (.answer 0 resumeAnswer) := by
  refine ⟨rfl, fun ans schedule hread => ?_⟩
  cases hread
  exact ⟨by decide, fun next hnext => by cases hnext; decide⟩

/-- The look of the loop at the task. -/
def lookAt (now : Int) : Move := .look (fullMinutes.answer ⟨"cron", .null⟩ now)

/-- Both writes of the resume come before the next pass. -/
def writtenRun : List Move :=
  [.answer 0 granted, .answer 0 granted, .list (instantOf 120) true, lookAt (instantOf 120),
   .write true]

theorem resumed_task_keeps_to_the_future_written :
    ∃ s₁, step resuming (.answer 0 resumeAnswer) = some s₁ ∧
      Machine.Along step (fun s m => s.fires "a" (instantOf 90) m = false) s₁ writtenRun := by
  have hany : (step resuming (.answer 0 resumeAnswer)).any (fun s₁ => decide
      (Machine.Along step (fun s m => s.plain m = true ∧ s.looksBack "a" = false) s₁ writtenRun)) =
      true := by decide +kernel
  obtain ⟨s₁, hstep, hmoves⟩ := (Option.any_eq_true _ _).mp hany
  refine ⟨s₁, hstep, (resumed_task_keeps_to_the_future fullMinutes_later suspendedDb_keyed
    suspendedDb_computed resuming_reached resuming_clear resuming_resumes hstep ?_).1⟩
  exact (of_decide_eq_true hmoves).imp fun s m h => ⟨plain.scheduled h.1, plain.later h.1 h.2⟩

/-- The loop lists the task between the two writes of the resume. -/
def overtakingRun : List Move :=
  [.answer 0 granted, .list (instantOf 90) true, lookAt (instantOf 90), .write true]

theorem resumed_task_replays_the_past :
    ¬ ∀ (ext : ScheduleExtension) (db : Db) (id : String) (s s₁ : Scheduler) (instant : Int)
      (m : Move) (ms : List Move),
      (∀ schedule a v, ext.nextAfter schedule a = .ok (some v) → a < v) → db.Keyed →
      (start db).Computed ext id → Machine.ReachesBy step (Scheduled ext id) (start db) s →
      s.Resumes ext id instant m → step s m = some s₁ →
      Machine.Along step (Scheduled ext id) s₁ ms →
      Machine.Along step (fun s m => s.fires id instant m = false) s₁ ms ∧
      Machine.Throughout step (Computed ext id) s₁ ms := by
  intro hall
  have hany : (step resuming (.answer 0 resumeAnswer)).any (fun s₁ =>
      decide (Machine.Along step (fun s m => s.plain m = true) s₁ overtakingRun) &&
      decide (¬ Machine.Along step (fun s m => s.fires "a" (instantOf 90) m = false) s₁
        overtakingRun)) = true := by decide +kernel
  obtain ⟨s₁, hstep, hboth⟩ := (Option.any_eq_true _ _).mp hany
  obtain ⟨hmoves, hfires⟩ := Bool.and_eq_true_iff.mp hboth
  exact of_decide_eq_true hfires (hall fullMinutes suspendedDb "a" resuming s₁ (instantOf 90) _
    overtakingRun fullMinutes_later suspendedDb_keyed suspendedDb_computed resuming_reached
    resuming_resumes hstep ((of_decide_eq_true hmoves).imp fun s m h => plain.scheduled h)).1

end Scheduler

end Gamer.Timer
