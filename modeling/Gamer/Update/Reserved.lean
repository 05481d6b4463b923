import Gamer.Lib.Token
import Gamer.Update.Service

/-! A reservation that is cancelled. A tick reads the reservation once, and a cancellation decides from
    the flags of an install that has begun:

        tick:    read ──▶ refresh ──▶ workload ──▶ try_begin ──▶ guard        cancel:  test ──▶ store
                  └──────── the flags show nothing ────────┘                                       -/

namespace Gamer.Update
open Gamer.Lib Gamer.Lib.Machine Gamer.Lib.Token

variable {s s' : Service} {t : Nat} {task task' : Task}

/-- SAFETY: no install was started on behalf of a reservation that a `cancel_apply` had returned `Ok`
    for, and each `cancel_apply` called since it was made was answered `update_busy`. -/
def Service.KeepsCancelled (s : Service) : Prop :=
  ∀ install ∈ s.started, install.origin = .reserved →
    install.cancelled = false ∧ install.passed = false

/-- A cancellation passes its test while no install is on its way on behalf of the reservation, and
    can remove the reservation's file; a tick does not read the reservation while one is at it. -/
def Service.unhurried (s : Service) : Move → Bool
  | .cancelApply => s.txn || s.paused || s.tasks.all fun task => !task.reserved
  | .readApply _ => !s.applyRequested || !s.tasks.contains .cancelling
  | .store t ok => ok || s.tasks[t]? ≠ some .cancelling
  | _ => true

/-! ### The invariant -/

/-- INVARIANT: a reservation that stands was not cancelled since it was made, and one that is being
    acted on is not being cancelled. -/
structure Service.Unhurried (s : Service) : Prop where
  stands : s.applyRequested = true → s.cancelled = false
  passing : s.applyRequested = true → s.passed = true → ∃ k : Nat, s.tasks[k]? = some .cancelling
  acting : ∀ (k : Nat) (a : Task), s.tasks[k]? = some a → a.reserved = true →
    s.cancelled = false ∧ s.passed = false ∧ ∀ j : Nat, s.tasks[j]? ≠ some .cancelling
  started : s.KeepsCancelled

/-- What the invariant reads beside the tasks. -/
def Service.books (s : Service) : Bool × Bool × Bool × List Started :=
  (s.applyRequested, s.cancelled, s.passed, s.started)

theorem Service.Unhurried.of_books {s₁ : Service} (h : s.Unhurried) (hbooks : s₁.books = s.books)
    (htasks : s₁.tasks = s.tasks) : s₁.Unhurried := by
  simp only [Service.books, Prod.mk.injEq] at hbooks
  obtain ⟨happly, hcancelled, hpassed, hstarted⟩ := hbooks
  refine ⟨?_, ?_, ?_, ?_⟩
  · rw [happly, hcancelled]
    exact h.stands
  · rw [happly, hpassed, htasks]
    exact h.passing
  · rw [htasks, hcancelled, hpassed]
    exact h.acting
  · intro install hmem
    rw [hstarted] at hmem
    exact h.started install hmem

/-- A task that is no cancellation goes on, on behalf of no more than before. -/
theorem Service.Unhurried.keep (h : s.Unhurried) (ht : s.tasks[t]? = some task)
    (hne : task ≠ .cancelling) (hne' : task' ≠ .cancelling)
    (hreserved : task'.reserved = true → s.cancelled = false ∧ s.passed = false ∧
      ∀ j : Nat, s.tasks[j]? ≠ some .cancelling) : (s.setTask t task').Unhurried := by
  refine ⟨h.stands, ?_, ?_, h.started⟩
  · intro happly hpassed
    obtain ⟨k, hk⟩ := h.passing happly hpassed
    refine ⟨k, (getElem?_set_eq_some ht).mpr (Or.inr ⟨?_, hk⟩)⟩
    rintro rfl
    exact hne (Option.some.inj (ht.symm.trans hk))
  · intro k a ha hacting
    have hstill : s.cancelled = false ∧ s.passed = false ∧
        ∀ j : Nat, s.tasks[j]? ≠ some .cancelling := by
      rcases (getElem?_set_eq_some ht).mp ha with ⟨-, rfl⟩ | ⟨-, ha⟩
      · exact hreserved hacting
      · exact h.acting k a ha hacting
    refine ⟨hstill.1, hstill.2.1, ?_⟩
    intro j hj
    rcases (getElem?_set_eq_some ht).mp hj with ⟨-, rfl⟩ | ⟨-, hj⟩
    · exact hne' rfl
    · exact hstill.2.2 j hj

/-- A task goes on as what it was. -/
theorem Service.Unhurried.goes (h : s.Unhurried) (ht : s.tasks[t]? = some task)
    (hne : task ≠ .cancelling) (hne' : task' ≠ .cancelling)
    (hreserved : task'.reserved = true → task.reserved = true) : (s.setTask t task').Unhurried :=
  h.keep ht hne hne' fun hacting => h.acting t task ht (hreserved hacting)

theorem Service.Unhurried.push (h : s.Unhurried) (hne : task ≠ .cancelling)
    (hreserved : task.reserved = false) : (s.push task).Unhurried := by
  refine ⟨h.stands, ?_, ?_, h.started⟩
  · intro happly hpassed
    obtain ⟨k, hk⟩ := h.passing happly hpassed
    exact ⟨k, getElem?_push_eq_some.mpr (Or.inl hk)⟩
  · intro k a ha hacting
    rcases getElem?_push_eq_some.mp ha with ha | ⟨-, rfl⟩
    · obtain ⟨hcancelled, hpassed, hnone⟩ := h.acting k a ha hacting
      refine ⟨hcancelled, hpassed, ?_⟩
      intro j hj
      rcases getElem?_push_eq_some.mp hj with hj | ⟨-, heq⟩
      · exact hnone j hj
      · exact hne heq.symm
    · rw [hreserved] at hacting
      cases hacting

/-- A cancellation has passed its test. -/
theorem Service.Unhurried.cancel (h : s.Unhurried)
    (hnone : ∀ a ∈ s.tasks, a.reserved = false) :
    (Service.push { s with passed := true } .cancelling).Unhurried := by
  refine ⟨h.stands, ?_, ?_, h.started⟩
  · intro _ _
    exact ⟨s.tasks.length, getElem?_push_eq_some.mpr (Or.inr ⟨rfl, rfl⟩)⟩
  · intro k a ha hacting
    rcases getElem?_push_eq_some.mp ha with ha | ⟨-, rfl⟩
    · rw [hnone a (List.mem_of_getElem? ha)] at hacting
      cases hacting
    · cases hacting

/-- A cancellation returns `Ok`. -/
theorem Service.Unhurried.cancelled (h : s.Unhurried) (ht : s.tasks[t]? = some .cancelling) :
    (Service.setTask { s with applyRequested := false, cancelled := true } t .ended).Unhurried := by
  refine ⟨nofun, nofun, ?_, h.started⟩
  intro k a ha hacting
  rcases (getElem?_set_eq_some ht).mp ha with ⟨-, rfl⟩ | ⟨-, ha⟩
  · cases hacting
  · exact absurd ht ((h.acting k a ha hacting).2.2 t)

/-- A reservation is made. -/
theorem Service.Unhurried.applied (h : s.Unhurried) (ht : s.tasks[t]? = some .applying) :
    (Service.setTask { s with applyRequested := true, cancelled := false, passed := false }
      t .ended).Unhurried := by
  have hmade : Service.Unhurried
      { s with applyRequested := true, cancelled := false, passed := false } := by
    refine ⟨fun _ => rfl, nofun, ?_, h.started⟩
    intro k a ha hacting
    exact ⟨rfl, rfl, (h.acting k a ha hacting).2.2⟩
  exact hmade.goes ht nofun nofun nofun

/-- The reservation has been acted on, or has nothing to act on. -/
theorem Service.Unhurried.cleared (h : s.Unhurried) (ht : s.tasks[t]? = some .clearing)
    (ok : Bool) : (Service.setTask
      { s with applyRequested := if ok then false else s.applyRequested } t .ended).Unhurried := by
  have hcleared : Service.Unhurried
      { s with applyRequested := if ok then false else s.applyRequested } := by
    cases ok with
    | true => exact ⟨nofun, nofun, h.acting, h.started⟩
    | false => exact h
  exact hcleared.goes ht nofun nofun nofun

/-- An install is accepted. -/
theorem Service.Unhurried.accept {origin : Origin} (h : s.Unhurried)
    (ht : s.tasks[t]? = some (.installGuard origin)) :
    (Service.setTask { s with
      paused := true
      cachedState := .installing
      started := ⟨origin, s.cancelled, s.passed⟩ :: s.started } t (.installAudit origin)).Unhurried := by
  have hstarted : Service.Unhurried { s with
      paused := true
      cachedState := .installing
      started := ⟨origin, s.cancelled, s.passed⟩ :: s.started } := by
    refine ⟨h.stands, h.passing, h.acting, ?_⟩
    intro install hmem horigin
    rcases List.mem_cons.mp hmem with rfl | hmem
    · obtain ⟨hcancelled, hpassed, -⟩ := h.acting t _ ht (by simpa [Task.reserved] using horigin)
      exact ⟨hcancelled, hpassed⟩
    · exact h.started install hmem horigin
  exact hstarted.goes ht nofun nofun nofun

/-! ### The steps -/

theorem Service.Unhurried.learn {after : After} (h : s.Unhurried)
    (ht : s.tasks[t]? = some task) (hne : task ≠ .cancelling)
    (hsame : after.reserved = true → task.reserved = true) (status : Status) :
    (s.learn t status after).Unhurried := by
  obtain ⟨task', heq, -, hne', hreserved⟩ := Service.proceed_eq
    { s with cachedState := status.state.getD .idle } t (status.state.getD .idle) after
  rw [Service.learn, heq]
  have hcached : Service.Unhurried { s with cachedState := status.state.getD .idle } :=
    h.of_books rfl rfl
  exact hcached.goes ht hne hne' fun hacting => hsame (hreserved hacting)

theorem Service.Unhurried.stepRefresh {m : Move} (h : s.Unhurried) (ht : s.tasks[t]? = some task)
    (hs : s.stepRefresh t task m = some s') : s'.Unhurried := by
  unfold Service.stepRefresh at hs
  split at hs
  · rename_i after k status
    split at hs
    · cases hs
      have hended : Service.Unhurried { s with txn := false } := h.of_books rfl rfl
      exact hended.goes ht nofun nofun id
    · cases hs
      exact h.learn ht nofun id status
  · rename_i after k
    cases hs
    obtain ⟨task', heq, -, hne, hreserved⟩ := Service.unanswered_eq s t after
    rw [heq]
    exact h.goes ht nofun hne (by simp [hreserved])
  · rename_i after status k
    cases hs
    have hresumed : Service.Unhurried { s with paused := false } := h.of_books rfl rfl
    exact hresumed.learn ht nofun id status
  · cases hs

theorem Service.Unhurried.stepInstall {m : Move} (h : s.Unhurried) (ht : s.tasks[t]? = some task)
    (hs : s.stepInstall t task m = some s') : s'.Unhurried := by
  unfold Service.stepInstall at hs
  split at hs
  · cases hs
    exact h.goes ht nofun nofun id
  · split at hs
    · cases hs
      exact h.goes ht nofun nofun id
    · cases hs
      exact h.goes ht nofun nofun nofun
  · split at hs
    · cases hs
      exact h.goes ht nofun nofun nofun
    · cases hs
      have hbegun : Service.Unhurried { s with txn := true } := h.of_books rfl rfl
      exact hbegun.goes ht nofun nofun id
  · split at hs
    · cases hs
      exact h.goes ht nofun nofun nofun
    · cases hs
      exact h.accept ht
  · cases hs
    have hended : Service.Unhurried { s with txn := false } := h.of_books rfl rfl
    exact hended.goes ht nofun nofun nofun
  · rename_i origin _
    cases hs
    have hgoes : (s.setTask t .preparing).Unhurried := h.goes ht nofun nofun nofun
    have hne : (if origin = .reserved then Task.clearing else .ended) ≠ .cancelling := by
      split <;> nofun
    have hnone : (if origin = .reserved then Task.clearing else .ended).reserved = false := by
      split <;> rfl
    exact hgoes.push hne hnone
  · split at hs
    · cases hs
      exact h.goes ht nofun nofun nofun
    · cases hs
      exact h.goes ht nofun nofun nofun
  · cases hs
    have hresumed : Service.Unhurried { s with paused := false } := h.of_books rfl rfl
    exact hresumed.goes ht nofun nofun nofun
  · cases hs
    have hended : Service.Unhurried { s with txn := false, cachedState := .failed } :=
      h.of_books rfl rfl
    exact hended.goes ht nofun nofun nofun
  · cases hs

theorem Service.Unhurried.stepOp {m : Move} (h : s.Unhurried) (ht : s.tasks[t]? = some task)
    (hs : s.stepOp t task m = some s') : s'.Unhurried := by
  have hend : ∀ s₁ : Service, s₁.books = s.books → s₁.tasks = s.tasks → ∀ task',
      task ≠ .cancelling → task' ≠ .cancelling → task'.reserved = false →
      (s₁.setTask t task').Unhurried := by
    intro s₁ hbooks htasks task' hne hne' hreserved
    have h₁ : s₁.Unhurried := h.of_books hbooks htasks
    exact h₁.goes (by rw [htasks]; exact ht) hne hne' (by simp [hreserved])
  unfold Service.stepOp at hs
  split at hs
  · split at hs
    · cases hs
      exact hend s rfl rfl _ nofun nofun rfl
    · split at hs
      · cases hs
        exact hend { s with txn := true } rfl rfl _ nofun nofun rfl
      · cases hs
        exact hend { s with txn := true } rfl rfl _ nofun nofun rfl
  · rename_i ok state
    split at hs
    · cases hs
      exact hend { s with cachedState := state.getD s.cachedState } rfl rfl .ended nofun nofun rfl
    · cases hs
      exact hend s rfl rfl _ nofun nofun rfl
  · rename_i ok state
    split at hs
    · cases hs
      exact hend { s with cachedState := state.getD .rollingBack } rfl rfl .rollbackAccepted nofun
        nofun rfl
    · cases hs
      exact hend s rfl rfl _ nofun nofun rfl
  · cases hs
    exact hend { s with txn := false } rfl rfl _ nofun nofun rfl
  · cases hs
    exact hend { s with txn := false } rfl rfl _ nofun nofun rfl
  · cases hs
    exact hend { s with txn := false } rfl rfl _ nofun nofun rfl
  · cases hs

/-- A tick reads the reservation while no cancellation is at it. -/
theorem Service.Unhurried.stepTick {m : Move} (h : s.Unhurried) (ht : s.tasks[t]? = some task)
    (hread : ∀ k, m = .readApply k → s.applyRequested = true → Task.cancelling ∉ s.tasks)
    (hs : s.stepTick t task m = some s') : s'.Unhurried := by
  obtain ⟨-, hne, task', rfl, -, hne', hreserved⟩ := Service.stepTick_eq hs
  refine h.keep ht hne hne' ?_
  intro hacting
  obtain ⟨happly, k, rfl⟩ := hreserved hacting
  have hnone : ∀ j : Nat, s.tasks[j]? ≠ some .cancelling :=
    fun j hj => hread k rfl happly (List.mem_of_getElem? hj)
  refine ⟨h.stands happly, ?_, hnone⟩
  cases hpassed : s.passed with
  | false => rfl
  | true =>
    obtain ⟨j, hj⟩ := h.passing happly hpassed
    exact absurd hj (hnone j)

theorem Service.Unhurried.stepStore {ok : Bool} (h : s.Unhurried) (ht : s.tasks[t]? = some task)
    (hok : task = .cancelling → ok = true) (hs : s.stepStore t ok task = some s') :
    s'.Unhurried := by
  unfold Service.stepStore at hs
  split at hs
  · cases hs
    exact h.cleared ht ok
  · rw [if_pos (hok rfl)] at hs
    cases hs
    exact h.cancelled ht
  · split at hs
    · cases hs
      exact h.applied ht
    · cases hs
      exact h.goes ht nofun nofun nofun
  · cases hs

theorem Task.left_eq (task : Task) : task.left ≠ .cancelling ∧ task.left.reserved = false := by
  unfold Task.left
  split
  · exact ⟨nofun, rfl⟩
  · exact ⟨nofun, rfl⟩

/-- STEP: a step that keeps the condition acts on no reservation that was cancelled. -/
theorem Service.Unhurried.step {m : Move} (h : s.Unhurried) (hkept : s.unhurried m = true)
    (hs : s.step m = some s') : s'.Unhurried := by
  have hpush : ∀ (b : Bool) (after : After), after.reserved = false →
      (s.push (if b then .asking after else .ended)).Unhurried := by
    intro b after hafter
    cases b with
    | true => exact h.push nofun hafter
    | false => exact h.push nofun rfl
  cases m with
  | statusBody fresh =>
    cases hs
    cases fresh with
    | true => exact h.push nofun rfl
    | false => exact h.push nofun rfl
  | requestCheck =>
    cases hs
    refine h.push ?_ ?_
    · split <;> nofun
    · split <;> rfl
  | requestDownload =>
    cases hs
    exact hpush s.managed (.longOp .download) rfl
  | requestInstall =>
    cases hs
    exact hpush s.managed (.install .http) rfl
  | requestRollback | requestApply | tick =>
    cases hs
    exact h.push nofun rfl
  | cancelApply =>
    simp only [Service.step] at hs
    split at hs
    · cases hs
      exact h.push nofun rfl
    · rename_i hpasses
      cases hs
      refine h.cancel ?_
      intro a ha
      simp only [Service.unhurried, Bool.or_eq_true, List.all_eq_true] at hkept
      simp only [Bool.or_eq_true] at hpasses
      simpa using hkept.resolve_left hpasses a ha
  | setPolicy policy =>
    cases hs
    exact h.of_books rfl rfl
  | activity =>
    simp only [Service.step, Service.activity] at hs
    cases hres : s.reservation with
    | ok u =>
      simp only [hres] at hs
      cases hs
      exact h.of_books rfl rfl
    | error e =>
      simp only [hres] at hs
      cases hs
      exact h
  | dropActivity =>
    simp only [Service.step] at hs
    split at hs
    · cases hs
    · cases hs
      exact h.of_books rfl rfl
  | answer t _ | noAnswer t =>
    obtain ⟨task, ht, hs⟩ := Option.bind_eq_some_iff.mp hs
    exact h.stepRefresh ht hs
  | resume t =>
    obtain ⟨task, ht, hs⟩ := Option.bind_eq_some_iff.mp hs
    rcases or_eq_some hs with hs | hs
    · exact h.stepRefresh ht hs
    · exact h.stepInstall ht hs
  | getPolicy t | snapshot t _ _ _ _ _ =>
    obtain ⟨task, ht, hs⟩ := Option.bind_eq_some_iff.mp hs
    rcases or_eq_some hs with hs | hs
    · exact h.stepInstall ht hs
    · refine h.stepTick ht ?_ hs
      intro k hm
      cases hm
  | begin t | endTxn t =>
    obtain ⟨task, ht, hs⟩ := Option.bind_eq_some_iff.mp hs
    rcases or_eq_some hs with hs | hs
    · exact h.stepInstall ht hs
    · exact h.stepOp ht hs
  | guard t _ | audited t | prepare t _ =>
    obtain ⟨task, ht, hs⟩ := Option.bind_eq_some_iff.mp hs
    exact h.stepInstall ht hs
  | operate t ok state =>
    obtain ⟨task, ht, hs⟩ := Option.bind_eq_some_iff.mp hs
    exact h.stepOp ht hs
  | readApply t =>
    obtain ⟨task, ht, hs⟩ := Option.bind_eq_some_iff.mp hs
    refine h.stepTick ht ?_ hs
    intro k _ happly
    simpa [Service.unhurried, happly] using hkept
  | store t ok =>
    obtain ⟨task, ht, hs⟩ := Option.bind_eq_some_iff.mp hs
    refine h.stepStore ht ?_ hs
    rintro rfl
    simpa [Service.unhurried, ht] using hkept
  | drop t =>
    obtain ⟨task, ht, hs⟩ := Option.bind_eq_some_iff.mp hs
    split at hs
    · rename_i hdrops
      cases hs
      refine h.goes ht ?_ task.left_eq.1 (by simp [task.left_eq.2])
      rintro rfl
      cases hdrops
    · cases hs

/-! ### Runs -/

theorem start_unhurried (managed applyRequested : Bool) (policy : UpdatePolicy) :
    (start managed applyRequested policy).Unhurried := by
  refine ⟨fun _ => rfl, nofun, ?_, nofun⟩
  intro k a ha
  cases ha

/-- RUN: while no cancellation passes its test with a reserved install on its way, each can remove
    its file, and none is at it where a tick reads the reservation, no install is started on behalf
    of a cancelled reservation. -/
theorem Service.keepsCancelled_of_unhurried {managed applyRequested : Bool} {policy : UpdatePolicy}
    {moves : List Move}
    (hrun : exec Service.step (start managed applyRequested policy) moves = some s)
    (hkept : Along Service.step (fun s m => s.unhurried m = true)
      (start managed applyRequested policy) moves) : s.KeepsCancelled := by
  have h : s.Unhurried := ReachesBy.invariant (I := Service.Unhurried) ⟨moves, hrun, hkept⟩
    (fun s m s' h hkept hs => h.step hkept hs) (start_unhurried managed applyRequested policy)
  exact h.started

/-- A reservation is cancelled, made again and installed by a tick. -/
def reservedMoves : List Move :=
  [.requestApply, .answer 0 ⟨some .staged, false⟩, .store 0 true, .cancelApply, .store 1 true,
    .requestApply, .answer 2 ⟨some .staged, false⟩, .store 2 true, .tick, .getPolicy 3,
    .answer 3 ⟨some .staged, false⟩, .readApply 3, .answer 3 ⟨some .staged, false⟩, .getPolicy 3,
    .snapshot 3 0 0 none false false, .begin 3, .cancelApply, .guard 3 true]

theorem keepsCancelled_of_unhurried_reserved :
    (exec Service.step (start true false {}) reservedMoves).elim False
      fun s => s.KeepsCancelled ∧ s.started ≠ [] := by
  obtain ⟨s, hs⟩ : ∃ s, exec Service.step (start true false {}) reservedMoves = some s :=
    Option.isSome_iff_exists.mp (by decide +kernel)
  have hstarted : (exec Service.step (start true false {}) reservedMoves).map
      (fun s => s.started.length) = some 1 := by decide +kernel
  rw [hs] at hstarted ⊢
  refine ⟨Service.keepsCancelled_of_unhurried hs (by decide +kernel), ?_⟩
  intro hnil
  simp [hnil] at hstarted

/-- A tick has read the reservation, and it is cancelled before the install begins. -/
def cancelledMoves : List Move :=
  [.requestApply, .answer 0 ⟨some .staged, false⟩, .store 0 true, .tick, .getPolicy 1,
    .answer 1 ⟨some .staged, false⟩, .readApply 1, .cancelApply, .store 2 true,
    .answer 1 ⟨some .staged, false⟩, .getPolicy 1, .snapshot 1 0 0 none false false, .begin 1,
    .guard 1 true]

/-- The install is started although `cancel_apply` has returned `Ok`. -/
theorem not_keepsCancelled_between : ¬ ∀ (managed applyRequested : Bool) (policy : UpdatePolicy)
    (moves : List Move) (s : Service),
    exec Service.step (start managed applyRequested policy) moves = some s →
      s.KeepsCancelled := by
  intro h
  obtain ⟨s, hs⟩ : ∃ s, exec Service.step (start true false {}) cancelledMoves = some s :=
    Option.isSome_iff_exists.mp (by decide +kernel)
  have hkeeps := h true false {} cancelledMoves s hs
  have hstarted : (exec Service.step (start true false {}) cancelledMoves).map
      (fun s => s.started) = some [⟨.reserved, true, true⟩] := by decide +kernel
  rw [hs] at hstarted
  have hlog : s.started = [⟨.reserved, true, true⟩] := Option.some.inj hstarted
  have hmem : (⟨.reserved, true, true⟩ : Started) ∈ s.started := by
    rw [hlog]
    exact List.mem_singleton.mpr rfl
  cases (hkeeps _ hmem rfl).1

end Gamer.Update
