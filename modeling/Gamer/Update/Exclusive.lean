import Mathlib.Tactic.SplitIfs
import Gamer.Lib.Token
import Gamer.Update.Service

/-! One install or rollback at a time, and nothing admitted behind a frozen barrier. The transaction is
    a token that its holder's task has, with whether it has frozen admission:

        try_begin ──▶ some false ──▶ guard ──▶ some true ──▶ rejected ──▶ some false ──▶ end

    Three places end or resume what they have not begun: a refreshed status with a last error, the
    resume behind it, and the second end of a failed rollback.                                    -/

namespace Gamer.Update
open Gamer.Lib Gamer.Lib.Machine Gamer.Lib.Token

variable {s s' : Service} {t : Nat} {task task' : Task}

/-! ### What a service owes its transactions -/

/-- SAFETY: one task has the transaction, its flag stands as long, and a frozen barrier grants
    nothing. -/
structure Service.Exclusive (s : Service) : Prop where
  one : ∀ (j k : Nat) (a b : Task), s.tasks[j]? = some a → s.tasks[k]? = some b →
    a.holds.isSome → b.holds.isSome → j = k
  own : ∀ (k : Nat) (a : Task), s.tasks[k]? = some a → a.holds.isSome → s.txn = true
  grantsNothing : ∀ (k : Nat) (a : Task), s.tasks[k]? = some a → a.holds = some true →
    s.reservation = .error "软件更新中，暂不接受新的操作" ∧
      s.activity = .error "软件更新中，暂不接受新的操作"

/-- No install or rollback is in progress. -/
def Service.free (s : Service) : Bool := s.tasks.all fun task => task.holds.isNone

/-- No install has frozen admission. -/
def Service.thawed (s : Service) : Bool := s.tasks.all fun task => task.holds ≠ some true

/-- A status with a last error comes while no install or rollback is in progress, and neither is at
    the resume behind it or at the second end of a failed rollback. -/
def Service.kept (s : Service) : Move → Bool
  | .answer t status =>
    match s.tasks[t]? with
    | some (.asking _) => !status.clears || s.free
    | _ => true
  | .resume t =>
    match s.tasks[t]? with
    | some (.resuming ..) => s.thawed
    | _ => true
  | .endTxn t =>
    match s.tasks[t]? with
    | some .rollbackAgain => s.free
    | _ => true
  | _ => true

/-! ### The invariant -/

/-- INVARIANT: the transaction is a token of one task. -/
structure Service.Held (s : Service) (owner : Option (Nat × Bool)) : Prop where
  owned : Owned Task.holds owner s.tasks
  txn : owner ≠ none → s.txn = true
  paused : ∀ k, owner = some (k, true) → s.paused = true

theorem Service.Held.exclusive {owner : Option (Nat × Bool)} (h : s.Held owner) : s.Exclusive where
  one := by
    intro j k a b ha hb hja hkb
    obtain ⟨r, hr⟩ := Option.isSome_iff_exists.mp hja
    obtain ⟨r', hr'⟩ := Option.isSome_iff_exists.mp hkb
    exact h.owned.unique ha hr hb hr'
  own := by
    intro k a ha hka
    obtain ⟨r, hr⟩ := Option.isSome_iff_exists.mp hka
    have howner := (h.owned k r).mpr ⟨a, ha, hr⟩
    exact h.txn (by rw [howner]; exact Option.some_ne_none _)
  grantsNothing := by
    intro k a ha hfroze
    have hpaused := h.paused k ((h.owned k true).mpr ⟨a, ha, hfroze⟩)
    have hres : s.reservation = .error "软件更新中，暂不接受新的操作" := by
      simp [Service.reservation, hpaused]
    exact ⟨hres, by rw [Service.activity, hres]⟩

theorem Service.Held.of_free {owner : Option (Nat × Bool)} (h : s.Held owner)
    (hfree : s.free = true) : owner = none := by
  cases owner with
  | none => rfl
  | some x =>
    obtain ⟨a, ha, hr⟩ := (h.owned x.1 x.2).mp rfl
    have hnone := List.all_eq_true.mp hfree a (List.mem_of_getElem? ha)
    rw [hr] at hnone
    cases hnone

theorem Service.Held.of_thawed {owner : Option (Nat × Bool)} (h : s.Held owner)
    (hthawed : s.thawed = true) (k : Nat) : owner ≠ some (k, true) := by
  intro howner
  obtain ⟨a, ha, hr⟩ := (h.owned k true).mp howner
  have hne := List.all_eq_true.mp hthawed a (List.mem_of_getElem? ha)
  simp [hr] at hne

/-! ### One lemma for each effect -/

/-- FRAME: the tasks' hold on the transaction stays, and the flags stay or are raised. -/
theorem Service.Held.frame {owner : Option (Nat × Bool)} (h : s.Held owner)
    (howned : Owned Task.holds owner s'.tasks) (htxn : s.txn = true → s'.txn = true)
    (hpaused : s.paused = true → s'.paused = true) : s'.Held owner :=
  ⟨howned, fun hne => htxn (h.txn hne), fun k hk => hpaused (h.paused k hk)⟩

theorem Service.Held.push {owner : Option (Nat × Bool)} (h : s.Held owner)
    (hnone : task.holds = none) : (s.push task).Held owner :=
  h.frame (h.owned.push hnone) id id

theorem Service.Held.keep {owner : Option (Nat × Bool)} (h : s.Held owner)
    (ht : s.tasks[t]? = some task) (hsame : task'.holds = task.holds) :
    (s.setTask t task').Held owner :=
  h.frame (h.owned.keep ht hsame) id id

/-- A task that has the transaction knows that the flag stands. -/
theorem Service.Held.own {owner : Option (Nat × Bool)} {r : Bool} (h : s.Held owner)
    (ht : s.tasks[t]? = some task) (hr : task.holds = some r) : owner = some (t, r) :=
  (h.owned t r).mpr ⟨task, ht, hr⟩

/-- `try_begin` succeeds. -/
theorem Service.Held.take {owner : Option (Nat × Bool)} (h : s.Held owner)
    (ht : s.tasks[t]? = some task) (hfree : s.txn = false) (hr : task'.holds = some false) :
    (Service.setTask { s with txn := true } t task').Held (some (t, false)) := by
  have hnone : owner = none := by
    by_contra hne
    rw [h.txn hne] at hfree
    cases hfree
  subst hnone
  refine ⟨h.owned.take ht hr, fun _ => rfl, ?_⟩
  intro k hk
  cases hk

/-- The holder ends its transaction. -/
theorem Service.Held.give {owner : Option (Nat × Bool)} {r : Bool} (h : s.Held owner)
    (ht : s.tasks[t]? = some task) (hr : task.holds = some r) (hgone : task'.holds = none)
    {s₁ : Service} (hsame : s₁.tasks = s.tasks) : (s₁.setTask t task').Held none := by
  refine ⟨?_, fun hne => absurd rfl hne, ?_⟩
  · show Owned Task.holds none (s₁.tasks.set t task')
    rw [hsame]
    exact h.owned.give ht hr hgone
  · intro k hk
    cases hk

/-- The holder goes on, and thaws admission or leaves it as it is. -/
theorem Service.Held.thaw {owner : Option (Nat × Bool)} {r : Bool} (h : s.Held owner)
    (ht : s.tasks[t]? = some task) (hr : task.holds = some r) (hr' : task'.holds = some false)
    {s₁ : Service} (hsame : s₁.tasks = s.tasks) (htxn : s₁.txn = s.txn) :
    (s₁.setTask t task').Held (some (t, false)) := by
  refine ⟨?_, ?_, ?_⟩
  · show Owned Task.holds _ (s₁.tasks.set t task')
    rw [hsame]
    exact h.owned.change ht hr hr'
  · intro _
    show s₁.txn = true
    rw [htxn]
    exact h.txn (by rw [h.own ht hr]; exact Option.some_ne_none _)
  · intro k hk
    cases hk

/-- The guard freezes admission. -/
theorem Service.Held.freeze {owner : Option (Nat × Bool)} {r : Bool} (h : s.Held owner)
    (ht : s.tasks[t]? = some task) (hr : task.holds = some r) (hr' : task'.holds = some true)
    {s₁ : Service} (hsame : s₁.tasks = s.tasks) (htxn : s₁.txn = s.txn)
    (hpaused : s₁.paused = true) : (s₁.setTask t task').Held (some (t, true)) := by
  refine ⟨?_, ?_, fun _ _ => hpaused⟩
  · show Owned Task.holds _ (s₁.tasks.set t task')
    rw [hsame]
    exact h.owned.change ht hr hr'
  · intro _
    show s₁.txn = true
    rw [htxn]
    exact h.txn (by rw [h.own ht hr]; exact Option.some_ne_none _)

/-- Someone else ends a transaction that nobody has. -/
theorem Service.Held.endFree (h : s.Held none) {s₁ : Service} (hsame : s₁.tasks = s.tasks) :
    s₁.Held none := by
  refine ⟨by rw [hsame]; exact h.owned, fun hne => absurd rfl hne, ?_⟩
  intro k hk
  cases hk

/-- Someone else resumes a barrier that nobody has frozen. -/
theorem Service.Held.resumeFree {owner : Option (Nat × Bool)} (h : s.Held owner)
    (hthawed : ∀ k, owner ≠ some (k, true)) {s₁ : Service} (hsame : s₁.tasks = s.tasks)
    (htxn : s₁.txn = s.txn) : s₁.Held owner := by
  refine ⟨by rw [hsame]; exact h.owned, ?_, fun k hk => absurd hk (hthawed k)⟩
  intro hne
  rw [htxn]
  exact h.txn hne

/-! ### The steps -/

theorem Service.Held.learn {owner : Option (Nat × Bool)} {after : After} (h : s.Held owner)
    (ht : s.tasks[t]? = some task) (hsame : after.holds = task.holds) (status : Status) :
    (s.learn t status after).Held owner := by
  obtain ⟨task', heq, hholds, -⟩ := Service.proceed_eq
    { s with cachedState := status.state.getD .idle } t (status.state.getD .idle) after
  rw [Service.learn, heq]
  have hcached : Service.Held { s with cachedState := status.state.getD .idle } owner :=
    h.frame h.owned id id
  exact hcached.keep ht (hholds.trans hsame)

theorem Service.Held.stepRefresh {owner : Option (Nat × Bool)} {m : Move} (h : s.Held owner)
    (ht : s.tasks[t]? = some task)
    (hfree : ∀ after k status, task = .asking after → m = .answer k status →
      status.clears = true → s.free = true)
    (hthawed : ∀ after status, task = .resuming after status → s.thawed = true)
    (hs : s.stepRefresh t task m = some s') : s'.Held owner := by
  unfold Service.stepRefresh at hs
  split at hs
  · rename_i after k status
    split at hs
    · rename_i hclears
      have hnone := h.of_free (hfree after k status rfl rfl hclears)
      subst hnone
      cases hs
      have hended : Service.Held { s with txn := false } none := h.endFree rfl
      exact hended.keep ht rfl
    · cases hs
      exact h.learn ht rfl status
  · rename_i after k
    cases hs
    obtain ⟨task', heq, hholds, -⟩ := Service.unanswered_eq s t after
    rw [heq]
    exact h.keep ht hholds
  · rename_i after status k
    cases hs
    have hresumed : Service.Held { s with paused := false } owner :=
      h.resumeFree (h.of_thawed (hthawed after status rfl)) rfl rfl
    exact hresumed.learn ht rfl status
  · cases hs

theorem Service.Held.stepInstall {owner : Option (Nat × Bool)} {m : Move} (h : s.Held owner)
    (ht : s.tasks[t]? = some task) (hs : s.stepInstall t task m = some s') :
    ∃ owner', s'.Held owner' := by
  unfold Service.stepInstall at hs
  split at hs
  · cases hs
    exact ⟨owner, h.keep ht rfl⟩
  · split at hs
    · cases hs
      exact ⟨owner, h.keep ht rfl⟩
    · cases hs
      exact ⟨owner, h.keep ht rfl⟩
  · split at hs
    · cases hs
      exact ⟨owner, h.keep ht rfl⟩
    · rename_i hfree
      cases hs
      exact ⟨_, h.take ht (Bool.eq_false_iff.mpr hfree) rfl⟩
  · split at hs
    · cases hs
      exact ⟨owner, h.keep ht rfl⟩
    · cases hs
      exact ⟨_, h.freeze ht rfl rfl rfl rfl rfl⟩
  · cases hs
    exact ⟨none, h.give ht rfl rfl rfl⟩
  · rename_i origin _
    cases hs
    have hgoes : (s.setTask t .preparing).Held owner := h.keep ht rfl
    have hnone : (if origin = .reserved then Task.clearing else .ended).holds = none := by
      split <;> rfl
    exact ⟨owner, hgoes.push hnone⟩
  · split at hs
    · cases hs
      exact ⟨owner, h.keep ht rfl⟩
    · cases hs
      exact ⟨_, h.thaw ht rfl rfl rfl rfl⟩
  · cases hs
    exact ⟨_, h.thaw ht rfl rfl rfl rfl⟩
  · cases hs
    exact ⟨none, h.give ht rfl rfl rfl⟩
  · cases hs

theorem Service.Held.stepOp {owner : Option (Nat × Bool)} {m : Move} (h : s.Held owner)
    (ht : s.tasks[t]? = some task)
    (hfree : ∀ k, task = .rollbackAgain → m = .endTxn k → s.free = true)
    (hs : s.stepOp t task m = some s') : ∃ owner', s'.Held owner' := by
  unfold Service.stepOp at hs
  split at hs
  · split at hs
    · cases hs
      exact ⟨owner, h.keep ht rfl⟩
    · rename_i hbegun
      split at hs
      · cases hs
        exact ⟨_, h.take ht (Bool.eq_false_iff.mpr hbegun) rfl⟩
      · cases hs
        exact ⟨_, h.take ht (Bool.eq_false_iff.mpr hbegun) rfl⟩
  · rename_i ok state
    split at hs
    · cases hs
      have hcached : Service.Held { s with cachedState := state.getD s.cachedState } owner :=
        h.frame h.owned id id
      exact ⟨owner, hcached.keep ht rfl⟩
    · cases hs
      exact ⟨owner, h.keep ht rfl⟩
  · rename_i ok state
    split at hs
    · cases hs
      have hcached : Service.Held { s with cachedState := state.getD .rollingBack } owner :=
        h.frame h.owned id id
      exact ⟨owner, hcached.keep ht rfl⟩
    · cases hs
      exact ⟨owner, h.keep ht rfl⟩
  · cases hs
    exact ⟨none, h.give ht rfl rfl rfl⟩
  · rename_i k
    have hnone := h.of_free (hfree k rfl rfl)
    subst hnone
    cases hs
    have hended : Service.Held { s with txn := false } none := h.endFree rfl
    exact ⟨none, hended.keep ht rfl⟩
  · cases hs
    exact ⟨none, h.give ht rfl rfl rfl⟩
  · cases hs

theorem Service.Held.stepStore {owner : Option (Nat × Bool)} {ok : Bool} (h : s.Held owner)
    (ht : s.tasks[t]? = some task) (hs : s.stepStore t ok task = some s') : s'.Held owner := by
  unfold Service.stepStore at hs
  split at hs
  · cases hs
    have hstored : Service.Held
        { s with applyRequested := if ok then false else s.applyRequested } owner :=
      h.frame h.owned id id
    exact hstored.keep ht rfl
  · split at hs
    · cases hs
      have hstored : Service.Held { s with applyRequested := false, cancelled := true } owner :=
        h.frame h.owned id id
      exact hstored.keep ht rfl
    · cases hs
      exact h.keep ht rfl
  · split at hs
    · cases hs
      have hstored : Service.Held
          { s with applyRequested := true, cancelled := false, passed := false } owner :=
        h.frame h.owned id id
      exact hstored.keep ht rfl
    · cases hs
      exact h.keep ht rfl
  · cases hs

theorem Task.left_holds (task : Task) : task.left.holds = task.holds := by
  unfold Task.left
  split
  · rename_i hr
    rw [hr]
    rfl
  · rename_i hnone
    rw [hnone]
    rfl

/-- STEP: a step that keeps the condition keeps the transaction with its one task. -/
theorem Service.Held.step {owner : Option (Nat × Bool)} {m : Move} (h : s.Held owner)
    (hkept : s.kept m = true) (hs : s.step m = some s') : ∃ owner', s'.Held owner' := by
  cases m with
  | statusBody fresh =>
    cases hs
    exact ⟨owner, h.push (by cases fresh <;> rfl)⟩
  | requestCheck =>
    cases hs
    exact ⟨owner, h.push (by split <;> rfl)⟩
  | requestDownload | requestInstall =>
    cases hs
    exact ⟨owner, h.push (by split <;> rfl)⟩
  | requestRollback | requestApply | tick =>
    cases hs
    exact ⟨owner, h.push rfl⟩
  | cancelApply =>
    simp only [Service.step] at hs
    split at hs
    · cases hs
      exact ⟨owner, h.push rfl⟩
    · cases hs
      have hpassed : Service.Held { s with passed := true } owner := h.frame h.owned id id
      exact ⟨owner, hpassed.push rfl⟩
  | setPolicy policy =>
    cases hs
    exact ⟨owner, h.frame h.owned id id⟩
  | activity =>
    simp only [Service.step, Service.activity] at hs
    cases hres : s.reservation with
    | ok u =>
      simp only [hres] at hs
      cases hs
      exact ⟨owner, h.frame h.owned id id⟩
    | error e =>
      simp only [hres] at hs
      cases hs
      exact ⟨owner, h⟩
  | dropActivity =>
    simp only [Service.step] at hs
    split at hs
    · cases hs
    · cases hs
      exact ⟨owner, h.frame h.owned id id⟩
  | answer t status =>
    obtain ⟨task, ht, hs⟩ := Option.bind_eq_some_iff.mp hs
    refine ⟨owner, h.stepRefresh ht ?_ ?_ hs⟩
    · rintro after k status' rfl hm hclears
      cases hm
      simpa [Service.kept, ht, hclears] using hkept
    · rintro after status' rfl
      cases hs
  | noAnswer t =>
    obtain ⟨task, ht, hs⟩ := Option.bind_eq_some_iff.mp hs
    refine ⟨owner, h.stepRefresh ht ?_ ?_ hs⟩
    · rintro after k status' rfl hm
      cases hm
    · rintro after status' rfl
      cases hs
  | resume t =>
    obtain ⟨task, ht, hs⟩ := Option.bind_eq_some_iff.mp hs
    rcases or_eq_some hs with hs | hs
    · refine ⟨owner, h.stepRefresh ht ?_ ?_ hs⟩
      · rintro after k status' rfl hm
        cases hm
      · rintro after status' rfl
        simpa [Service.kept, ht] using hkept
    · exact h.stepInstall ht hs
  | getPolicy t | snapshot t _ _ _ _ _ =>
    obtain ⟨task, ht, hs⟩ := Option.bind_eq_some_iff.mp hs
    rcases or_eq_some hs with hs | hs
    · exact h.stepInstall ht hs
    · obtain ⟨hnone, -, task', rfl, hnone', -⟩ := Service.stepTick_eq hs
      exact ⟨owner, h.keep ht (hnone'.trans hnone.symm)⟩
  | begin t =>
    obtain ⟨task, ht, hs⟩ := Option.bind_eq_some_iff.mp hs
    rcases or_eq_some hs with hs | hs
    · exact h.stepInstall ht hs
    · refine h.stepOp ht ?_ hs
      rintro k rfl hm
      cases hm
  | guard t _ | audited t | prepare t _ =>
    obtain ⟨task, ht, hs⟩ := Option.bind_eq_some_iff.mp hs
    exact h.stepInstall ht hs
  | operate t ok state =>
    obtain ⟨task, ht, hs⟩ := Option.bind_eq_some_iff.mp hs
    refine h.stepOp ht ?_ hs
    rintro k rfl hm
    cases hm
  | endTxn t =>
    obtain ⟨task, ht, hs⟩ := Option.bind_eq_some_iff.mp hs
    rcases or_eq_some hs with hs | hs
    · exact h.stepInstall ht hs
    · refine h.stepOp ht ?_ hs
      rintro k rfl hm
      simpa [Service.kept, ht] using hkept
  | readApply t =>
    obtain ⟨task, ht, hs⟩ := Option.bind_eq_some_iff.mp hs
    obtain ⟨hnone, -, task', rfl, hnone', -⟩ := Service.stepTick_eq hs
    exact ⟨owner, h.keep ht (hnone'.trans hnone.symm)⟩
  | store t ok =>
    obtain ⟨task, ht, hs⟩ := Option.bind_eq_some_iff.mp hs
    exact ⟨owner, h.stepStore ht hs⟩
  | drop t =>
    obtain ⟨task, ht, hs⟩ := Option.bind_eq_some_iff.mp hs
    split at hs
    · cases hs
      exact ⟨owner, h.keep ht task.left_holds⟩
    · cases hs

/-! ### Runs -/

theorem start_held (managed applyRequested : Bool) (policy : UpdatePolicy) :
    (start managed applyRequested policy).Held none := by
  refine ⟨Owned.nil, fun hne => absurd rfl hne, ?_⟩
  intro k hk
  cases hk

/-- RUN: while no status with a last error, no resume behind one and no second end of a rollback
    meets an install or a rollback in progress, each of them is alone, its flag stands, and what a
    guard has frozen grants nothing. -/
theorem Service.exclusive_of_kept {managed applyRequested : Bool} {policy : UpdatePolicy}
    {moves : List Move}
    (hrun : exec Service.step (start managed applyRequested policy) moves = some s)
    (hkept : Along Service.step (fun s m => s.kept m = true)
      (start managed applyRequested policy) moves) : s.Exclusive := by
  obtain ⟨owner, h⟩ := ReachesBy.invariant (I := fun s => ∃ owner, Service.Held s owner)
    ⟨moves, hrun, hkept⟩ (fun s m s' ⟨owner, h⟩ hkept hs => h.step hkept hs)
    ⟨none, start_held managed applyRequested policy⟩
  exact h.exclusive

/-- An install and then a rollback that fails, alone. -/
def quietMoves : List Move :=
  [.requestInstall, .answer 0 ⟨some .staged, false⟩, .getPolicy 0,
    .snapshot 0 0 0 none false false, .begin 0, .guard 0 true, .audited 0, .prepare 0 false,
    .resume 0, .endTxn 0, .requestRollback, .begin 2, .noAnswer 2, .endTxn 2, .endTxn 2]

theorem exclusive_of_kept_quiet : (exec Service.step (start true false {}) quietMoves).elim False
    fun s => s.Exclusive := by
  obtain ⟨s, hs⟩ : ∃ s, exec Service.step (start true false {}) quietMoves = some s :=
    Option.isSome_iff_exists.mp (by decide +kernel)
  rw [hs]
  exact Service.exclusive_of_kept hs (by decide +kernel)

/-- An install is with the launcher, and a poll is answered with the error of the attempt before. -/
def pollMoves : List Move :=
  [.requestInstall, .answer 0 ⟨some .staged, false⟩, .getPolicy 0,
    .snapshot 0 0 0 none false false, .begin 0, .guard 0 true, .audited 0,
    .statusBody false, .answer 2 ⟨some .staged, true⟩, .resume 2, .activity,
    .requestRollback, .begin 3]

/-- Two transactions are in progress, and the barrier has granted an activity. -/
theorem not_exclusive_poll : ¬ ∀ (managed applyRequested : Bool) (policy : UpdatePolicy)
    (moves : List Move) (s : Service),
    exec Service.step (start managed applyRequested policy) moves = some s → s.Exclusive := by
  intro h
  obtain ⟨s, hs⟩ : ∃ s, exec Service.step (start true false {}) pollMoves = some s :=
    Option.isSome_iff_exists.mp (by decide +kernel)
  have hexclusive := h true false {} pollMoves s hs
  have hrun : (exec Service.step (start true false {}) pollMoves).map
      (fun s => (s.tasks[0]?, s.tasks[3]?)) =
        some (some .preparing, some (.asking .rollback)) := by decide +kernel
  rw [hs] at hrun
  obtain ⟨h0, h3⟩ := Prod.mk.inj (Option.some.inj hrun)
  cases hexclusive.one 0 3 _ _ h0 h3 rfl rfl

end Gamer.Update
