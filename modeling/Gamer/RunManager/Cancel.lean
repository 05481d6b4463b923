import Mathlib.Control.Monad.Basic
import Mathlib.Data.Fintype.EquivFin
import Gamer.RunManager.Invariant

/-! Cancellation and completion: an accepted `cancel` decides how a run ends, whatever its
    executor does afterwards, and every run ends once, with one call of its hook. -/

namespace Gamer.RunManager
open Gamer.Lib

/-! ### Every run task ends -/

/-- A bound on the actions a task still takes. -/
def Phase.remaining : Phase → Nat
  | .spawned => 15
  | .guarded => 14
  | .preparing => 13
  | .prepared => 12
  | .acquired => 11
  | .marked => 10
  | .entering => 9
  | .executing => 8
  | .executed _ => 7
  | .prepareFailed _ => 6
  | .releasing _ => 6
  | .completing _ => 5
  | .hooking _ => 4
  | .dropping => 3
  | .observing _ => 2
  | .dropHook _ => 1
  | .done => 0

/-- RANK: every action of a task brings it closer to its end. -/
theorem taskStep_remaining {s s' : State} {id : RunId} {t : Task} {input : Input} {now : Time}
    (h : s.taskStep id t input now = some s') :
    ∃ t', s'.tasks.get id = some t' ∧ t'.phase.remaining < t.phase.remaining := by
  obtain ⟨req, given, phase, onFinish⟩ := t
  cases phase with
  | executed result =>
    cases result <;> cases input <;> cases h <;>
      exact ⟨_, Table.get_set_self _ _ _, by simp [Phase.remaining]⟩
  | dropping =>
    cases input <;> try cases h
    simp only [State.taskStep] at h
    split at h
    · cases h
    · split at h <;> cases h <;> exact ⟨_, Table.get_set_self _ _ _, by simp [Phase.remaining]⟩
  | guarded =>
    cases input <;> cases h
    refine ⟨_, Table.get_set_self _ _ _, ?_⟩
    cases s.isCancelled id <;> simp [Phase.remaining]
  | marked =>
    cases input <;> cases h
    refine ⟨_, Table.get_set_self _ _ _, ?_⟩
    cases s.isCancelled id <;> simp [Phase.remaining]
  | entering =>
    cases input <;> cases h
    refine ⟨_, Table.get_set_self _ _ _, ?_⟩
    cases s.runs.get id <;> simp [Phase.remaining]
  | _ =>
    cases input <;> cases h <;> exact ⟨_, Table.get_set_self _ _ _, by simp [Phase.remaining]⟩

/-- No task waits for anything but the lock: some input takes it on. -/
theorem taskStep_enabled {s : State} {t : Task} (id : RunId) (hd : s.devLock = none)
    (hp : t.phase ≠ .done) : ∃ input s', s.taskStep id t input 0 = some s' := by
  obtain ⟨req, given, phase, onFinish⟩ := t
  cases phase with
  | preparing => exact ⟨.prepareOk, _, rfl⟩
  | prepared => exact ⟨.acquireOk, _, rfl⟩
  | executing => exact ⟨.executeOk [], _, rfl⟩
  | executed result => cases result <;> exact ⟨.tick, _, rfl⟩
  | releasing outcome => exact ⟨.released, _, rfl⟩
  | dropping =>
    refine ⟨.tick, ?_⟩
    simp only [State.taskStep, hd]
    cases State.finalize s id 0 with
    | none => exact ⟨_, rfl⟩
    | some p => exact ⟨_, rfl⟩
  | done => exact absurd rfl hp
  | _ => exact ⟨.tick, _, rfl⟩

/-- A new id is always left for `Uuid::new_v4`. -/
theorem exists_fresh (ids : List RunId) : ∃ id, id ∉ ids := by
  obtain ⟨id, hid⟩ := Infinite.exists_notMem_finset ids.toFinset
  exact ⟨id, fun h => hid (List.mem_toFinset.mpr h)⟩

/-- The submission that holds the lock can always let it go, and no task notices. -/
theorem Inv.unlock {s : State} (hinv : Inv s) {c : Caller} (hc : s.devLock = some c) :
    ∃ s', Machine.Reaches State.step s s' ∧ s'.devLock = none ∧
      ∀ id t, s.tasks.get id = some t → s'.tasks.get id = some t := by
  -- the last step, from the entry to the slot
  have hslot : ∀ {s : State} {req : StartRequest} {h : Bool} {r : RunRecord}, Inv s →
      s.submits.get c = some (.inserted req h r) → ∃ s', Machine.Reaches State.step s s' ∧
        s'.devLock = none ∧ ∀ id t, s.tasks.get id = some t → s'.tasks.get id = some t := by
    intro s req h r hinv hp
    refine ⟨_, .single (a := .insertSlot c) (by simp only [State.step, hp]; rfl), rfl,
      fun id t ht => ?_⟩
    have hne : id ≠ r.runId := by
      rintro rfl
      rw [(hinv.inserting c req h r hp).1] at ht; cases ht
    exact (Table.get_set_ne hne _ _).trans ht
  obtain ⟨p, hp, hh⟩ := hinv.locked.held c hc
  cases p with
  | passed req h => cases hh
  | answered r => cases hh
  | inserted req h r => exact hslot hinv hp
  | admitted req h =>
    obtain ⟨id, hid⟩ := exists_fresh s.inserted
    obtain ⟨s₁, hstep, hp₁, htasks₁⟩ : ∃ s₁, s.step (.insertRun c id 0) = some s₁ ∧
        s₁.submits.get c = some (.inserted req h (newRecord req id 0)) ∧ s₁.tasks = s.tasks := by
      refine ⟨{ s with
        runs := s.runs.set id ⟨newRecord req id 0, false, false⟩
        inserted := s.inserted ++ [id]
        submits := s.submits.set c (.inserted req h (newRecord req id 0)) }, ?_,
        Table.get_set_self _ _ _, rfl⟩
      simp only [State.step, hp]
      exact if_neg hid
    obtain ⟨s', hreach, hd, htasks⟩ := hslot (hinv.step hstep) hp₁
    exact ⟨s', (Machine.Reaches.single hstep).trans hreach, hd,
      fun id t ht => htasks id t (by rw [htasks₁]; exact ht)⟩

/-- The task of run `id` has run to its end. -/
def State.Finished (s : State) (id : RunId) : Prop :=
  ∃ t, s.tasks.get id = some t ∧ t.phase = .done

/-- A bound on the actions the task of run `id` still takes, now or once it is spawned. -/
def State.remaining (s : State) (id : RunId) : Nat :=
  match s.tasks.get id with
  | some t => t.phase.remaining
  | none => 15

/-- PROGRESS: from any state the task of a run can be taken to its end. -/
theorem Inv.task_ends {s : State} (hinv : Inv s) {id : RunId} (ht : s.tasks.get id ≠ none) :
    ∃ s', Machine.Reaches State.step s s' ∧ s'.Finished id := by
  refine Machine.Reaches.goal (I := fun s => Inv s ∧ s.tasks.get id ≠ none)
    (fun s => s.remaining id) ?_ ⟨hinv, ht⟩
  rintro s ⟨hinv, ht⟩ hopen
  obtain ⟨t, ht⟩ := Option.ne_none_iff_exists'.mp ht
  have hdone : t.phase ≠ .done := fun hp => hopen ⟨t, ht, hp⟩
  -- first let a submission that holds the lock finish
  obtain ⟨s₁, hreach₁, hd, ht₁⟩ : ∃ s₁, Machine.Reaches State.step s s₁ ∧ s₁.devLock = none ∧
      s₁.tasks.get id = some t := by
    cases hd : s.devLock with
    | none => exact ⟨s, .refl s, hd, ht⟩
    | some c =>
      obtain ⟨s₁, hreach, hfree, htasks⟩ := hinv.unlock hd
      exact ⟨s₁, hreach, hfree, htasks id t ht⟩
  have hinv₁ : Inv s₁ := hreach₁.invariant (fun _ _ _ hi hs => hi.step hs) hinv
  obtain ⟨input, s₂, hstep⟩ := taskStep_enabled id hd hdone
  obtain ⟨t₂, ht₂, hlt⟩ := taskStep_remaining hstep
  have hact : s₁.step (.task id input 0) = some s₂ := by
    simp only [State.step, ht₁, Option.bind_some]; exact hstep
  refine ⟨s₂, hreach₁.trans (.single hact), ⟨hinv₁.step hact, by simp [ht₂]⟩, ?_⟩
  simp only [State.remaining, ht, ht₂]
  exact hlt

/-! ### Every inserted run has a task, or soon gets one -/

theorem LifeStep.task_mono {id : RunId} {v v' : Life} (h : LifeStep id v v')
    (ht : v.task ≠ none) : v'.task ≠ none := by
  cases h with
  | insert w r hid hr => exact absurd rfl ht
  | watch => exact ht
  | cancel e he hn => exact ht
  | _ => exact Option.some_ne_none _

theorem Effect.task_mono {s s' : State} {a : Action} (h : Effect s a s') (hinv : Inv s)
    {id : RunId} (ht : s.tasks.get id ≠ none) : s'.tasks.get id ≠ none := by
  cases h.moves hinv id with
  | still hm => rwa [show s'.tasks.get id = s.tasks.get id from congrArg Life.task hm]
  | watch hm => rwa [show s'.tasks.get id = s.tasks.get id from congrArg Life.task hm]
  | lives _ hm => exact hm.task_mono ht

/-- An inserted run has its task, or the submission that will spawn it still holds the lock. -/
def State.Owned (s : State) (id : RunId) : Prop :=
  s.tasks.get id ≠ none ∨
    ∃ c req h r, s.submits.get c = some (.inserted req h r) ∧ r.runId = id

theorem Effect.owned {s s' : State} {a : Action} (h : Effect s a s') (hinv : Inv s)
    (howned : ∀ id ∈ s.inserted, s.Owned id) : ∀ id ∈ s'.inserted, s'.Owned id := by
  intro id hid
  -- a submission in flight is not touched by the moves of the others
  have hother : ∀ {c : Caller} {p q : SubmitPhase}, s.Owned id → s'.submits = s.submits.set c p →
      (s.submits.get c = none ∨ s.submits.get c = some q ∧ ∀ req h r, q ≠ .inserted req h r) →
      s'.Owned id := by
    intro c p q hold hs hc
    rcases hold with ht | ⟨c', req, h', r, hp, hr⟩
    · exact Or.inl (h.task_mono hinv ht)
    · have hne : c' ≠ c := by
        rintro rfl
        rcases hc with hc | ⟨hc, hq⟩
        · rw [hp] at hc; cases hc
        · rw [hp] at hc; exact hq _ _ _ (Option.some.inj hc).symm
      exact Or.inr ⟨c', req, h', r, by rw [hs, Table.get_set_ne hne]; exact hp, hr⟩
  have hsame : s'.submits = s.submits → s.Owned id → s'.Owned id := by
    rintro hs (ht | hp)
    · exact Or.inl (h.task_mono hinv ht)
    · exact Or.inr (by rw [hs]; exact hp)
  cases h with
  | refuseNow c req h hc hd => exact hother (q := .passed req h) (howned id hid) rfl (.inl hc)
  | pass c req h hc hd => exact hother (q := .passed req h) (howned id hid) rfl (.inl hc)
  | refuse c req h e hl hc => exact hother (howned id hid) rfl (.inr ⟨hc, by simp⟩)
  | admits c req h slots hl hc hghost hslots =>
    exact hother (howned id hid) rfl (.inr ⟨hc, by simp⟩)
  | insertRun c req h id' now hc hid' =>
    rcases List.mem_append.mp hid with hid | hid
    · exact hother (howned id hid) rfl (.inr ⟨hc, by simp⟩)
    · rw [List.mem_singleton.mp hid]
      exact Or.inr ⟨c, req, h, newRecord req id' now, Table.get_set_self _ _ _, rfl⟩
  | insertSlot c req h r hc =>
    by_cases hr : id = r.runId
    · exact Or.inl (by rw [hr]; simp)
    · rcases howned id hid with ht | ⟨c', req', h', r', hp, hr'⟩
      · exact Or.inl (by rw [show Table.get _ id = _ from Table.get_set_ne hr _ _]; exact ht)
      · obtain rfl := hinv.locked.unique hc rfl c' _ hp rfl
        rw [hc] at hp; cases hp
        exact absurd hr'.symm hr
  | task id' t input now s' ht h =>
    exact hsame h.frame.submits (howned id (by rw [← h.frame.inserted]; exact hid))
  | cancel id' =>
    rcases s.cancel_cases id' with ⟨hs, _⟩ | ⟨_, e, he, hn, hs⟩ <;> rw [hs] at hid hsame ⊢ <;>
      exact hsame rfl (howned id hid)
  | force c id' ids hc =>
    rcases s.cancel_cases id' with ⟨hs, _⟩ | ⟨_, e, he, hn, hs⟩ <;> rw [hs] at hid hsame ⊢ <;>
      exact hsame rfl (howned id hid)
  | _ => exact hsame rfl (howned id hid)

theorem Reachable.owned {s : State} (h : Reachable s) : ∀ id ∈ s.inserted, s.Owned id := by
  have hboth : Inv s ∧ ∀ id ∈ s.inserted, s.Owned id := by
    refine Machine.Reaches.invariant (I := fun s => Inv s ∧ ∀ id ∈ s.inserted, s.Owned id) h ?_
      ⟨Inv.init, fun id hid => by cases hid⟩
    rintro s a s' ⟨hinv, howned⟩ hs
    exact ⟨hinv.step hs, (step_effect hs).owned hinv howned⟩
  exact hboth.2

/-! ### What is said about a run -/

/-- No call, or one that shows the verdict. -/
def Says (id : RunId) (cancelled : Bool) (calls : List HookCall) : Prop :=
  calls = [] ∨ ∃ r o, r.Verdict id cancelled ∧ o.outcomeClass = r.state ∧ calls = [⟨id, r, o⟩]

theorem Told.tells {id : RunId} {given cancelled : Bool} {r : RunRecord} {calls : List HookCall}
    (h : Told id given r calls) (hr : r.Verdict id cancelled) : Says id cancelled calls := by
  unfold Told at h
  cases given with
  | true =>
    obtain ⟨o, ho, hcalls⟩ := h
    exact Or.inr ⟨r, o, hr, ho, hcalls⟩
  | false => exact Or.inl h

theorem Owed.tells {id : RunId} {t : Task} {cancelled : Bool} {r : RunRecord}
    {hooks : List HookCall} (h : Owed id t r hooks) (hr : r.Verdict id cancelled) :
    Says id cancelled hooks := by
  rcases h with ⟨_, hnil⟩ | ⟨_, htold⟩
  · exact Or.inl hnil
  · exact htold.tells hr

/-- AGREEMENT: the archive, the hook and the observer show the verdict of the cancel. -/
theorem Life.Sound.tells {id : RunId} {v : Life} (h : v.Sound id) :
    (∀ r ∈ v.archived, r.Verdict id v.cancelled) ∧ Says id v.cancelled v.hooks ∧
      Says id v.cancelled v.observed := by
  have hsilent : v.Silent → (∀ r ∈ v.archived, r.Verdict id v.cancelled) ∧
      Says id v.cancelled v.hooks ∧ Says id v.cancelled v.observed := by
    rintro ⟨ha, hh, ho⟩
    exact ⟨by rw [ha]; simp, Or.inl hh, Or.inl ho⟩
  cases ht : v.task with
  | none => exact hsilent (h.waiting ht).1
  | some t =>
    have hat := h.stage t ht
    cases hp : t.phase with
    | hooking o => rw [hp] at hat; exact hsilent hat.1
    | dropping =>
      rw [hp] at hat
      obtain ⟨ha, ho, e, he, hcase⟩ := hat
      refine ⟨by rw [ha]; simp, ?_, Or.inl ho⟩
      rcases hcase with ⟨_, hh⟩ | ⟨hterm, _, htold⟩
      · exact Or.inl hh
      · have hkept := h.kept e he
        exact htold.tells ⟨hkept.keyed, hterm, hkept.verdict hterm⟩
    | observing r =>
      rw [hp] at hat
      obtain ⟨_, ha, hr, howed, ho⟩ := hat
      exact ⟨by rw [ha]; simpa using hr, howed.tells hr, Or.inl ho⟩
    | dropHook r =>
      rw [hp] at hat
      obtain ⟨_, ha, hr, howed, w, ho⟩ := hat
      exact ⟨by rw [ha]; simpa using hr, howed.tells hr, ho.tells hr⟩
    | done =>
      rw [hp] at hat
      obtain ⟨_, r, ha, hr, htold, w, ho⟩ := hat
      exact ⟨by rw [ha]; simpa using hr, htold.tells hr, ho.tells hr⟩
    | _ => rw [hp] at hat; exact hsilent hat.silent

/-! ### An installed observer is called -/

/-- Past its observer's call, a watched run has been observed. -/
def Life.Watched (v : Life) : Prop :=
  v.watched = true ∧ ∀ t, v.task = some t →
    (t.phase = .done ∨ ∃ r, t.phase = .dropHook r) → v.observed ≠ []

theorem LifeStep.watched {id : RunId} {v v' : Life} (h : LifeStep id v v') (hv : v.Watched)
    (hs : v.Sound id) : v'.Watched := by
  obtain ⟨hw, hobs⟩ := hv
  refine ⟨?_, ?_⟩
  · cases h <;> first | exact hw | rfl
  cases h with
  | insert w r hid hr => exact fun t ht => by cases ht
  | watch => exact hobs
  | cancel e he hn => exact hobs
  | vanish t ht hp he =>
    obtain ⟨_, _, e, he', _⟩ := hs.at_phase ht hp
    rw [he] at he'; cases he'
  | advance t q ht hp hq sound =>
    intro t' ht' hend
    cases ht'
    rcases hq with hq | rfl
    · rcases hend with hend | ⟨r, hend⟩
      · rw [show q = .done from hend] at hq; cases hq
      · rw [show q = .dropHook r from hend] at hq; cases hq
    · rcases hend with hend | ⟨r, hend⟩ <;> cases hend
  | observe t r ht hp =>
    intro t' ht' _
    show (if v.watched then v.observed ++ _ else v.observed) ≠ []
    rw [hw]
    simp
  | lastHook t r ht hp =>
    intro t' ht' _
    exact hobs t ht (Or.inr ⟨r, hp⟩)
  | _ =>
    intro t' ht' hend
    cases ht'
    rcases hend with hend | ⟨r, hend⟩ <;> cases hend

/-! ### The runs of the registry -/

/-- A record or call agrees with the answer `cancel` gave: terminal, and `cancelled` exactly if
    the cancellation of the run was accepted. -/
def State.Agrees (s : State) (id : RunId) (r : RunRecord) : Prop :=
  r.runId = id ∧ r.state.isTerminal = true ∧ (r.state = .cancelled ↔ id ∈ s.cancelAccepted)

theorem RunRecord.Verdict.agrees {s : State} {id : RunId} {r : RunRecord}
    (h : r.Verdict id (decide (id ∈ s.cancelAccepted))) : s.Agrees id r :=
  ⟨h.keyed, h.terminal, by simpa using h.cancelled⟩

theorem Says.agrees {s : State} {id : RunId} {calls : List HookCall}
    (h : Says id (decide (id ∈ s.cancelAccepted)) (calls.filter fun c => c.runId = id)) :
    ∀ c ∈ calls, c.runId = id → s.Agrees id c.record ∧ c.outcome.outcomeClass = c.record.state := by
  intro c hc hid
  have hmem : c ∈ calls.filter fun c => c.runId = id := List.mem_filter.mpr ⟨hc, by simpa using hid⟩
  rcases h with hnil | ⟨r, o, hr, ho, hcalls⟩
  · rw [hnil] at hmem; cases hmem
  · rw [hcalls] at hmem
    obtain rfl := List.mem_singleton.mp hmem
    exact ⟨hr.agrees, ho⟩

/-- The archive, the hook and the observer agree with the answers of `cancel`, in every state. -/
theorem Inv.agrees {s : State} (hinv : Inv s) (id : RunId) :
    (∀ r ∈ s.archived, r.runId = id → s.Agrees id r) ∧
    ∀ c ∈ s.hookCalls ++ s.observerCalls, c.runId = id →
      s.Agrees id c.record ∧ c.outcome.outcomeClass = c.record.state := by
  obtain ⟨ha, hh, ho⟩ := (hinv.sound id).tells
  refine ⟨fun r hr hid => ?_, fun c hc hid => ?_⟩
  · exact (ha r (List.mem_filter.mpr ⟨hr, by simpa using hid⟩)).agrees
  · rcases List.mem_append.mp hc with hc | hc
    · exact Says.agrees hh c hc hid
    · exact Says.agrees ho c hc hid

/-- What a finished run has left behind. -/
theorem Inv.finished {s : State} (hinv : Inv s) {id : RunId} {t : Task}
    (ht : s.tasks.get id = some t) (hp : t.phase = .done) :
    ∃ r, (s.archived.filter fun r => r.runId = id) = [r] ∧ s.Agrees id r ∧
      Told id t.given r (s.hookCalls.filter fun c => c.runId = id) ∧
      ∃ w : Bool, Told id w r (s.observerCalls.filter fun c => c.runId = id) := by
  obtain ⟨_, r, ha, hr, hh, ho⟩ := (hinv.sound id).at_phase ht hp
  exact ⟨r, ha, hr.agrees, hh, ho⟩

/-- WATCHED: an observer that is there before the run is archived has seen it once it finished. -/
theorem Reachable.watched {s₀ s : State} (h₀ : Reachable s₀) (h : Machine.Reaches State.step s₀ s)
    {id : RunId} (hw : s₀.resultHook = true) (hid : ∀ r ∈ s₀.archived, r.runId ≠ id) :
    (s.life id).Watched := by
  have hnil : (s₀.life id).archived = [] := by
    rw [List.eq_nil_iff_forall_not_mem]
    intro r hr
    obtain ⟨hmem, hkey⟩ := List.mem_filter.mp hr
    exact hid r hmem (by simpa using hkey)
  have hstart : (s₀.life id).Watched := by
    refine ⟨hw, fun t ht hend => ?_⟩
    have hat := (h₀.inv.sound id).stage t ht
    rcases hend with hp | ⟨r, hp⟩ <;> rw [hp] at hat
    · obtain ⟨_, r, ha, _⟩ := hat
      rw [hnil] at ha; cases ha
    · obtain ⟨_, ha, _⟩ := hat
      rw [hnil] at ha; cases ha
  have hboth : Inv s ∧ (s.life id).Watched := by
    refine Machine.Reaches.invariant (I := fun s => Inv s ∧ (s.life id).Watched) h ?_
      ⟨h₀.inv, hstart⟩
    rintro s a s' ⟨hinv, hv⟩ hs
    refine ⟨hinv.step hs, ?_⟩
    cases (step_effect hs).moves hinv id with
    | still hm => rw [hm]; exact hv
    | watch hm => rw [hm]; exact LifeStep.watch.watched hv (hinv.sound id)
    | lives _ hm => exact hm.watched hv (hinv.sound id)
  exact hboth.2

/-- PROGRESS: every inserted run can be taken to its end. -/
theorem Reachable.ends {s : State} (h : Reachable s) {id : RunId} (hid : id ∈ s.inserted) :
    ∃ s', Machine.Reaches State.step s s' ∧ s'.Finished id := by
  have hinv : Inv s := h.inv
  rcases h.owned id hid with ht | ⟨c, req, h', r, hp, rfl⟩
  · exact hinv.task_ends ht
  · obtain ⟨s₁, hstep, ht₁⟩ : ∃ s₁, s.step (.insertSlot c) = some s₁ ∧
        s₁.tasks.get r.runId ≠ none := by
      simp only [State.step, hp]
      exact ⟨_, rfl, by simp⟩
    obtain ⟨s', hreach, hend⟩ := (hinv.step hstep).task_ends ht₁
    exact ⟨s', (Machine.Reaches.single hstep).trans hreach, hend⟩

/-- The action is one of the task of run `id`. -/
def Action.isTaskOf (id : RunId) : Action → Bool
  | .task id' .. => id' == id
  | _ => false

/-- Only its own actions and its spawning touch the task of a run. -/
theorem Effect.task_still {s s' : State} {a : Action} (h : Effect s a s') (hinv : Inv s)
    {id : RunId} (ha : a.isTaskOf id = false) :
    s'.tasks.get id = s.tasks.get id ∨ s.tasks.get id = none := by
  cases h with
  | insertSlot c req h r hc =>
    by_cases hid : id = r.runId
    · exact Or.inr (by rw [hid]; exact (hinv.inserting c req h r hc).1)
    · exact Or.inl (Table.get_set_ne hid _ _)
  | task id' t input now s' ht heff =>
    have hid : id' ≠ id := by simpa [Action.isTaskOf] using ha
    exact Or.inl (congrArg Life.task (heff.life_other hid.symm fun e he => hinv.keyed he))
  | cancel id' =>
    left
    rcases s.cancel_cases id' with ⟨hs, _⟩ | ⟨_, e, he, hn, hs⟩ <;> rw [hs]
  | force c id' ids hc =>
    left
    rcases s.cancel_cases id' with ⟨hs, _⟩ | ⟨_, e, he, hn, hs⟩ <;> rw [hs]
  | _ => exact Or.inl rfl

theorem Phase.remaining_le (p : Phase) : p.remaining ≤ 15 := by
  cases p <;> simp [Phase.remaining]

theorem Inv.remaining_step {s s' : State} {a : Action} (hinv : Inv s) (h : s.step a = some s')
    (id : RunId) : (if a.isTaskOf id then 1 else 0) + s'.remaining id ≤ s.remaining id := by
  cases ha : a.isTaskOf id with
  | true =>
    cases a with
    | task id' input now =>
      obtain rfl : id' = id := by simpa [Action.isTaskOf] using ha
      obtain ⟨t, ht, hstep⟩ := Option.bind_eq_some_iff.mp h
      obtain ⟨t', ht', hlt⟩ := taskStep_remaining hstep
      simp only [State.remaining, ht, ht', if_true]
      omega
    | _ => cases ha
  | false =>
    rcases (step_effect h).task_still hinv ha with ht | ht
    · simp [State.remaining, ht]
    · simp only [State.remaining, ht]
      cases s'.tasks.get id with
      | none => simp
      | some t => simpa using t.phase.remaining_le

/-- BOUNDED: the task of a run takes at most fifteen actions, whatever else goes on. -/
theorem Inv.task_actions_le {s s' : State} {as : List Action} (hinv : Inv s)
    (h : Machine.exec State.step s as = some s') (id : RunId) :
    as.countP (Action.isTaskOf id) + s'.remaining id ≤ s.remaining id := by
  induction as generalizing s with
  | nil => cases h; simp
  | cons a as ih =>
    obtain ⟨m, hm, hrest⟩ := Machine.exec_cons_eq_some.mp h
    have hstep := hinv.remaining_step hm id
    have hrun := ih (hinv.step hm) hrest
    rw [List.countP_cons]
    omega

/-- CANCELLED RUNS: in every state the archive, the hook and the observer agree with the answers
    of `cancel`; a finished run has one record, one call of the hook it was given and one of an
    observer installed in time; every run is brought to its end by at most fifteen actions. -/
theorem accepted_cancel_decides_the_end :
    (∀ s, Reachable s → ∀ id, (∀ r ∈ s.archived ++ s.history, r.runId = id → s.Agrees id r) ∧
      ∀ c ∈ s.hookCalls ++ s.observerCalls, c.runId = id →
        s.Agrees id c.record ∧ c.outcome.outcomeClass = c.record.state) ∧
    (∀ s, Reachable s → ∀ id t, s.tasks.get id = some t → t.phase = .done →
      ∃ r, (s.archived.filter fun r => r.runId = id) = [r] ∧ s.Agrees id r ∧
        Told id t.given r (s.hookCalls.filter fun c => c.runId = id)) ∧
    (∀ s₀ s, Reachable s₀ → Machine.Reaches State.step s₀ s → ∀ id, s₀.resultHook = true →
      (∀ r ∈ s₀.archived, r.runId ≠ id) → s.Finished id →
      ∃ r, (s.archived.filter fun r => r.runId = id) = [r] ∧
        Told id true r (s.observerCalls.filter fun c => c.runId = id)) ∧
    (∀ s, Reachable s → ∀ id ∈ s.inserted,
      ∃ s', Machine.Reaches State.step s s' ∧ s'.Finished id) ∧
    ∀ as s, Machine.exec State.step init as = some s → ∀ id,
      as.countP (Action.isTaskOf id) ≤ 15 := by
  refine ⟨fun s h id => ?_, fun s h id t ht hp => ?_, fun s₀ s h₀ h id hw hnew hend => ?_,
    fun s h id hid => h.ends hid, fun as s h id => ?_⟩
  · obtain ⟨hrec, hcalls⟩ := h.inv.agrees id
    refine ⟨fun r hr => ?_, hcalls⟩
    rcases List.mem_append.mp hr with hr | hr
    · exact hrec r hr
    · exact hrec r (h.history_subset hr)
  · obtain ⟨r, ha, hr, hh, _⟩ := h.inv.finished ht hp
    exact ⟨r, ha, hr, hh⟩
  · obtain ⟨t, ht, hp⟩ := hend
    have hreach : Reachable s := Machine.Reaches.trans h₀ h
    obtain ⟨r, ha, hr, _, w, ho⟩ := hreach.inv.finished ht hp
    refine ⟨r, ha, ?_⟩
    have hseen := (Reachable.watched h₀ h hw hnew).2 t ht (Or.inl hp)
    cases w with
    | true => exact ho
    | false => exact absurd ho hseen
  · have hle := Inv.init.task_actions_le h id
    have hstart : init.remaining id = 15 := rfl
    omega

/-- A cancel that lands while the executor prepares, which then fails. -/
def cancelDuringPrepare : List Action :=
  acceptRun "r1" ++
    [.task "r1" .tick 1, .task "r1" .tick 1, .cancel "r1", .task "r1" (.prepareErr "offline") 2,
      .task "r1" .tick 3, .task "r1" .tick 4, .task "r1" .tick 5, .task "r1" .tick 6,
      .task "r1" .tick 7, .task "r1" .tick 8]

def Phase.isDone (p : Phase) : Bool := p.ctorIdx = Phase.done.ctorIdx

theorem Phase.eq_done {p : Phase} (h : p.isDone) : p = .done := by
  cases p <;> first | rfl | cases h

theorem accepted_cancel_decides_the_end_in_prepare :
    ∃ s r, Machine.exec State.step { init with resultHook := true } cancelDuringPrepare = some s ∧
      "r1" ∈ s.cancelAccepted ∧ r.state = .cancelled ∧
      (∀ r ∈ s.archived ++ s.history, r.runId = "r1" → s.Agrees "r1" r) ∧
      (s.archived.filter fun r => r.runId = "r1") = [r] ∧
      Told "r1" true r (s.hookCalls.filter fun c => c.runId = "r1") ∧
      Told "r1" true r (s.observerCalls.filter fun c => c.runId = "r1") ∧
      ∃ s', Machine.Reaches State.step s s' ∧ s'.Finished "r1" := by
  obtain ⟨hagree, hdone, hseen, hends, _⟩ := accepted_cancel_decides_the_end
  have h₀ : Reachable { init with resultHook := true } := ⟨[.setResultHook], rfl⟩
  have hnew : ∀ r ∈ ({ init with resultHook := true } : State).archived, r.runId ≠ "r1" :=
    fun r hr => by cases hr
  obtain ⟨s, hs, hcancel, hinserted, htask⟩ : ∃ s, Machine.exec State.step
      { init with resultHook := true } cancelDuringPrepare = some s ∧
      "r1" ∈ s.cancelAccepted ∧ "r1" ∈ s.inserted ∧
      (s.tasks.get "r1").map (fun t => (t.given, t.phase.isDone)) = some (true, true) :=
    Machine.exec_eval (by decide)
  have hrun : Machine.Reaches State.step { init with resultHook := true } s := ⟨_, hs⟩
  have hreach : Reachable s := Machine.Reaches.trans h₀ hrun
  obtain ⟨req, onFinish, ht⟩ : ∃ req onFinish,
      s.tasks.get "r1" = some ⟨req, true, .done, onFinish⟩ := by
    obtain ⟨⟨req, given, phase, onFinish⟩, ht, hshape⟩ := Option.map_eq_some_iff.mp htask
    simp only [Prod.mk.injEq] at hshape
    obtain ⟨rfl, hdone⟩ := hshape
    cases Phase.eq_done hdone
    exact ⟨req, onFinish, ht⟩
  obtain ⟨r, ha, hr, hhook⟩ := hdone s hreach "r1" _ ht rfl
  obtain ⟨r', ha', hobs⟩ := hseen _ s h₀ hrun "r1" rfl hnew ⟨_, ht, rfl⟩
  rw [ha] at ha'; cases ha'
  exact ⟨s, r, hs, hcancel, hr.2.2.mpr hcancel, (hagree s hreach "r1").1, ha, hhook, hobs,
    hends s hreach "r1" hinserted⟩

end Gamer.RunManager
