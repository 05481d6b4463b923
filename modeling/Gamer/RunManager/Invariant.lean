import Gamer.RunManager.Life

/-! The registry refines the life of every run: whatever action is taken, the life of a given run
    stands still or takes one step. The submissions in flight are the other half of the invariant:
    at most one of them is between its admission and its slot, and it holds the lock. -/

namespace Gamer.RunManager
open Gamer.Lib

/-- What the registry says about run `id`. -/
def State.life (s : State) (id : RunId) : Life where
  entry := s.runs.get id
  task := s.tasks.get id
  archived := s.archived.filter fun r => r.runId = id
  hooks := s.hookCalls.filter fun c => c.runId = id
  observed := s.observerCalls.filter fun c => c.runId = id
  cancelled := decide (id ∈ s.cancelAccepted)
  watched := s.resultHook

/-- The submission has `active_by_device` locked. -/
def SubmitPhase.holds : SubmitPhase → Bool
  | .admitted .. | .inserted .. => true
  | .passed .. | .answered _ => false

/-- The lock is held exactly by the submission between its admission and its slot. -/
structure Locked (s : State) : Prop where
  holder : ∀ c p, s.submits.get c = some p → p.holds = true → s.devLock = some c
  held : ∀ c, s.devLock = some c → ∃ p, s.submits.get c = some p ∧ p.holds = true

/-- A run that is inserted but has no slot and no task yet. -/
def State.Inserting (s : State) (req : StartRequest) (r : RunRecord) : Prop :=
  s.tasks.get r.runId = none ∧
    ∃ e, s.runs.get r.runId = some e ∧ e.record.deviceId = req.deviceId

/-- INVARIANT of the registry. -/
structure Inv (s : State) : Prop where
  locked : Locked s
  inserting : ∀ c req h r, s.submits.get c = some (.inserted req h r) → s.Inserting req r
  fresh : ∀ id, id ∉ s.inserted → s.life id = .blank s.resultHook
  sound : ∀ id, (s.life id).Sound id

/-- How one action moves the life of run `id`. -/
inductive Moves (s s' : State) (id : RunId) : Prop
  | still (h : s'.life id = s.life id)
  | watch (h : s'.life id = { s.life id with watched := true })
  | lives (hin : id ∈ s'.inserted) (h : LifeStep id (s.life id) (s'.life id))

/-! ### The actions of a run task -/

/-- FRAME: a run task leaves the submissions, the shutdowns and the flags alone. -/
structure Frame (s s' : State) : Prop where
  devLock : s'.devLock = s.devLock
  submits : s'.submits = s.submits
  shutdowns : s'.shutdowns = s.shutdowns
  draining : s'.draining = s.draining
  maintenance : s'.maintenance = s.maintenance
  resultHook : s'.resultHook = s.resultHook
  inserted : s'.inserted = s.inserted
  accepted : s'.accepted = s.accepted
  cancelAccepted : s'.cancelAccepted = s.cancelAccepted
  deleted : s'.deleted = s.deleted

theorem TaskEffect.frame {s s' : State} {id : RunId} {t : Task} {now : Time}
    (h : TaskEffect s id t now s') : Frame s s' := by
  cases h with
  | settle o h =>
    constructor <;> (unfold State.markTerminalChecked; cases s.runs.get id with
      | none => rfl
      | some e => simp only [State.setPhase]; split <;> rfl)
  | _ => constructor <;> rfl

theorem State.isCancelled_iff {s : State} {id : RunId} :
    s.isCancelled id = true ↔ ∃ e, s.runs.get id = some e ∧ e.cancelRequested = true := by
  unfold State.isCancelled
  cases s.runs.get id with
  | none => simp
  | some e => simp

theorem ActiveRun.close_runId (e : ActiveRun) (now : Time) :
    (e.close now).runId = e.record.runId := by
  unfold ActiveRun.close
  split <;> rfl

/-- A life is given by its seven parts. -/
theorem State.life_eq {s : State} {id : RunId} {v : Life} (entry : s.runs.get id = v.entry)
    (task : s.tasks.get id = v.task) (archived : (s.life id).archived = v.archived)
    (hooks : (s.life id).hooks = v.hooks) (observed : (s.life id).observed = v.observed)
    (cancelled : (s.life id).cancelled = v.cancelled) (watched : s.resultHook = v.watched) :
    s.life id = v := by
  obtain ⟨e, t, a, h, o, c, w⟩ := v
  subst entry task archived hooks observed cancelled watched
  rfl

theorem LifeStep.to {id : RunId} {v w w' : Life} (h : LifeStep id v w) (hw : w' = w) :
    LifeStep id v w' := hw ▸ h

/-- What `mark_terminal_checked` does to an entry whose terminal state is open. -/
theorem State.markTerminalChecked_open {s : State} {id : RunId} {e : ActiveRun}
    (he : s.runs.get id = some e) (hn : e.record.state.isTerminal = false) (cls : RunState)
    (error : Option String) (now : Time) :
    s.markTerminalChecked id cls error now =
      ({ s with runs := s.runs.set id (e.settle cls error now) },
        decide (e.terminal cls = .cancelled)) := by
  simp [State.markTerminalChecked, he, hn]

/-- `mark_terminal_checked` touches nothing but the entry of its run. -/
theorem State.markTerminalChecked_frame (s : State) (id : RunId) (cls : RunState)
    (error : Option String) (now : Time) : ∃ runs : Table RunId ActiveRun,
      (s.markTerminalChecked id cls error now).1 = { s with runs := runs } ∧
      ∀ id', id' ≠ id → runs.get id' = s.runs.get id' := by
  unfold State.markTerminalChecked
  cases s.runs.get id with
  | none => exact ⟨s.runs, rfl, fun _ _ => rfl⟩
  | some e =>
    dsimp only
    split
    · exact ⟨s.runs, rfl, fun _ _ => rfl⟩
    · exact ⟨_, rfl, fun id' hne => Table.get_set_ne hne _ _⟩

/-- The life of the run itself takes one step. -/
theorem TaskEffect.life_self {s s' : State} {id : RunId} {t : Task} {now : Time}
    (h : TaskEffect s id t now s') (ht : s.tasks.get id = some t)
    (hkey : ∀ e, s.runs.get id = some e → e.record.runId = id) :
    LifeStep id (s.life id) (s'.life id) := by
  cases h with
  | advance q n h =>
    refine (LifeStep.advance t q ht h.source h.target fun o ho hc => ?_).to
      (State.life_eq rfl (Table.get_set_self _ _ _) rfl rfl rfl rfl rfl)
    exact (h.sound o ho hc).imp_left State.isCancelled_iff.mp
  | markRunning h =>
    refine (LifeStep.markRunning t now ht h).to
      (State.life_eq ?_ (Table.get_set_self _ _ _) rfl rfl rfl rfl rfl)
    exact (Table.get_modify _ _ _ _).trans (if_pos rfl)
  | settle o h =>
    obtain ⟨runs, hs, hother⟩ := s.markTerminalChecked_frame id o.outcomeClass o.error now
    refine (LifeStep.settle t o _ (runs.get id) now ht h fun e he hn => ?_).to
      (State.life_eq (by rw [hs]; rfl) (Table.get_set_self _ _ _) (by rw [hs]; rfl)
        (by rw [hs]; rfl) (by rw [hs]; rfl) (by rw [hs]; rfl) (by rw [hs]; rfl))
    rw [State.markTerminalChecked_open he hn] at hs ⊢
    cases hs
    simp
  | hook o h =>
    refine (LifeStep.hook t o (s.snapshotOrPlaceholder id now) ht h fun e he => ?_).to
      (State.life_eq rfl (Table.get_set_self _ _ _) rfl ?_ rfl rfl rfl)
    · have hrun : s.runs.get id = some e := he
      simp [State.snapshotOrPlaceholder, State.getRun, hrun]
    · cases t.onFinish <;> simp [State.life, List.filter_append]
  | vanished h hn =>
    exact (LifeStep.vanish t ht h hn).to
      (State.life_eq rfl (Table.get_set_self _ _ _) rfl rfl rfl rfl rfl)
  | archive e h hd he =>
    have hid : (e.close now).runId = id := by rw [e.close_runId, hkey e he]
    refine (LifeStep.archive t e now ht h he).to
      (State.life_eq ?_ (Table.get_set_self _ _ _) ?_ rfl rfl rfl rfl)
    · exact (Table.get_del _ _ _).trans (if_pos rfl)
    · simp [State.life, State.setPhase, List.filter_append, hid]
  | observe r h =>
    refine (LifeStep.observe t r ht h).to
      (State.life_eq rfl (Table.get_set_self _ _ _) rfl rfl ?_ rfl rfl)
    cases hw : s.resultHook <;> simp [State.life, State.setPhase, List.filter_append, hw]
  | lastHook r h =>
    refine (LifeStep.lastHook t r ht h).to
      (State.life_eq rfl (Table.get_set_self _ _ _) rfl ?_ rfl rfl rfl)
    cases t.onFinish <;> simp [State.life, List.filter_append]

/-- FRAME: the life of every other run stands still. -/
theorem TaskEffect.life_other {s s' : State} {id id' : RunId} {t : Task} {now : Time}
    (h : TaskEffect s id t now s') (hne : id' ≠ id)
    (hkey : ∀ e, s.runs.get id = some e → e.record.runId = id) : s'.life id' = s.life id' := by
  have hset : ∀ t', (s.tasks.set id t').get id' = s.tasks.get id' := fun t' =>
    Table.get_set_ne hne _ _
  cases h with
  | advance q n h => exact State.life_eq rfl (hset _) rfl rfl rfl rfl rfl
  | markRunning h =>
    exact State.life_eq ((Table.get_modify _ _ _ _).trans (if_neg hne)) (hset _) rfl rfl rfl rfl rfl
  | settle o h =>
    obtain ⟨runs, hs, hother⟩ := s.markTerminalChecked_frame id o.outcomeClass o.error now
    rw [hs]
    exact State.life_eq (hother id' hne) (hset _) rfl rfl rfl rfl rfl
  | hook o h =>
    refine State.life_eq rfl (hset _) rfl ?_ rfl rfl rfl
    cases t.onFinish <;> simp [State.life, List.filter_append, hne.symm]
  | vanished h hn => exact State.life_eq rfl (hset _) rfl rfl rfl rfl rfl
  | archive e h hd he =>
    have hid : (e.close now).runId ≠ id' := by rw [e.close_runId, hkey e he]; exact hne.symm
    refine State.life_eq ((Table.get_del _ _ _).trans (if_neg hne)) (hset _) ?_ rfl rfl rfl rfl
    simp [State.life, State.setPhase, List.filter_append, hid]
  | observe r h =>
    refine State.life_eq rfl (hset _) rfl rfl ?_ rfl rfl
    cases hw : s.resultHook <;> simp [State.life, State.setPhase, List.filter_append, hne.symm]
  | lastHook r h =>
    refine State.life_eq rfl (hset _) rfl ?_ rfl rfl rfl
    cases t.onFinish <;> simp [State.life, List.filter_append, hne.symm]

/-! ### The other actions -/

/-- An accepted `cancel` is one step in the life of its run; any other answer changes nothing. -/
theorem State.cancel_cases (s : State) (id : RunId) :
    (s.cancel id).1 = s ∧ (s.cancel id).2 ≠ .accepted ∨
    (s.cancel id).2 = .accepted ∧ ∃ e, s.runs.get id = some e ∧
      e.record.state.isTerminal = false ∧
      (s.cancel id).1 = { s with
        runs := s.runs.set id e.requestCancel
        cancelAccepted := s.cancelAccepted ++ [id] } := by
  unfold State.cancel
  cases he : s.runs.get id with
  | none =>
    left
    dsimp only
    split <;> exact ⟨rfl, by simp⟩
  | some e =>
    dsimp only
    split
    · exact Or.inl ⟨rfl, by simp⟩
    · next hn => exact Or.inr ⟨rfl, e, rfl, by simpa using hn, rfl⟩

theorem State.cancel_moves {s : State} (hinv : Inv s) (id id' : RunId) :
    Moves s (s.cancel id).1 id' := by
  rcases s.cancel_cases id with ⟨hs, _⟩ | ⟨_, e, he, hn, hs⟩
  · rw [hs]; exact .still rfl
  · rw [hs]
    by_cases hid : id' = id
    · subst hid
      refine .lives ?_ ((LifeStep.cancel e he hn).to
        (State.life_eq (Table.get_set_self _ _ _) rfl rfl rfl rfl ?_ rfl))
      · by_contra hfresh
        have hblank : s.runs.get id' = none := congrArg Life.entry (hinv.fresh id' hfresh)
        rw [he] at hblank; cases hblank
      · simp [State.life]
    · refine .still (State.life_eq (Table.get_set_ne hid _ _) rfl rfl rfl rfl ?_ rfl)
      simp [State.life, hid]

/-- `lockDevices` changes the submission, the lock and at most a slot without an entry. -/
theorem State.admit_cases (s : State) (c : Caller) (req : StartRequest) (h : Bool) :
    (∃ e, s.admitRun c req h = s.answer c (.error e)) ∨
    (s.maintenance = false ∧ (∀ id, s.activeByDevice.get req.deviceId = some id →
      s.runs.get id = none) ∧ ∃ slots : Table DeviceId RunId,
      (∀ d, slots.get d = if d = req.deviceId then none else s.activeByDevice.get d) ∧
      s.admitRun c req h = { s with
        devLock := some c
        submits := s.submits.set c (.admitted req h)
        activeByDevice := slots }) := by
  unfold State.admitRun
  cases hm : s.maintenance with
  | true => exact Or.inl ⟨_, rfl⟩
  | false =>
    cases hslot : s.activeByDevice.get req.deviceId with
    | none =>
      refine Or.inr ⟨rfl, fun id hid => (by cases hid), s.activeByDevice, fun d => ?_, rfl⟩
      split
      · next hd => rw [hd, hslot]
      · rfl
    | some existing =>
      cases he : s.runs.get existing with
      | some e => exact Or.inl ⟨.conflict e.record, by simp [he]⟩
      | none =>
        refine Or.inr ⟨rfl, fun id hid => (by cases hid; exact he),
          s.activeByDevice.del req.deviceId, fun d => Table.get_del _ _ _, by simp [he]⟩

/-- What one action does to the registry. -/
inductive Effect (s : State) : Action → State → Prop
  | refuseNow (c : Caller) (req : StartRequest) (h : Bool) (hc : s.submits.get c = none)
      (hd : s.draining = true) :
      Effect s (.submit c req h) (s.answer c (.error .shuttingDown))
  | pass (c : Caller) (req : StartRequest) (h : Bool) (hc : s.submits.get c = none)
      (hd : s.draining = false) :
      Effect s (.submit c req h) { s with submits := s.submits.set c (.passed req h) }
  | refuse (c : Caller) (req : StartRequest) (h : Bool) (e : StartError) (hl : s.devLock = none)
      (hc : s.submits.get c = some (.passed req h)) :
      Effect s (.lockDevices c) (s.answer c (.error e))
  | admits (c : Caller) (req : StartRequest) (h : Bool) (slots : Table DeviceId RunId)
      (hl : s.devLock = none) (hc : s.submits.get c = some (.passed req h))
      (hghost : ∀ id, s.activeByDevice.get req.deviceId = some id → s.runs.get id = none)
      (hslots : ∀ d, slots.get d = if d = req.deviceId then none else s.activeByDevice.get d) :
      Effect s (.lockDevices c) { s with
        devLock := some c
        submits := s.submits.set c (.admitted req h)
        activeByDevice := slots }
  | insertRun (c : Caller) (req : StartRequest) (h : Bool) (id : RunId) (now : Time)
      (hc : s.submits.get c = some (.admitted req h)) (hid : id ∉ s.inserted) :
      Effect s (.insertRun c id now) { s with
        runs := s.runs.set id ⟨newRecord req id now, false, false⟩
        inserted := s.inserted ++ [id]
        submits := s.submits.set c (.inserted req h (newRecord req id now)) }
  | insertSlot (c : Caller) (req : StartRequest) (h : Bool) (r : RunRecord)
      (hc : s.submits.get c = some (.inserted req h r)) :
      Effect s (.insertSlot c) { s with
        activeByDevice := s.activeByDevice.set req.deviceId r.runId
        devLock := none
        tasks := s.tasks.set r.runId ⟨req, h, .spawned, h⟩
        accepted := s.accepted ++ [r.runId]
        submits := s.submits.set c (.answered (.ok r)) }
  | task (id : RunId) (t : Task) (input : Input) (now : Time) (s' : State)
      (ht : s.tasks.get id = some t) (h : TaskEffect s id t now s') :
      Effect s (.task id input now) s'
  | cancel (id : RunId) : Effect s (.cancel id) (s.cancel id).1
  | watch : Effect s .setResultHook { s with resultHook := true }
  | delete (ids : List RunId) (retained dbOk : Bool) :
      Effect s (.deleteTerminalRecords ids retained dbOk) { s with
        history := s.history.filter fun r => !ids.contains r.runId
        deleted := s.deleted ++ (s.history.map (·.runId)).filter ids.contains }
  | shutdown (a : Action) (draining maintenance : Bool) (shutdowns : Table Caller ShutdownPhase)
      (hd : s.draining = true → draining = true)
      (hs : ∀ c p, shutdowns.get c = some p → s.shutdowns.get c = none → draining = true)
      (hi : ∀ c, shutdowns.get c = some .idle → s.shutdowns.get c ≠ some .idle →
        a = .pollActive c ∧ s.noneActive = true ∧ s.shutdowns.get c = some .waiting) :
      Effect s a { s with
        draining := draining, maintenance := maintenance, shutdowns := shutdowns }
  | force (c : Caller) (id : RunId) (ids : List RunId)
      (hc : s.shutdowns.get c = some (.forcing (id :: ids))) :
      Effect s (.forceCancel c)
        { (s.cancel id).1 with shutdowns := s.shutdowns.set c (.forcing ids) }

/-- An action that leaves even the shutdowns alone. -/
theorem Effect.still (s : State) (a : Action) (maintenance : Bool) :
    Effect s a { s with maintenance := maintenance } :=
  .shutdown a s.draining maintenance s.shutdowns (fun h => h)
    (fun c p h hn => by rw [h] at hn; cases hn) (fun c h hn => absurd h hn)

/-- A shutdown call that moves on to a phase other than `idle`. -/
theorem Effect.phase {s : State} {c : Caller} {p q : ShutdownPhase} (a : Action)
    (hp : s.shutdowns.get c = some p) (hq : q ≠ .idle) :
    Effect s a { s with shutdowns := s.shutdowns.set c q } := by
  refine .shutdown a s.draining s.maintenance _ (fun h => h) (fun c' p' h hn => ?_)
    (fun c' h hn => ?_)
  all_goals
    rw [Table.get_set] at h
    split at h
  · next heq => subst heq; rw [hp] at hn; cases hn
  · rw [h] at hn; cases hn
  · cases h; exact absurd rfl hq
  · exact absurd h hn

/-- INVERSION: every enabled action has one of these effects. -/
theorem step_effect {s s' : State} {a : Action} (h : s.step a = some s') : Effect s a s' := by
  cases a with
  | submit c req onFinish =>
    simp only [State.step] at h
    split at h
    · cases h
    · next hc =>
      split at h <;> cases h
      · next hd => exact .refuseNow c req onFinish hc hd
      · next hd => exact .pass c req onFinish hc (by simpa using hd)
  | lockDevices c =>
    simp only [State.step] at h
    split at h
    · next req onFinish hl hc =>
      cases h
      rcases s.admit_cases c req onFinish with ⟨e, he⟩ | ⟨_, hghost, slots, hslots, hs⟩
      · rw [he]; exact .refuse c req onFinish e hl hc
      · rw [hs]; exact .admits c req onFinish slots hl hc hghost hslots
    · cases h
  | insertRun c id now =>
    simp only [State.step] at h
    split at h
    · next req onFinish hc =>
      split at h <;> cases h
      next hid => exact .insertRun c req onFinish id now hc hid
    · cases h
  | insertSlot c =>
    simp only [State.step] at h
    split at h <;> cases h
    next req onFinish r hc => exact .insertSlot c req onFinish r hc
  | task id input now =>
    obtain ⟨t, ht, hstep⟩ := Option.bind_eq_some_iff.mp h
    exact .task id t input now s' ht (taskStep_effect hstep)
  | cancel id => cases h; exact .cancel id
  | setResultHook => cases h; exact .watch
  | deleteTerminalRecords ids retained dbOk =>
    simp only [State.step] at h
    split at h <;> cases h
    · exact .still s _ s.maintenance
    · exact .delete ids retained dbOk
  | tryIdleMaintenance =>
    simp only [State.step] at h
    split at h
    · cases h
    · split at h <;> cases h
      · exact .still s _ s.maintenance
      · exact .still s _ true
  | endMaintenance => cases h; exact .still s _ false
  | beginShutdown c =>
    simp only [State.step] at h
    split at h <;> cases h
    next hc =>
      refine .shutdown _ true s.maintenance _ (fun _ => rfl) (fun _ _ _ _ => rfl)
        (fun c' hi hn => ?_)
      rw [Table.get_set] at hi
      split at hi
      · cases hi
      · exact absurd hi hn
  | pollActive c =>
    simp only [State.step] at h
    split at h
    · next hc =>
      split at h <;> cases h
      · next hn =>
        refine .shutdown _ s.draining s.maintenance _ (fun h => h) (fun c' p hi hf => ?_)
          (fun c' hi hf => ?_)
        all_goals
          rw [Table.get_set] at hi
          split at hi
        · next heq => subst heq; rw [hc] at hf; cases hf
        · rw [hi] at hf; cases hf
        · next heq => subst heq; exact ⟨rfl, hn, hc⟩
        · exact absurd hi hf
      · exact .still s _ s.maintenance
    · cases h
  | deadline c =>
    simp only [State.step] at h
    split at h <;> cases h
    next hc => exact .phase _ hc (by simp)
  | forceCancel c =>
    simp only [State.step] at h
    split at h <;> cases h
    · next hc => exact .phase _ hc (by simp)
    · next id ids hc => exact .force c id ids hc

/-! ### The refinement -/

theorem Inv.keyed {s : State} (hinv : Inv s) {id : RunId} {e : ActiveRun}
    (he : s.runs.get id = some e) : e.record.runId = id :=
  ((hinv.sound id).kept e he).keyed

theorem Inv.mem_inserted {s : State} (hinv : Inv s) {id : RunId}
    (h : s.runs.get id ≠ none ∨ s.tasks.get id ≠ none) : id ∈ s.inserted := by
  by_contra hid
  have hblank := hinv.fresh id hid
  rcases h with h | h
  · exact h (congrArg Life.entry hblank)
  · exact h (congrArg Life.task hblank)

/-- REFINEMENT: one action moves the life of any run by at most one step. -/
theorem Effect.moves {s s' : State} {a : Action} (h : Effect s a s') (hinv : Inv s) (id : RunId) :
    Moves s s' id := by
  cases h with
  | insertRun c req h id' now hc hid =>
    by_cases heq : id = id'
    · subst heq
      refine .lives (List.mem_append_right _ (List.mem_singleton_self _)) ?_
      rw [hinv.fresh id hid]
      refine (LifeStep.insert s.resultHook (newRecord req id now) rfl rfl).to ?_
      have hblank : ∀ {β : Type} (f : Life → β), f (s.life id) = f (.blank s.resultHook) :=
        fun f => congrArg f (hinv.fresh id hid)
      exact State.life_eq (Table.get_set_self _ _ _) (hblank Life.task) (hblank Life.archived)
        (hblank Life.hooks) (hblank Life.observed) (hblank Life.cancelled) rfl
    · exact .still (State.life_eq (Table.get_set_ne heq _ _) rfl rfl rfl rfl rfl rfl)
  | insertSlot c req h r hc =>
    by_cases heq : id = r.runId
    · subst heq
      obtain ⟨ht, e, he, _⟩ := hinv.inserting c req h r hc
      exact .lives (hinv.mem_inserted (Or.inl (by simp [he])))
        ((LifeStep.spawn e req h he ht).to
          (State.life_eq rfl (Table.get_set_self _ _ _) rfl rfl rfl rfl rfl))
    · exact .still (State.life_eq rfl (Table.get_set_ne heq _ _) rfl rfl rfl rfl rfl)
  | task id' t input now s' ht h =>
    have hkey : ∀ e, s.runs.get id' = some e → e.record.runId = id' := fun e he => hinv.keyed he
    by_cases heq : id = id'
    · subst heq
      refine .lives ?_ (h.life_self ht hkey)
      rw [h.frame.inserted]
      exact hinv.mem_inserted (Or.inr (by simp [ht]))
    · exact .still (h.life_other heq hkey)
  | cancel id' => exact State.cancel_moves hinv id' id
  | watch => exact .watch rfl
  | force c id' ids hc =>
    cases State.cancel_moves hinv id' id with
    | still h => exact .still h
    | watch h => exact .watch h
    | lives hin h => exact .lives hin h
  | _ => exact .still rfl

theorem Effect.inserted_mono {s s' : State} {a : Action} (h : Effect s a s') {id : RunId}
    (hid : id ∈ s.inserted) : id ∈ s'.inserted := by
  cases h with
  | insertRun c req h id' now hc hnew => exact List.mem_append_left _ hid
  | task id' t input now s' ht h => rw [h.frame.inserted]; exact hid
  | cancel id' =>
    rcases s.cancel_cases id' with ⟨hs, _⟩ | ⟨_, e, he, hn, hs⟩ <;> rw [hs] <;> exact hid
  | force c id' ids hc =>
    rcases s.cancel_cases id' with ⟨hs, _⟩ | ⟨_, e, he, hn, hs⟩ <;> rw [hs] <;> exact hid
  | _ => exact hid

/-! ### The lock -/

namespace Locked
variable {s s' : State} {c : Caller}

theorem of_eq (h : Locked s) (hd : s'.devLock = s.devLock) (hs : s'.submits = s.submits) :
    Locked s' where
  holder := fun c p hp hh => by rw [hs] at hp; rw [hd]; exact h.holder c p hp hh
  held := fun c hc => by rw [hd] at hc; rw [hs]; exact h.held c hc

/-- A submission without the lock moves to another phase without it. -/
theorem outside (h : Locked s) {p : SubmitPhase} (hc : ∀ q, s.submits.get c = some q →
    q.holds = false) (hp : p.holds = false) (hd : s'.devLock = s.devLock)
    (hs : s'.submits = s.submits.set c p) : Locked s' where
  holder := fun c' p' hp' hh => by
    rw [hs, Table.get_set] at hp'
    rw [hd]
    split at hp'
    · cases hp'; rw [hp] at hh; cases hh
    · exact h.holder c' p' hp' hh
  held := fun c' hc' => by
    rw [hd] at hc'
    obtain ⟨q, hq, hh⟩ := h.held c' hc'
    have hne : c' ≠ c := by
      rintro rfl
      rw [hc q hq] at hh; cases hh
    exact ⟨q, by rw [hs, Table.get_set_ne hne]; exact hq, hh⟩

/-- The only submission with the lock moves to another phase with it. -/
theorem inside (h : ∀ c' p, s.submits.get c' = some p → p.holds = true → c' = c)
    {p : SubmitPhase} (hp : p.holds = true) (hd : s'.devLock = some c)
    (hs : s'.submits = s.submits.set c p) : Locked s' where
  holder := fun c' p' hp' hh => by
    rw [hs, Table.get_set] at hp'
    rw [hd]
    split at hp'
    · next heq => rw [heq]
    · rw [h c' p' hp' hh]
  held := fun c' hc' => by
    rw [hd] at hc'
    cases hc'
    exact ⟨p, by rw [hs, Table.get_set_self], hp⟩

/-- The submission with the lock lets it go. -/
theorem release (h : ∀ c' p, s.submits.get c' = some p → p.holds = true → c' = c)
    {p : SubmitPhase} (hp : p.holds = false) (hd : s'.devLock = none)
    (hs : s'.submits = s.submits.set c p) : Locked s' where
  holder := fun c' p' hp' hh => by
    rw [hs, Table.get_set] at hp'
    split at hp'
    · cases hp'; rw [hp] at hh; cases hh
    · next hne => exact absurd (h c' p' hp' hh) hne
  held := fun c' hc' => by rw [hd] at hc'; cases hc'

theorem unique (h : Locked s) {p : SubmitPhase} (hc : s.submits.get c = some p)
    (hp : p.holds = true) : ∀ c' p', s.submits.get c' = some p' → p'.holds = true → c' = c := by
  intro c' p' hc' hp'
  have h' := h.holder c' p' hc' hp'
  rw [h.holder c p hc hp] at h'
  exact (Option.some.inj h').symm

end Locked

theorem Effect.locked {s s' : State} {a : Action} (h : Effect s a s') (hl : Locked s) :
    Locked s' := by
  cases h with
  | refuseNow c req h hc hd => exact hl.outside (fun q hq => by rw [hc] at hq; cases hq) rfl rfl rfl
  | pass c req h hc hd => exact hl.outside (fun q hq => by rw [hc] at hq; cases hq) rfl rfl rfl
  | refuse c req h e hfree hc =>
    exact hl.outside (fun q hq => by rw [hc] at hq; cases hq; rfl) rfl rfl rfl
  | admits c req h slots hfree hc hghost hslots =>
    refine Locked.inside (fun c' p hp hh => ?_) rfl rfl rfl
    rw [hl.holder c' p hp hh] at hfree; cases hfree
  | insertRun c req h id now hc hid =>
    exact Locked.inside (hl.unique hc rfl) rfl (hl.holder c _ hc rfl) rfl
  | insertSlot c req h r hc => exact Locked.release (hl.unique hc rfl) rfl rfl rfl
  | task id t input now s' ht h => exact hl.of_eq h.frame.devLock h.frame.submits
  | cancel id =>
    rcases s.cancel_cases id with ⟨hs, _⟩ | ⟨_, e, he, hn, hs⟩ <;> rw [hs] <;> exact hl.of_eq rfl rfl
  | force c id ids hc =>
    rcases s.cancel_cases id with ⟨hs, _⟩ | ⟨_, e, he, hn, hs⟩ <;> rw [hs] <;> exact hl.of_eq rfl rfl
  | _ => exact hl.of_eq rfl rfl

/-! ### The insertion in flight -/

theorem State.Inserting.of_life {s s' : State} {req : StartRequest} {r : RunRecord}
    (h : s.Inserting req r) (hlife : s'.life r.runId = s.life r.runId) : s'.Inserting req r := by
  have ht : s'.tasks.get r.runId = s.tasks.get r.runId := congrArg Life.task hlife
  have he : s'.runs.get r.runId = s.runs.get r.runId := congrArg Life.entry hlife
  unfold State.Inserting
  rw [ht, he]
  exact h

theorem State.Inserting.cancel {s : State} {req : StartRequest} {r : RunRecord}
    (h : s.Inserting req r) (id : RunId) : (s.cancel id).1.Inserting req r := by
  rcases s.cancel_cases id with ⟨hs, _⟩ | ⟨_, e, he, _, hs⟩ <;> rw [hs]
  · exact h
  · obtain ⟨ht, e', he', hdev⟩ := h
    refine ⟨ht, ?_⟩
    by_cases hid : r.runId = id
    · subst hid
      rw [he] at he'; cases he'
      exact ⟨e.requestCancel, Table.get_set_self _ _ _, hdev⟩
    · exact ⟨e', by rw [← he']; exact Table.get_set_ne hid _ _, hdev⟩

theorem Effect.inserting {s s' : State} {a : Action} (h : Effect s a s') (hinv : Inv s) :
    ∀ c req h r, s'.submits.get c = some (.inserted req h r) → s'.Inserting req r := by
  intro c' req' h' r' hc'
  -- a submission that stood there before the action, and was not touched by it
  have hold : ∀ {c : Caller} {p : SubmitPhase}, (∀ req h r, p ≠ .inserted req h r) →
      (s.submits.set c p).get c' = some (.inserted req' h' r') → s.Inserting req' r' := by
    intro c p hp hget
    rw [Table.get_set] at hget
    split at hget
    · exact absurd (Option.some.inj hget) (hp req' h' r')
    · exact hinv.inserting c' req' h' r' hget
  cases h with
  | refuseNow c req h hc hd => exact hold (by simp) hc'
  | pass c req h hc hd => exact hold (by simp) hc'
  | refuse c req h e hl hc => exact hold (by simp) hc'
  | admits c req h slots hl hc hghost hslots => exact hold (by simp) hc'
  | insertRun c req h id now hc hid =>
    rw [Table.get_set] at hc'
    split at hc'
    · cases hc'
      have htask : s.tasks.get id = none := congrArg Life.task (hinv.fresh id hid)
      exact ⟨htask, _, Table.get_set_self _ _ _, rfl⟩
    · next hne => exact absurd (hinv.locked.unique hc rfl c' _ hc' rfl) hne
  | insertSlot c req h r hc =>
    rw [Table.get_set] at hc'
    split at hc'
    · cases hc'
    · next hne => exact absurd (hinv.locked.unique hc rfl c' _ hc' rfl) hne
  | task id t input now s' ht h =>
    rw [h.frame.submits] at hc'
    have hins := hinv.inserting c' req' h' r' hc'
    have hne : r'.runId ≠ id := by
      rintro rfl
      rw [hins.1] at ht; cases ht
    exact hins.of_life (h.life_other hne fun e he => hinv.keyed he)
  | cancel id =>
    refine (hinv.inserting c' req' h' r' ?_).cancel id
    rcases s.cancel_cases id with ⟨hs, _⟩ | ⟨_, e, he, _, hs⟩ <;> rw [hs] at hc' <;> exact hc'
  | force c id ids hc =>
    have hins : (s.cancel id).1.Inserting req' r' := by
      refine (hinv.inserting c' req' h' r' ?_).cancel id
      rcases s.cancel_cases id with ⟨hs, _⟩ | ⟨_, e, he, _, hs⟩ <;> rw [hs] at hc' <;> exact hc'
    exact hins
  | _ => exact hinv.inserting c' req' h' r' hc'

/-! ### Every reachable state -/

theorem Inv.step {s s' : State} {a : Action} (hinv : Inv s) (h : s.step a = some s') : Inv s' := by
  have heff : Effect s a s' := step_effect h
  refine ⟨heff.locked hinv.locked, heff.inserting hinv, fun id hid => ?_, fun id => ?_⟩
  · have hblank := hinv.fresh id fun hin => hid (heff.inserted_mono hin)
    cases heff.moves hinv id with
    | still hm =>
      have hw : s'.resultHook = s.resultHook := congrArg Life.watched hm
      rw [hm, hblank, hw]
    | watch hm =>
      have hw : s'.resultHook = true := congrArg Life.watched hm
      rw [hm, hblank, hw]
      rfl
    | lives hin _ => exact absurd hin hid
  · cases heff.moves hinv id with
    | still hm => rw [hm]; exact hinv.sound id
    | watch hm => rw [hm]; exact (hinv.sound id).watch
    | lives _ hm => exact hm.sound (hinv.sound id)

theorem Inv.init : Inv init where
  locked := ⟨fun c p hp => (by cases hp), fun c hc => (by cases hc)⟩
  inserting := fun c req h r hc => by cases hc
  fresh := fun id _ => rfl
  sound := fun id => Life.Sound.blank false

theorem Reachable.inv {s : State} (h : Reachable s) : Inv s :=
  Machine.Reaches.invariant h (fun _ _ _ hinv hs => hinv.step hs) Inv.init

theorem mem_pushHistory {h : List RunRecord} {r x : RunRecord} (hr : r ∈ pushHistory h x) :
    r ∈ h ∨ r = x := by
  unfold pushHistory at hr
  rcases List.mem_append.mp hr with hr | hr
  · split at hr
    · exact Or.inl (List.mem_of_mem_tail hr)
    · exact Or.inl hr
  · exact Or.inr (List.mem_singleton.mp hr)

/-- What `history` still holds is part of what was archived. -/
theorem Effect.history_subset {s s' : State} {a : Action} (h : Effect s a s')
    (hsub : s.history ⊆ s.archived) : s'.history ⊆ s'.archived := by
  cases h with
  | task id t input now s' ht h =>
    cases h with
    | archive e h hd he =>
      intro r hr
      rcases mem_pushHistory hr with hr | rfl
      · exact List.mem_append_left _ (hsub hr)
      · exact List.mem_append_right _ (List.mem_singleton_self _)
    | settle o h =>
      obtain ⟨runs, hs, _⟩ := s.markTerminalChecked_frame id o.outcomeClass o.error now
      rw [hs]
      exact hsub
    | _ => exact hsub
  | cancel id =>
    rcases s.cancel_cases id with ⟨hs, _⟩ | ⟨_, e, he, hn, hs⟩ <;> rw [hs] <;> exact hsub
  | force c id ids hc =>
    rcases s.cancel_cases id with ⟨hs, _⟩ | ⟨_, e, he, hn, hs⟩ <;> rw [hs] <;> exact hsub
  | delete ids retained dbOk => exact fun r hr => hsub (List.mem_of_mem_filter hr)
  | _ => exact hsub

theorem Reachable.history_subset {s : State} (h : Reachable s) : s.history ⊆ s.archived :=
  Machine.Reaches.invariant (I := fun s => s.history ⊆ s.archived) h
    (fun _ _ _ hsub hs => (step_effect hs).history_subset hsub) (List.nil_subset _)

end Gamer.RunManager
