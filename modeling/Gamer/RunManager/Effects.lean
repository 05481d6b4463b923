import Gamer.RunManager.Model

/-! What one step of a run task can do to the registry, said once: the two dozen branches of
    `run_task`, `execute` and the drop of the `FinishGuard` have eight kinds of effect, and every
    invariant of the registry is proved from these. -/

namespace Gamer.RunManager
open Gamer.Lib

/-- The terminal state has not been decided yet. -/
def Phase.undecided : Phase → Bool
  | .hooking _ | .dropping | .observing _ | .dropHook _ | .done => false
  | _ => true

/-- The outcome the task carries towards `FinishGuard::complete`. -/
def Phase.outcome? : Phase → Option RunOutcome
  | .releasing o | .completing o => some o
  | _ => none

/-- A step inside the undecided phases, or out of them by unwinding, that touches no entry. -/
structure Advances (s : State) (id : RunId) (p q : Phase) : Prop where
  source : p.undecided = true
  target : q.undecided = true ∨ q = .dropping
  /-- the task gives up as cancelled only where it has read the flag -/
  sound : ∀ o, q.outcome? = some o → o.outcomeClass = .cancelled →
    s.isCancelled id = true ∨ p.outcome? = some o

/-- The effects of one step of task `t` of run `id`. -/
inductive TaskEffect (s : State) (id : RunId) (t : Task) (now : Time) : State → Prop
  | advance (q : Phase) (n : Nat) (h : Advances s id t.phase q) :
      TaskEffect s id t now ({ s with inflight := n }.setPhase id t q)
  | markRunning (h : t.phase = .acquired) :
      TaskEffect s id t now ((s.markState id .running none now).setPhase id t .marked)
  | settle (o : RunOutcome) (h : t.phase = .completing o) :
      TaskEffect s id t now ((s.markTerminalChecked id o.outcomeClass o.error now).1.setPhase id t
        (.hooking (if (s.markTerminalChecked id o.outcomeClass o.error now).2 then
          .cancelled o.logs else o)))
  | hook (o : RunOutcome) (h : t.phase = .hooking o) :
      TaskEffect s id t now { s with
        hookCalls := if t.onFinish then
          s.hookCalls ++ [(⟨id, s.snapshotOrPlaceholder id now, o⟩ : HookCall)] else s.hookCalls
        tasks := s.tasks.set id { t with phase := .dropping, onFinish := false } }
  | vanished (h : t.phase = .dropping) (hn : s.runs.get id = none) :
      TaskEffect s id t now ({ s with inflight := s.inflight - 1 }.setPhase id t .done)
  | archive (e : ActiveRun) (h : t.phase = .dropping) (hd : s.devLock = none)
      (he : s.runs.get id = some e) :
      TaskEffect s id t now ({ s with
        runs := s.runs.del id
        activeByDevice :=
          if s.activeByDevice.get (e.close now).deviceId = some id then
            s.activeByDevice.del (e.close now).deviceId
          else s.activeByDevice
        history := pushHistory s.history (e.close now)
        archived := s.archived ++ [e.close now] }.setPhase id t (.observing (e.close now)))
  | observe (record : RunRecord) (h : t.phase = .observing record) :
      TaskEffect s id t now ({ s with
        observerCalls := if s.resultHook then
          s.observerCalls ++ [(⟨id, record, dropOutcome record⟩ : HookCall)] else s.observerCalls }.setPhase
            id t (.dropHook record))
  | lastHook (record : RunRecord) (h : t.phase = .dropHook record) :
      TaskEffect s id t now { s with
        hookCalls := if t.onFinish then
          s.hookCalls ++ [(⟨id, record, dropOutcome record⟩ : HookCall)] else s.hookCalls
        inflight := s.inflight - 1
        tasks := s.tasks.set id { t with phase := .done, onFinish := false } }

/-- A step between undecided phases that carries no outcome. -/
theorem Advances.of_no_outcome {s : State} {id : RunId} {p q : Phase}
    (hp : p.undecided = true) (hq : q.undecided = true ∨ q = .dropping) (ho : q.outcome? = none) :
    Advances s id p q :=
  ⟨hp, hq, fun o h _ => by rw [ho] at h; cases h⟩

/-- The step after a look at the cancellation flag. -/
theorem Advances.of_flag {s : State} {id : RunId} {p q q' : Phase}
    (hp : p.undecided = true) (hq : q.undecided = true) (hq' : q'.undecided = true)
    (ho : ∀ o, q'.outcome? = some o → o.outcomeClass ≠ .cancelled) :
    Advances s id p (if s.isCancelled id then q else q') := by
  cases hc : s.isCancelled id with
  | true => exact ⟨hp, Or.inl (by simpa using hq), fun _ _ _ => Or.inl hc⟩
  | false =>
    exact ⟨hp, Or.inl (by simpa using hq'), fun o h hcl => absurd hcl (ho o (by simpa using h))⟩

/-- A step of an undecided phase, as the effect `advance`. -/
theorem TaskEffect.of_advances {s : State} {id : RunId} {t : Task} {now : Time} {q : Phase}
    (h : Advances s id t.phase q) : TaskEffect s id t now (s.setPhase id t q) :=
  .advance q s.inflight h

/-- INVERSION: every enabled step of a task has one of the eight effects. -/
theorem taskStep_effect {s s' : State} {id : RunId} {t : Task} {input : Input} {now : Time}
    (h : s.taskStep id t input now = some s') : TaskEffect s id t now s' := by
  obtain ⟨req, given, phase, onFinish⟩ := t
  -- the inputs a phase does not wait for are not enabled
  cases phase with
  | spawned =>
    cases input <;> cases h
    exact .advance .guarded (s.inflight + 1) (.of_no_outcome rfl (.inl rfl) rfl)
  | guarded =>
    cases input <;> cases h
    exact .of_advances (.of_flag rfl rfl rfl (by simp [Phase.outcome?]))
  | preparing =>
    cases input <;> cases h
    · exact .of_advances (.of_no_outcome rfl (.inl rfl) rfl)
    · exact .of_advances (.of_no_outcome rfl (.inl rfl) rfl)
    · exact .of_advances (.of_no_outcome rfl (.inr rfl) rfl)
  | prepareFailed error =>
    cases input <;> cases h
    refine .of_advances ⟨rfl, .inl rfl, fun o ho hcl => .inl ?_⟩
    cases hc : s.isCancelled id with
    | true => rfl
    | false => simp [Phase.outcome?, hc] at ho; subst ho; cases hcl
  | prepared =>
    cases input <;> cases h
    · exact .of_advances (.of_no_outcome rfl (.inl rfl) rfl)
    · refine .of_advances ⟨rfl, .inl rfl, fun o ho hcl => ?_⟩
      cases ho; cases hcl
    · exact .of_advances (.of_no_outcome rfl (.inr rfl) rfl)
  | acquired =>
    cases input <;> cases h
    exact .markRunning rfl
  | marked =>
    cases input <;> cases h
    exact .of_advances (.of_flag rfl rfl rfl (by simp [Phase.outcome?]))
  | entering =>
    cases input <;> cases h
    refine .of_advances ?_
    cases s.runs.get id with
    | none =>
      refine ⟨rfl, .inl rfl, fun o ho hcl => ?_⟩
      cases ho; cases hcl
    | some e => exact .of_no_outcome rfl (.inl rfl) rfl
  | executing =>
    cases input <;> cases h
    · exact .of_advances (.of_no_outcome rfl (.inl rfl) rfl)
    · exact .of_advances (.of_no_outcome rfl (.inl rfl) rfl)
    · exact .of_advances (.of_no_outcome rfl (.inr rfl) rfl)
  | executed result =>
    cases result with
    | ok logs =>
      cases input <;> cases h
      refine .of_advances ⟨rfl, .inl rfl, fun o ho hcl => .inl ?_⟩
      cases hc : s.isCancelled id with
      | true => rfl
      | false => simp [Phase.outcome?, hc] at ho; subst ho; cases hcl
    | error error =>
      cases input <;> cases h
      refine .of_advances ⟨rfl, .inl rfl, fun o ho hcl => .inl ?_⟩
      cases hc : s.isCancelled id with
      | true => rfl
      | false => simp [Phase.outcome?, hc] at ho; subst ho; cases hcl
  | releasing outcome =>
    cases input <;> cases h
    · exact .of_advances ⟨rfl, .inl rfl, fun o ho _ => .inr ho⟩
    · exact .of_advances (.of_no_outcome rfl (.inr rfl) rfl)
  | completing outcome =>
    cases input <;> cases h
    exact .settle outcome rfl
  | hooking outcome =>
    cases input <;> cases h
    exact .hook outcome rfl
  | dropping =>
    cases input <;> try cases h
    simp only [State.taskStep] at h
    cases hd : s.devLock with
    | some c => simp [hd] at h
    | none =>
      rw [if_neg (by simp [hd])] at h
      cases he : s.runs.get id with
      | none =>
        simp only [State.finalize, he, Option.map_none] at h
        cases h
        exact TaskEffect.vanished (t := ⟨req, given, .dropping, onFinish⟩) rfl he
      | some e =>
        simp only [State.finalize, he, Option.map_some] at h
        cases h
        exact TaskEffect.archive (t := ⟨req, given, .dropping, onFinish⟩) e rfl hd he
  | observing record =>
    cases input <;> cases h
    exact .observe record rfl
  | dropHook record =>
    cases input <;> cases h
    exact .lastHook record rfl
  | done => cases input <;> cases h

end Gamer.RunManager
