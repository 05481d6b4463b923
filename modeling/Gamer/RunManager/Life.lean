import Gamer.RunManager.Effects

/-! The life of one run, apart from the registry it lives in: its entry while it is active, its
    task, and what has been archived, called and observed about it. This is what the registry is
    for, and what a caller of `cancel` relies on:

        entry ── settle ──▶ entry (terminal) ── archive ──▶ record
          ▲  cancel: from now on the only terminal state left is `cancelled`

    The registry refines this: each of its steps moves the life of a run by one step or not at
    all. -/

namespace Gamer.RunManager
open Gamer.Lib

/-- Everything the registry holds, or has said, about one run. -/
structure Life where
  entry : Option ActiveRun
  task : Option Task
  archived : List RunRecord
  hooks : List HookCall
  observed : List HookCall
  cancelled : Bool
  /-- an observer of results is installed -/
  watched : Bool

/-- A run nobody has submitted yet. -/
def Life.blank (watched : Bool) : Life := ⟨none, none, [], [], [], false, watched⟩

/-- One step in the life of run `id`. -/
inductive LifeStep (id : RunId) : Life → Life → Prop
  | insert (w : Bool) (r : RunRecord) (hid : r.runId = id) (hr : r.state = .starting) :
      LifeStep id (.blank w) { Life.blank w with entry := some ⟨r, false, false⟩ }
  | watch {v : Life} : LifeStep id v { v with watched := true }
  | spawn {v : Life} (e : ActiveRun) (req : StartRequest) (given : Bool) (he : v.entry = some e)
      (ht : v.task = none) :
      LifeStep id v { v with task := some ⟨req, given, .spawned, given⟩ }
  | cancel {v : Life} (e : ActiveRun) (he : v.entry = some e)
      (hn : e.record.state.isTerminal = false) :
      LifeStep id v { v with entry := some e.requestCancel, cancelled := true }
  | advance {v : Life} (t : Task) (q : Phase) (ht : v.task = some t)
      (hp : t.phase.undecided = true) (hq : q.undecided = true ∨ q = .dropping)
      (sound : ∀ o, q.outcome? = some o → o.outcomeClass = .cancelled →
        (∃ e, v.entry = some e ∧ e.cancelRequested = true) ∨ t.phase.outcome? = some o) :
      LifeStep id v { v with task := some { t with phase := q } }
  | markRunning {v : Life} (t : Task) (now : Time) (ht : v.task = some t)
      (hp : t.phase = .acquired) :
      LifeStep id v { v with
        entry := v.entry.map fun e => e.mark .running none now
        task := some { t with phase := .marked } }
  | settle {v : Life} (t : Task) (o o' : RunOutcome) (entry : Option ActiveRun) (now : Time)
      (ht : v.task = some t) (hp : t.phase = .completing o)
      (he : ∀ e, v.entry = some e → e.record.state.isTerminal = false →
        entry = some (e.settle o.outcomeClass o.error now) ∧
        o' = if e.terminal o.outcomeClass = .cancelled then .cancelled o.logs else o) :
      LifeStep id v { v with entry := entry, task := some { t with phase := .hooking o' } }
  | hook {v : Life} (t : Task) (o : RunOutcome) (r : RunRecord) (ht : v.task = some t)
      (hp : t.phase = .hooking o) (hr : ∀ e, v.entry = some e → r = e.record) :
      LifeStep id v { v with
        hooks := if t.onFinish then v.hooks ++ [(⟨id, r, o⟩ : HookCall)] else v.hooks
        task := some { t with phase := .dropping, onFinish := false } }
  | vanish {v : Life} (t : Task) (ht : v.task = some t) (hp : t.phase = .dropping)
      (he : v.entry = none) :
      LifeStep id v { v with task := some { t with phase := .done } }
  | archive {v : Life} (t : Task) (e : ActiveRun) (now : Time) (ht : v.task = some t)
      (hp : t.phase = .dropping) (he : v.entry = some e) :
      LifeStep id v { v with
        entry := none
        archived := v.archived ++ [e.close now]
        task := some { t with phase := .observing (e.close now) } }
  | observe {v : Life} (t : Task) (r : RunRecord) (ht : v.task = some t)
      (hp : t.phase = .observing r) :
      LifeStep id v { v with
        observed :=
          if v.watched then v.observed ++ [(⟨id, r, dropOutcome r⟩ : HookCall)] else v.observed
        task := some { t with phase := .dropHook r } }
  | lastHook {v : Life} (t : Task) (r : RunRecord) (ht : v.task = some t)
      (hp : t.phase = .dropHook r) :
      LifeStep id v { v with
        hooks := if t.onFinish then v.hooks ++ [(⟨id, r, dropOutcome r⟩ : HookCall)] else v.hooks
        task := some { t with phase := .done, onFinish := false } }

/-! ### What holds at every moment of a life -/

/-- An active entry agrees with what `cancel` has answered so far. -/
structure ActiveRun.Kept (id : RunId) (cancelled : Bool) (e : ActiveRun) : Prop where
  keyed : e.record.runId = id
  flag : e.cancelRequested = cancelled
  /-- only a cancellation stops a run -/
  stopping : cancelled = false → e.record.state ≠ .stopping
  verdict : e.record.state.isTerminal = true → (e.record.state = .cancelled ↔ cancelled = true)

/-- A record fit for the archive: terminal, and `cancelled` exactly if a cancel was accepted. -/
structure RunRecord.Verdict (id : RunId) (cancelled : Bool) (r : RunRecord) : Prop where
  keyed : r.runId = id
  terminal : r.state.isTerminal = true
  cancelled : r.state = .cancelled ↔ cancelled = true

/-- One call if `given`, with record `r` and the outcome it shows, and no call otherwise. -/
def Told (id : RunId) (given : Bool) (r : RunRecord) (calls : List HookCall) : Prop :=
  if given then ∃ o : RunOutcome, o.outcomeClass = r.state ∧ calls = [⟨id, r, o⟩] else calls = []

/-- Either the guard still holds the hook, uncalled, or it was called. -/
def Owed (id : RunId) (t : Task) (r : RunRecord) (hooks : List HookCall) : Prop :=
  (t.onFinish = t.given ∧ hooks = []) ∨ (t.onFinish = false ∧ Told id t.given r hooks)

/-- Nothing has been archived or said about the run. -/
def Life.Silent (v : Life) : Prop := v.archived = [] ∧ v.hooks = [] ∧ v.observed = []

/-- The life of a run whose terminal state is still open. -/
structure Life.Open (v : Life) (t : Task) (p : Phase) : Prop where
  silent : v.Silent
  hook : t.onFinish = t.given
  entry : ∃ e, v.entry = some e ∧ e.record.state.isTerminal = false
  sound : ∀ o, p.outcome? = some o → o.outcomeClass = .cancelled → v.cancelled = true

/-- Where the life of a run stands when its task is at phase `p`. -/
def Life.At (id : RunId) (v : Life) (t : Task) : Phase → Prop
  | .hooking o => v.Silent ∧ t.onFinish = t.given ∧
      ∃ e, v.entry = some e ∧ e.record.state.isTerminal = true ∧ o.outcomeClass = e.record.state
  | .dropping => v.archived = [] ∧ v.observed = [] ∧ ∃ e, v.entry = some e ∧
      (t.onFinish = t.given ∧ v.hooks = [] ∨
        e.record.state.isTerminal = true ∧ t.onFinish = false ∧ Told id t.given e.record v.hooks)
  | .observing r => v.entry = none ∧ v.archived = [r] ∧ r.Verdict id v.cancelled ∧
      Owed id t r v.hooks ∧ v.observed = []
  | .dropHook r => v.entry = none ∧ v.archived = [r] ∧ r.Verdict id v.cancelled ∧
      Owed id t r v.hooks ∧ ∃ w : Bool, Told id w r v.observed
  | .done => v.entry = none ∧ ∃ r, v.archived = [r] ∧ r.Verdict id v.cancelled ∧
      Told id t.given r v.hooks ∧ ∃ w : Bool, Told id w r v.observed
  | p => v.Open t p

/-- INVARIANT of a life. -/
structure Life.Sound (id : RunId) (v : Life) : Prop where
  kept : ∀ e, v.entry = some e → e.Kept id v.cancelled
  waiting : v.task = none → v.Silent ∧ ∀ e, v.entry = some e → e.record.state.isTerminal = false
  stage : ∀ t, v.task = some t → v.At id t t.phase

theorem Life.at_undecided {id : RunId} {v : Life} {t : Task} {p : Phase}
    (h : p.undecided = true) : v.At id t p ↔ v.Open t p := by
  cases p <;> first | (cases h; done) | rfl

/-! ### The entry and the outcome -/

@[simp] theorem RunOutcome.outcomeClass_terminal (o : RunOutcome) :
    o.outcomeClass.isTerminal = true := by
  cases o <;> rfl

theorem outcomeClass_dropOutcome {r : RunRecord} (h : r.state.isTerminal = true) :
    (dropOutcome r).outcomeClass = r.state := by
  unfold dropOutcome
  cases hs : r.state <;> simp_all [RunOutcome.outcomeClass, RunState.isTerminal]

theorem ActiveRun.terminal_terminal (e : ActiveRun) (o : RunOutcome) :
    (e.terminal o.outcomeClass).isTerminal = true := by
  unfold ActiveRun.terminal
  split
  · rfl
  · exact o.outcomeClass_terminal

/-- The outcome `complete` hands to the hook is the one the settled entry shows. -/
theorem ActiveRun.outcome_settle (e : ActiveRun) (o : RunOutcome) (now : Time) :
    (if e.terminal o.outcomeClass = .cancelled then RunOutcome.cancelled o.logs else o).outcomeClass
      = (e.settle o.outcomeClass o.error now).record.state := by
  show _ = e.terminal o.outcomeClass
  split
  · next h => exact h.symm
  · next h =>
    unfold ActiveRun.terminal at h ⊢
    split at h
    · exact absurd rfl h
    · next hc => rw [if_neg hc]

namespace ActiveRun.Kept
variable {id : RunId} {c : Bool} {e : ActiveRun}

theorem requestCancel (h : e.Kept id c) : e.requestCancel.Kept id true where
  keyed := h.keyed
  flag := rfl
  stopping := fun hc => by cases hc
  verdict := fun ht => by cases ht

theorem markRunning (h : e.Kept id c) (now : Time) : (e.mark .running none now).Kept id c where
  keyed := h.keyed
  flag := h.flag
  stopping := fun _ hs => by cases hs
  verdict := fun ht => by cases ht

/-- SETTLE: the terminal state is `cancelled` exactly if a cancel was accepted, provided the task
    gives up as cancelled only then. -/
theorem settle (h : e.Kept id c) {o : RunOutcome} (ho : o.outcomeClass = .cancelled → c = true)
    (error : Option String) (now : Time) : (e.settle o.outcomeClass error now).Kept id c := by
  have hstate : (e.settle o.outcomeClass error now).record.state = .cancelled ↔ c = true := by
    show e.terminal o.outcomeClass = .cancelled ↔ _
    unfold ActiveRun.terminal
    rw [h.flag]
    cases c with
    | true => simp
    | false => simpa using ho
  refine ⟨h.keyed, h.flag, fun _ hs => ?_, fun _ => hstate⟩
  have ht : (e.terminal o.outcomeClass).isTerminal = true := e.terminal_terminal o
  rw [show e.terminal o.outcomeClass = .stopping from hs] at ht
  cases ht

/-- ARCHIVE: what `finalize` archives is fit for the archive. -/
theorem close (h : e.Kept id c) (now : Time) : (e.close now).Verdict id c := by
  unfold ActiveRun.close
  split
  · next ht => exact ⟨h.keyed, ht, h.verdict ht⟩
  · rw [h.flag]
    cases c with
    | true => exact ⟨h.keyed, rfl, by simp⟩
    | false => exact ⟨h.keyed, rfl, by simp⟩

end ActiveRun.Kept

theorem ActiveRun.close_of_terminal {e : ActiveRun} (h : e.record.state.isTerminal = true)
    (now : Time) : e.close now = e.record := by
  unfold ActiveRun.close
  rw [if_pos h]

/-- The guard's last look at the hook: it calls it if nobody has. -/
theorem Owed.pay {id : RunId} {t : Task} {r : RunRecord} {hooks : List HookCall}
    (h : Owed id t r hooks) (ht : r.state.isTerminal = true) :
    Told id t.given r
      (if t.onFinish then hooks ++ [(⟨id, r, dropOutcome r⟩ : HookCall)] else hooks) := by
  rcases h with ⟨hgiven, rfl⟩ | ⟨hf, htold⟩
  · rw [hgiven]
    unfold Told
    cases t.given with
    | true => exact ⟨dropOutcome r, outcomeClass_dropOutcome ht, rfl⟩
    | false => rfl
  · rw [hf]
    exact htold

/-! ### Every step keeps the invariant -/

namespace Life.Sound
variable {id : RunId} {v : Life}

theorem of_task {t : Task} (ht : v.task = some t)
    (kept : ∀ e, v.entry = some e → e.Kept id v.cancelled) (stage : v.At id t t.phase) :
    v.Sound id where
  kept := kept
  waiting := fun h => by rw [ht] at h; cases h
  stage := fun t' h => by rw [ht] at h; cases h; exact stage

theorem blank (w : Bool) : (Life.blank w).Sound id where
  kept := fun e he => by cases he
  waiting := fun _ => ⟨⟨rfl, rfl, rfl⟩, fun e he => by cases he⟩
  stage := fun t ht => by cases ht

theorem at_phase (h : v.Sound id) {t : Task} {p : Phase} (ht : v.task = some t)
    (hp : t.phase = p) : v.At id t p := by
  rw [← hp]
  exact h.stage t ht

theorem watch (h : v.Sound id) : Life.Sound id { v with watched := true } where
  kept := h.kept
  waiting := h.waiting
  stage := fun t ht => by
    have hat := h.stage t ht
    cases hp : t.phase <;> rw [hp] at hat <;>
      first
      | exact hat
      | exact ⟨hat.silent, hat.hook, hat.entry, hat.sound⟩

/-- A cancel is accepted only while the terminal state is open. -/
theorem cancel (h : v.Sound id) {e : ActiveRun} (he : v.entry = some e)
    (hn : e.record.state.isTerminal = false) :
    Life.Sound id { v with entry := some e.requestCancel, cancelled := true } where
  kept := fun e' he' => by cases he'; exact (h.kept e he).requestCancel
  waiting := fun ht => ⟨(h.waiting ht).1, fun e' he' => by cases he'; rfl⟩
  stage := fun t ht => by
    have hat := h.stage t ht
    -- an entry that is not terminal leaves the undecided phases and an unwound task
    cases hp : t.phase with
    | hooking o =>
      rw [hp] at hat
      obtain ⟨_, _, e', he', hterm, _⟩ := hat
      rw [he] at he'; cases he'
      rw [hn] at hterm; cases hterm
    | dropping =>
      rw [hp] at hat
      obtain ⟨ha, ho, e', he', hcase⟩ := hat
      rw [he] at he'; cases he'
      rcases hcase with hopen | ⟨hterm, _⟩
      · exact ⟨ha, ho, _, rfl, Or.inl hopen⟩
      · rw [hn] at hterm; cases hterm
    | observing r => rw [hp] at hat; rw [hat.1] at he; cases he
    | dropHook r => rw [hp] at hat; rw [hat.1] at he; cases he
    | done => rw [hp] at hat; rw [hat.1] at he; cases he
    | _ =>
      rw [hp] at hat
      exact ⟨hat.silent, hat.hook, ⟨_, rfl, rfl⟩, fun _ _ _ => rfl⟩

theorem advance (h : v.Sound id) {t : Task} {q : Phase} (ht : v.task = some t)
    (hp : t.phase.undecided = true) (hq : q.undecided = true ∨ q = .dropping)
    (sound : ∀ o, q.outcome? = some o → o.outcomeClass = .cancelled →
      (∃ e, v.entry = some e ∧ e.cancelRequested = true) ∨ t.phase.outcome? = some o) :
    Life.Sound id { v with task := some { t with phase := q } } := by
  have hopen : v.Open t t.phase := (Life.at_undecided hp).mp (h.stage t ht)
  refine .of_task rfl h.kept ?_
  rcases hq with hq | rfl
  · refine (Life.at_undecided hq).mpr ⟨hopen.silent, hopen.hook, hopen.entry, fun o ho hc => ?_⟩
    rcases sound o ho hc with ⟨e, he, hflag⟩ | ho'
    · rw [← (h.kept e he).flag]
      exact hflag
    · exact hopen.sound o ho' hc
  · obtain ⟨e, he, _⟩ := hopen.entry
    exact ⟨hopen.silent.1, hopen.silent.2.2, e, he, Or.inl ⟨hopen.hook, hopen.silent.2.1⟩⟩

theorem markRunning (h : v.Sound id) {t : Task} (now : Time) (ht : v.task = some t)
    (hp : t.phase = .acquired) :
    Life.Sound id { v with
      entry := v.entry.map fun e => e.mark .running none now
      task := some { t with phase := .marked } } := by
  have hopen : v.Open t .acquired := h.at_phase ht hp
  obtain ⟨e, he, hn⟩ := hopen.entry
  refine .of_task rfl (fun e' he' => ?_) ⟨hopen.silent, hopen.hook, ?_, fun o ho => by cases ho⟩
  · rw [he] at he'; cases he'
    exact (h.kept e he).markRunning now
  · exact ⟨_, by rw [he]; rfl, rfl⟩

theorem settle (h : v.Sound id) {t : Task} {o o' : RunOutcome} {entry : Option ActiveRun}
    {now : Time} (ht : v.task = some t) (hp : t.phase = .completing o)
    (he : ∀ e, v.entry = some e → e.record.state.isTerminal = false →
      entry = some (e.settle o.outcomeClass o.error now) ∧
      o' = if e.terminal o.outcomeClass = .cancelled then .cancelled o.logs else o) :
    Life.Sound id { v with entry := entry, task := some { t with phase := .hooking o' } } := by
  have hopen : v.Open t (.completing o) := h.at_phase ht hp
  obtain ⟨e, hentry, hn⟩ := hopen.entry
  obtain ⟨rfl, rfl⟩ := he e hentry hn
  refine .of_task rfl (fun e' he' => ?_)
    ⟨hopen.silent, hopen.hook, _, rfl, e.terminal_terminal o, e.outcome_settle o now⟩
  cases he'
  exact (h.kept e hentry).settle (hopen.sound o rfl) _ now

theorem hook (h : v.Sound id) {t : Task} {o : RunOutcome} {r : RunRecord} (ht : v.task = some t)
    (hp : t.phase = .hooking o) (hr : ∀ e, v.entry = some e → r = e.record) :
    Life.Sound id { v with
      hooks := if t.onFinish then v.hooks ++ [(⟨id, r, o⟩ : HookCall)] else v.hooks
      task := some { t with phase := .dropping, onFinish := false } } := by
  obtain ⟨hsilent, hgiven, e, he, hterm, ho⟩ := h.at_phase ht hp
  obtain rfl := hr e he
  refine .of_task rfl h.kept ⟨hsilent.1, hsilent.2.2, e, he, Or.inr ⟨hterm, rfl, ?_⟩⟩
  show Told id t.given e.record _
  rw [hgiven, hsilent.2.1]
  unfold Told
  cases t.given with
  | true => exact ⟨o, ho, rfl⟩
  | false => rfl

theorem archive (h : v.Sound id) {t : Task} {e : ActiveRun} (now : Time) (ht : v.task = some t)
    (hp : t.phase = .dropping) (he : v.entry = some e) :
    Life.Sound id { v with
      entry := none
      archived := v.archived ++ [e.close now]
      task := some { t with phase := .observing (e.close now) } } := by
  obtain ⟨ha, hobs, e', he', hcase⟩ := h.at_phase ht hp
  rw [he] at he'; cases he'
  refine .of_task rfl (fun e' he' => by cases he')
    ⟨rfl, by rw [ha]; rfl, (h.kept e he).close now, ?_, hobs⟩
  rcases hcase with hopen | ⟨hterm, hf, htold⟩
  · exact Or.inl hopen
  · rw [e.close_of_terminal hterm]
    exact Or.inr ⟨hf, htold⟩

theorem observe (h : v.Sound id) {t : Task} {r : RunRecord} (ht : v.task = some t)
    (hp : t.phase = .observing r) :
    Life.Sound id { v with
      observed :=
        if v.watched then v.observed ++ [(⟨id, r, dropOutcome r⟩ : HookCall)] else v.observed
      task := some { t with phase := .dropHook r } } := by
  obtain ⟨he, ha, hverdict, howed, hobs⟩ := h.at_phase ht hp
  refine .of_task rfl h.kept ⟨he, ha, hverdict, howed, v.watched, ?_⟩
  show Told id v.watched r (if v.watched then v.observed ++ _ else v.observed)
  rw [hobs]
  unfold Told
  cases v.watched with
  | true => exact ⟨_, outcomeClass_dropOutcome hverdict.terminal, rfl⟩
  | false => rfl

theorem lastHook (h : v.Sound id) {t : Task} {r : RunRecord} (ht : v.task = some t)
    (hp : t.phase = .dropHook r) :
    Life.Sound id { v with
      hooks := if t.onFinish then v.hooks ++ [(⟨id, r, dropOutcome r⟩ : HookCall)] else v.hooks
      task := some { t with phase := .done, onFinish := false } } := by
  obtain ⟨he, ha, hverdict, howed, hobs⟩ := h.at_phase ht hp
  exact .of_task rfl h.kept ⟨he, r, ha, hverdict, howed.pay hverdict.terminal, hobs⟩

end Life.Sound

/-- STEP: every step of a life keeps the invariant. -/
theorem LifeStep.sound {id : RunId} {v v' : Life} (h : LifeStep id v v') (hv : v.Sound id) :
    v'.Sound id := by
  cases h with
  | insert w r hid hr =>
    refine ⟨fun e he => ?_, fun _ => ⟨⟨rfl, rfl, rfl⟩, fun e he => ?_⟩, fun t ht => by cases ht⟩
    · cases he
      exact ⟨hid, rfl, fun _ hs => by simp [hr] at hs,
        fun ht => by simp [hr, RunState.isTerminal] at ht⟩
    · cases he
      simp [hr, RunState.isTerminal]
  | watch => exact hv.watch
  | spawn e req given he ht =>
    obtain ⟨hsilent, hopen⟩ := hv.waiting ht
    exact .of_task rfl hv.kept ⟨hsilent, rfl, ⟨e, he, hopen e he⟩, fun o ho => by cases ho⟩
  | cancel e he hn => exact hv.cancel he hn
  | advance t q ht hp hq sound => exact hv.advance ht hp hq sound
  | markRunning t now ht hp => exact hv.markRunning now ht hp
  | settle t o o' entry now ht hp he => exact hv.settle ht hp he
  | hook t o r ht hp hr => exact hv.hook ht hp hr
  | vanish t ht hp he =>
    -- the entry of a run stays until its guard archives it
    obtain ⟨_, _, e, he', _⟩ := hv.at_phase ht hp
    rw [he] at he'; cases he'
  | archive t e now ht hp he => exact hv.archive now ht hp he
  | observe t r ht hp => exact hv.observe ht hp
  | lastHook t r ht hp => exact hv.lastHook ht hp

end Gamer.RunManager
