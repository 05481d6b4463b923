import Mathlib.Data.List.Basic

/-! Labelled transition systems given by an executable step function, and the induction rules for
    their runs. `step s a = none` says that action `a` is not enabled in `s`; a run is a list of
    actions, and interleavings of concurrent parties are exactly the runs of the system whose
    actions are the parties' atomic steps. -/

namespace Gamer.Lib

namespace Machine
variable {σ α : Type} (step : σ → α → Option σ)

/-- The state after taking the actions one by one, if every one of them is enabled. -/
def exec : σ → List α → Option σ
  | s, [] => some s
  | s, a :: as => (step s a).bind fun s' => exec s' as

/-- Some run leads from `s` to `s'`. -/
def Reaches (s s' : σ) : Prop := ∃ as, exec step s as = some s'

/-- Every action of the run is taken in a state where `G` allows it. -/
def Along (G : σ → α → Prop) : σ → List α → Prop
  | _, [] => True
  | s, a :: as => G s a ∧ ∀ s', step s a = some s' → Along G s' as

/-- Some run all of whose steps `G` allows leads from `s` to `s'`. -/
def ReachesBy (G : σ → α → Prop) (s s' : σ) : Prop :=
  ∃ as, exec step s as = some s' ∧ Along step G s as

/-- `P` holds in every state the run passes through. -/
def Throughout (P : σ → Prop) : σ → List α → Prop
  | s, [] => P s
  | s, a :: as => P s ∧ ∀ s', step s a = some s' → Throughout P s' as

/-- `P` holds in some state the run passes through. -/
def Sometime (P : σ → Prop) : σ → List α → Prop
  | s, [] => P s
  | s, a :: as => P s ∨ ∃ s', step s a = some s' ∧ Sometime P s' as

variable {step} {G : σ → α → Prop}

@[simp] theorem exec_nil (s : σ) : exec step s [] = some s := rfl

theorem exec_cons_eq_some {s s' : σ} {a : α} {as : List α} :
    exec step s (a :: as) = some s' ↔ ∃ m, step s a = some m ∧ exec step m as = some s' :=
  Option.bind_eq_some_iff

theorem exec_append {s m s' : σ} {as bs : List α} (h₁ : exec step s as = some m)
    (h₂ : exec step m bs = some s') : exec step s (as ++ bs) = some s' := by
  induction as generalizing s with
  | nil => cases h₁; exact h₂
  | cons a as ih =>
    obtain ⟨k, hk, hrest⟩ := exec_cons_eq_some.mp h₁
    exact exec_cons_eq_some.mpr ⟨k, hk, ih hrest⟩

/-- What is left of a run after its first part. -/
theorem exec_rest {s m s' : σ} {as bs : List α} (h₁ : exec step s as = some m)
    (h₂ : exec step s (as ++ bs) = some s') : exec step m bs = some s' := by
  induction as generalizing s with
  | nil => cases h₁; exact h₂
  | cons a as ih =>
    obtain ⟨k, hk, hrest⟩ := exec_cons_eq_some.mp h₁
    obtain ⟨k', hk', hrest'⟩ := exec_cons_eq_some.mp h₂
    obtain rfl : k = k' := Option.some.inj (hk.symm.trans hk')
    exact ih hrest hrest'

/-- Where every action is enabled, every list of actions is a run. -/
theorem exec_total (h : ∀ s a, ∃ s', step s a = some s') (s : σ) (as : List α) :
    ∃ s', exec step s as = some s' := by
  induction as generalizing s with
  | nil => exact ⟨s, rfl⟩
  | cons a as ih =>
    obtain ⟨m, hm⟩ := h s a
    obtain ⟨s', hrun⟩ := ih m
    exact ⟨s', exec_cons_eq_some.mpr ⟨m, hm, hrun⟩⟩

theorem Reaches.refl (s : σ) : Reaches step s s := ⟨[], rfl⟩

theorem Reaches.single {s s' : σ} {a : α} (h : step s a = some s') : Reaches step s s' :=
  ⟨[a], exec_cons_eq_some.mpr ⟨s', h, rfl⟩⟩

theorem Reaches.trans {s m s' : σ} (h₁ : Reaches step s m) (h₂ : Reaches step m s') :
    Reaches step s s' := by
  obtain ⟨as, ha⟩ := h₁
  obtain ⟨bs, hb⟩ := h₂
  exact ⟨as ++ bs, exec_append ha hb⟩

theorem ReachesBy.refl (s : σ) : ReachesBy step G s s := ⟨[], rfl, trivial⟩

theorem ReachesBy.reaches {s s' : σ} (h : ReachesBy step G s s') : Reaches step s s' := by
  obtain ⟨as, ha, _⟩ := h
  exact ⟨as, ha⟩

/-- A run whose steps are all allowed, cut in two. -/
theorem ReachesBy.trans {s m s' : σ} (h₁ : ReachesBy step G s m) (h₂ : ReachesBy step G m s') :
    ReachesBy step G s s' := by
  obtain ⟨as, ha, hga⟩ := h₁
  obtain ⟨bs, hb, hgb⟩ := h₂
  refine ⟨as ++ bs, exec_append ha hb, ?_⟩
  induction as generalizing s with
  | nil => cases ha; exact hgb
  | cons a as ih =>
    obtain ⟨k, hk, hrest⟩ := exec_cons_eq_some.mp ha
    refine ⟨hga.1, fun k' hk' => ?_⟩
    rw [hk] at hk'; cases hk'
    exact ih hrest (hga.2 k hk)

/-- INVARIANT RULE: what every allowed step preserves, every run of allowed steps preserves. -/
theorem ReachesBy.invariant {I : σ → Prop} {s s' : σ} (h : ReachesBy step G s s')
    (hstep : ∀ s a s', I s → G s a → step s a = some s' → I s') (hs : I s) : I s' := by
  obtain ⟨as, ha, hg⟩ := h
  induction as generalizing s with
  | nil => cases ha; exact hs
  | cons a as ih =>
    obtain ⟨k, hk, hrest⟩ := exec_cons_eq_some.mp ha
    exact ih (hstep s a k hs hg.1 hk) hrest (hg.2 k hk)

/-- INVARIANT RULE for the runs with no condition on the steps. -/
theorem Reaches.invariant {I : σ → Prop} {s s' : σ} (h : Reaches step s s')
    (hstep : ∀ s a s', I s → step s a = some s' → I s') (hs : I s) : I s' := by
  obtain ⟨as, ha⟩ := h
  induction as generalizing s with
  | nil => cases ha; exact hs
  | cons a as ih =>
    obtain ⟨k, hk, hrest⟩ := exec_cons_eq_some.mp ha
    exact ih (hstep s a k hs hk) hrest

theorem Along.of_forall {s : σ} {as : List α} (h : ∀ s a, G s a) : Along step G s as := by
  induction as generalizing s with
  | nil => trivial
  | cons a as ih => exact ⟨h s a, fun _ _ => ih⟩

theorem Along.of_forall_mem {s : σ} {as : List α} (h : ∀ a ∈ as, ∀ s, G s a) :
    Along step G s as := by
  induction as generalizing s with
  | nil => trivial
  | cons a as ih =>
    obtain ⟨ha, has⟩ := List.forall_mem_cons.mp h
    exact ⟨ha s, fun _ _ => ih has⟩

theorem Along.imp {H : σ → α → Prop} (h : ∀ s a, G s a → H s a) {s : σ} {as : List α}
    (hg : Along step G s as) : Along step H s as := by
  induction as generalizing s with
  | nil => trivial
  | cons a as ih => exact ⟨h s a hg.1, fun s' hs => ih (hg.2 s' hs)⟩

theorem Along.and {H : σ → α → Prop} {s : σ} {as : List α} (hg : Along step G s as)
    (hh : Along step H s as) : Along step (fun s a => G s a ∧ H s a) s as := by
  induction as generalizing s with
  | nil => trivial
  | cons a as ih => exact ⟨⟨hg.1, hh.1⟩, fun s' hs => ih (hg.2 s' hs) (hh.2 s' hs)⟩

theorem Throughout.start {P : σ → Prop} {s : σ} {as : List α} (h : Throughout step P s as) :
    P s := by
  cases as with
  | nil => exact h
  | cons a as => exact h.1

theorem Throughout.finish {P : σ → Prop} {s s' : σ} {as : List α}
    (h : Throughout step P s as) (hrun : exec step s as = some s') : P s' := by
  induction as generalizing s with
  | nil => cases hrun; exact h
  | cons a as ih =>
    obtain ⟨m, hm, hrest⟩ := exec_cons_eq_some.mp hrun
    exact ih (h.2 m hm) hrest

theorem Throughout.imp {P Q : σ → Prop} (h : ∀ s, P s → Q s) {s : σ} {as : List α}
    (hall : Throughout step P s as) : Throughout step Q s as := by
  induction as generalizing s with
  | nil => exact h s hall
  | cons a as ih => exact ⟨h s hall.1, fun s' hs => ih (hall.2 s' hs)⟩

/-- INVARIANT RULE: what every allowed step preserves holds all along an allowed run. -/
theorem Along.throughout {I : σ → Prop} {s : σ} {as : List α} (hg : Along step G s as)
    (hstep : ∀ s a s', I s → G s a → step s a = some s' → I s') (hs : I s) :
    Throughout step I s as := by
  induction as generalizing s with
  | nil => exact hs
  | cons a as ih => exact ⟨hs, fun s' hs' => ih (hg.2 s' hs') (hstep s a s' hs hg.1 hs')⟩

/-- What holds of every state holds of the state before every step. -/
theorem Throughout.along {P : σ → Prop} {s : σ} {as : List α} (h : Throughout step P s as)
    (hg : Along step G s as) : Along step (fun s a => P s ∧ G s a) s as := by
  induction as generalizing s with
  | nil => trivial
  | cons a as ih => exact ⟨⟨h.1, hg.1⟩, fun s' hs => ih (h.2 s' hs) (hg.2 s' hs)⟩

/-- Two conditions on the steps that agree wherever the run passes are the same along it. -/
theorem Throughout.along_iff {J : σ → Prop} {H : σ → α → Prop} (h : ∀ s a, J s → (G s a ↔ H s a))
    {s : σ} {as : List α} (hall : Throughout step J s as) :
    Along step G s as ↔ Along step H s as := by
  induction as generalizing s with
  | nil => exact Iff.rfl
  | cons a as ih =>
    exact and_congr (h s a hall.1) (forall_congr' fun s' =>
      forall_congr' fun hs' => ih (hall.2 s' hs'))

theorem Sometime.of_start {P : σ → Prop} {s : σ} {as : List α} (h : P s) :
    Sometime step P s as := by
  cases as with
  | nil => exact h
  | cons a as => exact Or.inl h

/-- UNTIL RULE: if every allowed step out of an invariant state keeps the invariant or comes to
    `P`, an allowed run comes to `P` or ends in an invariant state. -/
theorem sometime_or_invariant {I P : σ → Prop}
    (hstep : ∀ s a s', I s → G s a → step s a = some s' → P s' ∨ I s') {s s' : σ} {as : List α}
    (hrun : exec step s as = some s') (hg : Along step G s as) (hs : I s) :
    Sometime step P s as ∨ I s' := by
  induction as generalizing s with
  | nil => cases hrun; exact Or.inr hs
  | cons a as ih =>
    obtain ⟨m, hm, hrest⟩ := exec_cons_eq_some.mp hrun
    rcases hstep s a m hs hg.1 hm with hP | hI
    · exact Or.inl (Or.inr ⟨m, hm, .of_start hP⟩)
    · rcases ih hrest (hg.2 m hm) hI with hlater | hend
      · exact Or.inl (Or.inr ⟨m, hm, hlater⟩)
      · exact Or.inr hend

/-- EXACT RULE: if `G` is exactly what keeps `P` across a step that `A` allows, then `P` holds all
    along an allowed run exactly if `G` does. The invariant `I` has to be kept only as long as `P`
    holds. -/
theorem throughout_iff_along {I : σ → Prop} {A : σ → α → Prop} {P : σ → Prop}
    (hstep : ∀ s a s', I s → P s → A s a → step s a = some s' → (P s' ↔ G s a) ∧ (P s' → I s'))
    {s s' : σ} {as : List α} (hrun : exec step s as = some s') (hallow : Along step A s as)
    (hI : I s) (hs : P s) : Throughout step P s as ↔ Along step G s as := by
  induction as generalizing s with
  | nil => exact ⟨fun _ => trivial, fun _ => hs⟩
  | cons a as ih =>
    obtain ⟨m, hm, hrest⟩ := exec_cons_eq_some.mp hrun
    obtain ⟨hiff, hinv⟩ := hstep s a m hI hs hallow.1 hm
    constructor
    · rintro ⟨_, hafter⟩
      have hPm : P m := (hafter m hm).start
      refine ⟨hiff.mp hPm, fun m' hm' => ?_⟩
      obtain rfl : m = m' := Option.some.inj (hm.symm.trans hm')
      exact (ih hrest (hallow.2 m hm) (hinv hPm) hPm).mp (hafter m hm)
    · rintro ⟨hG, hafter⟩
      have hPm : P m := hiff.mpr hG
      refine ⟨hs, fun m' hm' => ?_⟩
      obtain rfl : m = m' := Option.some.inj (hm.symm.trans hm')
      exact (ih hrest (hallow.2 m hm) (hinv hPm) hPm).mpr (hafter m hm)

/-- PROGRESS RULE: if every invariant state short of the goal has an action to a smaller one, the
    goal is reached. -/
theorem Reaches.goal {I goal : σ → Prop} (size : σ → Nat)
    (hstep : ∀ s, I s → ¬ goal s → ∃ s', Reaches step s s' ∧ I s' ∧ size s' < size s)
    {s : σ} (hs : I s) : ∃ s', Reaches step s s' ∧ goal s' := by
  induction hn : size s using Nat.strongRecOn generalizing s with
  | ind n ih =>
    by_cases hgoal : goal s
    · exact ⟨s, .refl s, hgoal⟩
    · obtain ⟨m, hm, hI, hlt⟩ := hstep s hs hgoal
      obtain ⟨s', hrun, hend⟩ := ih _ (hn ▸ hlt) hI rfl
      exact ⟨s', hm.trans hrun, hend⟩

/-! ### Logs -/

section Log
variable {ε : Type}

/-- What the steps of a run emit, in order. -/
def log (step : σ → α → Option σ) (emit : σ → α → List ε) : σ → List α → List ε
  | _, [] => []
  | s, a :: as => emit s a ++ (step s a).elim [] fun s' => log step emit s' as

variable {emit : σ → α → List ε}

theorem log_cons {s m : σ} {a : α} (h : step s a = some m) (as : List α) :
    log step emit s (a :: as) = emit s a ++ log step emit m as := by
  simp [log, h]

/-- BUDGET RULE: what every step pays for out of a budget, the run pays for out of it. -/
theorem log_budget [BEq ε] {e : ε} (budget : σ → Nat)
    (hstep : ∀ s a s', step s a = some s' → (emit s a).count e + budget s' ≤ budget s)
    {s s' : σ} {as : List α} (hrun : exec step s as = some s') :
    (log step emit s as).count e + budget s' ≤ budget s := by
  induction as generalizing s with
  | nil => cases hrun; simp [log]
  | cons a as ih =>
    obtain ⟨m, hm, hrest⟩ := exec_cons_eq_some.mp hrun
    have hpaid := hstep s a m hm
    have hlater := ih hrest
    rw [log_cons hm, List.count_append]
    omega

end Log

/-! ### Concrete runs -/

instance Along.decidable [∀ s a, Decidable (G s a)] :
    ∀ (s : σ) (as : List α), Decidable (Along step G s as)
  | _, [] => isTrue trivial
  | s, a :: as =>
    match h : step s a with
    | none => decidable_of_iff (G s a)
        ⟨fun hg => ⟨hg, fun s' hs => by rw [h] at hs; cases hs⟩, fun hg => hg.1⟩
    | some s' =>
      have := Along.decidable s' as
      decidable_of_iff (G s a ∧ Along step G s' as)
        ⟨fun hg => ⟨hg.1, fun s'' hs => by rw [h] at hs; cases hs; exact hg.2⟩,
          fun hg => ⟨hg.1, hg.2 s' h⟩⟩

instance Sometime.decidable {P : σ → Prop} [DecidablePred P] :
    ∀ (s : σ) (as : List α), Decidable (Sometime step P s as)
  | s, [] => decidable_of_iff (P s) Iff.rfl
  | s, a :: as =>
    match h : step s a with
    | none => decidable_of_iff (P s) ⟨Or.inl, fun hs => hs.elim id fun ⟨s', hs, _⟩ => by
        rw [h] at hs; cases hs⟩
    | some s' =>
      have : Decidable (Sometime step P s' as) := Sometime.decidable s' as
      decidable_of_iff (P s ∨ Sometime step P s' as)
        ⟨fun hs => hs.imp_right fun hrest => ⟨s', h, hrest⟩, fun hs => hs.imp_right fun hrest => by
          obtain ⟨s'', hs, hlater⟩ := hrest
          rw [h] at hs; cases hs; exact hlater⟩

/-- A fact about the end of a concrete run, by evaluation. -/
theorem exec_eval {s : σ} {as : List α} {p : σ → Prop} [DecidablePred p]
    (h : ((exec step s as).map fun s' => decide (p s')) = some true) :
    ∃ s', exec step s as = some s' ∧ p s' := by
  obtain ⟨s', hs, hp⟩ := Option.map_eq_some_iff.mp h
  exact ⟨s', hs, of_decide_eq_true hp⟩

end Machine

end Gamer.Lib
