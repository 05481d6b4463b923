import Mathlib.Logic.Relation

/-! Programs that can be cut off between two effects. Every effect takes one answer of the
    environment from a tape, and a run whose tape is used up is cut where it stands, so that the
    runs over all tapes are all outcomes of every effect and all cut points:

        effect f  over  e :: tape  ──▶  f e
        effect f  over  []         ──▶  cut

    Triples have a third part for the cuts: what holds wherever the program may be cut off. -/

namespace Gamer.Lib

/-- How a run ends: cut off, or with a result and the answers left over. -/
inductive Ended (ε σ α : Type) where
  | cut (s : σ)
  | done (a : α) (s : σ) (rest : List ε)

/-- The state a run ends in. -/
def Ended.state {ε σ α : Type} : Ended ε σ α → σ
  | .cut s | .done _ s _ => s

/-- The run came to its end, with a result that is no error. -/
def Ended.succeeded {ε σ χ α : Type} : Ended ε σ (Except χ α) → Bool
  | .done (.ok _) _ _ => true
  | _ => false

/-- A program over state `σ` whose effects ask for answers in `ε`. -/
def Prog (ε σ α : Type) := List ε → σ → Ended ε σ α

namespace Prog
variable {ε σ α β : Type}

/-- One atomic effect. -/
def effect (f : ε → σ → α × σ) : Prog ε σ α
  | [], s => .cut s
  | e :: rest, s => .done (f e s).1 (f e s).2 rest

instance : Monad (Prog ε σ) where
  pure a := fun tape s => .done a s tape
  bind p k := fun tape s => match p tape s with
    | .cut s' => .cut s'
    | .done a s' rest => k a rest s'

theorem bind_run (p : Prog ε σ α) (k : α → Prog ε σ β) (tape : List ε) (s : σ) :
    (p >>= k) tape s = match p tape s with
      | .cut s' => .cut s'
      | .done a s' rest => k a rest s' := rfl

/-- No effect, and this result. -/
def give (a : α) : Prog ε σ α := fun tape s => .done a s tape

/-- A change of what is in memory: a program is not cut off in it. -/
def change (f : σ → σ) : Prog ε σ Unit := fun tape s => .done () (f s) tape

/-- Go on as the state says. -/
def reading (k : σ → Prog ε σ α) : Prog ε σ α := fun tape s => k s tape s

/-- Go on with the result, or with the handler of the error. -/
def orFail {χ : Type} (p : Prog ε σ (Except χ α)) (fail : χ → Prog ε σ β)
    (k : α → Prog ε σ β) : Prog ε σ β :=
  p >>= fun
    | .error x => fail x
    | .ok a => k a

/-- Go on with the result, or end with the error. -/
def andThen {χ : Type} (p : Prog ε σ (Except χ α)) (k : α → Prog ε σ (Except χ β)) :
    Prog ε σ (Except χ β) :=
  p.orFail (fun x => pure (.error x)) k

/-- A run whose first part succeeds is the run of the second part from there. -/
theorem orFail_of_ok {χ : Type} {p : Prog ε σ (Except χ α)} {fail : χ → Prog ε σ β}
    {k : α → Prog ε σ β} {tape rest : List ε} {s s' : σ} {a : α}
    (h : p tape s = .done (.ok a) s' rest) : p.orFail fail k tape s = k a rest s' := by
  rw [orFail, bind_run, h]

theorem orFail_of_error {χ : Type} {p : Prog ε σ (Except χ α)} {fail : χ → Prog ε σ β}
    {k : α → Prog ε σ β} {tape rest : List ε} {s s' : σ} {x : χ}
    (h : p tape s = .done (.error x) s' rest) : p.orFail fail k tape s = fail x rest s' := by
  rw [orFail, bind_run, h]

theorem orFail_of_cut {χ : Type} {p : Prog ε σ (Except χ α)} {fail : χ → Prog ε σ β}
    {k : α → Prog ε σ β} {tape : List ε} {s s' : σ}
    (h : p tape s = .cut s') : p.orFail fail k tape s = .cut s' := by
  rw [orFail, bind_run, h]

theorem andThen_of_ok {χ : Type} {p : Prog ε σ (Except χ α)} {k : α → Prog ε σ (Except χ β)}
    {tape rest : List ε} {s s' : σ} {a : α} (h : p tape s = .done (.ok a) s' rest) :
    p.andThen k tape s = k a rest s' :=
  orFail_of_ok h

theorem andThen_of_error {χ : Type} {p : Prog ε σ (Except χ α)} {k : α → Prog ε σ (Except χ β)}
    {tape rest : List ε} {s s' : σ} {x : χ} (h : p tape s = .done (.error x) s' rest) :
    p.andThen k tape s = .done (.error x) s' rest :=
  orFail_of_error h

theorem andThen_of_cut {χ : Type} {p : Prog ε σ (Except χ α)} {k : α → Prog ε σ (Except χ β)}
    {tape : List ε} {s s' : σ} (h : p tape s = .cut s') : p.andThen k tape s = .cut s' :=
  orFail_of_cut h

/-- FRAME: a second part that leaves the state alone does not show in the state. -/
theorem andThen_state {χ : Type} {p : Prog ε σ (Except χ α)} {k : α → Prog ε σ (Except χ β)}
    (hk : ∀ a tape s, (k a tape s).state = s) (tape : List ε) (s : σ) :
    (p.andThen k tape s).state = (p tape s).state := by
  cases hrun : p tape s with
  | cut s' => rw [andThen_of_cut hrun]; rfl
  | done r s' rest =>
    cases r with
    | error x => rw [andThen_of_error hrun]; rfl
    | ok a =>
      rw [andThen_of_ok hrun, hk]
      rfl

/-- A postcondition for each of the two results. -/
def either {χ : Type} (E : χ → σ → Prop) (K : α → σ → Prop) : Except χ α → σ → Prop
  | .error x => E x
  | .ok a => K a

/-- From `P` the program ends in `Q`, and wherever it is cut off `C` holds. -/
def Triple (P : σ → Prop) (p : Prog ε σ α) (Q : α → σ → Prop) (C : σ → Prop) : Prop :=
  ∀ tape s, P s → match p tape s with
    | .cut s' => C s'
    | .done a s' _ => Q a s'

namespace Triple
variable {P P' : σ → Prop} {p : Prog ε σ α} {Q Q' : α → σ → Prop} {C : σ → Prop}

theorem pure {a : α} (h : ∀ s, P s → Q a s) : Triple P (Pure.pure a : Prog ε σ α) Q C :=
  fun _ s hs => h s hs

theorem give {a : α} (h : ∀ s, P s → Q a s) : Triple P (Prog.give a : Prog ε σ α) Q C :=
  fun _ s hs => h s hs

theorem change {f : σ → σ} {Q : Unit → σ → Prop} (h : ∀ s, P s → Q () (f s)) :
    Triple P (Prog.change f : Prog ε σ Unit) Q C :=
  fun _ s hs => h s hs

/-- Every program meets the triple that asks for nothing. -/
theorem any : Triple P p (fun _ _ => True) fun _ => True := by
  intro tape s _
  cases p tape s <;> trivial

/-- What is proved from each state is proved from all of them. -/
theorem each (h : ∀ s, P s → Triple (fun t => t = s) p Q C) : Triple P p Q C :=
  fun tape s hs => h s hs tape s rfl

/-- READING RULE: what the program goes on with may depend on the state it starts from. -/
theorem reading {k : σ → Prog ε σ α} (h : ∀ s, P s → Triple (fun t => P t ∧ t = s) (k s) Q C) :
    Triple P (Prog.reading k) Q C :=
  fun tape s hs => h s hs tape s ⟨hs, rfl⟩

theorem bind {R : β → σ → Prop} {k : α → Prog ε σ β} (hp : Triple P p Q C)
    (hk : ∀ a, Triple (Q a) (k a) R C) : Triple P (p >>= k) R C := by
  intro tape s hs
  have hfirst := hp tape s hs
  show match (match p tape s with
    | .cut s' => Ended.cut s'
    | .done a s' rest => k a rest s') with
    | .cut s' => C s'
    | .done a s' _ => R a s'
  cases hrun : p tape s with
  | cut s' => rw [hrun] at hfirst; exact hfirst
  | done a s' rest => rw [hrun] at hfirst; exact hk a rest s' hfirst

theorem orFail {χ : Type} {p : Prog ε σ (Except χ α)} {E : χ → σ → Prop} {K : α → σ → Prop}
    {R : β → σ → Prop} {fail : χ → Prog ε σ β} {k : α → Prog ε σ β}
    (hp : Triple P p (either E K) C) (hfail : ∀ x, Triple (E x) (fail x) R C)
    (hk : ∀ a, Triple (K a) (k a) R C) : Triple P (p.orFail fail k) R C := by
  refine hp.bind fun r => ?_
  cases r with
  | error x => exact hfail x
  | ok a => exact hk a

theorem andThen {χ : Type} {p : Prog ε σ (Except χ α)} {E : χ → σ → Prop} {K : α → σ → Prop}
    {E' : χ → σ → Prop} {K' : β → σ → Prop} {k : α → Prog ε σ (Except χ β)}
    (hp : Triple P p (either E K) C) (herror : ∀ x s, E x s → E' x s)
    (hk : ∀ a, Triple (K a) (k a) (either E' K') C) :
    Triple P (p.andThen k) (either E' K') C :=
  hp.orFail (fun x => .pure (herror x)) hk

/-- FRAME RULE: behind a part that keeps the precondition, whatever it comes to. -/
theorem andThen_frame {χ : Type} {R : σ → Prop} {p : Prog ε σ (Except χ α)}
    {k : α → Prog ε σ (Except χ β)} (hp : Triple P p (fun _ => P) P) (hR : ∀ s, P s → R s)
    (hk : ∀ a, Triple P (k a) (fun _ => R) R) : Triple P (p.andThen k) (fun _ => R) R := by
  intro tape s hs
  have hfirst := hp tape s hs
  rw [Prog.andThen, Prog.orFail, bind_run]
  cases hrun : p tape s with
  | cut s' =>
    rw [hrun] at hfirst
    exact hR s' hfirst
  | done r s' rest =>
    rw [hrun] at hfirst
    cases r with
    | error x => exact hR s' hfirst
    | ok a => exact hk a rest s' hfirst

/-- A result that does not depend on what happened before. -/
theorem orFail_any {χ : Type} {p : Prog ε σ (Except χ α)} {R : β → σ → Prop}
    {fail : χ → Prog ε σ β} {k : α → Prog ε σ β}
    (hfail : ∀ x, Triple (fun _ => True) (fail x) R fun _ => True)
    (hk : ∀ a, Triple (fun _ => True) (k a) R fun _ => True) :
    Triple (fun _ => True) (p.orFail fail k) R fun _ => True := by
  refine any.bind fun r => ?_
  cases r with
  | error x => exact hfail x
  | ok a => exact hk a

/-- EFFECT RULE: it may be cut off before the effect, and not during it. -/
theorem effect {f : ε → σ → α × σ} (hcut : ∀ s, P s → C s)
    (hdone : ∀ e s, P s → Q (f e s).1 (f e s).2) : Triple P (Prog.effect f) Q C := by
  intro tape s hs
  cases tape with
  | nil => exact hcut s hs
  | cons e rest => exact hdone e s hs

theorem conseq (h : Triple P' p Q' C) (hpre : ∀ s, P s → P' s)
    (hpost : ∀ a s, Q' a s → Q a s) : Triple P p Q C := by
  intro tape s hs
  have hrun := h tape s (hpre s hs)
  cases hend : p tape s with
  | cut s' => rw [hend] at hrun; exact hrun
  | done a s' rest => rw [hend] at hrun; exact hpost a s' hrun

/-- CONJUNCTION RULE: two triples about the same program. -/
theorem both {C' : σ → Prop} (h : Triple P p Q C) (h' : Triple P' p Q' C') :
    Triple (fun s => P s ∧ P' s) p (fun a s => Q a s ∧ Q' a s) fun s => C s ∧ C' s := by
  intro tape s hs
  have hrun := h tape s hs.1
  have hrun' := h' tape s hs.2
  cases hend : p tape s <;> rw [hend] at hrun hrun' <;> exact ⟨hrun, hrun'⟩

theorem post (h : Triple P p Q' C) (hpost : ∀ a s, Q' a s → Q a s) : Triple P p Q C :=
  h.conseq (fun _ hs => hs) hpost

theorem pre (h : Triple P' p Q C) (hpre : ∀ s, P s → P' s) : Triple P p Q C :=
  h.conseq hpre fun _ _ hs => hs

/-- Less is asked of the cuts. -/
theorem cuts {C' : σ → Prop} (h : Triple P p Q C') (hcut : ∀ s, C' s → C s) : Triple P p Q C := by
  intro tape s hs
  have hrun := h tape s hs
  cases hend : p tape s with
  | cut s' => rw [hend] at hrun; exact hcut s' hrun
  | done a s' rest => rw [hend] at hrun; exact hrun

/-- What is proved for each witness holds for some witness. -/
theorem ex {ι : Type} {P : ι → σ → Prop} (h : ∀ i, Triple (P i) p Q C) :
    Triple (fun s => ∃ i, P i s) p Q C :=
  fun tape s ⟨i, hs⟩ => h i tape s hs

/-- A fact that does not depend on the state may be used to prove the triple. -/
theorem fact {φ : Prop} (h : φ → Triple P p Q C) : Triple (fun s => P s ∧ φ) p Q C :=
  fun tape s hs => h hs.2 tape s hs.1

/-- What holds at every end of a run. -/
theorem state {R : σ → Prop} (h : Triple P p (fun _ => R) R) {s : σ} (hs : P s)
    (tape : List ε) : R (p tape s).state := by
  have hrun := h tape s hs
  cases hend : p tape s <;> rw [hend] at hrun <;> exact hrun

/-- A fact about the states in which the runs end, wherever they do. -/
theorem of_state {R : σ → Prop} (h : ∀ tape s, P s → R (p tape s).state) :
    Triple P p (fun _ => R) R := by
  intro tape s hs
  have hend := h tape s hs
  cases hrun : p tape s <;> rw [hrun] at hend <;> exact hend

/-- What holds at the end of a run that succeeds. -/
theorem succeeded {χ : Type} {p : Prog ε σ (Except χ α)} {E : χ → σ → Prop} {K : α → σ → Prop}
    (h : Triple P p (either E K) C) {s : σ} (hs : P s) {tape : List ε}
    (hrun : (p tape s).succeeded) : ∃ a, K a (p tape s).state := by
  have hend := h tape s hs
  cases hp : p tape s with
  | cut s' => simp [hp, Ended.succeeded] at hrun
  | done r s' rest =>
    rw [hp] at hend
    cases r with
    | error x => simp [hp, Ended.succeeded] at hrun
    | ok a => exact ⟨a, hend⟩

end Triple

/-! ### What a program leaves alone -/

/-- No run changes what is seen of the state, wherever it ends. -/
def Keeps {τ : Type} (view : σ → τ) (p : Prog ε σ α) : Prop :=
  ∀ tape s, view (p tape s).state = view s

namespace Keeps
variable {τ : Type} {view : σ → τ} {p : Prog ε σ α}

theorem give {a : α} : Keeps view (Prog.give a : Prog ε σ α) := fun _ _ => rfl

theorem change {f : σ → σ} (h : ∀ s, view (f s) = view s) :
    Keeps view (Prog.change f : Prog ε σ Unit) := fun _ s => h s

/-- A program that keeps the state keeps what is seen of it. -/
theorem of_id (h : Keeps id p) : Keeps view p := fun tape s => congrArg view (h tape s)

theorem prod {ρ : Type} {other : σ → ρ} (h : Keeps view p) (h' : Keeps other p) :
    Keeps (fun s => (view s, other s)) p :=
  fun tape s => Prod.ext (h tape s) (h' tape s)

theorem effect {f : ε → σ → α × σ} (h : ∀ e s, view (f e s).2 = view s) :
    Keeps view (Prog.effect f) := by
  rintro (_ | ⟨e, rest⟩) s
  · rfl
  · exact h e s

theorem reading {k : σ → Prog ε σ α} (h : ∀ s, Keeps view (k s)) : Keeps view (Prog.reading k) :=
  fun tape s => h s tape s

theorem bind {k : α → Prog ε σ β} (hp : Keeps view p) (hk : ∀ a, Keeps view (k a)) :
    Keeps view (p >>= k) := by
  intro tape s
  have hfirst := hp tape s
  rw [bind_run]
  cases hrun : p tape s with
  | cut s' =>
    rw [hrun] at hfirst
    exact hfirst
  | done a s' rest =>
    rw [hrun] at hfirst
    exact (hk a rest s').trans hfirst

theorem orFail {χ : Type} {p : Prog ε σ (Except χ α)} {fail : χ → Prog ε σ β}
    {k : α → Prog ε σ β} (hp : Keeps view p) (hfail : ∀ x, Keeps view (fail x))
    (hk : ∀ a, Keeps view (k a)) : Keeps view (p.orFail fail k) := by
  refine hp.bind fun r => ?_
  cases r with
  | error x => exact hfail x
  | ok a => exact hk a

theorem andThen {χ : Type} {p : Prog ε σ (Except χ α)} {k : α → Prog ε σ (Except χ β)}
    (hp : Keeps view p) (hk : ∀ a, Keeps view (k a)) : Keeps view (p.andThen k) :=
  hp.orFail (fun _ _ _ => rfl) hk

/-- FRAME RULE: a predicate on what is kept is kept. -/
theorem triple {P : σ → Prop} (h : Keeps view p) (hP : ∀ s t, view t = view s → P s → P t) :
    Triple P p (fun _ => P) P := by
  intro tape s hs
  have hview := h tape s
  cases hrun : p tape s <;> rw [hrun] at hview <;> exact hP s _ hview hs

end Keeps

/-! ### Programs and transition relations -/

section Refinement
variable {κ : Type} {R : κ × σ → κ × σ → Prop} {start : κ × σ}

/-- The relation leads from `start` to control point `k` and state `s`. -/
def Leads (R : κ × σ → κ × σ → Prop) (start : κ × σ) (k : κ) (s : σ) : Prop :=
  Relation.ReflTransGen R start (k, s)

/-- The relation leads to the state, at some control point. -/
def Covers (R : κ × σ → κ × σ → Prop) (start : κ × σ) (s : σ) : Prop :=
  ∃ k, Leads R start k s

theorem Leads.refl (k : κ) (s : σ) : Leads R (k, s) k s := Relation.ReflTransGen.refl

theorem Leads.step {k k' : κ} {s s' : σ} (h : Leads R start k s) (hstep : R (k, s) (k', s')) :
    Leads R start k' s' := Relation.ReflTransGen.tail h hstep

theorem Leads.covers {k : κ} {s : σ} (h : Leads R start k s) : Covers R start s := ⟨k, h⟩

/-- INVARIANT RULE: what every transition preserves holds wherever the relation leads. -/
theorem Leads.invariant {I : κ × σ → Prop} {k : κ} {s : σ} (h : Leads R start k s)
    (hstep : ∀ x y, I x → R x y → I y) (hstart : I start) : I (k, s) := by
  have hall : ∀ x, Relation.ReflTransGen R start x → I x := by
    intro x hx
    induction hx with
    | refl => exact hstart
    | tail _ hlast ih => exact hstep _ _ ih hlast
  exact hall _ h

end Refinement

end Prog

end Gamer.Lib
