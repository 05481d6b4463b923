import Gamer.Lib.Crash

/-! Programs that are watched: the parts of a program write a note when they have come to their
    result, and the notes change nothing about the run.

        watched run  ──▶  result, state, notes
             │ erase
             ▼
        run          ──▶  result, state -/

namespace Gamer.Lib

/-- The end of a run, seen through a function of the state. -/
def Ended.map {ε σ τ α : Type} (f : σ → τ) : Ended ε σ α → Ended ε τ α
  | .cut s => .cut (f s)
  | .done a s rest => .done a (f s) rest

namespace Prog
variable {ε σ ν α β χ : Type}

/-- The program, beside the notes. -/
def beside (p : Prog ε σ α) : Prog ε (σ × List ν) α := fun tape s =>
  (p tape s.1).map fun s' => (s', s.2)

/-- The program, which writes what there is to note of its result. -/
def watch (note : α → List ν) (p : Prog ε σ α) : Prog ε (σ × List ν) α := fun tape s =>
  match p tape s.1 with
  | .cut s' => .cut (s', s.2)
  | .done a s' rest => .done a (s', s.2 ++ note a) rest

/-- A watched program whose runs are those of the program. -/
structure Erases (q : Prog ε (σ × List ν) α) (p : Prog ε σ α) : Prop where
  same : ∀ tape s, (q tape s).map Prod.fst = p tape s.1

namespace Erases
variable {p : Prog ε σ α} {q : Prog ε (σ × List ν) α}

theorem pure {a : α} : Erases (Pure.pure a : Prog ε (σ × List ν) α) (Pure.pure a) :=
  ⟨fun _ _ => rfl⟩

theorem give {a : α} : Erases (Prog.give a : Prog ε (σ × List ν) α) (Prog.give a) :=
  ⟨fun _ _ => rfl⟩

theorem beside : Erases (p.beside : Prog ε (σ × List ν) α) p := by
  refine ⟨fun tape s => ?_⟩
  unfold Prog.beside
  cases p tape s.1 <;> rfl

theorem watch {note : α → List ν} : Erases (p.watch note) p := by
  refine ⟨fun tape s => ?_⟩
  unfold Prog.watch
  cases p tape s.1 <;> rfl

theorem bind {k : α → Prog ε σ β} {l : α → Prog ε (σ × List ν) β} (hq : Erases q p)
    (hl : ∀ a, Erases (l a) (k a)) : Erases (q >>= l) (p >>= k) := by
  refine ⟨fun tape s => ?_⟩
  rw [bind_run, bind_run, ← hq.same tape s]
  cases hrun : q tape s with
  | cut s' => rfl
  | done a s' rest => exact (hl a).same rest s'

theorem orFail {p : Prog ε σ (Except χ α)} {q : Prog ε (σ × List ν) (Except χ α)}
    {fail : χ → Prog ε σ β} {watchedFail : χ → Prog ε (σ × List ν) β} {k : α → Prog ε σ β}
    {l : α → Prog ε (σ × List ν) β} (hq : Erases q p)
    (hfail : ∀ x, Erases (watchedFail x) (fail x)) (hl : ∀ a, Erases (l a) (k a)) :
    Erases (q.orFail watchedFail l) (p.orFail fail k) := by
  refine bind hq fun r => ?_
  cases r with
  | error x => exact hfail x
  | ok a => exact hl a

theorem andThen {p : Prog ε σ (Except χ α)} {q : Prog ε (σ × List ν) (Except χ α)}
    {k : α → Prog ε σ (Except χ β)} {l : α → Prog ε (σ × List ν) (Except χ β)} (hq : Erases q p)
    (hl : ∀ a, Erases (l a) (k a)) : Erases (q.andThen l) (p.andThen k) :=
  orFail hq (fun _ => pure) hl

/-- RUN: a watched run that comes to a result is one of the program to that result. -/
theorem run (h : Erases q p) {tape rest : List ε} {s s' : σ} {notes notes' : List ν} {a : α}
    (hrun : q tape (s, notes) = .done a (s', notes') rest) : p tape s = .done a s' rest := by
  rw [← h.same tape (s, notes), hrun]
  rfl

end Erases

/-! ### Triples of watched programs -/

namespace Triple
variable {P C : σ → Prop} {p : Prog ε σ α} {Q : α → σ → Prop} {notes : List ν}

/-- WATCH RULE: what the program does, and what it adds to the notes. -/
theorem watch {note : α → List ν} (h : Triple P p Q C) :
    Triple (fun s => P s.1 ∧ s.2 = notes) (p.watch note)
      (fun a s => Q a s.1 ∧ s.2 = notes ++ note a) fun _ => True := by
  rintro tape ⟨s, ns⟩ ⟨hs, rfl⟩
  have hend := h tape s hs
  unfold Prog.watch
  cases hrun : p tape s with
  | cut s' => trivial
  | done a s' rest =>
    rw [hrun] at hend
    exact ⟨hend, rfl⟩

/-- FRAME RULE: the rest adds no notes. -/
theorem beside (h : Triple P p Q C) :
    Triple (fun s => P s.1 ∧ s.2 = notes) p.beside (fun a s => Q a s.1 ∧ s.2 = notes)
      fun _ => True := by
  rintro tape ⟨s, ns⟩ ⟨hs, rfl⟩
  have hend := h tape s hs
  unfold Prog.beside
  cases hrun : p tape s with
  | cut s' => trivial
  | done a s' rest =>
    rw [hrun] at hend
    exact ⟨hend, rfl⟩

end Triple

/-! ### Rules about the notes -/

/-- From these notes, whatever the state: where the run ends, this holds of its result and the
    notes. -/
structure Notes (notes : List ν) (q : Prog ε (σ × List ν) α) (Q : α → List ν → Prop) : Prop where
  triple : Triple (fun s => s.2 = notes) q (fun a s => Q a s.2) fun _ => True

namespace Notes
variable {notes : List ν} {q : Prog ε (σ × List ν) α} {Q : α → List ν → Prop}

theorem pure {a : α} (h : Q a notes) : Notes notes (Pure.pure a : Prog ε (σ × List ν) α) Q :=
  ⟨Triple.pure fun _ hs => hs.symm ▸ h⟩

theorem post {R : α → List ν → Prop} (hq : Notes notes q R)
    (h : ∀ a notes', R a notes' → Q a notes') : Notes notes q Q :=
  ⟨hq.triple.post fun a s => h a s.2⟩

theorem bind {R : α → List ν → Prop} {Q : β → List ν → Prop} {l : α → Prog ε (σ × List ν) β}
    (hq : Notes notes q R) (h : ∀ a notes', R a notes' → Notes notes' (l a) Q) :
    Notes notes (q >>= l) Q :=
  ⟨Triple.bind hq.triple fun a tape s hs => (h a s.2 hs).triple tape s rfl⟩

/-- EFFECT RULE: what is watched adds its note, and may come to any result. -/
theorem noted {note : α → List ν} {p : Prog ε σ α} (h : ∀ a, Q a (notes ++ note a)) :
    Notes notes (p.watch note) Q := by
  refine ⟨?_⟩
  rintro tape ⟨s, ns⟩ rfl
  unfold Prog.watch
  cases p tape s with
  | cut s' => trivial
  | done a s' rest => exact h a

/-- FRAME RULE: the rest adds none, and comes to a result of its own. -/
theorem frame {p : Prog ε σ α}
    (h : Triple (fun _ => True) p (fun a _ => Q a notes) fun _ => True) :
    Notes notes (p.beside : Prog ε (σ × List ν) α) Q := by
  refine ⟨?_⟩
  rintro tape ⟨s, ns⟩ rfl
  have hend := h tape s trivial
  unfold Prog.beside
  cases hrun : p tape s with
  | cut s' => trivial
  | done a s' rest =>
    rw [hrun] at hend
    exact hend

theorem watch {note : α → List ν} {p : Prog ε σ α} {Q : β → List ν → Prop}
    {l : α → Prog ε (σ × List ν) β} (h : ∀ a, Notes (notes ++ note a) (l a) Q) :
    Notes notes (p.watch note >>= l) Q := by
  refine bind (noted (Q := fun a notes' => notes' = notes ++ note a) fun _ => rfl) ?_
  rintro a _ rfl
  exact h a

theorem beside {p : Prog ε σ α} {Q : β → List ν → Prop} {l : α → Prog ε (σ × List ν) β}
    (h : ∀ a, Notes notes (l a) Q) : Notes notes (p.beside >>= l) Q := by
  refine bind (frame (Q := fun _ notes' => notes' = notes) (Triple.any.post fun _ _ _ => rfl)) ?_
  rintro a _ rfl
  exact h a

theorem watch_orFail {note : Except χ α → List ν} {p : Prog ε σ (Except χ α)}
    {Q : β → List ν → Prop} {fail : χ → Prog ε (σ × List ν) β} {l : α → Prog ε (σ × List ν) β}
    (hfail : ∀ x, Notes (notes ++ note (.error x)) (fail x) Q)
    (h : ∀ a, Notes (notes ++ note (.ok a)) (l a) Q) :
    Notes notes ((p.watch note).orFail fail l) Q := by
  refine watch fun r => ?_
  cases r with
  | error x => exact hfail x
  | ok a => exact h a

theorem beside_orFail {p : Prog ε σ (Except χ α)} {Q : β → List ν → Prop}
    {fail : χ → Prog ε (σ × List ν) β} {l : α → Prog ε (σ × List ν) β}
    (hfail : ∀ x, Notes notes (fail x) Q) (h : ∀ a, Notes notes (l a) Q) :
    Notes notes (p.beside.orFail fail l) Q := by
  refine beside fun r => ?_
  cases r with
  | error x => exact hfail x
  | ok a => exact h a

/-- RUN: what holds of the notes of a run that comes to a result. -/
theorem run (h : Notes notes q Q) {tape rest : List ε} {s s' : σ} {notes' : List ν} {a : α}
    (hrun : q tape (s, notes) = .done a (s', notes') rest) : Q a notes' := by
  have hend := h.triple tape (s, notes) rfl
  rw [hrun] at hend
  exact hend

end Notes

end Prog

end Gamer.Lib
