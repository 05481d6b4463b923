import Gamer.Lib.Crash

/-! Programs whose every effect is answered well. From a state of the precondition such a run comes
    to its result, if there are answers enough:

        n ≤ answers, all good  ──▶  a result, and at most n answers used -/

namespace Gamer.Lib

namespace Prog
variable {ε σ α β χ : Type} {good : ε → Prop} {P : σ → Prop}

/-- From `P`, with `n` good answers, the program comes to a result in `Q`. -/
structure Serves (good : ε → Prop) (n : Nat) (P : σ → Prop) (p : Prog ε σ α)
    (Q : α → σ → Prop) : Prop where
  run : ∀ tape s, P s → (∀ e ∈ tape, good e) → n ≤ tape.length →
    ∃ a s' rest, p tape s = .done a s' rest ∧ Q a s' ∧ rest <:+ tape ∧
      tape.length ≤ rest.length + n

namespace Serves
variable {n m : Nat} {p : Prog ε σ α} {Q : α → σ → Prop}

theorem pure {a : α} (h : ∀ s, P s → Q a s) : Serves good 0 P (Pure.pure a : Prog ε σ α) Q :=
  ⟨fun tape s hs _ _ => ⟨a, s, tape, rfl, h s hs, List.suffix_refl _, Nat.le_refl _⟩⟩

/-- EFFECT RULE: one answer. -/
theorem effect {f : ε → σ → α × σ} (h : ∀ e s, good e → P s → Q (f e s).1 (f e s).2) :
    Serves good 1 P (Prog.effect f) Q := by
  refine ⟨fun tape s hs hgood hlen => ?_⟩
  cases tape with
  | nil => simp at hlen
  | cons e rest =>
    exact ⟨(f e s).1, (f e s).2, rest, rfl, h e s (hgood e List.mem_cons_self) hs,
      List.suffix_cons e rest, Nat.le_refl _⟩

theorem bind {k : α → Prog ε σ β} {R : β → σ → Prop} (hp : Serves good n P p Q)
    (hk : ∀ a, Serves good m (Q a) (k a) R) : Serves good (n + m) P (p >>= k) R := by
  refine ⟨fun tape s hs hgood hlen => ?_⟩
  obtain ⟨a, s', rest, hrun, hQ, hsuffix, hused⟩ :=
    hp.run tape s hs hgood (Nat.le_trans (Nat.le_add_right n m) hlen)
  obtain ⟨b, s'', rest', hrun', hR, hsuffix', hused'⟩ :=
    (hk a).run rest s' hQ (fun e he => hgood e (hsuffix.mem he)) (by omega)
  refine ⟨b, s'', rest', ?_, hR, hsuffix'.trans hsuffix, by omega⟩
  rw [bind_run, hrun]
  exact hrun'

theorem andThen {p : Prog ε σ (Except χ α)} {k : α → Prog ε σ (Except χ β)} {K : α → σ → Prop}
    {R : Except χ β → σ → Prop} (hp : Serves good n P p fun r s => ∃ a, r = .ok a ∧ K a s)
    (hk : ∀ a, Serves good m (K a) (k a) R) : Serves good (n + m) P (p.andThen k) R := by
  refine bind hp fun r => ⟨fun tape s hs => ?_⟩
  obtain ⟨a, rfl, hK⟩ := hs
  exact (hk a).run tape s hK

theorem conseq {P' : σ → Prop} {Q' : α → σ → Prop} (h : Serves good n P' p Q')
    (hpre : ∀ s, P s → P' s) (hpost : ∀ a s, Q' a s → Q a s) : Serves good n P p Q := by
  refine ⟨fun tape s hs hgood hlen => ?_⟩
  obtain ⟨a, s', rest, hrun, hQ, hrest⟩ := h.run tape s (hpre s hs) hgood hlen
  exact ⟨a, s', rest, hrun, hpost a s' hQ, hrest⟩

/-- More answers do no harm. -/
theorem mono (h : Serves good n P p Q) (hle : n ≤ m) : Serves good m P p Q := by
  refine ⟨fun tape s hs hgood hlen => ?_⟩
  obtain ⟨a, s', rest, hrun, hQ, hsuffix, hused⟩ := h.run tape s hs hgood (Nat.le_trans hle hlen)
  exact ⟨a, s', rest, hrun, hQ, hsuffix, by omega⟩

/-- What is proved from each state is proved from all of them. -/
theorem each (h : ∀ s, P s → Serves good n (fun t => t = s) p Q) : Serves good n P p Q :=
  ⟨fun tape s hs => (h s hs).run tape s rfl⟩

/-- A fact that does not depend on the state may be used. -/
theorem fact {φ : Prop} (h : φ → Serves good n P p Q) :
    Serves good n (fun s => P s ∧ φ) p Q :=
  ⟨fun tape s hs => (h hs.2).run tape s hs.1⟩

end Serves

end Prog

end Gamer.Lib
