import Mathlib.Data.Fintype.EquivFin
import Mathlib.Data.Set.Finite.Basic
import Mathlib.Logic.Relation
import Mathlib.Order.WellFounded

/-! Cycles in a directed graph given as a relation. `ReachesCycle r x` is what a dependency check
    looks for from `x`: some node on a cycle can be walked to from `x`.

      x ──▶ … ──▶ z ──▶ … ──▶ z

    A node reaches a cycle exactly when one of its successors does, and in a finite set that has
    no sink every node reaches one. -/

namespace Gamer.Lib
open Relation

variable {α : Type} {r : α → α → Prop} {x y z : α}

/-- A cycle of `r` can be walked to from `x`. -/
def ReachesCycle (r : α → α → Prop) (x : α) : Prop :=
  ∃ z, ReflTransGen r x z ∧ TransGen r z z

/-- RULE: what a reachable node reaches is reached. -/
theorem ReachesCycle.of_reaches (hxy : ReflTransGen r x y) (h : ReachesCycle r y) :
    ReachesCycle r x := by
  obtain ⟨z, hyz, hz⟩ := h
  exact ⟨z, hxy.trans hyz, hz⟩

/-- RULE: a node on a cycle reaches one. -/
theorem ReachesCycle.of_cycle (h : TransGen r x x) : ReachesCycle r x :=
  ⟨x, .refl, h⟩

/-- INVERSION: the first step towards a cycle leads to a node that reaches it too. -/
theorem ReachesCycle.step (h : ReachesCycle r x) : ∃ y, r x y ∧ ReachesCycle r y := by
  obtain ⟨z, hxz, hz⟩ := h
  rcases ReflTransGen.cases_head hxz with rfl | ⟨y, hxy, hyz⟩
  · obtain ⟨y, hxy, hyx⟩ := TransGen.head'_iff.mp hz
    exact ⟨y, hxy, x, hyx, hz⟩
  · exact ⟨y, hxy, z, hyz, hz⟩

/-- RULE: in a finite set without a sink every node reaches a cycle. -/
theorem reachesCycle_of_no_sink {s : Set α} (hs : s.Finite)
    (hnext : ∀ x ∈ s, ∃ y ∈ s, r x y) (hx : x ∈ s) : ReachesCycle r x := by
  by_contra hno
  -- the part of `s` that `x` walks to is finite and free of cycles, so it has a last node
  let t : Set α := {y | y ∈ s ∧ ReflTransGen r x y}
  have ht : t.Finite := hs.subset fun _ h => h.1
  have : Finite t := ht
  let later : t → t → Prop := fun a b => TransGen r b.1 a.1
  have htrans : IsTrans t later := ⟨fun a b c hab hbc => TransGen.trans hbc hab⟩
  have hirrefl : Std.Irrefl later := ⟨fun a ha => hno ⟨a.1, a.2.2, ha⟩⟩
  have hwf : WellFounded later := Finite.wellFounded_of_trans_of_irrefl later
  obtain ⟨last, -, hlast⟩ := hwf.has_min Set.univ ⟨⟨x, hx, .refl⟩, trivial⟩
  obtain ⟨y, hy, hstep⟩ := hnext last.1 last.2.1
  exact hlast ⟨y, hy, last.2.2.tail hstep⟩ trivial (.single hstep)

end Gamer.Lib
