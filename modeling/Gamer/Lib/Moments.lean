import Mathlib.Algebra.Order.BigOperators.Ring.Finset
import Mathlib.Analysis.Real.Sqrt
import Mathlib.Tactic.LinearCombination
import Mathlib.Tactic.Linarith
import Mathlib.Tactic.Positivity

/-! Exact moments of two families of integers over the same indices, each scaled by the number `n` of
    indices so that nothing is divided:

        cov f g = n · Σ f·g − Σ f · Σ g          Σ (n·f − Σ f)(n·g − Σ g) = n · cov f g          -/

namespace Gamer.Lib.Moments

variable {ι : Type} (s : Finset ι) (f g : ι → ℤ)

def cov : ℤ := s.card * ∑ i ∈ s, f i * g i - (∑ i ∈ s, f i) * ∑ i ∈ s, g i

/-- A family's distance from its mean, times the number of indices. -/
def centred (i : ι) : ℤ := s.card * f i - ∑ j ∈ s, f j

theorem sum_centred_mul :
    ∑ i ∈ s, centred s f i * centred s g i = s.card * cov s f g := by
  have hexpand : ∀ i ∈ s, centred s f i * centred s g i =
      (s.card : ℤ) * s.card * (f i * g i) - s.card * (∑ j ∈ s, g j) * f i -
        s.card * (∑ j ∈ s, f j) * g i + (∑ j ∈ s, f j) * ∑ j ∈ s, g j := by
    intro i _
    rw [centred, centred]
    ring
  rw [Finset.sum_congr rfl hexpand, Finset.sum_add_distrib, Finset.sum_sub_distrib,
    Finset.sum_sub_distrib, ← Finset.mul_sum, ← Finset.mul_sum, ← Finset.mul_sum,
    Finset.sum_const, nsmul_eq_mul, cov]
  ring

theorem cov_of_card_eq_zero (h : s.card = 0) : cov s f g = 0 := by
  rw [Finset.card_eq_zero.mp h]
  simp [cov]

theorem var_nonneg : 0 ≤ cov s f f := by
  rcases Nat.eq_zero_or_pos s.card with hzero | hpos
  · rw [cov_of_card_eq_zero s f f hzero]
  · have hsum : 0 ≤ (s.card : ℤ) * cov s f f := by
      rw [← sum_centred_mul]
      exact Finset.sum_nonneg fun i _ => mul_self_nonneg _
    exact nonneg_of_mul_nonneg_right hsum (by exact_mod_cast hpos)

/-- The inequality of Cauchy and Schwarz, of the centred families. -/
theorem cov_sq_le : cov s f g ^ 2 ≤ cov s f f * cov s g g := by
  rcases Nat.eq_zero_or_pos s.card with hzero | hpos
  · simp [cov_of_card_eq_zero s _ _ hzero]
  · have hcard : (0 : ℤ) < (s.card : ℤ) ^ 2 := by positivity
    have hsum := Finset.sum_mul_sq_le_sq_mul_sq s (centred s f) (centred s g)
    simp only [pow_two (centred s f _), pow_two (centred s g _)] at hsum
    rw [sum_centred_mul, sum_centred_mul, sum_centred_mul] at hsum
    refine le_of_mul_le_mul_left ?_ hcard
    calc (s.card : ℤ) ^ 2 * cov s f g ^ 2 = (s.card * cov s f g) ^ 2 := by ring
      _ ≤ s.card * cov s f f * (s.card * cov s g g) := hsum
      _ = (s.card : ℤ) ^ 2 * (cov s f f * cov s g g) := by ring

/-- A family has no variance exactly if it is constant. -/
theorem var_eq_zero_iff : cov s f f = 0 ↔ ∀ i ∈ s, ∀ j ∈ s, f i = f j := by
  constructor
  · intro hzero i hi j hj
    have hpos : (0 : ℤ) < s.card := by exact_mod_cast Finset.card_pos.mpr ⟨i, hi⟩
    have hsum : ∑ i ∈ s, centred s f i * centred s f i = 0 := by
      rw [sum_centred_mul, hzero, mul_zero]
    have hcentred : ∀ k ∈ s, centred s f k = 0 := fun k hk =>
      mul_self_eq_zero.mp
        ((Finset.sum_eq_zero_iff_of_nonneg fun _ _ => mul_self_nonneg _).mp hsum k hk)
    have hi' := hcentred i hi
    have hj' := hcentred j hj
    rw [centred] at hi' hj'
    exact mul_left_cancel₀ (ne_of_gt hpos) (by linarith)
  · intro hconst
    rcases s.eq_empty_or_nonempty with rfl | ⟨i, hi⟩
    · simp [cov]
    · have hcongr : ∀ j ∈ s, f j = f i := fun j hj => hconst j hj i hi
      have hsquares : ∑ j ∈ s, f j * f j = s.card * (f i * f i) := by
        rw [Finset.sum_congr rfl fun j hj => by rw [hcongr j hj], Finset.sum_const, nsmul_eq_mul]
      rw [cov, hsquares, Finset.sum_congr rfl hcongr, Finset.sum_const, nsmul_eq_mul]
      ring

theorem cov_congr {f' g' : ι → ℤ} (hf : ∀ i ∈ s, f i = f' i) (hg : ∀ i ∈ s, g i = g' i) :
    cov s f g = cov s f' g' := by
  rw [cov, cov, Finset.sum_congr rfl hf, Finset.sum_congr rfl hg,
    Finset.sum_congr rfl fun i hi => by rw [hf i hi, hg i hi]]

/-! ### The correlation -/

/-- The correlation of two families; a family without variance has none. -/
noncomputable def correlation : ℝ := cov s f g / √((cov s f f : ℝ) * cov s g g)

theorem abs_correlation_le_one : |correlation s f g| ≤ 1 := by
  have hsq : ((cov s f g : ℤ) : ℝ) ^ 2 ≤ (cov s f f : ℝ) * cov s g g := by
    exact_mod_cast cov_sq_le s f g
  rw [correlation, abs_div, abs_of_nonneg (Real.sqrt_nonneg _)]
  exact div_le_one_of_le₀ (Real.abs_le_sqrt hsq) (Real.sqrt_nonneg _)

/-- A family that varies correlates fully with itself. -/
theorem correlation_self (h : cov s f f ≠ 0) : correlation s f f = 1 := by
  have hpos : (0 : ℝ) < cov s f f := by
    exact_mod_cast lt_of_le_of_ne (var_nonneg s f) (Ne.symm h)
  rw [correlation, Real.sqrt_mul_self (le_of_lt hpos)]
  exact div_self (ne_of_gt hpos)

end Gamer.Lib.Moments
