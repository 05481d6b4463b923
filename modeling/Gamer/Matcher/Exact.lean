import Mathlib.Algebra.BigOperators.Ring.Finset
import Gamer.Lib.Moments
import Gamer.Matcher.Region

/-! The search in a region is exact. The sums of a window stay within their words, a window without
    variance is one grey, and no score leaves [-1, 1]:

        sums ──▶ n·Σi² − (Σi)², n·Σit − Σi·Σt ──▶ correlation ──▶ first best of the columns        -/

namespace Gamer.Matcher
open Gamer.Lib Gamer.Lib.Moments

/-! ### Sums over a window -/

/-- The pixels of a window by row and column. -/
def cells (tW tH : Nat) : Finset (Nat × Nat) := Finset.range tH ×ˢ Finset.range tW

/-- The pixel of a picture at a row and a column. -/
def pixelAt (data : List UInt8) (width row column : Nat) : Nat :=
  (data.getD (row * width + column) 0).toNat

theorem pixelAt_le (data : List UInt8) (width row column : Nat) :
    pixelAt data width row column ≤ 255 :=
  Nat.le_of_lt_succ (data.getD (row * width + column) 0).toNat_lt

/-- RULE: a loop over a range that keeps what `inv` says of its turns. -/
theorem foldlM_range {σ : Type} {f : σ → Nat → Option σ} (inv : Nat → σ) :
    ∀ n, (∀ k, k < n → f (inv k) k = some (inv (k + 1))) →
      (List.range n).foldlM f (inv 0) = some (inv n)
  | 0, _ => rfl
  | n + 1, h => by
    rw [List.range_succ, List.foldlM_append,
      foldlM_range inv n fun k hk => h k (Nat.lt_succ_of_lt hk)]
    simp only [Option.bind_eq_bind, Option.bind_some, List.foldlM_cons, h n (Nat.lt_succ_self n)]
    rfl

/-- A sum over the rows before `ty` and the first `tx` pixels of row `ty`. -/
def partialSum (a : Nat → Nat → Nat) (tW ty tx : Nat) : Nat :=
  (∑ i ∈ Finset.range ty, ∑ j ∈ Finset.range tW, a i j) + ∑ j ∈ Finset.range tx, a ty j

theorem partialSum_succ (a : Nat → Nat → Nat) (tW ty tx : Nat) :
    partialSum a tW ty (tx + 1) = partialSum a tW ty tx + a ty tx := by
  rw [partialSum, partialSum, Finset.sum_range_succ, Nat.add_assoc]

theorem partialSum_row (a : Nat → Nat → Nat) (tW ty : Nat) :
    partialSum a tW ty tW = partialSum a tW (ty + 1) 0 := by
  rw [partialSum, partialSum, Finset.sum_range_succ, Finset.sum_range_zero, Nat.add_zero]

theorem partialSum_le {a : Nat → Nat → Nat} {b : Nat} (ha : ∀ i j, a i j ≤ b) (tW ty tx : Nat) :
    partialSum a tW ty tx ≤ b * (ty * tW + tx) := by
  have hrow : ∀ i m, ∑ j ∈ Finset.range m, a i j ≤ m * b := by
    intro i m
    calc ∑ j ∈ Finset.range m, a i j ≤ ∑ _j ∈ Finset.range m, b :=
          Finset.sum_le_sum fun j _ => ha i j
      _ = m * b := by simp
  have hrows : ∑ i ∈ Finset.range ty, ∑ j ∈ Finset.range tW, a i j ≤ ty * (tW * b) := by
    calc ∑ i ∈ Finset.range ty, ∑ j ∈ Finset.range tW, a i j ≤ ∑ _i ∈ Finset.range ty, tW * b :=
          Finset.sum_le_sum fun i _ => hrow i tW
      _ = ty * (tW * b) := by simp
  calc partialSum a tW ty tx ≤ ty * (tW * b) + tx * b := Nat.add_le_add hrows (hrow ty tx)
    _ = b * (ty * tW + tx) := by ring

theorem partialSum_all (a : Nat → Nat → Nat) (tW tH : Nat) :
    partialSum a tW tH 0 = ∑ p ∈ cells tW tH, a p.1 p.2 := by
  rw [partialSum, Finset.sum_range_zero, Nat.add_zero, cells, Finset.sum_product]

/-- The sums of a list are those over the rows it is made of. -/
theorem sum_map_eq (data : List UInt8) (f : UInt8 → Nat) :
    (data.map f).sum = ∑ k ∈ Finset.range data.length, f (data.getD k 0) := by
  induction data with
  | nil => rfl
  | cons v data ih =>
    rw [List.map_cons, List.sum_cons, List.length_cons, Finset.sum_range_succ', ih]
    simp [Nat.add_comm]

theorem sum_range_mul (f : Nat → Nat) (tW : Nat) :
    ∀ tH, ∑ k ∈ Finset.range (tH * tW), f k =
      ∑ i ∈ Finset.range tH, ∑ j ∈ Finset.range tW, f (i * tW + j)
  | 0 => by simp
  | tH + 1 => by
    rw [Nat.succ_mul, Finset.sum_range_add, sum_range_mul f tW tH, Finset.sum_range_succ]

theorem pixelSum_eq (image : GrayImage) :
    pixelSum image.data = ∑ p ∈ cells image.width image.height,
      pixelAt image.data image.width p.1 p.2 := by
  rw [pixelSum, sum_map_eq, image.size, Nat.mul_comm, sum_range_mul, cells, Finset.sum_product]
  rfl

theorem pixelSumSquares_eq (image : GrayImage) :
    pixelSumSquares image.data = ∑ p ∈ cells image.width image.height,
      pixelAt image.data image.width p.1 p.2 * pixelAt image.data image.width p.1 p.2 := by
  rw [pixelSumSquares, sum_map_eq, image.size, Nat.mul_comm, sum_range_mul, cells,
    Finset.sum_product]
  rfl

/-! ### A window inside the screen -/

section Window
variable {screen template : GrayImage} {x0 y0 : Nat}

/-- The pixels of the window, and those of the template. -/
def windowPixel (screen : GrayImage) (x0 y0 : Nat) (p : Nat × Nat) : ℤ :=
  pixelAt screen.data screen.width (y0 + p.1) (x0 + p.2)

def templatePixel (template : GrayImage) (p : Nat × Nat) : ℤ :=
  pixelAt template.data template.width p.1 p.2

/-- The window has one grey. -/
def UniformWindow (screen : GrayImage) (tW tH x0 y0 : Nat) : Prop :=
  ∀ p ∈ cells tW tH, ∀ q ∈ cells tW tH, windowPixel screen x0 y0 p = windowPixel screen x0 y0 q

/-- The picture fits in the pixel budget. -/
def GrayImage.withinBudget (image : GrayImage) : Prop :=
  image.width * image.height ≤ TEMPLATE_MAX_PIXELS

/-- The window of the template's size at `(x0, y0)` is inside the screen. -/
structure Fits (screen template : GrayImage) (x0 y0 : Nat) : Prop where
  right : x0 + template.width ≤ screen.width
  bottom : y0 + template.height ≤ screen.height

theorem checkedU64_eq {n : Nat} (h : n ≤ USIZE_MAX) : checkedU64 n = some n := if_pos h

theorem checkedU128_eq {n : Nat} (h : n ≤ U128_MAX) : checkedU128 n = some n := if_pos h

/-- A pixel in bounds is read. -/
theorem getElem?_pixelAt (image : GrayImage) {row column : Nat} (hrow : row < image.height)
    (hcolumn : column < image.width) :
    ∃ v : UInt8, image.data[row * image.width + column]? = some v ∧
      v.toNat = pixelAt image.data image.width row column ∧
      row * image.width + column < image.width * image.height := by
  have hlt : row * image.width + column < image.width * image.height := by
    calc row * image.width + column < row * image.width + image.width :=
          Nat.add_lt_add_left hcolumn _
      _ = image.width * (row + 1) := by ring
      _ ≤ image.width * image.height := Nat.mul_le_mul_left _ hrow
  have hlen : row * image.width + column < image.data.length := by
    rw [image.size]
    exact hlt
  refine ⟨image.data[row * image.width + column], List.getElem?_eq_getElem hlen, ?_, hlt⟩
  rw [pixelAt, List.getD_eq_getElem?_getD, List.getElem?_eq_getElem hlen]
  rfl

/-- What the three sums add at a cell. -/
def cellI (screen : GrayImage) (x0 y0 i j : Nat) : Nat :=
  pixelAt screen.data screen.width (y0 + i) (x0 + j)

def cellT (template : GrayImage) (i j : Nat) : Nat := pixelAt template.data template.width i j

/-- The sums of the rows before `ty` and of the first `tx` pixels of row `ty`. -/
def sumsTo (screen template : GrayImage) (x0 y0 ty tx : Nat) : Sums where
  i := partialSum (cellI screen x0 y0) template.width ty tx
  i2 := partialSum (fun i j => cellI screen x0 y0 i j * cellI screen x0 y0 i j)
    template.width ty tx
  it := partialSum (fun i j => cellI screen x0 y0 i j * cellT template i j) template.width ty tx

/-- Every sum of a window is far from the end of its word. -/
theorem sum_room (hbudget : template.withinBudget) {a : Nat → Nat → Nat}
    (ha : ∀ i j, a i j ≤ 65025) {ty tx : Nat} (hty : ty < template.height)
    (htx : tx < template.width) : partialSum a template.width ty (tx + 1) ≤ USIZE_MAX := by
  have hcount : ty * template.width + (tx + 1) ≤ template.width * template.height := by
    calc ty * template.width + (tx + 1) ≤ ty * template.width + template.width :=
          Nat.add_le_add_left htx _
      _ = template.width * (ty + 1) := by ring
      _ ≤ template.width * template.height := Nat.mul_le_mul_left _ hty
  have hle := partialSum_le ha template.width ty (tx + 1)
  have hbudget' : template.width * template.height ≤ 32000000 := hbudget
  rw [USIZE_MAX]
  omega

/-- STEP: a turn of the inner loop reads in bounds and adds without overflow. -/
theorem addPixel_eq (hfits : Fits screen template x0 y0) (hscreen : screen.withinBudget)
    (hbudget : template.withinBudget) {ty tx : Nat} (hty : ty < template.height)
    (htx : tx < template.width) :
    addPixel screen.data template.data ((y0 + ty) * screen.width + x0) (ty * template.width)
      (sumsTo screen template x0 y0 ty tx) tx =
        some (sumsTo screen template x0 y0 ty (tx + 1)) := by
  have hrowIn : y0 + ty < screen.height := by
    have hbottom := hfits.bottom
    omega
  have hcolumnIn : x0 + tx < screen.width := by
    have hright := hfits.right
    omega
  obtain ⟨iv, hiv, hi, hsIndex⟩ := getElem?_pixelAt screen hrowIn hcolumnIn
  obtain ⟨tv, htv, ht, htIndex⟩ := getElem?_pixelAt template hty htx
  have hscreen' : screen.width * screen.height ≤ 32000000 := hscreen
  have hbudget' : template.width * template.height ≤ 32000000 := hbudget
  have hmax : 32000000 ≤ USIZE_MAX := by decide
  have hI : ∀ i j, cellI screen x0 y0 i j ≤ 255 := fun i j => pixelAt_le ..
  have hT : ∀ i j, cellT template i j ≤ 255 := fun i j => pixelAt_le ..
  have hsum := sum_room hbudget (a := cellI screen x0 y0)
    (fun i j => (hI i j).trans (by decide)) hty htx
  have hsquares := sum_room hbudget
    (a := fun i j => cellI screen x0 y0 i j * cellI screen x0 y0 i j)
    (fun i j => Nat.mul_le_mul (hI i j) (hI i j)) hty htx
  have hproducts := sum_room hbudget
    (a := fun i j => cellI screen x0 y0 i j * cellT template i j)
    (fun i j => Nat.mul_le_mul (hI i j) (hT i j)) hty htx
  rw [partialSum_succ] at hsum hsquares hproducts
  have hcellI : iv.toNat = cellI screen x0 y0 ty tx := hi
  have hcellT : tv.toNat = cellT template ty tx := ht
  have hs : checkedU64 ((y0 + ty) * screen.width + x0 + tx) =
      some ((y0 + ty) * screen.width + (x0 + tx)) := by
    rw [Nat.add_assoc]
    exact checkedU64_eq (by omega)
  have ht : checkedU64 (ty * template.width + tx) = some (ty * template.width + tx) :=
    checkedU64_eq (by omega)
  rw [addPixel, hs]
  simp only [Option.bind_eq_bind, Option.bind_some, hiv, ht, htv, hcellI, hcellT, sumsTo,
    checkedU64_eq hsum, checkedU64_eq hsquares, checkedU64_eq hproducts, Option.pure_def,
    partialSum_succ]

/-! ### The moments of a window -/

theorem windowSums_eq (hfits : Fits screen template x0 y0) (hscreen : screen.withinBudget)
    (hbudget : template.withinBudget) :
    windowSums screen.data screen.width template.data template.width template.height x0 y0 =
      some (sumsTo screen template x0 y0 template.height 0) := by
  have hmax : 32000000 ≤ USIZE_MAX := by decide
  have hscreen' : screen.width * screen.height ≤ 32000000 := hscreen
  have hbudget' : template.width * template.height ≤ 32000000 := hbudget
  have hrow : ∀ ty, ty < template.height →
      addRow screen.data screen.width template.data template.width x0 y0
        (sumsTo screen template x0 y0 ty 0) ty =
          some (sumsTo screen template x0 y0 (ty + 1) 0) := by
    intro ty hty
    have hstart : (y0 + ty) * screen.width + x0 ≤ screen.width * screen.height := by
      have hx := hfits.right
      have hy := hfits.bottom
      calc (y0 + ty) * screen.width + x0 ≤ (y0 + ty) * screen.width + screen.width := by omega
        _ = screen.width * (y0 + ty + 1) := by ring
        _ ≤ screen.width * screen.height := Nat.mul_le_mul_left _ (by omega)
    have htStart : ty * template.width ≤ template.width * template.height := by
      rw [Nat.mul_comm]
      exact Nat.mul_le_mul_left _ (Nat.le_of_lt hty)
    have hinner := foldlM_range (sumsTo screen template x0 y0 ty) template.width
      fun tx htx => addPixel_eq hfits hscreen hbudget hty htx
    rw [addRow, checkedU64_eq (hstart.trans (hscreen'.trans hmax)),
      checkedU64_eq (htStart.trans (hbudget'.trans hmax))]
    simp only [Option.bind_eq_bind, Option.bind_some, hinner]
    simp only [sumsTo, partialSum_row]
  have hzero : (⟨0, 0, 0⟩ : Sums) = sumsTo screen template x0 y0 0 0 := by
    simp [sumsTo, partialSum]
  rw [windowSums, hzero]
  exact foldlM_range (fun ty => sumsTo screen template x0 y0 ty 0) template.height hrow

theorem card_cells (tW tH : Nat) : (cells tW tH).card = tW * tH := by
  rw [cells, Finset.card_product, Finset.card_range, Finset.card_range, Nat.mul_comm]

/-- The moments of a window and its template. -/
def windowCov (screen template : GrayImage) (x0 y0 : Nat) : ℤ :=
  cov (cells template.width template.height) (windowPixel screen x0 y0) (templatePixel template)

def windowVar (screen template : GrayImage) (x0 y0 : Nat) : ℤ :=
  cov (cells template.width template.height) (windowPixel screen x0 y0) (windowPixel screen x0 y0)

def templateVar (template : GrayImage) : ℤ :=
  cov (cells template.width template.height) (templatePixel template) (templatePixel template)

theorem sums_i (screen template : GrayImage) (x0 y0 : Nat) :
    ((sumsTo screen template x0 y0 template.height 0).i : ℤ) =
      ∑ p ∈ cells template.width template.height, windowPixel screen x0 y0 p := by
  rw [sumsTo, partialSum_all]
  push_cast
  rfl

theorem sums_i2 (screen template : GrayImage) (x0 y0 : Nat) :
    ((sumsTo screen template x0 y0 template.height 0).i2 : ℤ) =
      ∑ p ∈ cells template.width template.height,
        windowPixel screen x0 y0 p * windowPixel screen x0 y0 p := by
  show ((partialSum (fun i j => cellI screen x0 y0 i j * cellI screen x0 y0 i j) _ _ 0 : Nat) : ℤ) = _
  rw [partialSum_all]
  push_cast
  rfl

theorem sums_it (screen template : GrayImage) (x0 y0 : Nat) :
    ((sumsTo screen template x0 y0 template.height 0).it : ℤ) =
      ∑ p ∈ cells template.width template.height,
        windowPixel screen x0 y0 p * templatePixel template p := by
  show ((partialSum (fun i j => cellI screen x0 y0 i j * cellT template i j) _ _ 0 : Nat) : ℤ) = _
  rw [partialSum_all]
  push_cast
  rfl

theorem template_sum (template : GrayImage) :
    (pixelSum template.data : ℤ) =
      ∑ p ∈ cells template.width template.height, templatePixel template p := by
  rw [pixelSum_eq]
  push_cast
  rfl

theorem template_sum_squares (template : GrayImage) :
    (pixelSumSquares template.data : ℤ) = ∑ p ∈ cells template.width template.height,
      templatePixel template p * templatePixel template p := by
  rw [pixelSumSquares_eq]
  push_cast
  rfl

/-- The bounds of the sums of a whole window. -/
theorem sums_le (screen template : GrayImage) (x0 y0 : Nat) (hbudget : template.withinBudget) :
    (sumsTo screen template x0 y0 template.height 0).i ≤ 255 * 32000000 ∧
      (sumsTo screen template x0 y0 template.height 0).i2 ≤ 65025 * 32000000 ∧
      (sumsTo screen template x0 y0 template.height 0).it ≤ 65025 * 32000000 ∧
      pixelSum template.data ≤ 255 * 32000000 := by
  have hI : ∀ i j, cellI screen x0 y0 i j ≤ 255 := fun i j => pixelAt_le ..
  have hT : ∀ i j, cellT template i j ≤ 255 := fun i j => pixelAt_le ..
  have hcount : template.height * template.width + 0 ≤ 32000000 := by
    rw [Nat.add_zero, Nat.mul_comm]
    exact hbudget
  have hle : ∀ {a : Nat → Nat → Nat} {b : Nat}, (∀ i j, a i j ≤ b) →
      partialSum a template.width template.height 0 ≤ b * 32000000 := fun {a b} ha =>
    (partialSum_le ha _ _ _).trans (Nat.mul_le_mul_left b hcount)
  refine ⟨hle hI, hle fun i j => Nat.mul_le_mul (hI i j) (hI i j),
    hle fun i j => Nat.mul_le_mul (hI i j) (hT i j), ?_⟩
  have hsum : pixelSum template.data =
      partialSum (cellT template) template.width template.height 0 := by
    rw [pixelSum_eq, partialSum_all]
    rfl
  rw [hsum]
  exact hle hT

theorem windowVariance_eq (screen template : GrayImage) (x0 y0 : Nat)
    (hbudget : template.withinBudget) :
    windowVariance (template.width * template.height)
      (sumsTo screen template x0 y0 template.height 0) =
        some (windowVar screen template x0 y0).toNat := by
  obtain ⟨-, hi2, -, -⟩ := sums_le screen template x0 y0 hbudget
  have hbudget' : template.width * template.height ≤ 32000000 := hbudget
  have hvar : ((template.width * template.height : Nat) : ℤ) *
      (sumsTo screen template x0 y0 template.height 0).i2 -
        ((sumsTo screen template x0 y0 template.height 0).i : ℤ) ^ 2 =
          windowVar screen template x0 y0 := by
    rw [windowVar, cov, card_cells, sums_i2, sums_i, pow_two]
  have hnonneg : 0 ≤ windowVar screen template x0 y0 := var_nonneg _ _
  have hsquares : template.width * template.height *
      (sumsTo screen template x0 y0 template.height 0).i2 ≤ U128_MAX :=
    (Nat.mul_le_mul hbudget' hi2).trans (by decide)
  have hle : (sumsTo screen template x0 y0 template.height 0).i ^ 2 ≤
      template.width * template.height *
        (sumsTo screen template x0 y0 template.height 0).i2 := by
    have hcast : ((sumsTo screen template x0 y0 template.height 0).i : ℤ) ^ 2 ≤
        ((template.width * template.height : Nat) : ℤ) *
          (sumsTo screen template x0 y0 template.height 0).i2 := by linarith
    exact_mod_cast hcast
  rw [windowVariance, checkedU128_eq hsquares, checkedU128_eq (hle.trans hsquares)]
  simp only [Option.bind_eq_bind, Option.bind_some, checkedSub, if_pos hle]
  have hdiff : ((template.width * template.height *
      (sumsTo screen template x0 y0 template.height 0).i2 -
        (sumsTo screen template x0 y0 template.height 0).i ^ 2 : Nat) : ℤ) =
          windowVar screen template x0 y0 := by
    rw [Nat.cast_sub hle, Nat.cast_mul, Nat.cast_pow]
    exact hvar
  rw [← hdiff, Int.toNat_natCast]

theorem asI128_eq {n : Nat} (h : n ≤ I128_MAX) : asI128 n = n := if_pos h

theorem windowCovariance_eq (screen template : GrayImage) (x0 y0 : Nat)
    (hbudget : template.withinBudget) :
    windowCovariance (template.width * template.height)
      (sumsTo screen template x0 y0 template.height 0) (pixelSum template.data) =
        some (windowCov screen template x0 y0) := by
  obtain ⟨hi, -, hit, ht⟩ := sums_le screen template x0 y0 hbudget
  have hbudget' : template.width * template.height ≤ 32000000 := hbudget
  have hcov : ((template.width * template.height *
      (sumsTo screen template x0 y0 template.height 0).it : Nat) : ℤ) -
        ((sumsTo screen template x0 y0 template.height 0).i * pixelSum template.data : Nat) =
          windowCov screen template x0 y0 := by
    rw [windowCov, cov, card_cells, Nat.cast_mul _ (Sums.it _), sums_it, Nat.cast_mul (Sums.i _),
      sums_i, template_sum]
  have hproducts : template.width * template.height *
      (sumsTo screen template x0 y0 template.height 0).it ≤ 32000000 * (65025 * 32000000) :=
    Nat.mul_le_mul hbudget' hit
  have hproduct : (sumsTo screen template x0 y0 template.height 0).i * pixelSum template.data ≤
      255 * 32000000 * (255 * 32000000) := Nat.mul_le_mul hi ht
  rw [windowCovariance, checkedU128_eq (hproducts.trans (by decide)),
    checkedU128_eq (hproduct.trans (by decide))]
  simp only [Option.bind_eq_bind, Option.bind_some]
  rw [asI128_eq (hproducts.trans (by decide)), asI128_eq (hproduct.trans (by decide)), ← hcov]
  refine if_pos ?_
  rw [I128_MAX]
  omega

/-! ### The exact score -/

/-- The scores as real numbers. -/
noncomputable def exactOps : ScoreOps ℝ where
  minusOne := -1
  finite := fun _ => true
  positive := fun tVar => decide (0 < tVar)
  ratio := fun cov iVar tVar => cov / √(iVar * tVar)
  inRange := fun score => decide (|score| ≤ 1 + 1 / 10 ^ 12)
  clamp := fun score => max (-1) (min score 1)

open Classical in
/-- The score of a window without rounding; one grey scores lowest. -/
noncomputable def exactScore (screen template : GrayImage) (x y : Nat) : ℝ :=
  if UniformWindow screen template.width template.height x y then -1
  else windowCov screen template x y /
    √((windowVar screen template x y : ℝ) * templateVar template)

theorem uniform_iff (screen template : GrayImage) (x y : Nat) :
    windowVar screen template x y = 0 ↔
      UniformWindow screen template.width template.height x y :=
  var_eq_zero_iff _ _

theorem abs_exactScore_le (screen template : GrayImage) (x y : Nat) :
    |exactScore screen template x y| ≤ 1 := by
  rw [exactScore]
  split
  · simp
  · exact abs_correlation_le_one _ _ _

/-- The template is not of one grey. -/
def Varied (template : GrayImage) : Prop := templateVar template ≠ 0

theorem scoreOf_eq (screen template : GrayImage) (x y : Nat) (hbudget : template.withinBudget)
    (hvaried : Varied template) {tVar : ℝ} (htVar : tVar = templateVar template) :
    scoreOf exactOps (template.width * template.height)
      (sumsTo screen template x y template.height 0) (pixelSum template.data) tVar =
        some (exactScore screen template x y) := by
  have hpositive : (0 : ℝ) < templateVar template := by
    exact_mod_cast lt_of_le_of_ne (var_nonneg _ _) (Ne.symm hvaried)
  have hnonneg : 0 ≤ windowVar screen template x y := var_nonneg _ _
  have hroot : (((windowVar screen template x y).toNat : Nat) : ℝ) = windowVar screen template x y := by
    have hcast : (((windowVar screen template x y).toNat : Nat) : ℤ) =
        windowVar screen template x y := Int.toNat_of_nonneg hnonneg
    exact_mod_cast congrArg (fun n : ℤ => (n : ℝ)) hcast
  subst htVar
  rw [scoreOf, windowVariance_eq _ _ _ _ hbudget]
  simp only [Option.bind_eq_bind, Option.bind_some]
  by_cases huniform : UniformWindow screen template.width template.height x y
  · have hzero : (windowVar screen template x y).toNat = 0 := by
      rw [(uniform_iff _ _ _ _).mpr huniform]
      rfl
    simp [hzero, exactScore, huniform, exactOps]
  · have hne : (windowVar screen template x y).toNat ≠ 0 := by
      have hvar := mt (uniform_iff _ _ _ _).mp huniform
      omega
    have habs := abs_exactScore_le screen template x y
    have hscore : exactScore screen template x y = windowCov screen template x y /
        √((windowVar screen template x y : ℝ) * templateVar template) := if_neg huniform
    have hrange : |exactScore screen template x y| ≤ 1 + 1 / 10 ^ 12 :=
      habs.trans (by norm_num)
    rw [windowCovariance_eq _ _ _ _ hbudget]
    simp only [hne, decide_false, Bool.false_or, exactOps, hpositive, decide_true, Bool.not_true,
      Bool.false_eq_true, if_false, Option.bind_some, hroot, ← hscore, hrange, if_true,
      Option.pure_def]
    rw [min_eq_left (abs_le.mp habs).2, max_eq_right (abs_le.mp habs).1]

/-- A prepared template has its own moments. -/
structure Prepared (template : GrayImage) (prepared : PreparedTemplate ℝ) : Prop where
  image : prepared.image = template
  sum : prepared.sum = pixelSum template.data
  variance : prepared.variance = templateVar template

theorem nccIn_eq {prepared : PreparedTemplate ℝ} (hprepared : Prepared template prepared)
    (hvaried : Varied template) (hfits : Fits screen template x0 y0)
    (hscreen : screen.withinBudget) (hbudget : template.withinBudget) :
    nccIn exactOps screen prepared x0 y0 = some (exactScore screen template x0 y0) := by
  have hmax : 32000000 ≤ USIZE_MAX := by decide
  have hscreen' : screen.width * screen.height ≤ 32000000 := hscreen
  have hbudget' : template.width * template.height ≤ 32000000 := hbudget
  have hright := hfits.right
  have hbottom := hfits.bottom
  have hcard : 0 < template.width * template.height := by
    rcases Nat.eq_zero_or_pos (template.width * template.height) with hzero | hpos
    · exact absurd (cov_of_card_eq_zero _ _ _ ((card_cells _ _).trans hzero)) hvaried
    · exact hpos
  have hwidth : 0 < screen.width := lt_of_lt_of_le (Nat.pos_of_mul_pos_right hcard) (by omega)
  have hheight : 0 < screen.height := lt_of_lt_of_le (Nat.pos_of_mul_pos_left hcard) (by omega)
  have hw : screen.width ≤ 32000000 := (Nat.le_mul_of_pos_right _ hheight).trans hscreen'
  have hh : screen.height ≤ 32000000 := (Nat.le_mul_of_pos_left _ hwidth).trans hscreen'
  have hrows : screen.data.length / max screen.width 1 = screen.height := by
    rw [screen.size, max_eq_left hwidth, Nat.mul_div_cancel_left _ hwidth]
  rw [nccIn, nccAt, hprepared.image, hprepared.sum,
    checkedU64_eq (hright.trans (hw.trans hmax)), checkedU64_eq (hbottom.trans (hh.trans hmax)),
    checkedU64_eq (hbudget'.trans hmax), windowSums_eq hfits hscreen hbudget, hrows]
  simp only [Option.bind_eq_bind, Option.bind_some, Nat.not_lt.mpr hright, Nat.not_lt.mpr hbottom,
    decide_false, Bool.or_false, Bool.false_eq_true, if_false]
  exact scoreOf_eq _ _ _ _ hbudget hvaried hprepared.variance

/-! ### The search -/

/-- The windows of the search. -/
structure Inside (area : Area) (template : GrayImage) (x y : Nat) : Prop where
  left : area.x0 ≤ x
  right : x + template.width ≤ area.x1
  top : area.y0 ≤ y
  bottom : y + template.height ≤ area.y1

theorem mem_inclusive {first last k : Nat} : k ∈ inclusive first last ↔ first ≤ k ∧ k ≤ last := by
  rw [inclusive, List.mem_range'_1]
  omega

/-- The loop over a column finds the first best of it. -/
theorem bestOfColumn_eq {ncc : Nat → Nat → Option ℝ} {score : Nat → ℝ} {ys : List Nat} {x : Nat}
    (h : ∀ y ∈ ys, ncc x y = some (score y)) :
    bestOfColumn ncc ys x = some (firstBest (ys.map fun y => (score y, x, y))) := by
  have hloop : ∀ (ys : List Nat) (best : Option (ℝ × Nat × Nat)),
      (∀ y ∈ ys, ncc x y = some (score y)) →
      ys.foldlM (fun best y0 => do
        let score ← ncc x y0
        return some (takeGreater best (score, x, y0))) best =
        some ((ys.map fun y => some (score y, x, y)).foldl better best) := by
    intro ys
    induction ys with
    | nil => intro best _; rfl
    | cons y ys ih =>
      intro best h
      rw [List.foldlM_cons, h y (List.mem_cons_self ..)]
      simp only [Option.bind_eq_bind, Option.bind_some, Option.pure_def]
      have hturn : some (takeGreater best (score y, x, y)) =
          better best (some (score y, x, y)) := by
        cases best with
        | none => rfl
        | some b =>
          by_cases hlt : b.1 < score y
          · simp [takeGreater, better, hlt, not_le.mpr hlt]
          · simp [takeGreater, better, hlt, not_lt.mp hlt]
      rw [hturn, List.map_cons, List.foldl_cons]
      exact ih _ fun z hz => h z (List.mem_cons_of_mem _ hz)
  rw [bestOfColumn, hloop ys none h, firstBest, List.map_map]
  rfl

/-- The windows of a search in their order, each with its score. -/
noncomputable def scoredWindows (screen template : GrayImage) (xs ys : List Nat) :
    List (ℝ × Nat × Nat) :=
  xs.flatMap fun x => ys.map fun y => (exactScore screen template x y, x, y)

/-- RULE: however the columns are split, the search finds the first best window. -/
theorem searchColumns_eq {ncc : Nat → Nat → Option ℝ} {columns : Split Nat} {ys : List Nat}
    (h : ∀ x ∈ columns.items, ∀ y ∈ ys, ncc x y = some (exactScore screen template x y)) :
    searchColumns ncc columns ys = some (firstBest (scoredWindows screen template columns.items ys)) := by
  rw [searchColumns, scoredWindows, ← reduce_better]
  exact Split.reduce_lift columns fun x hx => bestOfColumn_eq (h x hx)

/-- The windows come by columns, each from the top. -/
def Before (p q : ℝ × Nat × Nat) : Prop := p.2.1 < q.2.1 ∨ p.2.1 = q.2.1 ∧ p.2.2 < q.2.2

theorem scoredWindows_pairwise {xs ys : List Nat} (hxs : xs.Pairwise (· < ·))
    (hys : ys.Pairwise (· < ·)) : (scoredWindows screen template xs ys).Pairwise Before := by
  rw [scoredWindows, List.pairwise_flatMap]
  constructor
  · intro x _
    rw [List.pairwise_map]
    exact hys.imp fun hlt => Or.inr ⟨rfl, hlt⟩
  · refine hxs.imp ?_
    intro x x' hlt p hp q hq
    obtain ⟨y, -, rfl⟩ := List.mem_map.mp hp
    obtain ⟨y', -, rfl⟩ := List.mem_map.mp hq
    exact Or.inl hlt

theorem inclusive_pairwise (first last : Nat) : (inclusive first last).Pairwise (· < ·) :=
  List.pairwise_lt_range'

/-- The window scores best of those in the area, and is the first that does. -/
structure FirstMaximiser (screen template : GrayImage) (area : Area) (x y : Nat) : Prop where
  inside : Inside area template x y
  greatest : ∀ x' y', Inside area template x' y' →
    exactScore screen template x' y' ≤ exactScore screen template x y
  first : ∀ x' y', Inside area template x' y' →
    exactScore screen template x' y' = exactScore screen template x y →
      x < x' ∨ x = x' ∧ y ≤ y'

/-- The area is in the screen and has room for the template. -/
structure Room (screen template : GrayImage) (area : Area) : Prop where
  right : area.x1 ≤ screen.width
  bottom : area.y1 ≤ screen.height
  columns : area.x0 + template.width ≤ area.x1
  rows : area.y0 + template.height ≤ area.y1

theorem Inside.fits {area : Area} {x y : Nat} (h : Inside area template x y)
    (hroom : Room screen template area) : Fits screen template x y :=
  ⟨h.right.trans hroom.right, h.bottom.trans hroom.bottom⟩

theorem inside_iff {area : Area} {x y : Nat} (hroom : Room screen template area) :
    Inside area template x y ↔ x ∈ inclusive area.x0 (area.x1 - template.width) ∧
      y ∈ inclusive area.y0 (area.y1 - template.height) := by
  have hcolumns := hroom.columns
  have hrows := hroom.rows
  rw [mem_inclusive, mem_inclusive]
  constructor
  · intro h
    have hleft := h.left
    have hright := h.right
    have htop := h.top
    have hbottom := h.bottom
    omega
  · rintro ⟨⟨hleft, hright⟩, htop, hbottom⟩
    exact ⟨hleft, by omega, htop, by omega⟩

theorem search_finds {area : Area} (hroom : Room screen template area) {columns : Split Nat}
    (hcolumns : columns.items = inclusive area.x0 (area.x1 - template.width))
    {ncc : Nat → Nat → Option ℝ}
    (hncc : ∀ x y, Inside area template x y → ncc x y = some (exactScore screen template x y)) :
    ∃ x y, FirstMaximiser screen template area x y ∧
      searchColumns ncc columns (inclusive area.y0 (area.y1 - template.height)) =
        some (some (exactScore screen template x y, x, y)) := by
  have hmem : ∀ p : ℝ × Nat × Nat, p ∈ scoredWindows screen template
      (inclusive area.x0 (area.x1 - template.width))
      (inclusive area.y0 (area.y1 - template.height)) ↔
        Inside area template p.2.1 p.2.2 ∧ p = (exactScore screen template p.2.1 p.2.2, p.2.1, p.2.2) := by
    intro p
    rw [scoredWindows, List.mem_flatMap, inside_iff hroom]
    constructor
    · rintro ⟨x, hx, hp⟩
      obtain ⟨y, hy, rfl⟩ := List.mem_map.mp hp
      exact ⟨⟨hx, hy⟩, rfl⟩
    · rintro ⟨⟨hx, hy⟩, hp⟩
      exact ⟨p.2.1, hx, List.mem_map.mpr ⟨p.2.2, hy, hp.symm⟩⟩
  have hstart : Inside area template area.x0 area.y0 :=
    ⟨Nat.le_refl _, hroom.columns, Nat.le_refl _, hroom.rows⟩
  have hne : scoredWindows screen template (inclusive area.x0 (area.x1 - template.width))
      (inclusive area.y0 (area.y1 - template.height)) ≠ [] :=
    List.ne_nil_of_mem ((hmem (exactScore screen template area.x0 area.y0, area.x0, area.y0)).mpr
      ⟨hstart, rfl⟩)
  obtain ⟨⟨s, x, y⟩, hbest, hspec⟩ := firstBest_spec _ hne
  obtain ⟨hinside, hp⟩ := (hmem _).mp hspec.mem
  obtain rfl : s = exactScore screen template x y := congrArg Prod.fst hp
  refine ⟨x, y, ⟨hinside, ?_, ?_⟩, ?_⟩
  · intro x' y' h'
    exact hspec.le ((hmem (exactScore screen template x' y', x', y')).mpr ⟨h', rfl⟩)
  · intro x' y' h' heq
    by_contra hnot
    have hlt := hspec.first (scoredWindows_pairwise (inclusive_pairwise _ _)
      (inclusive_pairwise _ _)) ((hmem (exactScore screen template x' y', x', y')).mpr ⟨h', rfl⟩)
      (by
        intro hsame
        simp only [Prod.mk.injEq] at hsame
        exact hnot (Or.inr ⟨hsame.2.1.symm, Nat.le_of_eq hsame.2.2.symm⟩))
      (by
        rintro (hlt | ⟨heq, hlt⟩)
        · exact hnot (Or.inl hlt)
        · exact hnot (Or.inr ⟨heq, Nat.le_of_lt hlt⟩))
    exact absurd heq (ne_of_lt hlt)
  · have hsearch : searchColumns ncc columns
        (inclusive area.y0 (area.y1 - template.height)) = some (firstBest (scoredWindows screen
          template columns.items (inclusive area.y0 (area.y1 - template.height)))) := by
      refine searchColumns_eq ?_
      intro x' hx' y' hy'
      rw [hcolumns] at hx'
      exact hncc x' y' ((inside_iff hroom).mpr ⟨hx', hy'⟩)
    rw [hsearch, hcolumns, hbest]

/-! ### The refinement -/

theorem asI32_eq {n : Nat} (h : n < 2147483648) : asI32 n = n := by
  have hmod : n % U32_SIZE = n := Nat.mod_eq_of_lt (h.trans (by decide))
  rw [asI32, hmod, if_pos h]

/-- No neighbour scores better than the best of the area. -/
theorem refine_eq {area : Area} {x y : Nat} {ncc : Nat → Nat → Option ℝ}
    (hx : area.x1 < 2147483648) (hy : area.y1 < 2147483648)
    (hncc : ∀ x y, Inside area template x y → ncc x y = some (exactScore screen template x y))
    (hbest : FirstMaximiser screen template area x y) :
    refine ncc area template.width template.height (exactScore screen template x y, x, y) =
      some (exactScore screen template x y, x, y) := by
  have hinside := hbest.inside
  have hright := hinside.right
  have hbottom := hinside.bottom
  have hleft := hinside.left
  have htop := hinside.top
  have hturn : ∀ d : Int × Int, refineAt ncc area template.width template.height x y
      (exactScore screen template x y, x, y) d = some (exactScore screen template x y, x, y) := by
    intro d
    rw [refineAt, asI32_eq (n := x) (by omega), asI32_eq (n := y) (by omega),
      asI32_eq (n := area.x0) (by omega), asI32_eq (n := area.y0) (by omega)]
    dsimp only
    split
    · rfl
    · rename_i hbefore
      split
      · rfl
      · rename_i hbehind
        have hneighbour : Inside area template (x + d.1 : Int).toNat (y + d.2 : Int).toNat := by
          constructor <;> omega
        rw [hncc _ _ hneighbour]
        simp only [Option.bind_eq_bind, Option.bind_some, Option.pure_def,
          if_neg (not_lt.mpr (hbest.greatest _ _ hneighbour))]
  have hloop : ∀ ds : List (Int × Int), ds.foldlM (refineAt ncc area template.width
      template.height x y) (exactScore screen template x y, x, y) =
        some (exactScore screen template x y, x, y) := by
    intro ds
    induction ds with
    | nil => rfl
    | cons d ds ih =>
      rw [List.foldlM_cons, hturn d]
      exact ih
  exact hloop neighbours

/-! ### The checks -/

theorem roundF32_eq {n : Nat} (h : n < 16777216) : roundF32 n = n := by
  have hlog : n.log2 - 23 = 0 := by
    rcases Nat.eq_zero_or_pos n with rfl | hpos
    · rfl
    · have hlt : n.log2 < 24 := (Nat.log2_lt (Nat.ne_of_gt hpos)).mpr h
      omega
  rw [roundF32, hlog]
  simp only [Nat.shiftLeft_zero, Nat.div_one, Nat.mod_one]
  rw [if_neg (by omega), Nat.mul_one, U32_SIZE]
  omega

/-- An area that passes the checks is in the screen, keeps its coordinates and has room for the
    template. -/
theorem searchArea_spec {region : Nat × Nat × Nat × Nat} {area : Area}
    (hscreen : screen.withinBudget) (hwidth : 0 < template.width) (hheight : 0 < template.height)
    (h : searchArea screen.width screen.height template.width template.height region = .ok area) :
    Room screen template area ∧ area.scaled screen.width screen.height = area ∧
      screen.width < 16777216 ∧ screen.height < 16777216 ∧ template.width < screen.width ∧
      template.height < screen.height := by
  obtain ⟨x, y, w, h'⟩ := region
  rw [searchArea] at h
  dsimp only at h
  split at h
  · cases h
  · rename_i hsmaller
    split at h
    · cases h
    · rename_i hvalid
      cases h
      have hbudget : screen.width * screen.height ≤ 32000000 := hscreen
      have hsw : screen.width < 16777216 := by
        have hle : screen.width * 2 ≤ screen.width * screen.height :=
          Nat.mul_le_mul_left _ (by omega)
        omega
      have hsh : screen.height < 16777216 := by
        have hle : 2 * screen.height ≤ screen.width * screen.height :=
          Nat.mul_le_mul_right _ (by omega)
        omega
      refine ⟨⟨by dsimp only; omega, by dsimp only; omega, by dsimp only; omega,
        by dsimp only; omega⟩, ?_, hsw, hsh, by omega, by omega⟩
      rw [Area.scaled, roundF32_eq (n := x) (by omega), roundF32_eq (n := y) (by omega),
        roundF32_eq (n := min ((x + w) % U32_SIZE) screen.width) (by omega),
        roundF32_eq (n := min ((y + h') % U32_SIZE) screen.height) (by omega)]
      simp

/-! ### The template -/

theorem varied_iff (template : GrayImage) :
    Varied template ↔ ∃ a ∈ template.data, ∃ b ∈ template.data, a ≠ b := by
  have hcell : ∀ k (hk : k < template.data.length),
      ∃ p ∈ cells template.width template.height,
        templatePixel template p = (template.data[k]).toNat := by
    intro k hk
    have hsize := template.size
    have hpos : 0 < template.width := by
      rcases Nat.eq_zero_or_pos template.width with hzero | hpos
      · rw [hsize, hzero, Nat.zero_mul] at hk
        exact absurd hk (Nat.not_lt_zero _)
      · exact hpos
    refine ⟨(k / template.width, k % template.width), ?_, ?_⟩
    · rw [cells, Finset.mem_product, Finset.mem_range, Finset.mem_range]
      exact ⟨Nat.div_lt_of_lt_mul (hsize ▸ hk), Nat.mod_lt _ hpos⟩
    · rw [templatePixel, pixelAt, Nat.mul_comm, Nat.div_add_mod,
        List.getD_eq_getElem?_getD, List.getElem?_eq_getElem hk]
      rfl
  constructor
  · intro hvaried
    by_contra hnone
    refine hvaried ((var_eq_zero_iff _ _).mpr ?_)
    have hread : ∀ p ∈ cells template.width template.height,
        ∃ v ∈ template.data, templatePixel template p = v.toNat := by
      intro p hp
      rw [cells, Finset.mem_product, Finset.mem_range, Finset.mem_range] at hp
      obtain ⟨v, hv, hpixel, -⟩ := getElem?_pixelAt template hp.1 hp.2
      exact ⟨v, List.mem_of_getElem? hv, by rw [templatePixel, hpixel]⟩
    intro p hp q hq
    obtain ⟨v, hv, hpv⟩ := hread p hp
    obtain ⟨v', hv', hqv⟩ := hread q hq
    by_contra hne
    exact hnone ⟨v, hv, v', hv', by rintro rfl; exact hne (hpv.trans hqv.symm)⟩
  · rintro ⟨a, ha, b, hb, hne⟩ hzero
    obtain ⟨k, hk, rfl⟩ := List.mem_iff_getElem.mp ha
    obtain ⟨k', hk', rfl⟩ := List.mem_iff_getElem.mp hb
    obtain ⟨p, hp, hpixel⟩ := hcell k hk
    obtain ⟨q, hq, hqixel⟩ := hcell k' hk'
    have hsame := (var_eq_zero_iff _ _).mp hzero p hp q hq
    rw [hpixel, hqixel] at hsame
    exact hne (UInt8.toNat.inj (by exact_mod_cast hsame))

/-- A template that is not of one grey is prepared with its own moments. -/
theorem buildPreparedTemplate_eq {D K : Type} {O : ImageOps D K ℝ}
    (hexact : ∀ n, O.asF64 n = n) (hvaried : Varied template) :
    ∃ prepared, buildPreparedTemplate O template = .ok prepared ∧ Prepared template prepared := by
  have hvar : ((template.data.length * pixelSumSquares template.data : Nat) : ℤ) -
      (pixelSum template.data : ℤ) ^ 2 = templateVar template := by
    rw [templateVar, cov, card_cells, Nat.cast_mul, template_sum_squares, template_sum,
      template.size, pow_two]
  have hle : pixelSum template.data ^ 2 ≤
      template.data.length * pixelSumSquares template.data := by
    have hnonneg : 0 ≤ templateVar template := var_nonneg _ _
    have hcast : (pixelSum template.data : ℤ) ^ 2 ≤
        ((template.data.length * pixelSumSquares template.data : Nat) : ℤ) := by linarith
    exact_mod_cast hcast
  have hdiff : ((template.data.length * pixelSumSquares template.data -
      pixelSum template.data ^ 2 : Nat) : ℤ) = templateVar template := by
    rw [Nat.cast_sub hle, Nat.cast_pow]
    exact hvar
  have hne : template.data.length * pixelSumSquares template.data -
      pixelSum template.data ^ 2 ≠ 0 := by
    intro hzero
    rw [hzero] at hdiff
    exact hvaried hdiff.symm
  have hdata : template.data ≠ [] := by
    intro hnil
    rw [hnil] at hne
    exact hne rfl
  refine ⟨_, by rw [buildPreparedTemplate, if_neg hdata, if_neg hne], rfl, rfl, ?_⟩
  show O.asF64 _ = _
  rw [hexact]
  exact_mod_cast congrArg (fun n : ℤ => (n : ℝ)) hdiff

/-! ### Exactness -/

/-- The integers of a window stay within their words, agree with what they stand for, and give the
    exact score. -/
def WindowExact (screen template : GrayImage) (prepared : PreparedTemplate ℝ) (x y : Nat) : Prop :=
  ∃ sums iVar covariance,
    windowSums screen.data screen.width template.data template.width template.height x y =
        some sums ∧
      windowVariance (template.width * template.height) sums = some iVar ∧
      windowCovariance (template.width * template.height) sums prepared.sum = some covariance ∧
      (iVar = 0 ↔ UniformWindow screen template.width template.height x y) ∧
      (covariance : ℝ) ^ 2 ≤ iVar * prepared.variance ∧
      nccIn exactOps screen prepared x y =
        some (if iVar = 0 then -1 else covariance / √(iVar * prepared.variance)) ∧
      nccIn exactOps screen prepared x y = some (exactScore screen template x y)

/-- The window has the pixels of the template. -/
def SameWindow (screen template : GrayImage) (x y : Nat) : Prop :=
  ∀ p ∈ cells template.width template.height, windowPixel screen x y p = templatePixel template p

theorem windowExact {prepared : PreparedTemplate ℝ} (hprepared : Prepared template prepared)
    (hvaried : Varied template) (hfits : Fits screen template x0 y0)
    (hscreen : screen.withinBudget) (hbudget : template.withinBudget) :
    WindowExact screen template prepared x0 y0 := by
  have hnonneg : 0 ≤ windowVar screen template x0 y0 := var_nonneg _ _
  have hvar : (((windowVar screen template x0 y0).toNat : Nat) : ℤ) =
      windowVar screen template x0 y0 := Int.toNat_of_nonneg hnonneg
  have hreal : (((windowVar screen template x0 y0).toNat : Nat) : ℝ) =
      windowVar screen template x0 y0 := by
    exact_mod_cast congrArg (fun n : ℤ => (n : ℝ)) hvar
  have hzero : (windowVar screen template x0 y0).toNat = 0 ↔
      UniformWindow screen template.width template.height x0 y0 := by
    rw [← uniform_iff]
    omega
  have hncc := nccIn_eq hprepared hvaried hfits hscreen hbudget
  refine ⟨_, _, _, windowSums_eq hfits hscreen hbudget, windowVariance_eq _ _ _ _ hbudget,
    by rw [hprepared.sum]; exact windowCovariance_eq _ _ _ _ hbudget, hzero, ?_, ?_, hncc⟩
  · rw [hreal, hprepared.variance]
    exact_mod_cast cov_sq_le _ _ _
  · rw [hncc, hreal, hprepared.variance, exactScore]
    by_cases huniform : UniformWindow screen template.width template.height x0 y0
    · rw [if_pos huniform, if_pos (hzero.mpr huniform)]
    · rw [if_neg huniform, if_neg (mt hzero.mp huniform)]

theorem exactScore_of_same (hvaried : Varied template) (hsame : SameWindow screen template x0 y0) :
    exactScore screen template x0 y0 = 1 := by
  have hcov : windowCov screen template x0 y0 = templateVar template :=
    cov_congr _ _ _ hsame fun _ _ => rfl
  have hvar : windowVar screen template x0 y0 = templateVar template :=
    cov_congr _ _ _ hsame hsame
  have hnot : ¬ UniformWindow screen template.width template.height x0 y0 := by
    rw [← uniform_iff, hvar]
    exact hvaried
  rw [exactScore, if_neg hnot, hcov, hvar]
  exact correlation_self _ _ hvaried

/-- SAFETY: a search in a region that passes the checks is exact. No integer of a window leaves its
    word, the window found is the first maximiser of all windows of the area however the columns are
    split, the refinement keeps it, and a window equal to the template is a maximiser. -/
theorem matchInRegion_exact {D K : Type} {O : ImageOps D K ℝ} (hexact : ∀ n, O.asF64 n = n)
    (hgray : ∀ d, ((O.toGray d).width, (O.toGray d).height) = O.dimensions d)
    {split : List Nat → Split Nat} (hsplit : ∀ xs, (split xs).items = xs)
    (colorOk : Nat → Nat → Bool) (screen : GrayImage) (source : D) (hscreen : screen.withinBudget)
    (hbudget : (O.toGray source).withinBudget)
    (hvaried : ∃ a ∈ (O.toGray source).data, ∃ b ∈ (O.toGray source).data, a ≠ b)
    (region : Nat × Nat × Nat × Nat) (threshold : ℝ) {area : Area}
    (harea : searchArea screen.width screen.height (O.dimensions source).1 (O.dimensions source).2
      region = .ok area) :
    ∃ prepared x y,
      buildPreparedTemplate O (scaledGray O source (O.dimensions source)) = .ok prepared ∧
      (∀ x' y', Inside area (O.toGray source) x' y' →
        WindowExact screen (O.toGray source) prepared x' y' ∧
          (SameWindow screen (O.toGray source) x' y' → ∀ x'' y'',
            Inside area (O.toGray source) x'' y'' → exactScore screen (O.toGray source) x'' y'' ≤
              exactScore screen (O.toGray source) x' y')) ∧
      FirstMaximiser screen (O.toGray source) area x y ∧
      searchColumns (nccIn exactOps screen prepared)
        (split (inclusive area.x0 (area.x1 - (O.dimensions source).1)))
        (inclusive area.y0 (area.y1 - (O.dimensions source).2)) =
          some (some (exactScore screen (O.toGray source) x y, x, y)) ∧
      refine (nccIn exactOps screen prepared) area (O.dimensions source).1 (O.dimensions source).2
        (exactScore screen (O.toGray source) x y, x, y) =
          some (exactScore screen (O.toGray source) x y, x, y) ∧
      matchInRegion exactOps split colorOk screen (O.dimensions source).1 (O.dimensions source).2
        region threshold (buildPreparedTemplate O (scaledGray O source (O.dimensions source))) =
          some (.ok (if exactScore screen (O.toGray source) x y < threshold || !colorOk x y then none
            else some ⟨x, y, (O.dimensions source).1, (O.dimensions source).2,
              exactScore screen (O.toGray source) x y⟩)) := by
  have hscaled : scaledGray O source (O.dimensions source) = O.toGray source := if_pos rfl
  rw [hscaled]
  rw [← hgray source] at harea ⊢
  generalize O.toGray source = template at *
  have hvaried' : Varied template := (varied_iff template).mpr hvaried
  have hsize : 0 < template.width * template.height := by
    obtain ⟨a, ha, -⟩ := hvaried
    rw [← template.size]
    exact List.length_pos_of_mem ha
  have hwidth : 0 < template.width := Nat.pos_of_mul_pos_right hsize
  have hheight : 0 < template.height := Nat.pos_of_mul_pos_left hsize
  obtain ⟨hroom, hsame, hsw, hsh, htw, hth⟩ := searchArea_spec hscreen hwidth hheight harea
  obtain ⟨prepared, hbuilt, hprepared⟩ := buildPreparedTemplate_eq hexact hvaried'
  have hncc : ∀ x y, Inside area template x y →
      nccIn exactOps screen prepared x y = some (exactScore screen template x y) :=
    fun x y h => nccIn_eq hprepared hvaried' (h.fits hroom) hscreen hbudget
  obtain ⟨x, y, hfirst, hfound⟩ := search_finds hroom (hsplit _) hncc
  have hx1 : area.x1 < 2147483648 := lt_of_le_of_lt hroom.right (hsw.trans (by decide))
  have hy1 : area.y1 < 2147483648 := lt_of_le_of_lt hroom.bottom (hsh.trans (by decide))
  have hrefined := refine_eq hx1 hy1 hncc hfirst
  refine ⟨prepared, x, y, hbuilt, ?_, hfirst, hfound, hrefined, ?_⟩
  · intro x' y' h
    refine ⟨windowExact hprepared hvaried' (h.fits hroom) hscreen hbudget, ?_⟩
    intro hequal x'' y'' _
    rw [exactScore_of_same hvaried' hequal]
    exact (abs_le.mp (abs_exactScore_le _ _ _ _)).2
  · have hcolumns := hroom.columns
    have hrows := hroom.rows
    have hinside := hfirst.inside
    have hright := hinside.right.trans hroom.right
    have hbottom := hinside.bottom.trans hroom.bottom
    rw [matchInRegion, harea, hbuilt]
    simp only [hprepared.image, hsame]
    rw [if_neg (by omega), if_neg (by omega), hfound]
    simp only [Option.bind_eq_bind, Option.bind_some, hrefined, Option.pure_def]
    rw [roundF32_eq (n := x) (by omega), roundF32_eq (n := y) (by omega),
      roundF32_eq (n := template.width) (by omega), roundF32_eq (n := template.height) (by omega)]
    simp [exactOps]


theorem stripes_bounded : [(0 : UInt8), 255, 0, 0, 255, 0, 0, 255, 0].length ≤ ISIZE_MAX := by decide

/-- Three columns, the middle one white. -/
def stripes : GrayImage := ⟨3, 3, [0, 255, 0, 0, 255, 0, 0, 255, 0], rfl, stripes_bounded⟩

theorem edge_bounded : [(255 : UInt8), 0].length ≤ ISIZE_MAX := by decide

def edge : GrayImage := ⟨2, 1, [255, 0], rfl, edge_bounded⟩

/-- Pictures that are grey already. -/
noncomputable def grayOps : ImageOps GrayImage (List UInt8) ℝ where
  sha256 := id
  decode := fun _ => .error "no picture"
  dimensions := fun image => (image.width, image.height)
  toGray := id
  resize := fun image _ => image
  asF64 := fun n => n
  megapixels := fun _ => ""

theorem matchInRegion_exact_stripes : ∃ x y,
    FirstMaximiser stripes edge ⟨0, 0, 3, 3⟩ x y ∧
      matchInRegion exactOps .part (fun _ _ => true) stripes 2 1 (0, 0, 3, 3) (4 / 5)
        (buildPreparedTemplate grayOps (scaledGray grayOps edge (2, 1))) =
          some (.ok (if exactScore stripes edge x y < 4 / 5 || !true then none
            else some ⟨x, y, 2, 1, exactScore stripes edge x y⟩)) := by
  have hexact : ∀ n, grayOps.asF64 n = n := fun _ => rfl
  have hgray : ∀ d, ((grayOps.toGray d).width, (grayOps.toGray d).height) = grayOps.dimensions d :=
    fun _ => rfl
  have hsplit : ∀ xs, (Split.part xs : Split Nat).items = xs := fun _ => rfl
  have harea : searchArea stripes.width stripes.height (grayOps.dimensions edge).1
      (grayOps.dimensions edge).2 (0, 0, 3, 3) = .ok ⟨0, 0, 3, 3⟩ := rfl
  obtain ⟨-, x, y, -, -, hfirst, -, -, hmatch⟩ := matchInRegion_exact hexact hgray hsplit
    (fun _ _ => true) stripes edge
    (by simp [GrayImage.withinBudget, stripes, TEMPLATE_MAX_PIXELS])
    (by simp [GrayImage.withinBudget, grayOps, edge, TEMPLATE_MAX_PIXELS])
    ⟨255, by simp [grayOps, edge], 0, by simp [grayOps, edge], by decide⟩
    (0, 0, 3, 3) (4 / 5) harea
  exact ⟨x, y, hfirst, hmatch⟩
end Window

end Gamer.Matcher
