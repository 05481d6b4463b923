import Gamer.Lib.FirstBest
import Gamer.Matcher.TemplateCache

/-! The search of a template in a region of the screen (matcher.rs). A panic of an integer operation
    or of an index is `none`; the columns are reduced as the thread pool has split them.

        checks ──▶ columns: best of each ──▶ reduce ──▶ refine by one pixel ──▶ threshold, colour    -/

namespace Gamer.Matcher
open Gamer.Lib

/-! ### Checked arithmetic -/

def U32_SIZE : Nat := 4294967296
def U128_MAX : Nat := 340282366920938463463374607431768211455
def I128_MAX : Nat := 170141183460469231731687303715884105727

def checkedU64 (n : Nat) : Option Nat := if n ≤ USIZE_MAX then some n else none

def checkedU128 (n : Nat) : Option Nat := if n ≤ U128_MAX then some n else none

def checkedSub (a b : Nat) : Option Nat := if b ≤ a then some (a - b) else none

/-- `as i128` of a `u128`. -/
def asI128 (n : Nat) : Int := if n ≤ I128_MAX then n else n - (U128_MAX + 1 : Nat)

def checkedI128 (n : Int) : Option Int :=
  if -(I128_MAX : Int) - 1 ≤ n ∧ n ≤ I128_MAX then some n else none

/-- `as i32` of a `usize` or `u32`. -/
def asI32 (n : Nat) : Int :=
  if n % U32_SIZE < 2147483648 then (n % U32_SIZE : Nat) else (n % U32_SIZE : Nat) - (U32_SIZE : Int)

/-- `as f32 as u32` of a `u32`: to the nearest of 24 bits, to the even of two, and saturating. -/
def roundF32 (n : Nat) : Nat :=
  let unit := 1 <<< (n.log2 - 23)
  let q := n / unit
  let r := n % unit
  min ((if unit < 2 * r ∨ unit = 2 * r ∧ q % 2 = 1 then q + 1 else q) * unit) (U32_SIZE - 1)

/-! ### The score of a window -/

/-- The floating point operations on scores. -/
structure ScoreOps (F : Type) where
  minusOne : F
  finite : F → Bool
  /-- `!(t_var <= 0.0)`. -/
  positive : F → Bool
  /-- `cov as f64 / (i_var as f64 * t_var).sqrt()`. -/
  ratio : Int → Nat → F → F
  /-- `score.is_finite() && score.abs() <= 1.0 + 1e-12`. -/
  inRange : F → Bool
  /-- `score.clamp(-1.0, 1.0) as f32`. -/
  clamp : F → F

structure Sums where
  i : Nat
  i2 : Nat
  it : Nat
  deriving DecidableEq, Repr

/-- A turn of the inner loop of `ncc_at`. -/
def addPixel (sRaw tData : List UInt8) (row tRow : Nat) (acc : Sums) (tx : Nat) : Option Sums := do
  let sIndex ← checkedU64 (row + tx)
  let iv ← sRaw[sIndex]?
  let tIndex ← checkedU64 (tRow + tx)
  let tv ← tData[tIndex]?
  let i ← checkedU64 (acc.i + iv.toNat)
  let i2 ← checkedU64 (acc.i2 + iv.toNat * iv.toNat)
  let it ← checkedU64 (acc.it + iv.toNat * tv.toNat)
  return ⟨i, i2, it⟩

/-- A turn of the outer loop. -/
def addRow (sRaw : List UInt8) (sW : Nat) (tData : List UInt8) (tW x0 y0 : Nat) (acc : Sums)
    (ty : Nat) : Option Sums := do
  let row ← checkedU64 ((y0 + ty) * sW + x0)
  let tRow ← checkedU64 (ty * tW)
  (List.range tW).foldlM (addPixel sRaw tData row tRow) acc

def windowSums (sRaw : List UInt8) (sW : Nat) (tData : List UInt8) (tW tH x0 y0 : Nat) :
    Option Sums :=
  (List.range tH).foldlM (addRow sRaw sW tData tW x0 y0) ⟨0, 0, 0⟩

/-- `i_var`. -/
def windowVariance (n : Nat) (sums : Sums) : Option Nat := do
  let squares ← checkedU128 (n * sums.i2)
  let square ← checkedU128 (sums.i ^ 2)
  checkedSub squares square

/-- `cov`. -/
def windowCovariance (n : Nat) (sums : Sums) (tSum : Nat) : Option Int := do
  let products ← checkedU128 (n * sums.it)
  let product ← checkedU128 (sums.i * tSum)
  checkedI128 (asI128 products - asI128 product)

variable {F : Type}

/-- What the sums of a window score. -/
def scoreOf (A : ScoreOps F) (n : Nat) (sums : Sums) (tSum : Nat) (tVar : F) : Option F := do
  let iVar ← windowVariance n sums
  if iVar = 0 || !A.positive tVar then return A.minusOne
  let cov ← windowCovariance n sums tSum
  let score := A.ratio cov iVar tVar
  return if A.inRange score then A.clamp score else A.minusOne

def nccAt (A : ScoreOps F) (sRaw : List UInt8) (sW : Nat) (tData : List UInt8)
    (tW tH x0 y0 tSum : Nat) (tVar : F) : Option F := do
  let right ← checkedU64 (x0 + tW)
  let bottom ← checkedU64 (y0 + tH)
  if sW < right || sRaw.length / max sW 1 < bottom then return A.minusOne
  let n ← checkedU64 (tW * tH)
  let sums ← windowSums sRaw sW tData tW tH x0 y0
  scoreOf A n sums tSum tVar

/-- `ncc_at` of a screen and a prepared template. -/
def nccIn (A : ScoreOps F) (screen : GrayImage) (prepared : PreparedTemplate F) (x0 y0 : Nat) :
    Option F :=
  nccAt A screen.data screen.width prepared.image.data prepared.image.width prepared.image.height
    x0 y0 prepared.sum prepared.variance

/-! ### The search -/

/-- A search area, its right and bottom edges excluded. -/
structure Area where
  x0 : Nat
  y0 : Nat
  x1 : Nat
  y1 : Nat
  deriving DecidableEq, Repr

/-- The checks before the search, of a `region` with `u32` sums that wrap. -/
def searchArea (sw sh tw th : Nat) (region : Nat × Nat × Nat × Nat) : Except String Area :=
  let (x, y, w, h) := region
  if sw ≤ tw ∨ sh ≤ th then .error "template larger than screen"
  else
    let rx1 := min ((x + w) % U32_SIZE) sw
    let ry1 := min ((y + h) % U32_SIZE) sh
    if rx1 ≤ x ∨ ry1 ≤ y ∨ rx1 - x < tw ∨ ry1 - y < th then .error "invalid search region"
    else .ok ⟨x, y, rx1, ry1⟩

/-- The area in the coordinates of a screen that is not scaled. -/
def Area.scaled (area : Area) (sw sh : Nat) : Area :=
  ⟨roundF32 area.x0, roundF32 area.y0, min (roundF32 area.x1) sw, min (roundF32 area.y1) sh⟩

/-- `first..=last`. -/
def inclusive (first last : Nat) : List Nat := List.range' first (last + 1 - first)

section
variable [LinearOrder F]

/-- A score that is greater than the best of a column takes its place. -/
def takeGreater (best : Option (F × Nat × Nat)) (found : F × Nat × Nat) : F × Nat × Nat :=
  match best with
  | none => found
  | some b => if b.1 < found.1 then found else b

/-- The loop over a column. -/
def bestOfColumn (ncc : Nat → Nat → Option F) (ys : List Nat) (x0 : Nat) :
    Option (Option (F × Nat × Nat)) :=
  ys.foldlM (fun best y0 => do
    let score ← ncc x0 y0
    return some (takeGreater best (score, x0, y0))) none

/-- The search over the columns, as they are split. -/
def searchColumns (ncc : Nat → Nat → Option F) (columns : Split Nat) (ys : List Nat) :
    Option (Option (F × Nat × Nat)) :=
  columns.reduce (Split.lift better) (some none) (bestOfColumn ncc ys)

/-- The neighbours of the refinement, in its order. -/
def neighbours : List (Int × Int) :=
  [(-1, -1), (-1, 0), (-1, 1), (0, -1), (0, 0), (0, 1), (1, -1), (1, 0), (1, 1)]

/-- A turn of the refinement around `(x, y)`. -/
def refineAt (ncc : Nat → Nat → Option F) (area : Area) (tW tH x y : Nat)
    (best : F × Nat × Nat) (d : Int × Int) : Option (F × Nat × Nat) :=
  let nx := asI32 x + d.1
  let ny := asI32 y + d.2
  if nx < asI32 area.x0 ∨ ny < asI32 area.y0 then some best
  else if area.x1 < nx.toNat + tW ∨ area.y1 < ny.toNat + tH then some best
  else do
    let s ← ncc nx.toNat ny.toNat
    return if best.1 < s then (s, nx.toNat, ny.toNat) else best

def refine (ncc : Nat → Nat → Option F) (area : Area) (tW tH : Nat) (best : F × Nat × Nat) :
    Option (F × Nat × Nat) :=
  neighbours.foldlM (refineAt ncc area tW tH best.2.1 best.2.2) best

structure MatchResult (F : Type) where
  x : Nat
  y : Nat
  width : Nat
  height : Nat
  score : F

/-- `match_template_with_source` in a region, from the answer of the template cache. `colorOk` is the
    check of the colours at a position. -/
def matchInRegion (A : ScoreOps F) (split : List Nat → Split Nat) (colorOk : Nat → Nat → Bool)
    (screen : GrayImage) (tw th : Nat) (region : Nat × Nat × Nat × Nat) (threshold : F)
    (cached : Except String (PreparedTemplate F)) : Option (Except String (Option (MatchResult F))) :=
  match searchArea screen.width screen.height tw th region with
  | .error text => some (.error text)
  | .ok area =>
    match cached with
    | .error text => some (.error text)
    | .ok prepared =>
      let tW := prepared.image.width
      let tH := prepared.image.height
      if screen.width ≤ tW ∨ screen.height ≤ tH then some (.error "template too large after scaling")
      else
        let area := area.scaled screen.width screen.height
        if area.x1 ≤ area.x0 ∨ area.y1 ≤ area.y0 ∨ area.x1 - area.x0 < tW ∨ area.y1 - area.y0 < tH then
          some (.ok none)
        else do
          let found ← searchColumns (nccIn A screen prepared)
            (split (inclusive area.x0 (area.x1 - tW))) (inclusive area.y0 (area.y1 - tH))
          match found with
          | none => return .ok none
          | some best =>
            let refined ← refine (nccIn A screen prepared) area tW tH best
            return .ok (if !A.finite refined.1 || refined.1 < threshold ||
                !colorOk refined.2.1 refined.2.2 then none
              else some ⟨roundF32 refined.2.1, roundF32 refined.2.2, roundF32 tW, roundF32 tH,
                refined.1⟩)

end

end Gamer.Matcher
