import Gamer.Lib.Machine
import Gamer.Lib.Results
import Gamer.Lib.Weights
import Mathlib.Data.List.MinMax
import Mathlib.Tactic.SplitIfs

/-! The cache of decoded templates (matcher.rs). An entry has the decoded source and what was
    prepared from it for each size; the cache keeps the sum of the entries' bytes.

      cached_template_source    miss: insert the source ──▶ evict
      cached_prepared_template  miss: insert the source if it is gone
                                      ├──▶ prepare, add its bytes ──▶ evict
                                      └──▶ uniform template: error, nothing evicted           -/

namespace Gamer.Matcher
open Gamer.Lib

def USIZE_MAX : Nat := 18446744073709551615
/-- The most bytes a `Vec` has. -/
def ISIZE_MAX : Nat := 9223372036854775807
def TEMPLATE_CACHE_CAPACITY : Nat := 128
def TEMPLATE_CACHE_MAX_BYTES : Nat := 67108864
def TEMPLATE_MAX_INPUT_BYTES : Nat := 10485760
def TEMPLATE_MAX_PIXELS : Nat := 32000000

def saturatingAdd (a b : Nat) : Nat := min (a + b) USIZE_MAX
def saturatingMul (a b : Nat) : Nat := min (a * b) USIZE_MAX

/-- A grey picture with its pixels row by row. -/
structure GrayImage where
  width : Nat
  height : Nat
  data : List UInt8
  size : data.length = width * height
  bounded : data.length ≤ ISIZE_MAX

/-- The image crate and the hash: `D` is the type of a decoded picture, `K` of a digest, `F` of an
    `f64`. -/
structure ImageOps (D K F : Type) where
  sha256 : List UInt8 → K
  decode : List UInt8 → Except String D
  dimensions : D → Nat × Nat
  toGray : D → GrayImage
  resize : D → Nat × Nat → GrayImage
  asF64 : Nat → F
  megapixels : Nat → String

structure PreparedTemplate (F : Type) where
  image : GrayImage
  sum : Nat
  variance : F

structure TemplateCacheEntry (D F : Type) where
  source : D
  prepared : Table (Nat × Nat) (PreparedTemplate F)
  memoryBytes : Nat
  lastUsed : Nat

structure TemplateCache (D K F : Type) where
  entries : Table K (TemplateCacheEntry D F) := ∅
  totalBytes : Nat := 0
  clock : Nat := 0

/-! ### Preparing -/

section
variable {D K F : Type} [DecidableEq K] (O : ImageOps D K F)

def imageMemoryBytes (width height bytesPerPixel : Nat) : Nat :=
  saturatingMul (saturatingMul width height) bytesPerPixel

def sourceMemoryBytes (source : D) : Nat :=
  imageMemoryBytes (O.dimensions source).1 (O.dimensions source).2 8

def preparedMemoryBytes (prepared : PreparedTemplate F) : Nat :=
  imageMemoryBytes prepared.image.width prepared.image.height 1

/-- `decode_image_limited` of a template. -/
def decodeImageLimited (bytes : List UInt8) : Except String D :=
  if TEMPLATE_MAX_INPUT_BYTES < bytes.length then
    .error ("模板 " ++ toString bytes.length ++ " 字节超过上传上限 10 MiB")
  else
    match O.decode bytes with
    | .error text => .error text
    | .ok img =>
      let w := (O.dimensions img).1
      let h := (O.dimensions img).2
      if TEMPLATE_MAX_PIXELS < w * h then
        .error ("模板 " ++ toString w ++ "x" ++ toString h ++ " 共 " ++ O.megapixels (w * h) ++
          " MP 超过像素预算 32 MP")
      else .ok img

def pixelSum (data : List UInt8) : Nat := (data.map UInt8.toNat).sum

def pixelSumSquares (data : List UInt8) : Nat := (data.map fun v => v.toNat * v.toNat).sum

def buildPreparedTemplate (image : GrayImage) : Except String (PreparedTemplate F) :=
  if image.data = [] then .error "template is empty"
  else
    let sum := pixelSum image.data
    let variance := image.data.length * pixelSumSquares image.data - sum ^ 2
    if variance = 0 then .error "template is uniform color"
    else .ok ⟨image, sum, O.asF64 variance⟩

/-- The grey picture of the wanted size. -/
def scaledGray (source : D) (dimensions : Nat × Nat) : GrayImage :=
  if O.dimensions source = dimensions then O.toGray source else O.resize source dimensions

/-- What a template is prepared to, from its bytes. -/
def freshPrepared (bytes : List UInt8) (dimensions : Nat × Nat) :
    Except String (PreparedTemplate F) := do
  let source ← decodeImageLimited O bytes
  buildPreparedTemplate O (scaledGray O source dimensions)

/-! ### The cache -/

/-- `cache_tick`. -/
def tick (c : TemplateCache D K F) : Nat := max ((c.clock + 1) % (USIZE_MAX + 1)) 1

/-- The entry is used now. -/
def touch (c : TemplateCache D K F) (key : K) : TemplateCache D K F :=
  { c with clock := tick c, entries := c.entries.modify key fun e => { e with lastUsed := tick c } }

/-- The key used longest ago, the first of several. -/
def oldestKey (c : TemplateCache D K F) : Option K :=
  (c.entries.entries.argmin fun e => e.2.lastUsed).map (·.1)

/-- The loop of `evict_template_cache`; every turn removes an entry. -/
def evictLoop : Nat → TemplateCache D K F → TemplateCache D K F
  | 0, c => c
  | turns + 1, c =>
    if TEMPLATE_CACHE_MAX_BYTES < c.totalBytes ∨ TEMPLATE_CACHE_CAPACITY < c.entries.count then
      match oldestKey c with
      | none => c
      | some oldest =>
        match c.entries.get oldest with
        | none => c
        | some removed => evictLoop turns
            { c with entries := c.entries.del oldest, totalBytes := c.totalBytes - removed.memoryBytes }
    else c

def evictTemplateCache (c : TemplateCache D K F) : TemplateCache D K F := evictLoop c.entries.count c

/-- The source comes in without anything prepared. -/
def insertSource (c : TemplateCache D K F) (key : K) (source : D) (lastUsed : Nat) :
    TemplateCache D K F :=
  { c with
    entries := c.entries.set key ⟨source, ∅, sourceMemoryBytes O source, lastUsed⟩
    totalBytes := saturatingAdd c.totalBytes (sourceMemoryBytes O source) }

def cachedTemplateSource (c : TemplateCache D K F) (bytes : List UInt8) :
    Except String (K × D) × TemplateCache D K F :=
  let key := O.sha256 bytes
  match c.entries.get key with
  | some entry => (.ok (key, entry.source), touch c key)
  | none =>
    match decodeImageLimited O bytes with
    | .error text => (.error text, c)
    | .ok source =>
      let used := tick c
      (.ok (key, source), evictTemplateCache (insertSource O { c with clock := used } key source used))

/-- The entry of a key, the source put back if it was evicted. -/
def withEntry (c : TemplateCache D K F) (key : K) (source : D) :
    TemplateCacheEntry D F × TemplateCache D K F :=
  match c.entries.get key with
  | some entry => (entry, c)
  | none => (⟨source, ∅, sourceMemoryBytes O source, 0⟩, insertSource O c key source 0)

def cachedPreparedTemplate (c : TemplateCache D K F) (key : K) (source : D)
    (dimensions : Nat × Nat) : Except String (PreparedTemplate F) × TemplateCache D K F :=
  match (c.entries.get key).bind fun entry => entry.prepared.get dimensions with
  | some prepared => (.ok prepared, touch c key)
  | none =>
    let (entry, c) := withEntry O c key source
    match buildPreparedTemplate O (scaledGray O entry.source dimensions) with
    | .error text => (.error text, c)
    | .ok prepared =>
      let bytes := preparedMemoryBytes prepared
      let entry : TemplateCacheEntry D F :=
        { entry with
          prepared := entry.prepared.set dimensions prepared
          memoryBytes := saturatingAdd entry.memoryBytes bytes }
      let c : TemplateCache D K F :=
        { c with
          entries := c.entries.set key entry
          totalBytes := saturatingAdd c.totalBytes bytes }
      (.ok prepared, evictTemplateCache (touch c key))

end

/-! ### The books -/

section
variable {D K F : Type} [DecidableEq K] {O : ImageOps D K F} {c : TemplateCache D K F} {key : K}
  {source : D} {bytes : List UInt8}

/-- The bytes of an entry are those of its source and of what was prepared, and the cache has the
    sum of its entries. -/
structure Books (O : ImageOps D K F) (c : TemplateCache D K F) : Prop where
  total : c.totalBytes = c.entries.weight (·.memoryBytes)
  entry : ∀ k e, c.entries.get k = some e →
    e.memoryBytes = sourceMemoryBytes O e.source + e.prepared.weight preparedMemoryBytes

structure Limits (c : TemplateCache D K F) : Prop where
  bytes : c.totalBytes ≤ TEMPLATE_CACHE_MAX_BYTES
  count : c.entries.count ≤ TEMPLATE_CACHE_CAPACITY

/-- INVARIANT: the books agree and both limits are kept. -/
structure Accounted (O : ImageOps D K F) (c : TemplateCache D K F) : Prop where
  books : Books O c
  limits : Limits c

/-- INVARIANT: the entries come from the templates `T` and what they have prepared is what would
    be prepared again. -/
def Sound (O : ImageOps D K F) (T : List (List UInt8)) (c : TemplateCache D K F) : Prop :=
  ∀ k e, c.entries.get k = some e →
    (∃ bytes ∈ T, O.sha256 bytes = k ∧ decodeImageLimited O bytes = .ok e.source) ∧
    ∀ d p, e.prepared.get d = some p → buildPreparedTemplate O (scaledGray O e.source d) = .ok p

theorem saturatingAdd_eq {a b : Nat} (h : a + b ≤ USIZE_MAX) : saturatingAdd a b = a + b :=
  Nat.min_eq_left h

omit [DecidableEq K] in
/-- A decoded template has at most 256 MB of pixels. -/
theorem sourceMemoryBytes_le (h : decodeImageLimited O bytes = .ok source) :
    sourceMemoryBytes O source ≤ 8 * TEMPLATE_MAX_PIXELS := by
  rw [decodeImageLimited] at h
  split at h
  · cases h
  · split at h
    · cases h
    · rename_i img _
      dsimp only at h
      split at h
      · cases h
      · rename_i hpixels
        cases h
        have hle : saturatingMul (O.dimensions source).1 (O.dimensions source).2 ≤
            (O.dimensions source).1 * (O.dimensions source).2 := Nat.min_le_left _ _
        have hmul : sourceMemoryBytes O source ≤
            saturatingMul (O.dimensions source).1 (O.dimensions source).2 * 8 := Nat.min_le_left _ _
        omega

theorem preparedMemoryBytes_le (p : PreparedTemplate F) : preparedMemoryBytes p ≤ ISIZE_MAX := by
  have hinner : saturatingMul p.image.width p.image.height ≤ p.image.width * p.image.height :=
    Nat.min_le_left _ _
  have houter : preparedMemoryBytes p ≤ saturatingMul p.image.width p.image.height * 1 :=
    Nat.min_le_left _ _
  have hsize := p.image.size
  have hbounded := p.image.bounded
  omega

/-! ### What the steps do to the books -/

theorem get_touch (c : TemplateCache D K F) (key k : K) :
    (touch c key).entries.get k = if k = key
      then (c.entries.get key).map fun e => { e with lastUsed := tick c }
      else c.entries.get k :=
  Table.get_modify _ _ _ _

/-- FRAME: the use of an entry changes only when it was used. -/
theorem get_touch_eq_some {k : K} {e : TemplateCacheEntry D F}
    (h : (touch c key).entries.get k = some e) :
    ∃ e₀, c.entries.get k = some e₀ ∧ e.source = e₀.source ∧ e.prepared = e₀.prepared ∧
      e.memoryBytes = e₀.memoryBytes := by
  rw [get_touch] at h
  split at h
  · rename_i hk
    obtain ⟨e₀, he₀, rfl⟩ := Option.map_eq_some_iff.mp h
    exact ⟨e₀, hk ▸ he₀, rfl, rfl, rfl⟩
  · exact ⟨e, h, rfl, rfl, rfl⟩

theorem Books.touch (h : Books O c) (key : K) : Books O (touch c key) := by
  have hweight : (c.entries.modify key fun e => { e with lastUsed := tick c }).weight
      (·.memoryBytes) = c.entries.weight (·.memoryBytes) := Table.weight_modify _ _ fun _ => rfl
  refine ⟨h.total.trans hweight.symm, fun k e he => ?_⟩
  obtain ⟨e₀, he₀, hsource, hprepared, hmemory⟩ := get_touch_eq_some he
  rw [hsource, hprepared, hmemory]
  exact h.entry k e₀ he₀

theorem Limits.touch (h : Limits c) : Limits (touch c key) :=
  ⟨h.bytes, (Table.count_modify _ _ _).trans_le h.count⟩

theorem Sound.touch {T : List (List UInt8)} (h : Sound O T c) (key : K) :
    Sound O T (touch c key) := by
  intro k e he
  obtain ⟨e₀, he₀, hsource, hprepared, _⟩ := get_touch_eq_some he
  rw [hsource, hprepared]
  exact h k e₀ he₀

theorem get_insertSource (c : TemplateCache D K F) (key k : K) (source : D) (used : Nat) :
    (insertSource O c key source used).entries.get k = if k = key
      then some ⟨source, ∅, sourceMemoryBytes O source, used⟩ else c.entries.get k :=
  Table.get_set _ _ _ _

/-- STEP: a source that is not there comes in. -/
theorem Books.insertSource (h : Books O c) (hkey : c.entries.get key = none) (used : Nat)
    (hroom : c.totalBytes + sourceMemoryBytes O source ≤ USIZE_MAX) :
    Books O (insertSource O c key source used) := by
  constructor
  · rw [Matcher.insertSource]
    dsimp only
    rw [saturatingAdd_eq hroom, Table.weight_set, Table.weight_del_of_none hkey, h.total]
    exact Nat.add_comm _ _
  · intro k e he
    rw [get_insertSource] at he
    split at he
    · cases he
      rfl
    · exact h.entry k e he

theorem Sound.insertSource {T : List (List UInt8)} (h : Sound O T c) (used : Nat)
    (hT : bytes ∈ T) (hdecode : decodeImageLimited O bytes = .ok source) :
    Sound O T (insertSource O c (O.sha256 bytes) source used) := by
  intro k e he
  rw [get_insertSource] at he
  split at he
  · rename_i hk
    cases he
    refine ⟨⟨bytes, hT, hk.symm, hdecode⟩, fun d p hp => ?_⟩
    cases hp
  · exact h k e he

omit [DecidableEq K] in
theorem oldestKey_eq_none (h : oldestKey c = none) : c.entries.count = 0 := by
  rw [oldestKey, Option.map_eq_none_iff, List.argmin_eq_none] at h
  rw [Table.count, h]
  rfl

/-- RUN: the eviction loop keeps the books and ends within both limits. -/
theorem evictLoop_accounted {T : List (List UInt8)} {turns : Nat} (hbooks : Books O c)
    (hsound : Sound O T c) (hturns : c.entries.count ≤ turns) :
    Accounted O (evictLoop turns c) ∧ Sound O T (evictLoop turns c) := by
  have hempty : c.entries.count = 0 → Limits c := by
    intro hcount
    refine ⟨?_, hcount ▸ Nat.zero_le _⟩
    rw [hbooks.total, Table.weight_of_count hcount]
    exact Nat.zero_le _
  induction turns generalizing c with
  | zero => exact ⟨⟨hbooks, hempty (Nat.le_zero.mp hturns)⟩, hsound⟩
  | succ turns ih =>
    rw [evictLoop]
    split
    · split
      · rename_i hnone
        exact ⟨⟨hbooks, hempty (oldestKey_eq_none hnone)⟩, hsound⟩
      · rename_i oldest holdest
        split
        · rename_i hgone
          have hmem : ∃ e, c.entries.get oldest = some e := by
            obtain ⟨e, he, rfl⟩ := Option.map_eq_some_iff.mp holdest
            have hentry := List.argmin_mem he
            exact ⟨e.2, AList.mem_lookup_iff.mpr hentry⟩
          obtain ⟨e, he⟩ := hmem
          rw [hgone] at he
          cases he
        · rename_i removed hremoved
          have hweight := Table.weight_of_get hremoved (fun e => e.memoryBytes)
          have hcount := Table.count_of_get hremoved
          have hget : ∀ k e, (c.entries.del oldest).get k = some e →
              c.entries.get k = some e := by
            intro k e he
            rw [Table.get_del] at he
            split at he
            · cases he
            · exact he
          have hbooks' : Books O { c with
              entries := c.entries.del oldest
              totalBytes := c.totalBytes - removed.memoryBytes } := by
            refine ⟨?_, fun k e he => hbooks.entry k e (hget k e he)⟩
            show c.totalBytes - removed.memoryBytes = (c.entries.del oldest).weight (·.memoryBytes)
            rw [hbooks.total, hweight, Nat.add_sub_cancel_left]
          refine ih hbooks' (fun k e he => hsound k e (hget k e he)) (by dsimp only; omega) ?_
          intro hcount
          refine ⟨?_, hcount ▸ Nat.zero_le _⟩
          rw [hbooks'.total, Table.weight_of_count hcount]
          exact Nat.zero_le _
    · rename_i hwithin
      obtain ⟨hbytes, hcount⟩ := not_or.mp hwithin
      exact ⟨⟨hbooks, ⟨Nat.not_lt.mp hbytes, Nat.not_lt.mp hcount⟩⟩, hsound⟩

theorem evict_accounted {T : List (List UInt8)} (hbooks : Books O c) (hsound : Sound O T c) :
    Accounted O (evictTemplateCache c) ∧ Sound O T (evictTemplateCache c) :=
  evictLoop_accounted hbooks hsound (Nat.le_refl _)

end

/-! ### Calls -/

/-- A call of one of the two functions; the second is given what the first has returned. -/
inductive CacheCall where
  | source (bytes : List UInt8)
  | prepared (bytes : List UInt8) (dimensions : Nat × Nat)

def CacheCall.bytes : CacheCall → List UInt8
  | .source bytes => bytes
  | .prepared bytes _ => bytes

section
variable {D K F : Type} [DecidableEq K] {O : ImageOps D K F} {c : TemplateCache D K F} {key : K}
  {source : D} {bytes : List UInt8} {T : List (List UInt8)}

def step (O : ImageOps D K F) (c : TemplateCache D K F) :
    CacheCall → Option (TemplateCache D K F)
  | .source bytes => some (cachedTemplateSource O c bytes).2
  | .prepared bytes dimensions =>
    match decodeImageLimited O bytes with
    | .ok source => some (cachedPreparedTemplate O c (O.sha256 bytes) source dimensions).2
    | .error _ => none

/-- The call returns what would be computed without a cache. -/
def Answers (O : ImageOps D K F) (c : TemplateCache D K F) : CacheCall → Prop
  | .source bytes => (cachedTemplateSource O c bytes).1 =
      (decodeImageLimited O bytes).map fun source => (O.sha256 bytes, source)
  | .prepared bytes dimensions => ∀ source, decodeImageLimited O bytes = .ok source →
      (cachedPreparedTemplate O c (O.sha256 bytes) source dimensions).1 =
        freshPrepared O bytes dimensions

/-- The call does not put back an evicted source over a limit for a template that cannot be
    prepared. -/
def Keeps (O : ImageOps D K F) (c : TemplateCache D K F) : CacheCall → Prop
  | .source _ => True
  | .prepared bytes dimensions => ∀ source text, decodeImageLimited O bytes = .ok source →
      c.entries.get (O.sha256 bytes) = none → freshPrepared O bytes dimensions = .error text →
      c.totalBytes + sourceMemoryBytes O source ≤ TEMPLATE_CACHE_MAX_BYTES ∧
        c.entries.count + 1 ≤ TEMPLATE_CACHE_CAPACITY

/-- No two of the templates have one digest. -/
def CollisionFree (O : ImageOps D K F) (T : List (List UInt8)) : Prop :=
  ∀ a ∈ T, ∀ b ∈ T, O.sha256 a = O.sha256 b → a = b

/-- The entry under a template's digest is the template's. -/
theorem Sound.entry (h : Sound O T c) (hfree : CollisionFree O T)
    (hT : bytes ∈ T) {e : TemplateCacheEntry D F} (he : c.entries.get (O.sha256 bytes) = some e) :
    decodeImageLimited O bytes = .ok e.source := by
  obtain ⟨⟨other, hother, hsha, hdecode⟩, _⟩ := h _ e he
  rw [hfree bytes hT other hother hsha.symm]
  exact hdecode

theorem room (h : Accounted O c)
    (hdecode : decodeImageLimited O bytes = .ok source) :
    c.totalBytes + sourceMemoryBytes O source + ISIZE_MAX ≤ USIZE_MAX := by
  have hbytes := h.limits.bytes
  have hsource := sourceMemoryBytes_le hdecode
  rw [TEMPLATE_CACHE_MAX_BYTES] at hbytes
  rw [TEMPLATE_MAX_PIXELS] at hsource
  rw [ISIZE_MAX, USIZE_MAX]
  omega

/-- STEP: the first function keeps the books and both limits. -/
theorem source_spec (h : Accounted O c) (hsound : Sound O T c)
    (hfree : CollisionFree O T) (hT : bytes ∈ T) :
    Accounted O (cachedTemplateSource O c bytes).2 ∧ Sound O T (cachedTemplateSource O c bytes).2 ∧
      Answers O c (.source bytes) := by
  rw [Answers, cachedTemplateSource]
  dsimp only
  cases he : c.entries.get (O.sha256 bytes) with
  | some e =>
    rw [hsound.entry hfree hT he]
    exact ⟨⟨h.books.touch _, h.limits.touch⟩, hsound.touch _, rfl⟩
  | none =>
    cases hdecode : decodeImageLimited O bytes with
    | error text => exact ⟨h, hsound, rfl⟩
    | ok source =>
      have hroom : c.totalBytes + sourceMemoryBytes O source ≤ USIZE_MAX :=
        (Nat.le_add_right _ _).trans (room h hdecode)
      have hbooks : Books O { c with clock := tick c } := ⟨h.books.total, h.books.entry⟩
      have hsound : Sound O T { c with clock := tick c } := hsound
      have hevicted := evict_accounted (hbooks.insertSource he (tick c) hroom)
        (hsound.insertSource (tick c) hT hdecode)
      exact ⟨hevicted.1, hevicted.2, rfl⟩

/-- STEP: the entry of a template, the source put back if it was gone. -/
theorem withEntry_spec (h : Accounted O c) (hsound : Sound O T c) (hfree : CollisionFree O T)
    (hT : bytes ∈ T) (hdecode : decodeImageLimited O bytes = .ok source) :
    (withEntry O c (O.sha256 bytes) source).2.entries.get (O.sha256 bytes) =
        some (withEntry O c (O.sha256 bytes) source).1 ∧
      (withEntry O c (O.sha256 bytes) source).1.source = source ∧
      Books O (withEntry O c (O.sha256 bytes) source).2 ∧
      Sound O T (withEntry O c (O.sha256 bytes) source).2 ∧
      (withEntry O c (O.sha256 bytes) source).2.totalBytes + ISIZE_MAX ≤ USIZE_MAX := by
  have hroom := room h hdecode
  rw [withEntry]
  cases he : c.entries.get (O.sha256 bytes) with
  | some e =>
    have hsame : e.source = source := by
      have hentry := hsound.entry hfree hT he
      rw [hdecode] at hentry
      exact (Except.ok.inj hentry).symm
    refine ⟨he, hsame, h.books, hsound, ?_⟩
    show c.totalBytes + ISIZE_MAX ≤ USIZE_MAX
    omega
  | none =>
    have hfits : c.totalBytes + sourceMemoryBytes O source ≤ USIZE_MAX := by omega
    refine ⟨?_, rfl, h.books.insertSource he 0 hfits, hsound.insertSource 0 hT hdecode, ?_⟩
    · exact (get_insertSource _ _ _ _ _).trans (if_pos rfl)
    · show saturatingAdd c.totalBytes (sourceMemoryBytes O source) + ISIZE_MAX ≤ USIZE_MAX
      rw [saturatingAdd_eq hfits]
      exact hroom

/-- STEP: what was prepared is added to its entry and to the cache. -/
theorem add_prepared {e : TemplateCacheEntry D F} {d : Nat × Nat} {p : PreparedTemplate F}
    (hbooks : Books O c) (hsound : Sound O T c) (he : c.entries.get key = some e)
    (hmiss : e.prepared.get d = none)
    (hp : buildPreparedTemplate O (scaledGray O e.source d) = .ok p)
    (hroom : c.totalBytes + ISIZE_MAX ≤ USIZE_MAX) :
    let e' : TemplateCacheEntry D F :=
      { e with
        prepared := e.prepared.set d p
        memoryBytes := saturatingAdd e.memoryBytes (preparedMemoryBytes p) }
    let c' : TemplateCache D K F :=
      { c with
        entries := c.entries.set key e'
        totalBytes := saturatingAdd c.totalBytes (preparedMemoryBytes p) }
    Books O c' ∧ Sound O T c' := by
  have hbytes := preparedMemoryBytes_le p
  have hweight := Table.weight_of_get he (fun e => e.memoryBytes)
  have htotal := hbooks.total
  have hcache : saturatingAdd c.totalBytes (preparedMemoryBytes p) =
      c.totalBytes + preparedMemoryBytes p := saturatingAdd_eq (by omega)
  have hentry : saturatingAdd e.memoryBytes (preparedMemoryBytes p) =
      e.memoryBytes + preparedMemoryBytes p := saturatingAdd_eq (by omega)
  dsimp only
  rw [hcache, hentry]
  refine ⟨⟨?_, fun k e' he' => ?_⟩, fun k e' he' => ?_⟩
  · dsimp only
    rw [Table.weight_set]
    show c.totalBytes + preparedMemoryBytes p =
      e.memoryBytes + preparedMemoryBytes p + (c.entries.del key).weight (·.memoryBytes)
    omega
  · rw [Table.get_set] at he'
    split at he'
    · cases he'
      show e.memoryBytes + preparedMemoryBytes p =
        sourceMemoryBytes O e.source + (e.prepared.set d p).weight preparedMemoryBytes
      rw [Table.weight_set, Table.weight_del_of_none hmiss, hbooks.entry key e he]
      omega
    · exact hbooks.entry k e' he'
  · rw [Table.get_set] at he'
    split at he'
    · rename_i hk
      cases he'
      obtain ⟨hsource, hprepared⟩ := hsound key e he
      refine ⟨hk ▸ hsource, fun d' p' hp' => ?_⟩
      rw [Table.get_set] at hp'
      split at hp'
      · rename_i hd
        cases hp'
        rw [hd]
        exact hp
      · exact hprepared d' p' hp'
    · exact hsound k e' he'

/-- The second function without a prepared picture, its parts named. -/
theorem cachedPreparedTemplate_miss {d : Nat × Nat}
    (hmiss : (c.entries.get key).bind (fun e => e.prepared.get d) = none) :
    cachedPreparedTemplate O c key source d =
      match buildPreparedTemplate O (scaledGray O (withEntry O c key source).1.source d) with
      | .error text => (.error text, (withEntry O c key source).2)
      | .ok p => (.ok p, evictTemplateCache (touch
          { (withEntry O c key source).2 with
            entries := (withEntry O c key source).2.entries.set key
              { (withEntry O c key source).1 with
                prepared := (withEntry O c key source).1.prepared.set d p
                memoryBytes := saturatingAdd (withEntry O c key source).1.memoryBytes
                  (preparedMemoryBytes p) }
            totalBytes := saturatingAdd (withEntry O c key source).2.totalBytes
              (preparedMemoryBytes p) } key)) := by
  rw [cachedPreparedTemplate, hmiss]

theorem withEntry_miss {d : Nat × Nat}
    (hmiss : (c.entries.get key).bind (fun e => e.prepared.get d) = none) :
    (withEntry O c key source).1.prepared.get d = none := by
  rw [withEntry]
  cases he : c.entries.get key with
  | some e =>
    rw [he] at hmiss
    exact hmiss
  | none => rfl

/-- The limits after a source has been put back and nothing evicted. -/
theorem limits_withEntry (h : Accounted O c)
    (hdecode : decodeImageLimited O bytes = .ok source) :
    Limits (withEntry O c (O.sha256 bytes) source).2 ↔
      (c.entries.get (O.sha256 bytes) = none →
        c.totalBytes + sourceMemoryBytes O source ≤ TEMPLATE_CACHE_MAX_BYTES ∧
          c.entries.count + 1 ≤ TEMPLATE_CACHE_CAPACITY) := by
  rw [withEntry]
  cases he : c.entries.get (O.sha256 bytes) with
  | some e => exact iff_of_true h.limits fun hnone => by cases hnone
  | none =>
    have htotal : (insertSource O c (O.sha256 bytes) source 0).totalBytes =
        c.totalBytes + sourceMemoryBytes O source :=
      saturatingAdd_eq ((Nat.le_add_right _ _).trans (room h hdecode))
    have hcount : (insertSource O c (O.sha256 bytes) source 0).entries.count =
        c.entries.count + 1 := by
      rw [insertSource, Table.count_set, Table.count_del_of_none he]
    constructor
    · rintro ⟨hbytes, hentries⟩ -
      exact ⟨htotal ▸ hbytes, hcount ▸ hentries⟩
    · intro hfits
      obtain ⟨hbytes, hentries⟩ := hfits rfl
      exact ⟨htotal ▸ hbytes, hcount ▸ hentries⟩

/-- STEP: the second function keeps the books, and both limits exactly if it does not put back a
    source over a limit for a template that cannot be prepared. -/
theorem prepared_spec {d : Nat × Nat} (h : Accounted O c) (hsound : Sound O T c)
    (hfree : CollisionFree O T) (hT : bytes ∈ T)
    (hdecode : decodeImageLimited O bytes = .ok source) :
    (Accounted O (cachedPreparedTemplate O c (O.sha256 bytes) source d).2 ↔
        Keeps O c (.prepared bytes d)) ∧
      Sound O T (cachedPreparedTemplate O c (O.sha256 bytes) source d).2 ∧
      (cachedPreparedTemplate O c (O.sha256 bytes) source d).1 = freshPrepared O bytes d := by
  have hfresh : freshPrepared O bytes d = buildPreparedTemplate O (scaledGray O source d) := by
    rw [freshPrepared, hdecode]
    rfl
  cases hhit : (c.entries.get (O.sha256 bytes)).bind fun e => e.prepared.get d with
  | some p =>
    obtain ⟨e, he, hp⟩ := Option.bind_eq_some_iff.mp hhit
    have hsource : e.source = source := by
      have hentry := hsound.entry hfree hT he
      rw [hdecode] at hentry
      exact (Except.ok.inj hentry).symm
    have hbuilt := (hsound _ e he).2 d p hp
    rw [hsource, ← hfresh] at hbuilt
    rw [cachedPreparedTemplate, hhit, hbuilt]
    refine ⟨iff_of_true ⟨h.books.touch _, h.limits.touch⟩ ?_, hsound.touch _, rfl⟩
    intro source' text _ hnone _
    rw [he] at hnone
    cases hnone
  | none =>
    obtain ⟨hget, hsource, hbooks, hkept, hroom⟩ := withEntry_spec h hsound hfree hT hdecode
    have hmiss : (withEntry O c (O.sha256 bytes) source).1.prepared.get d = none :=
      withEntry_miss hhit
    have hlimits := limits_withEntry h hdecode
    rw [cachedPreparedTemplate_miss hhit, hsource, ← hfresh]
    cases hbuild : freshPrepared O bytes d with
    | error text =>
      refine ⟨⟨fun hafter => ?_, fun hkeeps => ⟨hbooks, hlimits.mpr fun hnone => ?_⟩⟩, hkept, rfl⟩
      · intro source' text' hdecode' hnone _
        rw [hdecode] at hdecode'
        cases hdecode'
        exact hlimits.mp hafter.limits hnone
      · exact hkeeps source text hdecode hnone hbuild
    | ok p =>
      have hbuilt : buildPreparedTemplate O
          (scaledGray O (withEntry O c (O.sha256 bytes) source).1.source d) = .ok p := by
        rw [hsource, ← hfresh]
        exact hbuild
      obtain ⟨hadded, hstill⟩ := add_prepared hbooks hkept hget hmiss hbuilt hroom
      have hevicted := evict_accounted (hadded.touch (O.sha256 bytes))
        (hstill.touch (O.sha256 bytes))
      refine ⟨iff_of_true hevicted.1 ?_, hevicted.2, rfl⟩
      intro _ text _ _ herror
      rw [hbuild] at herror
      cases herror

/-! ### Runs -/

theorem accounted_empty : Accounted O ({} : TemplateCache D K F) :=
  ⟨⟨rfl, fun _ _ h => by cases h⟩, ⟨Nat.zero_le _, Nat.zero_le _⟩⟩

theorem sound_empty : Sound O T ({} : TemplateCache D K F) := fun _ _ h => by cases h

/-- Every answer is the one computed afresh. -/
theorem answers_of {a : CacheCall} (h : Accounted O c) (hsound : Sound O T c)
    (hfree : CollisionFree O T) (hT : a.bytes ∈ T) : Answers O c a := by
  cases a with
  | source bytes => exact (source_spec h hsound hfree hT).2.2
  | prepared bytes d =>
    intro source hdecode
    exact (prepared_spec h hsound hfree hT hdecode).2.2

/-- STEP: what a call does to the accounts and the entries. -/
theorem step_spec {c' : TemplateCache D K F} {a : CacheCall} (h : Accounted O c)
    (hsound : Sound O T c) (hfree : CollisionFree O T) (hT : a.bytes ∈ T)
    (hstep : step O c a = some c') : (Accounted O c' ↔ Keeps O c a) ∧ Sound O T c' := by
  cases a with
  | source bytes =>
    cases hstep
    obtain ⟨haccounted, hsound', _⟩ := source_spec h hsound hfree hT
    exact ⟨iff_of_true haccounted trivial, hsound'⟩
  | prepared bytes d =>
    rw [step] at hstep
    cases hdecode : decodeImageLimited O bytes with
    | error text =>
      rw [hdecode] at hstep
      cases hstep
    | ok source =>
      rw [hdecode] at hstep
      cases hstep
      obtain ⟨hiff, hsound', _⟩ := prepared_spec h hsound hfree hT hdecode
      exact ⟨hiff, hsound'⟩

/-- SAFETY: along a run of calls on templates without a digest in common, the accounts agree, both
    limits are kept and every answer is the one computed afresh, exactly if no call puts back an
    evicted source over a limit for a template that cannot be prepared. -/
theorem accounted_iff_keeps {as : List CacheCall} {c : TemplateCache D K F}
    (hfree : CollisionFree O (as.map CacheCall.bytes))
    (hrun : Machine.exec (step O) {} as = some c) :
    Machine.Throughout (step O) (Accounted O) {} as ∧ Machine.Along (step O) (Answers O) {} as ↔
      Machine.Along (step O) (Keeps O) {} as := by
  have hallow : Machine.Along (step O) (fun _ a => a.bytes ∈ as.map CacheCall.bytes) {} as :=
    .of_forall_mem fun a ha _ => List.mem_map_of_mem ha
  have hiff : Machine.Throughout (step O) (Accounted O) {} as ↔
      Machine.Along (step O) (Keeps O) {} as := by
    refine Machine.throughout_iff_along (I := Sound O (as.map CacheCall.bytes)) ?_ hrun hallow
      sound_empty accounted_empty
    intro s a s' hsound h hT hstep
    obtain ⟨hkeeps, hsound'⟩ := step_spec h hsound hfree hT hstep
    exact ⟨hkeeps, fun _ => hsound'⟩
  refine ⟨fun h => hiff.mp h.1, fun hkeeps => ⟨hiff.mpr hkeeps, ?_⟩⟩
  have hboth : Machine.Throughout (step O)
      (fun s => Accounted O s ∧ Sound O (as.map CacheCall.bytes) s) {} as := by
    refine (hkeeps.and hallow).throughout ?_ ⟨accounted_empty, sound_empty⟩
    rintro s a s' ⟨h, hsound⟩ ⟨hk, hT⟩ hstep
    obtain ⟨hiff, hsound'⟩ := step_spec h hsound hfree hT hstep
    exact ⟨hiff.mpr hk, hsound'⟩
  refine (hboth.along hallow).imp ?_
  rintro s a ⟨⟨h, hsound⟩, hT⟩
  exact answers_of h hsound hfree hT

end

/-! ### A large template that scales to one pixel -/

theorem pair_bounded : [(0 : UInt8), 255].length ≤ ISIZE_MAX := by
  rw [ISIZE_MAX, List.length_cons, List.length_cons, List.length_nil]
  omega

theorem pixel_bounded : [(7 : UInt8)].length ≤ ISIZE_MAX := by
  rw [ISIZE_MAX, List.length_cons, List.length_nil]
  omega

/-- Two files: `[9]` is a picture of 3000 by 3000, every other one of two pixels. -/
def plainOps : ImageOps (Nat × Nat) (List UInt8) Nat where
  sha256 := id
  decode bytes := .ok (if bytes = [9] then (3000, 3000) else (2, 1))
  dimensions := id
  toGray _ := ⟨2, 1, [0, 255], rfl, pair_bounded⟩
  resize _ _ := ⟨1, 1, [7], rfl, pixel_bounded⟩
  asF64 := id
  megapixels := toString

/-- The two pixels are prepared once and found again. -/
def smallRun : List CacheCall := [.source [1], .prepared [1] (2, 1), .prepared [1] (2, 1)]

theorem smallRun_accounted :
    Machine.Throughout (step plainOps) (Accounted plainOps) {} smallRun ∧
      Machine.Along (step plainOps) (Answers plainOps) {} smallRun := by
  have hfree : CollisionFree plainOps (smallRun.map CacheCall.bytes) := fun _ _ _ _ h => h
  have hrun : ∃ c, Machine.exec (step plainOps) {} smallRun = some c := ⟨_, rfl⟩
  obtain ⟨c, hc⟩ := hrun
  have hprepared : ∀ a ∈ smallRun, ∀ s, Keeps plainOps s a := by
    intro a ha s
    simp only [smallRun, List.mem_cons, List.not_mem_nil, or_false] at ha
    rcases ha with rfl | rfl | rfl
    · trivial
    · rintro _ text - - h
      cases h
    · rintro _ text - - h
      cases h
  exact (accounted_iff_keeps hfree hc).mpr (.of_forall_mem hprepared)

/-- Its source is evicted as soon as it is in; put back by the second function it stays, over the
    limit, when the one pixel it scales to cannot be prepared. -/
def largeRun : List CacheCall := [.source [9], .prepared [9] (1, 1)]

theorem largeRun_not_accounted : ¬ ∀ (O : ImageOps (Nat × Nat) (List UInt8) Nat)
    (as : List CacheCall) (c : TemplateCache (Nat × Nat) (List UInt8) Nat),
    CollisionFree O (as.map CacheCall.bytes) → Machine.exec (step O) {} as = some c →
      Machine.Throughout (step O) (Accounted O) {} as ∧
        Machine.Along (step O) (Answers O) {} as := by
  intro h
  have hend : ∃ c, Machine.exec (step plainOps) {} largeRun = some c ∧ c.totalBytes = 72000000 :=
    Machine.exec_eval (by decide +kernel)
  obtain ⟨c, hrun, htotal⟩ := hend
  have hbytes := ((h plainOps largeRun c (fun _ _ _ _ h => h) hrun).1.finish hrun).limits.bytes
  rw [htotal, TEMPLATE_CACHE_MAX_BYTES] at hbytes
  omega

end Gamer.Matcher
