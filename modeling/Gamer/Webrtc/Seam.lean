import Gamer.Webrtc.Pusher

/-! What lies between the device and the pusher: no frame is missing in it, and a key frame in it
    stands behind the config frame it needs.

        pusher ◀── queue ◀── channel ◀── in flight ◀── device
        knows c     c' K P     P c'' K       P          newest = c''

    The cache mirrors the newest end of the line, so an initial snapshot joins the line without a
    gap if nothing is under way when it is taken. -/

namespace Gamer.Webrtc
open Gamer.Lib

/-! ### Config frames along the line -/

@[simp] theorem lastConfig_nil (known : Option Bytes) : lastConfig known [] = known := rfl

theorem lastConfig_append (known : Option Bytes) (fs gs : List Emitted) :
    lastConfig known (fs ++ gs) = lastConfig (lastConfig known fs) gs := by
  induction fs generalizing known with
  | nil => rfl
  | cons f fs ih => exact ih _

theorem lastConfig_isSome {known : Option Bytes} {fs : List Emitted} (h : known.isSome) :
    (lastConfig known fs).isSome := by
  induction fs generalizing known with
  | nil => exact h
  | cons f fs ih =>
    apply ih
    cases f.isConfig <;> simp [h]

/-- Behind a line without config frames the one known before is the newest. -/
theorem lastConfig_of_none {known known' : Option Bytes} {fs : List Emitted}
    (h : lastConfig known fs = none) : lastConfig known' fs = known' := by
  induction fs generalizing known known' with
  | nil => rfl
  | cons f fs ih =>
    cases hf : f.isConfig with
    | true =>
      have hsome : (lastConfig (some f.data) fs).isSome := lastConfig_isSome rfl
      simp [lastConfig, hf] at h
      simp [h] at hsome
    | false =>
      simp only [lastConfig, hf] at h ⊢
      exact ih h

/-- Whatever was known before, the newest config frame of the line stays the newest. -/
theorem lastConfig_self {known newest : Option Bytes} {fs : List Emitted}
    (h : lastConfig known fs = newest) : lastConfig newest fs = newest := by
  induction fs generalizing known with
  | nil => rfl
  | cons f fs ih =>
    cases hf : f.isConfig with
    | true => simpa [lastConfig, hf] using h
    | false =>
      simp only [lastConfig, hf] at h ⊢
      exact ih h

/-- Every key frame of the line stands behind the config frame it needs, if the pusher or the line
    has any before it. -/
def Fits : Option Bytes → List Emitted → Prop
  | _, [] => True
  | known, f :: fs =>
    if f.isConfig then Fits (some f.data) fs
    else (f.isKeyframe = true → f.newest = none ∨ known = none ∨ known = f.newest) ∧ Fits known fs

theorem fits_append {known : Option Bytes} {fs gs : List Emitted} :
    Fits known (fs ++ gs) ↔ Fits known fs ∧ Fits (lastConfig known fs) gs := by
  induction fs generalizing known with
  | nil => simp [Fits]
  | cons f fs ih => cases hf : f.isConfig <;> simp [Fits, lastConfig, hf, ih, and_assoc]

/-- The line fits another known config frame that all its key frames need. -/
theorem Fits.reset {known known' : Option Bytes} {fs : List Emitted} (h : Fits known fs)
    (hkeys : ∀ f ∈ pictures fs, f.isKeyframe = true → f.newest = none ∨ f.newest = known') :
    Fits known' fs := by
  induction fs generalizing known with
  | nil => trivial
  | cons f fs ih =>
    cases hf : f.isConfig with
    | true => simpa [Fits, hf] using h
    | false =>
      rw [pictures_cons_picture hf] at hkeys
      simp only [Fits, hf] at h ⊢
      refine ⟨fun hkey => ?_, ih h.2 fun g hg => hkeys g (List.mem_cons_of_mem _ hg)⟩
      rcases hkeys f (by simp) hkey with hnone | heq
      · exact Or.inl hnone
      · exact Or.inr (Or.inr heq.symm)

/-- No config frame of the queue stands behind a key frame that needs another one, and every key
    frame that needs one has one before it. -/
def orderly : Option Bytes → Bool → List Emitted → Bool
  | _, _, [] => true
  | known, seen, f :: fs =>
    if f.isConfig then (!seen || known == some f.data) && orderly (some f.data) seen fs
    else if f.isKeyframe then
      (known.isSome || f.newest.isNone) && orderly known (seen || known.isSome) fs
    else orderly known seen fs

theorem orderly_lastConfig {known : Option Bytes} {fs : List Emitted} (hk : known.isSome)
    (h : orderly known true fs = true) : lastConfig known fs = known := by
  induction fs generalizing known with
  | nil => rfl
  | cons f fs ih =>
    simp only [orderly] at h
    simp only [lastConfig]
    split at h
    · rename_i hf
      simp only [Bool.not_true, Bool.false_or, Bool.and_eq_true, beq_iff_eq] at h
      rw [if_pos hf, h.1]
      exact ih rfl h.2
    · rename_i hf
      rw [if_neg hf]
      split at h
      · simp only [Bool.true_or, Bool.and_eq_true] at h
        exact ih hk h.2
      · exact ih hk h

/-- The key frames of an orderly queue need the newest config frame of the queue. -/
theorem Fits.keys {known : Option Bytes} {seen : Bool} {fs : List Emitted} (h : Fits known fs)
    (ho : orderly known seen fs = true) {f : Emitted} (hf : f ∈ pictures fs)
    (hkey : f.isKeyframe = true) : f.newest = none ∨ lastConfig known fs = f.newest := by
  induction fs generalizing known seen with
  | nil => simp at hf
  | cons g fs ih =>
    cases hg : g.isConfig with
    | true =>
      rw [pictures_cons_config hg] at hf
      simp only [Fits, orderly, lastConfig, hg, if_true, Bool.and_eq_true] at h ho ⊢
      exact ih h ho.2 hf
    | false =>
      rw [pictures_cons_picture hg, List.mem_cons] at hf
      simp only [Fits, orderly, lastConfig, hg, Bool.false_eq_true, if_false] at h ho ⊢
      rcases hf with rfl | hf
      · simp only [hkey, if_true, Bool.and_eq_true, Bool.or_eq_true] at ho
        rcases h.1 hkey with hnone | hnone | heq
        · exact Or.inl hnone
        · simp [hnone] at ho
          exact Or.inl ho.1
        · rcases ho.1 with hsome | hnone
          · refine Or.inr ((orderly_lastConfig hsome ?_).trans heq)
            simpa [hsome] using ho.2
          · exact Or.inl (by simpa using hnone)
      · split at ho
        · exact ih h.2 (Bool.and_eq_true _ _ ▸ ho).2 hf
        · exact ih h.2 ho hf

/-! ### The cache -/

/-- INVARIANT: the cache holds the newest config frame and a run of frames up to the newest, whose
    key frame needs no other config frame. -/
structure FrameCache.Sound (c : FrameCache) (count : Nat) (newest : Option Bytes) : Prop where
  config : c.config = newest
  gop : c.gop = [] ∨ ∃ a, Chain.Run coding a c.gop count
  pictures : ∀ f ∈ c.gop, f.isConfig = false
  keys : ∀ f ∈ c.gop, f.isKeyframe = true → f.newest = none ∨ f.newest = newest

theorem FrameCache.sound_empty : FrameCache.Sound {} 0 none :=
  ⟨rfl, Or.inl rfl, by simp, by simp⟩

theorem FrameCache.Sound.config_eq {c : FrameCache} {count : Nat} {newest : Option Bytes}
    (h : c.Sound count newest) :
    (c.configBuf = [] ∧ newest = none) ∨ (c.configBuf ≠ [] ∧ newest = some c.configBuf) := by
  have hc := h.config
  cases hb : c.configBuf <;> simp_all [FrameCache.config]

/-- STEP: the cache is fed with a config frame. -/
theorem FrameCache.Sound.feed_config {c : FrameCache} {count : Nat} {newest : Option Bytes}
    (h : c.Sound count newest) {f : Emitted} (hf : f.isConfig = true) (hdata : f.data ≠ []) :
    (c.feed f).Sound count (some f.data) := by
  rcases h.config_eq with ⟨hbuf, rfl⟩ | ⟨hbuf, rfl⟩
  · have hnone : ∀ g ∈ c.gop, g.isKeyframe = true → g.newest = none := by
      intro g hg hkey
      rcases h.keys g hg hkey with hnone | hnone <;> exact hnone
    simp only [FrameCache.feed, hf, if_true, hbuf, List.isEmpty_nil, Bool.true_or]
    exact ⟨by simp [FrameCache.config, hdata], h.gop, h.pictures,
      fun g hg hkey => Or.inl (hnone g hg hkey)⟩
  · by_cases heq : c.configBuf = f.data
    · have hsame : c.feed f = c := by simp [FrameCache.feed, hf, ← heq, hbuf]
      rw [hsame, ← heq]
      exact h
    · have hnew : c.feed f = { configBuf := f.data, gop := [] } := by
        simp [FrameCache.feed, hf, heq, hbuf]
      rw [hnew]
      exact ⟨by simp [FrameCache.config, hdata], Or.inl rfl, by simp, by simp⟩

/-- STEP: the cache is fed with the next frame that carries a picture. -/
theorem FrameCache.Sound.feed_picture {c : FrameCache} {count : Nat} {newest : Option Bytes}
    (h : c.Sound count newest) {f : Emitted} (hf : f.isConfig = false) (hno : f.no = count)
    (hnew : f.newest = newest) : (c.feed f).Sound (count + 1) newest := by
  have hempty : FrameCache.Sound ⟨c.configBuf, []⟩ (count + 1) newest :=
    ⟨h.config, Or.inl rfl, by simp, by simp⟩
  simp only [FrameCache.feed, hf, Bool.false_eq_true, if_false]
  split
  · split
    · exact hempty
    · exact ⟨h.config, Or.inr ⟨count, by simp [hno]⟩, by simpa using hf, by simp [hnew]⟩
  · split
    · rename_i hgop
      exact ⟨h.config, Or.inl (by simpa using hgop), h.pictures, h.keys⟩
    · rename_i hgop
      obtain ⟨a, hrun⟩ := h.gop.resolve_left (by simpa using hgop)
      split
      · exact hempty
      · refine ⟨h.config, Or.inr ⟨a, hrun.snoc hno⟩, ?_, ?_⟩
        · simpa [or_imp, forall_and, hf] using h.pictures
        · simpa [or_imp, forall_and, hnew] using h.keys

/-! ### The line -/

/-- INVARIANT: the frames on their way are those from `front` on, and fit what the pusher knows. -/
structure Feed.Sound (s : Feed) (front : Nat) (known : Option Bytes) : Prop where
  cache : ∀ c, s.cache = some c → c.Sound s.count s.newest
  run : Chain.Run coding front (pictures s.pipe) s.count
  fits : Fits known s.pipe
  newest : lastConfig known s.pipe = s.newest ∨ lastConfig known s.pipe = none

/-- FRAME: the cache and the device's side of the line are all that a new frame changes. -/
theorem Feed.feed_frame {s s' : Feed} {frame : VideoFrame} (hs : s.feed frame = some s') :
    s'.overflowed = s.overflowed ∧ s'.channel = s.channel ∧ s'.queue = s.queue ∧
      s'.subscribed = s.subscribed := by
  cases hin : s.inflight with
  | some f => simp [Feed.feed, hin] at hs
  | none =>
    simp only [Feed.feed, hin, Option.some.injEq] at hs
    subst hs
    exact ⟨rfl, rfl, rfl, rfl⟩

/-- FRAME: a broadcast leaves the queue alone, and without a subscriber the channel too. -/
theorem Feed.publish_frame {s s' : Feed} (hs : s.publish = some s') :
    s'.overflowed = s.overflowed ∧ s'.queue = s.queue ∧ s'.subscribed = s.subscribed ∧
      (s.subscribed = false → s' = { s with inflight := none }) := by
  cases hin : s.inflight with
  | none => simp [Feed.publish, hin] at hs
  | some f =>
    cases hsub : s.subscribed <;> simp only [Feed.publish, hin, hsub, if_true, Bool.false_eq_true,
      if_false, Option.some.injEq] at hs <;> subst hs <;> simp

/-- FRAME: what is forwarded was in the channel. -/
theorem Feed.forward_frame {s s' : Feed} (hs : s.forward = some s') :
    s.channel ≠ [] ∧ s'.subscribed = s.subscribed := by
  cases hch : s.channel with
  | nil => simp [Feed.forward, hch] at hs
  | cons f rest =>
    simp only [Feed.forward, hch] at hs
    split at hs <;> cases hs <;> simp

/-- STEP: the device emits a frame. -/
theorem Feed.Sound.feed {s s' : Feed} {front : Nat} {known : Option Bytes}
    (h : s.Sound front known) {frame : VideoFrame} (hdata : frame.isConfig = true → frame.data ≠ [])
    (hs : s.feed frame = some s') : s'.Sound front known := by
  obtain ⟨hcache, hrun, hfits, hnewest⟩ := h
  cases hin : s.inflight with
  | some f => simp [Feed.feed, hin] at hs
  | none =>
    simp only [Feed.feed, hin, Option.some.injEq] at hs
    subst hs
    simp only [Feed.pipe, hin, Option.toList_none, List.append_nil] at hrun hfits hnewest
    cases hf : frame.isConfig with
    | true =>
      refine ⟨?_, ?_, ?_, ?_⟩
      · intro c hc
        obtain ⟨c₀, hc₀, rfl⟩ := Option.map_eq_some_iff.mp hc
        simpa [hf] using (hcache c₀ hc₀).feed_config
          (f := { frame with no := s.count, newest := s.newest }) hf (hdata hf)
      · simpa [Feed.pipe, hf, pictures_cons_config] using hrun
      · simp [Feed.pipe, fits_append, Fits, hf, fits_append.mp hfits]
      · left
        simp [Feed.pipe, lastConfig_append, lastConfig, hf]
    | false =>
      refine ⟨?_, ?_, ?_, ?_⟩
      · intro c hc
        obtain ⟨c₀, hc₀, rfl⟩ := Option.map_eq_some_iff.mp hc
        simpa [hf] using (hcache c₀ hc₀).feed_picture
          (f := { frame with no := s.count, newest := s.newest }) hf rfl rfl
      · have hend : Chain.Run coding s.count
            [{ frame with no := s.count, newest := s.newest }] (s.count + 1) := by simp
        simp only [Feed.pipe, Option.toList_some, pictures_append]
        rw [← pictures_append, pictures_cons_picture hf, pictures_nil]
        exact Chain.run_append.mpr ⟨_, hrun, hend⟩
      · simp only [Feed.pipe, Option.toList_some]
        refine fits_append.mpr ⟨hfits, ?_⟩
        simp only [Fits, hf]
        refine ⟨fun _ => ?_, trivial⟩
        rcases hnewest with heq | hnone
        · exact Or.inr (Or.inr heq)
        · exact Or.inr (Or.inl hnone)
      · simpa [Feed.pipe, lastConfig_append, lastConfig, hf] using hnewest

/-- STEP: a frame is broadcast while nobody listens. -/
theorem Feed.Sound.unheard {s : Feed} {front : Nat} (h : s.Sound front none)
    (hch : s.channel = []) (hq : s.queue = []) :
    Feed.Sound { s with inflight := none } s.count none :=
  ⟨h.cache, by simp [Feed.pipe, hch, hq], by simp [Feed.pipe, hch, hq, Fits],
    by simp [Feed.pipe, hch, hq]⟩

/-- STEP: a frame is broadcast to a subscriber that keeps up. -/
theorem Feed.Sound.publish {s s' : Feed} {front : Nat} {known : Option Bytes}
    (h : s.Sound front known) (hsub : s.subscribed = true)
    (hcap : s.channel.length < BROADCAST_CAP) (hs : s.publish = some s') :
    s'.Sound front known := by
  cases hin : s.inflight with
  | none => simp [Feed.publish, hin] at hs
  | some f =>
    simp only [Feed.publish, hin, hsub, hcap, if_true, Option.some.injEq] at hs
    have hpipe : s'.pipe = s.pipe := by subst hs; simp [Feed.pipe, hin]
    obtain ⟨hcache, hrun, hfits, hnewest⟩ := h
    rw [← hpipe] at hrun hfits hnewest
    subst hs
    exact ⟨hcache, hrun, hfits, hnewest⟩

/-- STEP: a frame is forwarded to the ring queue. What a full ring drops is behind the front
    afterwards, and a config frame it drops is one the pusher knows. -/
theorem Feed.Sound.forward {s s' : Feed} {front : Nat} {known : Option Bytes}
    (h : s.Sound front known) (hdrop : s.queue.length ≥ QUEUE_CAP → ∀ f, s.queue.head? = some f →
      f.isConfig = true → known = some f.data) (hs : s.forward = some s') :
    (s'.overflowed = s.overflowed ∧ s'.Sound front known) ∨
    (s'.overflowed = true ∧ ∃ front', front ≤ front' ∧ s'.Sound front' known) := by
  obtain ⟨hcache, hrun, hfits, hnewest⟩ := h
  cases hch : s.channel with
  | nil => simp [Feed.forward, hch] at hs
  | cons f rest =>
    by_cases hfull : s.queue.length ≥ QUEUE_CAP
    · simp only [Feed.forward, hch, hfull, if_true, Option.some.injEq] at hs
      obtain ⟨g, q, hq⟩ : ∃ g q, s.queue = g :: q := by
        cases hq : s.queue with
        | nil => simp [hq, QUEUE_CAP] at hfull
        | cons g q => exact ⟨g, q, rfl⟩
      have hknown := hdrop hfull g (by simp [hq])
      have hpipe : s.pipe = g :: s'.pipe := by subst hs; simp [Feed.pipe, hq, hch]
      rw [hpipe] at hrun hfits hnewest
      have hover : s'.overflowed = true := by subst hs; rfl
      refine Or.inr ⟨hover, ?_⟩
      cases hg : g.isConfig with
      | true =>
        rw [pictures_cons_config hg] at hrun
        simp only [Fits, lastConfig, hg, if_true, ← hknown hg] at hfits hnewest
        subst hs
        exact ⟨front, Nat.le_refl _, hcache, hrun, hfits, hnewest⟩
      | false =>
        rw [pictures_cons_picture hg] at hrun
        simp only [Fits, lastConfig, hg, Bool.false_eq_true, if_false] at hfits hnewest
        subst hs
        exact ⟨front + 1, by omega, hcache, hrun.2, hfits.2, hnewest⟩
    · simp only [Feed.forward, hch, hfull, if_false, Option.some.injEq] at hs
      have hpipe : s'.pipe = s.pipe := by subst hs; simp [Feed.pipe, hch]
      rw [← hpipe] at hrun hfits hnewest
      have hover : s'.overflowed = s.overflowed := by subst hs; rfl
      refine Or.inl ⟨hover, ?_⟩
      subst hs
      exact ⟨hcache, hrun, hfits, hnewest⟩

/-- STEP: the pusher takes the whole queue. -/
theorem Feed.Sound.drained {s : Feed} {front : Nat} {known : Option Bytes}
    (h : s.Sound front known) (over' : Bool) :
    ∃ m, Chain.Run coding front (pictures s.queue) m ∧ Fits known s.queue ∧
      Feed.Sound { s with queue := [], overflowed := over' } m (lastConfig known s.queue) := by
  obtain ⟨hcache, hrun, hfits, hnewest⟩ := h
  rw [Feed.pipe, List.append_assoc] at hrun hfits hnewest
  rw [pictures_append] at hrun
  rw [lastConfig_append] at hnewest
  obtain ⟨m, hqueue, hrest⟩ := Chain.run_append.mp hrun
  exact ⟨m, hqueue, (fits_append.mp hfits).1, hcache, by simpa [Feed.pipe] using hrest,
    by simpa [Feed.pipe] using (fits_append.mp hfits).2, by simpa [Feed.pipe] using hnewest⟩

end Gamer.Webrtc
