import Mathlib.Data.List.DropRight
import Mathlib.Algebra.BigOperators.Group.List.Basic
import Mathlib.Algebra.GroupWithZero.Nat
import Mathlib.Tactic.SplitIfs
import Gamer.Lib.Machine

/-! The frames a device's cache keeps: the newest parameter sets, and the pictures since the last key
    frame. What a new viewer is sent first is both of them:

        config ──▶ config_buf (another one: gop := [])
        key    ──▶ gop := [key]
        other  ──▶ gop := gop ++ [frame]  (too long: gop := [])                                 -/

namespace Gamer.Device
open Gamer.Lib

structure VideoFrame where
  data : List UInt8
  ptsUs : Nat
  isConfig : Bool
  isKeyframe : Bool
  annexB : Bool
  deriving DecidableEq

def GOP_MAX_FRAMES : Nat := 800
def GOP_MAX_BYTES : Nat := 64 * 1024 * 1024

/-- The largest `usize`. -/
def USIZE_MAX : Nat := 2 ^ 64 - 1

structure FrameKey where
  snapshotGeneration : Nat
  configGeneration : Nat
  frameSequence : Nat
  deriving DecidableEq

/-- Times are instants of the clock, in microseconds. -/
structure FrameState where
  configBuf : List UInt8 := []
  gop : List VideoFrame := []
  gopBytes : Nat := 0
  frameSequence : Nat := 0
  snapshotGeneration : Nat := 0
  configGeneration : Nat := 0
  latestFrameAt : Option Nat := none
  deriving DecidableEq

namespace FrameState

def observeFrame (s : FrameState) (now : Nat) : FrameState :=
  { s with frameSequence := s.frameSequence + 1, latestFrameAt := some now }

def snapshotChanged (s : FrameState) : FrameState :=
  { s with snapshotGeneration := s.snapshotGeneration + 1 }

def clearGop (s : FrameState) : FrameState := { s with gop := [], gopBytes := 0 }

def key (s : FrameState) : FrameKey := ⟨s.snapshotGeneration, s.configGeneration, s.frameSequence⟩

/-- Parameter sets; the old GOP does not fit to others. -/
def feedConfig (s : FrameState) (frame : VideoFrame) : FrameState :=
  if s.configBuf = [] ∨ s.configBuf ≠ frame.data then
    let s := if s.configBuf ≠ [] then s.clearGop else s
    { s with configGeneration := s.configGeneration + 1, configBuf := frame.data }.snapshotChanged
  else s

def feedPicture (s : FrameState) (frame : VideoFrame) : FrameState :=
  if frame.isKeyframe then
    let s := { s with gop := [frame], gopBytes := frame.data.length }
    if GOP_MAX_BYTES < s.gopBytes then s.clearGop.snapshotChanged else s.snapshotChanged
  else if s.gop ≠ [] then
    let s := { s with
      gop := s.gop ++ [frame], gopBytes := min (s.gopBytes + frame.data.length) USIZE_MAX }
    if GOP_MAX_FRAMES < s.gop.length ∨ GOP_MAX_BYTES < s.gopBytes then s.clearGop.snapshotChanged
    else s
  else s

def feed (s : FrameState) (frame : VideoFrame) (now : Nat) : FrameState :=
  if frame.isConfig then (s.observeFrame now).feedConfig frame
  else (s.observeFrame now).feedPicture frame

def configFrames (s : FrameState) : List VideoFrame :=
  if s.configBuf ≠ [] then [⟨s.configBuf, 0, true, false, true⟩] else []

/-- What a new viewer is sent first. -/
def initialFrames (s : FrameState) : Option (List VideoFrame) :=
  let frames := s.configFrames ++ s.gop
  if frames = [] then none else some frames

/-- The GOP is dropped if its decoding failed and it is still the one that was decoded. -/
def clearGopIfSame (s : FrameState) (key : FrameKey) : Bool × FrameState :=
  if s.gop ≠ [] ∧ s.key = key then (true, s.clearGop.snapshotChanged) else (false, s)

/-- Both generations are those of the key. -/
def isSnapshotCurrent (s : FrameState) (key : FrameKey) : Bool :=
  s.gop ≠ [] && s.snapshotGeneration = key.snapshotGeneration &&
    s.configGeneration = key.configGeneration

end FrameState

/-! ### What was received -/

/-- A key frame that is a picture. -/
def VideoFrame.starts (f : VideoFrame) : Bool := f.isKeyframe && !f.isConfig

def lastKey (received : List VideoFrame) : Option VideoFrame :=
  (received.filter VideoFrame.starts).getLast?

/-- The frames after the last key frame. -/
def sinceKey (received : List VideoFrame) : List VideoFrame :=
  received.rtakeWhile fun f => !f.starts

def pictures (frames : List VideoFrame) : List VideoFrame := frames.filter fun f => !f.isConfig

/-- The cached pictures can be decoded: none is missing since their key frame, and no other parameter
    sets came in between. -/
structure Decodable (received : List VideoFrame) (s : FrameState) : Prop where
  whole : ∃ key, lastKey received = some key ∧ s.gop = key :: pictures (sinceKey received)
  config : ∀ c ∈ sinceKey received, c.isConfig = true → c.data = s.configBuf

structure Replayable (received : List VideoFrame) (s : FrameState) : Prop where
  gop : s.gop = [] ∨ Decodable received s
  bytes : s.gopBytes = (s.gop.map fun f => f.data.length).sum
  frames_le : s.gop.length ≤ GOP_MAX_FRAMES
  bytes_le : s.gopBytes ≤ GOP_MAX_BYTES
  initial : s.initialFrames.getD [] = s.configFrames ++ s.gop ∧
    (s.initialFrames = none ↔ s.configFrames ++ s.gop = [])

/-! ### Runs -/

/-- What may happen to a cache. -/
inductive CacheEvent where
  | feed (frame : VideoFrame) (now : Nat)
  | clearGopIfSame (key : FrameKey)

/-- A cache, with the frames it was fed. -/
structure Fed where
  state : FrameState := {}
  received : List VideoFrame := []

def Fed.step (s : Fed) : CacheEvent → Option Fed
  | .feed frame now => some ⟨s.state.feed frame now, s.received ++ [frame]⟩
  | .clearGopIfSame key => some { s with state := (s.state.clearGopIfSame key).2 }

/-- The buffer can tell that other parameter sets came: it is not empty while empty ones arrived for
    these pictures. -/
def Fed.Tells (s : Fed) : CacheEvent → Prop
  | .feed frame _ => frame.isConfig = true → frame.data ≠ [] → s.state.configBuf = [] →
      s.state.gop ≠ [] → ∀ c ∈ sinceKey s.received, c.isConfig = false
  | .clearGopIfSame _ => True

/-! ### One step -/

variable {received : List VideoFrame} {s : FrameState} {frame : VideoFrame}

theorem lastKey_append (received : List VideoFrame) (frame : VideoFrame) :
    lastKey (received ++ [frame]) = if frame.starts then some frame else lastKey received := by
  rw [lastKey, lastKey, List.filter_append]
  by_cases h : frame.starts = true
  · rw [if_pos h, List.filter_cons_of_pos h, List.filter_nil, List.getLast?_concat]
  · rw [if_neg h, List.filter_cons_of_neg h, List.filter_nil, List.append_nil]

theorem sinceKey_append (received : List VideoFrame) (frame : VideoFrame) :
    sinceKey (received ++ [frame]) = if frame.starts then [] else sinceKey received ++ [frame] := by
  by_cases h : frame.starts = true
  · rw [if_pos h, sinceKey, List.rtakeWhile_concat_neg _ _ _ (by simp [h])]
  · rw [if_neg h, sinceKey, List.rtakeWhile_concat_pos _ _ _ (by simp [h])]
    rfl

theorem starts_of_config (h : frame.isConfig = true) : frame.starts = false := by
  rw [VideoFrame.starts, h]
  cases frame.isKeyframe <;> rfl

theorem starts_of_picture (h : frame.isConfig = false) : frame.starts = frame.isKeyframe := by
  rw [VideoFrame.starts, h]
  cases frame.isKeyframe <;> rfl

/-- What is first sent is the cache, whatever it has. -/
theorem initialFrames_eq (s : FrameState) :
    s.initialFrames.getD [] = s.configFrames ++ s.gop ∧
      (s.initialFrames = none ↔ s.configFrames ++ s.gop = []) := by
  rw [FrameState.initialFrames]
  by_cases h : s.configFrames ++ s.gop = []
  · rw [if_pos h, h]
    exact ⟨rfl, fun _ => rfl, fun _ => rfl⟩
  · rw [if_neg h]
    exact ⟨rfl, fun h' => (by cases h'), fun h' => absurd h' h⟩

/-- An empty cache can be replayed. -/
theorem Replayable.of_empty (hgop : s.gop = []) (hbytes : s.gopBytes = 0) : Replayable received s where
  gop := .inl hgop
  bytes := by rw [hgop, hbytes]; rfl
  frames_le := by rw [hgop]; exact Nat.zero_le _
  bytes_le := by rw [hbytes]; exact Nat.zero_le _
  initial := initialFrames_eq s

/-- What is replayed are the pictures; the rest of the state may change. -/
theorem Replayable.congr {s' : FrameState} (h : Replayable received s) (hgop : s'.gop = s.gop)
    (hbytes : s'.gopBytes = s.gopBytes) {received' : List VideoFrame}
    (hdecodable : Decodable received s → Decodable received' s') : Replayable received' s' where
  gop := h.gop.imp (fun hnil => hgop.trans hnil) hdecodable
  bytes := by rw [hbytes, hgop, h.bytes]
  frames_le := by rw [hgop]; exact h.frames_le
  bytes_le := by rw [hbytes]; exact h.bytes_le
  initial := initialFrames_eq s'

/-- STEP: parameter sets keep the cache replayable exactly if the buffer tells them from those that
    came before. -/
theorem feedConfig_iff (h : Replayable received s) (hconfig : frame.isConfig = true) :
    Replayable (received ++ [frame]) (s.feedConfig frame) ↔
      (frame.data ≠ [] → s.configBuf = [] → s.gop ≠ [] →
        ∀ c ∈ sinceKey received, c.isConfig = false) := by
  have hkey : lastKey (received ++ [frame]) = lastKey received := by
    rw [lastKey_append, starts_of_config hconfig, if_neg (by decide)]
  have hsince : sinceKey (received ++ [frame]) = sinceKey received ++ [frame] := by
    rw [sinceKey_append, starts_of_config hconfig, if_neg (by decide)]
  have hpictures : pictures (sinceKey (received ++ [frame])) = pictures (sinceKey received) := by
    rw [hsince, pictures, List.filter_append, List.filter_cons_of_neg (by simp [hconfig]),
      List.filter_nil, List.append_nil]
    rfl
  have hkeep : ∀ s' : FrameState, s'.gop = s.gop → s'.gopBytes = s.gopBytes →
      s'.configBuf = frame.data → (∀ c ∈ sinceKey received, c.isConfig = true →
        c.data = s.configBuf → c.data = frame.data) → Replayable (received ++ [frame]) s' := by
    intro s' hgop hbytes hbuf hsame
    refine h.congr hgop hbytes fun hdecodable => ⟨?_, fun c hc hisConfig => ?_⟩
    · obtain ⟨key, hlast, hwhole⟩ := hdecodable.whole
      exact ⟨key, hkey.trans hlast, by rw [hgop, hwhole, hpictures]⟩
    · rw [hsince] at hc
      rcases List.mem_append.mp hc with hc | hc
      · exact (hsame c hc hisConfig (hdecodable.config c hc hisConfig)).trans hbuf.symm
      · rw [List.mem_singleton.mp hc, hbuf]
  rw [FrameState.feedConfig]
  by_cases hempty : s.configBuf = []
  · rw [if_pos (.inl hempty), if_neg (not_not_intro hempty)]
    constructor
    · intro hafter hdata _ hgop c hc
      rcases hafter.gop with hnil | hdecodable
      · exact absurd hnil hgop
      by_contra hisConfig
      rw [Bool.not_eq_false] at hisConfig
      have hold : c.data = [] := by
        rcases h.gop with hnil | hbefore
        · exact absurd hnil hgop
        · exact (hbefore.config c hc hisConfig).trans hempty
      have hnew : c.data = frame.data :=
        hdecodable.config c (hsince ▸ List.mem_append_left _ hc) hisConfig
      exact hdata (hnew.symm.trans hold)
    · intro htells
      by_cases hgop : s.gop = []
      · have hbytes : s.gopBytes = 0 := by rw [h.bytes, hgop]; rfl
        exact .of_empty hgop hbytes
      refine hkeep _ rfl rfl rfl fun c hc hisConfig hold => ?_
      by_cases hdata : frame.data = []
      · rw [hold, hempty, hdata]
      · rw [htells hdata hempty hgop c hc] at hisConfig
        cases hisConfig
  · refine ⟨fun _ _ hnil => absurd hnil hempty, fun _ => ?_⟩
    by_cases hsame : s.configBuf = frame.data
    · rw [if_neg (not_or.mpr ⟨hempty, not_not_intro hsame⟩)]
      exact hkeep s rfl rfl hsame fun c _ _ hold => hold.trans hsame
    · rw [if_pos (.inr hsame), if_pos hempty]
      exact .of_empty rfl rfl

/-- STEP: a picture keeps it replayable. -/
theorem feedPicture_replayable (h : Replayable received s) (hpicture : frame.isConfig = false) :
    Replayable (received ++ [frame]) (s.feedPicture frame) := by
  have hstarts := starts_of_picture hpicture
  rw [FrameState.feedPicture]
  by_cases hkey : frame.isKeyframe = true
  · rw [if_pos hkey]
    dsimp only
    split_ifs with hbig
    · exact .of_empty rfl rfl
    · have hlast : lastKey (received ++ [frame]) = some frame := by
        rw [lastKey_append, hstarts, if_pos hkey]
      have hsince : sinceKey (received ++ [frame]) = [] := by
        rw [sinceKey_append, hstarts, if_pos hkey]
      exact ⟨.inr ⟨⟨frame, hlast, by rw [hsince]; rfl⟩, by rw [hsince]; simp⟩, by
        simp [FrameState.snapshotChanged], by simp [FrameState.snapshotChanged, GOP_MAX_FRAMES],
        Nat.not_lt.mp hbig, initialFrames_eq _⟩
  · rw [if_neg hkey]
    dsimp only
    have hlast : lastKey (received ++ [frame]) = lastKey received := by
      rw [lastKey_append, hstarts, if_neg hkey]
    have hsince : sinceKey (received ++ [frame]) = sinceKey received ++ [frame] := by
      rw [sinceKey_append, hstarts, if_neg hkey]
    split_ifs with hgop hbig
    · exact .of_empty rfl rfl
    · obtain ⟨hframes, hbytes⟩ := not_or.mp hbig
      have hmin : min (s.gopBytes + frame.data.length) USIZE_MAX = s.gopBytes + frame.data.length := by
        have hlt : ¬ USIZE_MAX ≤ GOP_MAX_BYTES := by decide
        have hle : min (s.gopBytes + frame.data.length) USIZE_MAX ≤ GOP_MAX_BYTES :=
          Nat.not_lt.mp hbytes
        omega
      have hdecodable : Decodable received s := h.gop.resolve_left hgop
      obtain ⟨key, hkeyLast, hwhole⟩ := hdecodable.whole
      refine ⟨.inr ⟨⟨key, hlast.trans hkeyLast, ?_⟩, fun c hc hisConfig => ?_⟩, ?_,
        Nat.not_lt.mp hframes, Nat.not_lt.mp hbytes, initialFrames_eq _⟩
      · show s.gop ++ [frame] = _
        rw [hwhole, hsince, pictures, pictures, List.filter_append,
          List.filter_cons_of_pos (by simp [hpicture]), List.filter_nil, List.cons_append]
      · rw [hsince] at hc
        rcases List.mem_append.mp hc with hc | hc
        · exact hdecodable.config c hc hisConfig
        · rw [List.mem_singleton.mp hc, hpicture] at hisConfig
          cases hisConfig
      · show min (s.gopBytes + frame.data.length) USIZE_MAX = _
        rw [hmin, h.bytes]
        simp
    · have hnil : s.gop = [] := Decidable.of_not_not hgop
      exact .of_empty hnil (by rw [h.bytes, hnil]; rfl)

/-- STEP: and exactly the parameter sets that the buffer does not tell apart are what breaks it. -/
theorem replayable_step {s s' : Fed} {e : CacheEvent} (h : Replayable s.received s.state)
    (hstep : s.step e = some s') : Replayable s'.received s'.state ↔ s.Tells e := by
  cases e with
  | feed frame now =>
    cases hstep
    have hgop : (s.state.observeFrame now).gop = s.state.gop := rfl
    have hobserved : Replayable s.received (s.state.observeFrame now) :=
      h.congr hgop rfl fun hdecodable => ⟨hdecodable.whole, hdecodable.config⟩
    show Replayable (s.received ++ [frame]) (s.state.feed frame now) ↔ (_ → _)
    rw [FrameState.feed]
    by_cases hconfig : frame.isConfig = true
    · rw [if_pos hconfig, feedConfig_iff hobserved hconfig]
      exact ⟨fun htells _ => htells, fun htells => htells hconfig⟩
    · rw [if_neg hconfig]
      exact ⟨fun _ hyes => absurd hyes hconfig,
        fun _ => feedPicture_replayable hobserved (Bool.eq_false_iff.mpr hconfig)⟩
  | clearGopIfSame key =>
    cases hstep
    refine ⟨fun _ => trivial, fun _ => ?_⟩
    show Replayable s.received (s.state.clearGopIfSame key).2
    rw [FrameState.clearGopIfSame]
    split_ifs
    · exact .of_empty rfl rfl
    · exact h

/-- The cache can be replayed all along a run exactly if no parameter sets come that the buffer does
    not tell from empty ones that came for the same pictures. -/
theorem replayable_iff_tells (events : List CacheEvent) :
    Machine.Throughout Fed.step (fun s => Replayable s.received s.state) {} events ↔
      Machine.Along Fed.step Fed.Tells {} events := by
  have htotal : ∀ (s : Fed) (e : CacheEvent), ∃ s', s.step e = some s' := by
    rintro s (⟨frame, now⟩ | key)
    · exact ⟨_, rfl⟩
    · exact ⟨_, rfl⟩
  obtain ⟨s, hrun⟩ := Machine.exec_total htotal {} events
  exact Machine.throughout_iff_along (I := fun _ => True) (A := fun _ _ => True)
    (fun _ _ _ _ h _ hstep => ⟨replayable_step h hstep, fun _ => trivial⟩) hrun
    (.of_forall fun _ _ => trivial) trivial (.of_empty rfl rfl)

/-- A key frame, empty parameter sets, and others. -/
def emptyThenOther : List CacheEvent :=
  [.feed ⟨[101], 0, false, true, true⟩ 0, .feed ⟨[], 0, true, false, true⟩ 1,
    .feed ⟨[103], 0, true, false, true⟩ 2]

theorem empty_config_kept :
    ¬ Machine.Throughout Fed.step (fun s => Replayable s.received s.state) {} emptyThenOther := by
  intro h
  have hrun : Machine.exec Fed.step {} emptyThenOther = some
      ⟨⟨[103], [⟨[101], 0, false, true, true⟩], 1, 3, 3, 2, some 2⟩,
        [⟨[101], 0, false, true, true⟩, ⟨[], 0, true, false, true⟩,
          ⟨[103], 0, true, false, true⟩]⟩ := rfl
  have hlast := h.finish hrun
  rcases hlast.gop with hnil | hdecodable
  · cases hnil
  · have hdata := hdecodable.config ⟨[], 0, true, false, true⟩ (by decide) rfl
    cases hdata

end Gamer.Device
