import Gamer.Device.Frames
import Gamer.Device.Ppm
import Gamer.Lib.Token

/-! Pictures on demand. A call takes a snapshot of the frames, and shows what was decoded before, if
    the generations are the same and it is fresh, or has the snapshot decoded and keeps the result:

        take ──▶ check ──▶ read cache ──hit──────────────────────────────▶ shown
                   │           │ miss
                   └───────────┴──▶ decode ──▶ verify ──▶ check ──▶ store ──▶ shown
                                      │ error     └─ stale: take again, once
                                      └──▶ clear the GOP: take again, once                   -/

namespace Gamer.Device
open Gamer.Lib Gamer.Lib.Token

structure FrameSnapshot where
  key : FrameKey
  config : List UInt8
  gop : List VideoFrame
  frameSequence : Nat
  latestFrameAt : Nat
  deriving DecidableEq

def FrameState.snapshot (s : FrameState) : Option FrameSnapshot :=
  if s.gop = [] then none
  else s.latestFrameAt.map fun at_ => ⟨s.key, s.configBuf, s.gop, s.frameSequence, at_⟩

/-- A decoded picture that is kept. The snapshot it was decoded from is carried for the statements
    and read by no function. -/
structure DecodedResultCacheEntry where
  key : FrameKey
  frame : DecodedScreen
  completedAt : Nat
  source : FrameSnapshot
  deriving DecidableEq

/-- What a call returns. The snapshot that was decoded and the state in which it was checked are
    carried for the statements. -/
structure ShownScreen where
  frame : DecodedScreen
  instant : Nat
  source : FrameSnapshot
  seen : FrameState
  deriving DecidableEq

/-- Where a call of `decode_latest_frame_timestamped` is. -/
inductive ShotPhase where
  | waiting
  | taken (snap : FrameSnapshot)
  | current (snap : FrameSnapshot) (seen : FrameState)
  | requesting (snap : FrameSnapshot)
  | decoding (snap source : FrameSnapshot)
  | decoded (snap source : FrameSnapshot)
  | verified (snap source : FrameSnapshot) (seen : FrameState)
  | storing (snap source : FrameSnapshot) (seen : FrameState)
  | failed (snap : FrameSnapshot)
  | returned (shown : Option ShownScreen)
  | error
  deriving DecidableEq

/-- A call. Which number of a frame had been shown when the call came is carried for the
    statements. -/
structure Shot where
  floor : Nat
  retried : Bool := false
  refreshed : Bool := false
  phase : ShotPhase := .waiting
  deriving DecidableEq

/-- The cache of a device with its calls. The frames that were received, with their times, the
    snapshots that were taken and the largest number that was shown are carried for the
    statements. -/
structure ScreenCache where
  freshness : Nat
  state : FrameState := {}
  fed : List (VideoFrame × Nat) := []
  decodedResult : Option DecodedResultCacheEntry := none
  requests : List FrameSnapshot := []
  snapshots : List FrameSnapshot := []
  shots : List Shot := []
  newest : Nat := 0
  deriving DecidableEq

inductive ScreenMove where
  | feed (frame : VideoFrame) (now : Nat)
  | start
  | take (shot : Nat)
  | giveUp (shot : Nat)
  | check (shot : Nat)
  | readCache (shot : Nat) (now : Nat)
  | request (shot : Nat)
  | join (shot request : Nat)
  | answer (shot : Nat) (works : Bool)
  | verify (shot : Nat)
  | checkAgain (shot : Nat)
  | store (shot : Nat) (now : Nat)
  | clear (shot : Nat)

namespace ScreenCache
variable (decode : List UInt8 → List VideoFrame → DecodedScreen) (s : ScreenCache)

def setPhase (shot : Nat) (sh : Shot) (phase : ShotPhase) : ScreenCache :=
  { s with shots := s.shots.set shot { sh with phase := phase } }

/-- The call returns a picture. -/
def show_ (shot : Nat) (sh : Shot) (shown : ShownScreen) : ScreenCache :=
  { s.setPhase shot sh (.returned (some shown)) with
    newest := max s.newest shown.source.frameSequence }

def feed (frame : VideoFrame) (now : Nat) : ScreenCache :=
  { s with state := s.state.feed frame now, fed := s.fed ++ [(frame, now)] }

def start : ScreenCache := { s with shots := s.shots ++ [{ floor := s.newest }] }

/-- `await_gop` finds frames. -/
def take (shot : Nat) (sh : Shot) : Option ScreenCache :=
  match sh.phase with
  | .waiting => s.state.snapshot.map fun snap =>
    { s.setPhase shot sh (.taken snap) with snapshots := s.snapshots ++ [snap] }
  | _ => none

/-- `await_gop` comes to its deadline. -/
def giveUp (shot : Nat) (sh : Shot) : Option ScreenCache :=
  match sh.phase with
  | .waiting => some (s.setPhase shot sh (if sh.retried then .error else .returned none))
  | _ => none

/-- The first section of `cached_decoded_frame`. -/
def check (shot : Nat) (sh : Shot) : Option ScreenCache :=
  match sh.phase with
  | .taken snap => some (s.setPhase shot sh
      (if s.state.isSnapshotCurrent snap.key then .current snap s.state else .requesting snap))
  | _ => none

/-- The kept picture is of the generations of the key. -/
def cached (key : FrameKey) : Option DecodedResultCacheEntry :=
  s.decodedResult.filter fun entry =>
    entry.key.snapshotGeneration = key.snapshotGeneration &&
      entry.key.configGeneration = key.configGeneration

/-- The second one: the kept picture if it is fresh; one that is not is dropped. -/
def readCache (shot : Nat) (sh : Shot) (now : Nat) : Option ScreenCache :=
  match sh.phase with
  | .current snap seen =>
    match s.cached snap.key with
    | none => some (s.setPhase shot sh (.requesting snap))
    | some entry =>
      if now - entry.completedAt ≤ s.freshness then
        some (s.show_ shot sh ⟨entry.frame, snap.latestFrameAt, entry.source, seen⟩)
      else some { s.setPhase shot sh (.requesting snap) with decodedResult := none }
  | _ => none

/-- The call is the first to have this snapshot decoded. -/
def request (shot : Nat) (sh : Shot) : Option ScreenCache :=
  match sh.phase with
  | .requesting snap =>
    some { s.setPhase shot sh (.decoding snap snap) with requests := s.requests ++ [snap] }
  | _ => none

/-- The call shares a request with the same key. -/
def join (shot : Nat) (sh : Shot) (request : Nat) : Option ScreenCache :=
  match sh.phase with
  | .requesting snap => (s.requests[request]?).bind fun source =>
    if source.key = snap.key then some (s.setPhase shot sh (.decoding snap source)) else none
  | _ => none

def answer (shot : Nat) (sh : Shot) (works : Bool) : Option ScreenCache :=
  match sh.phase with
  | .decoding snap source =>
    some (s.setPhase shot sh (if works then .decoded snap source else .failed snap))
  | _ => none

/-- A picture of frames that were replaced is not shown; the call tries once more. -/
def verify (shot : Nat) (sh : Shot) : Option ScreenCache :=
  match sh.phase with
  | .decoded snap source =>
    if s.state.isSnapshotCurrent snap.key then
      some (s.setPhase shot sh (.verified snap source s.state))
    else if sh.refreshed then some (s.setPhase shot sh (.returned none))
    else some (s.setPhase shot { sh with refreshed := true } .waiting)
  | _ => none

/-- The first section of `store_decoded_frame`. -/
def checkAgain (shot : Nat) (sh : Shot) : Option ScreenCache :=
  match sh.phase with
  | .verified snap source seen =>
    if s.state.isSnapshotCurrent snap.key then some (s.setPhase shot sh (.storing snap source seen))
    else some (s.show_ shot sh
      ⟨decode source.config source.gop, snap.latestFrameAt, source, seen⟩)
  | _ => none

/-- The second one, and the end of the call. -/
def store (shot : Nat) (sh : Shot) (now : Nat) : Option ScreenCache :=
  match sh.phase with
  | .storing snap source seen =>
    let frame := decode source.config source.gop
    some { s.show_ shot sh ⟨frame, snap.latestFrameAt, source, seen⟩ with
      decodedResult := some ⟨snap.key, frame, now, source⟩ }
  | _ => none

/-- The frames that could not be decoded go, with what was kept; the call tries once more. -/
def clear (shot : Nat) (sh : Shot) : Option ScreenCache :=
  match sh.phase with
  | .failed snap =>
    let cleared := s.state.clearGopIfSame snap.key
    let sh' := if sh.retried then { sh with phase := .error }
      else { sh with retried := true, phase := .waiting }
    some { s with
      state := cleared.2
      decodedResult := if cleared.1 then none else s.decodedResult
      shots := s.shots.set shot sh' }
  | _ => none

def step : ScreenMove → Option ScreenCache
  | .feed frame now => some (s.feed frame now)
  | .start => some s.start
  | .take shot => (s.shots[shot]?).bind (s.take shot)
  | .giveUp shot => (s.shots[shot]?).bind (s.giveUp shot)
  | .check shot => (s.shots[shot]?).bind (s.check shot)
  | .readCache shot now => (s.shots[shot]?).bind (s.readCache shot · now)
  | .request shot => (s.shots[shot]?).bind (s.request shot)
  | .join shot request => (s.shots[shot]?).bind (s.join shot · request)
  | .answer shot works => (s.shots[shot]?).bind (s.answer shot · works)
  | .verify shot => (s.shots[shot]?).bind (s.verify shot)
  | .checkAgain shot => (s.shots[shot]?).bind (s.checkAgain decode shot)
  | .store shot now => (s.shots[shot]?).bind (s.store decode shot · now)
  | .clear shot => (s.shots[shot]?).bind (s.clear shot)

end ScreenCache

/-! ### What is promised -/

/-- The picture is the decoding of one snapshot, the time is when the newest frame of that snapshot was
    received, its generations were current when it was checked, and it is not older than what had been
    shown when the call came. -/
structure ShownScreen.Truthful (decode : List UInt8 → List VideoFrame → DecodedScreen)
    (s : ScreenCache) (floor : Nat) (shown : ShownScreen) : Prop where
  snapshot : shown.source ∈ s.snapshots
  frame : shown.frame = decode shown.source.config shown.source.gop
  instant : (s.fed[shown.source.frameSequence - 1]?).map Prod.snd = some shown.instant
  current : shown.seen.isSnapshotCurrent shown.source.key = true
  ordered : floor ≤ shown.source.frameSequence

/-- Every picture that was returned is truthful. -/
def ScreenCache.Truthful (decode : List UInt8 → List VideoFrame → DecodedScreen)
    (s : ScreenCache) : Prop :=
  ∀ (shot : Nat) sh shown, s.shots[shot]? = some sh → sh.phase = .returned (some shown) →
    shown.Truthful decode s sh.floor

namespace ShotPhase

/-- What a call has returned: the picture, its time, and the number of the frame it shows. -/
def answer : ShotPhase → Option ShownScreen
  | returned shown => shown
  | _ => none

def shown (phase : ShotPhase) : Option DecodedScreen := phase.answer.map ShownScreen.frame

def instant (phase : ShotPhase) : Option Nat := phase.answer.map ShownScreen.instant

def number (phase : ShotPhase) : Option Nat :=
  phase.answer.map fun shown => shown.source.frameSequence

end ShotPhase

/-- The snapshot of a call that is going to read the kept picture. -/
def ShotPhase.toRead : ShotPhase → Option FrameSnapshot
  | .current snap _ => some snap
  | _ => none

/-- A kept picture is shown only for the very frame it was decoded from. -/
def ScreenCache.SameFrame (s : ScreenCache) : ScreenMove → Prop
  | .readCache shot now => ∀ sh ∈ s.shots[shot]?, ∀ snap ∈ sh.phase.toRead,
      ∀ entry ∈ s.cached snap.key, now - entry.completedAt ≤ s.freshness →
        entry.key.frameSequence = snap.key.frameSequence
  | _ => True

instance (s : ScreenCache) : DecidablePred s.SameFrame
  | .readCache shot now => inferInstanceAs (Decidable (∀ sh ∈ s.shots[shot]?,
      ∀ snap ∈ sh.phase.toRead, ∀ entry ∈ s.cached snap.key, now - entry.completedAt ≤ s.freshness →
        entry.key.frameSequence = snap.key.frameSequence))
  | .feed .. | .start | .take _ | .giveUp _ | .check _ | .request _ | .join .. | .answer .. | .verify _
  | .checkAgain _ | .store .. | .clear _ => .isTrue trivial

/-! ### Keys and snapshots -/

namespace FrameState
variable (s : FrameState) (frame : VideoFrame) (now : Nat)

theorem feed_frameSequence : (s.feed frame now).frameSequence = s.frameSequence + 1 := by
  unfold feed feedConfig feedPicture
  dsimp only
  split_ifs <;> rfl

theorem feed_latestFrameAt : (s.feed frame now).latestFrameAt = some now := by
  unfold feed feedConfig feedPicture
  dsimp only
  split_ifs <;> rfl

theorem feed_snapshotGeneration : s.snapshotGeneration ≤ (s.feed frame now).snapshotGeneration := by
  unfold feed feedConfig feedPicture
  dsimp only
  split_ifs <;> simp [observeFrame, snapshotChanged, clearGop]

/-- A GOP that is cleared changes the key; one that is not leaves the state. -/
theorem clearGopIfSame_cases (key : FrameKey) : (s.clearGopIfSame key).2 = s ∨
    (s.clearGopIfSame key).2 = s.clearGop.snapshotChanged := by
  unfold clearGopIfSame
  split_ifs
  · exact .inr rfl
  · exact .inl rfl

variable {s} in
theorem snapshot_eq_some {snap : FrameSnapshot} (h : s.snapshot = some snap) :
    ∃ at_, s.latestFrameAt = some at_ ∧
      snap = ⟨s.key, s.configBuf, s.gop, s.frameSequence, at_⟩ := by
  unfold snapshot at h
  split_ifs at h
  obtain ⟨at_, hat, rfl⟩ := Option.map_eq_some_iff.mp h
  exact ⟨at_, hat, rfl⟩

end FrameState

variable {decode : List UInt8 → List VideoFrame → DecodedScreen} {s s' : ScreenCache}

/-- A snapshot of an earlier state, or of this one. -/
structure FrameSnapshot.Of (s : ScreenCache) (snap : FrameSnapshot) : Prop where
  sequence : snap.frameSequence = snap.key.frameSequence
  time : (s.fed[snap.frameSequence - 1]?).map Prod.snd = some snap.latestFrameAt
  sequence_le : snap.key.frameSequence ≤ s.state.frameSequence
  generation_le : snap.key.snapshotGeneration ≤ s.state.snapshotGeneration
  same : snap.key = s.state.key → s.state.snapshot = some snap

/-- The snapshot was taken after the call came. -/
def FrameSnapshot.After (s : ScreenCache) (floor : Nat) (snap : FrameSnapshot) : Prop :=
  snap ∈ s.snapshots ∧ floor ≤ snap.frameSequence

def ShotPhase.Sound (decode : List UInt8 → List VideoFrame → DecodedScreen) (s : ScreenCache)
    (floor : Nat) : ShotPhase → Prop
  | .waiting | .error | .returned none => True
  | .taken snap | .requesting snap | .failed snap => snap.After s floor
  | .current snap seen => snap.After s floor ∧ seen.isSnapshotCurrent snap.key = true
  | .decoding snap source | .decoded snap source => snap.After s floor ∧ source = snap
  | .verified snap source seen | .storing snap source seen =>
    snap.After s floor ∧ source = snap ∧ seen.isSnapshotCurrent snap.key = true
  | .returned (some shown) => shown.Truthful decode s floor

/-- INVARIANT: of the runs that show a kept picture only for its own frame. -/
structure ScreenCache.Coherent (decode : List UInt8 → List VideoFrame → DecodedScreen)
    (s : ScreenCache) : Prop where
  count : s.state.frameSequence = s.fed.length
  latest : s.state.latestFrameAt = s.fed.getLast?.map Prod.snd
  snapshots : ∀ snap ∈ s.snapshots, snap.Of s
  unique : ∀ snap ∈ s.snapshots, ∀ snap' ∈ s.snapshots, snap.key = snap'.key → snap = snap'
  requests : ∀ snap ∈ s.requests, snap ∈ s.snapshots
  kept : ∀ entry, s.decodedResult = some entry → entry.source ∈ s.snapshots ∧
    entry.key = entry.source.key ∧ entry.frame = decode entry.source.config entry.source.gop
  newest_le : s.newest ≤ s.state.frameSequence
  floor_le : ∀ (shot : Nat) sh, s.shots[shot]? = some sh → sh.floor ≤ s.state.frameSequence
  shots : ∀ (shot : Nat) sh, s.shots[shot]? = some sh → sh.phase.Sound decode s sh.floor

theorem ShownScreen.Truthful.mono {floor : Nat} {shown : ShownScreen}
    (h : shown.Truthful decode s floor) (hsub : s.snapshots ⊆ s'.snapshots)
    (hfed : s.fed <+: s'.fed) : shown.Truthful decode s' floor where
  snapshot := hsub h.snapshot
  frame := h.frame
  instant := by
    obtain ⟨x, hx, htime⟩ := Option.map_eq_some_iff.mp h.instant
    obtain ⟨later, hlater⟩ := hfed
    rw [← hlater, List.getElem?_append_left (List.getElem?_eq_some_iff.mp hx).1, hx]
    exact congrArg some htime
  current := h.current
  ordered := h.ordered

theorem ShotPhase.Sound.mono {floor : Nat} {phase : ShotPhase} (h : phase.Sound decode s floor)
    (hsub : s.snapshots ⊆ s'.snapshots) (hfed : s.fed <+: s'.fed) :
    phase.Sound decode s' floor := by
  cases phase with
  | waiting => trivial
  | error => trivial
  | taken snap => exact ⟨hsub h.1, h.2⟩
  | requesting snap => exact ⟨hsub h.1, h.2⟩
  | failed snap => exact ⟨hsub h.1, h.2⟩
  | current snap seen => exact ⟨⟨hsub h.1.1, h.1.2⟩, h.2⟩
  | decoding snap source => exact ⟨⟨hsub h.1.1, h.1.2⟩, h.2⟩
  | decoded snap source => exact ⟨⟨hsub h.1.1, h.1.2⟩, h.2⟩
  | verified snap source seen => exact ⟨⟨hsub h.1.1, h.1.2⟩, h.2⟩
  | storing snap source seen => exact ⟨⟨hsub h.1.1, h.1.2⟩, h.2⟩
  | returned shown =>
    cases shown with
    | none => trivial
    | some shown => exact ShownScreen.Truthful.mono h hsub hfed

/-! ### One step -/

variable {k : Nat} {sh sh' : Shot}

/-- STEP: a call goes on, and nothing else changes. -/
theorem ScreenCache.Coherent.shot (h : s.Coherent decode) (hsh : s.shots[k]? = some sh)
    (sh' : Shot) (hfloor : sh'.floor = sh.floor) (hsound : sh'.phase.Sound decode s sh.floor) :
    ({ s with shots := s.shots.set k sh' } : ScreenCache).Coherent decode :=
  { h with
    snapshots := fun snap hsnap => ⟨(h.snapshots snap hsnap).sequence, (h.snapshots snap hsnap).time,
      (h.snapshots snap hsnap).sequence_le, (h.snapshots snap hsnap).generation_le,
      (h.snapshots snap hsnap).same⟩
    floor_le := fun i x hx => by
      rcases (getElem?_set_eq_some hsh).mp hx with ⟨-, rfl⟩ | ⟨-, hx⟩
      · exact hfloor ▸ h.floor_le k sh hsh
      · exact h.floor_le i x hx
    shots := fun i x hx => by
      rcases (getElem?_set_eq_some hsh).mp hx with ⟨-, rfl⟩ | ⟨-, hx⟩
      · rw [hfloor]
        exact hsound.mono (List.Subset.refl _) (List.prefix_refl _)
      · exact (h.shots i x hx).mono (List.Subset.refl _) (List.prefix_refl _) }

/-- STEP: other frames come, or the GOP goes. -/
theorem ScreenCache.Coherent.state (h : s.Coherent decode) (state : FrameState)
    (fed : List (VideoFrame × Nat)) (hcount : state.frameSequence = (s.fed ++ fed).length)
    (hlatest : state.latestFrameAt = (s.fed ++ fed).getLast?.map Prod.snd)
    (hgeneration : s.state.snapshotGeneration ≤ state.snapshotGeneration)
    (hkey : state.snapshot = s.state.snapshot ∧ state.key = s.state.key ∨
      s.state.frameSequence < state.frameSequence ∨
        s.state.snapshotGeneration < state.snapshotGeneration) :
    ({ s with state := state, fed := s.fed ++ fed } : ScreenCache).Coherent decode := by
  have hle : s.state.frameSequence ≤ state.frameSequence := by
    rw [hcount, h.count, List.length_append]
    exact Nat.le_add_right _ _
  have hpre : s.fed <+: s.fed ++ fed := ⟨fed, rfl⟩
  refine ⟨hcount, hlatest, fun snap hsnap => ?_, h.unique, h.requests, h.kept,
    h.newest_le.trans hle, fun i x hx => (h.floor_le i x hx).trans hle,
    fun i x hx => (h.shots i x hx).mono (List.Subset.refl _) hpre⟩
  have hof := h.snapshots snap hsnap
  refine ⟨hof.sequence, ?_, hof.sequence_le.trans hle, hof.generation_le.trans hgeneration,
    fun hsame => ?_⟩
  · obtain ⟨x, hx, htime⟩ := Option.map_eq_some_iff.mp hof.time
    rw [List.getElem?_append_left (List.getElem?_eq_some_iff.mp hx).1, hx]
    exact congrArg some htime
  · rcases hkey with ⟨hsnapshot, hkey⟩ | hlater | hlater
    · exact hsnapshot.trans (hof.same (hsame.trans hkey))
    · have heq := congrArg FrameKey.frameSequence hsame
      have hold := hof.sequence_le
      simp only [FrameState.key] at heq
      omega
    · have heq := congrArg FrameKey.snapshotGeneration hsame
      have hold := hof.generation_le
      simp only [FrameState.key] at heq
      omega

theorem coherent_feed (h : s.Coherent decode) (frame : VideoFrame) (now : Nat) :
    (s.feed frame now).Coherent decode := by
  refine h.state _ _ ?_ ?_ (FrameState.feed_snapshotGeneration _ _ _) (.inr (.inl ?_))
  · rw [FrameState.feed_frameSequence, h.count, List.length_append, List.length_singleton]
  · rw [FrameState.feed_latestFrameAt, List.getLast?_concat]
    rfl
  · rw [FrameState.feed_frameSequence]
    exact Nat.lt_succ_self _

theorem coherent_start (h : s.Coherent decode) : s.start.Coherent decode :=
  { h with
    snapshots := fun snap hsnap => ⟨(h.snapshots snap hsnap).sequence, (h.snapshots snap hsnap).time,
      (h.snapshots snap hsnap).sequence_le, (h.snapshots snap hsnap).generation_le,
      (h.snapshots snap hsnap).same⟩
    floor_le := fun i x hx => by
      rcases getElem?_push_eq_some.mp hx with hx | ⟨-, rfl⟩
      · exact h.floor_le i x hx
      · exact h.newest_le
    shots := fun i x hx => by
      rcases getElem?_push_eq_some.mp hx with hx | ⟨-, rfl⟩
      · exact (h.shots i x hx).mono (List.Subset.refl _) (List.prefix_refl _)
      · trivial }

/-- STEP: the state that there is now becomes one of the snapshots. -/
theorem coherent_take (h : s.Coherent decode) (hsh : s.shots[k]? = some sh)
    {snap : FrameSnapshot} (hsnap : s.state.snapshot = some snap) :
    ({ s.setPhase k sh (.taken snap) with
      snapshots := s.snapshots ++ [snap] } : ScreenCache).Coherent decode := by
  obtain ⟨at_, hat, hshape⟩ := FrameState.snapshot_eq_some hsnap
  have hkey : snap.key = s.state.key := by rw [hshape]
  have hsequence : snap.frameSequence = s.state.frameSequence := by rw [hshape]
  have htime : (s.fed[snap.frameSequence - 1]?).map Prod.snd = some snap.latestFrameAt := by
    rw [hsequence, h.count, ← List.getLast?_eq_getElem?, ← h.latest, hat, hshape]
  have hof : snap.Of s := ⟨by rw [hsequence, hkey]; rfl, htime, by rw [hkey]; exact Nat.le_refl _,
    by rw [hkey]; exact Nat.le_refl _, fun _ => hsnap⟩
  have hmem : ∀ x ∈ s.snapshots ++ [snap], x.Of s := by
    intro x hx
    rcases List.mem_append.mp hx with hx | hx
    · exact h.snapshots x hx
    · rw [List.mem_singleton.mp hx]
      exact hof
  have hsub : s.snapshots ⊆ s.snapshots ++ [snap] := List.subset_append_left _ _
  have hnew : ∀ x ∈ s.snapshots ++ [snap], x.key = snap.key → x = snap := by
    intro x hx hsame
    have hsame' := (hmem x hx).same (hsame.trans hkey)
    exact Option.some.inj (hsame'.symm.trans hsnap)
  refine ⟨h.count, h.latest, fun x hx => ⟨(hmem x hx).sequence, (hmem x hx).time,
    (hmem x hx).sequence_le, (hmem x hx).generation_le, (hmem x hx).same⟩, fun x hx y hy hxy => ?_,
    fun x hx => hsub (h.requests x hx), fun entry hentry => ?_, h.newest_le, fun i x hx => ?_,
    fun i x hx => ?_⟩
  · rcases List.mem_append.mp hx with hx' | hx'
    · rcases List.mem_append.mp hy with hy' | hy'
      · exact h.unique x hx' y hy' hxy
      · rw [List.mem_singleton.mp hy'] at hxy ⊢
        exact hnew x hx hxy
    · rw [List.mem_singleton.mp hx'] at hxy ⊢
      exact (hnew y hy hxy.symm).symm
  · obtain ⟨hin, hrest⟩ := h.kept entry hentry
    exact ⟨hsub hin, hrest⟩
  · rcases (getElem?_set_eq_some hsh).mp hx with ⟨-, rfl⟩ | ⟨-, hx⟩
    · exact h.floor_le k sh hsh
    · exact h.floor_le i x hx
  · rcases (getElem?_set_eq_some hsh).mp hx with ⟨-, rfl⟩ | ⟨-, hx⟩
    · exact ⟨List.mem_append_right _ (List.mem_singleton_self _),
        hsequence ▸ h.floor_le k sh hsh⟩
    · exact (h.shots i x hx).mono hsub (List.prefix_refl _)

/-- STEP: what is kept, requested and shown last changes. -/
theorem ScreenCache.Coherent.results (h : s.Coherent decode)
    (decodedResult : Option DecodedResultCacheEntry) (requests : List FrameSnapshot) (newest : Nat)
    (hkept : ∀ entry, decodedResult = some entry → entry.source ∈ s.snapshots ∧
      entry.key = entry.source.key ∧ entry.frame = decode entry.source.config entry.source.gop)
    (hrequests : ∀ snap ∈ requests, snap ∈ s.snapshots)
    (hnewest : newest ≤ s.state.frameSequence) :
    ({ s with decodedResult := decodedResult, requests := requests, newest := newest } :
      ScreenCache).Coherent decode :=
  { h with
    snapshots := fun snap hsnap => ⟨(h.snapshots snap hsnap).sequence, (h.snapshots snap hsnap).time,
      (h.snapshots snap hsnap).sequence_le, (h.snapshots snap hsnap).generation_le,
      (h.snapshots snap hsnap).same⟩
    requests := hrequests
    kept := hkept
    newest_le := hnewest
    shots := fun i x hx => (h.shots i x hx).mono (List.Subset.refl _) (List.prefix_refl _) }

/-- STEP: a call returns a picture. -/
theorem coherent_show (h : s.Coherent decode) (hsh : s.shots[k]? = some sh) {shown : ShownScreen}
    (hshown : shown.Truthful decode s sh.floor) : (s.show_ k sh shown).Coherent decode := by
  have hof := h.snapshots _ hshown.snapshot
  have hnewest : max s.newest shown.source.frameSequence ≤ s.state.frameSequence :=
    Nat.max_le.mpr ⟨h.newest_le, hof.sequence ▸ hof.sequence_le⟩
  exact (h.results s.decodedResult s.requests _ h.kept h.requests hnewest).shot hsh
    { sh with phase := .returned (some shown) } rfl
    (ShownScreen.Truthful.mono hshown (List.Subset.refl _) (List.prefix_refl _))

/-- The picture of a snapshot, which is checked. -/
theorem FrameSnapshot.After.truthful (h : s.Coherent decode) {floor : Nat} {snap : FrameSnapshot}
    (hafter : snap.After s floor) {seen : FrameState}
    (hseen : seen.isSnapshotCurrent snap.key = true) :
    ShownScreen.Truthful decode s floor
      ⟨decode snap.config snap.gop, snap.latestFrameAt, snap, seen⟩ :=
  ⟨hafter.1, rfl, (h.snapshots snap hafter.1).time, hseen, hafter.2⟩

/-- STEP: a kept picture of the same frame is a picture of the call's own snapshot. -/
theorem coherent_readCache {now : Nat} (h : s.Coherent decode) (hsh : s.shots[k]? = some sh)
    (hsame : ∀ snap ∈ sh.phase.toRead, ∀ entry ∈ s.cached snap.key,
      now - entry.completedAt ≤ s.freshness →
        entry.key.frameSequence = snap.key.frameSequence)
    (hstep : s.readCache k sh now = some s') : s'.Coherent decode := by
  unfold ScreenCache.readCache at hstep
  split at hstep
  · next snap seen hphase =>
    have hsound := h.shots k sh hsh
    rw [hphase] at hsound
    obtain ⟨hafter, hseen⟩ := hsound
    split at hstep
    · cases hstep
      exact h.shot hsh { sh with phase := .requesting snap } rfl hafter
    · next entry hentry =>
      split_ifs at hstep with hfresh
      · cases hstep
        obtain ⟨hkept, hgenerations⟩ := Option.filter_eq_some_iff.mp hentry
        obtain ⟨hin, hkey, hframe⟩ := h.kept entry hkept
        rw [Bool.and_eq_true, decide_eq_true_eq, decide_eq_true_eq] at hgenerations
        have hnumber := hsame snap (by rw [hphase]; rfl) entry hentry hfresh
        have hsource : entry.source.key = snap.key := by
          rw [← hkey]
          cases hk : entry.key with
          | mk generation config number =>
            rw [hk] at hgenerations hnumber
            obtain ⟨rfl, rfl⟩ := hgenerations
            exact congrArg _ hnumber
        obtain rfl := h.unique _ hin snap hafter.1 hsource
        rw [hframe]
        exact coherent_show h hsh (hafter.truthful h hseen)
      · cases hstep
        exact (h.results none s.requests s.newest (fun _ hnone => (by cases hnone)) h.requests
          h.newest_le).shot hsh { sh with phase := .requesting snap } rfl hafter
  · cases hstep

theorem coherent_store {now : Nat} (h : s.Coherent decode) (hsh : s.shots[k]? = some sh)
    (hstep : s.store decode k sh now = some s') : s'.Coherent decode := by
  unfold ScreenCache.store at hstep
  split at hstep
  · next snap source seen hphase =>
    cases hstep
    have hsound := h.shots k sh hsh
    rw [hphase] at hsound
    obtain ⟨hafter, rfl, hseen⟩ := hsound
    have hshow := coherent_show h hsh (hafter.truthful h hseen)
    refine hshow.results _ _ _ (fun entry hentry => ?_) hshow.requests hshow.newest_le
    cases hentry
    exact ⟨hafter.1, rfl, rfl⟩
  · cases hstep

theorem coherent_clear (h : s.Coherent decode) (hsh : s.shots[k]? = some sh)
    (hstep : s.clear k sh = some s') : s'.Coherent decode := by
  unfold ScreenCache.clear at hstep
  split at hstep
  · next snap hphase =>
    cases hstep
    have hkept : ∀ cleared : Bool, ∀ entry,
        (if cleared then none else s.decodedResult) = some entry → entry.source ∈ s.snapshots ∧
          entry.key = entry.source.key ∧
          entry.frame = decode entry.source.config entry.source.gop := by
      intro cleared entry hentry
      split_ifs at hentry
      exact h.kept entry hentry
    have hstate : ({ s with state := (s.state.clearGopIfSame snap.key).2 } :
        ScreenCache).Coherent decode := by
      rcases FrameState.clearGopIfSame_cases s.state snap.key with hsame | hcleared
      · rw [hsame]
        exact h
      · rw [hcleared]
        have hafter := h.state s.state.clearGop.snapshotChanged []
          (by rw [List.append_nil]; exact h.count) (by rw [List.append_nil]; exact h.latest)
          (Nat.le_succ _) (.inr (.inr (Nat.lt_succ_self _)))
        simpa only [List.append_nil] using hafter
    have hdropped := hstate.results
      (if (s.state.clearGopIfSame snap.key).1 then none else s.decodedResult) s.requests s.newest
      (hkept _) hstate.requests hstate.newest_le
    refine hdropped.shot hsh (if sh.retried then { sh with phase := .error }
      else { sh with retried := true, phase := .waiting }) ?_ ?_
    · split_ifs <;> rfl
    · split_ifs <;> trivial
  · cases hstep

/-- STEP: every step keeps it, if a kept picture is shown only for its own frame. -/
theorem coherent_step {m : ScreenMove} (h : s.Coherent decode) (hsame : s.SameFrame m)
    (hstep : s.step decode m = some s') : s'.Coherent decode := by
  cases m with
  | feed frame now =>
    cases hstep
    exact coherent_feed h frame now
  | start =>
    cases hstep
    exact coherent_start h
  | take shot =>
    obtain ⟨sh, hsh, hstep⟩ := Option.bind_eq_some_iff.mp hstep
    unfold ScreenCache.take at hstep
    split at hstep
    · obtain ⟨snap, hsnap, rfl⟩ := Option.map_eq_some_iff.mp hstep
      exact coherent_take h hsh hsnap
    · cases hstep
  | giveUp shot =>
    obtain ⟨sh, hsh, hstep⟩ := Option.bind_eq_some_iff.mp hstep
    unfold ScreenCache.giveUp at hstep
    split at hstep
    · cases hstep
      refine h.shot hsh _ rfl ?_
      dsimp only
      split_ifs <;> trivial
    · cases hstep
  | check shot =>
    obtain ⟨sh, hsh, hstep⟩ := Option.bind_eq_some_iff.mp hstep
    unfold ScreenCache.check at hstep
    split at hstep
    · next snap hphase =>
      cases hstep
      have hsound := h.shots shot sh hsh
      rw [hphase] at hsound
      refine h.shot hsh _ rfl ?_
      dsimp only
      split_ifs with hcurrent
      · exact ⟨hsound, hcurrent⟩
      · exact hsound
    · cases hstep
  | readCache shot now =>
    obtain ⟨sh, hsh, hstep⟩ := Option.bind_eq_some_iff.mp hstep
    exact coherent_readCache h hsh (hsame sh hsh) hstep
  | request shot =>
    obtain ⟨sh, hsh, hstep⟩ := Option.bind_eq_some_iff.mp hstep
    unfold ScreenCache.request at hstep
    split at hstep
    · next snap hphase =>
      cases hstep
      have hsound := h.shots shot sh hsh
      rw [hphase] at hsound
      have hrequests : ∀ x ∈ s.requests ++ [snap], x ∈ s.snapshots := by
        intro x hx
        rcases List.mem_append.mp hx with hx | hx
        · exact h.requests x hx
        · rw [List.mem_singleton.mp hx]
          exact hsound.1
      exact (h.results s.decodedResult _ s.newest h.kept hrequests h.newest_le).shot hsh
        { sh with phase := .decoding snap snap } rfl ⟨hsound, rfl⟩
    · cases hstep
  | join shot request =>
    obtain ⟨sh, hsh, hstep⟩ := Option.bind_eq_some_iff.mp hstep
    unfold ScreenCache.join at hstep
    split at hstep
    · next snap hphase =>
      obtain ⟨source, hsource, hstep⟩ := Option.bind_eq_some_iff.mp hstep
      split_ifs at hstep with hkey
      cases hstep
      have hsound := h.shots shot sh hsh
      rw [hphase] at hsound
      have hin := h.requests source (List.mem_of_getElem? hsource)
      exact h.shot hsh _ rfl ⟨hsound, h.unique source hin snap hsound.1 hkey⟩
    · cases hstep
  | answer shot works =>
    obtain ⟨sh, hsh, hstep⟩ := Option.bind_eq_some_iff.mp hstep
    unfold ScreenCache.answer at hstep
    split at hstep
    · next snap source hphase =>
      cases hstep
      have hsound := h.shots shot sh hsh
      rw [hphase] at hsound
      refine h.shot hsh _ rfl ?_
      dsimp only
      split_ifs
      · exact hsound
      · exact hsound.1
    · cases hstep
  | verify shot =>
    obtain ⟨sh, hsh, hstep⟩ := Option.bind_eq_some_iff.mp hstep
    unfold ScreenCache.verify at hstep
    split at hstep
    · next snap source hphase =>
      have hsound := h.shots shot sh hsh
      rw [hphase] at hsound
      split_ifs at hstep with hcurrent hrefreshed
      · cases hstep
        exact h.shot hsh _ rfl ⟨hsound.1, hsound.2, hcurrent⟩
      · cases hstep
        exact h.shot hsh _ rfl trivial
      · cases hstep
        exact h.shot hsh _ rfl trivial
    · cases hstep
  | checkAgain shot =>
    obtain ⟨sh, hsh, hstep⟩ := Option.bind_eq_some_iff.mp hstep
    unfold ScreenCache.checkAgain at hstep
    split at hstep
    · next snap source seen hphase =>
      have hsound := h.shots shot sh hsh
      rw [hphase] at hsound
      split_ifs at hstep with hcurrent
      · cases hstep
        exact h.shot hsh _ rfl hsound
      · cases hstep
        obtain ⟨hafter, rfl, hseen⟩ := hsound
        exact coherent_show h hsh (hafter.truthful h hseen)
    · cases hstep
  | store shot now =>
    obtain ⟨sh, hsh, hstep⟩ := Option.bind_eq_some_iff.mp hstep
    exact coherent_store h hsh hstep
  | clear shot =>
    obtain ⟨sh, hsh, hstep⟩ := Option.bind_eq_some_iff.mp hstep
    exact coherent_clear h hsh hstep

/-- Whatever frames come while calls are under way, and however their decoding ends: the pictures that
    are returned are truthful, as long as a kept picture is shown only for the frame it was decoded
    from. -/
theorem truthful_of_sameFrame {freshness : Nat} {s : ScreenCache}
    (h : Machine.ReachesBy (ScreenCache.step decode) ScreenCache.SameFrame ⟨freshness, {}, [], none,
      [], [], [], 0⟩ s) : s.Truthful decode := by
  have hcoherent : s.Coherent decode := by
    refine h.invariant (fun _ _ _ hs hm hstep => coherent_step hs hm hstep) ?_
    exact ⟨rfl, rfl, fun _ hsnap => (by cases hsnap), fun _ hsnap => (by cases hsnap),
      fun _ hsnap => (by cases hsnap), fun _ hentry => (by cases hentry), Nat.le_refl 0,
      fun _ _ hsh => (by cases hsh), fun _ _ hsh => (by cases hsh)⟩
  intro shot sh shown hsh hphase
  have hsound := hcoherent.shots shot sh hsh
  rw [hphase] at hsound
  exact hsound

/-- A decoder that shows the newest frame. -/
def showLast (_ : List UInt8) (gop : List VideoFrame) : DecodedScreen :=
  ⟨0, 0, (gop.getLast?.map VideoFrame.data).getD []⟩

def emptyCache : ScreenCache := ⟨75000, {}, [], none, [], [], [], 0⟩

/-- A key frame, and a call that has it decoded. -/
def firstShot : List ScreenMove :=
  [.feed ⟨[1], 0, true, false, true⟩ 0, .feed ⟨[10], 0, false, true, true⟩ 10, .start, .take 0,
    .check 0, .readCache 0 11, .request 0, .answer 0 true, .verify 0, .checkAgain 0, .store 0 20]

/-- A call that is shown what is kept. -/
def keptShot : List ScreenMove := [.start, .take 1, .check 1, .readCache 1 40]

theorem kept_truthful : ∃ s : ScreenCache,
    Machine.exec (ScreenCache.step showLast) emptyCache (firstShot ++ keptShot) = some s ∧
      (s.shots.map fun sh => sh.phase.shown) = [some ⟨0, 0, [10]⟩, some ⟨0, 0, [10]⟩] ∧
      s.Truthful showLast := by
  have hend : ∃ s : ScreenCache,
      Machine.exec (ScreenCache.step showLast) emptyCache (firstShot ++ keptShot) = some s ∧
        (s.shots.map fun sh => sh.phase.shown) = [some ⟨0, 0, [10]⟩, some ⟨0, 0, [10]⟩] :=
    Machine.exec_eval (by decide +kernel)
  obtain ⟨s, hrun, hshown⟩ := hend
  have hsame : Machine.Along (ScreenCache.step showLast) ScreenCache.SameFrame emptyCache
      (firstShot ++ keptShot) := by decide +kernel
  exact ⟨s, hrun, hshown, truthful_of_sameFrame ⟨_, hrun, hsame⟩⟩

/-- Another frame comes, and the next call is shown the old picture with the new frame's time. -/
def laterFrame : List ScreenMove :=
  firstShot ++ [.feed ⟨[11], 0, false, false, true⟩ 30] ++ keptShot

/-- A call whose decoding takes long keeps its picture after a later frame was shown. -/
def slowDecoder : List ScreenMove :=
  [.feed ⟨[1], 0, true, false, true⟩ 0, .feed ⟨[10], 0, false, true, true⟩ 10, .start, .take 0,
    .check 0, .readCache 0 11, .request 0, .feed ⟨[11], 0, false, false, true⟩ 30, .start, .take 1,
    .check 1, .readCache 1 31, .request 1, .answer 1 true, .verify 1, .checkAgain 1, .store 1 40,
    .answer 0 true, .verify 0, .checkAgain 0, .store 0 50, .start, .take 2, .check 2, .readCache 2 60]

theorem returned_of_answer {phase : ShotPhase} {shown : ShownScreen}
    (h : phase.answer = some shown) : phase = .returned (some shown) := by
  cases phase <;> first | cases h; rfl | cases h

/-- The time of a call's answer is not when its frame was received. -/
def ScreenCache.wrongTime (s : ScreenCache) (shot : Nat) : Bool :=
  ((s.shots[shot]?).bind fun sh => sh.phase.answer).any fun shown =>
    (s.fed[shown.source.frameSequence - 1]?).map Prod.snd ≠ some shown.instant

/-- The answer is older than what had been shown. -/
def ScreenCache.wrongOrder (s : ScreenCache) (shot : Nat) : Bool :=
  (s.shots[shot]?).any fun sh => sh.phase.answer.any fun shown =>
    shown.source.frameSequence < sh.floor

theorem not_truthful : (∃ s : ScreenCache,
      Machine.exec (ScreenCache.step showLast) emptyCache laterFrame = some s ∧
        ((s.shots[1]?).bind fun sh => sh.phase.shown) = some ⟨0, 0, [10]⟩ ∧
        ((s.shots[1]?).bind fun sh => sh.phase.instant) = some 30 ∧
        (∀ snap ∈ s.snapshots, showLast snap.config snap.gop = ⟨0, 0, [10]⟩ →
          snap.latestFrameAt ≠ 30) ∧ ¬ s.Truthful showLast) ∧
    ∃ s : ScreenCache,
      Machine.exec (ScreenCache.step showLast) emptyCache slowDecoder = some s ∧
        (s.shots.map fun sh => (sh.floor, sh.phase.number)) =
          [(0, some 2), (0, some 3), (3, some 2)] ∧ ¬ s.Truthful showLast := by
  constructor
  · have hend : ∃ s : ScreenCache,
        Machine.exec (ScreenCache.step showLast) emptyCache laterFrame = some s ∧
          ((s.shots[1]?).bind fun sh => sh.phase.shown) = some ⟨0, 0, [10]⟩ ∧
          ((s.shots[1]?).bind fun sh => sh.phase.instant) = some 30 ∧
          (∀ snap ∈ s.snapshots, showLast snap.config snap.gop = ⟨0, 0, [10]⟩ →
            snap.latestFrameAt ≠ 30) ∧ s.wrongTime 1 = true := Machine.exec_eval (by decide +kernel)
    obtain ⟨s, hrun, hshown, hinstant, hnone, hwrong⟩ := hend
    refine ⟨s, hrun, hshown, hinstant, hnone, fun h => ?_⟩
    obtain ⟨shown, hanswer, hne⟩ := (Option.any_eq_true _ _).mp hwrong
    obtain ⟨sh, hsh, hanswer⟩ := Option.bind_eq_some_iff.mp hanswer
    exact of_decide_eq_true hne (h 1 sh shown hsh (returned_of_answer hanswer)).instant
  · have hend : ∃ s : ScreenCache,
        Machine.exec (ScreenCache.step showLast) emptyCache slowDecoder = some s ∧
          (s.shots.map fun sh => (sh.floor, sh.phase.number)) =
            [(0, some 2), (0, some 3), (3, some 2)] ∧ s.wrongOrder 2 = true :=
      Machine.exec_eval (by decide +kernel)
    obtain ⟨s, hrun, hshown, hwrong⟩ := hend
    refine ⟨s, hrun, hshown, fun h => ?_⟩
    obtain ⟨sh, hsh, hwrong⟩ := (Option.any_eq_true _ _).mp hwrong
    obtain ⟨shown, hanswer, hlt⟩ := (Option.any_eq_true _ _).mp hwrong
    exact Nat.not_le.mpr (of_decide_eq_true hlt)
      (h 2 sh shown hsh (returned_of_answer hanswer)).ordered

end Gamer.Device
