import Gamer.Lib.Machine
import Gamer.Webrtc.Frames

/-! The ring queue of one viewer from both ends (`make_frame_queue`). The forwarder's task has its own
    reference to the queue beside the weak one it tests:

        broadcast ──▶ recv ─▶ pop_front if full, overflowed ─▶ push_back      drain: test, take all
                  └─▶ Lagged: go on with the oldest frame that is left        exit check: weak    -/

namespace Gamer.Webrtc.FrameQueue
open Gamer.Lib Gamer.Lib.Machine

/-- A frame of the broadcast, by its place in it. -/
structure Frame where
  index : Nat
  isConfig : Bool
  deriving DecidableEq, Repr

/-- What a drain has taken, and what it found `overflowed` to be. -/
structure Drain where
  frames : List Frame
  overflowed : Bool
  deriving DecidableEq, Repr

/-- The queue with its references, the forwarder, and what has come of the frames. -/
structure Queue where
  frames : List Frame := []
  overflowed : Bool := false
  /-- The strong references of the viewer session, the pusher and the forwarder's task. -/
  session : Bool := true
  pusher : Bool := true
  forwarder : Bool := true
  /-- The place of the next frame that `sub.recv()` returns. -/
  next : Nat := 0
  received : List Frame := []
  drains : List Drain := []
  /-- The exit checks: whether session and pusher had let go of the queue, and whether it exited. -/
  checks : List (Bool × Bool) := []
  deriving DecidableEq, Repr

inductive Move where
  | recv (isConfig : Bool)
  /-- `RecvError::Lagged`: some frames behind the last one are gone. -/
  | lagged (skipped : Nat)
  | closed
  | exitCheck
  | drain
  | dropSession
  | dropPusher
  deriving DecidableEq, Repr

namespace Queue

/-- `weak.upgrade().is_none()`. -/
def unreferenced (q : Queue) : Bool := !q.session && !q.pusher && !q.forwarder

/-- The forwarder's branch for a frame, under the queue's lock. -/
def pushBack (q : Queue) (f : Frame) : Queue :=
  if q.frames.length ≥ QUEUE_CAP then
    { q with frames := q.frames.tail ++ [f], overflowed := true }
  else { q with frames := q.frames ++ [f] }

/-- The pusher's turn at the queue, under its lock: the flag is tested if there is a frame, and the
    queue is left empty. -/
def takeAll (q : Queue) : Queue :=
  match q.frames with
  | [] => q
  | frames => { q with
      frames := []
      overflowed := false
      drains := ⟨frames, q.overflowed⟩ :: q.drains }

def step (q : Queue) (m : Move) : Option Queue :=
  match m with
  | .recv isConfig =>
    if q.forwarder then
      let f : Frame := ⟨q.next, isConfig⟩
      some ({ q with next := q.next + 1, received := f :: q.received }.pushBack f)
    else none
  | .lagged skipped =>
    if q.forwarder then some { q with next := q.next + skipped + 1 } else none
  | .closed => if q.forwarder then some { q with forwarder := false } else none
  | .exitCheck =>
    if q.forwarder then some { q with
      forwarder := !q.unreferenced
      checks := (!q.session && !q.pusher, q.unreferenced) :: q.checks }
    else none
  | .drain => if q.pusher then some q.takeAll else none
  | .dropSession => some { q with session := false }
  | .dropPusher => some { q with pusher := false }

/-! ### What the queue promises -/

/-- The frame at the place has reached a drain. -/
def Reached (q : Queue) (index : Nat) : Prop :=
  ∃ d ∈ q.drains, ∃ f ∈ d.frames, f.index = index

/-- SAFETY: a frame is taken behind a gap only by a drain that found `overflowed` set, no config
    frame that was received is lost, and an exit check exits once nobody else has the queue. -/
structure Sound (q : Queue) : Prop where
  gap : ∀ d ∈ q.drains, ∀ f ∈ d.frames, 0 < f.index → ¬ q.Reached (f.index - 1) →
    d.overflowed = true
  config : ∀ f ∈ q.received, f.isConfig = true → f ∈ q.frames ∨ q.Reached f.index
  exit : ∀ c ∈ q.checks, c.1 = true → c.2 = true

/-- The receiver does not lag, a full ring does not begin with a config frame, and an exit check
    finds the session or the pusher at the queue. -/
def steady (q : Queue) : Move → Bool
  | .lagged _ => false
  | .recv _ => !(q.frames.length ≥ QUEUE_CAP && q.frames.head?.any (·.isConfig))
  | .exitCheck => q.session || q.pusher
  | _ => true

/-! ### The invariant -/

/-- INVARIANT: the queue has the newest frames, and the one before them has reached a drain or has
    left `overflowed` behind. -/
structure Steady (q : Queue) (first : Nat) : Prop where
  places : q.frames.map (·.index) = List.range' first q.frames.length
  last : first + q.frames.length = q.next
  before : 0 < first → q.Reached (first - 1) ∨ q.overflowed = true
  sound : q.Sound

theorem Reached.mono {q q' : Queue} {index : Nat} (h : q.Reached index)
    (hsub : ∀ d ∈ q.drains, d ∈ q'.drains) : q'.Reached index := by
  obtain ⟨d, hd, hf⟩ := h
  exact ⟨d, hsub d hd, hf⟩

/-- A frame in the queue whose place is not the first has its predecessor in the queue. -/
theorem Steady.mem {q : Queue} {first : Nat} (h : q.Steady first) {f : Frame} (hf : f ∈ q.frames) :
    first ≤ f.index ∧ f.index < q.next ∧
      (first < f.index → ∃ g ∈ q.frames, g.index = f.index - 1) := by
  have hmem : f.index ∈ List.range' first q.frames.length := by
    rw [← h.places]
    exact List.mem_map_of_mem hf
  rw [List.mem_range'_1] at hmem
  have hlast := h.last
  refine ⟨hmem.1, by omega, ?_⟩
  intro hlt
  have hpred : f.index - 1 ∈ q.frames.map (·.index) := by
    rw [h.places, List.mem_range'_1]
    omega
  obtain ⟨g, hg, heq⟩ := List.mem_map.mp hpred
  exact ⟨g, hg, heq⟩

theorem steady_start : Steady ({} : Queue) 0 :=
  ⟨rfl, rfl, fun h => absurd h (Nat.lt_irrefl 0), ⟨nofun, nofun, nofun⟩⟩

/-- A frame is received into a ring with room. -/
theorem Steady.push {q : Queue} {first : Nat} (h : q.Steady first) (isConfig : Bool) :
    ({ q with
        next := q.next + 1
        received := ⟨q.next, isConfig⟩ :: q.received
        frames := q.frames ++ [⟨q.next, isConfig⟩] } : Queue).Steady first := by
  refine ⟨?_, ?_, h.before, ⟨h.sound.gap, ?_, h.sound.exit⟩⟩
  · rw [List.map_append, h.places, List.length_append, List.length_singleton, List.range'_concat,
      ← h.last]
    simp
  · rw [List.length_append, ← h.last]
    rfl
  · intro f hf hconfig
    rcases List.mem_cons.mp hf with rfl | hf
    · exact Or.inl (by simp)
    · rcases h.sound.config f hf hconfig with hin | hreached
      · exact Or.inl (List.mem_append_left _ hin)
      · exact Or.inr hreached

/-- The oldest frame of a full ring goes, and is no config frame. -/
theorem Steady.pop {q : Queue} {first : Nat} {f : Frame} {rest : List Frame} (h : q.Steady first)
    (hframes : q.frames = f :: rest) (hconfig : f.isConfig = false) :
    ({ q with frames := rest, overflowed := true } : Queue).Steady (first + 1) := by
  have hplaces := h.places
  have hlast := h.last
  rw [hframes] at hplaces hlast
  rw [List.map_cons, List.length_cons, List.range'_succ] at hplaces
  refine ⟨(List.cons.inj hplaces).2, ?_, fun _ => Or.inr rfl, ⟨h.sound.gap, ?_, h.sound.exit⟩⟩
  · show first + 1 + rest.length = q.next
    rw [← hlast, List.length_cons]
    omega
  · intro g hg hgconfig
    rcases h.sound.config g hg hgconfig with hin | hreached
    · rw [hframes] at hin
      rcases List.mem_cons.mp hin with rfl | hin
      · rw [hconfig] at hgconfig
        cases hgconfig
      · exact Or.inl hin
    · exact Or.inr hreached

/-- STEP: the forwarder receives a frame. -/
theorem Steady.recv {q q' : Queue} {first : Nat} {isConfig : Bool} (h : q.Steady first)
    (hkept : q.steady (.recv isConfig) = true) (hs : q.step (.recv isConfig) = some q') :
    ∃ first', q'.Steady first' := by
  simp only [step] at hs
  split at hs
  · cases hs
    simp only [pushBack]
    split
    · rename_i hfull
      cases hframes : q.frames with
      | nil =>
        rw [hframes] at hfull
        exact absurd hfull (by decide)
      | cons f rest =>
        have hconfig : f.isConfig = false := by
          have hroom : rest.length + 1 < QUEUE_CAP ∨ f.isConfig = false := by
            simpa [steady, hframes] using hkept
          rw [hframes, List.length_cons] at hfull
          exact hroom.resolve_left (Nat.not_lt.mpr hfull)
        exact ⟨first + 1, (h.pop hframes hconfig).push isConfig⟩
    · exact ⟨first, h.push isConfig⟩
  · cases hs

/-- STEP: the pusher takes what there is. -/
theorem Steady.takeAll {q : Queue} {first : Nat} (h : q.Steady first) :
    ∃ first', q.takeAll.Steady first' := by
  unfold Queue.takeAll
  split
  · exact ⟨first, h⟩
  · rename_i frames hne
    have hold : ∀ {index : Nat}, q.Reached index →
        ({ q with
            frames := []
            overflowed := false
            drains := ⟨q.frames, q.overflowed⟩ :: q.drains } : Queue).Reached index :=
      fun hreached => hreached.mono fun d hd => List.mem_cons_of_mem _ hd
    have hnew : ∀ f ∈ q.frames, ({ q with
        frames := []
        overflowed := false
        drains := ⟨q.frames, q.overflowed⟩ :: q.drains } : Queue).Reached f.index :=
      fun f hf => ⟨_, List.mem_cons_self .., f, hf, rfl⟩
    refine ⟨q.next, rfl, rfl, ?_, ⟨?_, ?_, h.sound.exit⟩⟩
    · intro hpos
      refine Or.inl ?_
      have hlast := h.last
      have hlen : 0 < q.frames.length := List.length_pos_iff.mpr hne
      have hmem : q.next - 1 ∈ q.frames.map (·.index) := by
        rw [h.places, List.mem_range'_1]
        omega
      obtain ⟨f, hf, heq⟩ := List.mem_map.mp hmem
      rw [← heq]
      exact hnew f hf
    · intro d hd f hf hpos hnot
      rcases List.mem_cons.mp hd with rfl | hd
      · obtain ⟨hfirst, -, hpred⟩ := h.mem hf
        rcases Nat.lt_or_eq_of_le hfirst with hlt | heq
        · obtain ⟨g, hg, hindex⟩ := hpred hlt
          exact absurd (hindex ▸ hnew g hg) hnot
        · rcases h.before (heq ▸ hpos) with hreached | hover
          · exact absurd (hold (heq ▸ hreached)) hnot
          · exact hover
      · exact h.sound.gap d hd f hf hpos fun hreached => hnot (hold hreached)
    · intro f hf hconfig
      rcases h.sound.config f hf hconfig with hin | hreached
      · exact Or.inr (hnew f hin)
      · exact Or.inr (hold hreached)

/-- STEP: a step that meets the condition keeps the queue. -/
theorem Steady.step {q q' : Queue} {first : Nat} {m : Move} (h : q.Steady first)
    (hkept : q.steady m = true) (hs : q.step m = some q') : ∃ first', q'.Steady first' := by
  cases m with
  | recv isConfig => exact h.recv hkept hs
  | lagged skipped => cases hkept
  | closed =>
    simp only [Queue.step] at hs
    split at hs
    · cases hs
      exact ⟨first, h.places, h.last, h.before, h.sound.gap, h.sound.config, h.sound.exit⟩
    · cases hs
  | exitCheck =>
    simp only [Queue.step] at hs
    split at hs
    · cases hs
      refine ⟨first, h.places, h.last, h.before, h.sound.gap, h.sound.config, ?_⟩
      intro c hc hreleased
      rcases List.mem_cons.mp hc with rfl | hc
      · simp only [steady] at hkept
        simp only [Bool.and_eq_true, Bool.not_eq_true'] at hreleased
        rw [hreleased.1, hreleased.2] at hkept
        cases hkept
      · exact h.sound.exit c hc hreleased
    · cases hs
  | drain =>
    simp only [Queue.step] at hs
    split at hs
    · cases hs
      exact h.takeAll
    · cases hs
  | dropSession | dropPusher =>
    cases hs
    exact ⟨first, h.places, h.last, h.before, h.sound.gap, h.sound.config, h.sound.exit⟩

/-- RUN: a queue whose receiver does not lag, whose ring drops no config frame, and whose forwarder
    checks only while someone else has the queue reports every loss, loses no config frame and
    misses no exit. -/
theorem sound_of_steady {moves : List Move} {q : Queue}
    (hrun : exec step ({} : Queue) moves = some q)
    (hkept : Along step (fun q m => q.steady m = true) ({} : Queue) moves) : q.Sound := by
  obtain ⟨first, h⟩ := ReachesBy.invariant (I := fun q => ∃ first, Steady q first)
    ⟨moves, hrun, hkept⟩ (fun q m q' ⟨first, h⟩ hkept hs => h.step hkept hs) ⟨0, steady_start⟩
  exact h.sound

/-- Two frames and a config frame are taken, and the session ends before the pusher. -/
theorem sound_of_steady_drained :
    ∃ q, exec step ({} : Queue)
      [.recv true, .recv false, .drain, .recv false, .exitCheck, .drain, .dropSession,
        .exitCheck, .dropPusher, .closed] = some q ∧ q.Sound := by
  obtain ⟨q, hq⟩ : ∃ q, exec step ({} : Queue)
      [.recv true, .recv false, .drain, .recv false, .exitCheck, .drain, .dropSession,
        .exitCheck, .dropPusher, .closed] = some q :=
    Option.isSome_iff_exists.mp (by decide +kernel)
  exact ⟨q, hq, sound_of_steady hq (by decide +kernel)⟩

/-- The viewer is gone, and the forwarder goes on; and a lag is not reported. -/
theorem not_sound_released : ¬ ∀ (moves : List Move) (q : Queue),
    exec step ({} : Queue) moves = some q → q.Sound := by
  intro h
  obtain ⟨q, hq⟩ : ∃ q, exec step ({} : Queue)
      [.recv false, .drain, .dropSession, .dropPusher, .exitCheck] = some q :=
    Option.isSome_iff_exists.mp (by decide +kernel)
  have hchecks : (exec step ({} : Queue)
      [.recv false, .drain, .dropSession, .dropPusher, .exitCheck]).map (·.checks) =
        some [(true, false)] := by decide +kernel
  rw [hq] at hchecks
  have hlog : q.checks = [(true, false)] := Option.some.inj hchecks
  have hexit := (h _ q hq).exit (true, false) (by rw [hlog]; exact List.mem_singleton.mpr rfl) rfl
  cases hexit

end Queue

end Gamer.Webrtc.FrameQueue
