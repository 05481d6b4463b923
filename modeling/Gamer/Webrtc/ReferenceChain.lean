import Gamer.Lib.Machine
import Gamer.Webrtc.Seam

/-! What a viewer is sent is decodable: on the wire every frame continues the one before it, every
    key frame stands behind its config frame, and no frame comes twice.

        waiting for a key frame ──key sent whole──▶ linked ──frame sent whole──▶ linked
                 ▲                                    │
                 └────────── skipped, trimmed ────────┘

    The pusher tests `waiting_key` only when it drains the queue, and a write that fails or writes
    nothing does not set it: that is where a chain is cut and the pusher does not wait. -/

namespace Gamer.Webrtc
open Gamer.Lib

/-- The reference chain of what was written. -/
abbrev Wire.Chained (wire : Wire) : Prop := Chain.Chained coding wire

abbrev Wire.Link (front : Nat) (linked : Bool) (wire : Wire) : Prop :=
  Chain.Link coding front linked wire

/-! ### Writing one frame -/

theorem writePackets_all {packets : List Write} {n : Nat}
    (h : ∀ w ∈ packets, ∃ m, w = .bytes m ∧ 0 < m) :
    (writePackets packets n).1 = true ∧ n + packets.length ≤ (writePackets packets n).2 := by
  induction packets generalizing n with
  | nil => simp [writePackets]
  | cons w packets ih =>
    obtain ⟨m, rfl, hm⟩ := h w (by simp)
    obtain ⟨hgo, hle⟩ := ih (n := n + m) fun w hw => h w (by simp [hw])
    refine ⟨hgo, ?_⟩
    simp only [writePackets, List.length_cons]
    omega

/-- Packets that are all written make a frame that is written. -/
theorem Turn.whole_wrote {t : Turn} (h : t.whole = true) : t.wrote = true := by
  obtain ⟨packets, hp, hall⟩ := (Option.any_eq_true _ _).mp h
  simp only [allWritten, Bool.and_eq_true, Bool.not_eq_true', List.isEmpty_eq_false_iff,
    List.all_eq_true] at hall
  have hle := (writePackets_all (n := 0) fun w hw => by
    have hw := hall.2 w hw
    cases w with
    | bytes m => exact ⟨m, rfl, by simpa using hw⟩
    | failed => simp at hw).2
  have hpos := List.length_pos_iff.mpr hall.1
  simp only [Turn.wrote, hp, pushRtp, decide_eq_true_eq]
  omega

/-- STEP: the frame at the front has its turn. -/
theorem Wire.Link.frame {front : Nat} {linked : Bool} {wire : Wire} (h : wire.Link front linked)
    {f : Emitted} (hno : f.no = front) (t : Turn)
    (hkey : t.wrote = true → f.isKeyframe = true → Chain.Headed coding f wire)
    (hdelta : t.wrote = true → f.isKeyframe = false → linked = true) :
    (wire.frame f t).Link (front + 1) t.whole := by
  simp only [Wire.frame]
  split
  · rename_i hwrote
    exact h.item hno t.whole (hkey hwrote) (hdelta hwrote)
  · rename_i hwrote
    refine (h.cut (Nat.le_succ front)).weaken fun hwhole => ?_
    exact absurd (Turn.whole_wrote hwhole) hwrote

/-- STEP: a config frame is sent. -/
theorem Wire.Link.config {front : Nat} {linked : Bool} {wire : Wire} (h : wire.Link front linked)
    (data : Bytes) (t : Turn) : (wire.config data t).Link front linked := by
  simp only [Wire.config]
  split
  · exact h.header data
  · exact h

theorem Wire.items_config (wire : Wire) (data : Bytes) (t : Turn) :
    Chain.items (wire.config data t) = Chain.items wire := by
  simp only [Wire.config]
  split <;> rfl

theorem Wire.lastHeader_config (wire : Wire) (data : Bytes) {t : Turn}
    (h : allWritten t.config = true) : Chain.lastHeader (wire.config data t) = some data := by
  simp [Wire.config, h, Chain.lastHeader]

theorem Wire.lastHeader_frame (wire : Wire) (f : Emitted) (t : Turn) :
    Chain.lastHeader (wire.frame f t) = Chain.lastHeader wire := by
  simp only [Wire.frame]
  split <;> rfl

/-! ### The initial replay -/

/-- An attempt to replay the initial frames is clean: a frame of which anything is written stands
    behind the one before it, written whole, or, a key frame, behind its config frame; and if it
    comes to its end and wrote anything, the last frame was written whole. -/
def Attempt.clean : Bool → Bool → Bool → List Emitted → (Nat → Turn) → Bool
  | _, linked, wrote, [], _ => linked || !wrote
  | headed, linked, wrote, f :: fs, turns =>
    let t := turns 0
    if f.isConfig then
      !sendConfigNalus t.config || clean (allWritten t.config) linked wrote fs (later turns)
    else
      (!t.wrote || (if f.isKeyframe then headed else linked)) &&
        (!t.goesOn || clean headed t.whole (wrote || t.wrote) fs (later turns))

/-- What an attempt has come to: a link up to `front`, standing unless the attempt failed or wrote
    nothing. -/
structure Attempt.Reached (a : Attempt) (front : Nat) (linked : Bool) : Prop where
  link : a.wire.Link front linked
  silent : a.written = 0 → Chain.items a.wire = []

/-- The frames of a GOP replayed behind their config frame. -/
theorem Attempt.replay_gop {gop : List Emitted} (hpictures : ∀ f ∈ gop, f.isConfig = false)
    {front m : Nat} (hrun : Chain.Run coding front gop m) (headed linked : Bool)
    (turns : Nat → Turn) (a : Attempt) (hclean : clean headed linked (a.written > 0) gop turns)
    (hheaded : headed = true → ∀ f ∈ gop, f.isKeyframe = true → Chain.Headed coding f a.wire)
    (hr : a.Reached front linked) (hok : a.ok = true) :
    ∃ linked', (replay gop turns a).Reached m linked' ∧
      ((replay gop turns a).ok = true → 0 < (replay gop turns a).written → linked' = true) := by
  induction gop generalizing front linked turns a with
  | nil =>
    obtain rfl : front = m := hrun
    refine ⟨linked, hr, fun _ hw => ?_⟩
    simp only [replay] at hw
    simpa [clean, hw] using hclean
  | cons f gop ih =>
    have hf := hpictures f (by simp)
    simp only [clean, hf, Bool.false_eq_true, if_false, Bool.and_eq_true, Bool.or_eq_true,
      Bool.not_eq_true'] at hclean
    obtain ⟨hturn, hafter⟩ := hclean
    have hlink : (a.wire.frame f (turns 0)).Link (front + 1) (turns 0).whole := by
      refine hr.link.frame hrun.1 (turns 0) ?_ ?_
      · intro hwrote hkey
        simp [hwrote, hkey] at hturn
        exact hheaded hturn f (by simp) hkey
      · intro hwrote hkey
        simpa [hwrote, hkey] using hturn
    have hsilent : a.written + (pushRtp (turns 0).payload).2 = 0 →
        Chain.items (a.wire.frame f (turns 0)) = [] := by
      intro h0
      have hw : (turns 0).wrote = false := by simp [Turn.wrote]; omega
      simp only [Wire.frame, hw, Bool.false_eq_true, if_false]
      exact hr.silent (by omega)
    simp only [replay, hf, Bool.false_eq_true, if_false]
    split
    · rename_i hgo
      have hwrote : decide (a.written + (pushRtp (turns 0).payload).2 > 0) =
          (decide (a.written > 0) || (turns 0).wrote) := by
        simp only [Turn.wrote, ← Bool.decide_or]
        congr 1
        apply propext
        omega
      exact ih
        (fun g hg => hpictures g (List.mem_cons_of_mem _ hg)) hrun.2 (turns 0).whole
        (later turns)
        { a with
          hadKey := a.hadKey || f.isKeyframe
          written := a.written + (pushRtp (turns 0).payload).2
          wire := a.wire.frame f (turns 0)
          lastSent := some f }
        (by rw [hwrote]; simpa [hgo] using hafter)
        (fun hh g hg hk k hn => (Wire.lastHeader_frame a.wire f _).trans
          (hheaded hh g (List.mem_cons_of_mem _ hg) hk k hn))
        ⟨hlink, hsilent⟩ hok
    · exact ⟨false, ⟨hlink.cut (Chain.Run.le hrun.2), hsilent⟩, by simp⟩

/-- INVARIANT: the initial frames are the newest config frame and the frames since a key frame, up
    to the front of the line unless the ring has dropped frames since. -/
structure Opening (frames : List Emitted) (front : Nat) (overflowed : Bool) : Prop where
  ne : frames ≠ []
  shape : ∃ config gop a e, frames = Option.toList config ++ gop ∧
    (∀ f ∈ config, f.isConfig = true) ∧ (∀ f ∈ gop, f.isConfig = false) ∧
    Chain.Run coding a gop e ∧ e ≤ front ∧ (overflowed = false → e = front) ∧
    ∀ f ∈ gop, f.isKeyframe = true → f.newest = none ∨ f.newest = configOf (some frames)

theorem Opening.later {frames : List Emitted} {front front' : Nat} {over' : Bool}
    (h : Opening frames front over') (hle : front ≤ front') : Opening frames front' true := by
  obtain ⟨hne, config, gop, a, e, hshape, hc, hg, hrun, he, _, hkeys⟩ := h
  exact ⟨hne, config, gop, a, e, hshape, hc, hg, hrun, by omega, by simp, hkeys⟩

/-- One attempt, from a wire on which no frame has been written yet. -/
theorem Attempt.replay_opening {frames : List Emitted} {front : Nat} {over' : Bool}
    (h : Opening frames front over') {turns : Nat → Turn} {a : Attempt}
    (hclean : clean true false false frames turns = true) (hok : a.ok = true) (hw : a.written = 0)
    (hchained : a.wire.Chained) (hsilent : Chain.items a.wire = []) :
    ∃ e linked, e ≤ front ∧ (over' = false → e = front) ∧
      (replay frames turns a).Reached e linked ∧
      ((replay frames turns a).ok = true → 0 < (replay frames turns a).written → linked = true) := by
  obtain ⟨_, config, gop, b, e, rfl, hc, hg, hrun, hle, heq, hkeys⟩ := h
  have hlink : ∀ wire : Wire, wire.Chained → Chain.items wire = [] → wire.Link b false :=
    fun wire hch hs => ⟨hch, by simp [hs], by simp⟩
  cases config with
  | none =>
    have hnone : ∀ f ∈ gop, f.isKeyframe = true → Chain.Headed coding f a.wire := by
      intro f hf hk k hn
      have hcfg : configOf (some gop) = none := by
        simpa [configOf] using hg
      rcases hkeys f hf hk with hnew | hnew
      · simp [hnew] at hn
      · simp only [Option.toList_none, List.nil_append, hcfg] at hnew
        simp [hnew] at hn
    obtain ⟨linked, hr, hstand⟩ := replay_gop hg hrun true false turns a
      (by simpa [hw] using hclean) (fun _ => hnone)
      ⟨hlink _ hchained hsilent, fun _ => hsilent⟩ hok
    exact ⟨e, linked, hle, heq, hr, hstand⟩
  | some c =>
    have hcc : c.isConfig = true := hc c rfl
    simp only [clean, hcc, if_true, Option.toList_some, List.singleton_append, Bool.or_eq_true,
      Bool.not_eq_true'] at hclean
    have hitems : Chain.items (a.wire.config c.data (turns 0)) = [] :=
      (Wire.items_config _ _ _).trans hsilent
    have hwire := hlink _ ((hlink _ hchained hsilent).config c.data (turns 0)).chained hitems
    simp only [replay, hcc, if_true, Option.toList_some, List.singleton_append]
    split
    · rename_i hsend
      have hheaded : allWritten (turns 0).config = true → ∀ f ∈ gop, f.isKeyframe = true →
          Chain.Headed coding f (a.wire.config c.data (turns 0)) := by
        intro hall f hf hk k hn
        rw [Wire.lastHeader_config _ _ hall]
        rcases hkeys f hf hk with hnew | hnew
        · simp [hnew] at hn
        · rw [coding_header, hnew] at hn
          simpa [configOf, hcc] using hn
      obtain ⟨linked, hr, hstand⟩ := replay_gop hg hrun
        (allWritten (turns 0).config) false (later turns)
        { a with wire := a.wire.config c.data (turns 0) } (by simpa [hw, hsend] using hclean) hheaded
        ⟨hwire, fun _ => hitems⟩ hok
      exact ⟨e, linked, hle, heq, hr, hstand⟩
    · exact ⟨e, false, hle, heq, ⟨hwire.cut hrun.le, fun _ => hitems⟩, by simp⟩

/-- All attempts: the replay counts as done only if the link stands. -/
theorem Attempt.retry_opening {frames : List Emitted} {front : Nat} {over' : Bool}
    (h : Opening frames front over') {n : Nat} {attempts : Nat → Nat → Turn} {a : Attempt}
    (hclean : ∀ i < n, clean true false false frames (attempts i) = true)
    (hchained : a.wire.Chained) (hsilent : Chain.items a.wire = []) :
    ∃ e linked, e ≤ front ∧ (over' = false → e = front) ∧
      (retry frames n attempts a).2.wire.Link e linked ∧
      ((retry frames n attempts a).1 = true → linked = true) := by
  induction n generalizing attempts a with
  | zero =>
    obtain ⟨_, _, _, _, e, _, _, _, _, hle, heq, _⟩ := h
    exact ⟨e, false, hle, heq, ⟨hchained, by simp [retry, hsilent], by simp⟩, by simp [retry]⟩
  | succ n ih =>
    obtain ⟨e, linked, hle, heq, hr, hstand⟩ := replay_opening h (hclean 0 (by omega))
      (a := { a with ok := true, written := 0 }) rfl rfl hchained hsilent
    simp only [retry]
    split
    · exact ⟨e, linked, hle, heq, hr.link, by simp⟩
    · rename_i hok
      split
      · rename_i hwrote
        have hpos : 0 < (replay frames (attempts 0) { a with ok := true, written := 0 }).written := by
          simpa [h.ne] using hwrote
        exact ⟨e, linked, hle, heq, hr.link, fun _ => hstand (by simpa using hok) hpos⟩
      · rename_i hzero
        exact ih (fun i hi => hclean (i + 1) (by omega)) hr.link.chained (hr.silent (by simp at hzero; omega))

/-- STEP: the pusher starts. -/
theorem Pusher.start_link {initial : Option (List Emitted)} {front : Nat} {over' : Bool}
    (h : ∀ frames, initial = some frames → Opening frames front over')
    {attempts : Nat → Nat → Turn} (hclean : ∀ frames ∈ initial, ∀ i < REPLAY_ATTEMPTS,
      Attempt.clean true false false frames (attempts i) = true) :
    (Pusher.start initial attempts).wire.Link front
      (!(Pusher.start initial attempts).waitingKey &&
        (Pusher.start initial attempts).lastSent.isSome && !over') := by
  cases initial with
  | none => exact Chain.Link.nil front
  | some frames =>
    obtain ⟨e, linked, hle, heq, hlink, hstand⟩ := Attempt.retry_opening (h frames rfl)
      (a := {}) (hclean frames rfl) trivial rfl
    cases over' with
    | true => exact (hlink.cut hle).weaken (by simp)
    | false =>
      obtain rfl := heq rfl
      refine hlink.weaken fun hgo => hstand ?_
      simp only [start, Bool.and_eq_true, Bool.not_eq_true', Bool.or_eq_false_iff] at hgo
      simpa using hgo.1.1.1

/-! ### The loop -/

/-- The turns of a drained queue are settled: a frame of which anything is written stands behind
    the one before it, written whole, or, a key frame, behind its config frame; and where the chain
    is cut at the end the pusher has met the peer disconnected, and so waits. -/
def settled (config : Bool) : Bool → Bool → List Emitted → (Nat → Turn) → Bool
  | linked, waiting, [], _ => linked || waiting
  | linked, waiting, f :: fs, turns =>
    let t := turns 0
    if !t.connected then settled config false true fs (later turns)
    else if f.isKeyframe && config && !sendConfigNalus t.config then waiting
    else
      (!t.wrote || (if f.isKeyframe then !config || allWritten t.config else linked)) &&
        (if t.goesOn then settled config t.whole waiting fs (later turns) else waiting)

/-- A key frame at the head needs no link. -/
theorem settled_key {config linked linked' waiting : Bool} {f : Emitted} {fs : List Emitted}
    {turns : Nat → Turn} (hkey : f.isKeyframe = true) :
    settled config linked waiting (f :: fs) turns =
      settled config linked' waiting (f :: fs) turns := by
  simp [settled, hkey]

@[simp] theorem Pusher.pushFrame_fst (p : Pusher) (f : Emitted) (t : Turn) :
    (p.pushFrame f t).1 = t.goesOn := by
  cases h : t.goesOn <;> simp [pushFrame, h]

@[simp] theorem Pusher.pushFrame_wire (p : Pusher) (f : Emitted) (t : Turn) :
    (p.pushFrame f t).2.wire = p.wire.frame f t := by
  cases h : t.goesOn <;> simp [pushFrame, h]

@[simp] theorem Pusher.pushFrame_configNalu (p : Pusher) (f : Emitted) (t : Turn) :
    (p.pushFrame f t).2.configNalu = p.configNalu := by
  cases h : t.goesOn <;> simp [pushFrame, h]

@[simp] theorem Pusher.pushFrame_waitingKey (p : Pusher) (f : Emitted) (t : Turn) :
    (p.pushFrame f t).2.waitingKey = p.waitingKey := by
  cases h : t.goesOn <;> simp [pushFrame, h]

/-- What a frame of the loop leaves: a link to go on with, or a pusher that waits. -/
def Pusher.Settles (p : Pusher) (front : Nat) (fs : List Emitted) (turns : Nat → Turn)
    (after : Bool × Pusher) : Prop :=
  after.2.configNalu = p.configNalu ∧
  ((after.1 = true ∧ ∃ linked, after.2.wire.Link (front + 1) linked ∧
      settled p.configNalu.isSome linked after.2.waitingKey fs (later turns) = true) ∨
    (after.1 = false ∧ after.2.wire.Link (front + 1) false ∧ after.2.waitingKey = true))

/-- STEP: the packets of a frame are pushed. -/
theorem Pusher.pushFrame_settles {p q : Pusher} {f : Emitted} {turns : Nat → Turn} {front : Nat}
    {linked : Bool} {fs : List Emitted} (hcfg : p.configNalu = q.configNalu)
    (hlink : p.wire.Link front linked) (hno : f.no = front)
    (hkey : (turns 0).wrote = true → f.isKeyframe = true → Chain.Headed coding f p.wire)
    (hdelta : (turns 0).wrote = true → f.isKeyframe = false → linked = true)
    (hs : (if (turns 0).goesOn then
      settled q.configNalu.isSome (turns 0).whole p.waitingKey fs (later turns)
      else p.waitingKey) = true) :
    q.Settles front fs turns (p.pushFrame f (turns 0)) := by
  have hlink' := hlink.frame hno (turns 0) hkey hdelta
  refine ⟨by simpa using hcfg, ?_⟩
  cases hgo : (turns 0).goesOn with
  | true =>
    rw [hgo, if_pos rfl] at hs
    exact Or.inl ⟨by simpa using hgo, _, by simpa using hlink', by simpa using hs⟩
  | false =>
    rw [hgo, if_neg (by simp)] at hs
    exact Or.inr ⟨by simpa using hgo, by simpa using hlink'.weaken (by simp), by simpa using hs⟩

/-- STEP: one frame of the loop. -/
theorem Pusher.sendFrame_settles {p : Pusher} {f : Emitted} {turns : Nat → Turn} {front : Nat}
    {linked : Bool} {fs : List Emitted} (hlink : p.wire.Link front linked) (hno : f.no = front)
    (hknown : f.isKeyframe = true → f.newest = none ∨ p.configNalu = f.newest)
    (hs : settled p.configNalu.isSome linked p.waitingKey (f :: fs) turns = true) :
    p.Settles front fs turns (p.sendFrame f (turns 0)) := by
  cases hcon : (turns 0).connected with
  | false =>
    simp only [settled, hcon, Bool.not_false, if_true] at hs
    simp only [sendFrame, hcon, Bool.not_false, if_true]
    exact ⟨rfl, Or.inl ⟨rfl, false, hlink.cut (by omega), hs⟩⟩
  | true =>
    simp only [settled, hcon, Bool.not_true, Bool.false_eq_true, if_false] at hs
    simp only [sendFrame, hcon, Bool.not_true, Bool.false_eq_true, if_false]
    cases hkey : f.isKeyframe with
    | false =>
      simp only [hkey, Bool.false_and, Bool.false_eq_true, if_false, Bool.and_eq_true,
        Bool.or_eq_true, Bool.not_eq_true'] at hs ⊢
      refine pushFrame_settles rfl hlink hno (by simp [hkey]) (fun hwrote _ => ?_) hs.2
      simpa [hwrote] using hs.1
    | true =>
      simp only [hkey, Bool.true_and, if_true] at hs ⊢
      cases hcfg : p.configNalu with
      | none =>
        simp only [hcfg, Option.isSome_none, Bool.false_and, Bool.false_eq_true, if_false,
          Bool.and_eq_true] at hs
        refine pushFrame_settles (q := p) (by simp [hcfg]) hlink hno ?_
          (by simp [hkey]) (by simpa [hcfg] using hs.2)
        intro _ _ k hn
        rcases hknown hkey with hnone | hnone
        · simp [hnone] at hn
        · rw [hcfg] at hnone
          simp [← hnone] at hn
      | some cfg =>
        simp only [hcfg, Option.isSome_some, Bool.true_and, Bool.not_true, Bool.false_or] at hs
        cases hsend : sendConfigNalus (turns 0).config with
        | false =>
          simp only [hsend, Bool.not_false, if_true] at hs
          simp only [Bool.false_eq_true, if_false]
          exact ⟨by simp [hcfg], Or.inr ⟨rfl, (hlink.config cfg _).cut (by omega), hs⟩⟩
        | true =>
          simp only [hsend, Bool.not_true, Bool.false_eq_true, if_false, Bool.and_eq_true] at hs
          simp only [if_true]
          refine pushFrame_settles (q := p) (by simp [hcfg]) (hlink.config cfg _) hno ?_
            (by simp [hkey]) (by simpa [hcfg] using hs.2)
          intro hwrote _ k hn
          have hall : allWritten (turns 0).config = true := by simpa [hwrote] using hs.1
          rw [Wire.lastHeader_config _ _ hall]
          rcases hknown hkey with hnone | hnew
          · simp [hnone] at hn
          · rw [hcfg] at hnew
            rw [hnew]
            exact hn

/-- RUN: the whole loop. The chain stands behind it, or the pusher waits. -/
theorem Pusher.sendLoop_link {fs : List Emitted} {p : Pusher} {turns : Nat → Turn} {front m : Nat}
    {linked : Bool} (hlink : p.wire.Link front linked) (hrun : Chain.Run coding front fs m)
    (hknown : ∀ f ∈ fs, f.isKeyframe = true → f.newest = none ∨ p.configNalu = f.newest)
    (hs : settled p.configNalu.isSome linked p.waitingKey fs turns = true) :
    (p.sendLoop fs turns).wire.Link m (!(p.sendLoop fs turns).waitingKey) ∧
      (p.sendLoop fs turns).configNalu = p.configNalu := by
  induction fs generalizing p turns front linked with
  | nil =>
    obtain rfl : front = m := hrun
    refine ⟨hlink.weaken fun hwait => ?_, rfl⟩
    simp only [sendLoop, Bool.not_eq_true'] at hwait
    simpa [settled, hwait] using hs
  | cons f fs ih =>
    obtain ⟨hcfg, hafter⟩ :=
      sendFrame_settles hlink hrun.1 (hknown f (by simp)) hs
    simp only [sendLoop]
    rcases hsent : p.sendFrame f (turns 0) with ⟨go, p'⟩
    rw [hsent] at hcfg hafter
    rcases hafter with ⟨rfl, linked', hlink', hs'⟩ | ⟨rfl, hlink', hwait⟩
    · rw [← hcfg] at hs'
      have hrest := ih hlink' hrun.2
        (fun g hg => hcfg ▸ hknown g (List.mem_cons_of_mem _ hg)) hs'
      exact ⟨hrest.1, hrest.2.trans hcfg⟩
    · refine ⟨?_, hcfg⟩
      simpa [show p'.waitingKey = true from hwait] using hlink'.cut hrun.2.le

/-! ### The drain -/

/-- INVERSION: a decision keeps the queue of an unbroken chain, leads to a key frame of it, or drops
    all of it. -/
theorem Pusher.decision_cases (p : Pusher) (limit : Nat) (over' : Bool) (q : List Emitted) :
    (p.decision limit over' q = .keep ∧ over' = false ∧ p.waitingKey = false) ∨
    (∃ ki r, p.decision limit over' q = .drainToKeyframe ki r ∧
      q.findIdx? (fun f => f.isKeyframe) = some ki) ∨
    p.decision limit over' q = .drainAll := by
  simp only [decision, decidePusherDrain]
  cases over' <;> cases p.waitingKey <;>
    cases q.findIdx? (fun f => f.isKeyframe) <;> simp <;> grind

/-- STEP: the drain leaves a run of frames that its link, or a key frame, can be followed by. -/
theorem Pusher.decision_link {p : Pusher} {limit : Nat} {over' : Bool} {q : List Emitted}
    {front m : Nat} (hrun : Chain.Run coding front q m)
    (hlink : p.wire.Link front (!p.waitingKey && p.lastSent.isSome && !over')) {config : Bool}
    {turns : Nat → Turn} (hs : (p.decision limit over' q).kept q ≠ [] →
      settled config p.lastSent.isSome false ((p.decision limit over' q).kept q) turns = true) :
    ∃ b linked, Chain.Run coding b ((p.decision limit over' q).kept q) m ∧
      p.wire.Link b linked ∧
      ((p.decision limit over' q).kept q = [] → b = m ∧ linked =
        (!(p.decision limit over' q).waits p.waitingKey && p.lastSent.isSome)) ∧
      ((p.decision limit over' q).kept q ≠ [] → settled config linked
        ((p.decision limit over' q).waits p.waitingKey)
        ((p.decision limit over' q).kept q) turns = true) := by
  rcases p.decision_cases limit over' q with ⟨hd, rfl, hwait⟩ | ⟨ki, r, hd, hki⟩ | hd
  · rw [hd] at hs ⊢
    simp only [PusherDrainDecision.kept, PusherDrainDecision.waits, hwait, Bool.not_false,
      Bool.true_and, Bool.and_true] at hs hlink ⊢
    exact ⟨front, _, hrun, hlink, fun hnil => ⟨by simpa [hnil] using hrun, rfl⟩, hs⟩
  · rw [hd] at hs ⊢
    simp only [PusherDrainDecision.kept, PusherDrainDecision.waits] at hs ⊢
    obtain ⟨hlt, hkey, _⟩ := List.findIdx?_eq_some_iff_getElem.mp hki
    have hdrop : q.drop ki = q[ki] :: q.drop (ki + 1) := List.drop_eq_getElem_cons hlt
    refine ⟨front + ki, false, hrun.drop (Nat.le_of_lt hlt), hlink.cut (by omega), ?_, ?_⟩
    · intro hnil
      rw [hdrop] at hnil
      exact absurd hnil (List.cons_ne_nil _ _)
    · intro hne
      have hsettled := hs hne
      rw [hdrop] at hsettled ⊢
      rw [settled_key hkey]
      exact hsettled
  · rw [hd]
    exact ⟨m, false, rfl, hlink.cut hrun.le, fun _ => ⟨rfl, rfl⟩, fun hne => absurd rfl hne⟩

theorem mem_kept {f : Emitted} {q : List Emitted} {d : PusherDrainDecision} (h : f ∈ d.kept q) :
    f ∈ q := by
  cases d with
  | drainAll => simp [PusherDrainDecision.kept] at h
  | drainToKeyframe ki r => exact List.mem_of_mem_drop h
  | keep => exact h

/-! ### Runs -/

/-- The config frame the pusher knows, or will know when it starts. -/
def Stream.known (s : Stream) : Option Bytes :=
  if s.phase = .pushing then s.pusher.configNalu else configOf s.initial

/-- The pusher neither waits for a key frame nor is told to, and has something to continue. -/
def Stream.linked (s : Stream) : Bool :=
  !s.pusher.waitingKey && s.pusher.lastSent.isSome && !s.feed.overflowed

/-- Before the pusher has started. -/
def Phase.early : Phase → Bool
  | .connecting | .subscribed | .sampled => true
  | .pushing | .stopped => false

/-- What the next drain takes, and the pusher after it. -/
def Stream.drained (s : Stream) : Pusher × List Emitted :=
  s.pusher.drain (backlogLimit s.minFrameIntervalMs) s.feed.overflowed s.feed.queue

/-- The condition under which a move keeps the chain.

    * feed: a config frame has contents;
    * publish: the subscriber keeps up with the broadcast;
    * forward: the ring drops no config frame that the pusher does not know;
    * snapshot: no frame is on its way when a GOP is taken over, and no key frame before the newest
      config frame when none is;
    * start: the attempts to replay the initial frames are clean;
    * iterate: no config frame came behind a key frame of the queue, and the turns are settled. -/
def Stream.Steady (s : Stream) : Move → Prop
  | .feed frame => frame.isConfig = true → frame.data ≠ []
  | .publish => s.feed.subscribed = true → s.feed.channel.length < BROADCAST_CAP
  | .forward => s.feed.queue.length ≥ QUEUE_CAP → ∀ f ∈ s.feed.queue.head?,
      f.isConfig = true → s.known = some f.data
  | .snapshot => ∀ c ∈ s.feed.cache,
      if c.gop = [] then ∀ f ∈ pictures s.feed.pipe, f.isKeyframe = true →
        f.newest = none ∨ f.newest = c.config
      else pictures s.feed.pipe = []
  | .start attempts => ∀ frames ∈ s.initial, ∀ i < REPLAY_ATTEMPTS,
      Attempt.clean true false false frames (attempts i) = true
  | .iterate _ turns => s.drained.2 ≠ [] →
      orderly s.pusher.configNalu false s.feed.queue = true ∧
        settled s.drained.1.configNalu.isSome s.drained.1.lastSent.isSome false s.drained.2
          turns = true
  | .subscribe | .stop => True

instance Stream.Steady.decidable (s : Stream) : ∀ m, Decidable (s.Steady m)
  | .feed frame => inferInstanceAs (Decidable (frame.isConfig = true → frame.data ≠ []))
  | .publish => inferInstanceAs
      (Decidable (s.feed.subscribed = true → s.feed.channel.length < BROADCAST_CAP))
  | .forward => inferInstanceAs (Decidable (s.feed.queue.length ≥ QUEUE_CAP →
      ∀ f ∈ s.feed.queue.head?, f.isConfig = true → s.known = some f.data))
  | .snapshot => inferInstanceAs (Decidable (∀ c ∈ s.feed.cache,
      if c.gop = [] then ∀ f ∈ pictures s.feed.pipe, f.isKeyframe = true →
        f.newest = none ∨ f.newest = c.config
      else pictures s.feed.pipe = []))
  | .start attempts => inferInstanceAs (Decidable (∀ frames ∈ s.initial, ∀ i < REPLAY_ATTEMPTS,
      Attempt.clean true false false frames (attempts i) = true))
  | .iterate _ turns => inferInstanceAs (Decidable (s.drained.2 ≠ [] →
      orderly s.pusher.configNalu false s.feed.queue = true ∧
        settled s.drained.1.configNalu.isSome s.drained.1.lastSent.isSome false s.drained.2
          turns = true))
  | .subscribe | .stop => inferInstanceAs (Decidable True)

/-- INVARIANT of a stream whose pusher has not stopped. -/
structure Stream.Sound (s : Stream) (front : Nat) : Prop where
  feed : s.feed.Sound front s.known
  link : s.pusher.wire.Link front s.linked
  opening : s.phase.early = true → s.pusher = {} ∧
    ∀ frames, s.initial = some frames → Opening frames front s.feed.overflowed
  fresh : s.phase = .connecting → s.initial = none ∧ s.feed.channel = [] ∧ s.feed.queue = []
  subscribed : s.feed.subscribed = true ↔ s.phase ≠ .connecting

theorem Stream.sound_opened (minFrameIntervalMs : Nat) (decodeFrames : Bool) :
    (Stream.opened minFrameIntervalMs decodeFrames).Sound 0 := by
  refine ⟨⟨?_, rfl, trivial, Or.inl rfl⟩, Chain.Link.nil 0, ?_, ?_, ?_⟩
  · intro c hc
    cases decodeFrames with
    | true => cases hc; exact FrameCache.sound_empty
    | false => cases hc
  · simp [opened]
  · simp [opened]
  · simp [opened]

/-- STEP: a move of the feed. -/
theorem Stream.Sound.moved {s : Stream} {front front' : Nat} (h : s.Sound front) {feed : Feed}
    (hfeed : feed.Sound front' s.known) (hle : front ≤ front')
    (hover : (front' = front ∧ feed.overflowed = s.feed.overflowed) ∨ feed.overflowed = true)
    (hfresh : s.phase = .connecting → feed.channel = [] ∧ feed.queue = [])
    (hsub : feed.subscribed = s.feed.subscribed) :
    Stream.Sound { s with feed := feed } front' := by
  refine ⟨hfeed, ?_, fun he => ⟨(h.opening he).1, fun frames hi => ?_⟩,
    fun hp => ⟨(h.fresh hp).1, hfresh hp⟩, by simpa [hsub] using h.subscribed⟩
  · rcases hover with ⟨rfl, hsame⟩ | hover
    · simpa [linked, hsame] using h.link
    · simpa [linked, hover] using h.link.cut hle
  · have hopen := (h.opening he).2 frames hi
    rcases hover with ⟨rfl, hsame⟩ | hover
    · simpa [hsame] using hopen
    · simpa [hover] using hopen.later hle

/-- The initial frames of a cache are its config frame and its GOP. -/
theorem FrameCache.Sound.opening {c : FrameCache} {count : Nat} {newest : Option Bytes}
    (h : c.Sound count newest) {frames : List Emitted} (hf : c.initialFrames = some frames)
    {front : Nat} (hfront : c.gop ≠ [] → front = count) (over' : Bool) :
    Opening frames front over' ∧ configOf (some frames) = newest := by
  have hrun : ∃ a, Chain.Run coding a c.gop front := by
    by_cases hgop : c.gop = []
    · exact ⟨front, by simp [hgop]⟩
    · exact hfront hgop ▸ h.gop.resolve_left hgop
  obtain ⟨a, hrun⟩ := hrun
  simp only [initialFrames, Option.ite_none_left_eq_some, Option.some.injEq] at hf
  obtain ⟨hne, rfl⟩ := hf
  rcases h.config_eq with ⟨hbuf, rfl⟩ | ⟨hbuf, rfl⟩
  · have hcfg : configOf (some c.gop) = none := by
      simpa [configOf] using h.pictures
    simp only [hbuf, List.isEmpty_nil, if_true, List.nil_append] at hne ⊢
    exact ⟨⟨by simpa using hne, none, c.gop, a, front, rfl, by simp, h.pictures, hrun, Nat.le_refl _,
      fun _ => rfl, hcfg ▸ h.keys⟩, hcfg⟩
  · simp only [List.isEmpty_eq_false_iff.mpr hbuf, Bool.false_eq_true, if_false,
      List.singleton_append]
    exact ⟨⟨by simp, some _, c.gop, a, front, rfl, by simp, h.pictures, hrun, Nat.le_refl _,
      fun _ => rfl, by simpa [configOf] using h.keys⟩, by simp [configOf]⟩

/-- STEP: an initial snapshot is taken. -/
theorem Stream.Sound.snapshot {s s' : Stream} {front : Nat} (h : s.Sound front)
    (hsteady : s.Steady .snapshot) (hs : s.step .snapshot = some s') : s'.Sound front := by
  simp only [step, Option.ite_none_right_eq_some, Option.some.injEq] at hs
  obtain ⟨⟨hphase, _⟩, rfl⟩ := hs
  have hearly : s.phase.early = true := by rcases hphase with hp | hp <;> simp [hp, Phase.early]
  have hsub : s.feed.subscribed = true :=
    h.subscribed.mpr (by rcases hphase with hp | hp <;> simp [hp])
  obtain ⟨hpusher, hopen⟩ := h.opening hearly
  have hknown : s.known = configOf s.initial := by
    rcases hphase with hp | hp <;> simp [known, hp]
  cases hnew : s.feed.cache.bind FrameCache.initialFrames with
  | none =>
    refine ⟨?_, h.link, fun _ => ⟨hpusher, by simpa using hopen⟩, by simp, by simpa using hsub⟩
    have hk : Stream.known { s with phase := .sampled } = s.known := hknown.symm ▸ rfl
    simpa [hk] using h.feed
  | some frames =>
    obtain ⟨c, hc, hframes⟩ := Option.bind_eq_some_iff.mp hnew
    have hcache := h.feed.cache c hc
    have hsteady := hsteady c hc
    have hfront : c.gop ≠ [] → front = s.feed.count := by
      intro hgop
      rw [if_neg hgop] at hsteady
      simpa [hsteady] using h.feed.run
    obtain ⟨hop, hcfg⟩ := hcache.opening hframes hfront s.feed.overflowed
    have hkeys : ∀ f ∈ pictures s.feed.pipe, f.isKeyframe = true →
        f.newest = none ∨ f.newest = s.feed.newest := by
      split at hsteady
      · exact hcache.config ▸ hsteady
      · simp [hsteady]
    have hnewest : lastConfig s.feed.newest s.feed.pipe = s.feed.newest := by
      rcases h.feed.newest with heq | hnone
      · exact lastConfig_self heq
      · exact lastConfig_of_none hnone
    refine ⟨?_, h.link, fun _ => ⟨hpusher, ?_⟩, by simp, by simpa using hsub⟩
    · have hk : Stream.known { s with phase := .sampled, initial := some frames } =
          s.feed.newest := by simp [known, hcfg]
      simp only [Option.some_or, hk]
      exact ⟨h.feed.cache, h.feed.run, h.feed.fits.reset hkeys, Or.inl hnewest⟩
    · intro frames' hf
      simp only [Option.some_or, Option.some.injEq] at hf
      subst hf
      exact hop

/-- STEP: an iteration of the loop. -/
theorem Stream.Sound.iterate {s : Stream} {front : Nat} (h : s.Sound front)
    (hp : s.phase = .pushing) {late : Bool} {turns : Nat → Turn}
    (hsteady : s.Steady (.iterate late turns)) :
    (s.iterate late turns).pusher.wire.Chained ∧
      ((s.iterate late turns).phase = .stopped ∨ ∃ m, (s.iterate late turns).Sound m) := by
  have hfeed : s.feed.Sound front s.pusher.configNalu := by simpa [known, hp] using h.feed
  have hsub : s.feed.subscribed = true := h.subscribed.mpr (by simp [hp])
  simp only [Steady, Stream.drained, Stream.iterate, Pusher.drain] at hsteady ⊢
  obtain ⟨m, hrun, hfits, hrest⟩ := hfeed.drained (s.feed.overflowed && s.feed.queue.isEmpty)
  by_cases hq : s.feed.queue = []
  · simp only [hq, List.isEmpty_nil, if_true, Bool.and_true] at hrest ⊢
    refine ⟨h.link.chained, ?_⟩
    split
    · refine Or.inr ⟨front, ?_⟩
      obtain rfl : front = m := by simpa [hq] using hrun
      refine ⟨by simpa [known, hp] using hrest, ?_, by simp [hp, Phase.early], by simp [hp],
        by simpa [hp] using hsub⟩
      simpa [linked] using h.link
    · exact Or.inl rfl
  · have hne : s.feed.queue.isEmpty = false := by simpa using hq
    simp only [hne, Bool.false_eq_true, if_false, Bool.and_false] at hsteady hrest ⊢
    generalize hlimit : backlogLimit s.minFrameIntervalMs = limit at hsteady ⊢
    obtain ⟨b, linked, hkept, hlink, hnil, hsettled⟩ := Pusher.decision_link hrun
      h.link (fun hk => (hsteady hk).2)
    generalize hd : s.pusher.decision limit s.feed.overflowed (pictures s.feed.queue) = d
      at hkept hnil hsettled hsteady ⊢
    cases hempty : (d.kept (pictures s.feed.queue)).isEmpty with
    | true =>
      simp only [if_true]
      obtain ⟨rfl, rfl⟩ := hnil (List.isEmpty_iff.mp hempty)
      refine ⟨hlink.chained, ?_⟩
      split
      · refine Or.inr ⟨b, ?_⟩
        refine ⟨by simpa [known, hp] using hrest, ?_, by simp [hp, Phase.early], by simp [hp],
          by simpa [hp] using hsub⟩
        simpa [Stream.linked] using hlink
      · exact Or.inl rfl
    | false =>
      have hkne : d.kept (pictures s.feed.queue) ≠ [] := by simpa using hempty
      simp only [Bool.false_eq_true, if_false]
      obtain ⟨horder, _⟩ := hsteady hkne
      obtain ⟨hwire, hcfg⟩ := Pusher.sendLoop_link (p := { s.pusher with
          configNalu := lastConfig s.pusher.configNalu s.feed.queue
          pendingConfig := s.pusher.pendingConfig || s.feed.queue.any fun f => f.isConfig
          waitingKey := d.waits s.pusher.waitingKey }) hlink hkept
        (fun f hf => hfits.keys horder (mem_kept hf)) (hsettled hkne)
      refine ⟨hwire.chained, Or.inr ⟨m, ?_⟩⟩
      refine ⟨by simpa [known, hp, hcfg] using hrest, ?_, by simp [hp, Phase.early], by simp [hp],
        by simpa [hp] using hsub⟩
      refine hwire.weaken fun hl => ?_
      simp only [Stream.linked, Bool.and_eq_true] at hl
      exact hl.1.1

/-- INVARIANT of every run: the chain stands, and the pusher has stopped or the stream is sound. -/
def Stream.Safe (s : Stream) : Prop :=
  s.pusher.wire.Chained ∧ (s.phase = .stopped ∨ ∃ front, s.Sound front)

theorem Stream.Sound.safe {s : Stream} {front : Nat} (h : s.Sound front) : s.Safe :=
  ⟨h.link.chained, Or.inr ⟨front, h⟩⟩

/-- STEP: the device emits a frame. -/
theorem Stream.Sound.feed_frame {s s' : Stream} {front : Nat} (h : s.Sound front)
    {frame : VideoFrame} (hsteady : s.Steady (.feed frame)) (hs : s.step (.feed frame) = some s') :
    s'.Sound front := by
  obtain ⟨feed, hf, rfl⟩ := Option.map_eq_some_iff.mp hs
  obtain ⟨hover, hch, hq, hsub⟩ := Feed.feed_frame hf
  exact h.moved (h.feed.feed hsteady hf) (Nat.le_refl _) (Or.inl ⟨rfl, hover⟩)
    (fun hp => by rw [hch, hq]; exact (h.fresh hp).2) hsub

/-- STEP: a frame is broadcast. -/
theorem Stream.Sound.publish {s s' : Stream} {front : Nat} (h : s.Sound front)
    (hsteady : s.Steady .publish) (hs : s.step .publish = some s') : ∃ front', s'.Sound front' := by
  obtain ⟨feed, hf, rfl⟩ := Option.map_eq_some_iff.mp hs
  obtain ⟨hover, hq, hsub, hunheard⟩ := Feed.publish_frame hf
  by_cases hp : s.phase = .connecting
  · obtain ⟨hinit, hch, hqueue⟩ := h.fresh hp
    have hnone : s.feed.subscribed = false := by
      have hiff := h.subscribed
      simp only [hp, ne_eq, not_true, iff_false, Bool.not_eq_true] at hiff
      exact hiff
    obtain rfl := hunheard hnone
    have hknown : s.known = none := by simp [known, hp, hinit, configOf]
    refine ⟨s.feed.count, ?_, ?_, ?_, ?_, ?_⟩
    · have hfeed := hknown ▸ h.feed
      exact hknown.symm ▸ hfeed.unheard hch hqueue
    · have hpusher := (h.opening (by simp [hp, Phase.early])).1
      simpa [linked, hpusher] using Chain.Link.nil s.feed.count
    · exact fun he => ⟨(h.opening he).1, by simp [hinit]⟩
    · exact fun _ => ⟨hinit, hch, hqueue⟩
    · simp [hnone, hp]
  · have hlistens := h.subscribed.mpr hp
    exact ⟨front, h.moved (h.feed.publish hlistens (hsteady hlistens) hf) (Nat.le_refl _)
      (Or.inl ⟨rfl, hover⟩) (fun hc => absurd hc hp) hsub⟩

/-- STEP: a frame is forwarded to the queue. -/
theorem Stream.Sound.forward {s s' : Stream} {front : Nat} (h : s.Sound front)
    (hsteady : s.Steady .forward) (hs : s.step .forward = some s') : ∃ front', s'.Sound front' := by
  obtain ⟨feed, hf, rfl⟩ := Option.map_eq_some_iff.mp hs
  obtain ⟨hne, hsub⟩ := Feed.forward_frame hf
  have hfresh : s.phase = .connecting → feed.channel = [] ∧ feed.queue = [] :=
    fun hp => absurd (h.fresh hp).2.1 hne
  rcases h.feed.forward hsteady hf with ⟨hover, hfeed⟩ | ⟨hover, front', hle, hfeed⟩
  · exact ⟨front, h.moved hfeed (Nat.le_refl _) (Or.inl ⟨rfl, hover⟩) hfresh hsub⟩
  · exact ⟨front', h.moved hfeed hle (Or.inr hover) hfresh hsub⟩

/-- STEP: the viewer subscribes. -/
theorem Stream.Sound.subscribe {s s' : Stream} {front : Nat} (h : s.Sound front)
    (hs : s.step .subscribe = some s') : s'.Sound front := by
  simp only [step, Option.ite_none_right_eq_some, Option.some.injEq] at hs
  obtain ⟨hp, rfl⟩ := hs
  obtain ⟨hinit, -, -⟩ := h.fresh hp
  obtain ⟨hcache, hrun, hfits, hnewest⟩ := h.feed
  have hk : Stream.known { s with
      phase := .subscribed, feed := { s.feed with subscribed := true } } = s.known := by
    simp [known, hp]
  exact ⟨hk.symm ▸ ⟨hcache, hrun, hfits, hnewest⟩, h.link,
    fun _ => ⟨(h.opening (by simp [hp, Phase.early])).1, by simp [hinit]⟩, by simp, by simp⟩

/-- STEP: the pusher starts. -/
theorem Stream.Sound.start {s s' : Stream} {front : Nat} (h : s.Sound front)
    {attempts : Nat → Nat → Turn} (hsteady : s.Steady (.start attempts))
    (hs : s.step (.start attempts) = some s') : s'.Sound front := by
  simp only [step, Option.ite_none_right_eq_some, Option.some.injEq] at hs
  obtain ⟨hp, rfl⟩ := hs
  have hk : Stream.known { s with phase := .pushing, pusher := .start s.initial attempts } =
      s.known := by
    cases hi : s.initial <;> simp [known, hp, hi, Pusher.start]
  refine ⟨hk.symm ▸ h.feed, ?_, by simp [Phase.early], by simp,
    by simpa [hp] using h.subscribed⟩
  exact Pusher.start_link (h.opening (by simp [hp, Phase.early])).2 hsteady

/-- STEP: a steady move keeps a stream safe. -/
theorem Stream.Safe.step {s s' : Stream} {m : Move} (h : s.Safe) (hsteady : s.Steady m)
    (hs : s.step m = some s') : s'.Safe := by
  obtain ⟨hchained, hstopped | ⟨front, hsound⟩⟩ := h
  · suffices hsame : s'.pusher = s.pusher ∧ s'.phase = .stopped from
      ⟨hsame.1 ▸ hchained, Or.inl hsame.2⟩
    cases m with
    | feed | publish | forward =>
      obtain ⟨feed, _, rfl⟩ := Option.map_eq_some_iff.mp hs
      exact ⟨rfl, hstopped⟩
    | subscribe | snapshot | start | iterate => simp [Stream.step, hstopped] at hs
    | stop =>
      obtain rfl := Option.some.inj hs
      exact ⟨rfl, rfl⟩
  · cases m with
    | feed frame => exact (hsound.feed_frame hsteady hs).safe
    | publish =>
      obtain ⟨front', hsound'⟩ := hsound.publish hsteady hs
      exact hsound'.safe
    | forward =>
      obtain ⟨front', hsound'⟩ := hsound.forward hsteady hs
      exact hsound'.safe
    | subscribe => exact (hsound.subscribe hs).safe
    | snapshot => exact (hsound.snapshot hsteady hs).safe
    | start attempts => exact (hsound.start hsteady hs).safe
    | iterate late turns =>
      simp only [Stream.step, Option.ite_none_right_eq_some, Option.some.injEq] at hs
      obtain ⟨hp, rfl⟩ := hs
      exact hsound.iterate hp hsteady
    | stop =>
      obtain rfl := Option.some.inj hs
      exact ⟨hchained, Or.inl rfl⟩

/-- RUN: what a viewer is sent over a run of steady moves keeps its reference chain. -/
theorem Stream.reference_chain {minFrameIntervalMs : Nat} {decodeFrames : Bool} {s : Stream}
    (h : Machine.ReachesBy Stream.step Stream.Steady (.opened minFrameIntervalMs decodeFrames) s) :
    s.pusher.wire.Chained :=
  (h.invariant (I := Stream.Safe) (fun _ _ _ hi hg hs => hi.step hg hs)
    (Stream.sound_opened _ _).safe).1

/-- A turn on which everything is written. -/
def Turn.full : Turn := ⟨true, [.bytes 20], some [.bytes 900, .bytes 300]⟩

def VideoFrame.config : VideoFrame := ⟨[0, 0, 0, 1, 0x67], true, false⟩
def VideoFrame.key : VideoFrame := ⟨[0, 0, 0, 1, 0x65], false, true⟩
def VideoFrame.delta : VideoFrame := ⟨[0, 0, 0, 1, 0x41], false, false⟩

/-- A viewer joins behind a key frame; the next two frames are drained together. -/
def jitterRun (turns : Nat → Turn) : List Move :=
  [.feed .config, .publish, .feed .key, .publish, .subscribe, .snapshot, .feed .delta, .publish,
    .forward, .feed .delta, .publish, .forward, .start fun _ _ => .full, .iterate false turns]

theorem Stream.reference_chain_full :
    ∃ s, Machine.ReachesBy Stream.step Stream.Steady (.opened 33 true) s ∧
      (Chain.items s.pusher.wire).length = 3 ∧ s.pusher.wire.Chained := by
  obtain ⟨s, hrun, hlen⟩ : ∃ s, Machine.exec Stream.step (.opened 33 true)
      (jitterRun fun _ => .full) = some s ∧ (Chain.items s.pusher.wire).length = 3 :=
    Machine.exec_eval (by decide +kernel)
  have hreach : Machine.ReachesBy Stream.step Stream.Steady (.opened 33 true) s :=
    ⟨_, hrun, by decide +kernel⟩
  exact ⟨s, hreach, hlen, Stream.reference_chain hreach⟩

/-- The peer is disconnected when the first of two drained frames has its turn and connected again
    on the second, which is then sent without its reference. -/
theorem jitter_breaks_reference_chain :
    ∃ s, Machine.exec Stream.step (.opened 33 true)
      (jitterRun fun i => { Turn.full with connected := i != 0 }) = some s ∧
      ¬ s.pusher.wire.Chained :=
  Machine.exec_eval (by decide +kernel)

end Gamer.Webrtc
