import Gamer.Ipc.Dispatch

/-! What a retry is answered. The cache answers it with the first frame for as long as the window
    lasts, and so does a running operation of the same kind; the replies of a coalesced request
    and of a busy desktop are the two that leave the cache out:

        submit a check ──▶ accepted, cached      submit b check ──▶ a's result, not cached
        check ends
        submit b check ──▶ admitted anew: another operation

    At most one operation runs in any case, and a request id starts one at most. -/

namespace Gamer.Ipc
open Gamer.Lib Gamer.Updater

/-- The answers keep to the dedup window: a retry gets the first accepted frame and starts nothing,
    one operation runs at a time, and one is started per id. -/
structure Idempotent (s : State) : Prop where
  same : s.replies.Pairwise fun e l => e.covers l.requestId l.asked = true →
    l.frame = e.frame ∧ l.started = false
  single : s.workers.length ≤ 1
  once : s.replies.Pairwise fun e l => e.requestId = l.requestId → e.started = true →
    l.started = true → e.answered + dedupWindow ≤ l.asked

/-- A retry of `e` finds its answer: the desktop is not busy, and the id is in the cache or the
    active operation is of its kind and has the result of `e`. -/
def Inner.Holds (inner : Inner) (e : Reply) (requestId : String) (op : Operation) (now : Nat) :
    Prop :=
  inner.desktopActive = false ∧
    ((∃ c, inner.cache.get requestId = some c ∧ now < c.expires) ∨
      ∃ a, inner.active = some a ∧ a.op = op ∧ e.frame = .success requestId a.accepted)

/-- The action is no retry within the window of an accepted answer, or its answer is held. -/
def Answerable (s : State) : Action → Prop
  | .request conn requestId op wait _ _ =>
    requestId ∈ (s.seen.get conn).getD [] ∨ op = .status ∨
      ∀ e ∈ s.replies, e.covers requestId (s.clock + wait) = true →
        s.inner.Holds e requestId op (s.clock + wait)
  | _ => True

/-! ### One call of submit -/

/-- The result is that of a started operation: only a download that has nothing to do says
    `staged`. -/
def Accepted.Opens (a : Accepted) : Prop := ¬ (a.operation = "download" ∧ a.state = "staged")

/-- The live part of the cache. -/
def Inner.prune (inner : Inner) (now : Nat) : Inner :=
  { inner with cache := inner.cache.filter fun _ c => now < c.expires }

/-- The id has no live reply in the cache. -/
def Inner.Misses (inner : Inner) (requestId : String) (now : Nat) : Prop :=
  ∀ c, inner.cache.get requestId = some c → ¬ now < c.expires

/-- Put a reply into the cache. -/
def Inner.keep (inner : Inner) (requestId : String) (frame : Frame) (cachedAt : Nat) : Inner :=
  { inner with cache := inner.cache.set requestId ⟨frame, cachedAt + dedupWindow⟩ }

/-- The reply paths of `submit`. -/
inductive Submitted (inner : Inner) (id : String) (op : Operation) (now cachedAt : Nat) :
    Frame → Bool → Inner → Prop
  | desktop (hd : inner.desktopActive = true) :
      Submitted inner id op now cachedAt (.error id Codes.updateBusy desktopMessage) false inner
  | hit (c : CachedReply) (hd : inner.desktopActive = false)
      (hc : inner.cache.get id = some c) (hlive : now < c.expires) :
      Submitted inner id op now cachedAt c.frame false (inner.prune now)
  | joined (a : ActiveOp) (hd : inner.desktopActive = false) (hmiss : inner.Misses id now)
      (ha : inner.active = some a) (hop : a.op = op) :
      Submitted inner id op now cachedAt (.success id a.accepted) false (inner.prune now)
  | refused (code message : String) (hd : inner.desktopActive = false)
      (hmiss : inner.Misses id now) (hop : ∀ a, inner.active = some a → a.op ≠ op) :
      Submitted inner id op now cachedAt (.error id code message) false
        ((inner.prune now).keep id (.error id code message) cachedAt)
  | noOp (r : Accepted) (hd : inner.desktopActive = false) (hmiss : inner.Misses id now)
      (hidle : inner.active = none) (hr : ¬ r.Opens) :
      Submitted inner id op now cachedAt (.success id r) false
        ((inner.prune now).keep id (.success id r) cachedAt)
  | accepted (r : Accepted) (hd : inner.desktopActive = false) (hmiss : inner.Misses id now)
      (hidle : inner.active = none) (hr : r.Opens) :
      Submitted inner id op now cachedAt (.success id r) true
        { (inner.prune now).keep id (.success id r) cachedAt with active := some ⟨op, r⟩ }

/-- Only a download is a no-op, and it says so in its state. -/
theorem admit_noOp {journal : Except String UpdateJournal} {op : Operation} {state : String}
    {updateId : Option String} (h : admitOp journal op = .noOp state updateId) :
    op = .download ∧ state = "staged" := by
  unfold admitOp at h
  cases op <;> simp only at h <;> split at h <;> try cases h
  all_goals split at h <;> try cases h
  all_goals split at h <;> try cases h
  all_goals split at h <;> try cases h
  exact ⟨rfl, rfl⟩

theorem admit_accept {journal : Except String UpdateJournal} {op : Operation} {state : String}
    {updateId : Option String} (h : admitOp journal op = .accept state updateId) :
    Accepted.Opens ⟨op.asStr, updateId, state⟩ := by
  rintro ⟨hop, hstate⟩
  dsimp only at hop hstate
  subst hstate
  unfold admitOp at h
  cases op <;> simp only at h <;> simp [Operation.asStr] at hop
  split at h <;> try cases h
  split at h <;> try cases h
  split at h <;> try simp at h
  split at h <;> cases h

theorem Inner.prune_get {inner : Inner} {id : String} {now : Nat} {c : CachedReply} :
    (inner.prune now).cache.get id = some c ↔ inner.cache.get id = some c ∧ now < c.expires := by
  unfold Inner.prune
  rw [Table.get_filter_eq_some, decide_eq_true_iff]

/-- INVERSION: every call of `submit` takes one of the reply paths. -/
theorem Inner.submit_cases (inner : Inner) (id : String) (op : Operation) (now cachedAt : Nat)
    (journal : Except String UpdateJournal) :
    Submitted inner id op now cachedAt (inner.submit id op now cachedAt journal).1
      (inner.submit id op now cachedAt journal).2.1
      (inner.submit id op now cachedAt journal).2.2 := by
  cases hd : inner.desktopActive with
  | true =>
    simp only [Inner.submit, hd, if_true]
    exact .desktop hd
  | false =>
    have hopen : ¬ inner.desktopActive = true := by simp [hd]
    unfold Inner.submit
    rw [if_neg hopen]
    dsimp only
    split
    · next c hc =>
      obtain ⟨hget, hlive⟩ := Inner.prune_get.mp hc
      exact .hit c hd hget hlive
    · next hnone =>
      have hmiss : inner.Misses id now := fun c hc hlive => by
        have hpruned := Inner.prune_get.mpr ⟨hc, hlive⟩
        unfold Inner.prune at hpruned
        rw [hnone] at hpruned
        cases hpruned
      split
      · next a ha =>
        split
        · next hop => exact .joined a hd hmiss ha hop
        · next hop =>
          refine .refused _ _ hd hmiss fun a' ha' => ?_
          obtain rfl : a = a' := Option.some.inj (ha.symm.trans ha')
          exact hop
      · next hidle =>
        split
        · next hadmit => exact .accepted _ hd hmiss hidle (admit_accept hadmit)
        · next hadmit =>
          obtain ⟨rfl, rfl⟩ := admit_noOp hadmit
          exact .noOp _ hd hmiss hidle fun h => h ⟨rfl, rfl⟩
        · exact .refused _ _ hd hmiss fun a ha => by rw [hidle] at ha; cases ha

/-! ### The invariants -/

/-- The worker of the active operation, and no other; none while the desktop is busy. -/
inductive Slot : Bool → Option ActiveOp → List Worker → Prop
  | free (desktop : Bool) : Slot desktop none []
  | taken (a : ActiveOp) (running : Bool) : Slot false (some a) [⟨a.op, running⟩]

theorem Slot.length {desktop : Bool} {active : Option ActiveOp} {workers : List Worker}
    (h : Slot desktop active workers) : workers.length ≤ 1 := by
  cases h <;> simp

theorem Slot.desktop {active : Option ActiveOp} {workers : List Worker}
    (h : Slot true active workers) : workers = [] := by
  cases h
  rfl

/-- The reply of `e` is in the cache for as long as its window lasts. -/
def Inner.Caches (inner : Inner) (e : Reply) : Prop :=
  ∃ c, inner.cache.get e.requestId = some c ∧ e.answered + dedupWindow ≤ c.expires

/-- What the history says about the active slot and the cache, in any run. -/
structure Inv (s : State) : Prop where
  slot : Slot s.inner.desktopActive s.inner.active s.workers
  opens : ∀ a, s.inner.active = some a → a.accepted.Opens
  first : ∀ e ∈ s.replies, e.first = true → e.frame.accepted = true
  started : ∀ e ∈ s.replies, e.started = true → s.clock < e.answered + dedupWindow →
    s.inner.Caches e
  once : s.replies.Pairwise fun e l => e.requestId = l.requestId → e.started = true →
    l.started = true → e.answered + dedupWindow ≤ l.asked

/-- The live cache entries are the answers that opened a window. This holds for as long as the
    answers are the same within each window. -/
structure Agrees (s : State) : Prop where
  kept : ∀ e ∈ s.replies, e.first = true → s.clock < e.answered + dedupWindow →
    s.inner.Caches e ∨ ∃ r, e.frame = .success e.requestId r ∧ r.Opens
  frame : ∀ e ∈ s.replies, e.first = true → s.clock < e.answered + dedupWindow →
    ∀ c, s.inner.cache.get e.requestId = some c → s.clock < c.expires → c.frame = e.frame
  source : ∀ id c, s.inner.cache.get id = some c → s.clock < c.expires →
    c.frame.accepted = true → ∃ k ∈ s.replies, k.first = true ∧ k.requestId = id ∧
      c.expires = k.answered + dedupWindow

/-- A retry is answered with the frame of `e` and starts nothing exactly if its answer is held. -/
theorem Submitted.same_iff {s : State} {id : String} {op : Operation} {now cachedAt : Nat}
    {frame : Frame} {started : Bool} {inner : Inner}
    (h : Submitted s.inner id op now cachedAt frame started inner) (hinv : Inv s)
    (hagree : Agrees s) (hnow : s.clock ≤ now) {e : Reply} (he : e ∈ s.replies)
    (hcov : e.covers id now = true) :
    (frame = e.frame ∧ started = false) ↔ s.inner.Holds e id op now := by
  simp only [Reply.covers, Bool.and_eq_true, decide_eq_true_eq] at hcov
  obtain ⟨⟨hfirst, rfl⟩, hwithin⟩ := hcov
  have hclock : s.clock < e.answered + dedupWindow := by omega
  have haccepted := hinv.first e he hfirst
  have herror : ∀ {code message}, Frame.error e.requestId code message ≠ e.frame := by
    intro code message heq
    rw [← heq] at haccepted
    cases haccepted
  have hlost : ∀ hmiss : s.inner.Misses e.requestId now,
      ¬ ∃ c, s.inner.cache.get e.requestId = some c ∧ now < c.expires :=
    fun hmiss ⟨c, hc, hlive⟩ => hmiss c hc hlive
  unfold Inner.Holds
  cases h with
  | desktop hd => simp [hd, herror]
  | hit c hd hc hlive =>
    have hframe := hagree.frame e he hfirst hclock c hc (by omega)
    exact ⟨fun _ => ⟨hd, .inl ⟨c, hc, hlive⟩⟩, fun _ => ⟨hframe, rfl⟩⟩
  | joined a hd hmiss ha hop =>
    constructor
    · rintro ⟨hframe, _⟩
      exact ⟨hd, .inr ⟨a, ha, hop, hframe.symm⟩⟩
    · rintro ⟨_, hlive | ⟨a', ha', _, hframe⟩⟩
      · exact absurd hlive (hlost hmiss)
      · obtain rfl : a = a' := Option.some.inj (ha.symm.trans ha')
        exact ⟨hframe.symm, rfl⟩
  | refused code message hd hmiss hop =>
    constructor
    · rintro ⟨hframe, _⟩
      exact absurd hframe herror
    · rintro ⟨_, hlive | ⟨a, ha, heq, _⟩⟩
      · exact absurd hlive (hlost hmiss)
      · exact absurd heq (hop a ha)
  | noOp r hd hmiss hidle hr =>
    constructor
    · rintro ⟨hframe, _⟩
      -- a first answer that is not cached any more came from a running operation
      rcases hagree.kept e he hfirst hclock with ⟨c, hc, hlong⟩ | ⟨r', hr', hopens⟩
      · exact absurd ⟨c, hc, by omega⟩ (hlost hmiss)
      · rw [hr'] at hframe
        cases hframe
        exact absurd hopens hr
    · rintro ⟨_, hlive | ⟨a, ha, _⟩⟩
      · exact absurd hlive (hlost hmiss)
      · rw [hidle] at ha; cases ha
  | accepted r hd hmiss hidle hr =>
    constructor
    · rintro ⟨_, hstarted⟩
      cases hstarted
    · rintro ⟨_, hlive | ⟨a, ha, _⟩⟩
      · exact absurd hlive (hlost hmiss)
      · rw [hidle] at ha; cases ha

/-! ### What a call of submit leaves behind -/

theorem Inner.keep_get (inner : Inner) (id id' : String) (frame : Frame) (cachedAt : Nat) :
    (inner.keep id frame cachedAt).cache.get id' =
      if id' = id then some ⟨frame, cachedAt + dedupWindow⟩ else inner.cache.get id' :=
  Table.get_set inner.cache id id' _

/-- The reply of an accepted answer stays in the cache through its window. -/
theorem Submitted.caches {inner inner' : Inner} {id : String} {op : Operation} {now t : Nat}
    {frame : Frame} {started : Bool} (h : Submitted inner id op now t frame started inner')
    {e : Reply} (he : inner.Caches e) (hnow : now ≤ t) (ht : t < e.answered + dedupWindow) :
    inner'.Caches e := by
  obtain ⟨c, hc, hlong⟩ := he
  have hlive : now < c.expires := by omega
  have hpruned : (inner.prune now).cache.get e.requestId = some c :=
    Inner.prune_get.mpr ⟨hc, hlive⟩
  have hset : ∀ frame, inner.Misses id now →
      ((inner.prune now).keep id frame t).Caches e := by
    intro frame hmiss
    refine ⟨c, ?_, hlong⟩
    rw [Inner.keep_get, if_neg, hpruned]
    rintro rfl
    exact hmiss c hc hlive
  cases h with
  | desktop hd => exact ⟨c, hc, hlong⟩
  | hit c' hd hc' hlive' => exact ⟨c, hpruned, hlong⟩
  | joined a hd hmiss ha hop => exact ⟨c, hpruned, hlong⟩
  | refused code message hd hmiss hop => exact hset _ hmiss
  | noOp r hd hmiss hidle hr => exact hset _ hmiss
  | accepted r hd hmiss hidle hr => exact hset _ hmiss

theorem Submitted.opens {inner inner' : Inner} {id : String} {op : Operation} {now t : Nat}
    {frame : Frame} {started : Bool} (h : Submitted inner id op now t frame started inner')
    (hopens : ∀ a, inner.active = some a → a.accepted.Opens) :
    ∀ a, inner'.active = some a → a.accepted.Opens := by
  cases h with
  | accepted r hd hmiss hidle hr =>
    intro a ha
    cases ha
    exact hr
  | _ => exact hopens

theorem Submitted.slot {inner inner' : Inner} {id : String} {op : Operation} {now t : Nat}
    {frame : Frame} {started : Bool} (h : Submitted inner id op now t frame started inner')
    {workers : List Worker} (hslot : Slot inner.desktopActive inner.active workers) :
    Slot inner'.desktopActive inner'.active
      (if started then workers ++ [⟨op, false⟩] else workers) := by
  cases h with
  | accepted r hd hmiss hidle hr =>
    rw [hd, hidle] at hslot
    cases hslot
    simp only [Inner.keep, Inner.prune, hd]
    exact .taken ⟨op, r⟩ false
  | _ => exact hslot

/-- A started operation has its reply cached, and none was cached before. -/
theorem Submitted.started {inner inner' : Inner} {id : String} {op : Operation} {now t : Nat}
    {frame : Frame} (h : Submitted inner id op now t frame true inner') :
    inner.Misses id now ∧ inner'.cache.get id = some ⟨frame, t + dedupWindow⟩ := by
  cases h with
  | accepted r hd hmiss hidle hr => exact ⟨hmiss, by simp [Inner.keep]⟩

/-- INVERSION: a request is answered before `submit`, or by it. -/
theorem step_request {s s' : State} {conn : Nat} {id : String} {op : Operation}
    {wait delay : Nat} {journal : Except String UpdateJournal}
    (h : step s (.request conn id op wait delay journal) = some s') :
    ((id ∈ (s.seen.get conn).getD [] ∨ op = .status) ∧ s'.inner = s.inner ∧
      s'.workers = s.workers ∧ s'.replies = s.replies ∧ s.clock ≤ s'.clock) ∨
    (¬ (id ∈ (s.seen.get conn).getD [] ∨ op = .status) ∧ ∃ frame started,
      Submitted s.inner id op (s.clock + wait) (s.clock + wait + delay) frame started s'.inner ∧
      s'.workers = (if started then s.workers ++ [⟨op, false⟩] else s.workers) ∧
      s'.clock = s.clock + wait + delay ∧
      s'.replies = s.replies ++ [⟨id, op, s.clock + wait, s.clock + wait + delay, frame, started,
        frame.accepted && !s.replies.any (·.covers id (s.clock + wait))⟩]) := by
  simp only [step] at h
  split at h
  · next hseen =>
    cases h
    exact .inl ⟨.inl hseen, rfl, rfl, rfl, Nat.le_add_right _ _⟩
  · next hseen =>
    split at h
    · next hstatus =>
      cases h
      exact .inl ⟨.inr hstatus, rfl, rfl, rfl, Nat.le_add_right _ _⟩
    · next hstatus =>
      cases h
      exact .inr ⟨fun hq => hq.elim hseen hstatus, _, _,
        s.inner.submit_cases id op _ _ journal, rfl, rfl, rfl⟩

/-- FRAME: the rest of the actions leave the history and the cache alone. -/
theorem Inv.quiet {s s' : State} (hinv : Inv s) (hcache : s'.inner.cache = s.inner.cache)
    (hreplies : s'.replies = s.replies) (hclock : s.clock ≤ s'.clock)
    (hslot : Slot s'.inner.desktopActive s'.inner.active s'.workers)
    (hopens : ∀ a, s'.inner.active = some a → a.accepted.Opens) : Inv s' := by
  refine ⟨hslot, hopens, ?_, ?_, ?_⟩
  · rw [hreplies]; exact hinv.first
  · rw [hreplies]
    intro e he hstarted hlt
    unfold Inner.Caches
    rw [hcache]
    exact hinv.started e he hstarted (by omega)
  · rw [hreplies]; exact hinv.once

theorem Agrees.quiet {s s' : State} (hagree : Agrees s)
    (hcache : s'.inner.cache = s.inner.cache) (hreplies : s'.replies = s.replies)
    (hclock : s.clock ≤ s'.clock) : Agrees s' := by
  refine ⟨?_, ?_, ?_⟩
  · rw [hreplies]
    intro e he hfirst hlt
    unfold Inner.Caches
    rw [hcache]
    exact hagree.kept e he hfirst (by omega)
  · rw [hreplies, hcache]
    intro e he hfirst hlt c hc hlive
    exact hagree.frame e he hfirst (by omega) c hc (by omega)
  · rw [hreplies, hcache]
    intro id c hc hlive
    exact hagree.source id c hc (by omega)

/-- The release of the slot by its worker. -/
theorem Slot.release {inner : Inner} {workers : List Worker} {k : Nat} {w : Worker}
    (h : Slot inner.desktopActive inner.active workers) (hk : workers[k]? = some w) :
    Slot (inner.release w.op).desktopActive (inner.release w.op).active (workers.eraseIdx k) ∧
      (inner.release w.op).active = none := by
  obtain ⟨desktop, active, cache⟩ := inner
  dsimp only at h
  cases h with
  | free => simp at hk
  | taken a running =>
    cases k with
    | zero =>
      cases hk
      simp only [Inner.release, Option.any_some, decide_true, if_true]
      exact ⟨.free _, trivial⟩
    | succ k => simp at hk

theorem Inner.release_cache (inner : Inner) (op : Operation) :
    (inner.release op).cache = inner.cache := by
  unfold Inner.release
  split <;> rfl

/-- STEP: the actions other than a request that reaches `submit`. -/
theorem step_quiet {s s' : State} {a : Action} (hslot : Slot s.inner.desktopActive s.inner.active
      s.workers) (h : step s a = some s')
    (hrest : ∀ conn id op wait delay journal, a ≠ .request conn id op wait delay journal) :
    s'.inner.cache = s.inner.cache ∧ s'.replies = s.replies ∧ s.clock ≤ s'.clock ∧
      Slot s'.inner.desktopActive s'.inner.active s'.workers ∧
      (s'.inner.active = s.inner.active ∨ s'.inner.active = none) := by
  cases a with
  | request conn id op wait delay journal => exact absurd rfl (hrest _ _ _ _ _ _)
  | reconnect conn =>
    cases h
    exact ⟨rfl, rfl, Nat.le_refl _, hslot, .inl rfl⟩
  | spawned k ok =>
    simp only [step] at h
    split at h
    · next op hk =>
      split at h
      · cases h
        refine ⟨rfl, rfl, Nat.le_refl _, ?_, .inl rfl⟩
        -- the only worker goes from spawned to running
        obtain ⟨⟨desktop, active, cache⟩, workers, seen, clock, replies⟩ := s
        dsimp only at hslot hk ⊢
        cases hslot with
        | free => simp at hk
        | taken a running =>
          cases k with
          | zero => cases hk; exact .taken a true
          | succ k => simp at hk
      · cases h
        obtain ⟨hfree, hnone⟩ := hslot.release hk
        exact ⟨Inner.release_cache _ _, rfl, Nat.le_refl _, hfree, .inr hnone⟩
    · cases h
  | finished k =>
    simp only [step] at h
    split at h
    · next op hk =>
      cases h
      obtain ⟨hfree, hnone⟩ := hslot.release hk
      exact ⟨Inner.release_cache _ _, rfl, Nat.le_refl _, hfree, .inr hnone⟩
    · cases h
  | beginDesktop =>
    simp only [step] at h
    split at h
    · cases h
    · next hfree =>
      cases h
      refine ⟨rfl, rfl, Nat.le_refl _, ?_, .inl rfl⟩
      obtain ⟨⟨desktop, active, cache⟩, workers, seen, clock, replies⟩ := s
      dsimp only at hslot ⊢
      cases hslot with
      | free => exact .free _
      | taken a running => simp at hfree
  | endDesktop =>
    simp only [step] at h
    split at h
    · next hbusy =>
      cases h
      refine ⟨rfl, rfl, Nat.le_refl _, ?_, .inl rfl⟩
      obtain ⟨⟨desktop, active, cache⟩, workers, seen, clock, replies⟩ := s
      dsimp only at hslot hbusy ⊢
      cases hslot with
      | free => exact .free _
      | taken a running => cases hbusy
    · cases h

/-! ### One step -/

/-- INVARIANT: one operation at a time, started operations cached, ids started once. -/
theorem Inv.step {s s' : State} {a : Action} (hinv : Inv s) (h : step s a = some s') :
    Inv s' := by
  by_cases hreq : ∃ conn id op wait delay journal, a = .request conn id op wait delay journal
  · obtain ⟨conn, id, op, wait, delay, journal, rfl⟩ := hreq
    rcases step_request h with ⟨_, hinner, hworkers, hreplies, hclock⟩ |
      ⟨_, frame, started, hsub, hworkers, hclock, hreplies⟩
    · refine hinv.quiet (by rw [hinner]) hreplies hclock ?_ ?_
      · rw [hinner, hworkers]; exact hinv.slot
      · rw [hinner]; exact hinv.opens
    · refine ⟨?_, hsub.opens hinv.opens, ?_, ?_, ?_⟩
      · rw [hworkers]; exact hsub.slot hinv.slot
      · intro e he hfirst
        rw [hreplies, List.mem_append, List.mem_singleton] at he
        rcases he with he | rfl
        · exact hinv.first e he hfirst
        · exact (Bool.and_eq_true_iff.mp hfirst).1
      · intro e he hstarted hlt
        rw [hclock] at hlt
        rw [hreplies, List.mem_append, List.mem_singleton] at he
        rcases he with he | rfl
        · exact hsub.caches (hinv.started e he hstarted (by omega)) (by omega) hlt
        · dsimp only at hstarted
          subst hstarted
          exact ⟨_, hsub.started.2, Nat.le_refl _⟩
      · rw [hreplies, List.pairwise_append]
        refine ⟨hinv.once, List.pairwise_singleton _ _, fun e he l hl => ?_⟩
        rw [List.mem_singleton] at hl
        subst hl
        rintro rfl hstarted hagain
        dsimp only at hagain
        subst hagain
        by_contra hlt
        dsimp only at hlt
        -- the reply of the first start would still be in the cache
        obtain ⟨c, hc, hlong⟩ := hinv.started e he hstarted (by omega)
        exact hsub.started.1 c hc (by omega)
  · obtain ⟨hcache, hreplies, hclock, hslot, hactive⟩ :=
      step_quiet hinv.slot h fun conn id op wait delay journal heq =>
        hreq ⟨conn, id, op, wait, delay, journal, heq⟩
    refine hinv.quiet hcache hreplies hclock hslot fun a ha => ?_
    rcases hactive with heq | heq
    · exact hinv.opens a (by rw [← heq, ha])
    · rw [heq] at ha; cases ha

/-- The new answer opens a window if it is accepted and came neither from the cache nor from a
    running operation. -/
theorem Submitted.first {s : State} {id : String} {op : Operation} {now t : Nat}
    {frame : Frame} {started : Bool} {inner : Inner}
    (h : Submitted s.inner id op now t frame started inner) (hinv : Inv s) (hagree : Agrees s)
    (hnow : s.clock ≤ now) (hmiss : s.inner.Misses id now) (hidle : s.inner.active = none)
    (hsame : ∀ e ∈ s.replies, e.covers id now = true → frame = e.frame ∧ started = false) :
    s.replies.any (·.covers id now) = false := by
  rw [List.any_eq_false]
  intro e he hcov
  obtain ⟨_, ⟨c, hc, hlive⟩ | ⟨a, ha, _⟩⟩ :=
    (h.same_iff hinv hagree hnow he hcov).mp (hsame e he hcov)
  · exact hmiss c hc hlive
  · rw [hidle] at ha; cases ha

/-- A reply from the cache opens no window. -/
theorem Agrees.not_first {s : State} (hagree : Agrees s) {id : String} {now : Nat}
    {c : CachedReply} (hnow : s.clock ≤ now) (hc : s.inner.cache.get id = some c)
    (hlive : now < c.expires) :
    (c.frame.accepted && !s.replies.any (·.covers id now)) = false := by
  cases hacc : c.frame.accepted with
  | false => rfl
  | true =>
    obtain ⟨k, hk, hfirst, hid, hexp⟩ := hagree.source id c hc (by omega) hacc
    have hcov : s.replies.any (·.covers id now) = true := by
      rw [List.any_eq_true]
      exact ⟨k, hk, by simp [Reply.covers, hfirst, hid, ← hexp, hlive]⟩
    rw [hcov]
    rfl

/-- INVARIANT: the cache after a call of `submit` whose answer keeps to the window. -/
theorem Agrees.submitted {s s' : State} {id : String} {op : Operation} {now t : Nat}
    {frame : Frame} {started : Bool} (hagree : Agrees s) (hinv : Inv s)
    (hnow : s.clock ≤ now) (ht : now ≤ t)
    (h : Submitted s.inner id op now t frame started s'.inner) (hclock : s'.clock = t)
    (hreplies : s'.replies = s.replies ++ [⟨id, op, now, t, frame, started,
      frame.accepted && !s.replies.any (·.covers id now)⟩])
    (hsame : ∀ e ∈ s.replies, e.covers id now = true → frame = e.frame ∧ started = false) :
    Agrees s' := by
  have hcovers : ∀ e : Reply, e.requestId = id → e.first = true →
      t < e.answered + dedupWindow → e.covers id now = true := by
    intro e hid hfirst hlt
    simp only [Reply.covers, hfirst, hid, Bool.true_and, decide_true, decide_eq_true_iff]
    omega
  generalize hinner : s'.inner = inner' at h
  -- what a fresh reply under `id` leaves in the cache
  have hfresh : ∀ {id' c f}, ((s.inner.prune now).keep id f t).cache.get id' = some c →
      (id' = id ∧ c = ⟨f, t + dedupWindow⟩) ∨ s.inner.cache.get id' = some c := by
    intro id' c f hc
    rw [Inner.keep_get] at hc
    split at hc
    · next hid => exact .inl ⟨hid, (Option.some.inj hc).symm⟩
    · exact .inr (Inner.prune_get.mp hc).1
  refine ⟨?_, ?_, ?_⟩
  · intro e he hfirst hlt
    rw [hclock] at hlt
    rw [hinner]
    rw [hreplies, List.mem_append, List.mem_singleton] at he
    rcases he with he | rfl
    · rcases hagree.kept e he hfirst (by omega) with hcached | hjoined
      · exact .inl (h.caches hcached ht hlt)
      · exact .inr hjoined
    · cases h with
      | desktop hd => cases hfirst
      | hit c hd hc hlive =>
        dsimp only at hfirst
        rw [hagree.not_first hnow hc hlive] at hfirst
        cases hfirst
      | joined a hd hmiss ha hop => exact .inr ⟨_, rfl, hinv.opens a ha⟩
      | refused code message hd hmiss hop => cases hfirst
      | noOp r hd hmiss hidle hr =>
        exact .inl ⟨⟨.success id r, t + dedupWindow⟩, by simp [Inner.keep], Nat.le_refl _⟩
      | accepted r hd hmiss hidle hr =>
        exact .inl ⟨⟨.success id r, t + dedupWindow⟩, by simp [Inner.keep], Nat.le_refl _⟩
  · intro e he hfirst hlt c hc hlive
    rw [hclock] at hlt hlive
    rw [hinner] at hc
    rw [hreplies, List.mem_append, List.mem_singleton] at he
    rcases he with he | rfl
    · have hold : s.inner.cache.get e.requestId = some c → c.frame = e.frame := fun hget =>
        hagree.frame e he hfirst (by omega) c hget (by omega)
      have hkeep : ∀ f, frame = f →
          ((s.inner.prune now).keep id f t).cache.get e.requestId = some c →
          c.frame = e.frame := by
        rintro f rfl hget
        rcases hfresh hget with ⟨hid, rfl⟩ | hget
        · exact (hsame e he (hcovers e hid hfirst hlt)).1
        · exact hold hget
      cases h with
      | desktop hd => exact hold hc
      | hit c' hd hc' hlive' => exact hold (Inner.prune_get.mp hc).1
      | joined a hd hmiss ha hop => exact hold (Inner.prune_get.mp hc).1
      | refused code message hd hmiss hop => exact hkeep _ rfl hc
      | noOp r hd hmiss hidle hr => exact hkeep _ rfl hc
      | accepted r hd hmiss hidle hr => exact hkeep _ rfl hc
    · cases h with
      | desktop hd => cases hfirst
      | hit c' hd hc' hlive' =>
        dsimp only at hfirst
        rw [hagree.not_first hnow hc' hlive'] at hfirst
        cases hfirst
      | joined a hd hmiss ha hop =>
        exact absurd (Inner.prune_get.mp hc).2 (hmiss c (Inner.prune_get.mp hc).1)
      | refused code message hd hmiss hop => cases hfirst
      | noOp r hd hmiss hidle hr =>
        rw [Inner.keep_get, if_pos rfl] at hc
        cases hc; rfl
      | accepted r hd hmiss hidle hr =>
        have hget : ((s.inner.prune now).keep id (.success id r) t).cache.get id = some c := hc
        rw [Inner.keep_get, if_pos rfl] at hget
        cases hget; rfl
  · intro id' c hc hlive hacc
    rw [hclock] at hlive
    rw [hinner] at hc
    rw [hreplies]
    have hold : s.inner.cache.get id' = some c → ∃ k ∈ s.replies ++ [⟨id, op, now, t, frame,
        started, frame.accepted && !s.replies.any (·.covers id now)⟩], k.first = true ∧
          k.requestId = id' ∧ c.expires = k.answered + dedupWindow := by
      intro hget
      obtain ⟨k, hk, hrest⟩ := hagree.source id' c hget (by omega) hacc
      exact ⟨k, List.mem_append_left _ hk, hrest⟩
    have hkeep : ∀ r, frame = .success id r → s.inner.Misses id now → s.inner.active = none →
        ((s.inner.prune now).keep id (.success id r) t).cache.get id' = some c →
        ∃ k ∈ s.replies ++ [⟨id, op, now, t, frame, started,
          frame.accepted && !s.replies.any (·.covers id now)⟩], k.first = true ∧
          k.requestId = id' ∧ c.expires = k.answered + dedupWindow := by
      rintro r hr hmiss hidle hget
      rcases hfresh hget with ⟨rfl, rfl⟩ | hget
      · refine ⟨_, List.mem_append_right _ (List.mem_singleton_self _), ?_, rfl, rfl⟩
        dsimp only
        rw [h.first hinv hagree hnow hmiss hidle hsame, hr]
        rfl
      · exact hold hget
    cases h with
    | desktop hd => exact hold hc
    | hit c' hd hc' hlive' => exact hold (Inner.prune_get.mp hc).1
    | joined a hd hmiss ha hop => exact hold (Inner.prune_get.mp hc).1
    | refused code message hd hmiss hop =>
      rcases hfresh hc with ⟨rfl, rfl⟩ | hget
      · cases hacc
      · exact hold hget
    | noOp r hd hmiss hidle hr => exact hkeep r rfl hmiss hidle hc
    | accepted r hd hmiss hidle hr => exact hkeep r rfl hmiss hidle hc

/-- STEP: a step keeps the answers to the window exactly if it is answerable. -/
theorem step_idempotent_iff {s s' : State} {a : Action} (hinv : Inv s) (hagree : Agrees s)
    (hidem : Idempotent s) (h : step s a = some s') :
    (Idempotent s' ↔ Answerable s a) ∧ (Idempotent s' → Inv s' ∧ Agrees s') := by
  have hinv' := hinv.step h
  by_cases hreq : ∃ conn id op wait delay journal, a = .request conn id op wait delay journal
  · obtain ⟨conn, id, op, wait, delay, journal, rfl⟩ := hreq
    rcases step_request h with ⟨hquiet, hinner, hworkers, hreplies, hclock⟩ |
      ⟨hopen, frame, started, hsub, hworkers, hclock, hreplies⟩
    · have hidem' : Idempotent s' :=
        ⟨by rw [hreplies]; exact hidem.same, hinv'.slot.length, hinv'.once⟩
      refine ⟨⟨fun _ => ?_, fun _ => hidem'⟩, fun _ =>
        ⟨hinv', hagree.quiet (by rw [hinner]) hreplies hclock⟩⟩
      rcases hquiet with hseen | hstatus
      · exact .inl hseen
      · exact .inr (.inl hstatus)
    · have hnow : s.clock ≤ s.clock + wait := Nat.le_add_right _ _
      have hsame_iff : (s'.replies.Pairwise fun e l => e.covers l.requestId l.asked = true →
          l.frame = e.frame ∧ l.started = false) ↔ ∀ e ∈ s.replies,
            e.covers id (s.clock + wait) = true → frame = e.frame ∧ started = false := by
        rw [hreplies, List.pairwise_append]
        constructor
        · rintro ⟨_, _, hcross⟩ e he
          exact hcross e he _ (List.mem_singleton_self _)
        · intro hall
          refine ⟨hidem.same, List.pairwise_singleton _ _, fun e he l hl => ?_⟩
          rw [List.mem_singleton] at hl
          subst hl
          exact hall e he
      have hheld : (∀ e ∈ s.replies, e.covers id (s.clock + wait) = true →
          frame = e.frame ∧ started = false) ↔
            Answerable s (.request conn id op wait delay journal) := by
        constructor
        · intro hall
          exact .inr (.inr fun e he hcov =>
            (hsub.same_iff hinv hagree hnow he hcov).mp (hall e he hcov))
        · rintro (hseen | hstatus | hall) e he hcov
          · exact absurd (.inl hseen) hopen
          · exact absurd (.inr hstatus) hopen
          · exact (hsub.same_iff hinv hagree hnow he hcov).mpr (hall e he hcov)
      refine ⟨⟨fun hidem' => hheld.mp (hsame_iff.mp hidem'.same), fun hans =>
        ⟨hsame_iff.mpr (hheld.mpr hans), hinv'.slot.length, hinv'.once⟩⟩, fun hidem' =>
        ⟨hinv', ?_⟩⟩
      exact hagree.submitted hinv hnow (Nat.le_add_right _ _) hsub hclock hreplies
        (hsame_iff.mp hidem'.same)
  · obtain ⟨hcache, hreplies, hclock, _, _⟩ :=
      step_quiet hinv.slot h fun conn id op wait delay journal heq =>
        hreq ⟨conn, id, op, wait, delay, journal, heq⟩
    have hidem' : Idempotent s' :=
      ⟨by rw [hreplies]; exact hidem.same, hinv'.slot.length, hinv'.once⟩
    refine ⟨⟨fun _ => ?_, fun _ => hidem'⟩, fun _ =>
      ⟨hinv', hagree.quiet hcache hreplies hclock⟩⟩
    cases a with
    | request conn id op wait delay journal =>
      exact absurd ⟨conn, id, op, wait, delay, journal, rfl⟩ hreq
    | _ => trivial

/-! ### Runs -/

theorem Inv.init : Inv .init :=
  ⟨.free _, fun _ h => (by cases h), fun _ h => (by cases h), fun _ h => (by cases h), .nil⟩

theorem Agrees.init : Agrees .init :=
  ⟨fun _ h => (by cases h), fun _ h => (by cases h), fun _ _ h => (by cases h)⟩

/-- SAFETY: in every run one long operation runs at a time, and none while the desktop is busy. -/
theorem reachable_exclusive {s : State} (h : Machine.Reaches step .init s) :
    s.workers.length ≤ 1 ∧ (s.inner.desktopActive = true → s.workers = []) := by
  have hinv : Inv s := h.invariant (fun _ _ _ hinv hstep => hinv.step hstep) Inv.init
  refine ⟨hinv.slot.length, fun hbusy => ?_⟩
  have hslot := hinv.slot
  rw [hbusy] at hslot
  exact hslot.desktop

/-- The desktop is busy once a check has ended. -/
theorem reachable_exclusive_desktop :
    ∃ s, Machine.exec step .init [.request 0 "a" .check 0 1 (.ok .default), .spawned 0 true,
        .finished 0, .beginDesktop] = some s ∧ s.inner.desktopActive = true ∧ s.workers = [] := by
  have hend : ∃ s, Machine.exec step .init [.request 0 "a" .check 0 1 (.ok .default),
      .spawned 0 true, .finished 0, .beginDesktop] = some s ∧ s.inner.desktopActive = true :=
    Machine.exec_eval (by decide)
  obtain ⟨s, hrun, hbusy⟩ := hend
  exact ⟨s, hrun, hbusy, (reachable_exclusive ⟨_, hrun⟩).2 hbusy⟩

/-- IDEMPOTENCY: the answers of a run keep to the dedup window throughout exactly if every retry
    in it finds its answer held. -/
theorem idempotent_iff {s : State} {as : List Action}
    (hrun : Machine.exec step .init as = some s) :
    Machine.Throughout step Idempotent .init as ↔ Machine.Along step Answerable .init as := by
  refine Machine.throughout_iff_along (I := fun s => Inv s ∧ Agrees s)
    (A := fun _ _ => True) (fun s a s' hI hP _ hstep => ?_) hrun (.of_forall fun _ _ => trivial)
    ⟨.init, .init⟩ ⟨.nil, Nat.zero_le _, .nil⟩
  exact step_idempotent_iff hI.1 hI.2 hP hstep

instance (inner : Inner) (e : Reply) (id : String) (op : Operation) (now : Nat) :
    Decidable (inner.Holds e id op now) :=
  decidable_of_iff (inner.desktopActive = false ∧
      ((inner.cache.get id).any (now < ·.expires) = true ∨
        inner.active.any (fun a => a.op = op && e.frame = .success id a.accepted) = true))
    (by unfold Inner.Holds; simp [Option.any_eq_true])

instance (s : State) : DecidablePred (Answerable s)
  | .request .. => inferInstanceAs (Decidable (_ ∨ _ ∨ _))
  | .reconnect _ | .spawned .. | .finished _ | .beginDesktop | .endDesktop =>
    inferInstanceAs (Decidable True)

def idleJournal : Except String UpdateJournal := .ok .default

/-- A check, its retry while it runs, another id that joins it, and the first id once more. -/
def retriedRun : List Action :=
  [.request 0 "a" .check 0 1 idleJournal, .spawned 0 true, .reconnect 0,
   .request 0 "a" .check 5 1 idleJournal, .request 1 "b" .check 5 1 idleJournal, .finished 0,
   .reconnect 0, .request 0 "a" .check 5 1 idleJournal]

theorem idempotent_iff_retried : Machine.Throughout step Idempotent .init retriedRun := by
  have hend : ∃ s, Machine.exec step .init retriedRun = some s ∧ s.workers = [] :=
    Machine.exec_eval (by decide)
  obtain ⟨s, hrun, _⟩ := hend
  exact (idempotent_iff hrun).mpr (by decide)

/-- The id that joined a running check retries after the check has ended: it starts another. -/
def joinedRun : List Action :=
  [.request 0 "a" .check 0 1 idleJournal, .spawned 0 true,
   .request 1 "b" .check 5 1 idleJournal, .finished 0, .reconnect 1,
   .request 1 "b" .check 5 1 idleJournal]

theorem joined_retry_starts_again :
    ¬ ∀ s, Machine.Reaches step .init s → Idempotent s := by
  intro hall
  have hend : ∃ s, Machine.exec step .init joinedRun = some s ∧
      ¬ s.replies.Pairwise fun e l => e.covers l.requestId l.asked = true →
        l.frame = e.frame ∧ l.started = false := Machine.exec_eval (by decide)
  obtain ⟨s, hrun, hbad⟩ := hend
  exact hbad (hall s ⟨joinedRun, hrun⟩).same

end Gamer.Ipc
