import Gamer.Core.Models
import Gamer.Lib.Machine
import Gamer.Lib.Text
import Gamer.Lib.Token
import Mathlib.Data.List.DropRight
import Mathlib.Data.List.Sort

/-! The frame table of a media item (media/mod.rs): read from `frames.json`, or made by one ffprobe
    run while the other calls for the item wait on a condition variable.

      started ──cached──────────────────────────────▶ returned
         │ not cached
      locking ──token there──▶ waiting ──notify_all──▶ locking
         │ token inserted
      generating ──result──▶ releasing ──token removed──▶ notifying ──▶ returned
         └──panic──▶ unwound: the token stays

    The token is removed on the straight path only, and the text of a failed run is sliced at a
    byte offset. -/

namespace Gamer.Media
open Gamer.Lib Gamer.Lib.Token

abbrev MediaId := String

inductive MediaErrorKind where
  | notFound
  | unsupported
  | invalid
  deriving DecidableEq

/-- An `anyhow` error: a `MediaError`, or any other by its text. -/
inductive MediaError where
  | media (kind : MediaErrorKind) (message : String)
  | other (text : String)
  deriving DecidableEq

structure FrameTable where
  schemaVersion : Nat
  ptsUs : List Nat
  generatedAt : String
  deriving DecidableEq

def FRAMES_SCHEMA_VERSION : Nat := 1
def MAX_FRAME_TABLE_ENTRIES : Nat := 2000000

/-- The parsers these functions call: the reader of `frames.json`, the reader of the packet list
    of ffprobe with the `pts_time` of each packet, and `parse_pts_seconds_us`. -/
structure Parsers where
  table : List UInt8 → Option FrameTable
  packets : List UInt8 → Except String (List (Option String))
  ptsUs : String → Option Nat

/-- The paths the service was opened with. -/
structure Config where
  ffmpegPath : String
  ffprobe : String

/-- What reading `frames.json` comes to. -/
inductive FileRead where
  | bytes (content : List UInt8)
  | notFound
  | failed (text : String)

/-- What `run_with_timeout` comes to: an error, or the program's end. -/
inductive ToolRun where
  | failed (text : String)
  | exited (success : Bool) (stdout stderr : List UInt8)

/-- What the file system and the tool answer to one generation. -/
structure Answers where
  read : FileRead
  path : Except MediaError Unit
  run : ToolRun
  now : String
  store : Except String Unit

/-! ### Generating -/

section
variable (P : Parsers) (C : Config)

def loadFrameTable : FileRead → Except MediaError (Option FrameTable)
  | .bytes content =>
    match P.table content with
    | some table =>
      if table.schemaVersion = FRAMES_SCHEMA_VERSION ∧ table.ptsUs ≠ [] then .ok (some table)
      else .ok none
    | none => .ok none
  | .notFound => .ok none
  | .failed text => .error (.other ("读取 frames.json 失败: " ++ text))

/-- `str::trim`. -/
def trimText (text : List Char) : List Char :=
  (text.dropWhile Core.isWhitespace).rdropWhile Core.isWhitespace

/-- The last 300 bytes of what the tool wrote to stderr; `none` if taking them panics. -/
def stderrTail (stderr : List UInt8) : Option String :=
  let text := trimText (fromUtf8Lossy stderr)
  if 300 < textSize text then
    (sliceFrom text (textSize text - 300)).map fun tail => "..." ++ String.ofList tail
  else some (String.ofList text)

/-- The timeline read off the packets. -/
def tableOfPackets (now : String) (packets : List (Option String)) :
    Except MediaError FrameTable :=
  let ptsUs := (packets.filterMap id).filterMap P.ptsUs
  if ptsUs = [] then .error (.media .unsupported "未找到视频帧时间轴（无视频帧）")
  else if MAX_FRAME_TABLE_ENTRIES < ptsUs.length then
    .error (.media .unsupported
      ("帧数 " ++ toString ptsUs.length ++ " 超出支持上限 " ++ toString MAX_FRAME_TABLE_ENTRIES))
  else .ok ⟨FRAMES_SCHEMA_VERSION, ptsUs.insertionSort (· ≤ ·), now⟩

/-- `generate_frame_table`; `none` if it panics. -/
def generateFrameTable (run : ToolRun) (now : String) : Option (Except MediaError FrameTable) :=
  match run with
  | .failed text =>
    some (.error (.media .unsupported ("ffprobe 不可用（" ++ C.ffprobe ++ "）: " ++ text)))
  | .exited false _ stderr =>
    (stderrTail stderr).map fun tail =>
      .error (.media .unsupported ("ffprobe 读取帧时间轴失败: " ++ tail))
  | .exited true stdout _ =>
    match P.packets stdout with
    | .error text => some (.error (.media .unsupported ("ffprobe 包输出解析失败: " ++ text)))
    | .ok packets => some (tableOfPackets P now packets)

/-- The closure that runs under the token; `none` if it panics. -/
def generation (w : Answers) : Option (Except MediaError FrameTable) :=
  match loadFrameTable P w.read with
  | .error e => some (.error e)
  | .ok (some table) => some (.ok table)
  | .ok none =>
    if trimText C.ffmpegPath.toList = [] then
      some (.error (.media .unsupported "ffmpeg 未配置（config.toml ffmpeg_path）"))
    else
      match w.path with
      | .error e => some (.error e)
      | .ok () =>
        (generateFrameTable P C w.run w.now).map fun result =>
          match result, w.store with
          | .ok _, .error text => .error (.other text)
          | result, _ => result

end

/-! ### The calls -/

inductive CallPhase where
  | started
  | locking
  | waiting
  | generating
  | releasing (result : Except MediaError FrameTable)
  | notifying (result : Except MediaError FrameTable)
  | returned (result : Except MediaError FrameTable)
  | unwound

/-- The call owns the token of its id. -/
def CallPhase.generates : CallPhase → Bool
  | .generating | .releasing _ => true
  | _ => false

/-- The call has yet to wake those that wait. -/
def CallPhase.wakes : CallPhase → Bool
  | .generating | .releasing _ | .notifying _ => true
  | _ => false

def CallPhase.waits : CallPhase → Bool
  | .waiting => true
  | _ => false

theorem CallPhase.wakes_of_generates {p : CallPhase} (h : p.generates = true) :
    p.wakes = true := by
  cases p <;> first | rfl | cases h

theorem CallPhase.waits_of_generates {p : CallPhase} (h : p.generates = true) :
    p.waits = false := by
  cases p <;> first | rfl | cases h

structure Call where
  id : MediaId
  phase : CallPhase := .started

/-- `frame_gen` with the calls of `frame_table`. -/
structure FrameGen where
  tokens : List MediaId := []
  calls : List Call := []

inductive FrameMove where
  | call (id : MediaId)
  | load (call : Nat) (read : FileRead)
  | lock (call : Nat)
  | generate (call : Nat) (answers : Answers)
  | release (call : Nat)
  | notifyAll (call : Nat)

namespace FrameGen
variable (P : Parsers) (C : Config)

def setPhase (s : FrameGen) (k : Nat) (c : Call) (phase : CallPhase) : FrameGen :=
  { s with calls := s.calls.set k { c with phase := phase } }

/-- `notify_all`: those that wait go back to the lock. -/
def wakeAll (calls : List Call) : List Call :=
  calls.map fun c => if c.phase.waits then { c with phase := .locking } else c

/-- The next step of call `k`. Taking the lock with the insertion or the wait is one step. -/
def step (s : FrameGen) : FrameMove → Option FrameGen
  | .call id => some { s with calls := s.calls ++ [{ id := id }] }
  | .load k read =>
    match s.calls[k]? with
    | some c =>
      match c.phase with
      | .started =>
        match loadFrameTable P read with
        | .error e => some (s.setPhase k c (.returned (.error e)))
        | .ok (some table) => some (s.setPhase k c (.returned (.ok table)))
        | .ok none => some (s.setPhase k c .locking)
      | _ => none
    | none => none
  | .lock k =>
    match s.calls[k]? with
    | some c =>
      match c.phase with
      | .locking =>
        if s.tokens.contains c.id then some (s.setPhase k c .waiting)
        else some { s.setPhase k c .generating with tokens := c.id :: s.tokens }
      | _ => none
    | none => none
  | .generate k answers =>
    match s.calls[k]? with
    | some c =>
      match c.phase with
      | .generating =>
        match generation P C answers with
        | some result => some (s.setPhase k c (.releasing result))
        | none => some (s.setPhase k c .unwound)
      | _ => none
    | none => none
  | .release k =>
    match s.calls[k]? with
    | some c =>
      match c.phase with
      | .releasing result =>
        some { s.setPhase k c (.notifying result) with tokens := s.tokens.filter (· ≠ c.id) }
      | _ => none
    | none => none
  | .notifyAll k =>
    match s.calls[k]? with
    | some c =>
      match c.phase with
      | .notifying result =>
        let s := s.setPhase k c (.returned result)
        some { s with calls := wakeAll s.calls }
      | _ => none
    | none => none

end FrameGen

/-! ### When the closure panics -/

section
variable {P : Parsers} {C : Config}

/-- The text is longer than 300 bytes and its last 300 bytes start inside a character. -/
def Splits (text : List Char) : Prop :=
  300 < textSize text ∧ ∀ tail, tail <:+ text → textSize tail ≠ 300

theorem stderrTail_eq_none {stderr : List UInt8} :
    stderrTail stderr = none ↔ Splits (trimText (fromUtf8Lossy stderr)) := by
  rw [stderrTail, Splits]
  split
  · rename_i hlong
    rw [Option.map_eq_none_iff, sliceFrom_eq_none (Nat.le_of_lt hlong)]
    exact (and_iff_right hlong).symm
  · rename_i hshort
    constructor
    · intro h
      cases h
    · rintro ⟨hlong, _⟩
      exact absurd hlong hshort

/-- Nothing is cached, ffmpeg is configured and the file is there, so the tool is run. -/
structure Probes (P : Parsers) (C : Config) (w : Answers) : Prop where
  load : loadFrameTable P w.read = .ok none
  configured : trimText C.ffmpegPath.toList ≠ []
  path : w.path = .ok ()

/-- The tool is run and fails, and what it wrote to stderr is split by the slice. -/
def Unwinds (P : Parsers) (C : Config) (w : Answers) : Prop :=
  Probes P C w ∧ ∃ stdout stderr, w.run = .exited false stdout stderr ∧
    Splits (trimText (fromUtf8Lossy stderr))

theorem generateFrameTable_eq_none {run : ToolRun} {now : String} :
    generateFrameTable P C run now = none ↔
      ∃ stdout stderr, run = .exited false stdout stderr ∧
        Splits (trimText (fromUtf8Lossy stderr)) := by
  rcases run with text | ⟨success, stdout, stderr⟩
  · simp [generateFrameTable]
  · cases success with
    | false =>
      rw [generateFrameTable, Option.map_eq_none_iff, stderrTail_eq_none]
      constructor
      · intro h
        exact ⟨stdout, stderr, rfl, h⟩
      · rintro ⟨_, _, heq, h⟩
        cases heq
        exact h
    | true =>
      rw [generateFrameTable]
      cases P.packets stdout with
      | error text => simp
      | ok packets => simp

theorem generation_eq_none {w : Answers} : generation P C w = none ↔ Unwinds P C w := by
  rw [generation, Unwinds]
  cases hload : loadFrameTable P w.read with
  | error e =>
    constructor
    · intro h
      cases h
    · rintro ⟨⟨h, _, _⟩, _⟩
      rw [hload] at h
      cases h
  | ok cached =>
    cases cached with
    | some table =>
      constructor
      · intro h
        cases h
      · rintro ⟨⟨h, _, _⟩, _⟩
        rw [hload] at h
        cases h
    | none =>
      dsimp only
      split
      · rename_i hempty
        constructor
        · intro h
          cases h
        · rintro ⟨⟨_, h, _⟩, _⟩
          exact absurd hempty h
      · rename_i hset
        cases hpath : w.path with
        | error e =>
          constructor
          · intro h
            cases h
          · rintro ⟨⟨_, _, h⟩, _⟩
            rw [hpath] at h
            cases h
        | ok _ =>
          rw [Option.map_eq_none_iff, generateFrameTable_eq_none]
          exact (and_iff_right ⟨hload, hset, hpath⟩).symm

end

/-! ### The token -/

section
variable {P : Parsers} {C : Config} {s s' : FrameGen} {k : Nat} {c : Call}

/-- The call's hold on the token of `id`. -/
def holds (id : MediaId) (c : Call) : Option Unit :=
  if c.id = id ∧ c.phase.generates = true then some () else none

theorem holds_eq_some {id : MediaId} :
    holds id c = some () ↔ c.id = id ∧ c.phase.generates = true := by
  rw [holds]
  split
  · rename_i h
    exact ⟨fun _ => h, fun _ => rfl⟩
  · rename_i h
    exact iff_of_false (Option.some_ne_none ()).symm h

theorem holds_eq_none {id : MediaId} (h : c.id ≠ id ∨ c.phase.generates = false) :
    holds id c = none := by
  rw [holds, if_neg]
  rintro ⟨hid, hgen⟩
  rcases h with h | h
  · exact h hid
  · rw [h] at hgen
    cases hgen

theorem holds_congr {id : MediaId} {phase : CallPhase}
    (h : phase.generates = c.phase.generates) : holds id { c with phase := phase } = holds id c := by
  rw [holds, holds, h]

theorem holds_of_ne {id : MediaId} {phase : CallPhase} (hid : c.id ≠ id) :
    holds id { c with phase := phase } = holds id c := by
  rw [holds_eq_none (c := c) (.inl hid)]
  exact holds_eq_none (.inl hid)

/-- INVARIANT: at most one call generates for an id, and while it does the token is there. -/
def FrameGen.Single (s : FrameGen) : Prop :=
  ∀ id, ∃ owner, Owned (holds id) owner s.calls ∧ (owner ≠ none → id ∈ s.tokens)

/-- FRAME: a step of a call that neither takes nor gives a token. -/
theorem FrameGen.Single.keep (h : s.Single) (hk : s.calls[k]? = some c) {phase : CallPhase}
    (hsame : phase.generates = c.phase.generates) : (s.setPhase k c phase).Single := by
  intro id
  obtain ⟨owner, howned, htoken⟩ := h id
  exact ⟨owner, howned.keep hk (holds_congr hsame), htoken⟩

/-- STEP: a call that generates comes to an end; the other ids keep their tokens. -/
theorem FrameGen.Single.give (h : s.Single) (hk : s.calls[k]? = some c)
    (hgen : c.phase.generates = true) {phase : CallPhase} (hend : phase.generates = false)
    {tokens : List MediaId} (htokens : ∀ id ∈ s.tokens, id ≠ c.id → id ∈ tokens) :
    FrameGen.Single { s.setPhase k c phase with tokens := tokens } := by
  intro id
  obtain ⟨owner, howned, htoken⟩ := h id
  by_cases hid : c.id = id
  · exact ⟨none, howned.give hk (holds_eq_some.mpr ⟨hid, hgen⟩) (holds_eq_none (.inr hend)),
      fun hne => absurd rfl hne⟩
  · have hsame : holds id { c with phase := phase } = holds id c :=
      holds_of_ne hid
    exact ⟨owner, howned.keep hk hsame, fun hne => htokens id (htoken hne) (Ne.symm hid)⟩

/-- STEP: a call that inserts the token of its id finds nobody generating for it. -/
theorem FrameGen.Single.take (h : s.Single) (hk : s.calls[k]? = some c) (hfree : c.id ∉ s.tokens) :
    FrameGen.Single { s.setPhase k c .generating with tokens := c.id :: s.tokens } := by
  intro id
  obtain ⟨owner, howned, htoken⟩ := h id
  by_cases hid : c.id = id
  · have hnone : owner = none := by
      by_contra hne
      exact hfree (hid ▸ htoken hne)
    subst hnone
    exact ⟨_, howned.take hk (holds_eq_some.mpr ⟨hid, rfl⟩), fun _ => hid ▸ List.mem_cons_self⟩
  · have hsame : holds id { c with phase := .generating } = holds id c :=
      holds_of_ne hid
    exact ⟨owner, howned.keep hk hsame, fun hne => List.mem_cons_of_mem _ (htoken hne)⟩

theorem FrameGen.Single.wakeAll (h : s.Single) :
    FrameGen.Single { s with calls := FrameGen.wakeAll s.calls } := by
  intro id
  obtain ⟨owner, howned, htoken⟩ := h id
  refine ⟨owner, howned.map fun c => ?_, htoken⟩
  cases hphase : c.phase <;> simp [CallPhase.waits, holds, hphase, CallPhase.generates]

/-! ### Releasing -/

/-- No id is in `frame_gen` without a call that generates for it, and no call waits unless one for
    its id has yet to wake it. -/
structure FrameGen.Released (s : FrameGen) : Prop where
  generated : ∀ id ∈ s.tokens, ∃ c ∈ s.calls, c.id = id ∧ c.phase.generates = true
  woken : ∀ c ∈ s.calls, c.phase.waits = true →
    ∃ d ∈ s.calls, d.id = c.id ∧ d.phase.wakes = true

/-- At most one generation for an id runs at a time. -/
def FrameGen.OneEach (s : FrameGen) : Prop :=
  ∀ (j k : Nat) (c d : Call), s.calls[j]? = some c → s.calls[k]? = some d → c.phase.generates = true →
    d.phase.generates = true → c.id = d.id → j = k

theorem FrameGen.Single.oneEach (h : s.Single) : s.OneEach := by
  intro j k c d hc hd hgc hgd hid
  obtain ⟨owner, howned, _⟩ := h d.id
  exact howned.unique hc (holds_eq_some.mpr ⟨hid, hgc⟩) hd (holds_eq_some.mpr ⟨rfl, hgd⟩)

/-- FRAME: what some call has, some call still has. -/
theorem exists_mem_set {Q : Call → Prop} {calls : List Call} {c' : Call}
    (hk : calls[k]? = some c) (hQ : Q c → Q c') (h : ∃ d ∈ calls, Q d) :
    ∃ d ∈ calls.set k c', Q d := by
  obtain ⟨d, hd, hq⟩ := h
  obtain ⟨j, hj⟩ := List.getElem?_of_mem hd
  by_cases hjk : j = k
  · subst hjk
    obtain rfl : c = d := Option.some.inj (hk.symm.trans hj)
    exact ⟨c', List.mem_of_getElem? ((getElem?_set_eq_some hk).mpr (.inl ⟨rfl, rfl⟩)), hQ hq⟩
  · exact ⟨d, List.mem_of_getElem? ((getElem?_set_eq_some hk).mpr (.inr ⟨hjk, hj⟩)), hq⟩

/-- STEP: a step of a call that keeps its hold on the token and does not go to wait. -/
theorem FrameGen.Released.keep (h : s.Released) (hk : s.calls[k]? = some c) {phase : CallPhase}
    (hgen : c.phase.generates = true → phase.generates = true)
    (hwakes : c.phase.wakes = true → phase.wakes = true) (hwaits : phase.waits = false) :
    (s.setPhase k c phase).Released := by
  constructor
  · intro id hid
    exact exists_mem_set hk (And.imp_right hgen) (h.generated id hid)
  · intro d hd hdw
    rcases List.mem_or_eq_of_mem_set hd with hd | rfl
    · exact exists_mem_set hk (And.imp_right hwakes) (h.woken d hd hdw)
    · rw [hwaits] at hdw
      cases hdw

/-- STEP: a call that finds the token of its id waits for the one that has it. -/
theorem FrameGen.Released.wait (h : s.Released) (hk : s.calls[k]? = some c)
    (hphase : c.phase = .locking) (htoken : c.id ∈ s.tokens) :
    (s.setPhase k c .waiting).Released := by
  have hgen : c.phase.generates = true → CallPhase.waiting.generates = true := by
    rw [hphase]
    exact id
  have hwakes : c.phase.wakes = true → CallPhase.waiting.wakes = true := by
    rw [hphase]
    exact id
  constructor
  · intro id hid
    exact exists_mem_set hk (And.imp_right hgen) (h.generated id hid)
  · intro d hd hdw
    rcases List.mem_or_eq_of_mem_set hd with hd | rfl
    · exact exists_mem_set hk (And.imp_right hwakes) (h.woken d hd hdw)
    · obtain ⟨e, he, heid, hegen⟩ := h.generated c.id htoken
      exact exists_mem_set hk (And.imp_right hwakes) ⟨e, he, heid, CallPhase.wakes_of_generates hegen⟩

/-- STEP: a call that inserts the token of its id generates for it. -/
theorem FrameGen.Released.take (h : s.Released) (hk : s.calls[k]? = some c) :
    FrameGen.Released { s.setPhase k c .generating with tokens := c.id :: s.tokens } := by
  have hkeep : (s.setPhase k c .generating).Released :=
    h.keep hk (fun _ => rfl) (fun _ => rfl) rfl
  refine ⟨fun id hid => ?_, hkeep.woken⟩
  rcases List.mem_cons.mp hid with rfl | hid
  · exact ⟨{ c with phase := .generating },
      List.mem_of_getElem? ((getElem?_set_eq_some hk).mpr (.inl ⟨rfl, rfl⟩)), rfl, rfl⟩
  · exact hkeep.generated id hid

/-- STEP: the call removes the token, and has yet to wake those that wait for it. -/
theorem FrameGen.Released.release (h : s.Released) (hk : s.calls[k]? = some c)
    {result : Except MediaError FrameTable} :
    FrameGen.Released { s.setPhase k c (.notifying result) with
      tokens := s.tokens.filter (· ≠ c.id) } := by
  constructor
  · intro id hid
    obtain ⟨hid, hne⟩ := List.mem_filter.mp hid
    have hne : id ≠ c.id := of_decide_eq_true hne
    obtain ⟨d, hd, hdid, hdgen⟩ := h.generated id hid
    exact exists_mem_set (Q := fun d => d.id = id ∧ d.phase.generates = true) hk
      (fun hc => absurd hc.1.symm hne) ⟨d, hd, hdid, hdgen⟩
  · intro d hd hdw
    rcases List.mem_or_eq_of_mem_set hd with hd | rfl
    · exact exists_mem_set hk (And.imp_right fun _ => rfl) (h.woken d hd hdw)
    · cases hdw

theorem mem_wakeAll {calls : List Call} {d : Call} (h : d ∈ FrameGen.wakeAll calls) :
    d.phase.waits = false := by
  obtain ⟨c, _, rfl⟩ := List.mem_map.mp h
  split
  · rfl
  · rename_i hc
    exact Bool.eq_false_iff.mpr hc

/-- STEP: after the notification nobody waits. -/
theorem FrameGen.Released.notify (h : s.Released) (hk : s.calls[k]? = some c)
    {result : Except MediaError FrameTable} (hphase : c.phase = .notifying result) :
    FrameGen.Released { s with
      calls := FrameGen.wakeAll (s.setPhase k c (.returned result)).calls } := by
  constructor
  · intro id hid
    have hsame : c.phase.generates = true → (CallPhase.returned result).generates = true := by
      rw [hphase]
      exact fun h => h
    have hsome : ∃ d ∈ s.calls.set k { c with phase := .returned result },
        d.id = id ∧ d.phase.generates = true :=
      exists_mem_set hk (And.imp_right hsame) (h.generated id hid)
    obtain ⟨d, hd, hdid, hdgen⟩ := hsome
    have hnot : ¬ d.phase.waits = true := by
      rw [CallPhase.waits_of_generates hdgen]
      exact Bool.false_ne_true
    exact ⟨d, List.mem_map.mpr ⟨d, hd, if_neg hnot⟩, hdid, hdgen⟩
  · intro d hd hdw
    rw [mem_wakeAll hd] at hdw
    cases hdw

/-- STEP: a call whose closure panics leaves its token to nobody. -/
theorem FrameGen.Single.not_released (h : s.Single) (hk : s.calls[k]? = some c)
    (hphase : c.phase = .generating) : ¬ (s.setPhase k c .unwound).Released := by
  intro hreleased
  have hgen : c.phase.generates = true := by
    rw [hphase]
    rfl
  obtain ⟨owner, howned, htoken⟩ := h c.id
  have howner := (howned k ()).mpr ⟨c, hk, holds_eq_some.mpr ⟨rfl, hgen⟩⟩
  have hmem : c.id ∈ s.tokens := htoken (by rw [howner]; exact Option.some_ne_none _)
  obtain ⟨d, hd, hdid, hdgen⟩ := hreleased.generated c.id hmem
  obtain ⟨j, hj⟩ := List.getElem?_of_mem hd
  rcases (getElem?_set_eq_some hk).mp hj with ⟨rfl, rfl⟩ | ⟨hne, hj⟩
  · cases hdgen
  · exact hne (h.oneEach j k d c hj hk hdgen hgen hdid)

/-! ### Runs -/

/-- The step is no generation that panics. -/
def FrameMove.Calm (P : Parsers) (C : Config) : FrameMove → Prop
  | .generate _ w => ¬ Unwinds P C w
  | _ => True

/-- STEP: every step keeps the tokens single, and a step keeps them released exactly if it is no
    generation that panics. -/
theorem FrameGen.step_spec {a : FrameMove} (hs : s.Single) (hr : s.Released)
    (h : FrameGen.step P C s a = some s') : (s'.Released ↔ a.Calm P C) ∧ s'.Single := by
  cases a with
  | call id =>
    cases h
    refine ⟨iff_of_true ⟨fun i hi => ?_, fun c hc hw => ?_⟩ trivial, fun i => ?_⟩
    · obtain ⟨c, hc, hgen⟩ := hr.generated i hi
      exact ⟨c, List.mem_append_left _ hc, hgen⟩
    · rcases List.mem_append.mp hc with hc | hc
      · obtain ⟨d, hd, hwakes⟩ := hr.woken c hc hw
        exact ⟨d, List.mem_append_left _ hd, hwakes⟩
      · rw [List.mem_singleton.mp hc] at hw
        cases hw
    · obtain ⟨owner, howned, htoken⟩ := hs i
      exact ⟨owner, howned.push (holds_eq_none (.inr rfl)), htoken⟩
  | load k read =>
    rw [FrameGen.step] at h
    split at h
    · rename_i c hk
      split at h
      · rename_i hphase
        have hidle : c.phase.generates = false ∧ c.phase.wakes = false := by
          rw [hphase]
          exact ⟨rfl, rfl⟩
        have hmove : ∀ phase : CallPhase, phase.generates = false → phase.waits = false →
            ((s.setPhase k c phase).Released ↔ True) ∧ (s.setPhase k c phase).Single := by
          intro phase hgen hwaits
          refine ⟨iff_of_true (hr.keep hk (fun hc => ?_) (fun hc => ?_) hwaits) trivial,
            hs.keep hk (hgen.trans hidle.1.symm)⟩
          · rw [hidle.1] at hc
            cases hc
          · rw [hidle.2] at hc
            cases hc
        split at h <;> cases h <;> exact hmove _ rfl rfl
      · cases h
    · cases h
  | lock k =>
    rw [FrameGen.step] at h
    split at h
    · rename_i c hk
      split at h
      · rename_i hphase
        split at h
        · rename_i htoken
          cases h
          exact ⟨iff_of_true (hr.wait hk hphase (List.contains_iff_mem.mp htoken)) trivial,
            hs.keep hk (by rw [hphase]; rfl)⟩
        · rename_i hfree
          cases h
          exact ⟨iff_of_true (hr.take hk) trivial,
            hs.take hk fun hmem => hfree (List.contains_iff_mem.mpr hmem)⟩
      · cases h
    · cases h
  | generate k w =>
    rw [FrameGen.step] at h
    split at h
    · rename_i c hk
      split at h
      · rename_i hphase
        have hgen : c.phase.generates = true := by
          rw [hphase]
          rfl
        split at h
        · rename_i result hresult
          cases h
          have hcalm : ¬ Unwinds P C w := by
            rw [← generation_eq_none, hresult]
            exact Option.some_ne_none _
          exact ⟨iff_of_true (hr.keep hk (fun _ => rfl) (fun _ => rfl) rfl) hcalm,
            hs.keep hk hgen.symm⟩
        · rename_i hpanic
          cases h
          have hunwinds : Unwinds P C w := generation_eq_none.mp hpanic
          exact ⟨iff_of_false (hs.not_released hk hphase) (not_not_intro hunwinds),
            hs.give hk hgen rfl fun _ hmem _ => hmem⟩
      · cases h
    · cases h
  | release k =>
    rw [FrameGen.step] at h
    split at h
    · rename_i c hk
      split at h
      · rename_i result hphase
        cases h
        refine ⟨iff_of_true (hr.release hk) trivial, hs.give hk (by rw [hphase]; rfl) rfl ?_⟩
        intro id hid hne
        exact List.mem_filter.mpr ⟨hid, decide_eq_true hne⟩
      · cases h
    · cases h
  | notifyAll k =>
    rw [FrameGen.step] at h
    split at h
    · rename_i c hk
      split at h
      · rename_i result hphase
        cases h
        have hkeep : (s.setPhase k c (.returned result)).Single :=
          hs.keep hk (by rw [hphase]; rfl)
        exact ⟨iff_of_true (hr.notify hk hphase) trivial, hkeep.wakeAll⟩
      · cases h
    · cases h

theorem FrameGen.single_start : FrameGen.Single {} :=
  fun _ => ⟨none, Owned.nil, fun h => absurd rfl h⟩

theorem FrameGen.released_start : FrameGen.Released {} :=
  ⟨fun _ h => absurd h List.not_mem_nil, fun _ h => absurd h List.not_mem_nil⟩

/-- SAFETY: along a run of calls the generations are single and always released exactly if no
    failed ffprobe run leaves a stderr text longer than 300 bytes whose last 300 bytes start inside
    a character. -/
theorem single_and_released_iff {as : List FrameMove}
    (hrun : Machine.exec (FrameGen.step P C) {} as = some s) :
    Machine.Throughout (FrameGen.step P C) (fun s => s.OneEach ∧ s.Released) {} as ↔
      Machine.Along (FrameGen.step P C) (fun _ a => a.Calm P C) {} as := by
  refine Machine.throughout_iff_along (I := FrameGen.Single) (A := fun _ _ => True) ?_ hrun
    (.of_forall fun _ _ => trivial) FrameGen.single_start
    ⟨FrameGen.single_start.oneEach, FrameGen.released_start⟩
  rintro s a s' hs ⟨_, hr⟩ - hstep
  obtain ⟨hiff, hs'⟩ := FrameGen.step_spec hs hr hstep
  exact ⟨⟨fun h => hiff.mp h.2, fun h => ⟨hs'.oneEach, hiff.mpr h⟩⟩, fun _ => hs'⟩

end

/-! ### A failed run in another language -/

def plainParsers : Parsers := ⟨fun _ => none, fun _ => .ok [some "0.0"], fun _ => some 0⟩

def plainConfig : Config := ⟨"ffmpeg", "ffprobe"⟩

/-- The tool fails with a text of 301 bytes that starts with a character of two. -/
def failedRun : Answers where
  read := .notFound
  path := .ok ()
  run := .exited false [] (0xC3 :: 0xA9 :: List.replicate 299 0x61)
  now := "2026-01-01T00:00:00Z"
  store := .ok ()

/-- The tool lists one packet. -/
def goodRun : Answers := { failedRun with run := .exited true [] [] }

theorem goodRun_calm : ¬ Unwinds plainParsers plainConfig goodRun := by
  rintro ⟨_, _, _, h, _⟩
  cases h

/-- Two calls for one item: the second waits for the first, and reads what it has made. -/
def servedRun : List FrameMove :=
  [.call "m", .call "m", .load 0 .notFound, .load 1 .notFound, .lock 0, .lock 1,
    .generate 0 goodRun, .release 0, .notifyAll 0, .lock 1]

theorem served_released : Machine.Throughout (FrameGen.step plainParsers plainConfig)
    (fun s => s.OneEach ∧ s.Released) {} servedRun := by
  have hrun : ∃ s, Machine.exec (FrameGen.step plainParsers plainConfig) {} servedRun = some s :=
    ⟨_, rfl⟩
  obtain ⟨s, hs⟩ := hrun
  have hcalm : ∀ a ∈ servedRun, a.Calm plainParsers plainConfig := by
    intro a ha
    simp only [servedRun, List.mem_cons, List.not_mem_nil, or_false] at ha
    rcases ha with rfl | rfl | rfl | rfl | rfl | rfl | rfl | rfl | rfl | rfl <;>
      first | trivial | exact goodRun_calm
  exact (single_and_released_iff hs).mpr (.of_forall_mem fun a ha _ => hcalm a ha)

/-- The first call panics under the token, and the second waits for good. -/
def stuckRun : List FrameMove :=
  [.call "m", .load 0 .notFound, .lock 0, .generate 0 failedRun, .call "m", .load 1 .notFound,
    .lock 1]

theorem stuck_not_released : ¬ ∀ (P : Parsers) (C : Config) (as : List FrameMove) (s : FrameGen),
    Machine.exec (FrameGen.step P C) {} as = some s →
      Machine.Throughout (FrameGen.step P C) (fun s => s.OneEach ∧ s.Released) {} as := by
  intro h
  have hend : ∃ s, Machine.exec (FrameGen.step plainParsers plainConfig) {} stuckRun = some s ∧
      s.tokens = ["m"] ∧ s.calls.all (fun c => !c.phase.generates) = true :=
    Machine.exec_eval (by decide +kernel)
  obtain ⟨s, hrun, htokens, hidle⟩ := hend
  have hreleased := ((h _ _ _ _ hrun).finish hrun).2
  have hmem : "m" ∈ s.tokens := by
    rw [htokens]
    exact List.mem_singleton.mpr rfl
  obtain ⟨c, hc, _, hgen⟩ := hreleased.generated "m" hmem
  have hnot := List.all_eq_true.mp hidle c hc
  rw [hgen] at hnot
  cases hnot

end Gamer.Media
