import Mathlib.Data.List.Basic
import Gamer.Lib.Machine
import Gamer.Lib.Token
import Gamer.Media.Output

/-! A switch is all or nothing as long as its call does not end while the packet that commits it is
    being written, and no encoder is started with a source that the status does not show:

        look at the reply ──▶ write the packet ──▶ the source is active
                       └── a call that ends here is not seen ──┘                                  -/

namespace Gamer.Media.Live
open Gamer.Lib Gamer.Lib.Machine Gamer.Lib.Token

/-! ### What the worker has in hand -/

namespace Stage

/-- The sources that the worker holds. -/
def held : Stage → List Nat
  | .turning _ (some (x, _)) => [x]
  | .opening p | .writingHeader p | .pumping p | .rendering p => [p.source]
  | .fitting p cmd | .writing p cmd => [p.source, cmd.source]
  | _ => []

/-- The commands that it has received and not answered. -/
def commands : Stage → List SwitchCommand
  | .turning _ (some (x, some c)) => [⟨x, c⟩]
  | .opening ⟨_, x, some c⟩ | .writingHeader ⟨_, x, some c⟩ => [⟨x, c⟩]
  | .fitting _ cmd | .writing _ cmd => [cmd]
  | _ => []

/-- The reply that the first frame of a running encoder is to answer. -/
def firstReply : Stage → Option Nat
  | .pumping p | .rendering p | .fitting p _ | .writing p _ => p.initialReply
  | _ => none

/-- The source of a running encoder. -/
def active : Stage → Option Nat
  | .pumping p | .rendering p | .fitting p _ | .writing p _ => some p.source
  | _ => none

/-- The reply that the worker looks at no more before it commits. -/
def committing : Stage → Option Nat
  | .writingHeader p => p.initialReply
  | .writing _ cmd => some cmd.reply
  | _ => none

/-- The source with which an encoder starts. -/
def starting : Stage → Option Nat
  | .writingHeader p => some p.source
  | _ => none

end Stage

namespace OutputHandle
variable {s s' : OutputHandle}

/-- A call that has not returned has the source in hand. -/
def Sending (s : OutputHandle) (x : Nat) : Prop :=
  ∃ (c : Nat) (call : Call), s.calls[c]? = some call ∧ call.stage = .sending x

/-- The source is active or still on its way. -/
def Held (s : OutputHandle) (x : Nat) : Prop :=
  x ∈ s.stage.held ∨ x ∈ s.queue.map (·.source) ∨ s.Sending x

def Activated (s : OutputHandle) (x : Nat) : Prop := ∃ a ∈ s.activations, a.source = x

/-- SAFETY: a call that returned `Ok` has made its source active, and no source becomes active
    behind the end of its call; a source that is not active or on its way is told to stop; the
    status shows the active source. -/
structure Promise (s : OutputHandle) : Prop where
  returned : ∀ (c : Nat) call x, s.calls[c]? = some call → call.stage = .ended (some x) true →
    s.Activated x
  late : ∀ a ∈ s.activations, a.late = false
  told : ∀ (x : Nat) src, s.sources[x]? = some src → src.told = true ∨ s.Held x
  status : ∀ x, s.active = some x → ∃ src, s.sources[x]? = some src ∧ s.status = src.target

/-! ### The condition -/

/-- No call ends between the worker's last look at its reply and the commit, and no encoder starts
    with a source that the status does not show. -/
def Kept (s : OutputHandle) : Move → Prop
  | .giveUp c => s.stage.committing ≠ some c
  | .work .ok => ∀ x ∈ s.stage.starting, s.statusOf x = s.status
  | _ => True

instance Kept.decidable (s : OutputHandle) : ∀ m, Decidable (s.Kept m)
  | .giveUp c => inferInstanceAs (Decidable (s.stage.committing ≠ some c))
  | .work .ok => inferInstanceAs (Decidable (∀ x ∈ s.stage.starting, s.statusOf x = s.status))
  | .work .refuse | .work .fail | .work .take | .work .tick | .work .stop => .isTrue trivial
  | .switch _ | .prepared _ _ | .send _ | .stop | .abort => .isTrue trivial

/-! ### The invariant -/

/-- What a call can be whose command the worker has. -/
def Answers (x : Nat) (stage : CallStage) : Prop :=
  stage = .waiting x ∨ ∃ ok, stage = .ended (some x) ok

def AnsweredBy (s : OutputHandle) (c x : Nat) : Prop :=
  ∃ call, s.calls[c]? = some call ∧ Answers x call.stage

/-- A call has prepared one source. -/
theorem AnsweredBy.unique {c x y : Nat} (hx : s.AnsweredBy c x) (hy : s.AnsweredBy c y) :
    x = y := by
  obtain ⟨call, hcall, hx⟩ := hx
  obtain ⟨call', hcall', hy⟩ := hy
  obtain rfl : call = call' := Option.some.inj (hcall.symm.trans hcall')
  rcases hx with hx | ⟨_, hx⟩
  · rcases hy with hy | ⟨_, hy⟩
    · cases hx.symm.trans hy
      rfl
    · cases hx.symm.trans hy
  · rcases hy with hy | ⟨_, hy⟩
    · cases hx.symm.trans hy
    · cases hx.symm.trans hy
      rfl

/-- INVARIANT: all but the replies of the commits under way. -/
structure Core (s : OutputHandle) : Prop where
  promise : s.Promise
  commands : ∀ cmd ∈ s.stage.commands ++ s.queue, s.AnsweredBy cmd.reply cmd.source
  first : ∀ c, s.stage.firstReply = some c → ∃ x, s.AnsweredBy c x ∧ s.Activated x
  here : ∀ x, s.Held x → x < s.sources.length
  active : s.active = s.stage.active

theorem closed_eq {c : Nat} {call : Call} (h : s.calls[c]? = some call) :
    s.closed c = call.isEnded := by
  simp [closed, h]

/-! ### The primitives -/

/-- STEP: the worker moves on, and what it lets go of has been told. -/
theorem Core.move (h : Core s) (stage : Stage) (queue : List SwitchCommand) (active : Option Nat)
    (stopped : Bool) (hactive : active = stage.active)
    (hstill : active = none ∨ active = s.active)
    (hcommands : ∀ cmd ∈ stage.commands ++ queue, cmd ∈ s.stage.commands ++ s.queue)
    (hfirst : ∀ c, stage.firstReply = some c → s.stage.firstReply = some c)
    (hkeeps : ∀ x src, s.sources[x]? = some src →
      x ∈ s.stage.held ∨ x ∈ s.queue.map (·.source) →
      src.told = true ∨ x ∈ stage.held ∨ x ∈ queue.map (·.source))
    (hheld : ∀ x, x ∈ stage.held ∨ x ∈ queue.map (·.source) →
      x ∈ s.stage.held ∨ x ∈ s.queue.map (·.source)) :
    Core { s with stage := stage, queue := queue, active := active, stopped := stopped } := by
  refine ⟨⟨h.promise.returned, h.promise.late, fun x src hx => ?_, fun x hx => ?_⟩,
    fun cmd hcmd => h.commands cmd (hcommands cmd hcmd), fun c hc => h.first c (hfirst c hc),
    fun x hx => ?_, hactive⟩
  · rcases h.promise.told x src hx with htold | hheld | hqueue | hsending
    · exact Or.inl htold
    · rcases hkeeps x src hx (Or.inl hheld) with htold | hnew | hnew
      · exact Or.inl htold
      · exact Or.inr (Or.inl hnew)
      · exact Or.inr (Or.inr (Or.inl hnew))
    · rcases hkeeps x src hx (Or.inr hqueue) with htold | hnew | hnew
      · exact Or.inl htold
      · exact Or.inr (Or.inl hnew)
      · exact Or.inr (Or.inr (Or.inl hnew))
    · exact Or.inr (Or.inr (Or.inr hsending))
  · rcases hstill with hnone | hsame
    · cases hnone.symm.trans hx
    · exact h.promise.status x (hsame.symm.trans hx)
  · refine h.here x ?_
    rcases hx with hx | hx | hx
    · exact (hheld x (Or.inl hx)).imp id Or.inl
    · exact (hheld x (Or.inr hx)).imp id Or.inl
    · exact Or.inr (Or.inr hx)

theorem getElem?_tell {x y : Nat} {src' : Source} (h : (s.tell x).sources[y]? = some src') :
    ∃ src, s.sources[y]? = some src ∧ src'.target = src.target ∧
      (src'.told = if x = y then true else src.told) := by
  simp only [tell, List.getElem?_modify] at h
  obtain ⟨src, hsrc, rfl⟩ := Option.map_eq_some_iff.mp h
  refine ⟨src, hsrc, ?_⟩
  split
  · exact ⟨rfl, rfl⟩
  · exact ⟨rfl, rfl⟩

theorem tell_target {x y : Nat} {src : Source} (h : s.sources[y]? = some src) :
    ∃ src', (s.tell x).sources[y]? = some src' ∧ src'.target = src.target := by
  simp only [tell, List.getElem?_modify, h, Option.map_eq_map, Option.map_some]
  refine ⟨_, rfl, ?_⟩
  split
  · rfl
  · rfl

/-- STEP: a source is told to stop. -/
theorem Core.tell (h : Core s) (x : Nat) : Core (s.tell x) := by
  have hlen : (s.tell x).sources.length = s.sources.length := List.length_modify ..
  refine ⟨⟨h.promise.returned, h.promise.late, fun y src' hy => ?_, fun y hy => ?_⟩, h.commands,
    h.first, fun y hy => hlen ▸ h.here y hy, h.active⟩
  · obtain ⟨src, hsrc, _, htold⟩ := getElem?_tell hy
    rcases h.promise.told y src hsrc with hold | hheld
    · rw [htold, hold]
      exact Or.inl (ite_self true)
    · exact Or.inr hheld
  · obtain ⟨src, hsrc, hstatus⟩ := h.promise.status y hy
    obtain ⟨src', hsrc', htarget⟩ := tell_target (x := x) hsrc
    exact ⟨src', hsrc', hstatus.trans htarget.symm⟩

theorem told_tell {x : Nat} {src' : Source} (h : (s.tell x).sources[x]? = some src') :
    src'.told = true := by
  obtain ⟨_, _, _, htold⟩ := getElem?_tell h
  rw [htold, if_pos rfl]

/-- A call goes on to a stage that answers whatever it answered. -/
theorem getElem?_setCall {c d : Nat} {stage : CallStage} {call' : Call}
    (h : (s.setCall c stage).calls[d]? = some call') :
    ∃ call, s.calls[d]? = some call ∧ call'.target = call.target ∧
      call'.stage = if c = d then stage else call.stage := by
  simp only [setCall, List.getElem?_modify] at h
  obtain ⟨call, hcall, rfl⟩ := Option.map_eq_some_iff.mp h
  refine ⟨call, hcall, ?_⟩
  split
  · exact ⟨rfl, rfl⟩
  · exact ⟨rfl, rfl⟩

theorem setCall_get {d : Nat} (c : Nat) (stage : CallStage) {call : Call}
    (h : s.calls[d]? = some call) :
    ∃ call', (s.setCall c stage).calls[d]? = some call' ∧
      call'.stage = if c = d then stage else call.stage := by
  simp only [setCall, List.getElem?_modify, h, Option.map_eq_map, Option.map_some]
  refine ⟨_, rfl, ?_⟩
  split
  · rfl
  · rfl

/-- STEP: a call goes on. -/
theorem Core.setCall (h : Core s) {c : Nat} {call : Call} {stage : CallStage}
    (hcall : s.calls[c]? = some call) (hanswers : ∀ x, Answers x call.stage → Answers x stage)
    (hended : ∀ x, stage = .ended (some x) true → s.Activated x)
    (hsending : ∀ x, call.stage = .sending x → stage = .sending x ∨ (x ∈ s.stage.held ∨
      x ∈ s.queue.map (·.source)) ∨ ∀ src, s.sources[x]? = some src → src.told = true)
    (hnew : ∀ x, stage = .sending x → call.stage = .sending x) :
    Core (s.setCall c stage) := by
  have hby : ∀ d x, s.AnsweredBy d x → (s.setCall c stage).AnsweredBy d x := by
    rintro d x ⟨call₁, hcall₁, hx⟩
    obtain ⟨call', hcall', hstage⟩ := setCall_get c stage hcall₁
    refine ⟨call', hcall', ?_⟩
    rw [hstage]
    split
    · next hd =>
      subst hd
      obtain rfl : call = call₁ := Option.some.inj (hcall.symm.trans hcall₁)
      exact hanswers x hx
    · exact hx
  have hback : ∀ x, (s.setCall c stage).Sending x → s.Sending x := by
    rintro x ⟨d, call', hcall', hstage'⟩
    obtain ⟨call₁, hcall₁, _, hstage⟩ := getElem?_setCall hcall'
    rw [hstage'] at hstage
    split at hstage
    · next hd =>
      subst hd
      exact ⟨c, call, hcall, hnew x hstage.symm⟩
    · exact ⟨d, call₁, hcall₁, hstage.symm⟩
  refine ⟨⟨fun d call' x hcall' hstage' => ?_, h.promise.late, fun x src hx => ?_,
    h.promise.status⟩, fun cmd hcmd => hby _ _ (h.commands cmd hcmd), fun d hd => ?_,
    fun x hx => h.here x (hx.imp id (Or.imp id (hback x))), h.active⟩
  · obtain ⟨call₁, hcall₁, _, hstage⟩ := getElem?_setCall hcall'
    rw [hstage'] at hstage
    split at hstage
    · exact hended x hstage.symm
    · exact h.promise.returned d call₁ x hcall₁ hstage.symm
  · rcases h.promise.told x src hx with htold | hheld | hqueue | ⟨d, call₁, hcall₁, hstage₁⟩
    · exact Or.inl htold
    · exact Or.inr (Or.inl hheld)
    · exact Or.inr (Or.inr (Or.inl hqueue))
    · obtain ⟨call', hcall', hstage⟩ := setCall_get c stage hcall₁
      split at hstage
      · next hd =>
        subst hd
        obtain rfl : call = call₁ := Option.some.inj (hcall.symm.trans hcall₁)
        rcases hsending x hstage₁ with hsame | (hheld | hqueue) | htold
        · exact Or.inr (Or.inr (Or.inr ⟨c, call', hcall', hstage.trans hsame⟩))
        · exact Or.inr (Or.inl hheld)
        · exact Or.inr (Or.inr (Or.inl hqueue))
        · exact Or.inl (htold src hx)
      · exact Or.inr (Or.inr (Or.inr ⟨d, call', hcall', hstage.trans hstage₁⟩))
  · obtain ⟨x, hx, hactivated⟩ := h.first d hd
    exact ⟨x, hby d x hx, hactivated⟩

/-- STEP: a reply is sent, or dropped. -/
theorem Core.answer (h : Core s) {c : Nat} {ok : Bool}
    (hok : ok = true → ∀ x, s.AnsweredBy c x → s.Activated x) : Core (s.answer c ok) := by
  unfold OutputHandle.answer
  split
  · next target x hcall =>
    refine h.setCall hcall (fun y hy => ?_) (fun y hy => ?_) (fun y hy => by cases hy)
      fun y hy => by cases hy
    · rcases hy with hy | ⟨_, hy⟩
      · cases hy
        exact Or.inr ⟨ok, rfl⟩
      · cases hy
    · cases hy
      exact hok rfl x ⟨_, hcall, Or.inl rfl⟩
  · exact h

theorem Core.answerAny (h : Core s) {reply : Option Nat} {ok : Bool}
    (hok : ok = true → ∀ c x, reply = some c → s.AnsweredBy c x → s.Activated x) :
    Core (s.answerAny reply ok) := by
  cases reply with
  | none => exact h
  | some c => exact h.answer fun ho x => hok ho c x rfl

/-- A reply leaves everything but the calls. -/
theorem answer_eq (s : OutputHandle) (c : Nat) (ok : Bool) :
    ∃ calls, s.answer c ok = { s with calls := calls } := by
  unfold OutputHandle.answer
  split
  · exact ⟨_, rfl⟩
  · exact ⟨s.calls, rfl⟩

theorem answerAny_eq (s : OutputHandle) (reply : Option Nat) (ok : Bool) :
    ∃ calls, s.answerAny reply ok = { s with calls := calls } := by
  cases reply with
  | none => exact ⟨s.calls, rfl⟩
  | some c => exact answer_eq s c ok

/-- What a discard leaves. -/
theorem discard_eq (s : OutputHandle) (cmd : SwitchCommand) :
    ∃ calls, s.discard cmd = { s.tell cmd.source with calls := calls } :=
  answer_eq (s.tell cmd.source) cmd.reply false

@[simp] theorem discard_stage (cmd : SwitchCommand) : (s.discard cmd).stage = s.stage := by
  obtain ⟨calls, heq⟩ := discard_eq s cmd
  rw [heq]
  rfl

@[simp] theorem discard_queue (cmd : SwitchCommand) : (s.discard cmd).queue = s.queue := by
  obtain ⟨calls, heq⟩ := discard_eq s cmd
  rw [heq]
  rfl

@[simp] theorem discard_active (cmd : SwitchCommand) : (s.discard cmd).active = s.active := by
  obtain ⟨calls, heq⟩ := discard_eq s cmd
  rw [heq]
  rfl

theorem told_discard {cmd : SwitchCommand} {src : Source}
    (h : (s.discard cmd).sources[cmd.source]? = some src) : src.told = true := by
  obtain ⟨calls, heq⟩ := discard_eq s cmd
  rw [heq] at h
  exact told_tell h

/-- STEP: a command is dropped with its source. -/
theorem Core.discard (h : Core s) (cmd : SwitchCommand) : Core (s.discard cmd) :=
  (h.tell cmd.source).answer fun ho => by cases ho

/-- Sources that are told stay told. -/
theorem told_discard_mono {cmd : SwitchCommand} {x : Nat} (src : Source)
    (hsrc : (s.discard cmd).sources[x]? = some src) (h : ∀ src₀, s.sources[x]? = some src₀ →
      src₀.told = true) : src.told = true := by
  obtain ⟨calls, heq⟩ := discard_eq s cmd
  rw [heq] at hsrc
  obtain ⟨src₀, hsrc₀, _, htold⟩ := getElem?_tell hsrc
  rw [htold]
  split
  · rfl
  · exact h src₀ hsrc₀

/-- RUN: the queue is dropped: every source in it is told, and nothing else moves. -/
theorem Core.discards : ∀ (cmds : List SwitchCommand) {s : OutputHandle}, Core s →
    Core (cmds.foldl OutputHandle.discard s) ∧
      (cmds.foldl OutputHandle.discard s).stage = s.stage ∧
      (cmds.foldl OutputHandle.discard s).queue = s.queue ∧
      (cmds.foldl OutputHandle.discard s).active = s.active ∧
      (∀ x src, (cmds.foldl OutputHandle.discard s).sources[x]? = some src →
        (x ∈ cmds.map (·.source) ∨ ∀ src₀, s.sources[x]? = some src₀ → src₀.told = true) →
          src.told = true)
  | [], s, h => ⟨h, rfl, rfl, rfl, fun x src hx hor => hor.elim (fun hmem => by cases hmem)
      fun hall => hall src hx⟩
  | cmd :: cmds, s, h => by
    obtain ⟨hinv, hstage, hqueue, hactive, htold⟩ := Core.discards cmds (h.discard cmd)
    rw [discard_stage] at hstage
    rw [discard_queue] at hqueue
    rw [discard_active] at hactive
    refine ⟨hinv, hstage, hqueue, hactive, fun x src hx hor => htold x src hx ?_⟩
    rcases hor with hmem | hall
    · rcases List.mem_cons.mp hmem with rfl | hmem
      · exact Or.inr fun src₀ hsrc₀ => told_discard hsrc₀
      · exact Or.inl hmem
    · exact Or.inr fun src₀ hsrc₀ => told_discard_mono src₀ hsrc₀ hall

/-- STEP: the worker's task is over; what it held has been told. -/
theorem Core.finish (h : Core s) (hidle : s.stage.active = none)
    (hheld : ∀ x src, s.sources[x]? = some src → x ∈ s.stage.held → src.told = true) :
    Core s.finish := by
  obtain ⟨hinv, hstage, hqueue, hactive, htold⟩ := Core.discards s.queue h
  refine hinv.move .ended [] ((s.queue.foldl OutputHandle.discard s).active) true
    (hactive.trans (h.active.trans hidle)) (Or.inr rfl) (fun cmd hcmd => by cases hcmd)
    (fun c hc => by cases hc) (fun x src hx hor => Or.inl (htold x src hx ?_))
    fun x hx => hx.elim (fun h => by cases h) fun h => by cases h
  rw [hstage, hqueue] at hor
  rcases hor with hmem | hmem
  · exact Or.inr fun src₀ hsrc₀ => hheld x src₀ hsrc₀ hmem
  · exact Or.inl hmem

/-- STEP: the encoder's run is over. -/
theorem Core.endPump (h : Core s) {p : Pump} {ok : Bool}
    (hheld : ∀ x src, s.sources[x]? = some src → x ∈ s.stage.held →
      x = p.source ∨ src.told = true) :
    Core (s.endPump p ok) := by
  have hinv : Core ((s.tell p.source).answerAny p.initialReply false) :=
    (h.tell p.source).answerAny fun ho => by cases ho
  obtain ⟨calls, heq⟩ := answerAny_eq (s.tell p.source) p.initialReply false
  unfold OutputHandle.endPump
  rw [heq] at hinv ⊢
  refine hinv.move (.closing p.attempt ok) s.queue none s.stopped rfl (Or.inl rfl)
    (fun cmd hcmd => List.mem_append_right _ hcmd)
    (fun c hc => by cases hc) (fun x src hx hor => ?_) fun x hx => ?_
  · rcases hor with hmem | hmem
    · refine Or.inl ?_
      obtain ⟨src₀, hsrc₀, _, htold⟩ := getElem?_tell (s := s) hx
      rw [htold]
      split
      · rfl
      · next hne =>
        exact (hheld x src₀ hsrc₀ hmem).resolve_left fun h => hne h.symm
    · exact Or.inr (Or.inr hmem)
  · rcases hx with hx | hx
    · cases hx
    · exact Or.inr hx

/-- STEP: the loop turns, or is over. -/
theorem Core.turn (h : Core s) {attempt : Nat} (hstage : s.stage.active = none)
    (hheld : ∀ x src, s.sources[x]? = some src → x ∈ s.stage.held → src.told = true) :
    Core (s.turn attempt none) := by
  unfold OutputHandle.turn
  split
  · refine h.move (.turning (attempt + 1) none) s.queue s.active s.stopped
      (h.active.trans hstage) (Or.inr rfl)
      (fun cmd hcmd => List.mem_append_right _ hcmd) (fun c hc => by cases hc)
      (fun x src hx hor => ?_) fun x hx => ?_
    · rcases hor with hmem | hmem
      · exact Or.inl (hheld x src hx hmem)
      · exact Or.inr (Or.inr hmem)
    · rcases hx with hx | hx
      · cases hx
      · exact Or.inr hx
  · exact h.finish hstage hheld

/-- STEP: a command leaves the queue and is dropped. -/
theorem Core.discardHead (h : Core s) {cmd : SwitchCommand} {queue : List SwitchCommand}
    (hqueue : s.queue = cmd :: queue) : Core { s.discard cmd with queue := queue } := by
  have hinv := h.discard cmd
  have hsame : (s.discard cmd).queue = cmd :: queue := (discard_queue cmd).trans hqueue
  refine hinv.move (s.discard cmd).stage queue (s.discard cmd).active (s.discard cmd).stopped
    hinv.active (Or.inr rfl) (fun c hc => ?_) (fun c hc => hc) (fun x src hx hor => ?_)
    fun x hx => ?_
  · rw [hsame]
    exact List.mem_append.mpr ((List.mem_append.mp hc).imp id (List.mem_cons_of_mem _))
  · rw [hsame, List.map_cons, List.mem_cons] at hor
    rcases hor with hmem | rfl | hmem
    · exact Or.inr (Or.inl hmem)
    · exact Or.inl (told_discard hx)
    · exact Or.inr (Or.inr hmem)
  · rw [hsame]
    exact hx.imp id (List.mem_cons_of_mem _)

/-- STEP: a closed command is skipped while no encoder runs. -/
theorem Core.skip (h : Core s) {attempt : Nat} {cmd : SwitchCommand} {queue : List SwitchCommand}
    (hqueue : s.queue = cmd :: queue) (hactive : s.stage.active = none)
    (hheld : s.stage.held = []) :
    Core (s.skip attempt cmd queue) := by
  refine (h.discardHead hqueue).turn ?_ fun x src _ hx => ?_
  · rw [discard_stage]
    exact hactive
  · rw [discard_stage, hheld] at hx
    cases hx

/-- STEP: the worker moves on with the same sources and commands. -/
theorem Core.stay (h : Core s) (stage : Stage) (hactive : stage.active = s.stage.active)
    (hcommands : ∀ cmd ∈ stage.commands, cmd ∈ s.stage.commands)
    (hfirst : ∀ c, stage.firstReply = some c → s.stage.firstReply = some c)
    (hheld : stage.held = s.stage.held) :
    Core { s with stage := stage } := by
  refine h.move _ s.queue s.active s.stopped
    (h.active.trans hactive.symm) (Or.inr rfl) (fun cmd hcmd => ?_) hfirst
    (fun x src _ hor => Or.inr (hheld ▸ hor)) fun x hx => hheld ▸ hx
  exact List.mem_append.mpr ((List.mem_append.mp hcmd).imp (hcommands cmd) id)

/-- STEP: an open command is received. -/
theorem Core.receive (h : Core s) {stage : Stage} {cmd : SwitchCommand} {queue : List SwitchCommand}
    (hqueue : s.queue = cmd :: queue) (hactive : stage.active = s.stage.active)
    (hcommands : ∀ cmd' ∈ stage.commands, cmd' = cmd ∨ cmd' ∈ s.stage.commands)
    (hfirst : ∀ c, stage.firstReply = some c → s.stage.firstReply = some c)
    (hheld : ∀ x, x ∈ stage.held ↔ x = cmd.source ∨ x ∈ s.stage.held) :
    Core { s with queue := queue, stage := stage } := by
  refine h.move _ _ s.active s.stopped (h.active.trans hactive.symm)
    (Or.inr rfl) (fun cmd' hcmd => ?_) hfirst (fun x src _ hor => Or.inr ?_) fun x hx => ?_
  · rcases List.mem_append.mp hcmd with hcmd | hcmd
    · rcases hcommands cmd' hcmd with rfl | hcmd
      · exact List.mem_append_right _ (by rw [hqueue]; exact List.mem_cons_self ..)
      · exact List.mem_append_left _ hcmd
    · exact List.mem_append_right _ (by rw [hqueue]; exact List.mem_cons_of_mem _ hcmd)
  · rw [hqueue, List.map_cons, List.mem_cons] at hor
    rcases hor with hx | rfl | hx
    · exact Or.inl ((hheld x).mpr (Or.inr hx))
    · exact Or.inl ((hheld _).mpr (Or.inl rfl))
    · exact Or.inr hx
  · rw [hqueue, List.map_cons, List.mem_cons]
    rcases hx with hx | hx
    · rcases (hheld x).mp hx with rfl | hx
      · exact Or.inr (Or.inl rfl)
      · exact Or.inl hx
    · exact Or.inr (Or.inr hx)

/-- STEP: the header is written. -/
theorem Core.activate (h : Core s) {p : Pump} (hstage : s.stage = .writingHeader p)
    (hopen : ∀ c, p.initialReply = some c → s.closed c = false)
    (hstatus : s.statusOf p.source = s.status) : Core (s.activate p) := by
  have hmono : ∀ x, s.Activated x → (s.activate p).Activated x := fun x ⟨a, ha, hx⟩ =>
    ⟨a, List.mem_cons_of_mem _ ha, hx⟩
  have hnew : (s.activate p).Activated p.source := ⟨_, List.mem_cons_self .., rfl⟩
  have hheld : ∀ x, (s.activate p).Held x ↔ s.Held x := by
    intro x
    simp only [Held, hstage, Stage.held]
    exact Iff.rfl
  obtain ⟨src, hsrc⟩ : ∃ src, s.sources[p.source]? = some src := by
    have hlt := h.here p.source (Or.inl (by rw [hstage]; exact List.mem_singleton.mpr rfl))
    exact ⟨_, List.getElem?_eq_getElem hlt⟩
  refine ⟨⟨fun c call x hc hs => hmono x (h.promise.returned c call x hc hs), fun a ha => ?_,
    fun x src hx => (h.promise.told x src hx).imp id (hheld x).mpr, fun x hx => ?_⟩,
    fun cmd hcmd => h.commands cmd (List.mem_append_right _ hcmd), fun c hc => ?_,
    fun x hx => h.here x ((hheld x).mp hx), rfl⟩
  · rcases List.mem_cons.mp ha with rfl | hold
    · cases hreply : p.initialReply with
      | none => rfl
      | some c => exact hopen c hreply
    · exact h.promise.late a hold
  · obtain rfl : p.source = x := Option.some.inj hx
    refine ⟨src, hsrc, ?_⟩
    rw [statusOf, hsrc] at hstatus
    exact hstatus.symm
  · have hmem : (⟨p.source, c⟩ : SwitchCommand) ∈ s.stage.commands ++ s.queue := by
      refine List.mem_append_left _ ?_
      rw [hstage]
      obtain ⟨attempt, x, reply⟩ := p
      obtain rfl : reply = some c := hc
      exact List.mem_singleton.mpr rfl
    exact ⟨p.source, h.commands _ hmem, hnew⟩

/-- STEP: the packet is written, and the new source replaces the old one. -/
theorem Core.swap (h : Core s) {p : Pump} {cmd : SwitchCommand} (hstage : s.stage = .writing p cmd)
    (hopen : s.closed cmd.reply = false) : Core (s.swap p cmd) := by
  have htold := h.tell p.source
  have hlen : (s.tell p.source).sources.length = s.sources.length := List.length_modify ..
  obtain ⟨src, hsrc⟩ : ∃ src, s.sources[cmd.source]? = some src := by
    have hlt := h.here cmd.source (Or.inl (by rw [hstage]; simp [Stage.held]))
    exact ⟨_, List.getElem?_eq_getElem hlt⟩
  -- the swap before the reply
  have hreplaced : Core (s.replaced p cmd) := by
    refine ⟨⟨fun c call x hc hs => ?_, fun a ha => ?_, fun x src' hx => ?_, fun x hx => ?_⟩,
      fun cmd' hcmd => h.commands cmd' (List.mem_append_right _ hcmd), fun c hc => ?_,
      fun x hx => ?_, rfl⟩
    · obtain ⟨a, ha, hx⟩ := h.promise.returned c call x hc hs
      exact ⟨a, List.mem_cons_of_mem _ ha, hx⟩
    · rcases List.mem_cons.mp ha with rfl | hold
      · exact hopen
      · exact h.promise.late a hold
    · rcases htold.promise.told x src' hx with hdone | hheld | hqueue | hsending
      · exact Or.inl hdone
      · change x ∈ s.stage.held at hheld
        rw [hstage] at hheld
        simp only [Stage.held, List.mem_cons, List.not_mem_nil, or_false] at hheld
        rcases hheld with rfl | rfl
        · exact Or.inl (told_tell hx)
        · exact Or.inr (Or.inl (List.mem_singleton.mpr rfl))
      · exact Or.inr (Or.inr (Or.inl hqueue))
      · exact Or.inr (Or.inr (Or.inr hsending))
    · obtain rfl : cmd.source = x := Option.some.inj hx
      obtain ⟨src', hsrc', htarget⟩ := tell_target (x := p.source) hsrc
      refine ⟨src', hsrc', ?_⟩
      change s.statusOf cmd.source = src'.target
      rw [htarget, statusOf, hsrc]
      rfl
    · obtain ⟨x, hx, a, ha, heq⟩ := h.first c (by rw [hstage]; exact hc)
      exact ⟨x, hx, a, List.mem_cons_of_mem _ ha, heq⟩
    · refine hlen ▸ h.here x ?_
      rcases hx with hx | hx | hx
      · refine Or.inl ?_
        rw [hstage]
        obtain rfl := List.mem_singleton.mp hx
        simp [Stage.held]
      · exact Or.inr (Or.inl hx)
      · exact Or.inr (Or.inr hx)
  refine hreplaced.answer fun _ x hx => ?_
  -- the reply's call has prepared this source
  have hby := h.commands cmd (List.mem_append_left _ (by
    rw [hstage]
    exact List.mem_singleton.mpr rfl))
  exact ⟨_, List.mem_cons_self .., AnsweredBy.unique hby hx⟩

/-- STEP: a frame of the active source is written. -/
theorem Core.rendered (h : Core s) {p : Pump} (hstage : s.stage = .rendering p) :
    Core (s.rendered p) := by
  have hactive : s.active = some p.source := h.active.trans (by rw [hstage]; rfl)
  obtain ⟨src, hsrc, hstatus⟩ := h.promise.status p.source hactive
  have hsame : s.statusOf p.source = s.status := by simp [statusOf, hsrc, hstatus]
  have hanswered : Core (s.answerAny p.initialReply true) := by
    refine h.answerAny fun _ c x hc hx => ?_
    obtain ⟨y, hy, hactivated⟩ := h.first c (by rw [hstage]; exact hc)
    exact hx.unique hy ▸ hactivated
  obtain ⟨calls, heq⟩ := answerAny_eq s p.initialReply true
  unfold OutputHandle.rendered
  rw [heq] at hanswered
  rw [hsame, heq]
  refine hanswered.stay (.pumping { p with initialReply := none }) ?_ (fun cmd hcmd => ?_)
    (fun c hc => by cases hc) ?_
  · change _ = s.stage.active
    rw [hstage]
    rfl
  · cases hcmd
  · change _ = s.stage.held
    rw [hstage]
    rfl

/-- STEP: a source for what the status shows is prepared. -/
theorem Core.prepareSource (h : Core s) {attempt : Nat} (hstage : s.stage = .preparing attempt) :
    Core (s.prepareSource attempt) := by
  have hget : ∀ {x : Nat} {src : Source}, s.sources[x]? = some src →
      (s.sources ++ [{ target := s.status }])[x]? = some src := fun hx =>
    getElem?_push_eq_some.mpr (Or.inl hx)
  refine ⟨⟨h.promise.returned, h.promise.late, fun x src hx => ?_, fun x hx => ?_⟩,
    fun cmd hcmd => h.commands cmd (List.mem_append_right _ hcmd), fun c hc => (by cases hc),
    fun x hx => ?_, h.active.trans (by rw [hstage]; rfl)⟩
  · rcases getElem?_push_eq_some.mp hx with hold | ⟨rfl, _⟩
    · rcases h.promise.told x src hold with htold | hheld | hqueue | hsending
      · exact Or.inl htold
      · rw [hstage] at hheld
        cases hheld
      · exact Or.inr (Or.inr (Or.inl hqueue))
      · exact Or.inr (Or.inr (Or.inr hsending))
    · exact Or.inr (Or.inl (List.mem_singleton.mpr rfl))
  · obtain ⟨src, hsrc, hstatus⟩ := h.promise.status x hx
    exact ⟨src, hget hsrc, hstatus⟩
  · have hlen : (s.prepareSource attempt).sources.length = s.sources.length + 1 := by
      simp [OutputHandle.prepareSource]
    rw [hlen]
    rcases hx with hx | hx | hx
    · obtain rfl := List.mem_singleton.mp hx
      exact Nat.lt_succ_self _
    · exact Nat.lt_succ_of_lt (h.here x (Or.inr (Or.inl hx)))
    · exact Nat.lt_succ_of_lt (h.here x (Or.inr (Or.inr hx)))

/-- STEP: the worker drops the command that it is fitting, and goes on. -/
theorem Core.drop (h : Core s) {p : Pump} {cmd : SwitchCommand}
    (hstage : s.stage = .fitting p cmd) :
    Core { s.discard cmd with stage := .pumping p } := by
  have hinv := h.discard cmd
  have hsame : (s.discard cmd).stage = .fitting p cmd := (discard_stage cmd).trans hstage
  refine hinv.move (.pumping p) (s.discard cmd).queue (s.discard cmd).active
    (s.discard cmd).stopped ?_ (Or.inr rfl)
    (fun c hc => List.mem_append_right _ hc) (fun c hc => by rw [hsame]; exact hc)
    (fun x src hx hor => ?_) fun x hx => ?_
  · rw [hinv.active, hsame]
    rfl
  · rcases hor with hmem | hmem
    · rw [hsame] at hmem
      simp only [Stage.held, List.mem_cons, List.not_mem_nil, or_false] at hmem
      rcases hmem with rfl | rfl
      · exact Or.inr (Or.inl (List.mem_singleton.mpr rfl))
      · exact Or.inl (told_discard hx)
    · exact Or.inr (Or.inr hmem)
  · rcases hx with hx | hx
    · obtain rfl := List.mem_singleton.mp hx
      exact Or.inl (by rw [hsame]; exact List.mem_cons_self ..)
    · exact Or.inr hx

/-- STEP: the encoder's run is over, and with it the command in hand. -/
theorem Core.endPumpWith (h : Core s) {p : Pump} {cmd : SwitchCommand} {ok : Bool}
    (hstage : s.stage.held = [p.source, cmd.source]) : Core ((s.discard cmd).endPump p ok) := by
  refine (h.discard cmd).endPump fun x src hx hmem => ?_
  rw [discard_stage, hstage] at hmem
  simp only [List.mem_cons, List.not_mem_nil, or_false] at hmem
  rcases hmem with rfl | rfl
  · exact Or.inl rfl
  · exact Or.inr (told_discard hx)

/-- STEP: the worker ends with a prepared source in hand. -/
theorem Core.finishPrepared (h : Core s) {attempt x : Nat} {reply : Option Nat}
    (hstage : s.stage = .turning attempt (some (x, reply))) :
    Core ((s.tell x).answerAny reply false).finish := by
  have hinv : Core ((s.tell x).answerAny reply false) :=
    (h.tell x).answerAny fun ho => by cases ho
  obtain ⟨calls, heq⟩ := answerAny_eq (s.tell x) reply false
  have hsame : ((s.tell x).answerAny reply false).stage = .turning attempt (some (x, reply)) := by
    rw [heq]
    exact hstage
  refine hinv.finish (by rw [hsame]; rfl) fun y src hy hmem => ?_
  rw [hsame] at hmem
  obtain rfl := List.mem_singleton.mp hmem
  rw [heq] at hy
  exact told_tell hy

/-- STEP: the head of the loop. -/
theorem Core.head (h : Core s) {attempt : Nat} {prepared : Option (Nat × Option Nat)}
    (hstage : s.stage = .turning attempt prepared) : Core (s.head attempt prepared) := by
  unfold OutputHandle.head
  split
  · next x reply =>
    split
    · exact h.finishPrepared hstage
    · refine h.stay _ (by rw [hstage]; rfl) (fun cmd hcmd => ?_) (fun c hc => by cases hc)
        (by rw [hstage]; rfl)
      rw [hstage]
      cases reply with
      | none => cases hcmd
      | some c => exact hcmd
  · split
    · exact h.finish (by rw [hstage]; rfl) fun x src _ hx => by
        rw [hstage] at hx
        cases hx
    · exact h.stay _ (by rw [hstage]; rfl) (fun cmd hcmd => by cases hcmd) (fun c hc => by cases hc)
        (by rw [hstage]; rfl)

/-! ### The steps -/

/-- INVARIANT -/
structure Inv (s : OutputHandle) : Prop where
  core : Core s
  /-- No call has ended that is past the last look at its reply. -/
  committing : ∀ c, s.stage.committing = some c → s.closed c = false

/-- A stage that commits nothing. -/
theorem Core.inv (h : Core s) (hstage : s.stage.committing = none) : Inv s :=
  ⟨h, fun c hc => by rw [hstage] at hc; cases hc⟩

theorem finish_inv (h : Core s) (hidle : s.stage.active = none)
    (hheld : ∀ x src, s.sources[x]? = some src → x ∈ s.stage.held → src.told = true) :
    Inv s.finish :=
  (h.finish hidle hheld).inv rfl

theorem turn_inv (h : Core s) {attempt : Nat} (hidle : s.stage.active = none)
    (hheld : ∀ x src, s.sources[x]? = some src → x ∈ s.stage.held → src.told = true) :
    Inv (s.turn attempt none) := by
  refine (h.turn hidle hheld).inv ?_
  unfold OutputHandle.turn
  split
  · rfl
  · rfl

theorem skip_inv (h : Core s) {attempt : Nat} {cmd : SwitchCommand} {queue : List SwitchCommand}
    (hqueue : s.queue = cmd :: queue) (hidle : s.stage.active = none) (hheld : s.stage.held = []) :
    Inv (s.skip attempt cmd queue) := by
  refine (h.skip hqueue hidle hheld).inv ?_
  unfold OutputHandle.skip OutputHandle.turn
  split
  · rfl
  · rfl

theorem head_inv (h : Core s) {attempt : Nat} {prepared : Option (Nat × Option Nat)}
    (hstage : s.stage = .turning attempt prepared) : Inv (s.head attempt prepared) := by
  refine (h.head hstage).inv ?_
  unfold OutputHandle.head
  split
  · split
    · rfl
    · rfl
  · split
    · rfl
    · rfl

/-- A run of the encoder that ends while it holds its own source only. -/
theorem endPump_inv (h : Core s) {p : Pump} {ok : Bool} (hheld : s.stage.held = [p.source]) :
    Inv (s.endPump p ok) := by
  refine (h.endPump fun x src _ hmem => Or.inl ?_).inv rfl
  rw [hheld] at hmem
  exact List.mem_singleton.mp hmem

/-- STEP: of the worker. -/
theorem Inv.work (h : Inv s) {e : Event} (hkept : s.Kept (.work e)) (hs : s.work e = some s') :
    Inv s' := by
  have hcore := h.core
  have hempty : ∀ {stage : Stage}, s.stage = stage → stage.held = [] →
      ∀ x src, s.sources[x]? = some src → x ∈ s.stage.held → src.told = true := by
    intro stage hstage hheld x src _ hx
    rw [hstage, hheld] at hx
    cases hx
  unfold OutputHandle.work at hs
  split at hs
  case h_1 _ attempt prepared hstage =>
    cases hs
    exact head_inv hcore hstage
  case h_2 _ attempt hstage =>
    cases hs
    exact (hcore.prepareSource hstage).inv rfl
  case h_3 _ attempt hstage =>
    cases hs
    exact (hcore.stay _ (by rw [hstage]; rfl) (fun cmd hcmd => by cases hcmd)
      (fun c hc => by cases hc) (by rw [hstage]; rfl)).inv rfl
  case h_4 _ attempt hstage =>
    unfold takePreparing at hs
    split at hs
    · cases hs
    · next cmd queue hqueue =>
      cases hs
      split
      · exact skip_inv hcore hqueue (by rw [hstage]; rfl) (by rw [hstage]; rfl)
      · refine (hcore.receive hqueue (by rw [hstage]; rfl) (fun cmd' hcmd => ?_)
          (fun c hc => by cases hc) fun x => ?_).inv rfl
        · exact Or.inl (List.mem_singleton.mp hcmd)
        · rw [hstage]
          simp [Stage.held]
  case h_5 _ attempt hstage =>
    split at hs
    · cases hs
      exact finish_inv hcore (by rw [hstage]; rfl) (hempty hstage rfl)
    · cases hs
  case h_6 _ p hstage =>
    split at hs
    · cases hs
      exact endPump_inv hcore (by rw [hstage]; rfl)
    · next hopen =>
      cases hs
      refine ⟨hcore.stay _ (by rw [hstage]; rfl) (fun cmd hcmd => ?_) (fun c hc => by cases hc)
        (by rw [hstage]; rfl), fun c hc => ?_⟩
      · rw [hstage]
        obtain ⟨attempt, x, reply⟩ := p
        cases reply with
        | none => cases hcmd
        | some c => exact hcmd
      · obtain ⟨attempt, x, reply⟩ := p
        obtain rfl : reply = some c := hc
        exact Bool.eq_false_iff.mpr hopen
  case h_7 _ p hstage =>
    cases hs
    exact endPump_inv hcore (by rw [hstage]; rfl)
  case h_8 _ p hstage =>
    cases hs
    exact (hcore.activate hstage (fun c hc => h.committing c (by rw [hstage]; exact hc))
      (hkept p.source (by rw [hstage]; rfl))).inv rfl
  case h_9 _ p hstage =>
    cases hs
    exact endPump_inv hcore (by rw [hstage]; rfl)
  case h_10 _ p hstage =>
    split at hs
    · cases hs
      exact endPump_inv hcore (by rw [hstage]; rfl)
    · cases hs
      exact (hcore.stay _ (by rw [hstage]; rfl) (fun cmd hcmd => by cases hcmd)
        (fun c hc => by rw [hstage]; exact hc) (by rw [hstage]; rfl)).inv rfl
  case h_11 _ p hstage =>
    unfold takePumping at hs
    split at hs
    · cases hs
    · next cmd queue hqueue =>
      cases hs
      split
      · refine (hcore.discardHead hqueue).inv ?_
        rw [discard_stage, hstage]
        rfl
      · refine (hcore.receive hqueue (by rw [hstage]; rfl) (fun cmd' hcmd => ?_)
          (fun c hc => by rw [hstage]; exact hc) fun x => ?_).inv rfl
        · exact Or.inl (List.mem_singleton.mp hcmd)
        · rw [hstage]
          simp only [Stage.held, List.mem_cons, List.not_mem_nil, or_false]
          exact or_comm
  case h_12 _ p hstage =>
    cases hs
    exact endPump_inv hcore (by rw [hstage]; rfl)
  case h_13 _ p hstage =>
    split at hs
    · cases hs
      exact endPump_inv hcore (by rw [hstage]; rfl)
    · cases hs
  case h_14 _ p hstage =>
    cases hs
    refine (hcore.rendered hstage).inv rfl
  case h_15 _ p hstage =>
    cases hs
    exact endPump_inv hcore (by rw [hstage]; rfl)
  case h_16 _ p cmd hstage =>
    split at hs
    · cases hs
      exact (hcore.drop hstage).inv rfl
    · next hopen =>
      cases hs
      refine ⟨hcore.stay _ (by rw [hstage]; rfl) (fun cmd' hcmd => ?_)
        (fun c hc => by rw [hstage]; exact hc) (by rw [hstage]; rfl), fun c hc => ?_⟩
      · rw [hstage]
        exact hcmd
      · obtain rfl : cmd.reply = c := Option.some.inj hc
        exact Bool.eq_false_iff.mpr hopen
  case h_17 _ p cmd hstage =>
    cases hs
    exact (hcore.drop hstage).inv rfl
  case h_18 _ p cmd hstage =>
    cases hs
    exact (hcore.endPumpWith (by rw [hstage]; rfl)).inv rfl
  case h_19 _ p cmd hstage =>
    cases hs
    refine (hcore.swap hstage (h.committing _ (by rw [hstage]; rfl))).inv ?_
    obtain ⟨calls, heq⟩ := answer_eq (s.replaced p cmd) cmd.reply true
    unfold OutputHandle.swap
    rw [heq]
    rfl
  case h_20 _ p cmd hstage =>
    cases hs
    exact (hcore.endPumpWith (by rw [hstage]; rfl)).inv rfl
  case h_21 _ attempt ok hstage =>
    split at hs
    · cases hs
      exact finish_inv hcore (by rw [hstage]; rfl) (hempty hstage rfl)
    · cases hs
      exact (hcore.stay _ (by rw [hstage]; rfl) (fun cmd hcmd => by cases hcmd)
        (fun c hc => by cases hc) (by rw [hstage]; rfl)).inv rfl
  case h_22 _ attempt hstage =>
    cases hs
    exact turn_inv hcore (by rw [hstage]; rfl) (hempty hstage rfl)
  case h_23 _ attempt hstage =>
    unfold takeBackingOff at hs
    split at hs
    · cases hs
    · next cmd queue hqueue =>
      cases hs
      split
      · exact skip_inv hcore hqueue (by rw [hstage]; rfl) (by rw [hstage]; rfl)
      · refine (hcore.receive hqueue (by rw [hstage]; rfl) (fun cmd' hcmd => ?_)
          (fun c hc => by cases hc) fun x => ?_).inv rfl
        · exact Or.inl (List.mem_singleton.mp hcmd)
        · rw [hstage]
          simp [Stage.held]
  case h_24 _ attempt hstage =>
    split at hs
    · cases hs
      exact finish_inv hcore (by rw [hstage]; rfl) (hempty hstage rfl)
    · cases hs
  case h_25 => cases hs

/-! ### The calls -/

theorem closed_setCall {c d : Nat} {stage : CallStage}
    (h : c ≠ d ∨ ∀ target, (Call.mk target stage).isEnded = false) (hopen : s.closed d = false) :
    (s.setCall c stage).closed d = false := by
  cases hd : s.calls[d]? with
  | none =>
    have hnone : (s.setCall c stage).calls[d]? = none := by
      simp only [OutputHandle.setCall, List.getElem?_modify, hd, Option.map_eq_map, Option.map_none]
    simp [closed, hnone]
  | some call =>
    obtain ⟨call', hcall', hstage⟩ := setCall_get c stage hd
    have hold : call.isEnded = false := by simpa [closed, hd] using hopen
    have hnew : call'.isEnded = false := by
      split at hstage
      · next hcd =>
        have hstill := h.resolve_left fun hne => hne hcd
        simpa [Call.isEnded, hstage] using hstill call'.target
      · simpa [Call.isEnded, hstage] using hold
    simp [closed, hcall', hnew]

/-- The reply of a commit under way is that of a command in hand. -/
theorem committing_commands {stage : Stage} {c : Nat} (h : stage.committing = some c) :
    ∃ x, (⟨x, c⟩ : SwitchCommand) ∈ stage.commands := by
  cases stage with
  | writingHeader p =>
    obtain ⟨attempt, x, reply⟩ := p
    obtain rfl : reply = some c := h
    exact ⟨x, List.mem_singleton.mpr rfl⟩
  | writing p cmd =>
    obtain rfl : cmd.reply = c := Option.some.inj h
    exact ⟨cmd.source, List.mem_singleton.mpr rfl⟩
  | _ => cases h

/-- A call that has sent no command is not committed. -/
theorem Core.not_committing (h : Core s) {c : Nat} {call : Call} (hcall : s.calls[c]? = some call)
    (hnot : ∀ x, ¬ Answers x call.stage) : s.stage.committing ≠ some c := by
  intro hc
  obtain ⟨x, hx⟩ := committing_commands hc
  obtain ⟨call', hcall', hanswers⟩ := h.commands _ (List.mem_append_left _ hx)
  obtain rfl : call = call' := Option.some.inj (hcall.symm.trans hcall')
  exact hnot x hanswers

theorem not_answers_preparing (x : Nat) : ¬ Answers x .preparing := by
  rintro (hx | ⟨_, hx⟩)
  · cases hx
  · cases hx

theorem not_answers_sending (x y : Nat) : ¬ Answers x (.sending y) := by
  rintro (hx | ⟨_, hx⟩)
  · cases hx
  · cases hx

/-- STEP: a call that is neither sending nor answered fails. -/
theorem Core.abandon (h : Core s) {c : Nat} {call : Call} (hcall : s.calls[c]? = some call)
    (hstage : call.stage = .preparing) : Core (s.setCall c (.ended none false)) := by
  refine h.setCall hcall (fun x hx => ?_) (fun x hx => by cases hx) (fun x hx => ?_)
    fun x hx => by cases hx
  · rw [hstage] at hx
    exact absurd hx (not_answers_preparing x)
  · rw [hstage] at hx
    cases hx

/-- STEP: the call has its source in hand. -/
theorem Core.prepared (h : Core s) {c : Nat} {call : Call} (hcall : s.calls[c]? = some call)
    (hstage : call.stage = .preparing) :
    Core { s.setCall c (.sending s.sources.length) with
      sources := s.sources ++ [{ target := call.target }] } := by
  have hne : ∀ {d : Nat} {call₁ : Call} {x : Nat}, s.calls[d]? = some call₁ →
      (Answers x call₁.stage ∨ call₁.stage = .sending x) → c ≠ d := by
    rintro d call₁ x hcall₁ hx rfl
    obtain rfl : call = call₁ := Option.some.inj (hcall.symm.trans hcall₁)
    rcases hx with hx | hx
    · rw [hstage] at hx
      exact not_answers_preparing x hx
    · cases hstage.symm.trans hx
  have hkeep : ∀ {d : Nat} {call₁ : Call}, s.calls[d]? = some call₁ → c ≠ d →
      ∃ call', (s.setCall c (.sending s.sources.length)).calls[d]? = some call' ∧
        call'.stage = call₁.stage := by
    intro d call₁ hcall₁ hcd
    obtain ⟨call', hcall', hstage'⟩ := setCall_get c (.sending s.sources.length) hcall₁
    rw [if_neg hcd] at hstage'
    exact ⟨call', hcall', hstage'⟩
  have hby : ∀ {d x : Nat}, s.AnsweredBy d x →
      (s.setCall c (.sending s.sources.length)).AnsweredBy d x := by
    rintro d x ⟨call₁, hcall₁, hx⟩
    obtain ⟨call', hcall', hstage'⟩ := hkeep hcall₁ (hne hcall₁ (Or.inl hx))
    exact ⟨call', hcall', hstage' ▸ hx⟩
  refine ⟨⟨fun d call' x hcall' hx => ?_, h.promise.late, fun x src hx => ?_, fun x hx => ?_⟩,
    fun cmd hcmd => hby (h.commands cmd hcmd), fun d hd => ?_, fun x hx => ?_, h.active⟩
  · obtain ⟨call₁, hcall₁, _, hstage'⟩ := getElem?_setCall hcall'
    rw [hx] at hstage'
    split at hstage'
    · cases hstage'
    · exact h.promise.returned d call₁ x hcall₁ hstage'.symm
  · rcases getElem?_push_eq_some.mp hx with hold | ⟨rfl, _⟩
    · rcases h.promise.told x src hold with htold | hheld | hqueue | ⟨d, call₁, hcall₁, hx₁⟩
      · exact Or.inl htold
      · exact Or.inr (Or.inl hheld)
      · exact Or.inr (Or.inr (Or.inl hqueue))
      · obtain ⟨call', hcall', hstage'⟩ := hkeep hcall₁ (hne hcall₁ (Or.inr hx₁))
        exact Or.inr (Or.inr (Or.inr ⟨d, call', hcall', hstage'.trans hx₁⟩))
    · obtain ⟨call', hcall', hstage'⟩ :=
        setCall_get c (.sending s.sources.length) hcall
      rw [if_pos rfl] at hstage'
      exact Or.inr (Or.inr (Or.inr ⟨c, call', hcall', hstage'⟩))
  · obtain ⟨src, hsrc, hstatus⟩ := h.promise.status x hx
    exact ⟨src, getElem?_push_eq_some.mpr (Or.inl hsrc), hstatus⟩
  · obtain ⟨x, hx, hactivated⟩ := h.first d hd
    exact ⟨x, hby hx, hactivated⟩
  · rw [List.length_append, List.length_singleton]
    rcases hx with hx | hx | ⟨d, call', hcall', hx⟩
    · exact Nat.lt_succ_of_lt (h.here x (Or.inl hx))
    · exact Nat.lt_succ_of_lt (h.here x (Or.inr (Or.inl hx)))
    · obtain ⟨call₁, hcall₁, _, hstage'⟩ := getElem?_setCall hcall'
      rw [hx] at hstage'
      split at hstage'
      · cases hstage'
        exact Nat.lt_succ_self _
      · exact Nat.lt_succ_of_lt (h.here x (Or.inr (Or.inr ⟨d, call₁, hcall₁, hstage'.symm⟩)))

/-- STEP: the call's source is told, and the call ends. -/
theorem Core.withdraw (h : Core s) {c x : Nat} {call : Call} (hcall : s.calls[c]? = some call)
    (hstage : call.stage = .sending x) : Core ((s.tell x).setCall c (.ended (some x) false)) := by
  refine (h.tell x).setCall hcall (fun y hy => ?_) (fun y hy => by cases hy)
    (fun y hy => Or.inr (Or.inr fun src hsrc => ?_)) fun y hy => by cases hy
  · rw [hstage] at hy
    exact absurd hy (not_answers_sending y x)
  · cases hstage.symm.trans hy
    exact told_tell hsrc

/-- STEP: the command is sent. -/
theorem Core.send (h : Core s) {c x : Nat} {call : Call} (hcall : s.calls[c]? = some call)
    (hstage : call.stage = .sending x) :
    Core { s.setCall c (.waiting x) with queue := s.queue ++ [⟨x, c⟩] } := by
  have hsending : s.Sending x := ⟨c, call, hcall, hstage⟩
  have hby : ∀ {d y : Nat}, s.AnsweredBy d y → (s.setCall c (.waiting x)).AnsweredBy d y := by
    rintro d y ⟨call₁, hcall₁, hy⟩
    obtain ⟨call', hcall', hstage'⟩ := setCall_get c (.waiting x) hcall₁
    refine ⟨call', hcall', ?_⟩
    split at hstage'
    · next hcd =>
      subst hcd
      obtain rfl : call = call₁ := Option.some.inj (hcall.symm.trans hcall₁)
      rw [hstage] at hy
      exact absurd hy (not_answers_sending y x)
    · exact hstage' ▸ hy
  have hmem : x ∈ (s.queue ++ [(⟨x, c⟩ : SwitchCommand)]).map (·.source) := by simp
  refine ⟨⟨fun d call' y hcall' hy => ?_, h.promise.late, fun y src hy => ?_, h.promise.status⟩,
    fun cmd hcmd => ?_, fun d hd => ?_, fun y hy => ?_, h.active⟩
  · obtain ⟨call₁, hcall₁, _, hstage'⟩ := getElem?_setCall hcall'
    rw [hy] at hstage'
    split at hstage'
    · cases hstage'
    · exact h.promise.returned d call₁ y hcall₁ hstage'.symm
  · rcases h.promise.told y src hy with htold | hheld | hqueue | ⟨d, call₁, hcall₁, hy₁⟩
    · exact Or.inl htold
    · exact Or.inr (Or.inl hheld)
    · refine Or.inr (Or.inr (Or.inl ?_))
      rw [List.map_append]
      exact List.mem_append_left _ hqueue
    · by_cases hcd : c = d
      · subst hcd
        obtain rfl : call = call₁ := Option.some.inj (hcall.symm.trans hcall₁)
        cases hstage.symm.trans hy₁
        exact Or.inr (Or.inr (Or.inl hmem))
      · obtain ⟨call', hcall', hstage'⟩ := setCall_get c (.waiting x) hcall₁
        rw [if_neg hcd] at hstage'
        exact Or.inr (Or.inr (Or.inr ⟨d, call', hcall', hstage'.trans hy₁⟩))
  · rcases List.mem_append.mp hcmd with hcmd | hcmd
    · exact hby (h.commands cmd (List.mem_append_left _ hcmd))
    · rcases List.mem_append.mp hcmd with hcmd | hcmd
      · exact hby (h.commands cmd (List.mem_append_right _ hcmd))
      · obtain rfl := List.mem_singleton.mp hcmd
        obtain ⟨call', hcall', hstage'⟩ := setCall_get c (.waiting x) hcall
        rw [if_pos rfl] at hstage'
        exact ⟨call', hcall', Or.inl hstage'⟩
  · obtain ⟨y, hy, hactivated⟩ := h.first d hd
    exact ⟨y, hby hy, hactivated⟩
  · rcases hy with hy | hy | ⟨d, call', hcall', hy⟩
    · exact h.here y (Or.inl hy)
    · change y ∈ (s.queue ++ [(⟨x, c⟩ : SwitchCommand)]).map _ at hy
      rw [List.map_append, List.mem_append] at hy
      rcases hy with hy | hy
      · exact h.here y (Or.inr (Or.inl hy))
      · obtain rfl := List.mem_singleton.mp hy
        exact h.here _ (Or.inr (Or.inr hsending))
    · obtain ⟨call₁, hcall₁, _, hstage'⟩ := getElem?_setCall hcall'
      rw [hy] at hstage'
      split at hstage'
      · cases hstage'
      · exact h.here y (Or.inr (Or.inr ⟨d, call₁, hcall₁, hstage'.symm⟩))

/-- STEP: of a call. -/
theorem Inv.call (h : Inv s) {c : Nat} {call : Call} (hcall : s.calls[c]? = some call)
    (hs : (∃ ok, s.prepared c ok call = some s') ∨ s.send c call = some s' ∨
      (s.stage.committing ≠ some c ∧ s.giveUp c call = some s')) : Inv s' := by
  have hcore := h.core
  rcases hs with ⟨ok, hs⟩ | hs | ⟨hkept, hs⟩
  · unfold OutputHandle.prepared at hs
    split at hs
    · next hstage =>
      have hnot : s.stage.committing ≠ some c := hcore.not_committing hcall
        (hstage ▸ not_answers_preparing)
      split at hs
      · cases hs
        exact ⟨hcore.prepared hcall hstage, fun d hd => closed_setCall
          (Or.inl fun hcd => hnot (hcd ▸ hd)) (h.committing d hd)⟩
      · cases hs
        exact ⟨hcore.abandon hcall hstage, fun d hd => closed_setCall
          (Or.inl fun hcd => hnot (hcd ▸ hd)) (h.committing d hd)⟩
    · cases hs
  · unfold OutputHandle.send at hs
    split at hs
    · next x hstage =>
      split at hs
      · next hended =>
        cases hs
        refine (hcore.withdraw hcall hstage).inv ?_
        change s.stage.committing = none
        rw [hended]
        rfl
      · split at hs
        · cases hs
          exact ⟨hcore.send hcall hstage, fun d hd => closed_setCall (Or.inr fun _ => rfl)
            (h.committing d hd)⟩
        · cases hs
    · cases hs
  · unfold OutputHandle.giveUp at hs
    split at hs
    · next hstage =>
      cases hs
      exact ⟨hcore.abandon hcall hstage, fun d hd => closed_setCall
        (Or.inl fun hcd => hkept (hcd ▸ hd)) (h.committing d hd)⟩
    · next x hstage =>
      cases hs
      exact ⟨hcore.withdraw hcall hstage, fun d hd => closed_setCall
        (s := s.tell x) (Or.inl fun hcd => hkept (hcd ▸ hd)) (h.committing d hd)⟩
    · next x hstage =>
      cases hs
      refine ⟨hcore.setCall hcall (fun y hy => ?_) (fun y hy => by cases hy) (fun y hy => ?_)
        (fun y hy => by cases hy), fun d hd => closed_setCall
        (Or.inl fun hcd => hkept (hcd ▸ hd)) (h.committing d hd)⟩
      · rw [hstage] at hy
        rcases hy with hy | ⟨_, hy⟩
        · cases hy
          exact Or.inr ⟨false, rfl⟩
        · cases hy
      · rw [hstage] at hy
        cases hy
    · cases hs

/-- STEP: a call begins. -/
theorem Inv.switch (h : Inv s) {target : Target} (hs : s.switch target = some s') : Inv s' := by
  unfold OutputHandle.switch at hs
  split at hs
  · cases hs
  · simp only [Option.some.injEq] at hs
    subst hs
    generalize hstage : (if s.stopped = true then CallStage.ended none false
      else if s.shows target = true then .ended none true else .preparing) = stage
    have hnew : ∀ x, stage ≠ .ended (some x) true ∧ stage ≠ .sending x := by
      intro x
      subst hstage
      split
      · exact ⟨nofun, nofun⟩
      · split
        · exact ⟨nofun, nofun⟩
        · exact ⟨nofun, nofun⟩
    have hby : ∀ {d x : Nat}, s.AnsweredBy d x →
        AnsweredBy { s with calls := s.calls ++ [⟨target, stage⟩] } d x :=
      fun ⟨call, hcall, hx⟩ => ⟨call, getElem?_push_eq_some.mpr (Or.inl hcall), hx⟩
    refine ⟨⟨⟨fun c call x hcall hx => ?_, h.core.promise.late, fun x src hx => ?_,
      h.core.promise.status⟩, fun cmd hcmd => hby (h.core.commands cmd hcmd), fun c hc => ?_,
      fun x hx => ?_, h.core.active⟩, fun c hc => ?_⟩
    · rcases getElem?_push_eq_some.mp hcall with hold | ⟨_, rfl⟩
      · exact h.core.promise.returned c call x hold hx
      · exact absurd hx (hnew x).1
    · rcases h.core.promise.told x src hx with htold | hheld | hqueue | ⟨d, call, hcall, hx₁⟩
      · exact Or.inl htold
      · exact Or.inr (Or.inl hheld)
      · exact Or.inr (Or.inr (Or.inl hqueue))
      · exact Or.inr (Or.inr (Or.inr ⟨d, call, getElem?_push_eq_some.mpr (Or.inl hcall), hx₁⟩))
    · obtain ⟨x, hx, hactivated⟩ := h.core.first c hc
      exact ⟨x, hby hx, hactivated⟩
    · rcases hx with hx | hx | ⟨d, call, hcall, hx⟩
      · exact h.core.here x (Or.inl hx)
      · exact h.core.here x (Or.inr (Or.inl hx))
      · rcases getElem?_push_eq_some.mp hcall with hold | ⟨_, rfl⟩
        · exact h.core.here x (Or.inr (Or.inr ⟨d, call, hold, hx⟩))
        · exact absurd hx (hnew x).2
    · obtain ⟨x, hx⟩ := committing_commands hc
      obtain ⟨call, hcall, _⟩ := h.core.commands _ (List.mem_append_left _ hx)
      have hopen := h.committing c hc
      rw [closed_eq hcall] at hopen
      rw [closed_eq (getElem?_push_eq_some.mpr (Or.inl hcall))]
      exact hopen

/-- STEP: the worker is aborted. -/
theorem Inv.abort (h : Inv s) : Inv s.abort := by
  have hcore := h.core
  have hended : ∀ {p : Pump} {s : OutputHandle}, Core (s.endPump p false) →
      Inv (s.endPump p false).finish := fun hend =>
    finish_inv hend rfl fun x src _ hx => by cases hx
  have hrest : s.stage.active = none → s.stage.held = [] → Inv s.finish := fun hidle hheld =>
    finish_inv hcore hidle fun x src _ hx => by
      rw [hheld] at hx
      cases hx
  unfold OutputHandle.abort
  split
  case h_1 _ attempt x reply hstage => exact (hcore.finishPrepared hstage).inv rfl
  case h_2 _ p hstage => exact hended (endPump_inv hcore (by rw [hstage]; rfl)).core
  case h_3 _ p hstage => exact hended (endPump_inv hcore (by rw [hstage]; rfl)).core
  case h_4 _ p hstage => exact hended (endPump_inv hcore (by rw [hstage]; rfl)).core
  case h_5 _ p hstage => exact hended (endPump_inv hcore (by rw [hstage]; rfl)).core
  case h_6 _ p cmd hstage => exact hended (hcore.endPumpWith (by rw [hstage]; rfl))
  case h_7 _ p cmd hstage => exact hended (hcore.endPumpWith (by rw [hstage]; rfl))
  case h_8 hturning hopening hheader hpumping hrendering hfitting hwriting =>
    cases hstage : s.stage with
    | turning attempt prepared =>
      rcases prepared with _ | ⟨x, reply⟩
      · exact hrest (by rw [hstage]; rfl) (by rw [hstage]; rfl)
      · exact absurd hstage (hturning attempt x reply)
    | opening p => exact absurd hstage (hopening p)
    | writingHeader p => exact absurd hstage (hheader p)
    | pumping p => exact absurd hstage (hpumping p)
    | rendering p => exact absurd hstage (hrendering p)
    | fitting p cmd => exact absurd hstage (hfitting p cmd)
    | writing p cmd => exact absurd hstage (hwriting p cmd)
    | preparing => exact hrest (by rw [hstage]; rfl) (by rw [hstage]; rfl)
    | closing => exact hrest (by rw [hstage]; rfl) (by rw [hstage]; rfl)
    | backingOff => exact hrest (by rw [hstage]; rfl) (by rw [hstage]; rfl)
    | ended => exact hrest (by rw [hstage]; rfl) (by rw [hstage]; rfl)

/-! ### Runs -/

/-- STEP: the invariant is kept by every step that the condition allows. -/
theorem Inv.step (h : Inv s) {m : Move} (hkept : s.Kept m) (hs : s.step m = some s') : Inv s' := by
  cases m with
  | switch target => exact h.switch hs
  | prepared c ok =>
    obtain ⟨call, hcall, hs⟩ := Option.bind_eq_some_iff.mp hs
    exact h.call hcall (Or.inl ⟨ok, hs⟩)
  | send c =>
    obtain ⟨call, hcall, hs⟩ := Option.bind_eq_some_iff.mp hs
    exact h.call hcall (Or.inr (Or.inl hs))
  | giveUp c =>
    obtain ⟨call, hcall, hs⟩ := Option.bind_eq_some_iff.mp hs
    exact h.call hcall (Or.inr (Or.inr ⟨hkept, hs⟩))
  | stop =>
    cases hs
    exact ⟨⟨⟨h.core.promise.returned, h.core.promise.late, h.core.promise.told,
      h.core.promise.status⟩, h.core.commands, h.core.first, h.core.here, h.core.active⟩,
      h.committing⟩
  | abort =>
    change (if s.stopped then some s.abort else none) = some s' at hs
    split at hs
    · cases hs
      exact h.abort
    · cases hs
  | work e => exact h.work hkept hs

theorem Inv.start (target : Target) : Inv (start target) := by
  have hfirst : ∀ {x : Nat} {src : Source},
      (OutputHandle.start target).sources[x]? = some src → x = 0 := fun {x src} hx => by
    obtain ⟨hlt, _⟩ := List.getElem?_eq_some_iff.mp hx
    exact Nat.lt_one_iff.mp hlt
  refine ⟨⟨⟨fun c call x hc => (by cases hc), fun a ha => (by cases ha), fun x src hx => ?_,
    fun x hx => (by cases hx)⟩, fun cmd hcmd => (by cases hcmd), fun c hc => (by cases hc),
    fun x hx => ?_, rfl⟩, fun c hc => (by cases hc)⟩
  · obtain rfl := hfirst hx
    exact Or.inr (Or.inl (List.mem_singleton.mpr rfl))
  · rcases hx with hx | hx | ⟨c, call, hcall, _⟩
    · obtain rfl := List.mem_singleton.mp hx
      exact Nat.zero_lt_one
    · cases hx
    · cases hcall

/-- RUN: in every run with no call that ends during the commit of its source, and no encoder started
    with a source that the status does not show, the promise holds at every point. -/
theorem promise_of_watched {target : Target} {moves : List Move}
    (hrun : exec step (start target) moves = some s)
    (hkept : Along step Kept (start target) moves) : s.Promise :=
  (ReachesBy.invariant (I := Inv) ⟨moves, hrun, hkept⟩
    (fun _ _ _ h hkept hs => h.step hkept hs) (Inv.start target)).core.promise

/-! ### A switch that goes through, and one that is given up too late -/

def phone : Target := ⟨"phone", false⟩
def tablet : Target := ⟨"tablet", false⟩

/-- The output shows the phone; a switch to the tablet is taken by the pump up to the last look. -/
def switched : List Move :=
  [.work .ok, .work .ok, .work .ok, .work .tick, .work .ok, .switch tablet, .prepared 0 true,
    .send 0, .work .take, .work .ok]

/-- The packet is written: the call returns. -/
theorem promise_of_watched_switched :
    ∃ s, exec step (start phone) (switched ++ [.work .ok]) = some s ∧ s.Promise ∧
      s.active = some 1 ∧ s.status = tablet := by
  obtain ⟨s, hs, hactive, hstatus⟩ : ∃ s,
      exec step (start phone) (switched ++ [.work .ok]) = some s ∧ s.active = some 1 ∧
        s.status = tablet :=
    exec_eval (by decide +kernel)
  exact ⟨s, hs, promise_of_watched hs (by decide +kernel), hactive, hstatus⟩

/-- The call ends while the packet is written: its source becomes active behind it. -/
theorem not_promise_abandoned :
    ∃ s, exec step (start phone) (switched ++ [.giveUp 0, .work .ok]) = some s ∧ ¬ s.Promise ∧
      s.active = some 1 ∧ s.calls.map (·.stage) = [.ended (some 1) false] := by
  obtain ⟨s, hs, hlate, hactive, hcalls⟩ : ∃ s,
      exec step (start phone) (switched ++ [.giveUp 0, .work .ok]) = some s ∧
        ⟨1, true⟩ ∈ s.activations ∧ s.active = some 1 ∧
        s.calls.map (·.stage) = [.ended (some 1) false] :=
    exec_eval (by decide +kernel)
  have hnot : ¬ s.Promise := fun h => by cases h.late _ hlate
  exact ⟨s, hs, hnot, hactive, hcalls⟩

end OutputHandle

end Gamer.Media.Live
