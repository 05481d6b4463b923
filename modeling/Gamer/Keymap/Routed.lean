import Gamer.Keymap.Released

/-! Which sink a key's press and its release go to. A keydown and a keyup choose by tests of their
    own, and what they test may change in between, so that a release goes to the sink that has the
    press only if the keyup's tests still choose it:

        keydown ──▶ remote │ mapping │ fallback
        keyup   ──▶ remote │ swallowed │ mapping │ fallback                               -/

namespace Gamer.Keymap
open Gamer.Lib Controller

inductive Sink where
  | remote | mapping | fallback
  deriving DecidableEq, Repr

/-- What the server's keymap has been told. -/
def remotePress : Entry → Option (Press String)
  | .input (.keyDown code ..) => some (.down code)
  | .input (.keyUp code _) => some (.up code)
  | _ => none

def remotePresses (log : List Entry) : List (Press String) := log.filterMap remotePress

/-- What the keyboard has been told since it was last told to release everything. -/
def fallbackPresses : List Entry → List (Press String)
  | [] => []
  | .fallbackReleaseAll :: _ => []
  | .fallbackDown code :: log => .down code :: fallbackPresses log
  | .fallbackUp code :: log => .up code :: fallbackPresses log
  | .mapped .. :: log | .input _ :: log => fallbackPresses log

/-- The sink has the code pressed. -/
def PressedAt (log : List Entry) (code : String) : Sink → Prop
  | .remote => Press.IsDown code (remotePresses log)
  | .mapping => ∃ t : Thing, t.code = code ∧ Press.IsDown t (presses log)
  | .fallback => Press.IsDown code (fallbackPresses log)

/-- The code has had its keyup since its last keydown. -/
def IsUp (code : String) : List Call → Prop
  | [] => True
  | .keydown e :: history => e.code ≠ code ∧ IsUp code history
  | .keyup e :: history => e.code = code ∨ IsUp code history
  | _ :: history => IsUp code history

/-- No sink is left with a code that is up. -/
def NoneStuck (s : Session) : Prop :=
  ∀ code, IsUp code s.history → ∀ sink, ¬ PressedAt s.ctl.log code sink

/-- The sink that the tests of a keyup choose, if any. -/
def Controller.route (s : Controller) (o : Outside) (code : String) : Option Sink :=
  if code = "" then if s.remoteEnabled o then none else some .fallback
  else if s.remoteEnabled o || s.remoteHeld.contains code then some .remote
  else if s.suppressedKeyups.contains code then none
  else if (s.held.get code).isSome then some .mapping
  else some .fallback

/-- All sends succeed, and no event is ignored by its target. -/
def Delivered (_ : Session) (call : Call × Outside) : Prop :=
  (∀ m, call.2.sendControl m = true) ∧ (∀ m, call.2.sendStateControl m = true) ∧
    (∀ e, call.2.sendInputEvent e = true) ∧
    ∀ e, call.1 = .keydown e ∨ call.1 = .keyup e → e.ignoredTarget = false

/-- A keyup finds its code pressed nowhere but at the sink it is routed to. -/
def RoutedBack (s : Session) (call : Call × Outside) : Prop :=
  match call.1 with
  | .keyup e => ∀ sink, PressedAt s.ctl.log e.code sink → s.ctl.route call.2 e.code = some sink
  | _ => True

instance PressedAt.decidable (log : List Entry) (code : String) :
    ∀ sink, Decidable (PressedAt log code sink)
  | .remote => inferInstanceAs (Decidable (Press.IsDown code (remotePresses log)))
  | .mapping => inferInstanceAs (Decidable (∃ t : Thing, t.code = code ∧
      Press.IsDown t (presses log)))
  | .fallback => inferInstanceAs (Decidable (Press.IsDown code (fallbackPresses log)))

instance IsUp.decidable (code : String) : ∀ history, Decidable (IsUp code history)
  | [] => isTrue trivial
  | .keydown e :: history =>
    have := IsUp.decidable code history
    inferInstanceAs (Decidable (e.code ≠ code ∧ IsUp code history))
  | .keyup e :: history =>
    have := IsUp.decidable code history
    inferInstanceAs (Decidable (e.code = code ∨ IsUp code history))
  | .releaseAll :: history | .setKeymap _ :: history | .setMode _ :: history
  | .setEnabled _ :: history | .setRemote _ :: history => IsUp.decidable code history

instance (s : Session) (call : Call × Outside) : Decidable (RoutedBack s call) :=
  match call with
  | (.keyup e, o) =>
    decidable_of_iff (∀ sink ∈ [Sink.remote, .mapping, .fallback], PressedAt s.ctl.log e.code sink →
      s.ctl.route o e.code = some sink)
      ⟨fun h sink => h sink (by cases sink <;> simp), fun h sink _ => h sink⟩
  | (.keydown _, _) | (.releaseAll, _) | (.setKeymap _, _) | (.setMode _, _) | (.setEnabled _, _)
  | (.setRemote _, _) => isTrue trivial

/-! ### What a call does at each sink -/

variable {s s' : Controller} {o : Outside} {log : List Entry}

theorem pressedAt_mapping (h : Kept s.held s.log) (code : String) :
    PressedAt s.log code .mapping ↔ thingOf s.held code ≠ none := by
  constructor
  · rintro ⟨t, rfl, hdown⟩
    rw [(h.down_iff t).mp hdown]
    exact Option.some_ne_none t
  · intro hsome
    obtain ⟨t, ht⟩ := Option.ne_none_iff_exists'.mp hsome
    obtain ⟨item, _, hthing⟩ := Option.bind_eq_some_iff.mp ht
    have hcode := Held.thing_code hthing
    exact ⟨t, hcode, (h.down_iff t).mpr (hcode ▸ ht)⟩

/-- The code that the entry presses at the server or at the keyboard. -/
def Entry.pressesFor : Entry → Option String
  | .input (.keyDown code ..) | .fallbackDown code => some code
  | _ => none

/-- Neither the server nor the keyboard has been given a press of the code. -/
structure Spared (code : String) (log log' : List Entry) : Prop where
  remote : Press.IsDown code (remotePresses log') → Press.IsDown code (remotePresses log)
  fallback : Press.IsDown code (fallbackPresses log') → Press.IsDown code (fallbackPresses log)

theorem Spared.refl (code : String) (log : List Entry) : Spared code log log := ⟨id, id⟩

theorem Spared.trans {code : String} {log₁ log₂ log₃ : List Entry} (h₁ : Spared code log₁ log₂)
    (h₂ : Spared code log₂ log₃) : Spared code log₁ log₃ :=
  ⟨h₁.remote ∘ h₂.remote, h₁.fallback ∘ h₂.fallback⟩

theorem Spared.cons {e : Entry} {code : String} (he : e.pressesFor ≠ some code) (log : List Entry) :
    Spared code log (e :: log) := by
  constructor <;> intro h
  · cases e with
    | input event =>
      cases event with
      | keyDown c _ _ => exact h.resolve_left fun hc => he (by rw [← hc]; rfl)
      | keyUp c _ => exact h.2
    | _ => exact h
  · cases e with
    | fallbackDown c => exact h.resolve_left fun hc => he (by rw [← hc]; rfl)
    | fallbackUp c => exact h.2
    | fallbackReleaseAll => exact h.elim
    | _ => exact h

/-- The handler adds nothing, or one entry that presses no other code. -/
def AddsFor (code : String) (log log' : List Entry) : Prop :=
  log' = log ∨ ∃ e : Entry, (∀ c, e.pressesFor = some c → c = code) ∧ log' = e :: log

theorem AddsFor.spared {code c : String} {log' : List Entry} (h : AddsFor code log log')
    (hc : c ≠ code) : Spared c log log' := by
  rcases h with rfl | ⟨e, he, rfl⟩
  · exact .refl c _
  · exact .cons (fun hpress => hc (he c hpress)) log

theorem forwardRemoteInput_adds (s : Controller) (o : Outside) (e : KeyEvent) (phase : Phase) :
    AddsFor e.code s.log (s.forwardRemoteInput o e phase).1.log := by
  unfold forwardRemoteInput eventCode emitInput
  split_ifs
  · exact .inl rfl
  · cases phase
    · dsimp only
      split
      · exact .inr ⟨_, by simp [Entry.pressesFor], rfl⟩
      · exact .inl rfl
    · dsimp only
      split
      · exact .inr ⟨_, by simp [Entry.pressesFor], rfl⟩
      · exact .inl rfl

theorem start_adds (s : Controller) (o : Outside) (e : KeyEvent) (action : Action) :
    AddsFor e.code s.log (s.start o e action).1.log := by
  have hmapped : ∀ m item, AddsFor e.code s.log (s.hold e.code m item).log :=
    fun m item => .inr ⟨.mapped e.code m, by simp [Entry.pressesFor], rfl⟩
  have hfallback : AddsFor e.code s.log (s.fallbackDown e).1.log :=
    .inr ⟨.fallbackDown e.code, by simp [Entry.pressesFor], rfl⟩
  have hsame : AddsFor e.code s.log (s.suppress e.code).log := .inl rfl
  unfold Controller.start
  cases action with
  | tap point =>
    dsimp only
    split
    · exact hmapped ..
    · exact hfallback
  | swipe first last durationMs =>
    dsimp only
    split
    · exact hmapped ..
    · exact hfallback
  | rawKey keyName keycode =>
    dsimp only
    split
    · exact hmapped ..
    · exact hsame
  | hold point =>
    dsimp only
    split
    · split
      · exact hmapped ..
      · exact hsame
    · exact hsame

theorem handleKeydown_adds (s : Controller) (o : Outside) (e : KeyEvent) :
    AddsFor e.code s.log (s.handleKeydown o e).1.log := by
  have hfallback : AddsFor e.code s.log (s.fallbackDown e).1.log :=
    .inr ⟨.fallbackDown e.code, by simp [Entry.pressesFor], rfl⟩
  unfold handleKeydown
  split_ifs
  · exact .inl rfl
  · exact forwardRemoteInput_adds ..
  · exact hfallback
  · split
    · exact hfallback
    · exact start_adds ..
    · split
      · split
        · exact .inr ⟨_, by simp [Entry.pressesFor], rfl⟩
        · exact .inl rfl
      · exact .inl rfl

/-! ### Releases -/

theorem letGo_spared (code : String) (s : Controller) (o : Outside) (e : Option KeyEvent) (c : String)
    (item : Held) : Spared code s.log (s.letGo o e c item).1.log := by
  unfold Controller.letGo
  split
  · exact .refl ..
  · exact .refl ..
  · dsimp only
    split
    · exact .cons (by simp [Entry.pressesFor]) s.log
    · exact .refl ..

theorem releaseCodes_spared (code : String) (suppressKeyups : Bool) (codes : List String) :
    ∀ s : Controller, Spared code s.log (s.releaseCodes o suppressKeyups codes).1.log := by
  induction codes with
  | nil => exact fun s => .refl ..
  | cons c rest ih =>
    intro s
    unfold releaseCodes
    split
    · exact ih s
    · refine .trans ?_ (ih _)
      split <;> exact letGo_spared ..

theorem switchMode_spared (code : String) (s : Controller) (o : Outside) :
    Spared code s.log (s.switchMode o).log := by
  have hlog : (s.switchMode o).log = (s.releaseMapped o true).1.log := (foldl_suppress _ _).2
  rw [hlog]
  exact releaseCodes_spared code true _ s

theorem releaseRemote_spared (code : String) (codes : List String) : ∀ s : Controller,
    Spared code s.log (s.releaseRemote o codes).1.log := by
  induction codes with
  | nil => exact fun s => .refl ..
  | cons c rest ih =>
    intro s
    refine .trans ?_ (ih (s.emitInput o (.keyUp c 0)))
    unfold emitInput
    split
    · exact .cons (by simp [Entry.pressesFor]) s.log
    · exact .refl ..

theorem releaseAll_spared (code : String) (s : Controller) (o : Outside) :
    Spared code s.log (s.releaseAll o).1.log :=
  (releaseRemote_spared code _ s).trans
    ((releaseCodes_spared code false _ _).trans (.cons (by simp [Entry.pressesFor]) _))

/-! ### Keyups -/

/-- INVERSION: what a keyup does at the sink it is routed to. -/
theorem handleKeyup_cases (hinput : ∀ e, o.sendInputEvent e = true) {e : KeyEvent}
    (htarget : e.ignoredTarget = false) :
    (s.route o e.code = some .remote ∧ (s.handleKeyup o e).1.held = s.held ∧
      (s.handleKeyup o e).1.log = .input (.keyUp e.code e.meta_) :: s.log) ∨
    (s.route o e.code = some .fallback ∧ (s.handleKeyup o e).1 = s.emit (.fallbackUp e.code)) ∨
    (s.route o e.code = some .mapping ∧ ∃ current, s.held.get e.code = some current ∧
      (s.handleKeyup o e).1 = (s.letGo o (some e) e.code current).1) ∨
    (s.route o e.code = none ∧ (s.handleKeyup o e).1.held = s.held ∧
      (s.handleKeyup o e).1.log = s.log) := by
  by_cases hcode : e.code = ""
  · have hevent : eventCode e = none := if_pos hcode
    by_cases hremote : s.remoteEnabled o = true
    · have hroute : s.route o e.code = none := by simp [Controller.route, hcode, hremote]
      refine .inr (.inr (.inr ⟨hroute, ?_⟩))
      simp [handleKeyup, forwardRemoteInput, hevent, htarget, hremote]
    · have hroute : s.route o e.code = some .fallback := by
        simp [Controller.route, hcode, hremote]
      refine .inr (.inl ⟨hroute, ?_⟩)
      simp [handleKeyup, hevent, htarget, hremote, fallbackUp]
  · have hevent : eventCode e = some e.code := if_neg hcode
    simp only [handleKeyup, Controller.route, hevent, htarget, hcode, Option.any_some,
      Bool.false_and, Bool.false_eq_true, if_false]
    split_ifs with hremote hsuppressed hheld
    · refine .inl ⟨rfl, ?_⟩
      simp [forwardRemoteInput, hevent, emitInput, hinput, emit]
    · exact .inr (.inr (.inr ⟨rfl, rfl, rfl⟩))
    · obtain ⟨current, hcurrent⟩ := Option.isSome_iff_exists.mp hheld
      refine .inr (.inr (.inl ⟨rfl, current, hcurrent, ?_⟩))
      simp only [hcurrent]
    · have hnone : s.held.get e.code = none := by simpa using hheld
      refine .inr (.inl ⟨rfl, ?_⟩)
      simp only [hnone]
      rfl

theorem letGo_elsewhere (s : Controller) (o : Outside) (e : Option KeyEvent) (code : String)
    (item : Held) : remotePresses (s.letGo o e code item).1.log = remotePresses s.log ∧
      fallbackPresses (s.letGo o e code item).1.log = fallbackPresses s.log := by
  unfold Controller.letGo
  split
  · exact ⟨rfl, rfl⟩
  · exact ⟨rfl, rfl⟩
  · dsimp only
    split <;> exact ⟨rfl, rfl⟩

/-- STEP: a keyup keeps what is held and what is down together. -/
theorem handleKeyup_kept (hstate : ∀ m, o.sendStateControl m = true)
    (hinput : ∀ e, o.sendInputEvent e = true) {e : KeyEvent} (htarget : e.ignoredTarget = false)
    (h : Kept s.held s.log) : Handles s (s.handleKeyup o e).1 e.code := by
  rcases handleKeyup_cases (s := s) hinput htarget with ⟨_, hheld, hlog⟩ | ⟨_, hend⟩ |
    ⟨_, current, hcurrent, hend⟩ | ⟨_, hheld, hlog⟩
  · refine ⟨?_, fun c _ => by rw [hheld]⟩
    rw [hheld, hlog]
    exact h.emit rfl
  · rw [hend]
    exact .of_emit h rfl _
  · rw [hend]
    refine ⟨letGo_kept hstate h (some e) hcurrent, fun c hc => ?_⟩
    rw [letGo_held, thingOf_del, if_neg hc]
  · refine ⟨?_, fun c _ => by rw [hheld]⟩
    rw [hheld, hlog]
    exact h

/-- STEP: a keyup releases its code at the sink it is routed to and nowhere else. -/
theorem handleKeyup_own (hstate : ∀ m, o.sendStateControl m = true)
    (hinput : ∀ e, o.sendInputEvent e = true) {e : KeyEvent} (htarget : e.ignoredTarget = false)
    (h : Kept s.held s.log) (sink : Sink) : PressedAt (s.handleKeyup o e).1.log e.code sink ↔
      PressedAt s.log e.code sink ∧ s.route o e.code ≠ some sink := by
  have hkept := (handleKeyup_kept hstate hinput htarget h).1
  rcases handleKeyup_cases (s := s) hinput htarget with ⟨hroute, _, hlog⟩ | ⟨hroute, hend⟩ |
    ⟨hroute, current, hcurrent, hend⟩ | ⟨hroute, _, hlog⟩
  · rw [hroute, hlog]
    cases sink with
    | remote => exact iff_of_false (fun hdown => hdown.1 rfl) fun h => h.2 rfl
    | mapping => exact (and_iff_left (by decide)).symm
    | fallback => exact (and_iff_left (by decide)).symm
  · rw [hroute, hend]
    cases sink with
    | remote => exact (and_iff_left (by decide)).symm
    | mapping => exact (and_iff_left (by decide)).symm
    | fallback => exact iff_of_false (fun hdown => hdown.1 rfl) fun h => h.2 rfl
  · obtain ⟨hremote, hfallback⟩ := letGo_elsewhere s o (some e) e.code current
    rw [hroute]
    cases sink with
    | remote => simp [PressedAt, hend, hremote]
    | fallback => simp [PressedAt, hend, hfallback]
    | mapping =>
      rw [pressedAt_mapping hkept, hend, letGo_held, thingOf_del, if_pos rfl]
      simp
  · rw [hroute, hlog]
    simp

/-! ### The sequences of calls -/

/-- What holds after a call for a code that it does not press. -/
theorem Spared.pressedAt {code : String} (h : Spared code s.log s'.log) (hkept : Kept s.held s.log)
    (hkept' : Kept s'.held s'.log)
    (hthing : thingOf s'.held code = thingOf s.held code ∨ thingOf s'.held code = none) (sink : Sink)
    (hpressed : PressedAt s'.log code sink) : PressedAt s.log code sink := by
  cases sink with
  | remote => exact h.remote hpressed
  | fallback => exact h.fallback hpressed
  | mapping =>
    rw [pressedAt_mapping hkept'] at hpressed
    rw [pressedAt_mapping hkept]
    rcases hthing with hsame | hnone
    · rwa [hsame] at hpressed
    · exact absurd hnone hpressed

/-- A call that is about no key presses nothing. -/
theorem handle_relieves (hstate : ∀ m, o.sendStateControl m = true) (h : Kept s.held s.log)
    {call : Call} (hcall : ∀ e, call ≠ .keydown e ∧ call ≠ .keyup e) :
    Kept (s.handle o call).held (s.handle o call).log ∧
    ∀ code sink, PressedAt (s.handle o call).log code sink → PressedAt s.log code sink := by
  have hswitch : Kept (s.switchMode o).held (s.switchMode o).log ∧
      ∀ code sink, PressedAt (s.switchMode o).log code sink → PressedAt s.log code sink := by
    obtain ⟨hkept, hheld⟩ := switchMode_kept hstate h
    exact ⟨hkept, fun code => (switchMode_spared code s o).pressedAt h hkept
      (.inr (by simp [thingOf, hheld]))⟩
  have hrelease : Kept (s.releaseAll o).1.held (s.releaseAll o).1.log ∧
      ∀ code sink, PressedAt (s.releaseAll o).1.log code sink → PressedAt s.log code sink := by
    obtain ⟨hkept, hheld⟩ := releaseAll_kept hstate h
    exact ⟨hkept, fun code => (releaseAll_spared code s o).pressedAt h hkept
      (.inr (by simp [thingOf, hheld]))⟩
  cases call with
  | keydown e => exact absurd rfl (hcall e).1
  | keyup e => exact absurd rfl (hcall e).2
  | releaseAll => exact hrelease
  | setKeymap next => exact hswitch
  | setMode next =>
    unfold Controller.handle setMode
    dsimp only
    split <;> exact hswitch
  | setEnabled value =>
    cases value with
    | true => exact ⟨h, fun _ _ => id⟩
    | false => exact hrelease
  | setRemote value =>
    have hsame : (s.setRemote value).held = s.held ∧ (s.setRemote value).log = s.log := by
      unfold setRemote
      dsimp only
      split <;> split <;> exact ⟨rfl, rfl⟩
    show Kept (s.setRemote value).held (s.setRemote value).log ∧ _
    rw [hsame.1, hsame.2]
    exact ⟨h, fun _ _ hpressed => by rwa [Controller.handle, hsame.2] at hpressed⟩

variable {sess sess' : Session} {call : Call × Outside}

theorem keydown_pressedAt (h : Kept s.held s.log) {e : KeyEvent} {code : String}
    (hcode : code ≠ e.code) (sink : Sink)
    (hpressed : PressedAt (s.handleKeydown o e).1.log code sink) : PressedAt s.log code sink := by
  have hhandles := handleKeydown_handles (o := o) h e
  exact ((handleKeydown_adds s o e).spared hcode).pressedAt h hhandles.1
    (.inl (hhandles.2 code hcode)) sink hpressed

theorem handleKeyup_spared (hinput : ∀ e, o.sendInputEvent e = true) {e : KeyEvent}
    (htarget : e.ignoredTarget = false) (code : String) :
    Spared code s.log (s.handleKeyup o e).1.log := by
  rcases handleKeyup_cases (s := s) hinput htarget with ⟨_, _, hlog⟩ | ⟨_, hend⟩ |
    ⟨_, current, _, hend⟩ | ⟨_, _, hlog⟩
  · rw [hlog]
    exact .cons (by simp [Entry.pressesFor]) s.log
  · rw [hend]
    exact .cons (by simp [Entry.pressesFor]) s.log
  · rw [hend]
    exact letGo_spared ..
  · rw [hlog]
    exact .refl ..

/-- STEP: a call leaves a code stuck at a sink exactly if it is its keyup, and routed elsewhere. -/
theorem noneStuck_step (h : Kept sess.ctl.held sess.ctl.log) (hnone : NoneStuck sess)
    (hdelivered : Delivered sess call) (hstep : step sess call = some sess') :
    (NoneStuck sess' ↔ RoutedBack sess call) ∧ Kept sess'.ctl.held sess'.ctl.log := by
  obtain ⟨_, hstate, hinput, htarget⟩ := hdelivered
  obtain ⟨call, o⟩ := call
  cases hstep
  have hother : ∀ call : Call, (∀ e, call ≠ .keydown e ∧ call ≠ .keyup e) →
      (∀ code, IsUp code (call :: sess.history) → IsUp code sess.history) →
      NoneStuck ⟨sess.ctl.handle o call, call :: sess.history⟩ ∧
        Kept (sess.ctl.handle o call).held (sess.ctl.handle o call).log := by
    intro call hcall hup
    obtain ⟨hkept, hrelieves⟩ := handle_relieves hstate h hcall
    exact ⟨fun code hcode sink hpressed =>
      hnone code (hup code hcode) sink (hrelieves code sink hpressed), hkept⟩
  cases call with
  | keydown e =>
    refine ⟨iff_of_true (fun code hup sink hpressed => ?_) trivial, (handleKeydown_handles h e).1⟩
    exact hnone code hup.2 sink (keydown_pressedAt h (Ne.symm hup.1) sink hpressed)
  | keyup e =>
    have htarget : e.ignoredTarget = false := htarget e (.inr rfl)
    have hhandles := handleKeyup_kept hstate hinput htarget h
    have hown := handleKeyup_own hstate hinput htarget h
    refine ⟨⟨fun hafter sink hpressed => ?_, fun hrouted code hup sink hpressed => ?_⟩, hhandles.1⟩
    · by_contra hroute
      exact hafter e.code (.inl rfl) sink ((hown sink).mpr ⟨hpressed, hroute⟩)
    · by_cases hcode : code = e.code
      · subst hcode
        obtain ⟨hbefore, hroute⟩ := (hown sink).mp hpressed
        exact hroute (hrouted sink hbefore)
      · refine hnone code (hup.resolve_left (Ne.symm hcode)) sink ?_
        exact (handleKeyup_spared hinput htarget code).pressedAt h hhandles.1
          (.inl (hhandles.2 code hcode)) sink hpressed
  | releaseAll =>
    obtain ⟨hstuck, hkept⟩ := hother .releaseAll (fun _ => ⟨nofun, nofun⟩) fun _ => id
    exact ⟨iff_of_true hstuck trivial, hkept⟩
  | setKeymap next =>
    obtain ⟨hstuck, hkept⟩ := hother (.setKeymap next) (fun _ => ⟨nofun, nofun⟩) fun _ => id
    exact ⟨iff_of_true hstuck trivial, hkept⟩
  | setMode next =>
    obtain ⟨hstuck, hkept⟩ := hother (.setMode next) (fun _ => ⟨nofun, nofun⟩) fun _ => id
    exact ⟨iff_of_true hstuck trivial, hkept⟩
  | setEnabled value =>
    obtain ⟨hstuck, hkept⟩ :=
      hother (.setEnabled value) (fun _ => ⟨nofun, nofun⟩) fun _ => id
    exact ⟨iff_of_true hstuck trivial, hkept⟩
  | setRemote value =>
    obtain ⟨hstuck, hkept⟩ := hother (.setRemote value) (fun _ => ⟨nofun, nofun⟩) fun _ => id
    exact ⟨iff_of_true hstuck trivial, hkept⟩

theorem delivered_outside (s : Session) (call : Call)
    (hcall : ∀ e, call = .keydown e ∨ call = .keyup e → e.ignoredTarget = false) :
    Delivered s (call, outside) :=
  ⟨fun _ => rfl, fun _ => rfl, fun _ => rfl, hcall⟩

/-- The server's keymap is switched off while a key is down: the release goes to the keyboard. -/
def switchedOff : List (Call × Outside) := [
  (.setRemote (some true), outside), (.keydown (event "KeyA" false), outside),
  (.setRemote (some false), outside), (.keyup (event "KeyA" false), outside)]

end Gamer.Keymap
