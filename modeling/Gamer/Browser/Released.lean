import Gamer.Browser.Session

/-! Nothing is left pressed. What the page may hold down stands in the session's sets or in the
    hand of the task at the gate, which has taken it out of them to release it:

        sets ── up, tap, drain ──▶ hand ── delivered ──▶ up
                                     │
                                     └── refused, failed, dropped ──▶ forgotten

    The forgotten ones are the whole defect: a run in which no hand with something pressed in it is
    let go, and in which no numpad Enter is drained, leaves nothing pressed. -/

namespace Gamer.Browser
open Gamer.Lib

/-- What a task has taken out of the sets to release it. -/
def Task.hand : Task → List Thing
  | .inputting _ _ (.checked _ call) | .inputting _ _ (.sent call) => call.lifts.toList
  | .inputting _ _ (.second (.mouse button)) => [.mouse button]
  | .releasing _ (.keysUp code rest) => (code :: rest).map .key
  | .releasing _ (.buttonsUp button rest) => (button :: rest).map .mouse
  | _ => []

/-- What a task is about to press. -/
def Task.presses : Task → Option Thing
  | .inputting _ _ (.checked _ call) | .inputting _ _ (.sent call) => call.presses
  | _ => none

def Task.isReleasing : Task → Bool
  | .releasing .. => true
  | _ => false

namespace Session

def hand (s : Session) : List Thing := s.current.elim [] Task.hand

/-- The sets know the thing as held. -/
def Held (s : Session) : Thing → Prop
  | .key code => (s.keys.get code).isSome = true
  | .mouse button => button ∈ s.buttons

/-- What a move lets go of without releasing it. -/
def lets (s : Session) : Move → List Thing
  | .drop => s.hand
  | .dispatch =>
    match s.current with
    | some (.inputting _ _ (.checked stamp call)) =>
      if s.validate stamp = .ok () then [] else call.lifts.toList
    | _ => []
  | .answer (.refused _) | .answer (.failed _) =>
    match s.current with
    | some (.inputting purpose value phase) => (Task.inputting purpose value phase).hand
    | _ => []
  | .drain _ => [.key "NumpadEnter"]
  | _ => []

/-- Nothing that is pressed is let go. -/
def Steady (s : Session) (m : Move) : Prop :=
  s.isAlive = true → ∀ t ∈ s.lets m, ¬ Press.IsDown t s.log

instance (s : Session) (m : Move) : Decidable (s.Steady m) :=
  inferInstanceAs (Decidable (s.isAlive = true → ∀ t ∈ s.lets m, ¬ Press.IsDown t s.log))

/-- At rest with nothing held, everything the page was told to press has been released. -/
def Released (s : Session) : Prop :=
  s.current = none → s.keys.isEmpty = true → s.buttons = [] →
    Press.Settled s.log ∨ s.isAlive = false

/-- `release_locked` has emptied everything. -/
def Emptied (s : Session) : Prop :=
  s.keys.isEmpty = true ∧ s.buttons = [] ∧ s.contact = none

/-! ### What the sets and the hand know -/

/-- INVARIANT of a session whose task has `hand` in its hand. -/
structure Sound (s : Session) (hand : List Thing) : Prop where
  named : s.isAlive = true → ∀ code name, s.keys.get code = some name → code ≠ "NumpadEnter" →
    releaseCode name = some code
  covered : s.isAlive = true → ∀ t, Press.IsDown t s.log → s.Held t ∨ t ∈ hand

variable {s s' : Session} {hand : List Thing}

/-- Nothing is asked of a retired session. -/
theorem Sound.retired (h : s.isAlive = false) : s.Sound hand := by
  constructor <;> intro halive <;> simp [h] at halive

theorem Sound.weaken (h : s.Sound hand) {hand' : List Thing}
    (hsub : s.isAlive = true → ∀ t ∈ hand, Press.IsDown t s.log → t ∈ hand') : s.Sound hand' := by
  refine ⟨h.named, fun halive t ht => ?_⟩
  rcases h.covered halive t ht with hheld | hin
  · exact Or.inl hheld
  · exact Or.inr (hsub halive t hin ht)

theorem Sound.log_down (h : s.Sound hand) {t : Thing} (ht : s.Held t) :
    Sound { s with log := .down t :: s.log } hand := by
  refine ⟨h.named, fun halive u hu => ?_⟩
  rcases hu with rfl | hu
  · exact Or.inl ht
  · exact h.covered halive u hu

theorem Sound.log_up (h : s.Sound hand) (t : Thing) :
    Sound { s with log := .up t :: s.log } (hand.filter (· ≠ t)) := by
  refine ⟨h.named, fun halive u hu => ?_⟩
  obtain ⟨hne, hu⟩ := hu
  rcases h.covered halive u hu with hheld | hin
  · exact Or.inl hheld
  · exact Or.inr (by simpa [hin] using Ne.symm hne)

theorem Sound.take_key (h : s.Sound hand) (code : String) :
    Sound { s with keys := s.keys.del code } (.key code :: hand) := by
  refine ⟨fun halive c name hname => h.named halive c name ?_, fun halive t ht => ?_⟩
  · rw [Table.get_del] at hname
    split at hname
    · cases hname
    · exact hname
  · rcases h.covered halive t ht with hheld | hin
    · cases t with
      | mouse button => exact Or.inl hheld
      | key c =>
        by_cases hc : c = code
        · exact Or.inr (by simp [hc])
        · refine Or.inl ?_
          simpa [Held, Table.get_del, hc] using hheld
    · exact Or.inr (List.mem_cons_of_mem _ hin)

theorem Sound.take_button (h : s.Sound hand) (button : Button) :
    Sound { s with buttons := s.buttons.filter (· ≠ button) } (.mouse button :: hand) := by
  refine ⟨h.named, fun halive t ht => ?_⟩
  rcases h.covered halive t ht with hheld | hin
  · cases t with
    | key c => exact Or.inl hheld
    | mouse b =>
      by_cases hb : b = button
      · exact Or.inr (by simp [hb])
      · exact Or.inl (by simpa [Held, hb] using hheld)
  · exact Or.inr (List.mem_cons_of_mem _ hin)

theorem Sound.put_key (h : s.Sound hand) {info : KeyInfo}
    (hcode : info.code ≠ "NumpadEnter" → releaseCode info.key = some info.code) :
    Sound { s with keys := s.keys.set info.code info.key } hand := by
  refine ⟨fun halive c name hname hc => ?_, fun halive t ht => ?_⟩
  · rw [Table.get_set] at hname
    split at hname
    · rename_i heq
      subst heq
      cases hname
      exact hcode hc
    · exact h.named halive c name hname hc
  · rcases h.covered halive t ht with hheld | hin
    · cases t with
      | mouse button => exact Or.inl hheld
      | key c =>
        refine Or.inl ?_
        simp only [Held, Table.get_set] at hheld ⊢
        split
        · rfl
        · exact hheld
    · exact Or.inr hin

theorem Sound.put_button (h : s.Sound hand) (button : Button) :
    Sound { s with buttons := s.buttons.insert button } hand := by
  refine ⟨h.named, fun halive t ht => ?_⟩
  rcases h.covered halive t ht with hheld | hin
  · cases t with
    | key c => exact Or.inl hheld
    | mouse b => exact Or.inl (List.mem_insert_of_mem hheld)
  · exact Or.inr hin

/-- STEP: the drained keys come into the hand under the codes they are released by. -/
theorem Sound.drain_keys (h : s.Sound []) {names : List String} (hperm : names.Perm s.keys.values)
    (hnumpad : s.isAlive = true → ¬ Press.IsDown (.key "NumpadEnter") s.log) :
    Sound { s with keys := ∅ } ((names.filterMap releaseCode).map .key) := by
  refine ⟨fun _ code name hname => by simp at hname, fun halive t ht => ?_⟩
  have hheld : s.Held t := (h.covered halive t ht).resolve_right (List.not_mem_nil)
  cases t with
  | mouse button => exact Or.inl hheld
  | key code =>
    obtain ⟨name, hname⟩ := Option.isSome_iff_exists.mp hheld
    have hcode : code ≠ "NumpadEnter" := by
      rintro rfl
      exact hnumpad halive ht
    have hmem : name ∈ names := hperm.mem_iff.mpr (Table.mem_values_of_get hname)
    refine Or.inr (List.mem_map.mpr ⟨code, ?_, rfl⟩)
    exact List.mem_filterMap.mpr ⟨name, hmem, h.named halive code name hname hcode⟩

/-- STEP: so do the buttons. -/
theorem Sound.drain_buttons (h : s.Sound []) : Sound { s with buttons := [] }
    (([Button.left, .right, .middle].filter fun b => s.buttons.contains b).map .mouse) := by
  refine ⟨h.named, fun halive t ht => ?_⟩
  have hheld : s.Held t := (h.covered halive t ht).resolve_right (List.not_mem_nil)
  cases t with
  | key code => exact Or.inl hheld
  | mouse button =>
    have hb : button ∈ s.buttons := hheld
    refine Or.inr (List.mem_map.mpr ⟨button, List.mem_filter.mpr ⟨?_, by simpa using hb⟩, rfl⟩)
    cases button <;> simp

/-! ### The invariant -/

/-- INVARIANT of every run in which nothing pressed is let go. -/
structure Inv (s : Session) : Prop where
  sound : s.Sound s.hand
  pressing : ∀ t, s.current.bind Task.presses = some t → s.Held t

theorem Inv.goto {task : Task} (h : s.Sound task.hand)
    (hpress : ∀ t, task.presses = some t → s.Held t) : (s.goto task).Inv := by
  refine ⟨⟨h.named, h.covered⟩, fun t ht => ?_⟩
  cases t <;> exact hpress _ ht

theorem Inv.finish (h : s.Sound []) (result : Except String Unit) : (s.finish result).Inv :=
  ⟨⟨h.named, h.covered⟩, fun t ht => by cases ht⟩

theorem Inv.released (h : s.Sound []) (afterwards : Afterwards) : (s.released afterwards).Inv := by
  cases afterwards with
  | refuse message => exact Inv.finish h _
  | «return» => exact Inv.finish h _
  | reload => exact Inv.goto ⟨h.named, h.covered⟩ (fun t ht => by cases ht)

theorem Inv.releaseButtons {buttons : List Button} (h : s.Sound (buttons.map .mouse))
    (afterwards : Afterwards) : (s.releaseButtons afterwards buttons).Inv := by
  cases buttons with
  | nil => exact Inv.released h afterwards
  | cons button rest => exact Inv.goto h (fun t ht => by cases ht)

theorem Inv.releaseKeys {codes : List String} (h : s.Sound (codes.map .key))
    (afterwards : Afterwards) : (s.releaseKeys afterwards codes).Inv := by
  cases codes with
  | nil => exact Inv.releaseButtons h.drain_buttons afterwards
  | cons code rest => exact Inv.goto h (fun t ht => by cases ht)

theorem Inv.fail (h : s.Sound []) (purpose : Purpose) (message : String) :
    (s.fail purpose message).Inv := by
  cases purpose with
  | input => exact Inv.goto h (fun t ht => by cases ht)
  | contact id action stamp => exact Inv.goto ⟨h.named, h.covered⟩ (fun t ht => by cases ht)

theorem Inv.succeed (h : s.Sound []) (purpose : Purpose) : (s.succeed purpose).Inv := by
  cases purpose with
  | input => exact Inv.finish h _
  | contact id action stamp =>
    have h' : Sound { s with contact := if action = "up" then none else some (id, stamp) } [] :=
      ⟨h.named, h.covered⟩
    exact Inv.finish h' _

/-! ### Inputs -/

theorem Inv.pointAt (h : s.Sound []) (purpose : Purpose) (value : Value) (stamp : FrameStamp) :
    (s.pointAt purpose value stamp).Inv := by
  simp only [Session.pointAt]
  split
  · split
    · split
      · rename_i b event _ _
        refine Inv.goto ?_ fun t ht => ?_
        · cases event with
          | mousePressed => exact h.put_button b
          | mouseReleased => exact h.take_button b
          | mouseWheel => exact h
          | mouseMoved => exact h
        · cases event <;> cases ht
          simp [Held, buttonsFor]
      · exact Inv.fail h _ _
      · exact Inv.fail h _ _
    · exact Inv.fail h _ _
  · exact Inv.fail h _ _

theorem Inv.pressKey (h : s.Sound []) (purpose : Purpose) (value : Value) (stamp : FrameStamp)
    (name action : Option String) : (s.pressKey purpose value stamp name action).Inv := by
  simp only [Session.pressKey]
  split
  · exact Inv.fail h _ _
  · split
    · rename_i info act hinfo _
      have hput := h.put_key (releaseCode_keyInfo hinfo)
      refine Inv.goto ?_ fun t ht => ?_
      · cases act with
        | press => exact hput
        | down => exact hput
        | up => exact h.take_key info.code
      · cases act <;> cases ht <;> simp [Held, keysFor]
    · exact Inv.fail h _ _
    · exact Inv.fail h _ _

theorem Inv.enter (h : s.Sound []) (purpose : Purpose) (value : Value)
    (expected : Option FrameStamp) : (s.enter purpose value expected).Inv := by
  simp only [Session.enter]
  split
  · exact Inv.fail h _ _
  · split
    · exact Inv.fail h _ _
    · have h' : Sound { s with inputRevision := (expected.getD s.stamp).revision } [] :=
        ⟨h.named, h.covered⟩
      split
      · exact Inv.goto h' (fun t ht => by cases ht)
      · exact Inv.fail h' _ _
      · exact Inv.fail h' _ _
      · exact Inv.pressKey h' _ _ _ _ _
      · exact Inv.fail h' _ _
      · split
        · exact Inv.goto h' (fun t ht => by cases ht)
        · exact Inv.fail h' _ _
      · exact Inv.fail h' _ _

theorem Call.lifts_of_presses {call : Call} {t : Thing} (h : call.presses = some t) :
    call.lifts = none := by
  cases call with
  | mouse event button tap => cases event <;> first | rfl | cases h
  | key code action => cases action <;> first | rfl | cases h
  | text => cases h

/-- STEP: an answered call is no longer in the hand. -/
theorem Sound.logCall {call : Call} (h : s.Sound call.lifts.toList)
    (hpress : ∀ t, call.presses = some t → s.Held t) {sure : Bool}
    (hsteady : sure = false → s.isAlive = true → ∀ t ∈ call.lifts, ¬ Press.IsDown t s.log) :
    (s.logCall call sure).Sound [] := by
  cases hp : call.presses with
  | some t =>
    simp only [Session.logCall, hp]
    rw [Call.lifts_of_presses hp] at h
    exact h.log_down (hpress t hp)
  | none =>
    cases hl : call.lifts with
    | none =>
      simp only [Session.logCall, hp, hl]
      rwa [hl] at h
    | some t =>
      rw [hl] at h
      cases sure with
      | true =>
        simp only [Session.logCall, hp, hl, if_true]
        simpa using h.log_up t
      | false =>
        simp only [Session.logCall, hp, hl, Bool.false_eq_true, if_false]
        refine h.weaken fun halive u hu hdown => ?_
        obtain rfl : u = t := by simpa using hu
        exact absurd hdown (hsteady rfl halive u (by simp [hl]))

/-- What a delivered call lifts is not down. -/
theorem not_isDown_logCall {call : Call} {t : Thing} (hl : call.lifts = some t) :
    ¬ Press.IsDown t (s.logCall call true).log := by
  have hp : call.presses = none := by
    cases hp : call.presses with
    | none => rfl
    | some u => rw [Call.lifts_of_presses hp] at hl; cases hl
  simp [Session.logCall, hp, hl]

theorem Sound.keyDone (h : s.Sound []) {code : String} {action : KeyAction}
    (hup : action ≠ .down → ¬ Press.IsDown (.key code) s.log) :
    (s.keyDone code action).Sound [] := by
  have htaken : action ≠ .down → Sound { s with keys := s.keys.del code } [] := by
    intro hne
    refine (h.take_key code).weaken fun _ t ht hdown => ?_
    obtain rfl : t = .key code := by simpa using ht
    exact absurd hdown (hup hne)
  cases action with
  | down => exact h
  | press => exact htaken (by simp)
  | up => exact htaken (by simp)

theorem Inv.delivered (h : s.Sound []) (purpose : Purpose) (value : Value) {call : Call}
    (hup : ∀ t, call.lifts = some t → ¬ Press.IsDown t s.log) :
    (s.delivered purpose value call).Inv := by
  simp only [Session.delivered]
  split
  · exact Inv.goto (h.take_button _) (fun t ht => by cases ht)
  · exact Inv.goto h (fun t ht => by cases ht)
  · rename_i code action hne
    refine Inv.succeed (h.keyDone fun hdown => ?_) _
    cases action with
    | press => exact absurd rfl hne
    | down => exact absurd rfl hdown
    | up => exact hup _ rfl
  · exact Inv.succeed h _
  · exact Inv.succeed h _

theorem Inv.secondDelivered {thing : Thing} (h : s.Sound [thing]) (purpose : Purpose) :
    (s.secondDelivered purpose thing).Inv := by
  have hlog : Sound { s with log := .up thing :: s.log } [] := by simpa using h.log_up thing
  cases thing with
  | mouse button => exact Inv.succeed hlog _
  | key code => exact Inv.succeed (hlog.keyDone fun _ hdown => hdown.1 rfl) _

/-! ### Steps -/

/-- An input's phase whose call is refused or fails has nothing pressed in its hand. -/
theorem Inv.answerInput (h : s.Inv) {purpose : Purpose} {value : Value} {phase : InputPhase}
    (hcur : s.current = some (.inputting purpose value phase)) {reply : Reply}
    (hsteady : s.Steady (.answer reply))
    (hs : s.answerInput purpose value phase reply = some s') : s'.Inv := by
  have hsound : s.Sound (Task.inputting purpose value phase).hand := by
    simpa [Session.hand, hcur] using h.sound
  have hpress : ∀ t, (Task.inputting purpose value phase).presses = some t → s.Held t := by
    simpa [hcur] using h.pressing
  have hfailed : ∀ e, (reply = .refused e ∨ reply = .failed e) → s.Sound [] := by
    rintro e hreply
    refine hsound.weaken fun halive t ht hdown => absurd hdown (hsteady halive t ?_)
    rcases hreply with rfl | rfl <;> simpa [lets, hcur] using ht
  simp only [Session.answerInput] at hs
  split at hs
  · cases hs; exact Inv.fail hsound _ _
  · cases hs; exact Inv.fail hsound _ _
  · cases hs; exact Inv.enter hsound _ _ _
  · cases hs; exact Inv.pointAt hsound _ _ _
  · cases hs
    have hmoved : Sound { s with revision := s.revision + 1 } [] := ⟨hsound.named, hsound.covered⟩
    exact Inv.fail hmoved _ _
  · cases hs; exact Inv.fail hsound _ _
  · rename_i call _
    cases hs
    have hlogged : (s.logCall call true).Sound [] :=
      Sound.logCall hsound hpress (fun hsure => by cases hsure)
    exact Inv.delivered hlogged _ _ fun t ht => not_isDown_logCall ht
  · rename_i call e
    cases hs
    have hlogged : (s.logCall call false).Sound [] := by
      refine Sound.logCall hsound hpress fun _ halive t ht => hsteady halive t ?_
      simpa [lets, hcur, Task.hand] using ht
    exact Inv.fail hlogged _ _
  · rename_i thing _
    cases hs
    cases thing with
    | mouse button => exact Inv.secondDelivered hsound _
    | key code => exact Inv.secondDelivered (hsound.weaken fun _ t ht _ => by cases ht) _
  · cases hs
  · cases hs; exact Inv.fail (hfailed _ (Or.inl rfl)) _ _
  · cases hs; exact Inv.fail (hfailed _ (Or.inr rfl)) _ _

theorem Sound.lifted {t : Thing} (h : s.Sound (t :: hand)) (reply : Reply) :
    (s.lifted t reply).Sound hand := by
  cases reply with
  | ok content =>
    refine (h.log_up t).weaken fun _ u hu _ => ?_
    obtain ⟨hmem, hne⟩ := List.mem_filter.mp hu
    exact (List.mem_cons.mp hmem).resolve_left (by simpa using hne)
  | refused message => exact Sound.retired (by simp [Session.lifted, invalidate, isAlive])
  | failed message => exact Sound.retired (by simp [Session.lifted, invalidate, isAlive])

theorem Inv.answerRelease (h : s.Inv) {afterwards : Afterwards} {phase : ReleasePhase}
    (hcur : s.current = some (.releasing afterwards phase)) {reply : Reply}
    (hs : s.answerRelease afterwards phase reply = some s') : s'.Inv := by
  have hsound : s.Sound (Task.releasing afterwards phase).hand := by
    simpa [Session.hand, hcur] using h.sound
  cases phase with
  | exitLock =>
    cases hs
    exact Inv.goto ⟨hsound.named, hsound.covered⟩ (fun t ht => by cases ht)
  | drain => cases hs
  | keysUp code rest => cases hs; exact Inv.releaseKeys (hsound.lifted reply) _
  | buttonsUp button rest => cases hs; exact Inv.releaseButtons (hsound.lifted reply) _

theorem Inv.startInput (h : s.Sound []) (value : Value) (expected : Option FrameStamp) :
    (s.startInput value expected).Inv := by
  simp only [Session.startInput]
  split
  · exact Inv.finish h _
  · split
    · exact Inv.fail h _ _
    · exact Inv.goto h (fun t ht => by cases ht)

theorem Inv.startContact (h : s.Sound []) (id : Nat) (action : String) (x y : Nat)
    (manual : Option FrameStamp) : (s.startContact id action x y manual).Inv := by
  simp only [Session.startContact]
  split
  · exact Inv.finish h _
  · split
    · exact Inv.fail h _ _
    · exact Inv.goto h (fun t ht => by cases ht)

theorem Inv.start (h : s.Sound []) (allowed : Bool) (request : Request) :
    (s.start allowed request).Inv := by
  have hrelease : ∀ afterwards, (s.beginRelease afterwards).Inv := fun afterwards =>
    Inv.goto h (fun t ht => by cases ht)
  cases request with
  | input value expected => exact Inv.startInput h value expected
  | manualInput value expected =>
    simp only [Session.start]
    split
    · exact Inv.startInput h value _
    · exact Inv.finish h _
  | mappedContact id action x y manual =>
    simp only [Session.start]
    split
    · exact Inv.finish h _
    · exact Inv.startContact h id action x y manual
  | releaseManual =>
    simp only [Session.start]
    split
    · exact hrelease _
    · exact Inv.finish h _
  | releaseInputs => exact hrelease _
  | reload expected =>
    simp only [Session.start]
    split
    · exact Inv.finish h _
    · split
      · exact Inv.finish h _
      · exact hrelease _
  | rebind =>
    simp only [Session.start]
    split
    · exact Inv.goto h (fun t ht => by cases ht)
    · exact Inv.finish h _

theorem Inv.answer (h : s.Inv) {task : Task} (hcur : s.current = some task) {reply : Reply}
    (hsteady : s.Steady (.answer reply)) (hs : s.answer reply task = some s') : s'.Inv := by
  cases task with
  | inputting purpose value phase => exact Inv.answerInput h hcur hsteady hs
  | releasing afterwards phase => exact Inv.answerRelease h hcur hs
  | reloading =>
    have hsound : s.Sound [] := by simpa [hand, hcur, Task.hand] using h.sound
    cases reply <;> cases hs <;> exact Inv.finish hsound _
  | rebinding =>
    have hsound : s.Sound [] := by simpa [hand, hcur, Task.hand] using h.sound
    have hretired : s.invalidate.Sound [] := Sound.retired (by simp [invalidate, isAlive])
    cases reply <;> cases hs
    · exact Inv.finish hretired _
    · exact Inv.finish hsound _
    · exact Inv.finish hsound _

theorem Inv.dispatch (h : s.Inv) {task : Task} (hcur : s.current = some task)
    (hsteady : s.Steady .dispatch) (hs : s.dispatch task = some s') : s'.Inv := by
  simp only [Session.dispatch] at hs
  split at hs
  · rename_i purpose value stamp call
    have hsound : s.Sound call.lifts.toList := by
      simpa [hand, hcur, Task.hand] using h.sound
    split at hs
    · cases hs
      exact Inv.goto hsound (by simpa [hcur, Task.presses] using h.pressing)
    · rename_i e hv
      cases hs
      refine Inv.fail (hsound.weaken fun halive t ht hdown => ?_) _ _
      exact absurd hdown (hsteady halive t (by simpa [lets, hcur, hv] using ht))
  · cases hs

theorem Inv.drain (h : s.Inv) {task : Task} (hcur : s.current = some task) {names : List String}
    (hsteady : s.Steady (.drain names)) (hs : s.drain names task = some s') : s'.Inv := by
  simp only [Session.drain] at hs
  split at hs
  · split at hs
    · rename_i hperm
      cases hs
      have hsound : s.Sound [] := by simpa [hand, hcur, Task.hand] using h.sound
      refine Inv.releaseKeys (hsound.drain_keys (List.isPerm_iff.mp hperm) fun halive => ?_) _
      exact hsteady halive _ (by simp [lets])
    · cases hs
  · cases hs

theorem Inv.dropTask (h : s.Inv) {task : Task} (hcur : s.current = some task)
    (hsteady : s.Steady .drop) : (s.dropTask task).Inv := by
  have hsound : s.Sound task.hand := by simpa [hand, hcur] using h.sound
  have hlet : s.isAlive = true → ∀ t ∈ task.hand, ¬ Press.IsDown t s.log := by
    simpa [Steady, lets, hand, hcur] using hsteady
  have hrest : ∀ s₁ : Session, s₁.Sound [] → Inv { s₁ with current := none } := fun s₁ h₁ =>
    ⟨⟨h₁.named, h₁.covered⟩, fun t ht => by cases ht⟩
  have hempty : s.Sound [] := hsound.weaken fun halive t ht hdown => absurd hdown (hlet halive t ht)
  simp only [Session.dropTask]
  split
  · rename_i purpose value call
    refine hrest _ (Sound.logCall hsound (by simpa [hcur, Task.presses] using h.pressing) ?_)
    exact fun _ halive t ht => hlet halive t (by simpa [Task.hand] using ht)
  · exact hrest s hempty

/-- STEP: a move that lets go of nothing pressed keeps the invariant. -/
theorem Inv.step (h : s.Inv) {m : Move} (hsteady : s.Steady m) (hs : s.step m = some s') :
    s'.Inv := by
  have hretired : ∀ s₁ : Session, s₁.isAlive = false → s₁.current = s.current →
      (∀ t, s.Held t → s₁.Held t) → s₁.Inv := fun s₁ hdead hcur hheld =>
    ⟨Sound.retired hdead, fun t ht => hheld t (h.pressing t (hcur ▸ ht))⟩
  cases m with
  | start request allowed =>
    simp only [Session.step, Option.ite_none_right_eq_some, Option.some.injEq] at hs
    obtain ⟨hcur, rfl⟩ := hs
    exact Inv.start (by simpa [hand, hcur] using h.sound) allowed request
  | dispatch =>
    obtain ⟨task, hcur, hs⟩ := Option.bind_eq_some_iff.mp hs
    exact h.dispatch hcur hsteady hs
  | answer reply =>
    obtain ⟨task, hcur, hs⟩ := Option.bind_eq_some_iff.mp hs
    exact h.answer hcur hsteady hs
  | drain names =>
    obtain ⟨task, hcur, hs⟩ := Option.bind_eq_some_iff.mp hs
    exact h.drain hcur hsteady hs
  | drop =>
    obtain ⟨task, hcur, rfl⟩ := Option.map_eq_some_iff.mp hs
    exact h.dropTask hcur hsteady
  | close =>
    cases hs
    exact hretired _ (by simp [invalidate, isAlive]) rfl (fun t ht => by cases t <;> exact ht)
  | disconnect =>
    cases hs
    exact hretired _ (by simp [isAlive]) rfl (fun t ht => by cases t <;> exact ht)
  | navigate =>
    cases hs
    exact ⟨⟨h.sound.named, h.sound.covered⟩, fun t ht => by
      have hheld := h.pressing t ht
      cases t <;> exact hheld⟩

theorem Inv.released_of_idle (h : s.Inv) : s.Released := by
  intro hidle hkeys hbuttons
  by_cases halive : s.isAlive = true
  · refine Or.inl (Press.settled_iff.mpr fun t ht => ?_)
    have hsound : s.Sound [] := by simpa [hand, hidle] using h.sound
    have hheld : s.Held t := (hsound.covered halive t ht).resolve_right List.not_mem_nil
    cases t with
    | key code => simp [Held, Table.get_eq_none_of_isEmpty hkeys code] at hheld
    | mouse button => simp [Held, hbuttons] at hheld
  · exact Or.inr (by simpa using halive)

/-! ### What `release_locked` leaves -/

/-- INVARIANT: what a releasing task has emptied stays empty. -/
def Drained (s : Session) : Prop :=
  match s.current with
  | some (.releasing _ .drain) => s.contact = none
  | some (.releasing _ (.keysUp ..)) => s.contact = none ∧ s.keys = ∅
  | some (.releasing _ (.buttonsUp ..)) => s.contact = none ∧ s.keys = ∅ ∧ s.buttons = []
  | _ => True

/-- A releasing task goes on or has emptied everything. -/
def Draining (s : Session) : Prop :=
  s.Drained ∧ (s.current.any Task.isReleasing = false → s.Emptied)

theorem Drained.releaseButtons (hcontact : s.contact = none) (hkeys : s.keys = ∅)
    (hbuttons : s.buttons = []) (afterwards : Afterwards) (rest : List Button) :
    (s.releaseButtons afterwards rest).Draining := by
  cases rest with
  | nil =>
    have hempty : Emptied s := ⟨by rw [hkeys]; rfl, hbuttons, hcontact⟩
    cases afterwards <;> exact ⟨trivial, fun _ => hempty⟩
  | cons button rest => exact ⟨⟨hcontact, hkeys, hbuttons⟩, fun hgone => by cases hgone⟩

theorem Drained.releaseKeys (hcontact : s.contact = none) (hkeys : s.keys = ∅)
    (afterwards : Afterwards) (rest : List String) :
    (s.releaseKeys afterwards rest).Draining := by
  cases rest with
  | nil => exact Drained.releaseButtons (s := { s with buttons := [] }) hcontact hkeys rfl _ _
  | cons code rest => exact ⟨⟨hcontact, hkeys⟩, fun hgone => by cases hgone⟩

/-- FRAME: a releasing call's answer leaves the sets alone. -/
theorem lifted_frame (s : Session) (t : Thing) (reply : Reply) :
    (s.lifted t reply).contact = s.contact ∧ (s.lifted t reply).keys = s.keys ∧
      (s.lifted t reply).buttons = s.buttons := by
  cases reply <;> exact ⟨rfl, rfl, rfl⟩

theorem Drained.answerRelease (h : s.Drained) {afterwards : Afterwards} {phase : ReleasePhase}
    (hcur : s.current = some (.releasing afterwards phase)) {reply : Reply}
    (hs : s.answerRelease afterwards phase reply = some s') : s'.Draining := by
  simp only [Drained, hcur] at h
  cases phase with
  | exitLock => cases hs; exact ⟨rfl, fun hgone => by cases hgone⟩
  | drain => cases hs
  | keysUp code rest =>
    cases hs
    obtain ⟨hcontact, hkeys, _⟩ := lifted_frame s (.key code) reply
    exact Drained.releaseKeys (hcontact.trans h.1) (hkeys.trans h.2) _ _
  | buttonsUp button rest =>
    cases hs
    obtain ⟨hcontact, hkeys, hbuttons⟩ := lifted_frame s (.mouse button) reply
    exact Drained.releaseButtons (hcontact.trans h.1) (hkeys.trans h.2.1) (hbuttons.trans h.2.2) _ _

theorem Drained.drain (h : s.Drained) {task : Task} (hcur : s.current = some task)
    {names : List String} (hs : s.drain names task = some s') : s'.Draining := by
  simp only [Session.drain] at hs
  split at hs
  · split at hs
    · cases hs
      exact Drained.releaseKeys (by simpa [Drained, hcur] using h) rfl _ _
    · cases hs
  · cases hs

/-- An input hands over to the release at its beginning only. -/
def Outset (s : Session) : Prop :=
  match s.current with
  | some (.releasing _ phase) => phase = .exitLock
  | _ => True

theorem Outset.drained (h : s.Outset) : s.Drained := by
  unfold Outset at h
  unfold Drained
  split at h
  · rename_i hcur
    subst h
    simp [hcur]
  · rename_i hne
    split <;> first | trivial | exact absurd ‹_› (hne _ _)

theorem outset_fail (s : Session) (purpose : Purpose) (message : String) :
    (s.fail purpose message).Outset := by
  cases purpose <;> rfl

theorem outset_succeed (s : Session) (purpose : Purpose) : (s.succeed purpose).Outset := by
  cases purpose <;> trivial

theorem outset_answerInput {purpose : Purpose} {value : Value} {phase : InputPhase} {reply : Reply}
    (hs : s.answerInput purpose value phase reply = some s') : s'.Outset := by
  have hpoint : ∀ stamp, (s.pointAt purpose value stamp).Outset := by
    intro stamp
    simp only [pointAt]
    repeat' split
    all_goals first | exact outset_fail _ _ _ | trivial
  have henter : ∀ expected, (s.enter purpose value expected).Outset := by
    intro expected
    simp only [enter, pressKey]
    repeat' split
    all_goals first | exact outset_fail _ _ _ | trivial
  have hdelivered : ∀ (s : Session) call, (s.delivered purpose value call).Outset := by
    intro s call
    simp only [delivered]
    split <;> first | exact outset_succeed _ _ | trivial
  have hsecond : ∀ thing, (s.secondDelivered purpose thing).Outset := by
    intro thing
    cases thing <;> exact outset_succeed _ _
  simp only [Session.answerInput] at hs
  split at hs <;> cases hs
  all_goals first
    | exact outset_fail _ _ _
    | exact henter _
    | exact hpoint _
    | exact hdelivered _ _
    | exact hsecond _

theorem outset_start (s : Session) (allowed : Bool) (request : Request) :
    (s.start allowed request).Outset := by
  cases request <;> simp only [Session.start, startInput, startContact]
  all_goals
    repeat' split
    all_goals first | exact outset_fail _ _ _ | rfl | trivial

/-- STEP: what has been emptied stays empty, and the release that ends has emptied all. -/
theorem Drained.step (h : s.Drained) {m : Move} (hs : s.step m = some s') :
    s'.Drained ∧ (m ≠ .drop → s.current.any Task.isReleasing = true →
      s'.current.any Task.isReleasing = false → s'.Emptied) := by
  cases m with
  | start request allowed =>
    simp only [Session.step, Option.ite_none_right_eq_some, Option.some.injEq] at hs
    obtain ⟨hcur, rfl⟩ := hs
    exact ⟨(outset_start s allowed request).drained, fun _ hin => by simp [hcur] at hin⟩
  | dispatch =>
    obtain ⟨task, hcur, hs⟩ := Option.bind_eq_some_iff.mp hs
    simp only [Session.dispatch] at hs
    split at hs
    · have hnot : s.current.any Task.isReleasing = false := by simp [hcur, Task.isReleasing]
      refine ⟨?_, fun _ hin => by rw [hnot] at hin; cases hin⟩
      split at hs <;> cases hs
      · trivial
      · exact (outset_fail _ _ _).drained
    · cases hs
  | answer reply =>
    obtain ⟨task, hcur, hs⟩ := Option.bind_eq_some_iff.mp hs
    cases task with
    | inputting purpose value phase =>
      exact ⟨(outset_answerInput hs).drained, fun _ hin => by simp [hcur, Task.isReleasing] at hin⟩
    | releasing afterwards phase =>
      obtain ⟨hdrained, hend⟩ := h.answerRelease hcur hs
      exact ⟨hdrained, fun _ _ => hend⟩
    | reloading =>
      refine ⟨?_, fun _ hin => by simp [hcur, Task.isReleasing] at hin⟩
      cases reply <;> cases hs <;> trivial
    | rebinding =>
      refine ⟨?_, fun _ hin => by simp [hcur, Task.isReleasing] at hin⟩
      cases reply <;> cases hs <;> trivial
  | drain names =>
    obtain ⟨task, hcur, hs⟩ := Option.bind_eq_some_iff.mp hs
    obtain ⟨hdrained, hend⟩ := h.drain hcur hs
    exact ⟨hdrained, fun _ _ => hend⟩
  | drop =>
    obtain ⟨task, hcur, rfl⟩ := Option.map_eq_some_iff.mp hs
    refine ⟨?_, fun hne => absurd rfl hne⟩
    simp only [Session.dropTask]
    split <;> trivial
  | close | disconnect | navigate =>
    cases hs
    exact ⟨h, fun _ hin hout => absurd (hin.symm.trans hout) (by simp)⟩

/-! ### Runs -/

/-- RUN: a run from a bound page in which nothing pressed is let go leaves nothing pressed, and
    every release that comes to its end has emptied the sets. -/
theorem inputs_released {id epoch : String} {width height revision : Nat} {moves : List Move}
    (hrun : Machine.exec step (bound id epoch width height revision) moves = some s) :
    (Machine.Along step Steady (bound id epoch width height revision) moves → s.Released) ∧
      ∀ m s', s.step m = some s' → m ≠ .drop → s.current.any Task.isReleasing = true →
        s'.current.any Task.isReleasing = false → s'.Emptied := by
  constructor
  · intro halong
    have hreach : Machine.ReachesBy step Steady (bound id epoch width height revision) s :=
      ⟨moves, hrun, halong⟩
    have hstart : (bound id epoch width height revision).Inv :=
      ⟨⟨fun _ _ _ hname => (by cases hname), fun _ _ ht => (by cases ht)⟩,
        fun _ ht => (by cases ht)⟩
    exact (hreach.invariant (I := Inv) (fun _ _ _ h hg hs => h.step hg hs) hstart).released_of_idle
  · intro m s' hs
    have hreach : Machine.Reaches step (bound id epoch width height revision) s := ⟨moves, hrun⟩
    have hdrained : s.Drained :=
      hreach.invariant (I := Drained) (fun _ _ _ h hs => (h.step hs).1) trivial
    exact (hdrained.step hs).2

/-- A key goes down and up, and a release comes to its last step. -/
def cleanKey : List Move :=
  [.start (.input (.key (some "a") (some "down")) none) true, .answer (.ok .expected), .dispatch,
    .answer (.ok .expected),
    .start (.input (.key (some "a") (some "up")) none) true, .answer (.ok .expected), .dispatch,
    .answer (.ok .expected),
    .start .releaseInputs true, .answer (.ok .expected)]

theorem inputs_released_cleanKey : ∃ s s',
    Machine.exec step (bound "page" "epoch" 800 600 1) cleanKey = some s ∧
      s.log = [.up (.key "KeyA"), .down (.key "KeyA")] ∧ s.Released ∧
      s.step (.drain []) = some s' ∧ s'.Emptied := by
  obtain ⟨s, hrun, hlog, hin, hend⟩ : ∃ s,
      Machine.exec step (bound "page" "epoch" 800 600 1) cleanKey = some s ∧
        s.log = [.up (.key "KeyA"), .down (.key "KeyA")] ∧
        s.current.any Task.isReleasing = true ∧
        (s.step (.drain [])).map (fun s' => s'.current.any Task.isReleasing) = some false :=
    Machine.exec_eval (by decide +kernel)
  obtain ⟨s', hs, hout⟩ := Option.map_eq_some_iff.mp hend
  have hlaw := inputs_released hrun
  exact ⟨s, s', hrun, hlog, hlaw.1 (by decide +kernel), hs,
    hlaw.2 (.drain []) s' hs (by simp) hin hout⟩

/-- A key goes down, is taken out of the set to go up, and the call that was to release it times
    out: the release that follows finds nothing to release. -/
def lostKeyUp : List Move :=
  [.start (.input (.key (some "a") (some "down")) none) true, .answer (.ok .expected), .dispatch,
    .answer (.ok .expected),
    .start (.input (.key (some "a") (some "up")) none) true, .answer (.ok .expected), .dispatch,
    .answer (.failed "CDP operation timed out: Input.dispatchKeyEvent"),
    .answer (.ok .expected), .drain []]

theorem lostKeyUp_left_pressed : ¬ ∀ (moves : List Move) (s : Session),
    Machine.exec step (bound "page" "epoch" 800 600 1) moves = some s → s.Released := by
  intro hall
  obtain ⟨s, hrun, hidle, hkeys, hbuttons, halive, hdown⟩ : ∃ s,
      Machine.exec step (bound "page" "epoch" 800 600 1) lostKeyUp = some s ∧
        s.current = none ∧ s.keys.isEmpty = true ∧ s.buttons = [] ∧ s.isAlive = true ∧
        Press.IsDown (.key "KeyA") s.log := Machine.exec_eval (by decide +kernel)
  rcases hall lostKeyUp s hrun hidle hkeys hbuttons with hsettled | hdead
  · exact Press.settled_iff.mp hsettled _ hdown
  · rw [halive] at hdead
    cases hdead

end Session

end Gamer.Browser
