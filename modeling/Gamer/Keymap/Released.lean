import Gamer.Lib.Machine
import Gamer.Keymap.Controller

/-! What the mapping holds down on the device is exactly what stands in `held`, so that a key whose
    hold is let go leaves nothing pressed. The one way around it is a keyup that is swallowed while
    its code is held again:

        keydown c ─▶ held       switch ─▶ released, keyup of c to be swallowed
        keydown c ─▶ held again         keyup c ─▶ swallowed, still held                   -/

namespace Gamer.Keymap
open Gamer.Lib Controller

/-- What the mapping holds down on behalf of a code. -/
inductive Thing where
  | touch (code : String) (pointerId : Nat) (point : Position)
  | key (code : String) (keycode : Nat)
  deriving DecidableEq

def Thing.code : Thing → String
  | .touch code .. | .key code _ => code

def Entry.press : Entry → Option (Press Thing)
  | .mapped code (.touch .down id point) => some (.down (.touch code id point))
  | .mapped code (.touch .up id point) => some (.up (.touch code id point))
  | .mapped code (.key .down keycode _ _) => some (.down (.key code keycode))
  | .mapped code (.key .up keycode _ _) => some (.up (.key code keycode))
  | _ => none

/-- The presses and releases among what has gone out. -/
def presses (log : List Entry) : List (Press Thing) := log.filterMap Entry.press

/-- What the device has down because of the item. -/
def Held.thing (code : String) (item : Held) : Option Thing :=
  match item.action with
  | .rawKey keyName keycode => (rawKeycode keyName keycode).map (.key code)
  | .hold _ => item.touch.map fun touch => .touch code touch.2 touch.1
  | _ => none

def thingOf (held : Table String Held) (code : String) : Option Thing :=
  (held.get code).bind (Held.thing code)

/-- The code has been released, or let go of as a whole, and not been pressed since. -/
def Quiet (code : String) : List Call → Prop
  | [] => True
  | .keydown e :: history => e.code ≠ code ∧ Quiet code history
  | .keyup e :: history => e.code = code ∨ Quiet code history
  | .releaseAll :: _ | .setKeymap _ :: _ | .setMode _ :: _ => True
  | .setEnabled _ :: history | .setRemote _ :: history => Quiet code history

instance Quiet.decidable (code : String) : ∀ history, Decidable (Quiet code history)
  | [] => isTrue trivial
  | .keydown e :: history =>
    have := Quiet.decidable code history
    inferInstanceAs (Decidable (e.code ≠ code ∧ Quiet code history))
  | .keyup e :: history =>
    have := Quiet.decidable code history
    inferInstanceAs (Decidable (e.code = code ∨ Quiet code history))
  | .releaseAll :: _ | .setKeymap _ :: _ | .setMode _ :: _ => isTrue trivial
  | .setEnabled _ :: history | .setRemote _ :: history => Quiet.decidable code history

/-- No code that is quiet has anything down. -/
def NothingLeft (s : Session) : Prop :=
  ∀ code, Quiet code s.history → ∀ t, t.code = code → ¬ Press.IsDown t (presses s.ctl.log)

/-- Every `up` closes a `down` of the same pointer and point, or of the same keycode. -/
def Closes (s : Session) : Prop := Press.Matched (presses s.ctl.log)

/-- The pointers that are down are distinct and within 1..31. -/
def PointersApart (s : Session) : Prop :=
  ∀ code id point, Press.IsDown (.touch code id point) (presses s.ctl.log) → 1 ≤ id ∧ id ≤ 31 ∧
    ∀ code' point', Press.IsDown (.touch code' id point') (presses s.ctl.log) →
      code' = code ∧ point' = point

/-- A call on a controller that is not remote, with a sender of states that always succeeds. -/
def Local (s : Session) (call : Call × Outside) : Prop :=
  s.ctl.remoteEnabled call.2 = false ∧ (∀ m, call.2.sendStateControl m = true) ∧
    ∀ value, call.1 ≠ .setRemote value

/-- No keyup is swallowed while its code is held. -/
def NotSwallowed (s : Session) (call : Call × Outside) : Prop :=
  match call.1 with
  | .keyup e => e.code ∈ s.ctl.suppressedKeyups → thingOf s.ctl.held e.code = none
  | _ => True

instance (s : Session) (call : Call × Outside) : Decidable (NotSwallowed s call) :=
  match call with
  | (.keyup e, _) => inferInstanceAs (Decidable (e.code ∈ s.ctl.suppressedKeyups →
      thingOf s.ctl.held e.code = none))
  | (.keydown _, _) | (.releaseAll, _) | (.setKeymap _, _) | (.setMode _, _) | (.setEnabled _, _)
  | (.setRemote _, _) => isTrue trivial

/-! ### What is down and what is held -/

/-- INVARIANT of the held items and what has gone out. -/
structure Kept (held : Table String Held) (log : List Entry) : Prop where
  down_iff : ∀ t, Press.IsDown t (presses log) ↔ thingOf held t.code = some t
  matched : Press.Matched (presses log)
  pointer : ∀ code item point id, held.get code = some item → item.touch = some (point, id) →
    1 ≤ id ∧ id ≤ 31 ∧ ∀ code' item' point', held.get code' = some item' →
      item'.touch = some (point', id) → code' = code
  named : held.get "" = none

variable {s : Controller} {o : Outside} {held : Table String Held} {log : List Entry}

theorem Held.thing_code {code : String} {item : Held} {t : Thing} (h : item.thing code = some t) :
    t.code = code := by
  unfold Held.thing at h
  split at h
  · obtain ⟨k, _, rfl⟩ := Option.map_eq_some_iff.mp h
    rfl
  · obtain ⟨touch, _, rfl⟩ := Option.map_eq_some_iff.mp h
    rfl
  · cases h

theorem presses_cons {e : Entry} {p : Press Thing} (h : e.press = some p) (log : List Entry) :
    presses (e :: log) = p :: presses log := by
  simp [presses, h]

theorem presses_cons_none {e : Entry} (h : e.press = none) (log : List Entry) :
    presses (e :: log) = presses log := by
  simp [presses, h]

theorem thingOf_set (held : Table String Held) (code c : String) (item : Held) :
    thingOf (held.set code item) c = if c = code then item.thing c else thingOf held c := by
  unfold thingOf
  rw [Table.get_set]
  split <;> rfl

theorem thingOf_del (held : Table String Held) (code c : String) :
    thingOf (held.del code) c = if c = code then none else thingOf held c := by
  unfold thingOf
  rw [Table.get_del]
  split <;> rfl

theorem Kept.of_new (h : s.IsNew) : Kept s.held s.log := by
  rw [h.held, h.log]
  exact ⟨fun t => by simp [presses, thingOf], Press.matched_nil, by simp, rfl⟩

/-- FRAME: what is no press changes nothing. -/
theorem Kept.emit (h : Kept held log) {e : Entry} (he : e.press = none) : Kept held (e :: log) := by
  refine ⟨fun t => ?_, ?_, h.pointer, h.named⟩
  · rw [presses_cons_none he]
    exact h.down_iff t
  · rw [presses_cons_none he]
    exact h.matched

/-- STEP: a press of what is held already. -/
theorem Kept.again (h : Kept held log) {e : Entry} {t : Thing} (he : e.press = some (.down t))
    (ht : thingOf held t.code = some t) : Kept held (e :: log) := by
  refine ⟨fun u => ?_, ?_, h.pointer, h.named⟩
  · rw [presses_cons he, Press.isDown_down, h.down_iff]
    refine or_iff_right_of_imp fun hu => ?_
    rw [← hu]
    exact ht
  · rw [presses_cons he]
    exact Press.matched_down.mpr h.matched

/-- STEP: the message of the item that is held from now on. -/
theorem Kept.hold (h : Kept held log) {code : String} {item : Held} {e : Entry}
    (hcode : code ≠ "") (hfree : held.get code = none)
    (he : e.press = (item.thing code).map .down)
    (hpointer : ∀ point id, item.touch = some (point, id) → 1 ≤ id ∧ id ≤ 31 ∧
      ∀ c x p, held.get c = some x → x.touch ≠ some (p, id)) :
    Kept (held.set code item) (e :: log) := by
  have hnone : thingOf held code = none := by simp [thingOf, hfree]
  refine ⟨fun t => ?_, ?_, ?_, ?_⟩
  · rw [thingOf_set]
    cases ht : item.thing code with
    | none =>
      rw [ht] at he
      rw [presses_cons_none he, h.down_iff]
      split
      · rename_i heq
        rw [heq, hnone, ht]
      · rfl
    | some u =>
      rw [ht] at he
      have hu := Held.thing_code ht
      rw [presses_cons he, Press.isDown_down, h.down_iff]
      split
      · rename_i heq
        rw [heq, hnone, ht]
        simp
      · rename_i hne
        refine or_iff_right_of_imp fun hut => ?_
        rw [← hut, hu] at hne
        exact absurd rfl hne
  · cases ht : item.thing code with
    | none =>
      rw [ht] at he
      rw [presses_cons_none he]
      exact h.matched
    | some u =>
      rw [ht] at he
      rw [presses_cons he]
      exact Press.matched_down.mpr h.matched
  · intro c x point id hx htouch
    rw [Table.get_set] at hx
    split at hx
    · rename_i heq
      subst heq
      cases hx
      obtain ⟨hlow, hhigh, hapart⟩ := hpointer point id htouch
      refine ⟨hlow, hhigh, fun c' x' p' hx' htouch' => ?_⟩
      rw [Table.get_set] at hx'
      split at hx'
      · assumption
      · exact absurd htouch' (hapart c' x' p' hx')
    · obtain ⟨hlow, hhigh, hapart⟩ := h.pointer c x point id hx htouch
      refine ⟨hlow, hhigh, fun c' x' p' hx' htouch' => ?_⟩
      rw [Table.get_set] at hx'
      split at hx'
      · cases hx'
        exact absurd htouch ((hpointer p' id htouch').2.2 c x point hx)
      · exact hapart c' x' p' hx' htouch'
  · rw [Table.get_set_ne (Ne.symm hcode)]
    exact h.named

/-- STEP: the message that lets go of a held item. -/
theorem Kept.letGo (h : Kept held log) {code : String} {item : Held} {t : Thing} {e : Entry}
    (hitem : held.get code = some item) (ht : item.thing code = some t)
    (he : e.press = some (.up t)) : Kept (held.del code) (e :: log) := by
  have hcode := Held.thing_code ht
  have hdown : thingOf held t.code = some t := by simp [thingOf, hcode, hitem, ht]
  refine ⟨fun u => ?_, ?_, ?_, ?_⟩
  · rw [presses_cons he, Press.isDown_up, h.down_iff, thingOf_del]
    split
    · rename_i heq
      rw [heq, ← hcode, hdown]
      simp
    · rename_i hne
      refine and_iff_right_of_imp fun _ hu => hne ?_
      rw [← hu, hcode]
  · rw [presses_cons he]
    exact Press.matched_up.mpr ⟨(h.down_iff t).mpr hdown, h.matched⟩
  · intro c x point id hx htouch
    rw [Table.get_del] at hx
    split at hx
    · cases hx
    · obtain ⟨hlow, hhigh, hapart⟩ := h.pointer c x point id hx htouch
      refine ⟨hlow, hhigh, fun c' x' p' hx' htouch' => ?_⟩
      rw [Table.get_del] at hx'
      split at hx'
      · cases hx'
      · exact hapart c' x' p' hx' htouch'
  · rw [Table.get_del, h.named]
    split <;> rfl

/-- STEP: letting go of an item that has nothing down. -/
theorem Kept.forget (h : Kept held log) {code : String} (ht : thingOf held code = none) :
    Kept (held.del code) log := by
  refine ⟨fun u => ?_, h.matched, ?_, ?_⟩
  · rw [h.down_iff, thingOf_del]
    split
    · rename_i heq
      rw [heq, ht]
    · rfl
  · intro c x point id hx htouch
    rw [Table.get_del] at hx
    split at hx
    · cases hx
    · obtain ⟨hlow, hhigh, hapart⟩ := h.pointer c x point id hx htouch
      refine ⟨hlow, hhigh, fun c' x' p' hx' htouch' => ?_⟩
      rw [Table.get_del] at hx'
      split at hx'
      · cases hx'
      · exact hapart c' x' p' hx' htouch'
  · rw [Table.get_del, h.named]
    split <;> rfl

/-! ### Letting go -/

/-- The message that lets go of an item releases what its press has down. -/
theorem upMessage_press {code : String} {item : Held} {t : Thing} (h : item.thing code = some t)
    (o : Outside) (e : Option KeyEvent) :
    ∃ m, upMessage o e item = some m ∧ (Entry.mapped code m).press = some (.up t) := by
  cases haction : item.action with
  | tap point => simp [Held.thing, haction] at h
  | swipe first last durationMs => simp [Held.thing, haction] at h
  | rawKey keyName keycode =>
    simp only [Held.thing, haction] at h
    obtain ⟨k, hk, rfl⟩ := Option.map_eq_some_iff.mp h
    exact ⟨_, by simp only [upMessage, haction, rawMessage, hk]; rfl, rfl⟩
  | hold point =>
    simp only [Held.thing, haction] at h
    obtain ⟨touch, htouch, rfl⟩ := Option.map_eq_some_iff.mp h
    exact ⟨_, by simp only [upMessage, haction, htouch]; rfl, rfl⟩

theorem upMessage_none {code : String} {item : Held} (h : item.thing code = none)
    (o : Outside) (e : Option KeyEvent) : upMessage o e item = none := by
  cases haction : item.action with
  | tap point => simp only [upMessage, haction]
  | swipe first last durationMs => simp only [upMessage, haction]
  | rawKey keyName keycode => simpa [Held.thing, upMessage, haction, rawMessage] using h
  | hold point => simpa [Held.thing, upMessage, haction] using h

@[simp] theorem letGo_held (s : Controller) (o : Outside) (e : Option KeyEvent) (code : String)
    (item : Held) : (s.letGo o e code item).1.held = s.held.del code := by
  unfold Controller.letGo
  split
  · rfl
  · rfl
  · dsimp only
    split <;> rfl

theorem letGo_kept (hsend : ∀ m, o.sendStateControl m = true) (h : Kept s.held s.log)
    (e : Option KeyEvent) {code : String} {item : Held} (hitem : s.held.get code = some item) :
    Kept (s.letGo o e code item).1.held (s.letGo o e code item).1.log := by
  rw [letGo_held]
  have hthing : thingOf s.held code = item.thing code := by simp [thingOf, hitem]
  cases ht : item.thing code with
  | none =>
    have hlog : (s.letGo o e code item).1.log = s.log := by
      simp only [Controller.letGo, upMessage_none ht, Option.filter_none]
      split <;> rfl
    rw [hlog]
    exact h.forget (hthing.trans ht)
  | some t =>
    obtain ⟨m, hm, hpress⟩ := upMessage_press ht o e
    have hlog : (s.letGo o e code item).1.log = .mapped code m :: s.log := by
      have hfilter : (some m).filter o.sendStateControl = some m := by simp [Option.filter, hsend]
      simp only [Controller.letGo, hm, hfilter]
      split
      · rename_i haction
        simp [Held.thing, haction] at ht
      · rename_i haction
        simp [Held.thing, haction] at ht
      · rfl
    rw [hlog]
    exact h.letGo hitem ht hpress

/-- RUN: what holds of the held items still does when some have been let go in turn. -/
theorem releaseCodes_kept (hsend : ∀ m, o.sendStateControl m = true) (suppressKeyups : Bool)
    (codes : List String) : ∀ {s : Controller}, Kept s.held s.log →
    Kept (s.releaseCodes o suppressKeyups codes).1.held (s.releaseCodes o suppressKeyups codes).1.log ∧
    ∀ c, (s.releaseCodes o suppressKeyups codes).1.held.get c =
      if c ∈ codes then none else s.held.get c := by
  induction codes with
  | nil => exact fun h => ⟨h, fun c => by simp [releaseCodes]⟩
  | cons code rest ih =>
    intro s h
    unfold releaseCodes
    cases hget : s.held.get code with
    | none =>
      refine ⟨(ih h).1, fun c => ?_⟩
      rw [(ih h).2 c]
      by_cases hc : c = code
      · subst hc
        simp [hget]
      · simp [hc]
    | some item =>
      have hkept := letGo_kept hsend h none hget
      obtain ⟨hrest, hheld⟩ : Kept _ _ ∧ _ :=
        ih (s := if suppressKeyups then (s.letGo o none code item).1.suppress code
          else (s.letGo o none code item).1) (by split <;> exact hkept)
      refine ⟨hrest, fun c => (hheld c).trans ?_⟩
      have hdel : (if suppressKeyups then (s.letGo o none code item).1.suppress code
          else (s.letGo o none code item).1).held = s.held.del code := by
        split <;> exact letGo_held s o none code item
      rw [hdel, Table.get_del]
      by_cases hc : c = code <;> simp [hc]

/-- Nothing is held any more. -/
theorem releaseMapped_kept (hsend : ∀ m, o.sendStateControl m = true) (suppressKeyups : Bool)
    (h : Kept s.held s.log) :
    Kept (s.releaseMapped o suppressKeyups).1.held (s.releaseMapped o suppressKeyups).1.log ∧
    ∀ c, (s.releaseMapped o suppressKeyups).1.held.get c = none := by
  obtain ⟨hkept, hheld⟩ := releaseCodes_kept hsend suppressKeyups s.held.keys.reverse h
  refine ⟨hkept, fun c => (hheld c).trans ?_⟩
  by_cases hc : c ∈ s.held.keys.reverse
  · rw [if_pos hc]
  · rw [if_neg hc]
    have hnot : c ∉ s.held := fun hmem => hc (List.mem_reverse.mpr (AList.mem_keys.mp hmem))
    exact AList.lookup_eq_none.mpr hnot

theorem releaseRemote_kept (codes : List String) : ∀ {s : Controller}, Kept s.held s.log →
    Kept (s.releaseRemote o codes).1.held (s.releaseRemote o codes).1.log := by
  induction codes with
  | nil => exact fun h => h
  | cons code rest ih =>
    intro s h
    refine ih (s := s.emitInput o _) ?_
    unfold emitInput
    split
    · exact h.emit rfl
    · exact h

theorem releaseAll_kept (hsend : ∀ m, o.sendStateControl m = true) (h : Kept s.held s.log) :
    Kept (s.releaseAll o).1.held (s.releaseAll o).1.log ∧
    ∀ c, (s.releaseAll o).1.held.get c = none := by
  obtain ⟨hkept, hheld⟩ := releaseMapped_kept hsend false (releaseRemote_kept (o := o) s.remoteHeld h)
  exact ⟨hkept.emit rfl, hheld⟩

theorem foldl_suppress (codes : List String) : ∀ s : Controller,
    (codes.foldl suppress s).held = s.held ∧ (codes.foldl suppress s).log = s.log := by
  induction codes with
  | nil => exact fun s => ⟨rfl, rfl⟩
  | cons code rest ih => exact fun s => ih (s.suppress code)

theorem switchMode_kept (hsend : ∀ m, o.sendStateControl m = true) (h : Kept s.held s.log) :
    Kept (s.switchMode o).held (s.switchMode o).log ∧
    ∀ c, (s.switchMode o).held.get c = none := by
  obtain ⟨hheld, hlog⟩ := foldl_suppress s.held.keys.reverse (s.releaseMapped o true).1
  unfold switchMode
  dsimp only
  rw [hheld, hlog]
  exact releaseMapped_kept hsend true h

/-! ### Keys -/

theorem allocatePointerId_spec {id : Nat} (h : s.allocatePointerId = some id) : 1 ≤ id ∧ id ≤ 31 ∧
    ∀ c x p, s.held.get c = some x → x.touch ≠ some (p, id) := by
  have hmem := List.mem_of_find?_eq_some h
  rw [List.mem_range'_1] at hmem
  refine ⟨hmem.1, by omega, fun c x p hx htouch => ?_⟩
  have hfree := List.find?_some h
  simp only [Bool.not_eq_true', List.any_eq_false, Option.any_eq_true] at hfree
  have hitem := hfree x (Table.mem_values_of_get hx)
  simp [htouch] at hitem

/-- The handler keeps what is held and what is down together, and concerns its own code only. -/
def Handles (s s' : Controller) (code : String) : Prop :=
  Kept s'.held s'.log ∧ ∀ c, c ≠ code → thingOf s'.held c = thingOf s.held c

theorem Handles.of_emit (h : Kept s.held s.log) {e : Entry} (he : e.press = none)
    (code : String) : Handles s (s.emit e) code :=
  ⟨h.emit he, fun _ _ => rfl⟩

theorem Handles.of_hold (h : Kept s.held s.log) {code : String} {m : Message} {item : Held}
    (hcode : code ≠ "") (hfree : s.held.get code = none)
    (he : (Entry.mapped code m).press = (item.thing code).map .down)
    (hpointer : ∀ point id, item.touch = some (point, id) → 1 ≤ id ∧ id ≤ 31 ∧
      ∀ c x p, s.held.get c = some x → x.touch ≠ some (p, id)) :
    Handles s (s.hold code m item) code := by
  refine ⟨h.hold hcode hfree he hpointer, fun c hc => ?_⟩
  show thingOf (s.held.set code item) c = _
  rw [thingOf_set, if_neg hc]

theorem forwardRemoteInput_handles (h : Kept s.held s.log) (e : KeyEvent) (phase : Phase) :
    Handles s (s.forwardRemoteInput o e phase).1 e.code := by
  have hemit : ∀ event, Handles s (s.emitInput o event) e.code := by
    intro event
    unfold emitInput
    split
    · exact .of_emit h rfl _
    · exact ⟨h, fun _ _ => rfl⟩
  unfold forwardRemoteInput
  split
  · exact ⟨h, fun _ _ => rfl⟩
  · exact hemit _
  · exact hemit _

theorem pointMessage_press {action : Action} {m : Message} (h : pointMessage o action = some m)
    (code : String) : (Entry.mapped code m).press = none ∧ Held.thing code ⟨action, none⟩ = none := by
  unfold pointMessage at h
  split at h
  · obtain ⟨p, _, rfl⟩ := Option.map_eq_some_iff.mp h
    exact ⟨rfl, rfl⟩
  · split at h
    · cases h
      exact ⟨rfl, rfl⟩
    · cases h
  · cases h

theorem start_handles (h : Kept s.held s.log) {e : KeyEvent} (hcode : e.code ≠ "")
    (hfree : s.held.get e.code = none) (action : Action) :
    Handles s (s.start o e action).1 e.code := by
  have hsame : Handles s s e.code := ⟨h, fun _ _ => rfl⟩
  have hpoint : ∀ m, (if e.isRepeat then none else pointMessage o action).filter o.sendControl =
      some m → Handles s (s.hold e.code m ⟨action, none⟩) e.code := by
    intro m hm
    have hmessage : pointMessage o action = some m := by
      have hsome := (Option.filter_eq_some_iff.mp hm).1
      split at hsome
      · cases hsome
      · exact hsome
    obtain ⟨hpress, hthing⟩ := pointMessage_press hmessage e.code
    exact .of_hold h hcode hfree (by rw [hpress, hthing]; rfl) fun _ _ htouch => by cases htouch
  cases action with
  | tap point =>
    unfold Controller.start
    dsimp only
    cases hm : (if e.isRepeat then none else pointMessage o (.tap point)).filter o.sendControl with
    | none => exact .of_emit h rfl _
    | some m => exact hpoint m hm
  | swipe first last durationMs =>
    unfold Controller.start
    dsimp only
    cases hm : (if e.isRepeat then none else pointMessage o (.swipe first last durationMs)).filter
      o.sendControl with
    | none => exact .of_emit h rfl _
    | some m => exact hpoint m hm
  | rawKey keyName keycode =>
    unfold Controller.start
    dsimp only
    cases hm : (rawMessage o keyName keycode (some e) .down).filter o.sendStateControl with
    | none => exact hsame
    | some m =>
      obtain ⟨k, hk, rfl⟩ := Option.map_eq_some_iff.mp (Option.filter_eq_some_iff.mp hm).1
      refine .of_hold h hcode hfree ?_ fun _ _ htouch => nomatch htouch
      simp [Held.thing, hk, Entry.press]
  | hold point =>
    unfold Controller.start
    dsimp only
    split
    · rename_i p id _ hid
      split
      · refine .of_hold h hcode hfree rfl fun point' id' htouch => ?_
        cases htouch
        exact allocatePointerId_spec hid
      · exact hsame
    · exact hsame

/-- STEP: a keydown. -/
theorem handleKeydown_handles (h : Kept s.held s.log) (e : KeyEvent) :
    Handles s (s.handleKeydown o e).1 e.code := by
  have hsame : Handles s s e.code := ⟨h, fun _ _ => rfl⟩
  unfold handleKeydown
  split_ifs with hignored hremote hfallback
  · exact hsame
  · exact forwardRemoteInput_handles h e .down
  · exact .of_emit h rfl _
  · have hcode : e.code ≠ "" := by
      intro hempty
      simp [hempty] at hfallback
    split
    · exact .of_emit h rfl _
    · rename_i hfree
      exact start_handles h hcode hfree _
    · rename_i current hcurrent
      split
      · rename_i keyName keycode haction _
        cases hm : (rawMessage o keyName keycode (some e) .down).filter o.sendStateControl with
        | none => exact hsame
        | some m =>
          obtain ⟨k, hk, rfl⟩ := Option.map_eq_some_iff.mp (Option.filter_eq_some_iff.mp hm).1
          refine ⟨h.again rfl ?_, fun _ _ => rfl⟩
          simp [thingOf, Thing.code, hcurrent, Held.thing, haction, hk]
      · exact hsame

/-- STEP: a keyup leaves nothing held under its code, unless it is swallowed. -/
theorem handleKeyup_handles (hsend : ∀ m, o.sendStateControl m = true) (h : Kept s.held s.log)
    (hremote : s.remoteEnabled o = false) (hnone : s.remoteHeld = []) (e : KeyEvent) :
    Handles s (s.handleKeyup o e).1 e.code ∧ thingOf (s.handleKeyup o e).1.held e.code =
      if e.code ∈ s.suppressedKeyups then thingOf s.held e.code else none := by
  by_cases hcode : e.code = ""
  · have hthing : thingOf s.held e.code = none := by simp [thingOf, hcode, h.named]
    rw [hthing, ite_self]
    simp only [handleKeyup, eventCode, hcode, if_true, Option.any_none, hremote, Bool.or_self,
      Bool.false_eq_true, if_false]
    split_ifs
    · exact ⟨⟨h, fun _ _ => rfl⟩, hcode ▸ hthing⟩
    · exact ⟨.of_emit h rfl _, hcode ▸ hthing⟩
  · simp only [handleKeyup, eventCode, hcode, if_false, Option.any_some, hremote, hnone,
      List.contains_nil, Bool.false_or, Bool.false_eq_true, List.contains_iff_mem]
    by_cases hsuppressed : e.code ∈ s.suppressedKeyups
    · have hcontains : s.suppressedKeyups.contains e.code = true := by simpa using hsuppressed
      simp only [hcontains, Bool.or_true, Bool.not_true, Bool.and_false, Bool.false_eq_true,
        if_false, if_pos hsuppressed]
      exact ⟨⟨h, fun _ _ => rfl⟩, trivial⟩
    · have hcontains : s.suppressedKeyups.contains e.code = false := by simpa using hsuppressed
      simp only [hcontains, Bool.or_false, if_neg hsuppressed]
      cases hget : s.held.get e.code with
      | none =>
        have hthing : thingOf s.held e.code = none := by simp [thingOf, hget]
        split_ifs
        · exact ⟨⟨h, fun _ _ => rfl⟩, hthing⟩
        · exact ⟨.of_emit h rfl _, hthing⟩
      | some current =>
        have hkept := letGo_kept hsend h (some e) hget
        simp only [Option.isSome_some, Bool.not_true, Bool.and_false, Bool.false_eq_true, if_false]
        refine ⟨⟨hkept, fun c hc => ?_⟩, ?_⟩
        · rw [letGo_held, thingOf_del, if_neg hc]
        · rw [letGo_held, thingOf_del, if_pos rfl]

/-! ### Codes the server has -/

@[simp] theorem letGo_remoteHeld (s : Controller) (o : Outside) (e : Option KeyEvent)
    (code : String) (item : Held) : (s.letGo o e code item).1.remoteHeld = s.remoteHeld := by
  unfold Controller.letGo
  split
  · rfl
  · rfl
  · dsimp only
    split <;> rfl

theorem releaseCodes_remoteHeld (suppressKeyups : Bool) (codes : List String) :
    ∀ s : Controller, (s.releaseCodes o suppressKeyups codes).1.remoteHeld = s.remoteHeld := by
  induction codes with
  | nil => exact fun s => rfl
  | cons code rest ih =>
    intro s
    unfold releaseCodes
    split
    · exact ih s
    · refine (ih _).trans ?_
      split <;> exact letGo_remoteHeld ..

theorem switchMode_remoteHeld (s : Controller) (o : Outside) :
    (s.switchMode o).remoteHeld = s.remoteHeld := by
  have hsuppress : ∀ (codes : List String) (s : Controller),
      (codes.foldl suppress s).remoteHeld = s.remoteHeld := by
    intro codes
    induction codes with
    | nil => exact fun s => rfl
    | cons code rest ih => exact fun s => ih (s.suppress code)
  exact (hsuppress _ _).trans (releaseCodes_remoteHeld true _ s)

theorem releaseRemote_remoteHeld (codes : List String) : ∀ s : Controller,
    (s.releaseRemote o codes).1.remoteHeld = [] := by
  induction codes with
  | nil => exact fun s => rfl
  | cons code rest ih => exact fun s => ih _

theorem releaseAll_remoteHeld (s : Controller) (o : Outside) :
    (s.releaseAll o).1.remoteHeld = [] :=
  (releaseCodes_remoteHeld false _ _).trans (releaseRemote_remoteHeld _ s)

theorem handleKeydown_remoteHeld (hremote : s.remoteEnabled o = false) (e : KeyEvent) :
    (s.handleKeydown o e).1.remoteHeld = s.remoteHeld := by
  have hstart : ∀ action, (s.start o e action).1.remoteHeld = s.remoteHeld := by
    intro action
    unfold Controller.start
    repeat' split
    all_goals first | rfl | (dsimp only; split <;> rfl)
  unfold handleKeydown
  simp only [hremote, Bool.false_and, Bool.false_eq_true, if_false]
  split_ifs
  · rfl
  · rfl
  · split
    · rfl
    · exact hstart _
    · repeat' split
      all_goals rfl

theorem handleKeyup_remoteHeld (hremote : s.remoteEnabled o = false) (hnone : s.remoteHeld = [])
    (e : KeyEvent) : (s.handleKeyup o e).1.remoteHeld = [] := by
  have hfree : ((eventCode e).any fun c => s.remoteHeld.contains c) = false := by
    cases eventCode e <;> simp [hnone]
  unfold handleKeyup
  simp only [hremote, hfree, Bool.or_self, Bool.false_eq_true, if_false]
  split_ifs
  · exact hnone
  · split
    · exact hnone
    · split_ifs
      · exact hnone
      · split
        · exact hnone
        · exact (letGo_remoteHeld ..).trans hnone

/-! ### The sequences of calls -/

/-- INVARIANT of every run without remote. -/
def Inv (s : Session) : Prop := Kept s.ctl.held s.ctl.log ∧ s.ctl.remoteHeld = []

variable {sess sess' : Session} {call : Call × Outside}

theorem nothingLeft_iff (h : Kept sess.ctl.held sess.ctl.log) : NothingLeft sess ↔
    ∀ code, Quiet code sess.history → thingOf sess.ctl.held code = none := by
  constructor
  · intro hleft code hquiet
    cases ht : thingOf sess.ctl.held code with
    | none => rfl
    | some t =>
      obtain ⟨item, hitem, hthing⟩ := Option.bind_eq_some_iff.mp ht
      have hcode := Held.thing_code hthing
      refine absurd ((h.down_iff t).mpr ?_) (hleft code hquiet t hcode)
      rw [hcode]
      exact ht
  · intro hnone code hquiet t ht hdown
    have hthing := (h.down_iff t).mp hdown
    rw [ht, hnone code hquiet] at hthing
    cases hthing

/-- STEP: every call keeps the invariant. -/
theorem Inv.step (h : Inv sess) (hlocal : Local sess call) (hstep : step sess call = some sess') :
    Inv sess' := by
  obtain ⟨hkept, hnone⟩ := h
  obtain ⟨hremote, hsend, hset⟩ := hlocal
  obtain ⟨call, o⟩ := call
  cases hstep
  cases call with
  | keydown e =>
    exact ⟨(handleKeydown_handles hkept e).1, (handleKeydown_remoteHeld hremote e).trans hnone⟩
  | keyup e =>
    exact ⟨(handleKeyup_handles hsend hkept hremote hnone e).1.1,
      handleKeyup_remoteHeld hremote hnone e⟩
  | releaseAll => exact ⟨(releaseAll_kept hsend hkept).1, releaseAll_remoteHeld ..⟩
  | setKeymap next =>
    exact ⟨(switchMode_kept hsend hkept).1, (switchMode_remoteHeld ..).trans hnone⟩
  | setMode next =>
    have hswitch : Inv ⟨sess.ctl.switchMode o, []⟩ :=
      ⟨(switchMode_kept hsend hkept).1, (switchMode_remoteHeld ..).trans hnone⟩
    show Kept (sess.ctl.setMode o next).held (sess.ctl.setMode o next).log ∧ _
    unfold Controller.handle setMode
    dsimp only
    split <;> exact hswitch
  | setEnabled value =>
    cases value with
    | true => exact ⟨hkept, hnone⟩
    | false => exact ⟨(releaseAll_kept hsend hkept).1, releaseAll_remoteHeld ..⟩
  | setRemote value => exact absurd rfl (hset value)

theorem setMode_held (s : Controller) (o : Outside) (next : String) :
    (s.setMode o next).held = (s.switchMode o).held := by
  unfold setMode
  dsimp only
  split <;> rfl

/-- STEP: a call leaves something down on behalf of a quiet code exactly if it is a keyup that is
    swallowed while its code is held. -/
theorem nothingLeft_step (h : Inv sess) (hleft : NothingLeft sess) (hlocal : Local sess call)
    (hstep : step sess call = some sess') : NothingLeft sess' ↔ NotSwallowed sess call := by
  have hinv := h.step hlocal hstep
  rw [nothingLeft_iff hinv.1]
  rw [nothingLeft_iff h.1] at hleft
  obtain ⟨hkept, hnone⟩ := h
  obtain ⟨hremote, hsend, hset⟩ := hlocal
  obtain ⟨call, o⟩ := call
  cases hstep
  have hempty : ∀ {held : Table String Held}, (∀ c, held.get c = none) → ∀ c, thingOf held c = none :=
    fun hheld c => by simp [thingOf, hheld c]
  cases call with
  | keydown e =>
    refine iff_of_true (fun code hquiet => ?_) trivial
    exact ((handleKeydown_handles hkept e).2 code (Ne.symm hquiet.1)).trans (hleft code hquiet.2)
  | keyup e =>
    obtain ⟨hhandles, hown⟩ := handleKeyup_handles hsend hkept hremote hnone e
    constructor
    · intro hafter hsuppressed
      have hcode := hown.symm.trans (hafter e.code (.inl rfl))
      rwa [if_pos hsuppressed] at hcode
    · intro hnot code hquiet
      by_cases hcode : code = e.code
      · subst hcode
        refine hown.trans ?_
        split
        · exact hnot (by assumption)
        · rfl
      · refine (hhandles.2 code hcode).trans (hleft code ?_)
        exact hquiet.resolve_left (Ne.symm hcode)
  | releaseAll =>
    exact iff_of_true (fun code _ => hempty (releaseAll_kept hsend hkept).2 code) trivial
  | setKeymap next =>
    exact iff_of_true (fun code _ => hempty (switchMode_kept hsend hkept).2 code) trivial
  | setMode next =>
    refine iff_of_true (fun code _ => ?_) trivial
    show thingOf (sess.ctl.setMode o next).held code = none
    rw [setMode_held]
    exact hempty (switchMode_kept hsend hkept).2 code
  | setEnabled value =>
    refine iff_of_true (fun code hquiet => ?_) trivial
    cases value with
    | true => exact hleft code hquiet
    | false => exact hempty (releaseAll_kept hsend hkept).2 code
  | setRemote value => exact absurd rfl (hset value)

/-- Pointers that are down are those of the held items. -/
theorem Kept.pointersApart (h : Kept sess.ctl.held sess.ctl.log) : PointersApart sess := by
  have hitem : ∀ {code id point}, Press.IsDown (.touch code id point) (presses sess.ctl.log) →
      ∃ item, sess.ctl.held.get code = some item ∧ item.touch = some (point, id) := by
    intro code id point hdown
    obtain ⟨item, hitem, hthing⟩ := Option.bind_eq_some_iff.mp ((h.down_iff _).mp hdown)
    refine ⟨item, hitem, ?_⟩
    unfold Held.thing at hthing
    split at hthing
    · obtain ⟨_, _, heq⟩ := Option.map_eq_some_iff.mp hthing
      cases heq
    · obtain ⟨⟨p, i⟩, htouch, heq⟩ := Option.map_eq_some_iff.mp hthing
      cases heq
      exact htouch
    · cases hthing
  intro code id point hdown
  obtain ⟨item, hget, htouch⟩ := hitem hdown
  obtain ⟨hlow, hhigh, hapart⟩ := h.pointer code item point id hget htouch
  refine ⟨hlow, hhigh, fun code' point' hdown' => ?_⟩
  obtain ⟨item', hget', htouch'⟩ := hitem hdown'
  obtain rfl := hapart code' item' point' hget' htouch'
  obtain rfl := Option.some.inj (hget.symm.trans hget')
  cases htouch.symm.trans htouch'
  exact ⟨rfl, rfl⟩

/-- SAFETY: what goes up has gone down, pointers are apart, and nothing is left pressed in exactly
    those runs in which no keyup is swallowed while its code is held. -/
theorem nothing_left_pressed {s : Controller} (hnew : s.IsNew) {calls : List (Call × Outside)}
    (hlocal : Machine.Along step Local ⟨s, []⟩ calls) :
    Machine.Throughout step (fun sess => Closes sess ∧ PointersApart sess) ⟨s, []⟩ calls ∧
    (Machine.Throughout step NothingLeft ⟨s, []⟩ calls ↔
      Machine.Along step NotSwallowed ⟨s, []⟩ calls) := by
  have hinv : Inv ⟨s, []⟩ := ⟨.of_new hnew, hnew.remoteHeld⟩
  have htotal : ∀ sess call, ∃ sess', step sess call = some sess' := fun _ _ => ⟨_, rfl⟩
  obtain ⟨last, hrun⟩ := Machine.exec_total htotal ⟨s, []⟩ calls
  have hstart : NothingLeft ⟨s, []⟩ := by
    rw [nothingLeft_iff hinv.1]
    intro code _
    show thingOf s.held code = none
    rw [hnew.held]
    rfl
  constructor
  · exact (hlocal.throughout (fun _ _ _ hI hA => hI.step hA) hinv).imp
      fun sess h => ⟨h.1.matched, h.1.pointersApart⟩
  · refine Machine.throughout_iff_along (I := Inv) (A := Local) (fun s a s' hI hP hA hs => ?_) hrun
      hlocal hinv hstart
    exact ⟨nothingLeft_step hI hP hA hs, fun _ => hI.step hA hs⟩

/-- A key that is bound to an Android key, with the controller otherwise as by default. -/
def bindings : Bindings := [⟨"KeyA", some (.rawKey none (some 29))⟩]

def console : Controller :=
  ⟨false, .value bindings, true, false, .ref "game", .value (some false), ∅, [], [], []⟩

def outside : Outside := ⟨[], true, "game", none, none, some (1080, 1920), 0, fun _ => true,
  fun _ => true, fun _ => true⟩

def event (code : String) (isRepeat : Bool) : KeyEvent :=
  ⟨code, isRepeat, false, false, false, false, false, false, false, 0⟩

theorem console_isNew : console.IsNew := ⟨rfl, rfl, rfl, rfl⟩

/-- A key pressed and released. -/
theorem nothing_left_pressed_key : Machine.Throughout step NothingLeft ⟨console, []⟩
    [(.keydown (event "KeyA" false), outside), (.keyup (event "KeyA" false), outside)] := by
  have hlocal : Machine.Along step Local ⟨console, []⟩
      [(.keydown (event "KeyA" false), outside), (.keyup (event "KeyA" false), outside)] := by
    refine ⟨⟨rfl, fun _ => rfl, fun _ => nofun⟩, fun s₁ h₁ => ?_⟩
    cases h₁
    exact ⟨⟨by decide +kernel, fun _ => rfl, fun _ => nofun⟩, fun _ _ => trivial⟩
  exact (nothing_left_pressed console_isNew hlocal).2.mpr (by decide +kernel)

/-- The physical key goes on repeating across a switch, and its keyup is swallowed. -/
def switched : List (Call × Outside) := [
  (.keydown (event "KeyA" false), outside), (.setKeymap bindings, outside),
  (.keydown (event "KeyA" true), outside), (.keyup (event "KeyA" false), outside)]

theorem switched_leaves_pressed : console.IsNew ∧ Machine.Along step Local ⟨console, []⟩ switched ∧
    ¬ Machine.Throughout step NothingLeft ⟨console, []⟩ switched := by
  refine ⟨console_isNew, ?_, fun hall => ?_⟩
  · refine ⟨⟨rfl, fun _ => rfl, fun _ => nofun⟩, fun s₁ h₁ => ?_⟩
    cases h₁
    refine ⟨⟨by decide +kernel, fun _ => rfl, fun _ => nofun⟩, fun s₂ h₂ => ?_⟩
    cases h₂
    refine ⟨⟨by decide +kernel, fun _ => rfl, fun _ => nofun⟩, fun s₃ h₃ => ?_⟩
    cases h₃
    exact ⟨⟨by decide +kernel, fun _ => rfl, fun _ => nofun⟩, fun _ _ => trivial⟩
  · obtain ⟨last, hrun, hquiet, hdown⟩ : ∃ last, Machine.exec step ⟨console, []⟩ switched = some last ∧
        Quiet "KeyA" last.history ∧ Press.IsDown (.key "KeyA" 29) (presses last.ctl.log) :=
      Machine.exec_eval (by decide +kernel)
    exact hall.finish hrun "KeyA" hquiet _ rfl hdown

end Gamer.Keymap
