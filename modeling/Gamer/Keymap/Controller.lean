import Mathlib.Algebra.Order.Floor.Defs
import Mathlib.Data.Rat.Floor
import Gamer.Lib.Table
import Gamer.Lib.Presses

/-! The console's keymap controller. A key of the keyboard goes to one of three places: to the keymap
    that runs on the server, to the local mapping, or to the plain keyboard behind it.

        keydown ──▶ remote on, no text ──▶ input_event      remoteHeld
                ──▶ binding found ──▶ tap, swipe, key, touch      held
                ──▶ neither ──▶ fallback keyboard

    A mapping that could not be sent, or that was let go by a switch, leaves its keyup to be
    swallowed: suppressedKeyups. -/

namespace Gamer.Keymap
open Gamer.Lib

/-! ### Android keycodes -/

def keycodes : List (String × Nat) := [
  ("ArrowUp", 19), ("ArrowDown", 20), ("ArrowLeft", 21), ("ArrowRight", 22), ("Home", 122),
  ("End", 123), ("PageUp", 92), ("PageDown", 93), ("Insert", 124), ("Delete", 112),
  ("Space", 62), ("Enter", 66), ("NumpadEnter", 160), ("Tab", 61), ("Escape", 111),
  ("Backspace", 67), ("AltLeft", 57), ("AltRight", 58), ("ShiftLeft", 59), ("ShiftRight", 60),
  ("ControlLeft", 113), ("ControlRight", 114), ("MetaLeft", 117), ("MetaRight", 118),
  ("CapsLock", 115), ("NumLock", 143), ("ScrollLock", 116), ("PrintScreen", 120), ("Pause", 121),
  ("ContextMenu", 82), ("Backquote", 68), ("Minus", 69), ("Equal", 70), ("BracketLeft", 71),
  ("BracketRight", 72), ("Backslash", 73), ("IntlBackslash", 73), ("Semicolon", 74),
  ("Quote", 75), ("Comma", 55), ("Period", 56), ("Slash", 76), ("F1", 131), ("F2", 132),
  ("F3", 133), ("F4", 134), ("F5", 135), ("F6", 136), ("F7", 137), ("F8", 138), ("F9", 139),
  ("F10", 140), ("F11", 141), ("F12", 142), ("Numpad0", 144), ("Numpad1", 145),
  ("Numpad2", 146), ("Numpad3", 147), ("Numpad4", 148), ("Numpad5", 149), ("Numpad6", 150),
  ("Numpad7", 151), ("Numpad8", 152), ("Numpad9", 153), ("NumpadDivide", 154),
  ("NumpadMultiply", 155), ("NumpadSubtract", 156), ("NumpadAdd", 157), ("NumpadDecimal", 158),
  ("NumpadComma", 159), ("NumpadEqual", 161), ("NumpadParenLeft", 162),
  ("NumpadParenRight", 163)] ++
  (List.range 26).map (fun i => ("Key" ++ String.singleton (Char.ofNat (65 + i)), 29 + i)) ++
  (List.range 10).map (fun i => ("Digit" ++ String.singleton (Char.ofNat (48 + i)), 7 + i))

def mapKeyboardCode (code : String) : Option Nat := keycodes.lookup code

def shiftOn : Nat := 0x0001
def altOn : Nat := 0x0002
def ctrlOn : Nat := 0x1000
def metaOn : Nat := 0x10000

/-! ### Keymaps -/

/-- A point of the picture; in a keymap both coordinates are parts of 1. -/
structure Position where
  x : Rat
  y : Rat
  deriving DecidableEq

/-- `none` stands for a point that is none. -/
inductive Action where
  | tap (point : Option Position)
  | swipe (start finish : Option Position) (durationMs : Nat)
  | rawKey (code : Option String) (keycode : Option Int)
  | hold (point : Option Position)
  deriving DecidableEq

/-- A binding; an action of no known type is `none`. -/
structure Binding where
  key : String
  action : Option Action

abbrev Bindings := List Binding

/-- The first binding of the key that has an action. -/
def indexKeymap (keymap : Bindings) (code : String) : Option Action :=
  keymap.findSome? fun binding => if binding.key = code then binding.action else none

def rawKeycode (code : Option String) (keycode : Option Int) : Option Nat :=
  match keycode.filter fun k => 1 ≤ k && k ≤ 1000 with
  | some k => some k.toNat
  | none => code.bind mapKeyboardCode

/-! ### What goes out -/

inductive Phase where
  | down | up
  deriving DecidableEq, Repr

/-- Messages to the device; `key` has the phase as action 0 or 1. -/
inductive Message where
  | tap (point : Position)
  | swipe (start finish : Position) (duration : Nat)
  | key (phase : Phase) (keycode : Nat) (isRepeat : Bool) (meta_ : Nat)
  | touch (phase : Phase) (pointerId : Nat) (point : Position)
  deriving DecidableEq

inductive InputEvent where
  | keyDown (code : String) (isRepeat : Bool) (meta_ : Nat)
  | keyUp (code : String) (meta_ : Nat)
  deriving DecidableEq, Repr

/-- What has gone out: to the device for a bound key, to the server's keymap, or to the keyboard. -/
inductive Entry where
  | mapped (code : String) (message : Message)
  | input (event : InputEvent)
  | fallbackDown (code : String)
  | fallbackUp (code : String)
  | fallbackReleaseAll
  deriving DecidableEq

/-! ### The controller -/

/-- An option of the controller: its own value, a shared one, or what a function returns. -/
inductive Flag (α : Type) where
  | value (a : α)
  | ref (a : α)
  | provider

/-- `readValue`. -/
def Flag.read {α : Type} (flag : Flag α) (provided : α) : α :=
  match flag with
  | .value a | .ref a => a
  | .provider => provided

/-- What the callbacks of the controller return during one call, and which of its sends succeed. -/
structure Outside where
  keymap : Bindings
  isEnabled : Bool
  mode : String
  remote : Option Bool
  coordinateMapper : Option (Position → Option Position)
  videoSize : Option (Rat × Rat)
  keyMeta : Nat
  sendControl : Message → Bool
  sendStateControl : Message → Bool
  sendInputEvent : InputEvent → Bool

/-- An empty code stands for an event without one. -/
structure KeyEvent where
  code : String
  isRepeat : Bool
  ignoredTarget : Bool
  defaultPrevented : Bool
  isComposing : Bool
  shiftKey : Bool
  ctrlKey : Bool
  altKey : Bool
  metaKey : Bool
  meta_ : Nat

structure Held where
  action : Action
  touch : Option (Position × Nat)

structure Controller where
  hasGetKeymap : Bool
  keymapSource : Flag Bindings
  active : Bool
  hasIsEnabled : Bool
  mode : Flag String
  remote : Flag (Option Bool)
  held : Table String Held
  remoteHeld : List String
  suppressedKeyups : List String
  log : List Entry

inductive Result where
  | ignored
  | notInput
  | fallback
  | remote (sent : Bool)
  | mapped (action : Action) (code : String) (sent : Bool)
  | swallowed

def eventCode (e : KeyEvent) : Option String := if e.code = "" then none else some e.code

namespace Controller

def getCurrentKeymap (s : Controller) (o : Outside) : Bindings :=
  if s.hasGetKeymap then o.keymap else s.keymapSource.read o.keymap

def routerEnabled (s : Controller) (o : Outside) : Bool :=
  if s.hasIsEnabled then o.isEnabled else s.active

def remoteEnabled (s : Controller) (o : Outside) : Bool := s.remote.read o.remote = some true

def modeIsText (s : Controller) (o : Outside) : Bool := s.mode.read o.mode = "text"

def emit (s : Controller) (e : Entry) : Controller := { s with log := e :: s.log }

def suppress (s : Controller) (code : String) : Controller :=
  { s with suppressedKeyups := s.suppressedKeyups.insert code }

def fallbackDown (s : Controller) (e : KeyEvent) : Controller × Result :=
  (s.emit (.fallbackDown e.code), .fallback)

def fallbackUp (s : Controller) (e : KeyEvent) : Controller × Result :=
  (s.emit (.fallbackUp e.code), .fallback)

def emitInput (s : Controller) (o : Outside) (e : InputEvent) : Controller :=
  if o.sendInputEvent e then s.emit (.input e) else s

def forwardRemoteInput (s : Controller) (o : Outside) (e : KeyEvent) (phase : Phase) :
    Controller × Result :=
  match eventCode e, phase with
  | none, _ => (s, .notInput)
  | some code, .down =>
    let event := .keyDown code e.isRepeat e.meta_
    let s := s.emitInput o event
    ({ s with remoteHeld := s.remoteHeld.insert code }, .remote (o.sendInputEvent event))
  | some code, .up =>
    let event := .keyUp code e.meta_
    let s := s.emitInput o event
    ({ s with remoteHeld := s.remoteHeld.filter (· ≠ code) }, .remote (o.sendInputEvent event))

/-! ### Messages -/

/-- `Math.round`. -/
def round (x : Rat) : Rat := (x + 1 / 2).floor

def pointFor (o : Outside) (point : Position) : Position :=
  match o.coordinateMapper.bind fun f => f point with
  | some mapped => mapped
  | none =>
    match o.videoSize with
    | some (width, height) =>
      if 0 < width ∧ 0 < height then ⟨round (point.x * width), round (point.y * height)⟩
      else point
    | none => point

/-- The message of an action that is sent at once. -/
def pointMessage (o : Outside) : Action → Option Message
  | .tap point => point.map fun p => .tap (pointFor o p)
  | .swipe start finish durationMs =>
    match start, finish with
    | some p, some q => some (.swipe (pointFor o p) (pointFor o q) durationMs)
    | _, _ => none
  | _ => none

def keyMetaForEvent (o : Outside) : Option KeyEvent → Nat
  | none => o.keyMeta
  | some e => o.keyMeta ||| (if e.shiftKey then shiftOn else 0) |||
      (if e.ctrlKey then ctrlOn else 0) ||| (if e.altKey then altOn else 0) |||
      (if e.metaKey then metaOn else 0)

def rawMessage (o : Outside) (code : Option String) (keycode : Option Int) (e : Option KeyEvent)
    (phase : Phase) : Option Message :=
  (rawKeycode code keycode).map fun k =>
    .key phase k (phase = .down && e.any fun e => e.isRepeat) (keyMetaForEvent o e)

def allocatePointerId (s : Controller) : Option Nat :=
  (List.range' 1 31).find? fun id =>
    !s.held.values.any fun item => item.touch.any fun touch => touch.2 = id

/-- What is sent to let go of a held action. -/
def upMessage (o : Outside) (e : Option KeyEvent) (current : Held) : Option Message :=
  match current.action with
  | .rawKey code keycode => rawMessage o code keycode e .up
  | .hold _ => current.touch.map fun touch => .touch .up touch.2 touch.1
  | _ => none

/-! ### Handlers -/

/-- The action is held from now on. -/
def hold (s : Controller) (code : String) (m : Message) (item : Held) : Controller :=
  { s.emit (.mapped code m) with held := s.held.set code item }

/-- A keydown with an action that is not held yet. -/
def start (s : Controller) (o : Outside) (e : KeyEvent) (action : Action) : Controller × Result :=
  match action with
  | .tap _ | .swipe .. =>
    match (if e.isRepeat then none else pointMessage o action).filter o.sendControl with
    | some m => (s.hold e.code m ⟨action, none⟩, .mapped action e.code true)
    | none => s.fallbackDown e
  | .rawKey code keycode =>
    match (rawMessage o code keycode (some e) .down).filter o.sendStateControl with
    | some m => (s.hold e.code m ⟨action, none⟩, .mapped action e.code true)
    | none => (s.suppress e.code, .mapped action e.code false)
  | .hold point =>
    match if e.isRepeat then none else point, s.allocatePointerId with
    | some p, some id =>
      let m := .touch .down id (pointFor o p)
      if o.sendStateControl m then
        (s.hold e.code m ⟨action, some (pointFor o p, id)⟩, .mapped action e.code true)
      else (s.suppress e.code, .mapped action e.code false)
    | _, _ => (s.suppress e.code, .mapped action e.code false)

def handleKeydown (s : Controller) (o : Outside) (e : KeyEvent) : Controller × Result :=
  if e.defaultPrevented || e.isComposing || e.ignoredTarget then (s, .ignored)
  else if s.remoteEnabled o && !s.modeIsText o then s.forwardRemoteInput o e .down
  else if e.code = "" || !s.routerEnabled o || s.modeIsText o then s.fallbackDown e
  else
    match indexKeymap (s.getCurrentKeymap o) e.code, s.held.get e.code with
    | none, _ => s.fallbackDown e
    | some action, none => s.start o e action
    | some _, some current =>
      match current.action, e.isRepeat with
      | .rawKey code keycode, true =>
        match (rawMessage o code keycode (some e) .down).filter o.sendStateControl with
        | some m => (s.emit (.mapped e.code m), .mapped current.action e.code true)
        | none => (s, .mapped current.action e.code false)
      | _, _ => (s, .mapped current.action e.code false)

/-- Let go of what is held under the code; says whether that succeeded. -/
def letGo (s : Controller) (o : Outside) (e : Option KeyEvent) (code : String) (current : Held) :
    Controller × Bool :=
  let s := { s with held := s.held.del code }
  match current.action with
  | .tap _ | .swipe .. => (s, true)
  | _ =>
    match (upMessage o e current).filter o.sendStateControl with
    | some m => (s.emit (.mapped code m), true)
    | none => (s, false)

def handleKeyup (s : Controller) (o : Outside) (e : KeyEvent) : Controller × Result :=
  let code := eventCode e
  let owned := code.any fun c =>
    s.remoteHeld.contains c || (s.held.get c).isSome || s.suppressedKeyups.contains c
  if e.ignoredTarget && !owned then (s, .ignored)
  else if s.remoteEnabled o || code.any fun c => s.remoteHeld.contains c then
    s.forwardRemoteInput o e .up
  else
    match code with
    | none => s.fallbackUp e
    | some c =>
      if s.suppressedKeyups.contains c then
        ({ s with suppressedKeyups := s.suppressedKeyups.filter (· ≠ c) }, .swallowed)
      else
        match s.held.get c with
        | none => s.fallbackUp e
        | some current =>
          let (s, sent) := s.letGo o (some e) c current
          (s, .mapped current.action c sent)

/-- Lets go of the codes in turn and counts how many could be released. -/
def releaseCodes (o : Outside) (suppressKeyups : Bool) : List String → Controller → Controller × Nat
  | [], s => (s, 0)
  | code :: rest, s =>
    match s.held.get code with
    | none => releaseCodes o suppressKeyups rest s
    | some current =>
      let (s, sent) := s.letGo o none code current
      let s := if suppressKeyups then s.suppress code else s
      let (s, released) := releaseCodes o suppressKeyups rest s
      (s, released + if sent then 1 else 0)

/-- In the order in which they were pressed. -/
def releaseMapped (s : Controller) (o : Outside) (suppressKeyups : Bool) : Controller × Nat :=
  releaseCodes o suppressKeyups s.held.keys.reverse s

def releaseRemote (o : Outside) : List String → Controller → Controller × Nat
  | [], s => ({ s with remoteHeld := [] }, 0)
  | code :: rest, s =>
    let event := .keyUp code 0
    let (s, released) := releaseRemote o rest (s.emitInput o event)
    (s, released + if o.sendInputEvent event then 1 else 0)

/-- With the number of keys the server and the device were told to release. -/
def releaseAll (s : Controller) (o : Outside) : Controller × Nat × Nat :=
  let (s, remoteReleased) := releaseRemote o s.remoteHeld s
  let (s, mappedReleased) := s.releaseMapped o false
  (s.emit .fallbackReleaseAll, remoteReleased, mappedReleased)

def switchMode (s : Controller) (o : Outside) : Controller :=
  let codes := s.held.keys.reverse
  codes.foldl suppress (s.releaseMapped o true).1

def setKeymap (s : Controller) (o : Outside) (next : Bindings) : Controller :=
  { s.switchMode o with keymapSource := .value next }

/-- Only a shared mode can be set. -/
def setMode (s : Controller) (o : Outside) (next : String) : Controller :=
  let s := s.switchMode o
  match s.mode with
  | .ref _ => { s with mode := .ref next }
  | _ => s

def setEnabled (s : Controller) (o : Outside) (value : Bool) : Controller :=
  { if value then s else (s.releaseAll o).1 with active := value }

/-- `none` stands for a value that is neither `true` nor `false`. -/
def setRemote (s : Controller) (value : Option Bool) : Controller :=
  let s := if value = some false then { s with remoteHeld := [] } else s
  match s.remote with
  | .ref _ => { s with remote := .ref value }
  | _ => { s with remote := .value value }

end Controller

/-! ### Calls -/

inductive Call where
  | keydown (e : KeyEvent)
  | keyup (e : KeyEvent)
  | releaseAll
  | setKeymap (next : Bindings)
  | setMode (next : String)
  | setEnabled (value : Bool)
  | setRemote (value : Option Bool)

/-- A controller and the calls it has had, newest first. -/
structure Session where
  ctl : Controller
  history : List Call

def Controller.handle (s : Controller) (o : Outside) : Call → Controller
  | .keydown e => (s.handleKeydown o e).1
  | .keyup e => (s.handleKeyup o e).1
  | .releaseAll => (s.releaseAll o).1
  | .setKeymap next => s.setKeymap o next
  | .setMode next => s.setMode o next
  | .setEnabled value => s.setEnabled o value
  | .setRemote value => s.setRemote value

def step (s : Session) (call : Call × Outside) : Option Session :=
  some ⟨s.ctl.handle call.2 call.1, call.1 :: s.history⟩

/-- A controller that has just been created. -/
structure Controller.IsNew (s : Controller) : Prop where
  held : s.held = ∅
  remoteHeld : s.remoteHeld = []
  suppressedKeyups : s.suppressedKeyups = []
  log : s.log = []

end Gamer.Keymap
