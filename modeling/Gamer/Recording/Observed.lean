import Gamer.Recording.Session

/-! What a session observes of its device: touches, keys and texts that were sent. A press is kept
    until its release comes, and the two are one event:

        down ▶ touch / keys / named_keys ▶ up ─▶ emit       no down, or no room: an issue  -/

namespace Gamer.Recording.Service
open Gamer.Lib Gamer.Lib.Prog Gamer.Core

/-- `json!` of an object with these members. -/
def object (members : List (String × Json)) : Json :=
  .obj (members.foldl (fun entries m => Json.insertKey m.1 m.2 entries) [])

def number (n : Nat) : Json := .num (toString n)

def absDiff (a b : Nat) : Nat := (a - b) + (b - a)

def TouchGesture.drift (g : TouchGesture) (x y : Nat) : Nat :=
  max g.maxDrift (max (absDiff g.x0 x) (absDiff g.y0 y))

def TouchGesture.kindAfter (g : TouchGesture) (duration : Nat) : String :=
  if g.unsupported then "gesture_unsupported"
  else if tapMaxDrift < g.maxDrift then "swipe"
  else if 700000 < duration then "long_press"
  else "tap"

def point (p : Nat × Nat × Nat) : Json := .arr [number p.1, number p.2.1, number p.2.2]

def TouchGesture.payload (g : TouchGesture) (kind : String) (x y duration : Nat) : Json :=
  let members := [("x", number g.x0), ("y", number g.y0), ("duration_us", number duration)]
  if kind = "tap" then object members
  else object (members ++ [("x2", number x), ("y2", number y), ("points", .arr (g.points.map point))])

def issue (text : String) : Section Unit := .change fun w => w.evidenceIssue text

/-- An observer does nothing unless the session records. -/
def whileRecording (k : World → Section Unit) : Section Unit := .reading fun w =>
  if w.st.info.state = .recording then k w else .give ()

def SessionState.dropTouch (st : SessionState) (pointerId : Nat) : SessionState :=
  { st with touch := st.touch.del pointerId }

/-- The finger goes down, and every other one that is down makes the gesture unsupported. -/
def SessionState.press (st : SessionState) (pointerId x y nowUs : Nat) (op : String) : SessionState :=
  let simultaneous := !st.touch.isEmpty
  let others := st.touch.map fun g => { g with unsupported := true }
  let gesture : TouchGesture := ⟨x, y, x, y, nowUs, op, 0, simultaneous, [(0, x, y)]⟩
  { st with touch := others.set pointerId gesture }

def SessionState.drag (st : SessionState) (pointerId x y nowUs : Nat) : SessionState :=
  { st with touch := st.touch.modify pointerId fun g =>
      let g := { g with lastX := x, lastY := y, maxDrift := g.drift x y }
      if g.points.length < 256 then { g with points := g.points ++ [(nowUs - g.downUs, x, y)] }
      else { g with unsupported := true } }

def onTouchDown (pointerId x y nowUs : Nat) : Section Unit := .reading fun w =>
  if maxActiveGestures ≤ w.st.touch.entries.length then issue "gesture_limit_exceeded"
  else
    (match w.st.touch.get pointerId with
      | none => .give ()
      | some old =>
        .change (fun w => w.setState (w.st.dropTouch pointerId)) >>= fun _ =>
        emit "gesture_incomplete" (object [("reason", .str "repeated_down"),
          ("duration_us", number (nowUs - old.downUs))]) old.downUs old.operationId) >>= fun _ =>
    nextOp fun op => .change fun w => w.setState (w.st.press pointerId x y nowUs op)

def onTouchUp (pointerId x y nowUs : Nat) : Section Unit := .reading fun w =>
  match w.st.touch.get pointerId with
  | some g =>
    let duration := nowUs - g.downUs
    let g := { g with maxDrift := g.drift x y, points := g.points ++ [(duration, x, y)] }
    let kind := g.kindAfter duration
    .change (fun w => w.setState (w.st.dropTouch pointerId)) >>= fun _ =>
    emit kind (g.payload kind x y duration) g.downUs g.operationId
  | none =>
    issue "touch_up_without_down" >>= fun _ =>
    nextOp fun op => emit "gesture_incomplete" (object [("reason", .str "up_without_down"),
      ("x", number x), ("y", number y)]) nowUs op

def onTouchMove (pointerId x y nowUs : Nat) : Section Unit := .reading fun w =>
  match w.st.touch.get pointerId with
  | some _ => .change fun w => w.setState (w.st.drag pointerId x y nowUs)
  | none => issue "move_without_down"

def onTouchOther (action pointerId nowUs : Nat) : Section Unit := .reading fun w =>
  (match w.st.touch.get pointerId with
    | none => .give ()
    | some g =>
      .change (fun w => w.setState (w.st.dropTouch pointerId)) >>= fun _ =>
      emit "gesture_unsupported" (object [("reason", .str "unsupported_touch_action"),
        ("action", number action), ("duration_us", number (nowUs - g.downUs))])
        g.downUs g.operationId) >>= fun _ =>
  issue ("unsupported_touch_action: " ++ toString action)

def onTouch (action pointerId x y : Nat) : Section Unit := whileRecording fun w =>
  if action = touchDown then onTouchDown pointerId x y w.elapsedUs
  else if action = touchUp then onTouchUp pointerId x y w.elapsedUs
  else if action = 2 then onTouchMove pointerId x y w.elapsedUs
  else onTouchOther action pointerId w.elapsedUs

/-! ### Keys -/

def onKeyDown (code nowUs : Nat) : Section Unit := .reading fun w =>
  if (w.st.keys.get code).isSome then .give ()
  else if maxActiveGestures ≤ w.st.keys.entries.length then issue "key_limit_exceeded"
  else nextOp fun op =>
    .change fun w => w.setState { w.st with keys := w.st.keys.set code ⟨nowUs, op⟩ }

def onKeyUp (code nowUs : Nat) : Section Unit := .reading fun w =>
  match w.st.keys.get code with
  | some p =>
    .change (fun w => w.setState { w.st with keys := w.st.keys.del code }) >>= fun _ =>
    emit "key" (object [("code", number code), ("duration_us", number (nowUs - p.downUs))])
      p.downUs p.operationId
  | none =>
    issue "key_up_without_down" >>= fun _ =>
    nextOp fun op => emit "key_incomplete" (object [("code", number code)]) nowUs op

def onKey (action code : Nat) : Section Unit := whileRecording fun w =>
  if action = keyDown then onKeyDown code w.elapsedUs
  else if action = keyUp then onKeyUp code w.elapsedUs
  else .give ()

def onNamedKeyDown (name : String) (now : Nat) : Section Unit := .reading fun w =>
  if (w.st.namedKeys.get name).isSome then .give ()
  else if maxActiveGestures ≤ w.st.namedKeys.entries.length then issue "named_key_limit_exceeded"
  else nextOp fun op =>
    .change fun w => w.setState { w.st with namedKeys := w.st.namedKeys.set name ⟨now, op⟩ }

def onNamedKeyUp (name : String) (now : Nat) : Section Unit := .reading fun w =>
  match w.st.namedKeys.get name with
  | some key =>
    .change (fun w => w.setState { w.st with namedKeys := w.st.namedKeys.del name }) >>= fun _ =>
    emit "key" (object [("code", .str name), ("duration_us", number (now - key.downUs))])
      key.downUs key.operationId
  | none =>
    nextOp fun op => issue "named_key_up_without_down" >>= fun _ =>
    emit "key_incomplete" (object [("code", .str name)]) now op

def onNamedKey (action name : String) : Section Unit := whileRecording fun w =>
  if action = "down" then onNamedKeyDown name w.elapsedUs
  else if action = "up" then onNamedKeyUp name w.elapsedUs
  else if action = "press" then nextOp fun op =>
    emit "key" (object [("code", .str name), ("duration_us", number 0)]) w.elapsedUs op
  else nextOp fun op =>
    emit "key_incomplete" (object [("code", .str name), ("reason", .str "unsupported_key_action")])
      w.elapsedUs op

/-- A text is kept as its length. -/
def onText (text : String) : Section Unit := whileRecording fun w =>
  nextOp fun op => emit "text" (object [("length", number text.length)]) w.elapsedUs op

/-- The input of a browser that is none of the known kinds. -/
def onUnsupported (inputType : Json) : Section Unit := whileRecording fun w =>
  nextOp fun op => emit "input_unsupported" (object [("input_type", inputType),
    ("reason", .str "unsupported_browser_input")]) w.elapsedUs op

/-- One observed input. -/
inductive Input where
  | touch (action pointerId x y : Nat)
  | key (action code : Nat)
  | namedKey (action name : String)
  | text (text : String)
  | unsupported (inputType : Json)

def observe : Input → Section Unit
  | .touch action pointerId x y => onTouch action pointerId x y
  | .key action code => onKey action code
  | .namedKey action name => onNamedKey action name
  | .text text => onText text
  | .unsupported inputType => onUnsupported inputType

end Gamer.Recording.Service
