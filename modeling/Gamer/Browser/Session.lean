import Mathlib.Data.Rat.Defs
import Gamer.Lib.Table
import Gamer.Lib.Machine
import Gamer.Lib.Presses
import Gamer.Browser.Keys

/-! The inputs of one bound browser page. Every operation that touches what is held takes the
    session's gate first, so that there is at most one of them at a time; what goes on around it is
    the page, which may navigate, the connection, which may break, and the caller, who may go away
    at any await point and leave the sets as they are.

        ready ──▶ viewport ──▶ checked ──▶ sent ──▶ second ──▶ (done)
          │ error    │            │          │         │
          └──────────┴────────────┴──────────┴─────────┴──▶ exitLock ──▶ drain ──▶ keysUp ──▶
                                                                                 buttonsUp    -/

namespace Gamer.Browser
open Gamer.Lib

inductive Button where
  | left | right | middle
  deriving DecidableEq, Repr

/-- What can be held down in the page. -/
inductive Thing where
  | key (code : String)
  | mouse (button : Button)
  deriving DecidableEq, Repr

structure FrameStamp where
  target : String
  epoch : String
  revision : Nat
  deriving DecidableEq, Repr

inductive PointingKind where
  | tap | pointer | scroll
  deriving DecidableEq, Repr

/-- A caller's input. Fields of the wrong type read as absent. -/
inductive Value where
  | pointing (kind : PointingKind) (x y : Option Rat) (button action : Option String)
  | key (name action : Option String)
  | text (text : Option String)
  | other (kind : String)
  deriving DecidableEq

def Value.isPointing : Value → Bool
  | .pointing .. => true
  | _ => false

inductive MouseEvent where
  | mousePressed | mouseWheel | mouseReleased | mouseMoved
  deriving DecidableEq, Repr

inductive KeyAction where
  | press | down | up
  deriving DecidableEq, Repr

/-- The first dispatched call of an input. -/
inductive Call where
  | mouse (event : MouseEvent) (button : Button) (tap : Bool)
  | key (code : String) (action : KeyAction)
  | text
  deriving DecidableEq, Repr

def Call.presses : Call → Option Thing
  | .mouse .mousePressed button _ => some (.mouse button)
  | .key code .press | .key code .down => some (.key code)
  | _ => none

def Call.lifts : Call → Option Thing
  | .mouse .mouseReleased button _ => some (.mouse button)
  | .key code .up => some (.key code)
  | _ => none

/-- Who runs `input_locked`. -/
inductive Purpose where
  | input
  | contact (id : Nat) (action : String) (stamp : FrameStamp)
  deriving DecidableEq

/-- What follows `release_locked`. -/
inductive Afterwards where
  | refuse (message : String)
  | return
  | reload
  deriving DecidableEq

inductive InputPhase where
  | ready (expected : Option FrameStamp)
  | viewport (stamp : FrameStamp)
  | checked (stamp : FrameStamp) (call : Call)
  | sent (call : Call)
  | second (thing : Thing)
  deriving DecidableEq

/-- `release_locked`, by the call that is out; the rest of what it has drained stands behind. -/
inductive ReleasePhase where
  | exitLock
  | drain
  | keysUp (code : String) (rest : List String)
  | buttonsUp (button : Button) (rest : List Button)
  deriving DecidableEq

/-- What the holder of the gate is at. -/
inductive Task where
  | inputting (purpose : Purpose) (value : Value) (phase : InputPhase)
  | releasing (afterwards : Afterwards) (phase : ReleasePhase)
  | reloading
  | rebinding
  deriving DecidableEq

structure Session where
  id : String
  epoch : String
  width : Nat
  height : Nat
  closed : Bool
  connected : Bool
  revision : Nat
  inputRevision : Nat
  keys : Table String String
  buttons : List Button
  contact : Option (Nat × FrameStamp)
  current : Option Task
  /-- The results of the operations so far. -/
  results : List (Except String Unit)
  /-- What the page may have been told to press and has certainly been told to release. -/
  log : List (Press Thing)

/-- What callers ask for. -/
inductive Request where
  | input (value : Value) (expected : Option FrameStamp)
  | manualInput (value : Value) (expected : FrameStamp)
  | mappedContact (id : Nat) (action : String) (x y : Nat) (manual : Option FrameStamp)
  | releaseManual
  | releaseInputs
  | reload (expected : Option FrameStamp)
  | rebind
  deriving DecidableEq

/-- What the page's answer holds. -/
inductive Content where
  | expected
  | moved
  | unusable (message : String)
  deriving DecidableEq

/-- How a call ends: a failed one may have been delivered. -/
inductive Reply where
  | ok (content : Content)
  | refused (message : String)
  | failed (message : String)
  deriving DecidableEq

inductive Move where
  /-- The gate is taken. `allowed` is what the task runs and the control registry say. -/
  | start (request : Request) (allowed : Bool)
  /-- The second validation and the dispatched call. -/
  | dispatch
  | answer (reply : Reply)
  /-- The held keys are drained, in an order of the map's own. -/
  | drain (names : List String)
  /-- The caller goes away. -/
  | drop
  | close
  | disconnect
  | navigate
  deriving DecidableEq

namespace Session

def isAlive (s : Session) : Bool := !s.closed && s.connected

def stamp (s : Session) : FrameStamp := ⟨s.id, s.epoch, s.revision⟩

def validate (s : Session) (stamp : FrameStamp) : Except String Unit :=
  if !s.isAlive then .error "浏览器目标已断开"
  else if stamp ≠ s.stamp then .error "画面或目标已变化，请重新取帧后操作"
  else .ok ()

def invalidate (s : Session) : Session :=
  { s with closed := true, revision := s.revision + 1 }

/-- Go on to the task's next phase. -/
def goto (s : Session) (task : Task) : Session := { s with current := some task }

/-- The operation ends and gives the gate back. -/
def finish (s : Session) (result : Except String Unit) : Session :=
  { s with current := none, results := result :: s.results }

/-! ### Releasing -/

def beginRelease (s : Session) (afterwards : Afterwards) : Session :=
  s.goto (.releasing afterwards .exitLock)

/-- All is released. -/
def released (s : Session) : Afterwards → Session
  | .refuse message => s.finish (.error message)
  | .return => s.finish (.ok ())
  | .reload => { s with revision := s.revision + 1 }.goto .reloading

def releaseButtons (s : Session) (afterwards : Afterwards) : List Button → Session
  | [] => s.released afterwards
  | button :: rest => s.goto (.releasing afterwards (.buttonsUp button rest))

def takeButtons (s : Session) (afterwards : Afterwards) : Session :=
  { s with buttons := [] }.releaseButtons afterwards
    ([Button.left, .right, .middle].filter fun button => s.buttons.contains button)

def releaseKeys (s : Session) (afterwards : Afterwards) : List String → Session
  | [] => s.takeButtons afterwards
  | code :: rest => s.goto (.releasing afterwards (.keysUp code rest))

/-- The answer to a releasing call: a failure retires the session. -/
def lifted (s : Session) (thing : Thing) : Reply → Session
  | .ok _ => { s with log := .up thing :: s.log }
  | .refused _ | .failed _ => s.invalidate

/-! ### Inputs -/

/-- `input_locked` has failed. -/
def fail (s : Session) (purpose : Purpose) (message : String) : Session :=
  match purpose with
  | .input => s.beginRelease (.refuse message)
  | .contact .. => { s with contact := none }.beginRelease (.refuse message)

/-- `input_locked` has succeeded. -/
def succeed (s : Session) (purpose : Purpose) : Session :=
  match purpose with
  | .input => s.finish (.ok ())
  | .contact id action stamp =>
    { s with contact := if action = "up" then none else some (id, stamp) }.finish (.ok ())

def parseButton (button : Option String) : Except String Button :=
  match button.getD "left" with
  | "left" => .ok .left
  | "right" => .ok .right
  | "middle" => .ok .middle
  | _ => .error "未知鼠标按钮"

def mouseEvent (kind : PointingKind) (action : Option String) : Except String MouseEvent :=
  match kind with
  | .tap => .ok .mousePressed
  | .scroll => .ok .mouseWheel
  | .pointer =>
    match action.getD "move" with
    | "down" => .ok .mousePressed
    | "up" => .ok .mouseReleased
    | "move" => .ok .mouseMoved
    | _ => .error "未知指针操作"

def keyAction (action : Option String) : Except String KeyAction :=
  match action.getD "press" with
  | "press" => .ok .press
  | "down" => .ok .down
  | "up" => .ok .up
  | _ => .error "未知按键操作"

/-- The buttons held once the event is on its way. -/
def buttonsFor (s : Session) (event : MouseEvent) (button : Button) : List Button :=
  match event with
  | .mousePressed => s.buttons.insert button
  | .mouseReleased => s.buttons.filter (· ≠ button)
  | .mouseWheel | .mouseMoved => s.buttons

/-- A pointing input from the viewport's answer on. -/
def pointAt (s : Session) (purpose : Purpose) (value : Value) (stamp : FrameStamp) : Session :=
  match value with
  | .pointing kind (some x) (some y) button action =>
    if 0 ≤ x ∧ 0 ≤ y ∧ x < s.width ∧ y < s.height then
      match parseButton button, mouseEvent kind action with
      | .ok b, .ok event =>
        { s with buttons := s.buttonsFor event b }.goto
          (.inputting purpose value (.checked stamp (.mouse event b (kind == PointingKind.tap))))
      | .error e, _ | _, .error e => s.fail purpose e
    else s.fail purpose "坐标超出画面"
  | _ => s.fail purpose "缺少坐标"

/-- The keys held once the event is on its way. -/
def keysFor (s : Session) (info : KeyInfo) : KeyAction → Table String String
  | .up => s.keys.del info.code
  | .press | .down => s.keys.set info.code info.key

def pressKey (s : Session) (purpose : Purpose) (value : Value) (stamp : FrameStamp)
    (name action : Option String) : Session :=
  match name with
  | none => s.fail purpose "缺少按键"
  | some name =>
    match keyInfo name, keyAction action with
    | .ok info, .ok act =>
      { s with keys := s.keysFor info act }.goto
        (.inputting purpose value (.checked stamp (.key info.code act)))
    | .error e, _ | _, .error e => s.fail purpose e

/-- `input_locked` from the page's first answer on. -/
def enter (s : Session) (purpose : Purpose) (value : Value) (expected : Option FrameStamp) :
    Session :=
  let stamp := expected.getD s.stamp
  match s.validate stamp with
  | .error e => s.fail purpose e
  | .ok () =>
    if s.inputRevision ≠ stamp.revision ∧ ¬ (s.keys.isEmpty ∧ s.buttons = []) then
      s.fail purpose "页面已变化，原有按住操作已终止"
    else
      let s := { s with inputRevision := stamp.revision }
      match value with
      | .pointing _ (some _) (some _) _ _ => s.goto (.inputting purpose value (.viewport stamp))
      | .pointing _ none _ _ _ => s.fail purpose "缺少坐标 x"
      | .pointing _ (some _) none _ _ => s.fail purpose "缺少坐标 y"
      | .key name action => s.pressKey purpose value stamp name action
      | .text none => s.fail purpose "缺少文本"
      | .text (some t) =>
        if t.utf8ByteSize ≤ 16 * 1024 then s.goto (.inputting purpose value (.sent .text))
        else s.fail purpose "文本过长"
      | .other kind => s.fail purpose ("浏览器不支持此操作: " ++ kind)

/-- The keys held once a key's last event is delivered. -/
def keyDone (s : Session) (code : String) : KeyAction → Session
  | .down => s
  | .press | .up => { s with keys := s.keys.del code }

/-- The dispatched call is answered with success. -/
def delivered (s : Session) (purpose : Purpose) (value : Value) (call : Call) : Session :=
  match call with
  | .mouse _ button true =>
    { s with buttons := s.buttons.filter (· ≠ button) }.goto
      (.inputting purpose value (.second (.mouse button)))
  | .key code .press => s.goto (.inputting purpose value (.second (.key code)))
  | .key code action => (s.keyDone code action).succeed purpose
  | .mouse _ _ false | .text => s.succeed purpose

/-- A call may have reached the page, and certainly has if `sure`. -/
def logCall (s : Session) (call : Call) (sure : Bool) : Session :=
  match call.presses, call.lifts with
  | some thing, _ => { s with log := .down thing :: s.log }
  | none, some thing => if sure then { s with log := .up thing :: s.log } else s
  | none, none => s

/-- The second call of a tap or a press is answered with success. -/
def secondDelivered (s : Session) (purpose : Purpose) (thing : Thing) : Session :=
  match thing with
  | .mouse _ => { s with log := .up thing :: s.log }.succeed purpose
  | .key code =>
    ({ s with log := .up thing :: s.log }.keyDone code .press).succeed purpose

/-- An input's call is answered. -/
def answerInput (s : Session) (purpose : Purpose) (value : Value) (phase : InputPhase)
    (reply : Reply) : Option Session :=
  match phase, reply with
  | .ready _, .ok (.unusable _) | .ready _, .ok .moved =>
    some (s.fail purpose "页面正在跳转，请等待后重新取帧")
  | .ready expected, .ok .expected => some (s.enter purpose value expected)
  | .viewport stamp, .ok .expected => some (s.pointAt purpose value stamp)
  | .viewport _, .ok .moved =>
    some ({ s with revision := s.revision + 1 }.fail purpose "坐标映射已变化，请重新取帧")
  | .viewport _, .ok (.unusable e) => some (s.fail purpose e)
  | .sent call, .ok _ => some ((s.logCall call true).delivered purpose value call)
  | .sent call, .failed e => some ((s.logCall call false).fail purpose e)
  | .second thing, .ok _ => some (s.secondDelivered purpose thing)
  | .checked .., _ => none
  | _, .refused e | _, .failed e => some (s.fail purpose e)

/-- A releasing call is answered. -/
def answerRelease (s : Session) (afterwards : Afterwards) (phase : ReleasePhase) (reply : Reply) :
    Option Session :=
  match phase with
  | .exitLock => some ({ s with contact := none }.goto (.releasing afterwards .drain))
  | .drain => none
  | .keysUp code rest => some ((s.lifted (.key code) reply).releaseKeys afterwards rest)
  | .buttonsUp button rest =>
    some ((s.lifted (.mouse button) reply).releaseButtons afterwards rest)

/-! ### Operations -/

/-- `check_pointer_owner`, then `input_locked`. -/
def startInput (s : Session) (value : Value) (expected : Option FrameStamp) : Session :=
  if value.isPointing ∧ s.contact.isSome then s.finish (.error "请先松开映射中的持续指针")
  else if !s.isAlive then s.fail .input "浏览器目标已断开"
  else s.goto (.inputting .input value (.ready expected))

/-- The frame a contact's action is tied to. -/
def contactStamp (s : Session) (id : Nat) (action : String) (manual : Option FrameStamp) :
    Except String FrameStamp :=
  if action = "down" then
    if s.contact.isNone ∧ s.buttons = [] then .ok (manual.getD s.stamp)
    else .error "浏览器仅支持一个持续指针，请先松开已有操作"
  else match s.contact with
    | none => .error "持续指针已释放"
    | some (held, stamp) => if held = id then .ok stamp else .error "持续指针身份不匹配"

def startContact (s : Session) (id : Nat) (action : String) (x y : Nat)
    (manual : Option FrameStamp) : Session :=
  match s.contactStamp id action manual with
  | .error e => s.finish (.error e)
  | .ok stamp =>
    let purpose := Purpose.contact id action stamp
    if !s.isAlive then s.fail purpose "浏览器目标已断开"
    else s.goto (.inputting purpose (.pointing .pointer (some x) (some y) none (some action))
      (.ready (some stamp)))

def start (s : Session) (allowed : Bool) : Request → Session
  | .input value expected => s.startInput value expected
  | .manualInput value expected =>
    if allowed then s.startInput value (some expected)
    else s.finish (.error "目标正在执行任务")
  | .mappedContact id action x y manual =>
    if manual.isSome ∧ !allowed then s.finish (.error "目标正在执行任务")
    else s.startContact id action x y manual
  | .releaseManual => if allowed then s.beginRelease .return else s.finish (.ok ())
  | .releaseInputs => s.beginRelease .return
  | .reload expected =>
    if !s.isAlive then s.finish (.error "浏览器目标已断开")
    else match expected.elim (.ok ()) s.validate with
      | .error e => s.finish (.error e)
      | .ok () => s.beginRelease .reload
  | .rebind =>
    if allowed then s.goto .rebinding else s.finish (.error "任务执行期间不能切换标签页")

/-- The page's answer to the task at the gate. -/
def answer (s : Session) (reply : Reply) : Task → Option Session
  | .inputting purpose value phase => s.answerInput purpose value phase reply
  | .releasing afterwards phase => s.answerRelease afterwards phase reply
  | .reloading =>
    match reply with
    | .ok _ => some (s.finish (.ok ()))
    | .refused e | .failed e => some (s.finish (.error e))
  | .rebinding =>
    match reply with
    | .ok _ => some (s.invalidate.finish (.ok ()))
    | .refused e | .failed e => some (s.finish (.error e))

/-- The second validation, and the call that goes out. -/
def dispatch (s : Session) : Task → Option Session
  | .inputting purpose value (.checked stamp call) =>
    match s.validate stamp with
    | .ok () => some (s.goto (.inputting purpose value (.sent call)))
    | .error e => some (s.fail purpose e)
  | _ => none

def drain (s : Session) (names : List String) : Task → Option Session
  | .releasing afterwards .drain =>
    if names.isPerm s.keys.values then
      some ({ s with keys := ∅ }.releaseKeys afterwards (names.filterMap releaseCode))
    else none
  | _ => none

/-- The task's future is dropped; a call that was out may have been delivered. -/
def dropTask (s : Session) : Task → Session
  | .inputting _ _ (.sent call) => { s.logCall call false with current := none }
  | _ => { s with current := none }

def step (s : Session) : Move → Option Session
  | .start request allowed => if s.current = none then some (s.start allowed request) else none
  | .dispatch => s.current.bind s.dispatch
  | .answer reply => s.current.bind (s.answer reply)
  | .drain names => s.current.bind (s.drain names)
  | .drop => s.current.map s.dropTask
  | .close => some s.invalidate
  | .disconnect => some { s with connected := false }
  | .navigate => some { s with revision := s.revision + 1 }

/-- A page that has just been bound. -/
def bound (id epoch : String) (width height revision : Nat) : Session :=
  { id, epoch, width, height, closed := false, connected := true, revision, inputRevision := 0,
    keys := ∅, buttons := [], contact := none, current := none, results := [], log := [] }

end Session

end Gamer.Browser
