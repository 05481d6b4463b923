import Gamer.Lib.Bytes
import Gamer.Lib.Text

/-! The control stream to a device: what each control call puts on the socket, byte by byte, and how
    the device cuts the stream into messages again.

        inject_touch     2 │ action │ pointer 8 │ x 4 │ y 4 │ w 2 │ h 2 │ pressure 2 │ 0 × 8
        inject_keycode   0 │ action │ keycode 4 │ repeat 4 │ meta 4
        inject_text      1 │ length 4 │ bytes, at most 300
        inject_scroll    3 │ x 4 │ y 4 │ w 2 │ h 2 │ hscroll 2 │ vscroll 2 │ 0 × 4
        set_clipboard    9 │ sequence 8 │ paste │ length 4 │ bytes

    A text is cut at its 300th byte, and so is the character that lies across it. -/

namespace Gamer.Device
open Gamer.Lib
open Gamer.Lib.Bytes

/-! ### Numbers -/

/-- `f32::max`: the other one where one is not a number. -/
def f32Max (a b : Float32) : Float32 :=
  if a.isNaN then b else if b.isNaN then a else if a < b then b else a

/-- `f32::min`. -/
def f32Min (a b : Float32) : Float32 :=
  if a.isNaN then b else if b.isNaN then a else if b < a then b else a

/-- `f32::clamp`: what is not a number stays so. -/
def f32Clamp (v low high : Float32) : Float32 :=
  if v < low then low else if high < v then high else v

/-- `v as i16 as u16`. -/
def asI16 (v : Float32) : Nat :=
  if v < 0.0 then (65536 - min 32768 (-v).toUInt16.toNat) % 65536
  else min 32767 v.toUInt16.toNat

structure VideoSize where
  width : UInt32
  height : UInt32

/-- A touch coordinate on a side of the picture. -/
def touchCoordinate (v : Float32) (side : UInt32) : Nat :=
  (f32Min (f32Max v 0.0) (side.toFloat32 - 1.0)).toUInt32.toNat

def encodedPressure (pressure : Float32) : Nat :=
  (f32Clamp pressure 0.0 1.0 * 65535.0).toUInt16.toNat

def encodedScroll (scroll : Float32) : Nat :=
  asI16 (f32Clamp (scroll / 16.0) (-1.0) 1.0 * 32767.0)

/-! ### Calls -/

inductive ControlCall
  | touch (action : UInt8) (pointerId : UInt64) (x y pressure : Float32)
  | keycode (action : UInt8) (keycode rep metaState : UInt32)
  | text (text : List Char)
  | scroll (x y scrollX scrollY : Float32)
  | backOrScreenOn (action : UInt8)
  | rotateDevice
  | resetVideo
  | setClipboard (text : List Char) (paste : Bool)
  | copyText

def textRoom : Nat := 300
def clipboardRoom : Nat := 131072

def encodeTouchPacket (action : UInt8) (pointerId : UInt64) (x y : Nat) (size : VideoSize)
    (pressure : Float32) : Bytes :=
  [2, action] ++ be 8 pointerId.toNat ++ be 4 x ++ be 4 y ++ be 2 size.width.toNat
    ++ be 2 size.height.toNat ++ be 2 (encodedPressure pressure) ++ List.replicate 8 0

/-- What a call writes to the control socket; a call that is refused writes nothing. -/
def callBytes (size : VideoSize) : ControlCall → Except String Bytes
  | .touch action pointerId x y pressure =>
    .ok (encodeTouchPacket action pointerId (touchCoordinate x size.width)
      (touchCoordinate y size.height) size pressure)
  | .keycode action keycode rep metaState =>
    .ok ([0, action] ++ be 4 keycode.toNat ++ be 4 rep.toNat ++ be 4 metaState.toNat)
  | .text text =>
    let bytes := utf8Bytes text
    let len := min bytes.length textRoom
    .ok ([1] ++ be 4 len ++ bytes.take len)
  | .scroll x y scrollX scrollY =>
    .ok ([3] ++ be 4 x.toUInt32.toNat ++ be 4 y.toUInt32.toNat ++ be 2 size.width.toNat
      ++ be 2 size.height.toNat ++ be 2 (encodedScroll scrollX) ++ be 2 (encodedScroll scrollY)
      ++ List.replicate 4 0)
  | .backOrScreenOn action => .ok [4, action]
  | .rotateDevice => .ok [11]
  | .resetVideo => .ok [17]
  | .setClipboard text paste =>
    let bytes := utf8Bytes text
    if bytes.length ≤ clipboardRoom then
      .ok ([9] ++ be 8 0 ++ [paste.toUInt8] ++ be 4 bytes.length ++ bytes)
    else .error "剪贴板文本超过 131072 字节"
  | .copyText => .ok [8, 1]

/-- The bytes on the socket after some calls, each with the size of the picture it read. -/
def sentBytes (calls : List (VideoSize × ControlCall)) : Bytes :=
  calls.flatMap fun sent => (callBytes sent.1 sent.2).toOption.getD []

/-! ### Messages -/

inductive ControlMessage
  | injectKeycode (action keycode rep metaState : Nat)
  | injectText (text : Bytes)
  | injectTouch (action pointerId x y width height pressure actionButton buttons : Nat)
  | injectScroll (x y width height hscroll vscroll buttons : Nat)
  | backOrScreenOn (action : Nat)
  | getClipboard (copyKey : Nat)
  | setClipboard (sequence paste : Nat) (text : Bytes)
  | rotateDevice
  | resetVideo
  deriving DecidableEq

namespace ControlMessage

/-- The type byte. -/
def kind : ControlMessage → Nat
  | injectKeycode .. => 0
  | injectText _ => 1
  | injectTouch .. => 2
  | injectScroll .. => 3
  | backOrScreenOn _ => 4
  | getClipboard _ => 8
  | setClipboard .. => 9
  | rotateDevice => 11
  | resetVideo => 17

/-- What follows the type byte. -/
def body : ControlMessage → Bytes
  | injectKeycode action keycode rep metaState =>
    be 1 action ++ be 4 keycode ++ be 4 rep ++ be 4 metaState
  | injectText text => prefixed text
  | injectTouch action pointerId x y width height pressure actionButton buttons =>
    be 1 action ++ be 8 pointerId ++ be 4 x ++ be 4 y ++ be 2 width ++ be 2 height
      ++ be 2 pressure ++ be 4 actionButton ++ be 4 buttons
  | injectScroll x y width height hscroll vscroll buttons =>
    be 4 x ++ be 4 y ++ be 2 width ++ be 2 height ++ be 2 hscroll ++ be 2 vscroll ++ be 4 buttons
  | backOrScreenOn action => be 1 action
  | getClipboard copyKey => be 1 copyKey
  | setClipboard sequence paste text => be 8 sequence ++ be 1 paste ++ prefixed text
  | rotateDevice => []
  | resetVideo => []

/-- The layouts of the protocol. -/
def encode (message : ControlMessage) : Bytes := be 1 message.kind ++ message.body

def readKeycode (bytes : Bytes) : Option (ControlMessage × Bytes) := do
  let (action, bytes) ← readBe 1 bytes
  let (keycode, bytes) ← readBe 4 bytes
  let (rep, bytes) ← readBe 4 bytes
  let (metaState, bytes) ← readBe 4 bytes
  return (injectKeycode action keycode rep metaState, bytes)

def readTouch (bytes : Bytes) : Option (ControlMessage × Bytes) := do
  let (action, bytes) ← readBe 1 bytes
  let (pointerId, bytes) ← readBe 8 bytes
  let (x, bytes) ← readBe 4 bytes
  let (y, bytes) ← readBe 4 bytes
  let (width, bytes) ← readBe 2 bytes
  let (height, bytes) ← readBe 2 bytes
  let (pressure, bytes) ← readBe 2 bytes
  let (actionButton, bytes) ← readBe 4 bytes
  let (buttons, bytes) ← readBe 4 bytes
  return (injectTouch action pointerId x y width height pressure actionButton buttons, bytes)

def readScroll (bytes : Bytes) : Option (ControlMessage × Bytes) := do
  let (x, bytes) ← readBe 4 bytes
  let (y, bytes) ← readBe 4 bytes
  let (width, bytes) ← readBe 2 bytes
  let (height, bytes) ← readBe 2 bytes
  let (hscroll, bytes) ← readBe 2 bytes
  let (vscroll, bytes) ← readBe 2 bytes
  let (buttons, bytes) ← readBe 4 bytes
  return (injectScroll x y width height hscroll vscroll buttons, bytes)

def readClipboard (bytes : Bytes) : Option (ControlMessage × Bytes) :=
  (readBe 8 bytes).bind fun sequence =>
    (readBe 1 sequence.2).bind fun paste =>
      (readPrefixed paste.2).map fun text => (setClipboard sequence.1 paste.1 text.1, text.2)

def readBody (kind : Nat) (bytes : Bytes) : Option (ControlMessage × Bytes) :=
  match kind with
  | 0 => readKeycode bytes
  | 1 => (readPrefixed bytes).map fun text => (injectText text.1, text.2)
  | 2 => readTouch bytes
  | 3 => readScroll bytes
  | 4 => (readBe 1 bytes).map fun action => (backOrScreenOn action.1, action.2)
  | 8 => (readBe 1 bytes).map fun copyKey => (getClipboard copyKey.1, copyKey.2)
  | 9 => readClipboard bytes
  | 11 => some (rotateDevice, bytes)
  | 17 => some (resetVideo, bytes)
  | _ => none

/-- Read one message, as the device does. -/
def read (bytes : Bytes) : Option (ControlMessage × Bytes) :=
  (readBe 1 bytes).bind fun kind => readBody kind.1 kind.2

/-- A number that `n` bytes can hold. -/
def FitsIn (n v : Nat) : Prop := v < 256 ^ n

instance (n v : Nat) : Decidable (FitsIn n v) := inferInstanceAs (Decidable (v < 256 ^ n))

/-- Every number fits into its field. -/
def Fits : ControlMessage → Prop
  | injectKeycode action keycode rep metaState =>
    FitsIn 1 action ∧ FitsIn 4 keycode ∧ FitsIn 4 rep ∧ FitsIn 4 metaState
  | injectText text => FitsIn 4 text.length
  | injectTouch action pointerId x y width height pressure actionButton buttons =>
    FitsIn 1 action ∧ FitsIn 8 pointerId ∧ FitsIn 4 x ∧ FitsIn 4 y ∧ FitsIn 2 width ∧
      FitsIn 2 height ∧ FitsIn 2 pressure ∧ FitsIn 4 actionButton ∧ FitsIn 4 buttons
  | injectScroll x y width height hscroll vscroll buttons =>
    FitsIn 4 x ∧ FitsIn 4 y ∧ FitsIn 2 width ∧ FitsIn 2 height ∧ FitsIn 2 hscroll ∧
      FitsIn 2 vscroll ∧ FitsIn 4 buttons
  | backOrScreenOn action => FitsIn 1 action
  | getClipboard copyKey => FitsIn 1 copyKey
  | setClipboard sequence paste text => FitsIn 8 sequence ∧ FitsIn 1 paste ∧ FitsIn 4 text.length
  | rotateDevice => True
  | resetVideo => True

theorem readBe_fits {n v : Nat} (h : FitsIn n v) (rest : Bytes) :
    readBe n (be n v ++ rest) = some (v, rest) := readBe_be h rest

theorem readPrefixed_fits {bytes : Bytes} (h : FitsIn 4 bytes.length) (rest : Bytes) :
    readPrefixed (prefixed bytes ++ rest) = some (bytes, rest) := readPrefixed_prefixed h rest

theorem readClipboard_fits {sequence paste : Nat} {text : Bytes} (hsequence : FitsIn 8 sequence)
    (hpaste : FitsIn 1 paste) (htext : FitsIn 4 text.length) (rest : Bytes) :
    readClipboard (be 8 sequence ++ be 1 paste ++ prefixed text ++ rest) =
      some (setClipboard sequence paste text, rest) := by
  rw [List.append_assoc, List.append_assoc, readClipboard, readBe_fits hsequence, Option.bind_some,
    readBe_fits hpaste, Option.bind_some, readPrefixed_fits htext, Option.map_some]

theorem readBody_body {message : ControlMessage} (h : message.Fits) (rest : Bytes) :
    readBody message.kind (message.body ++ rest) = some (message, rest) := by
  cases message with
  | injectKeycode action keycode rep metaState =>
    obtain ⟨h1, h2, h3, h4⟩ := h
    simp [readBody, kind, body, readKeycode, readBe_fits h1, readBe_fits h2, readBe_fits h3,
      readBe_fits h4]
  | injectText text => simp [readBody, kind, body, readPrefixed_fits h]
  | injectTouch action pointerId x y width height pressure actionButton buttons =>
    obtain ⟨h1, h2, h3, h4, h5, h6, h7, h8, h9⟩ := h
    simp [readBody, kind, body, readTouch, readBe_fits h1, readBe_fits h2, readBe_fits h3,
      readBe_fits h4, readBe_fits h5, readBe_fits h6, readBe_fits h7, readBe_fits h8,
      readBe_fits h9]
  | injectScroll x y width height hscroll vscroll buttons =>
    obtain ⟨h1, h2, h3, h4, h5, h6, h7⟩ := h
    simp [readBody, kind, body, readScroll, readBe_fits h1, readBe_fits h2, readBe_fits h3,
      readBe_fits h4, readBe_fits h5, readBe_fits h6, readBe_fits h7]
  | backOrScreenOn action => simp [readBody, kind, body, readBe_fits h]
  | getClipboard copyKey => simp [readBody, kind, body, readBe_fits h]
  | setClipboard sequence paste text =>
    obtain ⟨h1, h2, h3⟩ := h
    exact readClipboard_fits h1 h2 h3 rest
  | rotateDevice => rfl
  | resetVideo => rfl

theorem kind_fits (message : ControlMessage) : FitsIn 1 message.kind := by
  cases message <;> exact Nat.lt_of_sub_pos (Nat.succ_pos _)

/-- A message is read back whatever follows it. -/
theorem read_encode {message : ControlMessage} (h : message.Fits) (rest : Bytes) :
    read (message.encode ++ rest) = some (message, rest) := by
  rw [read, encode, List.append_assoc, readBe_fits message.kind_fits]
  exact readBody_body h rest

theorem encode_ne_nil (message : ControlMessage) : message.encode ≠ [] := by
  simp [encode, be]

end ControlMessage

/-! ### Framing -/

namespace ControlCall

/-- The message a call stands for, with what `cut` makes of an injected text. A call that is refused
    stands for none. -/
def message (cut : List Char → Bytes) (size : VideoSize) : ControlCall → Option ControlMessage
  | .touch action pointerId x y pressure =>
    some (.injectTouch action.toNat pointerId.toNat (touchCoordinate x size.width)
      (touchCoordinate y size.height) (size.width.toNat % 256 ^ 2) (size.height.toNat % 256 ^ 2)
      (encodedPressure pressure) 0 0)
  | .keycode action code rep metaState =>
    some (.injectKeycode action.toNat code.toNat rep.toNat metaState.toNat)
  | .text chars => some (.injectText (cut chars))
  | .scroll x y scrollX scrollY =>
    some (.injectScroll x.toUInt32.toNat y.toUInt32.toNat (size.width.toNat % 256 ^ 2)
      (size.height.toNat % 256 ^ 2) (encodedScroll scrollX) (encodedScroll scrollY) 0)
  | .backOrScreenOn action => some (.backOrScreenOn action.toNat)
  | .rotateDevice => some .rotateDevice
  | .resetVideo => some .resetVideo
  | .setClipboard chars paste =>
    if (utf8Bytes chars).length ≤ clipboardRoom then
      some (.setClipboard 0 paste.toNat (utf8Bytes chars))
    else none
  | .copyText => some (.getClipboard 1)

/-- What a call puts on the socket. -/
def actual := message fun chars => (utf8Bytes chars).take textRoom

/-- What it should put there: a text whole, or the longest front of it that fits. -/
def expected := message fun chars => utf8Bytes (longestPrefix textRoom chars)

/-- No character of an injected text lies across its 300th byte. -/
def WholeText : ControlCall → Prop
  | .text chars =>
    textSize chars ≤ textRoom ∨ ∃ front, front <+: chars ∧ textSize front = textRoom
  | .touch .. => True
  | .keycode .. => True
  | .scroll .. => True
  | .backOrScreenOn _ => True
  | .rotateDevice => True
  | .resetVideo => True
  | .setClipboard .. => True
  | .copyText => True

theorem actual_isSome (size : VideoSize) (call : ControlCall) :
    (actual size call).isSome = (expected size call).isSome := by
  cases call <;> rfl

theorem actual_eq_expected (size : VideoSize) (call : ControlCall) :
    actual size call = expected size call ↔ call.WholeText := by
  cases call with
  | text chars =>
    rw [WholeText, ← take_utf8Bytes]
    constructor
    · intro h
      exact ControlMessage.injectText.inj (Option.some.inj h)
    · intro h
      exact congrArg (fun bytes => some (ControlMessage.injectText bytes)) h
  | _ => exact ⟨fun _ => trivial, fun _ => rfl⟩

end ControlCall

theorem asI16_lt (v : Float32) : asI16 v < 256 ^ 2 := by
  rw [asI16]
  split
  · exact Nat.mod_lt _ (by decide)
  · exact Nat.lt_of_le_of_lt (Nat.min_le_left _ _) (by decide)

namespace ControlCall

/-- Every message that goes out fits its fields. -/
theorem actual_fits {size : VideoSize} {call : ControlCall} {message : ControlMessage}
    (h : actual size call = some message) : message.Fits := by
  have hside : ∀ n : Nat, n % 256 ^ 2 < 256 ^ 2 := fun n => Nat.mod_lt _ (by decide)
  cases call with
  | touch action pointerId x y pressure =>
    cases h
    exact ⟨action.toNat_lt, pointerId.toNat_lt, UInt32.toNat_lt _, UInt32.toNat_lt _, hside _,
      hside _, UInt16.toNat_lt _, by decide, by decide⟩
  | keycode action code rep metaState =>
    cases h
    exact ⟨action.toNat_lt, code.toNat_lt, rep.toNat_lt, metaState.toNat_lt⟩
  | text chars =>
    cases h
    have hlen : ((utf8Bytes chars).take textRoom).length ≤ textRoom := List.length_take_le _ _
    exact Nat.lt_of_le_of_lt hlen (by decide)
  | scroll x y scrollX scrollY =>
    cases h
    exact ⟨UInt32.toNat_lt _, UInt32.toNat_lt _, hside _, hside _, asI16_lt _, asI16_lt _,
      by decide⟩
  | backOrScreenOn action =>
    cases h
    exact action.toNat_lt
  | rotateDevice =>
    cases h
    trivial
  | resetVideo =>
    cases h
    trivial
  | setClipboard chars paste =>
    rw [actual, ControlCall.message] at h
    split at h
    · rename_i hle
      cases h
      exact ⟨by decide, by cases paste <;> decide, Nat.lt_of_le_of_lt hle (by decide)⟩
    · cases h
  | copyText =>
    cases h
    exact (by decide : ControlMessage.FitsIn 1 1)

end ControlCall

theorem encode_eq (message : ControlMessage) :
    message.encode = UInt8.ofNat message.kind :: message.body := by
  rw [ControlMessage.encode, be, be, pow_zero, Nat.div_one]
  rfl

/-- STEP: a call writes its message and nothing else. -/
theorem callBytes_eq (size : VideoSize) (call : ControlCall) :
    (callBytes size call).toOption = (call.actual size).map ControlMessage.encode := by
  have hside : ∀ n, be 2 (n % 256 ^ 2) = be 2 n := fun n => be_mod (Nat.le_refl 2) n
  have hzeros : be 4 0 = [0, 0, 0, 0] := by decide
  cases call with
  | touch action pointerId x y pressure =>
    rw [ControlCall.actual, ControlCall.message, Option.map_some, encode_eq, ControlMessage.body,
      hside, hside, hzeros, be_byte, callBytes, encodeTouchPacket]
    simp only [List.append_assoc, List.cons_append, List.nil_append]
    rfl
  | keycode action code rep metaState =>
    rw [ControlCall.actual, ControlCall.message, Option.map_some, encode_eq, ControlMessage.body,
      be_byte, callBytes]
    simp only [List.append_assoc, List.cons_append, List.nil_append]
    rfl
  | text chars =>
    have hlen : ((utf8Bytes chars).take textRoom).length =
        min (utf8Bytes chars).length textRoom := by
      rw [List.length_take, Nat.min_comm]
    have htake : (utf8Bytes chars).take (min (utf8Bytes chars).length textRoom) =
        (utf8Bytes chars).take textRoom := by
      rw [Nat.min_comm, ← List.take_eq_take_min]
    rw [ControlCall.actual, ControlCall.message, Option.map_some, encode_eq, ControlMessage.body,
      prefixed, hlen, callBytes, htake]
    rfl
  | scroll x y scrollX scrollY =>
    rw [ControlCall.actual, ControlCall.message, Option.map_some, encode_eq, ControlMessage.body,
      hside, hside, hzeros, callBytes]
    simp only [List.append_assoc, List.cons_append, List.nil_append]
    rfl
  | backOrScreenOn action =>
    rw [ControlCall.actual, ControlCall.message, Option.map_some, encode_eq, ControlMessage.body,
      be_byte]
    rfl
  | rotateDevice => rfl
  | resetVideo => rfl
  | setClipboard chars paste =>
    have hpaste : be 1 paste.toNat = [paste.toUInt8] := by
      cases paste <;> decide
    rw [callBytes, ControlCall.actual, ControlCall.message]
    by_cases hroom : (utf8Bytes chars).length ≤ clipboardRoom
    · rw [if_pos hroom, if_pos hroom, Option.map_some, encode_eq, ControlMessage.body, hpaste,
        prefixed]
      simp only [List.append_assoc, List.cons_append, List.nil_append]
      rfl
    · rw [if_neg hroom, if_neg hroom]
      rfl
  | copyText => rfl

/-- RUN: what the calls wrote is read as their messages, one after the other. -/
theorem readAll_sentBytes (calls : List (VideoSize × ControlCall)) :
    readAll ControlMessage.read (sentBytes calls) =
      some (calls.filterMap fun sent => sent.2.actual sent.1) := by
  have hsent : sentBytes calls =
      (calls.filterMap fun sent => sent.2.actual sent.1).flatMap ControlMessage.encode := by
    induction calls with
    | nil => rfl
    | cons sent calls ih =>
      rw [sentBytes] at ih ⊢
      rw [List.flatMap_cons, ih, callBytes_eq, List.filterMap_cons]
      cases sent.2.actual sent.1 <;> rfl
  rw [hsent]
  apply readAll_flatMap
  intro message hmessage
  obtain ⟨sent, -, hsent⟩ := List.mem_filterMap.mp hmessage
  exact ⟨message.encode_ne_nil, ControlMessage.read_encode (ControlCall.actual_fits hsent)⟩

theorem filterMap_eq_iff {α β : Type} {f g : α → Option β} (l : List α)
    (h : ∀ a, (f a).isSome = (g a).isSome) :
    l.filterMap f = l.filterMap g ↔ ∀ a ∈ l, f a = g a := by
  induction l with
  | nil => simp
  | cons a l ih =>
    rw [List.forall_mem_cons, ← ih, List.filterMap_cons, List.filterMap_cons]
    have ha := h a
    cases hf : f a with
    | none =>
      rw [hf] at ha
      have hg : g a = none := Option.isNone_iff_eq_none.mp (by
        rw [← Option.not_isSome, ← ha]
        rfl)
      rw [hg]
      simp
    | some b =>
      rw [hf] at ha
      obtain ⟨c, hc⟩ := Option.isSome_iff_exists.mp ha.symm
      simp [hc]

/-- SAFETY: the device reads one message for each call that was not refused, with every number the
    call was given and every text whole or cut at its last character that fits, exactly if no
    injected text has a character across its 300th byte. -/
theorem framed_iff (calls : List (VideoSize × ControlCall)) :
    readAll ControlMessage.read (sentBytes calls) =
        some (calls.filterMap fun sent => sent.2.expected sent.1) ↔
      ∀ sent ∈ calls, sent.2.WholeText := by
  rw [readAll_sentBytes, Option.some_inj,
    filterMap_eq_iff calls fun sent => ControlCall.actual_isSome sent.1 sent.2]
  exact forall₂_congr fun sent _ => ControlCall.actual_eq_expected sent.1 sent.2

/-- One letter and a hundred characters of three bytes: the last one is cut after two. -/
def cutText : List Char := 'a' :: List.replicate 100 '汉'

theorem text_cut_inside :
    ¬ readAll ControlMessage.read (sentBytes [(⟨1080, 2400⟩, .text cutText)]) =
      some [.injectText (utf8Bytes (longestPrefix textRoom cutText))] := by
  intro h
  rw [readAll_sentBytes, Option.some_inj] at h
  have htext := ControlMessage.injectText.inj (List.cons.inj h).1
  have hlen := congrArg List.length htext
  rw [List.length_take, utf8Bytes_length, utf8Bytes_length] at hlen
  exact absurd hlen (by decide +kernel)

end Gamer.Device
