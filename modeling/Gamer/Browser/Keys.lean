import Mathlib

/-! The key table of the browser session: a key name of the caller becomes the key, the physical
    code and the virtual key code of a CDP event. A held key is stored under its code with its key
    as the name to release it by, so that releasing goes through the table a second time:

        name ──keyInfo──▶ (key, code)      keys[code] = key
                           key ──keyInfo──▶ (key', code')     keyUp code' -/

namespace Gamer.Browser

structure KeyInfo where
  key : String
  code : String
  vk : Nat
  deriving DecidableEq, Repr

/-- A letter, digit or symbol. -/
def charInfo (ch : Char) : Option KeyInfo :=
  let name := String.singleton ch
  if ch.isAlpha then some ⟨name, "Key" ++ String.singleton ch.toUpper, ch.toUpper.toNat⟩
  else if ch.isDigit then some ⟨name, "Digit" ++ String.singleton ch, ch.toNat⟩
  else
    let pair : Option (String × Nat) := match ch with
      | ' ' => some ("Space", 32)
      | ';' | ':' => some ("Semicolon", 186)
      | '=' | '+' => some ("Equal", 187)
      | ',' | '<' => some ("Comma", 188)
      | '-' | '_' => some ("Minus", 189)
      | '.' | '>' => some ("Period", 190)
      | '/' | '?' => some ("Slash", 191)
      | '`' | '~' => some ("Backquote", 192)
      | '[' | '{' => some ("BracketLeft", 219)
      | '\\' | '|' => some ("Backslash", 220)
      | ']' | '}' => some ("BracketRight", 221)
      | '\'' | '"' => some ("Quote", 222)
      | _ => none
    match pair with
    | some (code, vk) => some ⟨name, code, vk⟩
    | none => (['!', '@', '#', '$', '%', '^', '&', '*', '(', ')'].findIdx? (· == ch)).map fun i =>
        let digit := (i + 1) % 10
        ⟨name, "Digit" ++ toString digit, 48 + digit⟩

/-- `parse::<u32>()` as far as a function key number needs it. -/
def parseNumber (s : List Char) : Option Nat :=
  let digits := match s with
    | '+' :: rest => rest
    | s => s
  if digits.isEmpty || !digits.all Char.isDigit then none
  else some (digits.foldl (fun n c => 10 * n + (c.toNat - 48)) 0)

def functionKey (upper : List Char) : Option Nat :=
  match upper with
  | 'F' :: n => (parseNumber n).filter fun n => 1 ≤ n && n ≤ 24
  | _ => none

/-- The names of the keys that have one. -/
def namedKeys : List (List String × KeyInfo) := [
  (["ENTER", "RETURN"], ⟨"Enter", "Enter", 13⟩),
  (["ESC", "ESCAPE"], ⟨"Escape", "Escape", 27⟩),
  (["SPACE"], ⟨" ", "Space", 32⟩),
  (["TAB"], ⟨"Tab", "Tab", 9⟩),
  (["BACKSPACE"], ⟨"Backspace", "Backspace", 8⟩),
  (["DELETE"], ⟨"Delete", "Delete", 46⟩),
  (["HOME"], ⟨"Home", "Home", 36⟩),
  (["END"], ⟨"End", "End", 35⟩),
  (["PAGEUP"], ⟨"PageUp", "PageUp", 33⟩),
  (["PAGEDOWN"], ⟨"PageDown", "PageDown", 34⟩),
  (["INSERT"], ⟨"Insert", "Insert", 45⟩),
  (["ARROWUP", "UP"], ⟨"ArrowUp", "ArrowUp", 38⟩),
  (["ARROWDOWN", "DOWN"], ⟨"ArrowDown", "ArrowDown", 40⟩),
  (["ARROWLEFT", "LEFT"], ⟨"ArrowLeft", "ArrowLeft", 37⟩),
  (["ARROWRIGHT", "RIGHT"], ⟨"ArrowRight", "ArrowRight", 39⟩),
  (["SHIFT", "SHIFTLEFT", "SHIFTRIGHT"], ⟨"Shift", "ShiftLeft", 16⟩),
  (["CTRL", "CONTROL", "CONTROLLEFT", "CONTROLRIGHT"], ⟨"Control", "ControlLeft", 17⟩),
  (["ALT", "ALTLEFT", "ALTRIGHT"], ⟨"Alt", "AltLeft", 18⟩),
  (["META", "METALEFT", "METARIGHT"], ⟨"Meta", "MetaLeft", 91⟩),
  (["NUMPADENTER"], ⟨"Enter", "NumpadEnter", 13⟩),
  (["SEMICOLON"], ⟨";", "Semicolon", 186⟩),
  (["EQUAL"], ⟨"=", "Equal", 187⟩),
  (["COMMA"], ⟨",", "Comma", 188⟩),
  (["MINUS"], ⟨"-", "Minus", 189⟩),
  (["PERIOD"], ⟨".", "Period", 190⟩),
  (["SLASH"], ⟨"/", "Slash", 191⟩),
  (["BACKQUOTE"], ⟨"`", "Backquote", 192⟩),
  (["BRACKETLEFT"], ⟨"[", "BracketLeft", 219⟩),
  (["BACKSLASH"], ⟨"\\", "Backslash", 220⟩),
  (["BRACKETRIGHT"], ⟨"]", "BracketRight", 221⟩),
  (["QUOTE"], ⟨"'", "Quote", 222⟩)]

/-- A name of more than one character, or of one that is no key. -/
def longInfo (name : String) : Except String KeyInfo :=
  let upper := String.ofList (name.toList.map Char.toUpper)
  match functionKey upper.toList with
  | some n => .ok ⟨upper, upper, 111 + n⟩
  | none =>
    match namedKeys.find? fun e => e.1.contains upper with
    | some (_, info) => .ok info
    | none => .error ("不支持的浏览器按键: " ++ name)

/-- `key_info` of a name without one of the two prefixes. -/
def plainInfo (name : String) : Except String KeyInfo :=
  match name.toList with
  | [ch] =>
    match if ch.toNat < 128 then charInfo ch else none with
    | some info => .ok info
    | none => longInfo name
  | _ => longInfo name

def keyInfo (name : String) : Except String KeyInfo :=
  match name.toList with
  | ['K', 'e', 'y', c] =>
    -- the letter's own call is on one character
    if c.toNat < 128 then plainInfo (String.singleton c.toLower) else plainInfo name
  | ['D', 'i', 'g', 'i', 't', c] =>
    if c.toNat < 128 then plainInfo (String.singleton c) else plainInfo name
  | _ => plainInfo name

/-! ### Releasing by the stored name -/

/-- The code a key is released by, if it was pressed under this name. -/
def releaseCode (name : String) : Option String :=
  (keyInfo name).toOption.map fun info => info.code

/-- INVERSION: the key of a single character is the character. -/
theorem charInfo_key {ch : Char} {info : KeyInfo} (h : charInfo ch = some info) :
    info.key = String.singleton ch := by
  simp only [charInfo] at h
  split at h
  · cases h; rfl
  · split at h
    · cases h; rfl
    · split at h
      · cases h; rfl
      · obtain ⟨i, _, rfl⟩ := Option.map_eq_some_iff.mp h
        rfl

theorem keyInfo_singleton {ch : Char} {info : KeyInfo} (hascii : ch.toNat < 128)
    (h : charInfo ch = some info) : keyInfo (String.singleton ch) = .ok info := by
  simp [keyInfo, plainInfo, hascii, h]

theorem namedKeys_round_trip : ∀ e ∈ namedKeys, e.2.code ≠ "NumpadEnter" →
    releaseCode e.2.key = some e.2.code := by decide +kernel

/-- INVERSION: a function key's name. -/
theorem functionKey_eq_some {upper : List Char} {n : Nat} (h : functionKey upper = some n) :
    ∃ c cs, upper = 'F' :: c :: cs := by
  simp only [functionKey] at h
  split at h
  · rename_i rest
    cases rest with
    | nil => simp [parseNumber] at h
    | cons c cs => exact ⟨c, cs, rfl⟩
  · cases h

/-- A function key is stored under its own name. -/
theorem releaseCode_functionKey {upper : List Char} {n : Nat} (hn : functionKey upper = some n)
    (hupper : upper.map Char.toUpper = upper) :
    releaseCode (String.ofList upper) = some (String.ofList upper) := by
  obtain ⟨c, cs, rfl⟩ := functionKey_eq_some hn
  have hlong : longInfo (String.ofList ('F' :: c :: cs)) =
      .ok ⟨String.ofList ('F' :: c :: cs), String.ofList ('F' :: c :: cs), 111 + n⟩ := by
    simp only [longInfo, String.toList_ofList, hupper, hn]
  have hplain : keyInfo (String.ofList ('F' :: c :: cs)) =
      plainInfo (String.ofList ('F' :: c :: cs)) := by
    simp [keyInfo]
  have hsame : plainInfo (String.ofList ('F' :: c :: cs)) =
      longInfo (String.ofList ('F' :: c :: cs)) := by
    simp [plainInfo]
  rw [releaseCode, hplain, hsame, hlong]
  rfl

theorem releaseCode_longInfo {name : String} {info : KeyInfo} (h : longInfo name = .ok info)
    (hcode : info.code ≠ "NumpadEnter") : releaseCode info.key = some info.code := by
  simp only [longInfo] at h
  split at h
  · rename_i n hn
    cases h
    rw [String.toList_ofList] at hn
    exact releaseCode_functionKey hn (by simp)
  · split at h
    · rename_i names found hfind
      cases h
      exact namedKeys_round_trip _ (List.mem_of_find?_eq_some hfind) hcode
    · cases h

theorem releaseCode_plainInfo {name : String} {info : KeyInfo} (h : plainInfo name = .ok info)
    (hcode : info.code ≠ "NumpadEnter") : releaseCode info.key = some info.code := by
  simp only [plainInfo] at h
  split at h
  · rename_i ch _
    split at h
    · rename_i found hfound
      cases h
      rw [Option.ite_none_right_eq_some] at hfound
      obtain ⟨hascii, hchar⟩ := hfound
      rw [charInfo_key hchar, releaseCode, keyInfo_singleton hascii hchar]
      rfl
    · exact releaseCode_longInfo h hcode
  · exact releaseCode_longInfo h hcode

/-- LAW: every key but the numpad's Enter is released by the code it was pressed with. -/
theorem releaseCode_keyInfo {name : String} {info : KeyInfo} (h : keyInfo name = .ok info)
    (hcode : info.code ≠ "NumpadEnter") : releaseCode info.key = some info.code := by
  simp only [keyInfo] at h
  split at h
  · split at h <;> exact releaseCode_plainInfo h hcode
  · split at h <;> exact releaseCode_plainInfo h hcode
  · exact releaseCode_plainInfo h hcode

example : (keyInfo "NumpadEnter").toOption.map (fun info => releaseCode info.key) =
    some (some "Enter") := by decide +kernel

end Gamer.Browser
