/-! JSON values as `serde_json` keeps them: an object is a `BTreeMap`, so its entries are in key
    order and a key occurs once, and a number is kept by its printed form. Only what the server's
    own code does with a value is here: lookup, insertion, and the compact printed text whose
    byte length the size limits of a task are measured on. -/

namespace Gamer.Core

/-- `serde_json::Value`. -/
inductive Json where
  | null
  | bool (b : Bool)
  | num (text : String)
  | str (s : String)
  | arr (items : List Json)
  | obj (entries : List (String × Json))

namespace Json

/-- `Map::insert`: the entries stay in key order, an existing key has its value replaced. -/
def insertKey (k : String) (v : Json) : List (String × Json) → List (String × Json)
  | [] => [(k, v)]
  | (k', v') :: rest =>
    if k = k' then (k, v) :: rest
    else if k < k' then (k, v) :: (k', v') :: rest
    else (k', v') :: insertKey k v rest

/-- `Map::get`. -/
def lookupKey (k : String) : List (String × Json) → Option Json
  | [] => none
  | (k', v) :: rest => if k = k' then some v else lookupKey k rest

/-- `Value::as_object`. -/
def asObject : Json → Option (List (String × Json))
  | .obj entries => some entries
  | _ => none

/-- `Value::as_str`. -/
def asStr : Json → Option String
  | .str s => some s
  | _ => none

/-- `Value::get(key)`: the field of an object, nothing on any other value. -/
def get (v : Json) (k : String) : Option Json := v.asObject.bind (lookupKey k)

/-- `value.get(key).and_then(Value::as_str)`. -/
def getStr (v : Json) (k : String) : Option String := (v.get k).bind asStr

def isObject (v : Json) : Bool := v.asObject.isSome

/-- One lowercase hexadecimal digit. -/
def hexDigit (n : Nat) : Char := if n < 10 then Char.ofNat (48 + n) else Char.ofNat (87 + n)

/-- The escapes of the compact writer: the two quoting characters, the five short forms, and
    `\u00xx` for every other control character below U+0020. -/
def escapeChar (c : Char) : List Char :=
  match c.toNat with
  | 0x22 => ['\\', '"']
  | 0x5c => ['\\', '\\']
  | 0x08 => ['\\', 'b']
  | 0x0c => ['\\', 'f']
  | 0x0a => ['\\', 'n']
  | 0x0d => ['\\', 'r']
  | 0x09 => ['\\', 't']
  | n => if n < 0x20 then ['\\', 'u', '0', '0', hexDigit (n / 16), hexDigit (n % 16)] else [c]

def quote (s : String) : String := String.ofList (['"'] ++ s.toList.flatMap escapeChar ++ ['"'])

mutual

/-- `Value::to_string`: the compact form, with no blanks between the tokens. -/
def toText : Json → String
  | .null => "null"
  | .bool b => if b then "true" else "false"
  | .num text => text
  | .str s => quote s
  | .arr items => "[" ++ itemsText items ++ "]"
  | .obj entries => "\x7b" ++ entriesText entries ++ "\x7d"

def itemsText : List Json → String
  | [] => ""
  | [v] => toText v
  | v :: w :: rest => toText v ++ "," ++ itemsText (w :: rest)

def entriesText : List (String × Json) → String
  | [] => ""
  | [(k, v)] => quote k ++ ":" ++ toText v
  | (k, v) :: e :: rest => quote k ++ ":" ++ toText v ++ "," ++ entriesText (e :: rest)

end

theorem lookupKey_insertKey (k k' : String) (v : Json) (entries : List (String × Json)) :
    lookupKey k' (insertKey k v entries) = if k' = k then some v else lookupKey k' entries := by
  induction entries with
  | nil => simp [insertKey, lookupKey]
  | cons e rest ih =>
    obtain ⟨k₀, v₀⟩ := e
    unfold insertKey
    by_cases h : k = k₀
    · subst h
      by_cases hk : k' = k <;> simp [lookupKey, hk]
    · by_cases hlt : k < k₀
      · simp [h, hlt, lookupKey]
      · simp only [h, hlt, if_false, lookupKey, ih]
        by_cases hk₀ : k' = k₀
        · subst hk₀; simp [Ne.symm h]
        · simp [hk₀]

example : (Json.obj [("a", .num "1"), ("b", .str "x")]).toText =
    "\x7b\"a\":1,\"b\":\"x\"\x7d" := by decide

end Json

end Gamer.Core
