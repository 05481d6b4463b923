import Mathlib.Data.List.Basic

/-! Names of packages, plugins and resources. A resource's path is cut into segments, each of which is
    a plain file name, so that no path leaves its plugin's directory:

        " maps/town#1.png " ──trim, sanitize──▶ ["maps", "town#1.png"]                      -/

namespace Gamer.Packages

/-- The character classes of the standard library, and the hash. -/
structure Platform where
  alphanumeric : Char → Bool
  whitespace : Char → Bool
  sha256 : ByteArray → List UInt8
  sha256_length : ∀ b, (sha256 b).length = 32

def maxScopeIdLen : Nat := 100

def reservedStems : List String :=
  ["CON", "PRN", "AUX", "NUL", "COM1", "COM2", "COM3", "COM4", "COM5", "COM6", "COM7", "COM8", "COM9",
    "LPT1", "LPT2", "LPT3", "LPT4", "LPT5", "LPT6", "LPT7", "LPT8", "LPT9"]

/-- A reserved name, with or without an extension. -/
def isWindowsReservedName (name : String) : Bool :=
  (String.ofList ((name.toList.takeWhile (· ≠ '.')).map Char.toUpper)) ∈ reservedStems

def isScopeChar (c : Char) : Bool := c.isLower || c.isDigit || c = '.' || c = '-' || c = '_'

/-- The same rule for package ids and plugin ids. -/
def validateScopeId (kind value : String) : Except String Unit :=
  match value.toList with
  | [] => .error (kind ++ " 必须以小写字母或数字开头")
  | first :: rest =>
    if !(first.isLower || first.isDigit) then .error (kind ++ " 必须以小写字母或数字开头")
    else if !rest.all isScopeChar then .error (kind ++ " 只允许小写字母、数字与 . _ -")
    else if value.toList.length > maxScopeIdLen then .error (kind ++ " 超过 100 字节")
    else if isWindowsReservedName value then .error (kind ++ " 不能是 Windows 保留名")
    else .ok ()

section
variable (p : Platform)

def isSegmentChar (c : Char) : Bool := p.alphanumeric c || c ∈ ['.', '-', '_', '#', ' ']

/-- A plain file name: not hidden, not reserved, of letters, digits and a few marks. -/
def sanitizeSegment (seg : List Char) : Option String :=
  if seg = [] || seg.head? = some '.' || seg.getLast? = some '.' ||
      isWindowsReservedName (String.ofList seg) then none
  else if seg.any fun c => !isSegmentChar p c then none
  else some (String.ofList seg)

def sanitizeRelPath (rel : List Char) : Except String (List String) :=
  if '\\' ∈ rel then .error "资源路径不允许反斜杠"
  else if rel = [] then .error "资源路径不能为空"
  else
    match (rel.splitOn '/').mapM (sanitizeSegment p) with
    | some segs => .ok segs
    | none => .error "资源路径段非法（拒绝空段 / . / .. / 前导点 / Windows 保留名）"

def trim (s : List Char) : List Char :=
  ((s.dropWhile p.whitespace).reverse.dropWhile p.whitespace).reverse

/-- The segments of a path that is written to. -/
def normalizeWrittenPath (path : String) : Except String (List String) :=
  sanitizeRelPath p (trim p path.toList)

/-- Where a resource stands: package, plugin and segments. -/
structure Place where
  pkg : String
  plugin : String
  segs : List String
  deriving DecidableEq

def resourcePath (pkg plugin : String) (segs : List String) : Except String Place := do
  validateScopeId "plugin id" plugin
  validateScopeId "package id" pkg
  .ok ⟨pkg, plugin, segs⟩

end

end Gamer.Packages
