import Mathlib.Data.List.Basic
import Gamer.Packages.Paths

/-! `package.toml`. A manifest is built from an input that is checked, and the same checks are made
    when the file is read; the text that is written is not read back:

        input ──intoManifest──▶ manifest ──serialize──▶ text ──parse──▶ manifest?            -/

namespace Gamer.Packages

/-- `revision` counts the writes of the manifest. -/
structure PackageManifest where
  id : String
  name : Option String
  version : String
  author : Option String
  androidTargets : List String
  webUrlPrefixes : List String
  plugins : List (String × Bool)
  revision : Nat
  deriving DecidableEq

structure PackageInput where
  id : String
  name : Option String
  version : Option String
  author : Option String
  androidTargets : List String
  webUrlPrefixes : List String
  plugins : List (String × Bool)

/-- What the URL library says about an address, and the normalized address. -/
structure Url where
  scheme : String
  hasHost : Bool
  username : String
  hasPassword : Bool
  hasQuery : Bool
  hasFragment : Bool
  text : String

/-- The libraries that read addresses and TOML. -/
structure TextFormats where
  parseUrl : String → Option Url
  /-- The fields of a manifest's text, with the revision if there is one. -/
  readToml : ByteArray → Option (PackageInput × Option Nat)

def isControl (c : Char) : Bool := c.val < 32 || (127 ≤ c.val && c.val < 160)

section
variable (p : Platform) (t : TextFormats)

def trimString (s : String) : String := String.ofList (trim p s.toList)

/-- A name or an author: not empty, and not too long. -/
def checkLabel (field : String) : Option String → Except String Unit
  | none => .ok ()
  | some label =>
    if trimString p label = "" then .error (field ++ " 不能为空")
    else if (trimString p label).utf8ByteSize > 200 then .error (field ++ " 超过 200 字节")
    else .ok ()

def validateAndroidTarget (value : String) : Except String Unit :=
  if value = "" then .error "Android 目标包名不能为空"
  else if value.utf8ByteSize > 200 then .error "Android 目标包名超过 200 字节"
  else if value.toList.any fun c => isControl c || c = '/' || c = '\\' then
    .error "Android 目标包名含非法字符"
  else .ok ()

def validateWebPrefix (value : String) : Except String Url :=
  if value.utf8ByteSize > 4096 || value.toList.any isControl then .error "网页 URL 前缀非法或过长"
  else
    match t.parseUrl value with
    | none => .error "网页 URL 前缀非法"
    | some url =>
      if !((url.scheme = "http" || url.scheme = "https") && url.hasHost) then
        .error "网页 URL 前缀必须是完整的 http/https 地址"
      else if url.username ≠ "" || url.hasPassword then .error "网页 URL 前缀不能包含登录信息"
      else if url.hasQuery || url.hasFragment then
        .error "网页 URL 前缀不能包含查询参数或 # 片段，请填写站点和路径"
      else .ok url

/-- Each value once, in the order of the first. -/
def pushNew (values : List String) (value : String) : List String :=
  if value ∈ values then values else values ++ [value]

def collectTargets : List String → List String → Except String (List String)
  | [], targets => .ok targets
  | target :: rest, targets => do
    validateAndroidTarget (trimString p target)
    collectTargets rest (pushNew targets (trimString p target))

def collectPrefixes : List String → List String → Except String (List String)
  | [], prefixes => .ok prefixes
  | value :: rest, prefixes => do
    let url ← validateWebPrefix t (trimString p value)
    collectPrefixes rest (pushNew prefixes url.text)

def inputVersion (version : Option String) : String :=
  match version.map (trimString p) with
  | some v => if v = "" then "0.1.0" else v
  | none => "0.1.0"

def PackageInput.intoManifest (input : PackageInput) (revision : Nat) :
    Except String PackageManifest := do
  validateScopeId "package id" input.id
  checkLabel p "name" input.name
  let version := inputVersion p input.version
  if version.toList.any fun c => isControl c || c = '/' || c = '\\' then
    .error "version 含非法字符"
  else if version.utf8ByteSize > 64 then .error "version 超过 64 字节"
  else
    checkLabel p "author" input.author
    let targets ← collectTargets p input.androidTargets []
    let prefixes ← collectPrefixes p t input.webUrlPrefixes []
    if targets = [] ∧ prefixes = [] then
      .error "必须至少声明一个适用目标（Android 包名或网页 URL 前缀）"
    else
      let _ ← input.plugins.mapM fun plugin => validateScopeId "plugin id" plugin.1
      .ok ⟨input.id, input.name.map (trimString p), version, input.author.map (trimString p), targets,
        prefixes, input.plugins, revision⟩

def parsePackageToml (bytes : ByteArray) : Option PackageManifest :=
  (t.readToml bytes).bind fun raw => (raw.1.intoManifest p t (raw.2.getD 1)).toOption

end

/-! ### The text -/

/-- Backslashes and quotes are escaped, and nothing else is. -/
def tomlQuote (value : String) : String :=
  "\"" ++ String.ofList (value.toList.flatMap fun c =>
    if c = '\\' then ['\\', '\\'] else if c = '"' then ['\\', '"'] else [c]) ++ "\""

def tomlList (header : String) (values : List String) : String :=
  if values = [] then ""
  else header ++ String.intercalate ", " (values.map tomlQuote) ++ "]\n"

def tomlField (name : String) : Option String → String
  | none => ""
  | some value => name ++ " = " ++ tomlQuote value ++ "\n"

def serializePackageToml (m : PackageManifest) : String :=
  "id = " ++ tomlQuote m.id ++ "\n" ++ tomlField "name" m.name ++
    "version = " ++ tomlQuote m.version ++ "\n" ++ tomlField "author" m.author ++
    "revision = " ++ toString m.revision ++ "\n" ++
    tomlList "\n[targets.android]\npackages = [" m.androidTargets ++
    tomlList "\n[targets.web]\nurl_prefixes = [" m.webUrlPrefixes ++
    String.join (m.plugins.map fun plugin =>
      "\n[plugins." ++ tomlQuote plugin.1 ++ "]\nrequired = " ++
        (if plugin.2 then "true" else "false") ++ "\n")

end Gamer.Packages
