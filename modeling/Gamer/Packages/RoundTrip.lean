import Gamer.Core.Reading
import Gamer.Packages.CrashSafe

/-! A manifest that is written and read back. TOML reads a basic string unit by unit; a backslash and a
    quote are escaped, and a control character may not stand in it:

        manifest ──serialize──▶ "id = " literal … ──TOML──▶ fields ──into_manifest──▶ manifest?

    What is read goes through the checks of an input again. -/

namespace Gamer.Packages
open Gamer.Lib

/-! ### Basic strings -/

/-- A character of a basic string, as it is or after a backslash. -/
inductive StringUnit where
  | plain (c : Char)
  | escaped (c : Char)

/-- What may stand in a basic string unescaped, quotes and backslashes apart: a tab, and no other
    control character of ASCII. -/
def isTomlPlain (c : Char) : Bool := c = '\t' || (32 ≤ c.val && c.val ≠ 127)

namespace StringUnit

def text : StringUnit → List Char
  | plain c => [c]
  | escaped c => ['\\', c]

def value : StringUnit → Option Char
  | plain c => if isTomlPlain c then some c else none
  | escaped c => if c = '\\' ∨ c = '"' then some c else none

end StringUnit

abbrev Literal := List StringUnit

def literalText (l : Literal) : String :=
  "\"" ++ String.ofList (l.flatMap StringUnit.text) ++ "\""

def literalValue (l : Literal) : Option String := (l.mapM StringUnit.value).map String.ofList

/-- A string with its backslashes and quotes escaped. -/
def literalOf (s : String) : Literal :=
  s.toList.map fun c => if c = '\\' ∨ c = '"' then .escaped c else .plain c

/-- TOML can read the string from its literal. -/
def isTomlText (s : String) : Bool := s.toList.all isTomlPlain

theorem literalText_literalOf (s : String) : literalText (literalOf s) = tomlQuote s := by
  have hunits : (literalOf s).flatMap StringUnit.text = s.toList.flatMap fun c =>
      if c = '\\' then ['\\', '\\'] else if c = '"' then ['\\', '"'] else [c] := by
    rw [literalOf, List.flatMap_map]
    refine List.flatMap_congr fun c _ => ?_
    by_cases hslash : c = '\\'
    · simp [hslash, StringUnit.text]
    · by_cases hquote : c = '"'
      · simp [hquote, StringUnit.text]
      · simp [hslash, hquote, StringUnit.text]
  rw [literalText, tomlQuote, hunits]

/-- A list is read if each of its parts is. -/
theorem mapM_ite {α β : Type} {f : β → Option α} {g : α → β} {ok : α → Bool}
    (h : ∀ a, f (g a) = if ok a then some a else none) (l : List α) :
    (l.map g).mapM f = if l.all ok then some l else none := by
  induction l with
  | nil => rfl
  | cons a l ih =>
    rw [List.map_cons, List.mapM_cons, h, ih, List.all_cons]
    cases ok a <;> cases l.all ok <;> rfl

theorem literalValue_literalOf (s : String) :
    literalValue (literalOf s) = if isTomlText s then some s else none := by
  have hunit : ∀ c : Char, StringUnit.value (if c = '\\' ∨ c = '"' then .escaped c else .plain c) =
      if isTomlPlain c then some c else none := by
    intro c
    by_cases hc : c = '\\' ∨ c = '"'
    · have hplain : isTomlPlain c = true := by
        rcases hc with rfl | rfl <;> decide
      rw [if_pos hc, if_pos hplain, StringUnit.value, if_pos hc]
    · rw [if_neg hc, StringUnit.value]
  rw [literalValue, literalOf, mapM_ite hunit, isTomlText]
  split
  · rw [Option.map_some, String.ofList_toList]
  · rfl

/-! ### Documents -/

/-- A manifest's text, by its literals. -/
structure ManifestDoc where
  id : Literal
  name : Option Literal
  version : Literal
  author : Option Literal
  revision : Nat
  packages : List Literal
  urlPrefixes : List Literal
  plugins : List (Literal × Bool)

def docOf (m : PackageManifest) : ManifestDoc where
  id := literalOf m.id
  name := m.name.map literalOf
  version := literalOf m.version
  author := m.author.map literalOf
  revision := m.revision
  packages := m.androidTargets.map literalOf
  urlPrefixes := m.webUrlPrefixes.map literalOf
  plugins := m.plugins.map fun plugin => (literalOf plugin.1, plugin.2)

namespace ManifestDoc

def fieldText (name : String) : Option Literal → String
  | none => ""
  | some l => name ++ " = " ++ literalText l ++ "\n"

def listText (header : String) (ls : List Literal) : String :=
  if ls.isEmpty then "" else header ++ String.intercalate ", " (ls.map literalText) ++ "]\n"

def text (d : ManifestDoc) : String :=
  "id = " ++ literalText d.id ++ "\n" ++ fieldText "name" d.name ++
    "version = " ++ literalText d.version ++ "\n" ++ fieldText "author" d.author ++
    "revision = " ++ toString d.revision ++ "\n" ++
    listText "\n[targets.android]\npackages = [" d.packages ++
    listText "\n[targets.web]\nurl_prefixes = [" d.urlPrefixes ++
    String.join (d.plugins.map fun plugin =>
      "\n[plugins." ++ literalText plugin.1 ++ "]\nrequired = " ++
        (if plugin.2 then "true" else "false") ++ "\n")

/-- What the document says, if TOML can read it: strings of units that have a value, and a revision
    of 64 bits with a sign. -/
def fields (d : ManifestDoc) : Option (PackageInput × Option Nat) := do
  let id ← literalValue d.id
  let name ← d.name.mapM literalValue
  let version ← literalValue d.version
  let author ← d.author.mapM literalValue
  let packages ← d.packages.mapM literalValue
  let urlPrefixes ← d.urlPrefixes.mapM literalValue
  let plugins ← d.plugins.mapM fun plugin => (literalValue plugin.1).map fun id => (id, plugin.2)
  if d.revision < 2 ^ 63 then
    return (⟨id, name, some version, author, packages, urlPrefixes, plugins⟩, some d.revision)
  else none

end ManifestDoc

theorem fieldText_literal (name : String) (value : Option String) :
    ManifestDoc.fieldText name (value.map literalOf) = tomlField name value := by
  cases value with
  | none => rfl
  | some v =>
    rw [Option.map_some, ManifestDoc.fieldText, literalText_literalOf]
    rfl

theorem listText_literal (header : String) (values : List String) :
    ManifestDoc.listText header (values.map literalOf) = tomlList header values := by
  have hmap : (values.map literalOf).map literalText = values.map tomlQuote := by
    rw [List.map_map]
    exact List.map_congr_left fun v _ => literalText_literalOf v
  rw [ManifestDoc.listText, tomlList, hmap]
  cases values <;> rfl

/-- What is written is the document. -/
theorem text_docOf (m : PackageManifest) : (docOf m).text = serializePackageToml m := by
  have hplugins : (docOf m).plugins.map (fun plugin =>
      "\n[plugins." ++ literalText plugin.1 ++ "]\nrequired = " ++
        (if plugin.2 then "true" else "false") ++ "\n") = m.plugins.map fun plugin =>
      "\n[plugins." ++ tomlQuote plugin.1 ++ "]\nrequired = " ++
        (if plugin.2 then "true" else "false") ++ "\n" := by
    rw [docOf, List.map_map]
    refine List.map_congr_left fun plugin _ => ?_
    rw [Function.comp_apply, literalText_literalOf]
  have hid : literalText (docOf m).id = tomlQuote m.id := literalText_literalOf _
  have hversion : literalText (docOf m).version = tomlQuote m.version := literalText_literalOf _
  unfold ManifestDoc.text serializePackageToml
  rw [hplugins, hid, hversion]
  rw [docOf, fieldText_literal, fieldText_literal, listText_literal, listText_literal]

/-- TOML can read all strings of a manifest, and its revision. -/
structure PackageManifest.Readable (m : PackageManifest) : Prop where
  id : isTomlText m.id = true
  name : m.name.all isTomlText = true
  version : isTomlText m.version = true
  author : m.author.all isTomlText = true
  targets : m.androidTargets.all isTomlText = true
  prefixes : m.webUrlPrefixes.all isTomlText = true
  plugins : (m.plugins.all fun plugin => isTomlText plugin.1) = true
  revision : m.revision < 2 ^ 63

/-- The fields of a manifest's text. -/
def PackageManifest.raw (m : PackageManifest) : PackageInput × Option Nat :=
  (⟨m.id, m.name, some m.version, m.author, m.androidTargets, m.webUrlPrefixes, m.plugins⟩,
    some m.revision)

theorem optional_literal (o : Option String) :
    (o.map literalOf).mapM literalValue = if o.all isTomlText then some o else none := by
  cases o with
  | none => rfl
  | some s =>
    show (literalValue (literalOf s)).map some = _
    rw [literalValue_literalOf, Option.all_some]
    cases isTomlText s <;> rfl

theorem ite_some_iff {α : Type} {c : Prop} [Decidable c] {a b : α} :
    (if c then some a else none) = some b ↔ c ∧ a = b := by
  split
  · next hc => simp [hc]
  · next hc => simp [hc]

/-- What a manifest's document says. -/
theorem fields_docOf {m : PackageManifest} {raw : PackageInput × Option Nat} :
    (docOf m).fields = some raw ↔ m.Readable ∧ m.raw = raw := by
  have hlist : ∀ values : List String, (values.map literalOf).mapM literalValue =
      if values.all isTomlText then some values else none := mapM_ite literalValue_literalOf
  have hplugins : (m.plugins.map fun plugin => (literalOf plugin.1, plugin.2)).mapM
      (fun plugin => (literalValue plugin.1).map fun id => (id, plugin.2)) =
        if m.plugins.all (fun plugin => isTomlText plugin.1) then some m.plugins else none := by
    refine mapM_ite (fun plugin => ?_) m.plugins
    rw [literalValue_literalOf]
    cases isTomlText plugin.1 <;> rfl
  simp only [ManifestDoc.fields, docOf, Option.bind_eq_bind, Option.bind_eq_some_iff,
    literalValue_literalOf, optional_literal, hlist, hplugins, ite_some_iff]
  constructor
  · rintro ⟨_, ⟨hid, rfl⟩, _, ⟨hname, rfl⟩, _, ⟨hversion, rfl⟩, _, ⟨hauthor, rfl⟩, _,
      ⟨htargets, rfl⟩, _, ⟨hprefixes, rfl⟩, _, ⟨hids, rfl⟩, hraw⟩
    have hfields : (if m.revision < 2 ^ 63 then some m.raw else none) = some raw := hraw
    obtain ⟨hrevision, hsame⟩ := ite_some_iff.mp hfields
    exact ⟨⟨hid, hname, hversion, hauthor, htargets, hprefixes, hids, hrevision⟩, hsame⟩
  · rintro ⟨h, rfl⟩
    refine ⟨_, ⟨h.id, rfl⟩, _, ⟨h.name, rfl⟩, _, ⟨h.version, rfl⟩, _, ⟨h.author, rfl⟩, _,
      ⟨h.targets, rfl⟩, _, ⟨h.prefixes, rfl⟩, _, ⟨h.plugins, rfl⟩, ?_⟩
    have hfields : (if m.revision < 2 ^ 63 then some m.raw else none) = some m.raw :=
      ite_some_iff.mpr ⟨h.revision, rfl⟩
    exact hfields

/-! ### The checks, made again -/

section
variable {p : Platform} {t : TextFormats}

theorem trim_trim (s : List Char) : trim p (trim p s) = trim p s := by
  have htrim : ∀ l, trim p l = (l.dropWhile p.whitespace).rdropWhile p.whitespace := fun _ => rfl
  rw [htrim, htrim, Core.dropWhile_rdropWhile, List.rdropWhile_idempotent]

theorem trimString_trimString (s : String) : trimString p (trimString p s) = trimString p s := by
  rw [trimString, trimString, String.toList_ofList, trim_trim]

theorem mem_pushNew {values : List String} {value v : String} :
    v ∈ pushNew values value ↔ v ∈ values ∨ v = value := by
  unfold pushNew
  split
  · next hmem =>
    refine ⟨.inl, fun h => h.elim id fun heq => ?_⟩
    rw [heq]
    exact hmem
  · rw [List.mem_append, List.mem_singleton]

theorem nodup_pushNew {values : List String} (h : values.Nodup) (value : String) :
    (pushNew values value).Nodup := by
  unfold pushNew
  split
  · exact h
  · next hmem =>
    refine List.nodup_append.mpr ⟨h, List.nodup_singleton _, fun a ha b hb hab => ?_⟩
    rw [hab, List.mem_singleton.mp hb] at ha
    exact hmem ha

/-- INVARIANT: what is collected is there once, and each of it was accepted. -/
theorem collectTargets_ok {accepted : String → Prop}
    (haccepted : ∀ v, validateAndroidTarget (trimString p v) = .ok () →
      accepted (trimString p v)) : ∀ {values acc targets : List String},
    collectTargets p values acc = .ok targets → acc.Nodup → (∀ v ∈ acc, accepted v) →
    targets.Nodup ∧ ∀ v ∈ targets, accepted v
  | [], acc, targets, h, hnodup, hacc => by
    cases h
    exact ⟨hnodup, hacc⟩
  | v :: values, acc, targets, h, hnodup, hacc => by
    obtain ⟨_, hvalid, h⟩ := bind_eq_ok.mp h
    refine collectTargets_ok haccepted h (nodup_pushNew hnodup _) fun w hw => ?_
    rcases mem_pushNew.mp hw with hw | rfl
    · exact hacc w hw
    · exact haccepted v hvalid

/-- What is trimmed, accepted and there once is collected as it is. -/
theorem collectTargets_again : ∀ {values acc : List String}, (acc ++ values).Nodup →
    (∀ v ∈ values, trimString p v = v ∧ validateAndroidTarget v = .ok ()) →
    collectTargets p values acc = .ok (acc ++ values)
  | [], acc, _, _ => by rw [collectTargets, List.append_nil]
  | v :: values, acc, hnodup, hvalues => by
    obtain ⟨⟨htrim, hvalid⟩, hrest⟩ := List.forall_mem_cons.mp hvalues
    have hnew : v ∉ acc := by
      intro hmem
      exact (List.nodup_append.mp hnodup).2.2 v hmem v List.mem_cons_self rfl
    have happend : acc ++ v :: values = (acc ++ [v]) ++ values := by simp
    rw [happend] at hnodup ⊢
    rw [← collectTargets_again hnodup hrest, collectTargets, htrim, hvalid, pushNew, if_neg hnew]
    rfl

/-- INVARIANT: the addresses that are collected are the normalized ones, each once. -/
theorem collectPrefixes_ok : ∀ {values acc prefixes : List String},
    collectPrefixes p t values acc = .ok prefixes → acc.Nodup →
    prefixes.Nodup ∧ (∀ x, x ∈ prefixes ↔ x ∈ acc ∨
      ∃ v ∈ values, ∃ url, validateWebPrefix t (trimString p v) = .ok url ∧ url.text = x) ∧
    ∀ v ∈ values, ∃ url, validateWebPrefix t (trimString p v) = .ok url
  | [], acc, prefixes, h, hnodup => by
    cases h
    refine ⟨hnodup, fun x => ⟨.inl, ?_⟩, fun v hv => (by cases hv)⟩
    rintro (hx | ⟨v, hv, -⟩)
    · exact hx
    · cases hv
  | v :: values, acc, prefixes, h, hnodup => by
    obtain ⟨url, hvalid, h⟩ := bind_eq_ok.mp h
    obtain ⟨hnodup', hmem, hall⟩ := collectPrefixes_ok h (nodup_pushNew hnodup _)
    refine ⟨hnodup', fun x => ?_, List.forall_mem_cons.mpr ⟨⟨url, hvalid⟩, hall⟩⟩
    rw [hmem, mem_pushNew]
    constructor
    · rintro ((hacc | rfl) | ⟨w, hw, hurl⟩)
      · exact .inl hacc
      · exact .inr ⟨v, List.mem_cons_self, url, hvalid, rfl⟩
      · exact .inr ⟨w, List.mem_cons_of_mem _ hw, hurl⟩
    · rintro (hacc | ⟨w, hw, url', hvalid', rfl⟩)
      · exact .inl (.inl hacc)
      · rcases List.mem_cons.mp hw with rfl | hw
        · cases hvalid.symm.trans hvalid'
          exact .inl (.inr rfl)
        · exact .inr ⟨w, hw, url', hvalid', rfl⟩

/-- Addresses that are normalized and there once are collected exactly if each is accepted again. -/
theorem collectPrefixes_again_iff : ∀ {values acc : List String}, (acc ++ values).Nodup →
    (∀ v ∈ values, trimString p v = v) →
    (∀ v ∈ values, ∀ url, validateWebPrefix t v = .ok url → url.text = v) →
    (collectPrefixes p t values acc = .ok (acc ++ values) ↔
      ∀ v ∈ values, ∃ url, validateWebPrefix t v = .ok url)
  | [], acc, _, _, _ => by
    rw [collectPrefixes, List.append_nil]
    exact ⟨fun _ v hv => (by cases hv), fun _ => rfl⟩
  | v :: values, acc, hnodup, htrims, htexts => by
    obtain ⟨htrim, htrims'⟩ := List.forall_mem_cons.mp htrims
    obtain ⟨htext, htexts'⟩ := List.forall_mem_cons.mp htexts
    have hnew : v ∉ acc := by
      intro hmem
      exact (List.nodup_append.mp hnodup).2.2 v hmem v List.mem_cons_self rfl
    have happend : acc ++ v :: values = (acc ++ [v]) ++ values := by simp
    rw [collectPrefixes, htrim, List.forall_mem_cons]
    cases hvalid : validateWebPrefix t v with
    | error e =>
      constructor
      · intro h
        cases h
      · rintro ⟨⟨url, hurl⟩, -⟩
        cases hurl
    | ok url =>
      have hpush : pushNew acc url.text = acc ++ [v] := by
        rw [htext url hvalid, pushNew, if_neg hnew]
      rw [happend] at hnodup ⊢
      have hrec := collectPrefixes_again_iff hnodup htrims' htexts'
      show collectPrefixes p t values (pushNew acc url.text) = _ ↔ _
      rw [hpush, hrec]
      exact ⟨fun h => ⟨⟨url, rfl⟩, h⟩, fun h => h.2⟩

/-- All ids of plugins are valid. -/
theorem mapM_validate {plugins : List (String × Bool)} :
    (∃ units, plugins.mapM (fun plugin => validateScopeId "plugin id" plugin.1) = .ok units) ↔
      ∀ plugin ∈ plugins, validateScopeId "plugin id" plugin.1 = .ok () := by
  induction plugins with
  | nil => exact ⟨fun _ plugin h => (by cases h), fun _ => ⟨[], rfl⟩⟩
  | cons plugin plugins ih =>
    rw [List.mapM_cons, List.forall_mem_cons, ← ih]
    constructor
    · rintro ⟨units, h⟩
      obtain ⟨u, hu, h⟩ := bind_eq_ok.mp h
      obtain ⟨us, hus, -⟩ := bind_eq_ok.mp h
      exact ⟨hu, us, hus⟩
    · rintro ⟨hu, us, hus⟩
      exact ⟨() :: us, bind_eq_ok.mpr ⟨(), hu, bind_eq_ok.mpr ⟨us, hus, rfl⟩⟩⟩

/-- A version that is accepted. -/
def isVersion (version : String) : Prop :=
  (version.toList.any fun c => isControl c || c = '/' || c = '\\') = false ∧
    version.utf8ByteSize ≤ 64

/-- INVERSION: the checks of an input, and the manifest that is built from it. -/
structure Built (p : Platform) (t : TextFormats) (input : PackageInput) (revision : Nat)
    (m : PackageManifest) : Prop where
  id : validateScopeId "package id" input.id = .ok ()
  name : checkLabel p "name" input.name = .ok ()
  version : isVersion (inputVersion p input.version)
  author : checkLabel p "author" input.author = .ok ()
  targets : collectTargets p input.androidTargets [] = .ok m.androidTargets
  prefixes : collectPrefixes p t input.webUrlPrefixes [] = .ok m.webUrlPrefixes
  some : ¬(m.androidTargets = [] ∧ m.webUrlPrefixes = [])
  plugins : ∀ plugin ∈ input.plugins, validateScopeId "plugin id" plugin.1 = .ok ()
  same : m = ⟨input.id, input.name.map (trimString p), inputVersion p input.version,
    input.author.map (trimString p), m.androidTargets, m.webUrlPrefixes, input.plugins, revision⟩

theorem intoManifest_iff {input : PackageInput} {revision : Nat} {m : PackageManifest} :
    input.intoManifest p t revision = .ok m ↔ Built p t input revision m := by
  constructor
  · intro h
    obtain ⟨_, hid, h⟩ := bind_eq_ok.mp h
    obtain ⟨_, hname, h⟩ := bind_eq_ok.mp h
    dsimp only at h
    split at h
    · cases h
    · next hchars =>
      split at h
      · cases h
      · next hsize =>
        obtain ⟨_, hauthor, h⟩ := bind_eq_ok.mp h
        obtain ⟨targets, htargets, h⟩ := bind_eq_ok.mp h
        obtain ⟨prefixes, hprefixes, h⟩ := bind_eq_ok.mp h
        split at h
        · cases h
        · next hsome =>
          obtain ⟨units, hplugins, h⟩ := bind_eq_ok.mp h
          cases h
          exact ⟨hid, hname, ⟨Bool.eq_false_iff.mpr hchars, by omega⟩, hauthor, htargets,
            hprefixes, hsome, mapM_validate.mp ⟨units, hplugins⟩, rfl⟩
  · intro h
    obtain ⟨units, hplugins⟩ := mapM_validate.mpr h.plugins
    refine bind_eq_ok.mpr ⟨(), h.id, bind_eq_ok.mpr ⟨(), h.name, ?_⟩⟩
    dsimp only
    rw [if_neg (Bool.eq_false_iff.mp h.version.1), if_neg (by have := h.version.2; omega)]
    refine bind_eq_ok.mpr ⟨(), h.author, bind_eq_ok.mpr ⟨_, h.targets, bind_eq_ok.mpr
      ⟨_, h.prefixes, ?_⟩⟩⟩
    rw [if_neg h.some]
    exact bind_eq_ok.mpr ⟨units, hplugins, congrArg Except.ok h.same.symm⟩

/-! ### What is written is read back -/

/-- What may be the address of a prefix, apart from its length. -/
def Url.Fits (url : Url) : Prop :=
  ((url.scheme = "http" || url.scheme = "https") && url.hasHost) = true ∧
    (url.username ≠ "" || url.hasPassword) = false ∧ (url.hasQuery || url.hasFragment) = false

theorem validateWebPrefix_iff {value : String} {url : Url} :
    validateWebPrefix t value = .ok url ↔ value.utf8ByteSize ≤ 4096 ∧
      value.toList.any isControl = false ∧ t.parseUrl value = some url ∧ url.Fits := by
  unfold validateWebPrefix
  constructor
  · intro h
    split at h
    · cases h
    · next hsize =>
      rw [Bool.or_eq_true, decide_eq_true_eq, not_or, Nat.not_lt, Bool.not_eq_true] at hsize
      split at h
      · cases h
      · next url' hparse =>
        split at h
        · cases h
        · next hscheme =>
          split at h
          · cases h
          · next hlogin =>
            split at h
            · cases h
            · next hquery =>
              cases h
              refine ⟨hsize.1, hsize.2, hparse, ?_, ?_, Bool.eq_false_iff.mpr hquery⟩
              · simpa only [Bool.not_eq_true', Bool.not_eq_false] using hscheme
              · simpa using hlogin
  · rintro ⟨hsize, hcontrol, hparse, hscheme, hlogin, hquery⟩
    rw [if_neg (by simp [hsize, hcontrol]), hparse]
    dsimp only
    rw [if_neg (by rw [hscheme]; simp), if_neg (by simpa using hlogin),
      if_neg (by simpa using hquery)]

/-- Accepted addresses, as the URL library writes them: they are read as the same address again, and
    have printing characters of ASCII only. -/
structure UrlsReparse (p : Platform) (t : TextFormats) (input : PackageInput) : Prop where
  parse : ∀ v ∈ input.webUrlPrefixes, ∀ url, validateWebPrefix t (trimString p v) = .ok url →
    t.parseUrl url.text = some url
  ascii : ∀ v ∈ input.webUrlPrefixes, ∀ url, validateWebPrefix t (trimString p v) = .ok url →
    ∀ c ∈ url.text.toList, 33 ≤ c.val ∧ c.val ≤ 126

/-- Printing characters of ASCII are no whitespace. -/
def Platform.Printing (p : Platform) : Prop :=
  ∀ c : Char, 33 ≤ c.val → c.val ≤ 126 → p.whitespace c = false

/-- An input whose manifest can be read back: no control character but tabs in the name and in the
    author, a revision that a signed integer holds, and addresses that are short once normalized. -/
structure PackageInput.Writable (p : Platform) (t : TextFormats) (input : PackageInput)
    (revision : Nat) : Prop where
  labels : ∀ label, input.name = some label ∨ input.author = some label →
    isTomlText (trimString p label) = true
  revision : revision < 2 ^ 63
  prefixes : ∀ v ∈ input.webUrlPrefixes, ∀ url, t.parseUrl (trimString p v) = some url →
    url.text.utf8ByteSize ≤ 4096

theorem isTomlPlain_of_control {c : Char} (h : isControl c = false) : isTomlPlain c = true := by
  have hc : ¬ c.val < 32 ∧ ¬ (127 ≤ c.val ∧ c.val < 160) := by simpa [isControl] using h
  have hge : 32 ≤ c.val := UInt32.not_lt.mp hc.1
  have hne : c.val ≠ 127 := by
    intro heq
    rw [heq] at hc
    exact hc.2 (by decide)
  simp [isTomlPlain, hge, hne]

theorem isTomlText_of_control {s : String} (h : s.toList.any isControl = false) :
    isTomlText s = true :=
  List.all_eq_true.mpr fun c hc =>
    isTomlPlain_of_control (Bool.eq_false_iff.mpr (List.any_eq_false.mp h c hc))

theorem isTomlText_of_ascii {s : String} (h : ∀ c ∈ s.toList, 33 ≤ c.val ∧ c.val ≤ 126) :
    isTomlText s = true := by
  refine List.all_eq_true.mpr fun c hc => ?_
  obtain ⟨hge, hle⟩ := h c hc
  have hne : c.val ≠ 127 := by
    intro heq
    rw [heq] at hle
    exact absurd hle (by decide)
  have hge' : 32 ≤ c.val := UInt32.le_trans (by decide) hge
  simp [isTomlPlain, hge', hne]

theorem isControl_of_ascii {s : String} (h : ∀ c ∈ s.toList, 33 ≤ c.val ∧ c.val ≤ 126) :
    s.toList.any isControl = false := by
  refine List.any_eq_false.mpr fun c hc => ?_
  obtain ⟨hge, hle⟩ := h c hc
  have hlow : ¬ c.val < 32 := UInt32.not_lt.mpr (UInt32.le_trans (by decide) hge)
  have hhigh : ¬ 127 ≤ c.val := fun h127 => absurd (UInt32.le_trans h127 hle) (by decide)
  simp [isControl, hlow, hhigh]

/-- Ids have no control characters. -/
theorem isTomlText_of_scopeId {kind value : String} (h : validateScopeId kind value = .ok ()) :
    isTomlText value = true := by
  refine isTomlText_of_ascii fun c hc => ?_
  have hscope := scopeId_chars h c hc
  simp only [isScopeChar, Bool.or_eq_true, decide_eq_true_eq] at hscope
  rcases hscope with (((hlower | hdigit) | rfl) | rfl) | rfl
  · have hrange : (97 ≤ c.val && c.val ≤ 122) = true := hlower
    rw [Bool.and_eq_true, decide_eq_true_eq, decide_eq_true_eq] at hrange
    exact ⟨UInt32.le_trans (by decide) hrange.1, UInt32.le_trans hrange.2 (by decide)⟩
  · have hrange : (48 ≤ c.val && c.val ≤ 57) = true := hdigit
    rw [Bool.and_eq_true, decide_eq_true_eq, decide_eq_true_eq] at hrange
    exact ⟨UInt32.le_trans (by decide) hrange.1, UInt32.le_trans hrange.2 (by decide)⟩
  all_goals decide

/-- A target that is accepted has no control characters. -/
theorem isTomlText_of_target {value : String} (h : validateAndroidTarget value = .ok ()) :
    isTomlText value = true := by
  unfold validateAndroidTarget at h
  split_ifs at h with hempty hsize hchars
  refine isTomlText_of_control (List.any_eq_false.mpr fun c hc hcontrol => ?_)
  exact hchars (List.any_eq_true.mpr ⟨c, hc, by simp [hcontrol]⟩)

theorem isTomlText_of_version {version : String} (h : isVersion version) :
    isTomlText version = true := by
  refine isTomlText_of_control (List.any_eq_false.mpr fun c hc hcontrol => ?_)
  have hnot := List.any_eq_false.mp h.1 c hc
  exact hnot (by simp [hcontrol])

theorem checkLabel_trimmed (field : String) (o : Option String) :
    checkLabel p field (o.map (trimString p)) = checkLabel p field o := by
  cases o with
  | none => rfl
  | some label => simp only [Option.map_some, checkLabel, trimString_trimString]

theorem inputVersion_again (hprinting : p.Printing) (version : Option String) :
    inputVersion p (some (inputVersion p version)) = inputVersion p version := by
  have hdefault : trimString p "0.1.0" = "0.1.0" := by
    rw [trimString, trim_eq_self, String.ofList_toList]
    intro c hc
    have hascii : 33 ≤ c.val ∧ c.val ≤ 126 := by
      have hall : ("0.1.0".toList.all fun c => 33 ≤ c.val && c.val ≤ 126) = true := by decide
      simpa using List.all_eq_true.mp hall c hc
    exact hprinting c hascii.1 hascii.2
  have hagain : ∀ v : String, v ≠ "" → trimString p v = v →
      inputVersion p (some v) = v := by
    intro v hne htrim
    simp only [inputVersion, Option.map_some, htrim]
    rw [if_neg hne]
  by_cases hgiven : version.map (trimString p) = none ∨ version.map (trimString p) = some ""
  · have hversion : inputVersion p version = "0.1.0" := by
      rcases hgiven with hnone | hempty
      · rw [inputVersion, hnone]
      · rw [inputVersion, hempty]
        rfl
    rw [hversion]
    exact hagain "0.1.0" (by decide) hdefault
  · obtain ⟨hsome, hempty⟩ := not_or.mp hgiven
    obtain ⟨v, hv⟩ := Option.ne_none_iff_exists'.mp hsome
    obtain ⟨v', hv', htrim⟩ := Option.map_eq_some_iff.mp hv
    have hne : v ≠ "" := by
      rintro rfl
      exact hempty hv
    have hversion : inputVersion p version = v := by
      rw [inputVersion, hv]
      exact if_neg hne
    rw [hversion]
    refine hagain v hne ?_
    rw [← htrim, trimString_trimString]

variable {input : PackageInput} {revision : Nat} {m : PackageManifest}

/-- A prefix of the manifest is an address that was accepted, normalized. -/
theorem Built.mem_prefixes (hbuilt : Built p t input revision m) (x : String) :
    x ∈ m.webUrlPrefixes ↔ ∃ v ∈ input.webUrlPrefixes, ∃ url,
      validateWebPrefix t (trimString p v) = .ok url ∧ url.text = x := by
  obtain ⟨-, hmem, -⟩ := collectPrefixes_ok hbuilt.prefixes List.nodup_nil
  simpa using hmem x

/-- A normalized address is accepted again exactly if it is short. -/
theorem validateWebPrefix_again (hurl : UrlsReparse p t input) {v : String}
    (hv : v ∈ input.webUrlPrefixes) {url : Url}
    (hvalid : validateWebPrefix t (trimString p v) = .ok url) (url' : Url) :
    validateWebPrefix t url.text = .ok url' ↔ url.text.utf8ByteSize ≤ 4096 ∧ url' = url := by
  obtain ⟨-, -, -, hfits⟩ := validateWebPrefix_iff.mp hvalid
  have hparse := hurl.parse v hv url hvalid
  have hcontrol := isControl_of_ascii (hurl.ascii v hv url hvalid)
  rw [validateWebPrefix_iff]
  constructor
  · rintro ⟨hsize, -, hparse', -⟩
    exact ⟨hsize, Option.some.inj (hparse'.symm.trans hparse)⟩
  · rintro ⟨hsize, rfl⟩
    exact ⟨hsize, hcontrol, hparse, hfits⟩

/-- INVARIANT: what a manifest is built of passes the same checks again, long addresses apart. -/
theorem built_again_iff (hprinting : p.Printing) (hurl : UrlsReparse p t input)
    (hbuilt : Built p t input revision m) :
    Built p t m.raw.1 m.revision m ↔ ∀ x ∈ m.webUrlPrefixes, x.utf8ByteSize ≤ 4096 := by
  have hid : m.id = input.id := congrArg PackageManifest.id hbuilt.same
  have hname : m.name = input.name.map (trimString p) :=
    congrArg PackageManifest.name hbuilt.same
  have hversion : m.version = inputVersion p input.version :=
    congrArg PackageManifest.version hbuilt.same
  have hauthor : m.author = input.author.map (trimString p) :=
    congrArg PackageManifest.author hbuilt.same
  have hplugins : m.plugins = input.plugins := congrArg PackageManifest.plugins hbuilt.same
  have hagain : inputVersion p (some m.version) = m.version := by
    rw [hversion]
    exact inputVersion_again hprinting input.version
  have htrimmed : ∀ o : Option String,
      (o.map (trimString p)).map (trimString p) = o.map (trimString p) := by
    intro o
    cases o with
    | none => rfl
    | some label => exact congrArg some (trimString_trimString label)
  have htrim : ∀ x ∈ m.webUrlPrefixes, trimString p x = x := by
    intro x hx
    obtain ⟨v, hv, url, hvalid, rfl⟩ := (hbuilt.mem_prefixes x).mp hx
    have hascii := hurl.ascii v hv url hvalid
    rw [trimString, trim_eq_self fun c hc => hprinting c (hascii c hc).1 (hascii c hc).2,
      String.ofList_toList]
  have hvalid : ∀ x ∈ m.webUrlPrefixes, ∀ url, validateWebPrefix t x = .ok url →
      url.text = x ∧ x.utf8ByteSize ≤ 4096 := by
    intro x hx url hurl'
    obtain ⟨v, hv, url', hvalid, rfl⟩ := (hbuilt.mem_prefixes x).mp hx
    obtain ⟨hsize, rfl⟩ := (validateWebPrefix_again hurl hv hvalid url).mp hurl'
    exact ⟨rfl, hsize⟩
  have hnodup := (collectPrefixes_ok hbuilt.prefixes List.nodup_nil).1
  have hcollect : collectPrefixes p t m.webUrlPrefixes [] = .ok m.webUrlPrefixes ↔
      ∀ x ∈ m.webUrlPrefixes, ∃ url, validateWebPrefix t x = .ok url :=
    collectPrefixes_again_iff hnodup htrim fun x hx url hurl' => (hvalid x hx url hurl').1
  constructor
  · intro h x hx
    obtain ⟨url, hurl'⟩ := hcollect.mp h.prefixes x hx
    exact (hvalid x hx url hurl').2
  · intro hsizes
    have hprefixes : collectPrefixes p t m.webUrlPrefixes [] = .ok m.webUrlPrefixes := by
      refine hcollect.mpr fun x hx => ?_
      obtain ⟨v, hv, url, hurl', rfl⟩ := (hbuilt.mem_prefixes x).mp hx
      exact ⟨url, (validateWebPrefix_again hurl hv hurl' url).mpr ⟨hsizes _ hx, rfl⟩⟩
    have hok : m.androidTargets.Nodup ∧
        ∀ v ∈ m.androidTargets, trimString p v = v ∧ validateAndroidTarget v = .ok () :=
      collectTargets_ok (fun v hv => ⟨trimString_trimString v, hv⟩) hbuilt.targets List.nodup_nil
        fun v hv => by cases hv
    have htargetsAgain : collectTargets p m.androidTargets [] = .ok m.androidTargets :=
      collectTargets_again hok.1 hok.2
    refine ⟨?_, ?_, ?_, ?_, htargetsAgain, hprefixes, hbuilt.some, ?_, ?_⟩
    · show validateScopeId "package id" m.id = .ok ()
      rw [hid]
      exact hbuilt.id
    · show checkLabel p "name" m.name = .ok ()
      rw [hname, checkLabel_trimmed]
      exact hbuilt.name
    · show isVersion (inputVersion p (some m.version))
      rw [hagain, hversion]
      exact hbuilt.version
    · show checkLabel p "author" m.author = .ok ()
      rw [hauthor, checkLabel_trimmed]
      exact hbuilt.author
    · show ∀ plugin ∈ m.plugins, validateScopeId "plugin id" plugin.1 = .ok ()
      rw [hplugins]
      exact hbuilt.plugins
    · show m = ⟨m.id, m.name.map (trimString p), inputVersion p (some m.version),
        m.author.map (trimString p), m.androidTargets, m.webUrlPrefixes, m.plugins, m.revision⟩
      have hnames : m.name.map (trimString p) = m.name := by rw [hname, htrimmed]
      have hauthors : m.author.map (trimString p) = m.author := by rw [hauthor, htrimmed]
      rw [hagain, hnames, hauthors]

/-- The strings of a manifest can be read exactly if its name and its author can. -/
theorem readable_iff (hurl : UrlsReparse p t input) (hbuilt : Built p t input revision m) :
    m.Readable ↔ (m.name.all isTomlText = true ∧ m.author.all isTomlText = true) ∧
      revision < 2 ^ 63 := by
  have hrevision : m.revision = revision := congrArg PackageManifest.revision hbuilt.same
  have hid : m.id = input.id := congrArg PackageManifest.id hbuilt.same
  have hversion : m.version = inputVersion p input.version :=
    congrArg PackageManifest.version hbuilt.same
  have hplugins : m.plugins = input.plugins := congrArg PackageManifest.plugins hbuilt.same
  constructor
  · exact fun h => ⟨⟨h.name, h.author⟩, hrevision ▸ h.revision⟩
  · rintro ⟨⟨hname, hauthor⟩, hlt⟩
    have htargets : m.androidTargets.Nodup ∧
        ∀ v ∈ m.androidTargets, validateAndroidTarget v = .ok () :=
      collectTargets_ok (fun v hv => hv) hbuilt.targets List.nodup_nil fun v hv => by cases hv
    refine ⟨?_, hname, ?_, hauthor, ?_, ?_, ?_, hrevision ▸ hlt⟩
    · rw [hid]
      exact isTomlText_of_scopeId hbuilt.id
    · rw [hversion]
      exact isTomlText_of_version hbuilt.version
    · exact List.all_eq_true.mpr fun v hv => isTomlText_of_target (htargets.2 v hv)
    · refine List.all_eq_true.mpr fun x hx => ?_
      obtain ⟨v, hv, url, hvalid, rfl⟩ := (hbuilt.mem_prefixes x).mp hx
      exact isTomlText_of_ascii (hurl.ascii v hv url hvalid)
    · rw [hplugins]
      exact List.all_eq_true.mpr fun plugin hplugin =>
        isTomlText_of_scopeId (hbuilt.plugins plugin hplugin)

/-- The manifest of an input is what its own text says exactly if the input is writable. -/
theorem parse_again_iff (hprinting : p.Printing) (hurl : UrlsReparse p t input)
    (hbuilt : Built p t input revision m)
    (htoml : t.readToml (manifestBytes m) = (docOf m).fields) :
    parsePackageToml p t (manifestBytes m) = some m ↔ input.Writable p t revision := by
  have hrevision : m.revision = revision := congrArg PackageManifest.revision hbuilt.same
  have hname : m.name = input.name.map (trimString p) :=
    congrArg PackageManifest.name hbuilt.same
  have hauthor : m.author = input.author.map (trimString p) :=
    congrArg PackageManifest.author hbuilt.same
  have hparse : parsePackageToml p t (manifestBytes m) = some m ↔
      m.Readable ∧ Built p t m.raw.1 m.revision m := by
    rw [parsePackageToml, htoml, Option.bind_eq_some_iff]
    constructor
    · rintro ⟨raw, hraw, hread⟩
      obtain ⟨hreadable, rfl⟩ := fields_docOf.mp hraw
      exact ⟨hreadable, intoManifest_iff.mp (toOption_eq_some.mp hread)⟩
    · rintro ⟨hreadable, hagain⟩
      exact ⟨m.raw, fields_docOf.mpr ⟨hreadable, rfl⟩,
        toOption_eq_some.mpr (intoManifest_iff.mpr hagain)⟩
  have hlabel : ∀ o : Option String, (o.map (trimString p)).all isTomlText = true ↔
      ∀ label, o = some label → isTomlText (trimString p label) = true := by
    intro o
    cases o <;> simp
  rw [hparse, readable_iff hurl hbuilt, built_again_iff hprinting hurl hbuilt, hname, hauthor, hlabel,
    hlabel]
  constructor
  · rintro ⟨⟨⟨hnames, hauthors⟩, hlt⟩, hsizes⟩
    refine ⟨fun label hlabel => hlabel.elim (hnames label) (hauthors label), hlt,
      fun v hv url hurl' => hsizes _ ((hbuilt.mem_prefixes _).mpr ⟨v, hv, ?_⟩)⟩
    obtain ⟨-, -, hall⟩ := collectPrefixes_ok hbuilt.prefixes List.nodup_nil
    obtain ⟨url', hvalid⟩ := hall v hv
    obtain ⟨-, -, hparse', -⟩ := validateWebPrefix_iff.mp hvalid
    cases hurl'.symm.trans hparse'
    exact ⟨url, hvalid, rfl⟩
  · intro hwritable
    refine ⟨⟨⟨fun label h => hwritable.labels label (.inl h),
      fun label h => hwritable.labels label (.inr h)⟩, hwritable.revision⟩, fun x hx => ?_⟩
    obtain ⟨v, hv, url, hvalid, rfl⟩ := (hbuilt.mem_prefixes x).mp hx
    obtain ⟨-, -, hparse', -⟩ := validateWebPrefix_iff.mp hvalid
    exact hwritable.prefixes v hv url hparse'

end

/-! ### The calls that write a manifest -/

section
open Prog
variable {p : Platform} {s : StoreFormats p}

inductive Save where
  | create (input : PackageInput)
  | update (pkg : String) (input : PackageInput) (expected : Option Nat) (force : Bool)

namespace Save

def input : Save → PackageInput
  | create input => input
  | update _ input _ _ => input

def run (p : Platform) (s : StoreFormats p) : Save → Step PackageManifest
  | create input => createPackage p s input
  | update pkg input expected force => updateManifest p s pkg input expected force

/-- The revision that is written, by what the store lists before the call. -/
def revision (s : StoreFormats p) (w : World) : Save → Nat
  | create _ => 1
  | update pkg _ _ _ => ((w.tryManifest s.media pkg).map fun m => m.revision + 1).getD 1

end Save

/-- RUN: a write that succeeds leaves the bytes under their name. -/
theorem atomicWrite_writes (pkg : String) (path : List String) (bytes : ByteArray) :
    Triple (fun _ => True) (atomicWrite pkg path bytes)
      (either (fun _ _ => True) fun _ w => w.file pkg path = some bytes) fun _ => True := by
  have hwrite : ∀ temp, Triple (fun _ => True) (writeTemp pkg temp bytes)
      (either (fun _ _ => True) fun _ w => w.file pkg temp = some bytes) fun _ => True := by
    intro temp
    refine .effect (fun _ _ => trivial) fun a w _ => ?_
    split_ifs
    · exact (file_putFile w pkg temp bytes pkg temp).trans (if_pos ⟨rfl, rfl⟩)
    · trivial
  have hmove : ∀ temp, Triple (fun w => w.file pkg temp = some bytes) (moveFile pkg temp path)
      (either (fun _ _ => True) fun _ w => w.file pkg path = some bytes) fun _ => True := by
    intro temp
    refine .effect (fun _ _ => trivial) fun a w hw => ?_
    rw [hw]
    dsimp only
    split_ifs
    · exact (file_putFile _ pkg path bytes pkg path).trans (if_pos ⟨rfl, rfl⟩)
    · trivial
  have hsync : Triple (fun w => w.file pkg path = some bytes) syncParent
      (either (fun _ _ => True) fun _ w => w.file pkg path = some bytes) fun _ => True := by
    refine .effect (fun _ _ => trivial) fun a w hw => ?_
    split_ifs
    · exact hw
    · trivial
  refine Triple.orFail_any (fun _ => .give fun _ _ => trivial) fun _ => ?_
  refine Triple.orFail_any (fun _ => .give fun _ _ => trivial) fun temp => ?_
  have hbody := (hwrite temp).andThen (fun _ _ _ => trivial) fun _ =>
    (hmove temp).andThen (fun _ _ _ => trivial) fun _ => hsync
  exact hbody.orFail (fun _ => Triple.any.bind fun _ => .give fun _ _ => trivial)
    fun _ => .give fun _ hw => hw

/-- What a call that succeeds has written. -/
structure Saved (p : Platform) (s : StoreFormats p) (input : PackageInput) (revision : Nat)
    (m : PackageManifest) (w : World) : Prop where
  built : Built p s.text input revision m
  file : w.file m.id manifestPath = some (manifestBytes m)

/-- RUN: the last step of both calls. -/
theorem write_saved {input : PackageInput} {revision : Nat} {m : PackageManifest}
    (hbuilt : Built p s.text input revision m) :
    Triple (fun _ => True)
      ((atomicWrite m.id manifestPath (manifestBytes m)).andThen fun _ => Prog.give (.ok m))
      (either (fun _ _ => True) fun m' => Saved p s input revision m') fun _ => True :=
  (atomicWrite_writes m.id manifestPath (manifestBytes m)).andThen (fun _ _ _ => trivial)
    fun _ => .give fun _ hw => ⟨hbuilt, hw⟩

/-- RUN: whatever the call runs into, a manifest that it returns is in its file. -/
theorem Save.run_saved (call : Save) (w₀ : World) :
    Triple (fun w => w = w₀) (call.run p s)
      (either (fun _ _ => True) fun m => Saved p s call.input (call.revision s w₀) m)
      fun _ => True := by
  cases call with
  | create input =>
    show Triple _ (createPackage p s input) _ _
    unfold createPackage
    split
    · exact .give fun _ _ => trivial
    · next m hm =>
      have hbuilt := intoManifest_iff.mp hm
      refine .reading fun w hw => ?_
      split_ifs
      · exact .give fun _ _ => trivial
      · refine (?_ : Triple (fun _ => True) _ _ _).pre fun _ _ => trivial
        refine Triple.orFail_any (fun _ => .pure fun _ _ => trivial) fun _ => ?_
        refine Triple.orFail_any (fun _ => .pure fun _ _ => trivial) fun _ => ?_
        exact Triple.orFail_any (fun _ => .pure fun _ _ => trivial) fun _ => write_saved hbuilt
  | update pkg input expected force =>
    show Triple _ (updateManifest p s pkg input expected force) _ _
    unfold updateManifest
    split
    · exact .give fun _ _ => trivial
    · next hid =>
      have hread : Triple (fun w => w = w₀) (readManifest p s pkg)
          (either (fun _ _ => True) fun m _ => w₀.tryManifest s.media pkg = some m)
          fun _ => True := by
        unfold readManifest
        split
        · exact .give fun _ _ => trivial
        · refine (tryRead_rule (fun _ _ => trivial) _ _).andThen (fun _ _ _ => trivial)
            fun found => ?_
          cases found with
          | none => exact .give fun _ _ => trivial
          | some m => exact .give fun w hw => (hw.1 ▸ hw.2).symm
      refine hread.andThen (fun _ _ _ => trivial) fun current =>
        (Triple.fact fun hcurrent => ?_).pre fun w hw => ⟨(trivial : True), hw⟩
      split
      · exact .give fun _ _ => trivial
      split
      · exact .give fun _ _ => trivial
      · next m hm =>
        have hpkg : pkg = m.id := by
          rw [(intoManifest_id hm).1]
          exact (Decidable.of_not_not hid).symm
        have hrevision : current.revision + 1 =
            (Save.update pkg input expected force).revision s w₀ := by
          rw [Save.revision, hcurrent]
          rfl
        rw [hrevision] at hm
        rw [hpkg]
        rw [hpkg] at hm
        exact write_saved (intoManifest_iff.mp hm)

/-! ### Read back -/

/-- TOML reads the text of a manifest by its literals, if each plugin stands in it once. -/
def StoreFormats.ReadsToml (s : StoreFormats p) (m : PackageManifest) : Prop :=
  (m.plugins.map Prod.fst).Nodup → s.text.readToml (manifestBytes m) = (docOf m).fields

/-- A manifest that a call returned is read back, and its package is listed, exactly if the input can
    be written: a control character in a name or an author can not. -/
theorem manifest_round_trip_iff {call : Save} {w₀ w : World} {tape rest : List Answer}
    {m : PackageManifest} (hrun : call.run p s tape w₀ = .done (.ok m) w rest)
    (hplugins : (call.input.plugins.map Prod.fst).Nodup) (hprinting : p.Printing)
    (hurl : UrlsReparse p s.text call.input) (htoml : s.ReadsToml m) :
    (parsePackageToml p s.text (manifestBytes m) = some m ∧ w.Lists p s m.id m) ↔
      call.input.Writable p s.text (call.revision s w₀) := by
  have hsaved : Saved p s call.input (call.revision s w₀) m w := by
    have hrule := Save.run_saved (p := p) (s := s) call w₀ tape w₀ rfl
    rw [hrun] at hrule
    exact hrule
  have hsame : m.plugins = call.input.plugins :=
    congrArg PackageManifest.plugins hsaved.built.same
  have hagain := parse_again_iff hprinting hurl hsaved.built (htoml (hsame ▸ hplugins))
  have hid : validateScopeId "package id" m.id = .ok () := by
    rw [congrArg PackageManifest.id hsaved.built.same]
    exact hsaved.built.id
  rw [← hagain, lists_iff, hsaved.file, Option.bind_some]
  exact ⟨fun h => h.1, fun h => ⟨h, hid, rfl, h⟩⟩

end

/-! ### A name with a bell in it -/

section

/-- What is read does not matter to the texts of one manifest. -/
def oneText (m : PackageManifest) : TextFormats where
  parseUrl _ := none
  readToml _ := (docOf m).fields

def oneFormat (m : PackageManifest) : StoreFormats plainPlatform :=
  { demoFormats with
    media := { demoFormats.media with
      parsePackageToml := parsePackageToml plainPlatform (oneText m) }
    text := oneText m
    parse := rfl }

/-- A package of this name for all apps. -/
def namedInput (name : String) : PackageInput := ⟨"demo", some name, none, none, ["*"], [], []⟩

def namedManifest (name : String) : PackageManifest :=
  ⟨"demo", some name, "0.1.0", none, ["*"], [], [], 1⟩

def bareWorld : World := { demoWorld with packages := fun _ => none }

/-- Every effect of the call works. -/
def workingTape : List Answer := List.replicate 8 ⟨true, "0", ""⟩

theorem named_succeeds (name : String)
    (hm : (namedInput name).intoManifest plainPlatform (oneText (namedManifest name)) 1 =
      .ok (namedManifest name)) :
    ∃ w rest, (Save.create (namedInput name)).run plainPlatform (oneFormat (namedManifest name))
      workingTape bareWorld = .done (.ok (namedManifest name)) w rest := by
  show ∃ w rest, createPackage plainPlatform (oneFormat (namedManifest name)) (namedInput name)
    workingTape bareWorld = .done (.ok (namedManifest name)) w rest
  unfold createPackage
  have hm' : (namedInput name).intoManifest plainPlatform (oneFormat (namedManifest name)).text 1 =
      .ok (namedManifest name) := hm
  rw [hm']
  exact ⟨_, [], rfl⟩

theorem one_printing : plainPlatform.Printing := by
  intro c hge hle
  have hne : ∀ d : Char, d.val < 33 → c ≠ d := by
    rintro d hd rfl
    exact absurd hd (UInt32.not_lt.mpr hge)
  show c.isWhitespace = false
  simp [Char.isWhitespace, hne ' ' (by decide), hne '\t' (by decide), hne '\r' (by decide),
    hne '\n' (by decide)]

theorem one_urls (m : PackageManifest) (name : String) :
    UrlsReparse plainPlatform (oneText m) (namedInput name) :=
  ⟨fun _ hv => (by cases hv), fun _ hv => (by cases hv)⟩

theorem chinese_name_round_trip : ∃ w rest,
    (Save.create (namedInput "演示")).run plainPlatform (oneFormat (namedManifest "演示"))
      workingTape bareWorld = .done (.ok (namedManifest "演示")) w rest ∧
    parsePackageToml plainPlatform (oneText (namedManifest "演示"))
      (manifestBytes (namedManifest "演示")) = some (namedManifest "演示") ∧
    w.Lists plainPlatform (oneFormat (namedManifest "演示")) "demo" (namedManifest "演示") := by
  obtain ⟨w, rest, hrun⟩ :=
    named_succeeds "演示" (toOption_eq_some.mp (by decide +kernel))
  refine ⟨w, rest, hrun, (manifest_round_trip_iff hrun List.nodup_nil one_printing (one_urls _ _)
    fun _ => rfl).mpr ⟨?_, by decide, fun _ hv => (by cases hv)⟩⟩
  rintro label (h | h)
  · cases h
    decide +kernel
  · cases h

/-- The call returns the manifest; the package is not in the list. -/
theorem bell_name_lost : ∃ w rest,
    (Save.create (namedInput "a\x07b")).run plainPlatform (oneFormat (namedManifest "a\x07b"))
      workingTape bareWorld = .done (.ok (namedManifest "a\x07b")) w rest ∧
    (oneFormat (namedManifest "a\x07b")).ReadsToml (namedManifest "a\x07b") ∧
    parsePackageToml plainPlatform (oneText (namedManifest "a\x07b"))
      (manifestBytes (namedManifest "a\x07b")) = none ∧
    ∀ m, ¬ w.Lists plainPlatform (oneFormat (namedManifest "a\x07b")) "demo" m := by
  obtain ⟨w, rest, hrun⟩ :=
    named_succeeds "a\x07b" (toOption_eq_some.mp (by decide +kernel))
  have hnone : parsePackageToml plainPlatform (oneText (namedManifest "a\x07b"))
      (manifestBytes (namedManifest "a\x07b")) = none := by decide +kernel
  have hfile : w.file "demo" manifestPath = some (manifestBytes (namedManifest "a\x07b")) := by
    have hrule := Save.run_saved (p := plainPlatform) (s := oneFormat (namedManifest "a\x07b"))
      (Save.create (namedInput "a\x07b")) bareWorld workingTape bareWorld rfl
    rw [hrun] at hrule
    exact hrule.file
  refine ⟨w, rest, hrun, fun _ => rfl, hnone, fun m hlists => ?_⟩
  have hread := (lists_iff.mp hlists).2.2
  rw [hfile, Option.bind_some] at hread
  cases hnone.symm.trans hread

end

end Gamer.Packages
