import Gamer.Lib.Graph
import Gamer.Lib.Results
import Gamer.Lib.Table
import Mathlib.Data.List.Sort
import Mathlib.Data.String.Basic

/-! The required dependencies of the installed extensions (extensions/service.rs): the order in
    which `startup_restore_order` restores the stale `Running` ones, and the depth-first search
    of `check_dependency_cycles` that a start runs first.

      list ──▶ one manifest for each installed id
        restore: the first id that waits for nothing left, or everything left if there is none
        check:   visit id ──▶ its required dependencies ──▶ … back on the path? a cycle

    `BTreeMap` and `BTreeSet` iterate in the order of the ids, so they are sorted lists here. -/

namespace Gamer.Extensions
open Gamer.Lib Relation

abbrev ExtensionId := String

/-- The errors of these functions; `other` is one of the store's, by its text. -/
inductive ExtensionError where
  | notInstalled (id : String)
  | invalidState (reason : String)
  | dependencyUnsatisfied (id reason : String)
  | other (text : String)
  deriving DecidableEq, Repr

def ExtensionError.display : ExtensionError → String
  | .notInstalled id => "插件未安装: " ++ id
  | .invalidState reason => "插件状态文件无效: " ++ reason
  | .dependencyUnsatisfied id reason => "必需依赖不满足，插件 " ++ id ++ " 无法启动: " ++ reason
  | .other text => text

structure ExtensionDependency where
  id : ExtensionId
  required : Bool

/-- `V` is the type of `ExtensionVersion`, which is ordered. -/
structure ExtensionManifest (V : Type) where
  id : ExtensionId
  version : V
  dependencies : List ExtensionDependency

structure InstalledExtension (V : Type) where
  manifest : ExtensionManifest V

structure ExtensionRecord (V : Type) where
  activeVersion : Option V

structure ExtensionSnapshot (V : Type) where
  manifest : ExtensionManifest V
  activeVersion : V
  installedVersions : List V

def ExtensionSnapshot.id {V : Type} (s : ExtensionSnapshot V) : ExtensionId := s.manifest.id

/-- What the extension store answers while one of these functions runs. -/
structure Store (V : Type) where
  refreshUiRegistry : Except ExtensionError Unit
  listInstalled : Except ExtensionError (List (InstalledExtension V))
  readState : Except ExtensionError (Table ExtensionId (ExtensionRecord V))

/-- The keys of a `BTreeMap` or `BTreeSet` built from `ids`, in its order. -/
def ordered (ids : List ExtensionId) : List ExtensionId := ids.dedup.insertionSort (· ≤ ·)

/-- `filter(|dependency| dependency.required())` over a manifest's declarations. -/
def ExtensionManifest.required {V : Type} (m : ExtensionManifest V) : List ExtensionId :=
  (m.dependencies.filter (·.required)).map (·.id)

section
variable {V : Type} [LinearOrder V]

/-! ### list -/

def stateForVersions (id : ExtensionId) (versions : List (InstalledExtension V))
    (record : Option (ExtensionRecord V)) : Except ExtensionError (ExtensionRecord V) :=
  match (versions.map (·.manifest.version)).max? with
  | none => .error (.notInstalled id)
  | some fallback =>
    let record := record.getD ⟨some fallback⟩
    if record.activeVersion.isNone ||
        !versions.any (fun e => decide (some e.manifest.version = record.activeVersion)) then
      .error (.invalidState ("插件 " ++ id ++ " 的 active_version 未安装"))
    else .ok record

def activeVersion (versions : List (InstalledExtension V)) (record : ExtensionRecord V) :
    Except ExtensionError (InstalledExtension V) :=
  match versions.find? (fun e => decide (some e.manifest.version = record.activeVersion)) with
  | some active => .ok active
  | none => .error (.invalidState "active_version 未安装")

def snapshotFromVersions (versions : List (InstalledExtension V)) (record : ExtensionRecord V) :
    Except ExtensionError (ExtensionSnapshot V) := do
  let active ← activeVersion versions record
  return ⟨active.manifest, active.manifest.version, versions.map (·.manifest.version)⟩

/-- One turn of the loop of `list` over the installed versions grouped by id. -/
def snapshotOf (installed : List (InstalledExtension V))
    (states : Table ExtensionId (ExtensionRecord V)) (id : ExtensionId) :
    Except ExtensionError (ExtensionSnapshot V) := do
  let versions := installed.filter (fun e => decide (e.manifest.id = id))
  let record ← stateForVersions id versions (states.get id)
  snapshotFromVersions versions record

/-- The active version of every installed extension. -/
def Store.list (store : Store V) : Except ExtensionError (List (ExtensionSnapshot V)) := do
  store.refreshUiRegistry
  let installed ← store.listInstalled
  let states ← store.readState
  let snapshots ← (ordered (installed.map (·.manifest.id))).mapM (snapshotOf installed states)
  match (ordered states.keys).find? (fun id => !snapshots.any (fun s => decide (s.id = id))) with
  | some id => .error (.invalidState ("插件 " ++ id ++ " 的状态记录没有对应安装版本"))
  | none => .ok snapshots

/-! ### startup_restore_order -/

/-- `required_dependencies`: the required dependencies of the listed candidates. -/
def requiredDependencies (candidates : List ExtensionId) (snapshots : List (ExtensionSnapshot V)) :
    Table ExtensionId (List ExtensionId) :=
  (snapshots.filter (fun s => candidates.contains s.id)).foldl
    (fun table s => table.set s.id s.manifest.required) ∅

/-- The candidate waits for none of the remaining ones. -/
def ready (required : Table ExtensionId (List ExtensionId)) (remaining : List ExtensionId)
    (id : ExtensionId) : Bool :=
  !(match required.get id with
    | some dependencies => dependencies.any (fun d => remaining.contains d)
    | none => false)

/-- The `while` loop: the first ready candidate goes next; without one the rest goes in id order. -/
def restoreLoop (required : Table ExtensionId (List ExtensionId)) (remaining order :
    List ExtensionId) : List ExtensionId :=
  match _hnext : remaining.find? (ready required remaining) with
  | some next => restoreLoop required (remaining.erase next) (order ++ [next])
  | none => order ++ remaining
termination_by remaining.length
decreasing_by
  have hmem : next ∈ remaining := List.mem_of_find?_eq_some _hnext
  have hpos : 0 < remaining.length := List.length_pos_of_mem hmem
  rw [List.length_erase_of_mem hmem]
  omega

def Store.startupRestoreOrder (store : Store V) (running : List ExtensionId) :
    Except ExtensionError (List ExtensionId) :=
  let candidates := ordered running
  match store.list with
  | .error error => .error (.invalidState ("启动恢复排序读取扩展快照失败: " ++ error.display))
  | .ok snapshots => .ok (restoreLoop (requiredDependencies candidates snapshots) candidates [])

/-! ### check_dependency_cycles -/

/-- The mutable state of the search. -/
structure Search where
  visiting : List ExtensionId
  visited : List ExtensionId
  path : List ExtensionId
  deriving DecidableEq

/-- `find_map` over the dependencies, the state threaded through; `none` if a visit has not
    ended within its bound. -/
def findMap (visit : ExtensionId → Search → Option (Option (List ExtensionId) × Search)) :
    List ExtensionId → Search → Option (Option (List ExtensionId) × Search)
  | [], s => some (none, s)
  | dependency :: rest, s =>
    match visit dependency s with
    | none => none
    | some (some cycle, s) => some (some cycle, s)
    | some (none, s) => findMap visit rest s

/-- The required dependencies of `current`, none if it has no manifest. -/
def dependenciesOf (manifests : Table ExtensionId (ExtensionManifest V)) (current : ExtensionId) :
    List ExtensionId :=
  match manifests.get current with
  | some manifest => manifest.required
  | none => []

/-- `visit`, with a bound on how deep its calls nest. -/
def visit (manifests : Table ExtensionId (ExtensionManifest V)) :
    Nat → ExtensionId → Search → Option (Option (List ExtensionId) × Search)
  | 0, _, _ => none
  | depth + 1, current, s =>
    match s.path.idxOf? current with
    | some start => some (some (s.path.drop start ++ [current]), s)
    | none =>
      if s.visited.contains current || s.visiting.contains current then some (none, s)
      else
        let entered : Search :=
          { s with visiting := current :: s.visiting, path := s.path ++ [current] }
        match findMap (visit manifests depth) (dependenciesOf manifests current) entered with
        | none => none
        | some (result, s) => some (result,
            { visiting := s.visiting.filter (· ≠ current)
              visited := current :: s.visited
              path := s.path.dropLast })

def cycleReason (cycle : List ExtensionId) : String :=
  "必需依赖形成循环（" ++ "→".intercalate cycle ++ "），请调整 [[dependencies]] 声明"

/-- `manifests`: the listed ones, with the manifest that is being started over its own id. -/
def manifestsFor (snapshots : List (ExtensionSnapshot V)) (id : ExtensionId)
    (manifest : ExtensionManifest V) : Table ExtensionId (ExtensionManifest V) :=
  let listed : Table ExtensionId (ExtensionManifest V) :=
    snapshots.foldl (fun table s => table.set s.id s.manifest) ∅
  listed.set id manifest

/-- `check_dependency_cycles`; `none` if the calls of `visit` nest deeper than `depth`. -/
def Store.checkDependencyCycles (store : Store V) (depth : Nat) (id : ExtensionId)
    (manifest : ExtensionManifest V) : Option (Except ExtensionError Unit) :=
  match store.list with
  | .error error => some (.error error)
  | .ok snapshots =>
    match visit (manifestsFor snapshots id manifest) depth id ⟨[], [], []⟩ with
    | none => none
    | some (none, _) => some (.ok ())
    | some (some cycle, _) => some (.error (.dependencyUnsatisfied id (cycleReason cycle)))

/-! ### What list answers -/

theorem mem_ordered {id : ExtensionId} {ids : List ExtensionId} : id ∈ ordered ids ↔ id ∈ ids := by
  rw [ordered, List.mem_insertionSort, List.mem_dedup]

theorem ordered_perm (ids : List ExtensionId) : (ordered ids).Perm ids.dedup :=
  List.perm_insertionSort _ _

theorem ordered_nodup (ids : List ExtensionId) : (ordered ids).Nodup :=
  (ordered_perm ids).nodup_iff.mpr ids.nodup_dedup

/-- The snapshot of an id is the one of its active version. -/
theorem snapshotOf_id {installed : List (InstalledExtension V)}
    {states : Table ExtensionId (ExtensionRecord V)} {id : ExtensionId} {s : ExtensionSnapshot V}
    (h : snapshotOf installed states id = .ok s) : s.id = id := by
  obtain ⟨record, _, h⟩ := bind_eq_ok.mp h
  obtain ⟨active, hactive, h⟩ := bind_eq_ok.mp h
  cases h
  rw [activeVersion] at hactive
  split at hactive
  · rename_i e hfind
    cases hactive
    have hmem := List.mem_of_find?_eq_some hfind
    exact of_decide_eq_true (List.mem_filter.mp hmem).2
  · cases hactive

theorem mapM_ids {installed : List (InstalledExtension V)}
    {states : Table ExtensionId (ExtensionRecord V)} :
    ∀ {ids : List ExtensionId} {snapshots : List (ExtensionSnapshot V)},
      ids.mapM (snapshotOf installed states) = .ok snapshots → snapshots.map (·.id) = ids
  | [], _, h => by
    cases h
    rfl
  | id :: ids, _, h => by
    rw [List.mapM_cons] at h
    obtain ⟨s, hs, h⟩ := bind_eq_ok.mp h
    obtain ⟨rest, hrest, h⟩ := bind_eq_ok.mp h
    cases h
    rw [List.map_cons, snapshotOf_id hs, mapM_ids hrest]

/-- Every installed id is listed once. -/
theorem list_nodup {store : Store V} {snapshots : List (ExtensionSnapshot V)}
    (h : store.list = .ok snapshots) : (snapshots.map (·.id)).Nodup := by
  obtain ⟨_, _, h⟩ := bind_eq_ok.mp h
  obtain ⟨installed, _, h⟩ := bind_eq_ok.mp h
  obtain ⟨states, _, h⟩ := bind_eq_ok.mp h
  obtain ⟨listed, hlisted, h⟩ := bind_eq_ok.mp h
  have heq : snapshots = listed := by
    split at h
    · cases h
    · cases h
      rfl
  rw [heq, mapM_ids hlisted]
  exact ordered_nodup _

/-! ### The restore order -/

/-- `x` requires `y`, and both are among the extensions to restore. -/
def Waits (running : List ExtensionId) (snapshots : List (ExtensionSnapshot V))
    (x y : ExtensionId) : Prop :=
  x ∈ running ∧ y ∈ running ∧ ∃ s ∈ snapshots, s.id = x ∧ y ∈ s.manifest.required

omit [LinearOrder V] in
theorem get_requiredDependencies {snapshots : List (ExtensionSnapshot V)}
    (hnodup : (snapshots.map (·.id)).Nodup) {candidates : List ExtensionId} {x : ExtensionId}
    {dependencies : List ExtensionId} :
    (requiredDependencies candidates snapshots).get x = some dependencies ↔
      x ∈ candidates ∧ ∃ s ∈ snapshots, s.id = x ∧ s.manifest.required = dependencies := by
  have hsub : ((snapshots.filter fun s => candidates.contains s.id).map (·.id)).Nodup :=
    hnodup.sublist (List.filter_sublist.map _)
  rw [requiredDependencies,
    Table.get_foldl_set ExtensionSnapshot.id (·.manifest.required) _ _ hsub]
  constructor
  · rintro (⟨s, hs, rfl, hdeps⟩ | ⟨_, h⟩)
    · obtain ⟨hs, hcand⟩ := List.mem_filter.mp hs
      exact ⟨List.contains_iff_mem.mp hcand, s, hs, rfl, hdeps⟩
    · rw [Table.get_empty] at h
      cases h
  · rintro ⟨hcand, s, hs, rfl, hdeps⟩
    exact .inl ⟨s, List.mem_filter.mpr ⟨hs, List.contains_iff_mem.mpr hcand⟩, rfl, hdeps⟩

/-- What a ready candidate requires is not among the remaining ones. -/
theorem not_mem_of_ready {required : Table ExtensionId (List ExtensionId)}
    {remaining dependencies : List ExtensionId} {x y : ExtensionId}
    (h : ready required remaining x = true) (hx : required.get x = some dependencies)
    (hy : y ∈ dependencies) : y ∉ remaining := by
  intro hmem
  rw [ready, hx, Bool.not_eq_true', List.any_eq_false] at h
  exact h y hy (List.contains_iff_mem.mpr hmem)

/-- A candidate that is not ready requires a remaining one. -/
theorem waits_of_not_ready {required : Table ExtensionId (List ExtensionId)}
    {remaining : List ExtensionId} {x : ExtensionId} (h : ¬ ready required remaining x = true) :
    ∃ dependencies, required.get x = some dependencies ∧ ∃ y ∈ dependencies, y ∈ remaining := by
  rw [ready] at h
  cases hx : required.get x with
  | none =>
    rw [hx] at h
    exact absurd rfl h
  | some dependencies =>
    rw [hx, Bool.not_eq_true', Bool.not_eq_false, List.any_eq_true] at h
    obtain ⟨y, hy, hmem⟩ := h
    exact ⟨dependencies, rfl, y, hy, List.contains_iff_mem.mp hmem⟩

/-- RUN: the loop emits what remains, and of two remaining candidates one of which requires the
    other the required one goes first, unless a cycle can be reached. -/
theorem restoreLoop_order {required : Table ExtensionId (List ExtensionId)}
    {waits : ExtensionId → ExtensionId → Prop} {all : List ExtensionId}
    (hwaits : ∀ x y, waits x y ↔
      x ∈ all ∧ y ∈ all ∧ ∃ dependencies, required.get x = some dependencies ∧ y ∈ dependencies)
    (remaining order : List ExtensionId) (hsub : ∀ x ∈ remaining, x ∈ all) :
    ∃ tail, restoreLoop required remaining order = order ++ tail ∧ tail.Perm remaining ∧
      ∀ x ∈ remaining, ∀ y ∈ remaining, waits x y → ¬ ReachesCycle waits x →
        tail.idxOf y < tail.idxOf x := by
  fun_induction restoreLoop required remaining order with
  | case1 remaining order next hnext ih =>
    have hready := List.find?_some hnext
    have hmem : next ∈ remaining := List.mem_of_find?_eq_some hnext
    obtain ⟨tail, heq, hperm, hfirst⟩ := ih fun x hx => hsub x (List.mem_of_mem_erase hx)
    refine ⟨next :: tail, by rw [heq, List.append_assoc, List.singleton_append],
      (hperm.cons next).trans (List.perm_cons_erase hmem).symm, ?_⟩
    intro x hx y hy hxy hfree
    obtain ⟨_, _, dependencies, hdeps, hydeps⟩ := (hwaits x y).mp hxy
    have hne : x ≠ next := by
      rintro rfl
      exact not_mem_of_ready hready hdeps hydeps hy
    have hx' : x ∈ remaining.erase next := (List.mem_erase_of_ne hne).mpr hx
    rw [List.idxOf_cons_ne tail hne.symm]
    by_cases hyn : y = next
    · rw [hyn, List.idxOf_cons_self]
      omega
    · have hlt := hfirst x hx' y ((List.mem_erase_of_ne hyn).mpr hy) hxy hfree
      rw [List.idxOf_cons_ne tail (Ne.symm hyn)]
      omega
  | case2 remaining order hnone =>
    refine ⟨remaining, rfl, .refl _, ?_⟩
    intro x hx y hy hxy hfree
    -- nothing is ready, so what remains has no sink
    refine absurd (reachesCycle_of_no_sink (s := {z | z ∈ remaining}) remaining.finite_toSet ?_ hx)
      hfree
    intro z hz
    obtain ⟨dependencies, hdeps, w, hw, hwrem⟩ :=
      waits_of_not_ready (List.find?_eq_none.mp hnone z hz)
    exact ⟨w, hwrem, (hwaits z w).mpr ⟨hsub z hz, hsub w hwrem, dependencies, hdeps, hw⟩⟩

/-- The dependencies of an extension that reaches no cycle, direct or not, are restored first. -/
theorem idxOf_lt_of_waits {waits : ExtensionId → ExtensionId → Prop} {order : List ExtensionId}
    (hfirst : ∀ x y, waits x y → ¬ ReachesCycle waits x → order.idxOf y < order.idxOf x)
    {x y : ExtensionId} (hxy : TransGen waits x y) (hfree : ¬ ReachesCycle waits x) :
    order.idxOf y < order.idxOf x := by
  induction hxy with
  | single hstep => exact hfirst x _ hstep hfree
  | @tail b c hxb hbc ih =>
    have hfreeb : ¬ ReachesCycle waits b := fun h => hfree (h.of_reaches hxb.to_reflTransGen)
    exact (hfirst b c hbc hfreeb).trans ih

theorem startupRestoreOrder_spec {store : Store V} {snapshots : List (ExtensionSnapshot V)}
    (hlist : store.list = .ok snapshots) (running : List ExtensionId) :
    ∃ order, store.startupRestoreOrder running = .ok order ∧ order.Perm running.dedup ∧
      ∀ x y, TransGen (Waits running snapshots) x y →
        ¬ ReachesCycle (Waits running snapshots) x → order.idxOf y < order.idxOf x := by
  have hnodup := list_nodup hlist
  have hwaits : ∀ x y, Waits running snapshots x y ↔
      x ∈ ordered running ∧ y ∈ ordered running ∧ ∃ dependencies,
        (requiredDependencies (ordered running) snapshots).get x = some dependencies ∧
          y ∈ dependencies := by
    intro x y
    rw [mem_ordered, mem_ordered]
    constructor
    · rintro ⟨hx, hy, s, hs, hid, hreq⟩
      exact ⟨hx, hy, _, (get_requiredDependencies hnodup).mpr
        ⟨mem_ordered.mpr hx, s, hs, hid, rfl⟩, hreq⟩
    · rintro ⟨hx, hy, dependencies, hget, hreq⟩
      obtain ⟨_, s, hs, hid, rfl⟩ := (get_requiredDependencies hnodup).mp hget
      exact ⟨hx, hy, s, hs, hid, hreq⟩
  obtain ⟨order, heq, hperm, hfirst⟩ :=
    restoreLoop_order hwaits (ordered running) [] fun _ h => h
  refine ⟨order, ?_, hperm.trans (ordered_perm running), ?_⟩
  · rw [Store.startupRestoreOrder, hlist]
    exact congrArg Except.ok heq
  · intro x y hxy hfree
    refine idxOf_lt_of_waits (fun x y hstep hx => ?_) hxy hfree
    obtain ⟨hxm, hym, _⟩ := (hwaits x y).mp hstep
    exact hfirst x hxm y hym hstep hx

/-! ### The search for a cycle -/

omit [LinearOrder V]

/-- `x` requires `y` by the manifest that is consulted for `x`. -/
def Requires (manifests : Table ExtensionId (ExtensionManifest V)) (x y : ExtensionId) : Prop :=
  ∃ manifest, manifests.get x = some manifest ∧ y ∈ manifest.required

/-- INVARIANT: what is being visited is on the path, what has been visited reaches no cycle. -/
structure Search.Ok (manifests : Table ExtensionId (ExtensionManifest V)) (s : Search) : Prop where
  visiting : ∀ x ∈ s.visiting, x ∈ s.path
  visited : ∀ x ∈ s.visited, ¬ ReachesCycle (Requires manifests) x

/-- What visiting `targets` in turn answers: a cycle that one of them reaches, or that none does. -/
inductive Answered (manifests : Table ExtensionId (ExtensionManifest V))
    (targets path : List ExtensionId) : Option (Option (List ExtensionId) × Search) → Prop
  | found {x : ExtensionId} {cycle : List ExtensionId} {s : Search} (hx : x ∈ targets)
      (hcycle : ReachesCycle (Requires manifests) x) :
      Answered manifests targets path (some (some cycle, s))
  | clear {s : Search} (hok : s.Ok manifests) (hpath : s.path = path)
      (hfree : ∀ x ∈ targets, ¬ ReachesCycle (Requires manifests) x) :
      Answered manifests targets path (some (none, s))

/-- RULE: `find_map` answers for the list what the visits answer for its members. -/
theorem findMap_answered {manifests : Table ExtensionId (ExtensionManifest V)}
    {path : List ExtensionId}
    (visit : ExtensionId → Search → Option (Option (List ExtensionId) × Search)) :
    ∀ {targets : List ExtensionId} {s : Search},
      (∀ x ∈ targets, ∀ s : Search, s.Ok manifests → s.path = path →
        Answered manifests [x] path (visit x s)) →
      s.Ok manifests → s.path = path → Answered manifests targets path (findMap visit targets s)
  | [], _, _, hok, hpath => .clear hok hpath fun _ h => absurd h List.not_mem_nil
  | x :: targets, s, hvisit, hok, hpath => by
    obtain ⟨hx, hrest⟩ := List.forall_mem_cons.mp hvisit
    have hfirst := hx s hok hpath
    rw [findMap]
    generalize visit x s = answer at hfirst
    cases hfirst with
    | found hmem hcycle =>
      rw [List.mem_singleton.mp hmem] at hcycle
      exact .found List.mem_cons_self hcycle
    | clear hok hpath hfree =>
      have hxfree := hfree x (List.mem_singleton.mpr rfl)
      have hall := findMap_answered visit hrest hok hpath
      dsimp only
      generalize findMap visit targets _ = answer at hall
      cases hall with
      | found hmem hcycle => exact .found (List.mem_cons_of_mem _ hmem) hcycle
      | clear hok hpath hfree =>
        exact .clear hok hpath (List.forall_mem_cons.mpr ⟨hxfree, hfree⟩)

/-- FRAME: the node that is entered is on the path. -/
theorem Search.Ok.entered {manifests : Table ExtensionId (ExtensionManifest V)} {s : Search}
    (hok : s.Ok manifests) (current : ExtensionId) :
    Search.Ok manifests
      { s with visiting := current :: s.visiting, path := s.path ++ [current] } := by
  refine ⟨fun x hx => ?_, hok.visited⟩
  rcases List.mem_cons.mp hx with rfl | hx
  · exact List.mem_append_right _ (List.mem_singleton.mpr rfl)
  · exact List.mem_append_left _ (hok.visiting x hx)

/-- FRAME: a node that reaches no cycle is left as visited. -/
theorem Search.Ok.left {manifests : Table ExtensionId (ExtensionManifest V)} {s : Search}
    {current : ExtensionId} {path : List ExtensionId} (hok : s.Ok manifests)
    (hpath : s.path = path ++ [current])
    (hfree : ¬ ReachesCycle (Requires manifests) current) :
    Search.Ok manifests
      { visiting := s.visiting.filter (· ≠ current)
        visited := current :: s.visited
        path := s.path.dropLast } := by
  refine ⟨fun x hx => ?_, List.forall_mem_cons.mpr ⟨hfree, hok.visited⟩⟩
  obtain ⟨hx, hne⟩ := List.mem_filter.mp hx
  have hmem := hok.visiting x hx
  rw [hpath] at hmem ⊢
  rw [List.dropLast_concat]
  rcases List.mem_append.mp hmem with h | h
  · exact h
  · exact absurd (List.mem_singleton.mp h) (of_decide_eq_true hne)

/-- What `visit` looks up is what `Requires` speaks of. -/
theorem mem_dependenciesOf {manifests : Table ExtensionId (ExtensionManifest V)}
    {x y : ExtensionId} : y ∈ dependenciesOf manifests x ↔ Requires manifests x y := by
  rw [Requires, dependenciesOf]
  cases manifests.get x with
  | none => simp
  | some manifest => simp

/-- STEP: a visit answers for its node. The path is a walk to the node through distinct ids that
    have manifests, so its length bounds how deep the calls still nest. -/
theorem visit_answered {manifests : Table ExtensionId (ExtensionManifest V)} :
    ∀ (depth : Nat) (current : ExtensionId) (s : Search), s.Ok manifests → s.path.Nodup →
      s.path ⊆ manifests.keys → manifests.keys.length < depth + s.path.length →
      (∀ x ∈ s.path, TransGen (Requires manifests) x current) →
      Answered manifests [current] s.path (visit manifests depth current s)
  | 0, _, s, _, hnodup, hsub, hroom, _ => by
    have hle : s.path.length ≤ manifests.keys.length := (hnodup.subperm hsub).length_le
    omega
  | depth + 1, current, s, hok, hnodup, hsub, hroom, hwalk => by
    have hself : current ∈ [current] := List.mem_singleton.mpr rfl
    rw [visit]
    split
    · rename_i start hstart
      have hmem : current ∈ s.path := by
        by_contra hnot
        rw [List.idxOf?_eq_none_iff.mpr hnot] at hstart
        cases hstart
      exact .found hself (.of_cycle (hwalk current hmem))
    · rename_i hstart
      have hnot : current ∉ s.path := List.idxOf?_eq_none_iff.mp hstart
      split
      · rename_i hseen
        refine .clear hok rfl fun x hx => ?_
        rw [List.mem_singleton.mp hx]
        rcases Bool.or_eq_true _ _ ▸ hseen with hvisited | hvisiting
        · exact hok.visited current (List.contains_iff_mem.mp hvisited)
        · exact absurd (hok.visiting current (List.contains_iff_mem.mp hvisiting)) hnot
      · rename_i hseen
        have hall := findMap_answered (visit manifests depth)
          (fun y (hy : y ∈ dependenciesOf manifests current) => ?_) (hok.entered current) rfl
        · dsimp only
          generalize findMap (visit manifests depth) _ _ = answer at hall
          cases hall with
          | found hmem hcycle =>
            have hneeds : Requires manifests current _ := mem_dependenciesOf.mp hmem
            exact .found hself (hcycle.of_reaches (.single hneeds))
          | clear hok hpath hfree =>
            have hcurrent : ¬ ReachesCycle (Requires manifests) current := by
              intro h
              obtain ⟨y, hy, hcycle⟩ := h.step
              exact hfree y (mem_dependenciesOf.mpr hy) hcycle
            exact .clear (hok.left hpath hcurrent)
              (by rw [hpath, List.dropLast_concat]) (List.forall_mem_singleton.mpr hcurrent)
        · intro s' hok' hpath'
          have hneeds : Requires manifests current y := mem_dependenciesOf.mp hy
          have hkey : current ∈ manifests.keys := by
            obtain ⟨manifest, hget, _⟩ := hneeds
            have hsome : (manifests.get current).isSome = true := by
              rw [hget]
              rfl
            exact AList.mem_keys.mpr (AList.lookup_isSome.mp hsome)
          rw [← hpath']
          refine visit_answered depth y s' hok' ?_ ?_ ?_ ?_ <;> rw [hpath']
          · exact List.nodup_append.mpr ⟨hnodup, List.nodup_singleton _, fun x hx z hz heq =>
              hnot (List.mem_singleton.mp hz ▸ heq ▸ hx)⟩
          · exact List.append_subset.mpr ⟨hsub, List.cons_subset.mpr ⟨hkey, List.nil_subset _⟩⟩
          · rw [List.length_append, List.length_singleton]
            omega
          · intro x hx
            rcases List.mem_append.mp hx with hx | hx
            · exact (hwalk x hx).tail hneeds
            · rw [List.mem_singleton.mp hx]
              exact .single hneeds

/-- `x` requires `y` in the installed graph, with `manifest` in the place of what is installed
    as `id`. -/
def InstalledRequires (snapshots : List (ExtensionSnapshot V)) (id : ExtensionId)
    (manifest : ExtensionManifest V) (x y : ExtensionId) : Prop :=
  x = id ∧ y ∈ manifest.required ∨
    x ≠ id ∧ ∃ s ∈ snapshots, s.id = x ∧ y ∈ s.manifest.required

theorem requires_manifestsFor {snapshots : List (ExtensionSnapshot V)}
    (hnodup : (snapshots.map (·.id)).Nodup) (id : ExtensionId) (manifest : ExtensionManifest V) :
    Requires (manifestsFor snapshots id manifest) = InstalledRequires snapshots id manifest := by
  funext x y
  rw [Requires, InstalledRequires, manifestsFor]
  by_cases hx : x = id
  · subst hx
    simp
  · rw [Table.get_set_ne hx]
    simp only [hx, false_and, false_or, ne_eq, not_false_eq_true, true_and,
      Table.get_foldl_set ExtensionSnapshot.id (·.manifest) snapshots ∅ hnodup, Table.get_empty,
      reduceCtorEq, and_false, or_false, eq_iff_iff]
    constructor
    · rintro ⟨_, ⟨s, hs, hid, rfl⟩, hreq⟩
      exact ⟨s, hs, hid, hreq⟩
    · rintro ⟨s, hs, hid, hreq⟩
      exact ⟨_, ⟨s, hs, hid, rfl⟩, hreq⟩

theorem checkDependencyCycles_spec [LinearOrder V] {store : Store V}
    {snapshots : List (ExtensionSnapshot V)} (hlist : store.list = .ok snapshots)
    (id : ExtensionId) (manifest : ExtensionManifest V) {depth : Nat}
    (hdepth : (manifestsFor snapshots id manifest).keys.length < depth) :
    ∃ answer, store.checkDependencyCycles depth id manifest = some answer ∧
      (answer = .ok () ↔ ¬ ReachesCycle (InstalledRequires snapshots id manifest) id) ∧
      ((∃ reason, answer = .error (.dependencyUnsatisfied id reason)) ↔
        ReachesCycle (InstalledRequires snapshots id manifest) id) := by
  have hstart : Search.Ok (manifestsFor snapshots id manifest) ⟨[], [], []⟩ :=
    ⟨fun _ h => absurd h List.not_mem_nil, fun _ h => absurd h List.not_mem_nil⟩
  have hanswer := visit_answered depth id ⟨[], [], []⟩ hstart List.nodup_nil
    (List.nil_subset _) hdepth fun _ h => absurd h List.not_mem_nil
  rw [Store.checkDependencyCycles, hlist]
  dsimp only
  generalize visit (manifestsFor snapshots id manifest) depth id ⟨[], [], []⟩ = found at hanswer
  rw [← requires_manifestsFor (list_nodup hlist)]
  cases hanswer with
  | found hmem hcycle =>
    rw [List.mem_singleton.mp hmem] at hcycle
    refine ⟨_, rfl, ⟨fun h => ?_, fun h => absurd hcycle h⟩, fun _ => hcycle, fun _ => ⟨_, rfl⟩⟩
    cases h
  | clear _ _ hfree =>
    have hid := hfree id (List.mem_singleton.mpr rfl)
    refine ⟨_, rfl, ⟨fun _ => hid, fun _ => rfl⟩, ?_, fun h => absurd h hid⟩
    rintro ⟨_, h⟩
    cases h

/-! ### Both -/

/-- SAFETY: the stale extensions are restored each once, and one that reaches no cycle of
    required dependencies among them after all that it requires, directly or not; a start is
    refused for a cycle exactly if one can be reached from the extension in the installed graph,
    and no graph makes the search nest without end. -/
theorem restored_in_order_and_cycles_refused [LinearOrder V] {store : Store V}
    {snapshots : List (ExtensionSnapshot V)} (hlist : store.list = .ok snapshots) :
    (∀ running, ∃ order, store.startupRestoreOrder running = .ok order ∧
      order.Perm running.dedup ∧
      ∀ x y, TransGen (Waits running snapshots) x y →
        ¬ ReachesCycle (Waits running snapshots) x → order.idxOf y < order.idxOf x) ∧
    ∀ id manifest, ∃ bound, ∀ depth ≥ bound,
      ∃ answer, store.checkDependencyCycles depth id manifest = some answer ∧
        (answer = .ok () ↔ ¬ ReachesCycle (InstalledRequires snapshots id manifest) id) ∧
        ((∃ reason, answer = .error (.dependencyUnsatisfied id reason)) ↔
          ReachesCycle (InstalledRequires snapshots id manifest) id) := by
  refine ⟨startupRestoreOrder_spec hlist, fun id manifest => ?_⟩
  exact ⟨(manifestsFor snapshots id manifest).keys.length + 1, fun depth hdepth =>
    checkDependencyCycles_spec hlist id manifest (by omega)⟩

/-! ### A loop behind a shared node -/

def manifestOf (id : ExtensionId) (required : List ExtensionId) : ExtensionManifest Nat :=
  ⟨id, 1, required.map fun d => ⟨d, true⟩⟩

/-- `a` and `b` both require `c`, which requires itself by way of `d`. -/
def looped : Store Nat where
  refreshUiRegistry := .ok ()
  listInstalled := .ok [⟨manifestOf "a" ["b", "c"]⟩, ⟨manifestOf "b" ["c"]⟩,
    ⟨manifestOf "c" ["d"]⟩, ⟨manifestOf "d" ["c"]⟩]
  readState := .ok ∅

/-- The snapshots of the four. -/
def loopedSnapshots : List (ExtensionSnapshot Nat) :=
  [⟨manifestOf "a" ["b", "c"], 1, [1]⟩, ⟨manifestOf "b" ["c"], 1, [1]⟩,
    ⟨manifestOf "c" ["d"], 1, [1]⟩, ⟨manifestOf "d" ["c"], 1, [1]⟩]

/-- `b` is restored before `a`, and the start of `a` is refused for what is behind `c`. -/
theorem looped_restored_and_refused :
    (∃ order, looped.startupRestoreOrder ["b", "a"] = .ok order ∧
      order.idxOf "b" < order.idxOf "a") ∧
    ∃ bound, ∀ depth ≥ bound, ∃ reason,
      looped.checkDependencyCycles depth "a" (manifestOf "a" ["b", "c"]) =
        some (.error (.dependencyUnsatisfied "a" reason)) := by
  have hlist : looped.list = .ok loopedSnapshots := rfl
  obtain ⟨hrestored, hrefused⟩ := restored_in_order_and_cycles_refused hlist
  constructor
  · obtain ⟨order, horder, _, hfirst⟩ := hrestored ["b", "a"]
    have hab : Waits ["b", "a"] loopedSnapshots "a" "b" :=
      ⟨by decide, by decide, _, .head _, rfl, by decide⟩
    refine ⟨order, horder, hfirst "a" "b" (.single hab) fun hcycle => ?_⟩
    have hstep : ∀ x y, Waits ["b", "a"] loopedSnapshots x y → x = "a" ∧ y = "b" := by
      intro x y hxy
      simp [Waits, loopedSnapshots, ExtensionSnapshot.id, manifestOf,
        ExtensionManifest.required] at hxy
      grind
    obtain ⟨y, hay, hy⟩ := hcycle.step
    obtain ⟨z, hbz, _⟩ := hy.step
    rw [(hstep _ _ hay).2] at hbz
    exact absurd (hstep _ _ hbz).1 (by decide)
  · obtain ⟨bound, hbound⟩ := hrefused "a" (manifestOf "a" ["b", "c"])
    refine ⟨bound, fun depth hdepth => ?_⟩
    obtain ⟨answer, hanswer, _, herror⟩ := hbound depth hdepth
    have hedge : ∀ x y, x ≠ "a" → (∃ s ∈ loopedSnapshots, s.id = x ∧ y ∈ s.manifest.required) →
        InstalledRequires loopedSnapshots "a" (manifestOf "a" ["b", "c"]) x y :=
      fun _ _ hne h => .inr ⟨hne, h⟩
    have hac : InstalledRequires loopedSnapshots "a" (manifestOf "a" ["b", "c"]) "a" "c" :=
      .inl ⟨rfl, by decide⟩
    have hcd := hedge "c" "d" (by decide) ⟨_, .tail _ (.tail _ (.head _)), rfl, by decide⟩
    have hdc := hedge "d" "c" (by decide) ⟨_, .tail _ (.tail _ (.tail _ (.head _))), rfl, by decide⟩
    obtain ⟨reason, rfl⟩ := herror.mpr ⟨"c", .single hac, .tail (.single hcd) hdc⟩
    exact ⟨reason, hanswer⟩

end

end Gamer.Extensions
