import Mathlib.Data.List.TakeWhile
import Gamer.Updater.Archive

/-! What is in the staging directory when an extraction succeeds, and what it may write before. -/

namespace Gamer.Updater.Archive
open Gamer.Lib Gamer.Lib.Prog Gamer.Updater.Files Gamer.Updater.PathSafe

/-! ### Names and paths -/

/-- A name is what is left of it and the slashes that were trimmed. -/
theorem toList_eq_clean (name : String) :
    ∃ k, name.toList = (clean name).toList ++ List.replicate k '/' := by
  refine ⟨(name.toList.reverse.takeWhile (· = '/')).length, ?_⟩
  have hslashes : name.toList.reverse.takeWhile (· = '/') =
      List.replicate (name.toList.reverse.takeWhile (· = '/')).length '/' := by
    refine List.eq_replicate_of_mem fun c hc => ?_
    simpa using List.mem_takeWhile_imp hc
  have hsplit := List.takeWhile_append_dropWhile (p := (· = '/')) (l := name.toList.reverse)
  rw [clean, String.toList_ofList, ← List.reverse_replicate, ← List.reverse_append, ← hslashes,
    hsplit, List.reverse_reverse]

/-- A slash at the end adds an empty name, which is dropped. -/
theorem components_slash (l : List Char) :
    components (String.ofList (l ++ ['/'])) = components (String.ofList l) := by
  unfold components
  rw [String.toList_ofList, String.toList_ofList, List.map_append, List.map_singleton,
    if_neg (by decide), List.splitOn_append_cons_self, List.splitOn_nil, List.map_append,
    List.filter_append]
  simp

theorem components_slashes (l : List Char) (k : Nat) :
    components (String.ofList (l ++ List.replicate k '/')) = components (String.ofList l) := by
  induction k with
  | zero => simp
  | succ k ih => rw [List.replicate_succ', ← List.append_assoc, components_slash, ih]

/-- Trimmed slashes do not matter to where a name leads. -/
theorem components_clean (name : String) : components (clean name) = components name := by
  obtain ⟨k, hk⟩ := toList_eq_clean name
  calc components (clean name)
      = components (String.ofList (clean name).toList) := by rw [String.ofList_toList]
    _ = components (String.ofList name.toList) := by rw [hk, components_slashes]
    _ = components name := by rw [String.ofList_toList]

/-- The segments of a safe name are its components. -/
theorem components_safe {p : String} (h : Safe p) :
    components p = (p.toList.splitOn '/').map String.ofList := by
  have hmap : (p.toList.map fun c => if c = '\\' then '/' else c) = p.toList := by
    refine (List.map_congr_left fun c hc => ?_).trans (List.map_id _)
    exact if_neg fun heq : c = '\\' => h.backslash (heq ▸ hc)
  unfold components
  rw [hmap, List.filter_eq_self]
  intro name hname
  obtain ⟨seg, hseg, rfl⟩ := List.mem_map.mp hname
  obtain ⟨hne, hdot, -⟩ := h.segments seg hseg
  simp [String.ext_iff, hne, hdot]

variable {fold : String → String}

theorem foldl_push {base : Path} {l : List String} (h : ∀ name ∈ l, name ≠ "..") :
    l.foldl (push fold) base = base ++ l.map fold := by
  induction l generalizing base with
  | nil => simp
  | cons name l ih =>
    rw [List.foldl_cons, ih fun name hname => h name (List.mem_cons_of_mem _ hname), push,
      if_neg (h name List.mem_cons_self)]
    simp

/-- LEXICAL: a name that is safe when its slashes are trimmed leads below the base. -/
theorem join_of_clean_safe {base : Path} {name : String} (h : Safe (clean name)) :
    join fold base name = base ++ (components (clean name)).map fold := by
  obtain ⟨k, hk⟩ := toList_eq_clean name
  have hcolon : ':' ∉ name.toList := by
    rw [hk, List.mem_append, not_or]
    exact ⟨h.colon, by simp⟩
  have hdrive : driveLetter name.toList = false := by
    unfold driveLetter
    split
    case h_1 c rest heq => simp [heq] at hcolon
    case h_2 => rfl
  obtain ⟨c, rest, hhead⟩ := List.exists_cons_of_ne_nil h.nonempty
  have hslash : c ≠ '/' := by simpa [hhead] using h.relative
  have hback : c ≠ '\\' := by
    have hmem := h.backslash
    rw [hhead, List.mem_cons, not_or] at hmem
    exact fun heq => hmem.1 heq.symm
  have hrel : (name.toList.head?.any fun c => c = '/' || c = '\\') = false := by
    simp [hk, hhead, hslash, hback]
  unfold join
  rw [hdrive, hrel, ← components_clean, components_safe h]
  refine foldl_push fun part hpart => ?_
  obtain ⟨seg, hseg, rfl⟩ := List.mem_map.mp hpart
  simpa [String.ext_iff] using (h.segments seg hseg).2.2

theorem clean_safe {p : String} (h : Safe p) : clean p = p := by
  obtain ⟨k, hk⟩ := toList_eq_clean p
  cases k with
  | zero => exact String.ext (by simpa using hk.symm)
  | succ k =>
    have hmem : ([] : List Char) ∈ p.toList.splitOn '/' := by
      rw [hk, List.replicate_succ', ← List.append_assoc, List.splitOn_append_cons_self]
      simp
    exact absurd rfl (h.segments [] hmem).1

theorem join_safe {base : Path} {p : String} (h : Safe p) :
    join fold base p = base ++ (components p).map fold := by
  have hclean := clean_safe h
  rw [join_of_clean_safe (by rwa [hclean]), hclean]

theorem components_ne_nil {p : String} (h : Safe p) : components p ≠ [] := by
  simp [components_safe h]

/-! ### The naming pass -/

/-- The name of an entry, if the library gives one. -/
def nameOf : Except String Entry → Option String
  | .ok ⟨.ok name, _, _, _, _⟩ => some name
  | _ => none

/-- Two entries that do not name one path, whatever the case. -/
def Apart (lower : String → String) (a b : Except String Entry) : Prop :=
  ∀ m n, nameOf a = some m → nameOf b = some n → lower (clean m) ≠ lower (clean n)

/-- What the naming pass lets through. -/
structure Passed (required : Option (List RequiredFile)) (entry : Entry) (name : String) : Prop where
  named : entry.name = .ok name
  safe : Safe (clean name)
  expected : expected required entry.isDir (clean name) = true

variable {lower : String → String} {required : Option (List RequiredFile)} {opts : ExtractOptions}

/-- STEP: an entry that passes has a safe name that was not seen, and now is. -/
theorem checkEntry_ok {seen seen' : Table String String} {total total' : Nat} {entry : Entry}
    (h : checkEntry lower required opts seen total entry = .ok (seen', total')) :
    ∃ name, Passed required entry name ∧ seen.get (lower (clean name)) = none ∧
      seen' = seen.set (lower (clean name)) (clean name) := by
  unfold checkEntry at h
  cases hname : entry.name with
  | error text => simp [hname] at h
  | ok name =>
    simp only [hname] at h
    cases hsafe : checkSinglePath (clean name) with
    | some reason => simp [hsafe] at h
    | none =>
      simp only [hsafe] at h
      rw [ite_eq_iff] at h
      obtain ⟨-, h⟩ | ⟨-, h⟩ := h
      · cases h
      cases hseen : seen.get (lower (clean name)) with
      | some prev =>
        simp only [hseen] at h
        split_ifs at h
      | none =>
        simp only [hseen] at h
        split_ifs at h with hexpected hdir hsize
        all_goals
          refine ⟨name, ⟨hname, safe_of_none hsafe, by simpa using hexpected⟩, hseen, ?_⟩
          cases h
          rfl

/-- RUN: all entries pass, and no two have one name. -/
theorem checkEntries_ok {zip : Zip} {seen : Table String String} {total declared : Nat}
    (h : checkEntries lower required opts seen total zip = .ok declared) :
    (∀ e ∈ zip, ∃ entry name, e = .ok entry ∧ Passed required entry name) ∧
      (∀ e ∈ zip, ∀ n, nameOf e = some n → seen.get (lower (clean n)) = none) ∧
      zip.Pairwise (Apart lower) := by
  induction zip generalizing seen total with
  | nil => simp
  | cons e zip ih =>
    cases e with
    | error text => simp [checkEntries] at h
    | ok entry =>
      rw [checkEntries] at h
      cases hentry : checkEntry lower required opts seen total entry with
      | error x => simp [hentry] at h
      | ok r =>
        obtain ⟨seen', total'⟩ := r
        simp only [hentry] at h
        obtain ⟨name, hpassed, hnew, rfl⟩ := checkEntry_ok hentry
        obtain ⟨hall, hunseen, hpair⟩ := ih h
        have hof : ∀ n, nameOf (.ok entry) = some n → n = name := by
          intro n hn
          obtain ⟨entryName, isSymlink, isDir, size, reads⟩ := entry
          obtain rfl : entryName = .ok name := hpassed.named
          exact (Option.some.inj hn).symm
        have hapart : ∀ e ∈ zip, ∀ n, nameOf e = some n →
            lower (clean n) ≠ lower (clean name) ∧ seen.get (lower (clean n)) = none := by
          intro e he n hn
          have hget := hunseen e he n hn
          rw [Table.get_set] at hget
          split_ifs at hget with heq
          exact ⟨heq, hget⟩
        refine ⟨?_, ?_, List.pairwise_cons.mpr ⟨?_, hpair⟩⟩
        · rw [List.forall_mem_cons]
          exact ⟨⟨entry, name, rfl, hpassed⟩, hall⟩
        · rw [List.forall_mem_cons]
          exact ⟨fun n hn => hof n hn ▸ hnew, fun e he n hn => (hapart e he n hn).2⟩
        · intro e he m n hm hn
          rw [hof m hm]
          exact (hapart e he n hn).1.symm

theorem namingPass_ok {zip : Zip} {declared : Nat}
    (h : namingPass lower required opts zip = .ok declared) :
    (∀ e ∈ zip, ∃ entry name, e = .ok entry ∧ Passed required entry name) ∧
      zip.Pairwise (Apart lower) := by
  unfold namingPass at h
  cases hcheck : checkEntries lower required opts ∅ 0 zip with
  | error x => simp [hcheck] at h
  | ok total =>
    obtain ⟨hall, -, hpair⟩ := checkEntries_ok hcheck
    exact ⟨hall, hpair⟩

/-! ### What may be written -/

/-- A path in the staging directory. -/
def Under (staging p : Path) : Prop := staging <+: p ∧ p ≠ staging

/-- The paths of the required files; without a list every path will do. -/
def Listed (fold : String → String) (staging : Path) :
    Option (List RequiredFile) → Path → Prop
  | none, _ => True
  | some files, p => ∃ f ∈ files, p = join fold staging f.path

/-- INVARIANT: so far `total` bytes are written, all of them to listed files in the staging
    directory, and within the limits. -/
structure Confined (fold : String → String) (staging : Path)
    (required : Option (List RequiredFile)) (opts : ExtractOptions) (w₀ : World) (total : Nat)
    (w : World) : Prop where
  outside : ∀ p, ¬ Under staging p → w.tree.fileAt p = w₀.tree.fileAt p
  inside : ∀ p c, Under staging p → w.tree.fileAt p = some c →
    Listed fold staging required p ∧ c.length ≤ opts.maxFileUncompressed
  touched : ∀ p ∈ w.touched, p ∈ w₀.touched ∨ Under staging p
  written : w.written = w₀.written + total
  bound : total ≤ opts.maxTotalUncompressed

/-- The same, whatever was written so far. -/
def Within (fold : String → String) (staging : Path) (required : Option (List RequiredFile))
    (opts : ExtractOptions) (w₀ w : World) : Prop :=
  ∃ total, Confined fold staging required opts w₀ total w

/-- A file that pass 2 may write. -/
structure Target (fold : String → String) (staging : Path)
    (required : Option (List RequiredFile)) (p : Path) : Prop where
  under : Under staging p
  listed : Listed fold staging required p

/-- An entry that passes leads into the staging directory, and a file to where a required file
    is to be. -/
theorem Passed.target {entry : Entry} {name : String} {staging : Path}
    (h : Passed required entry name) (hfile : entry.isDir = false) :
    Target fold staging required (join fold staging name) := by
  rw [join_of_clean_safe h.safe]
  refine ⟨⟨List.prefix_append _ _, by simpa using components_ne_nil h.safe⟩, ?_⟩
  cases hreq : required with
  | none => trivial
  | some files =>
    have hexp := h.expected
    rw [hreq, hfile, Archive.expected, if_neg (by decide), List.any_eq_true] at hexp
    obtain ⟨f, hf, hpath⟩ := hexp
    have hpath : f.path = clean name := by simpa using hpath
    refine ⟨f, hf, ?_⟩
    rw [hpath, join_safe h.safe]

section Pass2
variable {staging : Path} {w₀ : World}

theorem Confined.congr {total : Nat} {s t : World} (hfiles : t.files = s.files)
    (h : Confined fold staging required opts w₀ total s) :
    Confined fold staging required opts w₀ total t := by
  simp only [World.files, Prod.mk.injEq] at hfiles
  obtain ⟨hat, htouched, hwritten⟩ := hfiles
  refine ⟨?_, ?_, ?_, ?_, h.bound⟩
  · rw [hat]
    exact h.outside
  · rw [hat]
    exact h.inside
  · rw [htouched]
    exact h.touched
  · rw [hwritten]
    exact h.written

/-- One file more, or another content. -/
theorem Confined.set {total more : Nat} {w w' : World} {p : Path} {c : Bytes}
    (h : Confined fold staging required opts w₀ total w) (hp : Target fold staging required p)
    (hat : ∀ q, w'.tree.fileAt q = if q = p then some c else w.tree.fileAt q)
    (htouched : w'.touched = p :: w.touched) (hwritten : w'.written = w.written + more)
    (hlength : c.length ≤ opts.maxFileUncompressed)
    (htotal : total + more ≤ opts.maxTotalUncompressed) :
    Confined fold staging required opts w₀ (total + more) w' := by
  refine ⟨fun q hq => ?_, fun q d hq hd => ?_, fun q hq => ?_, ?_, htotal⟩
  · rw [hat, if_neg fun heq : q = p => hq (heq ▸ hp.under)]
    exact h.outside q hq
  · rw [hat] at hd
    split_ifs at hd with heq
    · subst heq
      cases hd
      exact ⟨hp.listed, hlength⟩
    · exact h.inside q d hq hd
  · rw [htouched, List.mem_cons] at hq
    rcases hq with rfl | hq
    · exact .inr hp.under
    · exact h.touched q hq
  · rw [hwritten, h.written, Nat.add_assoc]

theorem Confined.append {total : Nat} {w : World} {p : Path} {c bytes : Bytes}
    (h : Confined fold staging required opts w₀ total w) (hp : Target fold staging required p)
    (hc : w.tree.fileAt p = some c) (hlength : c.length + bytes.length ≤ opts.maxFileUncompressed)
    (htotal : total + bytes.length ≤ opts.maxTotalUncompressed) :
    Confined fold staging required opts w₀ (total + bytes.length) (w.append p bytes) ∧
      (w.append p bytes).tree.fileAt p = some (c ++ bytes) := by
  have hat : ∀ q, (w.append p bytes).tree.fileAt q =
      if q = p then some (c ++ bytes) else w.tree.fileAt q := by
    intro q
    simp only [World.append, hc]
    exact FileTree.fileAt_set_file (FileTree.settable_of_fileAt hc)
  refine ⟨h.set hp hat rfl rfl (by simpa using hlength) htotal, ?_⟩
  rw [hat, if_pos rfl]

theorem Confined.remove {total : Nat} {w : World} {p : Path} {c : Bytes}
    (h : Confined fold staging required opts w₀ total w) (hp : Target fold staging required p)
    (hc : w.tree.fileAt p = some c) :
    Confined fold staging required opts w₀ total
      { w with tree := w.tree.del p, touched := p :: w.touched } := by
  have hat : ∀ q, (w.tree.del p).fileAt q = if q = p then none else w.tree.fileAt q :=
    fun q => FileTree.fileAt_del (FileTree.isDir_of_fileAt hc)
  refine ⟨fun q hq => ?_, fun q d hq hd => ?_, fun q hq => ?_, h.written, h.bound⟩
  · rw [hat, if_neg fun heq : q = p => hq (heq ▸ hp.under)]
    exact h.outside q hq
  · rw [hat] at hd
    split_ifs at hd with heq
    exact h.inside q d hq hd
  · rcases List.mem_cons.mp hq with rfl | hq
    · exact .inr hp.under
    · exact h.touched q hq

/-! ### Pass 2 -/

theorem orElse_rule {χ α : Type} {f : χ → ArchiveError} {p : Step χ α} {P C : World → Prop}
    {E : World → Prop} {K : α → World → Prop}
    (h : Triple P p (either (fun _ => E) K) C) :
    Triple P (orElse f p) (either (fun _ => E) K) C :=
  h.orFail (fun _ => Triple.give fun _ hs => hs) fun _ => Triple.give fun _ hs => hs

theorem orElse_keeps {χ α τ : Type} {f : χ → ArchiveError} {p : Step χ α} {view : World → τ}
    (h : Keeps view p) : Keeps view (orElse f p) :=
  h.orFail (fun _ => Keeps.give) fun _ => Keeps.give

/-- FRAME: what touches no file stays confined. -/
theorem Confined.frame {α : Type} {total : Nat} {p : Prog Answer World α}
    (h : Keeps World.files p) :
    Triple (Confined fold staging required opts w₀ total) p
      (fun _ => Confined fold staging required opts w₀ total)
      (Within fold staging required opts w₀) :=
  (h.triple fun _ _ hview hs => hs.congr hview).cuts fun _ hs => ⟨total, hs⟩

theorem createFile_rule {total : Nat} {p : Path} (hp : Target fold staging required p) :
    Triple (Confined fold staging required opts w₀ total) (createFile p)
      (either (fun _ => Within fold staging required opts w₀) fun _ w =>
        Confined fold staging required opts w₀ total w ∧ w.tree.fileAt p = some [])
      (Within fold staging required opts w₀) := by
  refine Triple.effect (fun w hw => ⟨total, hw⟩) fun e w hw => ?_
  split
  case isTrue hset =>
    simp only [Bool.and_eq_true] at hset
    have hat : ∀ q, (w.tree.set p (.file [])).fileAt q =
        if q = p then some [] else w.tree.fileAt q := fun q => FileTree.fileAt_set_file hset.1.2
    have hafter : Confined fold staging required opts w₀ (total + 0)
        { w with tree := w.tree.set p (.file []), touched := p :: w.touched } :=
      hw.set hp hat rfl rfl (Nat.zero_le _) hw.bound
    exact ⟨hafter, (hat p).trans (if_pos rfl)⟩
  case isFalse => exact ⟨total, hw⟩

/-- Between the reads of an entry its file holds what was written of it. -/
def Copying (fold : String → String) (staging : Path) (required : Option (List RequiredFile))
    (opts : ExtractOptions) (w₀ : World) (p : Path) (written total : Nat) (w : World) : Prop :=
  Confined fold staging required opts w₀ total w ∧
    ∃ c, w.tree.fileAt p = some c ∧ c.length = written

theorem appendFile_rule {written total : Nat} {p : Path} {bytes : Bytes}
    (hp : Target fold staging required p)
    (hlength : written + bytes.length ≤ opts.maxFileUncompressed)
    (htotal : total + bytes.length ≤ opts.maxTotalUncompressed) :
    Triple (Copying fold staging required opts w₀ p written total) (appendFile p bytes)
      (either (fun _ => Within fold staging required opts w₀) fun _ =>
        Copying fold staging required opts w₀ p (written + bytes.length) (total + bytes.length))
      (Within fold staging required opts w₀) := by
  refine Triple.effect (fun w hw => ⟨total, hw.1⟩) fun e w hw => ?_
  obtain ⟨hconfined, c, hc, rfl⟩ := hw
  split
  · obtain ⟨hafter, hfile⟩ := hconfined.append hp hc hlength htotal
    exact ⟨hafter, c ++ bytes, hfile, List.length_append⟩
  · have htake : (bytes.take e.kept).length ≤ bytes.length := List.length_take_le' ..
    exact ⟨_, (hconfined.append hp hc (by omega) (by omega)).1⟩

/-- RUN: an entry is copied within the limits. -/
theorem copyEntry_rule {name : String} {p : Path} (hp : Target fold staging required p)
    (reads : List (Except String Bytes)) (written total : Nat) :
    Triple (Copying fold staging required opts w₀ p written total)
      (copyEntry opts name p written total reads)
      (either (fun _ => Within fold staging required opts w₀) fun done =>
        Confined fold staging required opts w₀ done.2)
      (Within fold staging required opts w₀) := by
  induction reads generalizing written total with
  | nil => exact Triple.give fun w hw => hw.1
  | cons read rest ih =>
    cases read with
    | error text => exact Triple.give fun w hw => ⟨total, hw.1⟩
    | ok chunk =>
      rw [copyEntry]
      split
      · exact Triple.give fun w hw => hw.1
      · split
        case isTrue =>
          refine Triple.bind (Q := fun _ => Within fold staging required opts w₀)
            (Triple.effect (fun w hw => ⟨total, hw.1⟩) fun e w hw => ?_)
            fun _ => Triple.give fun w hw => hw
          obtain ⟨hconfined, c, hc, -⟩ := hw
          split
          · exact ⟨total, hconfined.remove hp hc⟩
          · exact ⟨total, hconfined⟩
        case isFalse hlimits =>
          obtain ⟨hlength, htotal⟩ := not_or.mp hlimits
          exact (orElse_rule (appendFile_rule hp (by omega) (by omega))).andThen
            (fun _ _ hs => hs) fun _ => ih _ _

theorem writeEntry_rule {entry : Entry} {name : String} {total : Nat}
    (hentry : Passed required entry name) :
    Triple (Confined fold staging required opts w₀ total)
      (writeEntry fold opts staging total entry)
      (either (fun _ => Within fold staging required opts w₀) fun total' =>
        Confined fold staging required opts w₀ total')
      (Within fold staging required opts w₀) := by
  have hdirs : ∀ q, Triple (Confined fold staging required opts w₀ total)
      (orElse .io (createDirAll q))
      (either (fun _ => Within fold staging required opts w₀) fun _ =>
        Confined fold staging required opts w₀ total) (Within fold staging required opts w₀) :=
    fun q => (Confined.frame (orElse_keeps (createDirAll_keeps q))).post fun r w hw => by
      cases r with
      | error x => exact ⟨total, hw⟩
      | ok => exact hw
  rw [writeEntry, hentry.named]
  dsimp only
  split
  case isTrue =>
    exact (hdirs _).andThen (fun _ _ hs => hs) fun _ => Triple.give fun w hw => hw
  case isFalse hfile =>
    have htarget : Target fold staging required (join fold staging name) :=
      hentry.target (by simpa using hfile)
    refine (hdirs _).andThen (fun _ _ hs => hs) fun _ => ?_
    refine (orElse_rule (createFile_rule htarget)).andThen (fun _ _ hs => hs) fun _ => ?_
    refine Triple.andThen ((copyEntry_rule htarget _ 0 total).pre fun w hw =>
      ⟨hw.1, [], hw.2, rfl⟩) (fun _ _ hs => hs) fun done => ?_
    split
    · exact Triple.give fun w hw => ⟨_, hw⟩
    · exact Triple.give fun w hw => hw

/-- RUN: pass 2 is confined, whatever the contents are. -/
theorem writeEntries_rule {zip : Zip} {total : Nat}
    (hzip : ∀ e ∈ zip, ∃ entry name, e = .ok entry ∧ Passed required entry name) :
    Triple (Confined fold staging required opts w₀ total)
      (writeEntries fold opts staging total zip)
      (fun _ => Within fold staging required opts w₀) (Within fold staging required opts w₀) := by
  induction zip generalizing total with
  | nil => exact Triple.give fun w hw => ⟨total, hw⟩
  | cons e zip ih =>
    obtain ⟨⟨entry, name, rfl, hentry⟩, hrest⟩ := List.forall_mem_cons.mp hzip
    refine (writeEntry_rule hentry).orFail (fun _ => Triple.pure fun w hw => hw) fun total' => ?_
    exact ih hrest

end Pass2

/-! ### The other passes -/

/-- A required file is in the staging directory as the manifest says. -/
def AsListed (fold : String → String) (sha256 : Bytes → String) (staging : Path)
    (t : FileTree String Bytes) (f : RequiredFile) : Prop :=
  ∃ c, t.fileAt (join fold staging f.path) = some c ∧ (c.length : Int) = f.size ∧
    sha256 c = asciiLowercase f.sha256

section Verify
variable {staging : Path} {sha256 : Bytes → String}

theorem verifyFile_ok {p : Path} {hash : String} {size : Nat} {w : World} :
    Triple (fun s => s = w) (verifyFile sha256 p hash size)
      (either (fun _ s => s = w) fun _ s => s = w ∧ ∃ c, w.tree.fileAt p = some c ∧
        c.length = size ∧ sha256 c = asciiLowercase hash) fun s => s = w := by
  refine Triple.effect (fun s hs => hs) ?_
  rintro e s rfl
  split
  · rfl
  · cases hfile : s.tree.fileAt p with
    | none => rfl
    | some content =>
      dsimp only
      split_ifs with hsize hhash
      · rfl
      · rfl
      · exact ⟨rfl, content, rfl, not_not.mp hsize, not_not.mp hhash⟩

/-- RUN: pass 4 changes nothing, and when it comes to its end all files are as listed. -/
theorem verifyRequired_rule (files : List RequiredFile) (w : World) :
    Triple (fun s => s = w) (verifyRequired fold sha256 staging files)
      (either (fun _ s => s = w) fun _ s => s = w ∧
        ∀ f ∈ files, AsListed fold sha256 staging w.tree f) fun s => s = w := by
  induction files with
  | nil => exact Triple.give fun s hs => ⟨hs, by simp⟩
  | cons f rest ih =>
    rw [verifyRequired]
    split
    case isTrue => exact Triple.give fun s hs => hs
    case isFalse hsize =>
      refine (orElse_rule verifyFile_ok).andThen (fun _ _ hs => hs) fun _ => ?_
      refine Triple.fact fun hfile => ih.post fun r s hs => ?_
      cases r with
      | error x => exact hs
      | ok =>
        obtain ⟨c, hc, hlen, hhash⟩ := hfile
        refine ⟨hs.1, List.forall_mem_cons.mpr ⟨⟨c, hc, ?_, hhash⟩, hs.2⟩⟩
        omega

theorem scanNoReparse_keeps : Keeps id (scanNoReparse staging) :=
  (orElse_keeps (readDir_keeps staging)).andThen fun _ => Keeps.reading fun _ => by
    split <;> exact Keeps.give

/-- The files, the notes about them, and what stands in the staging directory. -/
def shown (staging : Path) (w : World) :
    ((Path → Option Bytes) × List Path × Nat) × (Path → Option (Node Bytes)) :=
  (w.files, w.under staging)

theorem prepareFreshStaging_keeps : Keeps (shown staging) (prepareFreshStaging staging) := by
  refine Keeps.reading fun w => ?_
  split
  · split
    · exact Keeps.give
    · refine (orElse_keeps ((readDir_keeps staging).of_id)).andThen fun below => ?_
      split <;> exact Keeps.give
  · exact orElse_keeps ((createDirAll_keeps staging).prod (createDirAll_keeps_under staging))

/-- Where the staging directory is made ready, nothing stood in it. -/
theorem prepareFreshStaging_rule (w : World) :
    Triple (fun s => s = w) (prepareFreshStaging staging)
      (either (fun _ _ => True) fun _ _ => ∀ p, Under staging p → w.tree.get p = none)
      fun _ => True := by
  refine Triple.reading fun s hs => ?_
  subst hs
  split
  · split
    · exact Triple.give fun _ _ => trivial
    · refine Triple.andThen (K := fun below _ => below = s.tree.below staging)
        (orElse_rule (E := fun _ => True) (Triple.effect (fun _ _ => trivial) ?_))
        (fun _ _ _ => trivial) fun below => ?_
      · rintro e t ⟨-, rfl⟩
        split
        · exact rfl
        · trivial
      · split
        · exact Triple.give fun _ _ => trivial
        · refine Triple.give fun s hbelow p hp => ?_
          exact FileTree.get_of_below_nil (hbelow ▸ not_not.mp (by assumption)) hp.1 hp.2
  case isFalse hnew =>
    refine Triple.any.post fun r s _ => ?_
    cases r with
    | error x => trivial
    | ok =>
      rintro p ⟨⟨rest, rfl⟩, hne⟩
      refine FileTree.get_below (fun hdir => hnew ?_) (by simpa using hne)
      simp [FileTree.has, hdir]

end Verify

/-! ### What stays as it is -/

/-- A path that is neither in the staging directory nor on the way to it. -/
def Away (staging q : Path) : Prop := ¬ Under staging q ∧ ¬ q <+: staging

section Away
variable {staging q : Path}

theorem Away.not_prefix (h : Away staging q) (rest : Path) : ¬ q <+: staging ++ rest := by
  intro hpre
  rcases List.prefix_or_prefix_of_prefix hpre (List.prefix_append staging rest) with hq | hq
  · exact h.2 hq
  · exact h.1 ⟨hq, fun heq => h.2 (heq ▸ List.prefix_refl _)⟩

theorem copyEntry_keeps {name : String} {p : Path} (hq : q ≠ p)
    (reads : List (Except String Bytes)) (written total : Nat) :
    Keeps (fun w => w.tree.get q) (copyEntry opts name p written total reads) := by
  have happend : ∀ (w : World) bytes, (w.append p bytes).tree.get q = w.tree.get q := by
    intro w bytes
    unfold World.append
    cases w.tree.fileAt p with
    | none => rfl
    | some content => exact FileTree.get_set_ne hq
  induction reads generalizing written total with
  | nil => exact Keeps.give
  | cons read rest ih =>
    cases read with
    | error text => exact Keeps.give
    | ok chunk =>
      rw [copyEntry]
      split
      · exact Keeps.give
      · split
        · refine Keeps.bind (Keeps.effect fun e w => ?_) fun _ => Keeps.give
          split
          · exact FileTree.get_del_ne hq
          · rfl
        · refine Keeps.andThen (orElse_keeps (Keeps.effect fun e w => ?_)) fun _ => ih _ _
          split <;> exact happend w _

/-- STEP: an entry that passes makes nothing away from the staging directory. -/
theorem writeEntry_keeps {required : Option (List RequiredFile)} {entry : Entry} {name : String}
    {total : Nat} (hq : Away staging q) (hentry : Passed required entry name) :
    Keeps (fun w => w.tree.get q) (writeEntry fold opts staging total entry) := by
  have hrest : components (clean name) ≠ [] := components_ne_nil hentry.safe
  have hlast : (staging ++ (components (clean name)).map fold).dropLast =
      staging ++ ((components (clean name)).map fold).dropLast := by
    rw [List.dropLast_append_of_ne_nil (by simpa using hrest)]
  have hclean : Safe (clean (clean name)) := by
    rw [clean_safe hentry.safe]
    exact hentry.safe
  rw [writeEntry, hentry.named]
  dsimp only
  split
  · rw [join_of_clean_safe hclean]
    exact (orElse_keeps (createDirAll_keeps_get (hq.not_prefix _))).andThen fun _ => Keeps.give
  · rw [join_of_clean_safe hentry.safe, hlast]
    have hne : q ≠ staging ++ (components (clean name)).map fold := by
      rintro rfl
      exact hq.not_prefix _ (List.prefix_refl _)
    refine (orElse_keeps (createDirAll_keeps_get (hq.not_prefix _))).andThen fun _ => ?_
    refine Keeps.andThen (orElse_keeps (Keeps.effect fun e w => ?_)) fun _ => ?_
    · split
      · exact FileTree.get_set_ne hne
      · rfl
    · refine (copyEntry_keeps hne _ _ _).andThen fun done => ?_
      split <;> exact Keeps.give

theorem writeEntries_keeps {required : Option (List RequiredFile)} {zip : Zip} {total : Nat}
    (hq : Away staging q)
    (hzip : ∀ e ∈ zip, ∃ entry name, e = .ok entry ∧ Passed required entry name) :
    Keeps (fun w => w.tree.get q) (writeEntries fold opts staging total zip) := by
  induction zip generalizing total with
  | nil => exact Keeps.give
  | cons e zip ih =>
    obtain ⟨⟨entry, name, rfl, hentry⟩, hrest⟩ := List.forall_mem_cons.mp hzip
    exact (writeEntry_keeps hq hentry).andThen fun _ => ih hrest

theorem verifyRequired_keeps {sha256 : Bytes → String} (files : List RequiredFile) :
    Keeps id (verifyRequired fold sha256 staging files) := by
  induction files with
  | nil => exact Keeps.give
  | cons f rest ih =>
    rw [verifyRequired]
    split
    · exact Keeps.give
    · exact (orElse_keeps (verifyFile_keeps _ _ _ _)).andThen fun _ => ih

theorem prepareFreshStaging_keeps_get (hq : Away staging q) :
    Keeps (fun w => w.tree.get q) (prepareFreshStaging staging) := by
  refine Keeps.reading fun w => ?_
  split
  · split
    · exact Keeps.give
    · refine (orElse_keeps ((readDir_keeps staging).of_id)).andThen fun below => ?_
      split <;> exact Keeps.give
  · exact orElse_keeps (createDirAll_keeps_get hq.2)

theorem unpack_keeps {sha256 : Bytes → String} {required : Option (List RequiredFile)} {zip : Zip}
    (hq : Away staging q) :
    Keeps (fun w => w.tree.get q) (unpack fold sha256 lower staging required opts zip) := by
  unfold unpack
  cases hnaming : namingPass lower required opts zip with
  | error x => exact Keeps.give
  | ok declared =>
    refine (orElse_keeps freeDiskBytes_keeps.of_id).andThen fun available => ?_
    cases checkSpace declared available with
    | error x => exact Keeps.give
    | ok =>
      refine (writeEntries_keeps hq (namingPass_ok hnaming).1).andThen fun _ => ?_
      refine scanNoReparse_keeps.of_id.andThen fun _ => ?_
      exact (verifyRequired_keeps _).of_id

/-- FRAME: away from the staging directory everything stays as it is. -/
theorem extractZipChecked_keeps {zipPath : Path} {sha256 : Bytes → String}
    {library : Bytes → Except String Zip} {required : Option (List RequiredFile)}
    (hq : Away staging q) :
    Keeps (fun w => w.tree.get q)
      (extractZipChecked fold sha256 lower library zipPath staging required opts) := by
  refine (prepareFreshStaging_keeps_get hq).andThen fun _ => ?_
  refine (orElse_keeps (readFile_keeps zipPath).of_id).andThen fun file => ?_
  cases openArchive library file with
  | error x => exact Keeps.give
  | ok zip => exact unpack_keeps hq

end Away

/-! ### The extraction -/

/-- What every run leaves, wherever it ends: it touched nothing outside of the staging directory,
    and it wrote within the limits. -/
structure Bounded (staging : Path) (opts : ExtractOptions) (w₀ w : World) : Prop where
  outside : ∀ p, ¬ Under staging p → w.tree.fileAt p = w₀.tree.fileAt p
  inside : ∀ p c, Under staging p → w.tree.fileAt p = some c →
    w₀.tree.fileAt p = some c ∨ c.length ≤ opts.maxFileUncompressed
  touched : ∀ p ∈ w.touched, p ∈ w₀.touched ∨ Under staging p
  written : w.written ≤ w₀.written + opts.maxTotalUncompressed

/-- The archive, as the library opens it, with as many entries as the central directory has. -/
def Opens (library : Bytes → Except String Zip) (zipPath : Path) (w : World) (zip : Zip) : Prop :=
  ∃ file, w.tree.fileAt zipPath = some file ∧ library file = .ok zip ∧
    ∀ n, rawCentralEntryCount file = .ok (some n) → n = zip.length

/-- What a run that succeeds leaves in the staging directory. -/
structure Extracted (fold : String → String) (sha256 : Bytes → String) (staging : Path)
    (required : List RequiredFile) (t : FileTree String Bytes) : Prop where
  files : ∀ p, Under staging p ∧ (t.fileAt p).isSome ↔ ∃ f ∈ required, p = join fold staging f.path
  content : ∀ f ∈ required, AsListed fold sha256 staging t f

section Extraction
variable {staging zipPath : Path} {sha256 : Bytes → String} {library : Bytes → Except String Zip}

theorem Bounded.of_files {w₀ w : World} (h : w.files = w₀.files) :
    Bounded staging opts w₀ w := by
  simp only [World.files, Prod.mk.injEq] at h
  obtain ⟨hat, htouched, hwritten⟩ := h
  refine ⟨fun p _ => by rw [hat], fun p c _ hc => .inl (by rw [← hat, hc]), fun p hp => ?_, ?_⟩
  · exact .inl (htouched ▸ hp)
  · rw [hwritten]
    exact Nat.le_add_right _ _

theorem Within.bounded {w₀ w : World} (h : Within fold staging required opts w₀ w) :
    Bounded staging opts w₀ w := by
  obtain ⟨total, h⟩ := h
  refine ⟨h.outside, fun p c hp hc => .inr (h.inside p c hp hc).2, h.touched, ?_⟩
  rw [h.written]
  exact Nat.add_le_add_left h.bound _

theorem checkCount_ok {n : Nat} {zip : Zip} (h : checkCount (some n) zip = .ok ()) :
    n = zip.length := by
  unfold checkCount at h
  by_contra hne
  simp [hne] at h

theorem checkOpened_ok {counted : Except String (Option Nat)} {opened : Except String Zip}
    {zip : Zip} (h : checkOpened counted opened = .ok zip) :
    opened = .ok zip ∧ ∀ n, counted = .ok (some n) → n = zip.length := by
  cases counted with
  | error text => cases h
  | ok raw =>
    cases opened with
    | error text => cases h
    | ok zip' =>
      cases hcount : checkCount raw zip' with
      | error x => simp [checkOpened, hcount] at h
      | ok =>
        simp only [checkOpened, hcount, Except.ok.injEq] at h
        subst h
        refine ⟨rfl, fun n hn => ?_⟩
        cases hn
        exact checkCount_ok hcount

/-- The passes after the archive is open, from an empty staging directory. -/
theorem unpack_rule {required : List RequiredFile} {zip : Zip} {w₀ : World}
    (hsafe : ∀ f ∈ required, checkSinglePath f.path = none) :
    Triple (Confined fold staging (some required) opts w₀ 0)
      (unpack fold sha256 lower staging (some required) opts zip)
      (either (fun _ => Within fold staging (some required) opts w₀) fun _ w =>
        Within fold staging (some required) opts w₀ w ∧
          Extracted fold sha256 staging required w.tree ∧ zip.Pairwise (Apart lower))
      (Within fold staging (some required) opts w₀) := by
  unfold unpack
  cases hnaming : namingPass lower (some required) opts zip with
  | error x => exact Triple.give fun w hw => ⟨0, hw⟩
  | ok declared =>
    obtain ⟨hzip, hpair⟩ := namingPass_ok hnaming
    refine Triple.andThen (E := fun _ => Within fold staging (some required) opts w₀)
      (K := fun _ => Confined fold staging (some required) opts w₀ 0) ?_
      (fun _ _ hs => hs) fun available => ?_
    · refine (Confined.frame (orElse_keeps (freeDiskBytes_keeps.of_id))).post
        fun r w hw => ?_
      cases r with
      | error x => exact ⟨0, hw⟩
      | ok => exact hw
    cases checkSpace declared available with
    | error x => exact Triple.give fun w hw => ⟨0, hw⟩
    | ok =>
      refine Triple.andThen (E := fun _ => Within fold staging (some required) opts w₀)
        (K := fun _ => Within fold staging (some required) opts w₀)
        ((writeEntries_rule hzip).post fun r w hw => by cases r <;> exact hw)
        (fun _ _ hs => hs) fun _ => ?_
      refine Triple.andThen (E := fun _ => Within fold staging (some required) opts w₀)
        (K := fun _ => Within fold staging (some required) opts w₀)
        ((scanNoReparse_keeps.triple fun s t hview hs => ?_).post fun r w hw => by
          cases r <;> exact hw) (fun _ _ hs => hs) fun _ => ?_
      · obtain rfl : t = s := hview
        exact hs
      · refine Triple.each fun w hw => ?_
        refine ((verifyRequired_rule required w).cuts fun s hs => hs ▸ hw).post fun r s hs => ?_
        cases r with
        | error x => exact hs ▸ hw
        | ok =>
          obtain ⟨rfl, hcontent⟩ := hs
          refine ⟨hw, ⟨fun p => ⟨?_, ?_⟩, hcontent⟩, hpair⟩
          · rintro ⟨hp, hfile⟩
            obtain ⟨total, hconfined⟩ := hw
            obtain ⟨c, hc⟩ := Option.isSome_iff_exists.mp hfile
            exact (hconfined.inside p c hp hc).1
          · rintro ⟨f, hf, rfl⟩
            obtain ⟨c, hc, -⟩ := hcontent f hf
            have hsafe := safe_of_none (hsafe f hf)
            refine ⟨?_, by rw [hc]; rfl⟩
            rw [join_safe hsafe]
            exact ⟨List.prefix_append _ _, by simpa using components_ne_nil hsafe⟩

/-- The staging directory is ready, and the files are those there were. -/
theorem prepared_rule (w₀ : World) :
    Triple (fun s => s = w₀) (prepareFreshStaging staging)
      (either (fun _ s => shown staging s = shown staging w₀) fun _ s =>
        shown staging s = shown staging w₀ ∧ ∀ p, Under staging p → w₀.tree.get p = none)
      fun s => shown staging s = shown staging w₀ := by
  have hkeeps : Triple (fun s => shown staging s = shown staging w₀)
      (prepareFreshStaging staging) (fun _ s => shown staging s = shown staging w₀)
      fun s => shown staging s = shown staging w₀ :=
    prepareFreshStaging_keeps.triple fun _ _ hview hs => hview.trans hs
  refine (((hkeeps.both (prepareFreshStaging_rule w₀)).cuts fun s hs => hs.1).pre
    fun s hs => ⟨congrArg _ hs, hs⟩).post fun r s hs => ?_
  cases r with
  | error x => exact hs.1
  | ok => exact hs

theorem readArchive_rule (w₀ : World) :
    Triple (fun s => shown staging s = shown staging w₀) (orElse .open (readFile zipPath))
      (either (fun _ s => shown staging s = shown staging w₀) fun file s =>
        shown staging s = shown staging w₀ ∧ w₀.tree.fileAt zipPath = some file)
      fun s => shown staging s = shown staging w₀ := by
  refine orElse_rule (Triple.effect (fun _ hs => hs) fun e s hs => ?_)
  have hat : s.tree.fileAt = w₀.tree.fileAt := congrArg (fun v => v.1.1) hs
  split
  case h_1 content _ hcontent => exact ⟨hs, hat ▸ hcontent⟩
  case h_2 => exact hs

theorem Confined.start {required : Option (List RequiredFile)} {w₀ s : World}
    (hs : shown staging s = shown staging w₀) (hempty : ∀ p, Under staging p → w₀.tree.get p = none) :
    Confined fold staging required opts w₀ 0 s := by
  refine Confined.congr (congrArg Prod.fst hs) ⟨fun _ _ => rfl, fun p c hp hc => ?_,
    fun _ hp => .inl hp, rfl, Nat.zero_le _⟩
  rw [FileTree.fileAt_eq_some, hempty p hp] at hc
  cases hc

/-- RUN: an extraction is bounded wherever it ends, and exact when it succeeds. -/
theorem extractComponentZip_rule {required : List RequiredFile}
    (hsafe : ∀ f ∈ required, checkSinglePath f.path = none) (w₀ : World) :
    Triple (fun s => s = w₀)
      (extractComponentZip fold sha256 lower library zipPath staging required opts)
      (either (fun _ => Bounded staging opts w₀) fun _ s => Bounded staging opts w₀ s ∧
        Extracted fold sha256 staging required s.tree ∧
        ∃ zip, Opens library zipPath w₀ zip ∧ zip.Pairwise (Apart lower))
      (Bounded staging opts w₀) := by
  have hbounded : ∀ s, shown staging s = shown staging w₀ → Bounded staging opts w₀ s :=
    fun s hs => Bounded.of_files (congrArg Prod.fst hs)
  refine Triple.andThen ((prepared_rule w₀).cuts hbounded) (fun _ => hbounded) fun _ => ?_
  refine Triple.each fun s₁ ⟨hs₁, hempty⟩ => ?_
  refine Triple.andThen (((readArchive_rule w₀).pre fun s hs => hs ▸ hs₁).cuts hbounded)
    (fun _ => hbounded) fun file => ?_
  refine Triple.fact fun hfile => ?_
  cases hopen : openArchive library file with
  | error x => exact Triple.give hbounded
  | ok zip =>
    obtain ⟨hlibrary, hcount⟩ := checkOpened_ok hopen
    refine (((unpack_rule hsafe).pre fun s hs => Confined.start hs hempty).cuts
      fun _ hs => hs.bounded).post fun r s hs => ?_
    cases r with
    | error x => exact hs.bounded
    | ok => exact ⟨hs.1.bounded, hs.2.1, zip, ⟨file, hfile, hlibrary, hcount⟩, hs.2.2⟩

/-- Where the naming pass fails, nothing is written. -/
theorem namingFailure_rule {required : List RequiredFile} {file : Bytes} {zip : Zip}
    {x : ArchiveError} {w₀ : World} (hfile : w₀.tree.fileAt zipPath = some file)
    (hopen : openArchive library file = .ok zip)
    (hnaming : namingPass lower (some required) opts zip = .error x) :
    Triple (fun s => s = w₀)
      (extractComponentZip fold sha256 lower library zipPath staging required opts)
      (fun _ s => shown staging s = shown staging w₀)
      fun s => shown staging s = shown staging w₀ := by
  refine (prepared_rule w₀).orFail (fun _ => Triple.pure fun s hs => hs) fun _ => ?_
  refine ((readArchive_rule w₀).pre fun s hs => hs.1).orFail
    (fun _ => Triple.pure fun s hs => hs) fun file' => ?_
  refine Triple.fact fun hfile' => ?_
  obtain rfl : file = file' := Option.some.inj (hfile.symm.trans hfile')
  rw [hopen]
  dsimp only
  rw [unpack, hnaming]
  exact Triple.give fun s hs => hs

/-- SAFETY: an extraction touches nothing outside of its staging directory and keeps to its limits,
    wherever it ends. If it succeeds, no two entries name one path, and the files in the staging
    directory are the required ones. If the names are refused, nothing is written. -/
theorem extract_exact {required : List RequiredFile}
    (hsafe : ∀ f ∈ required, checkSinglePath f.path = none) (tape : List Answer) (w : World) :
    Bounded staging opts w (extractComponentZip fold sha256 lower library zipPath staging required
        opts tape w).state ∧
      (∀ p, Away staging p → (extractComponentZip fold sha256 lower library zipPath staging required
        opts tape w).state.tree.get p = w.tree.get p) ∧
      ((extractComponentZip fold sha256 lower library zipPath staging required
          opts tape w).succeeded = true →
        Extracted fold sha256 staging required (extractComponentZip fold sha256 lower library
            zipPath staging required opts tape w).state.tree ∧
          ∃ zip, Opens library zipPath w zip ∧ zip.Pairwise (Apart lower)) ∧
      ∀ file zip x, w.tree.fileAt zipPath = some file → openArchive library file = .ok zip →
        namingPass lower (some required) opts zip = .error x →
        shown staging (extractComponentZip fold sha256 lower library zipPath staging required
          opts tape w).state = shown staging w := by
  have hrule : Triple (fun s => s = w)
      (extractComponentZip fold sha256 lower library zipPath staging required opts)
      (either (fun _ => Bounded staging opts w) fun _ s => Bounded staging opts w s ∧
        Extracted fold sha256 staging required s.tree ∧
        ∃ zip, Opens library zipPath w zip ∧ zip.Pairwise (Apart lower))
      (Bounded staging opts w) := extractComponentZip_rule hsafe w
  refine ⟨?_, fun p hp => ?_, fun hok => ?_, fun file zip x hfile hopen hnaming => ?_⟩
  · refine Triple.state (hrule.post fun r s hs => ?_) rfl tape
    cases r with
    | error x => exact hs
    | ok => exact hs.1
  · exact extractZipChecked_keeps hp tape w
  · obtain ⟨-, hend⟩ := hrule.succeeded rfl hok
    exact hend.2
  · exact (namingFailure_rule hfile hopen hnaming).state rfl tape

end Extraction

/-- The run of the theorem on an archive with one file. -/
def sampleZip : Zip := [.ok ⟨.ok "adb.exe", false, false, 2, [.ok [1, 2], .ok []]⟩]

def sampleWorld : World :=
  ⟨(FileTree.bare.set ["C:"] .dir).set ["C:", "a"] (.file []), [], 0⟩

theorem extract_exact_sample :
    Extracted id (fun _ => "ab") ["C:", "s"] [⟨"adb.exe", 2, "AB"⟩]
      (extractComponentZip id (fun _ => "ab") id (fun _ => .ok sampleZip) ["C:", "a"] ["C:", "s"]
        [⟨"adb.exe", 2, "AB"⟩] ⟨2, 2⟩ (List.replicate 20 { free := 2 ^ 30 })
        sampleWorld).state.tree :=
  ((extract_exact (by decide +kernel) _ _).2.2.1 (by decide +kernel)).1

/-- A required path that is not safe is looked for outside of the staging directory. -/
theorem extract_astray :
    ¬ ∀ (required : List RequiredFile) (tape : List Answer) (w : World),
      (extractComponentZip id (fun _ => "ab") id (fun _ => .ok []) ["C:", "a"] ["C:", "s"] required
        ⟨2, 2⟩ tape w).succeeded = true →
      Extracted id (fun _ => "ab") ["C:", "s"] required
        (extractComponentZip id (fun _ => "ab") id (fun _ => .ok []) ["C:", "a"] ["C:", "s"]
          required ⟨2, 2⟩ tape w).state.tree := by
  intro h
  have hfiles := (h [⟨"../a", 0, "ab"⟩] (List.replicate 20 { free := 2 ^ 30 }) sampleWorld
    (by decide +kernel)).files ["C:", "a"]
  have hunder := (hfiles.mpr ⟨_, List.mem_singleton_self _, by decide +kernel⟩).1
  exact absurd hunder.1 (by decide)

end Gamer.Updater.Archive
