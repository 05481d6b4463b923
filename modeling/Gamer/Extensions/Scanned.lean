import Gamer.Core.Reading
import Gamer.Extensions.Archive
import Gamer.Lib.Results

/-! What a scan comes to. It follows the archive's entries as long as they are admissible together,
    and reads one of them, whole:

        front ++ [e] admissible, e named manifest.toml   ⟷   e is read, whatever it comes to     -/

namespace Gamer.Extensions.Archive
open Gamer.Lib Gamer.Core

section
variable {Manifest : Type} (host : Host Manifest)

/-! ### Names -/

theorem parsePath_eq {value path : String} (h : parsePath host value = .ok path) :
    path = trim value := by
  unfold parsePath at h
  dsimp only at h
  split_ifs at h
  cases h
  rfl

/-- No component of a path leads up or stays where it is. -/
theorem component_of_parsePath {value path component : String}
    (h : parsePath host value = .ok path) (hmem : component ∈ components path) :
    component ≠ "" ∧ component ≠ "." ∧ component ≠ ".." := by
  unfold parsePath at h
  dsimp only at h
  split_ifs at h with hplain hall
  cases h
  have hall' : (components (trim value)).all (isSafeComponent host) = true := by simpa using hall
  have hsafe := List.all_eq_true.mp hall' component hmem
  simp only [isSafeComponent, Bool.and_eq_true, decide_eq_true_eq] at hsafe
  exact ⟨hsafe.1.1.1, hsafe.1.1.2, hsafe.1.2⟩

theorem trim_manifestFileName : trim manifestFileName = manifestFileName := by decide +kernel

theorem normalize_trimmed {raw name : String} {isDir : Bool}
    (h : normalizeArchivePath host raw isDir = .ok name) : trim name = name := by
  unfold normalizeArchivePath at h
  split at h
  · cases h
  dsimp only at h
  generalize (if isDir = true then trimSlashes raw else raw) = normalized at h
  split_ifs at h with hmanifest
  · cases h
    rw [hmanifest]
    exact trim_manifestFileName
  · rw [parsePath_eq host h, trim_trim]

/-- The name an entry is scanned under. -/
def entryName (entry : Entry) : Option String :=
  match entry.name with
  | .ok raw => (normalizeArchivePath host raw (entry.scansAsDir raw)).toOption
  | .error _ => none

/-- The scan takes the entry for a directory. -/
def isDirEntry (entry : Entry) : Bool :=
  match entry.name with
  | .ok raw => entry.scansAsDir raw
  | .error _ => entry.isDir

theorem entryName_trimmed {entry : Entry} {name : String} (h : entryName host entry = some name) :
    trim name = name := by
  unfold entryName at h
  split at h
  · exact normalize_trimmed host (toOption_eq_some.mp h)
  · cases h

theorem isDirEntry_of_isDir {entry : Entry} (h : entry.isDir = true) : isDirEntry entry = true := by
  unfold isDirEntry
  split
  · simp [Entry.scansAsDir, h]
  · exact h

/-! ### Entries that are admissible together -/

/-- What the scan asks of the entries before it looks at their contents. -/
structure Admissible (entries : List Entry) : Prop where
  plain : ∀ e ∈ entries, e.encrypted = false ∧ e.isSymlink = false
  named : ∀ e ∈ entries, ∃ name, entryName host e = some name
  distinct : (entries.map (entryName host)).Nodup
  total : (entries.map Entry.size).sum ≤ importMaxTotalBytes
  files : ∀ e ∈ entries, isDirEntry e = false → e.size ≤ maxExtensionFileBytes
  manifest : ∀ e ∈ entries, entryName host e = some manifestFileName →
    isDirEntry e = false ∧ e.size ≤ maxManifestBytes

theorem Admissible.nil : Admissible host [] := by
  constructor <;> simp

theorem Admissible.left {front back : List Entry} (h : Admissible host (front ++ back)) :
    Admissible host front where
  plain := fun e he => h.plain e (List.mem_append_left _ he)
  named := fun e he => h.named e (List.mem_append_left _ he)
  distinct := by
    have := h.distinct
    rw [List.map_append] at this
    exact (List.nodup_append.mp this).1
  total := by
    have := h.total
    rw [List.map_append, List.sum_append] at this
    omega
  files := fun e he => h.files e (List.mem_append_left _ he)
  manifest := fun e he => h.manifest e (List.mem_append_left _ he)

/-- What the scan says of an entry. -/
def found (index : Nat) (entry : Entry) : ArchiveEntry :=
  ⟨(entryName host entry).getD "", isDirEntry entry, entry.size, index⟩

/-- INVARIANT: where the scan is behind the entries of `front`. -/
structure Follows (front : List Entry) (scan : Scan) : Prop where
  entries : scan.entries = front.mapIdx (found host)
  total : scan.declaredTotal = (front.map Entry.size).sum
  manifest : ∀ content, scan.manifestBytes = some content →
    ∃ e ∈ front, entryName host e = some manifestFileName ∧ e.content = content
  admissible : Admissible host front

theorem Follows.start : Follows host [] {} where
  entries := rfl
  total := rfl
  manifest := fun _ h => by cases h
  admissible := .nil host

variable {host} {front : List Entry} {scan : Scan}

theorem Follows.seen (hf : Follows host front scan) {name : String} :
    (scan.entries.any fun other => other.name = name) = true ↔
      some name ∈ front.map (entryName host) := by
  rw [hf.entries, List.any_eq_true, List.mem_map]
  constructor
  · rintro ⟨c, hc, hname⟩
    obtain ⟨i, hi, rfl⟩ := List.mem_mapIdx.mp hc
    have hmem : front[i] ∈ front := List.getElem_mem hi
    obtain ⟨n, hn⟩ := hf.admissible.named _ hmem
    refine ⟨front[i], hmem, ?_⟩
    have hname' : n = name := by simpa [found, hn] using hname
    rw [hn, hname']
  · rintro ⟨e, he, hname⟩
    obtain ⟨i, hi, rfl⟩ := List.mem_iff_getElem.mp he
    exact ⟨found host i front[i], List.mem_mapIdx.mpr ⟨i, hi, rfl⟩, by simp [found, hname]⟩

theorem importMaxTotalBytes_lt : importMaxTotalBytes < 2 ^ 64 := by decide

/-- An entry passes where it is admissible with those before it. -/
theorem checkEntry_of_admissible (hf : Follows host front scan) {e : Entry}
    (h : Admissible host (front ++ [e])) :
    checkEntry host scan e = .ok (found host front.length e) := by
  have he : e ∈ front ++ [e] := by simp
  obtain ⟨hencrypted, hlink⟩ := h.plain e he
  obtain ⟨name, hname⟩ := h.named e he
  have hnew : some name ∉ front.map (entryName host) := by
    have hnodup := h.distinct
    rw [List.map_append, List.nodup_append] at hnodup
    intro hmem
    exact hnodup.2.2 _ hmem _ (by simp [hname]) rfl
  have hseen : (scan.entries.any fun other => other.name = name) = false := by
    rw [← Bool.not_eq_true, hf.seen]
    exact hnew
  have htotal : scan.declaredTotal + e.size ≤ importMaxTotalBytes := by
    have := h.total
    rw [List.map_append, List.sum_append] at this
    rw [hf.total]
    simpa using this
  have hlen : scan.entries.length = front.length := by rw [hf.entries, List.length_mapIdx]
  have hlt := importMaxTotalBytes_lt
  have hfile := h.files e he
  have hmanifest := h.manifest e he
  cases hraw : e.name with
  | error text => simp [entryName, hraw] at hname
  | ok raw =>
    have hnormal : normalizeArchivePath host raw (e.scansAsDir raw) = .ok name := by
      simpa [entryName, hraw, toOption_eq_some] using hname
    have hdir : isDirEntry e = e.scansAsDir raw := by simp [isDirEntry, hraw]
    rw [hname] at hmanifest
    rw [hdir] at hfile hmanifest
    simp only [checkEntry, hraw, hencrypted, hlink, Bool.or_self, Bool.false_eq_true, if_false,
      hnormal, hseen]
    rw [if_neg (by omega), if_neg (by omega), if_neg, if_neg, if_neg]
    · simp [found, hname, hdir, hlen]
    · simp only [Bool.and_eq_true, decide_eq_true_eq, not_and]
      rintro rfl
      exact Nat.not_lt.mpr (hmanifest rfl).2
    · simp only [Bool.and_eq_true, decide_eq_true_eq, not_and]
      rintro rfl
      simp [(hmanifest rfl).1]
    · simp only [Bool.and_eq_true, Bool.not_eq_true', decide_eq_true_eq, not_and]
      intro hfalse
      exact Nat.not_lt.mpr (hfile hfalse)

/-- An entry that passes is admissible with those before it. -/
theorem Follows.passed (hf : Follows host front scan) {e : Entry} {c : ArchiveEntry}
    (h : checkEntry host scan e = .ok c) :
    Admissible host (front ++ [e]) ∧ c = found host front.length e := by
  have hlen : scan.entries.length = front.length := by rw [hf.entries, List.length_mapIdx]
  unfold checkEntry at h
  split at h
  · cases h
  rename_i raw hraw
  split at h
  · cases h
  rename_i hplain
  dsimp only at h
  split at h
  · cases h
  rename_i name hnormal
  split_ifs at h with hseen hwide htotal hfile hdir hmanifest
  cases h
  have hname : entryName host e = some name := by
    simp [entryName, hraw, hnormal, Except.toOption]
  have hisdir : isDirEntry e = e.scansAsDir raw := by simp [isDirEntry, hraw]
  have hnew : some name ∉ front.map (entryName host) := fun hmem => hseen (hf.seen.mpr hmem)
  have hadm := hf.admissible
  simp only [Bool.or_eq_true, not_or, Bool.not_eq_true] at hplain
  refine ⟨⟨?_, ?_, ?_, ?_, ?_, ?_⟩, by simp [found, hname, hisdir, hlen]⟩
  · intro e' he'
    rcases List.mem_append.mp he' with he' | he'
    · exact hadm.plain e' he'
    · obtain rfl := List.mem_singleton.mp he'
      exact hplain
  · intro e' he'
    rcases List.mem_append.mp he' with he' | he'
    · exact hadm.named e' he'
    · obtain rfl := List.mem_singleton.mp he'
      exact ⟨name, hname⟩
  · rw [List.map_append, List.nodup_append]
    refine ⟨hadm.distinct, List.nodup_singleton _, ?_⟩
    rintro a ha b hb rfl
    obtain rfl : a = some name := by simpa [hname] using hb
    exact hnew ha
  · rw [List.map_append, List.sum_append]
    rw [hf.total] at htotal
    simpa using Nat.not_lt.mp htotal
  · intro e' he' hfalse
    rcases List.mem_append.mp he' with he' | he'
    · exact hadm.files e' he' hfalse
    · obtain rfl := List.mem_singleton.mp he'
      rw [hisdir] at hfalse
      simpa [hfalse] using hfile
  · intro e' he' hname'
    rcases List.mem_append.mp he' with he' | he'
    · exact hadm.manifest e' he' hname'
    · obtain rfl := List.mem_singleton.mp he'
      obtain rfl : name = manifestFileName := Option.some.inj (hname.symm.trans hname')
      rw [hisdir]
      exact ⟨by simpa using hdir, by simpa using hmanifest⟩

/-- STEP: one entry on, that is not read or has been. -/
theorem Follows.next (hf : Follows host front scan) {e : Entry}
    (hadm : Admissible host (front ++ [e])) {manifestBytes : Option Bytes}
    (hmanifest : ∀ content, manifestBytes = some content → scan.manifestBytes = some content ∨
      entryName host e = some manifestFileName ∧ e.content = content) :
    Follows host (front ++ [e]) ⟨scan.entries ++ [found host front.length e],
      scan.declaredTotal + e.size, manifestBytes⟩ where
  entries := by rw [List.mapIdx_concat, hf.entries]
  total := by simp [hf.total]
  manifest := fun content hc => by
    rcases hmanifest content hc with hc | ⟨hname, hc⟩
    · obtain ⟨e', he', h⟩ := hf.manifest content hc
      exact ⟨e', List.mem_append_left _ he', h⟩
    · exact ⟨e, by simp, hname, hc⟩
  admissible := hadm


/-! ### The scan -/

theorem found_name {index : Nat} {e : Entry} {name : String} (h : entryName host e = some name) :
    (found host index e).name = name := by
  simp [found, h]

theorem scanEntries_read {e : Entry} {c : ArchiveEntry} {rest : List (Except String Entry)}
    (hcheck : checkEntry host scan e = .ok c) (hname : c.name = manifestFileName) :
    scanEntries host scan (.ok e :: rest) =
      match readToEnd e with
      | .error x => (.error x, [⟨maxManifestBytes, e.content.length⟩])
      | .ok content =>
        ((scanEntries host ⟨scan.entries ++ [c], scan.declaredTotal + e.size, some content⟩ rest).1,
          ⟨maxManifestBytes, e.content.length⟩ :: (scanEntries host
            ⟨scan.entries ++ [c], scan.declaredTotal + e.size, some content⟩ rest).2) := by
  rw [scanEntries, hcheck]
  exact if_pos hname

theorem scanEntries_skip {e : Entry} {c : ArchiveEntry} {rest : List (Except String Entry)}
    (hcheck : checkEntry host scan e = .ok c) (hname : c.name ≠ manifestFileName) :
    scanEntries host scan (.ok e :: rest) = scanEntries host
      ⟨scan.entries ++ [c], scan.declaredTotal + e.size, scan.manifestBytes⟩ rest := by
  rw [scanEntries, hcheck]
  simp only [hname, if_false]

theorem readToEnd_eq_ok {e : Entry} {content : Bytes} (h : readToEnd e = .ok content) :
    e.content = content ∧ e.fault = none := by
  unfold readToEnd at h
  split at h
  · rename_i hfault
    cases h
    exact ⟨rfl, hfault⟩
  · cases h

/-- RUN: a scan that succeeds has followed the entries to the last. -/
theorem scanEntries_ok (hf : Follows host front scan) {rest : List (Except String Entry)}
    {scan' : Scan} (h : (scanEntries host scan rest).1 = .ok scan') :
    ∃ es, rest = es.map .ok ∧ Follows host (front ++ es) scan' := by
  induction rest generalizing front scan with
  | nil =>
    cases h
    exact ⟨[], rfl, by rwa [List.append_nil]⟩
  | cons x rest ih =>
    cases x with
    | error text => cases h
    | ok e =>
      cases hcheck : checkEntry host scan e with
      | error x =>
        rw [scanEntries, hcheck] at h
        cases h
      | ok c =>
        obtain ⟨hadm, rfl⟩ := hf.passed hcheck
        obtain ⟨name, hname⟩ := hadm.named e (by simp)
        have hfound : (found host front.length e).name = name := found_name hname
        have hrest : ∀ {manifestBytes : Option Bytes},
            (∀ content, manifestBytes = some content → scan.manifestBytes = some content ∨
              entryName host e = some manifestFileName ∧ e.content = content) →
            (scanEntries host ⟨scan.entries ++ [found host front.length e],
              scan.declaredTotal + e.size, manifestBytes⟩ rest).1 = .ok scan' →
            ∃ es, .ok e :: rest = es.map .ok ∧ Follows host (front ++ es) scan' := by
          intro manifestBytes hmanifest hok
          obtain ⟨es, rfl, hend⟩ := ih (hf.next hadm hmanifest) hok
          exact ⟨e :: es, rfl, by rwa [List.append_assoc] at hend⟩
        by_cases hm : (found host front.length e).name = manifestFileName
        · rw [scanEntries_read hcheck hm] at h
          cases hread : readToEnd e with
          | error x =>
            rw [hread] at h
            cases h
          | ok content =>
            rw [hread] at h
            refine hrest (fun c hc => .inr ⟨?_, ?_⟩) h
            · rw [hname, ← hfound, hm]
            · cases hc
              exact (readToEnd_eq_ok hread).1
        · rw [scanEntries_skip hcheck hm] at h
          exact hrest (fun c hc => .inl hc) h

/-- What was opened came to a buffer more than its limit at most. -/
def Opening.Limited (o : Opening) : Prop := o.decompressed ≤ o.limit + bufferBytes

/-- RUN: a scan that only reads what fits keeps to the limit. -/
theorem scanEntries_limited (hf : Follows host front scan) {rest : List (Except String Entry)}
    (hfit : ∀ mid e back, rest = mid.map .ok ++ .ok e :: back →
      Admissible host (front ++ (mid ++ [e])) → entryName host e = some manifestFileName →
      e.content.length ≤ maxManifestBytes + bufferBytes) :
    ∀ o ∈ (scanEntries host scan rest).2, o.Limited := by
  induction rest generalizing front scan with
  | nil => exact fun o ho => by cases ho
  | cons x rest ih =>
    cases x with
    | error text => exact fun o ho => by cases ho
    | ok e =>
      cases hcheck : checkEntry host scan e with
      | error x =>
        rw [scanEntries, hcheck]
        exact fun o ho => by cases ho
      | ok c =>
        obtain ⟨hadm, rfl⟩ := hf.passed hcheck
        obtain ⟨name, hname⟩ := hadm.named e (by simp)
        have hfound : (found host front.length e).name = name := found_name hname
        have hrest : ∀ {manifestBytes : Option Bytes},
            (∀ content, manifestBytes = some content → scan.manifestBytes = some content ∨
              entryName host e = some manifestFileName ∧ e.content = content) →
            ∀ o ∈ (scanEntries host ⟨scan.entries ++ [found host front.length e],
              scan.declaredTotal + e.size, manifestBytes⟩ rest).2, o.Limited := by
          intro manifestBytes hmanifest
          refine ih (hf.next hadm hmanifest) fun mid e' back hback hadm' hname' => ?_
          refine hfit (e :: mid) e' back ?_ ?_ hname'
          · rw [hback]
            rfl
          · rwa [List.append_assoc] at hadm'
        by_cases hm : (found host front.length e).name = manifestFileName
        · have hmanifest : entryName host e = some manifestFileName := by rw [hname, ← hfound, hm]
          have hlimited : Opening.Limited ⟨maxManifestBytes, e.content.length⟩ :=
            hfit [] e rest rfl hadm hmanifest
          rw [scanEntries_read hcheck hm]
          cases hread : readToEnd e with
          | error x =>
            intro o ho
            obtain rfl := List.mem_singleton.mp ho
            exact hlimited
          | ok content =>
            intro o ho
            rcases List.mem_cons.mp ho with rfl | ho
            · exact hlimited
            · refine hrest (fun c hc => .inr ⟨hmanifest, ?_⟩) o ho
              cases hc
              exact (readToEnd_eq_ok hread).1
        · rw [scanEntries_skip hcheck hm]
          exact hrest fun c hc => .inl hc

/-- RUN: behind admissible entries the manifest is read, whatever it comes to. -/
theorem scanEntries_reads (hf : Follows host front scan) {mid : List Entry} {e : Entry}
    {back : List (Except String Entry)} (hadm : Admissible host (front ++ (mid ++ [e])))
    (hname : entryName host e = some manifestFileName) :
    (⟨maxManifestBytes, e.content.length⟩ : Opening) ∈
      (scanEntries host scan (mid.map .ok ++ .ok e :: back)).2 := by
  induction mid generalizing front scan with
  | nil =>
    have hcheck := checkEntry_of_admissible hf hadm
    have hm : (found host front.length e).name = manifestFileName := found_name hname
    rw [List.map_nil, List.nil_append, scanEntries_read hcheck hm]
    cases readToEnd e with
    | error x => exact List.mem_singleton.mpr rfl
    | ok content => exact List.mem_cons_self
  | cons e₀ mid ih =>
    have hsplit : front ++ (e₀ :: mid ++ [e]) = front ++ [e₀] ++ (mid ++ [e]) := by simp
    rw [hsplit] at hadm
    have hadm₀ : Admissible host (front ++ [e₀]) := hadm.left
    have hcheck := checkEntry_of_admissible hf hadm₀
    obtain ⟨name, hname₀⟩ := hadm₀.named e₀ (by simp)
    have hne : entryName host e₀ ≠ entryName host e := by
      have hnodup := hadm.distinct
      rw [List.map_append, List.nodup_append] at hnodup
      exact hnodup.2.2 _ (List.mem_map_of_mem (by simp)) _ (List.mem_map_of_mem (by simp))
    have hm : (found host front.length e₀).name ≠ manifestFileName := by
      rw [found_name hname₀]
      rintro rfl
      exact hne (hname₀.trans hname.symm)
    rw [List.map_cons, List.cons_append, scanEntries_skip hcheck hm]
    exact ih (hf.next hadm₀ fun c hc => .inl hc) hadm

/-! ### The archive -/

theorem openArchive_library {bytes : Bytes} {zip : Zip} (h : openArchive host bytes = .ok zip) :
    host.library bytes = .ok zip := by
  unfold openArchive at h
  split at h
  · cases h
  · split at h
    · cases h
    · rename_i hlibrary
      split_ifs at h
      cases h
      exact hlibrary

variable (host) in
/-- A `manifest.toml` that the scan comes to is as small as it may be. -/
def ManifestsFit (bytes : Bytes) : Prop :=
  ∀ zip front e back, openArchive host bytes = .ok zip →
    zip.entries = front.map .ok ++ .ok e :: back → Admissible host (front ++ [e]) →
    entryName host e = some manifestFileName →
    e.content.length ≤ maxManifestBytes + bufferBytes

/-- The openings of a scan are those of its entries. -/
theorem scanArchive_opened {bytes : Bytes} {zip : Zip} (h : openArchive host bytes = .ok zip) :
    (scanArchive host bytes).2 = (scanEntries host {} zip.entries).2 := by
  unfold scanArchive
  rw [h]
  dsimp only
  split
  · rename_i heq
    rw [heq]
  · rename_i heq
    rw [heq]
    split <;> rfl

theorem scanArchive_limited {bytes : Bytes} (hfit : ManifestsFit host bytes) :
    ∀ o ∈ (scanArchive host bytes).2, o.Limited := by
  cases hopen : openArchive host bytes with
  | error x =>
    unfold scanArchive
    rw [hopen]
    exact fun o ho => by cases ho
  | ok zip =>
    rw [scanArchive_opened hopen]
    exact scanEntries_limited (.start host) fun mid e back => hfit zip mid e back hopen

theorem scanArchive_reads {bytes : Bytes} (hfit : ¬ ManifestsFit host bytes) :
    ∃ o ∈ (scanArchive host bytes).2, ¬ o.Limited := by
  unfold ManifestsFit at hfit
  push Not at hfit
  obtain ⟨zip, front, e, back, hopen, hentries, hadm, hname, hlarge⟩ := hfit
  refine ⟨⟨maxManifestBytes, e.content.length⟩, ?_, Nat.not_le.mpr hlarge⟩
  rw [scanArchive_opened hopen, hentries]
  exact scanEntries_reads (.start host) hadm hname

/-- A scan that succeeds: the entries, all of them admissible, and what the manifest came to. -/
theorem scanArchive_ok {bytes content : Bytes} {cs : List ArchiveEntry}
    (h : (scanArchive host bytes).1 = .ok (cs, content)) :
    ∃ zip es, host.library bytes = .ok zip ∧ zip.entries = es.map .ok ∧ Admissible host es ∧
      cs = es.mapIdx (found host) ∧
      ∃ e ∈ es, entryName host e = some manifestFileName ∧ e.content = content := by
  unfold scanArchive at h
  split at h
  · cases h
  · rename_i zip hopen
    split at h
    · cases h
    · rename_i scan opened hscan
      split at h
      · cases h
      · rename_i bytes' hmanifest
        cases h
        obtain ⟨es, hes, hf⟩ := scanEntries_ok (.start host) (by rw [hscan])
        exact ⟨zip, es, openArchive_library hopen, hes, hf.admissible, hf.entries,
          hf.manifest _ hmanifest⟩
end

end Gamer.Extensions.Archive
