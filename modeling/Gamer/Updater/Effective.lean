import Gamer.Updater.Policy

/-! The saved policy is the one in force. Where every `persist` succeeds the temporary file has one
    owner at a time: a call that opens it while another has it leaves one name for two renames, and
    one of them fails.

        tmp: none ──create──▶ one owner ──rename──▶ none        all of them succeed
                                  └──create──▶ two owners ──▶ … ──▶ a rename without a name

    What is left to chance is the order of the renames. -/

namespace Gamer.Updater.Policy
open Gamer.Lib

/-- A call has the temporary file open. -/
def Holds (s : Store) (call : Nat) : Prop :=
  ∃ p inode offset, s.calls.get call = some (.opened p inode offset)

def Failed (s : Store) : Prop := ∃ call p, s.calls.get call = some (.failed p)

/-- More calls have the temporary file open than there are names for it. -/
def Doomed (s : Store) : Prop :=
  (s.tmp = none ∧ ∃ call, Holds s call) ∨
  (s.tmp ≠ none ∧ ∃ call call', call ≠ call' ∧ Holds s call ∧ Holds s call')

/-- INVARIANT: the names of the two files. -/
structure Named (s : Store) : Prop where
  tmp : ∀ inode, s.tmp = some inode → inode < s.nextInode
  path : ∀ inode, s.path = some inode → inode < s.nextInode
  apart : ∀ inode, s.tmp = some inode → s.path ≠ some inode

section
variable {encode : UpdatePolicy → Bytes}

variable (encode) in
/-- INVARIANT: one call at most has the temporary file open, and holds in it what it has written;
    the policy in force is in the state file, or is still to be saved. -/
structure Clean (s : Store) : Prop where
  written : ∀ call p inode offset, s.calls.get call = some (.opened p inode offset) →
    s.tmp = some inode ∧ offset ≤ (text encode p).length ∧
      s.inodes.get inode = some ((text encode p).take offset)
  sole : ∀ call call', Holds s call → Holds s call' → call = call'
  kept : (∃ call c, s.calls.get call = some c) →
    Owed s (fun _ => False) ∨ s.stateFile = some (text encode s.current)

variable (encode) in
/-- INVARIANT: all is well, or a call has failed, or one will. -/
def Sound (s : Store) : Prop := Named s ∧ (Failed s ∨ Doomed s ∨ Clean encode s)

/-! ### A call moves on -/

/-- One call's stage is changed. -/
def Moved (s s' : Store) (call : Nat) (c : Stage) : Prop :=
  ∀ k, s'.calls.get k = if k = call then some c else s.calls.get k

theorem moved_setCall {s t : Store} (h : t.calls = s.calls) (call : Nat) (c : Stage) :
    Moved s (t.setCall call c) call c := by
  intro k
  rw [Store.setCall, h, Table.get_set]

section
variable {s s' : Store} {call : Nat} {c : Stage}

theorem Moved.self (h : Moved s s' call c) : s'.calls.get call = some c := by
  rw [h, if_pos rfl]

theorem Moved.other (h : Moved s s' call c) {k : Nat} (hk : k ≠ call) :
    s'.calls.get k = s.calls.get k := by
  rw [h, if_neg hk]

/-- FRAME: what has failed stays so. -/
theorem Moved.failed (h : Moved s s' call c) (hfailed : Failed s)
    (hcall : ∀ p, s.calls.get call ≠ some (.failed p)) : Failed s' := by
  obtain ⟨k, p, hk⟩ := hfailed
  have hne : k ≠ call := by
    rintro rfl
    exact hcall p hk
  exact ⟨k, p, (h.other hne).trans hk⟩

/-- FRAME: the others keep the temporary file open. -/
theorem Moved.holds (h : Moved s s' call c) {k : Nat} (hk : k ≠ call) : Holds s' k ↔ Holds s k := by
  simp only [Holds, h.other hk]

/-- FRAME: what another call has to save, if the policy in force is the same. -/
theorem Moved.owed (h : Moved s s' call c) (hcurrent : s'.current = s.current)
    (howed : Owed s (· = call)) : Owed s' fun _ => False := by
  obtain ⟨k, d, hk, hget, hpending⟩ := howed
  exact ⟨k, d, not_false, (h.other hk).trans hget, hcurrent ▸ hpending⟩

/-- FRAME: a call that has its policy still to save goes on having it. -/
theorem Moved.still_owed (h : Moved s s' call c) (hcurrent : s'.current = s.current) {d : Stage}
    (hcall : s.calls.get call = some d) (hpending : c.pending = d.pending)
    (howed : Owed s fun _ => False) : Owed s' fun _ => False := by
  obtain ⟨k, e, -, hget, hkept⟩ := howed
  by_cases hk : k = call
  · subst hk
    rw [hcall] at hget
    cases hget
    exact ⟨k, c, not_false, h.self, by rw [hpending, hkept, hcurrent]⟩
  · exact ⟨k, e, not_false, (h.other hk).trans hget, by rw [hkept, hcurrent]⟩

end

/-! ### One step -/

variable {s s' : Store}

/-- STEP: a call begins. It has nothing open. -/
theorem sound_replace {call : Nat} {p : UpdatePolicy} (h : Sound encode s)
    (hstep : s.replace call p = some s') : Sound encode s' := by
  obtain ⟨hnamed, hsound⟩ := h
  unfold Store.replace at hstep
  split at hstep
  · cases hstep
  · next hnew =>
    rw [Bool.not_eq_true, Option.isSome_eq_false_iff, Option.isNone_iff_eq_none] at hnew
    split at hstep
    · cases hstep
      exact ⟨hnamed, hsound⟩
    · cases hstep
      have hmoved : Moved s (Store.setCall { s with current := p } call (.swapped p)) call
          (.swapped p) := moved_setCall rfl call _
      have hholds : ∀ k, Holds (Store.setCall { s with current := p } call (.swapped p)) k ↔
          Holds s k := by
        intro k
        by_cases hk : k = call
        · subst hk
          simp [Holds, hmoved.self, hnew]
        · exact hmoved.holds hk
      refine ⟨⟨hnamed.tmp, hnamed.path, hnamed.apart⟩, ?_⟩
      rcases hsound with hfailed | hdoomed | hclean
      · exact .inl (hmoved.failed hfailed (by simp [hnew]))
      · refine .inr (.inl ?_)
        unfold Doomed at hdoomed ⊢
        simp only [hholds]
        exact hdoomed
      · refine .inr (.inr ⟨?_, ?_, fun _ => .inl ⟨call, _, not_false, hmoved.self, rfl⟩⟩)
        · intro k q inode offset hk
          by_cases hkc : k = call
          · rw [hkc, hmoved.self] at hk
            cases hk
          · rw [hmoved.other hkc] at hk
            exact hclean.written k q inode offset hk
        · intro k k' hk hk'
          exact hclean.sole k k' ((hholds k).mp hk) ((hholds k').mp hk')

/-- INVERSION: the temporary file is the one that was there, or a new one. -/
theorem create_moved {call : Nat} (hnamed : Named s) (hstep : s.create call = some s') :
    ∃ p inode, s.calls.get call = some (.swapped p) ∧ Moved s s' call (.opened p inode 0) ∧
      s'.inodes = s.inodes.set inode [] ∧ s'.tmp = some inode ∧ s'.path = s.path ∧
      s'.current = s.current ∧ s.path ≠ some inode ∧ inode < s'.nextInode ∧
      s.nextInode ≤ s'.nextInode := by
  unfold Store.create at hstep
  split at hstep
  · next p hcall =>
    split at hstep
    · next inode htmp =>
      cases hstep
      exact ⟨p, inode, hcall, moved_setCall rfl call _, rfl, htmp, rfl, rfl,
        hnamed.apart inode htmp, hnamed.tmp inode htmp, Nat.le_refl _⟩
    · cases hstep
      refine ⟨p, s.nextInode, hcall, moved_setCall rfl call _, rfl, rfl, rfl, rfl, fun hpath => ?_,
        Nat.lt_succ_self _, Nat.le_succ _⟩
      exact Nat.lt_irrefl _ (hnamed.path _ hpath)
  · cases hstep

/-- FRAME: another file is written. -/
theorem stateFile_apart {inode : Nat} {bytes : Bytes} (hpath : s'.path = s.path)
    (hinodes : s'.inodes = s.inodes.set inode bytes) (hapart : s.path ≠ some inode) :
    s'.stateFile = s.stateFile := by
  unfold Store.stateFile
  rw [hpath, hinodes]
  cases hp : s.path with
  | none => rfl
  | some i => exact Table.get_set_ne (fun heq => hapart (hp.trans (congrArg some heq))) _ _

/-- STEP: a call opens the temporary file. If another has it open, one of them will fail. -/
theorem sound_create {call : Nat} (h : Sound encode s) (hstep : s.create call = some s') :
    Sound encode s' := by
  obtain ⟨hnamed, hsound⟩ := h
  obtain ⟨p, inode, hcall, hmoved, hinodes, htmp, hpath, hcurrent, hapart, hlt, hle⟩ :=
    create_moved hnamed hstep
  have hself : Holds s' call := ⟨p, inode, 0, hmoved.self⟩
  have hnot : ∀ k, Holds s k → k ≠ call := by
    rintro k ⟨q, i, o, hk⟩ rfl
    rw [hcall] at hk
    cases hk
  have hnamed' : Named s' := by
    refine ⟨fun i hi => ?_, fun i hi => ?_, fun i hi => ?_⟩
    · rw [htmp] at hi
      cases hi
      exact hlt
    · exact Nat.lt_of_lt_of_le (hnamed.path i (hpath ▸ hi)) hle
    · rw [htmp] at hi
      cases hi
      rw [hpath]
      exact hapart
  -- Whoever has it open besides makes it too many.
  have htwo : (∃ k, Holds s k) → Doomed s' := by
    rintro ⟨k, hk⟩
    refine .inr ⟨by rw [htmp]; exact Option.some_ne_none _, k, call, hnot k hk, ?_, hself⟩
    exact (hmoved.holds (hnot k hk)).mpr hk
  refine ⟨hnamed', ?_⟩
  rcases hsound with hfailed | hdoomed | hclean
  · exact .inl (hmoved.failed hfailed (by simp [hcall]))
  · rcases hdoomed with ⟨-, hone⟩ | ⟨-, k, -, -, hk, -⟩
    · exact .inr (.inl (htwo hone))
    · exact .inr (.inl (htwo ⟨k, hk⟩))
  · by_cases hheld : ∃ k, Holds s k
    · exact .inr (.inl (htwo hheld))
    · have honly : ∀ k, Holds s' k → k = call := by
        intro k hk
        by_contra hne
        exact hheld ⟨k, (hmoved.holds hne).mp hk⟩
      refine .inr (.inr ⟨?_, fun k k' hk hk' => (honly k hk).trans (honly k' hk').symm,
        fun _ => ?_⟩)
      · intro k q i o hk
        obtain rfl := honly k ⟨q, i, o, hk⟩
        rw [hmoved.self] at hk
        cases hk
        exact ⟨htmp, Nat.zero_le _, by rw [hinodes, Table.get_set_self, List.take_zero]⟩
      · rcases hclean.kept ⟨call, _, hcall⟩ with howed | hfile
        · exact .inl (hmoved.still_owed hcurrent hcall rfl howed)
        · refine .inr ?_
          rw [stateFile_apart hpath hinodes hapart, hcurrent, hfile]

theorem overlay_take {whole : Bytes} {offset n : Nat} (h : offset + n ≤ whole.length) :
    overlay (whole.take offset) offset ((whole.drop offset).take n) = whole.take (offset + n) := by
  have hlen : (whole.take offset).length = offset := by
    rw [List.length_take]
    omega
  have hn : ((whole.drop offset).take n).length = n := by
    rw [List.length_take, List.length_drop]
    omega
  have hrest : (whole.take offset).drop (offset + n) = [] :=
    List.drop_eq_nil_of_le (by rw [hlen]; omega)
  rw [overlay, hlen, hn, hrest, Nat.sub_self, List.replicate_zero, List.append_nil,
    List.append_nil, List.take_take, Nat.min_self, ← List.take_add]

/-- INVERSION: one more piece is in the file that the call has open. -/
theorem write_moved {call n : Nat} (hstep : s.write encode call n = some s') :
    ∃ p inode offset, s.calls.get call = some (.opened p inode offset) ∧
      offset + n ≤ (text encode p).length ∧ Moved s s' call (.opened p inode (offset + n)) ∧
      s'.inodes = s.inodes.set inode (overlay ((s.inodes.get inode).getD []) offset
        (((text encode p).drop offset).take n)) ∧
      s'.tmp = s.tmp ∧ s'.path = s.path ∧ s'.current = s.current ∧ s'.nextInode = s.nextInode := by
  unfold Store.write at hstep
  split at hstep
  · next p inode offset hcall =>
    split at hstep
    · next hle =>
      cases hstep
      exact ⟨p, inode, offset, hcall, hle.2, moved_setCall rfl call _, rfl, rfl, rfl, rfl, rfl⟩
    · cases hstep
  · cases hstep

/-- STEP: a call writes one piece. -/
theorem sound_write {call n : Nat} (h : Sound encode s) (hstep : s.write encode call n = some s') :
    Sound encode s' := by
  obtain ⟨hnamed, hsound⟩ := h
  obtain ⟨p, inode, offset, hcall, hfits, hmoved, hinodes, htmp, hpath, hcurrent, hnext⟩ :=
    write_moved hstep
  have hholds : ∀ k, Holds s' k ↔ Holds s k := by
    intro k
    by_cases hk : k = call
    · subst hk
      exact ⟨fun _ => ⟨p, inode, offset, hcall⟩, fun _ => ⟨p, inode, offset + n, hmoved.self⟩⟩
    · exact hmoved.holds hk
  refine ⟨⟨?_, ?_, ?_⟩, ?_⟩
  · rw [htmp, hnext]
    exact hnamed.tmp
  · rw [hpath, hnext]
    exact hnamed.path
  · rw [htmp, hpath]
    exact hnamed.apart
  rcases hsound with hfailed | hdoomed | hclean
  · exact .inl (hmoved.failed hfailed (by simp [hcall]))
  · refine .inr (.inl ?_)
    unfold Doomed at hdoomed ⊢
    simp only [hholds, htmp]
    exact hdoomed
  · obtain ⟨hmine, -, hcontent⟩ := hclean.written call p inode offset hcall
    refine .inr (.inr ⟨?_, ?_, fun _ => ?_⟩)
    · intro k q i o hk
      obtain rfl := hclean.sole k call ((hholds k).mp ⟨q, i, o, hk⟩) ⟨p, inode, offset, hcall⟩
      rw [hmoved.self] at hk
      cases hk
      refine ⟨htmp.trans hmine, hfits, ?_⟩
      rw [hinodes, Table.get_set_self, hcontent, Option.getD_some, overlay_take hfits]
    · exact fun k k' hk hk' => hclean.sole k k' ((hholds k).mp hk) ((hholds k').mp hk')
    · rcases hclean.kept ⟨call, _, hcall⟩ with howed | hfile
      · exact .inl (hmoved.still_owed hcurrent hcall rfl howed)
      · refine .inr ?_
        rw [stateFile_apart hpath hinodes (hnamed.apart inode hmine), hcurrent, hfile]

/-- INVERSION: the temporary file takes the place of the file, or there is none. -/
theorem rename_moved {call : Nat} (hstep : s.rename encode call = some s') :
    ∃ p inode offset, s.calls.get call = some (.opened p inode offset) ∧
      offset = (text encode p).length ∧ s'.current = s.current ∧ s'.inodes = s.inodes ∧
      s'.nextInode = s.nextInode ∧ s'.tmp = none ∧
      ((∃ inode', s.tmp = some inode' ∧ s'.path = some inode' ∧ Moved s s' call (.saved p)) ∨
        (s.tmp = none ∧ s'.path = s.path ∧ Moved s s' call (.failed p))) := by
  unfold Store.rename at hstep
  split at hstep
  · next p inode offset hcall =>
    split at hstep
    · next hdone =>
      split at hstep
      · next inode' htmp =>
        cases hstep
        exact ⟨p, inode, offset, hcall, hdone, rfl, rfl, rfl, rfl,
          .inl ⟨inode', htmp, rfl, moved_setCall rfl call _⟩⟩
      · next htmp =>
        cases hstep
        exact ⟨p, inode, offset, hcall, hdone, rfl, rfl, rfl, htmp,
          .inr ⟨htmp, rfl, moved_setCall rfl call _⟩⟩
    · cases hstep
  · cases hstep

/-- STEP: a call renames the temporary file, in its turn. -/
theorem sound_rename {call : Nat} (h : Sound encode s) (hturn : LastWins s (.rename call))
    (hstep : s.rename encode call = some s') : Sound encode s' := by
  obtain ⟨hnamed, hsound⟩ := h
  obtain ⟨p, inode, offset, hcall, hdone, hcurrent, hinodes, hnext, htmp, hcase⟩ :=
    rename_moved hstep
  rcases hcase with ⟨inode', hname, hpath, hmoved⟩ | ⟨-, hpath, hmoved⟩
  · refine ⟨⟨by simp [htmp], fun i hi => ?_, by simp [htmp]⟩, ?_⟩
    · rw [hpath] at hi
      cases hi
      rw [hnext]
      exact hnamed.tmp inode' hname
    rcases hsound with hfailed | hdoomed | hclean
    · exact .inl (hmoved.failed hfailed (by simp [hcall]))
    · rcases hdoomed with ⟨hnone, -⟩ | ⟨-, k, k', hne, hk, hk'⟩
      · rw [hname] at hnone
        cases hnone
      · -- One of the two has nothing left to rename.
        refine .inr (.inl (.inl ⟨htmp, ?_⟩))
        by_cases hkc : k = call
        · exact ⟨k', (hmoved.holds (fun h => hne (hkc.trans h.symm))).mpr hk'⟩
        · exact ⟨k, (hmoved.holds hkc).mpr hk⟩
    · obtain ⟨hmine, -, hcontent⟩ := hclean.written call p inode offset hcall
      have hnone : ∀ k, ¬ Holds s' k := by
        intro k hk
        by_cases hkc : k = call
        · obtain ⟨q, i, o, hget⟩ := hk
          rw [hkc, hmoved.self] at hget
          cases hget
        · exact hkc (hclean.sole k call ((hmoved.holds hkc).mp hk) ⟨p, inode, offset, hcall⟩)
      refine .inr (.inr ⟨fun k q i o hk => absurd ⟨q, i, o, hk⟩ (hnone k),
        fun k _ hk _ => absurd hk (hnone k), fun _ => ?_⟩)
      rcases hturn (.opened p inode offset) p hcall rfl with rfl | howed
      · refine .inr ?_
        rw [hname] at hmine
        cases hmine
        rw [Store.stateFile, hpath, hinodes, hcurrent]
        show s.inodes.get inode = _
        rw [hcontent, hdone, List.take_length]
      · exact .inl (hmoved.owed hcurrent howed)
  · refine ⟨⟨by simp [htmp], ?_, by simp [htmp]⟩, .inl ⟨call, p, hmoved.self⟩⟩
    rw [hpath, hnext]
    exact hnamed.path

theorem sound_fail {call : Nat} (h : Sound encode s) (hstep : s.fail call = some s') :
    Sound encode s' := by
  obtain ⟨⟨h₁, h₂, h₃⟩, -⟩ := h
  unfold Store.fail at hstep
  split at hstep
  · next p _ =>
    cases hstep
    exact ⟨⟨h₁, h₂, h₃⟩, .inl ⟨call, p, (moved_setCall rfl call _).self⟩⟩
  · next p _ _ _ =>
    cases hstep
    exact ⟨⟨h₁, h₂, h₃⟩, .inl ⟨call, p, (moved_setCall rfl call _).self⟩⟩
  · cases hstep

/-- STEP: a step whose rename is in its turn. -/
theorem sound_step {a : Action} (h : Sound encode s) (hturn : LastWins s a)
    (hstep : step encode s a = some s') : Sound encode s' := by
  cases a with
  | replace call p => exact sound_replace h hstep
  | create call => exact sound_create h hstep
  | write call n => exact sound_write h hstep
  | rename call => exact sound_rename h hturn hstep
  | fail call => exact sound_fail h hstep

/-- INVERSION: the policy in force is that of a call that was accepted. -/
theorem step_current {a : Action} (hnamed : Named s) (hstep : step encode s a = some s') :
    (s'.current = s.current ∧
      ((∃ call c, s'.calls.get call = some c) → ∃ call c, s.calls.get call = some c)) ∨
    ∃ call p, a = .replace call p ∧ p.validateField = none ∧ s'.current = p := by
  cases a with
  | replace call p =>
    have hstep : s.replace call p = some s' := hstep
    unfold Store.replace at hstep
    split at hstep
    · cases hstep
    · split at hstep
      · cases hstep
        exact .inl ⟨rfl, id⟩
      · next hvalid =>
        cases hstep
        exact .inr ⟨call, p, rfl, hvalid, rfl⟩
  | create call =>
    obtain ⟨p, inode, hcall, -, -, -, -, hcurrent, -⟩ := create_moved hnamed hstep
    exact .inl ⟨hcurrent, fun _ => ⟨call, _, hcall⟩⟩
  | write call n =>
    obtain ⟨p, inode, offset, hcall, -, -, -, -, -, hcurrent, -⟩ := write_moved hstep
    exact .inl ⟨hcurrent, fun _ => ⟨call, _, hcall⟩⟩
  | rename call =>
    obtain ⟨p, inode, offset, hcall, -, hcurrent, -⟩ := rename_moved hstep
    exact .inl ⟨hcurrent, fun _ => ⟨call, _, hcall⟩⟩
  | fail call =>
    have hstep : s.fail call = some s' := hstep
    unfold Store.fail at hstep
    split at hstep
    · next hcall =>
      cases hstep
      exact .inl ⟨rfl, fun _ => ⟨call, _, hcall⟩⟩
    · next hcall =>
      cases hstep
      exact .inl ⟨rfl, fun _ => ⟨call, _, hcall⟩⟩
    · cases hstep

/-! ### Runs -/

variable (encode) in
/-- The policy in force can be read back from the text that is saved of it. -/
def Readable (decode : Bytes → Option UpdatePolicy) (s : Store) : Prop :=
  (∃ call c, s.calls.get call = some c) →
    s.current.validateField = none ∧ decode (text encode s.current) = some s.current

theorem sound_loaded (h : Loaded s) : Sound encode s := by
  have hnone : ∀ call c, s.calls.get call ≠ some c := by
    intro call c hcall
    rw [h.idle, Table.get_empty] at hcall
    cases hcall
  refine ⟨⟨h.tmp, h.path, h.apart⟩, .inr (.inr ⟨?_, ?_, ?_⟩)⟩
  · exact fun call p inode offset hcall => absurd hcall (hnone call _)
  · exact fun call _ ⟨p, inode, offset, hcall⟩ _ => absurd hcall (hnone call _)
  · exact fun ⟨call, c, hcall⟩ => absurd hcall (hnone call c)

/-- RUN: the renames are in their turn. -/
theorem sound_run {decode : Bytes → Option UpdatePolicy} : ∀ {as : List Action} {s : Store},
    (∀ call p, .replace call p ∈ as → p.validateField = none →
      decode (text encode p) = some p) →
    Sound encode s → Readable encode decode s → Machine.exec (step encode) s as = some s' →
    Machine.Along (step encode) LastWins s as → Sound encode s' ∧ Readable encode decode s'
  | [], s, _, hsound, hread, hrun, _ => by
    cases hrun
    exact ⟨hsound, hread⟩
  | a :: as, s, hround, hsound, hread, hrun, hturn => by
    obtain ⟨m, hstep, hrest⟩ := Machine.exec_cons_eq_some.mp hrun
    obtain ⟨hfirst, hturns⟩ := hturn
    refine sound_run (fun call p hp => hround call p (List.mem_cons_of_mem _ hp))
      (sound_step hsound hfirst hstep) (fun hcalled => ?_) hrest (hturns m hstep)
    rcases step_current hsound.1 hstep with ⟨hcurrent, hback⟩ | ⟨call, p, rfl, hvalid, rfl⟩
    · rw [hcurrent]
      exact hread (hback hcalled)
    · exact ⟨hvalid, hround call _ List.mem_cons_self hvalid⟩

/-- Once all calls have returned nothing is open and nothing is owed. -/
theorem settled_file (h : Sound encode s) (hsettled : Settled s) :
    s.stateFile = some (text encode s.current) := by
  have hclosed : ∀ call, ¬ Holds s call := by
    rintro call ⟨p, inode, offset, hcall⟩
    obtain ⟨q, hq⟩ := hsettled.saved call _ hcall
    cases hq
  rcases h.2 with ⟨call, p, hcall⟩ | (⟨-, call, hheld⟩ | ⟨-, call, -, -, hheld, -⟩) | hclean
  · obtain ⟨q, hq⟩ := hsettled.saved call _ hcall
    cases hq
  · exact absurd hheld (hclosed call)
  · exact absurd hheld (hclosed call)
  · rcases hclean.kept hsettled.called with ⟨call, c, -, hcall, hpending⟩ | hfile
    · obtain ⟨q, rfl⟩ := hsettled.saved call c hcall
      cases hpending
    · exact hfile

end

/-- SAFETY: in a run whose renames are in their turn, once all calls have returned and saved, the
    state file is the policy in force, and a store that is loaded from it has that policy. -/
theorem saved_policy_effective {encode : UpdatePolicy → Bytes}
    {decode : Bytes → Option UpdatePolicy} {s s' : Store} {as : List Action} (hstart : Loaded s)
    (hround : ∀ call p, .replace call p ∈ as → p.validateField = none →
      decode (text encode p) = some p)
    (hrun : Machine.exec (step encode) s as = some s')
    (hturn : Machine.Along (step encode) LastWins s as) (hsettled : Settled s') :
    s'.stateFile.bind decode = some s'.current ∧
      ∀ baseline, loadBlocking decode s'.stateFile baseline = s'.current := by
  have hread : Readable encode decode s := by
    rintro ⟨call, c, hcall⟩
    rw [hstart.idle, Table.get_empty] at hcall
    cases hcall
  obtain ⟨hsound, hread⟩ := sound_run hround (sound_loaded hstart) hread hrun hturn
  obtain ⟨hvalid, hdecode⟩ := hread hsettled.called
  rw [settled_file hsound hsettled]
  refine ⟨hdecode, fun baseline => ?_⟩
  rw [loadBlocking, hdecode]
  exact if_pos hvalid

/-! ### Two calls -/

theorem get_iff_entry {s : Store} {call : Nat} {c : Stage} :
    s.calls.get call = some c ↔ (⟨call, c⟩ : (_ : Nat) × Stage) ∈ s.calls.entries :=
  AList.mem_lookup_iff

instance Owed.decidable (s : Store) (call : Nat) : Decidable (Owed s (· = call)) :=
  decidable_of_iff (∃ e ∈ s.calls.entries, e.1 ≠ call ∧ e.2.pending = some s.current)
    ⟨fun ⟨e, he, hne, hp⟩ => ⟨e.1, e.2, hne, get_iff_entry.mpr he, hp⟩,
      fun ⟨k, c, hne, hk, hp⟩ => ⟨⟨k, c⟩, get_iff_entry.mp hk, hne, hp⟩⟩

instance LastWins.decidable (s : Store) : ∀ a, Decidable (LastWins s a)
  | .rename call =>
    decidable_of_iff (∀ c ∈ s.calls.get call, ∀ p ∈ c.pending, p = s.current ∨ Owed s (· = call))
      ⟨fun h c p hc hp => h c hc p hp, fun h c hc p hp => h c p hc hp⟩
  | .replace _ _ => isTrue trivial
  | .create _ => isTrue trivial
  | .write _ _ => isTrue trivial
  | .fail _ => isTrue trivial

def Stage.isSaved : Stage → Bool
  | .saved _ => true
  | _ => false

theorem settled_iff {s : Store} :
    (s.calls.entries ≠ [] ∧ ∀ e ∈ s.calls.entries, e.2.isSaved = true) ↔ Settled s := by
  constructor
  · rintro ⟨hne, hall⟩
    obtain ⟨⟨call, c⟩, rest, hrest⟩ := List.exists_cons_of_ne_nil hne
    refine ⟨⟨call, c, get_iff_entry.mpr (hrest ▸ List.mem_cons_self)⟩, fun call c hcall => ?_⟩
    have hsaved := hall _ (get_iff_entry.mp hcall)
    cases c with
    | saved p => exact ⟨p, rfl⟩
    | swapped p => cases hsaved
    | opened p inode offset => cases hsaved
    | failed p => cases hsaved
  · intro h
    refine ⟨fun hnil => ?_, fun e he => ?_⟩
    · obtain ⟨call, c, hcall⟩ := h.called
      have hmem := get_iff_entry.mp hcall
      rw [hnil] at hmem
      cases hmem
    · obtain ⟨p, hp⟩ := h.saved e.1 e.2 (get_iff_entry.mpr he)
      rw [hp]
      rfl

instance Settled.decidable (s : Store) : Decidable (Settled s) := decidable_of_iff _ settled_iff

def UpdateStrategy.asStr : UpdateStrategy → String
  | .off => "off"
  | .notify => "notify"
  | .auto => "auto"

/-- `to_vec_pretty`. -/
def prettyJson (p : UpdatePolicy) : Bytes :=
  Bytes.ascii ("\x7b\n  \"strategy\": \"" ++ p.strategy.asStr ++
    "\",\n  \"maintenance_window\": \x7b\n    \"start\": \"" ++ p.maintenanceWindow.start ++
    "\",\n    \"end\": \"" ++ p.maintenanceWindow.finish ++
    "\"\n  \x7d,\n  \"freeze_window_minutes\": " ++ toString p.freezeMinutes ++ "\n\x7d")

def nightly : UpdatePolicy := ⟨.auto, ⟨"23:00", "05:00"⟩, 15⟩

def manual : UpdatePolicy := ⟨.off, ⟨"02:00", "06:00"⟩, 30⟩

def readEither (bytes : Bytes) : Option UpdatePolicy :=
  [nightly, manual].find? fun p => text prettyJson p = bytes

def fresh : Store := ⟨manual, ∅, ∅, 0, none, none⟩

theorem fresh_loaded : Loaded fresh :=
  ⟨rfl, fun _ => nofun, fun _ => nofun, fun _ => nofun⟩

/-- What a call does once it is in force. -/
def save (call : Nat) (p : UpdatePolicy) : List Action :=
  [.create call, .write call (text prettyJson p).length, .rename call]

/-- One call after the other. -/
def inTurn : List Action :=
  .replace 0 nightly :: save 0 nightly ++ .replace 1 manual :: save 1 manual

theorem saved_policy_effective_in_turn : ∃ s',
    Machine.exec (step prettyJson) fresh inTurn = some s' ∧
    s'.stateFile.bind readEither = some s'.current ∧
    ∀ baseline, loadBlocking readEither s'.stateFile baseline = s'.current := by
  obtain ⟨s', hrun, hsettled⟩ : ∃ s', Machine.exec (step prettyJson) fresh inTurn = some s' ∧
      Settled s' := Machine.exec_eval (by decide +kernel)
  refine ⟨s', hrun, saved_policy_effective fresh_loaded (fun call p hp _ => ?_) hrun
    (by decide +kernel) hsettled⟩
  have hcases : p = nightly ∨ p = manual := by
    simp only [inTurn, save, List.cons_append, List.nil_append, List.mem_cons, Action.replace.injEq,
      List.not_mem_nil, or_false, reduceCtorEq, false_or] at hp
    rcases hp with ⟨-, h⟩ | ⟨-, h⟩
    · exact .inl h
    · exact .inr h
  rcases hcases with rfl | rfl
  · decide +kernel
  · decide +kernel

/-- Both swap, and the one that swapped first saves last. -/
def crossed : List Action :=
  .replace 0 nightly :: .replace 1 manual :: save 1 manual ++ save 0 nightly

/-- All calls have returned and saved, and the file is not the policy in force. -/
theorem crossed_saves : Loaded fresh ∧
    ∃ s', Machine.exec (step prettyJson) fresh crossed = some s' ∧
      Settled s' ∧ s'.current = manual ∧ s'.stateFile.bind readEither = some nightly ∧
      loadBlocking readEither s'.stateFile manual = nightly :=
  ⟨fresh_loaded, Machine.exec_eval (by decide +kernel)⟩

end Gamer.Updater.Policy
