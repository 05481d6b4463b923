import Gamer.Lib.Window
import Gamer.RunManager.Cancel

/-! One device, one run; one run, one place. The device slots and the active entries are in
    bijection whenever nobody holds the slots, and a run that was accepted is in `runs` or in
    `history` at every moment until it is deleted or `HISTORY_CAP` later runs push it out. -/

namespace Gamer.RunManager
open Gamer.Lib

/-- INVARIANT of the device slots. The run being inserted has no slot yet, and its device none. -/
structure Slots (s : State) : Prop where
  mapped : ∀ d id, s.activeByDevice.get d = some id →
    ∃ e, s.runs.get id = some e ∧ e.record.deviceId = d
  slotted : ∀ id e, s.runs.get id = some e → s.activeByDevice.get e.record.deviceId = some id ∨
    ∃ c req h r, s.submits.get c = some (.inserted req h r) ∧ r.runId = id
  vacant : ∀ c req h, s.submits.get c = some (.admitted req h) ∨
    (∃ r, s.submits.get c = some (.inserted req h r)) → s.activeByDevice.get req.deviceId = none

/-- The devices of the active entries. -/
def State.deviceOf (s : State) (id : RunId) : Option DeviceId :=
  (s.runs.get id).map (·.record.deviceId)

namespace Slots
variable {s s' : State}

/-- FRAME: only the slots, the devices of the entries and the submissions with the lock matter. -/
theorem of_same (h : Slots s) (ha : s'.activeByDevice = s.activeByDevice)
    (hd : ∀ id, s'.deviceOf id = s.deviceOf id)
    (hs : ∀ c p, p.holds = true → (s'.submits.get c = some p ↔ s.submits.get c = some p)) :
    Slots s' where
  mapped := fun d id hslot => by
    rw [ha] at hslot
    obtain ⟨e, he, hdev⟩ := h.mapped d id hslot
    have hd' := hd id
    simp only [State.deviceOf, he, Option.map_some, Option.map_eq_some_iff] at hd'
    obtain ⟨e', he', hdev'⟩ := hd'
    exact ⟨e', he', hdev'.trans hdev⟩
  slotted := fun id e' he' => by
    have hd' := (hd id).symm
    simp only [State.deviceOf, he', Option.map_some, Option.map_eq_some_iff] at hd'
    obtain ⟨e, he, hdev⟩ := hd'
    rw [ha, ← hdev]
    refine (h.slotted id e he).imp_right ?_
    rintro ⟨c, req, h', r, hc, hr⟩
    exact ⟨c, req, h', r, (hs c _ rfl).mpr hc, hr⟩
  vacant := fun c req h' hc => by
    rw [ha]
    refine h.vacant c req h' ?_
    rcases hc with hc | ⟨r, hc⟩
    · exact Or.inl ((hs c _ rfl).mp hc)
    · exact Or.inr ⟨r, (hs c _ rfl).mp hc⟩

/-- A submission that does not have the lock moves. -/
theorem of_outside (h : Slots s) {c : Caller} {p : SubmitPhase} (hp : p.holds = false)
    (hc : ∀ q, s.submits.get c = some q → q.holds = false)
    (hs : s' = { s with submits := s.submits.set c p }) : Slots s' := by
  subst hs
  refine h.of_same rfl (fun _ => rfl) fun c' p' hp' => ?_
  show (s.submits.set c p).get c' = some p' ↔ _
  rw [Table.get_set]
  split
  · next heq =>
    subst heq
    constructor
    · intro hq; cases hq; rw [hp] at hp'; cases hp'
    · intro hq; rw [hc p' hq] at hp'; cases hp'
  · exact Iff.rfl

/-- The slot of a device that no run is being inserted on names the only run of the device. -/
theorem unique (h : Slots s) {id id' : RunId} {e e' : ActiveRun} (he : s.runs.get id = some e)
    (he' : s.runs.get id' = some e') (hinv : Inv s)
    (hdev : e.record.deviceId = e'.record.deviceId) : id = id' := by
  -- a run being inserted finds no slot on its device
  have hpending : ∀ {id id' : RunId} {e e' : ActiveRun}, s.runs.get id = some e →
      e.record.deviceId = e'.record.deviceId →
      s.activeByDevice.get e.record.deviceId = some id →
      (∃ c req h r, s.submits.get c = some (.inserted req h r) ∧ r.runId = id') →
      s.runs.get id' = some e' → False := by
    rintro id id' e e' he hdev hslot ⟨c, req, h', r, hc, rfl⟩ he'
    obtain ⟨_, e'', hr, hreq⟩ := hinv.inserting c req h' r hc
    rw [he'] at hr; cases hr
    have hnone := h.vacant c req h' (Or.inr ⟨r, hc⟩)
    rw [← hreq, ← hdev, hslot] at hnone
    cases hnone
  rcases h.slotted id e he with hslot | hins
  · rcases h.slotted id' e' he' with hslot' | hins'
    · rw [hdev, hslot'] at hslot
      exact (Option.some.inj hslot).symm
    · exact (hpending he hdev hslot hins' he').elim
  · rcases h.slotted id' e' he' with hslot' | hins'
    · exact (hpending he' hdev.symm hslot' hins he).elim
    · obtain ⟨c, req, h', r, hc, rfl⟩ := hins
      obtain ⟨c', req', h'', r', hc', rfl⟩ := hins'
      obtain rfl := hinv.locked.unique hc rfl c' _ hc' rfl
      rw [hc] at hc'; cases hc'
      rfl

end Slots

/-- What a run task does to the entries keeps their devices. -/
theorem TaskEffect.slots {s s' : State} {id : RunId} {t : Task} {now : Time}
    (h : TaskEffect s id t now s') (hslots : Slots s) (hinv : Inv s) : Slots s' := by
  cases h with
  | markRunning h =>
    refine hslots.of_same rfl (fun id' => ?_) fun _ _ _ => Iff.rfl
    show ((s.runs.modify id _).get id').map _ = _
    rw [Table.get_modify]
    split
    · next heq => subst heq; cases he : s.runs.get id' <;> simp [State.deviceOf, he, ActiveRun.mark]
    · rfl
  | settle o h =>
    obtain ⟨runs, hs, hother⟩ := s.markTerminalChecked_frame id o.outcomeClass o.error now
    refine hslots.of_same (by rw [hs]; rfl) (fun id' => ?_) fun _ _ _ => by rw [hs]; exact Iff.rfl
    by_cases hid : id' = id
    · subst hid
      show ((s.markTerminalChecked id' o.outcomeClass o.error now).1.runs.get id').map _ = _
      unfold State.markTerminalChecked
      cases he : s.runs.get id' with
      | none => simp [State.deviceOf, he]
      | some e => dsimp only; split <;> simp [State.deviceOf, he, ActiveRun.settle]
    · rw [hs]
      exact congrArg _ (hother id' hid)
  | archive e h hd he =>
    have hdev : (e.close now).deviceId = e.record.deviceId := by
      unfold ActiveRun.close
      split <;> rfl
    have hkey := hinv.keyed he
    -- nobody holds the slots, so the run has its own
    have hslot : s.activeByDevice.get e.record.deviceId = some id := by
      rcases hslots.slotted id e he with hslot | ⟨c, req, h', r, hc, _⟩
      · exact hslot
      · rw [hinv.locked.holder c _ hc rfl] at hd; cases hd
    have hholds : ∀ c p, s.submits.get c = some p → p.holds = false := by
      intro c p hc
      cases hp : p.holds with
      | false => rfl
      | true => rw [hinv.locked.holder c p hc hp] at hd; cases hd
    have hslots' : ∀ d, Table.get (if s.activeByDevice.get (e.close now).deviceId = some id then
        s.activeByDevice.del (e.close now).deviceId else s.activeByDevice) d =
        if d = e.record.deviceId then none else s.activeByDevice.get d := by
      intro d
      rw [hdev, if_pos hslot, Table.get_del]
    have hruns : ∀ id', (s.runs.del id).get id' = if id' = id then none else s.runs.get id' :=
      fun id' => Table.get_del _ _ _
    refine ⟨fun d id' hd' => ?_, fun id' e' he' => ?_, fun c req h' hc => ?_⟩
    · have hd'' := (hslots' d).symm.trans hd'
      split at hd''
      · cases hd''
      · next hne =>
        obtain ⟨e', he', hdev'⟩ := hslots.mapped d id' hd''
        have hid : id' ≠ id := by
          rintro rfl
          rw [he] at he'; cases he'
          exact hne hdev'.symm
        exact ⟨e', (hruns id').trans (by rw [if_neg hid]; exact he'), hdev'⟩
    · have he'' := (hruns id').symm.trans he'
      split at he''
      · cases he''
      · next hid =>
        have hne : e'.record.deviceId ≠ e.record.deviceId := fun heq =>
          hid (hslots.unique he'' he hinv heq)
        rcases hslots.slotted id' e' he'' with hslot' | hins
        · exact Or.inl ((hslots' _).trans (by rw [if_neg hne]; exact hslot'))
        · exact Or.inr hins
    · rcases hc with hc | ⟨r, hc⟩ <;> cases hholds c _ hc
  | _ => exact hslots.of_same rfl (fun _ => rfl) fun _ _ _ => Iff.rfl

theorem State.cancel_slots {s : State} (hslots : Slots s) (id : RunId) : Slots (s.cancel id).1 := by
  rcases s.cancel_cases id with ⟨hs, _⟩ | ⟨_, e, he, hn, hs⟩ <;> rw [hs]
  · exact hslots
  · refine hslots.of_same rfl (fun id' => ?_) fun _ _ _ => Iff.rfl
    show ((s.runs.set id _).get id').map _ = _
    rw [Table.get_set]
    split
    · next heq => subst heq; simp [State.deviceOf, he, ActiveRun.requestCancel]
    · rfl

theorem Effect.slots {s s' : State} {a : Action} (h : Effect s a s') (hslots : Slots s)
    (hinv : Inv s) : Slots s' := by
  cases h with
  | refuseNow c req h hc hd =>
    exact hslots.of_outside (p := .answered _) rfl (fun q hq => by rw [hc] at hq; cases hq) rfl
  | pass c req h hc hd =>
    exact hslots.of_outside (p := .passed req h) rfl (fun q hq => by rw [hc] at hq; cases hq) rfl
  | refuse c req h e hl hc =>
    exact hslots.of_outside (p := .answered _) rfl (fun q hq => by rw [hc] at hq; cases hq; rfl) rfl
  | admits c req h slots hl hc hghost hslots' =>
    -- no slot of a reachable state is without its entry
    have hnone : s.activeByDevice.get req.deviceId = none := by
      cases hslot : s.activeByDevice.get req.deviceId with
      | none => rfl
      | some id =>
        obtain ⟨e, he, _⟩ := hslots.mapped _ id hslot
        rw [hghost id hslot] at he; cases he
    have hsame : ∀ d, slots.get d = s.activeByDevice.get d := by
      intro d
      rw [hslots' d]
      split
      · next heq => rw [heq, hnone]
      · rfl
    have hfree : ∀ c' p, s.submits.get c' = some p → p.holds = false := by
      intro c' p hp
      cases hh : p.holds with
      | false => rfl
      | true => rw [hinv.locked.holder c' p hp hh] at hl; cases hl
    refine ⟨fun d id hd => hslots.mapped d id ((hsame d).symm.trans hd), fun id e he => ?_,
      fun c' req' h' hc' => ?_⟩
    · rcases hslots.slotted id e he with hslot | ⟨c', req', h', r, hc', _⟩
      · exact Or.inl ((hsame _).trans hslot)
      · cases hfree c' _ hc'
    · refine (hsame _).trans ?_
      by_cases heq : c' = c
      · subst heq
        rcases hc' with hc' | ⟨r, hc'⟩ <;> rw [Table.get_set_self] at hc' <;> cases hc'
        exact hnone
      · rcases hc' with hc' | ⟨r, hc'⟩ <;> rw [Table.get_set_ne heq] at hc' <;>
          cases hfree c' _ hc'
  | insertRun c req h id now hc hid =>
    have hnone : s.runs.get id = none := congrArg Life.entry (hinv.fresh id hid)
    have hvacant := hslots.vacant c req h (Or.inl hc)
    have honly : ∀ c' p, s.submits.get c' = some p → p.holds = true → c' = c :=
      hinv.locked.unique hc rfl
    refine ⟨fun d id' hd => ?_, fun id' e he => ?_, fun c' req' h' hc' => ?_⟩
    · obtain ⟨e, he, hdev⟩ := hslots.mapped d id' hd
      have hne : id' ≠ id := by rintro rfl; rw [hnone] at he; cases he
      exact ⟨e, (Table.get_set_ne hne _ _).trans he, hdev⟩
    · rw [Table.get_set] at he
      split at he
      · next heq => exact Or.inr ⟨c, req, h, _, Table.get_set_self _ _ _, heq.symm⟩
      · rcases hslots.slotted id' e he with hslot | ⟨c', req', h', r, hc', _⟩
        · exact Or.inl hslot
        · obtain rfl := honly c' _ hc' rfl
          rw [hc] at hc'; cases hc'
    · have heq : c' = c := by
        by_contra hne
        rcases hc' with hc' | ⟨r, hc'⟩ <;> rw [Table.get_set_ne hne] at hc' <;>
          exact hne (honly c' _ hc' rfl)
      subst heq
      rcases hc' with hc' | ⟨r, hc'⟩ <;> rw [Table.get_set_self] at hc' <;> cases hc'
      exact hvacant
  | insertSlot c req h r hc =>
    have hvacant := hslots.vacant c req h (Or.inr ⟨r, hc⟩)
    obtain ⟨_, e, he, hdev⟩ := hinv.inserting c req h r hc
    have honly : ∀ c' p, s.submits.get c' = some p → p.holds = true → c' = c :=
      hinv.locked.unique hc rfl
    refine ⟨fun d id' hd => ?_, fun id' e' he' => ?_, fun c' req' h' hc' => ?_⟩
    · rw [Table.get_set] at hd
      split at hd
      · next heq => cases hd; exact ⟨e, he, hdev.trans heq.symm⟩
      · exact hslots.mapped d id' hd
    · left
      show (s.activeByDevice.set _ _).get _ = _
      rw [Table.get_set]
      rcases hslots.slotted id' e' he' with hslot | ⟨c', req', h', r', hc', hr'⟩
      · have hne : e'.record.deviceId ≠ req.deviceId := by
          intro heq
          rw [heq, hvacant] at hslot; cases hslot
        rw [if_neg hne]
        exact hslot
      · obtain rfl := honly c' _ hc' rfl
        rw [hc] at hc'; cases hc'
        subst hr'
        have he'' : s.runs.get r.runId = some e' := he'
        rw [he] at he''; cases he''
        rw [if_pos hdev]
    · by_cases heq : c' = c
      · subst heq
        rcases hc' with hc' | ⟨r', hc'⟩ <;> rw [Table.get_set_self] at hc' <;> cases hc'
      · rcases hc' with hc' | ⟨r', hc'⟩ <;> rw [Table.get_set_ne heq] at hc' <;>
          exact absurd (honly c' _ hc' rfl) heq
  | task id t input now s' ht h => exact h.slots hslots hinv
  | cancel id => exact s.cancel_slots hslots id
  | force c id ids hc =>
    exact (State.cancel_slots hslots id).of_same rfl (fun _ => rfl) fun _ _ _ => Iff.rfl
  | _ => exact hslots.of_same rfl (fun _ => rfl) fun _ _ _ => Iff.rfl

theorem Reachable.slots {s : State} (h : Reachable s) : Slots s := by
  have hboth : Inv s ∧ Slots s := by
    refine Machine.Reaches.invariant (I := fun s => Inv s ∧ Slots s) h ?_
      ⟨Inv.init, ⟨fun d id hd => (by cases hd), fun id e he => (by cases he),
        fun c req h' hc => (by rcases hc with hc | ⟨r, hc⟩ <;> cases hc)⟩⟩
    rintro s a s' ⟨hinv, hslots⟩ hs
    exact ⟨hinv.step hs, (step_effect hs).slots hslots hinv⟩
  exact hboth.2

/-! ### The archive -/

/-- The record was not deleted by hand. -/
def State.undeleted (s : State) (r : RunRecord) : Bool := !s.deleted.contains r.runId

/-- INVARIANT of `history`: the live records among the last `HISTORY_CAP` archived are in it. -/
structure Archive (s : State) : Prop where
  window : Window historyCap s.undeleted s.archived s.history
  deleted : ∀ id ∈ s.deleted, ∃ r ∈ s.archived, r.runId = id

/-- What an action does to the archive: nothing, one record more, or some deleted. -/
theorem Effect.archive_cases {s s' : State} {a : Action} (h : Effect s a s') (hinv : Inv s) :
    (s'.archived = s.archived ∧ s'.history = s.history ∧ s'.deleted = s.deleted) ∨
    (∃ r, (∀ r' ∈ s.archived, r'.runId ≠ r.runId) ∧ s'.archived = s.archived ++ [r] ∧
      s'.history = pushHistory s.history r ∧ s'.deleted = s.deleted) ∨
    (∃ ids : List RunId, s'.archived = s.archived ∧
      s'.history = (s.history.filter fun r => !ids.contains r.runId) ∧
      s'.deleted = s.deleted ++ (s.history.map (·.runId)).filter ids.contains) := by
  cases h with
  | task id t input now s' ht h =>
    cases h with
    | archive e h hd he =>
      refine Or.inr (Or.inl ⟨e.close now, fun r hr hid => ?_, rfl, rfl, rfl⟩)
      -- a run is archived once
      obtain ⟨ha, _⟩ := (hinv.sound id).at_phase ht h
      have hmem : r ∈ (s.life id).archived := by
        refine List.mem_filter.mpr ⟨hr, ?_⟩
        rw [hid, e.close_runId, hinv.keyed he]
        simp
      rw [ha] at hmem; cases hmem
    | settle o h =>
      obtain ⟨runs, hs, _⟩ := s.markTerminalChecked_frame id o.outcomeClass o.error now
      left
      rw [hs]
      exact ⟨rfl, rfl, rfl⟩
    | _ => exact Or.inl ⟨rfl, rfl, rfl⟩
  | cancel id =>
    left
    rcases s.cancel_cases id with ⟨hs, _⟩ | ⟨_, e, he, hn, hs⟩ <;> rw [hs] <;> exact ⟨rfl, rfl, rfl⟩
  | force c id ids hc =>
    left
    rcases s.cancel_cases id with ⟨hs, _⟩ | ⟨_, e, he, hn, hs⟩ <;> rw [hs] <;> exact ⟨rfl, rfl, rfl⟩
  | delete ids retained dbOk => exact Or.inr (Or.inr ⟨ids, rfl, rfl, rfl⟩)
  | _ => exact Or.inl ⟨rfl, rfl, rfl⟩

theorem Effect.archived_grows {s s' : State} {a : Action} (h : Effect s a s') (hinv : Inv s) :
    s.archived <+: s'.archived := by
  rcases h.archive_cases hinv with ⟨ha, _⟩ | ⟨r, _, ha, _⟩ | ⟨ids, ha, _⟩ <;> rw [ha]
  exact List.prefix_append _ _

theorem Effect.archive {s s' : State} {a : Action} (h : Effect s a s') (harch : Archive s)
    (hinv : Inv s) : Archive s' := by
  rcases h.archive_cases hinv with ⟨ha, hh, hd⟩ | ⟨r, hnew, ha, hh, hd⟩ | ⟨ids, ha, hh, hd⟩
  · have hu : s'.undeleted = s.undeleted := by funext r; simp [State.undeleted, hd]
    exact ⟨by rw [hu, ha, hh]; exact harch.window, by rw [ha, hd]; exact harch.deleted⟩
  · have hu : s'.undeleted = s.undeleted := by funext r; simp [State.undeleted, hd]
    have hlive : s.undeleted r = true := by
      simp only [State.undeleted, Bool.not_eq_true', List.contains_eq_mem, decide_eq_false_iff_not]
      intro hmem
      obtain ⟨r', hr', hid⟩ := harch.deleted _ hmem
      exact hnew r' hr' hid
    refine ⟨?_, fun id hid => ?_⟩
    · rw [hu, ha, hh]
      exact harch.window.concat (by decide) hlive
    · rw [hd] at hid
      obtain ⟨r', hr', hkey⟩ := harch.deleted id hid
      exact ⟨r', by rw [ha]; exact List.mem_append_left _ hr', hkey⟩
  · -- only ids that `history` holds are deleted
    have hids : ∀ id, id ∈ (s.history.map (·.runId)).filter ids.contains ↔
        (∃ r ∈ s.history, r.runId = id) ∧ id ∈ ids := by
      intro id
      simp [List.mem_filter, List.mem_map]
    refine ⟨?_, fun id hid => ?_⟩
    · have hsame : (s.history.filter fun r => !ids.contains r.runId) = s.history.filter fun r =>
          !((s.history.map (·.runId)).filter ids.contains).contains r.runId := by
        refine List.filter_congr fun r hr => ?_
        have hiff : r.runId ∈ (s.history.map (·.runId)).filter ids.contains ↔ r.runId ∈ ids := by
          rw [hids]
          exact ⟨fun h => h.2, fun h => ⟨⟨r, hr, rfl⟩, h⟩⟩
        simp only [List.contains_eq_mem, hiff]
      rw [ha, hh, hsame]
      refine harch.window.remove _ fun r _ => ?_
      simp [State.undeleted, hd]
    · rw [hd] at hid
      rcases List.mem_append.mp hid with hid | hid
      · obtain ⟨r, hr, hkey⟩ := harch.deleted id hid
        exact ⟨r, by rw [ha]; exact hr, hkey⟩
      · obtain ⟨⟨r, hr, hkey⟩, _⟩ := (hids id).mp hid
        exact ⟨r, by rw [ha]; exact (harch.window.mem_log hr).1, hkey⟩

theorem Reachable.archive {s : State} (h : Reachable s) : Archive s := by
  have hboth : Inv s ∧ Archive s := by
    refine Machine.Reaches.invariant (I := fun s => Inv s ∧ Archive s) h ?_
      ⟨Inv.init, ⟨Window.nil, fun id hid => by cases hid⟩⟩
    rintro s a s' ⟨hinv, harch⟩ hs
    exact ⟨hinv.step hs, (step_effect hs).archive harch hinv⟩
  exact hboth.2

/-! ### One run, one place -/

/-- The runs archived after run `id`. -/
def State.finalizedAfter (s : State) (id : RunId) : Nat :=
  (s.archived.dropWhile fun r => decide (r.runId ≠ id)).tail.length

/-- The run was deleted by hand, or `HISTORY_CAP` later runs have pushed it out. -/
def State.Forgotten (s : State) (id : RunId) : Prop :=
  id ∈ s.deleted ∨ historyCap ≤ s.finalizedAfter id

theorem Effect.accepted_subset {s s' : State} {a : Action} (h : Effect s a s') (hinv : Inv s)
    (hsub : s.accepted ⊆ s.inserted) : s'.accepted ⊆ s'.inserted := by
  have hmono := @Effect.inserted_mono s s' a h
  cases h with
  | insertSlot c req h r hc =>
    intro id hid
    rcases List.mem_append.mp hid with hid | hid
    · exact hsub hid
    · obtain rfl := List.mem_singleton.mp hid
      obtain ⟨_, e, he, _⟩ := hinv.inserting c req h r hc
      exact hinv.mem_inserted (Or.inl (by simp [he]))
  | task id t input now s' ht h =>
    intro id' hid'
    rw [h.frame.accepted] at hid'
    exact hmono (hsub hid')
  | cancel id =>
    intro id' hid'
    rcases s.cancel_cases id with ⟨hs, _⟩ | ⟨_, e, he, hn, hs⟩ <;> rw [hs] at hid' ⊢ <;> exact hsub hid'
  | force c id ids hc =>
    intro id' hid'
    rcases s.cancel_cases id with ⟨hs, _⟩ | ⟨_, e, he, hn, hs⟩ <;> rw [hs] at hid' ⊢ <;> exact hsub hid'
  | insertRun c req h id now hc hid => exact fun id' hid' => hmono (hsub hid')
  | _ => exact hsub

theorem Reachable.accepted_subset {s : State} (h : Reachable s) : s.accepted ⊆ s.inserted := by
  have hboth : Inv s ∧ s.accepted ⊆ s.inserted := by
    refine Machine.Reaches.invariant (I := fun s => Inv s ∧ s.accepted ⊆ s.inserted) h ?_
      ⟨Inv.init, List.nil_subset _⟩
    rintro s a s' ⟨hinv, hsub⟩ hs
    exact ⟨hinv.step hs, (step_effect hs).accepted_subset hinv hsub⟩
  exact hboth.2

/-- An inserted run is active and not archived, or archived once and not active. -/
theorem Reachable.placed {s : State} (h : Reachable s) {id : RunId} (hid : id ∈ s.inserted) :
    ((∃ e, s.runs.get id = some e) ∧ (s.archived.filter fun r => r.runId = id) = []) ∨
    (s.runs.get id = none ∧ ∃ r, (s.archived.filter fun r => r.runId = id) = [r]) := by
  have hsound := h.inv.sound id
  cases ht : s.tasks.get id with
  | none =>
    refine Or.inl ⟨?_, (hsound.waiting ht).1.1⟩
    rcases h.owned id hid with hne | ⟨c, req, h', r, hc, rfl⟩
    · exact absurd ht hne
    · obtain ⟨_, e, he, _⟩ := h.inv.inserting c req h' r hc
      exact ⟨e, he⟩
  | some t =>
    have hat := hsound.stage t ht
    cases hp : t.phase with
    | hooking o =>
      rw [hp] at hat
      obtain ⟨hsilent, _, e, he, _⟩ := hat
      exact Or.inl ⟨⟨e, he⟩, hsilent.1⟩
    | dropping =>
      rw [hp] at hat
      obtain ⟨ha, _, e, he, _⟩ := hat
      exact Or.inl ⟨⟨e, he⟩, ha⟩
    | observing r => rw [hp] at hat; exact Or.inr ⟨hat.1, r, hat.2.1⟩
    | dropHook r => rw [hp] at hat; exact Or.inr ⟨hat.1, r, hat.2.1⟩
    | done =>
      rw [hp] at hat
      obtain ⟨he, r, ha, _⟩ := hat
      exact Or.inr ⟨he, r, ha⟩
    | _ =>
      rw [hp] at hat
      obtain ⟨e, he, _⟩ := hat.entry
      exact Or.inl ⟨⟨e, he⟩, hat.silent.1⟩

/-- An archived run is in `history` unless it is forgotten. -/
theorem Reachable.mem_history {s : State} (h : Reachable s) {id : RunId} {r : RunRecord}
    (ha : (s.archived.filter fun r => r.runId = id) = [r]) : r ∈ s.history ∨ s.Forgotten id := by
  obtain ⟨before, after, hlog, hbefore, hkey, _⟩ := List.filter_eq_cons_iff.mp ha
  have hkey' : r.runId = id := by simpa using hkey
  have hafter : s.finalizedAfter id = after.length := by
    have hdrop : (before ++ r :: after).dropWhile (fun r => decide (r.runId ≠ id)) = r :: after := by
      rw [List.dropWhile_append_of_pos (by simpa using hbefore)]
      simp [hkey']
    unfold State.finalizedAfter
    rw [hlog, hdrop]
    rfl
  by_cases hdel : id ∈ s.deleted
  · exact Or.inr (Or.inl hdel)
  by_cases hcap : after.length < historyCap
  · refine Or.inl (h.archive.window.mem_of_recent hlog hcap ?_)
    simpa [State.undeleted, hkey'] using hdel
  · exact Or.inr (Or.inr (by rw [hafter]; omega))

/-- ONE PLACE: an accepted run is in exactly one of `runs` and `history`, or forgotten. -/
theorem Reachable.one_place {s : State} (h : Reachable s) {id : RunId} (hid : id ∈ s.inserted) :
    ((∃ e, s.runs.get id = some e) ∧ ∀ r ∈ s.history, r.runId ≠ id) ∨
    (s.runs.get id = none ∧ ((∃ r ∈ s.history, r.runId = id) ∨ s.Forgotten id)) := by
  rcases h.placed hid with ⟨hactive, hnil⟩ | ⟨hnone, r, ha⟩
  · refine Or.inl ⟨hactive, fun r hr hkey => ?_⟩
    have hmem : r ∈ s.archived.filter fun r => r.runId = id :=
      List.mem_filter.mpr ⟨h.history_subset hr, by simpa using hkey⟩
    rw [hnil] at hmem; cases hmem
  · have hmem : r ∈ s.archived.filter fun r => r.runId = id := by rw [ha]; simp
    have hkey : r.runId = id := by simpa using (List.mem_filter.mp hmem).2
    exact Or.inr ⟨hnone, (h.mem_history ha).imp_left fun hr => ⟨r, hr, hkey⟩⟩

/-- NO GAP: a run that leaves `runs` between the two looks of `get_run` is found at the second. -/
theorem Reachable.no_gap {s s' : State} (h : Reachable s) (hrun : Machine.Reaches State.step s s')
    {id : RunId} (hid : id ∈ s.inserted) (hnone : State.getRun s s' id = none) :
    s'.Forgotten id := by
  have h' : Reachable s' := Machine.Reaches.trans h hrun
  have hgone : s.runs.get id = none := by
    cases he : s.runs.get id with
    | none => rfl
    | some e => simp [State.getRun, he] at hnone
  obtain ⟨r, ha⟩ : ∃ r, (s.archived.filter fun r => r.runId = id) = [r] := by
    rcases h.placed hid with ⟨⟨e, he⟩, _⟩ | ⟨_, hr⟩
    · rw [hgone] at he; cases he
    · exact hr
  -- what was archived stays archived
  have hboth : Inv s' ∧ id ∈ s'.inserted ∧ s.archived <+: s'.archived := by
    refine Machine.Reaches.invariant
      (I := fun m => Inv m ∧ id ∈ m.inserted ∧ s.archived <+: m.archived) hrun ?_
      ⟨h.inv, hid, List.prefix_rfl⟩
    rintro m a m' ⟨hinv, hin, hpre⟩ hs
    exact ⟨hinv.step hs, (step_effect hs).inserted_mono hin,
      hpre.trans ((step_effect hs).archived_grows hinv)⟩
  obtain ⟨_, hid', hpre⟩ := hboth
  have hmem : r ∈ s'.archived.filter fun r => r.runId = id :=
    (hpre.filter _).subset (by rw [ha]; simp)
  rcases h'.placed hid' with ⟨_, hnil⟩ | ⟨_, r', ha'⟩
  · rw [hnil] at hmem; cases hmem
  · rcases h'.mem_history ha' with hr' | hforgotten
    · -- the second look would have found it
      have hkey' : r'.runId = id := by
        have hmem' : r' ∈ s'.archived.filter fun r => r.runId = id := by rw [ha']; simp
        simpa using (List.mem_filter.mp hmem').2
      simp only [State.getRun, hgone, List.find?_eq_none] at hnone
      exact absurd (by simpa using hkey') (hnone r' hr')
    · exact hforgotten

/-- REGISTRY: slots and active entries are in bijection whenever nobody holds the slots, no device
    ever has two active runs, and an accepted run is in exactly one of `runs` and `history`, where
    `get_run` finds it, until it is forgotten. -/
theorem registry_is_consistent {s : State} (h : Reachable s) :
    (s.devLock = none → ∀ d id, s.activeByDevice.get d = some id ↔
      ∃ e, s.runs.get id = some e ∧ e.record.runId = id ∧ e.record.deviceId = d) ∧
    (∀ id id' e e', s.runs.get id = some e → s.runs.get id' = some e' →
      e.record.deviceId = e'.record.deviceId → id = id') ∧
    (∀ id ∈ s.accepted,
      ((∃ e, s.runs.get id = some e) ∧ ∀ r ∈ s.history, r.runId ≠ id) ∨
      (s.runs.get id = none ∧ ((∃ r ∈ s.history, r.runId = id) ∨ s.Forgotten id))) ∧
    ∀ s', Machine.Reaches State.step s s' → ∀ id ∈ s.accepted, State.getRun s s' id = none →
      s'.Forgotten id := by
  refine ⟨fun hl d id => ⟨fun hslot => ?_, ?_⟩, fun id id' e e' he he' hdev =>
    h.slots.unique he he' h.inv hdev, fun id hid => h.one_place (h.accepted_subset hid),
    fun s' hrun id hid hnone => h.no_gap hrun (h.accepted_subset hid) hnone⟩
  · obtain ⟨e, he, hdev⟩ := h.slots.mapped d id hslot
    exact ⟨e, he, h.inv.keyed he, hdev⟩
  · rintro ⟨e, he, _, rfl⟩
    rcases h.slots.slotted id e he with hslot | ⟨c, req, h', r, hc, _⟩
    · exact hslot
    · rw [h.inv.locked.holder c _ hc rfl] at hl; cases hl

/-- Right after a submission was accepted. -/
theorem registry_is_consistent_accepted :
    ∃ s, Machine.exec State.step init (acceptRun "r1") = some s ∧ "r1" ∈ s.accepted ∧
      (∀ d id, s.activeByDevice.get d = some id ↔
        ∃ e, s.runs.get id = some e ∧ e.record.runId = id ∧ e.record.deviceId = d) ∧
      ∀ r ∈ s.history, r.runId ≠ "r1" := by
  obtain ⟨s, hs, hid, hl, hactive⟩ : ∃ s, Machine.exec State.step init (acceptRun "r1") = some s ∧
      "r1" ∈ s.accepted ∧ s.devLock = none ∧ (s.runs.get "r1").isSome = true :=
    Machine.exec_eval (by decide)
  obtain ⟨hbij, _, hplace, _⟩ := registry_is_consistent ⟨_, hs⟩
  refine ⟨s, hs, hid, hbij hl, ?_⟩
  rcases hplace "r1" hid with ⟨_, hnot⟩ | ⟨hnone, _⟩
  · exact hnot
  · rw [hnone] at hactive; cases hactive

end Gamer.RunManager
