import Gamer.Storage.Survives

/-! The three places that look at a database's version: the open of the server, the report of the
    maintenance command, and its migration.

        version     open       migrate     inspect
        < 0         refuses    refuses     needs migration
        0           refuses    refuses     unversioned
        1 .. 7      migrates   migrates    needs migration
        8           opens      validates   ok
        > 8         refuses    refuses     too new                                            -/

namespace Gamer.Storage
open Gamer.Lib

/-- Some database of this version is opened. -/
def Accepts (version : Int) : Prop :=
  ∃ content tape, (openConnection tape (some ⟨version, content⟩)).succeeded = true

def MigrateAccepts (version : Int) : Prop :=
  ∃ content tape report dir rest,
    migrate tape (some ⟨version, content⟩) = .done report dir rest ∧ report.success = true

/-- The three agree on the version. -/
def Agrees (version : Int) : Prop :=
  ∀ content, ((inspect (some ⟨version, content⟩)).status ∈ [Status.ok, .needsMigration] ↔
      Accepts version) ∧
    ((inspect (some ⟨version, content⟩)).status ∈ [Status.ok, .needsMigration] ↔
      MigrateAccepts version) ∧
    ((inspect (some ⟨version, content⟩)).status ∈ [Status.unversioned, .tooNew] ↔
      ¬ Accepts version ∧ ¬ MigrateAccepts version)

/-! ### Versions that are accepted -/

/-- There is a database of the first version, without rows. -/
theorem wellFormed_one : ∃ c, WellFormed 1 c := by
  have hnone : HasColumns ∅ fun _ => none := fun _ => rfl
  have hnoIndex : HasIndexes ∅ fun _ => none := fun _ => rfl
  let tables : Table String SqlTable := ((((∅ : Table String SqlTable).set
    "devices" ⟨devicesColumnsV1, []⟩).set "tasks" ⟨tasksColumns, []⟩).set
    "logs" ⟨logsColumns, []⟩).set "scheduled_runs" ⟨scheduledRunsColumns, []⟩
  refine ⟨⟨tables, _⟩, (((hnone.set _ _).set _ _).set _ _).set _ _,
    ((hnoIndex.set _ _).set _ _).set _ _, fun t ht row hrow => ?_⟩
  simp [tables, Table.get_set] at ht
  subst ht
  simp at hrow

theorem wellFormed_exists : ∀ v : Nat, 1 ≤ v → v ≤ 8 → ∃ c, WellFormed v c := by
  intro v
  induction v with
  | zero => exact fun hpos => absurd hpos (by decide)
  | succ v ih =>
    intro _ hv
    by_cases hzero : v = 0
    · subst hzero
      exact wellFormed_one
    · obtain ⟨c, hwell⟩ := ih (by omega) (by omega)
      obtain ⟨c', _, hwell'⟩ := body_ok (by omega) (by omega) hwell
      exact ⟨c', hwell'⟩

theorem clear_replicate (n : Nat) : Clear n (List.replicate n .ok) :=
  ⟨fun _ ha => List.eq_of_mem_replicate ha, by simp⟩

theorem accepts_of_range {v : Nat} (hpos : 1 ≤ v) (hv : v ≤ 8) : Accepts v := by
  obtain ⟨c, hwell⟩ := wellFormed_exists v hpos hv
  obtain ⟨final, hfinal, _⟩ := upgrade_ok hpos hv hwell
  have hclimbing : Climbing final (some ⟨v, c⟩) := ⟨v, c, rfl, hpos, hv, hwell, hfinal⟩
  obtain ⟨content, rest, hrun, _⟩ := hclimbing.reopens _ (clear_replicate 24)
  exact ⟨c, List.replicate 24 .ok, by rw [hrun]; rfl⟩

theorem classify_accepted_iff (version : Int) :
    classify version maxReadSchema targetSchema ∈ [Status.ok, .needsMigration] ↔
      version ≤ 8 ∧ version ≠ 0 := by
  unfold classify
  split_ifs with hzero hnew hold
  · simp [hzero]
  · exact iff_of_false (by simp) fun h => absurd h.1 (Int.not_le.mpr hnew)
  · exact iff_of_true (by simp) ⟨Int.not_lt.mp hnew, hzero⟩
  · exact iff_of_true (by simp) ⟨Int.not_lt.mp hnew, hzero⟩

theorem classify_refused_iff (version : Int) :
    classify version maxReadSchema targetSchema ∈ [Status.unversioned, .tooNew] ↔
      version = 0 ∨ 8 < version := by
  unfold classify
  split_ifs with hzero hnew hold
  · simp [hzero]
  · exact iff_of_true (by simp) (.inr hnew)
  · exact iff_of_false (by simp) fun h => h.elim hzero hnew
  · exact iff_of_false (by simp) fun h => h.elim hzero hnew

theorem migrateAccepts_of_range {v : Nat} (hpos : 1 ≤ v) (hv : v ≤ 8) : MigrateAccepts v := by
  obtain ⟨c, hwell⟩ := wellFormed_exists v hpos hv
  obtain ⟨final, hfinal, _⟩ := upgrade_ok hpos hv hwell
  have hclear : Clear (8 - v) (List.replicate (8 - v) Answer.ok) := clear_replicate _
  obtain ⟨c', tape, hclimb, hclear', hwell', _⟩ := migrateLevels_run final (8 - v) v 1 c
    (List.replicate (1 + (8 - v)) .ok) hpos (by omega) hwell hfinal (clear_replicate _)
  rw [Nat.add_sub_cancel' hv] at hclimb hwell'
  obtain ⟨rest, hvalidate⟩ := validateSchema_run (n := 0) hwell' hclear'
  have hrun : (runMigrations migrations v).andThen (fun _ => validateSchema)
      (List.replicate (1 + (8 - v)) .ok) (some ⟨v, c⟩) = .done (.ok ()) (some ⟨8, c'⟩) rest := by
    rw [runMigrations_of_version hpos hv, Prog.andThen_of_ok hclimb]
    exact hvalidate
  have hfrom : ∃ report, migrateFrom v (List.replicate (1 + (8 - v)) .ok) (some ⟨v, c⟩) =
      .done report (some ⟨8, c'⟩) rest ∧ report.success = true := by
    have hclass := (classify_refused_iff v).not.mpr (by omega)
    simp only [List.mem_cons, List.not_mem_nil, or_false, not_or] at hclass
    simp only [migrateFrom, hclass, if_false]
    rw [Prog.orFail_of_ok hrun]
    exact ⟨_, rfl, rfl⟩
  obtain ⟨report, hreport, hsuccess⟩ := hfrom
  exact ⟨c, .ok :: .ok :: List.replicate (1 + (8 - v)) .ok, report, _, rest, hreport, hsuccess⟩

/-! ### Versions that are refused -/

theorem Refused.not_accepts {version : Int} (h : Refused version) : ¬ Accepts version := by
  rintro ⟨content, tape, hrun⟩
  obtain ⟨_, hfalse⟩ := (openConnection_refused h).succeeded ⟨content, rfl⟩ hrun
  exact hfalse

theorem migrateFrom_refused {version v : Int} (h : Refused v) : Prog.Triple (HasVersion version)
    (migrateFrom v) (fun report _ => report.success = false) (HasVersion version) := by
  obtain ⟨e, he⟩ := runMigrations_refused h
  unfold migrateFrom
  dsimp only
  split_ifs
  · exact .pure fun _ _ => rfl
  · exact .pure fun _ _ => rfl
  · rw [he]
    exact fun tape dir _ => rfl

/-- A version that cannot be read counts as 0, which is refused as well. -/
theorem migrate_refused {version : Int} (h : Refused version) : Prog.Triple (HasVersion version)
    migrate (fun report _ => report.success = false) (HasVersion version) := by
  have hexists : Prog.Triple (HasVersion version) pathExists
      (fun found dir => HasVersion version dir ∧ found = true) (HasVersion version) := by
    refine .effect (fun _ h => h) fun _ dir hdir => ⟨hdir, ?_⟩
    obtain ⟨c, rfl⟩ := hdir
    rfl
  refine hexists.bind fun found => .fact fun hfound => ?_
  subst hfound
  refine (readVersion version).orFail (fun _ => migrateFrom_refused refused_zero) fun v =>
    .fact fun hv => ?_
  subst hv
  exact migrateFrom_refused h

theorem Refused.not_migrateAccepts {version : Int} (h : Refused version) :
    ¬ MigrateAccepts version := by
  rintro ⟨content, tape, report, dir, rest, hrun, hsuccess⟩
  have hend := migrate_refused h tape _ ⟨content, rfl⟩
  rw [hrun] at hend
  exact Bool.false_ne_true (hend.symm.trans hsuccess)

theorem accepts_iff (version : Int) : Accepts version ↔ ¬ Refused version := by
  constructor
  · exact fun haccepts h => h.not_accepts haccepts
  · intro h
    obtain ⟨v, rfl⟩ := Int.eq_ofNat_of_zero_le (a := version) (by simp only [Refused] at h; omega)
    simp only [Refused, not_or] at h
    exact accepts_of_range (by omega) (by omega)

theorem migrateAccepts_iff (version : Int) : MigrateAccepts version ↔ ¬ Refused version := by
  constructor
  · exact fun haccepts h => h.not_migrateAccepts haccepts
  · intro h
    obtain ⟨v, rfl⟩ := Int.eq_ofNat_of_zero_le (a := version) (by simp only [Refused] at h; omega)
    simp only [Refused, not_or] at h
    exact migrateAccepts_of_range (by omega) (by omega)

/-! ### Agreement -/

/-- The command reports a version below 0 as one to migrate, which nothing migrates. -/
theorem agrees_iff (version : Int) : Agrees version ↔ 0 ≤ version := by
  simp only [Agrees, inspect, classify_accepted_iff, classify_refused_iff, accepts_iff,
    migrateAccepts_iff, Refused]
  constructor
  · intro h
    have haccepted := (h .empty).1
    omega
  · intro h _
    refine ⟨?_, ?_, ?_⟩ <;> omega

/-- SAFETY: when a database survives attempts to open it that were cut off, and which versions the
    three places agree on. -/
theorem database_survives (start : Directory) (hsound : Sound start)
    (attempts : List (List Answer)) (version : Int) :
    (Reopens (after start attempts) (upgraded start) ↔ AllCareful start attempts) ∧
      (Agrees version ↔ 0 ≤ version) :=
  ⟨reopens_iff hsound attempts, agrees_iff version⟩

/-- A first start that is cut off before it creates the file, and a database of version 3. -/
theorem database_survives_cut : Reopens (after none [[.ok]]) (upgraded none) ∧ Agrees 3 := by
  obtain ⟨hreopens, hagrees⟩ := database_survives none trivial [[.ok]] 3
  exact ⟨hreopens.mpr ⟨fun _ => .inl rfl, trivial⟩, hagrees.mpr (by decide)⟩

/-- Cut off right after the file is created: the next start refuses it. And a version below 0 is
    reported as one to migrate. -/
theorem database_lost : Sound none ∧ ¬ Reopens (after none [[.ok, .ok]]) (upgraded none) ∧
    ¬ Agrees (-1) := by
  refine ⟨trivial, ?_, fun h => absurd ((agrees_iff (-1)).mp h) (by decide)⟩
  have hleft : HasVersion 0 (after none [[.ok, .ok]]) := ⟨.empty, rfl⟩
  exact hleft.not_reopens refused_zero

end Gamer.Storage
