import Gamer.Timer.Core

/-! The aggregator of a trigger with several inputs. Every input reports once, in any order; the
    last of them makes the summary, with one row per input in the order of the task:

        record, record, …, record ──▶ done ──▶ ordered_summary ──▶ finalize
        record ──▶ (ignored)

    The rows are matched by id. Of the rows with one id, the inputs with that id take one each, in
    the order in which they arrived. -/

namespace Gamer.Timer
open Gamer.Core

/-- A row of the summary. -/
structure TaskInputResult where
  inputId : String
  label : Option String
  state : String
  error : Option String
  finishedAt : Int
  elapsedSecs : Nat
  deriving DecidableEq

def outcomeName : TimerOutcome → String
  | .success => "success"
  | .failed _ => "failed"
  | .cancelled => "cancelled"

def outcomeErrorText : TimerOutcome → Option String
  | .failed message => some message
  | .cancelled => some "已取消"
  | .success => none

/-- A call of `record`, with the time at which it is made. -/
structure RecordCall where
  inputId : String
  outcome : TimerOutcome
  elapsedSecs : Nat
  now : Int

def RecordCall.row (c : RecordCall) : TaskInputResult :=
  ⟨c.inputId, none, outcomeName c.outcome, outcomeErrorText c.outcome, c.now, c.elapsedSecs⟩

/-- What the notification hook is called with. -/
structure SummaryNotification where
  summary : List TaskInputResult
  eventId : String
  state : String
  error : Option String
  finishedAt : Int
  elapsedSecs : Nat

/-- What `finalize` does: the summary and the folded label of the task, the end of the scheduled
    run, and one notification. -/
structure SummaryReport where
  summary : List TaskInputResult
  lastResult : String
  scheduledRun : Option (Int × String × Option String)
  notification : Option SummaryNotification

structure MultiFinisher where
  task : Task
  hook : Bool
  scheduledAt : Option Int
  eventId : String
  started : Int
  expected : Nat
  done : Bool
  results : List TaskInputResult
  reports : List SummaryReport

/-! ### The summary -/

def inputId (input : Json) : String := (input.getStr "id").getD ""

/-- The label of an input, if it says anything. -/
def inputLabel (input : Json) : Option String :=
  ((input.getStr "label").map trim).filter fun label => label ≠ ""

/-- A row without a label takes the one that is declared. -/
def TaskInputResult.withLabel (row : TaskInputResult) (label : Option String) : TaskInputResult :=
  if row.label.isNone then { row with label := label } else row

/-- One row per input: the first one left with its id, or a failure. -/
def orderedSummary (now : Int) : List Json → List TaskInputResult → List TaskInputResult
  | [], _ => []
  | input :: inputs, remaining =>
    let id := inputId input
    let label := inputLabel input
    match remaining.find? fun row => row.inputId = id with
    | some row => row.withLabel label ::
        orderedSummary now inputs (remaining.eraseP fun row => row.inputId = id)
    | none => (TaskInputResult.mk id label "failed" (some "提交失败") now 0).withLabel label ::
        orderedSummary now inputs remaining

def isSuccess (row : TaskInputResult) : Bool := row.state = "success"

namespace MultiFinisher

def new (task : Task) (hook : Bool) (scheduledAt : Option Int) (uuid : String) (started : Int)
    (expected : Nat) : MultiFinisher where
  task := task
  hook := hook
  scheduledAt := scheduledAt
  eventId := match scheduledAt with
    | some due => "schedule:" ++ task.id ++ ":summary:" ++ toString due
    | none => "task:" ++ task.id ++ ":summary:" ++ uuid
  started := started
  expected := expected
  done := false
  results := []
  reports := []

/-- A row that did not succeed, as the notification says it. -/
def failureText (row : TaskInputResult) : String :=
  row.label.getD row.inputId ++ "：" ++ row.error.getD row.state

/-- `emit_summary_notification`. -/
def summaryNotification (f : MultiFinisher) (now : Int) (summary : List TaskInputResult) :
    SummaryNotification :=
  let failed := summary.length - (summary.filter isSuccess).length
  { summary := summary
    eventId := f.eventId
    state := if failed = 0 then "success" else "failed"
    error := if failed > 0 then
        some ("；".intercalate ((summary.filter fun row => !isSuccess row).map failureText))
      else none
    finishedAt := now
    elapsedSecs := (now - f.started).toNat }

def finalize (f : MultiFinisher) (now : Int) (summary : List TaskInputResult) : SummaryReport :=
  let total := max summary.length 1
  let ok := (summary.filter isSuccess).length
  let failed := total - ok
  { summary := summary
    lastResult := if failed = 0 then "成功" else if ok = 0 then "失败"
      else "部分成功 " ++ toString ok ++ "/" ++ toString total
    scheduledRun := f.scheduledAt.map fun due =>
      (due, if failed = 0 then "success" else "failed",
        (summary.filter fun row => !isSuccess row).findSome? (·.error))
    notification := if f.hook then some (f.summaryNotification now summary) else none }

/-- `record`: nothing after the end, and the end when as many have come as are expected. -/
def record (f : MultiFinisher) (c : RecordCall) : MultiFinisher :=
  if f.done then f
  else
    let results := f.results ++ [c.row]
    if results.length ≥ f.expected then
      { f with
        done := true
        results := results
        reports := f.reports ++ [f.finalize c.now (orderedSummary c.now f.task.inputs results)] }
    else { f with results := results }

def run (f : MultiFinisher) (calls : List RecordCall) : MultiFinisher := calls.foldl record f

end MultiFinisher

/-! ### Every row to an input of its id -/

theorem withLabel_inputId (row : TaskInputResult) (label : Option String) :
    (row.withLabel label).inputId = row.inputId := by
  unfold TaskInputResult.withLabel
  split <;> rfl

theorem withLabel_outcome (row : TaskInputResult) (label : Option String) :
    (row.withLabel label).state = row.state ∧ (row.withLabel label).error = row.error := by
  unfold TaskInputResult.withLabel
  split <;> exact ⟨rfl, rfl⟩

/-- What a row says about an input. -/
def TaskInputResult.said (row : TaskInputResult) : String × String × Option String :=
  (row.inputId, row.state, row.error)

theorem withLabel_said (row : TaskInputResult) (label : Option String) :
    (row.withLabel label).said = row.said := by
  unfold TaskInputResult.said
  rw [withLabel_inputId, (withLabel_outcome row label).1, (withLabel_outcome row label).2]

/-- The first row that fits, and all the others. -/
theorem perm_find_eraseP {α : Type} {p : α → Bool} {l : List α} {a : α} (h : l.find? p = some a) :
    l.Perm (a :: l.eraseP p) := by
  induction l with
  | nil => cases h
  | cons b l ih =>
    rw [List.find?_cons] at h
    rw [List.eraseP_cons]
    cases hb : p b with
    | true =>
      rw [hb] at h
      rw [← Option.some.inj h]
      exact .refl _
    | false =>
      rw [hb] at h
      exact ((ih h).cons b).trans (.swap a b _)

theorem orderedSummary_taken {now : Int} {input : Json} {inputs : List Json}
    {remaining : List TaskInputResult} {row : TaskInputResult}
    (h : remaining.find? (fun row => row.inputId = inputId input) = some row) :
    orderedSummary now (input :: inputs) remaining = row.withLabel (inputLabel input) ::
      orderedSummary now inputs (remaining.eraseP fun row => row.inputId = inputId input) := by
  simp only [orderedSummary, h]

theorem orderedSummary_missing {now : Int} {input : Json} {inputs : List Json}
    {remaining : List TaskInputResult}
    (h : remaining.find? (fun row => row.inputId = inputId input) = none) :
    orderedSummary now (input :: inputs) remaining =
      (TaskInputResult.mk (inputId input) (inputLabel input) "failed" (some "提交失败") now 0).withLabel
        (inputLabel input) :: orderedSummary now inputs remaining := by
  simp only [orderedSummary, h]

/-- INVARIANT: as long as the ids of the rows that are left are those of the inputs that are left,
    every input finds a row, and no row is left over. -/
theorem orderedSummary_perm (now : Int) {inputs : List Json} {remaining : List TaskInputResult}
    (hids : (remaining.map (·.inputId)).Perm (inputs.map inputId)) :
    (orderedSummary now inputs remaining).map (·.inputId) = inputs.map inputId ∧
      ((orderedSummary now inputs remaining).map (·.said)).Perm (remaining.map (·.said)) := by
  induction inputs generalizing remaining with
  | nil =>
    rw [List.map_nil, List.perm_nil, List.map_eq_nil_iff] at hids
    subst hids
    exact ⟨rfl, .nil⟩
  | cons input inputs ih =>
    have hmem : inputId input ∈ remaining.map (·.inputId) :=
      hids.symm.subset List.mem_cons_self
    obtain ⟨row, hrow, hid⟩ := List.mem_map.mp hmem
    cases hfind : remaining.find? fun row => row.inputId = inputId input with
    | none =>
      have hnone := List.find?_eq_none.mp hfind row hrow
      simp [hid] at hnone
    | some taken =>
      have htaken : taken.inputId = inputId input := by simpa using List.find?_some hfind
      have hsplit : remaining.Perm
          (taken :: remaining.eraseP fun row => row.inputId = inputId input) :=
        perm_find_eraseP hfind
      have hrest : ((remaining.eraseP fun row => row.inputId = inputId input).map
          (·.inputId)).Perm (inputs.map inputId) := by
        have hall := (hsplit.map (·.inputId)).symm.trans hids
        rw [List.map_cons, List.map_cons, htaken] at hall
        exact hall.cons_inv
      obtain ⟨hnames, hsaid⟩ := ih hrest
      rw [orderedSummary_taken hfind]
      constructor
      · rw [List.map_cons, List.map_cons, withLabel_inputId, htaken, hnames]
      · rw [List.map_cons, withLabel_said]
        exact (hsaid.cons taken.said).trans (hsplit.map TaskInputResult.said).symm

/-- Every row has the label of the input it stands for. -/
theorem orderedSummary_labels (now : Int) {inputs : List Json} {remaining : List TaskInputResult}
    (hnone : ∀ row ∈ remaining, row.label = none) :
    (orderedSummary now inputs remaining).map (·.label) = inputs.map inputLabel := by
  induction inputs generalizing remaining with
  | nil => rfl
  | cons input inputs ih =>
    cases hfind : remaining.find? fun row => row.inputId = inputId input with
    | none =>
      rw [orderedSummary_missing hfind, List.map_cons, List.map_cons, ih hnone]
      unfold TaskInputResult.withLabel
      split <;> rfl
    | some row =>
      rw [orderedSummary_taken hfind, List.map_cons, List.map_cons,
        ih fun row hrow => hnone row (List.mem_of_mem_eraseP hrow), TaskInputResult.withLabel,
        hnone row (List.mem_of_find?_eq_some hfind)]
      rfl

/-! ### Every run of calls -/

namespace MultiFinisher
variable {f : MultiFinisher}

/-- STEP: after the end nothing changes. -/
theorem record_of_done (h : f.done = true) (c : RecordCall) : f.record c = f := by
  rw [record, h]
  rfl

theorem run_of_done (h : f.done = true) (calls : List RecordCall) : f.run calls = f := by
  induction calls with
  | nil => rfl
  | cons c calls ih =>
    rw [run, List.foldl_cons, record_of_done h]
    exact ih

/-- RUN: before the last input has reported, the rows are collected. -/
theorem run_early {calls : List RecordCall} (hdone : f.done = false)
    (hlen : f.results.length + calls.length < f.expected) :
    f.run calls = { f with results := f.results ++ calls.map RecordCall.row } := by
  induction calls generalizing f with
  | nil => simp [run]
  | cons c calls ih =>
    rw [List.length_cons] at hlen
    have hstep : f.record c = { f with results := f.results ++ [c.row] } := by
      rw [record, hdone]
      have hshort : ¬ (f.results ++ [c.row]).length ≥ f.expected := by
        rw [List.length_append, List.length_singleton]
        omega
      simp only [hshort, if_false, Bool.false_eq_true]
    rw [run, List.foldl_cons, hstep]
    refine (ih (f := { f with results := f.results ++ [c.row] }) hdone ?_).trans ?_
    · change (f.results ++ [c.row]).length + calls.length < f.expected
      rw [List.length_append, List.length_singleton]
      omega
    · simp

/-- RUN: the last input that reports makes the summary. -/
theorem run_last {calls : List RecordCall} {c : RecordCall} (hdone : f.done = false)
    (hlen : f.results.length + calls.length + 1 = f.expected) :
    f.run (calls ++ [c]) =
      { f with
        done := true
        results := f.results ++ calls.map RecordCall.row ++ [c.row]
        reports := f.reports ++ [f.finalize c.now (orderedSummary c.now f.task.inputs
          (f.results ++ calls.map RecordCall.row ++ [c.row]))] } := by
  rw [run, List.foldl_append]
  change (f.run calls).record c = _
  rw [run_early hdone (by omega), record]
  have hfull : (f.results ++ calls.map RecordCall.row ++ [c.row]).length ≥ f.expected := by
    rw [List.length_append, List.length_append, List.length_map, List.length_singleton]
    omega
  simp only [hdone, hfull, if_true, if_false, Bool.false_eq_true]
  rfl

end MultiFinisher

/-- The report says of every input what was recorded about it. -/
structure Summarises (t : Task) (calls : List RecordCall) (report : SummaryReport) : Prop where
  inputs : report.summary.map (·.inputId) = t.inputs.map inputId
  labels : report.summary.map (·.label) = t.inputs.map inputLabel
  outcomes : ∀ id, ((report.summary.filter fun row => row.inputId = id).map
    fun row => (row.state, row.error)).Perm ((calls.filter fun c => c.inputId = id).map
      fun c => (outcomeName c.outcome, outcomeErrorText c.outcome))
  succeeded : (report.summary.filter isSuccess).length =
    (calls.filter fun c => c.outcome = .success).length
  allSucceeded : (report.summary.filter isSuccess).length = t.inputs.length → report.lastResult = "成功"
  noneSucceeded : (report.summary.filter isSuccess).length = 0 → report.lastResult = "失败"
  someSucceeded : ∀ k, (report.summary.filter isSuccess).length = k → 0 < k → k < t.inputs.length →
    report.lastResult = "部分成功 " ++ toString k ++ "/" ++ toString t.inputs.length

theorem isSuccess_row (c : RecordCall) : isSuccess c.row = decide (c.outcome = .success) := by
  rw [isSuccess, RecordCall.row]
  cases c.outcome <;> simp [outcomeName]

theorem finalize_summarises {f : MultiFinisher} {calls : List RecordCall} (now : Int)
    (hne : f.task.inputs ≠ [])
    (hids : (calls.map (·.inputId)).Perm (f.task.inputs.map inputId)) :
    Summarises f.task calls (f.finalize now
      (orderedSummary now f.task.inputs (calls.map RecordCall.row))) := by
  have hrows : ((calls.map RecordCall.row).map (·.inputId)).Perm (f.task.inputs.map inputId) := by
    rw [List.map_map]
    exact hids
  obtain ⟨hinputs, hsaid⟩ := orderedSummary_perm now hrows
  have hlabels : (orderedSummary now f.task.inputs (calls.map RecordCall.row)).map (·.label) =
      f.task.inputs.map inputLabel := orderedSummary_labels now fun row hrow => by
    obtain ⟨c, -, rfl⟩ := List.mem_map.mp hrow
    rfl
  generalize orderedSummary now f.task.inputs (calls.map RecordCall.row) = summary at *
  have hlength : summary.length = f.task.inputs.length := by
    rw [← List.length_map (·.inputId), hinputs, List.length_map]
  have hpos : 0 < f.task.inputs.length := List.length_pos_iff.mpr hne
  have hsuccess : (summary.filter isSuccess).length =
      (calls.filter fun c => c.outcome = .success).length := by
    have hcount := hsaid.countP_eq fun said => said.2.1 = "success"
    rw [List.countP_map, List.countP_map, List.countP_map] at hcount
    rw [← List.countP_eq_length_filter, ← List.countP_eq_length_filter]
    refine hcount.trans (List.countP_congr fun c _ => ?_)
    exact Bool.eq_iff_iff.mp (isSuccess_row c)
  have htotal : max summary.length 1 = f.task.inputs.length := by omega
  have hle : (summary.filter isSuccess).length ≤ f.task.inputs.length :=
    hlength ▸ List.length_filter_le ..
  refine ⟨hinputs, hlabels, fun id => ?_, hsuccess, fun hall => ?_, fun hnone => ?_,
    fun k hk hpos hlt => ?_⟩
  · have hperm := (hsaid.filter fun said => said.1 = id).map (·.2)
    change ((summary.filter fun row => row.inputId = id).map
      fun row => (row.state, row.error)).Perm _
    simpa [List.filter_map, Function.comp_def, TaskInputResult.said, RecordCall.row] using hperm
  · change (summary.filter isSuccess).length = _ at hall
    simp only [MultiFinisher.finalize, htotal, hall, Nat.sub_self, if_true]
  · change (summary.filter isSuccess).length = _ at hnone
    simp only [MultiFinisher.finalize, htotal, hnone, Nat.sub_zero, if_true]
    rw [if_neg (by omega)]
  · change (summary.filter isSuccess).length = _ at hk
    simp only [MultiFinisher.finalize, htotal, hk]
    rw [if_neg (by omega), if_neg (by omega)]

/-- SAFETY: whatever the order in which the inputs report, and whatever is recorded after that, the
    aggregator finalizes once, with the call that completes the inputs. -/
theorem record_finalizes_once {t : Task} (hook : Bool) (scheduledAt : Option Int) (uuid : String)
    (started : Int) {first : List RecordCall} (rest : List RecordCall)
    (hmany : 2 ≤ t.inputs.length)
    (hfirst : (first.map (·.inputId)).Perm (t.inputs.map inputId)) :
    ∃ report, Summarises t first report ∧ ∀ k,
      ((MultiFinisher.new t hook scheduledAt uuid started t.inputs.length).run
        ((first ++ rest).take k)).reports = if k < t.inputs.length then [] else [report] := by
  have hlength : first.length = t.inputs.length := by
    have := hfirst.length_eq
    rwa [List.length_map, List.length_map] at this
  have hne : first ≠ [] := List.ne_nil_of_length_pos (by omega)
  obtain ⟨early, last, rfl⟩ : ∃ early last, first = early ++ [last] :=
    ⟨first.dropLast, first.getLast hne, (List.dropLast_append_getLast hne).symm⟩
  rw [List.length_append, List.length_singleton] at hlength
  generalize hf : MultiFinisher.new t hook scheduledAt uuid started t.inputs.length = f
  have hempty : f.results = [] := by rw [← hf]; rfl
  have hreports : f.reports = [] := by rw [← hf]; rfl
  have hdone : f.done = false := by rw [← hf]; rfl
  have hexpected : f.expected = t.inputs.length := by rw [← hf]; rfl
  have htask : f.task = t := by rw [← hf]; rfl
  have hfull : f.results.length + early.length + 1 = f.expected := by
    rw [hempty, hexpected, List.length_nil]
    omega
  have hlast := MultiFinisher.run_last (c := last) hdone hfull
  rw [hempty, List.nil_append, ← List.map_singleton, ← List.map_append, hreports,
    List.nil_append] at hlast
  refine ⟨f.finalize last.now (orderedSummary last.now t.inputs
    ((early ++ [last]).map RecordCall.row)), ?_, fun k => ?_⟩
  · rw [← htask] at hfirst ⊢
    exact finalize_summarises last.now (by rw [htask]; exact List.ne_nil_of_length_pos (by omega))
      hfirst
  · by_cases hk : k < t.inputs.length
    · rw [if_pos hk, List.take_append_of_le_length (by rw [List.length_append]; simp; omega)]
      rw [MultiFinisher.run_early hdone (by rw [hempty, hexpected]; simp; omega)]
      exact hreports
    · rw [if_neg hk, List.take_append, List.take_of_length_le (by simp; omega)]
      rw [MultiFinisher.run, List.foldl_append]
      change (MultiFinisher.run (f.run (early ++ [last])) _).reports = _
      rw [MultiFinisher.run_of_done (by rw [hlast]), hlast, htask]

/-! ### Two inputs of one id -/

def twinTask : Task := phoneTask [tabletInput "a", tabletInput "b", tabletInput "a"]

def twinCalls : List RecordCall :=
  [⟨"a", .failed "gone", 4, 10⟩, ⟨"a", .success, 5, 11⟩, ⟨"b", .cancelled, 6, 12⟩]

/-- A row too many. -/
def twinLate : RecordCall := ⟨"a", .success, 7, 13⟩

theorem record_finalizes_once_twins : ∃ report, Summarises twinTask twinCalls report ∧ ∀ k,
    ((MultiFinisher.new twinTask true none "u" 0 3).run
      ((twinCalls ++ [twinLate]).take k)).reports =
        if k < 3 then [] else [report] := by
  have hids : (twinCalls.map (·.inputId)).Perm (twinTask.inputs.map inputId) :=
    .cons "a" (.swap "b" "a" [])
  have hrun := record_finalizes_once true none "u" 0 [twinLate]
    (show 2 ≤ twinTask.inputs.length by decide) hids
  exact hrun

/-- The folded label of the three. -/
example : ((MultiFinisher.new twinTask true none "u" 0 3).run twinCalls).reports.map
    (·.lastResult) = ["部分成功 1/3"] := by decide

end Gamer.Timer
