import OasisPlatform.AnalysisIsolation
import OasisPlatform.SubTasks

/-!
What a cancel request does that is answered with a `ValidationError`. The message to cancel
the sub-tasks is published before the status is checked, and cancels whatever is unfinished
when it is delivered. A rejected request changes nothing exactly when it is rejected before
the message is published, or the message finds no sub-task that is unfinished
(`rejected_harmless_iff`).
-/
namespace OasisPlatform.CancelEffects
open OasisPlatform.SharedRow OasisPlatform.Models OasisPlatform.GroupAccess OasisPlatform.Cancellation
open OasisPlatform.SubTasks OasisPlatform.AnalysisViews OasisPlatform.AnalysisIsolation
set_option linter.unusedSimpArgs false

variable {γ : Type} [DecidableEq γ]

inductive CancelAction where
  | cancel
  | cancelAnalysisRun
  | cancelGenerateInputs
  deriving DecidableEq, Repr

def CancelAction.detail : CancelAction → DetailAction
  | .cancel => .cancel
  | .cancelAnalysisRun => .cancelAnalysisRun
  | .cancelGenerateInputs => .cancelGenerateInputs

/-- What the action saves, or why it raises. -/
def CancelAction.cancelled (env : Env) (row : AnalysisRow) : CancelAction → Except ValidationErrors AnalysisSave
  | .cancel => cancelAny env (load row)
  | .cancelAnalysisRun => cancelAnalysis env (load row)
  | .cancelGenerateInputs => Cancellation.cancelGenerateInputs env (load row)

/-- The statuses that an action may cancel. -/
def CancelAction.validChoices : CancelAction → List AnalysisStatus
  | .cancel => [.inputsGenerationQueued,.inputsGenerationStarted,.runQueued,.runStarted]
  | .cancelAnalysisRun => [.runQueued,.runStarted]
  | .cancelGenerateInputs => [.inputsGenerationQueued,.inputsGenerationStarted]

section Request
variable (site : Site γ) (shared : Shared γ) (user : User γ) (analysis : AnalysisRecord γ)

def CancelAction.outcome (action : CancelAction) : Outcome γ := act site user shared analysis action.detail

def Rejected (outcome : Outcome γ) : Prop := ∃ errors, outcome.1 = .invalid errors

/-- The row of the analysis after the request. -/
def CancelAction.row (action : CancelAction) : AnalysisRow :=
  match (action.outcome site shared user analysis).1,action.cancelled site.env analysis.row with
  | .analysis _,.ok save => save.apply analysis.row
  | _,_ => analysis.row

/-- The request comes to `cancel_subtasks`: the actions for one stage need a model. -/
def CancelAction.reaches (action : CancelAction) : Bool :=
  (decide (action = .cancel) || (analysis.model.bind shared.modelOf).isSome) && mayCancel shared user analysis

end Request

def unfinishedStatuses : List TaskStatus := [.pending,.queued,.started]

def unfinishedRows (analysis : AnalysisId) (table : SubTaskTable) : List SubTask :=
  table.rows.filter fun row => row.analysis = analysis ∧ row.status ∈ unfinishedStatuses

/-- The sub-task rows and the tasks that are revoked. -/
structure Effects where
  table : SubTaskTable
  revoked : List String

/-- A message is delivered; `cancel_subtasks` revokes the unfinished sub-tasks that have a
    task id. -/
def deliver (env : Env) (effects : Effects) : DispatchedTask → Effects
  | .cancelSubtasks analysis =>
    { table := process env effects.table (.cancelSubtasks analysis),
      revoked := effects.revoked ++
        ((unfinishedRows analysis effects.table).map SubTask.taskId).filter (· ≠ "") }
  | .revoke taskId => { effects with revoked := effects.revoked ++ [taskId] }
  | _ => effects

/-- If the request is rejected, the row of the analysis stays as it was, and its messages,
    which find `table` when they are delivered, leave the table and revoke nothing. -/
def Harmless (site : Site γ) (shared : Shared γ) (user : User γ) (analysis : AnalysisRecord γ) (action : CancelAction)
    (env : Env) (table : SubTaskTable) : Prop :=
  Rejected (action.outcome site shared user analysis) →
    action.row site shared user analysis = analysis.row ∧
      (action.outcome site shared user analysis).2.foldl (deliver env) ⟨table,[]⟩ = ⟨table,[]⟩

/-- An update that leaves the columns of the constraints is not refused. -/
theorem update_accepted (table : SubTaskTable) (filter : SubTask → Bool) (change : SubTask → SubTask)
    (id : ∀ row, (change row).id = row.id)
    (slug : ∀ row, ((change row).analysis,(change row).slug) = (row.analysis,row.slug))
    (taskId : ∀ row, (change row).taskId = row.taskId) : ∃ table', table.update filter change = some table' := by
  have kept {α : Type} (column : SubTask → α) (same : ∀ row, column (change row) = column row) :
      (table.rows.map fun row => if filter row then change row else row).map column = table.rows.map column := by
    rw [List.map_map]
    apply List.map_congr_left
    intro row _
    simp only [Function.comp_apply]
    split_ifs
    · exact same row
    · rfl
  have valid : ValidRows (table.rows.map fun row => if filter row then change row else row) := by
    have before := table.valid
    unfold ValidRows at before ⊢
    rw [kept SubTask.id id,kept (fun row => (row.analysis,row.slug)) slug,kept SubTask.taskId taskId]
    exact before
  exact ⟨⟨_,valid⟩,by simp [SubTaskTable.update,SubTaskTable.write,valid]⟩

theorem cancelSubtasks_filter (env : Env) (analysis : AnalysisId) (row : SubTask) :
    (cancelSubtasks env analysis).filter row = true ↔ row.analysis = analysis ∧ row.status ∈ unfinishedStatuses := by
  simp [cancelSubtasks,unfinishedStatuses]

theorem unfinishedRows_nil {analysis : AnalysisId} {table : SubTaskTable} :
    unfinishedRows analysis table = [] ↔
      ∀ row ∈ table.rows, row.analysis = analysis → row.status ∉ unfinishedStatuses := by
  simp [unfinishedRows,List.filter_eq_nil_iff]

/-- `cancel_subtasks` leaves the table exactly when all sub-tasks have finished: a
    cancelled row is none that it finds. -/
theorem process_cancelSubtasks_iff (env : Env) (analysis : AnalysisId) (table : SubTaskTable) :
    process env table (.cancelSubtasks analysis) = table ↔ unfinishedRows analysis table = [] := by
  obtain ⟨table',updated⟩ := update_accepted table (cancelSubtasks env analysis).filter
    (cancelSubtasks env analysis).change (fun _ => rfl) (fun _ => rfl) (fun _ => rfl)
  have processed : process env table (.cancelSubtasks analysis) = table' := by
    simp [process,statement,execute,updated]
  rw [processed,unfinishedRows_nil]
  constructor
  · rintro rfl row listed ofAnalysis unfinished
    have changed : row ∈ table'.rows.map fun row =>
        if (cancelSubtasks env analysis).filter row then (cancelSubtasks env analysis).change row else row :=
      update_rows updated ▸ listed
    obtain ⟨before,_,written⟩ := List.mem_map.mp changed
    split_ifs at written with found
    · rw [← written] at unfinished
      simp [cancelSubtasks,unfinishedStatuses] at unfinished
    · rw [written,cancelSubtasks_filter] at found
      exact found ⟨ofAnalysis,unfinished⟩
  · intro finished
    have unmatched : ∀ row ∈ table.rows, (cancelSubtasks env analysis).filter row = false := by
      intro row listed
      rw [Bool.eq_false_iff,ne_eq,cancelSubtasks_filter]
      exact fun found => finished row listed found.1 found.2
    have same := update_unmatched (cancelSubtasks env analysis).change unmatched
    exact Option.some.inj (updated.symm.trans same)

theorem deliver_cancelSubtasks_iff (env : Env) (analysis : AnalysisId) (table : SubTaskTable) :
    deliver env ⟨table,[]⟩ (.cancelSubtasks analysis) = ⟨table,[]⟩ ↔ unfinishedRows analysis table = [] := by
  constructor
  · intro same
    exact (process_cancelSubtasks_iff env analysis table).mp (congrArg Effects.table same)
  · intro finished
    simp [deliver,(process_cancelSubtasks_iff env analysis table).mpr finished,finished]

theorem ok_or_error {α ε : Type} {p : Prop} [Decidable p] {error : ε} {value : α} :
    (∃ errors, (if ¬p then Except.error error else Except.ok value) = Except.error errors) ↔ ¬p := by
  by_cases holds : p
  · simp [holds]
  · simp [holds]

theorem cancelled_error_iff (env : Env) (row : AnalysisRow) (action : CancelAction) :
    (∃ errors, action.cancelled env row = .error errors) ↔ row .status ∉ action.validChoices := by
  have generate : (∃ errors, Cancellation.cancelGenerateInputs env (load row) = .error errors) ↔
      row .status ∉ [.inputsGenerationQueued,.inputsGenerationStarted] := ok_or_error
  have run : (∃ errors, cancelAnalysis env (load row) = .error errors) ↔ row .status ∉ [.runQueued,.runStarted] :=
    ok_or_error
  cases action with
  | cancel =>
    simp only [CancelAction.cancelled,CancelAction.validChoices]
    unfold cancelAny
    by_cases generating : (load row).values .status ∈ [.inputsGenerationQueued,.inputsGenerationStarted]
    · rw [if_pos generating,generate]
      simp only [load_values,List.mem_cons,List.not_mem_nil,or_false] at generating ⊢
      tauto
    · rw [if_neg generating]
      by_cases running : (load row).values .status ∈ [.runQueued,.runStarted]
      · rw [if_pos running,run]
        simp only [load_values,List.mem_cons,List.not_mem_nil,or_false] at running ⊢
        tauto
      · rw [if_neg running]
        simp only [load_values,List.mem_cons,List.not_mem_nil,or_false] at generating running ⊢
        exact iff_of_true ⟨_,rfl⟩ (by tauto)
  | cancelAnalysisRun => exact run
  | cancelGenerateInputs => exact generate

section Request
variable (site : Site γ) (shared : Shared γ) (user : User γ) (analysis : AnalysisRecord γ)

theorem cancelStage_reached (cancelled : Except ValidationErrors AnalysisSave) (taskId : String)
    (reached : ((analysis.model.bind shared.modelOf).isSome && mayCancel shared user analysis) = true) :
    cancelStage site shared user analysis cancelled taskId = cancelWith site shared analysis cancelled taskId := by
  simp only [Bool.and_eq_true,← Option.isNone_eq_false_iff] at reached
  simp [cancelStage,reached]

theorem cancelStage_refused (cancelled : Except ValidationErrors AnalysisSave) (taskId : String)
    (unreached : ((analysis.model.bind shared.modelOf).isSome && mayCancel shared user analysis) = false) :
    cancelStage site shared user analysis cancelled taskId = cancelForbidden ∨
      cancelStage site shared user analysis cancelled taskId =
        (.invalid [("model","Model not assigned to analysis")],[]) := by
  unfold cancelStage
  split_ifs with unassigned denied
  · exact .inr rfl
  · exact .inl rfl
  · rw [Bool.not_eq_true,Option.isNone_eq_false_iff] at unassigned
    simp only [unassigned,Bool.true_and] at unreached
    exact absurd (by simp [unreached]) denied

/-- A request that comes to the status check has published the message before. -/
theorem outcome_reached {action : CancelAction} (reached : action.reaches shared user analysis = true) :
    (∃ errors, action.cancelled site.env analysis.row = .error errors ∧
        action.outcome site shared user analysis = (.invalid errors,cancelSubtasksTask analysis)) ∨
      ∃ save data tasks, action.cancelled site.env analysis.row = .ok save ∧
        action.outcome site shared user analysis = (.analysis data,tasks) := by
  have outcome : ∃ taskId, action.outcome site shared user analysis =
      cancelWith site shared analysis (action.cancelled site.env analysis.row) taskId := by
    cases action with
    | cancel =>
      have may : mayCancel shared user analysis = true := by simpa [CancelAction.reaches] using reached
      exact ⟨_,by simp only [CancelAction.outcome,CancelAction.detail,act,cancel,may]; rfl⟩
    | cancelAnalysisRun =>
      exact ⟨_,cancelStage_reached site shared user analysis _ _ (by simpa [CancelAction.reaches] using reached)⟩
    | cancelGenerateInputs =>
      exact ⟨_,cancelStage_reached site shared user analysis _ _ (by simpa [CancelAction.reaches] using reached)⟩
  obtain ⟨taskId,outcome⟩ := outcome
  rw [outcome]
  cases action.cancelled site.env analysis.row with
  | error errors => exact .inl ⟨errors,rfl,rfl⟩
  | ok save => exact .inr ⟨save,_,_,rfl,rfl⟩

theorem outcome_unreached {action : CancelAction} (unreached : action.reaches shared user analysis = false) :
    (action.outcome site shared user analysis).2 = [] ∧ action.row site shared user analysis = analysis.row := by
  have refused : action.outcome site shared user analysis = cancelForbidden ∨
      action.outcome site shared user analysis = (.invalid [("model","Model not assigned to analysis")],[]) := by
    cases action with
    | cancel =>
      have denied : mayCancel shared user analysis = false := by simpa [CancelAction.reaches] using unreached
      exact .inl (by simp [CancelAction.outcome,CancelAction.detail,act,cancel,denied])
    | cancelAnalysisRun =>
      exact cancelStage_refused site shared user analysis _ _ (by simpa [CancelAction.reaches] using unreached)
    | cancelGenerateInputs =>
      exact cancelStage_refused site shared user analysis _ _ (by simpa [CancelAction.reaches] using unreached)
  rcases refused with refused | refused <;> simp [refused,cancelForbidden,CancelAction.row]

/-- A request is not rejected, or changes nothing: exactly when the status may be
    cancelled, or the request is refused before the message is published, or the analysis
    is not run by V2, or its sub-tasks have finished when the message is delivered. -/
theorem rejected_harmless_iff (action : CancelAction) (env : Env) (table : SubTaskTable) :
    Harmless site shared user analysis action env table ↔
      analysis.row .status ∈ action.validChoices ∨ action.reaches shared user analysis = false ∨
        analysis.row .runMode ≠ some .v2 ∨
          ∀ row ∈ table.rows, row.analysis = analysis.id → row.status ∉ unfinishedStatuses := by
  rw [← unfinishedRows_nil]
  unfold Harmless
  cases reached : action.reaches shared user analysis with
  | false =>
    obtain ⟨silent,kept⟩ := outcome_unreached site shared user analysis reached
    simp [silent,kept]
  | true =>
    rcases outcome_reached site shared user analysis reached with
      ⟨errors,refused,outcome⟩ | ⟨save,data,tasks,accepted,outcome⟩
    · have status := (cancelled_error_iff site.env analysis.row action).mp ⟨errors,refused⟩
      have row : action.row site shared user analysis = analysis.row := by simp [CancelAction.row,outcome]
      by_cases mode : analysis.row .runMode = some .v2
      · have delivered := deliver_cancelSubtasks_iff env analysis.id table
        simp [outcome,Rejected,row,status,mode,cancelSubtasksTask,delivered]
      · simp [outcome,Rejected,row,status,mode,cancelSubtasksTask]
    · have status : analysis.row .status ∈ action.validChoices := by
        by_contra outside
        obtain ⟨errors,refused⟩ := (cancelled_error_iff site.env analysis.row action).mpr outside
        rw [accepted] at refused
        cases refused
      simp [outcome,Rejected,status]

end Request

def generatingAnalysis : AnalysisRecord String :=
  { insurersAnalysis with
    model := some 1
    row := Function.update (Function.update newAnalysis .status .inputsGenerationStarted) .runMode (some .v2) }

def withModel : Shared String :=
  ⟨[{ id := 1, groups := [], files := {} }],[⟨{ id := 1, runMode := some .v2 },[],"oasis",none⟩],[],fun _ => none,2,
    by simp⟩

def startedTable : SubTaskTable :=
  ⟨[{ id := 1, analysis := 1, queueName := "oasis", taskId := "t1", status := .started, name := "keys", slug := "keys-1" }],
    by decide⟩

/-- The request is rejected, and the sub-task that generates the inputs is revoked. -/
theorem generating_revoked :
    ¬Harmless plainSite withModel broker generatingAnalysis .cancelAnalysisRun calmEnv startedTable := by
  intro harmless
  obtain ⟨-,delivered⟩ := harmless ⟨_,rfl⟩
  have revoked := congrArg Effects.revoked delivered
  revert revoked
  decide

end OasisPlatform.CancelEffects
