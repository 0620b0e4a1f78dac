import OasisPlatform.Starting

/-!
What a start request still does when its task is published: it saves the whole instance
again, with the id of the task, while the task controller and the workers have begun to
change the row. A column that one of them has set is put back unless nobody has set it
since it was read (`latest_kept_at_dispatch`).
-/
namespace OasisPlatform.Dispatch
open OasisPlatform.SharedRow OasisPlatform.Models OasisPlatform.AnalysisTasks OasisPlatform.Starting
set_option linter.unusedSimpArgs false

/-- The tasks of the controller, with the numbers of chunks and the id of the chain that
    they have dispatched. -/
inductive ControllerTask where
  | generateInputs (numChunks : Nat) (taskId : String)
  | generateLosses (numChunks : Nat) (taskId : String)
  | generateInputAndLosses (lookupChunks analysisChunks : Nat) (taskId : String)

/-- What a task of the controller saves. -/
def controllerSaves (row : AnalysisRow) : ControllerTask → List AnalysisSave
  | .generateInputs numChunks taskId =>
    [Analysis.saveFields (((load row).set .lookupChunks (some numChunks)).set .generateInputsTaskId taskId)
      [.lookupChunks,.generateInputsTaskId,.runTaskId]]
  | .generateLosses numChunks taskId =>
    [Analysis.saveFields (((load row).set .analysisChunks (some numChunks)).set .runTaskId taskId)
      [.analysisChunks,.runTaskId]]
  | .generateInputAndLosses lookupChunks analysisChunks taskId =>
    [Analysis.saveFields (((((load row).set .lookupChunks (some lookupChunks)).set .analysisChunks
        (some analysisChunks)).set .generateInputsTaskId taskId).set .runTaskId taskId)
      [.lookupChunks,.analysisChunks,.generateInputsTaskId,.runTaskId]]

theorem controllerSaves_copies {row : AnalysisRow} {task : ControllerTask} {save : AnalysisSave}
    (saved : save ∈ controllerSaves row task) : save.loaded.Copies row := by
  cases task with
  | generateInputs numChunks taskId =>
    rw [List.mem_singleton.mp saved]
    exact ((load_copies row).set _ _).set _ _
  | generateLosses numChunks taskId =>
    rw [List.mem_singleton.mp saved]
    exact ((load_copies row).set _ _).set _ _
  | generateInputAndLosses lookupChunks analysisChunks taskId =>
    rw [List.mem_singleton.mp saved]
    exact ((((load_copies row).set _ _).set _ _).set _ _).set _ _

/-- The controller never saves the status. -/
theorem controllerSaves_status {row : AnalysisRow} {task : ControllerTask} {save : AnalysisSave}
    (saved : save ∈ controllerSaves row task) : save.writes .status = false := by
  cases task <;> rw [List.mem_singleton.mp saved] <;> rfl

/-- A process that the published task brings about. -/
inductive Process where
  | controller (task : ControllerTask)
  | worker (job : Job)

def Process.body : Process → AnalysisRow → List AnalysisSave
  | .controller task => fun row => controllerSaves row task
  | .worker job => job.body

theorem process_copies (process : Process) (row : AnalysisRow) {save : AnalysisSave}
    (saved : save ∈ process.body row) : save.loaded.Copies row := by
  cases process with
  | controller task => exact controllerSaves_copies saved
  | worker job => exact saves_copies job row saved

variable {ρ : Type}

/-- The request, which has loaded the row before and has nothing to load, and the
    processes. -/
def body (process : ρ → Process) : Option ρ → AnalysisRow → List AnalysisSave
  | none => fun _ => []
  | some r => (process r).body

/-- The system when a request has published its task: the row is saved as queued, and the
    request has its last save to do. -/
def published (row : AnalysisRow) (now : Time) (started : Start) (taskId : String) : System (Option ρ) ColumnType where
  row := (Analysis.save started.queued).apply row
  phase := fun
    | none => .running [recordDispatch now started taskId]
    | some _ => .waiting

theorem published_row (row : AnalysisRow) (now : Time) (started : Start) (taskId : String) (c : Column) :
    (published row now started taskId : System (Option ρ) ColumnType).row c = started.queued.values c := by
  have stored : (Analysis.save started.queued).apply row c = started.queued.values c := Save.apply_writes rfl row
  exact stored

/-- Nothing is noted yet. -/
def observePublished (row : AnalysisRow) (now : Time) (started : Start) (taskId : String) :
    Observed (Option ρ) ColumnType :=
  { published row now started taskId with latest := fun _ => none, disturbed := fun _ _ => false }

/-- The columns that the controller and the workers change and others read. -/
def trackedColumns : List Column := [.status,.lookupChunks,.analysisChunks,.generateInputsTaskId,.runTaskId]

/-- All but the request. -/
def writers (p : Option ρ) : Bool := p.isSome

theorem setTaskId_copies {row : AnalysisRow} {analysis : Analysis} (copies : analysis.Copies row) (field : TaskIdField)
    (taskId : String) : (setTaskId analysis field taskId).Copies row := by
  cases field <;> exact copies.set _ _

/-- The last save of a request copies what it has saved before. -/
theorem recordDispatch_copies (now : Time) (started : Start) (taskId : String) :
    (recordDispatch now started taskId).loaded.Copies started.queued.values := by
  have base := (load_copies started.queued.values).set .runMode (some started.runMode)
  exact ((setTaskId_copies base started.taskIdField taskId).set _ _).set _ _

theorem observePublished_kept (row : AnalysisRow) (now : Time) (started : Start) (taskId : String) :
    LatestKept trackedColumns (observePublished row now started taskId : Observed (Option ρ) ColumnType) := by
  constructor
  · intro c _ value noted
    cases noted
  · intro p todo running save member c _ unassigned _
    cases p with
    | some r => cases running
    | none =>
      cases running
      rw [List.mem_singleton.mp member] at unassigned ⊢
      rw [recordDispatch_copies now started taskId c unassigned]
      exact (published_row (ρ := ρ) row now started taskId c).symm

variable [DecidableEq ρ]

/-- Through every interleaving of the last save of a request with the loads and saves of the
    controller and of the workers, the row has the latest status, numbers of chunks and
    task ids that these have set, as long as no save stores such a column with a value
    that it only loaded before another process has set it, and the request records its
    task id before the controller does. -/
theorem latest_kept_at_dispatch (process : ρ → Process) (row : AnalysisRow) (now : Time) (started : Start)
    (taskId : String) (actions : List (Action (Option ρ)))
    (undisturbed : Along (Observed.step (body process) writers) (Undisturbed trackedColumns writers)
      (observePublished row now started taskId) actions) :
    ∀ c ∈ trackedColumns, ∀ value,
      ((observePublished row now started taskId).run (body process) writers actions).latest c = some value →
      ((published row now started taskId).run (body process) actions).row c = value := by
  intro c listed value noted
  have copies : ∀ (p : Option ρ) row, ∀ save ∈ body process p row, save.loaded.Copies row := by
    intro p row save saved
    cases p with
    | none => cases saved
    | some r => exact process_copies (process r) row saved
  have kept := run_latest_kept copies (observePublished_kept row now started taskId) undisturbed c listed value noted
  have same : ((observePublished row now started taskId).run (body process) writers actions).toSystem =
      (published row now started taskId).run (body process) actions :=
    observed_run_system writers (observePublished row now started taskId) actions
  rw [← kept]
  exact congrArg (fun system => System.row system c) same.symm

def queuedStart : Start where
  queued := resetInputGeneration (load newAnalysis)
  runMode := .v2
  task := .startInputGenerationTask (some 10)
  onError := .handleTaskFailure .inputGenerationTracebackFile .inputsGenerationError
  taskIdField := .generateInputsTaskId

def inputsController : Process := .controller (.generateInputs 3 "chain")

/-- The request saves before the controller loads the row. -/
theorem latest_kept_request_first :
    ((published newAnalysis 100 queuedStart "start").run (body fun _ : Unit => inputsController)
        [.save none,.load (some ()),.save (some ())]).row .lookupChunks = some 3 := by
  refine latest_kept_at_dispatch (fun _ : Unit => inputsController) newAnalysis 100 queuedStart "start"
    [.save none,.load (some ()),.save (some ())] ⟨?_,trivial,?_,trivial⟩ .lookupChunks (by decide) (some 3) (by decide)
  · intro save todo _ c _ _
    split_ifs
    · exact .inr rfl
    · rfl
  · intro save todo _ c _ _
    split_ifs
    · exact .inl rfl
    · rfl

/-- The request saves when the controller has recorded its chunks and its chain, and puts
    both back. -/
theorem chunks_reverted_at_dispatch :
    ((observePublished newAnalysis 100 queuedStart "start").run (body fun _ : Unit => inputsController) writers
        [.load (some ()),.save (some ()),.save none]).latest .lookupChunks = some (some 3) ∧
      ((published newAnalysis 100 queuedStart "start").run (body fun _ : Unit => inputsController)
        [.load (some ()),.save (some ()),.save none]).row .lookupChunks = none ∧
      ((published newAnalysis 100 queuedStart "start").run (body fun _ : Unit => inputsController)
        [.load (some ()),.save (some ()),.save none]).row .generateInputsTaskId = "start" := by
  decide

end OasisPlatform.Dispatch
