import OasisPlatform.Dispatch

/-!
From the inputs to the losses of an analysis that `generate_and_run` has started. While
the stages run, the status is one from which no second start is accepted;
`record_input_files`, between the stages, stores `READY` whatever status it is told to
leave, and the message that a lookup found no keys stores a status from which inputs may
be generated again. Without these two, the analysis stays in progress
(`in_progress_through_stages`).
-/
namespace OasisPlatform.HandOver
open OasisPlatform.SharedRow OasisPlatform.Models OasisPlatform.AnalysisTasks OasisPlatform.Starting
open OasisPlatform.Dispatch
set_option linter.unusedSimpArgs false

/-- A status of an analysis that is queued or running. -/
def InProgress (status : AnalysisStatus) : Prop :=
  status ∉ runValidStatuses ∧ status ∉ inputsGenerationValidStatuses

instance (status : AnalysisStatus) : Decidable (InProgress status) := inferInstanceAs (Decidable (_ ∧ _))

theorem inProgress_iff (status : AnalysisStatus) : InProgress status ↔ status ∉ inputsGenerationValidStatuses := by
  constructor
  · exact fun progress => progress.2
  · exact fun invalid => ⟨fun valid => invalid (runValid_inputsGenerationValid valid),invalid⟩

/-- The processes of the run that leave it in progress: the controller, notifications of a
    stage that has started, and what records no status. -/
def keepsProgress : Process → Bool
  | .controller _ => true
  | .worker job =>
    match job.task with
    | .setTaskStatusV2 taskStatus _ => InProgress taskStatus
    | .recordInputErrorFiles .. => true
    | .recordLossesErrorFiles .. => true
    | _ => false

theorem keepsProgress_checks {process : Process} (keeps : keepsProgress process = true) :
    Checks (ν := ColumnType) process.body .status InProgress := by
  intro row _ save saved written
  cases process with
  | controller task =>
    rw [controllerSaves_status saved] at written
    cases written
  | worker job =>
    obtain ⟨env,subTasks,analysis,task⟩ := job
    cases task with
    | setTaskStatusV2 taskStatus dt =>
      rw [(setTaskStatusV2_saves saved).2.1]
      simpa [keepsProgress] using keeps
    | recordInputErrorFiles initiator output errors =>
      rw [recordInputErrorFiles_status (Option.mem_toList.mp saved)] at written
      cases written
    | recordLossesErrorFiles initiator output logs =>
      rw [recordLossesErrorFiles_status (Option.mem_toList.mp saved)] at written
      cases written
    | _ => cases keeps

variable {ρ : Type} [DecidableEq ρ]

/-- A step that saves the status only for such a process, or for the request. -/
def KeepsProgress (process : ρ → Process) (system : System (Option ρ) ColumnType) : Action (Option ρ) → Prop
  | .save (some r) => keepsProgress (process r) = true ∨
      ∀ save todo, system.phase (some r) = .running (save :: todo) → save.writes .status = false
  | _ => True

theorem generateAndRun_inProgress {ctx : StartContext} {analysis : Analysis} {started : Start}
    (accepted : generateAndRun ctx analysis = .ok started) : InProgress (started.queued.values .status) := by
  have same : start ctx .generateAndRun analysis = .ok started := accepted
  exact (inProgress_iff _).mpr (start_status same).2

/-- Through every interleaving of the last save of `generate_and_run` with the loads and
    saves of the controller and of the workers, the status is in progress as long as it
    is saved only by processes that keep it so; and `record_input_files` leaves the
    status that it is told to leave exactly when that is `READY`. -/
theorem in_progress_through_stages {ctx : StartContext} {analysis : Analysis} {started : Start}
    (accepted : generateAndRun ctx analysis = .ok started) (process : ρ → Process) (row : AnalysisRow) (now : Time)
    (taskId : String) (actions : List (Action (Option ρ)))
    (kept : Along (System.step (body process)) (KeepsProgress process) (published row now started taskId) actions) :
    InProgress (((published row now started taskId).run (body process) actions).row .status) ∧
      ∀ env subTasks analysisId result initiator told row save,
        recordInputFiles env subTasks analysisId result initiator told row = some save →
        (save.apply row .status = told ↔ told = .ready) := by
  have queued := generateAndRun_inProgress accepted
  constructor
  · refine run_column_kept (ν := ColumnType) (c := .status) (P := InProgress) (fun _ => False) ?_ ?_ ?_
    · rw [published_row]
      exact queued
    · intro p todo _ running save member _
      cases p with
      | some r => cases running
      | none =>
        cases running
        rw [List.mem_singleton.mp member,recordDispatch_status]
        exact queued
    · apply kept.imp
      intro system action condition
      cases action with
      | load p => trivial
      | save p =>
        cases p with
        | none =>
          left
          refine ⟨id,?_⟩
          intro row _ save saved
          cases saved
        | some r =>
          rcases condition with keeps | untouched
          · exact .inl ⟨id,keepsProgress_checks keeps⟩
          · exact .inr untouched
  · intro env subTasks analysisId result initiator told row save saved
    obtain ⟨full,ready,_⟩ := recordInputFiles_saves saved
    have stored : save.apply row .status = .ready := by
      rw [Save.apply_writes (by simp [Save.writes,full]),ready]
    rw [stored]
    exact eq_comm

def stagedAnalysis : AnalysisRow := Function.update newAnalysis .settingsFile (some 7)

def stagedStart : Start where
  queued := resetLossProgress (resetInputGeneration (load stagedAnalysis))
  runMode := .v2
  task := .startInputAndLossGenerationTask (some 10) none
  onError := .handleTaskFailure .inputGenerationTracebackFile .inputsGenerationError
  taskIdField := .generateInputsTaskId

theorem stagedStart_accepted : generateAndRun locationContext (load stagedAnalysis) = .ok stagedStart := rfl

/-- The first stage has started. -/
def startedJob : Job := ⟨calmEnv,[],1,.setTaskStatusV2 .inputsGenerationStarted 90⟩

theorem in_progress_first_stage :
    InProgress (((published stagedAnalysis 100 stagedStart "start").run (body fun _ : Unit => .worker startedJob)
      [.load (some ()),.save (some ()),.save none]).row .status) :=
  (in_progress_through_stages stagedStart_accepted (fun _ : Unit => .worker startedJob) stagedAnalysis 100 "start"
    [.load (some ()),.save (some ()),.save none] ⟨trivial,.inl (by decide),trivial,trivial⟩).1

/-- The end of the first stage, which is told to leave the run as started. -/
def inputFilesJob : Job :=
  ⟨calmEnv,[],1,.recordInputFiles
    ⟨some "inputs.tar.gz",some "errors.csv",some "map.csv",some "report.json",some "levels.json",none⟩ 1 .runStarted⟩

/-- `record_input_files` makes the analysis ready for a second run. -/
theorem ready_between_stages :
    generateAndRun locationContext (load stagedAnalysis) = .ok stagedStart ∧
      ((published stagedAnalysis 100 stagedStart "start").run (body fun _ : Unit => .worker inputFilesJob)
        [.save none,.load (some ()),.save (some ())]).row .status = .ready ∧
      .ready ∈ runValidStatuses := by
  refine ⟨rfl,?_⟩
  decide +kernel

end OasisPlatform.HandOver
