import OasisPlatform.AnalysisTasks

/-!
Cancelling an analysis while tasks of its run are in flight. `set_task_status_v2` and
`handle_task_failure` look whether the analysis is cancelled before they change its
status; the tasks that record results, and the V1 tasks, do not, and neither does a
task that loaded the row before it was cancelled. The status stays cancelled when only
tasks that check it save it (`cancelled_kept`).
-/
namespace OasisPlatform.Cancellation
open OasisPlatform.SharedRow OasisPlatform.Models OasisPlatform.AnalysisTasks
set_option linter.unusedSimpArgs false

def cancelAnalysis (env : Env) (analysis : Analysis) : Except ValidationErrors AnalysisSave :=
  if analysis.values .status ∉ [.runQueued,.runStarted] then
    .error [("status","Analysis execution is not running or queued")]
  else .ok (Analysis.save (((analysis.set .status .runCancelled).set .runMode none).set .taskFinished (some env.now)))

def cancelGenerateInputs (env : Env) (analysis : Analysis) : Except ValidationErrors AnalysisSave :=
  if analysis.values .status ∉ [.inputsGenerationQueued,.inputsGenerationStarted] then
    .error [("status","Analysis input generation is not running or queued")]
  else .ok (Analysis.save (((analysis.set .status .inputsGenerationCancelled).set .runMode none).set
    .taskFinished (some env.now)))

def cancelAny (env : Env) (analysis : Analysis) : Except ValidationErrors AnalysisSave :=
  if analysis.values .status ∈ [.inputsGenerationQueued,.inputsGenerationStarted] then cancelGenerateInputs env analysis
  else if analysis.values .status ∈ [.runQueued,.runStarted] then cancelAnalysis env analysis
  else .error [("status","Analysis is not running or queued")]

/-- The saves that commit a cancellation. -/
inductive Cancels : AnalysisSave → Prop where
  | analysis (env : Env) (row : AnalysisRow) {save : AnalysisSave} : cancelAnalysis env (load row) = .ok save → Cancels save
  | generateInputs (env : Env) (row : AnalysisRow) {save : AnalysisSave} :
    cancelGenerateInputs env (load row) = .ok save → Cancels save

/-- A cancellation is committed with one of the two cancelled statuses. -/
theorem Cancels.status {save : AnalysisSave} (cancels : Cancels save) :
    save.writes .status = true ∧ save.loaded.values .status ∈ cancelledStatuses := by
  cases cancels with
  | analysis env row cancelled =>
    unfold cancelAnalysis at cancelled
    split_ifs at cancelled
    cases cancelled
    refine ⟨rfl,?_⟩
    simp [cancelledStatuses]
  | generateInputs env row cancelled =>
    unfold cancelGenerateInputs at cancelled
    split_ifs at cancelled
    cases cancelled
    refine ⟨rfl,?_⟩
    simp [cancelledStatuses]

/-- The tasks that check for a cancelled analysis, or save no status. -/
def checksCancelled : AnalysisTask → Bool
  | .setTaskStatusV2 .. => true
  | .handleTaskFailure .. => true
  | .recordInputErrorFiles .. => true
  | .recordLossesErrorFiles .. => true
  | _ => false

/-- A task that checks for a cancelled analysis leaves its status. -/
theorem checksCancelled_checks {job : Job} (checks : checksCancelled job.task) {cancelled : AnalysisStatus}
    (listed : cancelled ∈ cancelledStatuses) : Checks (ν := ColumnType) job.body .status (· = cancelled) := by
  intro row stored save saved written
  obtain ⟨env,subTasks,analysis,task⟩ := job
  cases task with
  | setTaskStatusV2 taskStatus dt =>
    have notCancelled := (setTaskStatusV2_saves saved).1
    rw [stored] at notCancelled
    exact absurd listed notCancelled
  | handleTaskFailure failure retries =>
    have status := (handleTaskFailure_saves (Option.mem_toList.mp saved)).2.1
    have kept : cancelled ∈ failureKeepsStatuses := by
      simp only [cancelledStatuses,List.mem_cons,List.not_mem_nil,or_false] at listed
      rcases listed with rfl | rfl <;> decide
    rw [status,show row .status = cancelled from stored,if_pos kept]
  | recordInputErrorFiles initiator output errors =>
    rw [recordInputErrorFiles_status (Option.mem_toList.mp saved)] at written
    cases written
  | recordLossesErrorFiles initiator output logs =>
    rw [recordLossesErrorFiles_status (Option.mem_toList.mp saved)] at written
    cases written
  | _ => cases checks

/-- A step of the tasks in flight saves the status only for a task that checks for a
    cancelled analysis and loaded the row after the cancellation. -/
def SavesStatusChecked {π : Type} (job : π → Job) (loadedBefore : π → Prop) (system : System π ColumnType) :
    Action π → Prop
  | .load _ => True
  | .save p => (¬ loadedBefore p ∧ checksCancelled (job p).task) ∨
      ∀ save todo, system.phase p = .running (save :: todo) → save.writes .status = false

/-- Once a cancellation is committed, the status stays cancelled through every
    interleaving of the loads and saves of tasks in flight, some of them already under
    way, in which the status is saved only by tasks that check it. -/
theorem cancelled_kept {π : Type} [DecidableEq π] (job : π → Job) {cancel : AnalysisSave} (cancels : Cancels cancel)
    (before : System π ColumnType) (actions : List (Action π))
    (checked : Along (System.step fun p => (job p).body)
      (SavesStatusChecked job fun p => before.phase p ≠ .waiting)
      { before with row := cancel.apply before.row } actions) :
    (System.run (fun p => (job p).body) { before with row := cancel.apply before.row } actions).row .status =
        cancel.loaded.values .status ∧
      cancel.loaded.values .status ∈ cancelledStatuses := by
  obtain ⟨written,listed⟩ := cancels.status
  refine ⟨?_,listed⟩
  refine run_column_kept (P := (· = cancel.loaded.values .status)) (fun p => before.phase p ≠ .waiting)
    (Save.apply_writes written _) ?_ ?_
  · intro p todo fresh (running : before.phase p = .running todo)
    rw [not_not.mp fresh] at running
    cases running
  · apply checked.imp
    intro system action condition
    cases action with
    | load p => trivial
    | save p =>
      rcases condition with ⟨fresh,checks⟩ | untouched
      · exact .inl ⟨fresh,checksCancelled_checks checks listed⟩
      · exact .inr untouched

def runningAnalysis : AnalysisRow := Function.update newAnalysis .status .runStarted

def lossesJob : Job := ⟨calmEnv,[],1,.recordLossesFiles ⟨none,some "output.tar.gz"⟩ 1⟩

def statusJob : Job := ⟨calmEnv,[],1,.setTaskStatusV2 .runStarted 90⟩

def cancelRun : AnalysisSave :=
  Analysis.save ((((load runningAnalysis).set .status .runCancelled).set .runMode none).set .taskFinished (some 100))

theorem cancelRun_cancels : Cancels cancelRun := .analysis calmEnv runningAnalysis rfl

/-- A late notification does not change a cancelled analysis. -/
theorem cancelled_kept_notification :
    (System.run (fun _ : Unit => statusJob.body) ⟨cancelRun.apply runningAnalysis,fun _ => .waiting⟩
        [.load (),.save ()]).row .status = .runCancelled :=
  (cancelled_kept (fun _ : Unit => statusJob) cancelRun_cancels ⟨runningAnalysis,fun _ => .waiting⟩ [.load (),.save ()]
    ⟨trivial,.inl ⟨by simp,rfl⟩,trivial⟩).1

/-- `record_losses_files` completes a cancelled run. -/
theorem cancelled_overwritten_by_losses :
    Cancels cancelRun ∧ (cancelRun.apply runningAnalysis) .status = .runCancelled ∧
      (System.run (fun _ : Unit => lossesJob.body) ⟨cancelRun.apply runningAnalysis,fun _ => .waiting⟩
        [.load (),.save ()]).row .status = .runCompleted := by
  refine ⟨cancelRun_cancels,rfl,?_⟩
  decide

end OasisPlatform.Cancellation
