import OasisPlatform.AnalysisTasks
import OasisPlatform.SubTasks

/-!
Messages of an earlier run that are processed in a later one. A task finds the rows that
it changes by the analysis and the slug, which are the same in every run, so that a late
message changes the row of the later run. It does no harm when it matches no row, or has
only the status to store that is there (`late_messages_harmless`): then the later run is
as without it.
-/
namespace OasisPlatform.RunIsolation
open OasisPlatform.SharedRow OasisPlatform.Models OasisPlatform.AnalysisTasks OasisPlatform.SubTasks
set_option linter.unusedSimpArgs false

/-- What is stored about an analysis: its row, and the sub-task rows. -/
structure Stored where
  subTasks : SubTaskTable
  row : AnalysisRow

/-- A task that runs without interruption, with its services. -/
inductive Message where
  | subTask (env : Env) (message : SubTaskMessage)
  | analysis (env : Env) (task : AnalysisTask)

/-- What happens in a run: messages of an earlier run and of its own, the controller that
    replaces the sub-task rows and saves their ids, and saves of the row by requests, the
    controller and other processes. -/
inductive Event where
  | late (message : Message)
  | own (message : Message)
  | replace (env : Env) (firstId : Nat) (tasks : List StageTask)
  | saveId (instanceRow : SubTask)
  | store (save : AnalysisSave)

def Event.isLate : Event → Bool
  | .late _ => true
  | _ => false

/-- The sub-task rows after a task. -/
def Message.onTable (table : SubTaskTable) : Message → SubTaskTable
  | .subTask env message => process env table message
  | .analysis _ _ => table

/-- The row of the analysis after a task. -/
def Message.onRow (analysis : AnalysisId) (stored : Stored) : Message → AnalysisRow
  | .subTask _ _ => stored.row
  | .analysis env task => perform env (stored.subTasks.ofAnalysis analysis) analysis stored.row task

def Event.onTable (analysis : AnalysisId) (table : SubTaskTable) : Event → SubTaskTable
  | .late message => message.onTable table
  | .own message => message.onTable table
  | .replace env firstId tasks => (replaceSubtaskStatuses env table analysis firstId tasks).getD table
  | .saveId instanceRow => (saveSubTask table instanceRow).getD table
  | .store _ => table

def Event.onRow (analysis : AnalysisId) (stored : Stored) : Event → AnalysisRow
  | .late message => message.onRow analysis stored
  | .own message => message.onRow analysis stored
  | .store save => save.apply stored.row
  | _ => stored.row

def Stored.step (analysis : AnalysisId) (stored : Stored) (event : Event) : Stored where
  subTasks := event.onTable analysis stored.subTasks
  row := event.onRow analysis stored

def Stored.run (analysis : AnalysisId) (stored : Stored) (events : List Event) : Stored :=
  events.foldl (Stored.step analysis) stored

/-- A task for sub-tasks raises before its statement, or the statement matches no row;
    `update_task_id` finds no pending row of its analysis and none of the slugs it lists. -/
def HarmlessSubTask (env : Env) (table : SubTaskTable) : SubTaskMessage → Prop
  | .updateTaskId taskUpdateList =>
    (∀ update ∈ taskUpdateList.head?, ∀ row ∈ table.rows, (queuePending update.2.1).filter row = false) ∧
      ∀ update ∈ taskUpdateList, ∀ row ∈ table.rows, ofSlug update.2.1 update.2.2 row = false
  | message => ∀ st ∈ statement env table message, ∀ row ∈ table.rows, st.filter row = false

/-- `handle_task_failure` is to be retried, or a service fails it before it saves. -/
def FailureUnsaved (env : Env) (subTasks : List SubTask) (analysis : AnalysisId) (failure : Failure) (retries : Nat)
    (row : AnalysisRow) : Prop :=
  (logsPending subTasks = true ∧ retries < failureMaxRetries) ∨ env.userExists failure.initiator = false ∨
    (∀ text ∈ failureLogs env failure.traceback (subTasks.filter fun subTask => subTask.status = .error),
      env.createFile text "text/plain" failure.initiator s!"analysis_{analysis}_worker_traceback.txt" = none) ∨
    (failure.tracebackProperty = .runTracebackFile ∧ ∃ old, row .runLogFile = some old ∧ env.deleteFile old = false)

/-- A task for the analysis does not come to its save, or the status that it stores is
    there; a cancelled analysis and one without keys keep theirs. -/
def HarmlessAnalysis (env : Env) (analysis : AnalysisId) (stored : Stored) : AnalysisTask → Prop
  | .setTaskStatusV2 taskStatus _ => stored.row .status ∈ cancelledStatuses ∨ stored.row .status = taskStatus
  | .handleTaskFailure failure retries =>
    FailureUnsaved env (stored.subTasks.ofAnalysis analysis) analysis failure retries stored.row ∨
      stored.row .status ∈ failureKeepsStatuses ∨ stored.row .status = failure.failureStatus
  | _ => False

def Harmless (analysis : AnalysisId) (stored : Stored) : Event → Prop
  | .late (.subTask env message) => HarmlessSubTask env stored.subTasks message
  | .late (.analysis env task) => HarmlessAnalysis env analysis stored task
  | _ => True

theorem assignTaskIds_unmatched (env : Env) {table : SubTaskTable} {updates : List (String × AnalysisId × String)}
    (unmatched : ∀ update ∈ updates, ∀ row ∈ table.rows, ofSlug update.2.1 update.2.2 row = false) :
    assignTaskIds env table updates = some table := by
  induction updates with
  | nil => rfl
  | cons update rest ih =>
    obtain ⟨taskId,analysis,slug⟩ := update
    have same : table.update (assignTaskId env taskId analysis slug).filter (assignTaskId env taskId analysis slug).change =
        some table :=
      update_unmatched _ (unmatched (taskId,analysis,slug) (by simp))
    simpa [assignTaskIds,same] using ih fun other member => unmatched other (by simp [member])

theorem process_harmless {env : Env} {table : SubTaskTable} {message : SubTaskMessage}
    (harmless : HarmlessSubTask env table message) : process env table message = table := by
  cases message with
  | updateTaskId updates =>
    cases updates with
    | nil => rfl
    | cons update rest =>
      obtain ⟨taskId,analysis,slug⟩ := update
      have queued : execute table (queuePending analysis) = table :=
        execute_unmatched (harmless.1 (taskId,analysis,slug) rfl)
      simp [process,updateTaskId,queued,assignTaskIds_unmatched env harmless.2]
  | _ =>
    simp only [process]
    split
    · rename_i found
      exact execute_unmatched (harmless _ found)
    · rfl

theorem handleTaskFailure_unsaved {env : Env} {subTasks : List SubTask} {analysis : AnalysisId} {failure : Failure}
    {retries : Nat} {row : AnalysisRow} (unsaved : FailureUnsaved env subTasks analysis failure retries row) :
    handleTaskFailure env subTasks analysis failure retries row = none := by
  rw [Option.eq_none_iff_forall_ne_some]
  intro save saved
  unfold handleTaskFailure at saved
  split_ifs at saved with retry
  simp only [Option.bind_eq_bind,Option.bind_eq_some_iff] at saved
  obtain ⟨text,logs,_,known,log,created,saved⟩ := saved
  rcases unsaved with retried | unknown | uncreated | ⟨run,old,present,undeleted⟩
  · simp [retried] at retry
  · simp [unknown] at known
  · rw [uncreated text logs] at created
    cases created
  · simp [run,present,undeleted] at saved

theorem perform_harmless {env : Env} {analysis : AnalysisId} {stored : Stored} {task : AnalysisTask}
    (harmless : HarmlessAnalysis env analysis stored task) :
    perform env (stored.subTasks.ofAnalysis analysis) analysis stored.row task .status = stored.row .status := by
  cases task with
  | setTaskStatusV2 taskStatus dt =>
    rw [perform_setTaskStatusV2_status]
    split_ifs with cancelled
    · rfl
    · exact (harmless.resolve_left cancelled).symm
  | handleTaskFailure failure retries =>
    rcases perform_handleTaskFailure_status env (stored.subTasks.ofAnalysis analysis) analysis stored.row failure
      retries with left | ⟨overwrites,status⟩
    · exact left
    · rcases harmless with raises | kept | same
      · simp only [perform,saves,handleTaskFailure_unsaved raises]
        rfl
      · exact absurd kept overwrites
      · rw [status,same]
  | _ => cases harmless

/-- A late message that does no harm leaves the sub-task rows and the status. -/
theorem step_harmless {analysis : AnalysisId} {stored : Stored} {message : Message}
    (harmless : Harmless analysis stored (.late message)) :
    (stored.step analysis (.late message)).subTasks = stored.subTasks ∧
      (stored.step analysis (.late message)).row .status = stored.row .status := by
  cases message with
  | subTask env message => exact ⟨process_harmless harmless,rfl⟩
  | analysis env task => exact ⟨rfl,perform_harmless harmless⟩

theorem along_append {analysis : AnalysisId} {stored : Stored} {before after : List Event}
    (along : Along (Stored.step analysis) (Harmless analysis) stored (before ++ after)) :
    Along (Stored.step analysis) (Harmless analysis) (stored.run analysis before) after := by
  induction before generalizing stored with
  | nil => exact along
  | cons event rest ih => exact ih along.2

/-- The sub-task rows change by themselves: what else is stored does not matter. -/
theorem run_subTasks (analysis : AnalysisId) (stored : Stored) (events : List Event) :
    (stored.run analysis events).subTasks = events.foldl (fun table event => event.onTable analysis table) stored.subTasks := by
  induction events generalizing stored with
  | nil => rfl
  | cons event rest ih => exact ih (stored.step analysis event)

/-- The sub-task rows are those of the run without its late messages. -/
theorem run_subTasks_erased {analysis : AnalysisId} {stored : Stored} {events : List Event}
    (along : Along (Stored.step analysis) (Harmless analysis) stored events) :
    (stored.run analysis events).subTasks =
      (stored.run analysis (events.filter fun event => !event.isLate)).subTasks := by
  induction events generalizing stored with
  | nil => rfl
  | cons event rest ih =>
    have later := ih along.2
    cases event with
    | late message =>
      have same := (step_harmless along.1).1
      change ((stored.step analysis (.late message)).run analysis rest).subTasks = _
      rw [later,run_subTasks,same,← run_subTasks]
      rfl
    | _ => exact later

/-- In every run whose late messages do no harm when they are processed, no late message
    changes a sub-task row or the status of the analysis, and the sub-task rows are those
    of the run without its late messages. -/
theorem late_messages_harmless (analysis : AnalysisId) (stored : Stored) (events : List Event)
    (along : Along (Stored.step analysis) (Harmless analysis) stored events) :
    (∀ before message after, events = before ++ .late message :: after →
      ((stored.run analysis before).step analysis (.late message)).subTasks = (stored.run analysis before).subTasks ∧
        ((stored.run analysis before).step analysis (.late message)).row .status =
          (stored.run analysis before).row .status) ∧
      (stored.run analysis events).subTasks =
        (stored.run analysis (events.filter fun event => !event.isLate)).subTasks := by
  refine ⟨?_,run_subTasks_erased along⟩
  rintro before message after rfl
  exact step_harmless (along_append along).1

/-- The rows of the first run. -/
def firstRun : Stored where
  subTasks := ⟨newRows 10 1 1 (inputsGenerationTasks "model-v2" 1),by decide +kernel⟩
  row := Function.update newAnalysis .status .inputsGenerationStarted

/-- The rows of the second run, with the slugs of the first. -/
def secondRun : Event := .replace calmEnv 8 (inputsGenerationTasks "model-v2" 1)

def lateFailure : Event :=
  .late (.subTask calmEnv (.recordSubTaskFailure 1 1 "pre-analysis-hook" "first-run-hook" "Traceback"))

/-- A message about a loss chunk, which the rows of an input generation do not have. -/
def lateChunk : Event :=
  .late (.subTask calmEnv (.recordSubTaskSuccess 1 1 "generate-losses-chunk-0" "first-run-chunk" none none))

/-- A late message about a slug that the second run does not have. -/
theorem late_chunk_harmless :
    (firstRun.run 1 [secondRun,lateChunk]).subTasks = (firstRun.run 1 [secondRun]).subTasks := by
  refine (late_messages_harmless 1 firstRun [secondRun,lateChunk] ⟨trivial,?_,trivial⟩).2
  intro st found
  cases found
  decide +kernel

/-- The hook's row, by what a late message may change. -/
def hookRow (stored : Stored) : List (Nat × TaskStatus × String) :=
  (stored.subTasks.rows.filter (ofSlug 1 "pre-analysis-hook")).map fun row => (row.id,row.status,row.taskId)

def lateStatus : Event := .late (.analysis calmEnv (.setTaskStatusV2 .inputsGenerationNoKeys 90))

/-- A late failure of the first run makes a sub-task of the second one fail, and a late
    notification changes the status of the analysis. -/
theorem late_messages_harm :
    hookRow (firstRun.run 1 [secondRun]) = [(9,.pending,"")] ∧
      hookRow (firstRun.run 1 [secondRun,lateFailure]) = [(9,.error,"first-run-hook")] ∧
      (firstRun.run 1 [secondRun]).row .status = .inputsGenerationStarted ∧
      (firstRun.run 1 [secondRun,lateStatus]).row .status = .inputsGenerationNoKeys := by
  decide +kernel

end OasisPlatform.RunIsolation
