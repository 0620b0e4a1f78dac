import OasisPlatform.Models
import Mathlib.Data.List.Sort

/-!
The tasks that change sub-task rows, and what the task controller does with them. Most
tasks are one `UPDATE` of the rows of an analysis with some slug (`statement`), so that
a row that a run no longer has is not changed, and a row of the same slug of a later run
is.
-/
namespace OasisPlatform.SubTasks
open OasisPlatform.Models
set_option linter.unusedSimpArgs false

/-- `AnalysisTaskStatus.objects.filter(...).update(...)`. -/
structure Statement where
  filter : SubTask → Bool
  change : SubTask → SubTask

/-- The start of a sub-task makes only a queued one a started one. -/
def recordSubTaskStart (env : Env) (analysis : AnalysisId) (slug taskId : String) (dt : Option Time) : Statement where
  filter := ofSlug analysis slug
  change := fun row =>
    { row with
      taskId := taskId
      startTime := row.startTime <|> some (dt.getD env.now)
      status := if row.status = .queued then .started else row.status }

/-- A log that is stored when there is a location, and raises when it cannot be. -/
def storeLog (env : Env) (location : Option String) (initiator : UserId) (filename : String) : Option (Option FileId) :=
  match location with
  | none => some none
  | some _ => env.store location "text/plain" initiator filename

def recordSubTaskSuccess (env : Env) (analysis : AnalysisId) (initiator : UserId) (slug taskId : String)
    (logLocation errorLocation : Option String) : Option Statement := do
  guard (env.userExists initiator)
  let outputLog ← storeLog env logLocation initiator s!"{taskId}-output.log"
  let errorLog ← storeLog env errorLocation initiator s!"{taskId}-error.log"
  some {
    filter := ofSlug analysis slug
    change := fun row =>
      { row with
        taskId := taskId
        status := .completed
        endTime := some env.now
        outputLog := outputLog
        errorLog := errorLog } }

def setSubtaskStatus (env : Env) (analysis : AnalysisId) (initiator : UserId) (slug : String)
    (subtaskStatus : TaskStatus) (errorMsg requestId : String) : Option Statement := do
  let errorLog ← env.createFile errorMsg "text/plain" initiator s!"{requestId}-error.log"
  some {
    filter := ofSlug analysis slug
    change := fun row => { row with status := subtaskStatus, endTime := some env.now, errorLog := some errorLog } }

def recordSubTaskFailure (env : Env) (analysis : AnalysisId) (initiator : UserId) (slug taskId traceback : String) :
    Option Statement := do
  let errorLog ← env.createFile traceback "text/plain" initiator s!"{taskId}-error.log"
  some {
    filter := ofSlug analysis slug
    change := fun row =>
      { row with taskId := taskId, status := .error, endTime := some env.now, errorLog := some errorLog } }

def chordErrorCallback (env : Env) (analysis : AnalysisId) : Statement where
  filter := fun row => row.analysis = analysis ∧ row.status ∈ [.queued,.started]
  change := fun row => { row with status := .cancelled, endTime := some env.now }

def cancelSubtasks (env : Env) (analysis : AnalysisId) : Statement where
  filter := fun row => row.analysis = analysis ∧ row.status ∈ [.pending,.queued,.started]
  change := fun row => { row with status := .cancelled, endTime := some env.now }

def markTaskAsQueued (analysis : AnalysisId) (slug taskId : String) (dt : Time) : Statement where
  filter := ofSlug analysis slug
  change := fun row => { row with taskId := taskId, status := .queued, queueTime := some dt }

def subtaskErrorLog (env : Env) (analysis : AnalysisId) (initiator : UserId) (slug taskId : String)
    (logFile : Option String) : Option Statement := do
  guard (env.userExists initiator)
  let outputLog ← env.store logFile "text/plain" initiator s!"{taskId}-output.log"
  some { filter := ofSlug analysis slug, change := fun row => { row with outputLog := outputLog } }

/-- The text of the retry log so far. -/
def retryText (env : Env) (row : SubTask) : Option String :=
  match row.retryLog with
  | none => some ""
  | some log =>
    match env.readFile log with
    | .ok content => some content
    | .error _ => none

def subtaskRetryLog (env : Env) (table : SubTaskTable) (analysis : AnalysisId) (initiator : UserId)
    (slug taskId errorTrace : String) : Option Statement := do
  let row ← table.rows.find? (ofSlug analysis slug)
  let text ← retryText env row
  let retryLog ← env.createFile (text ++ s!"\n=== {slug}, try={row.retryCount}  ===\n" ++ errorTrace) "text/plain"
    initiator s!"{taskId}-retry.log"
  some {
    filter := fun other => other.id = row.id
    change := fun other => { other with retryCount := row.retryCount + 1, retryLog := some retryLog } }

inductive SubTaskMessage where
  | recordSubTaskStart (analysis : AnalysisId) (slug taskId : String) (dt : Option Time)
  | recordSubTaskSuccess (analysis : AnalysisId) (initiator : UserId) (slug parentId : String)
    (logLocation errorLocation : Option String)
  | setSubtaskStatus (analysis : AnalysisId) (initiator : UserId) (slug : String) (subtaskStatus : TaskStatus)
    (errorMsg requestId : String)
  | recordSubTaskFailure (analysis : AnalysisId) (initiator : UserId) (slug parentId traceback : String)
  | chordErrorCallback (analysis : AnalysisId)
  | cancelSubtasks (analysis : AnalysisId)
  | markTaskAsQueued (analysis : AnalysisId) (slug taskId : String) (dt : Time)
  | subtaskErrorLog (analysis : AnalysisId) (initiator : UserId) (slug taskId : String) (logFile : Option String)
  | subtaskRetryLog (analysis : AnalysisId) (initiator : UserId) (slug taskId errorTrace : String)
  | updateTaskId (taskUpdateList : List (String × AnalysisId × String))

/-- The statement of a task, none where it raises before or has more than one. -/
def statement (env : Env) (table : SubTaskTable) : SubTaskMessage → Option Statement
  | .recordSubTaskStart analysis slug taskId dt => some (recordSubTaskStart env analysis slug taskId dt)
  | .recordSubTaskSuccess analysis initiator slug parentId logLocation errorLocation =>
    recordSubTaskSuccess env analysis initiator slug parentId logLocation errorLocation
  | .setSubtaskStatus analysis initiator slug subtaskStatus errorMsg requestId =>
    setSubtaskStatus env analysis initiator slug subtaskStatus errorMsg requestId
  | .recordSubTaskFailure analysis initiator slug parentId traceback =>
    recordSubTaskFailure env analysis initiator slug parentId traceback
  | .chordErrorCallback analysis => some (chordErrorCallback env analysis)
  | .cancelSubtasks analysis => some (cancelSubtasks env analysis)
  | .markTaskAsQueued analysis slug taskId dt => some (markTaskAsQueued analysis slug taskId dt)
  | .subtaskErrorLog analysis initiator slug taskId logFile => subtaskErrorLog env analysis initiator slug taskId logFile
  | .subtaskRetryLog analysis initiator slug taskId errorTrace =>
    subtaskRetryLog env table analysis initiator slug taskId errorTrace
  | .updateTaskId _ => none

/-- A statement that a constraint refuses leaves the table. -/
def execute (table : SubTaskTable) (statement : Statement) : SubTaskTable :=
  (table.update statement.filter statement.change).getD table

/-- The first statement of `update_task_id`: all pending rows are queued. -/
def queuePending (analysis : AnalysisId) : Statement where
  filter := fun row => row.analysis = analysis ∧ row.status = .pending
  change := fun row => { row with status := .queued }

/-- One statement of its transaction. -/
def assignTaskId (env : Env) (taskId : String) (analysis : AnalysisId) (slug : String) : Statement where
  filter := ofSlug analysis slug
  change := fun row => { row with taskId := taskId, queueTime := some env.now }

def assignTaskIds (env : Env) : SubTaskTable → List (String × AnalysisId × String) → Option SubTaskTable
  | table,[] => some table
  | table,(taskId,analysis,slug) :: rest => do
    let assign := assignTaskId env taskId analysis slug
    let table ← table.update assign.filter assign.change
    assignTaskIds env table rest

/-- The transaction is undone when one of its statements is refused; the statement before
    it is not. -/
def updateTaskId (env : Env) (table : SubTaskTable) (taskUpdateList : List (String × AnalysisId × String)) :
    SubTaskTable :=
  match taskUpdateList with
  | [] => table
  | (_,analysis,_) :: _ =>
    let queued := execute table (queuePending analysis)
    (assignTaskIds env queued taskUpdateList).getD queued

/-- The table after a task. -/
def process (env : Env) (table : SubTaskTable) (message : SubTaskMessage) : SubTaskTable :=
  match message with
  | .updateTaskId taskUpdateList => updateTaskId env table taskUpdateList
  | _ =>
    match statement env table message with
    | some statement => execute table statement
    | none => table

/-- A sub-task of a stage: its status row before it has an id. -/
structure StageTask where
  name : String
  slug : String
  queueName : String
  deriving DecidableEq, Repr

/-- The sub-tasks of a chord header, numbered from zero. -/
def chunkTasks (name slug queue : String) (numChunks : Nat) : List StageTask :=
  (List.range numChunks).map fun idx => ⟨s!"{name} {idx}",s!"{slug}-{idx}",queue⟩

def inputsGenerationTasks (queue : String) (numChunks : Nat) : List StageTask :=
  [⟨"Prepare input generation params","prepare-input-generation-params",queue⟩,
    ⟨"Pre analysis hook","pre-analysis-hook",queue⟩] ++
  chunkTasks "Prepare keys file" "prepare-keys-file" queue numChunks ++
  [⟨"Collect keys","collect-keys",queue⟩,⟨"Write input files","write-input-files",queue⟩,
    ⟨"Record input files","record-input-files","celery-v2"⟩,
    ⟨"Cleanup input generation","cleanup-input-generation",queue⟩]

def lossGenerationTasks (queue : String) (numChunks : Nat) : List StageTask :=
  [⟨"Prepare losses generation params","prepare-losses-generation-params",queue⟩,
    ⟨"Prepare losses generation directory","prepare-losses-generation-directory",queue⟩] ++
  chunkTasks "Generate losses chunk" "generate-losses-chunk" queue numChunks ++
  [⟨"Generate losses output","generate-losses-output",queue⟩,
    ⟨"Record losses files","record-losses-files","celery-v2"⟩,
    ⟨"Cleanup losses generation","cleanup-losses-generation",queue⟩]

/-- New rows, pending and with the ids from `firstId` on. -/
def newRows (now : Time) (analysis : AnalysisId) (firstId : Nat) (tasks : List StageTask) : List SubTask :=
  tasks.mapIdx fun i task =>
    { id := firstId + i, analysis := analysis, queueName := task.queueName, name := task.name, slug := task.slug,
      pendingTime := some now }

/-- `_replace_subtask_statuses`: the rows of earlier runs are deleted first. -/
def replaceSubtaskStatuses (env : Env) (table : SubTaskTable) (analysis : AnalysisId) (firstId : Nat)
    (tasks : List StageTask) : Option SubTaskTable :=
  table.write ((table.rows.filter fun row => row.analysis ≠ analysis) ++ newRows env.now analysis firstId tasks)

/-- The instances that `_record_subtask_ids` will save: all rows as they are read, each
    with the next id from the end of the list, until there are no more ids. -/
def subtaskIds (table : SubTaskTable) (analysis : AnalysisId) (celeryTasksList : List String) : List SubTask :=
  List.zipWith (fun row taskId => { row with taskId := taskId }) (table.ofAnalysis analysis) celeryTasksList.reverse

/-- `sub_t.save()` stores every column of the instance, and inserts a row that is gone. -/
def saveSubTask (table : SubTaskTable) (instanceRow : SubTask) : Option SubTaskTable :=
  if table.rows.any fun row => row.id = instanceRow.id then
    table.write (table.rows.map fun row => if row.id = instanceRow.id then instanceRow else row)
  else table.write (table.rows.orderedInsert (fun a b => a.id ≤ b.id) instanceRow)

theorem execute_rows (table : SubTaskTable) (statement : Statement) :
    (execute table statement).rows = table.rows ∨
      (execute table statement).rows =
        table.rows.map fun row => if statement.filter row then statement.change row else row := by
  unfold execute
  cases updated : table.update statement.filter statement.change with
  | none => exact .inl rfl
  | some table' => exact .inr (update_rows updated)

/-- A statement that matches no row changes nothing. -/
theorem execute_unmatched {table : SubTaskTable} {statement : Statement}
    (unmatched : ∀ row ∈ table.rows, statement.filter row = false) : execute table statement = table := by
  rw [execute,update_unmatched _ unmatched]
  rfl

theorem process_statement {env : Env} {table : SubTaskTable} {message : SubTaskMessage} {st : Statement}
    (has : statement env table message = some st) : process env table message = execute table st := by
  cases message with
  | updateTaskId taskUpdateList => cases has
  | _ => simp [process,has]

/-- A task of one statement, which may raise before it. -/
theorem process_optional {env : Env} {table : SubTaskTable} {message : SubTaskMessage}
    (single : ∀ updates, message ≠ .updateTaskId updates) :
    process env table message = ((statement env table message).map (execute table)).getD table := by
  cases message with
  | updateTaskId taskUpdateList => exact absurd rfl (single taskUpdateList)
  | _ =>
    simp only [process]
    split <;> simp_all

theorem process_raises {env : Env} {table : SubTaskTable} {message : SubTaskMessage}
    (raises : statement env table message = none) (single : ∀ updates, message ≠ .updateTaskId updates) :
    process env table message = table := by
  rw [process_optional single,raises]
  rfl

end OasisPlatform.SubTasks
