import OasisPlatform.SharedRow
import OasisPlatform.UrlText

/-!
The tables of analyses and of their sub-tasks. A row of the analyses table is a
`SharedRow` by column, so that saving an instance with and without `update_fields`
is the general `Save`; sub-task rows are changed by single statements, which the
constraints of the table may refuse (`SubTaskTable.update`).
-/
namespace OasisPlatform.Models
open OasisPlatform.SharedRow
set_option linter.unusedSimpArgs false

inductive AnalysisStatus where
  | new
  | inputsGenerationError
  | inputsGenerationNoKeys
  | inputsGenerationCancelled
  | inputsGenerationStarted
  | inputsGenerationQueued
  | ready
  | runQueued
  | runStarted
  | runCompleted
  | runCancelled
  | runError
  deriving DecidableEq, Repr

instance : LawfulBEq AnalysisStatus := inferInstance

inductive RunMode where
  | v1
  | v2
  deriving DecidableEq, Repr

/-- `INPUTS_GENERATION_VALID_STATUSES`: where inputs may be generated from. -/
def inputsGenerationValidStatuses : List AnalysisStatus :=
  [.new,.inputsGenerationError,.inputsGenerationNoKeys,.inputsGenerationCancelled,.ready,.runCompleted,.runCancelled,
    .runError]

/-- `RUN_VALID_STATUSES`: where a run may be started from. -/
def runValidStatuses : List AnalysisStatus := [.ready,.runCompleted,.runError,.runCancelled]

def cancelledStatuses : List AnalysisStatus := [.inputsGenerationCancelled,.runCancelled]

/-- Times in seconds, and keys of related files and users. -/
abbrev Time := Nat
abbrev FileId := Nat
abbrev UserId := Nat
abbrev AnalysisId := Nat

/-- The columns of the analyses table that tasks read or write. -/
inductive Column where
  | status
  | runMode
  | taskStarted
  | taskFinished
  | runTaskId
  | generateInputsTaskId
  | settingsFile
  | inputFile
  | inputGenerationTracebackFile
  | outputFile
  | runTracebackFile
  | runLogFile
  | analysisChunks
  | lookupChunks
  | priority
  | lookupErrorsFile
  | lookupSuccessFile
  | lookupValidationFile
  | summaryLevelsFile
  | numEventsTotal
  | numEventsComplete
  deriving DecidableEq, Repr

abbrev ColumnType : Column → Type
  | .status => AnalysisStatus
  | .runMode => Option RunMode
  | .taskStarted => Option Time
  | .taskFinished => Option Time
  | .runTaskId => String
  | .generateInputsTaskId => String
  | .settingsFile => Option FileId
  | .inputFile => Option FileId
  | .inputGenerationTracebackFile => Option FileId
  | .outputFile => Option FileId
  | .runTracebackFile => Option FileId
  | .runLogFile => Option FileId
  | .analysisChunks => Option Nat
  | .lookupChunks => Option Nat
  | .priority => Nat
  | .lookupErrorsFile => Option FileId
  | .lookupSuccessFile => Option FileId
  | .lookupValidationFile => Option FileId
  | .summaryLevelsFile => Option FileId
  | .numEventsTotal => Int
  | .numEventsComplete => Int

instance : (c : Column) → DecidableEq (ColumnType c)
  | .status => inferInstanceAs (DecidableEq AnalysisStatus)
  | .runMode => inferInstanceAs (DecidableEq (Option RunMode))
  | .taskStarted | .taskFinished => inferInstanceAs (DecidableEq (Option Time))
  | .runTaskId | .generateInputsTaskId => inferInstanceAs (DecidableEq String)
  | .settingsFile | .inputFile | .inputGenerationTracebackFile | .outputFile | .runTracebackFile | .runLogFile
  | .lookupErrorsFile | .lookupSuccessFile | .lookupValidationFile | .summaryLevelsFile =>
    inferInstanceAs (DecidableEq (Option FileId))
  | .analysisChunks | .lookupChunks => inferInstanceAs (DecidableEq (Option Nat))
  | .priority => inferInstanceAs (DecidableEq Nat)
  | .numEventsTotal | .numEventsComplete => inferInstanceAs (DecidableEq Int)

abbrev AnalysisRow := Row ColumnType

abbrev Analysis := Loaded ColumnType

abbrev AnalysisSave := Save ColumnType

/-- `analysis.save()`. -/
def Analysis.save (analysis : Analysis) : AnalysisSave := ⟨none,analysis⟩

/-- `analysis.save(update_fields=fields)`. -/
def Analysis.saveFields (analysis : Analysis) (fields : List Column) : AnalysisSave := ⟨some fields,analysis⟩

def newAnalysis : AnalysisRow
  | .status => .new
  | .runMode => none
  | .taskStarted => none
  | .taskFinished => none
  | .runTaskId => ""
  | .generateInputsTaskId => ""
  | .settingsFile => none
  | .inputFile => none
  | .inputGenerationTracebackFile => none
  | .outputFile => none
  | .runTracebackFile => none
  | .runLogFile => none
  | .analysisChunks => none
  | .lookupChunks => none
  | .priority => 4
  | .lookupErrorsFile => none
  | .lookupSuccessFile => none
  | .lookupValidationFile => none
  | .summaryLevelsFile => none
  | .numEventsTotal => 0
  | .numEventsComplete => 0

@[simp] theorem save_writes (analysis : Analysis) (c : Column) : (Analysis.save analysis).writes c = true := rfl

@[simp] theorem saveFields_writes (analysis : Analysis) (fields : List Column) (c : Column) :
    (Analysis.saveFields analysis fields).writes c = decide (c ∈ fields) := rfl

@[simp] theorem save_loaded (analysis : Analysis) : (Analysis.save analysis).loaded = analysis := rfl

@[simp] theorem saveFields_loaded (analysis : Analysis) (fields : List Column) :
    (Analysis.saveFields analysis fields).loaded = analysis := rfl

/-- The fields of a `ValidationError` with what is wrong with them. -/
abbrev ValidationErrors := List (String × String)

inductive TaskStatus where
  | pending
  | queued
  | started
  | completed
  | cancelled
  | error
  deriving DecidableEq, Repr

/-- A sub-task that will not run any more. -/
def TaskStatus.terminal : TaskStatus → Bool
  | .completed | .cancelled | .error => true
  | .pending | .queued | .started => false

structure SubTask where
  id : Nat
  analysis : AnalysisId
  queueName : String
  taskId : String := ""
  status : TaskStatus := .pending
  pendingTime : Option Time := none
  queueTime : Option Time := none
  startTime : Option Time := none
  endTime : Option Time := none
  name : String
  slug : String
  retryCount : Nat := 0
  outputLog : Option FileId := none
  errorLog : Option FileId := none
  retryLog : Option FileId := none
  deriving DecidableEq, Repr

/-- The constraints of the table: the primary key, `unique_together` of the analysis
    and the slug, and `unique_task_id` for task ids that are not empty. -/
def ValidRows (rows : List SubTask) : Prop :=
  (rows.map SubTask.id).Nodup ∧ (rows.map fun row => (row.analysis,row.slug)).Nodup ∧
    ((rows.map SubTask.taskId).filter (· ≠ "")).Nodup

instance (rows : List SubTask) : Decidable (ValidRows rows) :=
  inferInstanceAs (Decidable (_ ∧ _ ∧ _))

/-- The sub-task rows, in the order of their ids. -/
structure SubTaskTable where
  rows : List SubTask
  valid : ValidRows rows

/-- The rows that a statement leaves, none where a constraint refuses it
    (`IntegrityError`). -/
def SubTaskTable.write (_table : SubTaskTable) (rows : List SubTask) : Option SubTaskTable :=
  if valid : ValidRows rows then some ⟨rows,valid⟩ else none

/-- `QuerySet.filter(...).update(...)`. -/
def SubTaskTable.update (table : SubTaskTable) (filter : SubTask → Bool) (change : SubTask → SubTask) :
    Option SubTaskTable :=
  table.write (table.rows.map fun row => if filter row then change row else row)

def ofSlug (analysis : AnalysisId) (slug : String) (row : SubTask) : Bool := row.analysis = analysis ∧ row.slug = slug

def SubTaskTable.ofAnalysis (table : SubTaskTable) (analysis : AnalysisId) : List SubTask :=
  table.rows.filter fun row => row.analysis = analysis

theorem SubTaskTable.ext {s t : SubTaskTable} (same : s.rows = t.rows) : s = t := by
  cases s
  cases t
  cases same
  rfl

theorem update_rows {table table' : SubTaskTable} {filter : SubTask → Bool} {change : SubTask → SubTask}
    (updated : table.update filter change = some table') :
    table'.rows = table.rows.map fun row => if filter row then change row else row := by
  unfold SubTaskTable.update SubTaskTable.write at updated
  split_ifs at updated
  cases updated
  rfl

/-- A statement that matches no row changes nothing. -/
theorem update_unmatched {table : SubTaskTable} {filter : SubTask → Bool} (change : SubTask → SubTask)
    (unmatched : ∀ row ∈ table.rows, filter row = false) : table.update filter change = some table := by
  have same : (table.rows.map fun row => if filter row then change row else row) = table.rows := by
    conv_rhs => rw [← List.map_id table.rows]
    apply List.map_congr_left
    intro row listed
    simp [unmatched row listed]
  unfold SubTaskTable.update SubTaskTable.write
  rw [same,dif_pos table.valid]

inductive ReadError where
  | fileNotFound
  | other
  deriving DecidableEq, Repr

/-- The time and the services of one task: users, and files that are stored from a
    worker's reference, created with some content, read or deleted. A call that raises
    gives `none`, `error` or `false`. -/
structure Env where
  now : Time
  userExists : UserId → Bool
  storeFile : (reference contentType : String) → (creator : UserId) → (filename : String) → Option FileId
  createFile : (content contentType : String) → (creator : UserId) → (filename : String) → Option FileId
  readFile : FileId → Except ReadError String
  deleteFile : FileId → Bool

/-- `store_file` of a required file: without a reference it raises. -/
def Env.store (env : Env) (reference : Option String) (contentType : String) (creator : UserId) (filename : String) :
    Option (Option FileId) := do
  let reference ← reference
  let file ← env.storeFile reference contentType creator filename
  some (some file)

/-- `store_file(..., required=False)`. -/
def Env.storeOptional (env : Env) (reference : Option String) (contentType : String) (creator : UserId)
    (filename : String) : Option (Option FileId) :=
  match reference with
  | some _ => env.store reference contentType creator filename
  | none => some none

def archiveContentType (suffix : String) : String := if suffix = "tar.zst" then "application/zstd" else "application/gzip"

def Env.storeArchive (env : Env) (reference : Option String) (creator : UserId) (name : String) :
    Option (Option FileId) :=
  let suffix := String.ofList (UrlText.archiveSuffix (reference.getD "None").toList)
  env.store reference (archiveContentType suffix) creator s!"{name}.{suffix}"

/-- Services that never fail. -/
def calmEnv : Env where
  now := 100
  userExists := fun _ => true
  storeFile := fun _ _ _ _ => some 1
  createFile := fun _ _ _ _ => some 2
  readFile := fun _ => .ok ""
  deleteFile := fun _ => true

end OasisPlatform.Models
