import Mathlib.Data.Option.Basic
import OasisPlatform.Models

/-!
The tasks that change an analysis: status notifications, results and failures, of the
V2 workers and of the V1 workers. A task loads the row, and saves it once or twice;
what it saves depends on the row it loaded, on the sub-task rows it reads and on its
services (`saves`). A task that raises keeps the saves it has made before.
-/
namespace OasisPlatform.AnalysisTasks
open OasisPlatform.SharedRow OasisPlatform.Models
set_option linter.unusedSimpArgs false

/-- The output logs of the completed sub-tasks; a log that cannot be read raises. -/
def completedLogs (env : Env) (subTasks : List SubTask) : Option String :=
  (subTasks.filter fun subTask => subTask.status = .completed).foldlM (fun text subTask =>
    match subTask.outputLog with
    | none => some text
    | some log =>
      match env.readFile log with
      | .ok content => some (text ++ "\n=== " ++ subTask.slug ++ " ===\n" ++ content)
      | .error _ => none) ""

/-- A log of a failed sub-task, left out where its file is missing. -/
def failureLog (env : Env) (text : String) : Option FileId → Option String
  | none => some text
  | some log =>
    match env.readFile log with
    | .ok content => some (text ++ content)
    | .error .fileNotFound => some text
    | .error .other => none

def failureLogs (env : Env) (traceback : String) (failedSubtasks : List SubTask) : Option String :=
  failedSubtasks.foldlM (fun text subTask => do
    let text ← failureLog env (text ++ "\n=== " ++ subTask.slug ++ " ===\n") subTask.outputLog
    failureLog env text subTask.errorLog)
    (if traceback = "" then "" else "\n=== Trace Back ===\n" ++ traceback)

/-- `if location`: it is neither `None` nor empty. -/
def truthy (location : Option String) : Bool := location.any (· ≠ "")

/-- `if location: analysis.<field> = store(location, ...)`. -/
def whenGiven (location : Option String) (analysis : Analysis) (stored : Option Analysis) : Option Analysis :=
  if truthy location then stored else some analysis

/-- `set_task_status_v2`: a cancelled analysis keeps its status. -/
def setTaskStatusV2 (taskStatus : AnalysisStatus) (dt : Time) (row : AnalysisRow) : List AnalysisSave :=
  if row .status ∈ cancelledStatuses then []
  else [Analysis.saveFields (((load row).set .status taskStatus).set .taskStarted (some dt)) [.status,.taskStarted]]

/-- The locations that `record_input_files` is given. -/
structure InputResult where
  outputLocation : Option String
  lookupErrorLocation : Option String
  lookupSuccessLocation : Option String
  lookupValidationLocation : Option String
  summaryLevelsLocation : Option String
  analysisSettingsLocation : Option String

def isParquet (reference : Option String) : Bool := (reference.getD "None").endsWith ".parquet"

def storeLookupErrorsFile (env : Env) (reference : Option String) (initiator : UserId) (analysisId : AnalysisId) :
    Option (Option FileId) :=
  if isParquet reference then
    env.store reference "application/octet-stream" initiator s!"analysis_{analysisId}_keys-errors.parquet"
  else env.store reference "text/csv" initiator s!"analysis_{analysisId}_keys-errors.csv"

def storeLookupSuccessFile (env : Env) (reference : Option String) (initiator : UserId) (analysisId : AnalysisId) :
    Option (Option FileId) :=
  if isParquet reference then
    env.store reference "application/octet-stream" initiator s!"analysis_{analysisId}_gul_summary_map.parquet"
  else env.store reference "text/csv" initiator s!"analysis_{analysisId}_gul_summary_map.csv"

/-- The status that it is told to leave, `_analysisFinishStatus`, is not used. -/
def recordInputFiles (env : Env) (subTasks : List SubTask) (analysisId : AnalysisId) (result : InputResult)
    (initiator : UserId) (_analysisFinishStatus : AnalysisStatus) (row : AnalysisRow) : Option AnalysisSave := do
  let analysis := (load row).set .taskFinished (some env.now)
  guard (env.userExists initiator)
  let analysis := analysis.set .status .ready
  let inputFile ← env.storeArchive result.outputLocation initiator s!"analysis_{analysisId}_inputs"
  let lookupErrorsFile ← storeLookupErrorsFile env result.lookupErrorLocation initiator analysisId
  let lookupSuccessFile ← storeLookupSuccessFile env result.lookupSuccessLocation initiator analysisId
  let lookupValidationFile ← env.store result.lookupValidationLocation "application/json" initiator
    s!"analysis_{analysisId}_exposure_summary_report.json"
  let summaryLevelsFile ← env.store result.summaryLevelsLocation "application/json" initiator
    s!"analysis_{analysisId}_exposure_summary_levels.json"
  let analysis := ((((analysis.set .inputFile inputFile).set .lookupErrorsFile lookupErrorsFile).set
    .lookupSuccessFile lookupSuccessFile).set .lookupValidationFile lookupValidationFile).set
    .summaryLevelsFile summaryLevelsFile
  let analysis ← whenGiven result.analysisSettingsLocation analysis
    ((env.storeOptional result.analysisSettingsLocation "application/json" initiator
      s!"analysis_{analysisId}_settings.json").map (analysis.set .settingsFile))
  let text ← completedLogs env subTasks
  let traceback ← env.createFile text "text/plain" initiator s!"analysis_{analysisId}_generation_traceback.txt"
  some (Analysis.save (analysis.set .inputGenerationTracebackFile (some traceback)))

def recordInputErrorFiles (env : Env) (analysisId : AnalysisId) (initiator : UserId)
    (outputLocation lookupErrorLocation : Option String) (row : AnalysisRow) : Option AnalysisSave := do
  guard (env.userExists initiator)
  let analysis ← whenGiven outputLocation (load row)
    ((env.storeArchive outputLocation initiator s!"analysis_{analysisId}_inputs").map ((load row).set .inputFile))
  let analysis ← whenGiven lookupErrorLocation analysis
    ((storeLookupErrorsFile env lookupErrorLocation initiator analysisId).map (analysis.set .lookupErrorsFile))
  some (Analysis.saveFields analysis [.inputFile,.lookupErrorsFile])

structure LossesResult where
  runLogs : Option String
  outputLocation : Option String

def recordLossesFiles (env : Env) (subTasks : List SubTask) (analysisId : AnalysisId) (result : LossesResult)
    (initiator : UserId) (row : AnalysisRow) : Option AnalysisSave := do
  guard (env.userExists initiator)
  let analysis := ((load row).set .status .runCompleted).set .taskFinished (some env.now)
  let text ← completedLogs env subTasks
  let traceback ← env.createFile text "text/plain" initiator s!"analysis_{analysisId}_run_traceback.txt"
  let analysis := analysis.set .runTracebackFile (some traceback)
  let analysis ← whenGiven result.runLogs analysis
    ((env.storeArchive result.runLogs initiator s!"analysis_{analysisId}_logs").map (analysis.set .runLogFile))
  let output ← env.storeArchive result.outputLocation initiator s!"analysis_{analysisId}_output"
  some (Analysis.save (analysis.set .outputFile output))

def recordLossesErrorFiles (env : Env) (analysisId : AnalysisId) (initiator : UserId)
    (outputLocation runLogs : Option String) (row : AnalysisRow) : Option AnalysisSave := do
  guard (env.userExists initiator)
  let analysis ← whenGiven outputLocation (load row)
    ((env.storeArchive outputLocation initiator s!"analysis_{analysisId}_output").map ((load row).set .outputFile))
  let analysis ← whenGiven runLogs analysis
    ((env.storeArchive runLogs initiator s!"analysis_{analysisId}_logs").map (analysis.set .runLogFile))
  some (Analysis.saveFields analysis [.outputFile,.runLogFile])

inductive TracebackProperty where
  | inputGenerationTracebackFile
  | runTracebackFile
  deriving DecidableEq, Repr

/-- The arguments of `handle_task_failure`. -/
structure Failure where
  traceback : String
  initiator : UserId
  tracebackProperty : TracebackProperty
  failureStatus : AnalysisStatus

def failureMaxRetries : Nat := 8

/-- Whether the output of a failed sub-task is still missing. -/
def logsPending (subTasks : List SubTask) : Bool :=
  let failedSubtasks := subTasks.filter fun subTask => subTask.status = .error
  failedSubtasks.isEmpty || failedSubtasks.any fun subTask => subTask.outputLog.isNone

/-- The failure statuses do not replace these. -/
def failureKeepsStatuses : List AnalysisStatus := [.inputsGenerationCancelled,.runCancelled,.inputsGenerationNoKeys]

def withFailureStatus (failureStatus : AnalysisStatus) (row : AnalysisRow) : Analysis :=
  if row .status ∈ failureKeepsStatuses then load row else (load row).set .status failureStatus

def handleTaskFailure (env : Env) (subTasks : List SubTask) (analysisId : AnalysisId) (failure : Failure)
    (retries : Nat) (row : AnalysisRow) : Option AnalysisSave :=
  -- `self.retry()`: delivered again, with one more retry
  if logsPending subTasks && decide (retries < failureMaxRetries) then none
  else do
    let analysis := (withFailureStatus failure.failureStatus row).set .taskFinished (some env.now)
    let text ← failureLogs env failure.traceback (subTasks.filter fun subTask => subTask.status = .error)
    guard (env.userExists failure.initiator)
    let log ← env.createFile text "text/plain" failure.initiator s!"analysis_{analysisId}_worker_traceback.txt"
    match failure.tracebackProperty with
    | .inputGenerationTracebackFile => some (Analysis.save (analysis.set .inputGenerationTracebackFile (some log)))
    | .runTracebackFile =>
      let analysis := analysis.set .runTracebackFile (some log)
      match row .runLogFile with
      | none => some (Analysis.save (analysis.set .runLogFile (some log)))
      | some old =>
        guard (env.deleteFile old)
        some (Analysis.save (analysis.set .runLogFile (some log)))

/-- The V1 `set_task_status`. -/
def setTaskStatus (env : Env) (taskStatus : AnalysisStatus) (row : AnalysisRow) : List AnalysisSave :=
  [Analysis.saveFields (((load row).set .status taskStatus).set .taskStarted (some env.now)) [.status,.taskStarted]]

/-- The columns that `delete_prev_output` clears. -/
inductive FileColumn where
  | settingsFile
  | inputFile
  | inputGenerationTracebackFile
  | outputFile
  | runTracebackFile
  | runLogFile
  | lookupErrorsFile
  | lookupSuccessFile
  | lookupValidationFile
  | summaryLevelsFile
  deriving DecidableEq, Repr

def FileColumn.column : FileColumn → Column
  | .settingsFile => .settingsFile
  | .inputFile => .inputFile
  | .inputGenerationTracebackFile => .inputGenerationTracebackFile
  | .outputFile => .outputFile
  | .runTracebackFile => .runTracebackFile
  | .runLogFile => .runLogFile
  | .lookupErrorsFile => .lookupErrorsFile
  | .lookupSuccessFile => .lookupSuccessFile
  | .lookupValidationFile => .lookupValidationFile
  | .summaryLevelsFile => .summaryLevelsFile

def getFile (analysis : Analysis) : FileColumn → Option FileId
  | .settingsFile => analysis.values .settingsFile
  | .inputFile => analysis.values .inputFile
  | .inputGenerationTracebackFile => analysis.values .inputGenerationTracebackFile
  | .outputFile => analysis.values .outputFile
  | .runTracebackFile => analysis.values .runTracebackFile
  | .runLogFile => analysis.values .runLogFile
  | .lookupErrorsFile => analysis.values .lookupErrorsFile
  | .lookupSuccessFile => analysis.values .lookupSuccessFile
  | .lookupValidationFile => analysis.values .lookupValidationFile
  | .summaryLevelsFile => analysis.values .summaryLevelsFile

def setFile (analysis : Analysis) (file : Option FileId) : FileColumn → Analysis
  | .settingsFile => analysis.set .settingsFile file
  | .inputFile => analysis.set .inputFile file
  | .inputGenerationTracebackFile => analysis.set .inputGenerationTracebackFile file
  | .outputFile => analysis.set .outputFile file
  | .runTracebackFile => analysis.set .runTracebackFile file
  | .runLogFile => analysis.set .runLogFile file
  | .lookupErrorsFile => analysis.set .lookupErrorsFile file
  | .lookupSuccessFile => analysis.set .lookupSuccessFile file
  | .lookupValidationFile => analysis.set .lookupValidationFile file
  | .summaryLevelsFile => analysis.set .summaryLevelsFile file

/-- Clears columns that have a file, and saves these columns; the instance that goes on,
    unless a file cannot be deleted. -/
def deletePrevOutput (env : Env) (analysis : Analysis) (fields : List FileColumn) : AnalysisSave × Option Analysis :=
  let cleared := fields.foldl (fun cleared field =>
    if (getFile cleared field).isSome then setFile cleared none field else cleared) analysis
  (Analysis.saveFields cleared (fields.map FileColumn.column),
    if (fields.filterMap (getFile analysis)).all env.deleteFile then some cleared else none)

/-- A first save, and a second one from the instance that goes on. -/
def thenSave (first : AnalysisSave × Option Analysis) (rest : Analysis → Option AnalysisSave) : List AnalysisSave :=
  first.1 :: (first.2.bind rest).toList

/-- The result of a V1 run: locations and the return code. -/
structure RunResult where
  outputLocation : Option String
  tracebackLocation : Option String
  logLocation : Option String
  returnCode : Int

def recordRunAnalysisResult (env : Env) (analysisPk : AnalysisId) (res : RunResult) (initiator : UserId)
    (row : AnalysisRow) : List AnalysisSave :=
  if ¬ env.userExists initiator then []
  else
    let analysis := ((load row).set .status (if res.returnCode = 0 then .runCompleted else .runError)).set
      .taskFinished (some env.now)
    thenSave (deletePrevOutput env analysis [.outputFile,.runLogFile,.runTracebackFile]) fun analysis => do
      let analysis ← if res.returnCode = 0 then
          (env.storeArchive res.outputLocation initiator s!"analysis_{analysisPk}_output").map (analysis.set .outputFile)
        else some analysis
      let analysis ← whenGiven res.logLocation analysis
        ((env.storeArchive res.logLocation initiator s!"analysis_{analysisPk}_logs").map (analysis.set .runLogFile))
      let analysis ← whenGiven res.tracebackLocation analysis
        ((env.store res.tracebackLocation "text/plain" initiator s!"analysis_{analysisPk}_run_traceback.txt").map
          (analysis.set .runTracebackFile))
      some (Analysis.save analysis)

/-- The result of a V1 input generation. -/
structure GenerateInputResult where
  inputLocation : Option String
  lookupErrorLocation : Option String
  lookupSuccessLocation : Option String
  lookupValidationLocation : Option String
  summaryLevelsLocation : Option String
  tracebackLocation : Option String
  returnCode : Int
  analysisSettingsLocation : Option String

/-- `store(location, ...) if location else None`. -/
def storeOrNone (location : Option String) (stored : Option (Option FileId)) : Option (Option FileId) :=
  if truthy location then stored else some none

def generateInputRemoved (result : GenerateInputResult) : List FileColumn :=
  [.outputFile,.inputFile,.lookupErrorsFile,.lookupSuccessFile,.lookupValidationFile,.summaryLevelsFile,
    .inputGenerationTracebackFile,.runTracebackFile,.runLogFile] ++
    if truthy result.analysisSettingsLocation then [.settingsFile] else []

def recordGenerateInputResult (env : Env) (analysisPk : AnalysisId) (result : GenerateInputResult) (initiator : UserId)
    (row : AnalysisRow) : List AnalysisSave :=
  if ¬ env.userExists initiator then []
  else thenSave (deletePrevOutput env (load row) (generateInputRemoved result)) fun analysis => do
    let analysis :=
      if result.returnCode = 0 then analysis.set .status .ready
      else if analysis.values .status ≠ .inputsGenerationNoKeys then analysis.set .status .inputsGenerationError
      else analysis
    let inputFile ← storeOrNone result.inputLocation
      (env.storeArchive result.inputLocation initiator s!"analysis_{analysisPk}_inputs")
    let lookupSuccessFile ← storeOrNone result.lookupSuccessLocation
      (storeLookupSuccessFile env result.lookupSuccessLocation initiator analysisPk)
    let lookupErrorsFile ← storeOrNone result.lookupErrorLocation
      (storeLookupErrorsFile env result.lookupErrorLocation initiator analysisPk)
    let lookupValidationFile ← storeOrNone result.lookupValidationLocation
      (env.store result.lookupValidationLocation "application/json" initiator
        s!"analysis_{analysisPk}_exposure_summary_report.json")
    let summaryLevelsFile ← storeOrNone result.summaryLevelsLocation
      (env.store result.summaryLevelsLocation "application/json" initiator
        s!"analysis_{analysisPk}_exposure_summary_levels.json")
    let analysis := (((((analysis.set .inputFile inputFile).set .lookupSuccessFile lookupSuccessFile).set
      .lookupErrorsFile lookupErrorsFile).set .lookupValidationFile lookupValidationFile).set
      .summaryLevelsFile summaryLevelsFile).set .taskFinished (some env.now)
    let analysis ← whenGiven result.analysisSettingsLocation analysis
      ((env.storeOptional result.analysisSettingsLocation "application/json" initiator
        s!"analysis_{analysisPk}_settings.json").map (analysis.set .settingsFile))
    let analysis ← whenGiven result.tracebackLocation analysis
      ((env.store result.tracebackLocation "text/plain" initiator
        s!"analysis_{analysisPk}_generation_traceback.txt").map (analysis.set .inputGenerationTracebackFile))
    some (Analysis.save analysis)

/-- `if traceback: analysis.<field> = RelatedFile.objects.create(...)`. -/
def withTraceback (env : Env) (initiator : UserId) (traceback filename : String) (field : FileColumn)
    (analysis : Analysis) : Option Analysis :=
  if traceback = "" then some analysis
  else if env.userExists initiator then
    (env.createFile traceback "text/plain" initiator filename).map fun file => setFile analysis (some file) field
  else none

def recordRunAnalysisFailure (env : Env) (analysisPk : AnalysisId) (initiator : UserId) (traceback : String)
    (row : AnalysisRow) : Option AnalysisSave := do
  let analysis := ((load row).set .status .runError).set .taskFinished (some env.now)
  let analysis ← withTraceback env initiator traceback s!"analysis_{analysisPk}_run_traceback.txt" .runTracebackFile
    analysis
  match row .runLogFile with
  | none => some (Analysis.save analysis)
  | some log =>
    guard (env.deleteFile log)
    some (Analysis.save (analysis.set .runLogFile none))

def recordGenerateInputFailure (env : Env) (analysisPk : AnalysisId) (initiator : UserId) (traceback : String)
    (row : AnalysisRow) : Option AnalysisSave := do
  let analysis := ((load row).set .status .inputsGenerationError).set .taskFinished (some env.now)
  let analysis ← withTraceback env initiator traceback s!"analysis_{analysisPk}_generation_traceback.txt"
    .inputGenerationTracebackFile analysis
  some (Analysis.save analysis)

/-- The V1 tasks whose own failure is recorded (`LogTaskError`). -/
inductive RecordTask where
  | recordRunAnalysisResult
  | recordGenerateInputResult
  deriving DecidableEq, Repr

/-- `LogTaskError.handle_task_failure`: the error status is saved also when the traceback
    cannot be stored. -/
def logTaskError (env : Env) (initiator : UserId) (task : RecordTask) (traceback filename : String)
    (row : AnalysisRow) : List AnalysisSave :=
  if ¬ env.userExists initiator then []
  else
    let analysis := (load row).set .taskFinished (some env.now)
    match task with
    | .recordGenerateInputResult =>
      let analysis := analysis.set .status .inputsGenerationError
      match env.createFile ("worker-monitor error:\n " ++ traceback) "text/plain" initiator filename with
      | some file => [Analysis.save (analysis.set .inputGenerationTracebackFile (some file))]
      | none => [Analysis.save analysis]
    | .recordRunAnalysisResult =>
      let analysis := analysis.set .status .runError
      match env.createFile ("worker-monitor error:\n " ++ traceback) "text/plain" initiator filename with
      | none => [Analysis.save analysis]
      | some file =>
        let analysis := analysis.set .runTracebackFile (some file)
        let cleared := deletePrevOutput env analysis [.runLogFile]
        [cleared.1,Analysis.save (cleared.2.getD cleared.1.loaded)]

/-- A message that makes a worker run one of these tasks, for one analysis. -/
inductive AnalysisTask where
  | setTaskStatusV2 (taskStatus : AnalysisStatus) (dt : Time)
  | recordInputFiles (result : InputResult) (initiator : UserId) (analysisFinishStatus : AnalysisStatus)
  | recordInputErrorFiles (initiator : UserId) (outputLocation lookupErrorLocation : Option String)
  | recordLossesFiles (result : LossesResult) (initiator : UserId)
  | recordLossesErrorFiles (initiator : UserId) (outputLocation runLogs : Option String)
  | handleTaskFailure (failure : Failure) (retries : Nat)
  | setTaskStatus (taskStatus : AnalysisStatus)
  | recordRunAnalysisResult (res : RunResult) (initiator : UserId)
  | recordGenerateInputResult (result : GenerateInputResult) (initiator : UserId)
  | recordRunAnalysisFailure (initiator : UserId) (traceback : String)
  | recordGenerateInputFailure (initiator : UserId) (traceback : String)
  | logTaskError (initiator : UserId) (task : RecordTask) (traceback filename : String)

/-- What a task saves, given the row it loads and the sub-task rows it reads. -/
def saves (env : Env) (subTasks : List SubTask) (analysis : AnalysisId) (row : AnalysisRow) :
    AnalysisTask → List AnalysisSave
  | .setTaskStatusV2 taskStatus dt => setTaskStatusV2 taskStatus dt row
  | .recordInputFiles result initiator finish =>
    (recordInputFiles env subTasks analysis result initiator finish row).toList
  | .recordInputErrorFiles initiator output errors =>
    (recordInputErrorFiles env analysis initiator output errors row).toList
  | .recordLossesFiles result initiator => (recordLossesFiles env subTasks analysis result initiator row).toList
  | .recordLossesErrorFiles initiator output logs =>
    (recordLossesErrorFiles env analysis initiator output logs row).toList
  | .handleTaskFailure failure retries => (handleTaskFailure env subTasks analysis failure retries row).toList
  | .setTaskStatus taskStatus => setTaskStatus env taskStatus row
  | .recordRunAnalysisResult res initiator => recordRunAnalysisResult env analysis res initiator row
  | .recordGenerateInputResult result initiator => recordGenerateInputResult env analysis result initiator row
  | .recordRunAnalysisFailure initiator traceback =>
    (recordRunAnalysisFailure env analysis initiator traceback row).toList
  | .recordGenerateInputFailure initiator traceback =>
    (recordGenerateInputFailure env analysis initiator traceback row).toList
  | .logTaskError initiator task traceback filename => logTaskError env initiator task traceback filename row

/-- The row after a task that runs without interruption. -/
def perform (env : Env) (subTasks : List SubTask) (analysis : AnalysisId) (row : AnalysisRow) (task : AnalysisTask) :
    AnalysisRow :=
  (saves env subTasks analysis row task).foldl (fun row save => save.apply row) row

/-- A task in flight with the services and the sub-task rows it will find. -/
structure Job where
  env : Env
  subTasks : List SubTask
  analysis : AnalysisId
  task : AnalysisTask

def Job.body (job : Job) (row : AnalysisRow) : List AnalysisSave := saves job.env job.subTasks job.analysis row job.task

/-! ### What the V2 tasks save -/

theorem whenGiven_some {location : Option String} {analysis result : Analysis} {stored : Option Analysis}
    (given : whenGiven location analysis stored = some result) : result = analysis ∨ stored = some result := by
  unfold whenGiven at given
  split_ifs at given
  · exact .inr given
  · exact .inl (Option.some.inj given).symm

theorem setTaskStatusV2_saves {taskStatus : AnalysisStatus} {dt : Time} {row : AnalysisRow} {save : AnalysisSave}
    (saved : save ∈ setTaskStatusV2 taskStatus dt row) :
    row .status ∉ cancelledStatuses ∧ save.loaded.values .status = taskStatus ∧ save.loaded.Copies row := by
  unfold setTaskStatusV2 at saved
  split_ifs at saved with cancelled
  · cases saved
  · rw [List.mem_singleton.mp saved]
    exact ⟨cancelled,by simp,((load_copies row).set _ _).set _ _⟩

/-- It saves the whole row, with the status `READY`. -/
theorem recordInputFiles_saves {env : Env} {subTasks : List SubTask} {analysisId : AnalysisId} {result : InputResult}
    {initiator : UserId} {finish : AnalysisStatus} {row : AnalysisRow} {save : AnalysisSave}
    (saved : recordInputFiles env subTasks analysisId result initiator finish row = some save) :
    save.updateFields = none ∧ save.loaded.values .status = .ready ∧ save.loaded.Copies row := by
  simp only [recordInputFiles,Option.bind_eq_bind,Option.bind_eq_some_iff,Option.some.injEq] at saved
  obtain ⟨_,_,inputFile,_,errors,_,success,_,validation,_,levels,_,analysis,settings,_,_,traceback,_,rfl⟩ := saved
  refine ⟨rfl,?_,?_⟩
  · rcases whenGiven_some settings with rfl | stored
    · simp
    · obtain ⟨file,_,rfl⟩ := Option.map_eq_some_iff.mp stored
      simp
  · refine Loaded.Copies.set ?_ _ _
    have base := (((((((load_copies row).set .taskFinished (some env.now)).set .status .ready).set .inputFile
      inputFile).set .lookupErrorsFile errors).set .lookupSuccessFile success).set .lookupValidationFile
      validation).set .summaryLevelsFile levels
    rcases whenGiven_some settings with rfl | stored
    · exact base
    · obtain ⟨file,_,rfl⟩ := Option.map_eq_some_iff.mp stored
      exact base.set _ _

theorem recordInputErrorFiles_saves {env : Env} {analysisId : AnalysisId} {initiator : UserId}
    {outputLocation lookupErrorLocation : Option String} {row : AnalysisRow} {save : AnalysisSave}
    (saved : recordInputErrorFiles env analysisId initiator outputLocation lookupErrorLocation row = some save) :
    save.updateFields = some [.inputFile,.lookupErrorsFile] := by
  simp only [recordInputErrorFiles,Option.bind_eq_bind,Option.bind_eq_some_iff,Option.some.injEq] at saved
  obtain ⟨_,_,_,_,_,_,rfl⟩ := saved
  rfl

theorem recordLossesErrorFiles_saves {env : Env} {analysisId : AnalysisId} {initiator : UserId}
    {outputLocation runLogs : Option String} {row : AnalysisRow} {save : AnalysisSave}
    (saved : recordLossesErrorFiles env analysisId initiator outputLocation runLogs row = some save) :
    save.updateFields = some [.outputFile,.runLogFile] := by
  simp only [recordLossesErrorFiles,Option.bind_eq_bind,Option.bind_eq_some_iff,Option.some.injEq] at saved
  obtain ⟨_,_,_,_,_,_,rfl⟩ := saved
  rfl

theorem recordInputErrorFiles_status {env : Env} {analysisId : AnalysisId} {initiator : UserId}
    {outputLocation lookupErrorLocation : Option String} {row : AnalysisRow} {save : AnalysisSave}
    (saved : recordInputErrorFiles env analysisId initiator outputLocation lookupErrorLocation row = some save) :
    save.writes .status = false := by
  simp [Save.writes,recordInputErrorFiles_saves saved]

theorem recordLossesErrorFiles_status {env : Env} {analysisId : AnalysisId} {initiator : UserId}
    {outputLocation runLogs : Option String} {row : AnalysisRow} {save : AnalysisSave}
    (saved : recordLossesErrorFiles env analysisId initiator outputLocation runLogs row = some save) :
    save.writes .status = false := by
  simp [Save.writes,recordLossesErrorFiles_saves saved]

/-- What a failure saves, with its log. -/
theorem handleTaskFailure_cases {env : Env} {subTasks : List SubTask} {analysisId : AnalysisId} {failure : Failure}
    {retries : Nat} {row : AnalysisRow} {save : AnalysisSave}
    (saved : handleTaskFailure env subTasks analysisId failure retries row = some save) :
    ∃ text log, env.createFile text "text/plain" failure.initiator s!"analysis_{analysisId}_worker_traceback.txt" = some log ∧
      (failure.tracebackProperty = .inputGenerationTracebackFile ∧
          save = Analysis.save (((withFailureStatus failure.failureStatus row).set .taskFinished (some env.now)).set
            .inputGenerationTracebackFile (some log)) ∨
        failure.tracebackProperty = .runTracebackFile ∧
          save = Analysis.save ((((withFailureStatus failure.failureStatus row).set .taskFinished (some env.now)).set
            .runTracebackFile (some log)).set .runLogFile (some log))) := by
  unfold handleTaskFailure at saved
  split_ifs at saved with retry
  simp only [Option.bind_eq_bind,Option.bind_eq_some_iff] at saved
  obtain ⟨text,_,_,_,log,created,saved⟩ := saved
  refine ⟨text,log,created,?_⟩
  cases property : failure.tracebackProperty with
  | inputGenerationTracebackFile =>
    simp only [property,Option.some.injEq] at saved
    exact .inl ⟨rfl,saved.symm⟩
  | runTracebackFile =>
    simp only [property] at saved
    refine .inr ⟨rfl,?_⟩
    -- an old log is deleted before it is replaced
    cases old : row .runLogFile with
    | none =>
      simp only [old,Option.some.injEq] at saved
      exact saved.symm
    | some file =>
      simp only [old,Option.bind_eq_some_iff,Option.some.injEq] at saved
      obtain ⟨_,_,saved⟩ := saved
      exact saved.symm

/-- It saves the whole row; the failure status replaces every status but three. -/
theorem handleTaskFailure_saves {env : Env} {subTasks : List SubTask} {analysisId : AnalysisId} {failure : Failure}
    {retries : Nat} {row : AnalysisRow} {save : AnalysisSave}
    (saved : handleTaskFailure env subTasks analysisId failure retries row = some save) :
    save.updateFields = none ∧
      save.loaded.values .status = (if row .status ∈ failureKeepsStatuses then row .status else failure.failureStatus) ∧
      save.loaded.Copies row := by
  have status : (withFailureStatus failure.failureStatus row).values .status =
      if row .status ∈ failureKeepsStatuses then row .status else failure.failureStatus := by
    unfold withFailureStatus
    split_ifs <;> simp
  have copies : (withFailureStatus failure.failureStatus row).Copies row := by
    unfold withFailureStatus
    split_ifs
    · exact load_copies row
    · exact (load_copies row).set _ _
  obtain ⟨_,log,_,⟨_,rfl⟩ | ⟨_,rfl⟩⟩ := handleTaskFailure_cases saved
  · exact ⟨rfl,by simpa using status,(copies.set _ _).set _ _⟩
  · exact ⟨rfl,by simpa using status,((copies.set _ _).set _ _).set _ _⟩

theorem perform_setTaskStatusV2_status (env : Env) (subTasks : List SubTask) (analysis : AnalysisId) (row : AnalysisRow)
    (taskStatus : AnalysisStatus) (dt : Time) :
    perform env subTasks analysis row (.setTaskStatusV2 taskStatus dt) .status =
      if row .status ∈ cancelledStatuses then row .status else taskStatus := by
  simp only [perform,saves,setTaskStatusV2]
  split_ifs with cancelled
  · rfl
  · rw [List.foldl_cons,List.foldl_nil,Save.apply_writes (by simp)]
    simp

/-- The failure stores its status, unless it does not save or the status is one that it
    keeps. -/
theorem perform_handleTaskFailure_status (env : Env) (subTasks : List SubTask) (analysis : AnalysisId)
    (row : AnalysisRow) (failure : Failure) (retries : Nat) :
    perform env subTasks analysis row (.handleTaskFailure failure retries) .status = row .status ∨
      row .status ∉ failureKeepsStatuses ∧
        perform env subTasks analysis row (.handleTaskFailure failure retries) .status = failure.failureStatus := by
  simp only [perform,saves]
  cases saved : handleTaskFailure env subTasks analysis failure retries row with
  | none => exact .inl rfl
  | some save =>
    obtain ⟨full,status,_⟩ := handleTaskFailure_saves saved
    rw [Option.toList_some,List.foldl_cons,List.foldl_nil,Save.apply_writes (by simp [Save.writes,full]),status]
    by_cases kept : row .status ∈ failureKeepsStatuses
    · exact .inl (if_pos kept)
    · exact .inr ⟨kept,if_neg kept⟩

/-- What clearing a column preserves, removing files preserves. -/
theorem deletePrevOutput_keeps {P : Analysis → Prop} (env : Env)
    (clears : ∀ analysis field, P analysis → P (setFile analysis none field)) {analysis : Analysis} (holds : P analysis)
    (fields : List FileColumn) : P (deletePrevOutput env analysis fields).1.loaded := by
  change P (fields.foldl (fun cleared field =>
    if (getFile cleared field).isSome then setFile cleared none field else cleared) analysis)
  induction fields generalizing analysis with
  | nil => exact holds
  | cons field rest ih =>
    rw [List.foldl_cons]
    apply ih
    split_ifs
    · exact clears analysis field holds
    · exact holds

/-- The instance that goes on is the one that was saved. -/
theorem deletePrevOutput_some {env : Env} {analysis result : Analysis} {fields : List FileColumn}
    (cleared : (deletePrevOutput env analysis fields).2 = some result) :
    result = (deletePrevOutput env analysis fields).1.loaded := by
  unfold deletePrevOutput at cleared
  simp only at cleared
  split_ifs at cleared
  exact (Option.some.inj cleared).symm

theorem thenSave_cases {env : Env} {analysis : Analysis} {fields : List FileColumn} {rest : Analysis → Option AnalysisSave}
    {save : AnalysisSave} (saved : save ∈ thenSave (deletePrevOutput env analysis fields) rest) :
    save = (deletePrevOutput env analysis fields).1 ∨ rest (deletePrevOutput env analysis fields).1.loaded = some save := by
  rcases List.mem_cons.mp saved with first | second
  · exact .inl first
  · obtain ⟨other,goes,found⟩ := Option.bind_eq_some_iff.mp (Option.mem_toList.mp second)
    exact .inr (deletePrevOutput_some goes ▸ found)

/-- The error status, with the traceback where it can be stored; a run also loses its log. -/
theorem logTaskError_cases {env : Env} {initiator : UserId} {task : RecordTask} {traceback filename : String}
    {row : AnalysisRow} {save : AnalysisSave} (saved : save ∈ logTaskError env initiator task traceback filename row) :
    (∃ status, save.loaded = ((load row).set .taskFinished (some env.now)).set .status status) ∨
      ∃ content file, env.createFile content "text/plain" initiator filename = some file ∧
        (task = .recordGenerateInputResult ∧
            save.loaded = (((load row).set .taskFinished (some env.now)).set .status .inputsGenerationError).set
              .inputGenerationTracebackFile (some file) ∨
          task = .recordRunAnalysisResult ∧
            save.loaded = (deletePrevOutput env ((((load row).set .taskFinished (some env.now)).set .status .runError).set
              .runTracebackFile (some file)) [.runLogFile]).1.loaded) := by
  unfold logTaskError at saved
  by_cases known : env.userExists initiator = true
  · rw [if_neg (not_not.mpr known)] at saved
    cases task with
    | recordGenerateInputResult =>
      simp only at saved
      split at saved
      · rename_i file created
        rw [List.mem_singleton.mp saved]
        exact .inr ⟨_,file,created,.inl ⟨rfl,rfl⟩⟩
      · rw [List.mem_singleton.mp saved]
        exact .inl ⟨_,rfl⟩
    | recordRunAnalysisResult =>
      simp only at saved
      split at saved
      · rw [List.mem_singleton.mp saved]
        exact .inl ⟨_,rfl⟩
      · rename_i file created
        refine .inr ⟨_,file,created,.inr ⟨rfl,?_⟩⟩
        simp only [List.mem_cons,List.not_mem_nil,or_false] at saved
        rcases saved with rfl | rfl
        · rfl
        · cases goes : (deletePrevOutput env ((((load row).set .taskFinished (some env.now)).set .status .runError).set
              .runTracebackFile (some file)) [.runLogFile]).2 with
          | none => rfl
          | some other => exact deletePrevOutput_some goes
  · rw [if_pos known] at saved
    cases saved

section Copies
variable {row : AnalysisRow} {analysis result : Analysis}

theorem whenGiven_copies {location : Option String} {stored : Option Analysis} (copies : analysis.Copies row)
    (storedCopies : ∀ other, stored = some other → other.Copies row)
    (given : whenGiven location analysis stored = some result) : result.Copies row := by
  rcases whenGiven_some given with rfl | found
  · exact copies
  · exact storedCopies result found

theorem map_set_copies {c : Column} {value : Option (ColumnType c)} (copies : analysis.Copies row) (other : Analysis)
    (stored : value.map (analysis.set c) = some other) : other.Copies row := by
  obtain ⟨file,_,rfl⟩ := Option.map_eq_some_iff.mp stored
  exact copies.set c file

theorem setFile_copies (copies : analysis.Copies row) (file : Option FileId) (field : FileColumn) :
    (setFile analysis file field).Copies row := by
  cases field <;> exact copies.set _ _

theorem deletePrevOutput_copies (env : Env) (copies : analysis.Copies row) (fields : List FileColumn) :
    (deletePrevOutput env analysis fields).1.loaded.Copies row :=
  deletePrevOutput_keeps (P := (·.Copies row)) env (fun _ field copies => setFile_copies copies none field) copies fields

theorem thenSave_copies {env : Env} {fields : List FileColumn} (copies : analysis.Copies row)
    {rest : Analysis → Option AnalysisSave}
    (restCopies : ∀ other save, other.Copies row → rest other = some save → save.loaded.Copies row)
    {save : AnalysisSave} (saved : save ∈ thenSave (deletePrevOutput env analysis fields) rest) :
    save.loaded.Copies row := by
  have cleared := deletePrevOutput_copies env copies fields
  rcases thenSave_cases saved with rfl | second
  · exact cleared
  · exact restCopies _ save cleared second

theorem withTraceback_copies {env : Env} {initiator : UserId} {traceback filename : String} {field : FileColumn}
    (copies : analysis.Copies row)
    (stored : withTraceback env initiator traceback filename field analysis = some result) : result.Copies row := by
  unfold withTraceback at stored
  split_ifs at stored
  · exact Option.some.inj stored ▸ copies
  · obtain ⟨file,_,rfl⟩ := Option.map_eq_some_iff.mp stored
    exact setFile_copies copies _ _

end Copies

theorem recordInputErrorFiles_copies {env : Env} {analysisId : AnalysisId} {initiator : UserId}
    {outputLocation lookupErrorLocation : Option String} {row : AnalysisRow} {save : AnalysisSave}
    (saved : recordInputErrorFiles env analysisId initiator outputLocation lookupErrorLocation row = some save) :
    save.loaded.Copies row := by
  simp only [recordInputErrorFiles,Option.bind_eq_bind,Option.bind_eq_some_iff,Option.some.injEq] at saved
  obtain ⟨_,_,_,output,_,errors,rfl⟩ := saved
  have first := whenGiven_copies (load_copies row) (map_set_copies (load_copies row)) output
  exact whenGiven_copies first (map_set_copies first) errors

theorem recordLossesFiles_copies {env : Env} {subTasks : List SubTask} {analysisId : AnalysisId} {result : LossesResult}
    {initiator : UserId} {row : AnalysisRow} {save : AnalysisSave}
    (saved : recordLossesFiles env subTasks analysisId result initiator row = some save) : save.loaded.Copies row := by
  simp only [recordLossesFiles,Option.bind_eq_bind,Option.bind_eq_some_iff,Option.some.injEq] at saved
  obtain ⟨_,_,_,_,traceback,_,_,logs,output,_,rfl⟩ := saved
  have base := (((load_copies row).set .status .runCompleted).set .taskFinished (some env.now)).set .runTracebackFile
    (some traceback)
  exact (whenGiven_copies base (map_set_copies base) logs).set _ _

theorem recordLossesErrorFiles_copies {env : Env} {analysisId : AnalysisId} {initiator : UserId}
    {outputLocation runLogs : Option String} {row : AnalysisRow} {save : AnalysisSave}
    (saved : recordLossesErrorFiles env analysisId initiator outputLocation runLogs row = some save) :
    save.loaded.Copies row := by
  simp only [recordLossesErrorFiles,Option.bind_eq_bind,Option.bind_eq_some_iff,Option.some.injEq] at saved
  obtain ⟨_,_,_,output,_,logs,rfl⟩ := saved
  have first := whenGiven_copies (load_copies row) (map_set_copies (load_copies row)) output
  exact whenGiven_copies first (map_set_copies first) logs

theorem recordRunAnalysisResult_copies {env : Env} {analysisPk : AnalysisId} {res : RunResult} {initiator : UserId}
    {row : AnalysisRow} {save : AnalysisSave} (saved : save ∈ recordRunAnalysisResult env analysisPk res initiator row) :
    save.loaded.Copies row := by
  unfold recordRunAnalysisResult at saved
  by_cases known : env.userExists initiator = true
  · rw [if_neg (not_not.mpr known)] at saved
    refine thenSave_copies (((load_copies row).set _ _).set _ _) ?_ saved
    intro other later copies second
    by_cases completed : res.returnCode = 0
    · simp only [if_pos completed,Option.bind_eq_bind,Option.bind_eq_some_iff,Option.some.injEq] at second
      obtain ⟨_,output,_,logs,_,traceback,rfl⟩ := second
      have first := map_set_copies copies _ output
      have logged := whenGiven_copies first (map_set_copies first) logs
      exact whenGiven_copies logged (map_set_copies logged) traceback
    · simp only [if_neg completed,Option.bind_eq_bind,Option.bind_some,Option.bind_eq_some_iff,Option.some.injEq] at second
      obtain ⟨_,logs,_,traceback,rfl⟩ := second
      have logged := whenGiven_copies copies (map_set_copies copies) logs
      exact whenGiven_copies logged (map_set_copies logged) traceback
  · rw [if_pos known] at saved
    cases saved

theorem recordGenerateInputResult_copies {env : Env} {analysisPk : AnalysisId} {result : GenerateInputResult}
    {initiator : UserId} {row : AnalysisRow} {save : AnalysisSave}
    (saved : save ∈ recordGenerateInputResult env analysisPk result initiator row) : save.loaded.Copies row := by
  unfold recordGenerateInputResult at saved
  by_cases known : env.userExists initiator = true
  · rw [if_neg (not_not.mpr known)] at saved
    refine thenSave_copies (load_copies row) ?_ saved
    intro other later copies second
    simp only [Option.bind_eq_bind,Option.bind_eq_some_iff,Option.some.injEq] at second
    obtain ⟨inputFile,_,success,_,errors,_,validation,_,levels,_,_,settings,_,traceback,rfl⟩ := second
    have status : Loaded.Copies (if result.returnCode = 0 then other.set .status .ready
        else if other.values .status ≠ .inputsGenerationNoKeys then other.set .status .inputsGenerationError
        else other) row := by
      split_ifs
      · exact copies.set _ _
      · exact copies.set _ _
      · exact copies
    have base := (((((status.set .inputFile inputFile).set .lookupSuccessFile success).set .lookupErrorsFile errors).set
      .lookupValidationFile validation).set .summaryLevelsFile levels).set .taskFinished (some env.now)
    have first := whenGiven_copies base (map_set_copies base) settings
    exact whenGiven_copies first (map_set_copies first) traceback
  · rw [if_pos known] at saved
    cases saved

theorem recordRunAnalysisFailure_copies {env : Env} {analysisPk : AnalysisId} {initiator : UserId} {traceback : String}
    {row : AnalysisRow} {save : AnalysisSave}
    (saved : recordRunAnalysisFailure env analysisPk initiator traceback row = some save) : save.loaded.Copies row := by
  simp only [recordRunAnalysisFailure,Option.bind_eq_bind,Option.bind_eq_some_iff] at saved
  obtain ⟨analysis,stored,saved⟩ := saved
  have copies := withTraceback_copies (((load_copies row).set _ _).set _ _) stored
  cases old : row .runLogFile with
  | none =>
    simp only [old,Option.some.injEq] at saved
    exact saved ▸ copies
  | some log =>
    simp only [old,Option.bind_eq_some_iff,Option.some.injEq] at saved
    obtain ⟨_,_,rfl⟩ := saved
    exact copies.set _ _

theorem recordGenerateInputFailure_copies {env : Env} {analysisPk : AnalysisId} {initiator : UserId}
    {traceback : String} {row : AnalysisRow} {save : AnalysisSave}
    (saved : recordGenerateInputFailure env analysisPk initiator traceback row = some save) :
    save.loaded.Copies row := by
  simp only [recordGenerateInputFailure,Option.bind_eq_bind,Option.bind_eq_some_iff,Option.some.injEq] at saved
  obtain ⟨analysis,stored,rfl⟩ := saved
  exact withTraceback_copies (((load_copies row).set _ _).set _ _) stored

theorem logTaskError_copies {env : Env} {initiator : UserId} {task : RecordTask} {traceback filename : String}
    {row : AnalysisRow} {save : AnalysisSave} (saved : save ∈ logTaskError env initiator task traceback filename row) :
    save.loaded.Copies row := by
  have finished := (load_copies row).set .taskFinished (some env.now)
  obtain ⟨status,same⟩ | ⟨_,file,_,⟨_,same⟩ | ⟨_,same⟩⟩ := logTaskError_cases saved
  · exact same ▸ finished.set .status status
  · exact same ▸ (finished.set .status .inputsGenerationError).set .inputGenerationTracebackFile (some file)
  · exact same ▸ deletePrevOutput_copies env ((finished.set .status .runError).set .runTracebackFile (some file))
      [.runLogFile]

/-- Whatever a task saves copies the row it loaded in the columns that the task did not
    set. -/
theorem saves_copies (job : Job) (row : AnalysisRow) {save : AnalysisSave} (saved : save ∈ job.body row) :
    save.loaded.Copies row := by
  obtain ⟨env,subTasks,analysis,task⟩ := job
  cases task with
  | setTaskStatusV2 taskStatus dt => exact (setTaskStatusV2_saves saved).2.2
  | recordInputFiles result initiator finish => exact (recordInputFiles_saves (Option.mem_toList.mp saved)).2.2
  | recordInputErrorFiles initiator output errors => exact recordInputErrorFiles_copies (Option.mem_toList.mp saved)
  | recordLossesFiles result initiator => exact recordLossesFiles_copies (Option.mem_toList.mp saved)
  | recordLossesErrorFiles initiator output logs => exact recordLossesErrorFiles_copies (Option.mem_toList.mp saved)
  | handleTaskFailure failure retries => exact (handleTaskFailure_saves (Option.mem_toList.mp saved)).2.2
  | setTaskStatus taskStatus =>
    rw [List.mem_singleton.mp saved]
    exact ((load_copies row).set _ _).set _ _
  | recordRunAnalysisResult res initiator => exact recordRunAnalysisResult_copies saved
  | recordGenerateInputResult result initiator => exact recordGenerateInputResult_copies saved
  | recordRunAnalysisFailure initiator traceback => exact recordRunAnalysisFailure_copies (Option.mem_toList.mp saved)
  | recordGenerateInputFailure initiator traceback =>
    exact recordGenerateInputFailure_copies (Option.mem_toList.mp saved)
  | logTaskError initiator task traceback filename => exact logTaskError_copies saved

end OasisPlatform.AnalysisTasks
