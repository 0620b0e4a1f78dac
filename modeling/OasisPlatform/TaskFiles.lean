import OasisPlatform.AnalysisTasks

/-!
The files that tasks store in the columns of an analysis. A saved instance has in each column
the file that the row had there when it was loaded, or one that the task has made under a name
of that column (`saves_files`). Different columns have different names, but
`handle_task_failure` stores the log of a run in two columns (`names_apart`).
-/
namespace OasisPlatform.TaskFiles
open SharedRow Models AnalysisTasks
set_option linter.unusedSimpArgs false

/-- One of the services makes the file under this name. -/
def Made (env : Env) (name : String) (file : FileId) : Prop :=
  (∃ reference contentType creator, env.storeFile reference contentType creator name = some file) ∨
    ∃ content contentType creator, env.createFile content contentType creator name = some file

def fileName (analysis : AnalysisId) (tail : String) : String := s!"analysis_{analysis}{tail}"

/-- How the names of the files of a column end. -/
def tails : FileColumn → List String
  | .settingsFile => ["_settings.json"]
  | .inputFile => ["_inputs.tar.gz","_inputs.tar.zst"]
  | .inputGenerationTracebackFile => ["_generation_traceback.txt"]
  | .outputFile => ["_output.tar.gz","_output.tar.zst","_outputs.tar.gz","_outputs.tar.zst"]
  | .runTracebackFile => ["_run_traceback.txt","_errors.txt"]
  | .runLogFile => ["_logs.tar.gz","_logs.tar.zst"]
  | .lookupErrorsFile => ["_keys-errors.parquet","_keys-errors.csv"]
  | .lookupSuccessFile => ["_gul_summary_map.parquet","_gul_summary_map.csv"]
  | .lookupValidationFile => ["_exposure_summary_report.json"]
  | .summaryLevelsFile => ["_exposure_summary_levels.json"]

def ColumnName (analysis : AnalysisId) (field : FileColumn) (name : String) : Prop :=
  ∃ tail ∈ tails field, name = fileName analysis tail

def tracebackColumn : TracebackProperty → FileColumn
  | .inputGenerationTracebackFile => .inputGenerationTracebackFile
  | .runTracebackFile => .runTracebackFile

def recordColumn : RecordTask → FileColumn
  | .recordRunAnalysisResult => .runTracebackFile
  | .recordGenerateInputResult => .inputGenerationTracebackFile

/-- The names under which a task makes files for a column. -/
def Names (analysis : AnalysisId) (field : FileColumn) (name : String) : AnalysisTask → Prop
  | .handleTaskFailure failure _ => name = fileName analysis "_worker_traceback.txt" ∧
      (field = tracebackColumn failure.tracebackProperty ∨
        failure.tracebackProperty = .runTracebackFile ∧ field = .runLogFile)
  | .logTaskError _ task _ filename => name = filename ∧ field = recordColumn task
  | _ => ColumnName analysis field name

/-- The columns that may have the same file. -/
def RunColumn (field : FileColumn) : Prop := field = .runTracebackFile ∨ field = .runLogFile

theorem fileName_inj {analysis : AnalysisId} {tail other : String} (same : fileName analysis tail = fileName analysis other) :
    tail = other := by
  have ends : toString tail = toString other := by simpa [fileName] using same
  exact ends

theorem tails_apart {field other : FileColumn} {tail : String} (here : tail ∈ tails field) (there : tail ∈ tails other) :
    field = other := by
  cases field <;> cases other <;> first | rfl | (revert tail; decide)

theorem columnName_apart {analysis : AnalysisId} {field other : FileColumn} {name : String}
    (here : ColumnName analysis field name) (there : ColumnName analysis other name) : field = other := by
  obtain ⟨tail,listed,rfl⟩ := here
  obtain ⟨also,among,same⟩ := there
  rw [← fileName_inj same] at among
  exact tails_apart listed among

/-- Only the log of a failed run is made for two columns. -/
theorem names_apart {analysis : AnalysisId} {field other : FileColumn} {name : String} {task : AnalysisTask}
    (here : Names analysis field name task) (there : Names analysis other name task) :
    field = other ∨ RunColumn field ∧ RunColumn other := by
  cases task with
  | handleTaskFailure failure retries =>
    obtain ⟨_,here⟩ := here
    obtain ⟨_,there⟩ := there
    rcases here with rfl | ⟨run,rfl⟩ <;> rcases there with rfl | ⟨run',rfl⟩
    · exact .inl rfl
    · exact .inr ⟨.inl (by rw [run']; rfl),.inr rfl⟩
    · exact .inr ⟨.inr rfl,.inl (by rw [run]; rfl)⟩
    · exact .inl rfl
  | logTaskError initiator task traceback filename => exact .inl (here.2.trans there.2.symm)
  | _ => exact .inl (columnName_apart here there)

/-- Files that a column may have: the one of the row, or one made under a name of the column. -/
def Allowed (env : Env) (row : AnalysisRow) (named : FileColumn → String → Prop) (field : FileColumn) (file : FileId) :
    Prop :=
  getFile (load row) field = some file ∨ ∃ name, named field name ∧ Made env name file

def Stores (allowed : FileColumn → FileId → Prop) (analysis : Analysis) : Prop :=
  ∀ field file, getFile analysis field = some file → allowed field file

def fileColumns : List Column :=
  [.settingsFile,.inputFile,.inputGenerationTracebackFile,.outputFile,.runTracebackFile,.runLogFile,.lookupErrorsFile,
    .lookupSuccessFile,.lookupValidationFile,.summaryLevelsFile]

theorem getFile_set {c : Column} (other : c ∉ fileColumns) (analysis : Analysis) (value : ColumnType c)
    (field : FileColumn) : getFile (analysis.set c value) field = getFile analysis field := by
  cases field <;> exact set_values_other analysis value (by rintro rfl; exact other (by decide))

theorem getFile_setFile (analysis : Analysis) (file : Option FileId) (field other : FileColumn) :
    getFile (setFile analysis file field) other = if other = field then file else getFile analysis other := by
  cases field <;> cases other <;> simp [setFile,getFile]

section Stores
variable {allowed : FileColumn → FileId → Prop} {analysis : Analysis}

theorem Stores.set {c : Column} (stores : Stores allowed analysis) (other : c ∉ fileColumns) (value : ColumnType c) :
    Stores allowed (analysis.set c value) := by
  intro field file named
  rw [getFile_set other] at named
  exact stores field file named

theorem Stores.setFile (stores : Stores allowed analysis) (field : FileColumn) {file : Option FileId}
    (fits : ∀ id, file = some id → allowed field id) : Stores allowed (setFile analysis file field) := by
  intro other id named
  rw [getFile_setFile] at named
  by_cases here : other = field
  · rw [if_pos here] at named
    exact here ▸ fits id named
  · rw [if_neg here] at named
    exact stores other id named

theorem Stores.clear (stores : Stores allowed analysis) (field : FileColumn) :
    Stores allowed (AnalysisTasks.setFile analysis none field) :=
  stores.setFile field fun _ absent => nomatch absent

/-- A column that is set when a location is given. -/
theorem Stores.given (stores : Stores allowed analysis) (field : FileColumn) {location : Option String}
    {value : Option (Option FileId)} (fits : ∀ file, value = some file → ∀ id, file = some id → allowed field id)
    {result : Analysis}
    (given : whenGiven location analysis (value.map fun file => AnalysisTasks.setFile analysis file field) = some result) :
    Stores allowed result := by
  rcases whenGiven_some given with rfl | stored
  · exact stores
  · obtain ⟨file,found,rfl⟩ := Option.map_eq_some_iff.mp stored
    exact stores.setFile field (fits file found)

theorem deletePrevOutput_stores (env : Env) (stores : Stores allowed analysis) (fields : List FileColumn) :
    Stores allowed (deletePrevOutput env analysis fields).1.loaded :=
  deletePrevOutput_keeps env (fun _ field stores => stores.clear field) stores fields

theorem thenSave_stores {env : Env} {fields : List FileColumn} (stores : Stores allowed analysis)
    {rest : Analysis → Option AnalysisSave}
    (restStores : ∀ other save, Stores allowed other → rest other = some save → Stores allowed save.loaded)
    {save : AnalysisSave} (saved : save ∈ thenSave (deletePrevOutput env analysis fields) rest) :
    Stores allowed save.loaded := by
  have cleared := deletePrevOutput_stores env stores fields
  rcases thenSave_cases saved with rfl | second
  · exact cleared
  · exact restStores _ save cleared second

theorem withTraceback_stores {env : Env} {initiator : UserId} {traceback filename : String} {field : FileColumn}
    (stores : Stores allowed analysis) (fits : ∀ id, Made env filename id → allowed field id) {result : Analysis}
    (stored : withTraceback env initiator traceback filename field analysis = some result) : Stores allowed result := by
  unfold withTraceback at stored
  split_ifs at stored
  · exact Option.some.inj stored ▸ stores
  · obtain ⟨file,made,rfl⟩ := Option.map_eq_some_iff.mp stored
    refine stores.setFile field fun id same => ?_
    cases same
    exact fits file (.inr ⟨_,_,_,made⟩)

end Stores

/-! ### Files that are made -/

section Made
variable {env : Env} {row : AnalysisRow} {analysis : AnalysisId} {field : FileColumn}
  {reference : Option String} {contentType : String} {creator : UserId} {stored : Option FileId}

theorem store_made {name : String} (found : env.store reference contentType creator name = some stored) (id : FileId)
    (same : stored = some id) : Made env name id := by
  simp only [Env.store,Option.bind_eq_bind,Option.bind_eq_some_iff,Option.some.injEq] at found
  obtain ⟨reference,_,file,made,rfl⟩ := found
  cases same
  exact .inl ⟨reference,contentType,creator,made⟩

theorem store_allowed (tail : String) (listed : tail ∈ tails field)
    (found : env.store reference contentType creator (fileName analysis tail) = some stored) (id : FileId)
    (same : stored = some id) : Allowed env row (ColumnName analysis) field id :=
  .inr ⟨fileName analysis tail,⟨tail,listed,rfl⟩,store_made found id same⟩

theorem storeOptional_allowed (tail : String) (listed : tail ∈ tails field)
    (found : env.storeOptional reference contentType creator (fileName analysis tail) = some stored) (id : FileId)
    (same : stored = some id) : Allowed env row (ColumnName analysis) field id := by
  cases reference with
  | none =>
    cases found
    cases same
  | some reference => exact store_allowed tail listed found id same

theorem storeArchive_allowed (tail : String) (zstd : tail ++ "." ++ "tar.zst" ∈ tails field)
    (gzip : tail ++ "." ++ "tar.gz" ∈ tails field)
    (found : env.storeArchive reference creator (fileName analysis tail) = some stored) (id : FileId)
    (same : stored = some id) : Allowed env row (ColumnName analysis) field id := by
  have named : ∀ suffix, s!"{fileName analysis tail}.{suffix}" = fileName analysis (tail ++ "." ++ suffix) := by
    intro suffix
    show ("analysis_" ++ toString analysis ++ tail) ++ "." ++ suffix =
      "analysis_" ++ toString analysis ++ (tail ++ "." ++ suffix)
    simp only [String.append_assoc]
  simp only [Env.storeArchive,named] at found
  have listed : tail ++ "." ++ String.ofList (UrlText.archiveSuffix (reference.getD "None").toList) ∈ tails field := by
    unfold UrlText.archiveSuffix
    split_ifs
    · rw [String.ofList_toList]
      exact zstd
    · rw [String.ofList_toList]
      exact gzip
  exact store_allowed _ listed found id same

theorem created_allowed (tail : String) {content : String} (listed : tail ∈ tails field) {file : FileId}
    (made : env.createFile content contentType creator (fileName analysis tail) = some file) (id : FileId)
    (same : some file = some id) : Allowed env row (ColumnName analysis) field id := by
  cases same
  exact .inr ⟨fileName analysis tail,⟨tail,listed,rfl⟩,.inr ⟨_,_,_,made⟩⟩

theorem storeLookupErrorsFile_allowed (found : storeLookupErrorsFile env reference creator analysis = some stored)
    (id : FileId) (same : stored = some id) : Allowed env row (ColumnName analysis) .lookupErrorsFile id := by
  unfold storeLookupErrorsFile at found
  split_ifs at found
  · exact store_allowed "_keys-errors.parquet" (by decide) found id same
  · exact store_allowed "_keys-errors.csv" (by decide) found id same

theorem storeLookupSuccessFile_allowed (found : storeLookupSuccessFile env reference creator analysis = some stored)
    (id : FileId) (same : stored = some id) : Allowed env row (ColumnName analysis) .lookupSuccessFile id := by
  unfold storeLookupSuccessFile at found
  split_ifs at found
  · exact store_allowed "_gul_summary_map.parquet" (by decide) found id same
  · exact store_allowed "_gul_summary_map.csv" (by decide) found id same

theorem load_stores (env : Env) (row : AnalysisRow) (named : FileColumn → String → Prop) :
    Stores (Allowed env row named) (load row) := fun _ _ => .inl

end Made

/-- `record_combine_output`, with the archive or the error of the combination. -/
def recordCombineOutput (env : Env) (analysisId : AnalysisId) (result : Except String String) (userId : UserId)
    (row : AnalysisRow) : Option AnalysisSave := do
  guard (env.userExists userId)
  match result with
  | .ok filePath =>
    let outputFile ← env.storeArchive (some filePath) userId s!"analysis_{analysisId}_outputs"
    some (Analysis.save (((load row).set .outputFile outputFile).set .status .runCompleted))
  | .error text =>
    let errorFile ← env.createFile text "text/plain" userId s!"analysis_{analysisId}_errors.txt"
    some (Analysis.save (((load row).set .runTracebackFile (some errorFile)).set .status .runError))

section Tasks
variable {env : Env} {row : AnalysisRow} {subTasks : List SubTask} {analysisId : AnalysisId} {save : AnalysisSave}

theorem recordInputFiles_stores {result : InputResult} {initiator : UserId} {finish : AnalysisStatus}
    (saved : recordInputFiles env subTasks analysisId result initiator finish row = some save) :
    Stores (Allowed env row (ColumnName analysisId)) save.loaded := by
  simp only [recordInputFiles,Option.bind_eq_bind,Option.bind_eq_some_iff,Option.some.injEq] at saved
  obtain ⟨_,_,inputFile,input,errorsFile,errors,successFile,success,validationFile,validation,levelsFile,levels,analysis,
    settings,_,_,traceback,created,rfl⟩ := saved
  have base := ((load_stores env row (ColumnName analysisId)).set (c := .taskFinished) (by decide) (some env.now)).set
    (c := .status) (by decide) .ready
  have base := base.setFile .inputFile
    (storeArchive_allowed "_inputs" (by decide) (by decide) input)
  have base := base.setFile .lookupErrorsFile (storeLookupErrorsFile_allowed errors)
  have base := base.setFile .lookupSuccessFile (storeLookupSuccessFile_allowed success)
  have base := base.setFile .lookupValidationFile
    (store_allowed "_exposure_summary_report.json" (by decide) validation)
  have base := base.setFile .summaryLevelsFile
    (store_allowed "_exposure_summary_levels.json" (by decide) levels)
  have base := base.given .settingsFile
    (fun _ => storeOptional_allowed "_settings.json" (by decide)) settings
  exact base.setFile .inputGenerationTracebackFile
    (created_allowed "_generation_traceback.txt" (by decide) created)

theorem recordInputErrorFiles_stores {initiator : UserId} {outputLocation lookupErrorLocation : Option String}
    (saved : recordInputErrorFiles env analysisId initiator outputLocation lookupErrorLocation row = some save) :
    Stores (Allowed env row (ColumnName analysisId)) save.loaded := by
  simp only [recordInputErrorFiles,Option.bind_eq_bind,Option.bind_eq_some_iff,Option.some.injEq] at saved
  obtain ⟨_,_,_,input,_,errors,rfl⟩ := saved
  have base := (load_stores env row (ColumnName analysisId)).given .inputFile
    (fun _ => storeArchive_allowed "_inputs" (by decide) (by decide)) input
  exact base.given .lookupErrorsFile (fun _ => storeLookupErrorsFile_allowed) errors

theorem recordLossesFiles_stores {result : LossesResult} {initiator : UserId}
    (saved : recordLossesFiles env subTasks analysisId result initiator row = some save) :
    Stores (Allowed env row (ColumnName analysisId)) save.loaded := by
  simp only [recordLossesFiles,Option.bind_eq_bind,Option.bind_eq_some_iff,Option.some.injEq] at saved
  obtain ⟨_,_,_,_,traceback,created,_,logs,outputFile,output,rfl⟩ := saved
  have base := ((load_stores env row (ColumnName analysisId)).set (c := .status) (by decide) .runCompleted).set
    (c := .taskFinished) (by decide) (some env.now)
  have base := base.setFile .runTracebackFile
    (created_allowed "_run_traceback.txt" (by decide) created)
  have base := base.given .runLogFile
    (fun _ => storeArchive_allowed "_logs" (by decide) (by decide)) logs
  exact base.setFile .outputFile (storeArchive_allowed "_output" (by decide) (by decide) output)

theorem recordLossesErrorFiles_stores {initiator : UserId} {outputLocation runLogs : Option String}
    (saved : recordLossesErrorFiles env analysisId initiator outputLocation runLogs row = some save) :
    Stores (Allowed env row (ColumnName analysisId)) save.loaded := by
  simp only [recordLossesErrorFiles,Option.bind_eq_bind,Option.bind_eq_some_iff,Option.some.injEq] at saved
  obtain ⟨_,_,_,output,_,logs,rfl⟩ := saved
  have base := (load_stores env row (ColumnName analysisId)).given .outputFile
    (fun _ => storeArchive_allowed "_output" (by decide) (by decide)) output
  exact base.given .runLogFile
    (fun _ => storeArchive_allowed "_logs" (by decide) (by decide)) logs

/-- The log of a run goes to two columns, whether or not there has been one. -/
theorem handleTaskFailure_stores {failure : Failure} {retries : Nat}
    (saved : handleTaskFailure env subTasks analysisId failure retries row = some save) :
    Stores (Allowed env row fun field name => Names analysisId field name (.handleTaskFailure failure retries))
      save.loaded := by
  have base : Stores (Allowed env row fun field name => Names analysisId field name (.handleTaskFailure failure retries))
      ((withFailureStatus failure.failureStatus row).set .taskFinished (some env.now)) := by
    refine Stores.set ?_ (by decide) _
    unfold withFailureStatus
    split_ifs
    · exact load_stores _ _ _
    · exact (load_stores _ _ _).set (by decide) _
  obtain ⟨_,log,created,⟨property,rfl⟩ | ⟨property,rfl⟩⟩ := handleTaskFailure_cases saved
  · refine base.setFile .inputGenerationTracebackFile fun id same => ?_
    cases same
    exact .inr ⟨_,⟨rfl,.inl (by rw [property]; rfl)⟩,.inr ⟨_,_,_,created⟩⟩
  · have traced := base.setFile .runTracebackFile fun id (same : some log = some id) => by
      cases same
      exact .inr ⟨_,⟨rfl,.inl (by rw [property]; rfl)⟩,.inr ⟨_,_,_,created⟩⟩
    refine traced.setFile .runLogFile fun id same => ?_
    cases same
    exact .inr ⟨_,⟨rfl,.inr ⟨property,rfl⟩⟩,.inr ⟨_,_,_,created⟩⟩

theorem recordRunAnalysisResult_stores {res : RunResult} {initiator : UserId}
    (saved : save ∈ recordRunAnalysisResult env analysisId res initiator row) :
    Stores (Allowed env row (ColumnName analysisId)) save.loaded := by
  unfold recordRunAnalysisResult at saved
  by_cases unknown : ¬ env.userExists initiator = true
  · rw [if_pos unknown] at saved
    cases saved
  · rw [if_neg unknown] at saved
    refine thenSave_stores (((load_stores env row (ColumnName analysisId)).set (by decide) _).set (by decide) _) ?_ saved
    intro other later stores second
    have rest : ∀ analysis, Stores (Allowed env row (ColumnName analysisId)) analysis → ∀ logged,
        whenGiven res.logLocation analysis ((env.storeArchive res.logLocation initiator
          (fileName analysisId "_logs")).map (analysis.set .runLogFile)) = some logged → ∀ traced,
        whenGiven res.tracebackLocation logged ((env.store res.tracebackLocation "text/plain" initiator
          (fileName analysisId "_run_traceback.txt")).map (logged.set .runTracebackFile)) = some traced →
        Stores (Allowed env row (ColumnName analysisId)) traced := by
      intro analysis base logged logs traced traceback
      have base := base.given .runLogFile
        (fun _ => storeArchive_allowed "_logs" (by decide) (by decide)) logs
      exact base.given .runTracebackFile
        (fun _ => store_allowed "_run_traceback.txt" (by decide)) traceback
    by_cases completed : res.returnCode = 0
    · simp only [if_pos completed,Option.bind_eq_bind,Option.bind_eq_some_iff,Option.some.injEq] at second
      obtain ⟨_,output,logged,logs,traced,traceback,rfl⟩ := second
      obtain ⟨file,found,rfl⟩ := Option.map_eq_some_iff.mp output
      exact rest _ (stores.setFile .outputFile
        (storeArchive_allowed "_output" (by decide) (by decide) found)) logged logs traced traceback
    · simp only [if_neg completed,Option.bind_eq_bind,Option.bind_some,Option.bind_eq_some_iff,Option.some.injEq] at second
      obtain ⟨logged,logs,traced,traceback,rfl⟩ := second
      exact rest other stores logged logs traced traceback

/-- A file that is stored when there is a location for it. -/
theorem storeOrNone_allowed {location : Option String} {found : Option (Option FileId)} {field : FileColumn}
    {allowed : FileColumn → FileId → Prop} (fits : ∀ file, found = some file → ∀ id, file = some id → allowed field id)
    {stored : Option FileId} (given : storeOrNone location found = some stored) (id : FileId)
    (same : stored = some id) : allowed field id := by
  unfold storeOrNone at given
  split_ifs at given
  · exact fits stored given id same
  · cases given
    cases same

theorem recordGenerateInputResult_stores {result : GenerateInputResult} {initiator : UserId}
    (saved : save ∈ recordGenerateInputResult env analysisId result initiator row) :
    Stores (Allowed env row (ColumnName analysisId)) save.loaded := by
  unfold recordGenerateInputResult at saved
  by_cases unknown : ¬ env.userExists initiator = true
  · rw [if_pos unknown] at saved
    cases saved
  · rw [if_neg unknown] at saved
    refine thenSave_stores (load_stores env row (ColumnName analysisId)) ?_ saved
    intro other later stores second
    simp only [Option.bind_eq_bind,Option.bind_eq_some_iff,Option.some.injEq] at second
    obtain ⟨inputFile,input,successFile,success,errorsFile,errors,validationFile,validation,levelsFile,levels,_,settings,
      _,traceback,rfl⟩ := second
    have base : Stores (Allowed env row (ColumnName analysisId)) (if result.returnCode = 0 then other.set .status .ready
        else if other.values .status ≠ .inputsGenerationNoKeys then other.set .status .inputsGenerationError
        else other) := by
      split_ifs
      · exact stores.set (by decide) _
      · exact stores.set (by decide) _
      · exact stores
    have base := base.setFile .inputFile (storeOrNone_allowed
      (fun _ => storeArchive_allowed "_inputs" (by decide) (by decide)) input)
    have base := base.setFile .lookupSuccessFile (storeOrNone_allowed
      (fun _ => storeLookupSuccessFile_allowed) success)
    have base := base.setFile .lookupErrorsFile (storeOrNone_allowed
      (fun _ => storeLookupErrorsFile_allowed) errors)
    have base := base.setFile .lookupValidationFile (storeOrNone_allowed
      (fun _ => store_allowed "_exposure_summary_report.json" (by decide)) validation)
    have base := base.setFile .summaryLevelsFile (storeOrNone_allowed
      (fun _ => store_allowed "_exposure_summary_levels.json" (by decide)) levels)
    have base := (base.set (c := .taskFinished) (by decide) (some env.now)).given .settingsFile
      (fun _ => storeOptional_allowed "_settings.json" (by decide)) settings
    exact base.given .inputGenerationTracebackFile
      (fun _ => store_allowed "_generation_traceback.txt" (by decide)) traceback

theorem recordRunAnalysisFailure_stores {initiator : UserId} {traceback : String}
    (saved : recordRunAnalysisFailure env analysisId initiator traceback row = some save) :
    Stores (Allowed env row (ColumnName analysisId)) save.loaded := by
  simp only [recordRunAnalysisFailure,Option.bind_eq_bind,Option.bind_eq_some_iff] at saved
  obtain ⟨analysis,stored,saved⟩ := saved
  have base := withTraceback_stores (((load_stores env row (ColumnName analysisId)).set (by decide) _).set (by decide) _)
    (fun id made => .inr ⟨_,⟨"_run_traceback.txt",by decide,rfl⟩,made⟩) stored
  cases old : row .runLogFile with
  | none =>
    simp only [old,Option.some.injEq] at saved
    exact saved ▸ base
  | some log =>
    simp only [old,Option.bind_eq_some_iff,Option.some.injEq] at saved
    obtain ⟨_,_,rfl⟩ := saved
    exact base.clear .runLogFile

theorem recordGenerateInputFailure_stores {initiator : UserId} {traceback : String}
    (saved : recordGenerateInputFailure env analysisId initiator traceback row = some save) :
    Stores (Allowed env row (ColumnName analysisId)) save.loaded := by
  simp only [recordGenerateInputFailure,Option.bind_eq_bind,Option.bind_eq_some_iff,Option.some.injEq] at saved
  obtain ⟨analysis,stored,rfl⟩ := saved
  exact withTraceback_stores (((load_stores env row (ColumnName analysisId)).set (by decide) _).set (by decide) _)
    (fun id made => .inr ⟨_,⟨"_generation_traceback.txt",by decide,rfl⟩,made⟩) stored

theorem logTaskError_stores {initiator : UserId} {task : RecordTask} {traceback filename : String}
    (saved : save ∈ logTaskError env initiator task traceback filename row) :
    Stores (Allowed env row fun field name => Names analysisId field name (.logTaskError initiator task traceback filename))
      save.loaded := by
  have base := (load_stores env row fun field name =>
    Names analysisId field name (.logTaskError initiator task traceback filename)).set (c := .taskFinished) (by decide)
    (some env.now)
  obtain ⟨status,same⟩ | ⟨_,file,created,⟨rfl,same⟩ | ⟨rfl,same⟩⟩ := logTaskError_cases saved
  · exact same ▸ base.set (c := .status) (by decide) status
  · rw [same]
    refine (base.set (c := .status) (by decide) .inputsGenerationError).setFile .inputGenerationTracebackFile
      fun id same => ?_
    cases same
    exact .inr ⟨filename,⟨rfl,rfl⟩,.inr ⟨_,_,_,created⟩⟩
  · rw [same]
    have stored := (base.set (c := .status) (by decide) .runError).setFile .runTracebackFile
      fun id (same : some file = some id) => by
        cases same
        exact .inr ⟨filename,⟨rfl,rfl⟩,.inr ⟨_,_,_,created⟩⟩
    exact deletePrevOutput_stores env stored [.runLogFile]

/-- What a task saves has the files of the row that it loaded, and files that it made under names of
    their columns. -/
theorem saves_files {task : AnalysisTask} (saved : save ∈ saves env subTasks analysisId row task) :
    Stores (Allowed env row fun field name => Names analysisId field name task) save.loaded := by
  cases task with
  | setTaskStatusV2 taskStatus dt =>
    simp only [saves,setTaskStatusV2] at saved
    split_ifs at saved
    · cases saved
    · rw [List.mem_singleton.mp saved]
      exact ((load_stores _ _ _).set (by decide) _).set (by decide) _
  | recordInputFiles result initiator finish => exact recordInputFiles_stores (Option.mem_toList.mp saved)
  | recordInputErrorFiles initiator output errors => exact recordInputErrorFiles_stores (Option.mem_toList.mp saved)
  | recordLossesFiles result initiator => exact recordLossesFiles_stores (Option.mem_toList.mp saved)
  | recordLossesErrorFiles initiator output logs => exact recordLossesErrorFiles_stores (Option.mem_toList.mp saved)
  | handleTaskFailure failure retries => exact handleTaskFailure_stores (Option.mem_toList.mp saved)
  | setTaskStatus taskStatus =>
    rw [List.mem_singleton.mp saved]
    exact ((load_stores _ _ _).set (by decide) _).set (by decide) _
  | recordRunAnalysisResult res initiator => exact recordRunAnalysisResult_stores saved
  | recordGenerateInputResult result initiator => exact recordGenerateInputResult_stores saved
  | recordRunAnalysisFailure initiator traceback => exact recordRunAnalysisFailure_stores (Option.mem_toList.mp saved)
  | recordGenerateInputFailure initiator traceback =>
    exact recordGenerateInputFailure_stores (Option.mem_toList.mp saved)
  | logTaskError initiator task traceback filename => exact logTaskError_stores saved

theorem recordCombineOutput_stores {result : Except String String} {userId : UserId}
    (saved : recordCombineOutput env analysisId result userId row = some save) :
    Stores (Allowed env row (ColumnName analysisId)) save.loaded := by
  simp only [recordCombineOutput,Option.bind_eq_bind,Option.bind_eq_some_iff] at saved
  obtain ⟨_,_,saved⟩ := saved
  cases result with
  | ok filePath =>
    simp only [Option.bind_eq_some_iff,Option.some.injEq] at saved
    obtain ⟨outputFile,output,rfl⟩ := saved
    exact ((load_stores env row (ColumnName analysisId)).setFile .outputFile
      (storeArchive_allowed "_outputs" (by decide) (by decide) output)).set (by decide) _
  | error text =>
    simp only [Option.bind_eq_some_iff,Option.some.injEq] at saved
    obtain ⟨errorFile,created,rfl⟩ := saved
    exact ((load_stores env row (ColumnName analysisId)).setFile .runTracebackFile
      (created_allowed "_errors.txt" (by decide) created)).set (by decide) _

end Tasks

end OasisPlatform.TaskFiles
