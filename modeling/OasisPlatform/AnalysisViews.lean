import OasisPlatform.AutoscalerRules
import OasisPlatform.Cancellation
import OasisPlatform.GroupAccess
import OasisPlatform.Starting

/-!
The requests to `AnalysisViewSet`: what each of them answers and which tasks it dispatches.
Most actions take the analysis from the queryset of the user, which has the analyses of
the portfolios whose groups the user shares, or that have none. `combine` and
`run_progress` take theirs from the table.
-/
namespace OasisPlatform.AnalysisViews
open OasisPlatform.SharedRow OasisPlatform.Models OasisPlatform.Starting OasisPlatform.Cancellation
open OasisPlatform.AutoscalerRules OasisPlatform.GroupAccess OasisPlatform.JsonValues
set_option linter.unusedSimpArgs false

variable {γ : Type} [DecidableEq γ]

/-- A file in the store, with its conversion when that is done. -/
structure RelatedFile (γ : Type) where
  filename : String
  contentType : String
  groups : List γ
  content : String
  converted : Option String := none

inductive FileField where
  | settingsFile
  | inputFile
  | inputGenerationTracebackFile
  | outputFile
  | runTracebackFile
  | runLogFile
  | lookupErrorsFile
  | lookupSuccessFile
  | lookupValidationFile
  | summaryLevelsFile
  deriving DecidableEq, Repr

/-- The order of `AnalysisStorageSerializer`. -/
def fileFields : List FileField :=
  [.settingsFile,.inputFile,.inputGenerationTracebackFile,.outputFile,.runTracebackFile,.runLogFile,.lookupErrorsFile,
    .lookupSuccessFile,.lookupValidationFile,.summaryLevelsFile]

def fileId (row : AnalysisRow) : FileField → Option FileId
  | .settingsFile => row .settingsFile
  | .inputFile => row .inputFile
  | .inputGenerationTracebackFile => row .inputGenerationTracebackFile
  | .outputFile => row .outputFile
  | .runTracebackFile => row .runTracebackFile
  | .runLogFile => row .runLogFile
  | .lookupErrorsFile => row .lookupErrorsFile
  | .lookupSuccessFile => row .lookupSuccessFile
  | .lookupValidationFile => row .lookupValidationFile
  | .summaryLevelsFile => row .summaryLevelsFile

structure ChunkingConfig extends ChunkingOptions where
  dynamicLocationsPerLookup : Nat
  dynamicEventsPerAnalysis : Nat
  dynamicChunksMax : Nat
  fixedAnalysisChunks : Nat
  fixedLookupChunks : Nat

/-- An analysis with its sub-tasks and the files that its columns name. -/
structure AnalysisRecord (γ : Type) where
  id : AnalysisId
  name : String
  creator : UserId
  created : Time
  modified : Time
  portfolio : Nat
  model : Option Nat
  row : AnalysisRow
  chunkingOptions : Option ChunkingConfig
  dataFiles : List Nat
  subTasks : List SubTask
  stored : FileId → Option (RelatedFile γ)

def AnalysisRecord.file (analysis : AnalysisRecord γ) (field : FileField) : Option (RelatedFile γ) :=
  (fileId analysis.row field).bind analysis.stored

structure PortfolioRecord (γ : Type) where
  id : Nat
  groups : List γ
  files : Starting.Portfolio
  reinsuranceInfoFile : Option FileId := none
  reinsuranceScopeFile : Option FileId := none
  currencyConversionJson : Option FileId := none
  reportingCurrency : Option String := none

structure ModelRecord (γ : Type) where
  model : Starting.AnalysisModel
  groups : List γ
  queueName : String
  scalingStrategy : Option ScalingStrategy

structure DataFileRecord (γ : Type) where
  id : Nat
  groups : List γ
  fileDescription : String
  file : FileId

/-- The tables besides the analyses, and the files of their rows. -/
structure Shared (γ : Type) where
  portfolios : List (PortfolioRecord γ)
  models : List (ModelRecord γ)
  dataFiles : List (DataFileRecord γ)
  files : FileId → Option (RelatedFile γ)
  nextId : Nat
  portfolioKey : (portfolios.map PortfolioRecord.id).Nodup

structure Database (γ : Type) where
  shared : Shared γ
  analyses : List (AnalysisRecord γ)
  primaryKey : (analyses.map AnalysisRecord.id).Nodup

def Shared.portfolioOf (shared : Shared γ) (id : Nat) : Option (PortfolioRecord γ) :=
  shared.portfolios.find? fun portfolio => portfolio.id = id

def Shared.modelOf (shared : Shared γ) (id : Nat) : Option (ModelRecord γ) :=
  shared.models.find? fun record => record.model.id = id

/-- What the server takes from its settings and from services. -/
structure Site (γ : Type) where
  names : GroupNames γ
  env : Env
  fileStorageLink : RelatedFile γ → (fullpath : Bool) → Option String
  listTarFile : RelatedFile γ → List String
  extractFileFromTar : RelatedFile γ → (filename : String) → Option String
  fileLen : RelatedFile γ → Except String Nat
  parseJson : String → Option Json
  str : Json → String
  adminLevels : List Nat
  taskControllerQueue : String
  validateSettings : String → Except ValidationErrors String
  taskId : String

/-- What `AnalysisListSerializer` and `AnalysisSerializer` show of an analysis; files are
    shown as links, where there are any. -/
structure AnalysisData (γ : Type) where
  id : AnalysisId
  name : String
  created : Time
  modified : Time
  portfolio : Nat
  model : Option Nat
  status : AnalysisStatus
  runMode : Option RunMode
  taskStarted : Option Time
  taskFinished : Option Time
  dataFiles : List Nat
  priority : Nat
  numEventsTotal : Int
  numEventsComplete : Int
  groups : List γ
  analysisChunks : Option Nat
  lookupChunks : Option Nat
  subTaskCount : Nat
  subTaskErrorIds : List Nat
  statusCount : List Nat
  files : List Bool

inductive Response (γ : Type) where
  | notFound
  | forbidden (message : String)
  | invalid (errors : ValidationErrors)
  | serverError
  | done
  | analysis (data : AnalysisData γ)
  | analyses (data : List (AnalysisData γ))
  | download (file : RelatedFile γ) (fileFormat : Option String) (converted : Bool)
  | stored (filename contentType : String)
  | tarList (files : List String)
  | tarMember (filename content : String)
  | dataFiles (files : List (DataFileRecord γ))
  | storageLinks (links : List (Option String))
  | subTasks (rows : List SubTask)
  | chunking (options : Option ChunkingConfig)
  | status (text : String)

inductive DispatchedTask where
  | start (queueName : String) (task : StartTask) (analysis : AnalysisId) (initiator : UserId) (priority : Option Nat)
    (args : List (Option String))
  | queueStatusDigest
  | cancelSubtasks (analysis : AnalysisId)
  | revoke (taskId : String)
  | runCombine (inputFiles outputFiles : List (Option String)) (config : String)
  | recordCombineOutput (analysis : AnalysisId) (initiator : UserId)

abbrev Outcome (γ : Type) := Response γ × List DispatchedTask

def statusCount (rows : List SubTask) : List Nat :=
  let count := fun statuses : List TaskStatus => (rows.filter fun row => row.status ∈ statuses).length
  [count [.pending,.queued,.started],rows.length,count [.pending],count [.queued],count [.started],count [.completed],
    count [.cancelled],count [.error]]

def serialize (shared : Shared γ) (analysis : AnalysisRecord γ) : AnalysisData γ where
  id := analysis.id
  name := analysis.name
  created := analysis.created
  modified := analysis.modified
  portfolio := analysis.portfolio
  model := analysis.model
  status := analysis.row .status
  runMode := analysis.row .runMode
  taskStarted := analysis.row .taskStarted
  taskFinished := analysis.row .taskFinished
  dataFiles := analysis.dataFiles
  priority := analysis.row .priority
  numEventsTotal := analysis.row .numEventsTotal
  numEventsComplete := analysis.row .numEventsComplete
  groups := (shared.portfolioOf analysis.portfolio).elim [] PortfolioRecord.groups
  analysisChunks := analysis.row .analysisChunks
  lookupChunks := analysis.row .lookupChunks
  subTaskCount := analysis.subTasks.length
  subTaskErrorIds := (analysis.subTasks.filter fun row => row.status = .error).map SubTask.id
  statusCount := statusCount analysis.subTasks
  files := fileFields.map fun field => (fileId analysis.row field).isSome

/-- The fields that a request may set, where they are there. -/
structure Attrs where
  name : Option String := none
  portfolio : Option Nat := none
  model : Option Nat := none
  dataFiles : Option (List Nat) := none
  priority : Option Nat := none
  settings : Option String := none
  numEventsTotal : Option Int := none
  numEventsComplete : Option Int := none

def invalidPk (pk : Nat) : String := "Invalid pk \"" ++ toString pk ++ "\" - object does not exist."

/-- `to_internal_value`: keys that lead nowhere, deleted models among them, and fields that
    a request must have. -/
def fieldErrors (shared : Shared γ) (required : Bool) (attrs : Attrs) : ValidationErrors :=
  (if required && attrs.name.isNone then [("name","This field is required.")] else []) ++
    (match attrs.portfolio with
      | none => if required then [("portfolio","This field is required.")] else []
      | some pk => if (shared.portfolioOf pk).isNone then [("portfolio",invalidPk pk)] else []) ++
    (match attrs.model with
      | none => []
      | some pk => if (shared.modelOf pk).any fun record => !record.model.deleted then [] else [("model",invalidPk pk)]) ++
    ((attrs.dataFiles.getD []).filter fun pk => !shared.dataFiles.any fun file => file.id = pk).map
      (fun pk => ("complex_model_data_files",invalidPk pk)) ++
    match attrs.priority with
    | none => []
    | some priority =>
      if priority < 1 then [("priority","Ensure this value is greater than or equal to 1.")]
      else if 10 < priority then [("priority","Ensure this value is less than or equal to 10.")]
      else []

def allowed (site : Site γ) (user : User γ) (groups : List γ) : Bool :=
  match verifyAndGetGroups site.names user (some groups) with
  | .ok _ => true
  | .error _ => false

def validateDataFiles (site : Site γ) (shared : Shared γ) (user : User γ) (dataFiles : List Nat) :
    Except ValidationErrors Unit :=
  match (shared.dataFiles.filter fun file => file.id ∈ dataFiles).find? fun file => !allowed site user file.groups with
  | some file => .error [("data_files","You are not allowed to use data file " ++ toString file.id)]
  | none => .ok ()

def validatePriority (site : Site γ) (user : User γ) (priority : Option Nat) : Except ValidationErrors Unit :=
  match priority with
  | some priority =>
    if !user.isAdmin && priority ∈ site.adminLevels then
      .error [("priority","Levels restricted to administrators: [" ++
        ", ".intercalate (site.adminLevels.map toString) ++ "]")]
    else .ok ()
  | none => .ok ()

def validateModelGroups (site : Site γ) (user : User γ) (model : Option (ModelRecord γ)) : Except ValidationErrors Unit :=
  if model.all fun record => allowed site user record.groups then .ok ()
  else .error [("model","You are not allowed to use this model")]

def validatePortfolio (site : Site γ) (user : User γ) (portfolio : Option (PortfolioRecord γ)) :
    Except ValidationErrors Unit :=
  match portfolio with
  | none => .ok ()
  | some portfolio =>
    if !allowed site user portfolio.groups then .error [("portfolio","You are not allowed to use this portfolio")]
    else if portfolio.files.locationFile.isNone && portfolio.files.accountsFile.isNone then
      .error [("portfolio","either \"location_file\" or \"accounts_file\" must not be null")]
    else .ok ()

def validateRunMode (model : Option (ModelRecord γ)) : Except ValidationErrors Unit :=
  match model with
  | none => .ok ()
  | some record =>
    if record.model.runMode.isNone then
      .error [("model","Model pk \"" ++ toString record.model.id ++ "\" - 'run_mode' must not be null")]
    else .ok ()

/-- `AnalysisSerializer.is_valid`, with the settings as they are to be stored. -/
def validateAttrs (site : Site γ) (shared : Shared γ) (user : User γ) (required : Bool) (attrs : Attrs) :
    Except ValidationErrors Attrs := do
  let errors := fieldErrors shared required attrs
  if errors ≠ [] then .error errors
  else
    validateDataFiles site shared user (attrs.dataFiles.getD [])
    validatePriority site user attrs.priority
    let model := attrs.model.bind shared.modelOf
    validateModelGroups site user model
    validatePortfolio site user (attrs.portfolio.bind shared.portfolioOf)
    validateRunMode model
    match attrs.settings with
    | none => .ok attrs
    | some settings => do
      let text ← site.validateSettings settings
      .ok { attrs with settings := some text }

/-- The settings as a new file of the analysis. -/
def setSettings (shared : Shared γ) (analysis : AnalysisRecord γ) (content : String) : AnalysisRecord γ :=
  { analysis with
    row := Function.update analysis.row .settingsFile (some shared.nextId)
    stored := Function.update analysis.stored shared.nextId
      (some ⟨"analysis_settings.json","application/json",[],content,none⟩) }

def applyAttrs (site : Site γ) (shared : Shared γ) (analysis : AnalysisRecord γ) (attrs : Attrs) : AnalysisRecord γ :=
  let row := Function.update (Function.update (Function.update analysis.row .priority
    (attrs.priority.getD (analysis.row .priority))) .numEventsTotal
    (attrs.numEventsTotal.getD (analysis.row .numEventsTotal))) .numEventsComplete
    (attrs.numEventsComplete.getD (analysis.row .numEventsComplete))
  let changed := { analysis with
    name := attrs.name.getD analysis.name
    portfolio := attrs.portfolio.getD analysis.portfolio
    model := attrs.model <|> analysis.model
    dataFiles := attrs.dataFiles.getD analysis.dataFiles
    modified := site.env.now
    row := row }
  attrs.settings.elim changed (setSettings shared changed)

/-- `Path(name).suffix[1:].lower()`. -/
def fileExtension (filename : String) : String :=
  let parts := filename.splitOn "."
  let last := parts.getLastD ""
  if ".".intercalate parts.dropLast ≠ "" && last ≠ "" then last.toLower else ""

def extensionMapping : List (String × String) :=
  [("parquet","application/octet-stream"),("pq","application/octet-stream"),("csv","text/csv"),("gz","application/gzip"),
    ("zip","application/zip"),("bz2","application/x-bzip2")]

/-- `validate_file` of a settings file. -/
def uploadError (filename contentType : String) : Option String :=
  let mapped := if contentType = "application/vnd.ms-excel" then "text/csv" else contentType
  if mapped ≠ "application/json" then some "File should be one of [application/json]"
  else
    match extensionMapping.find? fun entry => entry.1 = fileExtension filename with
    | none => none
    | some entry =>
      if entry.2 = mapped then none
      else some ("File extention '" ++ entry.1 ++ "' mismatched with request header 'Content-Type': '" ++ mapped ++
        "', should be set to '" ++ entry.2 ++ "'")

/-! ### Actions on one analysis -/

section Actions
variable (site : Site γ) (shared : Shared γ) (user : User γ) (analysis : AnalysisRecord γ)

def link (file : Option (RelatedFile γ)) : Option String := file.bind fun file => site.fileStorageLink file false

/-- What a start reads of the analysis, its model and its portfolio. -/
def startContext : StartContext where
  model := (analysis.model.bind shared.modelOf).map ModelRecord.model
  chunkingOptions := analysis.chunkingOptions.map ChunkingConfig.toChunkingOptions
  portfolio := (shared.portfolioOf analysis.portfolio).elim {} PortfolioRecord.files
  locationFileLen :=
    match (shared.portfolioOf analysis.portfolio).bind fun portfolio =>
        portfolio.files.locationFile.bind shared.files with
    | some file => site.fileLen file
    | none => .error ""
  readJson := fun id => (analysis.stored id <|> shared.files id).bind fun file => site.parseJson file.content
  str := site.str

def dataFileLinks : List (Option String) :=
  (shared.dataFiles.filter fun file => file.id ∈ analysis.dataFiles).map fun file => link site (shared.files file.file)

def portfolioLinks (portfolio : PortfolioRecord γ) : List (Option String) :=
  [portfolio.files.locationFile,portfolio.files.accountsFile,portfolio.reinsuranceInfoFile,
    portfolio.reinsuranceScopeFile].map fun id => link site (id.bind shared.files)

/-- The conversion to one currency, where the portfolio has all that it needs. -/
def currencyArgs (portfolio : PortfolioRecord γ) : List (Option String) :=
  match link site (portfolio.currencyConversionJson.bind shared.files),portfolio.reportingCurrency with
  | some conversion,some currency => [some conversion,some currency]
  | _,_ => []

/-- The files in the signature of a V1 task. -/
def startArgs : StartTask → List (Option String)
  | .runAnalysis =>
    [link site (analysis.file .inputFile),link site (analysis.file .settingsFile)] ++ dataFileLinks site shared analysis
  | .generateInput =>
    let portfolio := shared.portfolioOf analysis.portfolio
    portfolio.elim [] (portfolioLinks site shared) ++ [link site (analysis.file .settingsFile)] ++
      dataFileLinks site shared analysis ++ portfolio.elim [] (currencyArgs site shared)
  | _ => []

/-- A V1 task goes to the queue of the model, a V2 task with its priority to the task
    controller. -/
def dispatchStart (record : ModelRecord γ) (started : Start) : DispatchedTask :=
  match started.runMode with
  | .v1 => .start record.queueName started.task analysis.id user.id none (startArgs site shared analysis started.task)
  | .v2 => .start site.taskControllerQueue started.task analysis.id user.id (some (analysis.row .priority))
      (startArgs site shared analysis started.task)

/-- `verify_model_scaling`: a V1 model is not scaled by its tasks. -/
def scalesWell (record : ModelRecord γ) : Bool :=
  record.model.runMode ≠ some .v1 || record.scalingStrategy.all fun strategy =>
    strategy = .queueLoad || strategy = .fixedWorkers

def startAnalysisTask (method : StartMethod) : Outcome γ :=
  match analysis.model.bind shared.modelOf with
  | none => (.invalid [("model","Model not assigned to analysis")],[])
  | some record =>
    if !validateUserIsOwner user record.groups then (.forbidden "You are not allowed to run this model",[])
    else if !scalesWell record then (.invalid [("","Model has invalid scaling setting")],[])
    else
      match start (startContext site shared analysis) method (load analysis.row) with
      | .error (.validation errors) => (.invalid errors,[])
      | .error (.validationText text) => (.invalid [("",text)],[])
      | .error .raised => (.serverError,[])
      | .ok started =>
        let row := (recordDispatch site.env.now started site.taskId).loaded.values
        (.analysis (serialize shared { analysis with row := row, modified := site.env.now }),
          [dispatchStart site shared user analysis record started,.queueStatusDigest])

/-- Sub-tasks of a V2 run are cancelled before the status is checked. -/
def cancelSubtasksTask : List DispatchedTask :=
  if analysis.row .runMode = some .v2 then [.cancelSubtasks analysis.id] else []

def cancelWith (cancelled : Except ValidationErrors AnalysisSave) (taskId : String) : Outcome γ :=
  match cancelled with
  | .error errors => (.invalid errors,cancelSubtasksTask analysis)
  | .ok save =>
    (.analysis (serialize shared { analysis with row := save.loaded.values, modified := site.env.now }),
      cancelSubtasksTask analysis ++ [.revoke taskId])

def mayCancel : Bool :=
  (analysis.model.bind shared.modelOf).all fun record => validateUserIsOwner user record.groups

def cancelForbidden : Outcome γ := (.forbidden "You are not allowed to cancel this model",[])

def cancel : Outcome γ :=
  if !mayCancel shared user analysis then cancelForbidden
  else
    cancelWith site shared analysis (cancelAny site.env (load analysis.row))
      (if analysis.row .status ∈ [.inputsGenerationQueued,.inputsGenerationStarted] then
        analysis.row .generateInputsTaskId else analysis.row .runTaskId)

/-- `cancel_analysis_run` and `cancel_generate_inputs`, which need a model. -/
def cancelStage (cancelled : Except ValidationErrors AnalysisSave) (taskId : String) : Outcome γ :=
  if (analysis.model.bind shared.modelOf).isNone then (.invalid [("model","Model not assigned to analysis")],[])
  else if !mayCancel shared user analysis then cancelForbidden
  else cancelWith site shared analysis cancelled taskId

def cancelAnalysisRun : Outcome γ :=
  cancelStage site shared user analysis (cancelAnalysis site.env (load analysis.row)) (analysis.row .runTaskId)

def cancelGenerateInputsRun : Outcome γ :=
  cancelStage site shared user analysis (cancelGenerateInputs site.env (load analysis.row))
    (analysis.row .generateInputsTaskId)

/-- A copy has new settings and no results. -/
def copyRow : AnalysisRow
  | .status => .new
  | .runTaskId => ""
  | .generateInputsTaskId => ""
  | .settingsFile => (analysis.row .settingsFile).map fun _ => shared.nextId
  | .inputFile | .inputGenerationTracebackFile | .outputFile | .runTracebackFile | .runLogFile => none
  | .lookupErrorsFile | .lookupSuccessFile | .lookupValidationFile | .summaryLevelsFile => none
  | column => analysis.row column

def copyRecord : AnalysisRecord γ :=
  { analysis with
    id := shared.nextId
    name := String.ofList (analysis.name.toList.take 248) ++ " - Copy"
    creator := user.id
    modified := site.env.now
    row := copyRow shared analysis
    dataFiles := []
    subTasks := []
    stored := fun id => if id = shared.nextId then analysis.file .settingsFile else none }

/-- Chunking options belong to one analysis, and a copy of them is refused. Settings are stored for the
    creator of the copy, which has none then. -/
def copy (attrs : Attrs) : Outcome γ :=
  if analysis.chunkingOptions.isSome then (.serverError,[])
  else
    match validateAttrs site shared user false attrs with
    | .error errors => (.invalid errors,[])
    | .ok attrs =>
      if attrs.settings.isSome then (.serverError,[])
      else (.analysis (serialize shared (applyAttrs site shared (copyRecord site shared user analysis) attrs)),[])

def update (isPartial : Bool) (attrs : Attrs) : Outcome γ :=
  match validateAttrs site shared user (!isPartial) attrs with
  | .error errors => (.invalid errors,[])
  | .ok attrs => (.analysis (serialize shared (applyAttrs site shared analysis attrs)),[])

def getRelatedFile (field : FileField) (fileFormat : Option String) (converted : Bool) : Outcome γ :=
  match analysis.file field with
  | none => (.notFound,[])
  | some file =>
    if !validateUserIsOwner user file.groups then (.forbidden "You do not have permission to read this file",[])
    else if converted && file.converted.isNone then (.notFound,[])
    else (.download file fileFormat converted,[])

def deleteRelatedFile (field : FileField) : Outcome γ :=
  match analysis.file field with
  | none => (.notFound,[])
  | some file =>
    if !validateUserIsOwner user file.groups then (.forbidden "You do not have permission to delete this file",[])
    else (.done,[])

def setSettingsFile (filename contentType : String) : Outcome γ :=
  match uploadError filename contentType with
  | some text => (.invalid [("file",text)],[])
  | none =>
    if (analysis.file .settingsFile).all fun old => validateUserIsOwner user old.groups then
      (.stored filename contentType,[])
    else (.forbidden "You do not have permission to delete this file",[])

def relatedFileTar (field : FileField) (read : RelatedFile γ → Response γ) : Outcome γ :=
  match analysis.file field with
  | none => (.notFound,[])
  | some file =>
    if !validateUserIsOwner user file.groups then (.forbidden "You do not have permission to read this file",[])
    else (read file,[])

def tarList (field : FileField) : Outcome γ :=
  relatedFileTar user analysis field fun file => .tarList (site.listTarFile file)

def tarExtract (field : FileField) (filename : String) : Outcome γ :=
  relatedFileTar user analysis field fun file =>
    (site.extractFileFromTar file filename).elim (.invalid [("","Invalid filename.")]) (.tarMember filename)

def dataFiles : Outcome γ := (.dataFiles (shared.dataFiles.filter fun file => file.id ∈ analysis.dataFiles),[])

def storageLinks : Outcome γ :=
  (.storageLinks (fileFields.map fun field => (analysis.file field).bind fun file => site.fileStorageLink file true),[])

def subTaskList (status : Option TaskStatus) (slug : Option String) : Outcome γ :=
  (.subTasks (analysis.subTasks.filter fun row =>
    (∀ wanted ∈ status, row.status = wanted) ∧ ∀ part ∈ slug, part.toLower.toList <:+: row.slug.toList),[])

def setChunking (options : ChunkingConfig) : Outcome γ :=
  let errors := ([("dynamic_locations_per_lookup",options.dynamicLocationsPerLookup),
    ("dynamic_events_per_analysis",options.dynamicEventsPerAnalysis),("dynamic_chunks_max",options.dynamicChunksMax),
    ("fixed_analysis_chunks",options.fixedAnalysisChunks),("fixed_lookup_chunks",options.fixedLookupChunks)].filter
      fun entry => entry.2 < 1).map fun entry => (entry.1,"Value is less than one.")
  if errors = [] then (.chunking (some options),[]) else (.invalid errors,[])

end Actions

inductive DetailAction where
  | retrieve
  | update (isPartial : Bool) (attrs : Attrs)
  | destroy
  | start (method : StartMethod)
  | cancel
  | cancelAnalysisRun
  | cancelGenerateInputs
  | copy (attrs : Attrs)
  | getFile (field : FileField) (fileFormat : Option String) (converted : Bool)
  | deleteFile (field : FileField)
  | setSettingsFile (filename contentType : String)
  | tarList (field : FileField)
  | tarExtract (field : FileField) (filename : String)
  | dataFiles
  | storageLinks
  | subTaskList (status : Option TaskStatus) (slug : Option String)
  | chunkingConfiguration
  | setChunkingConfiguration (options : ChunkingConfig)

/-- The actions that are requested with `GET`. -/
def DetailAction.isGet : DetailAction → Bool
  | .retrieve | .getFile .. | .tarList _ | .tarExtract .. | .dataFiles | .storageLinks | .subTaskList .. => true
  | .chunkingConfiguration => true
  | _ => false

structure CombineData where
  analysisIds : Option (List AnalysisId)
  config : Option String
  name : Option String

/-- A list is requested with conditions on the columns of an analysis. -/
inductive Request (γ : Type) where
  | list (filter : AnalysisRecord γ → Bool)
  | create (attrs : Attrs)
  | detail (pk : AnalysisId) (action : DetailAction)
  | combine (data : CombineData)
  | runProgress (pk : AnalysisId)

section Requests
variable (site : Site γ) (db : Database γ) (user : User γ)

def act (shared : Shared γ) (analysis : AnalysisRecord γ) : DetailAction → Outcome γ
  | .retrieve => (.analysis (serialize shared analysis),[])
  | .update isPartial attrs => update site shared user analysis isPartial attrs
  | .destroy => (.done,[])
  | .start method => startAnalysisTask site shared user analysis method
  | .cancel => cancel site shared user analysis
  | .cancelAnalysisRun => cancelAnalysisRun site shared user analysis
  | .cancelGenerateInputs => cancelGenerateInputsRun site shared user analysis
  | .copy attrs => copy site shared user analysis attrs
  | .getFile field fileFormat converted => getRelatedFile user analysis field fileFormat converted
  | .deleteFile field => deleteRelatedFile user analysis field
  | .setSettingsFile filename contentType => setSettingsFile user analysis filename contentType
  | .tarList field => tarList site user analysis field
  | .tarExtract field filename => tarExtract site user analysis field filename
  | .dataFiles => dataFiles shared analysis
  | .storageLinks => storageLinks site analysis
  | .subTaskList status slug => subTaskList analysis status slug
  | .chunkingConfiguration => (.chunking analysis.chunkingOptions,[])
  | .setChunkingConfiguration options => setChunking options

/-- The analyses of the portfolios that the user sees. -/
def getAnalyses : List (AnalysisRecord γ) :=
  if user.isSuperuser then db.analyses
  else
    let portfolios := db.shared.portfolios.filter fun portfolio => inUserGroupsOrNone user portfolio.groups
    db.analyses.filter fun analysis => portfolios.any fun portfolio => portfolio.id = analysis.portfolio

/-- `IsMemberOfObjectGroupPermission` on the portfolio of the analysis. -/
def mayChange (pk : AnalysisId) : Bool :=
  user.isSuperuser || (db.analyses.find? fun analysis => analysis.id = pk).all fun analysis =>
    (db.shared.portfolioOf analysis.portfolio).all fun portfolio => validateUserIsOwner user portfolio.groups

def detail (pk : AnalysisId) (action : DetailAction) : Outcome γ :=
  if !action.isGet && !mayChange db user pk then
    (.forbidden "You do not have permission to perform this action.",[])
  else
    match (getAnalyses db user).find? fun analysis => analysis.id = pk with
    | none => (.notFound,[])
    | some analysis => act site user db.shared analysis action

/-- A new analysis of the user. -/
def newRecord (id : AnalysisId) (name : String) (portfolio : Nat) : AnalysisRecord γ where
  id := id
  name := name
  creator := user.id
  created := site.env.now
  modified := site.env.now
  portfolio := portfolio
  model := none
  row := newAnalysis
  chunkingOptions := none
  dataFiles := []
  subTasks := []
  stored := fun _ => none

def create (shared : Shared γ) (attrs : Attrs) : Outcome γ :=
  match validateAttrs site shared user true attrs with
  | .error errors => (.invalid errors,[])
  | .ok attrs =>
    (.analysis (serialize shared (applyAttrs site shared
      (newRecord site user shared.nextId (attrs.name.getD "") (attrs.portfolio.getD 0)) attrs)),[])

/-- The files of the completed analyses that are to be combined, with what is wrong. -/
def combineErrors (selected : List (AnalysisRecord γ)) : ValidationErrors :=
  let valid := selected.filter fun analysis => analysis.row .status = .runCompleted
  (if valid.length ≠ selected.length then [("status","Analyses status must be [RUN_COMPLETED]")] else []) ++
    valid.flatMap fun analysis =>
      (if (link site (analysis.file .inputFile)).isNone then
        [("input_file","Analysis ID " ++ toString analysis.id ++ " does not have an input file")] else []) ++
      (if (link site (analysis.file .outputFile)).isNone then
        [("output_file","Analysis ID " ++ toString analysis.id ++ " does not have an output_file")] else [])

/-- The combined analysis gets a portfolio of its own, without groups. -/
def runCombine (shared : Shared γ) (selected : List (AnalysisRecord γ)) (config : String) (name : Option String) :
    Outcome γ :=
  match combineErrors site selected with
  | error :: rest => (.invalid (error :: rest),[])
  | [] =>
    match name with
    | none => (.serverError,[])
    | some name =>
      let combined := newRecord site user shared.nextId name (shared.nextId + 1)
      let row := Function.update (Function.update (Function.update combined.row .status .runStarted) .runTaskId
        site.taskId) .taskStarted (some site.env.now)
      (.analysis { serialize shared { combined with row := row } with groups := [] },
        [.runCombine (selected.map fun analysis => link site (analysis.file .inputFile))
          (selected.map fun analysis => link site (analysis.file .outputFile)) config,
          .recordCombineOutput shared.nextId user.id])

def combine (data : CombineData) : Outcome γ :=
  match data.analysisIds,data.config with
  | some ids,some config =>
    let selected := db.analyses.filter fun analysis => analysis.id ∈ ids
    if selected.length ≠ ids.length then
      (.invalid [("analysis_ids","Not all selected analyses [" ++ ", ".intercalate (ids.map toString) ++ "] found.")],[])
    else runCombine site user db.shared selected config data.name
  | ids,config =>
    (.invalid ((if ids.isNone then [("analysis_ids","Analysis ids not provided.")] else []) ++
      if config.isNone then [("config","Combine config not provided.")] else []),[])

def runProgress (pk : AnalysisId) : Outcome γ :=
  match db.analyses.find? fun analysis => analysis.id = pk with
  | none => (.serverError,[])
  | some analysis =>
    (.status (toString (analysis.row .numEventsComplete) ++ "/" ++ toString (analysis.row .numEventsTotal) ++
      " gul stages complete"),[])

def respond : Request γ → Outcome γ
  | .list filter => (.analyses (((getAnalyses db user).filter filter).map (serialize db.shared)),[])
  | .create attrs => create site user db.shared attrs
  | .detail pk action => detail site db user pk action
  | .combine data => combine site db user data
  | .runProgress pk => runProgress db pk

end Requests

end OasisPlatform.AnalysisViews
