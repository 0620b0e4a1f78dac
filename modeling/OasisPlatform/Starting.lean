import OasisPlatform.AnalysisTasks
import OasisPlatform.Json

/-!
Starting an analysis: `run`, `generate_inputs` and `generate_and_run`. Each of them checks
the instance that the request has loaded, with the model, the portfolio and the settings
files, and then saves it as queued, publishes a task and saves it again with the id of
that task. `start` is the part up to the first save, and `recordDispatch` the last save.
-/
namespace OasisPlatform.Starting
open OasisPlatform.SharedRow OasisPlatform.Models OasisPlatform.AnalysisTasks OasisPlatform.JsonValues
set_option linter.unusedSimpArgs false

inductive ChunkingType where
  | fixedChunks
  | dynamicChunks
  deriving DecidableEq, Repr

structure ChunkingOptions where
  lookupStrategy : ChunkingType := .fixedChunks
  lossStrategy : ChunkingType := .fixedChunks

structure AnalysisModel where
  id : Nat
  deleted : Bool := false
  runMode : Option RunMode
  resourceFile : Option FileId := none
  chunkingOptions : ChunkingOptions := {}

structure Portfolio where
  locationFile : Option FileId := none
  accountsFile : Option FileId := none

/-- What a start reads besides the row. `locationFileLen` has the text of the exception
    where the file cannot be read, and `str` is Python's `str` of a JSON value. -/
structure StartContext where
  model : Option AnalysisModel
  chunkingOptions : Option ChunkingOptions := none
  portfolio : Portfolio
  locationFileLen : Except String Nat
  readJson : FileId → Option Json
  str : Json → String

/-- A `ValidationError`, with the fields or one text as its detail, or another exception. -/
inductive StartError where
  | validation (errors : ValidationErrors)
  | validationText (text : String)
  | raised

def StartError.isValidation : StartError → Bool
  | .validation _ => true
  | .validationText _ => true
  | .raised => false

/-- `errors[field] = [text]`. -/
def setError (errors : ValidationErrors) (field text : String) : ValidationErrors :=
  if errors.any (·.1 = field) then errors.map fun error => if error.1 = field then (field,text) else error
  else errors ++ [(field,text)]

def setErrorWhen (condition : Bool) (errors : ValidationErrors) (field text : String) : ValidationErrors :=
  if condition then setError errors field text else errors

def statusName : AnalysisStatus → String
  | .new => "NEW"
  | .inputsGenerationError => "INPUTS_GENERATION_ERROR"
  | .inputsGenerationNoKeys => "INPUTS_GENERATION_NO_KEYS"
  | .inputsGenerationCancelled => "INPUTS_GENERATION_CANCELLED"
  | .inputsGenerationStarted => "INPUTS_GENERATION_STARTED"
  | .inputsGenerationQueued => "INPUTS_GENERATION_QUEUED"
  | .ready => "READY"
  | .runQueued => "RUN_QUEUED"
  | .runStarted => "RUN_STARTED"
  | .runCompleted => "RUN_COMPLETED"
  | .runCancelled => "RUN_CANCELLED"
  | .runError => "RUN_ERROR"

def statusNames (statuses : List AnalysisStatus) : String := ", ".intercalate (statuses.map statusName)

def RunMode.name : RunMode → String
  | .v1 => "V1"
  | .v2 => "V2"

def getChunkingOptions (ctx : StartContext) (model : AnalysisModel) : ChunkingOptions :=
  ctx.chunkingOptions.getD model.chunkingOptions

def validateStandardAnalysis (ctx : StartContext) : Except StartError AnalysisModel :=
  match ctx.model with
  | none => .error (.validation [("model","Model not assigned to analysis")])
  | some model => .ok model

/-- The run mode of a request: the one it asks for, or else the model's. An empty text asks
    for none. -/
def chosenRunMode (model : AnalysisModel) (runModeOverride : Option String) : Option RunMode :=
  match runModeOverride with
  | none | some "" => model.runMode
  | some "V1" => some .v1
  | some "V2" => some .v2
  | some _ => none

def resolveRunMode (model : AnalysisModel) (runModeOverride : Option String) : Except StartError RunMode :=
  if model.runMode.isNone && runModeOverride.isNone then
    .error (.validation [("model","Model pk \"" ++ toString model.id ++ "\" - \"run_mode\" must not be null")])
  else
    match chosenRunMode model runModeOverride with
    | some runMode => .ok runMode
    | none => .error (.validation [("run_mode","run_mode must be  [V1, V2]")])

def deletedText (model : AnalysisModel) : String := "Model pk \"" ++ toString model.id ++ "\" has been deleted"

def unsupportedText (model : AnalysisModel) : String :=
  "Model pk \"" ++ toString model.id ++ "\" - Unsupported Operation, \"run_mode\" must be \"V2\", not \"" ++
    (model.runMode.map RunMode.name).getD "None" ++ "\""

/-- The rows of the location file, with what is wrong with it. -/
def validateV2LocationFile (ctx : StartContext) (model : AnalysisModel) (errors : ValidationErrors) :
    Option Nat × ValidationErrors :=
  match ctx.portfolio.locationFile with
  | some _ =>
    match ctx.locationFileLen with
    | .error text => (none,setError errors "portfolio" ("Failed to read location file size for chunking: " ++ text))
    | .ok locLines =>
      (some locLines,setErrorWhen (locLines < 1) errors "portfolio" "\"location_file\" must at least one row")
  | none =>
    (none,setErrorWhen ((getChunkingOptions ctx model).lookupStrategy = .dynamicChunks) errors "portfolio"
      "\"location_file\" must not be null for run_mode = V2 when the lookup chunking strategy is DYNAMIC_CHUNKS")

def validateInputGeneration (ctx : StartContext) (model : AnalysisModel) (runMode : RunMode) (errors : ValidationErrors) :
    Option Nat × ValidationErrors :=
  match runMode with
  | .v1 =>
    (none,setErrorWhen (ctx.portfolio.locationFile.isNone && ctx.portfolio.accountsFile.isNone) errors "portfolio"
      "Either \"location_file\" or \"accounts_file\" must not be null for run_mode = V1")
  | .v2 => validateV2LocationFile ctx model errors

/-- `[opt for opt in options if opt.get('id') == selected]`. -/
def matchedEvents (selected : Json) : List Json → Option (List Json)
  | [] => some []
  | option :: rest => do
    let id ← option.get "id" .null
    let matched ← matchedEvents selected rest
    some (if id.same selected then option :: matched else matched)

def eventSetSelected (analysisSettings : Json) : Option Json := do
  let settings ← analysisSettings.get "model_settings" (.object [])
  settings.get "event_set" (.string "")

/-- The errors about the settings files, none where a file or its content cannot be used. -/
def validateSettings (ctx : StartContext) (modelSettings analysisSettings : Json) (errors : ValidationErrors) :
    Option ValidationErrors := do
  let eventIds ← analysisSettings.get "event_ids" .null
  if eventIds.truthy then some errors
  else
    let selected ← eventSetSelected analysisSettings
    let settings ← modelSettings.get "model_settings" (.object [])
    let eventSet ← settings.get "event_set" (.object [])
    let options ← eventSet.get "options" (.array [])
    let listed ← options.elements
    let matched ← matchedEvents selected listed
    let errors := setErrorWhen (!selected.truthy) errors "analysis_settings_file"
      "event_set, Must not be null for Dynamic chunking"
    let errors := setErrorWhen (!options.truthy) errors "model_settings_file"
      "event_set, No options given in Model settings"
    match matched with
    | [] => some (setError errors "settings_files"
        ("selected event_set '" ++ ctx.str selected ++ "' from analysis_settings not found in model_settings"))
    | first :: _ => do
      let numberOfEvents ← first.get "number_of_events" .null
      some (setErrorWhen (!numberOfEvents.truthy) errors "model_settings_file"
        ("Option 'number_of_events' is not set for event_set = '" ++ ctx.str selected ++ "'"))

def validateLossGeneration (ctx : StartContext) (model : AnalysisModel) (analysis : Analysis) (runMode : RunMode)
    (errors : ValidationErrors) : Option ValidationErrors :=
  if runMode ≠ .v2 || (getChunkingOptions ctx model).lossStrategy ≠ .dynamicChunks then some errors
  else
    match model.resourceFile,analysis.values .settingsFile with
    | none,_ => some (setError errors "model_settings_file" "Must not be null for Dynamic chunking")
    | some _,none => some errors
    | some resourceFile,some settingsFile => do
      let modelSettings ← ctx.readJson resourceFile
      let analysisSettings ← ctx.readJson settingsFile
      validateSettings ctx modelSettings analysisSettings errors

/-- `{e['id']: e['number_of_events'] for e in options if 'number_of_events' in e}`, the
    last entry first. -/
def eventSetSizes (sizes : List (Json × Json)) : List Json → Option (List (Json × Json))
  | [] => some sizes
  | option :: rest => do
    let sized ← option.contains "number_of_events"
    if sized then
      let id ← option.item "id"
      let numberOfEvents ← option.item "number_of_events"
      if id.hashable then eventSetSizes ((id,numberOfEvents) :: sizes) rest else none
    else eventSetSizes sizes rest

/-- The options of the model's event sets, with their sizes. -/
def eventSetOptions (modelSettings : Json) : Option (Json × List (Json × Json)) := do
  let settings ← modelSettings.get "model_settings" (.object [])
  let eventSet ← settings.get "event_set" .null
  let options ← eventSet.get "options" (.array [])
  let listed ← options.elements
  let sizes ← eventSetSizes [] listed
  some (options,sizes)

/-- The number of events of the selected set. -/
def eventSetSize (ctx : StartContext) (modelSettings selected : Json) : Except StartError Json :=
  match eventSetOptions modelSettings with
  | none => .error .raised
  | some (options,sizes) =>
    if selected.hashable then
      match sizes.find? fun size => size.1.same selected with
      | some size => .ok size.2
      | none => .error (.validationText ("Failed to read event set size for chunking: selected event_id: " ++
          ctx.str selected ++ ", options: " ++ ctx.str options))
    else .error .raised

/-- How many events the analysis selects, and its event set. -/
def selectedEvents (analysisSettings : Json) : Option (Nat × Json) := do
  let eventIds ← analysisSettings.get "event_ids" (.array [])
  let selected ← eventSetSelected analysisSettings
  let count ← eventIds.length
  some (count,selected)

def readSettings (ctx : StartContext) (model : AnalysisModel) (analysis : Analysis) : Option (Json × Json) := do
  let settingsFile ← analysis.values .settingsFile
  let analysisSettings ← ctx.readJson settingsFile
  let resourceFile ← model.resourceFile
  let modelSettings ← ctx.readJson resourceFile
  some (analysisSettings,modelSettings)

def getNumEvents (ctx : StartContext) (model : AnalysisModel) (analysis : Analysis) : Except StartError (Option Json) :=
  if (getChunkingOptions ctx model).lossStrategy ≠ .dynamicChunks then .ok none
  else
    match readSettings ctx model analysis with
    | none => .error .raised
    | some (analysisSettings,modelSettings) =>
      match selectedEvents analysisSettings with
      | none => .error .raised
      | some (count,selected) =>
        if count > 1 then .ok (some (.number count))
        else (eventSetSize ctx modelSettings selected).map some

inductive TaskIdField where
  | runTaskId
  | generateInputsTaskId
  deriving DecidableEq, Repr

/-- The task that is published. -/
inductive StartTask where
  | runAnalysis
  | generateInput
  | startLossGenerationTask (eventsTotal : Option Json)
  | startInputGenerationTask (locLines : Option Nat)
  | startInputAndLossGenerationTask (locLines : Option Nat) (eventsTotal : Option Json)

/-- What is called when the published task fails. -/
inductive ErrorCallback where
  | recordRunAnalysisFailure
  | recordGenerateInputFailure
  | handleTaskFailure (tracebackProperty : TracebackProperty) (failureStatus : AnalysisStatus)

/-- What a start goes on with when nothing is wrong: the instance to save, then the task to
    publish, and where its id will be recorded. -/
structure Start where
  queued : Analysis
  runMode : RunMode
  task : StartTask
  onError : ErrorCallback
  taskIdField : TaskIdField

def resetInputGeneration (analysis : Analysis) : Analysis :=
  ((((((analysis.set .status .inputsGenerationQueued).set .lookupErrorsFile none).set .lookupSuccessFile none).set
    .lookupValidationFile none).set .summaryLevelsFile none).set .inputGenerationTracebackFile none).set .inputFile none

def resetLossProgress (analysis : Analysis) : Analysis := (analysis.set .numEventsTotal 0).set .numEventsComplete 0

/-- Goes on when there are no errors. -/
def whenValid {α : Type} (errors : Option ValidationErrors) (next : Except StartError α) : Except StartError α :=
  match errors with
  | none => .error .raised
  | some [] => next
  | some (error :: rest) => .error (.validation (error :: rest))

def run (ctx : StartContext) (runModeOverride : Option String) (analysis : Analysis) : Except StartError Start := do
  let model ← validateStandardAnalysis ctx
  if analysis.values .status ∉ runValidStatuses then
    .error (.validation [("status","Analysis must be in one of the following states [" ++ statusNames runValidStatuses ++ "]")])
  else do
    let runMode ← resolveRunMode model runModeOverride
    let errors := setErrorWhen model.deleted [] "model" (deletedText model)
    let errors := setErrorWhen (analysis.values .settingsFile).isNone errors "analysis_settings_file" "Must not be null"
    let errors := setErrorWhen (analysis.values .inputFile).isNone errors "input_file" "Must not be null"
    whenValid (validateLossGeneration ctx model analysis runMode errors)
      (match runMode with
        | .v1 => .ok ⟨resetLossProgress (analysis.set .status .runQueued),.v1,.runAnalysis,.recordRunAnalysisFailure,
            .runTaskId⟩
        | .v2 => do
          let eventsTotal ← getNumEvents ctx model analysis
          .ok ⟨resetLossProgress (analysis.set .status .runQueued),.v2,.startLossGenerationTask eventsTotal,
            .handleTaskFailure .runTracebackFile .runError,.runTaskId⟩)

/-- The errors that both ways to generate inputs begin with. -/
def inputGenerationErrors (model : AnalysisModel) (analysis : Analysis) : ValidationErrors :=
  setErrorWhen model.deleted
    (setErrorWhen (analysis.values .status ∉ inputsGenerationValidStatuses) [] "status"
      ("Analysis status must be one of [" ++ statusNames inputsGenerationValidStatuses ++ "]"))
    "model" (deletedText model)

def generateInputs (ctx : StartContext) (runModeOverride : Option String) (analysis : Analysis) :
    Except StartError Start := do
  let model ← validateStandardAnalysis ctx
  let runMode ← resolveRunMode model runModeOverride
  let (locLines,errors) := validateInputGeneration ctx model runMode (inputGenerationErrors model analysis)
  whenValid (some errors)
    (match runMode with
      | .v1 => .ok ⟨resetInputGeneration analysis,.v1,.generateInput,.recordGenerateInputFailure,.generateInputsTaskId⟩
      | .v2 => .ok ⟨resetInputGeneration analysis,.v2,.startInputGenerationTask locLines,
          .handleTaskFailure .inputGenerationTracebackFile .inputsGenerationError,.generateInputsTaskId⟩)

def generateAndRun (ctx : StartContext) (analysis : Analysis) : Except StartError Start := do
  let model ← validateStandardAnalysis ctx
  let errors := setErrorWhen (model.runMode ≠ some .v2) (inputGenerationErrors model analysis) "model"
    (unsupportedText model)
  let errors := setErrorWhen (analysis.values .settingsFile).isNone errors "settings_file" "Must not be null"
  let (locLines,errors) := validateInputGeneration ctx model .v2 errors
  whenValid (validateLossGeneration ctx model analysis .v2 errors) do
    let eventsTotal ← getNumEvents ctx model analysis
    .ok ⟨resetLossProgress (resetInputGeneration analysis),.v2,.startInputAndLossGenerationTask locLines eventsTotal,
      .handleTaskFailure .inputGenerationTracebackFile .inputsGenerationError,.generateInputsTaskId⟩

inductive StartMethod where
  | run (runModeOverride : Option String)
  | generateInputs (runModeOverride : Option String)
  | generateAndRun

def start (ctx : StartContext) (method : StartMethod) (analysis : Analysis) : Except StartError Start :=
  match method with
  | .run runModeOverride => run ctx runModeOverride analysis
  | .generateInputs runModeOverride => generateInputs ctx runModeOverride analysis
  | .generateAndRun => generateAndRun ctx analysis

def setTaskId (analysis : Analysis) (field : TaskIdField) (taskId : String) : Analysis :=
  match field with
  | .runTaskId => analysis.set .runTaskId taskId
  | .generateInputsTaskId => analysis.set .generateInputsTaskId taskId

/-- `_record_dispatch`, on the instance that was saved as queued: all of it is saved. -/
def recordDispatch (now : Time) (started : Start) (taskId : String) : AnalysisSave :=
  Analysis.save (((setTaskId ((load started.queued.values).set .runMode (some started.runMode)) started.taskIdField
    taskId).set .taskStarted (some now)).set .taskFinished none)

/-! ### A start that is accepted -/

theorem bind_ok {α β : Type} (value : Except StartError α) (next : α → Except StartError β) (result : β) :
    (value >>= next) = .ok result ↔ ∃ a, value = .ok a ∧ next a = .ok result := by
  cases value <;> simp [bind,Except.bind]

theorem setError_ne_nil (errors : ValidationErrors) (field text : String) : setError errors field text ≠ [] := by
  unfold setError
  split_ifs with present
  · intro none_left
    rw [List.map_eq_nil_iff.mp none_left] at present
    cases present
  · simp

theorem setErrorWhen_nil {condition : Bool} {errors : ValidationErrors} {field text : String} :
    setErrorWhen condition errors field text = [] ↔ condition = false ∧ errors = [] := by
  unfold setErrorWhen
  cases condition with
  | true => simp [setError_ne_nil]
  | false => simp

theorem whenValid_ok {α : Type} {errors : Option ValidationErrors} {next : Except StartError α} {result : α}
    (valid : whenValid errors next = .ok result) : errors = some [] ∧ next = .ok result := by
  unfold whenValid at valid
  split at valid
  · cases valid
  · exact ⟨rfl,valid⟩
  · cases valid

/-- Checks do not take errors back. -/
theorem validateInputGeneration_nil {ctx : StartContext} {model : AnalysisModel} {runMode : RunMode}
    {errors : ValidationErrors} (valid : (validateInputGeneration ctx model runMode errors).2 = []) : errors = [] := by
  cases runMode with
  | v1 => exact (setErrorWhen_nil.mp valid).2
  | v2 =>
    simp only [validateInputGeneration,validateV2LocationFile] at valid
    cases given : ctx.portfolio.locationFile with
    | none =>
      simp only [given] at valid
      exact (setErrorWhen_nil.mp valid).2
    | some file =>
      cases length : ctx.locationFileLen with
      | error text =>
        simp only [given,length] at valid
        exact absurd valid (setError_ne_nil _ _ _)
      | ok locLines =>
        simp only [given,length] at valid
        exact (setErrorWhen_nil.mp valid).2

theorem validateSettings_nil {ctx : StartContext} {modelSettings analysisSettings : Json} {errors : ValidationErrors}
    (valid : validateSettings ctx modelSettings analysisSettings errors = some []) : errors = [] := by
  simp only [validateSettings,Option.bind_eq_bind,Option.bind_eq_some_iff] at valid
  obtain ⟨eventIds,_,valid⟩ := valid
  split_ifs at valid
  · exact Option.some.inj valid
  · simp only [Option.bind_eq_some_iff] at valid
    obtain ⟨_,_,_,_,_,_,_,_,_,_,matched,_,valid⟩ := valid
    cases matched with
    | nil => exact absurd (Option.some.inj valid) (setError_ne_nil _ _ _)
    | cons first rest =>
      simp only [Option.bind_eq_some_iff] at valid
      obtain ⟨_,_,valid⟩ := valid
      have unsized := (setErrorWhen_nil.mp (Option.some.inj valid)).2
      exact (setErrorWhen_nil.mp (setErrorWhen_nil.mp unsized).2).2

theorem validateLossGeneration_nil {ctx : StartContext} {model : AnalysisModel} {analysis : Analysis}
    {runMode : RunMode} {errors : ValidationErrors}
    (valid : validateLossGeneration ctx model analysis runMode errors = some []) : errors = [] := by
  unfold validateLossGeneration at valid
  split_ifs at valid
  · exact Option.some.inj valid
  · split at valid
    · exact absurd (Option.some.inj valid) (setError_ne_nil _ _ _)
    · exact Option.some.inj valid
    · simp only [Option.bind_eq_bind,Option.bind_eq_some_iff] at valid
      obtain ⟨_,_,_,_,valid⟩ := valid
      exact validateSettings_nil valid

theorem inputGenerationErrors_nil {model : AnalysisModel} {analysis : Analysis}
    (valid : inputGenerationErrors model analysis = []) : analysis.values .status ∈ inputsGenerationValidStatuses := by
  have checked := (setErrorWhen_nil.mp (setErrorWhen_nil.mp valid).2).1
  simpa using checked

theorem runValid_inputsGenerationValid {status : AnalysisStatus} (valid : status ∈ runValidStatuses) :
    status ∈ inputsGenerationValidStatuses := by
  cases status <;> revert valid <;> decide

@[simp] theorem resetInputGeneration_status (analysis : Analysis) :
    (resetInputGeneration analysis).values .status = .inputsGenerationQueued := by
  simp [resetInputGeneration]

@[simp] theorem resetLossProgress_status (analysis : Analysis) :
    (resetLossProgress analysis).values .status = analysis.values .status := by
  simp [resetLossProgress]

/-- A start is accepted only from a status that is valid, and saves one that is not. -/
theorem start_status {ctx : StartContext} {method : StartMethod} {analysis : Analysis} {started : Start}
    (accepted : start ctx method analysis = .ok started) :
    analysis.values .status ∈ inputsGenerationValidStatuses ∧
      started.queued.values .status ∉ inputsGenerationValidStatuses := by
  cases method with
  | run runModeOverride =>
    simp only [start,run,bind_ok] at accepted
    obtain ⟨model,_,accepted⟩ := accepted
    split_ifs at accepted with valid
    simp only [bind_ok] at accepted
    obtain ⟨runMode,_,accepted⟩ := accepted
    obtain ⟨_,accepted⟩ := whenValid_ok accepted
    refine ⟨runValid_inputsGenerationValid valid,?_⟩
    cases runMode with
    | v1 =>
      cases accepted
      simp [inputsGenerationValidStatuses]
    | v2 =>
      simp only [bind_ok] at accepted
      obtain ⟨eventsTotal,_,accepted⟩ := accepted
      cases accepted
      simp [inputsGenerationValidStatuses]
  | generateInputs runModeOverride =>
    simp only [start,generateInputs,bind_ok] at accepted
    obtain ⟨model,_,runMode,_,accepted⟩ := accepted
    obtain ⟨noErrors,accepted⟩ := whenValid_ok accepted
    refine ⟨inputGenerationErrors_nil (validateInputGeneration_nil (Option.some.inj noErrors)),?_⟩
    cases runMode with
    | v1 =>
      cases accepted
      simp [inputsGenerationValidStatuses]
    | v2 =>
      cases accepted
      simp [inputsGenerationValidStatuses]
  | generateAndRun =>
    simp only [start,generateAndRun,bind_ok] at accepted
    obtain ⟨model,_,accepted⟩ := accepted
    obtain ⟨noErrors,accepted⟩ := whenValid_ok accepted
    have unchecked := validateInputGeneration_nil (validateLossGeneration_nil noErrors)
    simp only [bind_ok] at accepted
    obtain ⟨eventsTotal,_,accepted⟩ := accepted
    cases accepted
    have valid := inputGenerationErrors_nil (setErrorWhen_nil.mp (setErrorWhen_nil.mp unchecked).2).2
    exact ⟨valid,by simp [inputsGenerationValidStatuses]⟩

theorem setTaskId_status (analysis : Analysis) (field : TaskIdField) (taskId : String) :
    (setTaskId analysis field taskId).values .status = analysis.values .status := by
  cases field <;> simp [setTaskId]

theorem recordDispatch_status (now : Time) (started : Start) (taskId : String) :
    (recordDispatch now started taskId).loaded.values .status = started.queued.values .status := by
  simp [recordDispatch,setTaskId_status]

/-! ### A start that is refused -/

/-- The analysis settings are an object, with `event_ids` that have a length and an
    `event_set` that can be a key, if they have them. -/
def analysisSettingsShaped : Json → Bool
  | .object fields =>
    ((fields.lookup "event_ids").getD (.array [])).length.isSome &&
      match (fields.lookup "model_settings").getD (.object []) with
      | .object settings => ((settings.lookup "event_set").getD (.string "")).hashable
      | _ => false
  | _ => false

/-- An option of an event set is an object, and has an `id` that can be a key if it has a
    number of events. -/
def eventOptionShaped : Json → Bool
  | .object fields => (fields.lookup "number_of_events").isNone || (fields.lookup "id").any Json.hashable
  | _ => false

/-- The model settings have an event set, with a list of such options. -/
def modelSettingsShaped : Json → Bool
  | .object fields =>
    match fields.lookup "model_settings" with
    | some (.object settings) =>
      match settings.lookup "event_set" with
      | some (.object eventSet) =>
        match (eventSet.lookup "options").getD (.array []) with
        | .array options => options.all eventOptionShaped
        | _ => false
      | _ => false
    | _ => false
  | _ => false

/-- Where loss chunks depend on the settings files, these can be read and have their shape. -/
def settingsShaped (ctx : StartContext) (analysis : Analysis) : Bool :=
  match ctx.model with
  | none => true
  | some model =>
    (getChunkingOptions ctx model).lossStrategy ≠ .dynamicChunks ||
      match model.resourceFile,analysis.values .settingsFile with
      | some resourceFile,some settingsFile =>
        (ctx.readJson resourceFile).any modelSettingsShaped && (ctx.readJson settingsFile).any analysisSettingsShaped
      | _,_ => true

/-- A start that comes to the settings files: `generate_and_run`, and `run` in the mode V2
    from a status that is valid. -/
def readsSettings (ctx : StartContext) (method : StartMethod) (analysis : Analysis) : Bool :=
  match method with
  | .run runModeOverride =>
    decide (analysis.values .status ∈ runValidStatuses) &&
      ctx.model.any fun model => chosenRunMode model runModeOverride = some .v2
  | .generateInputs _ => false
  | .generateAndRun => true

theorem analysisSettings_read {analysisSettings : Json} (shaped : analysisSettingsShaped analysisSettings = true) :
    ∃ eventIds selected count, analysisSettings.get "event_ids" .null = some eventIds ∧
      eventSetSelected analysisSettings = some selected ∧ selected.hashable = true ∧
      selectedEvents analysisSettings = some (count,selected) := by
  cases analysisSettings with
  | object fields =>
    simp only [analysisSettingsShaped,Bool.and_eq_true] at shaped
    obtain ⟨sized,keyed⟩ := shaped
    obtain ⟨count,counted⟩ := Option.isSome_iff_exists.mp sized
    cases settingsSection : (fields.lookup "model_settings").getD (.object []) with
    | object settings =>
      rw [settingsSection] at keyed
      have chosen : eventSetSelected (.object fields) = some ((settings.lookup "event_set").getD (.string "")) := by
        simp [eventSetSelected,Json.get,settingsSection]
      refine ⟨_,_,count,rfl,chosen,keyed,?_⟩
      simp [selectedEvents,chosen,Json.get,counted]
    | _ =>
      rw [settingsSection] at keyed
      cases keyed
  | _ => cases shaped

theorem modelSettings_read {modelSettings : Json} (shaped : modelSettingsShaped modelSettings = true) :
    ∃ settings eventSet options, modelSettings.get "model_settings" (.object []) = some settings ∧
      (∀ default, settings.get "event_set" default = some eventSet) ∧
      eventSet.get "options" (.array []) = some (.array options) ∧ ∀ option ∈ options, eventOptionShaped option = true := by
  cases modelSettings with
  | object fields =>
    simp only [modelSettingsShaped] at shaped
    split at shaped
    · rename_i settings found
      split at shaped
      · rename_i eventSet foundSet
        split at shaped
        · rename_i options foundOptions
          refine ⟨.object settings,.object eventSet,options,by simp [Json.get,found],?_,?_,?_⟩
          · intro default
            simp [Json.get,foundSet]
          · simp [Json.get,foundOptions]
          · exact List.all_eq_true.mp shaped
        · cases shaped
      · cases shaped
    · cases shaped
  | _ => cases shaped

theorem eventOption_object {option : Json} (shaped : eventOptionShaped option = true) :
    ∃ fields, option = .object fields ∧
      ((fields.lookup "number_of_events").isNone = true ∨ (fields.lookup "id").any Json.hashable = true) := by
  cases option with
  | object fields => exact ⟨fields,rfl,by simpa [eventOptionShaped] using shaped⟩
  | _ => cases shaped

theorem matchedEvents_shaped (selected : Json) {options : List Json}
    (shaped : ∀ option ∈ options, eventOptionShaped option = true) :
    ∃ matched, matchedEvents selected options = some matched ∧ ∀ option ∈ matched, eventOptionShaped option = true := by
  induction options with
  | nil => exact ⟨[],rfl,by simp⟩
  | cons option rest ih =>
    obtain ⟨matched,found,shapedRest⟩ := ih fun other member => shaped other (by simp [member])
    obtain ⟨fields,rfl,_⟩ := eventOption_object (shaped option (by simp))
    have step : matchedEvents selected (.object fields :: rest) =
        some (if ((fields.lookup "id").getD .null).same selected then .object fields :: matched else matched) := by
      simp [matchedEvents,Json.get,found]
    refine ⟨_,step,?_⟩
    intro other member
    split_ifs at member
    · rcases List.mem_cons.mp member with rfl | later
      · exact shaped _ (by simp)
      · exact shapedRest other later
    · exact shapedRest other member

theorem eventSetSizes_shaped {options : List Json} (shaped : ∀ option ∈ options, eventOptionShaped option = true)
    (sizes : List (Json × Json)) : ∃ result, eventSetSizes sizes options = some result := by
  induction options generalizing sizes with
  | nil => exact ⟨sizes,rfl⟩
  | cons option rest ih =>
    have later := ih fun other member => shaped other (by simp [member])
    obtain ⟨fields,rfl,keyed⟩ := eventOption_object (shaped option (by simp))
    cases sized : fields.lookup "number_of_events" with
    | none => simpa [eventSetSizes,Json.contains,sized] using later sizes
    | some numberOfEvents =>
      rw [sized] at keyed
      rcases keyed with unsized | hashed
      · cases unsized
      · obtain ⟨id,found,hashable⟩ := (Option.any_eq_true _ _).mp hashed
        simpa [eventSetSizes,Json.contains,Json.item,sized,found,hashable] using later ((id,numberOfEvents) :: sizes)

theorem validateSettings_shaped {ctx : StartContext} {modelSettings analysisSettings : Json}
    (shapedModel : modelSettingsShaped modelSettings = true)
    (shapedAnalysis : analysisSettingsShaped analysisSettings = true) (errors : ValidationErrors) :
    ∃ result, validateSettings ctx modelSettings analysisSettings errors = some result := by
  obtain ⟨eventIds,selected,_,ids,chosen,_,_⟩ := analysisSettings_read shapedAnalysis
  obtain ⟨settings,eventSet,options,hasSettings,hasSet,hasOptions,shaped⟩ := modelSettings_read shapedModel
  obtain ⟨matched,found,shapedMatched⟩ := matchedEvents_shaped selected shaped
  by_cases given : eventIds.truthy = true
  · exact ⟨errors,by simp [validateSettings,ids,given]⟩
  · cases matched with
    | nil =>
      simp only [validateSettings,ids,given,chosen,hasSettings,hasSet,hasOptions,Json.elements,found,
        Option.bind_eq_bind,Option.bind_some,Bool.false_eq_true,if_false]
      exact ⟨_,rfl⟩
    | cons first rest =>
      obtain ⟨fields,rfl,_⟩ := eventOption_object (shapedMatched first (by simp))
      simp only [validateSettings,ids,given,chosen,hasSettings,hasSet,hasOptions,Json.elements,found,
        Option.bind_eq_bind,Option.bind_some,Bool.false_eq_true,if_false]
      exact ⟨_,rfl⟩

theorem eventSetSize_shaped {ctx : StartContext} {modelSettings selected : Json}
    (shapedModel : modelSettingsShaped modelSettings = true) (hashable : selected.hashable = true) {error : StartError}
    (refused : eventSetSize ctx modelSettings selected = .error error) : error.isValidation = true := by
  obtain ⟨settings,eventSet,options,hasSettings,hasSet,hasOptions,shaped⟩ := modelSettings_read shapedModel
  obtain ⟨sizes,sized⟩ := eventSetSizes_shaped shaped []
  have listed : eventSetOptions modelSettings = some (.array options,sizes) := by
    simp [eventSetOptions,hasSettings,hasSet,hasOptions,Json.elements,sized]
  simp only [eventSetSize,listed,hashable,if_true] at refused
  split at refused
  · cases refused
  · cases refused
    rfl

/-- What the settings files have to be for a model, where they are there. -/
theorem settingsShaped_files {ctx : StartContext} {model : AnalysisModel} {analysis : Analysis}
    (assigned : ctx.model = some model) (dynamic : (getChunkingOptions ctx model).lossStrategy = .dynamicChunks)
    (shaped : settingsShaped ctx analysis = true) {resourceFile settingsFile : FileId}
    (resource : model.resourceFile = some resourceFile) (settings : analysis.values .settingsFile = some settingsFile) :
    ∃ modelSettings analysisSettings, ctx.readJson resourceFile = some modelSettings ∧
      ctx.readJson settingsFile = some analysisSettings ∧ modelSettingsShaped modelSettings = true ∧
      analysisSettingsShaped analysisSettings = true := by
  simp only [settingsShaped,assigned,dynamic,resource,settings,ne_eq,not_true_eq_false,decide_false,Bool.false_or,
    Bool.and_eq_true,Option.any_eq_true] at shaped
  obtain ⟨⟨modelSettings,readModel,shapedModel⟩,analysisSettings,readAnalysis,shapedAnalysis⟩ := shaped
  exact ⟨modelSettings,analysisSettings,readModel,readAnalysis,shapedModel,shapedAnalysis⟩

theorem validateLossGeneration_shaped {ctx : StartContext} {model : AnalysisModel} {analysis : Analysis}
    (assigned : ctx.model = some model) (shaped : settingsShaped ctx analysis = true) (runMode : RunMode)
    (errors : ValidationErrors) : ∃ result, validateLossGeneration ctx model analysis runMode errors = some result := by
  unfold validateLossGeneration
  split_ifs with skipped
  · exact ⟨errors,rfl⟩
  · have dynamic : (getChunkingOptions ctx model).lossStrategy = .dynamicChunks := by
      by_contra fixed
      simp [fixed] at skipped
    split
    · exact ⟨_,rfl⟩
    · exact ⟨errors,rfl⟩
    · rename_i resourceFile settingsFile resource settings
      obtain ⟨modelSettings,analysisSettings,readModel,readAnalysis,shapedModel,shapedAnalysis⟩ :=
        settingsShaped_files assigned dynamic shaped resource settings
      simpa [readModel,readAnalysis] using validateSettings_shaped shapedModel shapedAnalysis errors

theorem getNumEvents_shaped {ctx : StartContext} {model : AnalysisModel} {analysis : Analysis}
    (assigned : ctx.model = some model) (shaped : settingsShaped ctx analysis = true)
    {resourceFile settingsFile : FileId}
    (files : (getChunkingOptions ctx model).lossStrategy = .dynamicChunks →
      model.resourceFile = some resourceFile ∧ analysis.values .settingsFile = some settingsFile) {error : StartError}
    (refused : getNumEvents ctx model analysis = .error error) : error.isValidation = true := by
  unfold getNumEvents at refused
  split_ifs at refused with dynamic
  obtain ⟨resource,settings⟩ := files (not_not.mp dynamic)
  obtain ⟨modelSettings,analysisSettings,readModel,readAnalysis,shapedModel,shapedAnalysis⟩ :=
    settingsShaped_files assigned (not_not.mp dynamic) shaped resource settings
  obtain ⟨_,selected,count,_,_,hashable,chosen⟩ := analysisSettings_read shapedAnalysis
  have readBoth : readSettings ctx model analysis = some (analysisSettings,modelSettings) := by
    simp [readSettings,settings,resource,readModel,readAnalysis]
  simp only [readBoth,chosen] at refused
  split_ifs at refused
  cases size : eventSetSize ctx modelSettings selected with
  | ok events =>
    rw [size] at refused
    cases refused
  | error other =>
    rw [size] at refused
    cases refused
    exact eventSetSize_shaped shapedModel hashable size

theorem bind_error {α β : Type} {value : Except StartError α} {next : α → Except StartError β} {error : StartError} :
    (value >>= next) = .error error ↔ value = .error error ∨ ∃ a, value = .ok a ∧ next a = .error error := by
  cases value <;> simp [bind,Except.bind]

theorem validateStandardAnalysis_ok {ctx : StartContext} {model : AnalysisModel}
    (assigned : validateStandardAnalysis ctx = .ok model) : ctx.model = some model := by
  unfold validateStandardAnalysis at assigned
  split at assigned <;> cases assigned
  assumption

theorem validateStandardAnalysis_error {ctx : StartContext} {error : StartError}
    (refused : validateStandardAnalysis ctx = .error error) : error.isValidation = true := by
  unfold validateStandardAnalysis at refused
  split at refused <;> cases refused
  rfl

theorem resolveRunMode_ok {model : AnalysisModel} {runModeOverride : Option String} {runMode : RunMode}
    (resolved : resolveRunMode model runModeOverride = .ok runMode) : chosenRunMode model runModeOverride = some runMode := by
  unfold resolveRunMode at resolved
  split_ifs at resolved
  split at resolved <;> cases resolved
  assumption

theorem resolveRunMode_error {model : AnalysisModel} {runModeOverride : Option String} {error : StartError}
    (refused : resolveRunMode model runModeOverride = .error error) : error.isValidation = true := by
  unfold resolveRunMode at refused
  split_ifs at refused
  · cases refused
    rfl
  · split at refused <;> cases refused
    rfl

theorem whenValid_error {α : Type} {errors : ValidationErrors} {next : Except StartError α} {error : StartError}
    (refused : whenValid (some errors) next = .error error) :
    error.isValidation = true ∨ errors = [] ∧ next = .error error := by
  cases errors with
  | nil => exact .inr ⟨rfl,refused⟩
  | cons first rest =>
    cases refused
    exact .inl rfl

/-- Where loss generation is valid and depends on the settings files, the model has one. -/
theorem validateLossGeneration_resource {ctx : StartContext} {model : AnalysisModel} {analysis : Analysis}
    {errors : ValidationErrors} (valid : validateLossGeneration ctx model analysis .v2 errors = some [])
    (dynamic : (getChunkingOptions ctx model).lossStrategy = .dynamicChunks) : ∃ file, model.resourceFile = some file := by
  unfold validateLossGeneration at valid
  rw [if_neg (by simp [dynamic])] at valid
  split at valid
  · exact absurd (Option.some.inj valid) (setError_ne_nil _ _ _)
  · exact ⟨_,by assumption⟩
  · exact ⟨_,by assumption⟩

/-- The last check of both ways to generate losses. -/
theorem countEvents_error {α : Type} {ctx : StartContext} {model : AnalysisModel} {analysis : Analysis}
    (assigned : ctx.model = some model) (shaped : settingsShaped ctx analysis = true) {errors : ValidationErrors}
    (given : errors = [] → (analysis.values .settingsFile).isNone = false) {next : Option Json → α} {error : StartError}
    (refused : whenValid (validateLossGeneration ctx model analysis .v2 errors)
      (getNumEvents ctx model analysis >>= fun eventsTotal => .ok (next eventsTotal)) = .error error) :
    error.isValidation = true := by
  obtain ⟨result,checked⟩ := validateLossGeneration_shaped assigned shaped .v2 errors
  rw [checked] at refused
  rcases whenValid_error refused with validation | ⟨rfl,refused⟩
  · exact validation
  · rcases bind_error.mp refused with refused | ⟨_,_,accepted⟩
    · have settings := given (validateLossGeneration_nil checked)
      cases file : analysis.values .settingsFile with
      | none => simp [file] at settings
      | some settingsFile =>
        by_cases dynamic : (getChunkingOptions ctx model).lossStrategy = .dynamicChunks
        · obtain ⟨resourceFile,resource⟩ := validateLossGeneration_resource checked dynamic
          exact getNumEvents_shaped assigned shaped (fun _ => ⟨resource,file⟩) refused
        · simp [getNumEvents,dynamic] at refused
    · cases accepted

/-- A start that is refused raises a `ValidationError`, unless it comes to settings files
    that cannot be used. -/
theorem start_refused {ctx : StartContext} {method : StartMethod} {analysis : Analysis} {error : StartError}
    (shaped : readsSettings ctx method analysis = true → settingsShaped ctx analysis = true)
    (refused : start ctx method analysis = .error error) : error.isValidation = true := by
  cases method with
  | run runModeOverride =>
    simp only [start,run] at refused
    rcases bind_error.mp refused with noModel | ⟨model,assigned,refused⟩
    · exact validateStandardAnalysis_error noModel
    · have model_assigned := validateStandardAnalysis_ok assigned
      split_ifs at refused with valid
      · rcases bind_error.mp refused with noMode | ⟨runMode,resolved,refused⟩
        · exact resolveRunMode_error noMode
        · cases runMode with
          | v1 =>
            rcases whenValid_error refused with validation | ⟨_,accepted⟩
            · exact validation
            · cases accepted
          | v2 =>
            have reads : readsSettings ctx (.run runModeOverride) analysis = true := by
              simp [readsSettings,valid,model_assigned,resolveRunMode_ok resolved]
            refine countEvents_error model_assigned (shaped reads) (fun none_wrong => ?_) refused
            exact (setErrorWhen_nil.mp (setErrorWhen_nil.mp none_wrong).2).1
      · cases refused
        rfl
  | generateInputs runModeOverride =>
    simp only [start,generateInputs] at refused
    rcases bind_error.mp refused with noModel | ⟨model,_,refused⟩
    · exact validateStandardAnalysis_error noModel
    · rcases bind_error.mp refused with noMode | ⟨runMode,_,refused⟩
      · exact resolveRunMode_error noMode
      · rcases whenValid_error refused with validation | ⟨_,accepted⟩
        · exact validation
        · cases runMode <;> cases accepted
  | generateAndRun =>
    simp only [start,generateAndRun] at refused
    rcases bind_error.mp refused with noModel | ⟨model,assigned,refused⟩
    · exact validateStandardAnalysis_error noModel
    · refine countEvents_error (validateStandardAnalysis_ok assigned) (shaped rfl) (fun none_wrong => ?_) refused
      exact (setErrorWhen_nil.mp (validateInputGeneration_nil none_wrong)).1

/-- A model that is run by V2 workers. -/
def distributedModel : AnalysisModel := { id := 1, runMode := some .v2 }

/-- The portfolio has ten locations. -/
def locationContext : StartContext where
  model := some distributedModel
  portfolio := { locationFile := some 5 }
  locationFileLen := .ok 10
  readJson := fun _ => none
  str := fun _ => ""

end OasisPlatform.Starting
