import OasisPlatform.Dictionaries
import OasisPlatform.InputGeneration
import OasisPlatform.LossInputs

/-!
The parameters of an input generation. Each of its tasks is given a dictionary that an
earlier task has returned, reads some keys of it and adds others; a key that is missing or a
value that is no text raises. Together with the tasks of the loss generation these are all
tasks of the canvases.
-/
namespace OasisPlatform.InputParameters
open OasisPlatform.JsonValues OasisPlatform.PrepareDirectories OasisPlatform.StageChains
open OasisPlatform.InputGeneration (OedFile oedFiles)
open OasisPlatform.LossInputs (Attempt Reference Written stored merge ofOne pathsToAbsolutePaths)
set_option linter.unusedSimpArgs false

/-- Of the files of an analysis, those in `base_kwargs`. -/
def baseKwargs (files : KeysKwargs) : KeysKwargs where
  locFile := files.locFile
  currencyConversionJson := files.currencyConversionJson
  reportingCurrency := files.reportingCurrency
  analysisSettingsFile := files.analysisSettingsFile
  complexDataFiles := files.complexDataFiles

/-- Those in `files_kwargs`. -/
def filesKwargs (files : KeysKwargs) : KeysKwargs where
  locFile := files.locFile
  accFile := files.accFile
  infoFile := files.infoFile
  scopeFile := files.scopeFile
  analysisSettingsFile := files.analysisSettingsFile
  complexDataFiles := files.complexDataFiles

/-- What the controller sends with each task of the worker. -/
def taskKwargs (files : KeysKwargs) (task : String) : KeysKwargs :=
  match task with
  | "prepare_input_generation_params" => baseKwargs files
  | "pre_analysis_hook" => filesKwargs files
  | "prepare_keys_file_chunk" => { baseKwargs files with accFile := files.accFile }
  | "collect_keys" => baseKwargs files
  | "write_input_files" => filesKwargs files
  | _ => {}

/-- What an attempt finds and is returned in the input generation as well. -/
structure InputAttempt extends Attempt where
  paramsGenerateOasisFiles : Params → Params
  hookTargetDir : String
  /-- The names of the files that the hook has changed. -/
  filesModified : OedFile → Option String
  preFile : OedFile → Option Reference
  sarChunk : Nat → Option Reference
  sarEmpty : Bool
  chunkKeys : Option Reference
  /-- The names of the files in the archives of the chunks. -/
  fileNames : List String
  keysData : Option Reference
  written : Written

def configStripDefaultExposure (config : Params) : Params := fun key =>
  if key ∈ ["oed_location_csv","oed_accounts_csv","oed_info_csv","oed_scope_csv","analysis_settings_json",
    "reporting_currency","currency_conversion_json"] then none else config key

/-- `params['log_storage'][slug] = params['log_location']`. -/
def registerLog (attempt : InputAttempt) (slug : String) (params : Params) : Option Params :=
  let params := params.put "log_location" (stored attempt.logLocation)
  match params "log_storage" with
  | some (.object logs) =>
    some (params.put "log_storage" (.object (Dictionaries.put logs slug (stored attempt.logLocation))))
  | _ => none

def prepareInputGenerationParams (attempt : InputAttempt) (slug : String) (params : Params) : Option Params := do
  let lookupParams := merge (configStripDefaultExposure attempt.config) params
  let genFilesParams := attempt.paramsGenerateOasisFiles lookupParams
  let schema := genFilesParams.get "oed_schema_info"
  let params := pathsToAbsolutePaths attempt.absolutePath genFilesParams
  let params := params.put "oed_schema_info" (if schema.truthy then schema else attempt.environSchemaInfo)
  let params := params.put "log_storage" (.object [])
  let params ← registerLog attempt slug params
  some (params.put "verbose" (.bool attempt.debugWorker))

def preKey : OedFile → String
  | .location => "pre_loc_file"
  | .account => "pre_acc_file"
  | .riInfo => "pre_info_file"
  | .riScope => "pre_scope_file"

/-- The files that the hook has changed are stored. -/
def storeModified (attempt : InputAttempt) (params : Params) (file : OedFile) : Option Params :=
  match attempt.filesModified file with
  | none => some params
  | some name =>
    if name = "" then some params
    else do
      let _ ← params "storage_subdir"
      some (params.put (preKey file) (stored (attempt.preFile file)))

def withSarFile (attempt : InputAttempt) (params : Params) (file : OedFile × String) : Params :=
  match attempt.filesModified file.1 with
  | none => params
  | some name => if name = "" then params else params.put file.2 (.string (joinPath attempt.hookTargetDir name))

/-- `{**params, **sar_files}`: of the two files of the subjects at risk, those that the hook
    has changed are read from its directory. -/
def withSarFiles (attempt : InputAttempt) (params : Params) : Params :=
  [(OedFile.location,"oed_location_csv"),(OedFile.account,"oed_accounts_csv")].foldl (withSarFile attempt) params

/-- A value that is none or empty is passed on, `os.path.abspath` raises for what is no text. -/
def absPath (value : Json) : Option Unit :=
  match value with
  | .string _ => some ()
  | value => if value.truthy then none else some ()

def loadSubjectAtRiskData (params : Params) : Option Unit := do
  absPath (params.get "oed_location_csv")
  absPath (params.get "oed_accounts_csv")

def storeSubjectAtRiskChunks (attempt : InputAttempt) (params : Params) (numChunks : Nat) : Option Json := do
  loadSubjectAtRiskData params
  let _ ← params "storage_subdir"
  some (.array ((List.range numChunks).map fun chunkIdx => stored (attempt.sarChunk chunkIdx)))

/-- The hook, where the model has one; the exposure is not checked again after it. -/
def exposurePreAnalysis (attempt : InputAttempt) (params : Params) : Option Params :=
  if (params.get "exposure_pre_analysis_module").truthy then do
    let params ← oedFiles.foldlM (storeModified attempt)
      (params.put "oasis_files_dir" (.string attempt.hookTargetDir))
    some (params.put "check_oed" (.bool false))
  else some params

/-- The exposure is split once, where there are several chunks. -/
def splitExposure (attempt : InputAttempt) (numChunks : Nat) (sarParams params : Params) : Option Params :=
  if numChunks > 1 then do
    let refs ← storeSubjectAtRiskChunks attempt sarParams numChunks
    some (params.put "sar_chunks" refs)
  else some params

def preAnalysisHook (attempt : InputAttempt) (slug : String) (numChunks : Nat) (params : Params) : Option Params := do
  let hooked ← exposurePreAnalysis attempt params
  let sarParams := if (params.get "exposure_pre_analysis_module").truthy then withSarFiles attempt hooked else hooked
  let split ← splitExposure attempt numChunks sarParams hooked
  registerLog attempt slug split

def keysFormatExt : List (String × String) := [("parquet","parquet"),("oasis","csv")]

/-- The format and its extension; `lower` is no method of what is no text. -/
def getKeysFormat (params : Params) : Option (String × String) :=
  let keysFormat := params.get "keys_format"
  match if keysFormat.truthy then keysFormat else .string "parquet" with
  | .string text =>
    match keysFormatExt.lookup text.toLower with
    | some ext => some (text.toLower,ext)
    | none => some ("parquet","parquet")
  | _ => none

/-- Reads the file that the hook has split off, or splits the exposure: the rows of the
    chunk are one of the `num_chunks` lists. -/
def loadSubjectAtRiskChunk (params : Params) (numChunks chunkIdx : Nat) : Option Unit := do
  let sarChunks := if (params.get "sar_chunks").truthy then params.get "sar_chunks" else .array []
  let length ← sarChunks.length
  if length = numChunks then
    match sarChunks with
    | .array items =>
      match items[chunkIdx]? with
      | some (.string _) => some ()
      | _ => none
    | _ => none
  else do
    loadSubjectAtRiskData params
    if chunkIdx < numChunks then some () else none

def prepareKeysFileChunk (attempt : InputAttempt) (slug : String) (chunkIdx numChunks : Nat) (params : Params) :
    Option Params := do
  loadSubjectAtRiskChunk params numChunks chunkIdx
  let _ ← if attempt.sarEmpty then some ("","") else getKeysFormat params
  let _ ← params "storage_subdir"
  registerLog attempt slug (params.put "chunk_keys" (stored attempt.chunkKeys))

def logsOf (chunk : Params) : Option (List (String × Json)) :=
  match chunk "log_storage" with
  | none => some []
  | some (.object logs) => some logs
  | some _ => none

def mergeChunkLogStorage (chunkResults : List Params) : Option (List (String × Json)) :=
  chunkResults.foldlM (fun merged chunk => (logsOf chunk).map (Dictionaries.merge merged)) []

/-- `Path(d['chunk_keys'])`. -/
def chunkTar (params : Params) : Option String :=
  match params "chunk_keys" with
  | some (.string path) => some path
  | _ => none

/-- `merge_dir.as_posix()`: `merge_dir` is made a path as the first file is merged, and the
    text that it is before has no such method. -/
def mergeDirAsPosix (attempt : InputAttempt) : Option Unit :=
  if attempt.fileNames.isEmpty then none else some ()

def collectKeys (attempt : InputAttempt) (slug : String) (params : List Params) : Option Params := do
  let first ← params.head?
  let _ ← first "storage_subdir"
  let _ ← first "chunk_keys"
  let chunkParams : Params := Function.update first "chunk_keys" none
  let logs ← mergeChunkLogStorage params
  let chunkParams := chunkParams.put "log_storage" (.object logs)
  let _ ← params.mapM chunkTar
  mergeDirAsPosix attempt
  registerLog attempt slug (chunkParams.put "keys_data" (stored attempt.keysData))

/-- The log of the task is that of its result. -/
def writtenBy (attempt : InputAttempt) : Written := { attempt.written with logLocation := attempt.logLocation }

def writeInputFiles (attempt : InputAttempt) (slug : String) (params : Params) : Option Params := do
  let _ ← params "keys_data"
  let _ ← params "storage_subdir"
  let .string targetDir ← params "target_dir" | none
  let (_,keysExt) ← getKeysFormat params
  let params := params.put "keys_data_path" (.string (joinPath targetDir s!"keys.{keysExt}"))
  let params := params.put "keys_errors_path" (.string (joinPath targetDir s!"keys-errors.{keysExt}"))
  let params := params.put "oasis_files_dir" (.string targetDir)
  let _ ← params "user_data_dir"
  let params ← registerLog attempt slug params
  let _ ← params "analysis_settings_json"
  some (LossInputs.writeInputFiles (writtenBy attempt))

/-- The directories are prepared for each dictionary, none where a path is no text. -/
def prepareEach (run : Run) (kwargs : KeysKwargs) (given : List Params) : Option (List Params) :=
  if (run.plan (.keys kwargs given)).raises then none
  else some (given.map fun params => (keysPrepareDirectories run kwargs params).1)

/-- The tasks up to `write_input_files`; the hook is told the number of chunks by name. -/
def inputTask (files : KeysKwargs) (lookupChunks : Nat) (attempt : InputAttempt) (signature : TaskSignature)
    (given : List Params) : Option Params := do
  let prepared ← prepareEach attempt.node (taskKwargs files signature.task) given
  match signature.task with
  | "prepare_input_generation_params" => ofOne prepared (prepareInputGenerationParams attempt signature.slug)
  | "pre_analysis_hook" => ofOne prepared (preAnalysisHook attempt signature.slug lookupChunks)
  | "prepare_keys_file_chunk" => ofOne prepared fun params =>
    match signature.args with
    | [chunkIdx,numChunks] => prepareKeysFileChunk attempt signature.slug chunkIdx numChunks params
    | _ => none
  | "collect_keys" => collectKeys attempt signature.slug prepared
  | "write_input_files" => ofOne prepared (writeInputFiles attempt signature.slug)
  | _ => none

/-- An attempt of any task of a canvas. -/
def perform (files : KeysKwargs) (lookupChunks : Nat) (attempt : InputAttempt) : TaskSignature → List Params → Option Params :=
  LossInputs.perform { attempt.toAttempt with
    keysKwargs := taskKwargs files "cleanup_input_generation"
    config := configStripDefaultExposure attempt.config
    other := inputTask files lookupChunks attempt }

/-- What is fetched for a task of the worker. -/
def taskOf (files : KeysKwargs) (losses : LossKwargs) (signature : TaskSignature) (given : List Params) : Option Task :=
  if signature.task ∈ ["record_input_files","record_losses_files"] then none
  else if signature.task ∈ LossInputs.lossTasks then some (.losses losses given)
  else some (.keys (taskKwargs files signature.task) given)

end OasisPlatform.InputParameters
