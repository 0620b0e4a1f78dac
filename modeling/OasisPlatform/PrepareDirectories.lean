import OasisPlatform.GuardedFetch
import OasisPlatform.Json
import OasisPlatform.PathText

/-!
The directories of a run on a node, as the tasks of the worker prepare them. Each task adds
its paths to its parameters and calls helpers that fetch what is not there yet: the exposure
files, the settings, the data files of the model and the archives of the inputs and of the
run.
-/
namespace OasisPlatform.PrepareDirectories
open OasisPlatform.JsonValues OasisPlatform.GuardedFetch OasisPlatform.PathText
set_option linter.unusedSimpArgs false

/-- A dictionary of the parameters that a task is given. -/
abbrev Params := String → Option Json

/-- `params.get(key)`. -/
def Params.get (params : Params) (key : String) : Json := (params key).getD .null

/-- `params[key] = value`. -/
def Params.put (params : Params) (key : String) (value : Json) : Params := Function.update params key (some value)

def Params.setdefault (params : Params) (key : String) (value : Json) : Params :=
  match params key with
  | some _ => params
  | none => params.put key value

theorem put_other (params : Params) {key other : String} (value : Json) (apart : other ≠ key) :
    params.put key value other = params other := Function.update_of_ne apart ..

theorem setdefault_other (params : Params) {key other : String} (value : Json) (apart : other ≠ key) :
    params.setdefault key value other = params other := by
  rw [Params.setdefault]
  cases params key with
  | some held => rfl
  | none => exact put_other params value apart

/-- The value of a key is what it was, or the default. -/
theorem setdefault_self (params : Params) (key : String) (value : Json) :
    params.setdefault key value key = some ((params key).getD value) := by
  rw [Params.setdefault]
  cases held : params key with
  | some value => exact held
  | none => exact Function.update_self ..

/-- Several defaults, one after the other. -/
def Params.setdefaults (params : Params) (defaults : List (String × Json)) : Params :=
  defaults.foldl (fun params entry => params.setdefault entry.1 entry.2) params

theorem setdefaults_other (params : Params) {defaults : List (String × Json)} {key : String}
    (apart : key ∉ defaults.map Prod.fst) : params.setdefaults defaults key = params key := by
  induction defaults generalizing params with
  | nil => rfl
  | cons first rest ih =>
    obtain ⟨other,later⟩ := not_or.mp (mt List.mem_cons.mpr apart)
    exact (ih (params.setdefault first.1 first.2) later).trans (setdefault_other params first.2 other)

theorem setdefaults_self (params : Params) {defaults : List (String × Json)} (distinct : (defaults.map Prod.fst).Nodup)
    {key : String} {value : Json} (listed : (key,value) ∈ defaults) :
    params.setdefaults defaults key = some ((params key).getD value) := by
  induction defaults generalizing params with
  | nil => cases listed
  | cons first rest ih =>
    obtain ⟨fresh,distinct⟩ := List.nodup_cons.mp distinct
    rcases List.mem_cons.mp listed with rfl | later
    · exact (setdefaults_other (params.setdefault key value) fresh).trans (setdefault_self params key value)
    · have other : key ≠ first.1 := by
        rintro rfl
        exact fresh (List.mem_map.mpr ⟨_,later,rfl⟩)
      rw [Params.setdefaults,List.foldl_cons,← setdefault_other params first.2 other]
      exact ih (params.setdefault first.1 first.2) distinct later

/-- `os.path.join` of two parts. -/
def joinPath (first second : String) : String :=
  if second.toList.head? = some '/' then second
  else if first = "" ∨ first.toList.getLast? = some '/' then first ++ second
  else first ++ "/" ++ second

/-- A data file of the model, by its names in the store and of the upload. -/
structure ComplexFile where
  storedFilename : String
  originalFilename : String

/-- What is fetched to a path. -/
inductive Object where
  | file (reference : Json) (subdir : String)
  | complexData (files : List ComplexFile)
  | archive (reference : Json) (subdir : String)

inductive Piece where
  | block (bytes : String)
  | fetched (file : String) (bytes : String)
  | moved (file originalFilename : String)
  | member (name : String)
  deriving DecidableEq, Repr

/-- The blocks in which the store writes a file, and the members that it extracts. -/
structure Filestore where
  blocks : (reference : Json) → (subdir : String) → List String
  members : (reference : Json) → (subdir : String) → List String

/-- `prepare_complex_model_file_inputs`: each file is fetched under its stored name, then
    moved. -/
def prepareComplexModelFileInputs (filestore : Filestore) (files : List ComplexFile) : List Piece :=
  files.flatMap fun cmf =>
    (filestore.blocks (.string cmf.storedFilename) "").map (.fetched cmf.storedFilename) ++
      [.moved cmf.storedFilename cmf.originalFilename]

def Filestore.pieces (filestore : Filestore) : Object → List Piece
  | .file reference subdir => (filestore.blocks reference subdir).map .block
  | .complexData files => prepareComplexModelFileInputs filestore files
  | .archive reference subdir => (filestore.members reference subdir).map .member

/-- A call of one of the helpers, none where it raises a `TypeError` for the path. -/
abbrev Call := Option (Fetch String Object)

def fetchTo (path : Json) (object : Object) (unlinks : Bool) : Call :=
  match path with
  | .string path => some ⟨path,object,unlinks⟩
  | _ => none

/-- The calls up to one that raises. -/
def planOf : List Call → Plan String Object
  | [] => ⟨[],false⟩
  | none :: _ => ⟨[],true⟩
  | some fetch :: rest => ⟨fetch :: (planOf rest).fetches,(planOf rest).raises⟩

theorem mem_planOf {calls : List Call} {fetch : Fetch String Object} (listed : fetch ∈ (planOf calls).fetches) :
    some fetch ∈ calls := by
  induction calls with
  | nil => cases listed
  | cons call rest ih =>
    cases call with
    | none => cases listed
    | some first =>
      rcases List.mem_cons.mp listed with rfl | later
      · exact List.mem_cons_self
      · exact List.mem_cons_of_mem _ (ih later)

theorem fetchTo_some {path : Json} {object : Object} {unlinks : Bool} {fetch : Fetch String Object}
    (called : some fetch = fetchTo path object unlinks) : path = .string fetch.path ∧ fetch.object = object := by
  cases path with
  | string text =>
    obtain rfl := Option.some.inj called
    exact ⟨rfl,rfl⟩
  | _ => cases called

def maybeFetchFile (datafile filepath : Json) : Call := fetchTo filepath (.file datafile "") true

def maybeExtractTar (filestoreRef dst : Json) (storageSubdir : String) : Call :=
  fetchTo dst (.archive filestoreRef storageSubdir) false

/-- Of the two helpers of this name, only that of the loss tasks removes its lock file. -/
def maybePrepareComplexDataFiles (files : List ComplexFile) (userDataDir : Json) (unlinks : Bool) : Call :=
  fetchTo userDataDir (.complexData files) unlinks

structure KeysKwargs where
  locFile : Option String := none
  accFile : Option String := none
  infoFile : Option String := none
  scopeFile : Option String := none
  currencyConversionJson : Option String := none
  reportingCurrency : Option String := none
  analysisSettingsFile : Option String := none
  complexDataFiles : List ComplexFile := []

/-- The file that the server names, unless the hook has another. -/
def getFileRef (fromServer : Option String) (params : Params) (argName : String) : Option (Json × String) :=
  match fromServer with
  | none => none
  | some file =>
    if file = "" then none
    else if (params.get ("pre_" ++ argName)).truthy then some (params.get ("pre_" ++ argName),"pre_")
    else some (.string file,"raw_")

/-- `"".join(pathlib.Path(path).suffixes)`. -/
def extension (path : String) : String := String.ofList (suffixes (pathName path.toList)).flatten

/-- The parameters and the calls so far. -/
abbrev Prepared := Params × List Call

/-- One of the exposure files; its name has the source, and the suffixes of the reference. -/
def oedFile (rootRunDir : String) (ref : Option (Json × String)) (key name : String) (prepared : Prepared) : Prepared :=
  match ref with
  | none => prepared
  | some (.string path,source) =>
    let filepath := Json.string (joinPath rootRunDir (source ++ name ++ extension path))
    (prepared.1.put key filepath,prepared.2 ++ [maybeFetchFile (.string path) filepath])
  | some _ => (prepared.1,prepared.2 ++ [none])

def currencyFile (rootRunDir : String) (ref : Option (Json × String)) (reportingCurrency : Option String)
    (prepared : Prepared) : Prepared :=
  match ref with
  | none => prepared
  | some (reference,source) =>
    if reportingCurrency = some "" then prepared
    else
      let filepath := Json.string (joinPath rootRunDir (source ++ "currency_conversion.json"))
      let currency := match reportingCurrency with
        | some currency => Json.string currency
        | none => Json.null
      ((prepared.1.put "reporting_currency" currency).put "currency_conversion_json" filepath,
        prepared.2 ++ [maybeFetchFile reference filepath])

/-- Where the settings go: a set of two paths, gone through in either order. -/
def settingsPaths (lookupFirst : Bool) (params : Params) : List Json :=
  let analysis := params.get "analysis_settings_json"
  let lookup := params.get "lookup_complex_config_json"
  let paths := if lookupFirst then [lookup,analysis] else [analysis,lookup]
  (if analysis.same lookup then [analysis] else paths).filter Json.truthy

def settingsFiles (lookupFirst : Bool) (settingsFile : Option String) (prepared : Prepared) : Prepared :=
  match settingsFile with
  | none => ((prepared.1.put "lookup_complex_config_json" .null).put "analysis_settings_json" .null,prepared.2)
  | some file =>
    if file = "" then
      ((prepared.1.put "lookup_complex_config_json" .null).put "analysis_settings_json" .null,prepared.2)
    else (prepared.1,prepared.2 ++ (settingsPaths lookupFirst prepared.1).map (maybeFetchFile (.string file)))

def userData (files : List ComplexFile) (prepared : Prepared) : Prepared :=
  if files.isEmpty then (prepared.1.put "user_data_dir" .null,prepared.2)
  else (prepared.1,prepared.2 ++ [maybePrepareComplexDataFiles files (prepared.1.get "user_data_dir") false])

/-- What a task of a run is told of it, and the settings of its node. -/
structure Run where
  baseRunDir : String
  analysisId : Nat
  filesUuid : String
  lossesUuid : String
  lookupFirst : Bool

def Run.filesSubdir (run : Run) : String := s!"analysis-{run.analysisId}_files-{run.filesUuid}"

def Run.filesDir (run : Run) : String := joinPath run.baseRunDir run.filesSubdir

/-- The defaults of `keys_generation_task._prepare_directories`. -/
def keysDirectories (run : Run) (params : Params) : Params :=
  let rootRunDir := run.filesDir
  let params := (params.put "storage_subdir" (.string run.filesSubdir)).put "root_run_dir" (.string rootRunDir)
  let params := params.setdefault "target_dir" (.string rootRunDir)
  let params := params.setdefault "user_data_dir" (.string (joinPath rootRunDir "user-data"))
  let params := params.setdefault "lookup_complex_config_json" (.string (joinPath rootRunDir "analysis_settings.json"))
  params.setdefault "analysis_settings_json" (.string (joinPath rootRunDir "analysis_settings.json"))

theorem keysDirectories_eq (run : Run) (params : Params) : keysDirectories run params =
    ((params.put "storage_subdir" (.string run.filesSubdir)).put "root_run_dir" (.string run.filesDir)).setdefaults
      [("target_dir",.string run.filesDir),("user_data_dir",.string (joinPath run.filesDir "user-data")),
        ("lookup_complex_config_json",.string (joinPath run.filesDir "analysis_settings.json")),
        ("analysis_settings_json",.string (joinPath run.filesDir "analysis_settings.json"))] := rfl

theorem keysDirectories_other (run : Run) (params : Params) {key : String}
    (apart : key ∉ ["storage_subdir","root_run_dir","target_dir","user_data_dir","lookup_complex_config_json",
      "analysis_settings_json"]) : keysDirectories run params key = params key := by
  obtain ⟨subdir,later⟩ := not_or.mp (mt List.mem_cons.mpr apart)
  obtain ⟨root,defaults⟩ := not_or.mp (mt List.mem_cons.mpr later)
  rw [keysDirectories_eq,setdefaults_other _ defaults,put_other _ _ root,put_other _ _ subdir]

/-- `keys_generation_task._prepare_directories`. -/
def keysPrepareDirectories (run : Run) (kwargs : KeysKwargs) (params : Params) : Prepared :=
  let rootRunDir := run.filesDir
  let params := keysDirectories run params
  let loc := getFileRef kwargs.locFile params "loc_file"
  let acc := getFileRef kwargs.accFile params "acc_file"
  let info := getFileRef kwargs.infoFile params "info_file"
  let scope := getFileRef kwargs.scopeFile params "scope_file"
  let currency := getFileRef kwargs.currencyConversionJson params "currency_conversion_json"
  let prepared := oedFile rootRunDir loc "oed_location_csv" "location" (params,[])
  let prepared := oedFile rootRunDir acc "oed_accounts_csv" "account" prepared
  let prepared := oedFile rootRunDir info "oed_info_csv" "reinsinfo" prepared
  let prepared := oedFile rootRunDir scope "oed_scope_csv" "reinsscope" prepared
  let prepared := currencyFile rootRunDir currency kwargs.reportingCurrency prepared
  let prepared := settingsFiles run.lookupFirst kwargs.analysisSettingsFile prepared
  userData kwargs.complexDataFiles prepared

theorem oedFile_other (rootRunDir : String) (ref : Option (Json × String)) {key other : String} (name : String)
    (prepared : Prepared) (apart : other ≠ key) : (oedFile rootRunDir ref key name prepared).1 other = prepared.1 other := by
  unfold oedFile
  split
  · rfl
  · exact put_other _ _ apart
  · rfl

theorem currencyFile_other (rootRunDir : String) (ref : Option (Json × String)) (reportingCurrency : Option String)
    (prepared : Prepared) {other : String} (apart : other ∉ ["reporting_currency","currency_conversion_json"]) :
    (currencyFile rootRunDir ref reportingCurrency prepared).1 other = prepared.1 other := by
  simp only [List.mem_cons,List.not_mem_nil,or_false,not_or] at apart
  unfold currencyFile
  split
  · rfl
  · split
    · rfl
    · exact (put_other _ _ apart.2).trans (put_other _ _ apart.1)

theorem settingsFiles_other (lookupFirst : Bool) (settingsFile : Option String) (prepared : Prepared) {other : String}
    (apart : other ∉ ["lookup_complex_config_json","analysis_settings_json"]) :
    (settingsFiles lookupFirst settingsFile prepared).1 other = prepared.1 other := by
  simp only [List.mem_cons,List.not_mem_nil,or_false,not_or] at apart
  have unset : (prepared.1.put "lookup_complex_config_json" .null).put "analysis_settings_json" .null other =
      prepared.1 other := (put_other _ _ apart.2).trans (put_other _ _ apart.1)
  unfold settingsFiles
  split
  · exact unset
  · split
    · exact unset
    · rfl

theorem userData_other (files : List ComplexFile) (prepared : Prepared) {other : String} (apart : other ≠ "user_data_dir") :
    (userData files prepared).1 other = prepared.1 other := by
  unfold userData
  split
  · exact put_other _ _ apart
  · rfl

/-- The parameters that a task of the input generation sets. -/
def keysParams : List String :=
  ["storage_subdir","root_run_dir","target_dir","user_data_dir","lookup_complex_config_json","analysis_settings_json",
    "oed_location_csv","oed_accounts_csv","oed_info_csv","oed_scope_csv","reporting_currency","currency_conversion_json"]

theorem keysPrepareDirectories_other (run : Run) (kwargs : KeysKwargs) (params : Params) {key : String}
    (apart : key ∉ keysParams) : (keysPrepareDirectories run kwargs params).1 key = params key := by
  have other {keys : List String} (part : keys ⊆ keysParams) : key ∉ keys := fun listed => apart (part listed)
  have single {name : String} (part : name ∈ keysParams) : key ≠ name := fun same => apart (same ▸ part)
  rw [keysPrepareDirectories,userData_other _ _ (single (by decide)),settingsFiles_other _ _ _ (other (by decide)),
    currencyFile_other _ _ _ _ (other (by decide)),oedFile_other _ _ _ _ (single (by decide)),
    oedFile_other _ _ _ _ (single (by decide)),oedFile_other _ _ _ _ (single (by decide)),
    oedFile_other _ _ _ _ (single (by decide))]
  exact keysDirectories_other run params (other (by decide))

structure LossKwargs where
  inputLocation : Json := .null
  analysisSettingsFile : Option String := none
  complexDataFiles : List ComplexFile := []

def inputLocationKey : String := "input-location_generate-and-run"

def Run.lossesSubdir (run : Run) : String := s!"analysis-{run.analysisId}_losses-{run.lossesUuid}"

def Run.lossesDir (run : Run) : String := joinPath run.baseRunDir run.lossesSubdir

/-- The defaults of `loss_generation_task._prepare_directories`. -/
def lossDirectories (run : Run) (params : Params) : Params :=
  let rootRunDir := run.lossesDir
  let params := (params.put "storage_subdir" (.string run.lossesSubdir)).put "root_run_dir" (.string rootRunDir)
  let params := params.setdefault "oasis_files_dir" (.string (joinPath rootRunDir "input-data"))
  let params := params.setdefault "model_run_dir" (.string (joinPath rootRunDir "run-data"))
  let params := params.setdefault "results_path" (.string (joinPath rootRunDir "results-data"))
  let params := params.setdefault "user_data_dir" (.string (joinPath rootRunDir "user-data"))
  params.setdefault "analysis_settings_json" (.string (joinPath rootRunDir "analysis_settings.json"))

theorem lossDirectories_eq (run : Run) (params : Params) : lossDirectories run params =
    ((params.put "storage_subdir" (.string run.lossesSubdir)).put "root_run_dir" (.string run.lossesDir)).setdefaults
      [("oasis_files_dir",.string (joinPath run.lossesDir "input-data")),
        ("model_run_dir",.string (joinPath run.lossesDir "run-data")),
        ("results_path",.string (joinPath run.lossesDir "results-data")),
        ("user_data_dir",.string (joinPath run.lossesDir "user-data")),
        ("analysis_settings_json",.string (joinPath run.lossesDir "analysis_settings.json"))] := rfl

theorem lossDirectories_other (run : Run) (params : Params) {key : String}
    (apart : key ∉ ["storage_subdir","root_run_dir","oasis_files_dir","model_run_dir","results_path","user_data_dir",
      "analysis_settings_json"]) : lossDirectories run params key = params key := by
  obtain ⟨subdir,later⟩ := not_or.mp (mt List.mem_cons.mpr apart)
  obtain ⟨root,defaults⟩ := not_or.mp (mt List.mem_cons.mpr later)
  rw [lossDirectories_eq,setdefaults_other _ defaults,put_other _ _ root,put_other _ _ subdir]

/-- `kwargs['input_location']`, which is changed for all later parameters. -/
def withInputLocation (kwargs : LossKwargs) (params : Params) : LossKwargs :=
  if (params.get inputLocationKey).truthy then { kwargs with inputLocation := params.get inputLocationKey } else kwargs

theorem withInputLocation_directories (run : Run) (kwargs : LossKwargs) (params : Params) :
    withInputLocation kwargs (lossDirectories run params) = withInputLocation kwargs params := by
  have same : (lossDirectories run params).get inputLocationKey = params.get inputLocationKey := by
    rw [Params.get,lossDirectories_other run params (by decide),Params.get]
  rw [withInputLocation,withInputLocation,same]

/-- The calls of `loss_generation_task._prepare_directories`, with the parameters as they
    are by then. -/
def lossCalls (run : Run) (kwargs : LossKwargs) (params : Params) : List Call :=
  let inputs := if kwargs.inputLocation.truthy then
    [maybeExtractTar kwargs.inputLocation (params.get "oasis_files_dir") ""] else []
  let runData := if (params.get "run_location").truthy then
    [maybeExtractTar (params.get "run_location") (params.get "model_run_dir") run.lossesSubdir] else []
  let complexData := if kwargs.complexDataFiles.isEmpty then []
    else [maybePrepareComplexDataFiles kwargs.complexDataFiles (params.get "user_data_dir") true]
  let settings := match kwargs.analysisSettingsFile with
    | none => []
    | some file => if file = "" then [] else [maybeFetchFile (.string file) (params.get "analysis_settings_json")]
  inputs ++ runData ++ complexData ++ settings

/-- What an attempt of a task is given: keyword arguments, and the parameters, those of
    each chunk for the body of a chord. -/
inductive Task where
  | keys (kwargs : KeysKwargs) (params : List Params)
  | losses (kwargs : LossKwargs) (params : List Params)

/-- The parameters as an attempt prepares them in turn, each with its calls. -/
def preparedEach (run : Run) (kwargs : LossKwargs) : List Params → List (Params × List Call)
  | [] => []
  | params :: rest =>
    let params := lossDirectories run params
    let kwargs := withInputLocation kwargs params
    (params,lossCalls run kwargs params) :: preparedEach run kwargs rest

def lossesCalls (run : Run) (kwargs : LossKwargs) (params : List Params) : List Call :=
  (preparedEach run kwargs params).flatMap Prod.snd

theorem lossesCalls_cons (run : Run) (kwargs : LossKwargs) (params : Params) (rest : List Params) :
    lossesCalls run kwargs (params :: rest) =
      lossCalls run (withInputLocation kwargs (lossDirectories run params)) (lossDirectories run params) ++
        lossesCalls run (withInputLocation kwargs (lossDirectories run params)) rest := by
  rw [lossesCalls,preparedEach,List.flatMap_cons]
  rfl

def Run.calls (run : Run) : Task → List Call
  | .keys kwargs params => params.flatMap fun params => (keysPrepareDirectories run kwargs params).2
  | .losses kwargs params => lossesCalls run kwargs params

def Run.plan (run : Run) (task : Task) : Plan String Object := planOf (run.calls task)

end OasisPlatform.PrepareDirectories
