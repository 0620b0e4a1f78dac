import OasisPlatform.RunStorage

/-!
The references that the tasks of a run pass on. Each of them is in the directory of its
stage, which no other run deletes and the run itself only when all tasks that read from it
are done, or is outside all directories (`references_found`).
-/
namespace OasisPlatform.StoredReferences
open OasisPlatform.Canvas OasisPlatform.JsonValues OasisPlatform.GuardedFetch OasisPlatform.PrepareDirectories
open OasisPlatform.StageChains OasisPlatform.SubTaskIds OasisPlatform.InputParameters OasisPlatform.StoreTraces
open OasisPlatform.RunStorage
open OasisPlatform.InputGeneration (OedFile oedFiles)
open OasisPlatform.LossInputs (Reference Written stored ofOne pathsToAbsolutePaths made)
set_option linter.unusedSimpArgs false

variable {ρ : Type}

/-- The directories of the runs. -/
structure Runs (ρ : Type) where
  location : String
  files : ρ → String
  losses : ρ → String
  filesDir : ∀ run, Subdir (files run)
  lossesDir : ∀ run, Subdir (losses run)
  stages : ∀ run other, files run ≠ losses other
  filesApart : ∀ run other, files run = files other → run = other
  lossesApart : ∀ run other, losses run = losses other → run = other

variable {runs : Runs ρ}

def Runs.within (runs : Runs ρ) (subdir key : String) : Prop := inDir (remoteSubdir runs.location subdir) key = true

def Runs.own (runs : Runs ρ) (run : ρ) (key : String) : Prop :=
  runs.within (runs.files run) key ∨ runs.within (runs.losses run) key

def Runs.Outside (runs : Runs ρ) (key : String) : Prop := ∀ run, ¬ runs.own run key

/-- The directories are named by the identifiers of the runs. -/
def Runs.ofNodes (location : String) (nodes : ρ → Run)
    (single : ∀ run, '/' ∉ (nodes run).filesUuid.toList ∧ '/' ∉ (nodes run).lossesUuid.toList)
    (filesUuid : ∀ run other, (nodes run).filesUuid = (nodes other).filesUuid → run = other)
    (lossesUuid : ∀ run other, (nodes run).lossesUuid = (nodes other).lossesUuid → run = other) : Runs ρ where
  location := location
  files := fun run => (nodes run).filesSubdir
  losses := fun run => (nodes run).lossesSubdir
  filesDir := fun run => subdir_of_uuid (nodes run).analysisId (by decide : '/' ∉ "files-".toList) (single run).1
  lossesDir := fun run => subdir_of_uuid (nodes run).analysisId (by decide : '/' ∉ "losses-".toList) (single run).2
  stages := fun run other => stages_differ (nodes run) (nodes other)
  filesApart := fun run other same => filesUuid run other (filesSubdir_same same)
  lossesApart := fun run other same => lossesUuid run other (lossesSubdir_same same)

theorem own_apart (run other : ρ) (key : String) (mine : runs.own run key) (others : runs.own other key) : run = other := by
  rcases mine with mine | mine <;> rcases others with others | others
  · exact runs.filesApart _ _ (inDir_same (runs.filesDir run) (runs.filesDir other) mine others)
  · exact absurd (inDir_same (runs.filesDir run) (runs.lossesDir other) mine others) (runs.stages run other)
  · exact absurd (inDir_same (runs.lossesDir run) (runs.filesDir other) mine others).symm (runs.stages other run)
  · exact runs.lossesApart _ _ (inDir_same (runs.lossesDir run) (runs.lossesDir other) mine others)

theorem root_outside {reference : Reference} (placed : AtRoot runs.location reference) : runs.Outside reference.text := by
  rintro run (inside | inside)
  · exact Bool.eq_false_iff.mp (atRoot_outside (runs.filesDir run) placed) inside
  · exact Bool.eq_false_iff.mp (atRoot_outside (runs.lossesDir run) placed) inside

variable {run : ρ} {live : String → Prop}

/-- The run may read the object of a key, and finds it. -/
def Good (runs : Runs ρ) (run : ρ) (live : String → Prop) (key : String) : Prop :=
  live key ∧ (runs.own run key ∨ runs.Outside key)

/-- The texts of a value, of the elements of a list or of the values of a dictionary. -/
def text : Json → List String
  | .string key => [key]
  | _ => []

def refsOf : Json → List String
  | .array items => items.flatMap text
  | .object fields => fields.flatMap fun field => text field.2
  | value => text value

/-- What parameters refer to is there. -/
def Refs (runs : Runs ρ) (run : ρ) (keys : List String) (live : String → Prop) (params : Params) : Prop :=
  ∀ key ∈ keys, ∀ reference ∈ refsOf (params.get key), Good runs run live reference

variable {keys : List String} {params : Params}

theorem Good.mono {other : String → Prop} (keeps : ∀ key, live key → other key) {key : String}
    (good : Good runs run live key) : Good runs run other key := good.imp (keeps key) id

theorem Refs.mono {later : String → Prop} (keeps : ∀ key, live key → later key) (refs : Refs runs run keys live params) :
    Refs runs run keys later params :=
  fun key listed reference member => (refs key listed reference member).mono keeps

theorem Refs.congr (refs : Refs runs run keys live params) {result : Params}
    (same : ∀ key ∈ keys, result key = params key) : Refs runs run keys live result := by
  intro key listed
  rw [Params.get,same key listed]
  exact refs key listed

theorem Refs.put (refs : Refs runs run keys live params) (key : String) {value : Json}
    (good : ∀ reference ∈ refsOf value, Good runs run live reference) : Refs runs run keys live (params.put key value) := by
  intro other listed
  by_cases same : other = key
  · subst same
    rw [Params.get,Params.put,Function.update_self]
    exact good
  · rw [Params.get,put_other _ _ same]
    exact refs other listed

theorem Refs.put_own (refs : Refs runs run keys live params) {key : String} (own : key ∉ keys) (value : Json) :
    Refs runs run keys live (params.put key value) :=
  refs.congr fun _ listed => put_other params value (fun same => own (same ▸ listed))

theorem refs_of_absent (absent : ∀ key ∈ keys, params key = none) : Refs runs run keys live params := by
  intro key listed reference member
  rw [Params.get,absent key listed] at member
  cases member

theorem readOf_text {value : Json} {event : Event String} (listed : event ∈ readOf value) :
    ∃ key ∈ text value, event = .read key := by
  cases value with
  | string key =>
    obtain rfl := List.mem_singleton.mp listed
    exact ⟨key,List.mem_singleton_self _,rfl⟩
  | _ => cases listed

theorem text_refs {value : Json} {reference : String} (listed : reference ∈ text value) : reference ∈ refsOf value := by
  cases value with
  | string key => exact listed
  | _ => cases listed

theorem stored_text {reference : Option Reference} {key : String} (listed : key ∈ refsOf (stored reference)) :
    .put key ∈ putOf reference := by
  cases reference with
  | none => cases listed
  | some reference =>
    obtain rfl := List.mem_singleton.mp listed
    exact List.mem_singleton_self _

theorem putOf_text {reference : Option Reference} {event : Event String} (listed : event ∈ putOf reference) :
    ∃ known, reference = some known ∧ event = .put known.text := by
  cases reference with
  | none => cases listed
  | some reference => exact ⟨reference,rfl,List.mem_singleton.mp listed⟩

/-- The keys of the files that the server names. -/
def serverKeys (files : KeysKwargs) (losses : LossKwargs) : List String :=
  (([files.locFile,files.accFile,files.infoFile,files.scopeFile,files.currencyConversionJson,files.analysisSettingsFile,
    losses.analysisSettingsFile].filterMap id).filter (· ≠ "")) ++
    (files.complexDataFiles ++ losses.complexDataFiles).map ComplexFile.storedFilename ++ text losses.inputLocation

def Served (runs : Runs ρ) (files : KeysKwargs) (losses : LossKwargs) (live : String → Prop) : Prop :=
  ∀ key ∈ serverKeys files losses, live key ∧ runs.Outside key

/-- Parameters that refer to stored objects, in the input generation. -/
def inputKeys : List String :=
  ["pre_loc_file","pre_acc_file","pre_info_file","pre_scope_file","pre_currency_conversion_json","sar_chunks",
    "chunk_keys","keys_data","log_storage"]

/-- In the loss generation. -/
def lossKeys : List String :=
  [inputLocationKey,"run_location","chunk_work_location","chunk_log_location"]

def Placed (placed : Reference → Prop) (reference : Option Reference) : Prop := ∀ known, reference = some known → placed known

/-- An attempt of a task of the run: the file store puts objects where it is told, and the
    configuration and the functions of the library have no references of their own. -/
structure Fits (runs : Runs ρ) (run : ρ) (keep : Bool) (attempt : StoreAttempt) : Prop where
  files : attempt.node.filesSubdir = runs.files run
  losses : attempt.node.lossesSubdir = runs.losses run
  keep : attempt.keepRemoteData = keep
  preFile : ∀ file, Placed (InSubdir runs.location (runs.files run)) (attempt.preFile file)
  sarChunk : ∀ chunkIdx, Placed (InSubdir runs.location (runs.files run)) (attempt.sarChunk chunkIdx)
  chunkKeys : Placed (InSubdir runs.location (runs.files run)) attempt.chunkKeys
  keysData : Placed (InSubdir runs.location (runs.files run)) attempt.keysData
  runLocation : Placed (InSubdir runs.location (runs.losses run)) attempt.runLocation
  chunkWorkLocation : Placed (InSubdir runs.location (runs.losses run)) attempt.chunkWorkLocation
  chunkLogLocation : Placed (InSubdir runs.location (runs.losses run)) attempt.chunkLogLocation
  logLocation : Placed (AtRoot runs.location) attempt.logLocation
  outputLocation : Placed (AtRoot runs.location) attempt.outputLocation
  runLogs : Placed (AtRoot runs.location) attempt.runLogs
  written : ∀ reference ∈ [attempt.written.lookupErrorLocation,attempt.written.lookupSuccessLocation,
    attempt.written.lookupValidationLocation,attempt.written.summaryLevelsLocation,attempt.written.outputLocation,
    attempt.written.analysisSettingsLocation], Placed (AtRoot runs.location) reference
  config : ∀ key ∈ inputKeys ++ lossKeys, attempt.config key = none
  filesOwn : ∀ params, ∀ key ∈ inputKeys,
    attempt.paramsGenerateOasisFiles params key = none ∨ attempt.paramsGenerateOasisFiles params key = params key
  lossesOwn : ∀ params, ∀ key ∈ lossKeys,
    attempt.paramsGenerateOasisLosses params key = none ∨ attempt.paramsGenerateOasisLosses params key = params key

/-- An event of a stage: it reads, or puts in the directory of the stage or outside. -/
def Plain (runs : Runs ρ) (subdir : String) : Event String → Prop
  | .read _ => True
  | .put key => runs.within subdir key ∨ runs.Outside key
  | .delete _ => False

theorem Plain.calm {subdir : String} {event : Event String} (plain : Plain runs subdir event) : Calm event := by
  rintro gone rfl
  exact plain

theorem Plain.keeps {subdir : String} {event : Event String} (plain : Plain runs subdir event) :
    ∀ key, live key → event.after live key := fun _ => plain.calm.keeps

/-- Where reads find what they read, the events of a stage are allowed. -/
theorem Plain.confined {subdir : String} (mine : ∀ key, runs.within subdir key → runs.own run key) {event : Event String}
    (plain : Plain runs subdir event) (found : ∀ key, event = .read key → Good runs run live key) :
    Confined runs.own run live event := by
  cases event with
  | read key => exact found key rfl
  | put key => exact plain.imp (mine key) id
  | delete gone => exact plain.elim

/-- Reads of what is there. -/
theorem reads_allowed {reads : List (Event String)}
    (found : ∀ event ∈ reads, ∃ key, event = .read key ∧ Good runs run live key) :
    Allowed (Confined runs.own run) live reads ∧ afterAll live reads = live := by
  have still := allowed_of_kept (live = ·) (fun event member later same => by
    subst same
    obtain ⟨key,rfl,good⟩ := found event member
    exact (⟨good,rfl⟩ : Confined runs.own run live (.read key) ∧ live = live)) rfl
  exact ⟨still.1,still.2.symm⟩

theorem putOf_plain {subdir : String} (isDir : Subdir subdir) {reference : Option Reference}
    (placed : Placed (InSubdir runs.location subdir) reference) : ∀ event ∈ putOf reference, Plain runs subdir event := by
  intro event listed
  obtain ⟨known,same,rfl⟩ := putOf_text listed
  exact .inl (inSubdir_inDir isDir (placed known same))

theorem putOf_root {subdir : String} {reference : Option Reference} (placed : Placed (AtRoot runs.location) reference) :
    ∀ event ∈ putOf reference, Plain runs subdir event := by
  intro event listed
  obtain ⟨known,same,rfl⟩ := putOf_text listed
  exact .inr (root_outside (placed known same))

/-- A task of the input generation is sent files of the run, or none. -/
structure Part (files kwargs : KeysKwargs) : Prop where
  locFile : RunPaths.Given files.locFile kwargs.locFile
  accFile : RunPaths.Given files.accFile kwargs.accFile
  infoFile : RunPaths.Given files.infoFile kwargs.infoFile
  scopeFile : RunPaths.Given files.scopeFile kwargs.scopeFile
  currencyConversionJson : RunPaths.Given files.currencyConversionJson kwargs.currencyConversionJson
  analysisSettingsFile : RunPaths.Given files.analysisSettingsFile kwargs.analysisSettingsFile
  complexDataFiles : kwargs.complexDataFiles ⊆ files.complexDataFiles

theorem taskKwargs_part (files : KeysKwargs) (task : String) : Part files (taskKwargs files task) := by
  have same (file : Option String) : RunPaths.Given file file := fun _ given => given
  have none (file : Option String) : RunPaths.Given file none := fun _ given => nomatch given
  have all : files.complexDataFiles ⊆ files.complexDataFiles := List.Subset.refl _
  unfold taskKwargs
  split
  · exact ⟨same _,none _,none _,none _,same _,same _,all⟩
  · exact ⟨same _,same _,same _,same _,none _,same _,all⟩
  · exact ⟨same _,same _,none _,none _,same _,same _,all⟩
  · exact ⟨same _,none _,none _,none _,same _,same _,all⟩
  · exact ⟨same _,same _,same _,same _,none _,same _,all⟩
  · exact ⟨none _,none _,none _,none _,none _,none _,List.nil_subset _⟩

/-- What the calls read is there. -/
def CallsFound (runs : Runs ρ) (run : ρ) (live : String → Prop) (calls : List Call) : Prop :=
  ∀ fetch, some fetch ∈ calls → ∀ event ∈ objectReads fetch.object, ∃ key, event = .read key ∧ Good runs run live key

theorem CallsFound.append {calls others : List Call} (first : CallsFound runs run live calls)
    (second : CallsFound runs run live others) : CallsFound runs run live (calls ++ others) :=
  fun fetch called => (List.mem_append.mp called).elim (first fetch) (second fetch)

theorem fetchTo_found {path : Json} {object : Object} {unlinks : Bool}
    (found : ∀ event ∈ objectReads object, ∃ key, event = .read key ∧ Good runs run live key) :
    CallsFound runs run live [fetchTo path object unlinks] := by
  intro fetch called
  rw [(fetchTo_some (List.mem_singleton.mp called)).2]
  exact found

theorem fetchReads_found {calls : List Call} (found : CallsFound runs run live calls) (present : String → Bool) :
    ∀ event ∈ fetchReads present (planOf calls), ∃ key, event = .read key ∧ Good runs run live key := by
  have subset (fetches : List (Fetch String Object)) (present : String → Bool) : made present fetches ⊆ fetches := by
    induction fetches generalizing present with
    | nil => exact List.nil_subset _
    | cons first rest ih =>
      rw [made]
      split
      · exact fun _ listed => List.mem_cons_of_mem _ (ih _ listed)
      · exact List.cons_subset_cons _ (ih _)
  intro event listed
  obtain ⟨fetch,member,inside⟩ := List.mem_flatMap.mp listed
  exact found fetch (mem_planOf (subset _ _ member)) event inside

section Fetches
variable {files kwargs : KeysKwargs} {losses : LossKwargs}

theorem Served.good (served : Served runs files losses live) {key : String} (listed : key ∈ serverKeys files losses) :
    Good runs run live key := (served key listed).imp id .inr

theorem readOf_good {value : Json} (good : ∀ reference ∈ text value, Good runs run live reference) :
    ∀ event ∈ readOf value, ∃ key, event = .read key ∧ Good runs run live key := by
  intro event listed
  obtain ⟨key,member,rfl⟩ := readOf_text listed
  exact ⟨key,rfl,good key member⟩

theorem readOf_found {value : Json} (good : ∀ reference ∈ refsOf value, Good runs run live reference) :
    ∀ event ∈ readOf value, ∃ key, event = .read key ∧ Good runs run live key :=
  readOf_good fun reference member => good reference (text_refs member)

theorem read_good {value : Json} (good : ∀ reference ∈ text value, Good runs run live reference) {key : String}
    (read : .read key ∈ readOf value) : Good runs run live key := by
  obtain ⟨known,same,holds⟩ := readOf_good good _ read
  exact Event.read.inj same ▸ holds

theorem Refs.read (refs : Refs runs run keys live params) {name : String} (among : name ∈ keys) {key : String}
    (read : .read key ∈ readOf (params.get name)) : Good runs run live key :=
  read_good (fun reference member => refs name among reference (text_refs member)) read

theorem server_good (served : Served runs files losses live) {file : String} {known : Option String}
    (listed : known ∈ [files.locFile,files.accFile,files.infoFile,files.scopeFile,files.currencyConversionJson,
      files.analysisSettingsFile,losses.analysisSettingsFile]) (named : known = some file) (set : file ≠ "") :
    ∀ reference ∈ refsOf (.string file), Good runs run live reference := by
  intro reference member
  obtain rfl := List.mem_singleton.mp member
  refine served.good (List.mem_append_left _ (List.mem_append_left _ (List.mem_filter.mpr ⟨?_,by simpa using set⟩)))
  exact List.mem_filterMap.mpr ⟨known,listed,named⟩

theorem getFileRef_good (served : Served runs files losses live) (refs : Refs runs run inputKeys live params)
    {known server : Option String} {argName source : String} {value : Json}
    (listed : known ∈ [files.locFile,files.accFile,files.infoFile,files.scopeFile,files.currencyConversionJson,
      files.analysisSettingsFile,losses.analysisSettingsFile]) (given : RunPaths.Given known server)
    (key : "pre_" ++ argName ∈ inputKeys) (read : getFileRef server params argName = some (value,source)) :
    ∀ reference ∈ refsOf value, Good runs run live reference := by
  unfold getFileRef at read
  split at read
  · cases read
  · rename_i file
    split at read
    · cases read
    · rename_i set
      split at read
      · obtain ⟨rfl,-⟩ := Prod.mk.inj (Option.some.inj read)
        exact refs _ key
      · obtain ⟨rfl,-⟩ := Prod.mk.inj (Option.some.inj read)
        exact server_good served listed (given file rfl) set

theorem oedFile_found {prepared : Prepared} (found : CallsFound runs run live prepared.2) (rootRunDir : String)
    {ref : Option (Json × String)} (good : ∀ value source, ref = some (value,source) →
      ∀ reference ∈ refsOf value, Good runs run live reference) (key name : String) :
    CallsFound runs run live (oedFile rootRunDir ref key name prepared).2 := by
  unfold oedFile
  split
  · exact found
  · exact found.append (fetchTo_found (readOf_found (good _ _ rfl)))
  · exact found.append fun fetch called => nomatch List.mem_singleton.mp called

theorem currencyFile_found {prepared : Prepared} (found : CallsFound runs run live prepared.2) (rootRunDir : String)
    {ref : Option (Json × String)} (good : ∀ value source, ref = some (value,source) →
      ∀ reference ∈ refsOf value, Good runs run live reference) (reportingCurrency : Option String) :
    CallsFound runs run live (currencyFile rootRunDir ref reportingCurrency prepared).2 := by
  unfold currencyFile
  split
  · exact found
  · split
    · exact found
    · exact found.append (fetchTo_found (readOf_found (good _ _ rfl)))

theorem settingsFiles_found {prepared : Prepared} (found : CallsFound runs run live prepared.2) (lookupFirst : Bool)
    {settingsFile : Option String} (good : ∀ file, settingsFile = some file → file ≠ "" →
      ∀ reference ∈ refsOf (.string file), Good runs run live reference) :
    CallsFound runs run live (settingsFiles lookupFirst settingsFile prepared).2 := by
  unfold settingsFiles
  split
  · exact found
  · split
    · exact found
    · rename_i file set
      refine found.append fun fetch called => ?_
      obtain ⟨path,-,call⟩ := List.mem_map.mp called
      have fetched : CallsFound runs run live [maybeFetchFile (.string file) path] :=
        fetchTo_found (readOf_found (good file rfl set))
      exact fetched fetch (List.mem_singleton.mpr call.symm)

theorem complexData_good (served : Served runs files losses live) {complex : List ComplexFile}
    (part : complex ⊆ files.complexDataFiles ++ losses.complexDataFiles) :
    ∀ event ∈ objectReads (.complexData complex), ∃ key, event = .read key ∧ Good runs run live key := by
  intro event listed
  obtain ⟨cmf,member,rfl⟩ := List.mem_map.mp listed
  exact ⟨_,rfl,served.good (List.mem_append_left _ (List.mem_append_right _ (List.mem_map_of_mem (part member))))⟩

theorem userData_found {prepared : Prepared} (found : CallsFound runs run live prepared.2)
    (served : Served runs files losses live) {complex : List ComplexFile} (part : complex ⊆ files.complexDataFiles) :
    CallsFound runs run live (userData complex prepared).2 := by
  unfold userData
  split
  · exact found
  · exact found.append (fetchTo_found (complexData_good served fun _ listed => List.mem_append_left _ (part listed)))

/-- A task of the input generation fetches files of the server and of the hook. -/
theorem keysCalls_found (node : Run) (part : Part files kwargs) (served : Served runs files losses live)
    (refs : Refs runs run inputKeys live params) :
    CallsFound runs run live (keysPrepareDirectories node kwargs params).2 := by
  have prepared : Refs runs run inputKeys live (keysDirectories node params) := by
    refine refs.congr fun key listed => keysDirectories_other node params ?_
    have apart : ∀ key ∈ inputKeys, key ∉ ["storage_subdir","root_run_dir","target_dir","user_data_dir",
        "lookup_complex_config_json","analysis_settings_json"] := by decide
    exact apart key listed
  have good {known server : Option String} (argName : String)
      (listed : known ∈ [files.locFile,files.accFile,files.infoFile,files.scopeFile,files.currencyConversionJson,
        files.analysisSettingsFile,losses.analysisSettingsFile]) (given : RunPaths.Given known server)
      (key : "pre_" ++ argName ∈ inputKeys) (value : Json) (source : String)
      (read : getFileRef server (keysDirectories node params) argName = some (value,source)) :
      ∀ reference ∈ refsOf value, Good runs run live reference :=
    getFileRef_good served prepared listed given key read
  have loc : CallsFound runs run live (oedFile node.filesDir (getFileRef kwargs.locFile (keysDirectories node params)
      "loc_file") "oed_location_csv" "location" (keysDirectories node params,[])).2 :=
    oedFile_found (fun _ none => absurd none List.not_mem_nil) node.filesDir
      (good "loc_file" (by simp) part.locFile (by decide)) _ _
  have acc := oedFile_found loc node.filesDir (good "acc_file" (by simp) part.accFile (by decide)) "oed_accounts_csv"
    "account"
  have info := oedFile_found acc node.filesDir (good "info_file" (by simp) part.infoFile (by decide)) "oed_info_csv"
    "reinsinfo"
  have scope := oedFile_found info node.filesDir (good "scope_file" (by simp) part.scopeFile (by decide)) "oed_scope_csv"
    "reinsscope"
  have currency := currencyFile_found scope node.filesDir
    (good "currency_conversion_json" (by simp) part.currencyConversionJson (by decide)) kwargs.reportingCurrency
  have settings := settingsFiles_found currency node.lookupFirst fun file given set =>
    server_good served (by simp) (part.analysisSettingsFile file given) set
  exact userData_found settings served part.complexDataFiles

theorem lossCalls_found (node : Run) {kwargs : LossKwargs}
    (location : ∀ reference ∈ text kwargs.inputLocation, Good runs run live reference)
    (settings : RunPaths.Given losses.analysisSettingsFile kwargs.analysisSettingsFile)
    (complex : kwargs.complexDataFiles ⊆ losses.complexDataFiles) (served : Served runs files losses live)
    (refs : Refs runs run lossKeys live params) : CallsFound runs run live (lossCalls node kwargs params) := by
  have nothing : CallsFound runs run live [] := fun _ none => absurd none List.not_mem_nil
  rw [lossCalls]
  refine ((CallsFound.append ?_ ?_).append ?_).append ?_
  · split
    · exact fetchTo_found (readOf_good location)
    · exact nothing
  · split
    · exact fetchTo_found (readOf_found (refs "run_location" (by decide)))
    · exact nothing
  · split
    · exact nothing
    · exact fetchTo_found (complexData_good served fun _ listed => List.mem_append_right _ (complex listed))
  · split
    · exact nothing
    · rename_i file given
      split
      · exact nothing
      · rename_i set
        exact fetchTo_found (readOf_found (server_good served (by simp) (settings file given) set))

theorem lossesCalls_found (node : Run) {kwargs : LossKwargs}
    (location : ∀ reference ∈ text kwargs.inputLocation, Good runs run live reference)
    (settings : RunPaths.Given losses.analysisSettingsFile kwargs.analysisSettingsFile)
    (complex : kwargs.complexDataFiles ⊆ losses.complexDataFiles) (served : Served runs files losses live)
    {given : List Params} (refs : ∀ p ∈ given, Refs runs run lossKeys live p) :
    CallsFound runs run live (lossesCalls node kwargs given) := by
  induction given generalizing kwargs with
  | nil => exact fun _ none => absurd none List.not_mem_nil
  | cons first rest ih =>
    have prepared : Refs runs run lossKeys live (lossDirectories node first) := by
      refine (refs first List.mem_cons_self).congr fun key listed => lossDirectories_other node first ?_
      have apart : ∀ key ∈ lossKeys, key ∉ ["storage_subdir","root_run_dir","oasis_files_dir","model_run_dir",
          "results_path","user_data_dir","analysis_settings_json"] := by decide
      exact apart key listed
    rw [lossesCalls_cons]
    generalize lossDirectories node first = params at prepared ⊢
    have named : ∀ reference ∈ text (withInputLocation kwargs params).inputLocation, Good runs run live reference := by
      unfold withInputLocation
      split
      · exact fun _ inside => prepared inputLocationKey (by decide) _ (text_refs inside)
      · exact location
    have same : (withInputLocation kwargs params).analysisSettingsFile = kwargs.analysisSettingsFile ∧
        (withInputLocation kwargs params).complexDataFiles = kwargs.complexDataFiles := by
      unfold withInputLocation
      split <;> exact ⟨rfl,rfl⟩
    refine CallsFound.append ?_ ?_
    · exact lossCalls_found node named (same.1 ▸ settings) (same.2 ▸ complex) served prepared
    · exact ih named (same.1 ▸ settings) (same.2 ▸ complex) fun p listed => refs p (List.mem_cons_of_mem _ listed)

end Fetches

/-! ### What tasks return -/

section Results
variable {attempt : InputAttempt} {slug : String} {result : Params}

/-- A reference that was put. -/
theorem stored_good {reference : Option Reference} (good : ∀ key, .put key ∈ putOf reference → Good runs run live key) :
    ∀ key ∈ refsOf (stored reference), Good runs run live key := fun key listed => good key (stored_text listed)

theorem registerLog_refs (returned : registerLog attempt slug params = some result)
    (refs : Refs runs run inputKeys live params)
    (log : ∀ key, .put key ∈ putOf attempt.logLocation → Good runs run live key) :
    Refs runs run inputKeys live result := by
  have located : Refs runs run inputKeys live (params.put "log_location" (stored attempt.logLocation)) :=
    refs.put_own (by decide) _
  simp only [registerLog] at returned
  split at returned
  · rename_i logs storage
    obtain rfl := Option.some.inj returned
    refine located.put "log_storage" fun reference listed => ?_
    obtain ⟨entry,member,inside⟩ := List.mem_flatMap.mp listed
    rcases Dictionaries.mem_put member with rfl | before
    · exact stored_good log reference (text_refs inside)
    · have held := located "log_storage" (by decide)
      rw [Params.get,storage] at held
      exact held reference (List.mem_flatMap.mpr ⟨entry,before,inside⟩)
  · cases returned

/-- Parameters before the first task of a stage. -/
def Fresh (keys : List String) (params : Params) : Prop := ∀ key ∈ keys, params key = none

theorem prepareInputGenerationParams_refs {keep : Bool} {attempt : StoreAttempt} (fits : Fits runs run keep attempt)
    (fresh : Fresh inputKeys params)
    (returned : prepareInputGenerationParams attempt.toInputAttempt slug params = some result)
    (log : ∀ key, .put key ∈ putOf attempt.logLocation → Good runs run live key) :
    Refs runs run inputKeys live result := by
  have merged : Fresh inputKeys (LossInputs.merge (configStripDefaultExposure attempt.config) params) := by
    intro key listed
    rw [LossInputs.merge,fresh key listed,Option.none_or,configStripDefaultExposure,
      fits.config key (List.mem_append_left _ listed),ite_self]
  unfold prepareInputGenerationParams at returned
  dsimp only at returned
  have own := fits.filesOwn (LossInputs.merge (configStripDefaultExposure attempt.config) params)
  generalize attempt.paramsGenerateOasisFiles (LossInputs.merge (configStripDefaultExposure attempt.config) params) =
    genFilesParams at own returned
  have absent : Fresh inputKeys (pathsToAbsolutePaths attempt.absolutePath genFilesParams) := by
    intro key listed
    have none : genFilesParams key = none := (own key listed).elim id fun same => same.trans (merged key listed)
    rw [pathsToAbsolutePaths,none]
  have refs : Refs runs run inputKeys live (pathsToAbsolutePaths attempt.absolutePath genFilesParams) :=
    refs_of_absent absent
  obtain ⟨registered,logged,made⟩ := Option.bind_eq_some_iff.mp returned
  obtain rfl := Option.some.inj made
  refine (registerLog_refs logged ?_ log).put_own (by decide) _
  refine (refs.put_own (by decide) _).put "log_storage" fun reference listed => ?_
  cases listed

theorem foldlM_kept {α β : Type} {good : β → Prop} {step : β → α → Option β}
    (kept : ∀ b a c, good b → step b a = some c → good c) {items : List α} {b c : β} (holds : good b)
    (returned : items.foldlM step b = some c) : good c := by
  induction items generalizing b with
  | nil => exact Option.some.inj returned ▸ holds
  | cons item rest ih =>
    rw [List.foldlM_cons] at returned
    obtain ⟨d,stepped,later⟩ := Option.bind_eq_some_iff.mp returned
    exact ih (kept b item d holds stepped) later

theorem storeModified_refs {file : OedFile} (returned : storeModified attempt params file = some result)
    (refs : Refs runs run inputKeys live params)
    (puts : ∀ key, .put key ∈ modifiedPuts attempt → Good runs run live key) : Refs runs run inputKeys live result := by
  unfold storeModified at returned
  split at returned
  · exact Option.some.inj returned ▸ refs
  · rename_i name modified
    split at returned
    · exact Option.some.inj returned ▸ refs
    · rename_i named
      obtain ⟨_,-,made⟩ := Option.bind_eq_some_iff.mp returned
      obtain rfl := Option.some.inj made
      refine refs.put _ (stored_good fun key put => puts key (List.mem_flatMap.mpr ⟨file,?_,?_⟩))
      · cases file <;> decide
      · rw [modified]
        simpa only [if_neg named] using put

theorem preAnalysisHook_refs {numChunks : Nat} (returned : preAnalysisHook attempt slug numChunks params = some result)
    (refs : Refs runs run inputKeys live params)
    (puts : ∀ key, .put key ∈ hookEvents attempt numChunks params → Good runs run live key) :
    Refs runs run inputKeys live result := by
  simp only [preAnalysisHook,Option.bind_eq_bind,Option.bind_eq_some_iff] at returned
  obtain ⟨hooked,hooks,split,splits,registered⟩ := returned
  simp only [hookEvents,List.mem_append] at puts
  have modified : Refs runs run inputKeys live hooked := by
    unfold exposurePreAnalysis at hooks
    split at hooks
    · rename_i module
      rw [if_pos module] at puts
      obtain ⟨stores,folded,made⟩ := Option.bind_eq_some_iff.mp hooks
      obtain rfl := Option.some.inj made
      refine Refs.put_own ?_ (by decide) _
      refine foldlM_kept (fun params file result refs returned => ?_) (refs.put_own (by decide) _) folded
      exact storeModified_refs returned refs fun key put => puts key (.inl (.inl put))
    · exact Option.some.inj hooks ▸ refs
  refine registerLog_refs registered ?_ fun key put => puts key (.inr put)
  unfold splitExposure at splits
  split at splits
  · rename_i several
    rw [if_pos several] at puts
    obtain ⟨chunks,stores,made⟩ := Option.bind_eq_some_iff.mp splits
    obtain rfl := Option.some.inj made
    refine modified.put _ fun reference listed => ?_
    simp only [storeSubjectAtRiskChunks,Option.bind_eq_bind,Option.bind_eq_some_iff] at stores
    obtain ⟨_,-,_,-,same⟩ := stores
    obtain rfl := Option.some.inj same
    obtain ⟨item,member,inside⟩ := List.mem_flatMap.mp listed
    obtain ⟨chunkIdx,one,rfl⟩ := List.mem_map.mp member
    exact puts reference (.inl (.inr (List.mem_flatMap.mpr ⟨chunkIdx,one,stored_text (text_refs inside)⟩)))
  · exact Option.some.inj splits ▸ modified

theorem prepareKeysFileChunk_refs {chunkIdx numChunks : Nat} (args : List Nat)
    (returned : prepareKeysFileChunk attempt slug chunkIdx numChunks params = some result)
    (refs : Refs runs run inputKeys live params)
    (puts : ∀ key, .put key ∈ keysChunkEvents attempt args params → Good runs run live key) :
    Refs runs run inputKeys live result := by
  simp only [keysChunkEvents,List.mem_append] at puts
  simp only [prepareKeysFileChunk,Option.bind_eq_bind,Option.bind_eq_some_iff] at returned
  obtain ⟨_,-,returned⟩ := returned
  have registered : ∃ kept, params "storage_subdir" = some kept ∧
      registerLog attempt slug (params.put "chunk_keys" (stored attempt.chunkKeys)) = some result := by
    split at returned
    · exact Option.bind_eq_some_iff.mp returned
    · obtain ⟨_,-,returned⟩ := Option.bind_eq_some_iff.mp returned
      exact Option.bind_eq_some_iff.mp returned
  obtain ⟨_,-,registered⟩ := registered
  refine registerLog_refs registered (refs.put _ ?_) fun key put => puts key (.inr put)
  exact stored_good fun key put => puts key (.inl (.inr put))

theorem Refs.logs (refs : Refs runs run inputKeys live params) {logs : List (String × Json)}
    (read : logsOf params = some logs) : ∀ entry ∈ logs, ∀ reference ∈ text entry.2, Good runs run live reference := by
  have held := refs "log_storage" (by decide)
  unfold logsOf at read
  rw [Params.get] at held
  split at read
  · cases Option.some.inj read
    exact fun _ none => absurd none List.not_mem_nil
  · rename_i storage
    obtain rfl := Option.some.inj read
    rw [storage] at held
    exact fun entry listed reference inside => held reference (List.mem_flatMap.mpr ⟨entry,listed,inside⟩)
  · cases read

theorem mergeChunkLogStorage_refs {chunks : List Params} {logs : List (String × Json)}
    (merged : mergeChunkLogStorage chunks = some logs) (refs : ∀ p ∈ chunks, Refs runs run inputKeys live p) :
    ∀ entry ∈ logs, ∀ reference ∈ text entry.2, Good runs run live reference := by
  have kept (before : List (String × Json))
      (good : ∀ entry ∈ before, ∀ reference ∈ text entry.2, Good runs run live reference)
      (folded : chunks.foldlM (fun merged chunk => (logsOf chunk).map (Dictionaries.merge merged)) before = some logs) :
      ∀ entry ∈ logs, ∀ reference ∈ text entry.2, Good runs run live reference := by
    clear merged
    induction chunks generalizing before with
    | nil => exact Option.some.inj folded ▸ good
    | cons chunk rest ih =>
      rw [List.foldlM_cons] at folded
      obtain ⟨after,stepped,later⟩ := Option.bind_eq_some_iff.mp folded
      obtain ⟨own,read,rfl⟩ := Option.map_eq_some_iff.mp stepped
      refine ih (fun p listed => refs p (List.mem_cons_of_mem _ listed)) _ (fun entry listed => ?_) later
      rcases Dictionaries.mem_merge listed with earlier | added
      · exact good entry earlier
      · exact (refs chunk List.mem_cons_self).logs read entry added
  exact kept [] (fun _ none => absurd none List.not_mem_nil) merged

theorem collectKeys_refs {chunks : List Params} (returned : collectKeys attempt slug chunks = some result)
    (refs : ∀ p ∈ chunks, Refs runs run inputKeys live p)
    (puts : ∀ key, .put key ∈ putOf attempt.keysData ++ putOf attempt.logLocation → Good runs run live key) :
    Refs runs run inputKeys live result := by
  simp only [collectKeys,Option.bind_eq_bind,Option.bind_eq_some_iff] at returned
  obtain ⟨first,head,_,-,_,-,logs,merged,_,-,_,-,registered⟩ := returned
  have kept := refs first (List.mem_of_head? head)
  refine registerLog_refs registered (Refs.put (Refs.put ?_ "log_storage" ?_) _ ?_) fun key put =>
    puts key (List.mem_append_right _ put)
  · intro key listed reference inside
    by_cases same : key = "chunk_keys"
    · subst same
      rw [Params.get,Function.update_self] at inside
      cases inside
    · rw [Params.get,Function.update_of_ne same] at inside
      exact kept key listed reference inside
  · intro reference inside
    obtain ⟨entry,listed,inside⟩ := List.mem_flatMap.mp inside
    exact mergeChunkLogStorage_refs merged refs entry listed reference inside
  · exact stored_good fun key put => puts key (List.mem_append_left _ put)

/-- The dictionary of `write_input_files`, and as tasks pass it on: what it refers to is
    there and is in no directory. -/
structure Recorded (runs : Runs ρ) (live : String → Prop) (params : Params) : Prop where
  fresh : Fresh inputKeys params
  refs : ∀ key ∈ inputLocations, ∀ reference ∈ refsOf (params.get key), live reference ∧ runs.Outside reference
  named : params "output_location" ≠ some (.string "")

theorem stored_outside {reference : Option Reference} (placed : Placed (AtRoot runs.location) reference)
    (there : ∀ key, .put key ∈ putOf reference → live key) :
    ∀ key ∈ refsOf (stored reference), live key ∧ runs.Outside key := by
  intro key listed
  have put := stored_text listed
  refine ⟨there key put,?_⟩
  obtain ⟨known,same,equal⟩ := putOf_text put
  exact Event.put.inj equal ▸ root_outside (placed known same)

theorem stored_named (reference : Option Reference) : some (stored reference) ≠ some (.string "") := by
  cases reference with
  | none => exact fun same => Json.noConfusion (Option.some.inj same)
  | some reference => exact fun same => reference.nonempty (Json.string.inj (Option.some.inj same))

theorem writeInputFiles_recorded {keep : Bool} {attempt : StoreAttempt} (fits : Fits runs run keep attempt)
    (returned : writeInputFiles attempt.toInputAttempt slug params = some result)
    (there : ∀ key, .put key ∈ writeEvents attempt.toInputAttempt slug params → live key) : Recorded runs live result := by
  have made : result = LossInputs.writeInputFiles (writtenBy attempt.toInputAttempt) := by
    simp only [writeInputFiles,Option.bind_eq_bind,Option.bind_eq_some_iff] at returned
    obtain ⟨_,-,_,-,_,-,returned⟩ := returned
    split at returned
    · simp only [Option.bind_eq_some_iff] at returned
      obtain ⟨_,-,_,-,_,-,_,-,same⟩ := returned
      exact (Option.some.inj same).symm
    · cases returned
  subst made
  simp only [writeEvents,List.mem_append] at there
  refine ⟨fun key listed => ?_,fun key listed => ?_,stored_named _⟩
  · simp only [inputKeys,List.mem_cons,List.not_mem_nil,or_false] at listed
    rcases listed with rfl | rfl | rfl | rfl | rfl | rfl | rfl | rfl | rfl <;> rfl
  · simp only [inputLocations,List.mem_cons,List.not_mem_nil,or_false] at listed
    rcases listed with rfl | rfl | rfl | rfl | rfl | rfl
    · exact stored_outside (fits.written _ (by simp [writtenBy])) fun key put =>
        there key (.inl (.inr put))
    · exact stored_outside (fits.written _ (by simp [writtenBy])) fun key put =>
        there key (.inl (.inl (.inl (.inl (.inl (.inr put))))))
    · exact stored_outside (fits.written _ (by simp [writtenBy])) fun key put =>
        there key (.inl (.inl (.inl (.inl (.inr put)))))
    · exact stored_outside (fits.written _ (by simp [writtenBy])) fun key put =>
        there key (.inl (.inl (.inl (.inr put))))
    · exact stored_outside (fits.written _ (by simp [writtenBy])) fun key put =>
        there key (.inl (.inl (.inr put)))
    · exact stored_outside (fits.written _ (by simp [writtenBy])) fun key put =>
        there key (.inr put)

/-- What the first task of the loss generation is given: of the references at most that of
    the inputs. -/
structure Entering (runs : Runs ρ) (run : ρ) (live : String → Prop) (params : Params) : Prop where
  fresh : Fresh ["run_location","chunk_work_location","chunk_log_location"] params
  refs : Refs runs run [inputLocationKey] live params
  named : params inputLocationKey ≠ some (.string "")

theorem Entering.refs_all {params : Params} (entering : Entering runs run live params) :
    Refs runs run lossKeys live params := by
  intro key listed
  rcases List.mem_cons.mp listed with rfl | others
  · exact entering.refs inputLocationKey (List.mem_singleton_self _)
  · exact refs_of_absent entering.fresh key others

theorem Entering.same {params changed : Params} (entering : Entering runs run live params)
    (same : ∀ key ∈ lossKeys, changed key = params key) : Entering runs run live changed where
  fresh := fun key listed => (same key (List.mem_cons_of_mem _ listed)).trans (entering.fresh key listed)
  refs := entering.refs.congr fun key listed => same key (List.mem_singleton.mp listed ▸ List.mem_cons_self)
  named := by
    rw [same inputLocationKey List.mem_cons_self]
    exact entering.named

theorem cleanupInputGeneration_entering (recorded : Recorded runs live params) (node : Run) (kwargs : KeysKwargs) :
    Entering runs run live (LossInputs.cleanupInputGeneration (keysPrepareDirectories node kwargs params).1) := by
  have location : (keysPrepareDirectories node kwargs params).1.get "output_location" = params.get "output_location" := by
    rw [Params.get,keysPrepareDirectories_other node kwargs params (by decide),Params.get]
  rw [LossInputs.cleanupInputGeneration,location]
  refine ⟨?_,?_,?_⟩
  · intro key listed
    have apart : ∀ key ∈ ["run_location","chunk_work_location","chunk_log_location"], key ≠ inputLocationKey := by decide
    exact put_other _ _ (apart key listed)
  · intro key listed
    obtain rfl := List.mem_singleton.mp listed
    rw [Params.get,Params.put,Function.update_self]
    exact fun reference inside => (recorded.refs "output_location" (by decide) reference inside).imp id .inr
  · rw [Params.put,Function.update_self]
    intro same
    have empty := Option.some.inj same
    have named := recorded.named
    rw [Params.get] at empty
    cases value : params "output_location" with
    | none => simp [value] at empty
    | some location =>
      rw [value,Option.getD_some] at empty
      exact named (value.trans (congrArg some empty))

/-- A value that is no path is left out, or has no text. -/
theorem paths_falsy {absolutePath : String → Option String} {key : String} (falsy : (params.get key).truthy = false)
    (named : params key ≠ some (.string "")) : refsOf ((pathsToAbsolutePaths absolutePath params).get key) = [] := by
  rw [Params.get] at falsy
  rw [Params.get,pathsToAbsolutePaths]
  generalize params key = value at falsy named
  cases value with
  | none => rfl
  | some json =>
    cases json with
    | null => rfl
    | bool _ => rfl
    | number _ => rfl
    | string text => simp_all [Json.truthy]
    | array items => simp_all [Json.truthy,refsOf]
    | object fields => simp_all [Json.truthy,refsOf]

theorem prepareLossesGenerationParams_refs {keep : Bool} {attempt : StoreAttempt} (fits : Fits runs run keep attempt)
    (entering : Entering runs run live params) :
    Refs runs run lossKeys live (LossInputs.prepareLossesGenerationParams
      { attempt.toAttempt with config := configStripDefaultExposure attempt.config } params) := by
  have merged : ∀ key ∈ lossKeys, LossInputs.merge (configStripDefaultExposure attempt.config) params key = params key := by
    intro key listed
    rw [LossInputs.merge,configStripDefaultExposure,fits.config key (List.mem_append_right _ listed),ite_self,Option.or_none]
  have own := fits.lossesOwn (LossInputs.merge (configStripDefaultExposure attempt.config) params)
  unfold LossInputs.prepareLossesGenerationParams
  dsimp only
  generalize LossInputs.merge (configStripDefaultExposure attempt.config) params = runParams at merged own
  generalize attempt.paramsGenerateOasisLosses runParams = genLossesParams at own
  have passed : ∀ key ∈ lossKeys, genLossesParams key = none ∨ genLossesParams key = params key :=
    fun key listed => (own key listed).imp id fun same => same.trans (merged key listed)
  have input : runParams.get inputLocationKey = params.get inputLocationKey := by
    rw [Params.get,merged _ (by decide),Params.get]
  have absent : Refs runs run ["run_location","chunk_work_location","chunk_log_location"] live
      (pathsToAbsolutePaths attempt.absolutePath genLossesParams) := by
    refine refs_of_absent fun key listed => ?_
    have none : genLossesParams key = none :=
      (passed key (List.mem_cons_of_mem _ listed)).elim id fun same => same.trans (entering.fresh key listed)
    rw [pathsToAbsolutePaths,none]
  generalize schema_eq : (if (genLossesParams.get "oed_schema_info").truthy then genLossesParams.get "oed_schema_info"
    else attempt.environSchemaInfo) = schema
  have kept := ((absent.put_own (by decide : "oed_schema_info" ∉ _) schema).put_own
    (by decide : "log_location" ∉ _) (stored attempt.logLocation)).put_own (by decide : "verbose" ∉ _)
    (.bool attempt.debugWorker)
  rw [input]
  split
  · intro key listed
    rcases List.mem_cons.mp listed with rfl | others
    · rw [Params.get,Params.put,Function.update_self]
      exact entering.refs inputLocationKey (List.mem_singleton_self _)
    · exact kept.put_own (by decide) _ key others
  · rename_i unnamed
    intro key listed
    rcases List.mem_cons.mp listed with rfl | others
    · have falsy : (genLossesParams.get inputLocationKey).truthy = false ∧
          genLossesParams inputLocationKey ≠ some (.string "") := by
        rcases passed inputLocationKey List.mem_cons_self with none | same
        · rw [Params.get,none]
          exact ⟨rfl,(Option.some_ne_none _).symm⟩
        · rw [Params.get,same]
          exact ⟨Bool.eq_false_iff.mpr unnamed,entering.named⟩
      intro reference inside
      rw [Params.get,put_other _ _ (by decide),put_other _ _ (by decide),put_other _ _ (by decide),← Params.get,
        paths_falsy falsy.1 falsy.2] at inside
      cases inside
    · exact kept key others

end Results

/-- The parameters of the directories. -/
def directoryKeys : List String := keysParams ++ ["oasis_files_dir","model_run_dir","results_path"]

/-- A dictionary as an attempt leaves it for the next one: besides its directories, it may
    have set what it has put. -/
def Retried (task : String) (events : List (Event String)) (params changed : Params) : Prop :=
  ∀ key, changed key = params key ∨ key ∈ directoryKeys ∨ key ∈ ownKeys task ∧
    ∀ reference ∈ refsOf (changed.get key), reference ∈ refsOf (params.get key) ∨ .put reference ∈ events

section Retries
variable {task : String} {events : List (Event String)} {changed : Params}

theorem Retried.same (retried : Retried task events params changed) {key : String} (apart : key ∉ directoryKeys)
    (own : key ∉ ownKeys task) : changed key = params key := by
  rcases retried key with same | directory | ⟨set,-⟩
  · exact same
  · exact absurd directory apart
  · exact absurd set own

theorem Retried.refs (retried : Retried task events params changed) (apart : ∀ key ∈ keys, key ∉ directoryKeys)
    (refs : Refs runs run keys live params) (puts : ∀ key, .put key ∈ events → Good runs run live key) :
    Refs runs run keys live changed := by
  intro key listed reference inside
  rcases retried key with same | directory | ⟨-,known⟩
  · rw [Params.get,same] at inside
    exact refs key listed reference inside
  · exact absurd directory (apart key listed)
  · exact (known reference inside).elim (refs key listed reference) (puts reference)

theorem inputKeys_apart : ∀ key ∈ inputKeys, key ∉ directoryKeys := by decide

theorem inputLocations_apart {task : String} (own : ownKeys task ⊆ ["log_location"]) :
    ∀ key ∈ inputKeys ++ inputLocations, key ∉ directoryKeys ∧ key ∉ ownKeys task := by
  have apart : ∀ key ∈ inputKeys ++ inputLocations, key ∉ directoryKeys ∧ key ≠ "log_location" := by decide
  exact fun key listed => (apart key listed).imp id fun other member => other (List.mem_singleton.mp (own member))

/-- What is recorded is passed on. -/
theorem Recorded.retried {params changed : Params} {events : List (Event String)} (recorded : Recorded runs live params)
    (own : ownKeys task ⊆ ["log_location"]) (retried : Retried task events params changed) :
    Recorded runs live changed := by
  have same : ∀ key ∈ inputKeys ++ inputLocations, changed key = params key := fun key listed =>
    retried.same (inputLocations_apart own key listed).1 (inputLocations_apart own key listed).2
  refine ⟨fun key listed => ?_,fun key listed => ?_,?_⟩
  · exact (same key (List.mem_append_left _ listed)).trans (recorded.fresh key listed)
  · rw [Params.get,same key (List.mem_append_right _ listed)]
    exact recorded.refs key listed
  · rw [same "output_location" (by decide)]
    exact recorded.named

end Retries

end OasisPlatform.StoredReferences
