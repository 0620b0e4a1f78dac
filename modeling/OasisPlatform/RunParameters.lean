import OasisPlatform.CanvasTriples
import OasisPlatform.InputParameters
import OasisPlatform.RunPaths

/-!
What the parameters of a run are like before and after each of its tasks. Where the file
store returns a reference for each directory that is put, and the library passes paths on as
texts, no task of a run finds a key missing or a value of the wrong kind, and each canvas
runs to its end (`tasks_proceed`).
-/
namespace OasisPlatform.RunParameters
open OasisPlatform.Canvas OasisPlatform.JsonValues OasisPlatform.PrepareDirectories OasisPlatform.StageChains
open OasisPlatform.SubTaskIds OasisPlatform.InputParameters
open OasisPlatform.InputGeneration (OedFile oedFiles)
open OasisPlatform.LossInputs (Reference stored ofOne pathsToAbsolutePaths)
set_option linter.unusedSimpArgs false

/-- A path, or none. -/
inductive Path : Option Json → Prop where
  | absent : Path none
  | null : Path (some .null)
  | text (text : String) : Path (some (.string text))

def Text (value : Option Json) : Prop := ∃ text, value = some (.string text)

theorem Path.of_truthy {params : Params} {key : String} (path : Path (params key)) (truthy : (params.get key).truthy = true) :
    ∃ text, params.get key = .string text := by
  rw [Params.get] at truthy ⊢
  generalize params key = value at path truthy ⊢
  cases path with
  | absent => cases truthy
  | null => cases truthy
  | text text => exact ⟨text,rfl⟩

theorem absent_set : (none : Option Json) ≠ some .null := by simp

theorem Path.is_text {value : Option Json} (path : Path value) (there : value.isSome) (set : value ≠ some .null) :
    Text value := by
  cases path with
  | absent => cases there
  | null => exact absurd rfl set
  | text text => exact ⟨text,rfl⟩

/-- The parameters that the input generation reads as texts. -/
def inputPaths : List String :=
  ["target_dir","user_data_dir","lookup_complex_config_json","analysis_settings_json","oed_location_csv",
    "oed_accounts_csv","pre_loc_file","pre_acc_file","pre_info_file","pre_scope_file","pre_currency_conversion_json",
    "keys_format"]

/-- What a task of the input generation can be given. -/
structure Readable (files : KeysKwargs) (params : Params) : Prop where
  paths : ∀ key ∈ inputPaths, Path (params key)
  targetDir : params "target_dir" ≠ some .null
  userData : files.complexDataFiles ≠ [] → params "user_data_dir" ≠ some .null

variable {files : KeysKwargs} {params : Params}

theorem Readable.put (readable : Readable files params) {key : String} {value : Json}
    (path : key ∈ inputPaths → Path (some value))
    (set : value = .null → key ≠ "target_dir" ∧ (key = "user_data_dir" → files.complexDataFiles = [])) :
    Readable files (params.put key value) where
  paths := by
    intro other listed
    by_cases same : other = key
    · subst same
      rw [Params.put,Function.update_self]
      exact path listed
    · rw [put_other _ _ same]
      exact readable.paths other listed
  targetDir := by
    by_cases same : "target_dir" = key
    · subst same
      rw [Params.put,Function.update_self]
      exact fun null => (set (Option.some.inj null)).1 rfl
    · rw [put_other _ _ same]
      exact readable.targetDir
  userData := by
    intro some
    by_cases same : "user_data_dir" = key
    · subst same
      rw [Params.put,Function.update_self]
      exact fun null => some ((set (Option.some.inj null)).2 rfl)
    · rw [put_other _ _ same]
      exact readable.userData some

theorem Readable.put_text (readable : Readable files params) (key text : String) :
    Readable files (params.put key (.string text)) :=
  readable.put (fun _ => .text text) nofun

theorem Readable.put_own (readable : Readable files params) {key : String} (own : key ∉ inputPaths) (value : Json) :
    Readable files (params.put key value) := by
  refine readable.put (fun listed => absurd listed own) fun _ => ⟨?_,?_⟩
  · rintro rfl
    exact own (by decide)
  · rintro rfl
    exact absurd (by decide) own

theorem Readable.setdefault (readable : Readable files params) (key text : String) :
    Readable files (params.setdefault key (.string text)) := by
  rw [Params.setdefault]
  cases params key with
  | some held => exact readable
  | none => exact readable.put_text key text

theorem Readable.congr (readable : Readable files params) {result : Params}
    (same : ∀ key ∈ inputPaths, result key = params key) : Readable files result where
  paths := fun key listed => same key listed ▸ readable.paths key listed
  targetDir := same "target_dir" (by decide) ▸ readable.targetDir
  userData := same "user_data_dir" (by decide) ▸ readable.userData

/-- The parameters that each task finds set. -/
def preparedKeys : List String := ["target_dir","user_data_dir","analysis_settings_json","storage_subdir"]

/-- Parameters that are prepared. -/
structure Usable (files : KeysKwargs) (params : Params) : Prop where
  readable : Readable files params
  there : ∀ key ∈ preparedKeys, (params key).isSome

/-- And the calls raise no `TypeError`. -/
structure Ready (files : KeysKwargs) (prepared : Prepared) : Prop where
  usable : Usable files prepared.1
  calls : none ∉ prepared.2

theorem put_isSome {params : Params} {key : String} (there : (params key).isSome) (other : String) (value : Json) :
    (params.put other value key).isSome := by
  by_cases same : key = other
  · subst same
    simp [Params.put]
  · rw [put_other _ _ same]
    exact there

theorem Usable.put (usable : Usable files params) {key : String} {value : Json}
    (path : key ∈ inputPaths → Path (some value))
    (set : value = .null → key ≠ "target_dir" ∧ (key = "user_data_dir" → files.complexDataFiles = [])) :
    Usable files (params.put key value) where
  readable := usable.readable.put path set
  there := fun _ listed => put_isSome (usable.there _ listed) ..

theorem Usable.put_own (usable : Usable files params) {key : String} (own : key ∉ inputPaths) (value : Json) :
    Usable files (params.put key value) where
  readable := usable.readable.put_own own value
  there := fun _ listed => put_isSome (usable.there _ listed) ..

theorem Usable.put_text (usable : Usable files params) (key text : String) : Usable files (params.put key (.string text)) :=
  usable.put (fun _ => .text text) nofun

variable {prepared : Prepared}

theorem Ready.put (ready : Ready files prepared) {key : String} {value : Json}
    (path : key ∈ inputPaths → Path (some value))
    (set : value = .null → key ≠ "target_dir" ∧ (key = "user_data_dir" → files.complexDataFiles = [])) :
    Ready files (prepared.1.put key value,prepared.2) :=
  ⟨ready.usable.put path set,ready.calls⟩

theorem Ready.call (ready : Ready files prepared) {calls : List Call} (some : none ∉ calls) :
    Ready files (prepared.1,prepared.2 ++ calls) :=
  ⟨ready.usable,fun raised => (List.mem_append.mp raised).elim ready.calls some⟩

theorem keysDirectories_usable (run : Run) (readable : Readable files params) :
    Usable files (keysDirectories run params) where
  readable := by
    have subdir : Readable files (params.put "storage_subdir" (.string run.filesSubdir)) := readable.put_text _ _
    have root := subdir.put_text "root_run_dir" run.filesDir
    exact (((root.setdefault _ _).setdefault _ _).setdefault _ _).setdefault _ _
  there := by
    have default (key name : String) (listed : (key,name) ∈ RunPaths.filesDirs) :
        (keysDirectories run params key).isSome := by
      rw [RunPaths.keysDirectories_set run params (key,name) listed]
      rfl
    intro key listed
    simp only [preparedKeys,List.mem_cons,List.not_mem_nil,or_false] at listed
    rcases listed with rfl | rfl | rfl | rfl
    · rw [keysDirectories_eq,setdefaults_self _ (by simp) List.mem_cons_self]
      rfl
    · exact default _ "user-data" (by simp [RunPaths.filesDirs])
    · exact default _ "analysis_settings.json" (by simp [RunPaths.filesDirs])
    · rw [keysDirectories_eq,setdefaults_other _ (by simp),put_other _ _ (by decide),Params.put,Function.update_self]
      rfl

/-- A file to fetch has a text for its reference. -/
theorem getFileRef_text {server : Option String} {argName source : String} {ref : Json}
    (path : Path (params ("pre_" ++ argName))) (read : getFileRef server params argName = some (ref,source)) :
    ∃ text, ref = .string text := by
  rcases RunPaths.getFileRef_cases read with ⟨file,-,same,-⟩ | ⟨hooked,same,-⟩
  · exact ⟨file,same⟩
  · obtain ⟨text,named⟩ := path.of_truthy hooked
    exact ⟨text,same.trans named⟩

theorem oedFile_ready (ready : Ready files prepared) (rootRunDir : String) {ref : Option (Json × String)}
    (text : ∀ json source, ref = some (json,source) → ∃ text, json = .string text) (key name : String) :
    Ready files (oedFile rootRunDir ref key name prepared) := by
  match ref with
  | none => exact ready
  | some (json,source) =>
    obtain ⟨path,rfl⟩ := text json source rfl
    exact (ready.put (fun _ => .text _) nofun).call (by simp [maybeFetchFile,fetchTo])

theorem currencyFile_ready (ready : Ready files prepared) (rootRunDir : String) (ref : Option (Json × String))
    (reportingCurrency : Option String) : Ready files (currencyFile rootRunDir ref reportingCurrency prepared) := by
  unfold currencyFile
  split
  · exact ready
  · split
    · exact ready
    · refine Ready.call ((ready.put ?_ ?_).put ?_ ?_) (by simp [maybeFetchFile,fetchTo])
      · exact fun listed => absurd listed (by decide)
      · exact fun _ => ⟨by decide,fun same => absurd same (by decide)⟩
      · exact fun _ => .text _
      · exact nofun

/-- The settings go to those of the two paths that are none of `None` and the empty text. -/
theorem settingsPaths_text (lookupFirst : Bool) (readable : Readable files params) {path : Json}
    (listed : path ∈ settingsPaths lookupFirst params) : ∃ text, path = .string text := by
  obtain ⟨member,truthy⟩ := List.mem_filter.mp listed
  have either : path = params.get "analysis_settings_json" ∨ path = params.get "lookup_complex_config_json" := by
    split at member
    · exact .inl (List.mem_singleton.mp member)
    · split at member
      · exact (List.mem_pair.mp member).symm
      · exact List.mem_pair.mp member
  rcases either with rfl | rfl
  · exact (readable.paths "analysis_settings_json" (by decide)).of_truthy truthy
  · exact (readable.paths "lookup_complex_config_json" (by decide)).of_truthy truthy

theorem settingsFiles_ready (ready : Ready files prepared) (lookupFirst : Bool) (settingsFile : Option String) :
    Ready files (settingsFiles lookupFirst settingsFile prepared) := by
  have unset : Ready files
      ((prepared.1.put "lookup_complex_config_json" .null).put "analysis_settings_json" .null,prepared.2) :=
    (ready.put (fun _ => .null) fun _ => ⟨by decide,fun same => absurd same (by decide)⟩).put (fun _ => .null)
      fun _ => ⟨by decide,fun same => absurd same (by decide)⟩
  unfold settingsFiles
  split
  · exact unset
  · split
    · exact unset
    · refine ready.call fun raised => ?_
      obtain ⟨path,listed,call⟩ := List.mem_map.mp raised
      obtain ⟨text,rfl⟩ := settingsPaths_text lookupFirst ready.usable.readable listed
      cases call

theorem userData_ready (ready : Ready files prepared) : Ready files (userData files.complexDataFiles prepared) := by
  unfold userData
  split
  · rename_i none
    exact ready.put (fun _ => .null) fun _ => ⟨by decide,fun _ => List.isEmpty_iff.mp none⟩
  · rename_i some
    have readable := ready.usable.readable
    obtain ⟨text,named⟩ := (readable.paths "user_data_dir" (by decide)).is_text (ready.usable.there _ (by decide))
      (readable.userData fun none => some (List.isEmpty_iff.mpr none))
    refine ready.call ?_
    simp [maybePrepareComplexDataFiles,fetchTo,Params.get,named]

/-- The directories of a task of the input generation. -/
theorem keysPrepareDirectories_ready (run : Run) {kwargs : KeysKwargs} (same : kwargs.complexDataFiles = files.complexDataFiles)
    (readable : Readable files params) : Ready files (keysPrepareDirectories run kwargs params) := by
  have start : Ready files (keysDirectories run params,[]) := ⟨keysDirectories_usable run readable,List.not_mem_nil⟩
  have text (server : Option String) (argName : String) (listed : "pre_" ++ argName ∈ inputPaths) (json : Json)
      (source : String) (read : getFileRef server (keysDirectories run params) argName = some (json,source)) :
      ∃ text, json = .string text :=
    getFileRef_text (start.usable.readable.paths _ listed) read
  rw [keysPrepareDirectories,same]
  have loc := oedFile_ready start run.filesDir (text kwargs.locFile "loc_file" (by decide)) "oed_location_csv" "location"
  have acc := oedFile_ready loc run.filesDir (text kwargs.accFile "acc_file" (by decide)) "oed_accounts_csv" "account"
  have info := oedFile_ready acc run.filesDir (text kwargs.infoFile "info_file" (by decide)) "oed_info_csv" "reinsinfo"
  have scope := oedFile_ready info run.filesDir (text kwargs.scopeFile "scope_file" (by decide)) "oed_scope_csv"
    "reinsscope"
  exact userData_ready (settingsFiles_ready (currencyFile_ready scope run.filesDir _ _) run.lookupFirst _)

theorem planOf_raises {calls : List Call} (some : none ∉ calls) : (planOf calls).raises = false := by
  induction calls with
  | nil => rfl
  | cons call rest ih =>
    cases call with
    | none => exact absurd List.mem_cons_self some
    | some fetch => exact ih fun later => some (List.mem_cons_of_mem _ later)

theorem keys_plan_raises (run : Run) {kwargs : KeysKwargs} (same : kwargs.complexDataFiles = files.complexDataFiles)
    {given : List Params} (readable : ∀ p ∈ given, Readable files p) : (run.plan (.keys kwargs given)).raises = false := by
  refine planOf_raises fun raised => ?_
  obtain ⟨p,listed,raised⟩ := List.mem_flatMap.mp raised
  exact (keysPrepareDirectories_ready run same (readable p listed)).calls raised

theorem prepareEach_ready (run : Run) {kwargs : KeysKwargs} (same : kwargs.complexDataFiles = files.complexDataFiles)
    {given : List Params} (readable : ∀ p ∈ given, Readable files p) :
    prepareEach run kwargs given = some (given.map fun params => (keysPrepareDirectories run kwargs params).1) ∧
      ∀ p ∈ given, Usable files (keysPrepareDirectories run kwargs p).1 := by
  refine ⟨by rw [prepareEach,keys_plan_raises run same readable]; rfl,fun p listed => ?_⟩
  exact (keysPrepareDirectories_ready run same (readable p listed)).usable

/-! ### Steps that do not raise -/

theorem foldlM_safe {α β : Type} {good : β → Prop} {step : β → α → Option β} {items : List α}
    (safe : ∀ b, ∀ a ∈ items, good b → ∃ c, step b a = some c ∧ good c) {b : β} (holds : good b) :
    ∃ c, items.foldlM step b = some c ∧ good c := by
  induction items generalizing b with
  | nil => exact ⟨b,rfl,holds⟩
  | cons item rest ih =>
    obtain ⟨c,stepped,kept⟩ := safe b item List.mem_cons_self holds
    obtain ⟨d,rest_steps,good⟩ := ih (fun b a listed => safe b a (List.mem_cons_of_mem _ listed)) kept
    exact ⟨d,by rw [List.foldlM_cons,stepped]; exact rest_steps,good⟩

theorem mapM_safe {α β : Type} {step : α → Option β} {items : List α} (safe : ∀ a ∈ items, (step a).isSome) :
    ∃ results, items.mapM step = some results := by
  induction items with
  | nil => exact ⟨[],rfl⟩
  | cons item rest ih =>
    obtain ⟨result,stepped⟩ := Option.isSome_iff_exists.mp (safe item List.mem_cons_self)
    obtain ⟨results,later⟩ := ih fun a listed => safe a (List.mem_cons_of_mem _ listed)
    exact ⟨result :: results,by simp [List.mapM_cons,stepped,later]⟩

/-- The logs so far are in a dictionary. -/
def Logged (params : Params) : Prop := ∃ logs, params "log_storage" = some (.object logs)

theorem Logged.put (logged : Logged params) {key : String} (other : key ≠ "log_storage") (value : Json) :
    Logged (params.put key value) := by
  obtain ⟨logs,storage⟩ := logged
  exact ⟨logs,(put_other params value other.symm).trans storage⟩

/-- Registering a log changes no other key. -/
theorem registerLog_safe (attempt : InputAttempt) (slug : String) (logged : Logged params) :
    ∃ result, registerLog attempt slug params = some result ∧ Logged result ∧
      ∀ key ∉ ["log_location","log_storage"], result key = params key := by
  obtain ⟨logs,storage⟩ := logged
  have kept : (params.put "log_location" (stored attempt.logLocation)) "log_storage" = some (.object logs) :=
    (put_other params _ (by decide)).trans storage
  refine ⟨(params.put "log_location" (stored attempt.logLocation)).put "log_storage"
    (.object (Dictionaries.put logs slug (stored attempt.logLocation))),?_,?_,?_⟩
  · simp only [registerLog,kept]
  · exact ⟨_,Function.update_self ..⟩
  · intro key other
    obtain ⟨location,later⟩ := not_or.mp (mt List.mem_cons.mpr other)
    rw [put_other _ _ fun same => later (List.mem_singleton.mpr same),put_other _ _ location]

/-- What a log is registered in stays readable. -/
theorem registerLog_readable (attempt : InputAttempt) (slug : String) (readable : Readable files params)
    (logged : Logged params) : ∃ result, registerLog attempt slug params = some result ∧ Readable files result ∧
      Logged result ∧ ∀ key ∉ ["log_location","log_storage"], result key = params key := by
  obtain ⟨result,registered,logged,same⟩ := registerLog_safe attempt slug logged
  refine ⟨result,registered,readable.congr fun key listed => same key fun own => ?_,logged,same⟩
  have apart : ∀ key ∈ ["log_location","log_storage"], key ∉ inputPaths := by decide
  exact apart key own listed

theorem absPath_safe (usable : Usable files params) {key : String} (listed : key ∈ inputPaths) :
    absPath (params.get key) = some () := by
  have path := usable.readable.paths key listed
  unfold Params.get
  generalize params key = value at path ⊢
  cases path <;> rfl

theorem loadSubjectAtRiskData_safe (usable : Usable files params) : loadSubjectAtRiskData params = some () := by
  rw [loadSubjectAtRiskData,absPath_safe usable (by decide),absPath_safe usable (by decide)]
  rfl

theorem getKeysFormat_safe (usable : Usable files params) : ∃ format, getKeysFormat params = some format := by
  have text : ∃ text, (if (params.get "keys_format").truthy then params.get "keys_format" else .string "parquet") =
      Json.string text := by
    split
    · exact (usable.readable.paths "keys_format" (by decide)).of_truthy ‹_›
    · exact ⟨_,rfl⟩
  obtain ⟨text,same⟩ := text
  simp only [getKeysFormat,same]
  cases keysFormatExt.lookup text.toLower with
  | some ext => exact ⟨_,rfl⟩
  | none => exact ⟨_,rfl⟩

/-- The paths to which the loss generation fetches. -/
def lossPaths : List String := ["oasis_files_dir","model_run_dir","user_data_dir","analysis_settings_json"]

/-- An attempt in which nothing outside the tasks raises: the archives can be stored, the
    file store returns a reference for what was put, some chunk has a file to be merged, and
    the configuration and the functions of the library have texts for paths, or none. -/
structure Works (attempt : InputAttempt) : Prop where
  stores : attempt.stores = true
  sarChunk : ∀ chunkIdx, (attempt.sarChunk chunkIdx).isSome
  chunkKeys : attempt.chunkKeys.isSome
  fileNames : attempt.fileNames ≠ []
  outputLocation : attempt.written.outputLocation.isSome
  config : ∀ key ∈ inputPaths ++ lossPaths, Path (attempt.config key)
  filesPaths : ∀ params, (∀ key ∈ inputPaths, Path (params key)) →
    ∀ key ∈ inputPaths, Path (attempt.paramsGenerateOasisFiles params key)
  filesOwn : ∀ params, attempt.paramsGenerateOasisFiles params "sar_chunks" = none
  lossesPaths : ∀ params, (∀ key ∈ lossPaths, Path (params key)) →
    ∀ key ∈ lossPaths, Path (attempt.paramsGenerateOasisLosses params key)

variable {attempt : InputAttempt}

theorem merge_path {config : Params} {key : String} (path : Path (params key)) (configured : Path (config key)) :
    Path (LossInputs.merge config params key) := by
  unfold LossInputs.merge
  cases value : params key with
  | none => exact configured
  | some json =>
    rw [value] at path
    exact path

theorem strip_path {config : Params} {key : String} (path : Path (config key)) :
    Path (configStripDefaultExposure config key) := by
  unfold configStripDefaultExposure
  split
  · exact .absent
  · exact path

/-- Texts stay texts, and `None` is left out. -/
theorem absolute_path (absolutePath : String → Option String) {dictionary : Params} {key : String}
    (path : Path (dictionary key)) : Path (pathsToAbsolutePaths absolutePath dictionary key) ∧
      pathsToAbsolutePaths absolutePath dictionary key ≠ some .null := by
  unfold pathsToAbsolutePaths
  cases value : dictionary key with
  | none => exact ⟨.absent,nofun⟩
  | some json =>
    rw [value] at path
    cases path with
    | null => exact ⟨.absent,nofun⟩
    | text text => exact ⟨.text _,nofun⟩

theorem prepareInputGenerationParams_safe (works : Works attempt) (slug : String) (usable : Usable files params) :
    ∃ result, prepareInputGenerationParams attempt slug params = some result ∧
      Readable files result ∧ Logged result ∧ result "sar_chunks" = none := by
  have merged : ∀ key ∈ inputPaths, Path (LossInputs.merge (configStripDefaultExposure attempt.config) params key) :=
    fun key listed => merge_path (usable.readable.paths key listed)
      (strip_path (works.config key (List.mem_append_left _ listed)))
  have generated := works.filesPaths _ merged
  have own := works.filesOwn (LossInputs.merge (configStripDefaultExposure attempt.config) params)
  unfold prepareInputGenerationParams
  dsimp only
  generalize attempt.paramsGenerateOasisFiles (LossInputs.merge (configStripDefaultExposure attempt.config) params) =
    genFilesParams at generated own
  have absolute : Readable files (pathsToAbsolutePaths attempt.absolutePath genFilesParams) :=
    ⟨fun key listed => (absolute_path _ (generated key listed)).1,(absolute_path _ (generated _ (by decide))).2,
      fun _ => (absolute_path _ (generated _ (by decide))).2⟩
  have unsplit : pathsToAbsolutePaths attempt.absolutePath genFilesParams "sar_chunks" = none := by
    rw [pathsToAbsolutePaths,own]
  generalize (if (genFilesParams.get "oed_schema_info").truthy then genFilesParams.get "oed_schema_info"
    else attempt.environSchemaInfo) = schema
  generalize pathsToAbsolutePaths attempt.absolutePath genFilesParams = params at absolute unsplit
  have readable : Readable files ((params.put "oed_schema_info" schema).put "log_storage" (.object [])) :=
    (absolute.put_own (by decide) _).put_own (by decide) _
  have logged : Logged ((params.put "oed_schema_info" schema).put "log_storage" (.object [])) :=
    ⟨[],Function.update_self ..⟩
  obtain ⟨result,registered,readable,logged,same⟩ := registerLog_readable attempt slug readable logged
  refine ⟨result.put "verbose" (.bool attempt.debugWorker),by simp [registered],readable.put_own (by decide) _,
    logged.put (by decide) _,?_⟩
  rw [put_other _ _ (by decide),same _ (by decide),put_other _ _ (by decide),put_other _ _ (by decide)]
  exact unsplit

/-- What the hook is given, with its directories prepared. -/
structure Unsplit (files : KeysKwargs) (params : Params) : Prop where
  usable : Usable files params
  logged : Logged params
  unsplit : params "sar_chunks" = none

theorem Unsplit.put (unsplit : Unsplit files params) {key : String} {value : Json}
    (path : key ∈ inputPaths → Path (some value)) (own : key ∉ ["target_dir","user_data_dir","log_storage","sar_chunks"]) :
    Unsplit files (params.put key value) := by
  simp only [List.mem_cons,List.not_mem_nil,or_false,not_or] at own
  obtain ⟨target,user,logs,sar⟩ := own
  refine ⟨unsplit.usable.put path fun _ => ⟨target,fun same => absurd same user⟩,unsplit.logged.put logs value,?_⟩
  rw [put_other _ _ (Ne.symm sar)]
  exact unsplit.unsplit

theorem stored_path (reference : Option Reference) : Path (some (stored reference)) := by
  cases reference with
  | none => exact .null
  | some reference => exact .text reference.text

theorem storeModified_safe (attempt : InputAttempt) (params : Params) (file : OedFile) (unsplit : Unsplit files params) :
    ∃ result, storeModified attempt params file = some result ∧ Unsplit files result := by
  unfold storeModified
  split
  · exact ⟨params,rfl,unsplit⟩
  · split
    · exact ⟨params,rfl,unsplit⟩
    · obtain ⟨subdir,there⟩ := Option.isSome_iff_exists.mp (unsplit.usable.there "storage_subdir" (by decide))
      refine ⟨params.put (preKey file) (stored (attempt.preFile file)),by simp [there],?_⟩
      refine unsplit.put (fun _ => stored_path _) ?_
      cases file <;> decide

theorem withSarFile_usable (attempt : InputAttempt) (usable : Usable files params) (file : OedFile × String) :
    Usable files (withSarFile attempt params file) := by
  unfold withSarFile
  split
  · exact usable
  · split
    · exact usable
    · exact usable.put_text file.2 _

theorem withSarFiles_usable (attempt : InputAttempt) (usable : Usable files params) :
    Usable files (withSarFiles attempt params) :=
  withSarFile_usable attempt (withSarFile_usable attempt usable _) _

/-- The chunks, where the hook has split the exposure. -/
def SarChunks (numChunks : Nat) (params : Params) : Prop :=
  params "sar_chunks" = none ∨ ∃ items, params "sar_chunks" = some (.array items) ∧ items.length = numChunks ∧
    ∀ item ∈ items, ∃ text, item = .string text

theorem storeSubjectAtRiskChunks_safe (works : Works attempt) (numChunks : Nat) (usable : Usable files params) :
    ∃ items, storeSubjectAtRiskChunks attempt params numChunks = some (.array items) ∧ items.length = numChunks ∧
      ∀ item ∈ items, ∃ text, item = .string text := by
  obtain ⟨subdir,there⟩ := Option.isSome_iff_exists.mp (usable.there "storage_subdir" (by decide))
  refine ⟨_,by simp only [storeSubjectAtRiskChunks,loadSubjectAtRiskData_safe usable,there]; rfl,by simp,?_⟩
  intro item listed
  obtain ⟨chunkIdx,-,rfl⟩ := List.mem_map.mp listed
  obtain ⟨reference,put⟩ := Option.isSome_iff_exists.mp (works.sarChunk chunkIdx)
  exact ⟨reference.text,by rw [put]; rfl⟩

theorem exposurePreAnalysis_safe (attempt : InputAttempt) (unsplit : Unsplit files params) :
    ∃ hooked, exposurePreAnalysis attempt params = some hooked ∧ Unsplit files hooked := by
  unfold exposurePreAnalysis
  split
  · have target : Unsplit files (params.put "oasis_files_dir" (.string attempt.hookTargetDir)) :=
      unsplit.put (fun _ => .text _) (by decide)
    obtain ⟨modified,stores,kept⟩ : ∃ modified, oedFiles.foldlM (storeModified attempt)
        (params.put "oasis_files_dir" (.string attempt.hookTargetDir)) = some modified ∧ Unsplit files modified :=
      foldlM_safe (fun params file _ unsplit => storeModified_safe attempt params file unsplit) target
    refine ⟨modified.put "check_oed" (.bool false),by simp [stores],kept.put (fun listed => ?_) (by decide)⟩
    exact absurd listed (by decide)
  · exact ⟨params,rfl,unsplit⟩

/-- The splits of a run are those of the header. -/
theorem splitExposure_safe (works : Works attempt) (numChunks : Nat) {sarParams : Params} (read : Usable files sarParams)
    (unsplit : Unsplit files params) : ∃ split, splitExposure attempt numChunks sarParams params = some split ∧
      Usable files split ∧ Logged split ∧ SarChunks numChunks split := by
  unfold splitExposure
  split
  · obtain ⟨items,stores,length,texts⟩ := storeSubjectAtRiskChunks_safe works numChunks read
    refine ⟨params.put "sar_chunks" (.array items),by simp [stores],unsplit.usable.put_own (by decide) _,
      unsplit.logged.put (by decide) _,.inr ⟨items,?_,length,texts⟩⟩
    exact Function.update_self ..
  · exact ⟨params,rfl,unsplit.usable,unsplit.logged,.inl unsplit.unsplit⟩

theorem preAnalysisHook_safe (works : Works attempt) (slug : String) (numChunks : Nat) (unsplit : Unsplit files params) :
    ∃ result, preAnalysisHook attempt slug numChunks params = some result ∧
      Readable files result ∧ Logged result ∧ SarChunks numChunks result := by
  obtain ⟨hooked,hooks,unsplit⟩ := exposurePreAnalysis_safe attempt unsplit
  have read : Usable files (if (params.get "exposure_pre_analysis_module").truthy then withSarFiles attempt hooked
      else hooked) := by
    split
    · exact withSarFiles_usable attempt unsplit.usable
    · exact unsplit.usable
  obtain ⟨split,splits,usable,logged,chunks⟩ := splitExposure_safe works numChunks read unsplit
  obtain ⟨result,registered,readable,logged,same⟩ := registerLog_readable attempt slug usable.readable logged
  refine ⟨result,by simp only [preAnalysisHook,hooks,splits,Option.bind_eq_bind,Option.bind_some,registered],readable,
    logged,?_⟩
  rw [SarChunks,same _ (by decide)]
  exact chunks

/-- What the chunks of the keys are given, with their directories prepared. -/
structure Split (files : KeysKwargs) (numChunks : Nat) (params : Params) : Prop where
  usable : Usable files params
  logged : Logged params
  chunks : SarChunks numChunks params

theorem loadSubjectAtRiskChunk_safe {numChunks chunkIdx : Nat} (split : Split files numChunks params)
    (one : chunkIdx < numChunks) : loadSubjectAtRiskChunk params numChunks chunkIdx = some () := by
  rcases split.chunks with unsplit | ⟨items,stored,length,texts⟩
  · have other : 0 ≠ numChunks := by omega
    simp [loadSubjectAtRiskChunk,Params.get,unsplit,Json.truthy,Json.length,loadSubjectAtRiskData_safe split.usable,one,
      other]
  · have inside : chunkIdx < items.length := length ▸ one
    have nonempty : items ≠ [] := by
      rintro rfl
      exact absurd inside (Nat.not_lt_zero _)
    obtain ⟨text,item⟩ := texts _ (List.getElem_mem inside)
    have read : items[chunkIdx]? = some (.string text) := by rw [List.getElem?_eq_getElem inside,item]
    simp [loadSubjectAtRiskChunk,Params.get,stored,Json.truthy,nonempty,Json.length,length,read]

/-- The keys of a chunk are stored for the task that collects them. -/
theorem prepareKeysFileChunk_safe (works : Works attempt) (slug : String) {numChunks chunkIdx : Nat}
    (split : Split files numChunks params) (one : chunkIdx < numChunks) :
    ∃ result, prepareKeysFileChunk attempt slug chunkIdx numChunks params = some result ∧
      Readable files result ∧ Logged result ∧ Text (result "chunk_keys") := by
  obtain ⟨subdir,there⟩ := Option.isSome_iff_exists.mp (split.usable.there "storage_subdir" (by decide))
  obtain ⟨reference,put⟩ := Option.isSome_iff_exists.mp works.chunkKeys
  obtain ⟨format,formatted⟩ := getKeysFormat_safe split.usable
  have readable : Readable files (params.put "chunk_keys" (stored attempt.chunkKeys)) :=
    split.usable.readable.put_own (by decide) _
  have logged : Logged (params.put "chunk_keys" (stored attempt.chunkKeys)) := split.logged.put (by decide) _
  obtain ⟨result,registered,readable,logged,same⟩ := registerLog_readable attempt slug readable logged
  refine ⟨result,?_,readable,logged,reference.text,?_⟩
  · simp only [prepareKeysFileChunk,loadSubjectAtRiskChunk_safe split one,formatted,there,registered,
      Option.bind_eq_bind,Option.bind_some,ite_self]
  · rw [same _ (by decide),Params.put,Function.update_self,put]
    rfl

/-- What is collected of a chunk. -/
structure Chunk (files : KeysKwargs) (params : Params) : Prop where
  usable : Usable files params
  logged : Logged params
  keys : Text (params "chunk_keys")

theorem mergeChunkLogStorage_safe {chunks : List Params} (each : ∀ p ∈ chunks, Chunk files p) :
    ∃ logs, mergeChunkLogStorage chunks = some logs := by
  obtain ⟨logs,merged,-⟩ : ∃ logs, mergeChunkLogStorage chunks = some logs ∧ True := by
    refine foldlM_safe (fun merged chunk listed _ => ?_) trivial
    obtain ⟨logs,storage⟩ := (each chunk listed).logged
    exact ⟨_,by rw [logsOf,storage]; rfl,trivial⟩
  exact ⟨logs,merged⟩

/-- Of a chunk at least, the parameters are passed on. -/
theorem collectKeys_safe (works : Works attempt) (slug : String) {chunks : List Params} (nonempty : chunks ≠ [])
    (each : ∀ p ∈ chunks, Chunk files p) : ∃ result, collectKeys attempt slug chunks = some result ∧
      Readable files result ∧ Logged result ∧ (result "keys_data").isSome := by
  obtain ⟨first,rest,rfl⟩ := List.exists_cons_of_ne_nil nonempty
  have head := each first List.mem_cons_self
  obtain ⟨subdir,there⟩ := Option.isSome_iff_exists.mp (head.usable.there "storage_subdir" (by decide))
  obtain ⟨text,keys⟩ := head.keys
  obtain ⟨logs,merged⟩ := mergeChunkLogStorage_safe each
  obtain ⟨tars,read⟩ : ∃ tars, (first :: rest).mapM chunkTar = some tars := by
    refine mapM_safe fun chunk listed => ?_
    obtain ⟨text,keys⟩ := (each chunk listed).keys
    simp [chunkTar,keys]
  have dropped : Readable files (Function.update first "chunk_keys" none) :=
    head.usable.readable.congr fun key listed =>
      Function.update_of_ne (fun same => absurd (same ▸ listed) (by decide)) ..
  generalize made : (Params.put (Function.update first "chunk_keys" none) "log_storage" (.object logs)).put "keys_data"
    (stored attempt.keysData) = chunkParams
  have readable : Readable files chunkParams := made ▸ (dropped.put_own (by decide) _).put_own (by decide) _
  have logged : Logged chunkParams := made ▸ Logged.put ⟨logs,Function.update_self ..⟩ (by decide) _
  obtain ⟨result,registered,readable,logged,same⟩ := registerLog_readable attempt slug readable logged
  refine ⟨result,?_,readable,logged,?_⟩
  · have merges : mergeDirAsPosix attempt = some () := if_neg (mt List.isEmpty_iff.mp works.fileNames)
    simp only [collectKeys,List.head?_cons,there,keys,merged,read,merges,made,registered,Option.bind_eq_bind,
      Option.bind_some]
  · rw [same _ (by decide),← made,Params.put,Function.update_self]
    rfl

theorem writeInputFiles_safe (attempt : InputAttempt) (slug : String) (usable : Usable files params)
    (logged : Logged params) (keys : (params "keys_data").isSome) :
    writeInputFiles attempt slug params = some (LossInputs.writeInputFiles (writtenBy attempt)) := by
  obtain ⟨data,keys⟩ := Option.isSome_iff_exists.mp keys
  obtain ⟨subdir,subdirs⟩ := Option.isSome_iff_exists.mp (usable.there "storage_subdir" (by decide))
  obtain ⟨targetDir,target⟩ := (usable.readable.paths "target_dir" (by decide)).is_text
    (usable.there "target_dir" (by decide)) usable.readable.targetDir
  obtain ⟨format,formatted⟩ := getKeysFormat_safe usable
  generalize made : ((params.put "keys_data_path" (.string (joinPath targetDir s!"keys.{format.2}"))).put
    "keys_errors_path" (.string (joinPath targetDir s!"keys-errors.{format.2}"))).put "oasis_files_dir"
    (.string targetDir) = named
  have moved : Usable files named := made ▸ ((usable.put_text _ _).put_text _ _).put_text _ _
  have logs : Logged named := made ▸ ((logged.put (by decide) _).put (by decide) _).put (by decide) _
  obtain ⟨user,users⟩ := Option.isSome_iff_exists.mp (moved.there "user_data_dir" (by decide))
  obtain ⟨result,registered,-,same⟩ := registerLog_safe attempt slug logs
  have settings := same "analysis_settings_json" (by decide)
  obtain ⟨setting,set⟩ := Option.isSome_iff_exists.mp (moved.there "analysis_settings_json" (by decide))
  simp only [writeInputFiles,keys,subdirs,target,formatted,made,users,registered,settings,set,Option.bind_eq_bind,
    Option.bind_some]

end OasisPlatform.RunParameters
