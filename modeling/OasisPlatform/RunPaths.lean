import OasisPlatform.Dictionaries
import OasisPlatform.PrepareDirectories

/-!
The paths of a run. The tasks of a run are given the same files by the server and the hook,
some of them not all, and name the default directories or none. Their paths differ by the
starts of their names, so that all tasks of a run agree on the object at each of them
(`run_agrees`).
-/
namespace OasisPlatform.RunPaths
open OasisPlatform.JsonValues OasisPlatform.GuardedFetch OasisPlatform.PathText OasisPlatform.PrepareDirectories
set_option linter.unusedSimpArgs false

/-- What the tasks of a run are given, as far as it is fetched: the files of the server,
    those of the hook, and the archive of the run. -/
structure RunInputs where
  keys : KeysKwargs
  preFile : (argName : String) → Json
  losses : LossKwargs
  runLocation : Json

def reference : Option String → Json
  | some file => .string file
  | none => .null

def oedName (name : String) (reference : Json) : String :=
  match reference with
  | .string path => name ++ extension path
  | _ => name

def oedObjects (inputs : RunInputs) (argName name : String) (server : Option String) : List (String × Object) :=
  [(oedName ("raw_" ++ name) (reference server),.file (reference server) ""),
    (oedName ("pre_" ++ name) (inputs.preFile argName),.file (inputs.preFile argName) "")]

/-- By name, what is in the directory of the input generation. -/
def filesObjects (inputs : RunInputs) : List (String × Object) :=
  oedObjects inputs "loc_file" "location" inputs.keys.locFile ++
    oedObjects inputs "acc_file" "account" inputs.keys.accFile ++
    oedObjects inputs "info_file" "reinsinfo" inputs.keys.infoFile ++
    oedObjects inputs "scope_file" "reinsscope" inputs.keys.scopeFile ++
    [("raw_currency_conversion.json",.file (reference inputs.keys.currencyConversionJson) ""),
      ("pre_currency_conversion.json",.file (inputs.preFile "currency_conversion_json") ""),
      ("analysis_settings.json",.file (reference inputs.keys.analysisSettingsFile) ""),
      ("user-data",.complexData inputs.keys.complexDataFiles)]

/-- And in that of the loss generation. -/
def lossesObjects (run : Run) (inputs : RunInputs) : List (String × Object) :=
  [("input-data",.archive inputs.losses.inputLocation ""),("run-data",.archive inputs.runLocation run.lossesSubdir),
    ("user-data",.complexData inputs.losses.complexDataFiles),
    ("analysis_settings.json",.file (reference inputs.losses.analysisSettingsFile) "")]

def under (dir : String) (objects : List (String × Object)) : List (String × Object) :=
  objects.map fun entry => (joinPath dir entry.1,entry.2)

def runObjects (run : Run) (inputs : RunInputs) : List (String × Object) :=
  under run.filesDir (filesObjects inputs) ++ under run.lossesDir (lossesObjects run inputs)

/-- A directory, with the slash that joins it to a name. -/
def dirPart (dir : String) : String := if dir = "" ∨ dir.toList.getLast? = some '/' then dir else dir ++ "/"

theorem joinPath_relative (dir : String) {name : String} (relative : name.toList.head? ≠ some '/') :
    joinPath dir name = dirPart dir ++ name := by
  unfold joinPath dirPart
  rw [if_neg relative]
  split <;> rfl

/-- The first characters of a name, by which the names are told apart. -/
def nameStart (name : String) : List Char := name.toList.take 10

theorem nameStart_append (name tail : String) (long : 10 ≤ name.toList.length) :
    nameStart (name ++ tail) = nameStart name := by
  rw [nameStart,String.toList_append,List.take_append_of_le_length long,nameStart]

theorem oedName_start (name : String) (reference : Json) (long : 10 ≤ name.toList.length) :
    nameStart (oedName name reference) = nameStart name := by
  cases reference with
  | string path => exact nameStart_append name _ long
  | _ => rfl

theorem filesObjects_starts (inputs : RunInputs) : (filesObjects inputs).map (fun entry => nameStart entry.1) =
    ["raw_location","pre_location","raw_account","pre_account","raw_reinsinfo","pre_reinsinfo","raw_reinsscope",
      "pre_reinsscope","raw_currency_conversion.json","pre_currency_conversion.json","analysis_settings.json",
      "user-data"].map nameStart := by
  simp only [filesObjects,oedObjects,List.map_append,List.map_cons,List.map_nil]
  rw [oedName_start _ _ (by decide),oedName_start _ _ (by decide),oedName_start _ _ (by decide),
    oedName_start _ _ (by decide),oedName_start _ _ (by decide),oedName_start _ _ (by decide),
    oedName_start _ _ (by decide),oedName_start _ _ (by decide)]
  rfl

theorem losses_starts (run : Run) (inputs : RunInputs) : (lossesObjects run inputs).map (fun entry => nameStart entry.1) =
    ["input-data","run-data","user-data","analysis_settings.json"].map nameStart := rfl

/-- Names whose starts are told apart, and are no absolute paths. -/
structure Apart (objects : List (String × Object)) : Prop where
  distinct : (objects.map fun entry => nameStart entry.1).Nodup
  relative : ∀ entry ∈ objects, entry.1.toList.head? ≠ some '/'

theorem apart_of_starts {objects : List (String × Object)} {starts : List (List Char)}
    (same : objects.map (fun entry => nameStart entry.1) = starts) (distinct : starts.Nodup)
    (relative : ∀ start ∈ starts, start.head? ≠ some '/') : Apart objects := by
  refine ⟨same ▸ distinct,fun entry member => ?_⟩
  have head : (nameStart entry.1).head? = entry.1.toList.head? := by simp [nameStart,List.head?_take]
  rw [← head]
  exact relative _ (same ▸ List.mem_map_of_mem member)

theorem files_apart (inputs : RunInputs) : Apart (filesObjects inputs) :=
  apart_of_starts (filesObjects_starts inputs) (by decide) (by decide)

theorem losses_apart (run : Run) (inputs : RunInputs) : Apart (lossesObjects run inputs) :=
  apart_of_starts (losses_starts run inputs) (by decide) (by decide)

theorem under_nodup {objects : List (String × Object)} (apart : Apart objects) (dir : String) :
    (Dictionaries.keys (under dir objects)).Nodup := by
  have names : (objects.map Prod.fst).Nodup := List.Nodup.of_map nameStart (by
    rw [List.map_map]
    exact apart.distinct)
  have paths : Dictionaries.keys (under dir objects) = (objects.map Prod.fst).map (joinPath dir) := by
    simp [Dictionaries.keys,under,Function.comp_def]
  rw [paths]
  refine names.map_on fun name listed other listed' same => ?_
  obtain ⟨entry,member,rfl⟩ := List.mem_map.mp listed
  obtain ⟨entry',member',rfl⟩ := List.mem_map.mp listed'
  rw [joinPath_relative dir (apart.relative entry member),joinPath_relative dir (apart.relative entry' member')] at same
  have chars := congrArg String.toList same
  rw [String.toList_append,String.toList_append] at chars
  exact String.toList_inj.mp (List.append_cancel_left chars)

/-- What the paths of a run begin with. -/
def runStart (run : Run) : List Char :=
  (dirPart run.baseRunDir).toList ++ ("analysis-".toList ++ (toString run.analysisId).toList)

theorem dirPart_start (dir : String) : ∃ tail, (dirPart dir).toList = dir.toList ++ tail := by
  unfold dirPart
  split
  · exact ⟨[],(List.append_nil _).symm⟩
  · exact ⟨_,String.toList_append⟩

/-- A path under the directory of a stage tells which stage it is. -/
theorem path_stage (run : Run) (stage uuid : String) {name : String} (relative : name.toList.head? ≠ some '/') :
    ∃ tail, (joinPath (joinPath run.baseRunDir ("analysis-" ++ toString run.analysisId ++ stage ++ uuid)) name).toList =
      runStart run ++ (stage.toList ++ tail) := by
  generalize run_subdir : "analysis-" ++ toString run.analysisId ++ stage ++ uuid = subdir
  have chars : subdir.toList = "analysis-".toList ++ (toString run.analysisId).toList ++ stage.toList ++ uuid.toList := by
    rw [← run_subdir]
    simp only [String.toList_append]
  have subdir_relative : subdir.toList.head? ≠ some '/' := by
    rw [chars]
    exact nofun
  obtain ⟨tail,slash⟩ := dirPart_start (joinPath run.baseRunDir subdir)
  refine ⟨uuid.toList ++ tail ++ name.toList,?_⟩
  rw [joinPath_relative _ relative,String.toList_append,slash,joinPath_relative _ subdir_relative,String.toList_append,chars,
    runStart]
  simp only [List.append_assoc]

theorem files_losses_apart (run : Run) {name other : String} (relative : name.toList.head? ≠ some '/')
    (relative' : other.toList.head? ≠ some '/') : joinPath run.filesDir name ≠ joinPath run.lossesDir other := by
  intro same
  obtain ⟨tail,files⟩ := path_stage run "_files-" run.filesUuid relative
  obtain ⟨tail',losses⟩ := path_stage run "_losses-" run.lossesUuid relative'
  have chars := files.symm.trans ((congrArg String.toList same).trans losses)
  have tails := List.append_cancel_left chars
  have second := (List.cons.inj (List.cons.inj tails).2).1
  exact absurd second (by decide)

theorem mem_under {dir : String} {objects : List (String × Object)} {path : String}
    (listed : path ∈ Dictionaries.keys (under dir objects)) : ∃ entry ∈ objects, path = joinPath dir entry.1 := by
  obtain ⟨entry,member,rfl⟩ := List.mem_map.mp listed
  obtain ⟨original,inside,rfl⟩ := List.mem_map.mp member
  exact ⟨original,inside,rfl⟩

/-- Each path of a run has one object. -/
theorem runObjects_nodup (run : Run) (inputs : RunInputs) : (Dictionaries.keys (runObjects run inputs)).Nodup := by
  rw [runObjects,Dictionaries.keys_append,List.nodup_append]
  refine ⟨under_nodup (files_apart inputs) _,under_nodup (losses_apart run inputs) _,?_⟩
  rintro path listed _ listed' rfl
  obtain ⟨entry,member,rfl⟩ := mem_under listed
  obtain ⟨other,member',same⟩ := mem_under listed'
  exact files_losses_apart run ((files_apart inputs).relative entry member)
    ((losses_apart run inputs).relative other member') same

def objectAt (run : Run) (inputs : RunInputs) (path : String) : Object :=
  (Dictionaries.find (runObjects run inputs) path).getD (.complexData [])

theorem objectAt_eq {run : Run} {inputs : RunInputs} {fetch : Fetch String Object}
    (listed : (fetch.path,fetch.object) ∈ runObjects run inputs) : fetch.object = objectAt run inputs fetch.path := by
  rw [objectAt,Dictionaries.find_of_mem (runObjects_nodup run inputs) listed]
  rfl

/-! ### The tasks of a run -/

/-- The default directories, by the parameters that name them. -/
def filesDirs : List (String × String) :=
  [("user_data_dir","user-data"),("lookup_complex_config_json","analysis_settings.json"),
    ("analysis_settings_json","analysis_settings.json")]

def lossesDirs : List (String × String) :=
  [("oasis_files_dir","input-data"),("model_run_dir","run-data"),("user_data_dir","user-data"),
    ("analysis_settings_json","analysis_settings.json")]

/-- Where the parameters name a directory already, it is the default one. -/
def DefaultDirs (dir : String) (names : List (String × String)) (params : Params) : Prop :=
  ∀ entry ∈ names, ∀ path, params entry.1 = some (.string path) → path = joinPath dir entry.2

/-- A task leaves out files of the run, but has no others. -/
def Given {α : Type} (files given : Option α) : Prop := ∀ file, given = some file → files = some file

structure OfKeys (run : Run) (inputs : RunInputs) (kwargs : KeysKwargs) (params : Params) : Prop where
  locFile : Given inputs.keys.locFile kwargs.locFile
  accFile : Given inputs.keys.accFile kwargs.accFile
  infoFile : Given inputs.keys.infoFile kwargs.infoFile
  scopeFile : Given inputs.keys.scopeFile kwargs.scopeFile
  currencyConversionJson : Given inputs.keys.currencyConversionJson kwargs.currencyConversionJson
  analysisSettingsFile : Given inputs.keys.analysisSettingsFile kwargs.analysisSettingsFile
  complexDataFiles : kwargs.complexDataFiles ≠ [] → kwargs.complexDataFiles = inputs.keys.complexDataFiles
  preFile : ∀ argName, (params.get ("pre_" ++ argName)).truthy = true →
    params.get ("pre_" ++ argName) = inputs.preFile argName
  dirs : DefaultDirs run.filesDir filesDirs params

structure OfLosses (run : Run) (inputs : RunInputs) (kwargs : LossKwargs) (params : Params) : Prop where
  inputLocation : (withInputLocation kwargs params).inputLocation.truthy = true →
    (withInputLocation kwargs params).inputLocation = inputs.losses.inputLocation
  runLocation : (params.get "run_location").truthy = true → params.get "run_location" = inputs.runLocation
  analysisSettingsFile : Given inputs.losses.analysisSettingsFile kwargs.analysisSettingsFile
  complexDataFiles : kwargs.complexDataFiles ≠ [] → kwargs.complexDataFiles = inputs.losses.complexDataFiles
  dirs : DefaultDirs run.lossesDir lossesDirs params

def OfRun (run : Run) (inputs : RunInputs) : Task → Prop
  | .keys kwargs params => ∀ p ∈ params, OfKeys run inputs kwargs p
  | .losses kwargs params => ∀ p ∈ params, OfLosses run inputs kwargs p

theorem default_dir {params defaults : Params} {dir key name : String}
    (held : ∀ path, params key = some (.string path) → path = joinPath dir name)
    (set : defaults key = some ((params key).getD (.string (joinPath dir name)))) {path : String}
    (named : defaults.get key = .string path) : path = joinPath dir name := by
  rw [Params.get,set,Option.getD_some] at named
  cases before : params key with
  | none =>
    rw [before] at named
    exact (Json.string.inj named).symm
  | some value =>
    rw [before] at named
    exact held path (before.trans (congrArg some named))

/-- The directories of a stage, which are set by default after two that are not. -/
theorem directories_set (params : Params) (subdir root : Json) {defaults : List (String × Json)}
    (distinct : (defaults.map Prod.fst).Nodup) {dirs : List (String × String)} {dir : String}
    (listed : ∀ entry ∈ dirs, (entry.1,Json.string (joinPath dir entry.2)) ∈ defaults ∧ entry.1 ≠ "storage_subdir" ∧
      entry.1 ≠ "root_run_dir") :
    ∀ entry ∈ dirs, ((params.put "storage_subdir" subdir).put "root_run_dir" root).setdefaults defaults entry.1 =
      some ((params entry.1).getD (.string (joinPath dir entry.2))) := by
  intro entry member
  obtain ⟨default,apart,apart'⟩ := listed entry member
  rw [setdefaults_self _ distinct default,put_other _ _ apart',put_other _ _ apart]

theorem keysDirectories_set (run : Run) (params : Params) : ∀ entry ∈ filesDirs,
    keysDirectories run params entry.1 = some ((params entry.1).getD (.string (joinPath run.filesDir entry.2))) := by
  rw [keysDirectories_eq]
  refine directories_set params _ _ (by simp) fun entry listed => ?_
  simp only [filesDirs,List.mem_cons,List.not_mem_nil,or_false] at listed
  rcases listed with rfl | rfl | rfl <;> simp

/-- What holds of the parameters and the calls while they are prepared. -/
structure Progress (run : Run) (inputs : RunInputs) (prepared : Prepared) : Prop where
  listed : ∀ fetch, some fetch ∈ prepared.2 → (fetch.path,fetch.object) ∈ under run.filesDir (filesObjects inputs)
  dirs : ∀ entry ∈ filesDirs, ∀ path, prepared.1.get entry.1 = .string path → path = joinPath run.filesDir entry.2

variable {run : Run} {inputs : RunInputs}

theorem Progress.put {prepared : Prepared} (progress : Progress run inputs prepared) {key : String} {value : Json}
    (apart : (∀ path, value ≠ .string path) ∨ key ∉ filesDirs.map Prod.fst) :
    Progress run inputs (prepared.1.put key value,prepared.2) where
  listed := progress.listed
  dirs := by
    intro entry listed path named
    by_cases same : entry.1 = key
    · subst same
      have stored : (prepared.1.put entry.1 value).get entry.1 = value := by simp [Params.get,Params.put]
      rcases apart with other | absent
      · exact absurd (stored.symm.trans named) (other path)
      · exact absurd (List.mem_map_of_mem listed) absent
    · have kept : (prepared.1.put key value).get entry.1 = prepared.1.get entry.1 := by
        rw [Params.get,Params.get,put_other _ _ same]
      exact progress.dirs entry listed path (kept.symm.trans named)

theorem Progress.call {prepared : Prepared} (progress : Progress run inputs prepared) {calls : List Call}
    (listed : ∀ fetch, some fetch ∈ calls → (fetch.path,fetch.object) ∈ under run.filesDir (filesObjects inputs)) :
    Progress run inputs (prepared.1,prepared.2 ++ calls) where
  listed := fun fetch member => (List.mem_append.mp member).elim (progress.listed fetch) (listed fetch)
  dirs := progress.dirs

/-- A file of the server, or of the hook. -/
theorem getFileRef_cases {server : Option String} {params : Params} {argName source : String} {ref : Json}
    (read : getFileRef server params argName = some (ref,source)) :
    (∃ file, server = some file ∧ ref = .string file ∧ source = "raw_") ∨
      ((params.get ("pre_" ++ argName)).truthy = true ∧ ref = params.get ("pre_" ++ argName) ∧ source = "pre_") := by
  unfold getFileRef at read
  split at read
  · cases read
  · split at read
    · cases read
    · split at read
      · obtain ⟨rfl,rfl⟩ := Prod.mk.inj (Option.some.inj read)
        exact .inr ⟨‹_›,rfl,rfl⟩
      · obtain ⟨rfl,rfl⟩ := Prod.mk.inj (Option.some.inj read)
        exact .inl ⟨_,rfl,rfl,rfl⟩

theorem fetched_under {dir name : String} {objects : List (String × Object)} {object : Object}
    (listed : (name,object) ∈ objects) : (joinPath dir name,object) ∈ under dir objects :=
  List.mem_map.mpr ⟨_,listed,rfl⟩

theorem oedFile_progress {prepared : Prepared} (progress : Progress run inputs prepared) {server runServer : Option String}
    {params : Params} {argName : String} (key name : String) (given : Given runServer server)
    (hook : (params.get ("pre_" ++ argName)).truthy = true → params.get ("pre_" ++ argName) = inputs.preFile argName)
    (objects : ∀ entry ∈ oedObjects inputs argName name runServer, entry ∈ filesObjects inputs)
    (apart : key ∉ filesDirs.map Prod.fst) :
    Progress run inputs (oedFile run.filesDir (getFileRef server params argName) key name prepared) := by
  unfold oedFile
  split
  · exact progress
  · rename_i path source read
    refine (progress.put (.inr apart)).call fun fetch called => ?_
    obtain ⟨at_path,object⟩ := fetchTo_some (List.mem_singleton.mp called)
    rw [← Json.string.inj at_path,object]
    refine fetched_under (objects _ ?_)
    rcases getFileRef_cases read with ⟨file,served,same,rfl⟩ | ⟨hooked,same,rfl⟩
    · obtain rfl := Json.string.inj same
      rw [oedObjects,given _ served]
      exact List.mem_cons_self
    · rw [oedObjects,← hook hooked,← same]
      exact List.mem_cons_of_mem _ List.mem_cons_self
  · refine progress.call fun fetch called => ?_
    cases List.mem_singleton.mp called

theorem currencyFile_progress {prepared : Prepared} (progress : Progress run inputs prepared) {server : Option String}
    {params : Params} (reportingCurrency : Option String) (given : Given inputs.keys.currencyConversionJson server)
    (hook : (params.get ("pre_" ++ "currency_conversion_json")).truthy = true →
      params.get ("pre_" ++ "currency_conversion_json") = inputs.preFile "currency_conversion_json") :
    Progress run inputs (currencyFile run.filesDir (getFileRef server params "currency_conversion_json")
      reportingCurrency prepared) := by
  unfold currencyFile
  split
  · exact progress
  · rename_i ref source read
    split
    · exact progress
    · refine ((progress.put (.inr (by decide))).put (.inr (by decide))).call fun fetch called => ?_
      obtain ⟨at_path,object⟩ := fetchTo_some (List.mem_singleton.mp called)
      rw [← Json.string.inj at_path,object]
      rcases getFileRef_cases read with ⟨file,served,rfl,rfl⟩ | ⟨hooked,rfl,rfl⟩
      · refine fetched_under (List.mem_append_right _ ?_)
        rw [given file served]
        exact List.mem_cons_self
      · refine fetched_under (List.mem_append_right _ ?_)
        rw [hook hooked]
        exact List.mem_cons_of_mem _ List.mem_cons_self

theorem settingsFiles_progress {prepared : Prepared} (progress : Progress run inputs prepared)
    {settingsFile : Option String} (given : Given inputs.keys.analysisSettingsFile settingsFile) (lookupFirst : Bool) :
    Progress run inputs (settingsFiles lookupFirst settingsFile prepared) := by
  have unset : Progress run inputs
      ((prepared.1.put "lookup_complex_config_json" .null).put "analysis_settings_json" .null,prepared.2) :=
    (progress.put (.inl fun _ => Json.noConfusion)).put (.inl fun _ => Json.noConfusion)
  unfold settingsFiles
  split
  · exact unset
  · rename_i file
    split
    · exact unset
    · refine progress.call fun fetch called => ?_
      obtain ⟨path,listed,call⟩ := List.mem_map.mp called
      obtain ⟨rfl,object⟩ := fetchTo_some call.symm
      have at_path : fetch.path = joinPath run.filesDir "analysis_settings.json" := by
        have either : Json.string fetch.path = prepared.1.get "analysis_settings_json" ∨
            Json.string fetch.path = prepared.1.get "lookup_complex_config_json" := by
          have member := (List.mem_filter.mp listed).1
          split at member
          · exact .inl (List.mem_singleton.mp member)
          · split at member
            · exact (List.mem_pair.mp member).symm
            · exact List.mem_pair.mp member
        rcases either with analysis | lookup
        · exact progress.dirs ("analysis_settings_json","analysis_settings.json") (by simp [filesDirs]) _ analysis.symm
        · exact progress.dirs ("lookup_complex_config_json","analysis_settings.json") (by simp [filesDirs]) _ lookup.symm
      rw [at_path,object]
      refine fetched_under (List.mem_append_right _ ?_)
      rw [given file rfl]
      exact List.mem_cons_of_mem _ (List.mem_cons_of_mem _ List.mem_cons_self)

theorem userData_progress {prepared : Prepared} (progress : Progress run inputs prepared) {files : List ComplexFile}
    (given : files ≠ [] → files = inputs.keys.complexDataFiles) : Progress run inputs (userData files prepared) := by
  unfold userData
  split
  · exact progress.put (.inl fun _ => Json.noConfusion)
  · rename_i some
    refine progress.call fun fetch called => ?_
    obtain ⟨named,object⟩ := fetchTo_some (List.mem_singleton.mp called)
    rw [progress.dirs ("user_data_dir","user-data") (by simp [filesDirs]) _ named,object]
    refine fetched_under (List.mem_append_right _ ?_)
    rw [given (by simpa using some)]
    exact List.mem_cons_of_mem _ (List.mem_cons_of_mem _ (List.mem_cons_of_mem _ List.mem_cons_self))

theorem keys_progress {kwargs : KeysKwargs} {params : Params} (ofKeys : OfKeys run inputs kwargs params) :
    Progress run inputs (keysPrepareDirectories run kwargs params) := by
  have start : Progress run inputs (keysDirectories run params,[]) :=
    ⟨fun _ none => absurd none List.not_mem_nil,fun entry listed _ named =>
      default_dir (ofKeys.dirs entry listed) (keysDirectories_set run params entry listed) named⟩
  have hook (argName : String) (apart : "pre_" ++ argName ∉ ["storage_subdir","root_run_dir","target_dir","user_data_dir",
      "lookup_complex_config_json","analysis_settings_json"]) (hooked :
      ((keysDirectories run params).get ("pre_" ++ argName)).truthy = true) :
      (keysDirectories run params).get ("pre_" ++ argName) = inputs.preFile argName := by
    rw [Params.get,keysDirectories_other run params apart] at hooked ⊢
    exact ofKeys.preFile argName hooked
  have loc := oedFile_progress start "oed_location_csv" "location" ofKeys.locFile (hook "loc_file" (by decide))
    (fun entry member => by simp only [filesObjects,List.mem_append,member,true_or,or_true]) (by decide)
  have acc := oedFile_progress loc "oed_accounts_csv" "account" ofKeys.accFile (hook "acc_file" (by decide))
    (fun entry member => by simp only [filesObjects,List.mem_append,member,true_or,or_true]) (by decide)
  have info := oedFile_progress acc "oed_info_csv" "reinsinfo" ofKeys.infoFile (hook "info_file" (by decide))
    (fun entry member => by simp only [filesObjects,List.mem_append,member,true_or,or_true]) (by decide)
  have scope := oedFile_progress info "oed_scope_csv" "reinsscope" ofKeys.scopeFile (hook "scope_file" (by decide))
    (fun entry member => by simp only [filesObjects,List.mem_append,member,true_or,or_true]) (by decide)
  have currency := currencyFile_progress scope kwargs.reportingCurrency ofKeys.currencyConversionJson
    (hook "currency_conversion_json" (by decide))
  exact userData_progress (settingsFiles_progress currency ofKeys.analysisSettingsFile run.lookupFirst)
    ofKeys.complexDataFiles

theorem lossDirectories_set (run : Run) (params : Params) : ∀ entry ∈ lossesDirs,
    lossDirectories run params entry.1 = some ((params entry.1).getD (.string (joinPath run.lossesDir entry.2))) := by
  rw [lossDirectories_eq]
  refine directories_set params _ _ (by simp) fun entry listed => ?_
  simp only [lossesDirs,List.mem_cons,List.not_mem_nil,or_false] at listed
  rcases listed with rfl | rfl | rfl | rfl <;> simp

theorem lossCalls_listed {kwargs : LossKwargs} {params : Params} (ofLosses : OfLosses run inputs kwargs params)
    {fetch : Fetch String Object}
    (called : some fetch ∈ lossCalls run (withInputLocation kwargs params) (lossDirectories run params)) :
    (fetch.path,fetch.object) ∈ under run.lossesDir (lossesObjects run inputs) := by
  have dir (key name : String) (default : (key,name) ∈ lossesDirs)
      (named : (lossDirectories run params).get key = .string fetch.path) : fetch.path = joinPath run.lossesDir name :=
    default_dir (ofLosses.dirs (key,name) default) (lossDirectories_set run params (key,name) default) named
  have same : (lossDirectories run params).get "run_location" = params.get "run_location" := by
    rw [Params.get,lossDirectories_other run params (by decide),Params.get]
  have kept : (withInputLocation kwargs params).complexDataFiles = kwargs.complexDataFiles ∧
      (withInputLocation kwargs params).analysisSettingsFile = kwargs.analysisSettingsFile := by
    unfold withInputLocation
    split <;> exact ⟨rfl,rfl⟩
  rw [lossCalls,kept.1,kept.2,same] at called
  simp only [List.mem_append,or_assoc] at called
  rcases called with inputsCall | runCall | dataCall | settingsCall
  · split at inputsCall
    · obtain ⟨named,object⟩ := fetchTo_some (List.mem_singleton.mp inputsCall)
      rw [dir "oasis_files_dir" "input-data" (by simp [lossesDirs]) named,object,ofLosses.inputLocation ‹_›]
      exact fetched_under List.mem_cons_self
    · cases inputsCall
  · split at runCall
    · obtain ⟨named,object⟩ := fetchTo_some (List.mem_singleton.mp runCall)
      rw [dir "model_run_dir" "run-data" (by simp [lossesDirs]) named,object,ofLosses.runLocation ‹_›]
      exact fetched_under (List.mem_cons_of_mem _ List.mem_cons_self)
    · cases runCall
  · split at dataCall
    · cases dataCall
    · rename_i some
      obtain ⟨named,object⟩ := fetchTo_some (List.mem_singleton.mp dataCall)
      rw [dir "user_data_dir" "user-data" (by simp [lossesDirs]) named,object,
        ofLosses.complexDataFiles (by simpa using some)]
      exact fetched_under (List.mem_cons_of_mem _ (List.mem_cons_of_mem _ List.mem_cons_self))
  · split at settingsCall
    · cases settingsCall
    · rename_i file served
      split at settingsCall
      · cases settingsCall
      · obtain ⟨named,object⟩ := fetchTo_some (List.mem_singleton.mp settingsCall)
        rw [dir "analysis_settings_json" "analysis_settings.json" (by simp [lossesDirs]) named,object]
        refine fetched_under (List.mem_cons_of_mem _ (List.mem_cons_of_mem _ (List.mem_cons_of_mem _ ?_)))
        rw [ofLosses.analysisSettingsFile file served]
        exact List.mem_cons_self

/-- The location of one element of a list is used for those after it that have none. -/
theorem OfLosses.later {kwargs : LossKwargs} {params other : Params} (first : OfLosses run inputs kwargs params)
    (ofLosses : OfLosses run inputs kwargs other) : OfLosses run inputs (withInputLocation kwargs params) other := by
  have location : (withInputLocation (withInputLocation kwargs params) other).inputLocation.truthy = true →
      (withInputLocation (withInputLocation kwargs params) other).inputLocation = inputs.losses.inputLocation := by
    by_cases own : (other.get inputLocationKey).truthy = true
    · have same : (withInputLocation (withInputLocation kwargs params) other).inputLocation =
          (withInputLocation kwargs other).inputLocation := by simp [withInputLocation,own]
      rw [same]
      exact ofLosses.inputLocation
    · have same : (withInputLocation (withInputLocation kwargs params) other).inputLocation =
          (withInputLocation kwargs params).inputLocation := by
        rw [withInputLocation,if_neg own]
      rw [same]
      exact first.inputLocation
  refine ⟨location,ofLosses.runLocation,?_,?_,ofLosses.dirs⟩
  · unfold withInputLocation
    split <;> exact ofLosses.analysisSettingsFile
  · unfold withInputLocation
    split <;> exact ofLosses.complexDataFiles

theorem lossesCalls_listed {params : List Params} {kwargs : LossKwargs}
    (ofLosses : ∀ p ∈ params, OfLosses run inputs kwargs p)
    {fetch : Fetch String Object} (called : some fetch ∈ lossesCalls run kwargs params) :
    (fetch.path,fetch.object) ∈ under run.lossesDir (lossesObjects run inputs) := by
  induction params generalizing kwargs with
  | nil => cases called
  | cons first rest ih =>
    have head := ofLosses first List.mem_cons_self
    rw [lossesCalls_cons,withInputLocation_directories] at called
    rcases List.mem_append.mp called with own | later
    · exact lossCalls_listed head own
    · exact ih (fun p member => head.later (ofLosses p (List.mem_cons_of_mem _ member))) later

/-- The tasks of a run agree on the object at each of its paths. -/
theorem run_agrees {task : Task} (ofRun : OfRun run inputs task) :
    ∀ fetch ∈ (run.plan task).fetches, fetch.object = objectAt run inputs fetch.path := by
  intro fetch listed
  have called : some fetch ∈ run.calls task := mem_planOf listed
  refine objectAt_eq ?_
  cases task with
  | keys kwargs params =>
    obtain ⟨p,member,called⟩ := List.mem_flatMap.mp called
    exact List.mem_append_left _ ((keys_progress (ofRun p member)).listed fetch called)
  | losses kwargs params => exact List.mem_append_right _ (lossesCalls_listed ofRun called)

end OasisPlatform.RunPaths
