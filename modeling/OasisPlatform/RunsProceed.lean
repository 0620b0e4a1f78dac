import OasisPlatform.RunParameters

/-!
The tasks of a canvas one after the other. What each of them requires of the parameters that
it is given, the task before it returns, so that none of them finds a key missing or a value
of the wrong kind, and each canvas runs to its end (`tasks_proceed`).
-/
namespace OasisPlatform.RunsProceed
open OasisPlatform.Canvas OasisPlatform.JsonValues OasisPlatform.PrepareDirectories OasisPlatform.StageChains
open OasisPlatform.SubTaskIds OasisPlatform.InputParameters OasisPlatform.RunParameters
open OasisPlatform.LossInputs (Reference Written stored ofOne pathsToAbsolutePaths)
set_option linter.unusedSimpArgs false

variable {files : KeysKwargs} {losses : LossKwargs} {lookupChunks : Nat} {attempt : InputAttempt} {params : Params}

/-- A task with these parameters does not raise: neither in the directories that it prepares
    nor in what it reads. -/
structure Proceeds (files : KeysKwargs) (losses : LossKwargs) (lookupChunks : Nat) (signature : TaskSignature)
    (given : List Params) : Prop where
  fetches : ∀ (node : Run) (task : Task), taskOf files losses signature given = some task →
    (node.plan task).raises = false
  returns : ∀ attempt, Works attempt → (perform files lookupChunks attempt signature given).isSome

def Returns (files : KeysKwargs) (lookupChunks : Nat) (signature : TaskSignature) (given : List Params) (result : Params) :
    Prop :=
  ∃ attempt, Works attempt ∧ perform files lookupChunks attempt signature given = some result

/-- An assertion about the parts of a canvas. -/
abbrev Holds (files : KeysKwargs) (losses : LossKwargs) (lookupChunks : Nat) :=
  Triple (Returns files lookupChunks) (Proceeds files losses lookupChunks)

/-- What a task does with what it is given. -/
structure Does (files : KeysKwargs) (losses : LossKwargs) (lookupChunks : Nat) (signature : TaskSignature)
    (given : List Params) (good : Params → Prop) : Prop where
  fetches : ∀ (node : Run) (task : Task), taskOf files losses signature given = some task →
    (node.plan task).raises = false
  performs : ∀ attempt, Works attempt →
    ∃ result, perform files lookupChunks attempt signature given = some result ∧ good result

variable {signature : TaskSignature} {given : List Params} {good : Params → Prop}

theorem Does.proceeds (does : Does files losses lookupChunks signature given good) :
    Proceeds files losses lookupChunks signature given where
  fetches := does.fetches
  returns := by
    intro attempt works
    obtain ⟨result,performed,-⟩ := does.performs attempt works
    rw [performed]
    rfl

theorem Does.result (does : Does files losses lookupChunks signature given good) {result : Params}
    (returned : Returns files lookupChunks signature given result) : good result := by
  obtain ⟨attempt,works,returned⟩ := returned
  obtain ⟨other,performed,holds⟩ := does.performs attempt works
  obtain rfl := Option.some.inj (performed.symm.trans returned)
  exact holds

/-- One dictionary. -/
def One (good : Params → Prop) (given : List Params) : Prop := ∃ params, given = [params] ∧ good params

/-- As many dictionaries as there are chunks. -/
def Each (numChunks : Nat) (good : Params → Prop) (given : List Params) : Prop :=
  given.length = numChunks ∧ ∀ params ∈ given, good params

theorem task_holds {before : List Params → Prop}
    (does : ∀ given, before given → Does files losses lookupChunks signature given good) :
    Holds files losses lookupChunks before [.task signature] (One good) :=
  .task (fun given holds => (does given holds).proceeds)
    fun given holds result returned => ⟨result,rfl,(does given holds).result returned⟩

theorem header_holds {before : List Params → Prop} {works : List TaskSignature}
    (does : ∀ work ∈ works, ∀ given, before given → Does files losses lookupChunks work given good) :
    Holds files losses lookupChunks before [.header works] (Each works.length good) := by
  refine .header (fun work listed given holds => (does work listed given holds).proceeds) fun given holds results run => ?_
  refine ⟨run.length_eq.symm,forall₂_good (fun work listed result returned => ?_) run⟩
  exact (does work listed given holds).result returned

/-- The signatures of a header. -/
theorem chunk_signatures (taskName statusName statusSlug queue : String) (numChunks : Nat) :
    let works := (((chunkParams numChunks).zipIdx.map fun param => getSubtaskStatusesAndSignature taskName
      s!"{statusName} {param.2}" s!"{statusSlug}-{param.2}" queue param.1).map Prod.snd).map Prod.fst
    works.length = numChunks ∧
      ∀ work ∈ works, ∃ slug, ∃ chunkIdx < numChunks, work = ⟨taskName,slug,queue,[chunkIdx,numChunks]⟩ := by
  dsimp only
  refine ⟨by simp [chunkParams],fun work listed => ?_⟩
  simp only [List.map_map,List.mem_map,Function.comp_apply] at listed
  obtain ⟨⟨args,idx⟩,listed,rfl⟩ := listed
  have member : args ∈ chunkParams numChunks := by
    have value := List.mem_zipIdx listed
    simp only [value.2.2]
    exact List.getElem_mem _
  obtain ⟨chunkIdx,inside,rfl⟩ := List.mem_map.mp member
  exact ⟨_,chunkIdx,List.mem_range.mp inside,rfl⟩

/-- The tasks of the worker up to `write_input_files`. -/
def inputTasks : List String :=
  ["prepare_input_generation_params","pre_analysis_hook","prepare_keys_file_chunk","collect_keys","write_input_files"]

theorem taskKwargs_files {task : String} (listed : task ∈ inputTasks) :
    (taskKwargs files task).complexDataFiles = files.complexDataFiles := by
  simp only [inputTasks,List.mem_cons,List.not_mem_nil,or_false] at listed
  rcases listed with rfl | rfl | rfl | rfl | rfl <;> rfl

variable {task slug queue : String} {args : List Nat}

theorem input_fetches (listed : task ∈ inputTasks) (readable : ∀ p ∈ given, Readable files p) :
    ∀ (node : Run) (fetched : Task), taskOf files losses ⟨task,slug,queue,args⟩ given = some fetched →
      (node.plan fetched).raises = false := by
  intro node fetched of
  have recorded : ∀ task ∈ inputTasks, task ∉ ["record_input_files","record_losses_files"] := by decide
  have other : ∀ task ∈ inputTasks, task ∉ LossInputs.lossTasks := by decide
  rw [taskOf,if_neg (recorded _ listed),if_neg (other _ listed)] at of
  obtain rfl := Option.some.inj of
  exact keys_plan_raises node (taskKwargs_files listed) readable

/-- The directories are prepared, and then the task is done. -/
theorem inputTask_does (listed : task ∈ inputTasks) (readable : ∀ p ∈ given, Readable files p)
    (performs : ∀ attempt, Works attempt →
      prepareEach attempt.node (taskKwargs files task) given =
        some (given.map fun params => (keysPrepareDirectories attempt.node (taskKwargs files task) params).1) →
      (∀ p ∈ given, Usable files (keysPrepareDirectories attempt.node (taskKwargs files task) p).1) →
      ∃ result, inputTask files lookupChunks attempt ⟨task,slug,queue,args⟩ given = some result ∧ good result) :
    Does files losses lookupChunks ⟨task,slug,queue,args⟩ given good where
  fetches := input_fetches listed readable
  performs := by
    intro attempt works
    obtain ⟨prepared,usable⟩ := prepareEach_ready attempt.node (taskKwargs_files listed) readable
    obtain ⟨result,done,holds⟩ := performs attempt works prepared usable
    refine ⟨result,?_,holds⟩
    simp only [inputTasks,List.mem_cons,List.not_mem_nil,or_false] at listed
    rcases listed with rfl | rfl | rfl | rfl | rfl <;> exact done

theorem Logged.directories (logged : Logged params) (node : Run) (kwargs : KeysKwargs) :
    Logged (keysPrepareDirectories node kwargs params).1 := by
  obtain ⟨logs,storage⟩ := logged
  exact ⟨logs,(keysPrepareDirectories_other node kwargs params (by decide)).trans storage⟩

/-- What the hook is given. -/
structure Prepared (files : KeysKwargs) (params : Params) : Prop where
  readable : Readable files params
  logged : Logged params
  unsplit : params "sar_chunks" = none

theorem prepareParams_does (slug queue : String) (readable : Readable files params) :
    Does files losses lookupChunks ⟨"prepare_input_generation_params",slug,queue,[]⟩ [params] (Prepared files) := by
  refine inputTask_does (by decide) (by simpa using readable) fun attempt works prepared usable => ?_
  obtain ⟨result,done,readable,logged,unsplit⟩ := prepareInputGenerationParams_safe works slug (usable params (by simp))
  exact ⟨result,by rw [inputTask,prepared]; exact done,readable,logged,unsplit⟩

/-- What a chunk of the keys is given. -/
structure Hooked (files : KeysKwargs) (numChunks : Nat) (params : Params) : Prop where
  readable : Readable files params
  logged : Logged params
  chunks : SarChunks numChunks params

theorem hook_does (slug queue : String) (given : Prepared files params) :
    Does files losses lookupChunks ⟨"pre_analysis_hook",slug,queue,[]⟩ [params] (Hooked files lookupChunks) := by
  refine inputTask_does (by decide) (by simpa using given.readable) fun attempt works prepared usable => ?_
  generalize kwargs : taskKwargs files _ = hookKwargs at prepared usable
  have unsplit : Unsplit files (keysPrepareDirectories attempt.node hookKwargs params).1 :=
    ⟨usable params (by simp),Logged.directories given.logged _ _,
      (keysPrepareDirectories_other _ _ _ (by decide)).trans given.unsplit⟩
  obtain ⟨result,done,readable,logged,chunks⟩ := preAnalysisHook_safe works slug lookupChunks unsplit
  exact ⟨result,by rw [inputTask,kwargs,prepared]; exact done,readable,logged,chunks⟩

/-- What the keys are collected from. -/
structure Keyed (files : KeysKwargs) (params : Params) : Prop where
  readable : Readable files params
  logged : Logged params
  keys : Text (params "chunk_keys")

theorem keysChunk_does (slug queue : String) {chunkIdx : Nat} (one : chunkIdx < lookupChunks)
    (given : Hooked files lookupChunks params) :
    Does files losses lookupChunks ⟨"prepare_keys_file_chunk",slug,queue,[chunkIdx,lookupChunks]⟩ [params]
      (Keyed files) := by
  refine inputTask_does (by decide) (by simpa using given.readable) fun attempt works prepared usable => ?_
  generalize kwargs : taskKwargs files _ = chunkKwargs at prepared usable
  have chunks : SarChunks lookupChunks (keysPrepareDirectories attempt.node chunkKwargs params).1 := by
    rw [SarChunks,keysPrepareDirectories_other _ _ _ (by decide)]
    exact given.chunks
  have split : Split files lookupChunks (keysPrepareDirectories attempt.node chunkKwargs params).1 :=
    ⟨usable params (by simp),Logged.directories given.logged _ _,chunks⟩
  obtain ⟨result,done,readable,logged,keys⟩ := prepareKeysFileChunk_safe works slug split one
  exact ⟨result,by rw [inputTask,kwargs,prepared]; exact done,readable,logged,keys⟩

/-- What the inputs are written from. -/
structure Collected (files : KeysKwargs) (params : Params) : Prop where
  readable : Readable files params
  logged : Logged params
  keys : (params "keys_data").isSome

theorem collect_does (slug queue : String) (some : 0 < lookupChunks) (each : Each lookupChunks (Keyed files) given) :
    Does files losses lookupChunks ⟨"collect_keys",slug,queue,[]⟩ given (Collected files) := by
  refine inputTask_does (by decide) (fun p listed => (each.2 p listed).readable) fun attempt works prepared usable => ?_
  generalize kwargs : taskKwargs files _ = collectKwargs at prepared usable
  have chunks : ∀ p ∈ given.map fun params => (keysPrepareDirectories attempt.node collectKwargs params).1, Chunk files p := by
    intro p listed
    obtain ⟨original,member,rfl⟩ := List.mem_map.mp listed
    have keyed := each.2 original member
    refine ⟨usable original member,Logged.directories keyed.logged _ _,?_⟩
    rw [keysPrepareDirectories_other _ _ _ (by decide)]
    exact keyed.keys
  have nonempty : (given.map fun params => (keysPrepareDirectories attempt.node collectKwargs params).1) ≠ [] := by
    intro none
    have length := each.1
    rw [List.map_eq_nil_iff.mp none] at length
    exact absurd length (Nat.ne_of_lt some)
  obtain ⟨result,done,readable,logged,keys⟩ := collectKeys_safe works slug nonempty chunks
  exact ⟨result,by rw [inputTask,kwargs,prepared]; exact done,readable,logged,keys⟩

/-- The dictionary of `write_input_files`, of an archive that is stored. -/
def IsWritten (params : Params) : Prop :=
  ∃ written : Written, params = LossInputs.writeInputFiles written ∧ written.outputLocation.isSome

theorem write_does (slug queue : String) (given : Collected files params) :
    Does files losses lookupChunks ⟨"write_input_files",slug,queue,[]⟩ [params] IsWritten := by
  refine inputTask_does (by decide) (by simpa using given.readable) fun attempt works prepared usable => ?_
  generalize kwargs : taskKwargs files _ = writeKwargs at prepared usable
  have keys : ((keysPrepareDirectories attempt.node writeKwargs params).1 "keys_data").isSome := by
    rw [keysPrepareDirectories_other _ _ _ (by decide)]
    exact given.keys
  have done := writeInputFiles_safe attempt slug (usable params (by simp)) (Logged.directories given.logged _ _) keys
  exact ⟨_,by rw [inputTask,kwargs,prepared]; exact done,writtenBy attempt,rfl,works.outputLocation⟩

theorem record_does (slug queue : String) (written : IsWritten params) :
    Does files losses lookupChunks ⟨"record_input_files",slug,queue,[]⟩ [params] IsWritten where
  fetches := by
    intro node fetched of
    rw [taskOf,if_pos List.mem_cons_self] at of
    cases of
  performs := by
    intro attempt works
    refine ⟨params,?_,written⟩
    obtain ⟨written,rfl,there⟩ := written
    obtain ⟨reference,output⟩ := Option.isSome_iff_exists.mp there
    have location : (LossInputs.writeInputFiles written).get "output_location" = reference.json := by
      change stored written.outputLocation = _
      rw [output]
      rfl
    change LossInputs.recordInputFiles _ (LossInputs.writeInputFiles written) = _
    rw [LossInputs.recordInputFiles,location]
    exact if_pos works.stores

/-- What a task of the loss generation can be given. -/
def Directed (params : Params) : Prop := ∀ key ∈ lossPaths, Path (params key) ∧ params key ≠ some .null

theorem Directed.put_own (directed : Directed params) {key : String} (own : key ∉ lossPaths) (value : Json) :
    Directed (params.put key value) := by
  intro other listed
  have apart : other ≠ key := by
    rintro rfl
    exact own listed
  rw [put_other _ _ apart]
  exact directed other listed

theorem Directed.texts (directed : Directed params) (node : Run) :
    ∀ key ∈ lossPaths, Text (lossDirectories node params key) := by
  intro key listed
  obtain ⟨path,set⟩ := directed key listed
  have names : ∀ key ∈ lossPaths, ∃ name, (key,name) ∈ RunPaths.lossesDirs := by
    simp [lossPaths,RunPaths.lossesDirs]
  obtain ⟨name,default⟩ := names key listed
  have default := RunPaths.lossDirectories_set node params (key,name) default
  dsimp only at default
  rw [default]
  generalize params key = value at path set ⊢
  cases path with
  | absent => exact ⟨_,rfl⟩
  | null => exact absurd rfl set
  | text text => exact ⟨text,rfl⟩

theorem directed_of_texts (texts : ∀ key ∈ lossPaths, Text (params key)) : Directed params := by
  intro key listed
  obtain ⟨text,same⟩ := texts key listed
  rw [same]
  exact ⟨.text text,nofun⟩

theorem Directed.directories (directed : Directed params) (node : Run) : Directed (lossDirectories node params) :=
  directed_of_texts (directed.texts node)

theorem fetchTo_text {value : Option Json} (text : Text value) (object : Object) (unlinks : Bool) :
    none ≠ fetchTo (value.getD .null) object unlinks := by
  obtain ⟨text,rfl⟩ := text
  exact nofun

theorem lossCalls_safe (node : Run) (kwargs : LossKwargs) (texts : ∀ key ∈ lossPaths, Text (params key)) :
    none ∉ lossCalls node kwargs params := by
  have fetched (key : String) (listed : key ∈ lossPaths) (object : Object) (unlinks : Bool) :
      none ∉ [fetchTo (params.get key) object unlinks] := by
    rw [List.mem_singleton]
    exact fetchTo_text (texts key listed) object unlinks
  rw [lossCalls]
  simp only [List.mem_append,not_or]
  refine ⟨⟨⟨?_,?_⟩,?_⟩,?_⟩
  · split
    · exact fetched "oasis_files_dir" (by decide) _ _
    · exact List.not_mem_nil
  · split
    · exact fetched "model_run_dir" (by decide) _ _
    · exact List.not_mem_nil
  · split
    · exact List.not_mem_nil
    · exact fetched "user_data_dir" (by decide) _ _
  · split
    · exact List.not_mem_nil
    · split
      · exact List.not_mem_nil
      · exact fetched "analysis_settings_json" (by decide) _ _

theorem lossesCalls_safe (node : Run) (kwargs : LossKwargs) (directed : ∀ p ∈ given, Directed p) :
    none ∉ lossesCalls node kwargs given := by
  induction given generalizing kwargs with
  | nil => exact List.not_mem_nil
  | cons first rest ih =>
    rw [lossesCalls_cons]
    refine fun raised => (List.mem_append.mp raised).elim ?_ ?_
    · exact lossCalls_safe node _ ((directed first List.mem_cons_self).texts node)
    · exact ih _ fun p listed => directed p (List.mem_cons_of_mem _ listed)

/-- The tasks of the worker in the loss generation. -/
def workerTasks : List String :=
  ["prepare_losses_generation_params","prepare_losses_generation_directory","generate_losses_chunk",
    "generate_losses_output","cleanup_losses_generation"]

theorem loss_fetches (listed : task ∈ workerTasks) (directed : ∀ p ∈ given, Directed p) :
    ∀ (node : Run) (fetched : Task), taskOf files losses ⟨task,slug,queue,args⟩ given = some fetched →
      (node.plan fetched).raises = false := by
  intro node fetched of
  have recorded : ∀ task ∈ workerTasks, task ∉ ["record_input_files","record_losses_files"] := by decide
  have loss : ∀ task ∈ workerTasks, task ∈ LossInputs.lossTasks := by decide
  rw [taskOf,if_neg (recorded _ listed),if_pos (loss _ listed)] at of
  obtain rfl := Option.some.inj of
  exact planOf_raises (lossesCalls_safe node losses directed)

theorem cleanup_does (slug queue : String) (written : IsWritten params) :
    Does files losses lookupChunks ⟨"cleanup_input_generation",slug,queue,[]⟩ [params] Directed where
  fetches := by
    intro node fetched of
    obtain ⟨written,rfl,-⟩ := written
    rw [taskOf,if_neg (by simp),if_neg (by simp [LossInputs.lossTasks])] at of
    obtain rfl := Option.some.inj of
    have absent : ∀ key ∈ inputPaths, LossInputs.writeInputFiles written key = none := by
      intro key listed
      simp only [inputPaths,List.mem_cons,List.not_mem_nil,or_false] at listed
      rcases listed with rfl | rfl | rfl | rfl | rfl | rfl | rfl | rfl | rfl | rfl | rfl | rfl <;> rfl
    have readable : Readable {} (LossInputs.writeInputFiles written) :=
      ⟨fun key listed => absent key listed ▸ .absent,absent "target_dir" (by decide) ▸ absent_set,
        fun some => absurd rfl some⟩
    exact keys_plan_raises node rfl fun p listed => List.mem_singleton.mp listed ▸ readable
  performs := by
    intro attempt _
    refine ⟨_,rfl,fun key listed => ?_⟩
    have apart : inputLocationKey ∉ lossPaths := by decide
    have absent : LossInputs.cleanupInputGeneration (keysPrepareDirectories attempt.node
        (taskKwargs files "cleanup_input_generation") params).1 key = none :=
      put_other _ _ fun same => apart (same ▸ listed)
    exact absent ▸ ⟨.absent,absent_set⟩

theorem prepareLossesGenerationParams_directed (works : Works attempt) (directed : Directed params) :
    Directed (LossInputs.prepareLossesGenerationParams
      { attempt.toAttempt with config := configStripDefaultExposure attempt.config } params) := by
  have merged : ∀ key ∈ lossPaths, Path (LossInputs.merge (configStripDefaultExposure attempt.config) params key) :=
    fun key listed => merge_path (directed key listed).1 (strip_path (works.config key (List.mem_append_right _ listed)))
  have generated := works.lossesPaths _ merged
  unfold LossInputs.prepareLossesGenerationParams
  dsimp only
  generalize LossInputs.merge (configStripDefaultExposure attempt.config) params = runParams at generated
  generalize attempt.paramsGenerateOasisLosses runParams = genLossesParams at generated
  have absolute : Directed (pathsToAbsolutePaths attempt.absolutePath genLossesParams) :=
    fun key listed => absolute_path _ (generated key listed)
  generalize (if (genLossesParams.get "oed_schema_info").truthy then genLossesParams.get "oed_schema_info"
    else attempt.environSchemaInfo) = schema
  have kept : Directed ((((pathsToAbsolutePaths attempt.absolutePath genLossesParams).put "oed_schema_info" schema).put
      "log_location" (stored attempt.logLocation)).put "verbose" (.bool attempt.debugWorker)) :=
    ((absolute.put_own (by decide) _).put_own (by decide) _).put_own (by decide) _
  split
  · exact kept.put_own (by decide) _
  · exact kept

/-- The directories are prepared for the loss generation. -/
theorem worker_does (listed : task ∈ workerTasks) (directed : ∀ p ∈ given, Directed p)
    (performs : ∀ attempt, Works attempt →
      ∃ result, perform files lookupChunks attempt ⟨task,slug,queue,args⟩ given = some result ∧ good result) :
    Does files losses lookupChunks ⟨task,slug,queue,args⟩ given good where
  fetches := loss_fetches listed directed
  performs := performs

theorem prepareLosses_does (slug queue : String) (directed : Directed params) :
    Does files losses lookupChunks ⟨"prepare_losses_generation_params",slug,queue,[]⟩ [params] Directed :=
  worker_does (by decide) (by simpa using directed) fun attempt works =>
    ⟨_,rfl,prepareLossesGenerationParams_directed works (directed.directories attempt.node)⟩

theorem directory_does (slug queue : String) (directed : Directed params) :
    Does files losses lookupChunks ⟨"prepare_losses_generation_directory",slug,queue,[]⟩ [params] Directed := by
  refine worker_does (by decide) (by simpa using directed) fun attempt _ => ⟨_,rfl,?_⟩
  have prepared := directed.directories attempt.node
  exact (((prepared.put_own (by decide) _).put_own (by decide) _).put_own (by decide) _).put_own (by decide) _

/-- What the losses are collected from. -/
structure Lost (params : Params) : Prop where
  directed : Directed params
  work : (params "chunk_work_location").isSome
  log : (params "chunk_log_location").isSome

theorem lossesChunk_does (slug queue : String) (chunkIdx numChunks : Nat) (directed : Directed params) :
    Does files losses lookupChunks ⟨"generate_losses_chunk",slug,queue,[chunkIdx,numChunks]⟩ [params] Lost := by
  refine worker_does (by decide) (by simpa using directed) fun attempt _ => ?_
  obtain ⟨modelRunDir,named⟩ := directed.texts attempt.node "model_run_dir" (by decide)
  have prepared := directed.directories attempt.node
  have read : (lossDirectories attempt.node params).get "model_run_dir" = .string modelRunDir := by
    rw [Params.get,named,Option.getD_some]
  have done : ∃ result, LossInputs.generateLossesChunk { attempt.toAttempt with
      config := configStripDefaultExposure attempt.config } (lossDirectories attempt.node params) chunkIdx numChunks =
        some result ∧ Lost result := by
    rw [LossInputs.generateLossesChunk,read]
    refine ⟨_,rfl,?_,rfl,rfl⟩
    exact (((((prepared.put_own (by decide) _).put_own (by decide) _).put_own (by decide) _).put_own (by decide) _).put_own
      (by decide) _).put_own (by decide) _
  exact done

/-- What is recorded of the losses. -/
structure Output (params : Params) : Prop where
  directed : Directed params
  location : (params "output_location").isSome

theorem output_does (slug queue : String) {numChunks : Nat} (some : 0 < numChunks) (each : Each numChunks Lost given) :
    Does files losses lookupChunks ⟨"generate_losses_output",slug,queue,[]⟩ given Output := by
  refine worker_does (by decide) (fun p listed => (each.2 p listed).directed) fun attempt _ => ?_
  have lost : ∀ p ∈ given.map (lossDirectories attempt.node), Lost p := by
    intro p listed
    obtain ⟨original,member,rfl⟩ := List.mem_map.mp listed
    have chunk := each.2 original member
    refine ⟨chunk.directed.directories _,?_,?_⟩
    · rw [lossDirectories_other _ _ (by decide)]
      exact chunk.work
    · rw [lossDirectories_other _ _ (by decide)]
      exact chunk.log
  have nonempty : given.map (lossDirectories attempt.node) ≠ [] := by
    intro none
    have length := each.1
    rw [List.map_eq_nil_iff.mp none] at length
    exact absurd length (Nat.ne_of_lt some)
  have done : ∃ result, LossInputs.generateLossesOutput { attempt.toAttempt with
      config := configStripDefaultExposure attempt.config } (given.map (lossDirectories attempt.node)) =
        Option.some result ∧ Output result := by
    generalize given.map (lossDirectories attempt.node) = prepared at lost nonempty
    obtain ⟨first,rest,rfl⟩ := List.exists_cons_of_ne_nil nonempty
    obtain ⟨works,worked⟩ := mapM_safe fun p listed => (lost p listed).work
    obtain ⟨logs,logged⟩ := mapM_safe fun p listed => (lost p listed).log
    have head := (lost first List.mem_cons_self).directed
    refine ⟨(((first.put "model_storage_json" .null).put "output_location" (stored attempt.outputLocation)).put "run_logs"
      (stored attempt.runLogs)).put "log_location" (stored attempt.logLocation),?_,?_,rfl⟩
    · simp only [LossInputs.generateLossesOutput,List.head?_cons,worked,logged,Option.bind_eq_bind,Option.bind_some]
    · exact (((head.put_own (by decide) _).put_own (by decide) _).put_own (by decide) _).put_own (by decide) _
  exact done

theorem recordLosses_does (slug queue : String) (output : Output params) :
    Does files losses lookupChunks ⟨"record_losses_files",slug,queue,[]⟩ [params] Directed where
  fetches := by
    intro node fetched of
    rw [taskOf,if_pos (List.mem_cons_of_mem _ List.mem_cons_self)] at of
    cases of
  performs := by
    intro attempt works
    refine ⟨params,?_,output.directed⟩
    obtain ⟨location,there⟩ := Option.isSome_iff_exists.mp output.location
    change LossInputs.recordLossesFiles _ params = _
    simp only [LossInputs.recordLossesFiles,there,works.stores,Option.bind_eq_bind,Option.bind_some,if_true]

theorem cleanupLosses_does (slug queue : String) (directed : Directed params) :
    Does files losses lookupChunks ⟨"cleanup_losses_generation",slug,queue,[]⟩ [params] Directed :=
  worker_does (by decide) (by simpa using directed) fun attempt _ =>
    ⟨_,rfl,(directed.directories attempt.node).put_own (by decide) _⟩

/-! ### The canvases -/

/-- A chord of chunks. -/
theorem chunks_hold {taskName statusName statusSlug queue bodyTask bodyName bodySlug bodyQueue : String} {numChunks : Nat}
    {before : List Params → Prop} {chunk body : Params → Prop}
    (chunks : ∀ slug, ∀ chunkIdx < numChunks, ∀ given, before given →
      Does files losses lookupChunks ⟨taskName,slug,queue,[chunkIdx,numChunks]⟩ given chunk)
    (collects : ∀ given, Each numChunks chunk given →
      Does files losses lookupChunks ⟨bodyTask,bodySlug,bodyQueue,[]⟩ given body) :
    Holds files losses lookupChunks before
      (getSubchordStatusesAndSignature taskName statusName statusSlug queue (chunkParams numChunks)
        (getSubtaskStatusesAndSignature bodyTask bodyName bodySlug bodyQueue [])).2.flow (One body) := by
  obtain ⟨length,signatures⟩ := chunk_signatures taskName statusName statusSlug queue numChunks
  refine (header_holds fun work listed given holds => ?_).append (task_holds fun given holds => collects given (length ▸ holds))
  obtain ⟨slug,chunkIdx,one,rfl⟩ := signatures work listed
  exact chunks slug chunkIdx one given holds

theorem one_does {before after : Params → Prop} {signature : TaskSignature}
    (does : ∀ params, before params → Does files losses lookupChunks signature [params] after) :
    Holds files losses lookupChunks (One before) [.task signature] (One after) := by
  refine task_holds fun given holds => ?_
  obtain ⟨params,rfl,holds⟩ := holds
  exact does params holds

theorem order_holds {element : StageElement} {rest : List StageElement} {before between after : List Params → Prop}
    (first : Holds files losses lookupChunks before element.flow between)
    (later : Holds files losses lookupChunks between (order rest) after) :
    Holds files losses lookupChunks before (order (element :: rest)) after := first.append later

theorem inputs_hold (request : Request) (some : 0 < request.lookupChunks) :
    Holds files losses request.lookupChunks (One (Readable files)) (order request.inputs.tasks) (One Directed) := by
  have tasks : request.inputs.tasks = (getInputsGenerationTasks request.queue request.lookupChunks).map Prod.snd := rfl
  have keys : ∀ slug, ∀ chunkIdx < request.lookupChunks, ∀ given, One (Hooked files request.lookupChunks) given →
      Does files losses request.lookupChunks ⟨"prepare_keys_file_chunk",slug,request.queue,[chunkIdx,request.lookupChunks]⟩
        given (Keyed files) := by
    rintro slug chunkIdx one given ⟨params,rfl,hooked⟩
    exact keysChunk_does slug request.queue one hooked
  rw [tasks,getInputsGenerationTasks]
  refine order_holds (one_does fun params => prepareParams_does _ _) ?_
  refine order_holds (one_does fun params => hook_does _ _) ?_
  refine order_holds (chunks_hold keys fun given each => collect_does _ _ some each) ?_
  refine order_holds (one_does fun params => write_does _ _) ?_
  refine order_holds (one_does fun params => record_does _ _) ?_
  exact order_holds (one_does fun params => cleanup_does _ _) .skip

theorem losses_hold (request : Request) (some : 0 < request.lossChunks) :
    Holds files losses lookupChunks (One Directed) (order request.losses.tasks) (One Directed) := by
  have tasks : request.losses.tasks = (getLossGenerationTasks request.queue request.lossChunks).map Prod.snd := rfl
  have chunks : ∀ slug, ∀ chunkIdx < request.lossChunks, ∀ given, One Directed given →
      Does files losses lookupChunks ⟨"generate_losses_chunk",slug,request.queue,[chunkIdx,request.lossChunks]⟩ given
        Lost := by
    rintro slug chunkIdx - given ⟨params,rfl,directed⟩
    exact lossesChunk_does slug request.queue chunkIdx request.lossChunks directed
  rw [tasks,getLossGenerationTasks]
  refine order_holds (one_does fun params => prepareLosses_does _ _) ?_
  refine order_holds (one_does fun params => directory_does _ _) ?_
  refine order_holds (chunks_hold chunks fun given each => output_does _ _ some each) ?_
  refine order_holds (one_does fun params => recordLosses_does _ _) ?_
  exact order_holds (one_does fun params => cleanupLosses_does _ _) .skip

theorem empty_readable : Readable files LossInputs.Params.empty := ⟨fun _ _ => .absent,nofun,nofun⟩

theorem empty_directed : Directed LossInputs.Params.empty := fun _ _ => ⟨.absent,nofun⟩

/-- A canvas, from the parameters with which it is sent. -/
theorem canvas_holds {celery : Celery} (documented : Documented celery) (request : Request)
    (lookups : 0 < request.lookupChunks) (chunks : 0 < request.lossChunks) (method : Method) :
    Holds files losses request.lookupChunks (· = [LossInputs.Params.empty]) (flow (canvas celery request method)) (One Directed) := by
  have inputs : Holds files losses request.lookupChunks (· = [LossInputs.Params.empty]) (order request.inputs.tasks)
      (One Directed) :=
    (inputs_hold request lookups).weaken (fun given same => ⟨_,same,empty_readable⟩) fun _ holds => holds
  have losses_run : Holds files losses request.lookupChunks (One Directed) (order request.losses.tasks) (One Directed) :=
    losses_hold request chunks
  cases method with
  | generateInputs =>
    rw [canvas,createStageChain,createChain_order documented]
    exact inputs
  | generateLosses =>
    rw [canvas,createStageChain,createChain_order documented]
    exact losses_run.weaken (fun given same => ⟨_,same,empty_directed⟩) fun _ holds => holds
  | generateInputAndLosses =>
    rw [canvas,createStageChain,createStageChain,joinStageChains_order documented]
    exact inputs.append losses_run

/-- No task of a run raises for what it is given, so that a run whose attempts work goes on
    to its end, whichever nodes they are on. -/
theorem tasks_proceed (celery : Celery) (documented : Documented celery) (files : KeysKwargs) (losses : LossKwargs)
    (request : Request) (lookups : 0 < request.lookupChunks) (chunks : 0 < request.lossChunks) (method : Method) :
    (∀ signature given, Given (Returns files request.lookupChunks) (flow (canvas celery request method)) [LossInputs.Params.empty]
        signature given → Proceeds files losses request.lookupChunks signature given) ∧
      ∀ attempts : TaskSignature → InputAttempt, (∀ signature, Works (attempts signature)) →
        ∃ result, Ends (fun signature given result =>
            perform files request.lookupChunks (attempts signature) signature given = some result)
          (flow (canvas celery request method)) [LossInputs.Params.empty] [result] := by
  have holds : Holds files losses request.lookupChunks (· = [LossInputs.Params.empty])
      (flow (canvas celery request method)) (One Directed) := canvas_holds documented request lookups chunks method
  refine ⟨holds.meets _ rfl,fun attempts works => ?_⟩
  have triple : Triple (fun signature given result =>
        perform files request.lookupChunks (attempts signature) signature given = some result)
      (Proceeds files losses request.lookupChunks) (· = [LossInputs.Params.empty]) (flow (canvas celery request method))
      (One Directed) :=
    holds.restrict fun signature _ _ returned => ⟨attempts signature,works signature,returned⟩
  have total : ∀ signature given, Proceeds files losses request.lookupChunks signature given →
      ∃ result, perform files request.lookupChunks (attempts signature) signature given = some result :=
    fun signature _ proceeds => Option.isSome_iff_exists.mp (proceeds.returns _ (works signature))
  obtain ⟨results,ends,result,rfl,-⟩ := triple.completes total rfl
  exact ⟨result,ends⟩

/-- An attempt of a model without a hook, on a file store that returns references. -/
def plain : InputAttempt where
  toAttempt := { LossInputs.dropping with paramsGenerateOasisLosses := id }
  paramsGenerateOasisFiles := fun params => Function.update params "sar_chunks" none
  hookTargetDir := "/tmp/hook"
  filesModified := fun _ => none
  preFile := fun _ => none
  sarChunk := fun _ => some LossInputs.smallReference
  sarEmpty := false
  chunkKeys := some LossInputs.smallReference
  fileNames := ["keys.parquet","keys-errors.parquet"]
  keysData := some LossInputs.smallReference
  written := LossInputs.smallWritten

theorem plain_works : Works plain where
  stores := rfl
  sarChunk := fun _ => rfl
  chunkKeys := rfl
  fileNames := by simp [plain]
  outputLocation := rfl
  config := fun _ _ => .absent
  filesPaths := by
    intro params paths key listed
    have own : key ≠ "sar_chunks" := by
      rintro rfl
      exact absurd listed (by decide)
    have kept : plain.paramsGenerateOasisFiles params key = params key := Function.update_of_ne own ..
    rw [kept]
    exact paths key listed
  filesOwn := by simp [plain]
  lossesPaths := fun _ paths => paths

theorem tasks_proceed_plain :
    (∀ signature given, Given (Returns {} twoChunks.lookupChunks) (flow (canvas reference twoChunks .generateInputAndLosses))
        [LossInputs.Params.empty] signature given → Proceeds {} {} twoChunks.lookupChunks signature given) ∧
      ∃ result, Ends (fun signature given result => perform {} twoChunks.lookupChunks plain signature given = some result)
        (flow (canvas reference twoChunks .generateInputAndLosses)) [LossInputs.Params.empty] [result] := by
  obtain ⟨proceeds,completes⟩ :=
    tasks_proceed reference reference_documented {} {} twoChunks (by decide) (by decide) .generateInputAndLosses
  exact ⟨proceeds,completes (fun _ => plain) fun _ => plain_works⟩

end OasisPlatform.RunsProceed
