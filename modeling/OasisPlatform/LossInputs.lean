import OasisPlatform.PrepareDirectories
import OasisPlatform.SubTaskIds

/-!
The inputs of a loss generation that runs after the input generation of the same request.
The archive that `write_input_files` stores is named to the loss tasks by a key of their
parameters, which each of them passes on, so that they extract it and not the one that they
were given when the chain was built (`own_inputs_extracted`).
-/
namespace OasisPlatform.LossInputs
open OasisPlatform.Canvas OasisPlatform.AnalysisTasks OasisPlatform.JsonValues OasisPlatform.GuardedFetch
open OasisPlatform.PrepareDirectories OasisPlatform.StageChains OasisPlatform.SubTaskIds
set_option linter.unusedSimpArgs false

/-- A reference that the file store returns. -/
structure Reference where
  text : String
  nonempty : text ≠ ""

def Reference.json (reference : Reference) : Json := .string reference.text

/-- What `filestore.put` returns. -/
def stored : Option Reference → Json
  | some reference => reference.json
  | none => .null

/-- What `write_input_files` has stored. -/
structure Written where
  lookupErrorLocation : Option Reference
  lookupSuccessLocation : Option Reference
  lookupValidationLocation : Option Reference
  summaryLevelsLocation : Option Reference
  outputLocation : Option Reference
  analysisSettingsLocation : Option Reference
  logLocation : Option Reference

/-- The empty dictionary. -/
def Params.empty : Params := fun _ => none

/-- `{**params, **others}`. -/
def merge (params others : Params) : Params := fun key => (others key).or (params key)

/-- The dictionary that `write_input_files` returns. -/
def writeInputFiles (written : Written) : Params :=
  ((((((Params.empty.put "lookup_error_location" (stored written.lookupErrorLocation)).put
    "lookup_success_location" (stored written.lookupSuccessLocation)).put
    "lookup_validation_location" (stored written.lookupValidationLocation)).put
    "summary_levels_location" (stored written.summaryLevelsLocation)).put
    "output_location" (stored written.outputLocation)).put
    "analysis_settings_location" (stored written.analysisSettingsLocation)).put
    "log_location" (stored written.logLocation)

/-- What an attempt of a task finds on its node, and what it is returned by what it calls;
    `other` are the results of the tasks before `write_input_files`. -/
structure Attempt where
  node : Run
  keysKwargs : KeysKwargs
  /-- Whether the archives that the server stores can be stored. -/
  stores : Bool
  config : Params
  paramsGenerateOasisLosses : Params → Params
  absolutePath : String → Option String
  environSchemaInfo : Json
  debugWorker : Bool
  modelStorageJson : Option String
  generateLossesDir : Params → Json
  runLocation : Option Reference
  chunkWorkLocation : Option Reference
  chunkLogLocation : Option Reference
  outputLocation : Option Reference
  runLogs : Option Reference
  logLocation : Option Reference
  other : TaskSignature → List Params → Option Params

/-- Raises where there is no archive to store. -/
def recordInputFiles (attempt : Attempt) (result : Params) : Option Params :=
  match result.get "output_location" with
  | .null => none
  | _ => if attempt.stores then some result else none

def cleanupInputGeneration (params : Params) : Params :=
  Params.empty.put inputLocationKey (params.get "output_location")

/-- Values that are paths are made absolute, and those that are none are left out. -/
def pathsToAbsolutePaths (absolutePath : String → Option String) (dictionary : Params) : Params := fun key =>
  match dictionary key with
  | some (.string value) => some (.string ((absolutePath value).getD value))
  | some .null => none
  | value => value

def prepareLossesGenerationParams (attempt : Attempt) (params : Params) : Params :=
  let runParams := merge attempt.config params
  let genLossesParams := attempt.paramsGenerateOasisLosses runParams
  let schema := genLossesParams.get "oed_schema_info"
  let params := pathsToAbsolutePaths attempt.absolutePath genLossesParams
  let params := params.put "oed_schema_info" (if schema.truthy then schema else attempt.environSchemaInfo)
  let params := params.put "log_location" (stored attempt.logLocation)
  let params := params.put "verbose" (.bool attempt.debugWorker)
  -- the key again, whatever has become of it
  if (runParams.get inputLocationKey).truthy then params.put inputLocationKey (runParams.get inputLocationKey)
  else params

def storageJson : Option String → Json
  | some file => .string file
  | none => .null

def prepareLossesGenerationDirectory (attempt : Attempt) (params : Params) : Params :=
  let params := params.put "model_storage_json" (storageJson attempt.modelStorageJson)
  let params := params.put "analysis_settings" (attempt.generateLossesDir params)
  let params := params.put "run_location" (stored attempt.runLocation)
  params.put "log_location" (stored attempt.logLocation)

/-- One chunk runs on all cores, several on one each. -/
def chunkWorkDir (chunkIdx numChunks : Nat) : String := if numChunks = 1 then "work" else s!"{chunkIdx + 1}.work"

def maxChunkId (params : Params) (numChunks : Nat) : Json :=
  if numChunks = 1 then (params "kernel_num_processes").getD (.number (-1)) else .number numChunks

def generateLossesChunk (attempt : Attempt) (params : Params) (chunkIdx numChunks : Nat) : Option Params :=
  match params.get "model_run_dir" with
  | .string modelRunDir =>
    some ((((((params.put "chunk_work_location" (stored attempt.chunkWorkLocation)).put
      "chunk_log_location" (stored attempt.chunkLogLocation)).put
      "kernel_work_dir" (.string (joinPath modelRunDir (chunkWorkDir chunkIdx numChunks)))).put
      "process_number" (.number (chunkIdx + 1))).put
      "max_process_id" (maxChunkId params numChunks)).put
      "log_location" (stored attempt.logLocation))
  | _ => none

def generateLossesOutput (attempt : Attempt) (params : List Params) : Option Params := do
  let first ← params.head?
  let _ ← params.mapM fun p => p "chunk_work_location"
  let _ ← params.mapM fun p => p "chunk_log_location"
  some ((((first.put "model_storage_json" .null).put "output_location" (stored attempt.outputLocation)).put
    "run_logs" (stored attempt.runLogs)).put "log_location" (stored attempt.logLocation))

def recordLossesFiles (attempt : Attempt) (result : Params) : Option Params := do
  let _ ← result "output_location"
  if attempt.stores then some result else none

def cleanupLossesGeneration (attempt : Attempt) (params : Params) : Params :=
  params.put "log_location" (stored attempt.logLocation)

/-- A task that is given one dictionary. -/
def ofOne (given : List Params) (body : Params → Option Params) : Option Params :=
  match given with
  | [params] => body params
  | _ => none

/-- What an attempt returns, if it does. The tasks of the worker prepare their directories
    first; only the body of the chord is given a list. -/
def perform (attempt : Attempt) (signature : TaskSignature) (given : List Params) : Option Params :=
  let prepared := given.map (lossDirectories attempt.node)
  match signature.task with
  | "record_input_files" => ofOne given (recordInputFiles attempt)
  | "cleanup_input_generation" => ofOne given fun params =>
    some (cleanupInputGeneration (keysPrepareDirectories attempt.node attempt.keysKwargs params).1)
  | "prepare_losses_generation_params" => ofOne prepared fun params => some (prepareLossesGenerationParams attempt params)
  | "prepare_losses_generation_directory" => ofOne prepared fun params =>
    some (prepareLossesGenerationDirectory attempt params)
  | "generate_losses_chunk" => ofOne prepared fun params =>
    match signature.args with
    | [chunkIdx,numChunks] => generateLossesChunk attempt params chunkIdx numChunks
    | _ => none
  | "generate_losses_output" => generateLossesOutput attempt prepared
  | "record_losses_files" => ofOne given (recordLossesFiles attempt)
  | "cleanup_losses_generation" => ofOne prepared fun params => some (cleanupLossesGeneration attempt params)
  | _ => attempt.other signature given

def Returns (signature : TaskSignature) (given : List Params) (result : Params) : Prop :=
  ∃ attempt, perform attempt signature given = some result

/-- The parameters name an archive to the loss tasks. -/
def Names (location : Reference) (params : Params) : Prop := params inputLocationKey = some location.json

theorem Reference.truthy (location : Reference) : location.json.truthy = true := by
  simpa [Reference.json,Json.truthy] using location.nonempty

theorem Names.get {location : Reference} {params : Params} (names : Names location params) :
    params.get inputLocationKey = location.json := by
  rw [Params.get,names,Option.getD_some]

theorem Names.put {location : Reference} {params : Params} (names : Names location params) {key : String}
    (apart : inputLocationKey ≠ key) (value : Json) : Names location (params.put key value) :=
  (put_other params value apart).trans names

theorem Names.directories {location : Reference} {params : Params} (names : Names location params) (node : Run) :
    Names location (lossDirectories node params) :=
  (lossDirectories_other node params (by decide)).trans names

theorem ofOne_some {given : List Params} {body : Params → Option Params} {result : Params}
    (returned : ofOne given body = some result) : ∃ params, given = [params] ∧ body params = some result := by
  match given,returned with
  | [params],returned => exact ⟨params,rfl,returned⟩

/-- The key of the run wins over that of the configuration, and is put back. -/
theorem prepareLossesGenerationParams_names (attempt : Attempt) {location : Reference} {params : Params}
    (names : Names location params) : Names location (prepareLossesGenerationParams attempt params) := by
  have merged : Names location (merge attempt.config params) := by
    rw [Names,merge,names]
    rfl
  unfold prepareLossesGenerationParams
  simp only [merged.get,location.truthy,if_true]
  exact Function.update_self ..

theorem generateLossesChunk_names {attempt : Attempt} {location : Reference} {params result : Params}
    {chunkIdx numChunks : Nat} (names : Names location params)
    (returned : generateLossesChunk attempt params chunkIdx numChunks = some result) : Names location result := by
  unfold generateLossesChunk at returned
  split at returned
  · obtain rfl := Option.some.inj returned
    exact (((((names.put (by decide) _).put (by decide) _).put (by decide) _).put (by decide) _).put (by decide) _).put
      (by decide) _
  · cases returned

theorem generateLossesOutput_names {attempt : Attempt} {location : Reference} {params : List Params} {result : Params}
    (names : ∀ p ∈ params, Names location p) (returned : generateLossesOutput attempt params = some result) :
    Names location result := by
  simp only [generateLossesOutput,Option.bind_eq_bind,Option.bind_eq_some_iff] at returned
  obtain ⟨first,head,_,-,_,-,made⟩ := returned
  obtain rfl := Option.some.inj made
  have listed := names first (List.mem_of_head? head)
  exact (((listed.put (by decide) _).put (by decide) _).put (by decide) _).put (by decide) _

theorem recordLossesFiles_same {attempt : Attempt} {result stored : Params}
    (returned : recordLossesFiles attempt result = some stored) : stored = result := by
  simp only [recordLossesFiles,Option.bind_eq_bind,Option.bind_eq_some_iff] at returned
  obtain ⟨_,-,made⟩ := returned
  split at made
  · exact (Option.some.inj made).symm
  · cases made

/-- The tasks of the loss generation. -/
def lossTasks : List String :=
  ["prepare_losses_generation_params","prepare_losses_generation_directory","generate_losses_chunk",
    "generate_losses_output","record_losses_files","cleanup_losses_generation"]

/-- Each task of the loss generation passes the key on. -/
theorem returns_names {location : Reference} {signature : TaskSignature} {given : List Params} {result : Params}
    (kind : signature.task ∈ lossTasks) (names : ∀ p ∈ given, Names location p)
    (returned : Returns signature given result) : Names location result := by
  obtain ⟨attempt,returned⟩ := returned
  obtain ⟨task,slug,queue,args⟩ := signature
  have prepared : ∀ p ∈ given.map (lossDirectories attempt.node), Names location p := by
    intro p listed
    obtain ⟨original,member,rfl⟩ := List.mem_map.mp listed
    exact (names original member).directories attempt.node
  simp only [lossTasks,List.mem_cons,List.not_mem_nil,or_false] at kind
  rcases kind with rfl | rfl | rfl | rfl | rfl | rfl
  · obtain ⟨params,alone,made⟩ := ofOne_some returned
    obtain rfl := Option.some.inj made
    exact prepareLossesGenerationParams_names attempt (prepared params (by simp [alone]))
  · obtain ⟨params,alone,made⟩ := ofOne_some returned
    obtain rfl := Option.some.inj made
    have kept := prepared params (by simp [alone])
    exact (((kept.put (by decide) _).put (by decide) _).put (by decide) _).put (by decide) _
  · obtain ⟨params,alone,made⟩ := ofOne_some returned
    split at made
    · exact generateLossesChunk_names (prepared params (by simp [alone])) made
    · cases made
  · exact generateLossesOutput_names prepared returned
  · obtain ⟨params,alone,made⟩ := ofOne_some returned
    obtain rfl := recordLossesFiles_same made
    exact names _ (by simp [alone])
  · obtain ⟨params,alone,made⟩ := ofOne_some returned
    obtain rfl := Option.some.inj made
    exact (prepared params (by simp [alone])).put (by decide) _

/-- The fetches that are made, given the paths that are there: those of the other paths. -/
def made (present : String → Bool) : List (Fetch String Object) → List (Fetch String Object)
  | [] => []
  | fetch :: rest =>
    if present fetch.path then made present rest else fetch :: made (Function.update present fetch.path true) rest

theorem made_absent {fetches : List (Fetch String Object)} {present : String → Bool} {fetch : Fetch String Object}
    (listed : fetch ∈ made present fetches) : present fetch.path = false := by
  induction fetches generalizing present with
  | nil => cases listed
  | cons first rest ih =>
    rw [made] at listed
    split at listed
    · exact ih listed
    · rename_i absent
      rcases List.mem_cons.mp listed with rfl | later
      · simpa using absent
      · have still := ih later
        by_cases same : fetch.path = first.path
        · simp [same] at still
        · rwa [Function.update_of_ne same] at still

/-- To the path of the first fetch, nothing else is fetched. -/
theorem made_first {first : Fetch String Object} {rest : List (Fetch String Object)} {present : String → Bool}
    {fetch : Fetch String Object} (listed : fetch ∈ made present (first :: rest)) (same : fetch.path = first.path) :
    fetch = first := by
  rw [made] at listed
  split at listed
  · rename_i there
    have absent := made_absent listed
    rw [same,there] at absent
    cases absent
  · rcases List.mem_cons.mp listed with equal | later
    · exact equal
    · have absent := made_absent later
      rw [same,Function.update_self] at absent
      cases absent

/-- An attempt calls for the archive first, and extracts no other to the inputs. -/
def Extracts (location : Reference) (prepared : Params × List Call) : Prop :=
  prepared.2.head? = some (maybeExtractTar location.json (prepared.1.get "oasis_files_dir") "") ∧
    ∀ present, ∀ fetch ∈ made present (planOf prepared.2).fetches,
      prepared.1.get "oasis_files_dir" = .string fetch.path → fetch.object = .archive location.json ""

theorem lossCalls_extracts {location : Reference} {node : Run} {kwargs : LossKwargs} {params : Params}
    (captured : kwargs.inputLocation = location.json) : Extracts location (params,lossCalls node kwargs params) := by
  obtain ⟨rest,calls⟩ : ∃ rest, lossCalls node kwargs params =
      maybeExtractTar location.json (params.get "oasis_files_dir") "" :: rest := by
    rw [lossCalls,captured,if_pos location.truthy,List.append_assoc,List.append_assoc]
    exact ⟨_,rfl⟩
  rw [Extracts,calls]
  refine ⟨rfl,fun present fetch listed dir => ?_⟩
  have first : maybeExtractTar location.json (params.get "oasis_files_dir") "" =
      some ⟨fetch.path,.archive location.json "",false⟩ := by
    rw [dir]
    rfl
  rw [first] at listed
  rw [made_first listed rfl]

theorem preparedEach_extracts {location : Reference} {node : Run} {kwargs : LossKwargs} {given : List Params}
    (names : ∀ p ∈ given, Names location p) : ∀ prepared ∈ preparedEach node kwargs given, Extracts location prepared := by
  induction given generalizing kwargs with
  | nil => exact fun _ none => absurd none List.not_mem_nil
  | cons first rest ih =>
    have named := (names first List.mem_cons_self).directories node
    intro prepared listed
    rw [preparedEach] at listed
    rcases List.mem_cons.mp listed with rfl | later
    · refine lossCalls_extracts ?_
      rw [withInputLocation,named.get,if_pos location.truthy]
    · exact ih (fun p member => names p (List.mem_cons_of_mem _ member)) prepared later

/-! ### The run -/

def writeSignature (request : Request) : TaskSignature := ⟨"write_input_files","write-input-files",request.queue,[]⟩

/-- The steps before `write_input_files`. -/
def beforeWrite (request : Request) : List (Step TaskSignature) := order (request.inputs.tasks.take 3)

/-- The steps after it: the rest of the input generation, and the loss generation. -/
def afterWrite (request : Request) : List (Step TaskSignature) :=
  .task ⟨"record_input_files","record-input-files","celery-v2",[]⟩ ::
    .task ⟨"cleanup_input_generation","cleanup-input-generation",request.queue,[]⟩ :: order request.losses.tasks

theorem canvas_steps {celery : Celery} (documented : Documented celery) (request : Request) :
    flow (canvas celery request .generateInputAndLosses) =
      beforeWrite request ++ .task (writeSignature request) :: afterWrite request := by
  have inputs : order request.inputs.tasks = beforeWrite request ++ [.task (writeSignature request),
      .task ⟨"record_input_files","record-input-files","celery-v2",[]⟩,
      .task ⟨"cleanup_input_generation","cleanup-input-generation",request.queue,[]⟩] := by
    have parts := (List.take_append_drop 3 request.inputs.tasks).symm
    rw [order,parts,List.flatMap_append]
    rfl
  rw [canvas,createStageChain,createStageChain,joinStageChains_order documented]
  change order request.inputs.tasks ++ order request.losses.tasks = _
  rw [inputs,List.append_assoc]
  rfl

theorem subchord_tasks (taskName statusName statusSlug queue : String) (params : List (List Nat))
    (bodyTask bodyName bodySlug bodyQueue : String) (bodyParams : List Nat) :
    ∀ step ∈ (getSubchordStatusesAndSignature taskName statusName statusSlug queue params
      (getSubtaskStatusesAndSignature bodyTask bodyName bodySlug bodyQueue bodyParams)).2.flow,
      ∀ work ∈ step.tasks, work.task = taskName ∨ work.task = bodyTask := by
  intro step listed work member
  rcases List.mem_pair.mp listed with rfl | rfl
  · simp only [Step.tasks,List.map_map,List.mem_map,getSubtaskStatusesAndSignature,getSubtaskSignature] at member
    obtain ⟨_,-,rfl⟩ := member
    exact .inl rfl
  · obtain rfl := List.mem_singleton.mp member
    exact .inr rfl

/-- The second stage is the loss generation. -/
theorem losses_tasks (request : Request) :
    ∀ step ∈ order request.losses.tasks, ∀ work ∈ step.tasks, work.task ∈ lossTasks := by
  intro step listed work member
  obtain ⟨element,inside,listed⟩ := List.mem_flatMap.mp listed
  obtain ⟨pair,listed_pair,rfl⟩ : ∃ pair ∈ getLossGenerationTasks request.queue request.lossChunks, pair.2 = element :=
    List.mem_map.mp inside
  simp only [getLossGenerationTasks,List.mem_cons,List.not_mem_nil,or_false] at listed_pair
  have alone {only : TaskSignature} (known : only.task ∈ lossTasks) (one : step ∈ [Step.task only]) :
      work.task ∈ lossTasks := by
    obtain rfl := List.mem_singleton.mp one
    obtain rfl := List.mem_singleton.mp member
    exact known
  have known (name : String) (listed : name ∈ lossTasks) : name ∈ lossTasks := listed
  rcases listed_pair with rfl | rfl | rfl | rfl | rfl
  · exact alone (known "prepare_losses_generation_params" (by decide)) listed
  · exact alone (known "prepare_losses_generation_directory" (by decide)) listed
  · rcases subchord_tasks _ _ _ _ _ _ _ _ _ _ step listed work member with same | same
    · exact same ▸ known "generate_losses_chunk" (by decide)
    · exact same ▸ known "generate_losses_output" (by decide)
  · exact alone (known "record_losses_files" (by decide)) listed
  · exact alone (known "cleanup_losses_generation" (by decide)) listed

theorem recordInputFiles_some {attempt : Attempt} {result recorded : Params}
    (returned : recordInputFiles attempt result = some recorded) :
    recorded = result ∧ result.get "output_location" ≠ .null := by
  unfold recordInputFiles at returned
  split at returned
  · cases returned
  · rename_i location
    split at returned
    · exact ⟨(Option.some.inj returned).symm,location⟩
    · cases returned

theorem keysPrepareDirectories_location (node : Run) (kwargs : KeysKwargs) (params : Params) :
    (keysPrepareDirectories node kwargs params).1.get "output_location" = params.get "output_location" := by
  rw [Params.get,keysPrepareDirectories_other node kwargs params (by decide),Params.get]

/-- What the first task of the loss generation is given. -/
theorem first_names {written : Written} {request : Request} {signature : TaskSignature} {given : List Params}
    (reached : Given Returns (afterWrite request) [writeInputFiles written] signature given)
    (loss : signature.task ∈ lossTasks) : ∃ location, written.outputLocation = some location ∧
      ∃ params, Names location params ∧ Given Returns (order request.losses.tasks) [params] signature given := by
  have output : (writeInputFiles written).get "output_location" = stored written.outputLocation := rfl
  cases reached with
  | task => exact absurd loss (by decide)
  | @afterTask _ _ _ _ _ result recorded later =>
    obtain ⟨attempt,recorded⟩ := recorded
    have recorded : recordInputFiles attempt (writeInputFiles written) = some result := recorded
    obtain ⟨rfl,there⟩ := recordInputFiles_some recorded
    cases later with
    | task => exact absurd loss (by decide : "cleanup_input_generation" ∉ lossTasks)
    | @afterTask _ _ _ _ _ result cleaned later =>
      obtain ⟨attempt',cleaned⟩ := cleaned
      have cleaned : some (cleanupInputGeneration (keysPrepareDirectories attempt'.node attempt'.keysKwargs
        (writeInputFiles written)).1) = some result := cleaned
      obtain rfl := Option.some.inj cleaned
      cases location : written.outputLocation with
      | none => exact absurd (output.trans (by rw [location]; rfl)) there
      | some location' =>
        refine ⟨location',rfl,_,?_,later⟩
        rw [Names,cleanupInputGeneration,keysPrepareDirectories_location,output,location]
        exact Function.update_self ..

/-- Each loss task of the run extracts the archive that the run has written, whatever it
    was given when the chain was built. -/
theorem own_inputs_extracted (celery : Celery) (documented : Documented celery) (request : Request) :
    flow (canvas celery request .generateInputAndLosses) =
        beforeWrite request ++ .task (writeSignature request) :: afterWrite request ∧
      ∀ (written : Written) (signature : TaskSignature) (given : List Params),
        Given Returns (afterWrite request) [writeInputFiles written] signature given → signature.task ∈ lossTasks →
          ∃ location, written.outputLocation = some location ∧
            ∀ (node : Run) (kwargs : LossKwargs), ∀ prepared ∈ preparedEach node kwargs given,
              Extracts location prepared := by
  refine ⟨canvas_steps documented request,fun written signature given reached loss => ?_⟩
  obtain ⟨location,output,params,names,later⟩ := first_names reached loss
  refine ⟨location,output,fun node kwargs => preparedEach_extracts ?_⟩
  refine later.invariant (fun step listed work member given result good => ?_) (fun p listed => ?_)
  · exact returns_names (losses_tasks request step listed work member) good
  · exact List.mem_singleton.mp listed ▸ names

def smallReference : Reference := ⟨"inputs.tar.gz",by decide⟩

def smallWritten : Written := ⟨none,none,none,none,some smallReference,none,none⟩

/-- An attempt in which the parameters of the run are all dropped. -/
def dropping : Attempt where
  node := ⟨"/tmp/run",1,"inputs","losses",false⟩
  keysKwargs := {}
  stores := true
  config := Params.empty
  paramsGenerateOasisLosses := fun _ => Params.empty
  absolutePath := fun _ => none
  environSchemaInfo := .null
  debugWorker := false
  modelStorageJson := none
  generateLossesDir := fun _ => .null
  runLocation := none
  chunkWorkLocation := none
  chunkLogLocation := none
  outputLocation := none
  runLogs := none
  logLocation := none
  other := fun _ _ => none

def secondChunk : TaskSignature := ⟨"generate_losses_chunk","generate-losses-chunk-1","model-v2",[1,2]⟩

/-- What a chunk is given after two attempts that drop the parameters. -/
def chunkGiven : List Params :=
  [prepareLossesGenerationDirectory dropping (lossDirectories dropping.node (prepareLossesGenerationParams dropping
    (lossDirectories dropping.node (cleanupInputGeneration (keysPrepareDirectories dropping.node {}
      (writeInputFiles smallWritten)).1))))]

theorem chunk_reached :
    Given Returns (afterWrite twoChunks) [writeInputFiles smallWritten] secondChunk chunkGiven := by
  refine .afterTask ⟨dropping,rfl⟩ (.afterTask ⟨dropping,rfl⟩ ?_)
  refine .afterTask ⟨dropping,rfl⟩ (.afterTask ⟨dropping,rfl⟩ ?_)
  exact .header (by decide) _ _

/-- What the chunk was given when the chain was built. -/
def captured : LossKwargs := { inputLocation := .string "captured.tar.gz" }

theorem own_inputs_extracted_chunk :
    ∃ location, smallWritten.outputLocation = some location ∧
      ∀ prepared ∈ preparedEach dropping.node captured chunkGiven, Extracts location prepared := by
  obtain ⟨location,output,extracts⟩ := (own_inputs_extracted reference reference_documented twoChunks).2 smallWritten
    secondChunk chunkGiven chunk_reached (by decide)
  exact ⟨location,output,extracts dropping.node captured⟩

end OasisPlatform.LossInputs
