import OasisPlatform.StageChains

/-!
The status rows of the sub-tasks and the ids of their celery tasks. The controller builds
the rows together with the signatures, and reads the ids back from the result of the
dispatch, from the last task to the first. Each row ends with the id of the signature that
has its slug (`ids_on_own_rows`).
-/
namespace OasisPlatform.SubTaskIds
open OasisPlatform.Canvas OasisPlatform.Models OasisPlatform.AnalysisTasks OasisPlatform.SubTasks
open OasisPlatform.StageChains OasisPlatform.StageSlugs
set_option linter.unusedSimpArgs false

def getSubtaskSignature (taskName slug queue : String) (params : List Nat) : Leaf :=
  (⟨taskName,slug,queue,params⟩,[.recordSubTaskFailure slug])

def getSubtaskStatusesAndSignature (taskName statusName statusSlug queue : String) (params : List Nat) :
    List StageTask × Leaf :=
  ([⟨statusName,statusSlug,queue⟩],getSubtaskSignature taskName statusSlug queue params)

/-- A sub-task that is chained by itself. -/
def single (subtask : List StageTask × Leaf) : List StageTask × StageElement :=
  (subtask.1,.task subtask.2.1 subtask.2.2)

/-- One sub-task for each of the parameters, of which there is at least one, and the body. -/
def getSubchordStatusesAndSignature (taskName statusName statusSlug queue : String) (params : List (List Nat))
    (body : List StageTask × Leaf) : List StageTask × StageElement :=
  let header := params.zipIdx.map fun param =>
    getSubtaskStatusesAndSignature taskName s!"{statusName} {param.2}" s!"{statusSlug}-{param.2}" queue param.1
  (header.flatMap Prod.fst ++ body.1,
    .chord (header.map Prod.snd) (body.2.1,addErrback body.2.2 .chordErrorCallback))

/-- The arguments of the tasks of a header. -/
def chunkParams (numChunks : Nat) : List (List Nat) := (List.range numChunks).map fun idx => [idx,numChunks]

def getInputsGenerationTasks (queue : String) (numChunks : Nat) : List (List StageTask × StageElement) :=
  [single (getSubtaskStatusesAndSignature "prepare_input_generation_params" "Prepare input generation params"
      "prepare-input-generation-params" queue []),
    single (getSubtaskStatusesAndSignature "pre_analysis_hook" "Pre analysis hook" "pre-analysis-hook" queue []),
    getSubchordStatusesAndSignature "prepare_keys_file_chunk" "Prepare keys file" "prepare-keys-file" queue
      (chunkParams numChunks)
      (getSubtaskStatusesAndSignature "collect_keys" "Collect keys" "collect-keys" queue []),
    single (getSubtaskStatusesAndSignature "write_input_files" "Write input files" "write-input-files" queue []),
    single (getSubtaskStatusesAndSignature "record_input_files" "Record input files" "record-input-files" "celery-v2" []),
    single (getSubtaskStatusesAndSignature "cleanup_input_generation" "Cleanup input generation"
      "cleanup-input-generation" queue [])]

def getLossGenerationTasks (queue : String) (numChunks : Nat) : List (List StageTask × StageElement) :=
  [single (getSubtaskStatusesAndSignature "prepare_losses_generation_params" "Prepare losses generation params"
      "prepare-losses-generation-params" queue []),
    single (getSubtaskStatusesAndSignature "prepare_losses_generation_directory" "Prepare losses generation directory"
      "prepare-losses-generation-directory" queue []),
    getSubchordStatusesAndSignature "generate_losses_chunk" "Generate losses chunk" "generate-losses-chunk" queue
      (chunkParams numChunks)
      (getSubtaskStatusesAndSignature "generate_losses_output" "Generate losses output" "generate-losses-output" queue []),
    single (getSubtaskStatusesAndSignature "record_losses_files" "Record losses files" "record-losses-files" "celery-v2"
      []),
    single (getSubtaskStatusesAndSignature "cleanup_losses_generation" "Cleanup losses generation"
      "cleanup-losses-generation" queue [])]

/-- `_split_tasks_and_statuses`: the statuses, and the tasks to chain. -/
def splitTasksAndStatuses (joined : List (List StageTask × StageElement)) : List (List StageTask) × List StageElement :=
  (joined.map Prod.fst,joined.map Prod.snd)

/-- The slugs of the signatures, in the order in which they run. -/
def signatureSlugs (steps : List (Step TaskSignature)) : List String :=
  (steps.flatMap Step.tasks).map (·.slug)

/-- The statuses are those of the signatures. -/
def Paired (pair : List StageTask × StageElement) : Prop := signatureSlugs pair.2.flow = slugs pair.1

theorem single_paired (taskName statusName statusSlug queue : String) (params : List Nat) :
    Paired (single (getSubtaskStatusesAndSignature taskName statusName statusSlug queue params)) := rfl

theorem subchord_paired (taskName statusName statusSlug queue : String) (params : List (List Nat))
    (bodyTask bodyName bodySlug bodyQueue : String) (bodyParams : List Nat) :
    Paired (getSubchordStatusesAndSignature taskName statusName statusSlug queue params
      (getSubtaskStatusesAndSignature bodyTask bodyName bodySlug bodyQueue bodyParams)) := by
  simp [Paired,signatureSlugs,slugs,getSubchordStatusesAndSignature,getSubtaskStatusesAndSignature,getSubtaskSignature,
    Element.flow,Step.tasks,List.flatMap_map,Function.comp_def,List.map_flatMap,← List.map_eq_flatMap]

theorem signatureSlugs_order {pairs : List (List StageTask × StageElement)} (paired : ∀ pair ∈ pairs, Paired pair) :
    signatureSlugs (order (pairs.map Prod.snd)) = slugs (pairs.map Prod.fst).flatten := by
  induction pairs with
  | nil => rfl
  | cons pair rest ih =>
    have head : signatureSlugs pair.2.flow = slugs pair.1 := paired pair List.mem_cons_self
    have tail := ih fun other listed => paired other (List.mem_cons_of_mem _ listed)
    rw [List.map_cons,List.map_cons,List.flatten_cons,slugs_append,← tail,← head]
    simp [order,signatureSlugs]

theorem inputs_paired (queue : String) (numChunks : Nat) :
    ∀ pair ∈ getInputsGenerationTasks queue numChunks, Paired pair := by
  intro pair listed
  simp only [getInputsGenerationTasks,List.mem_cons,List.not_mem_nil,or_false] at listed
  rcases listed with rfl | rfl | rfl | rfl | rfl | rfl
  · exact single_paired ..
  · exact single_paired ..
  · exact subchord_paired ..
  · exact single_paired ..
  · exact single_paired ..
  · exact single_paired ..

theorem losses_paired (queue : String) (numChunks : Nat) :
    ∀ pair ∈ getLossGenerationTasks queue numChunks, Paired pair := by
  intro pair listed
  simp only [getLossGenerationTasks,List.mem_cons,List.not_mem_nil,or_false] at listed
  rcases listed with rfl | rfl | rfl | rfl | rfl
  · exact single_paired ..
  · exact single_paired ..
  · exact subchord_paired ..
  · exact single_paired ..
  · exact single_paired ..

theorem chunk_statuses (taskName statusName statusSlug queue : String) (numChunks : Nat) :
    ((chunkParams numChunks).zipIdx.map fun param => getSubtaskStatusesAndSignature taskName
        s!"{statusName} {param.2}" s!"{statusSlug}-{param.2}" queue param.1).flatMap Prod.fst =
      chunkTasks statusName statusSlug queue numChunks := by
  have numbered : (chunkParams numChunks).zipIdx.map Prod.snd = List.range numChunks := by
    simp [chunkParams,List.zipIdx_map_snd,List.range_eq_range']
  rw [chunkTasks,← numbered,List.map_map,List.flatMap_map,List.map_eq_flatMap]
  rfl

/-- The statuses of a stage are its sub-tasks. -/
theorem inputs_statuses (queue : String) (numChunks : Nat) :
    ((getInputsGenerationTasks queue numChunks).map Prod.fst).flatten = inputsGenerationTasks queue numChunks := by
  simp only [getInputsGenerationTasks,List.map_cons,List.map_nil,List.flatten_cons,List.flatten_nil,
    getSubchordStatusesAndSignature,chunk_statuses]
  simp [inputsGenerationTasks,single,getSubtaskStatusesAndSignature]

theorem losses_statuses (queue : String) (numChunks : Nat) :
    ((getLossGenerationTasks queue numChunks).map Prod.fst).flatten = lossGenerationTasks queue numChunks := by
  simp only [getLossGenerationTasks,List.map_cons,List.map_nil,List.flatten_cons,List.flatten_nil,
    getSubchordStatusesAndSignature,chunk_statuses]
  simp [lossGenerationTasks,single,getSubtaskStatusesAndSignature]

/-- A result of celery: `AsyncResult`, or `GroupResult` with the ids of its children. -/
inductive Result where
  | async (id : String)
  | group (id : String) (children : List String)
  deriving DecidableEq, Repr

def Result.id : Result → String
  | .async id => id
  | .group id _ => id

def Result.taskIds : Result → List String
  | .async id => [id]
  | .group _ children => children.reverse

def extractCeleryTaskIds (chainResult : Result) (parents : List Result) : List String :=
  chainResult.id :: parents.flatMap Result.taskIds

/-- The result that shows a step: the id of the task, or a group with those of the header
    in order. -/
inductive Shows (ids : String → String) : Step TaskSignature → Result → Prop where
  | task (signature : TaskSignature) : Shows ids (.task signature) (.async (ids signature.slug))
  | header (signatures : List TaskSignature) (group : String) :
      Shows ids (.header signatures) (.group group (signatures.map fun signature => ids signature.slug))

/-- A dispatch returns the result of the last step, and its parents from there to the
    first. -/
def ListsParents (ids : String → String) (sig : Sig TaskSignature Errback) (result : Result × List Result) : Prop :=
  List.Forall₂ (Shows ids) (flow sig) (result.1 :: result.2).reverse

theorem shown_ids {ids : String → String} {step : Step TaskSignature} {result : Result} (shows : Shows ids step result) :
    result.taskIds.reverse = step.tasks.map fun signature => ids signature.slug := by
  cases shows with
  | task signature => rfl
  | header signatures group => exact List.reverse_reverse _

theorem shown_all {ids : String → String} {steps : List (Step TaskSignature)} {results : List Result}
    (shows : List.Forall₂ (Shows ids) steps results) :
    results.flatMap (fun result => result.taskIds.reverse) = (signatureSlugs steps).map ids := by
  induction shows with
  | nil => rfl
  | cons first _ ih =>
    rw [List.flatMap_cons,ih,shown_ids first]
    simp [signatureSlugs]

/-- Read from the end, the ids are in the order in which the tasks run. -/
theorem extracted_ids {ids : String → String} {steps : List (Step TaskSignature)} {last : TaskSignature}
    {chainResult : Result} {parents : List Result}
    (shows : List.Forall₂ (Shows ids) (steps ++ [.task last]) (chainResult :: parents).reverse) :
    (extractCeleryTaskIds chainResult parents).reverse = (signatureSlugs (steps ++ [.task last])).map ids := by
  have single_id : [chainResult.id] = chainResult.taskIds := by
    have backwards := List.rel_reverse shows
    rw [List.reverse_append,List.reverse_reverse] at backwards
    obtain ⟨first,-⟩ := List.forall₂_cons.mp backwards
    cases first
    rfl
  have whole : extractCeleryTaskIds chainResult parents = (chainResult :: parents).flatMap Result.taskIds := by
    rw [List.flatMap_cons,← single_id]
    rfl
  rw [whole,← shown_all shows,List.reverse_flatMap]
  rfl

/-- The instances are saved in turn, until one of them is refused. -/
def saveAll (table : SubTaskTable) : List SubTask → SubTaskTable
  | [] => table
  | row :: rest =>
    match saveSubTask table row with
    | some table => saveAll table rest
    | none => table

def recordSubtaskIds (table : SubTaskTable) (analysis : AnalysisId) (celeryTasksList : List String) : SubTaskTable :=
  saveAll table (subtaskIds table analysis celeryTasksList)

def setId (ids : String → String) (row : SubTask) : SubTask := { row with taskId := ids row.slug }

theorem newRows_slugs (now : Time) (analysis : AnalysisId) (firstId : Nat) (tasks : List StageTask) :
    (newRows now analysis firstId tasks).map (·.slug) = slugs tasks :=
  List.ext_getElem (by simp [newRows,slugs]) (by simp [newRows,slugs])

theorem newRows_ids (now : Time) (analysis : AnalysisId) (firstId : Nat) (tasks : List StageTask) :
    ((newRows now analysis firstId tasks).map SubTask.id).Nodup := by
  rw [List.Nodup,List.pairwise_iff_getElem]
  intro i j inside inside' before
  simp only [newRows,List.getElem_map,List.getElem_mapIdx]
  omega

theorem mem_newRows {now : Time} {analysis : AnalysisId} {firstId : Nat} {tasks : List StageTask} {row : SubTask}
    (listed : row ∈ newRows now analysis firstId tasks) :
    row.analysis = analysis ∧ row.taskId = "" ∧ firstId ≤ row.id := by
  rw [newRows,List.mem_mapIdx] at listed
  obtain ⟨i,inside,rfl⟩ := listed
  exact ⟨rfl,rfl,Nat.le_add_right ..⟩

/-- Rows of which some have their ids, beside those of other analyses. -/
structure Saving (ids : String → String) (old new : List SubTask) : Prop where
  old_valid : ValidRows old
  apart : ∀ row ∈ old, ∀ other ∈ new, row.id ≠ other.id ∧ row.analysis ≠ other.analysis ∧ row.taskId ≠ ids other.slug
  distinct : (new.map SubTask.id).Nodup
  keys_distinct : (new.map fun row => (row.analysis,row.slug)).Nodup
  ids_distinct : (new.map fun row => ids row.slug).Nodup
  unset : ∀ row ∈ new, row.taskId = ""

theorem nodup_beside {α : Type} {f : SubTask → α} {old new : List SubTask} (first : (old.map f).Nodup)
    (second : (new.map f).Nodup) (apart : ∀ row ∈ old, ∀ other ∈ new, f row ≠ f other) : ((old ++ new).map f).Nodup := by
  rw [List.map_append,List.nodup_append]
  refine ⟨first,second,?_⟩
  intro a listed b listed'
  obtain ⟨row,member,rfl⟩ := List.mem_map.mp listed
  obtain ⟨other,member',rfl⟩ := List.mem_map.mp listed'
  exact apart row member other member'

theorem Saving.valid {ids : String → String} {old : List SubTask} (done todo : List SubTask)
    (saving : Saving ids old (done ++ todo)) :
    ValidRows (old ++ (done.map (setId ids) ++ todo)) := by
  have same {α : Type} (f : SubTask → α) (kept : ∀ row, f (setId ids row) = f row) :
      (old ++ (done.map (setId ids) ++ todo)).map f = (old ++ (done ++ todo)).map f := by
    simp [Function.comp_def,kept]
  refine ⟨?_,?_,?_⟩
  · rw [same _ fun _ => rfl]
    exact nodup_beside saving.old_valid.1 saving.distinct fun row listed other listed' =>
      (saving.apart row listed other listed').1
  · rw [same _ fun _ => rfl]
    refine nodup_beside saving.old_valid.2.1 saving.keys_distinct fun row listed other listed' equal => ?_
    exact (saving.apart row listed other listed').2.1 (Prod.mk.inj equal).1
  · have unset : (todo.map SubTask.taskId).filter (· ≠ "") = [] := by
      rw [List.filter_eq_nil_iff]
      intro taskId listed
      obtain ⟨row,member,rfl⟩ := List.mem_map.mp listed
      simp [saving.unset row (List.mem_append_right _ member)]
    rw [List.map_append,List.map_append,List.filter_append,List.filter_append,unset,List.append_nil,List.map_map]
    have done_ids : (done.map (SubTask.taskId ∘ setId ids)).Nodup := by
      have all := saving.ids_distinct
      rw [List.map_append] at all
      exact all.of_append_left
    rw [List.nodup_append]
    refine ⟨saving.old_valid.2.2,done_ids.filter _,?_⟩
    rintro a listed b listed' rfl
    obtain ⟨row,member,rfl⟩ := List.mem_map.mp (List.mem_filter.mp listed).1
    obtain ⟨other,member',equal⟩ := List.mem_map.mp (List.mem_filter.mp listed').1
    exact (saving.apart row member other (List.mem_append_left _ member')).2.2 equal.symm

theorem replace_row {before after : List SubTask} {row changed : SubTask}
    (distinct : ((before ++ row :: after).map SubTask.id).Nodup) :
    (before ++ row :: after).map (fun other => if other.id = row.id then changed else other) =
      before ++ changed :: after := by
  rw [List.map_append,List.map_cons,List.nodup_append,List.nodup_cons] at distinct
  obtain ⟨-,⟨later,-⟩,earlier⟩ := distinct
  have keep (rows : List SubTask) (other : ∀ r ∈ rows, r.id ≠ row.id) :
      rows.map (fun other => if other.id = row.id then changed else other) = rows :=
    (List.map_congr_left fun r listed => if_neg (other r listed)).trans (List.map_id rows)
  rw [List.map_append,List.map_cons,if_pos rfl,
    keep before fun r listed => earlier _ (List.mem_map_of_mem listed) _ List.mem_cons_self,
    keep after fun r listed same => later (same ▸ List.mem_map_of_mem listed)]

/-- Each save changes its own row. -/
theorem saveAll_rows {ids : String → String} {old : List SubTask} (done todo : List SubTask)
    (saving : Saving ids old (done ++ todo)) (table : SubTaskTable)
    (rows : table.rows = old ++ (done.map (setId ids) ++ todo)) :
    (saveAll table (todo.map (setId ids))).rows = old ++ (done ++ todo).map (setId ids) := by
  induction todo generalizing done table with
  | nil => simpa [saveAll] using rows
  | cons row rest ih =>
    have moved : done ++ row :: rest = (done ++ [row]) ++ rest := by simp
    have next : Saving ids old ((done ++ [row]) ++ rest) := moved ▸ saving
    have listed : (table.rows.any fun other => other.id = (setId ids row).id) = true := by
      rw [rows,List.any_eq_true]
      exact ⟨row,by simp,by simp [setId]⟩
    have changed : table.rows.map (fun other => if other.id = (setId ids row).id then setId ids row else other) =
        old ++ ((done ++ [row]).map (setId ids) ++ rest) := by
      have distinct := table.valid.1
      rw [rows,← List.append_assoc] at distinct ⊢
      refine (replace_row distinct).trans ?_
      simp
    have saved : saveSubTask table (setId ids row) = some ⟨_,next.valid (done ++ [row]) rest⟩ := by
      unfold saveSubTask SubTaskTable.write
      rw [if_pos listed,changed,dif_pos (next.valid (done ++ [row]) rest)]
    rw [List.map_cons,saveAll,saved,moved]
    exact ih (done ++ [row]) next _ rfl

/-! ### The controller -/

structure Stage where
  numChunks : Nat
  runDataUuid : String
  statuses : List (List StageTask)
  tasks : List StageElement
  tracebackProperty : TracebackProperty
  failureStatus : AnalysisStatus

def inputsGenerationStage (queue : String) (numChunks : Nat) (runDataUuid : String) : Stage :=
  let joined := splitTasksAndStatuses (getInputsGenerationTasks queue numChunks)
  ⟨numChunks,runDataUuid,joined.1,joined.2,.inputGenerationTracebackFile,.inputsGenerationError⟩

def lossGenerationStage (queue : String) (numChunks : Nat) (runDataUuid : String) : Stage :=
  let joined := splitTasksAndStatuses (getLossGenerationTasks queue numChunks)
  ⟨numChunks,runDataUuid,joined.1,joined.2,.runTracebackFile,.runError⟩

def createStageChain (celery : Celery) (analysis : AnalysisId) (initiator : UserId) (stage : Stage) :
    Sig TaskSignature Errback :=
  createChain celery stage.tasks ⟨analysis,initiator,stage.runDataUuid,stage.tracebackProperty,stage.failureStatus⟩

inductive Method where
  | generateInputs
  | generateLosses
  | generateInputAndLosses
  deriving DecidableEq, Repr

/-- What a request fixes: the queue of the model, the numbers of chunks and the suffixes of
    the data directories. -/
structure Request where
  analysis : AnalysisId
  initiator : UserId
  queue : String
  lookupChunks : Nat
  lossChunks : Nat
  inputsUuid : String
  lossesUuid : String

def Request.inputs (request : Request) : Stage :=
  inputsGenerationStage request.queue request.lookupChunks request.inputsUuid

def Request.losses (request : Request) : Stage :=
  lossGenerationStage request.queue request.lossChunks request.lossesUuid

def statuses (request : Request) : Method → List (List StageTask)
  | .generateInputs => request.inputs.statuses
  | .generateLosses => request.losses.statuses
  | .generateInputAndLosses => request.inputs.statuses ++ request.losses.statuses

def canvas (celery : Celery) (request : Request) : Method → Sig TaskSignature Errback
  | .generateInputs => createStageChain celery request.analysis request.initiator request.inputs
  | .generateLosses => createStageChain celery request.analysis request.initiator request.losses
  | .generateInputAndLosses => joinStageChains celery
      [createStageChain celery request.analysis request.initiator request.inputs,
        createStageChain celery request.analysis request.initiator request.losses]

/-- A method of the controller, on the rows of the sub-tasks: those of earlier runs are
    replaced, the canvas is sent, and the ids are recorded. -/
def start (celery : Celery) (delay : Sig TaskSignature Errback → Result × List Result) (env : Env)
    (table : SubTaskTable) (firstId : Nat) (request : Request) (method : Method) : Option SubTaskTable := do
  let table ← replaceSubtaskStatuses env table request.analysis firstId (statuses request method).flatten
  let result := delay (canvas celery request method)
  some (recordSubtaskIds table request.analysis (extractCeleryTaskIds result.1 result.2))

theorem inputs_order (request : Request) :
    signatureSlugs (order request.inputs.tasks) = slugs request.inputs.statuses.flatten ∧
      ∃ steps last, order request.inputs.tasks = steps ++ [.task last] :=
  ⟨signatureSlugs_order (inputs_paired request.queue request.lookupChunks),
    order (request.inputs.tasks.take 5),_,by
      simp only [order,← List.flatMap_append]
      rfl⟩

theorem losses_order (request : Request) :
    signatureSlugs (order request.losses.tasks) = slugs request.losses.statuses.flatten ∧
      ∃ steps last, order request.losses.tasks = steps ++ [.task last] :=
  ⟨signatureSlugs_order (losses_paired request.queue request.lossChunks),
    order (request.losses.tasks.take 4),_,by
      simp only [order,← List.flatMap_append]
      rfl⟩

/-- The canvas runs the sub-tasks of its statuses, and a single task last. -/
theorem canvas_order {celery : Celery} (documented : Documented celery) (request : Request) (method : Method) :
    signatureSlugs (flow (canvas celery request method)) = slugs (statuses request method).flatten ∧
      ∃ steps last, flow (canvas celery request method) = steps ++ [.task last] := by
  cases method with
  | generateInputs =>
    rw [canvas,createStageChain,createChain_order documented]
    exact inputs_order request
  | generateLosses =>
    rw [canvas,createStageChain,createChain_order documented]
    exact losses_order request
  | generateInputAndLosses =>
    obtain ⟨inputs,-⟩ := inputs_order request
    obtain ⟨losses,steps,last,ends⟩ := losses_order request
    rw [canvas,createStageChain,createStageChain,joinStageChains_order documented]
    refine ⟨?_,order request.inputs.tasks ++ steps,last,by rw [ends,List.append_assoc]⟩
    rw [statuses,List.flatten_append,slugs_append,← inputs,← losses]
    simp [signatureSlugs]

theorem statuses_nodup (request : Request) (method : Method) : (slugs (statuses request method).flatten).Nodup := by
  have inputs : request.inputs.statuses.flatten = inputsGenerationTasks request.queue request.lookupChunks :=
    inputs_statuses request.queue request.lookupChunks
  have losses : request.losses.statuses.flatten = lossGenerationTasks request.queue request.lossChunks :=
    losses_statuses request.queue request.lossChunks
  cases method with
  | generateInputs =>
    rw [statuses,inputs]
    exact inputsGeneration_nodup ..
  | generateLosses =>
    rw [statuses,losses]
    exact lossGeneration_nodup ..
  | generateInputAndLosses =>
    rw [statuses,List.flatten_append,inputs,losses]
    exact stages_nodup ..

/-- Ids that are given once: those of the new rows by the database, and those of the tasks
    by celery. -/
structure FreshIds (ids : String → String) (firstId : Nat) (table : SubTaskTable) (slugs : List String) : Prop where
  rows : ∀ row ∈ table.rows, row.id < firstId
  tasks : ∀ row ∈ table.rows, row.taskId ∉ slugs.map ids
  distinct : (slugs.map ids).Nodup

theorem newRows_saving {ids : String → String} {firstId : Nat} {table : SubTaskTable} {tasks : List StageTask}
    (fresh : FreshIds ids firstId table (slugs tasks)) (distinct : (slugs tasks).Nodup) (now : Time)
    (analysis : AnalysisId) :
    Saving ids (table.rows.filter fun row => row.analysis ≠ analysis) (newRows now analysis firstId tasks) where
  old_valid := by
    have kept : List.Sublist (table.rows.filter fun row => row.analysis ≠ analysis) table.rows := List.filter_sublist
    exact ⟨table.valid.1.sublist (kept.map _),table.valid.2.1.sublist (kept.map _),
      table.valid.2.2.sublist ((kept.map _).filter _)⟩
  apart := by
    intro row listed other listed'
    obtain ⟨member,elsewhere⟩ := List.mem_filter.mp listed
    obtain ⟨same,-,above⟩ := mem_newRows listed'
    refine ⟨fun equal => ?_,fun equal => ?_,fun equal => ?_⟩
    · have below := fresh.rows row member
      omega
    · simp [equal,same] at elsewhere
    · refine fresh.tasks row member (equal ▸ List.mem_map_of_mem ?_)
      rw [← newRows_slugs now analysis firstId tasks]
      exact List.mem_map_of_mem listed'
  distinct := newRows_ids ..
  keys_distinct := by
    have slugs_distinct : ((newRows now analysis firstId tasks).map (·.slug)).Nodup := by rwa [newRows_slugs]
    refine List.Nodup.of_map Prod.snd ?_
    rwa [List.map_map]
  ids_distinct := by
    have all := fresh.distinct
    rwa [← newRows_slugs now analysis firstId tasks,List.map_map] at all
  unset := fun row listed => (mem_newRows listed).2.1

/-- The rows of the analysis are the new ones, and the rows of others as they were. -/
theorem filter_beside {analysis : AnalysisId} (others : List SubTask) {new : List SubTask}
    (own : ∀ row ∈ new, row.analysis = analysis) :
    ((others.filter fun row => row.analysis ≠ analysis) ++ new).filter (fun row => row.analysis = analysis) = new ∧
      ((others.filter fun row => row.analysis ≠ analysis) ++ new).filter (fun row => row.analysis ≠ analysis) =
        others.filter fun row => row.analysis ≠ analysis := by
  constructor
  · have none : (others.filter fun row => row.analysis ≠ analysis).filter (fun row => row.analysis = analysis) = [] := by
      rw [List.filter_eq_nil_iff]
      intro row listed
      simpa using (List.mem_filter.mp listed).2
    rw [List.filter_append,none,List.nil_append,List.filter_eq_self]
    simpa using own
  · have none : new.filter (fun row => row.analysis ≠ analysis) = [] := by
      rw [List.filter_eq_nil_iff]
      simpa using own
    rw [List.filter_append,none,List.append_nil,List.filter_filter]
    exact List.filter_congr fun row _ => Bool.and_self _

/-- Each new row gets the id of its slug, where the ids come in the reverse order of the rows. -/
theorem recorded_rows {ids : String → String} {analysis : AnalysisId} {rows new : List SubTask}
    (saving : Saving ids (rows.filter fun row => row.analysis ≠ analysis) new)
    (own : ∀ row ∈ new, row.analysis = analysis) (table : SubTaskTable)
    (replaced : table.rows = (rows.filter fun row => row.analysis ≠ analysis) ++ new) {celeryTasksList : List String}
    (extracted : celeryTasksList.reverse = new.map fun row => ids row.slug) :
    (recordSubtaskIds table analysis celeryTasksList).rows =
      (rows.filter fun row => row.analysis ≠ analysis) ++ new.map (setId ids) := by
  have instances : subtaskIds table analysis celeryTasksList = new.map (setId ids) := by
    rw [subtaskIds,SubTaskTable.ofAnalysis,replaced,(filter_beside rows own).1,extracted,List.zipWith_map_right,
      List.zipWith_self]
    rfl
  rw [recordSubtaskIds,instances]
  exact saveAll_rows [] new saving table replaced

theorem setId_own (ids : String → String) {analysis : AnalysisId} {new : List SubTask}
    (own : ∀ row ∈ new, row.analysis = analysis) : ∀ row ∈ new.map (setId ids), row.analysis = analysis := by
  intro row listed
  obtain ⟨original,member,rfl⟩ := List.mem_map.mp listed
  exact own original member

/-- Every sub-task of the canvas has its own row, and its own id is on that row. -/
theorem ids_on_own_rows (celery : Celery) (documented : Documented celery)
    (delay : Sig TaskSignature Errback → Result × List Result) (ids : String → String) (env : Env)
    (table : SubTaskTable) (firstId : Nat) (request : Request) (method : Method)
    (parents : ListsParents ids (canvas celery request method) (delay (canvas celery request method)))
    (fresh : FreshIds ids firstId table (signatureSlugs (flow (canvas celery request method)))) :
    (slugs (statuses request method).flatten).Nodup ∧
      ∃ final, start celery delay env table firstId request method = some final ∧
        (final.ofAnalysis request.analysis).map (·.slug) = signatureSlugs (flow (canvas celery request method)) ∧
        (∀ row ∈ final.ofAnalysis request.analysis, row.taskId = ids row.slug) ∧
        final.rows.filter (fun row => row.analysis ≠ request.analysis) =
          table.rows.filter fun row => row.analysis ≠ request.analysis := by
  obtain ⟨same,steps,last,ends⟩ := canvas_order documented request method
  have distinct := statuses_nodup request method
  rw [same] at fresh ⊢
  refine ⟨distinct,?_⟩
  have own : ∀ row ∈ newRows env.now request.analysis firstId (statuses request method).flatten,
      row.analysis = request.analysis := fun row listed => (mem_newRows listed).1
  have saving := newRows_saving fresh distinct env.now request.analysis
  generalize made : newRows env.now request.analysis firstId (statuses request method).flatten = new at own saving
  have new_slugs : new.map (·.slug) = slugs (statuses request method).flatten := made ▸ newRows_slugs ..
  have valid := Saving.valid [] new saving
  have replaced : replaceSubtaskStatuses env table request.analysis firstId (statuses request method).flatten =
      some ⟨_,valid⟩ := by
    rw [replaceSubtaskStatuses,made]
    exact dif_pos valid
  rw [ListsParents,ends] at parents
  have extracted := extracted_ids parents
  rw [← ends,same,← new_slugs,List.map_map] at extracted
  have final_rows := recorded_rows saving own ⟨_,valid⟩ rfl extracted
  obtain ⟨ours,others⟩ := filter_beside table.rows (setId_own ids own)
  refine ⟨_,by rw [start,replaced]; rfl,?_,?_,?_⟩
  · rw [SubTaskTable.ofAnalysis,final_rows,ours,List.map_map,← new_slugs]
    rfl
  · intro row listed
    rw [SubTaskTable.ofAnalysis,final_rows,ours] at listed
    obtain ⟨original,-,rfl⟩ := List.mem_map.mp listed
    rfl
  · rw [final_rows]
    exact others

def shown (ids : String → String) : Step TaskSignature → Result
  | .task signature => .async (ids signature.slug)
  | .header signatures => .group "group" (signatures.map fun signature => ids signature.slug)

/-- A dispatch whose ids are the slugs. -/
def slugDelay (sig : Sig TaskSignature Errback) : Result × List Result :=
  match ((flow sig).map (shown id)).reverse with
  | [] => (.async "",[])
  | last :: parents => (last,parents)

theorem slugDelay_lists {sig : Sig TaskSignature Errback} (runs : flow sig ≠ []) : ListsParents id sig (slugDelay sig) := by
  have shows : List.Forall₂ (Shows id) (flow sig) ((flow sig).map (shown id)) := by
    rw [List.forall₂_map_right_iff,List.forall₂_same]
    intro step _
    cases step with
    | task signature => exact .task signature
    | header signatures => exact .header signatures "group"
  rw [ListsParents,slugDelay]
  split
  · rename_i none
    simp [runs] at none
  · rename_i last parents some
    rwa [← some,List.reverse_reverse]

def twoChunks : Request := ⟨1,1,"model-v2",2,2,"inputs","losses"⟩

theorem twoChunks_runs : flow (canvas reference twoChunks .generateInputAndLosses) ≠ [] := by
  obtain ⟨-,steps,last,ends⟩ := canvas_order reference_documented twoChunks .generateInputAndLosses
  simp [ends]

theorem twoChunks_fresh :
    FreshIds id 1 ⟨[],by decide⟩ (signatureSlugs (flow (canvas reference twoChunks .generateInputAndLosses))) where
  rows := by simp
  tasks := by simp
  distinct := by
    rw [List.map_id,(canvas_order reference_documented twoChunks .generateInputAndLosses).1]
    exact statuses_nodup ..

theorem ids_on_own_rows_two_chunks :
    (slugs (statuses twoChunks .generateInputAndLosses).flatten).Nodup ∧
      ∃ final, start reference slugDelay calmEnv ⟨[],by decide⟩ 1 twoChunks .generateInputAndLosses = some final ∧
        (final.ofAnalysis 1).map (·.slug) =
          signatureSlugs (flow (canvas reference twoChunks .generateInputAndLosses)) ∧
        (∀ row ∈ final.ofAnalysis 1, row.taskId = id row.slug) ∧
        final.rows.filter (fun row => row.analysis ≠ 1) = [].filter fun row : SubTask => row.analysis ≠ 1 :=
  ids_on_own_rows reference reference_documented slugDelay id calmEnv ⟨[],by decide⟩ 1 twoChunks
    .generateInputAndLosses (slugDelay_lists twoChunks_runs) twoChunks_fresh

end OasisPlatform.SubTaskIds
