import OasisPlatform.TaskEffects

/-!
Runs on one file store, in any interleaving. Whatever a task reads from the store is there
when it reads it, and a run that has come to its end has left nothing in its directories
(`references_found`). Only the last task of the loss generation cannot be run again once it
has deleted its directory (`cleanup_again`).
-/
namespace OasisPlatform.ReferencesFound
open OasisPlatform.Canvas OasisPlatform.JsonValues OasisPlatform.GuardedFetch OasisPlatform.PrepareDirectories
open OasisPlatform.StageChains OasisPlatform.SubTaskIds OasisPlatform.InputParameters OasisPlatform.StoreTraces
open OasisPlatform.RunStorage OasisPlatform.StoredReferences OasisPlatform.TaskEffects
open OasisPlatform.RunsProceed (inputTasks workerTasks)
open OasisPlatform.LossInputs (Reference Written stored ofOne)
set_option linter.unusedSimpArgs false

variable {ρ : Type} {runs : Runs ρ} {run : ρ} {keep : Bool} {files : KeysKwargs} {losses : LossKwargs}
  {lookupChunks : Nat} {live : String → Prop}

/-- Nothing is in a directory. -/
def Clean (runs : Runs ρ) (subdir : String) (live : String → Prop) : Prop := ∀ key, live key → ¬ runs.within subdir key

theorem Clean.after {subdir : String} {events : List (Event String)}
    (puts : ∀ key, .put key ∈ events → ¬ runs.within subdir key) (clean : Clean runs subdir live) :
    Clean runs subdir (afterAll live events) :=
  fun key there => (afterAll_cases there).elim (clean key) (puts key)

/-- A stage leaves the directory of the other as it is. -/
theorem clean_steady {subdir other : String} (isDir : Subdir subdir) (isDir' : Subdir other) (differ : subdir ≠ other)
    (mine : ∀ key, runs.within other key → runs.own run key) : Steady runs subdir (Clean runs other) := by
  intro live event plain clean
  have kept : Clean runs other (afterAll live [event]) := clean.after fun key put inside => by
    obtain rfl := List.mem_singleton.mp put
    rcases plain with within | outside
    · exact differ (inDir_same isDir isDir' within inside)
    · exact outside run (mine key inside)
  exact kept

theorem input_steady : Steady runs (runs.files run) (Clean runs (runs.losses run)) :=
  clean_steady (runs.filesDir run) (runs.lossesDir run) (runs.stages run run) losses_mine

theorem loss_steady : Steady runs (runs.losses run) fun live => keep = false → Clean runs (runs.files run) live :=
  fun live event plain clean drops =>
    clean_steady (runs.lossesDir run) (runs.filesDir run) (Ne.symm (runs.stages run run)) files_mine live event plain
      (clean drops)

theorem refs_grows (keys : List String) : Grows (Refs runs run keys) := fun _ _ grown _ refs => refs.mono grown

theorem recorded_grows : Grows (Recorded runs) := fun _ _ grown _ recorded =>
  ⟨recorded.fresh,fun key listed reference inside => (recorded.refs key listed reference inside).imp_left (grown reference),
    recorded.named⟩

theorem entering_grows : Grows (Entering runs run) := fun _ _ grown _ entering =>
  ⟨entering.fresh,entering.refs.mono grown,entering.named⟩

def dirDelete (runs : Runs ρ) (keep : Bool) (subdir : String) : List (Event String) :=
  if keep then [] else [.delete (inDir (remoteSubdir runs.location subdir))]

/-- What a cleanup does for a dictionary that it is given. -/
def cleanupEvents (runs : Runs ρ) (keep : Bool) (subdir : String) (log : Option Reference) : List (Event String) :=
  dirDelete runs keep subdir ++ putOf log

section Cleanup
variable {subdir : String} {reads others : List (Event String)} {log : Option Reference}

theorem cleanupEvents_mem {event : Event String} (listed : event ∈ cleanupEvents runs keep subdir log) :
    (keep = false ∧ event = .delete (inDir (remoteSubdir runs.location subdir))) ∨ event ∈ putOf log := by
  rcases List.mem_append.mp listed with delete | put
  · unfold dirDelete at delete
    split at delete
    · cases delete
    · rename_i drops
      exact .inl ⟨Bool.eq_false_iff.mpr drops,List.mem_singleton.mp delete⟩
  · exact .inr put

/-- A cleanup reads what is there, deletes its directory and stores its log. -/
theorem cleanup_allowed (found : ∀ event ∈ reads, ∃ key, event = .read key ∧ Good runs run live key)
    (mine : ∀ key, runs.within subdir key → runs.own run key) (placed : Placed (AtRoot runs.location) log)
    (part : others ⊆ cleanupEvents runs keep subdir log) : Allowed (Confined runs.own run) live (reads ++ others) := by
  rw [allowed_append]
  refine ⟨(reads_allowed found).1,(allowed_of_kept (fun _ => True) (fun event listed later _ => ⟨?_,trivial⟩) trivial).1⟩
  rcases cleanupEvents_mem (part listed) with ⟨-,rfl⟩ | put
  · exact fun key gone => mine key gone
  · obtain ⟨known,same,rfl⟩ := putOf_text put
    exact .inr (root_outside (placed known same))

theorem cleanup_puts (only : ∀ event ∈ reads, ∃ key, event = .read key)
    (placed : Placed (AtRoot runs.location) log) (part : others ⊆ cleanupEvents runs keep subdir log) {key : String}
    (put : .put key ∈ reads ++ others) : runs.Outside key := by
  rcases List.mem_append.mp put with read | after
  · obtain ⟨other,same⟩ := only _ read
    cases same
  · rcases cleanupEvents_mem (part after) with ⟨-,same⟩ | put
    · cases same
    · obtain ⟨known,same,equal⟩ := putOf_text put
      exact Event.put.inj equal ▸ root_outside (placed known same)

theorem cleanup_cleans (mine : ∀ key, runs.within subdir key → runs.own run key) (placed : Placed (AtRoot runs.location) log)
    (drops : keep = false) : Clean runs subdir (afterAll live (reads ++ cleanupEvents runs keep subdir log)) := by
  subst drops
  intro key there inside
  obtain ⟨known,same,equal⟩ := putOf_text (deleted_gone there inside)
  exact root_outside (placed known same) run (Event.put.inj equal ▸ mine key inside)

end Cleanup

section Cleanups
variable {slug queue : String} {args : List Nat} {given : List Params}

/-- With no file of the hook in its parameters, the task deletes its directory only. -/
theorem cleanupInput_body {attempt : StoreAttempt} (fits : Fits runs run keep attempt) {params : Params}
    (fresh : Fresh inputKeys params) :
    cleanupInputEvents runs.location attempt (keysPrepared files "cleanup_input_generation" attempt params) =
      cleanupEvents runs keep (runs.files run) attempt.logLocation := by
  have apart : ∀ key ∈ preKeys, key ∈ inputKeys ∧ key ∉ keysParams := by decide
  have none : preKeys.flatMap (fun key => deleteFile ((keysPrepared files "cleanup_input_generation" attempt params).get key)) =
      [] := by
    refine List.flatMap_eq_nil_iff.mpr fun key listed => ?_
    rw [keysPrepared,Params.get,keysPrepareDirectories_other _ _ _ (apart key listed).2,fresh key (apart key listed).1]
    rfl
  rw [cleanupInputEvents,none,List.append_nil,keysPrepared,keysPrepareDirectories_subdir,fits.keep,fits.files]
  rfl

theorem cleanupInput_events {attempt : StoreAttempt} (fits : Fits runs run keep attempt)
    (fresh : ∀ p ∈ given, Fresh inputKeys p) :
    attemptEvents runs.location files losses lookupChunks attempt ⟨"cleanup_input_generation",slug,queue,args⟩ given =
      fetchReads attempt.present (attempt.node.plan (.keys (taskKwargs files "cleanup_input_generation") given)) ++
        given.flatMap fun _ => cleanupEvents runs keep (runs.files run) attempt.logLocation := by
  have each : given.flatMap (fun _ => cleanupEvents runs keep (runs.files run) attempt.logLocation) =
      (given.map (keysPrepared files "cleanup_input_generation" attempt)).flatMap
        (cleanupInputEvents runs.location attempt) := by
    rw [List.flatMap_map]
    exact List.flatMap_congr fun p listed => (cleanupInput_body fits (fresh p listed)).symm
  rw [each]
  rfl

theorem flatMap_part {events : List (Event String)} : given.flatMap (fun _ => events) ⊆ events := by
  intro event listed
  obtain ⟨_,-,inside⟩ := List.mem_flatMap.mp listed
  exact inside

/-- Where nothing but the directory of a run is deleted, what is outside stays. -/
theorem outside_stays {events : List (Event String)} (allowed : Allowed (Confined runs.own run) live events) {key : String}
    (outside : runs.Outside key) (there : live key) : afterAll live events key :=
  outside_kept (fun event member => ⟨run,within_of_allowed allowed event member⟩) outside there

theorem recorded_kept {events : List (Event String)} (allowed : Allowed (Confined runs.own run) live events)
    {params : Params} (recorded : Recorded runs live params) : Recorded runs (afterAll live events) params where
  fresh := recorded.fresh
  refs := fun key listed reference inside => (recorded.refs key listed reference inside).imp_left
    (outside_stays allowed (recorded.refs key listed reference inside).2)
  named := recorded.named

theorem served_kept {events : List (Event String)} (allowed : Allowed (Confined runs.own run) live events)
    (served : Served runs files losses live) : Served runs files losses (afterAll live events) :=
  fun key listed => (served key listed).imp_left (outside_stays allowed (served key listed).2)

theorem cleanupInput_attempt (holds : Holds runs files losses (Clean runs (runs.losses run)) (Recorded runs) live given)
    {attempt : StoreAttempt} (fits : Fits runs run keep attempt) {events : List (Event String)}
    (whole : events = attemptEvents runs.location files losses lookupChunks attempt
      ⟨"cleanup_input_generation",slug,queue,args⟩ given) :
    Allowed (Confined runs.own run) live events ∧ ∀ key, .put key ∈ events → runs.Outside key := by
  have refs : ∀ p ∈ given, Refs runs run inputKeys live p := fun p listed => refs_of_absent (holds.refs p listed).fresh
  have found := input_fetches holds.served refs attempt.node attempt.present "cleanup_input_generation"
  rw [whole,cleanupInput_events fits fun p listed => (holds.refs p listed).fresh]
  exact ⟨cleanup_allowed found files_mine fits.logLocation flatMap_part,
    fun key put => cleanup_puts (fetchReads_read _ _) fits.logLocation flatMap_part put⟩

/-- What is left of the input generation: the archive of the inputs, and its files if they
    are kept. -/
theorem cleanupInput_keeps : Keeps (effects runs run keep files losses lookupChunks) (Confined runs.own run)
    (Holds runs files losses (Clean runs (runs.losses run)) (Recorded runs))
    [.task ⟨"cleanup_input_generation",slug,queue,args⟩]
    (Holds runs files losses (fun live => Clean runs (runs.losses run) live ∧ (keep = false → Clean runs (runs.files run) live))
      (Entering runs run)) := by
  refine Keeps.task ?_ ?_
  · rintro live given holds events changed ⟨attempt,fits,⟨rest,whole⟩,each,-⟩
    obtain ⟨allowed,puts⟩ := cleanupInput_attempt holds fits whole
    have first := (allowed_append.mp allowed).1
    refine ⟨first,served_kept first holds.served,holds.clean.after fun key put inside => ?_,fun p listed => ?_⟩
    · exact puts key (List.mem_append_left _ put) run (losses_mine key inside)
    · obtain ⟨original,member,retried⟩ := forall₂_left each listed
      exact (recorded_kept first (holds.refs original member)).retried (List.Subset.refl _) retried
  · rintro live given holds events result ⟨attempt,fits,returned,rfl⟩
    obtain ⟨allowed,puts⟩ := cleanupInput_attempt holds fits rfl
    refine ⟨allowed,served_kept allowed holds.served,⟨holds.clean.after fun key put inside => ?_,fun drops => ?_⟩,
      fun p listed => ?_⟩
    · exact puts key put run (losses_mine key inside)
    · obtain ⟨params,rfl,-⟩ := LossInputs.ofOne_some returned
      rw [cleanupInput_events fits fun p listed => (holds.refs p listed).fresh,List.flatMap_cons,List.flatMap_nil,
        List.append_nil]
      exact cleanup_cleans files_mine fits.logLocation drops
    · obtain ⟨params,rfl,made⟩ := LossInputs.ofOne_some returned
      obtain rfl := List.mem_singleton.mp listed
      obtain rfl := Option.some.inj made
      exact cleanupInputGeneration_entering (recorded_kept allowed (holds.refs params List.mem_cons_self)) _ _

theorem cleanupLosses_events {attempt : StoreAttempt} (fits : Fits runs run keep attempt) :
    attemptEvents runs.location files losses lookupChunks attempt ⟨"cleanup_losses_generation",slug,queue,args⟩ given =
      fetchReads attempt.present (attempt.node.plan (.losses losses given)) ++
        given.flatMap fun _ => cleanupEvents runs keep (runs.losses run) attempt.logLocation := by
  have body (params : Params) : cleanupLossesEvents runs.location attempt (lossesPrepared attempt params) =
      cleanupEvents runs keep (runs.losses run) attempt.logLocation := by
    rw [cleanupLossesEvents,lossesPrepared,lossDirectories_subdir,fits.keep,fits.losses]
    rfl
  have each : given.flatMap (fun _ => cleanupEvents runs keep (runs.losses run) attempt.logLocation) =
      (given.map (lossesPrepared attempt)).flatMap (cleanupLossesEvents runs.location attempt) := by
    rw [List.flatMap_map]
    exact List.flatMap_congr fun p _ => (body p).symm
  rw [each]
  rfl

theorem cleanupLosses_attempt {clean : (String → Prop) → Prop}
    (holds : Holds runs files losses clean (Refs runs run resultKeys) live given) {attempt : StoreAttempt}
    (fits : Fits runs run keep attempt) {events : List (Event String)}
    (whole : events = attemptEvents runs.location files losses lookupChunks attempt
      ⟨"cleanup_losses_generation",slug,queue,args⟩ given) :
    Allowed (Confined runs.own run) live events ∧ (∀ key, .put key ∈ events → runs.Outside key) ∧
      ∀ event ∈ events, Calm event → Plain runs (runs.losses run) event := by
  have refs : ∀ p ∈ given, Refs runs run lossKeys live p := fun p listed key among =>
    holds.refs p listed key (List.mem_append_left _ among)
  have found := loss_fetches holds.served refs attempt.node attempt.present
  rw [whole,cleanupLosses_events fits]
  refine ⟨cleanup_allowed found losses_mine fits.logLocation flatMap_part,
    fun key put => cleanup_puts (fetchReads_read _ _) fits.logLocation flatMap_part put,fun event listed calm => ?_⟩
  rcases List.mem_append.mp listed with fetch | body
  · obtain ⟨key,rfl,-⟩ := found event fetch
    trivial
  · rcases cleanupEvents_mem (flatMap_part body) with ⟨-,rfl⟩ | put
    · exact absurd rfl (calm _)
    · exact putOf_root fits.logLocation event put

/-- Until it deletes its directory, the task can be run again; then nothing is left. -/
theorem cleanupLosses_keeps : Keeps (effects runs run keep files losses lookupChunks) (Confined runs.own run)
    (Holds runs files losses (fun live => keep = false → Clean runs (runs.files run) live) (Refs runs run resultKeys))
    [.task ⟨"cleanup_losses_generation",slug,queue,args⟩]
    (fun live _ => keep = false → Clean runs (runs.files run) live ∧ Clean runs (runs.losses run) live) := by
  refine Keeps.task ?_ ?_
  · rintro live given holds events changed ⟨attempt,fits,⟨rest,whole⟩,each,calm⟩
    obtain ⟨allowed,-,plains⟩ := cleanupLosses_attempt holds fits whole
    have plain : ∀ event ∈ events, Plain runs (runs.losses run) event := fun event listed =>
      plains event (List.mem_append_left _ listed) (calm rfl event listed)
    have kept := holds.steps (refs_grows resultKeys) loss_steady plain
    refine ⟨(allowed_append.mp allowed).1,kept.served,kept.clean,fun p listed => ?_⟩
    obtain ⟨original,member,retried⟩ := forall₂_left each listed
    refine retried.refs resultKeys_apart (kept.refs original member) (put_good losses_mine plain fun key put => ?_)
    exact calm_put (fun event listed => (plain event listed).calm) put
  · rintro live given holds events result ⟨attempt,fits,returned,rfl⟩
    obtain ⟨allowed,puts,-⟩ := cleanupLosses_attempt holds fits rfl
    refine ⟨allowed,fun drops => ⟨(holds.clean drops).after fun key put inside => ?_,?_⟩⟩
    · exact puts key put run (files_mine key inside)
    · obtain ⟨params,alone,-⟩ := LossInputs.ofOne_some returned
      obtain ⟨original,rfl,-⟩ := List.map_eq_singleton_iff.mp alone
      rw [cleanupLosses_events fits,List.flatMap_cons,List.flatMap_nil,List.append_nil]
      exact cleanup_cleans losses_mine fits.logLocation drops

end Cleanups

/-! ### The canvases -/

/-- A chord of chunks. -/
theorem chunks_keep {taskName statusName statusSlug queue bodyTask bodyName bodySlug bodyQueue subdir : String}
    {numChunks : Nat} {clean : (String → Prop) → Prop} {before between after : (String → Prop) → Params → Prop}
    (chunks : ∀ slug chunkIdx, Spec runs run keep files losses lookupChunks subdir
      ⟨taskName,slug,queue,[chunkIdx,numChunks]⟩ before between)
    (collects : Spec runs run keep files losses lookupChunks subdir ⟨bodyTask,bodySlug,bodyQueue,[]⟩ between after)
    (mine : ∀ key, runs.within subdir key → runs.own run key) (grows : Grows before) (lasts : Grows between)
    (steady : Steady runs subdir clean) :
    Keeps (effects runs run keep files losses lookupChunks) (Confined runs.own run) (Holds runs files losses clean before)
      (getSubchordStatusesAndSignature taskName statusName statusSlug queue (chunkParams numChunks)
        (getSubtaskStatusesAndSignature bodyTask bodyName bodySlug bodyQueue [])).2.flow
      (Holds runs files losses clean after) := by
  obtain ⟨-,signatures⟩ := RunsProceed.chunk_signatures taskName statusName statusSlug queue numChunks
  refine (header_keeps (fun work listed => ?_) mine grows lasts steady).append (collects.keeps mine lasts steady)
  obtain ⟨slug,chunkIdx,-,rfl⟩ := signatures work listed
  exact chunks slug chunkIdx

theorem order_keeps {element : StageElement} {rest : List StageElement}
    {before between after : (String → Prop) → List Params → Prop}
    (first : Keeps (effects runs run keep files losses lookupChunks) (Confined runs.own run) before element.flow between)
    (later : Keeps (effects runs run keep files losses lookupChunks) (Confined runs.own run) between (order rest) after) :
    Keeps (effects runs run keep files losses lookupChunks) (Confined runs.own run) before (order (element :: rest)) after :=
  first.append later

theorem inputs_keep (request : Request) :
    Keeps (effects runs run keep files losses request.lookupChunks) (Confined runs.own run)
      (Holds runs files losses (Clean runs (runs.losses run)) fun _ => Fresh inputKeys) (order request.inputs.tasks)
      (Holds runs files losses (fun live => Clean runs (runs.losses run) live ∧ (keep = false → Clean runs (runs.files run) live))
        (Entering runs run)) := by
  have tasks : request.inputs.tasks = (getInputsGenerationTasks request.queue request.lookupChunks).map Prod.snd := rfl
  rw [tasks,getInputsGenerationTasks]
  refine order_keeps (prepareParams_spec.keeps files_mine (fun _ _ _ _ fresh => fresh) input_steady) ?_
  refine order_keeps ((refs_spec (by decide) hook_body).keeps files_mine (refs_grows _) input_steady) ?_
  refine order_keeps (chunks_keep (fun _ _ => refs_spec (by decide) keysChunk_body) (refs_spec (by decide) collect_body)
    files_mine (refs_grows _) (refs_grows _) input_steady) ?_
  refine order_keeps ((refs_spec (by decide) write_body).keeps files_mine (refs_grows _) input_steady) ?_
  refine order_keeps (record_spec.keeps files_mine recorded_grows input_steady) ?_
  exact order_keeps cleanupInput_keeps .skip

theorem losses_keep (request : Request) :
    Keeps (effects runs run keep files losses lookupChunks) (Confined runs.own run)
      (Holds runs files losses (fun live => keep = false → Clean runs (runs.files run) live) (Entering runs run))
      (order request.losses.tasks)
      (fun live _ => keep = false → Clean runs (runs.files run) live ∧ Clean runs (runs.losses run) live) := by
  have tasks : request.losses.tasks = (getLossGenerationTasks request.queue request.lossChunks).map Prod.snd := rfl
  rw [tasks,getLossGenerationTasks]
  refine order_keeps (prepareLosses_spec.keeps losses_mine entering_grows loss_steady) ?_
  refine order_keeps ((loss_refs_spec (by decide) directory_body).keeps losses_mine (refs_grows _) loss_steady) ?_
  refine order_keeps (chunks_keep (fun _ _ => loss_refs_spec (by decide) lossesChunk_body)
    (loss_refs_spec (by decide) output_body) losses_mine (refs_grows _) (refs_grows _) loss_steady) ?_
  refine order_keeps (recordLosses_spec.keeps losses_mine (refs_grows _) loss_steady) ?_
  exact order_keeps cleanupLosses_keeps .skip

/-- Before the first task of a run. -/
structure Starts (runs : Runs ρ) (run : ρ) (files : KeysKwargs) (losses : LossKwargs) (live : String → Prop)
    (given : List Params) : Prop where
  given : given = [LossInputs.Params.empty]
  served : Served runs files losses live
  none : ∀ key, runs.own run key → ¬ live key

/-- A run finds what it reads, and has left nothing in its directories at its end, unless
    the data is to be kept. -/
theorem canvas_keeps {celery : Celery} (documented : Documented celery) (request : Request) (method : Method) :
    Keeps (effects runs run keep files losses request.lookupChunks) (Confined runs.own run) (Starts runs run files losses)
      (flow (canvas celery request method)) (fun live _ => keep = false → ∀ key, runs.own run key → ¬ live key) := by
  have inputs : Keeps (effects runs run keep files losses request.lookupChunks) (Confined runs.own run)
      (Starts runs run files losses) (order request.inputs.tasks) (Holds runs files losses (fun live =>
        Clean runs (runs.losses run) live ∧ (keep = false → Clean runs (runs.files run) live)) (Entering runs run)) := by
    refine (inputs_keep request).weaken (fun live given starts => ?_) fun _ _ holds => holds
    refine ⟨starts.served,fun key there inside => starts.none key (losses_mine key inside) there,fun p listed => ?_⟩
    rw [starts.given] at listed
    obtain rfl := List.mem_singleton.mp listed
    exact fun _ _ => rfl
  have leaves {live : String → Prop} (files : Clean runs (runs.files run) live) (losses : Clean runs (runs.losses run) live)
      (key : String) (own : runs.own run key) (there : live key) : False := own.elim (files key there) (losses key there)
  cases method with
  | generateInputs =>
    rw [canvas,createStageChain,createChain_order documented]
    exact inputs.weaken (fun _ _ starts => starts) fun _ _ holds drops => leaves (holds.clean.2 drops) holds.clean.1
  | generateLosses =>
    rw [canvas,createStageChain,createChain_order documented]
    refine (losses_keep request).weaken (fun live given starts => ?_) fun _ _ clean drops =>
      leaves (clean drops).1 (clean drops).2
    refine ⟨starts.served,fun _ key there inside => starts.none key (files_mine key inside) there,fun p listed => ?_⟩
    rw [starts.given] at listed
    obtain rfl := List.mem_singleton.mp listed
    exact ⟨fun _ _ => rfl,refs_of_absent fun _ _ => rfl,by simp [LossInputs.Params.empty]⟩
  | generateInputAndLosses =>
    rw [canvas,createStageChain,createStageChain,joinStageChains_order documented]
    refine inputs.append ((losses_keep request).weaken (fun live given holds => ?_) fun _ _ clean drops =>
      leaves (clean drops).1 (clean drops).2)
    exact ⟨holds.served,holds.clean.2,holds.refs⟩

/-- A run that is requested, and the settings of its workers. -/
structure Job where
  keepRemoteData : Bool
  files : KeysKwargs
  losses : LossKwargs
  request : Request
  method : Method

variable {job : Job}

/-- What may still happen after a task has failed: other chunks are under way, and the worker
    handles the failure. -/
inductive Leftover (runs : Runs ρ) (run : ρ) (job : Job) : Event String → Prop where
  | chunk {attempt : StoreAttempt} {task slug queue : String} {chunkIdx numChunks : Nat} {given : List Params}
      {event : Event String} (fits : Fits runs run job.keepRemoteData attempt)
      (one : task = "prepare_keys_file_chunk" ∨ task = "generate_losses_chunk")
      (listed : event ∈ attemptEvents runs.location job.files job.losses job.request.lookupChunks attempt
        ⟨task,slug,queue,[chunkIdx,numChunks]⟩ given) : Leftover runs run job event
  | handler {failure : Failure} {slug : String} {taskParams : Params} {event : Event String}
      (placed : ∀ reference ∈ failure.stored, Placed (AtRoot runs.location) reference)
      (subdir : ∀ text, taskParams "storage_subdir" = some (.string text) → text = runs.files run ∨ text = runs.losses run)
      (listed : event ∈ handleTaskFailure runs.location job.keepRemoteData failure slug taskParams) :
      Leftover runs run job event

/-- The events of a run: those of its canvas, to its end, to some point or to a failure, and
    those after the failure. -/
structure Course (celery : Celery) (runs : Runs ρ) (run : ρ) (job : Job) (events : List (Event String)) where
  trace : List (Event String)
  outcome : Option (List Params)
  traced : Trace (effects runs run job.keepRemoteData job.files job.losses job.request.lookupChunks)
    (flow (canvas celery job.request job.method)) [LossInputs.Params.empty] trace outcome
  rest : List (Event String)
  leftover : ∀ event ∈ rest, Leftover runs run job event
  completed : outcome.isSome → rest = []
  whole : events = trace ++ rest

theorem plain_within {subdir : String} (mine : ∀ key, runs.within subdir key → runs.own run key) {event : Event String}
    (plain : Plain runs subdir event) : Within runs.own run event := by
  cases event with
  | read _ => trivial
  | put key => exact plain.imp (mine key) id
  | delete _ => exact plain.elim

theorem handler_within {failure : Failure} {slug : String} {taskParams : Params} {event : Event String}
    (placed : ∀ reference ∈ failure.stored, Placed (AtRoot runs.location) reference)
    (subdir : ∀ text, taskParams "storage_subdir" = some (.string text) → text = runs.files run ∨ text = runs.losses run)
    (listed : event ∈ handleTaskFailure runs.location keep failure slug taskParams) : Within runs.own run event := by
  rcases List.mem_append.mp listed with put | delete
  · obtain ⟨reference,among,inside⟩ := failure_puts put
    obtain ⟨known,same,rfl⟩ := putOf_text inside
    exact .inr (root_outside (placed reference among known same))
  · split at delete
    · cases delete
    · rw [Params.get] at delete
      cases value : taskParams "storage_subdir" with
      | none =>
        rw [value] at delete
        cases delete
      | some json =>
        rw [value,Option.getD_some] at delete
        cases json with
        | string text =>
          obtain rfl := List.mem_singleton.mp delete
          intro key gone
          rcases subdir text value with rfl | rfl
          · exact files_mine key gone
          · exact losses_mine key gone
        | _ => cases delete

theorem leftover_within {event : Event String} (leftover : Leftover runs run job event) : Within runs.own run event := by
  cases leftover with
  | chunk fits one listed =>
    rcases one with rfl | rfl
    · exact plain_within files_mine ((refs_spec (by decide) keysChunk_body).plain _ fits _ _ listed)
    · exact plain_within losses_mine ((loss_refs_spec (by decide) lossesChunk_body).plain _ fits _ _ listed)
  | handler placed subdir listed => exact handler_within placed subdir listed

theorem Course.allowed {celery : Celery} (documented : Documented celery) {events : List (Event String)}
    (course : Course celery runs run job events) (served : Served runs job.files job.losses live)
    (none : ∀ key, runs.own run key → ¬ live key) : Allowed (Confined runs.own run) live course.trace :=
  (canvas_keeps documented job.request job.method live _ ⟨rfl,served,none⟩ course.trace course.outcome course.traced).1

theorem Course.within {celery : Celery} (documented : Documented celery) {events : List (Event String)}
    (course : Course celery runs run job events) (served : Served runs job.files job.losses live)
    (none : ∀ key, runs.own run key → ¬ live key) : ∀ event ∈ events, Within runs.own run event := by
  intro event listed
  rw [course.whole] at listed
  rcases List.mem_append.mp listed with traced | left
  · exact within_of_allowed (course.allowed documented served none) event traced
  · exact leftover_within (course.leftover event left)

/-- Among any other runs, a run finds whatever it reads, up to a failure of its own; at its
    end nothing is left in its directories, unless the data is to be kept; and neither its tasks
    nor the worker's handling of a failure delete what is outside the directories, such as
    results and files of the server. -/
theorem references_found [DecidableEq ρ] (celery : Celery) (documented : Documented celery) (runs : Runs ρ) (jobs : ρ → Job)
    (live : String → Prop) (served : ∀ run, Served runs (jobs run).files (jobs run).losses live)
    (none : ∀ run key, runs.own run key → ¬ live key) (events : List (ρ × Event String))
    (courses : ∀ run, Course celery runs run (jobs run) (project run events)) :
    (∀ before run key, before ++ [(run,.read key)] <+: events →
        project run before ++ [.read key] <+: (courses run).trace → afterAll live (before.map Prod.snd) key) ∧
      (∀ run, (courses run).outcome.isSome → (jobs run).keepRemoteData = false → ∀ key, runs.own run key →
        ¬ afterAll live (events.map Prod.snd) key) ∧
      ∀ before rest key, events = before ++ rest → runs.Outside key → afterAll live (before.map Prod.snd) key →
        afterAll live (events.map Prod.snd) key := by
  have within : ∀ entry ∈ events, Within runs.own entry.1 entry.2 := fun entry listed =>
    (courses entry.1).within documented (served entry.1) (none entry.1) entry.2 (mem_project.mpr listed)
  refine ⟨fun before run key part first => ?_,fun run completed drops key own there => ?_,
    fun before rest key whole outside there => ?_⟩
  · obtain ⟨rest,rfl⟩ := part
    refine found_alone own_apart (fun entry listed => within entry ?_)
      ((courses run).allowed documented (served run) (none run)) first
    exact List.mem_append_left _ (List.mem_append_left _ listed)
  · have alone := ((runs_agree own_apart within).mine run key own).mp there
    rw [(courses run).whole,(courses run).completed completed,List.append_nil] at alone
    obtain ⟨results,ended⟩ := Option.isSome_iff_exists.mp completed
    have left := (canvas_keeps documented (jobs run).request (jobs run).method live _ ⟨rfl,served run,none run⟩
      (courses run).trace (courses run).outcome (courses run).traced).2 results ended
    exact left drops key own alone
  · subst whole
    rw [List.map_append,afterAll_append]
    refine outside_kept (fun event listed => ?_) outside there
    obtain ⟨entry,member,rfl⟩ := List.mem_map.mp listed
    exact ⟨entry.1,within entry (List.mem_append_right _ member)⟩

/-- The nodes of two runs. -/
def nodes (run : Bool) : Run := ⟨"/tmp/run",1,if run then "a" else "b",if run then "c" else "d",false⟩

def twoRuns : Runs Bool := .ofNodes "" nodes (by decide) (by decide) (by decide)

/-- The location file of both runs. -/
def located : KeysKwargs := { locFile := some "location" }

def twoJobs (_ : Bool) : Job := ⟨false,located,{},twoChunks,.generateInputAndLosses⟩

/-- An object of a directory. -/
def small (dir : String) : Reference where
  text := joinPath dir "object"
  nonempty := by
    rw [RunPaths.joinPath_relative dir (by decide)]
    exact fun none => absurd (String.append_eq_empty_iff.mp none).2 (by decide)

theorem small_placed {placed : Reference → Prop} {dir : String} (holds : placed (small dir)) :
    Placed placed (some (small dir)) := fun _ same => Option.some.inj same ▸ holds

/-- An attempt of a model without a hook, on a file store that returns references. -/
def storing (run : Bool) : StoreAttempt where
  toInputAttempt := { RunsProceed.plain with
    node := nodes run
    sarChunk := fun _ => some (small (remoteSubdir "" (nodes run).filesSubdir))
    chunkKeys := some (small (remoteSubdir "" (nodes run).filesSubdir))
    keysData := some (small (remoteSubdir "" (nodes run).filesSubdir))
    runLocation := some (small (remoteSubdir "" (nodes run).lossesSubdir))
    chunkWorkLocation := some (small (remoteSubdir "" (nodes run).lossesSubdir))
    chunkLogLocation := some (small (remoteSubdir "" (nodes run).lossesSubdir))
    outputLocation := some (small "")
    runLogs := some (small "")
    logLocation := some (small "")
    written := ⟨none,none,none,none,some (small ""),none,none⟩ }
  present := fun _ => false
  keepRemoteData := false

theorem storing_fits (run : Bool) : Fits twoRuns run false (storing run) := by
  have inFiles : InSubdir "" (twoRuns.files run) (small (remoteSubdir "" (nodes run).filesSubdir)) := ⟨"object",by decide,rfl⟩
  have inLosses : InSubdir "" (twoRuns.losses run) (small (remoteSubdir "" (nodes run).lossesSubdir)) :=
    ⟨"object",by decide,rfl⟩
  have atRoot : AtRoot "" (small "") := ⟨"object",by decide,rfl⟩
  have none {placed : Reference → Prop} : Placed placed none := fun _ same => nomatch same
  refine ⟨rfl,rfl,rfl,fun _ => none,fun _ => small_placed inFiles,small_placed inFiles,small_placed inFiles,
    small_placed inLosses,small_placed inLosses,small_placed inLosses,small_placed atRoot,small_placed atRoot,
    small_placed atRoot,?_,fun _ _ => rfl,fun params key listed => ?_,fun _ _ _ => .inr rfl⟩
  · intro reference listed
    simp only [storing,List.mem_cons,List.not_mem_nil,or_false] at listed
    rcases listed with rfl | rfl | rfl | rfl | rfl | rfl
    · exact none
    · exact none
    · exact none
    · exact none
    · exact small_placed atRoot
    · exact none
  · by_cases split : key = "sar_chunks"
    · subst split
      exact .inl (RunsProceed.plain_works.filesOwn params)
    · exact .inr (Function.update_of_ne split ..)

theorem storing_works (run : Bool) : RunParameters.Works (storing run).toInputAttempt where
  stores := rfl
  sarChunk := fun _ => rfl
  chunkKeys := rfl
  fileNames := RunsProceed.plain_works.fileNames
  outputLocation := rfl
  config := fun _ _ => .absent
  filesPaths := RunsProceed.plain_works.filesPaths
  filesOwn := RunsProceed.plain_works.filesOwn
  lossesPaths := fun _ paths => paths

/-- The events of a run to its end. -/
theorem completes (run : Bool) : ∃ events result, Trace (effects twoRuns run false located {} twoChunks.lookupChunks)
    (flow (canvas reference twoChunks .generateInputAndLosses)) [LossInputs.Params.empty] events (some [result]) := by
  obtain ⟨result,ends⟩ := (RunsProceed.tasks_proceed reference reference_documented located {} twoChunks (by decide) (by decide)
    .generateInputAndLosses).2 (fun _ => (storing run).toInputAttempt) fun _ => storing_works run
  have does : ∀ signature given result, perform located twoChunks.lookupChunks (storing run).toInputAttempt signature given =
      some result →
        ∃ events, (effects twoRuns run false located {} twoChunks.lookupChunks).returns signature given events result :=
    fun _ _ _ returned => ⟨_,storing run,storing_fits run,returned,rfl⟩
  obtain ⟨events,trace⟩ := trace_of_ends does ends
  exact ⟨events,result,trace⟩

/-- The events of two runs in turn. -/
def inTurn {κ : Type} : List κ → List κ → List (Bool × κ)
  | [],others => others.map (Prod.mk false)
  | event :: rest,[] => (event :: rest).map (Prod.mk true)
  | event :: rest,other :: others => (true,event) :: (false,other) :: inTurn rest others

theorem project_inTurn (one other : List (Event String)) :
    project true (inTurn one other) = one ∧ project false (inTurn one other) = other := by
  fun_induction inTurn one other with
  | case1 others => simp [project,List.filter_map,Function.comp_def]
  | case2 event rest => simp [project,List.filter_map,Function.comp_def]
  | case3 event rest other others ih => simpa [project] using ih

theorem location_outside : twoRuns.Outside "location" :=
  @root_outside _ twoRuns ⟨"location",by decide⟩ ⟨"location",by decide,rfl⟩

theorem location_served (run : Bool) : Served twoRuns (twoJobs run).files (twoJobs run).losses (· = "location") := by
  intro key listed
  obtain rfl : key = "location" := by simpa [serverKeys,twoJobs,located,text] using listed
  exact ⟨rfl,location_outside⟩

/-- Two runs that complete, in turn. Both find what they read, and their location file is still
    there at the end. -/
theorem references_found_two : ∃ (events : List (Bool × Event String))
    (courses : ∀ run, Course reference twoRuns run (twoJobs run) (project run events)),
    (∀ run, (courses run).outcome.isSome) ∧
      (∀ before run key, before ++ [(run,.read key)] <+: events → afterAll (· = "location") (before.map Prod.snd) key) ∧
      (∀ run key, twoRuns.own run key → ¬ afterAll (· = "location") (events.map Prod.snd) key) ∧
      afterAll (· = "location") (events.map Prod.snd) "location" := by
  choose events result traces using completes
  have own (run : Bool) : project run (inTurn (events true) (events false)) = events run := by
    cases run with
    | true => exact (project_inTurn _ _).1
    | false => exact (project_inTurn _ _).2
  let courses (run : Bool) : Course reference twoRuns run (twoJobs run) (project run (inTurn (events true) (events false))) :=
    ⟨events run,some [result run],traces run,[],fun _ listed => absurd listed List.not_mem_nil,fun _ => rfl,
      (own run).trans (List.append_nil _).symm⟩
  obtain ⟨found,cleaned,kept⟩ := references_found reference reference_documented twoRuns twoJobs (· = "location")
    location_served (fun run key mine there => location_outside run (there ▸ mine)) _ courses
  have start := kept [] _ "location" (List.nil_append _).symm location_outside rfl
  refine ⟨_,courses,fun run => rfl,fun before run key part => ?_,fun run => cleaned run rfl rfl,start⟩
  refine found before run key part ?_
  show project run before ++ [.read key] <+: events run
  have prefixed := (part.filter (·.1 = run)).map Prod.snd
  rw [← own run]
  simpa [project] using prefixed

end OasisPlatform.ReferencesFound
