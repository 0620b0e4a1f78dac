import OasisPlatform.Dictionaries
import OasisPlatform.StageSlugs

/-!
The logs of the steps of an input generation. Each task stores its log and registers it
under its slug; the chunks do so in copies of one dictionary, which `collect_keys` merges.
When `write_input_files` collects the logs, it has the one that each task stored, under
names that differ (`step_logs_collected`).
-/
namespace OasisPlatform.StepLogs
open OasisPlatform.Dictionaries OasisPlatform.SubTasks OasisPlatform.StageSlugs
set_option linter.unusedSimpArgs false

variable {ρ : Type}

/-- `log_storage`: by slug, the references of the logs in the file store. -/
abbrev LogStorage (ρ : Type) := List (String × ρ)

/-- What a task is given and returns, as far as its logs and the keys depend on it. -/
structure Params (ρ : Type) where
  logLocation : Option ρ := none
  logStorage : Option (LogStorage ρ) := none
  chunkKeys : Option ρ := none
  keysData : Option ρ := none

/-- The references of the log and of the archive that a task stores. -/
structure Stored (ρ : Type) where
  log : ρ
  archive : ρ

/-- What the attempt of each task that returns has stored, none where all of them raise. -/
abbrev Attempts (ρ : Type) := String → Option (Stored ρ)

/-- `params['log_storage'][slug] = params['log_location']`, none for a `KeyError`. -/
def registerLog (slug : String) (log : ρ) (params : Params ρ) : Option (Params ρ) := do
  let storage ← params.logStorage
  some { params with logLocation := some log, logStorage := some (put storage slug log) }

def prepareInputGenerationParams (attempts : Attempts ρ) (slug : String) (params : Params ρ) : Option (Params ρ) := do
  let stored ← attempts slug
  registerLog slug stored.log { params with logStorage := some [] }

def preAnalysisHook (attempts : Attempts ρ) (slug : String) (params : Params ρ) : Option (Params ρ) := do
  let stored ← attempts slug
  registerLog slug stored.log params

def prepareKeysFileChunk (attempts : Attempts ρ) (slug : String) (params : Params ρ) : Option (Params ρ) := do
  let stored ← attempts slug
  registerLog slug stored.log { params with chunkKeys := some stored.archive }

def mergeChunkLogStorage (chunkResults : List (Params ρ)) : LogStorage ρ :=
  chunkResults.foldl (fun merged chunk => merge merged (chunk.logStorage.getD [])) []

/-- Keeps the parameters of the first chunk, without its keys. -/
def collectKeys (attempts : Attempts ρ) (slug : String) (params : List (Params ρ)) : Option (Params ρ) := do
  let first ← params.head?
  let _ ← params.mapM (·.chunkKeys)
  let stored ← attempts slug
  registerLog slug stored.log
    { first with chunkKeys := none, logStorage := some (mergeChunkLogStorage params), keysData := some stored.archive }

/-- The dictionary that `write_input_files` goes through, and the files that it writes to
    the log directory. -/
structure Collected (ρ : Type) where
  logStorage : LogStorage ρ
  files : List (String × ρ)

def logFile (logRef : String) : String := s!"v2-{logRef}.txt"

def writeInputFiles (attempts : Attempts ρ) (slug : String) (params : Params ρ) : Option (Collected ρ) := do
  let _ ← params.keysData
  let stored ← attempts slug
  let params ← registerLog slug stored.log params
  let storage ← params.logStorage
  some ⟨storage,storage.map fun entry => (logFile entry.1,entry.2)⟩

/-- The tasks that the controller chains, by their slugs, up to the collection of the logs.
    The header of the chord has one task for each chunk, and each of them gets a copy of
    what the hook returned. -/
def generateInputs (attempts : Attempts ρ) (steps : List String) (numChunks : Nat) (params : Params ρ) :
    Option (Collected ρ) :=
  match steps with
  | prepare :: hook :: chord => do
    let params ← prepareInputGenerationParams attempts prepare params
    let params ← preAnalysisHook attempts hook params
    let chunks ← (chord.take numChunks).mapM fun chunk => prepareKeysFileChunk attempts chunk params
    match chord.drop numChunks with
    | collect :: write :: _ => do
      let params ← collectKeys attempts collect chunks
      writeInputFiles attempts write params
    | _ => none
  | _ => none

def chunkSlugs (numChunks : Nat) : List String := (List.range numChunks).map (chunkSlug "prepare-keys-file")

def stepSlugs (numChunks : Nat) : List String :=
  ["prepare-input-generation-params","pre-analysis-hook"] ++ chunkSlugs numChunks ++ ["collect-keys","write-input-files"]

theorem stepSlugs_nodup (numChunks : Nat) : (stepSlugs numChunks).Nodup :=
  around_chunks_nodup numChunks (by decide) (by decide)

section Run
variable {attempts : Attempts ρ} {stored : String → Stored ρ}

/-- The entries of the steps, in the order in which they register them. -/
def entries (stored : String → Stored ρ) (slugs : List String) : LogStorage ρ :=
  slugs.map fun slug => (slug,(stored slug).log)

@[simp] theorem keys_entries (stored : String → Stored ρ) (slugs : List String) : keys (entries stored slugs) = slugs := by
  simp [keys,entries,Function.comp_def]

theorem entries_append (stored : String → Stored ρ) (slugs others : List String) :
    entries stored (slugs ++ others) = entries stored slugs ++ entries stored others := List.map_append

theorem registerLog_entries (stored : String → Stored ρ) {slugs : List String} {slug : String} (fresh : slug ∉ slugs)
    (params : Params ρ) (storage : params.logStorage = some (entries stored slugs)) :
    registerLog slug (stored slug).log params = some { params with
      logLocation := some (stored slug).log, logStorage := some (entries stored (slugs ++ [slug])) } := by
  have absent : slug ∉ keys (entries stored slugs) := by rwa [keys_entries]
  have added : put (entries stored slugs) slug (stored slug).log = entries stored (slugs ++ [slug]) :=
    (put_new absent _).trans (entries_append stored slugs [slug]).symm
  rw [registerLog,storage,Option.bind_eq_bind,Option.bind_some,added]

/-- What the task of a chunk returns. -/
def chunkResult (stored : String → Stored ρ) (slugs : List String) (params : Params ρ) (slug : String) : Params ρ :=
  { params with
    chunkKeys := some (stored slug).archive
    logLocation := some (stored slug).log
    logStorage := some (entries stored (slugs ++ [slug])) }

theorem prepareKeysFileChunk_entries {slugs : List String} {slug : String} (fresh : slug ∉ slugs) {params : Params ρ}
    (storage : params.logStorage = some (entries stored slugs)) (returned : attempts slug = some (stored slug)) :
    prepareKeysFileChunk attempts slug params = some (chunkResult stored slugs params slug) := by
  rw [prepareKeysFileChunk,returned,Option.bind_eq_bind,Option.bind_some]
  exact registerLog_entries stored fresh _ storage

/-- Each chunk adds its own entry to those that all of them have. -/
theorem foldl_merge_entries (slugs : List String) (params : Params ρ) {chunks seen : List String}
    (distinct : (slugs ++ seen ++ chunks).Nodup) :
    (chunks.map (chunkResult stored slugs params)).foldl (fun merged chunk => merge merged (chunk.logStorage.getD []))
      (entries stored (slugs ++ seen)) = entries stored (slugs ++ seen ++ chunks) := by
  induction chunks generalizing seen with
  | nil => simp
  | cons chunk rest ih =>
    have grown : slugs ++ seen ++ chunk :: rest = slugs ++ (seen ++ [chunk]) ++ rest := by simp
    have distinct' : (slugs ++ (seen ++ [chunk]) ++ rest).Nodup := grown ▸ distinct
    have added : merge (entries stored (slugs ++ seen)) ((chunkResult stored slugs params chunk).logStorage.getD []) =
        entries stored (slugs ++ (seen ++ [chunk])) := by
      have first : (keys (entries stored (slugs ++ seen) ++ entries stored [chunk])).Nodup := by
        rw [← entries_append,keys_entries,List.append_assoc]
        exact distinct'.of_append_left
      change merge _ (entries stored (slugs ++ [chunk])) = _
      rw [entries_append stored slugs [chunk],merge_append first,← entries_append,List.append_assoc]
      intro entry listed
      rw [entries_append]
      exact List.mem_append_left _ listed
    rw [List.map_cons,List.foldl_cons,added,grown]
    exact ih distinct'

theorem mergeChunkLogStorage_entries (stored : String → Stored ρ) (slugs : List String) (params : Params ρ)
    {chunks : List String} (some_chunk : chunks ≠ []) (distinct : (slugs ++ chunks).Nodup) :
    mergeChunkLogStorage (chunks.map (chunkResult stored slugs params)) = entries stored (slugs ++ chunks) := by
  obtain ⟨chunk,rest,rfl⟩ := List.exists_cons_of_ne_nil some_chunk
  have grown : slugs ++ chunk :: rest = slugs ++ [chunk] ++ rest := by simp
  rw [grown] at distinct ⊢
  have first : merge [] ((chunkResult stored slugs params chunk).logStorage.getD []) =
      entries stored (slugs ++ [chunk]) := by
    have own : (keys ([] ++ entries stored (slugs ++ [chunk]))).Nodup := by
      rw [List.nil_append,keys_entries]
      exact distinct.of_append_left
    exact (merge_new own).trans (List.nil_append _)
  rw [mergeChunkLogStorage,List.map_cons,List.foldl_cons,first]
  exact foldl_merge_entries slugs params distinct

theorem mapM_some {α β : Type} {f : α → Option β} {g : α → β} {items : List α}
    (each : ∀ item ∈ items, f item = some (g item)) : items.mapM f = some (items.map g) := by
  induction items with
  | nil => rfl
  | cons item rest ih =>
    rw [List.mapM_cons,each item List.mem_cons_self,ih fun other listed => each other (List.mem_cons_of_mem _ listed)]
    rfl

theorem chunks_return {slugs chunks : List String} (distinct : (slugs ++ chunks).Nodup) (params : Params ρ)
    (storage : params.logStorage = some (entries stored slugs))
    (returned : ∀ chunk ∈ chunks, attempts chunk = some (stored chunk)) :
    chunks.mapM (fun chunk => prepareKeysFileChunk attempts chunk params) =
      some (chunks.map (chunkResult stored slugs params)) := by
  refine mapM_some fun chunk listed => prepareKeysFileChunk_entries ?_ storage (returned chunk listed)
  exact fun early => List.disjoint_of_nodup_append distinct early listed

theorem generateInputs_eq (attempts : Attempts ρ) (queue : String) (numChunks : Nat) (params : Params ρ) :
    generateInputs attempts (slugs (inputsGenerationTasks queue numChunks)) numChunks params = (do
      let params ← prepareInputGenerationParams attempts "prepare-input-generation-params" params
      let params ← preAnalysisHook attempts "pre-analysis-hook" params
      let chunks ← (chunkSlugs numChunks).mapM fun chunk => prepareKeysFileChunk attempts chunk params
      let params ← collectKeys attempts "collect-keys" chunks
      writeInputFiles attempts "write-input-files" params) := by
  have size : (chunkSlugs numChunks).length = numChunks := by simp [chunkSlugs]
  have head : (chunkSlugs numChunks ++ ["collect-keys","write-input-files","record-input-files",
      "cleanup-input-generation"]).take numChunks = chunkSlugs numChunks := List.take_left' size
  have tail : (chunkSlugs numChunks ++ ["collect-keys","write-input-files","record-input-files",
      "cleanup-input-generation"]).drop numChunks = ["collect-keys","write-input-files","record-input-files",
      "cleanup-input-generation"] := List.drop_left' size
  rw [inputsGeneration_slugs,List.append_assoc]
  change generateInputs attempts ("prepare-input-generation-params" :: "pre-analysis-hook" ::
    (chunkSlugs numChunks ++ ["collect-keys","write-input-files","record-input-files","cleanup-input-generation"]))
      numChunks params = _
  unfold generateInputs
  simp only [head,tail]

/-- What the hook returns. -/
def hookResult (stored : String → Stored ρ) (params : Params ρ) : Params ρ :=
  { params with
    logLocation := some (stored "pre-analysis-hook").log
    logStorage := some (entries stored ["prepare-input-generation-params","pre-analysis-hook"]) }

theorem hook_returns (params : Params ρ)
    (prepare : attempts "prepare-input-generation-params" = some (stored "prepare-input-generation-params"))
    (hook : attempts "pre-analysis-hook" = some (stored "pre-analysis-hook")) :
    (prepareInputGenerationParams attempts "prepare-input-generation-params" params).bind
      (preAnalysisHook attempts "pre-analysis-hook") = some (hookResult stored params) := by
  have fresh : "prepare-input-generation-params" ∉ ([] : List String) := by simp
  have first := registerLog_entries stored fresh { params with logStorage := some [] } rfl
  rw [prepareInputGenerationParams,prepare,Option.bind_eq_bind,Option.bind_some,first,Option.bind_some,preAnalysisHook,
    hook,Option.bind_eq_bind,Option.bind_some]
  have other : "pre-analysis-hook" ∉ ["prepare-input-generation-params"] := by decide
  exact registerLog_entries stored other _ rfl

theorem collectKeys_returns (slugs : List String) (params : Params ρ) {chunks : List String} (some_chunk : chunks ≠ [])
    (distinct : (slugs ++ chunks ++ ["collect-keys"]).Nodup)
    (returned : attempts "collect-keys" = some (stored "collect-keys")) :
    ∃ collected : Params ρ, collectKeys attempts "collect-keys" (chunks.map (chunkResult stored slugs params)) =
        some collected ∧ collected.keysData.isSome ∧
      collected.logStorage = some (entries stored (slugs ++ chunks ++ ["collect-keys"])) := by
  have fresh : "collect-keys" ∉ slugs ++ chunks := fun listed =>
    List.disjoint_of_nodup_append distinct listed (List.mem_singleton_self _)
  have merged := mergeChunkLogStorage_entries stored slugs params some_chunk distinct.of_append_left
  have keys : (chunks.map (chunkResult stored slugs params)).mapM (·.chunkKeys) =
      some (chunks.map fun chunk => (stored chunk).archive) := by
    rw [List.mapM_map]
    exact mapM_some fun _ _ => rfl
  obtain ⟨chunk,rest,rfl⟩ := List.exists_cons_of_ne_nil some_chunk
  have registered := registerLog_entries stored fresh {
    chunkResult stored slugs params chunk with
      chunkKeys := none
      logStorage := some (mergeChunkLogStorage ((chunk :: rest).map (chunkResult stored slugs params)))
      keysData := some (stored "collect-keys").archive } (congrArg some merged)
  have first : ((chunk :: rest).map (chunkResult stored slugs params)).head? =
      some (chunkResult stored slugs params chunk) := rfl
  exact ⟨_,by simpa only [collectKeys,first,Option.bind_eq_bind,Option.bind_some,returned,keys] using registered,
    rfl,rfl⟩

/-- Where every step returns, the logs are collected in the order of the steps. -/
theorem generateInputs_entries (queue : String) {numChunks : Nat} (some_chunk : 1 ≤ numChunks) (params : Params ρ)
    (returned : ∀ slug ∈ stepSlugs numChunks, attempts slug = some (stored slug)) :
    generateInputs attempts (slugs (inputsGenerationTasks queue numChunks)) numChunks params =
      some ⟨entries stored (stepSlugs numChunks),
        (entries stored (stepSlugs numChunks)).map fun entry => (logFile entry.1,entry.2)⟩ := by
  have distinct := stepSlugs_nodup numChunks
  have whole : stepSlugs numChunks = ["prepare-input-generation-params","pre-analysis-hook"] ++ chunkSlugs numChunks ++
      ["collect-keys"] ++ ["write-input-files"] := by simp [stepSlugs]
  rw [whole] at distinct returned ⊢
  have chunks_distinct : (["prepare-input-generation-params","pre-analysis-hook"] ++ chunkSlugs numChunks).Nodup :=
    distinct.of_append_left.of_append_left
  have hooked := hook_returns params (returned _ (by simp)) (returned _ (by simp))
  have chunks := chunks_return chunks_distinct (hookResult stored params) rfl
    fun chunk listed => returned chunk (by simp [listed])
  have some_slug : chunkSlugs numChunks ≠ [] := by
    rw [chunkSlugs,Ne,List.map_eq_nil_iff,List.range_eq_nil]
    omega
  obtain ⟨collected,collects,keysData,storage⟩ := collectKeys_returns
    ["prepare-input-generation-params","pre-analysis-hook"] (hookResult stored params) some_slug distinct.of_append_left
    (returned "collect-keys" (by simp))
  obtain ⟨data,kept⟩ := Option.isSome_iff_exists.mp keysData
  have fresh : "write-input-files" ∉ ["prepare-input-generation-params","pre-analysis-hook"] ++ chunkSlugs numChunks ++
      ["collect-keys"] := fun listed => List.disjoint_of_nodup_append distinct listed (List.mem_singleton_self _)
  have written := registerLog_entries stored fresh collected storage
  rw [generateInputs_eq]
  simp only [Option.bind_eq_bind] at hooked ⊢
  rw [← Option.bind_assoc]
  change ((prepareInputGenerationParams attempts "prepare-input-generation-params" params).bind
    (preAnalysisHook attempts "pre-analysis-hook")).bind _ = _
  rw [hooked,Option.bind_some,chunks,Option.bind_some,collects,Option.bind_some,writeInputFiles,kept]
  simp only [Option.bind_eq_bind,Option.bind_some,returned "write-input-files" (by simp),written]

theorem mapM_isSome {α β : Type} {f : α → Option β} {items : List α} {results : List β}
    (ran : items.mapM f = some results) : ∀ item ∈ items, (f item).isSome := by
  induction items generalizing results with
  | nil => simp
  | cons item rest ih =>
    rw [List.mapM_cons] at ran
    simp only [Option.bind_eq_bind,Option.bind_eq_some_iff] at ran
    obtain ⟨first,head,others,tail,-⟩ := ran
    intro other listed
    rcases List.mem_cons.mp listed with rfl | later
    · exact Option.isSome_iff_exists.mpr ⟨first,head⟩
    · exact ih tail other later

/-- No step is left out of an input generation that succeeds. -/
theorem generateInputs_ran {queue : String} {numChunks : Nat} {params : Params ρ} {collected : Collected ρ}
    (succeeded : generateInputs attempts (slugs (inputsGenerationTasks queue numChunks)) numChunks params =
      some collected) : ∀ slug ∈ stepSlugs numChunks, (attempts slug).isSome := by
  rw [generateInputs_eq] at succeeded
  simp only [Option.bind_eq_bind,Option.bind_eq_some_iff] at succeeded
  obtain ⟨prepared,prepare,hooked,hook,chunks,ran,merged,collect,write⟩ := succeeded
  simp only [prepareInputGenerationParams,preAnalysisHook,collectKeys,writeInputFiles,Option.bind_eq_bind,
    Option.bind_eq_some_iff] at prepare hook collect write
  obtain ⟨first,prepare,-⟩ := prepare
  obtain ⟨second,hook,-⟩ := hook
  obtain ⟨-,-,-,-,third,collect,-⟩ := collect
  obtain ⟨-,-,fourth,write,-⟩ := write
  intro slug listed
  simp only [stepSlugs,List.mem_append,List.mem_cons,List.not_mem_nil,or_false] at listed
  rcases listed with ((rfl | rfl) | chunk) | rfl | rfl
  · exact Option.isSome_iff_exists.mpr ⟨first,prepare⟩
  · exact Option.isSome_iff_exists.mpr ⟨second,hook⟩
  · have returned := mapM_isSome ran slug chunk
    simp only [prepareKeysFileChunk,Option.bind_eq_bind] at returned
    exact Option.isSome_of_isSome_bind returned
  · exact Option.isSome_iff_exists.mpr ⟨third,collect⟩
  · exact Option.isSome_iff_exists.mpr ⟨fourth,write⟩

end Run

theorem logFile_injective {slug other : String} (same : logFile slug = logFile other) : slug = other := by
  have texts := congrArg String.toList same
  simp only [logFile,toString,String.toList_append,List.append_assoc,List.append_cancel_left_eq,
    List.append_cancel_right_eq] at texts
  exact String.toList_injective texts

theorem stored_of_isSome {attempts : Attempts ρ} {slugs : List String} (some_slug : slugs ≠ [])
    (returned : ∀ slug ∈ slugs, (attempts slug).isSome) :
    ∃ stored : String → Stored ρ, ∀ slug ∈ slugs, attempts slug = some (stored slug) := by
  obtain ⟨slug,listed⟩ := List.exists_mem_of_ne_nil slugs some_slug
  obtain ⟨first,-⟩ := Option.isSome_iff_exists.mp (returned slug listed)
  refine ⟨fun slug => (attempts slug).getD first,fun slug listed => ?_⟩
  obtain ⟨stored,ran⟩ := Option.isSome_iff_exists.mp (returned slug listed)
  simp [ran]

/-- The logs of an input generation that succeeds: one entry for each step, with the log
    that its task stored, and as many files of different names. It succeeds when all the
    steps return. -/
theorem step_logs_collected (attempts : Attempts ρ) (queue : String) (numChunks : Nat) (some_chunk : 1 ≤ numChunks)
    (params : Params ρ) :
    ((generateInputs attempts (slugs (inputsGenerationTasks queue numChunks)) numChunks params).isSome ↔
        ∀ slug ∈ stepSlugs numChunks, (attempts slug).isSome) ∧
      ∀ collected, generateInputs attempts (slugs (inputsGenerationTasks queue numChunks)) numChunks params =
          some collected →
        (keys collected.logStorage).Perm (stepSlugs numChunks) ∧ (stepSlugs numChunks).Nodup ∧
          (∀ slug ∈ stepSlugs numChunks, ∃ stored, attempts slug = some stored ∧
            find collected.logStorage slug = some stored.log ∧ (logFile slug,stored.log) ∈ collected.files) ∧
          (keys collected.files).Nodup := by
  have steps : stepSlugs numChunks ≠ [] := by simp [stepSlugs]
  constructor
  · constructor
    · intro succeeded
      obtain ⟨collected,ran⟩ := Option.isSome_iff_exists.mp succeeded
      exact generateInputs_ran ran
    · intro returned
      obtain ⟨stored,each⟩ := stored_of_isSome steps returned
      rw [generateInputs_entries queue some_chunk params each]
      rfl
  · intro collected ran
    obtain ⟨stored,each⟩ := stored_of_isSome steps (generateInputs_ran ran)
    rw [generateInputs_entries queue some_chunk params each,Option.some.injEq] at ran
    subst ran
    have distinct := stepSlugs_nodup numChunks
    have listed_entry (slug : String) (listed : slug ∈ stepSlugs numChunks) :
        (slug,(stored slug).log) ∈ entries stored (stepSlugs numChunks) := List.mem_map.mpr ⟨slug,listed,rfl⟩
    refine ⟨by rw [keys_entries],distinct,fun slug listed => ⟨stored slug,each slug listed,?_,?_⟩,?_⟩
    · exact find_of_mem (by rwa [keys_entries]) (listed_entry slug listed)
    · exact List.mem_map.mpr ⟨_,listed_entry slug listed,rfl⟩
    · have names : keys ((entries stored (stepSlugs numChunks)).map fun entry => (logFile entry.1,entry.2)) =
          (keys (entries stored (stepSlugs numChunks))).map logFile := by simp [keys,Function.comp_def]
      rw [names,keys_entries]
      exact distinct.map fun _ _ => logFile_injective

theorem step_logs_two_chunks :
    ((generateInputs (fun slug => some ⟨slug,slug⟩) (slugs (inputsGenerationTasks "model-v2" 2)) 2 {}).isSome ↔
        ∀ slug ∈ stepSlugs 2, ((fun slug => some ⟨slug,slug⟩ : Attempts String) slug).isSome) ∧
      ∀ collected, generateInputs (fun slug => some ⟨slug,slug⟩) (slugs (inputsGenerationTasks "model-v2" 2)) 2 {} =
          some collected →
        (keys collected.logStorage).Perm (stepSlugs 2) ∧ (stepSlugs 2).Nodup ∧
          (∀ slug ∈ stepSlugs 2, ∃ stored : Stored String,
            (fun slug => some ⟨slug,slug⟩ : Attempts String) slug = some stored ∧
            find collected.logStorage slug = some stored.log ∧ (logFile slug,stored.log) ∈ collected.files) ∧
          (keys collected.files).Nodup :=
  step_logs_collected (fun slug => some ⟨slug,slug⟩) "model-v2" 2 (by decide) {}

end OasisPlatform.StepLogs
