import OasisPlatform.InputGeneration

/-!
The two ways to the exposure of a lookup chunk. The hook splits every file it
modified, a chunk task takes a modified file only in place of one that the server
sent, so that the stored chunks are those that the task would split itself when the
hook modifies only what was sent (`presplit_agrees_iff`).
-/
namespace OasisPlatform.PreSplit
open OasisPlatform.ArrayOps OasisPlatform.PathText OasisPlatform.SubjectAtRisk OasisPlatform.InputGeneration
set_option linter.unusedSimpArgs false

variable {φ ι δ : Type}

section Prepared
variable {store : Storage φ ι δ} {kwargs : Kwargs} {pre : OedFile → Option StoreRef}

/-- The file of a source: sent by the server, or stored by the hook. -/
def sourceRef (kwargs : Kwargs) (pre : OedFile → Option StoreRef) : Source → OedFile → Option StoreRef
  | .raw => kwargs
  | .pre => pre

/-- Every file in the run directory is one of the run, as it was stored. -/
def Cached (store : Storage φ ι δ) (kwargs : Kwargs) (pre : OedFile → Option StoreRef) (node : Node φ) : Prop :=
  ∀ source file extension content, node (.run source file extension) = some content →
    ∃ ref, sourceRef kwargs pre source file = some ref ∧ ref.extension = extension ∧ store.getFile ref = some content

/-- The references that a task selects are those that its run has. -/
theorem getFileRef_source {params : Params} {file : OedFile} {ref : StoreRef} {source : Source}
    (known : ∀ file, params.preFile file = none ∨ params.preFile file = pre file)
    (selected : getFileRef kwargs params file = some (ref,source)) :
    sourceRef kwargs pre source file = some ref := by
  unfold getFileRef at selected
  cases sent : kwargs file with
  | none => simp [sent] at selected
  | some fromServer =>
    cases hooked : params.preFile file with
    | none =>
      simp only [sent,hooked,Option.some.injEq,Prod.mk.injEq] at selected
      obtain ⟨rfl,rfl⟩ := selected
      exact sent
    | some fromHook =>
      simp only [sent,hooked,Option.some.injEq,Prod.mk.injEq] at selected
      obtain ⟨rfl,rfl⟩ := selected
      rcases known file with absent | same
      · rw [hooked] at absent
        cases absent
      · rw [sourceRef,← same,hooked]

/-- A fetched file is there as it was stored, also when it was there before; the
    others stay. -/
theorem maybeFetchFile_spec {node node' : Node φ} {ref : StoreRef} {source : Source} {file : OedFile}
    (cached : Cached store kwargs pre node)
    (known : sourceRef kwargs pre source file = some ref)
    (fetched : maybeFetchFile store node ref (.run source file ref.extension) = some node') :
    Cached store kwargs pre node' ∧ (∀ path content, node path = some content → node' path = some content) ∧
      ∃ content, store.getFile ref = some content ∧ node' (.run source file ref.extension) = some content := by
  unfold maybeFetchFile at fetched
  split_ifs at fetched with present
  · cases fetched
    obtain ⟨content,here⟩ := Option.isSome_iff_exists.mp present
    obtain ⟨other,same,_,stored⟩ := cached _ _ _ _ here
    rw [known] at same
    cases same
    exact ⟨cached,fun _ _ kept => kept,content,stored,here⟩
  · obtain ⟨content,stored,rfl⟩ := Option.map_eq_some_iff.mp fetched
    refine ⟨?_,?_,content,stored,by simp⟩
    · intro source' file' extension content' here
      by_cases same : LocalPath.run source' file' extension = .run source file ref.extension
      · cases same
        simp only [Function.update_self,Option.some.injEq] at here
        exact ⟨ref,known,rfl,by rw [stored,here]⟩
      · rw [Function.update_of_ne same] at here
        exact cached _ _ _ _ here
    · intro path content' here
      have other : path ≠ .run source file ref.extension := by
        rintro rfl
        rw [here] at present
        exact present rfl
      rw [Function.update_of_ne other]
      exact here

/-- What preparing a task for some of the files does. -/
structure Prepares (store : Storage φ ι δ) (kwargs : Kwargs) (pre : OedFile → Option StoreRef) (files : List OedFile)
    (params : Params) (node : Node φ) (params' : Params) (node' : Node φ) : Prop where
  cached : Cached store kwargs pre node'
  keeps : ∀ path content, node path = some content → node' path = some content
  rest : params' = { params with oedCsv := params'.oedCsv }
  unsent : ∀ file, kwargs file = none ∨ file ∉ files → params'.oedCsv file = params.oedCsv file
  opened : ∀ file ∈ files, ∀ ref source, getFileRef kwargs params file = some (ref,source) →
    params'.oedCsv file = some (.run source file ref.extension) ∧
      ∃ content, store.getFile ref = some content ∧ node' (.run source file ref.extension) = some content

theorem Prepares.preFile_eq {files : List OedFile} {params params' : Params} {node node' : Node φ}
    (prepared : Prepares store kwargs pre files params node params' node') : params'.preFile = params.preFile := by
  rw [prepared.rest]

theorem Prepares.module_eq {files : List OedFile} {params params' : Params} {node node' : Node φ}
    (prepared : Prepares store kwargs pre files params node params' node') :
    params'.exposurePreAnalysisModule = params.exposurePreAnalysisModule := by
  rw [prepared.rest]

theorem Prepares.sarChunks_eq {files : List OedFile} {params params' : Params} {node node' : Node φ}
    (prepared : Prepares store kwargs pre files params node params' node') : params'.sarChunks = params.sarChunks := by
  rw [prepared.rest]

theorem prepareFile_prepares {params params' : Params} {node node' : Node φ} {file : OedFile}
    (cached : Cached store kwargs pre node)
    (known : ∀ file, params.preFile file = none ∨ params.preFile file = pre file)
    (prepared : prepareFile store kwargs (params,node) file = some (params',node')) :
    Prepares store kwargs pre [file] params node params' node' := by
  unfold prepareFile at prepared
  cases selected : getFileRef kwargs params file with
  | none =>
    simp only [selected,Option.some.injEq,Prod.mk.injEq] at prepared
    obtain ⟨rfl,rfl⟩ := prepared
    refine ⟨cached,fun _ _ kept => kept,rfl,fun _ _ => rfl,?_⟩
    intro other listed ref source chosen
    rw [List.mem_singleton.mp listed,selected] at chosen
    cases chosen
  | some choice =>
    obtain ⟨ref,source⟩ := choice
    simp only [selected,Option.bind_eq_bind,Option.bind_eq_some_iff,Option.some.injEq,Prod.mk.injEq] at prepared
    obtain ⟨fetchedNode,fetched,rfl,rfl⟩ := prepared
    obtain ⟨cached',keeps,content,stored,here⟩ :=
      maybeFetchFile_spec cached (getFileRef_source known selected) fetched
    refine ⟨cached',keeps,rfl,?_,?_⟩
    · intro other elsewhere
      have differ : other ≠ file := by
        rintro rfl
        rcases elsewhere with absent | outside
        · simp [getFileRef,absent] at selected
        · exact outside (List.mem_singleton.mpr rfl)
      exact Function.update_of_ne differ _ _
    · intro other listed ref' source' chosen
      rw [List.mem_singleton.mp listed] at chosen ⊢
      rw [selected] at chosen
      cases chosen
      exact ⟨Function.update_self _ _ _,content,stored,here⟩

/-- Preparing one more file: what is prepared before stays. -/
theorem Prepares.cons {file : OedFile} {files : List OedFile} {params mid params' : Params} {node between node' : Node φ}
    (fresh : file ∉ files) (first : Prepares store kwargs pre [file] params node mid between)
    (later : Prepares store kwargs pre files mid between params' node') :
    Prepares store kwargs pre (file :: files) params node params' node' := by
  have samePre := first.preFile_eq
  have sameRef : ∀ other, getFileRef kwargs mid other = getFileRef kwargs params other := by
    intro other
    unfold getFileRef
    rw [samePre]
  refine ⟨later.cached,fun path content kept => later.keeps path content (first.keeps path content kept),?_,?_,?_⟩
  · rw [later.rest,first.rest]
  · intro other elsewhere
    rw [later.unsent other (elsewhere.imp_right fun outside inside => outside (List.mem_cons_of_mem _ inside)),
      first.unsent other (elsewhere.imp_right fun outside inside => outside (by simp [List.mem_singleton.mp inside]))]
  · intro other listed ref source chosen
    rcases List.mem_cons.mp listed with rfl | inLater
    · obtain ⟨path,content,stored,here⟩ := first.opened other (by simp) ref source chosen
      refine ⟨?_,content,stored,later.keeps _ _ here⟩
      rw [later.unsent other (.inr fresh),path]
    · exact later.opened other inLater ref source (by rw [sameRef,chosen])

theorem prepareFiles_prepares {files : List OedFile} (distinct : files.Nodup) {params params' : Params}
    {node node' : Node φ} (cached : Cached store kwargs pre node)
    (known : ∀ file, params.preFile file = none ∨ params.preFile file = pre file)
    (prepared : files.foldlM (prepareFile store kwargs) (params,node) = some (params',node')) :
    Prepares store kwargs pre files params node params' node' := by
  induction files generalizing params node with
  | nil =>
    simp only [List.foldlM_nil,Option.pure_def,Option.some.injEq,Prod.mk.injEq] at prepared
    obtain ⟨rfl,rfl⟩ := prepared
    exact ⟨cached,fun _ _ kept => kept,rfl,fun _ _ => rfl,fun _ listed => by cases listed⟩
  | cons file files ih =>
    obtain ⟨fresh,distinct⟩ := List.nodup_cons.mp distinct
    rw [List.foldlM_cons,Option.bind_eq_bind,Option.bind_eq_some_iff] at prepared
    obtain ⟨⟨mid,between⟩,here,later⟩ := prepared
    have first := prepareFile_prepares cached known here
    refine first.cons fresh (ih distinct first.cached ?_ later)
    rw [first.preFile_eq]
    exact known

theorem prepareDirectories_prepares {params params' : Params} {node node' : Node φ}
    (cached : Cached store kwargs pre node)
    (known : ∀ file, params.preFile file = none ∨ params.preFile file = pre file)
    (prepared : prepareDirectories store kwargs params node = some (params',node')) :
    Prepares store kwargs pre oedFiles params node params' node' :=
  prepareFiles_prepares (by decide) cached known prepared

/-- Whatever tasks of the run a worker has prepared, its files are those of the
    run. -/
theorem workerNode_cached {node : Node φ} (worker : WorkerNode store kwargs pre node) :
    Cached store kwargs pre node := by
  induction worker with
  | fresh =>
    intro _ _ _ _ here
    cases here
  | task _ known prepared ih => exact (prepareDirectories_prepares ih known prepared).cached

theorem prepareFile_isSome {params : Params} (node : Node φ) {file : OedFile}
    (held : ∀ ref source, getFileRef kwargs params file = some (ref,source) → (store.getFile ref).isSome) :
    ∃ params' node', prepareFile store kwargs (params,node) file = some (params',node') ∧
      params'.preFile = params.preFile := by
  unfold prepareFile
  cases selected : getFileRef kwargs params file with
  | none => exact ⟨params,node,rfl,rfl⟩
  | some choice =>
    obtain ⟨ref,source⟩ := choice
    obtain ⟨content,stored⟩ := Option.isSome_iff_exists.mp (held ref source selected)
    have fetches : ∃ node', maybeFetchFile store node ref (.run source file ref.extension) = some node' := by
      unfold maybeFetchFile
      split_ifs
      · exact ⟨node,rfl⟩
      · exact ⟨_,by rw [stored]; rfl⟩
    obtain ⟨node',fetched⟩ := fetches
    refine ⟨{ params with oedCsv := Function.update params.oedCsv file (some (.run source file ref.extension)) },
      node',?_,rfl⟩
    simp [fetched]

/-- A task is prepared when all of the files that it selects are stored. -/
theorem prepareDirectories_isSome (params : Params) (node : Node φ)
    (held : ∀ file ref source, getFileRef kwargs params file = some (ref,source) → (store.getFile ref).isSome) :
    ∃ params' node', prepareDirectories store kwargs params node = some (params',node') := by
  unfold prepareDirectories
  generalize oedFiles = files
  induction files generalizing params node with
  | nil => exact ⟨params,node,rfl⟩
  | cons file files ih =>
    obtain ⟨mid,between,here,samePre⟩ := prepareFile_isSome node (held file)
    have held' : ∀ file ref source, getFileRef kwargs mid file = some (ref,source) → (store.getFile ref).isSome := by
      intro other ref source chosen
      apply held other ref source
      rw [← chosen]
      unfold getFileRef
      rw [samePre]
    obtain ⟨params',node',later⟩ := ih mid between held'
    exact ⟨params',node',by rw [List.foldlM_cons,here]; exact later⟩

end Prepared

/-- Each chunk is stored under a reference of its own, and nothing else changes. -/
theorem putChunks_spec {sarDf : List (SarRow ι δ)} {chunks : List (List Nat)} {store stored : Storage φ ι δ}
    {first : Nat} {refs : List StoreRef} (put : putChunks store sarDf first chunks = some (refs,stored)) :
    refs.length = chunks.length ∧
      (∀ (i : Nat) rows, chunks[i]? = some rows → ∃ ref, refs[i]? = some ref ∧ stored.readParquet ref = takeAt sarDf rows) ∧
      ∀ ref, (∀ n, first < n → ref ≠ .sarChunk n) → stored ref = store ref := by
  induction chunks generalizing store stored first refs with
  | nil =>
    simp only [putChunks,Option.some.injEq,Prod.mk.injEq] at put
    obtain ⟨rfl,rfl⟩ := put
    exact ⟨rfl,by simp,fun _ _ => rfl⟩
  | cons chunkRows rest ih =>
    simp only [putChunks,Option.bind_eq_bind,Option.bind_eq_some_iff,Option.some.injEq,Prod.mk.injEq] at put
    obtain ⟨chunkDf,taken,⟨refs',final⟩,later,rfl,same⟩ := put
    obtain rfl : final = stored := same
    obtain ⟨count,contents,others⟩ := ih later
    have here : final (.sarChunk (first + 1)) = some (.frame chunkDf) := by
      rw [others _ (fun n late => by rintro ⟨⟩; omega),Function.update_self]
    refine ⟨by simp [count],?_,?_⟩
    · intro i rows listed
      cases i with
      | zero =>
        simp only [List.getElem?_cons_zero,Option.some.injEq] at listed
        refine ⟨.sarChunk (first + 1),rfl,?_⟩
        rw [← listed,taken]
        simp [Storage.readParquet,here]
      | succ i => exact contents i rows (by simpa using listed)
    · intro ref other
      rw [others ref (fun n late => other n (by omega)),Function.update_of_ne (other (first + 1) (by omega))]

section Paths
variable (sent : Sent φ) (output : HookOutput φ)

/-- What the hook splits: a modified file, else the one that the server sent. -/
def hookFile (file : OedFile) : Option φ := (output file).map Prod.snd <|> (sent file).map Prod.snd

/-- What a chunk task loads: nothing where the server sent no file. -/
def chunkFile (file : OedFile) : Option φ :=
  (sent file).map fun source => ((output file).map Prod.snd).getD source.2

theorem hookFile_eq_chunkFile {file : OedFile} (onlySent : (output file).isSome → (sent file).isSome) :
    hookFile sent output file = chunkFile sent output file := by
  unfold hookFile chunkFile
  cases reported : output file with
  | none => cases sent file <;> rfl
  | some modified =>
    cases given : sent file with
    | none => simp [reported,given] at onlySent
    | some source => rfl

/-- The references that the hook leaves in the parameters. -/
def preFiles (file : OedFile) : Option StoreRef :=
  (output file).map fun modified => .unique file (extensionOf modified.1)

theorem getFile_portfolio {file : OedFile} {source : Text × φ} (given : sent file = some source) :
    (sent.store : Storage φ ι δ).getFile (.portfolio file source.1) = some source.2 := by
  simp [Storage.getFile,Sent.store,given,Option.filter]

theorem getFile_unique {file : OedFile} {modified : Text × φ} (reported : output file = some modified)
    (store : Storage φ ι δ) :
    (hookStore output store).getFile (.unique file (extensionOf modified.1)) = some modified.2 := by
  simp [Storage.getFile,hookStore,reported,Option.filter]

/-- Before the hook, a task selects what the server sent. -/
theorem getFileRef_sent {params : Params} (none_yet : params.preFile = fun _ => none) (file : OedFile) :
    getFileRef sent.kwargs params file = (sent file).map fun source => (.portfolio file source.1,.raw) := by
  unfold getFileRef Sent.kwargs
  rw [none_yet]
  cases sent file <;> rfl

/-- After it, a modified file in place of one that the server sent. -/
theorem getFileRef_hooked {params : Params} (hooked : params.preFile = preFiles output) (file : OedFile) :
    getFileRef sent.kwargs params file = (sent file).map fun source =>
      match output file with
      | some modified => (.unique file (extensionOf modified.1),.pre)
      | none => (.portfolio file source.1,.raw) := by
  unfold getFileRef Sent.kwargs
  rw [hooked]
  unfold preFiles
  cases sent file <;> cases output file <;> rfl

theorem mem_oedFiles (file : OedFile) : file ∈ oedFiles := by cases file <;> decide

/-- What the hook's copy of the exposure opens. -/
theorem hook_opens {params params' : Params} {node node' : Node φ} {pre : OedFile → Option StoreRef}
    (none_yet : params.preFile = fun _ => none) (unset : ∀ file, sent file = none → params.oedCsv file = none)
    (prepared : Prepares (sent.store : Storage φ ι δ) sent.kwargs pre oedFiles params node params' node')
    {file : OedFile} (subject : file = .location ∨ file = .account) :
    openPath (withHookFiles node' output) (sarFiles output file <|> params'.oedCsv file) =
      some (hookFile sent output file) := by
  have listed : sarFiles output file = (output file).map fun modified => .hook file modified.1 := by
    rcases subject with rfl | rfl <;> rfl
  rw [listed,hookFile]
  cases reported : output file with
  | some modified => simp [openPath,withHookFiles,reported,Option.filter]
  | none =>
    cases given : sent file with
    | none =>
      have none_sent : sent.kwargs file = none := by simp [Sent.kwargs,given]
      simp [prepared.unsent file (.inl none_sent),unset file given,openPath]
    | some source =>
      have chosen : getFileRef sent.kwargs params file = some (.portfolio file source.1,.raw) := by
        rw [getFileRef_sent sent none_yet,given]
        rfl
      obtain ⟨path,content,stored,here⟩ := prepared.opened file (mem_oedFiles file) _ _ chosen
      rw [getFile_portfolio sent given] at stored
      cases stored
      simp [path,openPath,withHookFiles,here]

/-- What a chunk task opens. -/
theorem chunk_opens {params params' : Params} {node node' : Node φ} {store : Storage φ ι δ}
    {pre : OedFile → Option StoreRef} (hooked : params.preFile = preFiles output)
    (unset : ∀ file, sent file = none → params.oedCsv file = none)
    (portfolio : ∀ file source, sent file = some source → store.getFile (.portfolio file source.1) = some source.2)
    (modified : ∀ file source, output file = some source →
      store.getFile (.unique file (extensionOf source.1)) = some source.2)
    (prepared : Prepares store sent.kwargs pre oedFiles params node params' node') (file : OedFile) :
    openPath node' (params'.oedCsv file) = some (chunkFile sent output file) := by
  unfold chunkFile
  cases given : sent file with
  | none =>
    have none_sent : sent.kwargs file = none := by simp [Sent.kwargs,given]
    rw [prepared.unsent file (.inl none_sent),unset file given]
    rfl
  | some source =>
    have chosen := getFileRef_hooked sent output hooked file
    rw [given] at chosen
    cases reported : output file with
    | none =>
      rw [reported] at chosen
      obtain ⟨path,content,stored,here⟩ := prepared.opened file (mem_oedFiles file) _ _ chosen
      rw [portfolio file source given] at stored
      cases stored
      simp [path,openPath,here]
    | some change =>
      rw [reported] at chosen
      obtain ⟨path,content,stored,here⟩ := prepared.opened file (mem_oedFiles file) _ _ chosen
      rw [modified file change reported] at stored
      cases stored
      simp [path,openPath,here]

end Paths

/-! ### Agreement of the two paths -/

section Agreement
variable (exposure : OedExposure φ ι δ) (exposurePreAnalysis : HookOutput φ)
  (envSchemaInfo : Option Text) (config : ModelConfig) (sent : Sent φ)

/-- What the hook reports as modified; a model without a hook modifies nothing. -/
def reported : HookOutput φ := if config.exposurePreAnalysisModule.isSome then exposurePreAnalysis else fun _ => none

/-- The state between the hook and the chunk tasks: what the hook split and stored,
    and what it hands on. -/
structure Hooked [DecidableEq ι] (numChunks : Nat) (hooked : Params) (store : Storage φ ι δ) : Prop where
  pre : hooked.preFile = preFiles (reported exposurePreAnalysis config)
  unset : ∀ file, sent file = none → hooked.oedCsv file = none
  portfolio : ∀ file source, sent file = some source → store.getFile (.portfolio file source.1) = some source.2
  modified : ∀ file source, reported exposurePreAnalysis config file = some source →
    store.getFile (.unique file (extensionOf source.1)) = some source.2
  split : ∃ sarDf refs, exposure (hookFile sent (reported exposurePreAnalysis config) .location)
      (hookFile sent (reported exposurePreAnalysis config) .account) (oedOptions envSchemaInfo hooked) = some sarDf ∧
    hooked.sarChunks = some refs ∧ refs.length = numChunks ∧
    ∀ chunkIdx < numChunks, ∃ ref, refs[chunkIdx]? = some ref ∧
      store.readParquet ref = splitSubjectAtRiskData sarDf numChunks chunkIdx

/-- Every file that a chunk task selects is stored. -/
theorem Hooked.held [DecidableEq ι] {numChunks : Nat} {hooked : Params} {store : Storage φ ι δ}
    (state : Hooked exposure exposurePreAnalysis envSchemaInfo config sent numChunks hooked store) (file : OedFile)
    (ref : StoreRef) (source : Source) (chosen : getFileRef sent.kwargs hooked file = some (ref,source)) :
    (store.getFile ref).isSome := by
  rw [getFileRef_hooked sent _ state.pre] at chosen
  cases given : sent file with
  | none => simp [given] at chosen
  | some sentFile =>
    cases change : reported exposurePreAnalysis config file with
    | none =>
      simp only [given,change,Option.map_some,Option.some.injEq,Prod.mk.injEq] at chosen
      rw [← chosen.1,state.portfolio file sentFile given]
      rfl
    | some modified =>
      simp only [given,change,Option.map_some,Option.some.injEq,Prod.mk.injEq] at chosen
      rw [← chosen.1,state.modified file modified change]
      rfl

/-- The parameters that the first task hands to the hook. -/
theorem prepareInputGenerationParams_spec {node : Node φ} {params : Params} {pre : OedFile → Option StoreRef}
    (worker : WorkerNode (sent.store : Storage φ ι δ) sent.kwargs pre node)
    (first : prepareInputGenerationParams config envSchemaInfo sent.kwargs (sent.store : Storage φ ι δ) node = some params) :
    params.preFile = (fun _ => none) ∧ (∀ file, sent file = none → params.oedCsv file = none) ∧
      params.exposurePreAnalysisModule = config.exposurePreAnalysisModule := by
  simp only [prepareInputGenerationParams,Option.bind_eq_bind,Option.bind_eq_some_iff,Option.some.injEq] at first
  obtain ⟨⟨prepared,node'⟩,ready,rfl⟩ := first
  have spec := prepareDirectories_prepares (workerNode_cached worker) (fun _ => .inl rfl) ready
  refine ⟨spec.preFile_eq,?_,spec.module_eq⟩
  intro file absent
  exact spec.unsent file (.inl (by simp [Sent.kwargs,absent]))

theorem hookOutput_eq {params : Params}
    (module : params.exposurePreAnalysisModule = config.exposurePreAnalysisModule) :
    hookOutput exposurePreAnalysis params = reported exposurePreAnalysis config := by
  rw [hookOutput,reported,module]

theorem hookParams_preFile {output : HookOutput φ} {params : Params} (none_yet : params.preFile = fun _ => none)
    (module : params.exposurePreAnalysisModule = none → output = fun _ => none) :
    (hookParams output params).preFile = preFiles output := by
  unfold hookParams
  cases configured : params.exposurePreAnalysisModule with
  | none =>
    rw [module configured]
    exact none_yet
  | some name =>
    funext file
    simp [none_yet,preFiles]

theorem hookParams_oedCsv (output : HookOutput φ) (params : Params) : (hookParams output params).oedCsv = params.oedCsv := by
  unfold hookParams
  split_ifs <;> rfl

/-- A run of the hook. -/
theorem preAnalysisHook_hooked [DecidableEq ι] {node : Node φ} {params hooked : Params} {store : Storage φ ι δ} {numChunks : Nat}
    (several : 2 ≤ numChunks) (worker : WorkerNode (sent.store : Storage φ ι δ) sent.kwargs (fun _ => none) node)
    (none_yet : params.preFile = fun _ => none) (unset : ∀ file, sent file = none → params.oedCsv file = none)
    (module : params.exposurePreAnalysisModule = config.exposurePreAnalysisModule)
    (ran : preAnalysisHook exposure exposurePreAnalysis envSchemaInfo sent.kwargs sent.store params node
      (some numChunks) = some (hooked,store)) :
    Hooked exposure exposurePreAnalysis envSchemaInfo config sent numChunks hooked store := by
  simp only [preAnalysisHook,if_pos (show numChunks > 1 by omega),Option.bind_eq_bind,Option.bind_eq_some_iff,
    storeSubjectAtRiskChunks,Option.some.injEq,Prod.mk.injEq] at ran
  obtain ⟨⟨prepared,ready⟩,preparing,⟨refs,final⟩,⟨sarDf,loaded,chunks,cut,put⟩,rfl,same⟩ := ran
  obtain rfl : final = store := same
  have spec := prepareDirectories_prepares (workerNode_cached worker) (fun file => .inl (by rw [none_yet])) preparing
  have preparedModule := spec.module_eq.trans module
  rw [hookOutput_eq exposurePreAnalysis config preparedModule] at loaded put ⊢
  generalize outputs : reported exposurePreAnalysis config = output at loaded put ⊢
  obtain ⟨count,contents,others⟩ := putChunks_spec put
  have positions := subjectAtRiskChunkRows_eq sarDf (by omega : 0 < numChunks)
  rw [cut,Option.some.injEq] at positions
  refine ⟨?_,?_,?_,?_,sarDf,refs,?_,rfl,?_,?_⟩
  · rw [outputs]
    refine hookParams_preFile (spec.preFile_eq.trans none_yet) fun absent => ?_
    rw [← outputs,reported,← preparedModule,absent]
    rfl
  · intro file absent
    rw [hookParams_oedCsv,spec.unsent file (.inl (by simp [Sent.kwargs,absent])),unset file absent]
  · intro file source given
    rw [Storage.getFile,others _ (fun _ _ => by simp)]
    exact getFile_portfolio sent given
  · intro file source change
    rw [Storage.getFile,others _ (fun _ _ => by simp)]
    rw [outputs] at change
    exact getFile_unique output change _
  · rw [outputs]
    simp only [loadSubjectAtRiskData,Option.bind_eq_bind,hookParams_oedCsv] at loaded
    rw [hook_opens sent output none_yet unset spec (.inl rfl),Option.bind_some,
      hook_opens sent output none_yet unset spec (.inr rfl),Option.bind_some] at loaded
    exact loaded
  · rw [count,positions]
    simp
  · intro chunkIdx inside
    obtain ⟨rows,listed⟩ : ∃ rows, chunks[chunkIdx]? = some rows :=
      ⟨positionsOf (rowChunks (locIds sarDf) numChunks) chunkIdx,by rw [positions]; simp [inside]⟩
    obtain ⟨ref,stored,read⟩ := contents chunkIdx rows listed
    refine ⟨ref,stored,?_⟩
    rw [read,splitSubjectAtRiskData,cut]
    simp [listed]

/-- The frame of a chunk task from the stored chunks is the hook's, split. -/
theorem chunkExposure_presplit [DecidableEq ι] {numChunks chunkIdx : Nat} {hooked : Params} {store : Storage φ ι δ}
    {node : Node φ} (state : Hooked exposure exposurePreAnalysis envSchemaInfo config sent numChunks hooked store)
    (worker : WorkerNode store sent.kwargs hooked.preFile node) (inside : chunkIdx < numChunks) :
    chunkExposure exposure envSchemaInfo sent.kwargs store hooked node numChunks chunkIdx =
      (exposure (hookFile sent (reported exposurePreAnalysis config) .location)
        (hookFile sent (reported exposurePreAnalysis config) .account) (oedOptions envSchemaInfo hooked)).bind
        fun sarDf => splitSubjectAtRiskData sarDf numChunks chunkIdx := by
  obtain ⟨sarDf,refs,loaded,stored,count,contents⟩ := state.split
  obtain ⟨params',node',ready⟩ := prepareDirectories_isSome hooked node state.held
  have spec := prepareDirectories_prepares (workerNode_cached worker) (fun _ => .inr rfl) ready
  have sameChunks := spec.sarChunks_eq.trans stored
  obtain ⟨ref,listed,read⟩ := contents chunkIdx inside
  rw [loaded,chunkExposure,ready]
  simp [loadSubjectAtRiskChunk,sameChunks,count,listed,read]

/-- Without the stored chunks it is the frame of the files that the task selects,
    split. -/
theorem chunkExposure_fallback [DecidableEq ι] {numChunks chunkIdx : Nat} {hooked : Params} {store : Storage φ ι δ}
    {node : Node φ} (state : Hooked exposure exposurePreAnalysis envSchemaInfo config sent numChunks hooked store)
    (worker : WorkerNode store sent.kwargs hooked.preFile node) (several : 2 ≤ numChunks) :
    chunkExposure exposure envSchemaInfo sent.kwargs store { hooked with sarChunks := none } node numChunks chunkIdx =
      (exposure (chunkFile sent (reported exposurePreAnalysis config) .location)
        (chunkFile sent (reported exposurePreAnalysis config) .account) (oedOptions envSchemaInfo hooked)).bind
        fun sarDf => splitSubjectAtRiskData sarDf numChunks chunkIdx := by
  obtain ⟨params',node',ready⟩ := prepareDirectories_isSome { hooked with sarChunks := none } node state.held
  have known : ∀ file, ({ hooked with sarChunks := none } : Params).preFile file = none ∨
      ({ hooked with sarChunks := none } : Params).preFile file = hooked.preFile file := fun _ => .inr rfl
  have spec := prepareDirectories_prepares (workerNode_cached worker) known ready
  have opens : ∀ file, openPath node' (params'.oedCsv file) =
      some (chunkFile sent (reported exposurePreAnalysis config) file) := by
    refine chunk_opens sent _ ?_ ?_ state.portfolio state.modified spec
    · exact state.pre
    · exact state.unset
  have noChunks : params'.sarChunks = none := spec.sarChunks_eq
  have sameOptions : oedOptions envSchemaInfo params' = oedOptions envSchemaInfo hooked := by rw [spec.rest]; rfl
  rw [chunkExposure,ready]
  simp [loadSubjectAtRiskChunk,noChunks,show ¬ 0 = numChunks by omega,loadSubjectAtRiskData,opens,sameOptions]

/-- For a run of the input generation, on any workers, a chunk task obtains from the
    stored chunks the frame that it obtains without them. -/
def PathsAgree [DecidableEq ι] (numChunks : Nat) : Prop :=
  ∀ firstNode hookNode : Node φ, WorkerNode (sent.store : Storage φ ι δ) sent.kwargs (fun _ => none) firstNode →
    WorkerNode (sent.store : Storage φ ι δ) sent.kwargs (fun _ => none) hookNode →
  ∀ params, prepareInputGenerationParams config envSchemaInfo sent.kwargs (sent.store : Storage φ ι δ) firstNode =
    some params →
  ∀ hooked (store : Storage φ ι δ), preAnalysisHook exposure exposurePreAnalysis envSchemaInfo sent.kwargs sent.store
    params hookNode (some numChunks) = some (hooked,store) →
  ∀ chunkNode, WorkerNode store sent.kwargs hooked.preFile chunkNode → ∀ chunkIdx < numChunks,
    chunkExposure exposure envSchemaInfo sent.kwargs store hooked chunkNode numChunks chunkIdx =
      chunkExposure exposure envSchemaInfo sent.kwargs store { hooked with sarChunks := none } chunkNode numChunks chunkIdx

theorem pathsAgree_of_onlySent [DecidableEq ι] {numChunks : Nat} (several : 2 ≤ numChunks)
    (onlySent : ∀ file, file = .location ∨ file = .account →
      (reported exposurePreAnalysis config file).isSome → (sent file).isSome) :
    PathsAgree exposure exposurePreAnalysis envSchemaInfo config sent numChunks := by
  intro firstNode hookNode firstWorker hookWorker params first hooked store ran chunkNode chunkWorker chunkIdx inside
  obtain ⟨none_yet,unset,module⟩ := prepareInputGenerationParams_spec envSchemaInfo config sent firstWorker first
  have state := preAnalysisHook_hooked exposure exposurePreAnalysis envSchemaInfo config sent several hookWorker
    none_yet unset module ran
  rw [chunkExposure_presplit exposure exposurePreAnalysis envSchemaInfo config sent state chunkWorker inside,
    chunkExposure_fallback exposure exposurePreAnalysis envSchemaInfo config sent state chunkWorker several,
    hookFile_eq_chunkFile sent _ (onlySent .location (.inl rfl)),
    hookFile_eq_chunkFile sent _ (onlySent .account (.inr rfl))]

/-- A subject of its own, from whichever of the two files it is loaded. -/
def oneRowFrom [Inhabited δ] (file : OedFile) : OedExposure φ ι δ := fun location account _ =>
  some (if (if file = .location then location else account).isSome then [⟨none,default⟩] else [])

theorem putChunks_isSome {sarDf : List (SarRow ι δ)} {chunks : List (List Nat)} (store : Storage φ ι δ) (first : Nat)
    (inside : ∀ rows ∈ chunks, (takeAt sarDf rows).isSome) : ∃ refs stored, putChunks store sarDf first chunks =
      some (refs,stored) := by
  induction chunks generalizing store first with
  | nil => exact ⟨[],store,rfl⟩
  | cons rows rest ih =>
    obtain ⟨chunkDf,taken⟩ := Option.isSome_iff_exists.mp (inside rows (by simp))
    obtain ⟨refs,stored,later⟩ := ih (Function.update store (.sarChunk (first + 1)) (some (.frame chunkDf))) (first + 1)
      (fun rows member => inside rows (by simp [member]))
    exact ⟨.sarChunk (first + 1) :: refs,stored,by simp [putChunks,taken,later]⟩

theorem chunk_rows_taken [DecidableEq ι] (sarDf : List (SarRow ι δ)) (numChunks : Nat) :
    ∀ rows ∈ (List.range numChunks).map (positionsOf (rowChunks (locIds sarDf) numChunks)), (takeAt sarDf rows).isSome := by
  intro rows listed
  obtain ⟨c,_,rfl⟩ := List.mem_map.mp listed
  rw [rowChunks_eq_map,locIds,List.map_map,takeAt_positionsOf]
  rfl

theorem sent_held {params : Params} (none_yet : params.preFile = fun _ => none) (file : OedFile) (ref : StoreRef)
    (source : Source) (chosen : getFileRef sent.kwargs params file = some (ref,source)) :
    ((sent.store : Storage φ ι δ).getFile ref).isSome := by
  rw [getFileRef_sent sent none_yet] at chosen
  cases given : sent file with
  | none => simp [given] at chosen
  | some sentFile =>
    simp only [given,Option.map_some,Option.some.injEq,Prod.mk.injEq] at chosen
    rw [← chosen.1,getFile_portfolio sent given]
    rfl

theorem prepareInputGenerationParams_isSome (node : Node φ) : ∃ params,
    prepareInputGenerationParams config envSchemaInfo sent.kwargs (sent.store : Storage φ ι δ) node = some params := by
  obtain ⟨params,node',ready⟩ : ∃ params node', prepareDirectories (sent.store : Storage φ ι δ) sent.kwargs
      (configParams config envSchemaInfo) node = some (params,node') :=
    prepareDirectories_isSome _ node (sent_held sent rfl)
  exact ⟨params,by rw [prepareInputGenerationParams,ready]; rfl⟩

/-- The hook runs through when the exposure loads whatever its files are. -/
theorem preAnalysisHook_isSome [DecidableEq ι] {node : Node φ} {params : Params} {numChunks : Nat}
    (several : 2 ≤ numChunks) (worker : WorkerNode (sent.store : Storage φ ι δ) sent.kwargs (fun _ => none) node)
    (none_yet : params.preFile = fun _ => none) (unset : ∀ file, sent file = none → params.oedCsv file = none)
    (loads : ∀ location account options, (exposure location account options).isSome) :
    ∃ hooked store, preAnalysisHook exposure exposurePreAnalysis envSchemaInfo sent.kwargs sent.store params node
      (some numChunks) = some (hooked,store) := by
  obtain ⟨prepared,ready,preparing⟩ : ∃ prepared ready, prepareDirectories (sent.store : Storage φ ι δ) sent.kwargs
      params node = some (prepared,ready) := prepareDirectories_isSome params node (sent_held sent none_yet)
  have spec := prepareDirectories_prepares (workerNode_cached worker) (fun file => .inl (by rw [none_yet])) preparing
  simp only [preAnalysisHook,preparing,if_pos (show numChunks > 1 by omega),Option.bind_eq_bind,Option.bind_some,
    storeSubjectAtRiskChunks,loadSubjectAtRiskData,hookParams_oedCsv]
  generalize hookOutput exposurePreAnalysis prepared = output
  rw [hook_opens sent output none_yet unset spec (.inl rfl),Option.bind_some,
    hook_opens sent output none_yet unset spec (.inr rfl),Option.bind_some]
  obtain ⟨sarDf,loaded⟩ := Option.isSome_iff_exists.mp (loads (hookFile sent output .location)
    (hookFile sent output .account) (oedOptions envSchemaInfo { hookParams output prepared with
      oedCsv := fun file => sarFiles output file <|> prepared.oedCsv file }))
  rw [loaded,Option.bind_some,subjectAtRiskChunkRows_eq sarDf (by omega : 0 < numChunks),Option.bind_some]
  obtain ⟨refs,stored,put⟩ := putChunks_isSome (hookStore output (sent.store : Storage φ ι δ)) 0
    (chunk_rows_taken sarDf numChunks)
  rw [put]
  exact ⟨_,_,rfl⟩

/-- An exposure that differs between the paths, where the hook modifies a file that
    the server did not send. -/
theorem not_pathsAgree_unsent [DecidableEq ι] [Inhabited δ] {numChunks : Nat} (several : 2 ≤ numChunks)
    {file : OedFile} (subject : file = .location ∨ file = .account)
    (change : (reported exposurePreAnalysis config file).isSome) (unsent : sent file = none) :
    ¬ PathsAgree (oneRowFrom file : OedExposure φ ι δ) exposurePreAnalysis envSchemaInfo config sent numChunks := by
  intro agree
  have worker : WorkerNode (sent.store : Storage φ ι δ) sent.kwargs (fun _ => none) fun _ => none := .fresh
  obtain ⟨params,first⟩ : ∃ params, prepareInputGenerationParams config envSchemaInfo sent.kwargs
      (sent.store : Storage φ ι δ) (fun _ => none) = some params :=
    prepareInputGenerationParams_isSome envSchemaInfo config sent _
  obtain ⟨none_yet,unset,module⟩ := prepareInputGenerationParams_spec envSchemaInfo config sent worker first
  obtain ⟨hooked,store,ran⟩ := preAnalysisHook_isSome (oneRowFrom file : OedExposure φ ι δ) exposurePreAnalysis
    envSchemaInfo sent several worker none_yet unset fun _ _ _ => rfl
  have state := preAnalysisHook_hooked (oneRowFrom file) exposurePreAnalysis envSchemaInfo config sent several worker
    none_yet unset module ran
  -- the hook finds the row, in the chunk of the missing id; without the file there is none
  have some_chunk : 0 < numChunks := by omega
  have inside : chunkOf [(none : Option ι)] numChunks none < numChunks :=
    subjectChunk_lt some_chunk (firstIndex_lt ((mem_factorize _ _).mpr (by simp)))
  have same := agree _ _ worker worker params first hooked store ran _ .fresh _ inside
  rw [chunkExposure_presplit _ _ _ _ _ state .fresh inside,chunkExposure_fallback _ _ _ _ _ state .fresh several] at same
  obtain ⟨modified,here⟩ := Option.isSome_iff_exists.mp change
  have found : (hookFile sent (reported exposurePreAnalysis config) file).isSome := by simp [hookFile,here]
  have missing : chunkFile sent (reported exposurePreAnalysis config) file = none := by simp [chunkFile,unsent]
  rcases subject with rfl | rfl
  · simp [oneRowFrom,found,missing,splitSubjectAtRiskData_eq _ inside,locIds] at same
  · simp [oneRowFrom,found,missing,splitSubjectAtRiskData_eq _ inside,locIds] at same

/-- A chunk task obtains the same frame with and without the stored chunks, for every
    exposure, exactly when the hook modifies no location or account file that the
    server did not send. -/
theorem presplit_agrees_iff [DecidableEq ι] [Inhabited δ] (exposurePreAnalysis : HookOutput φ)
    (envSchemaInfo : Option Text) (config : ModelConfig) (sent : Sent φ) (numChunks : Nat) (several : 2 ≤ numChunks) :
    (∀ exposure : OedExposure φ ι δ, PathsAgree exposure exposurePreAnalysis envSchemaInfo config sent numChunks) ↔
      ∀ file, file = .location ∨ file = .account → config.exposurePreAnalysisModule.isSome →
        (exposurePreAnalysis file).isSome → (sent file).isSome := by
  constructor
  · intro agree file subject configured change
    by_contra unsent
    rw [Option.not_isSome_iff_eq_none] at unsent
    apply not_pathsAgree_unsent exposurePreAnalysis envSchemaInfo config sent several subject _ unsent
      (agree (oneRowFrom file))
    simpa [reported,configured] using change
  · intro onlySent exposure
    apply pathsAgree_of_onlySent exposure exposurePreAnalysis envSchemaInfo config sent several
    intro file subject change
    unfold reported at change
    split_ifs at change with configured
    · exact onlySent file subject configured change
    · cases change

end Agreement

def hookConfig : ModelConfig := ⟨some ['p','r','e','.','p','y'],none,none,none,none⟩

/-- A hook that modifies the location file. -/
def modifiesLocation : HookOutput Nat
  | .location => some (['l','o','c','.','c','s','v'],7)
  | _ => none

def accountOnly : Sent Nat
  | .account => some (['.','c','s','v'],1)
  | _ => none

def locationAndAccount : Sent Nat
  | .location => some (['.','c','s','v'],2)
  | .account => some (['.','c','s','v'],1)
  | _ => none

/-- Where the server sends a location file, the hook may modify it. -/
theorem presplit_agrees_modified_location :
    PathsAgree (oneRowFrom .location : OedExposure Nat Nat Nat) modifiesLocation none hookConfig locationAndAccount 2 := by
  refine (presplit_agrees_iff modifiesLocation none hookConfig locationAndAccount 2 (by decide)).mpr ?_ _
  rintro file (rfl | rfl) _ _
  · rfl
  · rfl

/-- Where it sends only an account file, the hook splits a location file that no
    chunk task would load. -/
theorem presplit_differs_unsent_location :
    ¬ PathsAgree (oneRowFrom .location : OedExposure Nat Nat Nat) modifiesLocation none hookConfig accountOnly 2 :=
  not_pathsAgree_unsent modifiesLocation none hookConfig accountOnly (by decide) (.inl rfl) rfl rfl

end OasisPlatform.PreSplit
