import OasisPlatform.AnalysisRows
import OasisPlatform.CancelEffects
import OasisPlatform.TaskFiles

/-!
Analyses, their files and the processes that change them, in any interleaving of loads and
saves. A file is made for one column of one analysis, or as the log of a failed run for two of
them, and no process puts it anywhere else (`sound_of_reachable`). So no row that goes with an
analysis belongs to another one (`Sound.own`), and all of them are different unless the two
columns of a run have the same file (`Sound.distinct`).
-/
namespace OasisPlatform.FilePlaces
open SharedRow Models AnalysisTasks AnalysisRows TaskFiles
open AnalysisViews (Attrs)
set_option linter.unusedSimpArgs false

/-- What a process does with the analysis that it has loaded. -/
inductive Work where
  | task (env : Env) (subTasks : List SubTask) (task : AnalysisTask)
  | combine (env : Env) (result : Except String String) (userId : UserId)
  /-- a serializer with settings, which sets other fields too -/
  | settings (changed : Entry) (file : FileId)
  /-- the view of a related file: an upload, or a file taken away -/
  | relatedFile (field : FileColumn) (file : Option FileId)
  /-- saves that have no other files than the row had: of starts, of cancellations, of other columns -/
  | other (changed : Entry) (saves : List AnalysisSave)

/-- `parent.save(update_fields=[field])`. -/
def saveField (entry : Entry) (field : FileColumn) (file : Option FileId) : AnalysisSave :=
  Analysis.saveFields (setFile (load entry.row) file field) [field.column]

def Work.saves (entry : Entry) : Work → List AnalysisSave
  | .task env subTasks message => AnalysisTasks.saves env subTasks entry.id entry.row message
  | .combine env result userId => (recordCombineOutput env entry.id result userId entry.row).toList
  | .settings changed file => [Analysis.save ((load changed.row).set .settingsFile (some file))]
  | .relatedFile field file =>
    (if (entry.file field).isSome then [saveField entry field none] else []) ++
      (file.map fun id => saveField entry field (some id)).toList
  | .other _ saves => saves

/-- The instance besides its row. -/
def Work.loaded (entry : Entry) : Work → Entry
  | .settings changed _ => changed
  | .other changed _ => changed
  | _ => entry

/-- The files that a process makes for a column. -/
def Work.makes (analysis : AnalysisId) (field : FileColumn) (file : FileId) : Work → Prop
  | .task env _ message => ∃ name, Names analysis field name message ∧ Made env name file
  | .combine env _ _ => ∃ name, ColumnName analysis field name ∧ Made env name file
  | .settings _ made => field = .settingsFile ∧ file = made
  | .relatedFile column made => field = column ∧ made = some file
  | .other _ _ => False

/-- Every call makes another file. -/
def Distinct (env : Env) : Prop := ∀ name other file, Made env name file → Made env other file → name = other

def Work.Possible (entry : Entry) : Work → Prop
  | .task env _ _ => Distinct env
  | .combine env _ _ => Distinct env
  | .settings changed _ => changed.id = entry.id ∧ ∀ field, changed.file field = entry.file field
  | .relatedFile _ _ => True
  | .other changed saves => changed.id = entry.id ∧
      ∀ save ∈ saves, ∀ field file, getFile save.loaded field = some file → entry.file field = some file

/-- A process with the instance that it has loaded and the saves that it has left. -/
structure Process where
  loaded : Entry
  todo : List AnalysisSave

/-- `made` notes for which columns files have been made. -/
structure System where
  store : Store
  processes : List Process
  made : FileId → AnalysisId → FileColumn → Prop

def System.empty : System := ⟨⟨[],[],[]⟩,[],fun _ _ _ => False⟩

def System.Unmade (system : System) (file : FileId) : Prop := ∀ analysis field, ¬ system.made file analysis field

inductive Step : System → System → Prop where
  | storeFile {system : System} (file : RelatedFile) (fresh : file.id ∉ system.store.files.map RelatedFile.id) :
    Step system { system with store := { system.store with files := system.store.files ++ [file] } }
  | deleteFile {system : System} (id : FileId) {after : Store}
    (deleted : deleteTarget (deleteConnectedFiles system.store.analyses.length .plain) (.file id) system.store =
      some after) : Step system { system with store := after }
  | storeOptions {system : System} (id : Nat) (fresh : id ∉ system.store.chunkingOptions) :
    Step system { system with
      store := { system.store with chunkingOptions := system.store.chunkingOptions ++ [id] } }
  | create {system : System} (entry : Entry) (fresh : entry.id ∉ system.store.analyses.map Entry.id)
    (noTargets : entry.targets = []) :
    Step system { system with store := { system.store with analyses := system.store.analyses ++ [entry] } }
  | load {system : System} (entry : Entry) (listed : entry ∈ system.store.analyses) (work : Work)
    (possible : work.Possible entry)
    (fresh : ∀ field file, work.makes entry.id field file → system.Unmade file) :
    Step system { system with
      processes := ⟨work.loaded entry,work.saves entry⟩ :: system.processes
      made := fun file analysis field =>
        system.made file analysis field ∨ analysis = entry.id ∧ work.makes entry.id field file }
  | save {system : System} (before rest : List Process) (loaded : Entry) (save : AnalysisSave)
    (todo : List AnalysisSave) (running : system.processes = before ++ ⟨loaded,save :: todo⟩ :: rest) {after : Store}
    (saved : system.store.save loaded save = some after) :
    Step system { system with store := after, processes := before ++ ⟨loaded,todo⟩ :: rest }
  /-- a process returns, or raises -/
  | leave {system : System} (before rest : List Process) (process : Process)
    (running : system.processes = before ++ process :: rest) : Step system { system with processes := before ++ rest }
  | setDataFiles {system : System} (id : AnalysisId) (files : List Nat) :
    Step system { system with store := { system.store with
      analyses := Tables.edit Entry.id system.store.analyses id fun entry => { entry with dataFiles := files } } }
  | copy {system : System} (keys : NewKeys) (user : UserId) (data : Except ValidationErrors Attrs) (id : AnalysisId)
    (newAnalysis : keys.analysis ∉ system.store.analyses.map Entry.id)
    (newFile : keys.file ∉ system.store.files.map RelatedFile.id) (unmade : system.Unmade keys.file) :
    Step system { system with
      store := (system.store.copy keys user data id).2
      made := fun file analysis field => system.made file analysis field ∨
        file = keys.file ∧ analysis = keys.analysis ∧ field = .settingsFile }
  | delete {system : System} (loading : Loading) (id : AnalysisId) {after : Store}
    (deleted : system.store.delete loading id = some after) : Step system { system with store := after }

inductive Reachable : System → Prop where
  | empty : Reachable .empty
  | step {system after : System} (reachable : Reachable system) (step : Step system after) : Reachable after

/-- A process that has one save and runs alone. -/
theorem Reachable.alone {system : System} (reachable : Reachable system) (idle : system.processes = []) {entry : Entry}
    (listed : entry ∈ system.store.analyses) (work : Work) (possible : work.Possible entry)
    (fresh : ∀ field file, work.makes entry.id field file → system.Unmade file) {save : AnalysisSave}
    (saves : work.saves entry = [save]) {after : Store} (saved : system.store.save (work.loaded entry) save = some after) :
    Reachable ⟨after,[],fun file analysis field =>
      system.made file analysis field ∨ analysis = entry.id ∧ work.makes entry.id field file⟩ := by
  have loading := Reachable.step reachable (.load entry listed work possible fresh)
  rw [saves,idle] at loading
  have saving := loading.step (.save [] [] (work.loaded entry) save [] rfl saved)
  exact saving.step (.leave [] [] ⟨work.loaded entry,[]⟩ rfl)

theorem resetInputGeneration_stores {allowed : FileColumn → FileId → Prop} {analysis : Analysis}
    (stores : Stores allowed analysis) : Stores allowed (Starting.resetInputGeneration analysis) :=
  ((((((stores.set (by decide) _).clear .lookupErrorsFile).clear .lookupSuccessFile).clear
    .lookupValidationFile).clear .summaryLevelsFile).clear .inputGenerationTracebackFile).clear .inputFile

theorem resetLossProgress_stores {allowed : FileColumn → FileId → Prop} {analysis : Analysis}
    (stores : Stores allowed analysis) : Stores allowed (Starting.resetLossProgress analysis) :=
  (stores.set (by decide) _).set (by decide) _

/-- A start keeps the files of the analysis, or clears their columns. -/
theorem start_stores {allowed : FileColumn → FileId → Prop} {ctx : Starting.StartContext}
    {method : Starting.StartMethod} {analysis : Analysis} (stores : Stores allowed analysis) {started : Starting.Start}
    (accepted : Starting.start ctx method analysis = .ok started) : Stores allowed started.queued := by
  cases method with
  | run runModeOverride =>
    simp only [Starting.start,Starting.run,Starting.bind_ok] at accepted
    obtain ⟨model,_,accepted⟩ := accepted
    split_ifs at accepted
    simp only [Starting.bind_ok] at accepted
    obtain ⟨runMode,_,accepted⟩ := accepted
    obtain ⟨_,accepted⟩ := Starting.whenValid_ok accepted
    cases runMode with
    | v1 =>
      cases accepted
      exact resetLossProgress_stores (stores.set (by decide) _)
    | v2 =>
      simp only [Starting.bind_ok] at accepted
      obtain ⟨eventsTotal,_,accepted⟩ := accepted
      cases accepted
      exact resetLossProgress_stores (stores.set (by decide) _)
  | generateInputs runModeOverride =>
    simp only [Starting.start,Starting.generateInputs,Starting.bind_ok] at accepted
    obtain ⟨model,_,runMode,_,accepted⟩ := accepted
    obtain ⟨_,accepted⟩ := Starting.whenValid_ok accepted
    cases runMode with
    | v1 =>
      cases accepted
      exact resetInputGeneration_stores stores
    | v2 =>
      cases accepted
      exact resetInputGeneration_stores stores
  | generateAndRun =>
    simp only [Starting.start,Starting.generateAndRun,Starting.bind_ok] at accepted
    obtain ⟨model,_,accepted⟩ := accepted
    obtain ⟨_,accepted⟩ := Starting.whenValid_ok accepted
    simp only [Starting.bind_ok] at accepted
    obtain ⟨eventsTotal,_,accepted⟩ := accepted
    cases accepted
    exact resetLossProgress_stores (resetInputGeneration_stores stores)

theorem recordDispatch_stores {allowed : FileColumn → FileId → Prop} {started : Starting.Start}
    (stores : Stores allowed started.queued) (now : Time) (taskId : String) :
    Stores allowed (Starting.recordDispatch now started taskId).loaded := by
  have queued : Stores allowed (load started.queued.values) := fun field file held =>
    stores field file (by cases field <;> exact held)
  refine Stores.set (Stores.set ?_ (by decide) _) (by decide) _
  unfold Starting.setTaskId
  split
  · exact (queued.set (by decide) _).set (by decide) _
  · exact (queued.set (by decide) _).set (by decide) _

theorem start_possible {ctx : Starting.StartContext} {method : Starting.StartMethod} {entry : Entry}
    {started : Starting.Start} (accepted : Starting.start ctx method (load entry.row) = .ok started) (now : Time)
    (taskId : String) :
    (Work.other entry [Analysis.save started.queued,Starting.recordDispatch now started taskId]).Possible entry := by
  have queued : Stores (fun field file => entry.file field = some file) started.queued :=
    start_stores (fun _ _ => id) accepted
  refine ⟨rfl,fun save saved => ?_⟩
  simp only [List.mem_cons,List.not_mem_nil,or_false] at saved
  rcases saved with rfl | rfl
  · exact queued
  · exact recordDispatch_stores queued now taskId

theorem cancel_possible {env : Env} {entry : Entry} {action : CancelEffects.CancelAction} {save : AnalysisSave}
    (cancelled : action.cancelled env entry.row = .ok save) : (Work.other entry [save]).Possible entry := by
  have loaded : Stores (fun field file => entry.file field = some file) (load entry.row) := fun _ _ => id
  have run : ∀ {save}, Cancellation.cancelAnalysis env (load entry.row) = .ok save →
      Stores (fun field file => entry.file field = some file) save.loaded := by
    intro save cancelled
    unfold Cancellation.cancelAnalysis at cancelled
    split_ifs at cancelled
    cases cancelled
    exact ((loaded.set (by decide) _).set (by decide) _).set (by decide) _
  have generation : ∀ {save}, Cancellation.cancelGenerateInputs env (load entry.row) = .ok save →
      Stores (fun field file => entry.file field = some file) save.loaded := by
    intro save cancelled
    unfold Cancellation.cancelGenerateInputs at cancelled
    split_ifs at cancelled
    cases cancelled
    exact ((loaded.set (by decide) _).set (by decide) _).set (by decide) _
  refine ⟨rfl,fun other saved => ?_⟩
  rw [List.mem_singleton.mp saved]
  cases action with
  | cancel =>
    simp only [CancelEffects.CancelAction.cancelled,Cancellation.cancelAny] at cancelled
    split_ifs at cancelled
    · exact generation cancelled
    · exact run cancelled
  | cancelAnalysisRun => exact run cancelled
  | cancelGenerateInputs => exact generation cancelled

/-- The same analysis, perhaps with fewer files. -/
structure Below (later entry : Entry) : Prop where
  id : later.id = entry.id
  options : later.chunkingOptions = entry.chunkingOptions
  file : ∀ field file, later.file field = some file → entry.file field = some file

theorem Below.targets {later entry : Entry} (below : Below later entry) {target : Target} (named : target ∈ later.targets) :
    target ∈ entry.targets := by
  obtain ⟨ref,listed,same⟩ := mem_targets.mp named
  refine mem_targets.mpr ⟨ref,listed,?_⟩
  cases ref with
  | file field =>
    obtain ⟨file,held,rfl⟩ := Option.map_eq_some_iff.mp same
    exact Option.map_eq_some_iff.mpr ⟨file,below.file field file held,rfl⟩
  | chunkingOptions =>
    show entry.chunkingOptions.map _ = _
    rw [← below.options]
    exact same

/-- Every row that an analysis refers to is there. -/
def Closed (store : Store) : Prop := ∀ entry ∈ store.analyses, ∀ target ∈ entry.targets, store.has target = true

/-- Rows are taken away, with the references to them. -/
structure Shrinks (store after : Store) : Prop where
  keys : List.Sublist (after.analyses.map fun entry => (entry.id,entry.chunkingOptions))
    (store.analyses.map fun entry => (entry.id,entry.chunkingOptions))
  files : List.Sublist after.files store.files
  options : List.Sublist after.chunkingOptions store.chunkingOptions
  below : ∀ later ∈ after.analyses, ∃ entry ∈ store.analyses, Below later entry
  closed : Closed store → Closed after

theorem Shrinks.refl (store : Store) : Shrinks store store :=
  ⟨.refl _,.refl _,.refl _,fun entry listed => ⟨entry,listed,rfl,rfl,fun _ _ => id⟩,id⟩

theorem Shrinks.trans {store middle after : Store} (first : Shrinks store middle) (second : Shrinks middle after) :
    Shrinks store after := by
  refine ⟨second.keys.trans first.keys,second.files.trans first.files,second.options.trans first.options,?_,
    fun closed => second.closed (first.closed closed)⟩
  intro last listed
  obtain ⟨later,among,low⟩ := second.below last listed
  obtain ⟨entry,member,high⟩ := first.below later among
  exact ⟨entry,member,low.id.trans high.id,low.options.trans high.options,
    fun field file held => high.file field file (low.file field file held)⟩

theorem Shrinks.constraints {store after : Store} (shrinks : Shrinks store after) (constraints : Constraints store) :
    Constraints after := by
  refine ⟨?_,?_,constraints.optionsKey.sublist shrinks.options,?_,shrinks.closed constraints.foreignKeys⟩
  · have ids := shrinks.keys.map Prod.fst
    simp only [List.map_map] at ids
    exact constraints.analysisKey.sublist ids
  · exact constraints.fileKey.sublist (shrinks.files.map _)
  · have options := shrinks.keys.filterMap Prod.snd
    simp only [List.filterMap_map] at options
    exact constraints.oneToOne.sublist options

theorem getFile_foldl_clear (target : Target) (fields : List FileColumn) (analysis : Analysis) (other : FileColumn) :
    getFile (fields.foldl (fun analysis field =>
      if (getFile analysis field).map Target.file = some target then setFile analysis none field else analysis) analysis)
        other =
      if other ∈ fields ∧ (getFile analysis other).map Target.file = some target then none
      else getFile analysis other := by
  induction fields generalizing analysis with
  | nil => simp
  | cons field rest ih =>
    rw [List.foldl_cons,ih]
    by_cases here : other = field
    · subst here
      by_cases held : (getFile analysis other).map Target.file = some target
      · simp [held,getFile_setFile]
      · simp [held]
    · by_cases held : (getFile analysis field).map Target.file = some target
      · simp [held,getFile_setFile,here]
      · simp [held,here]

theorem setNull_file (target : Target) (entry : Entry) (field : FileColumn) :
    (entry.setNull target).file field =
      if field ∈ setNullColumns ∧ (entry.file field).map Target.file = some target then none else entry.file field := by
  refine Eq.trans ?_ (getFile_foldl_clear target setNullColumns (load entry.row) field)
  cases field <;> rfl

theorem setNull_below (target : Target) (entry : Entry) : Below (entry.setNull target) entry := by
  refine ⟨rfl,rfl,fun field file held => ?_⟩
  rw [setNull_file] at held
  split_ifs at held
  exact held

/-- An analysis that stays does not refer to the row any more. -/
theorem setNull_targets {target : Target} {entry : Entry} (stays : entry.refers .cascade target = false) :
    target ∉ (entry.setNull target).targets := by
  intro named
  obtain ⟨ref,listed,same⟩ := mem_targets.mp named
  have refers : ∀ ref ∈ forRemoval, ref.onDelete = .cascade → ref.target entry ≠ some target := by
    intro ref listed rule same
    rw [Entry.refers,List.any_eq_false] at stays
    exact stays ref listed (by simp [rule,same])
  cases ref with
  | file field =>
    simp only [Reference.target,setNull_file] at same
    split_ifs at same with cleared
    · cases same
    · refine refers (.file field) listed ?_ same
      by_cases nullable : field ∈ setNullColumns
      · exact absurd ⟨nullable,same⟩ cleared
      · cases field <;> first | rfl | exact absurd (by decide) nullable
  | chunkingOptions => exact refers .chunkingOptions listed rfl same

theorem filter_shrinks (store : Store) (kept : Entry → Bool) :
    Shrinks store { store with analyses := store.analyses.filter kept } := by
  refine ⟨List.filter_sublist.map _,.refl _,.refl _,?_,?_⟩
  · intro entry listed
    exact ⟨entry,(List.mem_filter.mp listed).1,rfl,rfl,fun _ _ => id⟩
  · intro closed entry listed target named
    exact closed entry (List.mem_filter.mp listed).1 target named

/-- Analyses that only lose files. -/
theorem map_shrinks (store : Store) {change : Entry → Entry} (below : ∀ entry, Below (change entry) entry) :
    Shrinks store { store with analyses := store.analyses.map change } := by
  refine ⟨?_,.refl _,.refl _,?_,?_⟩
  · have kept : (fun entry => (entry.id,entry.chunkingOptions)) ∘ change = fun entry : Entry =>
        (entry.id,entry.chunkingOptions) := by
      funext entry
      exact Prod.ext (below entry).id (below entry).options
    rw [List.map_map,kept]
  · intro later listed
    obtain ⟨entry,among,rfl⟩ := List.mem_map.mp listed
    exact ⟨entry,among,below entry⟩
  · intro closed later listed other named
    obtain ⟨entry,among,rfl⟩ := List.mem_map.mp listed
    exact closed entry among other ((below entry).targets named)

theorem setNull_shrinks (store : Store) (target : Target) :
    Shrinks store { store with analyses := store.analyses.map (Entry.setNull target) } :=
  map_shrinks store (setNull_below target)

theorem setDataFiles_shrinks (store : Store) (id : AnalysisId) (files : List Nat) :
    Shrinks store { store with
      analyses := Tables.edit Entry.id store.analyses id fun entry => { entry with dataFiles := files } } := by
  refine map_shrinks store fun entry => ?_
  split_ifs
  · exact ⟨rfl,rfl,fun _ _ held => held⟩
  · exact ⟨rfl,rfl,fun _ _ held => held⟩

theorem remove_shrinks {store : Store} {target : Target} (apart : ∀ entry ∈ store.analyses, target ∉ entry.targets) :
    Shrinks store (store.remove target) := by
  refine ⟨?_,?_,?_,?_,?_⟩
  · rw [remove_analyses]
  · cases target with
    | file id => exact List.filter_sublist
    | chunkingOptions id => exact .refl _
  · cases target with
    | file id => exact .refl _
    | chunkingOptions id => exact List.filter_sublist
  · intro entry listed
    rw [remove_analyses] at listed
    exact ⟨entry,listed,rfl,rfl,fun _ _ => id⟩
  · intro closed entry listed other named
    rw [remove_analyses] at listed
    refine (remove_has _ _ _).mpr ⟨closed entry listed other named,?_⟩
    rintro rfl
    exact apart entry listed named

theorem foldlM_shrinks {α : Type} {step : Store → α → Option Store}
    (each : ∀ store item after, step store item = some after → Shrinks store after) {items : List α}
    {store after : Store} (folded : items.foldlM step store = some after) : Shrinks store after := by
  induction items generalizing store with
  | nil =>
    cases folded
    exact .refl _
  | cons item rest ih =>
    rw [List.foldlM_cons] at folded
    obtain ⟨middle,first,later⟩ := Option.bind_eq_some_iff.mp folded
    exact (each store item middle first).trans (ih later)

section Handler
variable {handler : Entry → Store → Option Store}
  (handlerShrinks : ∀ entry store after, handler entry store = some after → Shrinks store after)
include handlerShrinks

theorem deleteTarget_shrinks {target : Target} {store after : Store}
    (deleted : deleteTarget handler target store = some after) : Shrinks store after := by
  simp only [deleteTarget,Option.bind_eq_bind,Option.bind_eq_some_iff,Option.some.injEq] at deleted
  obtain ⟨middle,cascaded,rfl⟩ := deleted
  have left := (filter_shrinks store fun entry => !entry.refers .cascade target).trans (setNull_shrinks _ target)
  have handled := foldlM_shrinks (fun store entry after => handlerShrinks entry store after) cascaded
  refine (left.trans handled).trans (remove_shrinks fun later listed named => ?_)
  obtain ⟨entry,among,below⟩ := handled.below later listed
  obtain ⟨before,kept,rfl⟩ := List.mem_map.mp among
  exact setNull_targets (by simpa using (List.mem_filter.mp kept).2) (below.targets named)

theorem deleteReference_shrinks {loading : Loading} {entry : Entry} {store after : Store} {ref : Reference}
    (deleted : deleteReference handler loading entry store ref = some after) : Shrinks store after := by
  unfold deleteReference at deleted
  cases named : ref.target entry with
  | none =>
    simp only [named,Option.some.injEq] at deleted
    exact deleted ▸ .refl _
  | some target =>
    simp only [named] at deleted
    split_ifs at deleted
    exact deleteTarget_shrinks handlerShrinks deleted

end Handler

/-- The handler, with all that goes on in it, takes rows away and leaves no reference to them. -/
theorem deleteConnectedFiles_shrinks {depth : Nat} {loading : Loading} {entry : Entry} {store after : Store}
    (deleted : deleteConnectedFiles depth loading entry store = some after) : Shrinks store after := by
  induction depth generalizing loading entry store after with
  | zero => cases deleted
  | succ depth ih =>
    exact foldlM_shrinks (fun _ _ _ => deleteReference_shrinks fun _ _ _ => ih) deleted

theorem delete_shrinks {loading : Loading} {id : AnalysisId} {store after : Store}
    (deleted : store.delete loading id = some after) : Shrinks store after := by
  simp only [Store.delete,Option.bind_eq_bind,Option.bind_eq_some_iff] at deleted
  obtain ⟨entry,_,deleted⟩ := deleted
  exact (filter_shrinks store _).trans (deleteConnectedFiles_shrinks deleted)

/-! ### The invariant -/

structure Sound (system : System) : Prop where
  constraints : Constraints system.store
  placed : ∀ entry ∈ system.store.analyses, ∀ field file, entry.file field = some file →
    system.made file entry.id field
  pending : ∀ process ∈ system.processes, ∀ save ∈ process.todo,
    Stores (fun field file => system.made file process.loaded.id field) save.loaded
  exclusive : ∀ file analysis field other column, system.made file analysis field → system.made file other column →
    analysis = other ∧ (field = column ∨ RunColumn field ∧ RunColumn column)

theorem empty_sound : Sound .empty := by
  refine ⟨by decide,?_,?_,?_⟩
  · intro entry listed
    cases listed
  · intro process listed
    cases listed
  · intro file analysis field other column made
    cases made

/-- Rows that are taken away. -/
theorem Sound.shrink {system : System} (sound : Sound system) {after : Store} (shrinks : Shrinks system.store after) :
    Sound { system with store := after } := by
  refine ⟨shrinks.constraints sound.constraints,?_,sound.pending,sound.exclusive⟩
  intro later listed field file held
  obtain ⟨entry,among,below⟩ := shrinks.below later listed
  have made := sound.placed entry among field file (below.file field file held)
  rw [← below.id] at made
  exact made

/-- What a process saves has the files of the instance that it loaded, and those that it makes. -/
theorem Work.saves_stores {entry : Entry} {work : Work} (possible : work.Possible entry) {save : AnalysisSave}
    (saved : save ∈ work.saves entry) :
    Stores (fun field file => entry.file field = some file ∨ work.makes entry.id field file) save.loaded := by
  cases work with
  | task env subTasks task => exact saves_files saved
  | combine env result userId => exact recordCombineOutput_stores (Option.mem_toList.mp saved)
  | settings changed file =>
    rw [List.mem_singleton.mp saved]
    have base : Stores (fun field id => entry.file field = some id ∨ (Work.settings changed file).makes entry.id field id)
        (SharedRow.load changed.row) := fun field id held => .inl ((possible.2 field).symm.trans held)
    refine base.setFile .settingsFile fun id same => ?_
    cases same
    exact .inr ⟨rfl,rfl⟩
  | relatedFile field file =>
    have base : Stores (fun column id => entry.file column = some id ∨
        (Work.relatedFile field file).makes entry.id column id) (SharedRow.load entry.row) := fun _ _ => .inl
    rcases List.mem_append.mp saved with cleared | attached
    · split_ifs at cleared
      · rw [List.mem_singleton.mp cleared]
        exact base.clear field
      · cases cleared
    · obtain ⟨id,given,rfl⟩ := Option.map_eq_some_iff.mp (Option.mem_toList.mp attached)
      refine base.setFile field fun other same => ?_
      cases same
      exact .inr ⟨rfl,given⟩
  | other changed saves => exact fun field file held => .inl (possible.2 save saved field file held)

/-- One process makes a file for one column, or for the two of a run. -/
theorem Work.makes_apart {entry : Entry} {work : Work} (possible : work.Possible entry) {file : FileId}
    {field other : FileColumn} (here : work.makes entry.id field file) (there : work.makes entry.id other file) :
    field = other ∨ RunColumn field ∧ RunColumn other := by
  cases work with
  | task env subTasks message =>
    obtain ⟨name,named,made⟩ := here
    obtain ⟨same,also,again⟩ := there
    rw [possible name same file made again] at named
    exact names_apart named also
  | combine env result userId =>
    obtain ⟨name,named,made⟩ := here
    obtain ⟨same,also,again⟩ := there
    rw [possible name same file made again] at named
    exact .inl (columnName_apart named also)
  | settings changed made => exact .inl (here.1.trans there.1.symm)
  | relatedFile column made => exact .inl (here.1.trans there.1.symm)
  | other changed saves => exact here.elim

theorem Work.loaded_id {entry : Entry} {work : Work} (possible : work.Possible entry) :
    (work.loaded entry).id = entry.id := by
  cases work with
  | settings changed file => exact possible.1
  | other changed saves => exact possible.1
  | _ => rfl

theorem Sound.load {system : System} (sound : Sound system) {entry : Entry} (listed : entry ∈ system.store.analyses)
    {work : Work} (possible : work.Possible entry)
    (fresh : ∀ field file, work.makes entry.id field file → system.Unmade file) :
    Sound { system with
      processes := ⟨work.loaded entry,work.saves entry⟩ :: system.processes
      made := fun file analysis field =>
        system.made file analysis field ∨ analysis = entry.id ∧ work.makes entry.id field file } := by
  refine ⟨sound.constraints,fun other among field file held => .inl (sound.placed other among field file held),?_,?_⟩
  · intro process running save saved field file held
    rcases List.mem_cons.mp running with rfl | before
    · show system.made _ (work.loaded entry).id _ ∨ (work.loaded entry).id = entry.id ∧ _
      rw [Work.loaded_id possible]
      rcases Work.saves_stores possible saved field file held with had | makes
      · exact .inl (sound.placed entry listed field file had)
      · exact .inr ⟨rfl,makes⟩
    · exact .inl (sound.pending process before save saved field file held)
  · intro file analysis field other column here there
    rcases here with made | ⟨rfl,makes⟩ <;> rcases there with again | ⟨rfl,also⟩
    · exact sound.exclusive file analysis field other column made again
    · exact absurd made (fresh column file also analysis field)
    · exact absurd again (fresh field file makes other column)
    · exact ⟨rfl,Work.makes_apart possible makes also⟩

/-- What a save leaves meets the constraints, and its files are those of the instance or were there. -/
theorem save_spec {store after : Store} {loaded : Entry} {save : AnalysisSave} (saved : store.save loaded save = some after) :
    Constraints after ∧ ∀ later ∈ after.analyses, ∀ field file, later.file field = some file →
      (∃ entry ∈ store.analyses, entry.id = later.id ∧ entry.file field = some file) ∨
        later.id = loaded.id ∧ getFile save.loaded field = some file := by
  have committed : ∀ {next : Store}, next.commit = some after → Constraints after ∧ after = next := by
    intro next commit
    unfold Store.commit at commit
    split_ifs at commit with constraints
    cases commit
    exact ⟨constraints,rfl⟩
  unfold Store.save at saved
  split_ifs at saved with known full
  · obtain ⟨constraints,rfl⟩ := committed saved
    refine ⟨constraints,fun later listed field file held => ?_⟩
    rcases Tables.mem_edit listed with ⟨among,_⟩ | ⟨entry,among,here,rfl⟩
    · exact .inl ⟨later,among,rfl,held⟩
    · unfold Entry.saved at held ⊢
      cases fields : save.updateFields with
      | none =>
        simp only [fields] at held ⊢
        exact .inr ⟨trivial,by cases field <;> exact held⟩
      | some columns =>
        simp only [fields] at held ⊢
        have value : ({ entry with row := save.apply entry.row } : Entry).file field =
            if save.writes field.column then getFile save.loaded field else entry.file field := by
          cases field <;> rfl
        rw [value] at held
        split_ifs at held
        · exact .inr ⟨here,held⟩
        · exact .inl ⟨entry,among,rfl,held⟩
  · obtain ⟨constraints,rfl⟩ := committed saved
    refine ⟨constraints,fun later listed field file held => ?_⟩
    rcases List.mem_append.mp listed with among | new
    · exact .inl ⟨later,among,rfl,held⟩
    · rw [List.mem_singleton.mp new] at held ⊢
      exact .inr ⟨rfl,by cases field <;> exact held⟩

theorem Sound.save {system : System} (sound : Sound system) {before rest : List Process} {loaded : Entry}
    {save : AnalysisSave} {todo : List AnalysisSave} (running : system.processes = before ++ ⟨loaded,save :: todo⟩ :: rest)
    {after : Store} (saved : system.store.save loaded save = some after) :
    Sound { system with store := after, processes := before ++ ⟨loaded,todo⟩ :: rest } := by
  obtain ⟨constraints,files⟩ := save_spec saved
  have here : ⟨loaded,save :: todo⟩ ∈ system.processes := by simp [running]
  refine ⟨constraints,?_,?_,sound.exclusive⟩
  · intro later listed field file held
    rcases files later listed field file held with ⟨entry,among,same,had⟩ | ⟨same,stored⟩
    · exact same ▸ sound.placed entry among field file had
    · exact same ▸ sound.pending _ here save (by simp) field file stored
  · intro process listed other member
    rcases List.mem_append.mp listed with early | late
    · exact sound.pending process (by simp [running,early]) other member
    · rcases List.mem_cons.mp late with rfl | late
      · exact sound.pending _ here other (List.mem_cons_of_mem _ member)
      · exact sound.pending process (by simp [running,late]) other member

/-- A copy has at most a settings file of its own. -/
theorem copy_spec {store : Store} (constraints : Constraints store) {keys : NewKeys}
    (newAnalysis : keys.analysis ∉ store.analyses.map Entry.id) (newFile : keys.file ∉ store.files.map RelatedFile.id)
    (user : UserId) (data : Except ValidationErrors Attrs) (id : AnalysisId) :
    Constraints (store.copy keys user data id).2 ∧ ∀ later ∈ (store.copy keys user data id).2.analyses,
      later ∈ store.analyses ∨ later.id = keys.analysis ∧
        ∀ field file, later.file field = some file → field = .settingsFile ∧ file = keys.file := by
  cases found : store.analyses.find? fun entry => entry.id = id with
  | none =>
    simp only [Store.copy,found]
    exact ⟨constraints,fun later listed => .inl listed⟩
  | some entry =>
    have listed := List.mem_of_find?_eq_some found
    obtain rfl : entry.id = id := by simpa using List.find?_some found
    obtain ⟨files,ids,copying⟩ := copy_eq constraints listed newAnalysis newFile user data
    rw [copying]
    have stored : ∀ new : Entry, new.id = keys.analysis → new.chunkingOptions = none →
        (∀ field, new.file field = if field = .settingsFile then copiedFile keys entry else none) →
        Constraints (store.addCopy files new) ∧
          ∀ later ∈ (store.addCopy files new).analyses, later ∈ store.analyses ∨ later.id = keys.analysis ∧
            ∀ field file, later.file field = some file → field = .settingsFile ∧ file = keys.file := by
      intro new id noOptions held
      refine ⟨constraints_copy constraints newFile ids (id ▸ newAnalysis) noOptions held,fun later member => ?_⟩
      rcases List.mem_append.mp member with among | last
      · exact .inl among
      · rw [List.mem_singleton.mp last]
        refine .inr ⟨id,fun field file had => ?_⟩
        rw [held] at had
        split_ifs at had with here
        obtain ⟨_,_,same⟩ := Option.map_eq_some_iff.mp had
        exact ⟨here,same.symm⟩
    by_cases shared : entry.chunkingOptions = none
    · rw [if_pos shared]
      have unchanged := stored (inserted keys entry) rfl shared (inserted_file keys entry)
      cases data with
      | error errors => exact unchanged
      | ok attrs =>
        by_cases given : attrs.settings.isSome = true
        · simp only [if_pos given]
          exact unchanged
        · simp only [if_neg given]
          exact stored (copied keys user attrs entry) rfl shared (copied_file keys user attrs entry)
    · rw [if_neg shared]
      exact ⟨constraints_copiedFile constraints newFile ids,fun later among => .inl among⟩

theorem Sound.storeFile {system : System} (sound : Sound system) {file : RelatedFile}
    (fresh : file.id ∉ system.store.files.map RelatedFile.id) :
    Sound { system with store := { system.store with files := system.store.files ++ [file] } } := by
  refine ⟨sound.constraints.addFiles (List.nodup_singleton _) ?_,sound.placed,sound.pending,sound.exclusive⟩
  intro other member
  rw [List.mem_singleton.mp member]
  exact fresh

theorem Sound.create {system : System} (sound : Sound system) {entry : Entry}
    (fresh : entry.id ∉ system.store.analyses.map Entry.id) (noTargets : entry.targets = []) :
    Sound { system with store := { system.store with analyses := system.store.analyses ++ [entry] } } := by
  have noOptions : entry.chunkingOptions = none := by
    cases chosen : entry.chunkingOptions with
    | none => rfl
    | some options =>
      have named : .chunkingOptions options ∈ entry.targets :=
        mem_targets.mpr ⟨.chunkingOptions,by decide,by simp [Reference.target,chosen]⟩
      simp [noTargets] at named
  refine ⟨sound.constraints.addEntry fresh noOptions (by simp [noTargets]),?_,sound.pending,sound.exclusive⟩
  intro other member field file held
  rcases List.mem_append.mp member with among | new
  · exact sound.placed other among field file held
  · rw [List.mem_singleton.mp new] at held
    have named := file_mem_targets held
    simp [noTargets] at named

theorem Sound.leave {system : System} (sound : Sound system) {before rest : List Process} {process : Process}
    (running : system.processes = before ++ process :: rest) : Sound { system with processes := before ++ rest } := by
  refine ⟨sound.constraints,sound.placed,?_,sound.exclusive⟩
  intro other listed
  refine sound.pending other ?_
  rw [running]
  rcases List.mem_append.mp listed with early | late
  · exact List.mem_append_left _ early
  · exact List.mem_append_right _ (List.mem_cons_of_mem _ late)

theorem Sound.copy {system : System} (sound : Sound system) {keys : NewKeys} (user : UserId)
    (data : Except ValidationErrors Attrs) (id : AnalysisId) (newAnalysis : keys.analysis ∉ system.store.analyses.map Entry.id)
    (newFile : keys.file ∉ system.store.files.map RelatedFile.id) (unmade : system.Unmade keys.file) :
    Sound { system with
      store := (system.store.copy keys user data id).2
      made := fun file analysis field => system.made file analysis field ∨
        file = keys.file ∧ analysis = keys.analysis ∧ field = .settingsFile } := by
  obtain ⟨constraints,files⟩ := copy_spec sound.constraints newAnalysis newFile user data id
  refine ⟨constraints,?_,?_,?_⟩
  · intro later listed field file held
    rcases files later listed with among | ⟨new,own⟩
    · exact .inl (sound.placed later among field file held)
    · obtain ⟨here,same⟩ := own field file held
      exact .inr ⟨same,new,here⟩
  · intro process running save saved field file held
    exact .inl (sound.pending process running save saved field file held)
  · intro file analysis field other column here there
    rcases here with made | ⟨rfl,rfl,rfl⟩ <;> rcases there with again | ⟨same,rfl,rfl⟩
    · exact sound.exclusive file analysis field other column made again
    · exact absurd made (same ▸ unmade analysis field)
    · exact absurd again (unmade other column)
    · exact ⟨rfl,.inl rfl⟩

theorem step_sound {system after : System} (sound : Sound system) (step : Step system after) : Sound after := by
  cases step with
  | storeFile file fresh => exact sound.storeFile fresh
  | deleteFile id deleted =>
    exact sound.shrink (deleteTarget_shrinks (fun _ _ _ => deleteConnectedFiles_shrinks) deleted)
  | storeOptions id fresh =>
    exact ⟨sound.constraints.addOptions fresh,sound.placed,sound.pending,sound.exclusive⟩
  | create entry fresh noTargets => exact sound.create fresh noTargets
  | load entry listed work possible fresh => exact sound.load listed possible fresh
  | save before rest loaded save todo running saved => exact sound.save running saved
  | leave before rest process running => exact sound.leave running
  | setDataFiles id files => exact sound.shrink (setDataFiles_shrinks system.store id files)
  | copy keys user data id newAnalysis newFile unmade => exact sound.copy user data id newAnalysis newFile unmade
  | delete loading id deleted => exact sound.shrink (delete_shrinks deleted)

theorem sound_of_reachable {system : System} (reachable : Reachable system) : Sound system := by
  induction reachable with
  | empty => exact empty_sound
  | step reachable step ih => exact step_sound ih step

/-- The two columns of a run have the same file. -/
def SharesRunFile (entry : Entry) : Prop :=
  ∃ file, entry.file .runTracebackFile = some file ∧ entry.file .runLogFile = some file

section Rows
variable {system : System} (sound : Sound system) {entry : Entry} (listed : entry ∈ system.store.analyses)
include sound listed

/-- No other analysis refers to what goes with an analysis. -/
theorem Sound.own {other : Entry} (among : other ∈ system.store.analyses) (different : other.id ≠ entry.id)
    {target : Target} (named : target ∈ entry.targets) : target ∉ other.targets := by
  intro again
  obtain ⟨ref,_,here⟩ := mem_targets.mp named
  obtain ⟨also,_,there⟩ := mem_targets.mp again
  cases ref with
  | file field =>
    obtain ⟨file,held,rfl⟩ := Option.map_eq_some_iff.mp here
    cases also with
    | file column =>
      obtain ⟨_,had,same⟩ := Option.map_eq_some_iff.mp there
      cases same
      exact different (sound.exclusive file other.id column entry.id field (sound.placed other among column file had)
        (sound.placed entry listed field file held)).1
    | chunkingOptions => simp [Reference.target] at there
  | chunkingOptions =>
    obtain ⟨options,chosen,rfl⟩ := Option.map_eq_some_iff.mp here
    cases also with
    | file column => simp [Reference.target] at there
    | chunkingOptions =>
      obtain ⟨_,had,same⟩ := Option.map_eq_some_iff.mp there
      cases same
      rw [Tables.filterMap_inj sound.constraints.oneToOne among listed had chosen] at different
      exact different rfl

/-- What goes with an analysis are different rows, unless the columns of a run share one. -/
theorem Sound.distinct (apart : ¬ SharesRunFile entry) : entry.targets.Nodup := by
  refine List.Nodup.filterMap (fun ref also target here there => ?_) (by decide)
  rw [Option.mem_def] at here there
  cases ref with
  | chunkingOptions =>
    cases also with
    | chunkingOptions => rfl
    | file field =>
      obtain ⟨_,_,rfl⟩ := Option.map_eq_some_iff.mp here
      simp [Reference.target] at there
  | file field =>
    obtain ⟨file,held,rfl⟩ := Option.map_eq_some_iff.mp here
    cases also with
    | chunkingOptions => simp [Reference.target] at there
    | file column =>
      obtain ⟨_,had,same⟩ := Option.map_eq_some_iff.mp there
      cases same
      have placed := sound.placed entry listed
      rcases (sound.exclusive file _ field _ column (placed field file held) (placed column file had)).2 with
        same | ⟨first,second⟩
      · rw [same]
      · rcases first with rfl | rfl <;> rcases second with rfl | rfl
        · rfl
        · exact absurd ⟨file,held,had⟩ apart
        · exact absurd ⟨file,had,held⟩ apart
        · rfl

end Rows

end OasisPlatform.FilePlaces
