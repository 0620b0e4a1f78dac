import OasisPlatform.AnalysisViews
import OasisPlatform.Tables

/-!
Analyses with the rows that belong to them: the related files that their columns name, and
their chunking options. Deleting an analysis deletes these rows one after the other, and reads
each of them when its turn comes (`delete_eq`, `delete_shared`); copying one stores a row with
the same chunking options, which the one-to-one column refuses (`insert_copy`).
-/
namespace OasisPlatform.AnalysisRows
open SharedRow Models AnalysisTasks
open AnalysisViews (Attrs)
set_option linter.unusedSimpArgs false

structure RelatedFile where
  id : FileId
  filename : String
  contentType : String
  creator : UserId
  content : String
  deriving DecidableEq

/-- The columns of an analysis, without its time stamps. -/
structure Entry where
  id : AnalysisId
  creator : UserId
  portfolio : Nat
  model : Option Nat
  name : String
  row : AnalysisRow
  chunkingOptions : Option Nat
  dataFiles : List Nat

structure Store where
  analyses : List Entry
  files : List RelatedFile
  chunkingOptions : List Nat

def Entry.file (entry : Entry) (field : FileColumn) : Option FileId := getFile (load entry.row) field

/-- A row that an analysis may refer to. -/
inductive Target where
  | file (id : FileId)
  | chunkingOptions (id : Nat)
  deriving DecidableEq, Repr

inductive Reference where
  | file (field : FileColumn)
  | chunkingOptions
  deriving DecidableEq, Repr

def Reference.target (entry : Entry) : Reference → Option Target
  | .file field => (entry.file field).map .file
  | .chunkingOptions => entry.chunkingOptions.map .chunkingOptions

/-- The order of `delete_connected_files`. -/
def forRemoval : List Reference :=
  [.file .settingsFile,.file .inputFile,.file .inputGenerationTracebackFile,.file .outputFile,.file .runTracebackFile,
    .file .runLogFile,.file .lookupErrorsFile,.file .lookupSuccessFile,.file .lookupValidationFile,
    .file .summaryLevelsFile,.chunkingOptions]

inductive OnDelete where
  | cascade
  | setNull
  deriving DecidableEq, Repr

def Reference.onDelete : Reference → OnDelete
  | .file .inputGenerationTracebackFile => .setNull
  | .file .runTracebackFile => .setNull
  | .file .runLogFile => .setNull
  | _ => .cascade

/-- An analysis refers to a row with a column that has the rule. -/
def Entry.refers (entry : Entry) (rule : OnDelete) (target : Target) : Bool :=
  forRemoval.any fun ref => ref.onDelete = rule && ref.target entry = some target

def Store.has (store : Store) : Target → Bool
  | .file id => id ∈ store.files.map RelatedFile.id
  | .chunkingOptions id => id ∈ store.chunkingOptions

def Store.remove (store : Store) : Target → Store
  | .file id => { store with files := store.files.filter fun file => file.id ≠ id }
  | .chunkingOptions id => { store with chunkingOptions := store.chunkingOptions.filter (· ≠ id) }

/-- The rows that go with an analysis. -/
def Entry.targets (entry : Entry) : List Target := forRemoval.filterMap (Reference.target entry)

/-- The keys of the tables, and that the rows which analyses refer to are there; the chunking
    options of an analysis are a one-to-one field. -/
structure Constraints (store : Store) : Prop where
  analysisKey : (store.analyses.map Entry.id).Nodup
  fileKey : (store.files.map RelatedFile.id).Nodup
  optionsKey : store.chunkingOptions.Nodup
  oneToOne : (store.analyses.filterMap Entry.chunkingOptions).Nodup
  foreignKeys : ∀ entry ∈ store.analyses, ∀ target ∈ entry.targets, store.has target = true

instance (store : Store) : Decidable (Constraints store) :=
  decidable_of_iff ((store.analyses.map Entry.id).Nodup ∧ (store.files.map RelatedFile.id).Nodup ∧
    store.chunkingOptions.Nodup ∧ (store.analyses.filterMap Entry.chunkingOptions).Nodup ∧
    ∀ entry ∈ store.analyses, ∀ target ∈ entry.targets, store.has target = true)
    ⟨fun ⟨analyses,files,options,oneToOne,keys⟩ => ⟨analyses,files,options,oneToOne,keys⟩,
      fun ⟨analyses,files,options,oneToOne,keys⟩ => ⟨analyses,files,options,oneToOne,keys⟩⟩

/-- What a statement leaves, none where a constraint refuses it (`IntegrityError`). -/
def Store.commit (store : Store) : Option Store := if Constraints store then some store else none

/-- The row after a save of an instance; the data files are in a table of their own. -/
def Entry.saved (loaded : Entry) (save : AnalysisSave) (entry : Entry) : Entry :=
  match save.updateFields with
  | none => { loaded with row := save.loaded.values, dataFiles := entry.dataFiles }
  | some _ => { entry with row := save.apply entry.row }

/-- `save()`: where the row is gone, all columns are inserted again, and `update_fields` raises. -/
def Store.save (store : Store) (loaded : Entry) (save : AnalysisSave) : Option Store :=
  if loaded.id ∈ store.analyses.map Entry.id then
    Store.commit { store with analyses := Tables.edit Entry.id store.analyses loaded.id (loaded.saved save) }
  else if save.updateFields.isNone then
    Store.commit { store with
      analyses := store.analyses ++ [{ loaded with row := save.loaded.values, dataFiles := [] }] }
  else none

def setNullColumns : List FileColumn := [.inputGenerationTracebackFile,.runTracebackFile,.runLogFile]

def Entry.setNull (target : Target) (entry : Entry) : Entry :=
  { entry with
    row := (setNullColumns.foldl (fun analysis field =>
      if (getFile analysis field).map Target.file = some target then setFile analysis none field else analysis)
      (load entry.row)).values }

/-- Who deletes: the `destroy` of a view set, which has joined some of the files to the analysis, or
    another. -/
inductive Loading where
  | viewSet
  | plain
  deriving DecidableEq, Repr

/-- `file_action_types`. -/
def fileActionTypes : List FileColumn :=
  [.settingsFile,.inputFile,.lookupErrorsFile,.lookupSuccessFile,.lookupValidationFile,.summaryLevelsFile,
    .inputGenerationTracebackFile,.runTracebackFile,.outputFile,.runTracebackFile]

def Loading.joined (loading : Loading) : Reference → Bool
  | .file field => loading = .viewSet && field ∈ fileActionTypes
  | .chunkingOptions => false

section Handler
variable (handler : Entry → Store → Option Store)

/-- `obj_ref.delete()`: analyses that go with the row are deleted before it, and have the handler
    called for them. -/
def deleteTarget (target : Target) (store : Store) : Option Store := do
  let left := (store.analyses.filter fun entry => !entry.refers .cascade target).map (Entry.setNull target)
  let cascaded := store.analyses.filter fun entry => entry.refers .cascade target
  let store ← cascaded.foldlM (fun store entry => handler entry store) { store with analyses := left }
  some (store.remove target)

/-- `getattr(instance, ref)` raises where the row is read now and is gone. -/
def deleteReference (loading : Loading) (entry : Entry) (store : Store) (ref : Reference) : Option Store :=
  match ref.target entry with
  | none => some store
  | some target => if loading.joined ref || store.has target then deleteTarget handler target store else none

end Handler

/-- The handler after an analysis is deleted. -/
def deleteConnectedFiles : (depth : Nat) → Loading → Entry → Store → Option Store
  | 0,_,_,_ => none
  | depth + 1,loading,entry,store =>
    forRemoval.foldlM (deleteReference (deleteConnectedFiles depth .plain) loading entry) store

def Store.others (store : Store) (id : AnalysisId) : Store :=
  { store with analyses := store.analyses.filter fun other => other.id ≠ id }

/-- Deletes an analysis in one transaction, none where that raises. Each cascade has deleted another
    analysis, so that their number is deep enough. -/
def Store.delete (store : Store) (loading : Loading) (id : AnalysisId) : Option Store := do
  let entry ← store.analyses.find? fun entry => entry.id = id
  deleteConnectedFiles store.analyses.length loading entry (store.others id)

/-- The keys that the database gives to new rows. -/
structure NewKeys where
  analysis : AnalysisId
  file : FileId

/-- `Analysis.copy_file`. -/
def Store.copyFile (store : Store) (key : FileId) : Option FileId → Option (Option FileId × Store)
  | none => some (none,store)
  | some id => do
    let obj ← store.files.find? fun file => file.id = id
    some (some key,{ store with files := store.files ++ [{ obj with id := key }] })

/-- `Analysis.copy`, with its settings file copied. The data files are not among the values of the
    instance. -/
def Entry.copy (entry : Entry) (settingsFile : Option FileId) : Entry :=
  let analysis := (((load entry.row).set .runTaskId "").set .generateInputsTaskId "").set .status .new
  let analysis := analysis.set .settingsFile settingsFile
  let analysis := ((((analysis.set .inputFile none).set .inputGenerationTracebackFile none).set .outputFile none).set
    .runTracebackFile none).set .runLogFile none
  let analysis := (((analysis.set .lookupErrorsFile none).set .lookupSuccessFile none).set
    .lookupValidationFile none).set .summaryLevelsFile none
  { entry with
    name := String.ofList (entry.name.toList.take 248) ++ " - Copy"
    row := analysis.values
    dataFiles := [] }

/-- `save()` of an instance without a key. -/
def Store.insert (store : Store) (key : AnalysisId) (entry : Entry) : Option Store :=
  Store.commit { store with analyses := store.analyses ++ [{ entry with id := key }] }

/-- The fields of validated data, among them the creator. -/
def Entry.assign (entry : Entry) (user : UserId) (attrs : Attrs) : Entry :=
  { entry with
    creator := user
    name := attrs.name.getD entry.name
    portfolio := attrs.portfolio.getD entry.portfolio
    model := attrs.model <|> entry.model
    dataFiles := attrs.dataFiles.getD entry.dataFiles
    row := Function.update (Function.update (Function.update entry.row .priority
      (attrs.priority.getD (entry.row .priority))) .numEventsTotal
      (attrs.numEventsTotal.getD (entry.row .numEventsTotal))) .numEventsComplete
      (attrs.numEventsComplete.getD (entry.row .numEventsComplete)) }

inductive CopyResult where
  | created (entry : Entry)
  | invalid (errors : ValidationErrors)
  | notFound
  | raised

/-- The action `copy`; `data` is what the serializer makes of the request. Settings need the creator
    of the instance, which is not set. -/
def Store.copy (store : Store) (keys : NewKeys) (user : UserId) (data : Except ValidationErrors Attrs)
    (id : AnalysisId) : CopyResult × Store :=
  match store.analyses.find? fun entry => entry.id = id with
  | none => (.notFound,store)
  | some entry =>
    match store.copyFile keys.file (entry.file .settingsFile) with
    | none => (.raised,store)
    | some (settingsFile,store) =>
      match store.insert keys.analysis (entry.copy settingsFile) with
      | none => (.raised,store)
      | some store =>
        match data with
        | .error errors => (.invalid errors,store)
        | .ok attrs =>
          if attrs.settings.isSome then (.raised,store)
          else
            let assigned := ({ entry.copy settingsFile with id := keys.analysis }).assign user attrs
            (.created assigned,{ store with
              analyses := Tables.edit Entry.id store.analyses keys.analysis fun _ => assigned })

@[simp] theorem remove_analyses (store : Store) (target : Target) : (store.remove target).analyses = store.analyses := by
  cases target <;> rfl

theorem remove_has (store : Store) (target other : Target) :
    (store.remove target).has other = true ↔ store.has other = true ∧ other ≠ target := by
  cases target with
  | file id =>
    cases other with
    | file other =>
      simp only [Store.has,decide_eq_true_eq]
      simp only [Store.remove,List.mem_map,List.mem_filter,ne_eq,Target.file.injEq]
      constructor
      · rintro ⟨file,⟨listed,kept⟩,rfl⟩
        exact ⟨⟨file,listed,rfl⟩,by simpa using kept⟩
      · rintro ⟨⟨file,listed,rfl⟩,kept⟩
        exact ⟨file,⟨listed,by simpa using kept⟩,rfl⟩
    | chunkingOptions other => simp [Store.remove,Store.has]
  | chunkingOptions id => cases other <;> simp [Store.remove,Store.has]

theorem foldl_remove_analyses (targets : List Target) (store : Store) :
    (targets.foldl Store.remove store).analyses = store.analyses := by
  induction targets generalizing store with
  | nil => rfl
  | cons target rest ih => rw [List.foldl_cons,ih,remove_analyses]

theorem foldl_remove_has (targets : List Target) (store : Store) (other : Target) :
    (targets.foldl Store.remove store).has other = true ↔ store.has other = true ∧ other ∉ targets := by
  induction targets generalizing store with
  | nil => simp
  | cons target rest ih => rw [List.foldl_cons,ih,remove_has,List.mem_cons,not_or,and_assoc]

theorem foldl_remove_files (targets : List Target) (store : Store) (file : RelatedFile) :
    file ∈ (targets.foldl Store.remove store).files ↔ file ∈ store.files ∧ .file file.id ∉ targets := by
  induction targets generalizing store with
  | nil => simp
  | cons target rest ih =>
    rw [List.foldl_cons,ih,List.mem_cons,not_or,← and_assoc]
    refine and_congr_left fun _ => ?_
    cases target with
    | file id => simp [Store.remove]
    | chunkingOptions id => simp [Store.remove]

/-! ### What deleting does -/

theorem mem_targets {entry : Entry} {target : Target} :
    target ∈ entry.targets ↔ ∃ ref ∈ forRemoval, ref.target entry = some target := List.mem_filterMap

theorem file_mem_targets {entry : Entry} {field : FileColumn} {file : FileId} (named : entry.file field = some file) :
    .file file ∈ entry.targets := by
  refine mem_targets.mpr ⟨.file field,?_,by simp [Reference.target,named]⟩
  cases field <;> decide

theorem not_refers {entry : Entry} {target : Target} (apart : target ∉ entry.targets) (rule : OnDelete) :
    entry.refers rule target = false := by
  rw [Entry.refers,List.any_eq_false]
  intro ref listed
  have other : ref.target entry ≠ some target := fun same => apart (mem_targets.mpr ⟨ref,listed,same⟩)
  simp [other]

theorem setNull_apart {entry : Entry} {target : Target} (apart : target ∉ entry.targets) :
    entry.setNull target = entry := by
  have other : ∀ field, (getFile (load entry.row) field).map Target.file ≠ some target := by
    intro field same
    obtain ⟨file,named,rfl⟩ := Option.map_eq_some_iff.mp same
    exact apart (file_mem_targets named)
  rw [Entry.setNull,List.foldl_fixed' fun field => if_neg (other field)]
  rfl

section Deleting
variable (handler : Entry → Store → Option Store) {loading : Loading} {entry : Entry} {store : Store}

/-- A row that no analysis refers to is all that goes. -/
theorem deleteTarget_apart {target : Target} (apart : ∀ other ∈ store.analyses, target ∉ other.targets) :
    deleteTarget handler target store = some (store.remove target) := by
  have left : (store.analyses.filter fun entry => !entry.refers .cascade target) = store.analyses := by
    refine List.filter_eq_self.mpr fun other listed => ?_
    simp [not_refers (apart other listed)]
  have cascaded : (store.analyses.filter fun entry => entry.refers .cascade target) = [] := by
    refine List.filter_eq_nil_iff.mpr fun other listed => ?_
    simp [not_refers (apart other listed)]
  have same : store.analyses.map (Entry.setNull target) = store.analyses :=
    (List.map_congr_left fun other listed => setNull_apart (apart other listed)).trans (List.map_id _)
  simp only [deleteTarget,left,cascaded,same]
  rfl

/-- Rows that are there, that are different and that no analysis refers to are removed in turn. -/
theorem foldlM_deleteReference {refs : List Reference}
    (apart : ∀ other ∈ store.analyses, ∀ target ∈ refs.filterMap (Reference.target entry), target ∉ other.targets)
    (stored : ∀ target ∈ refs.filterMap (Reference.target entry), store.has target = true)
    (distinct : (refs.filterMap (Reference.target entry)).Nodup) :
    refs.foldlM (deleteReference handler loading entry) store =
      some ((refs.filterMap (Reference.target entry)).foldl Store.remove store) := by
  induction refs generalizing store with
  | nil => rfl
  | cons ref rest ih =>
    rw [List.foldlM_cons]
    cases named : ref.target entry with
    | none =>
      rw [List.filterMap_cons_none named] at apart stored distinct ⊢
      have skipped : deleteReference handler loading entry store ref = some store := by
        simp [deleteReference,named]
      rw [skipped]
      exact ih apart stored distinct
    | some target =>
      rw [List.filterMap_cons_some named] at apart stored distinct ⊢
      have deleted : deleteReference handler loading entry store ref = some (store.remove target) := by
        simp only [deleteReference,named,stored target (by simp),Bool.or_true,if_true]
        exact deleteTarget_apart handler fun other listed => apart other listed target (by simp)
      obtain ⟨fresh,distinct⟩ := List.nodup_cons.mp distinct
      rw [deleted,List.foldl_cons]
      refine ih ?_ ?_ distinct
      · intro other listed later member
        rw [remove_analyses] at listed
        exact apart other listed later (List.mem_cons_of_mem _ member)
      · intro later member
        refine (remove_has _ _ _).mpr ⟨stored later (List.mem_cons_of_mem _ member),?_⟩
        rintro rfl
        exact fresh member

/-- What has been deleted is gone. -/
theorem deleteReference_removed {after : Store} {ref : Reference} {target : Target}
    (deleted : deleteReference handler loading entry store ref = some after) (named : ref.target entry = some target) :
    after.has target = false := by
  simp only [deleteReference,named] at deleted
  split_ifs at deleted
  simp only [deleteTarget,Option.bind_eq_bind,Option.bind_eq_some_iff,Option.some.injEq] at deleted
  obtain ⟨left,_,rfl⟩ := deleted
  rw [← Bool.not_eq_true,remove_has]
  exact fun kept => kept.2 rfl

end Deleting

theorem find_entry {store : Store} (key : (store.analyses.map Entry.id).Nodup) {entry : Entry}
    (listed : entry ∈ store.analyses) : (store.analyses.find? fun other => other.id = entry.id) = some entry := by
  rw [← List.head?_filter,Tables.filter_eq_singleton key listed]
  rfl

/-- An analysis with rows of its own, all of them different, is deleted with just these. -/
theorem delete_eq {store : Store} (constraints : Constraints store) {entry : Entry} (listed : entry ∈ store.analyses)
    (own : ∀ other ∈ store.analyses, other.id ≠ entry.id → ∀ target ∈ entry.targets, target ∉ other.targets)
    (distinct : entry.targets.Nodup) (loading : Loading) :
    store.delete loading entry.id = some (entry.targets.foldl Store.remove (store.others entry.id)) := by
  obtain ⟨depth,enough⟩ := Nat.exists_eq_succ_of_ne_zero (List.length_pos_of_mem listed).ne'
  simp only [Store.delete,find_entry constraints.analysisKey listed,Option.bind_eq_bind,Option.bind_some,enough]
  refine foldlM_deleteReference _ ?_ (constraints.foreignKeys entry listed) distinct
  intro other kept target named
  obtain ⟨among,different⟩ := List.mem_filter.mp kept
  exact own other among (by simpa using different) target named

/-- One row in both columns is gone when the second of them is read. -/
theorem delete_shared {store : Store} (constraints : Constraints store) {entry : Entry} (listed : entry ∈ store.analyses)
    {file : FileId} (traceback : entry.file .runTracebackFile = some file) (log : entry.file .runLogFile = some file)
    (loading : Loading) : store.delete loading entry.id = none := by
  simp only [Store.delete,find_entry constraints.analysisKey listed,Option.bind_eq_bind,Option.bind_some]
  cases store.analyses.length with
  | zero => rfl
  | succ depth =>
    have order : forRemoval = [.file .settingsFile,.file .inputFile,.file .inputGenerationTracebackFile,
        .file .outputFile] ++ .file .runTracebackFile :: .file .runLogFile ::
        [.file .lookupErrorsFile,.file .lookupSuccessFile,.file .lookupValidationFile,.file .summaryLevelsFile,
          .chunkingOptions] := rfl
    rw [deleteConnectedFiles,order,List.foldlM_append]
    refine Option.bind_eq_none_iff.mpr fun before _ => ?_
    rw [List.foldlM_cons]
    refine Option.bind_eq_none_iff.mpr fun after deleted => ?_
    have gone : after.has (.file file) = false :=
      deleteReference_removed _ deleted (by simp [Reference.target,traceback])
    rw [List.foldlM_cons]
    refine Option.bind_eq_none_iff.mpr fun later read => ?_
    cases loading <;> simp [deleteReference,Reference.target,log,gone,Loading.joined,fileActionTypes] at read

/-! ### New rows -/

theorem has_append {store : Store} (files : List RelatedFile) {target : Target} (stored : store.has target = true) :
    Store.has { store with files := store.files ++ files } target = true := by
  cases target with
  | file id =>
    simp only [Store.has,decide_eq_true_eq,List.map_append,List.mem_append] at stored ⊢
    exact .inl stored
  | chunkingOptions id => exact stored

theorem Constraints.addFiles {store : Store} (constraints : Constraints store) {files : List RelatedFile}
    (distinct : (files.map RelatedFile.id).Nodup) (fresh : ∀ file ∈ files, file.id ∉ store.files.map RelatedFile.id) :
    Constraints { store with files := store.files ++ files } := by
  refine ⟨constraints.analysisKey,?_,constraints.optionsKey,constraints.oneToOne,?_⟩
  · rw [List.map_append]
    refine constraints.fileKey.append distinct fun id among other => ?_
    obtain ⟨file,member,rfl⟩ := List.mem_map.mp other
    exact fresh file member among
  · exact fun entry listed target named => has_append files (constraints.foreignKeys entry listed target named)

theorem Constraints.addOptions {store : Store} (constraints : Constraints store) {id : Nat}
    (fresh : id ∉ store.chunkingOptions) :
    Constraints { store with chunkingOptions := store.chunkingOptions ++ [id] } := by
  refine ⟨constraints.analysisKey,constraints.fileKey,?_,constraints.oneToOne,?_⟩
  · exact constraints.optionsKey.append (List.nodup_singleton id) (by simpa using fresh)
  · intro entry listed target named
    have stored := constraints.foreignKeys entry listed target named
    cases target with
    | file file => exact stored
    | chunkingOptions options =>
      simp only [Store.has,decide_eq_true_eq,List.mem_append] at stored ⊢
      exact .inl stored

theorem Constraints.addEntry {store : Store} (constraints : Constraints store) {entry : Entry}
    (fresh : entry.id ∉ store.analyses.map Entry.id) (noOptions : entry.chunkingOptions = none)
    (stored : ∀ target ∈ entry.targets, store.has target = true) :
    Constraints { store with analyses := store.analyses ++ [entry] } := by
  refine ⟨?_,constraints.fileKey,constraints.optionsKey,?_,?_⟩
  · simpa [List.nodup_append,constraints.analysisKey] using fresh
  · simpa [noOptions] using constraints.oneToOne
  · intro other member target named
    rcases List.mem_append.mp member with among | new
    · exact constraints.foreignKeys other among target named
    · rw [List.mem_singleton.mp new] at named
      exact stored target named

section Copying
variable {store : Store} {entry : Entry} {keys : NewKeys} {files : List RelatedFile}

/-- Where the settings file of the copy is. -/
def copiedFile (keys : NewKeys) (entry : Entry) : Option FileId := (entry.file .settingsFile).map fun _ => keys.file

/-- The row of the copy as it is inserted. -/
def inserted (keys : NewKeys) (entry : Entry) : Entry :=
  { entry.copy (copiedFile keys entry) with id := keys.analysis }

/-- The row of the copy as the serializer saves it. -/
def copied (keys : NewKeys) (user : UserId) (attrs : Attrs) (entry : Entry) : Entry :=
  (inserted keys entry).assign user attrs

def Store.addCopy (store : Store) (files : List RelatedFile) (new : Entry) : Store :=
  { store with analyses := store.analyses ++ [new], files := store.files ++ files }

theorem copyFile_eq (constraints : Constraints store) (listed : entry ∈ store.analyses) (keys : NewKeys) :
    ∃ files, store.copyFile keys.file (entry.file .settingsFile) =
        some (copiedFile keys entry,{ store with files := store.files ++ files }) ∧
      files.map RelatedFile.id = (copiedFile keys entry).toList := by
  unfold copiedFile
  cases named : entry.file .settingsFile with
  | none => exact ⟨[],by simp [Store.copyFile],rfl⟩
  | some id =>
    have stored := constraints.foreignKeys entry listed _ (file_mem_targets named)
    obtain ⟨obj,among,rfl⟩ := List.mem_map.mp (by simpa [Store.has] using stored)
    have found : (store.files.find? fun file => file.id = obj.id).isSome := by
      rw [List.find?_isSome]
      exact ⟨obj,among,by simp⟩
    obtain ⟨copied,found⟩ := Option.isSome_iff_exists.mp found
    exact ⟨[{ copied with id := keys.file }],by simp [Store.copyFile,found],rfl⟩

theorem inserted_file (keys : NewKeys) (entry : Entry) (field : FileColumn) :
    (inserted keys entry).file field = if field = .settingsFile then copiedFile keys entry else none := by
  cases field <;> simp [inserted,Entry.copy,Entry.file,getFile]

theorem targets_settings {entry : Entry} {settingsFile : Option FileId} (noOptions : entry.chunkingOptions = none)
    (held : ∀ field, entry.file field = if field = .settingsFile then settingsFile else none) {target : Target}
    (named : target ∈ entry.targets) : ∃ id, settingsFile = some id ∧ .file id = target := by
  obtain ⟨ref,_,same⟩ := mem_targets.mp named
  cases ref with
  | file field =>
    obtain ⟨id,had,rfl⟩ := Option.map_eq_some_iff.mp same
    rw [held] at had
    split_ifs at had
    exact ⟨id,had,rfl⟩
  | chunkingOptions => simp [Reference.target,noOptions] at same

theorem constraints_copiedFile (constraints : Constraints store) (newFile : keys.file ∉ store.files.map RelatedFile.id)
    (ids : files.map RelatedFile.id = (copiedFile keys entry).toList) :
    Constraints { store with files := store.files ++ files } := by
  refine constraints.addFiles (by rw [ids]; cases copiedFile keys entry <;> simp) fun file member among => ?_
  have same : file.id ∈ (copiedFile keys entry).toList := ids ▸ List.mem_map_of_mem member
  simp only [copiedFile,Option.mem_toList,Option.map_eq_some_iff] at same
  obtain ⟨_,_,same⟩ := same
  exact newFile (same ▸ among)

/-- A new analysis with the copied settings file. -/
theorem constraints_copy (constraints : Constraints store) (newFile : keys.file ∉ store.files.map RelatedFile.id)
    (ids : files.map RelatedFile.id = (copiedFile keys entry).toList) {new : Entry}
    (newAnalysis : new.id ∉ store.analyses.map Entry.id) (noOptions : new.chunkingOptions = none)
    (held : ∀ field, new.file field = if field = .settingsFile then copiedFile keys entry else none) :
    Constraints (store.addCopy files new) := by
  have added := constraints_copiedFile constraints newFile ids
  refine added.addEntry newAnalysis noOptions fun target named => ?_
  obtain ⟨id,given,rfl⟩ := targets_settings noOptions held named
  simp [Store.has,ids,given]

/-- The copy has the chunking options of the analysis, which may have one analysis only. -/
theorem insert_copy (constraints : Constraints store) (listed : entry ∈ store.analyses)
    (newAnalysis : keys.analysis ∉ store.analyses.map Entry.id) (newFile : keys.file ∉ store.files.map RelatedFile.id)
    (ids : files.map RelatedFile.id = (copiedFile keys entry).toList) :
    Store.insert { store with files := store.files ++ files } keys.analysis (entry.copy (copiedFile keys entry)) =
      if entry.chunkingOptions = none then some (store.addCopy files (inserted keys entry)) else none := by
  show Store.commit (store.addCopy files (inserted keys entry)) = _
  unfold Store.commit
  by_cases shared : entry.chunkingOptions = none
  · rw [if_pos shared,if_pos]
    have noOptions : (inserted keys entry).chunkingOptions = none := shared
    exact constraints_copy constraints newFile ids newAnalysis noOptions (inserted_file keys entry)
  · rw [if_neg shared,if_neg]
    intro accepted
    obtain ⟨id,chosen⟩ := Option.ne_none_iff_exists'.mp shared
    have same := Tables.filterMap_inj accepted.oneToOne (List.mem_append_left _ listed)
      (List.mem_append_right _ (List.mem_singleton_self (inserted keys entry))) chosen chosen
    exact newAnalysis (List.mem_map.mpr ⟨entry,listed,congrArg Entry.id same⟩)

theorem copied_file (keys : NewKeys) (user : UserId) (attrs : Attrs) (entry : Entry) (field : FileColumn) :
    (copied keys user attrs entry).file field = if field = .settingsFile then copiedFile keys entry else none := by
  rw [← inserted_file keys entry]
  cases field <;> simp [copied,Entry.assign,Entry.file,getFile]

/-- The copy is stored when the analysis has no chunking options, and kept whatever happens then. -/
theorem copy_eq (constraints : Constraints store) (listed : entry ∈ store.analyses)
    (newAnalysis : keys.analysis ∉ store.analyses.map Entry.id) (newFile : keys.file ∉ store.files.map RelatedFile.id)
    (user : UserId) (data : Except ValidationErrors Attrs) :
    ∃ files, files.map RelatedFile.id = (copiedFile keys entry).toList ∧
      store.copy keys user data entry.id =
        if entry.chunkingOptions = none then
          match data with
          | .error errors => (.invalid errors,store.addCopy files (inserted keys entry))
          | .ok attrs =>
            if attrs.settings.isSome then (.raised,store.addCopy files (inserted keys entry))
            else (.created (copied keys user attrs entry),store.addCopy files (copied keys user attrs entry))
        else (.raised,{ store with files := store.files ++ files }) := by
  obtain ⟨files,copying,ids⟩ := copyFile_eq constraints listed keys
  have inserting := insert_copy constraints listed newAnalysis newFile ids
  refine ⟨files,ids,?_⟩
  simp only [Store.copy,find_entry constraints.analysisKey listed,copying,inserting]
  by_cases shared : entry.chunkingOptions = none
  · simp only [if_pos shared]
    cases data with
    | error errors => rfl
    | ok attrs =>
      by_cases given : attrs.settings.isSome = true
      · simp only [if_pos given]
      · simp only [if_neg given]
        have others : Tables.edit Entry.id store.analyses keys.analysis (fun _ => copied keys user attrs entry) =
            store.analyses := by
          refine Tables.edit_id fun other among same => ?_
          exact absurd (same ▸ List.mem_map_of_mem among) newAnalysis
        refine congrArg (Prod.mk _) (congrArg (fun analyses => Store.mk analyses _ _) ?_)
        refine Eq.trans (List.map_append ..) (congrArg₂ _ others ?_)
        simp [inserted,copied]
  · simp only [if_neg shared]

end Copying

end OasisPlatform.AnalysisRows
