import OasisPlatform.FilePlaces

/-!
Deleting an analysis, after any run of the system. It takes away just what belongs to the
analysis, unless `handle_task_failure` has stored the log of a failed run in both of its
columns: the handler deletes that file for the first of them and cannot read it for the second,
so that the transaction is rolled back (`deletable_iff`).
-/
namespace OasisPlatform.AnalysisDeletion
open SharedRow Models AnalysisTasks AnalysisRows TaskFiles FilePlaces
set_option linter.unusedSimpArgs false

/-- A row is as it was, with all that it refers to. -/
structure Intact (store after : Store) (entry : Entry) : Prop where
  row : entry ∈ after.analyses
  targets : ∀ target ∈ entry.targets, after.has target = true
  files : ∀ file ∈ store.files, .file file.id ∈ entry.targets → file ∈ after.files

structure Deleted (store after : Store) (entry : Entry) : Prop where
  row : entry.id ∉ after.analyses.map Entry.id
  targets : ∀ target ∈ entry.targets, after.has target = false
  others : ∀ other ∈ store.analyses, other.id ≠ entry.id → Intact store after other

section Deletion
variable {system : System} (sound : Sound system) {entry : Entry} (listed : entry ∈ system.store.analyses)
include sound listed

/-- Unless one file is in both columns, the analysis goes with all that belongs to it. -/
theorem delete_deletes (apart : ¬ SharesRunFile entry) (loading : Loading) :
    ∃ after, system.store.delete loading entry.id = some after ∧ Deleted system.store after entry := by
  have own : ∀ other ∈ system.store.analyses, other.id ≠ entry.id → ∀ target ∈ entry.targets, target ∉ other.targets :=
    fun other among different target named => sound.own listed among different named
  refine ⟨_,delete_eq sound.constraints listed own (sound.distinct listed apart) loading,?_,?_,?_⟩
  · rw [foldl_remove_analyses]
    intro kept
    obtain ⟨other,member,same⟩ := List.mem_map.mp kept
    exact of_decide_eq_true (List.mem_filter.mp member).2 same
  · intro target named
    rw [← Bool.not_eq_true,foldl_remove_has]
    exact fun kept => kept.2 named
  · intro other among different
    refine ⟨?_,?_,?_⟩
    · rw [foldl_remove_analyses]
      exact List.mem_filter.mpr ⟨among,by simpa using different⟩
    · intro target named
      exact (foldl_remove_has _ _ _).mpr ⟨sound.constraints.foreignKeys other among target named,
        fun again => own other among different target again named⟩
    · intro file stored named
      exact (foldl_remove_files _ _ _).mpr ⟨stored,fun again => own other among different _ again named⟩

/-- Other analyses stay whether or not the deletion raises. -/
theorem delete_intact {other : Entry} (among : other ∈ system.store.analyses) (different : other.id ≠ entry.id)
    (loading : Loading) :
    Intact system.store ((system.store.delete loading entry.id).getD system.store) other := by
  by_cases shared : SharesRunFile entry
  · obtain ⟨file,traceback,log⟩ := shared
    rw [delete_shared sound.constraints listed traceback log]
    exact ⟨among,sound.constraints.foreignKeys other among,fun _ stored _ => stored⟩
  · obtain ⟨after,deleted,spec⟩ := delete_deletes sound listed shared loading
    rw [deleted]
    exact spec.others other among different

end Deletion

/-- An analysis can be deleted, with what belongs to it and with nothing else, exactly when the log
    and the traceback of its last run are not one file. -/
theorem deletable_iff {system : System} (reachable : Reachable system) {entry : Entry}
    (listed : entry ∈ system.store.analyses) (loading : Loading) :
    (∃ after, system.store.delete loading entry.id = some after ∧ Deleted system.store after entry) ↔
      ¬ SharesRunFile entry := by
  have sound := sound_of_reachable reachable
  constructor
  · rintro ⟨after,deleted,_⟩ ⟨file,traceback,log⟩
    rw [delete_shared sound.constraints listed traceback log] at deleted
    cases deleted
  · exact fun apart => delete_deletes sound listed apart loading

def newEntry : Entry := ⟨1,1,1,some 1,"analysis",newAnalysis,none,[]⟩

def logFile : RelatedFile := ⟨5,"analysis_1_worker_traceback.txt","text/plain",1,"\n=== Trace Back ===\nTraceback"⟩

def withLog : System := ⟨⟨[newEntry],[logFile],[]⟩,[],fun _ _ _ => False⟩

theorem withLog_reachable : Reachable withLog :=
  (Reachable.empty.step (.storeFile logFile (by decide))).step (.create newEntry (by decide) (by decide))

/-- The only analysis is saved. -/
theorem save_single {entry loaded : Entry} {files : List RelatedFile} {options : List Nat} {save : AnalysisSave}
    (same : entry.id = loaded.id) (valid : Constraints ⟨[loaded.saved save entry],files,options⟩) :
    (⟨[entry],files,options⟩ : Store).save loaded save = some ⟨[loaded.saved save entry],files,options⟩ := by
  have edited : Tables.edit Entry.id [entry] loaded.id (loaded.saved save) = [loaded.saved save entry] := by
    simp [Tables.edit,same]
  rw [Store.save,if_pos (by simp [same]),edited,Store.commit,if_pos valid]

def settingsSave : AnalysisSave := Analysis.save ((load newAnalysis).set .settingsFile (some 5))

def withSettings : Entry := newEntry.saved settingsSave newEntry

theorem withSettings_reachable : ∃ system, Reachable system ∧ system.store = ⟨[withSettings],[logFile],[]⟩ ∧
    system.processes = [] ∧ system.Unmade 9 := by
  have saved := withLog_reachable.alone rfl (List.mem_singleton_self newEntry) (.settings newEntry 5)
    ⟨rfl,fun _ => rfl⟩ (fun _ _ _ _ _ made => made) (show _ = [settingsSave] from rfl) (save_single rfl (by decide))
  refine ⟨_,saved,rfl,rfl,?_⟩
  rintro analysis field (made | ⟨_,_,made⟩)
  · exact made
  · cases made

def requested : Starting.Start where
  queued := Starting.resetInputGeneration (load withSettings.row)
  runMode := .v2
  task := .startInputGenerationTask (some 10)
  onError := .handleTaskFailure .inputGenerationTracebackFile .inputsGenerationError
  taskIdField := .generateInputsTaskId

theorem requested_accepted :
    Starting.start Starting.locationContext (.generateInputs none) (load withSettings.row) = .ok requested := rfl

def dispatchSave : AnalysisSave := Starting.recordDispatch 90 requested "generation"

def queuedEntry : Entry := withSettings.saved (Analysis.save requested.queued) withSettings

def dispatchedEntry : Entry := withSettings.saved dispatchSave queuedEntry

def cancelSave : AnalysisSave :=
  Analysis.save ((((load dispatchedEntry.row).set .status .inputsGenerationCancelled).set .runMode none).set .taskFinished
    (some calmEnv.now))

def cancelledEntry : Entry := dispatchedEntry.saved cancelSave dispatchedEntry

theorem cancelled_reachable : ∃ system, Reachable system ∧ system.store = ⟨[cancelledEntry],[logFile],[]⟩ := by
  obtain ⟨⟨store,processes,made⟩,reachable,stored,idle,-⟩ := withSettings_reachable
  obtain rfl : store = ⟨[withSettings],[logFile],[]⟩ := stored
  obtain rfl : processes = [] := idle
  have loading := reachable.step (.load withSettings (List.mem_singleton_self _)
    (.other withSettings [Analysis.save requested.queued,dispatchSave]) (start_possible requested_accepted 90 "generation")
    fun _ _ makes => makes.elim)
  have queued := loading.step (.save [] [] withSettings _ [dispatchSave] rfl (save_single rfl (by decide)))
  have dispatched := queued.step (.save [] [] withSettings dispatchSave [] rfl
    (show (⟨[queuedEntry],[logFile],[]⟩ : Store).save withSettings dispatchSave = _ from save_single rfl (by decide)))
  have left := dispatched.step (.leave [] [] _ rfl)
  have cancelled := left.alone rfl (List.mem_singleton_self dispatchedEntry) (.other dispatchedEntry [cancelSave])
    (@cancel_possible calmEnv dispatchedEntry .cancel cancelSave rfl) (fun _ _ makes => makes.elim) rfl
    (save_single rfl (by decide))
  exact ⟨_,cancelled,rfl⟩

/-- An analysis whose generation of inputs was started and cancelled is deleted with its settings. -/
theorem cancelled_analysis_deleted : cancelledEntry.file .settingsFile = some 5 ∧ ∃ system, Reachable system ∧
    ∃ after, system.store.delete .viewSet cancelledEntry.id = some after ∧ Deleted system.store after cancelledEntry := by
  obtain ⟨system,reachable,same⟩ := cancelled_reachable
  have listed : cancelledEntry ∈ system.store.analyses := by simp [same]
  refine ⟨rfl,system,reachable,(deletable_iff reachable listed .viewSet).mpr ?_⟩
  rintro ⟨file,held,-⟩
  have none : cancelledEntry.file .runTracebackFile = none := by decide
  cases none.symm.trans held

/-- Services that make no file. -/
def idleEnv : Env := { calmEnv with storeFile := fun _ _ _ _ => none, createFile := fun _ _ _ _ => none }

theorem idleEnv_made {name : String} {file : FileId} : ¬ Made idleEnv name file := by
  rintro (⟨_,_,_,stored⟩ | ⟨_,_,_,created⟩)
  · cases stored
  · cases created

/-- Services that make the log. -/
def failureEnv : Env :=
  { idleEnv with createFile := fun _ _ _ name => if name = fileName 1 "_worker_traceback.txt" then some 5 else none }

theorem failureEnv_made {name : String} {file : FileId} (made : Made failureEnv name file) :
    name = fileName 1 "_worker_traceback.txt" := by
  rcases made with ⟨_,_,_,stored⟩ | ⟨_,_,_,created⟩
  · cases stored
  · simp only [failureEnv] at created
    split_ifs at created with named
    exact named

def startedSave : AnalysisSave :=
  Analysis.saveFields (((load newAnalysis).set .status .runStarted).set .taskStarted (some 90)) [.status,.taskStarted]

def startedEntry : Entry := newEntry.saved startedSave newEntry

def failure : Failure := ⟨"Traceback",1,.runTracebackFile,.runError⟩

def failedSave : AnalysisSave :=
  Analysis.save (((((load startedEntry.row).set .status .runError).set .taskFinished (some 100)).set .runTracebackFile
    (some 5)).set .runLogFile (some 5))

def failedEntry : Entry := startedEntry.saved failedSave startedEntry

theorem failed_reachable : ∃ system, Reachable system ∧ system.store = ⟨[failedEntry],[logFile],[]⟩ := by
  have starting : withLog.store.save newEntry startedSave = some ⟨[startedEntry],[logFile],[]⟩ :=
    save_single rfl (by decide)
  have started := withLog_reachable.alone rfl (List.mem_singleton_self newEntry)
    (.task idleEnv [] (.setTaskStatusV2 .runStarted 90)) (fun _ _ _ made => absurd made idleEnv_made)
    (fun _ _ _ _ _ made => made) (show _ = [startedSave] from rfl) starting
  have failing : (⟨[startedEntry],[logFile],[]⟩ : Store).save startedEntry failedSave =
      some ⟨[failedEntry],[logFile],[]⟩ := save_single rfl (by decide)
  have failed := started.alone rfl (List.mem_singleton_self startedEntry)
    (.task failureEnv [] (.handleTaskFailure failure failureMaxRetries))
    (fun _ _ _ made again => (failureEnv_made made).trans (failureEnv_made again).symm) (by
      rintro _ _ _ _ _ (made | ⟨_,_,_,made⟩)
      · exact made
      · exact idleEnv_made made) (show _ = [failedSave] from rfl) failing
  exact ⟨_,failed,rfl⟩

/-- After a run that has failed, the analysis cannot be deleted. -/
theorem failed_run_not_deleted : ∃ system, Reachable system ∧ ∃ entry ∈ system.store.analyses,
    ∀ loading, system.store.delete loading entry.id = none := by
  obtain ⟨system,reachable,store⟩ := failed_reachable
  have listed : failedEntry ∈ system.store.analyses := by simp [store]
  have traceback : failedEntry.file .runTracebackFile = some 5 := by decide
  have log : failedEntry.file .runLogFile = some 5 := by decide
  exact ⟨system,reachable,failedEntry,listed,
    delete_shared (sound_of_reachable reachable).constraints listed traceback log⟩

end OasisPlatform.AnalysisDeletion
