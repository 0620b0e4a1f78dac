import OasisPlatform.InputParameters
import OasisPlatform.RunPaths
import OasisPlatform.StoreTraces

/-!
What the tasks of a run do to the file store that all workers and the server share. Data
that is passed from task to task is put into a directory for each stage, which the last task
of the stage deletes, as does the handler of a failure; results and logs are put outside.
-/
namespace OasisPlatform.RunStorage
open OasisPlatform.JsonValues OasisPlatform.GuardedFetch OasisPlatform.PrepareDirectories OasisPlatform.StageChains
open OasisPlatform.InputParameters OasisPlatform.RunPaths OasisPlatform.StoreTraces
open OasisPlatform.PathText (decimal decimal_digit)
open OasisPlatform.InputGeneration (OedFile oedFiles)
open OasisPlatform.LossInputs (Reference made)
set_option linter.unusedSimpArgs false

def remoteSubdir (location subdir : String) : String :=
  if subdir = "" ∨ location = "" then subdir else joinPath location subdir

/-- What `delete_dir` removes. -/
def inDir (dir key : String) : Bool := (dirPart dir).toList.isPrefixOf key.toList

/-- What `put` returns with `subdir=`: the location comes first. -/
def InSubdir (location subdir : String) (reference : Reference) : Prop :=
  ∃ name, '/' ∉ name.toList ∧ reference.text = joinPath (remoteSubdir location subdir) name

/-- And without. -/
def AtRoot (location : String) (reference : Reference) : Prop :=
  ∃ name, '/' ∉ name.toList ∧ reference.text = joinPath location name

/-- The name of a directory. -/
structure Subdir (subdir : String) : Prop where
  nonempty : subdir ≠ ""
  single : '/' ∉ subdir.toList

theorem relative_of_single {name : String} (single : '/' ∉ name.toList) : name.toList.head? ≠ some '/' :=
  fun head => single (List.mem_of_head? head)

theorem remoteSubdir_chars (location : String) {subdir : String} (isDir : Subdir subdir) :
    (dirPart (remoteSubdir location subdir)).toList = (dirPart location).toList ++ subdir.toList ++ ['/'] := by
  have whole : remoteSubdir location subdir = dirPart location ++ subdir := by
    unfold remoteSubdir
    split
    · rename_i unset
      rw [unset.resolve_left isDir.nonempty]
      rfl
    · exact joinPath_relative location (relative_of_single isDir.single)
  have chars : (remoteSubdir location subdir).toList = (dirPart location).toList ++ subdir.toList := by
    rw [whole,String.toList_append]
  have some : subdir.toList ≠ [] := fun none => isDir.nonempty (String.toList_inj.mp none)
  have last : (remoteSubdir location subdir).toList.getLast? ≠ Option.some '/' := by
    rw [chars,List.getLast?_append_of_ne_nil _ some]
    exact fun slash => isDir.single (List.mem_of_getLast? slash)
  have nonempty : remoteSubdir location subdir ≠ "" := by
    intro none
    rw [none] at chars
    exact some (List.append_eq_nil_iff.mp chars.symm).2
  rw [dirPart,if_neg (not_or.mpr ⟨nonempty,last⟩),String.toList_append,chars]
  rfl

theorem inDir_iff (location : String) {subdir key : String} (isDir : Subdir subdir) :
    inDir (remoteSubdir location subdir) key = true ↔
      ∃ rest, key.toList = (dirPart location).toList ++ (subdir.toList ++ '/' :: rest) := by
  rw [inDir,List.isPrefixOf_iff_prefix,remoteSubdir_chars location isDir]
  constructor
  · rintro ⟨rest,same⟩
    exact ⟨rest,by rw [← same]; simp⟩
  · rintro ⟨rest,same⟩
    exact ⟨rest,by rw [same]; simp⟩

theorem inSubdir_inDir {location subdir : String} {reference : Reference} (isDir : Subdir subdir)
    (placed : InSubdir location subdir reference) : inDir (remoteSubdir location subdir) reference.text = true := by
  obtain ⟨name,single,same⟩ := placed
  rw [inDir_iff location isDir,same,joinPath_relative _ (relative_of_single single),String.toList_append,
    remoteSubdir_chars location isDir]
  exact ⟨name.toList,by simp⟩

/-- What is put without a directory is in none. -/
theorem atRoot_outside {location subdir : String} {reference : Reference} (isDir : Subdir subdir)
    (placed : AtRoot location reference) : inDir (remoteSubdir location subdir) reference.text = false := by
  obtain ⟨name,single,same⟩ := placed
  refine Bool.eq_false_iff.mpr fun inside => ?_
  obtain ⟨rest,chars⟩ := (inDir_iff location isDir).mp inside
  rw [same,joinPath_relative _ (relative_of_single single),String.toList_append] at chars
  have named := List.append_cancel_left chars
  exact single (named ▸ List.mem_append_right _ List.mem_cons_self)

theorem until_first {c : Char} {first second rest rest' : List Char} (single : c ∉ first) (single' : c ∉ second)
    (same : first ++ c :: rest = second ++ c :: rest') : first = second ∧ rest = rest' := by
  induction first generalizing second with
  | nil =>
    cases second with
    | nil => exact ⟨rfl,(List.cons.inj same).2⟩
    | cons d later => exact absurd ((List.cons.inj same).1 ▸ List.mem_cons_self) single'
  | cons d more ih =>
    cases second with
    | nil => exact absurd ((List.cons.inj same).1 ▸ List.mem_cons_self) single
    | cons e later =>
      simp only [List.cons_append,List.cons.injEq] at same
      obtain ⟨rfl,same⟩ := same
      obtain ⟨equal,rests⟩ := ih (fun listed => single (List.mem_cons_of_mem _ listed))
        (fun listed => single' (List.mem_cons_of_mem _ listed)) same
      exact ⟨by rw [equal],rests⟩

/-- No key is in two directories. -/
theorem inDir_same {location subdir other key : String} (isDir : Subdir subdir) (isDir' : Subdir other)
    (inside : inDir (remoteSubdir location subdir) key = true) (inside' : inDir (remoteSubdir location other) key = true) :
    subdir = other := by
  obtain ⟨rest,chars⟩ := (inDir_iff location isDir).mp inside
  obtain ⟨rest',chars'⟩ := (inDir_iff location isDir').mp inside'
  exact String.toList_inj.mp (until_first isDir.single isDir'.single (List.append_cancel_left (chars.symm.trans chars'))).1

theorem subdir_chars (analysisId : Nat) (stage uuid : String) :
    ("analysis-" ++ toString analysisId ++ ("_" ++ stage) ++ uuid).toList =
      "analysis-".toList ++ (decimal analysisId ++ '_' :: (stage.toList ++ uuid.toList)) := by
  have digits : (toString analysisId).toList = decimal analysisId := Nat.toList_repr
  simp only [String.toList_append,digits,List.append_assoc]
  rfl

theorem subdir_same {analysisId analysisId' : Nat} {stage stage' uuid uuid' : String}
    (same : "analysis-" ++ toString analysisId ++ ("_" ++ stage) ++ uuid =
      "analysis-" ++ toString analysisId' ++ ("_" ++ stage') ++ uuid') :
    stage.toList ++ uuid.toList = stage'.toList ++ uuid'.toList := by
  have digits (n : Nat) : '_' ∉ decimal n := fun listed => absurd (decimal_digit listed) (by decide)
  have chars := congrArg String.toList same
  rw [subdir_chars,subdir_chars] at chars
  exact (until_first (digits _) (digits _) (List.append_cancel_left chars)).2

theorem subdir_of_uuid (analysisId : Nat) {stage uuid : String} (stageSingle : '/' ∉ stage.toList)
    (single : '/' ∉ uuid.toList) : Subdir ("analysis-" ++ toString analysisId ++ ("_" ++ stage) ++ uuid) where
  nonempty := by
    intro none
    have chars := congrArg String.toList none
    rw [subdir_chars] at chars
    exact absurd chars (by simp)
  single := by
    have digits : '/' ∉ decimal analysisId := fun listed => absurd (decimal_digit listed) (by decide)
    have start : '/' ∉ "analysis-".toList := by decide
    rw [subdir_chars]
    simp only [List.mem_append,List.mem_cons,not_or]
    exact ⟨start,digits,by decide,stageSingle,single⟩

theorem filesSubdir_same {node other : Run} (same : node.filesSubdir = other.filesSubdir) :
    node.filesUuid = other.filesUuid := by
  have tails : "files-".toList ++ node.filesUuid.toList = "files-".toList ++ other.filesUuid.toList := subdir_same same
  exact String.toList_inj.mp (List.append_cancel_left tails)

theorem lossesSubdir_same {node other : Run} (same : node.lossesSubdir = other.lossesSubdir) :
    node.lossesUuid = other.lossesUuid := by
  have tails : "losses-".toList ++ node.lossesUuid.toList = "losses-".toList ++ other.lossesUuid.toList := subdir_same same
  exact String.toList_inj.mp (List.append_cancel_left tails)

theorem stages_differ (node other : Run) : node.filesSubdir ≠ other.lossesSubdir := by
  intro same
  have tails : "files-".toList ++ node.filesUuid.toList = "losses-".toList ++ other.lossesUuid.toList := subdir_same same
  exact absurd (List.cons.inj tails).1 (by decide)

def readOf : Json → List (Event String)
  | .string key => [.read key]
  | _ => []

def putOf : Option Reference → List (Event String)
  | some reference => [.put reference.text]
  | none => []

def objectReads : Object → List (Event String)
  | .file reference _ => readOf reference
  | .complexData files => files.map fun cmf => .read cmf.storedFilename
  | .archive reference _ => readOf reference

structure StoreAttempt extends InputAttempt where
  /-- The paths that are on its node. -/
  present : String → Bool
  keepRemoteData : Bool

def fetchReads (present : String → Bool) (plan : Plan String Object) : List (Event String) :=
  (made present plan.fetches).flatMap fun fetch => objectReads fetch.object

/-- `filestore.delete_dir(remote_subdir(filestore, subdir))`. -/
def deleteDir (location : String) : Json → List (Event String)
  | .string subdir => [.delete (inDir (remoteSubdir location subdir))]
  | _ => []

def deleteFile : Json → List (Event String)
  | .string key => if key = "" then [] else [.delete (· = key)]
  | _ => []

/-- The files that the hook has changed. -/
def modifiedPuts (attempt : InputAttempt) : List (Event String) := oedFiles.flatMap fun file =>
  match attempt.filesModified file with
  | none => []
  | some name => if name = "" then [] else putOf (attempt.preFile file)

def hookEvents (attempt : InputAttempt) (numChunks : Nat) (params : Params) : List (Event String) :=
  (if (params.get "exposure_pre_analysis_module").truthy then modifiedPuts attempt else []) ++
    (if numChunks > 1 then (List.range numChunks).flatMap fun chunkIdx => putOf (attempt.sarChunk chunkIdx) else []) ++
    putOf attempt.logLocation

/-- The file of the chunk, where the exposure has been split into that many. -/
def sarReads (args : List Nat) (params : Params) : List (Event String) :=
  match args,params.get "sar_chunks" with
  | [chunkIdx,numChunks],.array items => if items.length = numChunks then readOf (items[chunkIdx]?.getD .null) else []
  | _,_ => []

def keysChunkEvents (attempt : InputAttempt) (args : List Nat) (params : Params) : List (Event String) :=
  sarReads args params ++ putOf attempt.chunkKeys ++ putOf attempt.logLocation

/-- All logs so far go into the archive. -/
def logReads (attempt : InputAttempt) (slug : String) (params : Params) : List (Event String) :=
  match (registerLog attempt slug params).bind logsOf with
  | some logs => logs.flatMap fun entry => readOf entry.2
  | none => []

def writeEvents (attempt : InputAttempt) (slug : String) (params : Params) : List (Event String) :=
  readOf (params.get "keys_data") ++ putOf attempt.logLocation ++ logReads attempt slug params ++
    putOf attempt.written.lookupErrorLocation ++ putOf attempt.written.lookupSuccessLocation ++
    putOf attempt.written.lookupValidationLocation ++ putOf attempt.written.summaryLevelsLocation ++
    putOf attempt.written.outputLocation ++ putOf attempt.written.analysisSettingsLocation

/-- What `record_input_files` copies. -/
def inputLocations : List String :=
  ["output_location","lookup_error_location","lookup_success_location","lookup_validation_location",
    "summary_levels_location","analysis_settings_location"]

def readIf (value : Json) : List (Event String) := if value.truthy then readOf value else []

def recordInputReads (result : Params) : List (Event String) :=
  (inputLocations.dropLast.flatMap fun key => readOf (result.get key)) ++ readIf (result.get "analysis_settings_location")

def recordLossesReads (result : Params) : List (Event String) :=
  readIf (result.get "run_logs") ++ readOf (result.get "output_location")

def preKeys : List String := ["pre_loc_file","pre_acc_file","pre_info_file","pre_scope_file"]

def cleanupInputEvents (location : String) (attempt : StoreAttempt) (params : Params) : List (Event String) :=
  (if attempt.keepRemoteData then [] else deleteDir location (params.get "storage_subdir") ++
    preKeys.flatMap fun key => deleteFile (params.get key)) ++ putOf attempt.logLocation

def lossesChunkEvents (attempt : InputAttempt) : List (Event String) :=
  putOf attempt.chunkWorkLocation ++ putOf attempt.chunkLogLocation ++ putOf attempt.logLocation

def outputEvents (attempt : InputAttempt) (prepared : List Params) : List (Event String) :=
  (prepared.flatMap fun params => readOf (params.get "chunk_work_location")) ++
    (prepared.flatMap fun params => readOf (params.get "chunk_log_location")) ++ putOf attempt.outputLocation ++
    putOf attempt.runLogs ++ putOf attempt.logLocation

def cleanupLossesEvents (location : String) (attempt : StoreAttempt) (params : Params) : List (Event String) :=
  (if attempt.keepRemoteData then [] else deleteDir location (params.get "storage_subdir")) ++ putOf attempt.logLocation

/-- The directory that a task of the input generation names. -/
theorem keysPrepareDirectories_subdir (node : Run) (kwargs : KeysKwargs) (params : Params) :
    (keysPrepareDirectories node kwargs params).1.get "storage_subdir" = .string node.filesSubdir := by
  have named : keysDirectories node params "storage_subdir" = some (.string node.filesSubdir) := by
    rw [keysDirectories_eq,setdefaults_other _ (by simp),put_other _ _ (by decide),Params.put,Function.update_self]
  rw [Params.get,keysPrepareDirectories,userData_other _ _ (by decide),settingsFiles_other _ _ _ (by decide),
    currencyFile_other _ _ _ _ (by decide),oedFile_other _ _ _ _ (by decide),oedFile_other _ _ _ _ (by decide),
    oedFile_other _ _ _ _ (by decide),oedFile_other _ _ _ _ (by decide)]
  exact congrArg (Option.getD · .null) named

theorem lossDirectories_subdir (node : Run) (params : Params) :
    (lossDirectories node params).get "storage_subdir" = .string node.lossesSubdir := by
  rw [Params.get,lossDirectories_eq,setdefaults_other _ (by simp),put_other _ _ (by decide),Params.put,
    Function.update_self,Option.getD_some]

/-- What a task does once its directories are prepared. -/
def bodyEvents (location : String) (lookupChunks : Nat) (attempt : StoreAttempt) (signature : TaskSignature)
    (prepared : List Params) : List (Event String) :=
  match signature.task with
  | "prepare_input_generation_params" => putOf attempt.logLocation
  | "pre_analysis_hook" => prepared.flatMap (hookEvents attempt.toInputAttempt lookupChunks)
  | "prepare_keys_file_chunk" => prepared.flatMap (keysChunkEvents attempt.toInputAttempt signature.args)
  | "collect_keys" => (prepared.flatMap fun params => readOf (params.get "chunk_keys")) ++ putOf attempt.keysData ++
      putOf attempt.logLocation
  | "write_input_files" => prepared.flatMap (writeEvents attempt.toInputAttempt signature.slug)
  | "record_input_files" => prepared.flatMap recordInputReads
  | "cleanup_input_generation" => prepared.flatMap (cleanupInputEvents location attempt)
  | "prepare_losses_generation_params" => putOf attempt.logLocation
  | "prepare_losses_generation_directory" => putOf attempt.runLocation ++ putOf attempt.logLocation
  | "generate_losses_chunk" => lossesChunkEvents attempt.toInputAttempt
  | "generate_losses_output" => outputEvents attempt.toInputAttempt prepared
  | "record_losses_files" => prepared.flatMap recordLossesReads
  | "cleanup_losses_generation" => prepared.flatMap (cleanupLossesEvents location attempt)
  | _ => []

/-- The parameters with the directories of the node. -/
def preparedFor (attempt : StoreAttempt) : Option Task → List Params → List Params
  | none,given => given
  | some (.keys kwargs _),given => given.map fun params => (keysPrepareDirectories attempt.node kwargs params).1
  | some (.losses _ _),given => given.map (lossDirectories attempt.node)

def attemptEvents (location : String) (files : KeysKwargs) (losses : LossKwargs) (lookupChunks : Nat)
    (attempt : StoreAttempt) (signature : TaskSignature) (given : List Params) : List (Event String) :=
  let task := taskOf files losses signature given
  (match task with
    | some task => fetchReads attempt.present (attempt.node.plan task)
    | none => []) ++
    bodyEvents location lookupChunks attempt signature (preparedFor attempt task given)

/-- The keys that a task sets in the dictionaries that it is given, besides those of the
    directories. -/
def ownKeys : String → List String
  | "pre_analysis_hook" => ["oasis_files_dir","pre_loc_file","pre_acc_file","pre_info_file","pre_scope_file","check_oed",
      "sar_chunks","log_location","log_storage"]
  | "prepare_keys_file_chunk" => ["chunk_keys","log_location","log_storage"]
  | "write_input_files" => ["keys_data_path","keys_errors_path","oasis_files_dir","log_location","log_storage"]
  | "prepare_losses_generation_directory" => ["model_storage_json","analysis_settings","run_location","log_location"]
  | "cleanup_input_generation" => ["log_location"]
  | "cleanup_losses_generation" => ["log_location"]
  | _ => []

/-- What `handle_task_failure` of the worker stores; the log where there is one. -/
structure Failure where
  taskLog : Option Reference
  targetDir : Option Reference
  keysErrors : Option Reference
  outputDir : Option Reference
  logsDir : Option Reference

def Failure.puts (failure : Failure) (slug : String) : List (Event String) :=
  putOf failure.taskLog ++
    match slug with
    | "pre-analysis-hook" => putOf failure.targetDir
    | "write-input-files" => putOf failure.targetDir ++ putOf failure.keysErrors
    | "generate-losses-output" => putOf failure.outputDir ++ putOf failure.logsDir
    | _ => []

def Failure.stored (failure : Failure) : List (Option Reference) :=
  [failure.taskLog,failure.targetDir,failure.keysErrors,failure.outputDir,failure.logsDir]

theorem failure_puts {failure : Failure} {slug : String} {event : Event String} (listed : event ∈ failure.puts slug) :
    ∃ reference ∈ failure.stored, event ∈ putOf reference := by
  unfold Failure.puts at listed
  rcases List.mem_append.mp listed with log | files
  · exact ⟨_,by simp [Failure.stored],log⟩
  · split at files
    · exact ⟨_,by simp [Failure.stored],files⟩
    · exact (List.mem_append.mp files).elim (fun dir => ⟨_,by simp [Failure.stored],dir⟩)
        fun errors => ⟨_,by simp [Failure.stored],errors⟩
    · exact (List.mem_append.mp files).elim (fun dir => ⟨_,by simp [Failure.stored],dir⟩)
        fun logs => ⟨_,by simp [Failure.stored],logs⟩
    · cases files

/-- And it deletes the directory that the parameters of the task name by then. -/
def handleTaskFailure (location : String) (keepRemoteData : Bool) (failure : Failure) (slug : String) (taskParams : Params) :
    List (Event String) :=
  failure.puts slug ++ if keepRemoteData then [] else deleteDir location (taskParams.get "storage_subdir")

end OasisPlatform.RunStorage
