import OasisPlatform.CallPrograms
import OasisPlatform.PathText
import OasisPlatform.PortfolioFiles

/-!
The tasks of the internal worker with their recorders: `run_exposure_run`,
`run_oed_validation`, `run_exposure_transform` and `run_combine` as programs of calls, of
which one may raise. A task hands its recorder what that unpacks, and the status it was
started for is left behind, exactly when its arguments are supported, the call that raises
is in no place where the task loses the exception, and the recorder of a transform that went
well knows its file type (`request_recorded_iff`).
-/
namespace OasisPlatform.InternalJobs
open OasisPlatform.PathText OasisPlatform.JsonValues OasisPlatform.CallPrograms OasisPlatform.CallPrograms.Program
open OasisPlatform.PortfolioFiles (PortfolioField selection)
set_option linter.unusedSimpArgs false

/-- What a fetched file is stored as. -/
inductive Title where
  | location
  | account
  | riInfo
  | riScope
  | currencyConversion
  | localFile
  deriving DecidableEq, Repr

/-- The archives of an analysis that `run_combine` reads. -/
inductive Side where
  | input
  | output
  deriving DecidableEq, Repr

/-- The calls of the four tasks, one constructor for each place they are made from. -/
inductive Call where
  | getcwd
  | mkdtemp
  | copy2 (title : Title)
  | httpGet (title : Title)
  | raiseForStatus (title : Title)
  | openDestination (title : Title)
  | readChunks (title : Title)
  | writeChunks (title : Title)
  | chdir
  | paramsRunExposure
  | runExposure
  | resultFilestore
  | putResult
  | openErrorFile
  | writeErrorFile
  | errorFilestore
  | putErrorFile
  | chdirBack
  | oedExposure
  | check
  | transformFormat
  | getFilestore
  | mkdir (index : Nat)
  | mkdirInput (index : Nat)
  | lock (side : Side) (index : Nat)
  | fileExists (side : Side) (index : Nat)
  | getArchive (side : Side) (index : Nat)
  | openArchive (side : Side) (index : Nat)
  | extractAll (index : Nat)
  | copyOccurrence (index : Nat)
  | readMembers (index : Nat)
  | extractMember (index : Nat)
  | prepareConfig
  | combine
  | archiveCompression
  deriving DecidableEq, Repr

inductive Raised where
  /-- `raise ValueError(..)` of `get_destination_file` -/
  | unsupported (filename : Text)
  /-- `given_params.items()` of what is no dictionary -/
  | noItems
  /-- what a call raises -/
  | external (error : String)
  deriving DecidableEq, Repr

inductive Item where
  | string (text : String)
  | bool (value : Bool)
  | exception (error : Raised)
  deriving DecidableEq, Repr

/-- What a task returns, a list for a list or a tuple. -/
inductive Value where
  | single (item : Item)
  | several (items : List Item)
  deriving DecidableEq, Repr

/-- Whether the JSON serializer takes it. -/
def Item.serialisable : Item → Bool
  | .string _ => true
  | .bool _ => true
  | .exception _ => false

def Value.serialisable : Value → Bool
  | .single item => item.serialisable
  | .several items => items.all Item.serialisable

def Item.truthy : Item → Bool
  | .string text => text ≠ ""
  | .bool value => value
  | .exception _ => true

def Value.truthy : Value → Bool
  | .single item => item.truthy
  | .several items => !items.isEmpty

/-- What the calls that do not raise answer. -/
structure Library where
  str : Raised → String
  checkErrors : List String
  /-- the reference that `put` of the results gives -/
  stored : String
  /-- the reference that `put` of `error.txt` gives -/
  storedError : String
  archivePresent : Side → Nat → Bool
  occurrenceInOutput : Nat → Bool
  occurrenceInInput : Nat → Bool

abbrev Task := Program Call Raised Value

/-- The extension of `os.path.splitext`: leading dots of the last component begin none. -/
def splitextExt (path : Text) : Text :=
  let name := pathName path
  let ext := (name.reverse.takeWhile (· ≠ '.')).reverse
  let root := name.take (name.length - ext.length - 1)
  if '.' ∈ name ∧ root.any (· ≠ '.') then '.' :: ext else []

/-- The suffix of `get_destination_file`, none where it raises. -/
def destinationSuffix (filename : Text) : Option String :=
  let ext := splitextExt filename
  if ".csv".toList <+: ext then some ".csv"
  else if ".parquet".toList <+: ext then some ".parquet"
  else if ".gz".toList <+: ext then some ".tar.gz"
  else if ".zst".toList <+: ext then some ".tar.zst"
  else none

/-- `get_destination_file`, before what it is called for. -/
def getDestinationFile (filename : Text) (next : Task) : Task :=
  match destinationSuffix filename with
  | some _ => next
  | none => .raise (.unsupported filename)

def copyOrDownload (source : Text) (title : Title) : List Call :=
  if source = [] then []
  else if "http".toList <+: source then
    [.httpGet title,.raiseForStatus title,.openDestination title,.readChunks title,.writeChunks title]
  else [.copy2 title]

/-- One file of `get_all_exposure_files`, where there is a path. -/
def fetchFile (title : Title) (filepath : Option Text) (next : Task) : Task :=
  match filepath with
  | none => next
  | some path => if path = [] then next else getDestinationFile path (calls (copyOrDownload path title) next)

structure ExposureFiles where
  loc : Option Text
  acc : Option Text
  ri : Option Text
  rl : Option Text
  currencyConversion : Option Text

def getAllExposureFiles (files : ExposureFiles) (next : Task) : Task :=
  fetchFile .location files.loc <| fetchFile .account files.acc <| fetchFile .riInfo files.ri <|
    fetchFile .riScope files.rl <| calls (copyOrDownload (files.currencyConversion.getD []) .currencyConversion) next

/-- `update_params`: the parameters are read with `items()`. -/
def updateParams (givenParams : Json) (next : Task) : Task :=
  match givenParams with
  | .object _ => next
  | _ => .raise .noItems

def runExposureRun (library : Library) (files : ExposureFiles) (givenParams : Json) : Task :=
  calls [.getcwd,.mkdtemp] <| getAllExposureFiles files <| calls [.chdir,.paramsRunExposure] <| updateParams givenParams <|
    .attempt [.runExposure,.resultFilestore,.putResult]
      (.several [.string library.stored,.bool true])
      (fun _ => [.openErrorFile,.writeErrorFile,.errorFilestore,.putErrorFile])
      (fun _ => .several [.string library.storedError,.bool false])
      [.chdirBack]

def runOedValidation (library : Library) (files : ExposureFiles) : Task :=
  calls [.mkdtemp] <| getAllExposureFiles files <|
    .attempt [.oedExposure,.check]
      (.several (library.checkErrors.map .string))
      (fun _ => [])
      (fun error => .single (.string (library.str error)))
      []

def runExposureTransform (library : Library) (filepath : Text) : Task :=
  calls [.mkdtemp] <| getDestinationFile filepath <| calls (copyOrDownload filepath .localFile) <|
    .attempt [.transformFormat,.resultFilestore,.putResult]
      (.several [.string library.stored,.bool true])
      (fun _ => [])
      (fun error => .several [.string (library.str error),.bool false])
      []

def maybeGetTar (library : Library) (side : Side) (index : Nat) : List Call :=
  [.lock side index,.fileExists side index] ++ if library.archivePresent side index then [] else [.getArchive side index]

/-- The loop of `run_combine` from the pair at an index on, and what follows it. -/
def combineFrom (library : Library) : (index : Nat) → List (Text × Text) → Task
  | _,[] =>
    .attempt [.prepareConfig,.combine,.archiveCompression,.putResult]
      (.several [.bool true,.string library.stored])
      (fun _ => [])
      -- the exception itself, not its text
      (fun error => .several [.bool false,.exception error])
      []
  | index,(inputPath,outputPath) :: rest =>
    calls [.mkdir index,.mkdirInput index] <| getDestinationFile outputPath <|
      calls (maybeGetTar library .output index ++ [.openArchive .output index,.extractAll index]) <|
        if library.occurrenceInOutput index then calls [.copyOccurrence index] (combineFrom library (index + 1) rest)
        else getDestinationFile inputPath <|
          calls (maybeGetTar library .input index ++ [.openArchive .input index,.readMembers index]) <|
            if library.occurrenceInInput index then calls [.extractMember index] (combineFrom library (index + 1) rest)
            else .ret (.several [.bool false,.string "Combine Required file: occurrence.bin missing."])

def runCombine (library : Library) (inputTarPaths outputTarPaths : List Text) : Task :=
  calls [.getFilestore,.mkdtemp] (combineFrom library 0 (inputTarPaths.zip outputTarPaths))

/-- A task with the arguments it reads, and the file type that the recorder of a transform
    is given. -/
inductive Job where
  | exposureRun (files : ExposureFiles) (givenParams : Json)
  | oedValidation (files : ExposureFiles)
  | exposureTransform (filepath : Text) (fileType : Json)
  | combine (inputTarPaths outputTarPaths : List Text)

def Job.task (library : Library) : Job → Task
  | .exposureRun files givenParams => runExposureRun library files givenParams
  | .oedValidation files => runOedValidation library files
  | .exposureTransform filepath _ => runExposureTransform library filepath
  | .combine inputTarPaths outputTarPaths => runCombine library inputTarPaths outputTarPaths

inductive Status where
  | new
  | started
  | runCompleted
  | error
  deriving DecidableEq, Repr

/-- The statuses of a portfolio, and that of an analysis made by combining others. -/
structure Statuses where
  exposure : Status
  validation : Status
  exposureTransform : Status
  analysis : Status

/-- `file, success = result`. -/
def Value.unpack : Value → Option (Item × Item)
  | .several [first,second] => some (first,second)
  | _ => none

/-- `selection[file_type]`, none where it raises. -/
def selected : Json → Option PortfolioField
  | .string fileType => selection fileType
  | _ => none

/-- The recorder of a task: the statuses it saves and whether it returns. None where it
    raises before: the value does not unpack, or a transform went well and its file type is
    not known. -/
def Job.record (job : Job) (value : Value) (statuses : Statuses) : Option (Statuses × Bool) :=
  match job with
  | .exposureRun _ _ =>
    value.unpack.map fun (_,success) =>
      ({ statuses with exposure := if success.truthy then .runCompleted else .error },true)
  | .oedValidation _ =>
    if value.truthy then some ({ statuses with validation := .error },false)
    else some ({ statuses with validation := .runCompleted },true)
  | .exposureTransform _ fileType =>
    value.unpack.bind fun (_,success) =>
      if success.truthy then (selected fileType).map fun _ => ({ statuses with exposureTransform := .runCompleted },true)
      else some ({ statuses with exposureTransform := .error, validation := .error },false)
  | .combine _ _ =>
    value.unpack.map fun (success,_) =>
      ({ statuses with analysis := if success.truthy then .runCompleted else .error },true)

/-- The shape of what a recorder takes: a reference or an error with a flag, for a
    validation its errors or one text. -/
def Job.shape (job : Job) (value : Value) : Bool :=
  match job,value with
  | .oedValidation _,.single (.string _) => true
  | .oedValidation _,.several items => items.all fun item => match item with | .string _ => true | _ => false
  | .combine _ _,.several [.bool _,.string _] => true
  | .exposureRun _ _,.several [.string _,.bool _] => true
  | .exposureTransform _ _,.several [.string _,.bool _] => true
  | _,_ => false

inductive Request where
  | validate (files : ExposureFiles)
  | exposureRun (files : ExposureFiles) (givenParams : Json)
  /-- `fileType`: `request.data['file_type']`, where it is there -/
  | exposureTransform (transformFile : Text) (fileType : Option Json) (files : ExposureFiles)
  /-- `recordedFirst`: the recorder is through before the request saves its own status -/
  | combine (inputTarPaths outputTarPaths : List Text) (recordedFirst : Bool)

def Request.jobs : Request → List Job
  | .validate files => [.oedValidation files]
  | .exposureRun files givenParams => [.exposureRun files givenParams]
  -- without the key it raises before anything is saved or sent
  | .exposureTransform _ none _ => []
  | .exposureTransform transformFile (some fileType) files =>
    [.exposureTransform transformFile fileType,.oedValidation files]
  | .combine inputTarPaths outputTarPaths _ => [.combine inputTarPaths outputTarPaths]

/-- The statuses that a request saves. -/
def Request.mark (request : Request) (statuses : Statuses) : Statuses :=
  match request with
  | .validate _ => { statuses with validation := .started }
  | .exposureRun _ _ => { statuses with exposure := .started }
  | .exposureTransform _ none _ => statuses
  | .exposureTransform _ (some _) _ => { statuses with exposureTransform := .started, validation := .started }
  | .combine _ _ _ => { statuses with analysis := .started }

/-- A chain without an errback: it ends where a task raises, where its value is not
    serialisable, and where a recorder raises. -/
def runChain (library : Library) (fails : Call → Option Raised) : List Job → Statuses → Statuses
  | [],statuses => statuses
  | job :: rest,statuses =>
    match (job.task library).exec fails with
    | .error _ => statuses
    | .ok value =>
      if value.serialisable then
        match job.record value statuses with
        | none => statuses
        | some (recorded,true) => runChain library fails rest recorded
        | some (recorded,false) => recorded
      else statuses

/-- No status is left at started. -/
structure Statuses.Settled (statuses : Statuses) : Prop where
  exposure : statuses.exposure ≠ .started
  validation : statuses.validation ≠ .started
  exposureTransform : statuses.exposureTransform ≠ .started
  analysis : statuses.analysis ≠ .started

/-- Statuses while nothing is in flight. -/
def Idle : Type := { statuses : Statuses // statuses.Settled }

def Request.recordedFirst : Request → Bool
  | .combine _ _ recordedFirst => recordedFirst
  | _ => false

/-- The statuses when a request is answered and no task of it is in flight. -/
def Request.finish (request : Request) (library : Library) (fails : Call → Option Raised) (statuses : Statuses) : Statuses :=
  match request with
  | .combine _ _ true => request.mark (runChain library fails request.jobs statuses)
  | _ => runChain library fails request.jobs (request.mark statuses)

/-! ### Supported arguments -/

def pathSupported (filepath : Option Text) : Bool :=
  match filepath with
  | none => true
  | some path => path = [] || (destinationSuffix path).isSome

def ExposureFiles.supported (files : ExposureFiles) : Bool :=
  pathSupported files.loc && pathSupported files.acc && pathSupported files.ri && pathSupported files.rl

def isObject : Json → Bool
  | .object _ => true
  | _ => false

/-- The paths of the archives that the loop of `run_combine` comes to. -/
def pairsSupported (library : Library) : (index : Nat) → List (Text × Text) → Bool
  | _,[] => true
  | index,(inputPath,outputPath) :: rest =>
    (destinationSuffix outputPath).isSome &&
      if library.occurrenceInOutput index then pairsSupported library (index + 1) rest
      else (destinationSuffix inputPath).isSome &&
        if library.occurrenceInInput index then pairsSupported library (index + 1) rest else true

def Job.supported (library : Library) : Job → Bool
  | .exposureRun files givenParams => files.supported && isObject givenParams
  | .oedValidation files => files.supported
  | .exposureTransform filepath _ => (destinationSuffix filepath).isSome
  | .combine inputTarPaths outputTarPaths => pairsSupported library 0 (inputTarPaths.zip outputTarPaths)

def Job.combines : Job → Bool
  | .combine _ _ => true
  | _ => false

/-- The calls whose exception a task loses: those outside the `try`, for `run_combine`
    those inside it too. -/
def Job.fatal (library : Library) (job : Job) : List Call :=
  (job.task library).outside ++ if job.combines then (job.task library).guarded else []

/-- The recorder of a transform knows the file type, unless the transform is to fail. -/
def Request.typed (library : Library) (request : Request) (fault : Option (Call × Raised)) : Bool :=
  match request with
  | .exposureTransform transformFile (some fileType) _ =>
    (selected fileType).isSome ||
      fault.any fun raised => raised.1 ∈ ((Job.exposureTransform transformFile fileType).task library).guarded
  | _ => true

def Job.Good (job : Job) (value : Value) : Prop := value.serialisable = true ∧ job.shape value = true

/-- The task returns a value that the serializer takes, of the shape that its recorder
    unpacks. -/
def Delivers (library : Library) (fails : Call → Option Raised) (job : Job) : Prop :=
  Returns job.Good fails (job.task library)

/-- The calls that raise, where at most one does. -/
def failing : Option (Call × Raised) → Call → Option Raised
  | none => noFault
  | some (c,error) => only c error

/-- A program is calls and then another. -/
def Ends (last : Task → Prop) (task : Task) : Prop := ∃ cs next, task = calls cs next ∧ last next

theorem Ends.here {last : Task → Prop} {task : Task} (holds : last task) : Ends last task := ⟨[],task,rfl,holds⟩

theorem Ends.after {last : Task → Prop} {task : Task} (cs : List Call) (ends : Ends last task) :
    Ends last (calls cs task) := by
  obtain ⟨later,next,rfl,holds⟩ := ends
  exact ⟨cs ++ later,next,(calls_append cs later next).symm,holds⟩

/-- With supported arguments what the file is fetched for, else an exception. -/
def Followed (supported : Bool) (last : Task → Prop) (task : Task) : Prop :=
  if supported then last task else ∃ error, task = .raise error

theorem getDestinationFile_ends {last : Task → Prop} (filename : Text) {supported : Bool} {next : Task}
    (ends : Ends (Followed supported last) next) :
    Ends (Followed ((destinationSuffix filename).isSome && supported) last) (getDestinationFile filename next) := by
  cases suffix : destinationSuffix filename with
  | none => exact Ends.here (by simp [Followed,getDestinationFile,suffix])
  | some text => simpa [getDestinationFile,suffix] using ends

theorem fetchFile_ends {last : Task → Prop} (title : Title) (filepath : Option Text) {supported : Bool} {next : Task}
    (ends : Ends (Followed supported last) next) :
    Ends (Followed (pathSupported filepath && supported) last) (fetchFile title filepath next) := by
  cases filepath with
  | none => simpa [pathSupported,fetchFile] using ends
  | some path =>
    by_cases blank : path = []
    · simpa [pathSupported,fetchFile,blank] using ends
    · have fetched := getDestinationFile_ends path (ends.after (copyOrDownload path title))
      simpa [pathSupported,fetchFile,blank] using fetched

theorem getAllExposureFiles_ends {last : Task → Prop} (files : ExposureFiles) {supported : Bool} {next : Task}
    (ends : Ends (Followed supported last) next) :
    Ends (Followed (files.supported && supported) last) (getAllExposureFiles files next) := by
  have converted := ends.after (copyOrDownload (files.currencyConversion.getD []) .currencyConversion)
  have scope := fetchFile_ends .riScope files.rl converted
  have info := fetchFile_ends .riInfo files.ri scope
  have account := fetchFile_ends .account files.acc info
  have location := fetchFile_ends .location files.loc account
  simpa [ExposureFiles.supported,getAllExposureFiles,Bool.and_assoc] using location

/-- The last program of a task with supported arguments: a `try` whose value is good, and
    whose handler's value is good but for `run_combine`; or a good value. -/
def Job.Last (job : Job) : Task → Prop
  | .ret value => job.Good value
  | .attempt body value handler handled _ =>
    job.Good value ∧ (∀ error, job.Good (handled error) ↔ job.combines = false) ∧
      ∀ error, ∀ c ∈ body, c ∉ handler error
  | _ => False

theorem combineFrom_ends (library : Library) {inputTarPaths outputTarPaths : List Text} (index : Nat)
    (pairs : List (Text × Text)) :
    Ends (Followed (pairsSupported library index pairs) (Job.combine inputTarPaths outputTarPaths).Last)
      (combineFrom library index pairs) := by
  induction pairs generalizing index with
  | nil =>
    refine Ends.here ?_
    simp [Followed,pairsSupported,combineFrom,Job.Last,Job.Good,Job.shape,Job.combines,Value.serialisable,Item.serialisable]
  | cons pair rest ih =>
    obtain ⟨inputPath,outputPath⟩ := pair
    rw [combineFrom,pairsSupported]
    refine Ends.after _ (getDestinationFile_ends outputPath (Ends.after _ ?_))
    by_cases outputs : library.occurrenceInOutput index = true
    · simpa [outputs] using (ih (index + 1)).after [.copyOccurrence index]
    · simp only [if_neg outputs]
      refine getDestinationFile_ends inputPath (Ends.after _ ?_)
      by_cases inputs : library.occurrenceInInput index = true
      · simpa [inputs] using (ih (index + 1)).after [.extractMember index]
      · simp only [if_neg inputs]
        refine Ends.here ?_
        simp [Followed,Job.Last,Job.Good,Job.shape,Value.serialisable,Item.serialisable]

theorem Job.task_ends (library : Library) (job : Job) :
    Ends (Followed (job.supported library) job.Last) (job.task library) := by
  cases job with
  | exposureRun files givenParams =>
    refine Ends.after _ (getAllExposureFiles_ends files (Ends.after _ (Ends.here ?_)))
    cases givenParams <;>
      simp [Followed,updateParams,isObject,Job.Last,Job.Good,Job.shape,Job.combines,Value.serialisable,Item.serialisable]
  | oedValidation files =>
    have ended : Ends (Followed true (Job.oedValidation files).Last)
        (.attempt [.oedExposure,.check] (.several (library.checkErrors.map .string)) (fun _ => [])
          (fun error => .single (.string (library.str error))) []) := by
      refine Ends.here ?_
      simp [Followed,Job.Last,Job.Good,Job.shape,Job.combines,Value.serialisable,Item.serialisable]
    simpa [Job.supported,Job.task,runOedValidation] using (getAllExposureFiles_ends files ended).after [.mkdtemp]
  | exposureTransform filepath fileType =>
    have ended : Ends (Followed true (Job.exposureTransform filepath fileType).Last)
        (.attempt [.transformFormat,.resultFilestore,.putResult] (.several [.string library.stored,.bool true])
          (fun _ => []) (fun error => .several [.string (library.str error),.bool false]) []) := by
      refine Ends.here ?_
      simp [Followed,Job.Last,Job.Good,Job.shape,Job.combines,Value.serialisable,Item.serialisable]
    have fetched := getDestinationFile_ends filepath (ended.after (copyOrDownload filepath .localFile))
    simpa [Job.supported,Job.task,runExposureTransform] using fetched.after [.mkdtemp]
  | combine inputTarPaths outputTarPaths => exact Ends.after _ (combineFrom_ends library 0 _)

theorem delivers_calm_iff (library : Library) (job : Job) :
    Delivers library noFault job ↔ job.supported library = true := by
  obtain ⟨cs,next,task,followed⟩ := job.task_ends library
  rw [Delivers,Returns,task,exec_calls_noFault]
  cases supported : job.supported library with
  | false =>
    obtain ⟨error,rfl⟩ : ∃ error, next = .raise error := by simpa [Followed,supported] using followed
    simp [exec]
  | true =>
    have last : job.Last next := by simpa [Followed,supported] using followed
    cases next with
    | ret value => simpa [exec] using (show job.Good value from last)
    | raise error => cases last
    | call c later => cases last
    | attempt body value handler handled cleanup => simpa [exec] using last.1

/-- What stands in a `try` is come to with supported arguments only; its exceptions go to
    a handler that makes other calls. -/
theorem task_guarded {library : Library} {job : Job} {c : Call} (inside : c ∈ (job.task library).guarded) (error : Raised) :
    job.supported library = true ∧ c ∉ (job.task library).handlerCalls error ∧
      ∃ value, (job.task library).handledValue error = some value ∧ (job.Good value ↔ job.combines = false) := by
  obtain ⟨cs,next,task,followed⟩ := job.task_ends library
  rw [task,guarded_calls] at inside
  rw [task,handlerCalls_calls,handledValue_calls]
  cases supported : job.supported library with
  | false =>
    obtain ⟨raised,rfl⟩ : ∃ raised, next = .raise raised := by simpa [Followed,supported] using followed
    cases inside
  | true =>
    have last : job.Last next := by simpa [Followed,supported] using followed
    cases next with
    | ret value => cases inside
    | raise raised => cases last
    | call d later => cases last
    | attempt body value handler handled cleanup =>
      obtain ⟨_,handledGood,apart⟩ := last
      exact ⟨rfl,apart error c inside,handled error,rfl,handledGood error⟩

theorem mem_fatal_iff {library : Library} {job : Job} {c : Call} :
    c ∈ job.fatal library ↔ c ∈ (job.task library).outside ∨ (job.combines = true ∧ c ∈ (job.task library).guarded) := by
  by_cases combines : job.combines = true <;> simp [Job.fatal,combines]

theorem delivers_only_iff (library : Library) (job : Job) (c : Call) (error : Raised) :
    Delivers library (only c error) job ↔ job.supported library = true ∧ c ∉ job.fatal library := by
  rw [Delivers,returns_only_iff fun inside => (task_guarded inside error).2.1,mem_fatal_iff,not_or,not_and]
  by_cases inside : c ∈ (job.task library).guarded
  · obtain ⟨supported,_,value,handled,good⟩ := task_guarded inside error
    simp [inside,supported,handled,good]
  · have calm := delivers_calm_iff library job
    rw [Delivers] at calm
    simp [inside,calm,and_comm]

/-- A task delivers exactly when its arguments are supported and no call raises whose
    exception it loses. -/
theorem delivers_iff (library : Library) (job : Job) (fault : Option (Call × Raised)) :
    Delivers library (failing fault) job ↔
      job.supported library = true ∧ ∀ raised ∈ fault, raised.1 ∉ job.fatal library := by
  cases fault with
  | none => simpa [failing] using delivers_calm_iff library job
  | some raised => simpa [failing] using delivers_only_iff library job raised.1 raised.2

/-! ### What the recorders leave -/

/-- What the recorder saves of a value of the right shape: the status of the job, and that
    of the validation where a failed transform stops the chain before it. -/
def Job.Recorded (job : Job) (before after : Statuses) (goesOn : Bool) : Prop :=
  ∃ status : Status, status ≠ .started ∧
    match job with
    | .exposureRun _ _ => after = { before with exposure := status }
    | .oedValidation _ => after = { before with validation := status }
    | .exposureTransform _ _ =>
      after = if goesOn then { before with exposureTransform := status }
        else { before with exposureTransform := status, validation := status }
    | .combine _ _ => after = { before with analysis := status }

/-- The file type is known, or the value is that of a transform that failed. -/
def Job.Typed (job : Job) (value : Value) : Prop :=
  match job with
  | .exposureTransform _ fileType => (selected fileType).isSome = true ∨ ∃ text, value = .several [.string text,.bool false]
  | _ => True

theorem record_recorded {job : Job} {value : Value} (shape : job.shape value = true) (typed : job.Typed value)
    (statuses : Statuses) :
    ∃ recorded goesOn, job.record value statuses = some (recorded,goesOn) ∧ job.Recorded statuses recorded goesOn := by
  unfold Job.shape at shape
  split at shape
  · rename_i text
    cases truthy : (Value.single (.string text)).truthy with
    | true => exact ⟨{ statuses with validation := .error },false,by simp [Job.record,truthy],.error,by decide,rfl⟩
    | false => exact ⟨{ statuses with validation := .runCompleted },true,by simp [Job.record,truthy],.runCompleted,by decide,rfl⟩
  · rename_i items
    cases truthy : (Value.several items).truthy with
    | true => exact ⟨{ statuses with validation := .error },false,by simp [Job.record,truthy],.error,by decide,rfl⟩
    | false => exact ⟨{ statuses with validation := .runCompleted },true,by simp [Job.record,truthy],.runCompleted,by decide,rfl⟩
  · rename_i success _
    cases success with
    | true => exact ⟨{ statuses with analysis := .runCompleted },true,rfl,.runCompleted,by decide,rfl⟩
    | false => exact ⟨{ statuses with analysis := .error },true,rfl,.error,by decide,rfl⟩
  · rename_i success
    cases success with
    | true => exact ⟨{ statuses with exposure := .runCompleted },true,rfl,.runCompleted,by decide,rfl⟩
    | false => exact ⟨{ statuses with exposure := .error },true,rfl,.error,by decide,rfl⟩
  · rename_i success
    cases success with
    | true =>
      have known := typed.resolve_right (by simp)
      obtain ⟨field,chosen⟩ := Option.isSome_iff_exists.mp known
      refine ⟨{ statuses with exposureTransform := .runCompleted },true,?_,.runCompleted,by decide,rfl⟩
      simp [Job.record,Value.unpack,Item.truthy,chosen]
    | false => exact ⟨{ statuses with exposureTransform := .error, validation := .error },false,rfl,.error,by decide,rfl⟩
  · cases shape

theorem runChain_delivered {library : Library} {fails : Call → Option Raised} {job : Job}
    (delivers : Delivers library fails job) (typed : ∀ value, (job.task library).exec fails = .ok value → job.Typed value)
    (rest : List Job) (statuses : Statuses) :
    ∃ recorded goesOn, job.Recorded statuses recorded goesOn ∧
      runChain library fails (job :: rest) statuses =
        if goesOn then runChain library fails rest recorded else recorded := by
  obtain ⟨value,executed,serialisable,shape⟩ := delivers
  obtain ⟨recorded,goesOn,record,saved⟩ := record_recorded shape (typed value executed) statuses
  refine ⟨recorded,goesOn,saved,?_⟩
  cases goesOn <;> simp [runChain,executed,serialisable,record]

theorem runChain_last {library : Library} {fails : Call → Option Raised} {job : Job}
    (delivers : Delivers library fails job) (typed : ∀ value, (job.task library).exec fails = .ok value → job.Typed value)
    (statuses : Statuses) :
    ∃ goesOn, job.Recorded statuses (runChain library fails [job] statuses) goesOn := by
  obtain ⟨recorded,goesOn,saved,ran⟩ := runChain_delivered delivers typed [] statuses
  refine ⟨goesOn,?_⟩
  rw [ran]
  cases goesOn <;> exact saved

/-- A transform of which no call in the `try` raises went well. -/
theorem transform_succeeds {library : Library} {fault : Option (Call × Raised)} {filepath : Text} {fileType : Json}
    (delivers : Delivers library (failing fault) (.exposureTransform filepath fileType))
    (unfailed : ∀ raised ∈ fault, raised.1 ∉ ((Job.exposureTransform filepath fileType).task library).guarded) :
    ((Job.exposureTransform filepath fileType).task library).exec (failing fault) =
      .ok (.several [.string library.stored,.bool true]) := by
  obtain ⟨supported,calm⟩ := (delivers_iff library _ fault).mp delivers
  have clear : ((Job.exposureTransform filepath fileType).task library).exec (failing fault) =
      ((Job.exposureTransform filepath fileType).task library).exec noFault := by
    cases fault with
    | none => rfl
    | some raised =>
      exact exec_unreached (fun out => calm raised rfl (mem_fatal_iff.mpr (.inl out))) (unfailed raised rfl)
  obtain ⟨suffix,known⟩ := Option.isSome_iff_exists.mp supported
  rw [clear]
  simp [Job.task,runExposureTransform,getDestinationFile,known,exec]

/-- One of which such a call raises hands its recorder the error. -/
theorem transform_fails {library : Library} {c : Call} {error : Raised} {filepath : Text} {fileType : Json}
    (delivers : Delivers library (only c error) (.exposureTransform filepath fileType))
    (inside : c ∈ ((Job.exposureTransform filepath fileType).task library).guarded) :
    ((Job.exposureTransform filepath fileType).task library).exec (only c error) =
      .ok (.several [.string (library.str error),.bool false]) := by
  obtain ⟨supported,calm⟩ := (delivers_only_iff library _ c error).mp delivers
  have clear := fun out => calm (mem_fatal_iff.mpr (.inl out))
  obtain ⟨value,handled,executed⟩ := exec_guarded inside clear (task_guarded inside error).2.1
  obtain ⟨suffix,known⟩ := Option.isSome_iff_exists.mp supported
  have failed : value = .several [.string (library.str error),.bool false] := by
    simpa [Job.task,runExposureTransform,getDestinationFile,known,handledValue,eq_comm] using handled
  rw [executed,failed]

theorem transform_typed {library : Library} {fault : Option (Call × Raised)} {transformFile : Text} {fileType : Json}
    {files : ExposureFiles} (delivers : Delivers library (failing fault) (.exposureTransform transformFile fileType))
    (typed : (Request.exposureTransform transformFile (some fileType) files).typed library fault = true) (value : Value)
    (executed : ((Job.exposureTransform transformFile fileType).task library).exec (failing fault) = .ok value) :
    (Job.exposureTransform transformFile fileType).Typed value := by
  rw [Request.typed,Bool.or_eq_true] at typed
  refine typed.imp_right fun failed => ?_
  cases fault with
  | none => cases failed
  | some raised => exact ⟨_,Except.ok.inj (executed.symm.trans (transform_fails delivers (of_decide_eq_true failed)))⟩

/-- Where all tasks of a request deliver, its recorders leave no status at started. -/
theorem finish_settled {request : Request} {library : Library} {fault : Option (Call × Raised)} (before : Idle)
    (delivers : ∀ job ∈ request.jobs, Delivers library (failing fault) job) (ordered : request.recordedFirst = false)
    (typed : request.typed library fault = true) : (request.finish library (failing fault) before.1).Settled := by
  obtain ⟨idle,settled⟩ := before
  cases request with
  | validate files =>
    obtain ⟨_,status,ended,saved⟩ := runChain_last (delivers _ List.mem_cons_self) (fun _ _ => trivial)
      (Request.mark (.validate files) idle)
    simp only [Request.finish,Request.jobs,saved]
    exact ⟨settled.exposure,ended,settled.exposureTransform,settled.analysis⟩
  | exposureRun files givenParams =>
    obtain ⟨_,status,ended,saved⟩ :=
      runChain_last (delivers _ List.mem_cons_self) (fun _ _ => trivial) (Request.mark (.exposureRun files givenParams) idle)
    simp only [Request.finish,Request.jobs,saved]
    exact ⟨ended,settled.validation,settled.exposureTransform,settled.analysis⟩
  | exposureTransform transformFile fileType files =>
    cases fileType with
    | none => exact settled
    | some fileType =>
      have transformed := delivers (.exposureTransform transformFile fileType) List.mem_cons_self
      obtain ⟨recorded,goesOn,⟨status,ended,saved⟩,ran⟩ := runChain_delivered transformed
        (transform_typed transformed typed) [.oedValidation files]
        (Request.mark (.exposureTransform transformFile (some fileType) files) idle)
      simp only [Request.finish,Request.jobs,ran]
      cases goesOn with
      | false =>
        simp only [saved]
        exact ⟨settled.exposure,ended,ended,settled.analysis⟩
      | true =>
        obtain ⟨_,later,validated,stored⟩ := runChain_last
          (delivers (.oedValidation files) (List.mem_cons_of_mem _ List.mem_cons_self)) (fun _ _ => trivial) recorded
        simp only [if_true] at saved ⊢
        rw [stored,saved]
        exact ⟨settled.exposure,validated,ended,settled.analysis⟩
  | combine inputTarPaths outputTarPaths recordedFirst =>
    cases recordedFirst with
    | true => cases ordered
    | false =>
      obtain ⟨_,status,ended,saved⟩ := runChain_last (delivers _ List.mem_cons_self) (fun _ _ => trivial)
        (Request.mark (.combine inputTarPaths outputTarPaths false) idle)
      simp only [Request.finish,Request.jobs,saved]
      exact ⟨settled.exposure,settled.validation,settled.exposureTransform,ended⟩

theorem finish_recordedFirst {request : Request} (first : request.recordedFirst = true) (library : Library)
    (fails : Call → Option Raised) (statuses : Statuses) : ¬ (request.finish library fails statuses).Settled := by
  intro settled
  cases request with
  | combine inputTarPaths outputTarPaths recordedFirst =>
    cases recordedFirst with
    | true => exact settled.analysis rfl
    | false => cases first
  | validate files => cases first
  | exposureRun files givenParams => cases first
  | exposureTransform transformFile fileType files => cases first

/-- A transform that went well, of a file type that its recorder does not know, stays at started. -/
theorem finish_untyped {request : Request} {library : Library} {fault : Option (Call × Raised)}
    (delivers : ∀ job ∈ request.jobs, Delivers library (failing fault) job)
    (untyped : request.typed library fault = false) (statuses : Statuses) :
    ¬ (request.finish library (failing fault) statuses).Settled := by
  intro settled
  cases request with
  | exposureTransform transformFile fileType files =>
    cases fileType with
    | none => cases untyped
    | some fileType =>
      obtain ⟨unknown,unfailed⟩ := Bool.or_eq_false_iff.mp untyped
      have executed := transform_succeeds (delivers (.exposureTransform transformFile fileType) List.mem_cons_self)
        (fun raised fault inside => by simp [Option.mem_def.mp fault,inside] at unfailed)
      refine settled.exposureTransform ?_
      simp [Request.finish,Request.jobs,runChain,executed,Value.serialisable,Item.serialisable,Job.record,Value.unpack,
        Item.truthy,Option.not_isSome_iff_eq_none.mp (Bool.eq_false_iff.mp unknown),Request.mark]
  | validate files => cases untyped
  | exposureRun files givenParams => cases untyped
  | combine inputTarPaths outputTarPaths recordedFirst => cases untyped

/-- With at most one call that raises, all tasks of a request deliver what their recorders
    unpack and no status stays at started: exactly when the arguments of the tasks are
    supported, no task loses the exception, the request has saved its status before the
    recorder saves, and a transform that does not fail has a file type that is known. -/
theorem request_recorded_iff (library : Library) (request : Request) (fault : Option (Call × Raised)) (before : Idle) :
    ((∀ job ∈ request.jobs, Delivers library (failing fault) job) ∧
        (request.finish library (failing fault) before.1).Settled) ↔
      (∀ job ∈ request.jobs, job.supported library = true ∧ ∀ raised ∈ fault, raised.1 ∉ job.fatal library) ∧
        request.recordedFirst = false ∧ request.typed library fault = true := by
  simp only [← delivers_iff]
  constructor
  · rintro ⟨delivers,settled⟩
    refine ⟨delivers,Bool.eq_false_iff.mpr fun first => ?_,Bool.of_not_eq_false fun untyped => ?_⟩
    · exact finish_recordedFirst first library (failing fault) before.1 settled
    · exact finish_untyped delivers untyped before.1 settled
  · rintro ⟨delivers,ordered,typed⟩
    exact ⟨delivers,finish_settled before delivers ordered typed⟩

/-- Archives with an occurrence file in each output. -/
def plainLibrary : Library where
  str _ := "no such file"
  checkErrors := []
  stored := "combine_results.tar.gz"
  storedError := "error.txt"
  archivePresent _ _ := false
  occurrenceInOutput _ := true
  occurrenceInInput _ := true

def newStatuses : Idle := ⟨⟨.new,.new,.new,.new⟩,by constructor <;> decide⟩

/-- Combining two analyses, of which `combine.combine` raises: the exception is returned
    as it is, and the analysis stays at started. -/
theorem failedCombine_stays_started :
    ¬ ((∀ job ∈ (Request.combine ["1_inputs.tar.gz".toList,"2_inputs.tar.gz".toList]
          ["1_outputs.tar.gz".toList,"2_outputs.tar.gz".toList] false).jobs,
          Delivers plainLibrary (failing (some (.combine,.external "no common events"))) job) ∧
        ((Request.combine ["1_inputs.tar.gz".toList,"2_inputs.tar.gz".toList]
          ["1_outputs.tar.gz".toList,"2_outputs.tar.gz".toList] false).finish plainLibrary
            (failing (some (.combine,.external "no common events"))) newStatuses.1).Settled) := by
  rintro ⟨_,settled⟩
  exact settled.analysis (by decide)

end OasisPlatform.InternalJobs
