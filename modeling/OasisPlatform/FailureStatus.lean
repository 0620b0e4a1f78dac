import Mathlib.Data.Option.Basic
import OasisPlatform.AnalysisTasks

/-!
`handle_task_failure` of the V2 tasks over all its deliveries, with an exception from any
of its reads and file or storage operations. The traceback is read from the result backend
and the analysis from the database before a `try` that swallows every exception, and the save
of the status is the last operation in it, so the status of a failed chain is stored exactly
when none of them raises, but for a log whose file is missing (`failure_status_stored_iff`).
-/
namespace OasisPlatform.FailureStatus
open OasisPlatform.SharedRow OasisPlatform.Models OasisPlatform.AnalysisTasks
set_option linter.unusedSimpArgs false

inductive Operation where
  /-- `AsyncResult(args[0]).traceback`, a `ValueError` apart -/
  | readResult
  | getAnalysis
  | filterSubTasks
  | fetchLog (log : FileId)
  | temporaryFile
  | writeTraceback
  | writeHeader (slug : String)
  | writeLog (log : FileId)
  | seek
  | getUser
  | createFile
  | fetchRunLog
  | deleteRunLog
  | save
  deriving DecidableEq, Repr

/-- What the result backend has of the failed task. -/
inductive FailedResult where
  | valueError
  | traceback (text : Option String)
  deriving DecidableEq, Repr

/-- What the operations of one delivery give, and which of them raise. -/
structure Services where
  now : Time
  failedResult : FailedResult
  readLog : FileId → Except ReadError String
  created : (content contentType : String) → (creator : UserId) → (filename : String) → FileId
  raises : Operation → Bool

def Services.perform (services : Services) (operation : Operation) : Option Unit :=
  if services.raises operation then none else some ()

/-- The positional arguments of an errback. -/
inductive ErrbackArgs where
  /-- the request, the exception and the traceback -/
  | called (traceback : Option String)
  /-- the id of the failed task -/
  | sent
  deriving DecidableEq, Repr

structure Errback where
  args : ErrbackArgs
  initiator : UserId
  tracebackProperty : TracebackProperty
  failureStatus : AnalysisStatus

def Errback.failure (errback : Errback) (traceback : String) : Failure :=
  ⟨traceback,errback.initiator,errback.tracebackProperty,errback.failureStatus⟩

def tracebackFromErrbackArgs (services : Services) : ErrbackArgs → Option String
  | .called traceback => some (traceback.getD "")
  | .sent => do
    services.perform .readResult
    match services.failedResult with
    | .valueError => some ""
    | .traceback text => some (text.getD "")

/-- `any(not hasattr(t.output_log, 'read') for t in failed_subtasks)`. -/
def anyMissing (services : Services) : List SubTask → Option Bool
  | [] => some false
  | subTask :: rest =>
    match subTask.outputLog with
    | none => some true
    | some log => do
      services.perform (.fetchLog log)
      anyMissing services rest

def writeLog (services : Services) (text : String) : Option FileId → Option String
  | none => some text
  | some log => do
    services.perform (.fetchLog log)
    match services.readLog log with
    | .ok content => do
      services.perform (.writeLog log)
      some (text ++ content)
    | .error .fileNotFound => some text
    | .error .other => none

def writeSubTask (services : Services) (text : String) (subTask : SubTask) : Option String := do
  services.perform (.writeHeader subTask.slug)
  let text ← writeLog services (text ++ "\n=== " ++ subTask.slug ++ " ===\n") subTask.outputLog
  writeLog services text subTask.errorLog

def writeTraceback (services : Services) (traceback : String) : Option String :=
  if traceback = "" then some ""
  else do
    services.perform .writeTraceback
    some ("\n=== Trace Back ===\n" ++ traceback)

/-- The file is set on the analysis; a run log that is there is deleted. -/
def setLog (services : Services) (failure : Failure) (row : AnalysisRow) (analysis : Analysis) (log : FileId) :
    Option Analysis :=
  match failure.tracebackProperty with
  | .inputGenerationTracebackFile => some (analysis.set .inputGenerationTracebackFile (some log))
  | .runTracebackFile => do
    let analysis := analysis.set .runTracebackFile (some log)
    match row .runLogFile with
    | none => some (analysis.set .runLogFile (some log))
    | some _ => do
      services.perform .fetchRunLog
      services.perform .deleteRunLog
      some (analysis.set .runLogFile (some log))

/-- The body of the `try`. -/
def record (services : Services) (analysisId : AnalysisId) (failure : Failure) (failedSubtasks : List SubTask)
    (row : AnalysisRow) : Option AnalysisSave := do
  let analysis := (withFailureStatus failure.failureStatus row).set .taskFinished (some services.now)
  services.perform .temporaryFile
  let text ← writeTraceback services failure.traceback
  let text ← failedSubtasks.foldlM (writeSubTask services) text
  services.perform .seek
  services.perform .getUser
  services.perform .createFile
  let log := services.created text "text/plain" failure.initiator s!"analysis_{analysisId}_worker_traceback.txt"
  let analysis ← setLog services failure row analysis log
  services.perform .save
  some (Analysis.save analysis)

/-- What a delivery of the task finds stored, and its services. -/
structure Delivery where
  row : AnalysisRow
  subTasks : List SubTask
  services : Services

def Delivery.failedSubtasks (delivery : Delivery) : List SubTask :=
  delivery.subTasks.filter fun subTask => subTask.status = .error

/-- `logs_pending`, none where a read raises. -/
def Delivery.readPending (delivery : Delivery) : Option Bool := do
  delivery.services.perform .getAnalysis
  delivery.services.perform .filterSubTasks
  if delivery.failedSubtasks.isEmpty then some true else anyMissing delivery.services delivery.failedSubtasks

inductive Outcome where
  /-- `raise self.retry()` -/
  | retried
  /-- an exception before the `try` -/
  | raised
  /-- an exception that the `try` logs -/
  | swallowed
  | saved (save : AnalysisSave)

def attempt (analysisId : AnalysisId) (errback : Errback) (retries : Nat) (delivery : Delivery) : Outcome :=
  match tracebackFromErrbackArgs delivery.services errback.args with
  | none => .raised
  | some traceback =>
    match delivery.readPending with
    | none => .raised
    | some logsPending =>
      if logsPending && decide (retries < failureMaxRetries) then .retried
      else
        match record delivery.services analysisId (errback.failure traceback) delivery.failedSubtasks delivery.row with
        | none => .swallowed
        | some save => .saved save

def Outcome.stored (outcome : Outcome) (row : AnalysisRow) : AnalysisRow :=
  match outcome with
  | .saved save => save.apply row
  | _ => row

/-- The retries at which the task finishes; delivery `n` comes after `n` retries. -/
def finishedAt (analysisId : AnalysisId) (errback : Errback) (deliveries : Nat → Delivery) : (left retries : Nat) → Nat
  | 0,retries => retries
  | left + 1,retries =>
    match attempt analysisId errback retries (deliveries retries) with
    | .retried => finishedAt analysisId errback deliveries left (retries + 1)
    | _ => retries

def handleTaskFailure (analysisId : AnalysisId) (errback : Errback) (deliveries : Nat → Delivery) : Nat :=
  finishedAt analysisId errback deliveries failureMaxRetries 0

def Services.logFails (services : Services) (log : FileId) : Bool :=
  services.raises (.fetchLog log) ||
    match services.readLog log with
    | .ok _ => services.raises (.writeLog log)
    | .error .fileNotFound => false
    | .error .other => true

/-- No operation for a failed sub-task raises. -/
structure SubTaskWritten (services : Services) (subTask : SubTask) : Prop where
  header : services.raises (.writeHeader subTask.slug) = false
  outputLog : ∀ log ∈ subTask.outputLog, services.logFails log = false
  errorLog : ∀ log ∈ subTask.errorLog, services.logFails log = false

/-- No operation of the delivery raises; a log file that is missing does not count. -/
structure Undisturbed (errback : Errback) (delivery : Delivery) : Prop where
  readResult : errback.args = .sent → delivery.services.raises .readResult = false
  getAnalysis : delivery.services.raises .getAnalysis = false
  filterSubTasks : delivery.services.raises .filterSubTasks = false
  temporaryFile : delivery.services.raises .temporaryFile = false
  traceback : ∀ traceback ∈ tracebackFromErrbackArgs delivery.services errback.args, traceback ≠ "" →
    delivery.services.raises .writeTraceback = false
  subTasks : ∀ subTask ∈ delivery.failedSubtasks, SubTaskWritten delivery.services subTask
  seek : delivery.services.raises .seek = false
  getUser : delivery.services.raises .getUser = false
  createFile : delivery.services.raises .createFile = false
  runLog : errback.tracebackProperty = .runTracebackFile → delivery.row .runLogFile ≠ none →
    delivery.services.raises .fetchRunLog = false ∧ delivery.services.raises .deleteRunLog = false
  save : delivery.services.raises .save = false

@[simp] theorem perform_isSome (services : Services) (operation : Operation) :
    (services.perform operation).isSome = true ↔ services.raises operation = false := by
  cases raised : services.raises operation <;> simp [Services.perform,raised]

theorem isSome_bind_iff {α β : Type} {first : Option α} {next : α → Option β} {First Next : Prop}
    (begins : first.isSome = true ↔ First) (continues : ∀ value, (next value).isSome = true ↔ Next) :
    (first >>= next).isSome = true ↔ First ∧ Next := by
  cases first with
  | none => simp [← begins]
  | some value => simp [← begins,← continues value]

theorem tracebackFromErrbackArgs_isSome_iff (services : Services) (args : ErrbackArgs) :
    (tracebackFromErrbackArgs services args).isSome = true ↔ (args = .sent → services.raises .readResult = false) := by
  cases args with
  | called traceback => simp [tracebackFromErrbackArgs]
  | sent =>
    have read : (tracebackFromErrbackArgs services .sent).isSome = true ↔ services.raises .readResult = false ∧ True :=
      isSome_bind_iff (perform_isSome ..) fun _ => by cases services.failedResult <;> simp
    simpa using read

theorem writeLog_isSome_iff (services : Services) (text : String) (log : Option FileId) :
    (writeLog services text log).isSome = true ↔ ∀ file ∈ log, services.logFails file = false := by
  cases log with
  | none => simp [writeLog]
  | some file =>
    simp only [Option.mem_some_iff,forall_eq',Services.logFails,Bool.or_eq_false_iff]
    refine isSome_bind_iff (perform_isSome ..) fun _ => ?_
    cases services.readLog file with
    | ok content => exact (isSome_bind_iff (perform_isSome ..) fun _ => Iff.rfl).trans (by simp)
    | error failed => cases failed <;> simp

theorem writeSubTask_isSome_iff (services : Services) (text : String) (subTask : SubTask) :
    (writeSubTask services text subTask).isSome = true ↔ SubTaskWritten services subTask := by
  have parts : (writeSubTask services text subTask).isSome = true ↔
      services.raises (.writeHeader subTask.slug) = false ∧ (∀ log ∈ subTask.outputLog, services.logFails log = false) ∧
        ∀ log ∈ subTask.errorLog, services.logFails log = false :=
    isSome_bind_iff (perform_isSome ..) fun _ =>
      isSome_bind_iff (writeLog_isSome_iff ..) fun text => writeLog_isSome_iff services text subTask.errorLog
  rw [parts]
  constructor
  · rintro ⟨header,output,error⟩
    exact ⟨header,output,error⟩
  · rintro ⟨header,output,error⟩
    exact ⟨header,output,error⟩

theorem writeSubTasks_isSome_iff (services : Services) (subTasks : List SubTask) (text : String) :
    (subTasks.foldlM (writeSubTask services) text).isSome = true ↔
      ∀ subTask ∈ subTasks, SubTaskWritten services subTask := by
  induction subTasks generalizing text with
  | nil => simp
  | cons subTask rest ih =>
    rw [List.foldlM_cons,List.forall_mem_cons]
    exact isSome_bind_iff (writeSubTask_isSome_iff ..) ih

theorem writeTraceback_isSome_iff (services : Services) (traceback : String) :
    (writeTraceback services traceback).isSome = true ↔ (traceback ≠ "" → services.raises .writeTraceback = false) := by
  unfold writeTraceback
  split_ifs with empty
  · simp [empty]
  · exact (isSome_bind_iff (perform_isSome ..) fun _ => Iff.rfl).trans (by simp [empty])

theorem setLog_isSome_iff (services : Services) (failure : Failure) (row : AnalysisRow) (analysis : Analysis)
    (log : FileId) :
    (setLog services failure row analysis log).isSome = true ↔
      (failure.tracebackProperty = .runTracebackFile → row .runLogFile ≠ none →
        services.raises .fetchRunLog = false ∧ services.raises .deleteRunLog = false) := by
  unfold setLog
  cases failure.tracebackProperty with
  | inputGenerationTracebackFile => simp
  | runTracebackFile =>
    cases row .runLogFile with
    | none => simp
    | some old =>
      refine (isSome_bind_iff (perform_isSome ..) fun _ => isSome_bind_iff (perform_isSome ..) fun _ => Iff.rfl).trans ?_
      simp

theorem record_isSome_iff (services : Services) (analysisId : AnalysisId) (failure : Failure)
    (failedSubtasks : List SubTask) (row : AnalysisRow) :
    (record services analysisId failure failedSubtasks row).isSome = true ↔ services.raises .temporaryFile = false ∧
      (failure.traceback ≠ "" → services.raises .writeTraceback = false) ∧
      (∀ subTask ∈ failedSubtasks, SubTaskWritten services subTask) ∧ services.raises .seek = false ∧
      services.raises .getUser = false ∧ services.raises .createFile = false ∧
      (failure.tracebackProperty = .runTracebackFile → row .runLogFile ≠ none →
        services.raises .fetchRunLog = false ∧ services.raises .deleteRunLog = false) ∧
      services.raises .save = false ∧ True :=
  isSome_bind_iff (perform_isSome ..) fun _ =>
    isSome_bind_iff (writeTraceback_isSome_iff ..) fun text =>
      isSome_bind_iff (writeSubTasks_isSome_iff services failedSubtasks text) fun _ =>
        isSome_bind_iff (perform_isSome ..) fun _ =>
          isSome_bind_iff (perform_isSome ..) fun _ =>
            isSome_bind_iff (perform_isSome ..) fun _ =>
              isSome_bind_iff (setLog_isSome_iff services failure row _ _) fun _ =>
                isSome_bind_iff (perform_isSome ..) fun _ => by simp

/-- The reads before the `try` are among those that writing the logs needs. -/
theorem anyMissing_isSome {services : Services} {subTasks : List SubTask}
    (written : ∀ subTask ∈ subTasks, SubTaskWritten services subTask) : (anyMissing services subTasks).isSome = true := by
  induction subTasks with
  | nil => rfl
  | cons subTask rest ih =>
    rw [List.forall_mem_cons] at written
    unfold anyMissing
    cases log : subTask.outputLog with
    | none => rfl
    | some file =>
      have fetched := written.1.outputLog file log
      rw [Services.logFails,Bool.or_eq_false_iff] at fetched
      exact (isSome_bind_iff (perform_isSome ..) fun _ => Iff.rfl).mpr ⟨fetched.1,ih written.2⟩

theorem readPending_isSome_iff (delivery : Delivery) :
    delivery.readPending.isSome = true ↔ delivery.services.raises .getAnalysis = false ∧
      delivery.services.raises .filterSubTasks = false ∧
        (delivery.failedSubtasks = [] ∨ (anyMissing delivery.services delivery.failedSubtasks).isSome = true) := by
  refine isSome_bind_iff (perform_isSome ..) fun _ => isSome_bind_iff (perform_isSome ..) fun _ => ?_
  split_ifs with empty
  · simp [List.isEmpty_iff.mp empty]
  · simp [List.isEmpty_iff.not.mp empty]

/-- A delivery gets through the reads and the `try` exactly when nothing raises. -/
theorem undisturbed_iff (analysisId : AnalysisId) (errback : Errback) (delivery : Delivery) :
    Undisturbed errback delivery ↔ ∃ traceback,
      tracebackFromErrbackArgs delivery.services errback.args = some traceback ∧ delivery.readPending.isSome = true ∧
        (record delivery.services analysisId (errback.failure traceback) delivery.failedSubtasks delivery.row).isSome =
          true := by
  simp only [readPending_isSome_iff,record_isSome_iff]
  constructor
  · intro calm
    obtain ⟨traceback,read⟩ :=
      Option.isSome_iff_exists.mp ((tracebackFromErrbackArgs_isSome_iff ..).mpr calm.readResult)
    exact ⟨traceback,read,⟨calm.getAnalysis,calm.filterSubTasks,.inr (anyMissing_isSome calm.subTasks)⟩,
      calm.temporaryFile,calm.traceback traceback read,calm.subTasks,calm.seek,calm.getUser,calm.createFile,calm.runLog,
      calm.save,trivial⟩
  · rintro ⟨traceback,read,⟨analysis,filter,-⟩,temporary,written,subTasks,seek,user,create,runLog,save,-⟩
    have result := (tracebackFromErrbackArgs_isSome_iff ..).mp (Option.isSome_iff_exists.mpr ⟨traceback,read⟩)
    refine ⟨result,analysis,filter,temporary,fun other found => ?_,subTasks,seek,user,create,runLog,save⟩
    obtain rfl := Option.some.inj (read.symm.trans found)
    exact written

/-! ### What is stored -/

/-- The status that is to be stored for a failed chain. -/
def expectedStatus (errback : Errback) (row : AnalysisRow) : AnalysisStatus :=
  if row .status ∈ failureKeepsStatuses then row .status else errback.failureStatus

theorem setLog_status {services : Services} {failure : Failure} {row : AnalysisRow} {analysis logged : Analysis}
    {log : FileId} (set : setLog services failure row analysis log = some logged) :
    logged.values .status = analysis.values .status := by
  unfold setLog at set
  split at set
  · cases set
    simp
  · split at set
    · cases set
      simp
    · simp only [Option.bind_eq_bind,Option.bind_eq_some_iff,Option.some.injEq] at set
      obtain ⟨-,-,-,-,rfl⟩ := set
      simp

theorem record_status {services : Services} {analysisId : AnalysisId} {errback : Errback} {traceback : String}
    {failedSubtasks : List SubTask} {row : AnalysisRow} {save : AnalysisSave}
    (saved : record services analysisId (errback.failure traceback) failedSubtasks row = some save) :
    save.apply row .status = expectedStatus errback row := by
  simp only [record,Option.bind_eq_bind,Option.bind_eq_some_iff,Option.some.injEq] at saved
  obtain ⟨-,-,text,-,text',-,-,-,-,-,-,-,analysis,set,-,-,rfl⟩ := saved
  rw [Save.apply_writes rfl]
  refine (setLog_status set).trans ?_
  simp only [expectedStatus,withFailureStatus,Errback.failure]
  split_ifs <;> simp

theorem finishedAt_finished (analysisId : AnalysisId) (errback : Errback) (deliveries : Nat → Delivery) :
    ∀ left retries, left + retries = failureMaxRetries →
      finishedAt analysisId errback deliveries left retries ≤ failureMaxRetries ∧
        attempt analysisId errback (finishedAt analysisId errback deliveries left retries)
          (deliveries (finishedAt analysisId errback deliveries left retries)) ≠ .retried
  | 0,retries,sum => by
    have last : retries = failureMaxRetries := by omega
    refine ⟨by simp [finishedAt,last],?_⟩
    simp only [finishedAt,attempt,last]
    split
    · simp
    · split
      · simp
      · split
        · simp at *
        · split <;> simp
  | left + 1,retries,sum => by
    unfold finishedAt
    cases tried : attempt analysisId errback retries (deliveries retries) with
    | retried => exact finishedAt_finished analysisId errback deliveries left (retries + 1) (by omega)
    | _ => exact ⟨by simp; omega,by simp [tried]⟩

theorem attempt_status_iff {analysisId : AnalysisId} {errback : Errback} {retries : Nat} {delivery : Delivery}
    (finished : attempt analysisId errback retries delivery ≠ .retried) :
    (attempt analysisId errback retries delivery).stored delivery.row .status = expectedStatus errback delivery.row ↔
      Undisturbed errback delivery ∨ delivery.row .status ∈ failureKeepsStatuses ∨
        delivery.row .status = errback.failureStatus := by
  have unsaved : delivery.row .status = expectedStatus errback delivery.row ↔
      delivery.row .status ∈ failureKeepsStatuses ∨ delivery.row .status = errback.failureStatus := by
    unfold expectedStatus
    split_ifs with kept <;> simp [kept]
  rw [undisturbed_iff analysisId]
  unfold attempt at finished ⊢
  cases read : tracebackFromErrbackArgs delivery.services errback.args with
  | none => simpa [Outcome.stored] using unsaved
  | some traceback =>
    cases pending : delivery.readPending with
    | none => simpa [Outcome.stored] using unsaved
    | some logsPending =>
      simp only [read,pending] at finished ⊢
      split_ifs at finished ⊢
      · exact absurd rfl finished
      · cases saved : record delivery.services analysisId (errback.failure traceback) delivery.failedSubtasks
            delivery.row with
        | none => simpa [Outcome.stored,saved] using unsaved
        | some save => simp [Outcome.stored,saved,record_status saved]

/-- The task finishes after at most eight retries. It leaves the failure status, or one
    of the three that it keeps, exactly when no operation of its last delivery raises or
    that status was stored before. -/
theorem failure_status_stored_iff (analysisId : AnalysisId) (errback : Errback) (deliveries : Nat → Delivery) :
    let last := handleTaskFailure analysisId errback deliveries
    last ≤ failureMaxRetries ∧ attempt analysisId errback last (deliveries last) ≠ .retried ∧
      ((attempt analysisId errback last (deliveries last)).stored (deliveries last).row .status =
          expectedStatus errback (deliveries last).row ↔
        Undisturbed errback (deliveries last) ∨ (deliveries last).row .status ∈ failureKeepsStatuses ∨
          (deliveries last).row .status = errback.failureStatus) := by
  intro last
  obtain ⟨bounded,finished⟩ := finishedAt_finished analysisId errback deliveries failureMaxRetries 0 rfl
  exact ⟨bounded,finished,attempt_status_iff finished⟩

def runErrback : Errback := ⟨.sent,1,.runTracebackFile,.runError⟩

def failedRun (raises : Operation → Bool) : Delivery where
  row := Function.update newAnalysis .status .runStarted
  subTasks := [⟨1,1,"oasis","",.error,none,none,none,none,"losses","losses-1",0,some 5,none,none⟩]
  services := ⟨100,.traceback (some "Traceback"),fun _ => .ok "log",fun _ _ _ _ => 6,raises⟩

theorem failedRun_stays_started :
    ¬∀ (analysisId : AnalysisId) (errback : Errback) (deliveries : Nat → Delivery),
      (attempt analysisId errback (handleTaskFailure analysisId errback deliveries)
          (deliveries (handleTaskFailure analysisId errback deliveries))).stored
          (deliveries (handleTaskFailure analysisId errback deliveries)).row .status =
        expectedStatus errback (deliveries (handleTaskFailure analysisId errback deliveries)).row := by
  intro stored
  have kept := stored 1 runErrback fun _ => failedRun (· = .createFile)
  revert kept
  decide

/-- The services of `handle_task_failure` where only the user, the new file and the
    deletion of the old log fail. -/
def Services.env (services : Services) : Env where
  now := services.now
  userExists := fun _ => !services.raises .getUser
  storeFile := fun _ _ _ _ => none
  createFile := fun content contentType creator filename =>
    if services.raises .createFile then none else some (services.created content contentType creator filename)
  readFile := services.readLog
  deleteFile := fun _ => !services.raises .deleteRunLog

def Services.Coarse (services : Services) : Prop :=
  ∀ operation, operation ≠ .getUser → operation ≠ .createFile → operation ≠ .deleteRunLog →
    services.raises operation = false

def Outcome.save? : Outcome → Option AnalysisSave
  | .saved save => some save
  | _ => none

section Coarse
variable {services : Services} (coarse : services.Coarse)
include coarse

theorem writeLog_coarse (text : String) (log : Option FileId) :
    writeLog services text log = failureLog services.env text log := by
  cases log with
  | none => rfl
  | some file =>
    have fetched := coarse (.fetchLog file) (by simp) (by simp) (by simp)
    have written := coarse (.writeLog file) (by simp) (by simp) (by simp)
    simp only [writeLog,failureLog,Services.perform,fetched,written,Services.env]
    rfl

theorem writeSubTasks_coarse (subTasks : List SubTask) (traceback : String) :
    (writeTraceback services traceback).bind (fun text => subTasks.foldlM (writeSubTask services) text) =
      failureLogs services.env traceback subTasks := by
  have header (slug : String) := coarse (.writeHeader slug) (by simp) (by simp) (by simp)
  have start := coarse .writeTraceback (by simp) (by simp) (by simp)
  have written : writeSubTask services = fun text subTask =>
      (failureLog services.env (text ++ "\n=== " ++ subTask.slug ++ " ===\n") subTask.outputLog).bind fun text =>
        failureLog services.env text subTask.errorLog := by
    funext text subTask
    simp [writeSubTask,Services.perform,header,writeLog_coarse coarse]
  rw [written]
  unfold writeTraceback failureLogs
  split_ifs with empty
  · rfl
  · simp [Services.perform,start]

theorem anyMissing_coarse (subTasks : List SubTask) :
    anyMissing services subTasks = some (subTasks.any fun subTask => subTask.outputLog.isNone) := by
  induction subTasks with
  | nil => rfl
  | cons subTask rest ih =>
    unfold anyMissing
    cases log : subTask.outputLog with
    | none => simp [log]
    | some file =>
      have fetched := coarse (.fetchLog file) (by simp) (by simp) (by simp)
      simp [Services.perform,fetched,ih,log]

/-- Where only those three fail, a delivery saves what the task saves in one step. -/
theorem attempt_coarse (analysisId : AnalysisId) (errback : Errback) (retries : Nat) (row : AnalysisRow)
    (subTasks : List SubTask) : ∃ traceback, tracebackFromErrbackArgs services errback.args = some traceback ∧
      (attempt analysisId errback retries ⟨row,subTasks,services⟩).save? =
        AnalysisTasks.handleTaskFailure services.env subTasks analysisId (errback.failure traceback) retries row := by
  obtain ⟨traceback,read⟩ := Option.isSome_iff_exists.mp ((tracebackFromErrbackArgs_isSome_iff services errback.args).mpr
    fun _ => coarse .readResult (by simp) (by simp) (by simp))
  refine ⟨traceback,read,?_⟩
  have quiet (operation : Operation) (user : operation ≠ .getUser) (create : operation ≠ .createFile)
      (delete : operation ≠ .deleteRunLog) : services.perform operation = some () := by
    simp [Services.perform,coarse operation user create delete]
  have pending : Delivery.readPending ⟨row,subTasks,services⟩ = some (logsPending subTasks) := by
    simp only [Delivery.readPending,quiet .getAnalysis (by simp) (by simp) (by simp),
      quiet .filterSubTasks (by simp) (by simp) (by simp),anyMissing_coarse coarse,logsPending,Delivery.failedSubtasks]
    cases (subTasks.filter fun subTask => subTask.status = .error).isEmpty <;> simp
  have texts := writeSubTasks_coarse coarse (subTasks.filter fun subTask => subTask.status = .error) traceback
  unfold attempt AnalysisTasks.handleTaskFailure
  simp only [read,pending,Errback.failure]
  split_ifs with retry
  · rfl
  · rw [← texts]
    simp only [record,Delivery.failedSubtasks,quiet .temporaryFile (by simp) (by simp) (by simp),
      quiet .seek (by simp) (by simp) (by simp),quiet .save (by simp) (by simp) (by simp)]
    cases writeTraceback services traceback with
    | none => rfl
    | some start =>
      simp only [Option.bind_some,Option.bind_eq_bind]
      cases (subTasks.filter fun subTask => subTask.status = .error).foldlM (writeSubTask services) start with
      | none => rfl
      | some text =>
        simp only [Option.bind_some]
        cases user : services.raises .getUser with
        | true =>
          simp [Services.perform,user,Services.env,Outcome.save?]
        | false =>
          cases create : services.raises .createFile with
          | true => simp [Services.perform,user,create,Services.env,Outcome.save?]
          | false =>
            cases property : errback.tracebackProperty with
            | inputGenerationTracebackFile =>
              simp [Services.perform,user,create,Services.env,setLog,property,Outcome.save?]
            | runTracebackFile =>
              cases old : row .runLogFile with
              | none => simp [Services.perform,user,create,Services.env,setLog,property,old,Outcome.save?]
              | some file =>
                have fetched := coarse .fetchRunLog (by simp) (by simp) (by simp)
                cases deleted : services.raises .deleteRunLog with
                | true =>
                  simp [Services.perform,user,create,Services.env,setLog,property,old,fetched,deleted,Outcome.save?]
                | false =>
                  simp [Services.perform,user,create,Services.env,setLog,property,old,fetched,deleted,Outcome.save?]

end Coarse

end OasisPlatform.FailureStatus
