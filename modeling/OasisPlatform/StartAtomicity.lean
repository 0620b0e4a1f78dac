import OasisPlatform.Starting

/-!
`run`, `generate_inputs` and `generate_and_run` to their end, with an exception from any
of the operations around the checks. The row is saved as queued before the task is
published, and nothing takes that save back, so a start that raises leaves the row as it
was exactly when it raises before that save (`start_atomic_iff`).
-/
namespace OasisPlatform.StartAtomicity
open OasisPlatform.SharedRow OasisPlatform.Models OasisPlatform.AnalysisTasks OasisPlatform.Starting
set_option linter.unusedSimpArgs false

/-- What is done besides the checks, in this order. -/
inductive Operation where
  /-- the model, the portfolio and the chunking options are fetched for the checks -/
  | fetch
  /-- `self.save()` as queued -/
  | saveQueued
  /-- the task's signature, for V1 with links to the files -/
  | signature
  /-- `task.delay()` or `task.apply_async(..)` -/
  | publish
  /-- `self.save()` with the id of the task -/
  | saveDispatch
  /-- `celery_app_v2.send_task('send_queue_status_digest')` -/
  | sendDigest
  deriving DecidableEq, Repr

/-- A step of a method: an operation, and what it does to the row if it does not raise. -/
structure Step where
  operation : Operation
  effect : AnalysisRow → AnalysisRow

/-- The row when the steps end, and whether one of them has raised. -/
def execute (raises : Operation → Bool) : List Step → AnalysisRow → AnalysisRow × Bool
  | [],row => (row,false)
  | step :: rest,row => if raises step.operation then (row,true) else execute raises rest (step.effect row)

/-- What follows the checks. -/
def dispatch (now : Time) (taskId : String) (started : Start) : List Step :=
  [⟨.saveQueued,(Analysis.save started.queued).apply⟩,⟨.signature,id⟩,⟨.publish,id⟩,
    ⟨.saveDispatch,(recordDispatch now started taskId).apply⟩,⟨.sendDigest,id⟩]

/-- A start of an analysis that has just been loaded. -/
def startAnalysis (raises : Operation → Bool) (ctx : StartContext) (method : StartMethod) (now : Time)
    (taskId : String) (row : AnalysisRow) : AnalysisRow × Bool :=
  if raises .fetch then (row,true)
  else
    match start ctx method (load row) with
    | .error _ => (row,true)
    | .ok started => execute raises (dispatch now taskId started) row

theorem execute_cons (raises : Operation → Bool) (step : Step) (rest : List Step) (row : AnalysisRow) :
    (raises step.operation = true ∧ execute raises (step :: rest) row = (row,true)) ∨
      (raises step.operation = false ∧ execute raises (step :: rest) row = execute raises rest (step.effect row)) := by
  cases raised : raises step.operation <;> simp [execute,raised]

theorem execute_raised_iff (raises : Operation → Bool) (steps : List Step) (row : AnalysisRow) :
    (execute raises steps row).2 = true ↔ ∃ step ∈ steps, raises step.operation = true := by
  induction steps generalizing row with
  | nil => simp [execute]
  | cons step rest ih =>
    rcases execute_cons raises step rest row with ⟨raised,executed⟩ | ⟨went,executed⟩
    · simp [executed,raised]
    · simp [executed,went,ih]

/-- What all effects keep, the steps keep. -/
theorem execute_keeps (raises : Operation → Bool) (kept : AnalysisRow → Prop) {steps : List Step}
    (each : ∀ step ∈ steps, ∀ row, kept row → kept (step.effect row)) {row : AnalysisRow} (holds : kept row) :
    kept (execute raises steps row).1 := by
  induction steps generalizing row with
  | nil => exact holds
  | cons step rest ih =>
    rw [List.forall_mem_cons] at each
    rcases execute_cons raises step rest row with ⟨_,executed⟩ | ⟨_,executed⟩
    · rw [executed]
      exact holds
    · rw [executed]
      exact ih each.2 (each.1 row holds)

/-- Once the row is saved as queued, it has the queued status whatever raises later. -/
theorem dispatch_status (raises : Operation → Bool) (now : Time) (taskId : String) (started : Start)
    (saved : raises .saveQueued = false) (row : AnalysisRow) :
    (execute raises (dispatch now taskId started) row).1 .status = started.queued.values .status := by
  have queued : (Analysis.save started.queued).apply row .status = started.queued.values .status :=
    Save.apply_writes rfl row
  rcases execute_cons raises ⟨.saveQueued,(Analysis.save started.queued).apply⟩ _ row with ⟨raised,_⟩ | ⟨_,executed⟩
  · rw [saved] at raised
    cases raised
  · rw [dispatch,executed]
    refine execute_keeps raises (fun row => row .status = started.queued.values .status) ?_ queued
    intro step listed row holds
    simp only [List.mem_cons,List.not_mem_nil,or_false] at listed
    rcases listed with rfl | rfl | rfl | rfl
    · exact holds
    · exact holds
    · exact (Save.apply_writes rfl row).trans (recordDispatch_status now started taskId)
    · exact holds

/-- The status of an accepted start is none that it may start from. -/
theorem started_changes {ctx : StartContext} {method : StartMethod} {row : AnalysisRow} {started : Start}
    (accepted : start ctx method (load row) = .ok started) : started.queued.values .status ≠ row .status := by
  obtain ⟨valid,queued⟩ := start_status accepted
  intro same
  rw [same] at queued
  exact queued valid

def lateOperations : List Operation := [.signature,.publish,.saveDispatch,.sendDigest]

/-- If a start raises, the row is what it was: exactly when the start is refused or
    raises by its first save, or nothing raises after it. -/
theorem start_atomic_iff (raises : Operation → Bool) (ctx : StartContext) (method : StartMethod) (now : Time)
    (taskId : String) (row : AnalysisRow) :
    ((startAnalysis raises ctx method now taskId row).2 = true →
        (startAnalysis raises ctx method now taskId row).1 = row) ↔
      raises .fetch = true ∨ (∃ error, start ctx method (load row) = .error error) ∨ raises .saveQueued = true ∨
        ∀ operation ∈ lateOperations, raises operation = false := by
  unfold startAnalysis
  split_ifs with fetched
  · simp [fetched]
  · cases accepted : start ctx method (load row) with
    | error error => simp
    | ok started =>
      cases saved : raises .saveQueued with
      | true => simp [dispatch,execute,saved]
      | false =>
        have changed : (execute raises (dispatch now taskId started) row).1 ≠ row := by
          intro same
          have status := dispatch_status raises now taskId started saved row
          rw [same] at status
          exact started_changes accepted status.symm
        have raised : (execute raises (dispatch now taskId started) row).2 = true ↔
            ∃ operation ∈ lateOperations, raises operation = true := by
          rw [execute_raised_iff]
          simp [dispatch,lateOperations,saved]
        simp [fetched,changed,raised]

theorem unpublished_stays_queued :
    ∃ (raises : Operation → Bool) (ctx : StartContext) (row : AnalysisRow),
      (startAnalysis raises ctx (.generateInputs none) 100 "task" row).2 = true ∧
        (startAnalysis raises ctx (.generateInputs none) 100 "task" row).1 .status = .inputsGenerationQueued ∧
        row .status = .new := by
  refine ⟨(· = .publish),⟨some ⟨1,false,some .v1,none,{}⟩,none,⟨some 3,none⟩,.ok 1,fun _ => none,fun _ => ""⟩,
    newAnalysis,?_,?_,?_⟩
  · decide
  · decide
  · rfl

end OasisPlatform.StartAtomicity
