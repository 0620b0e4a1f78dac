import Mathlib.Algebra.Order.Ring.Int
import Mathlib.Data.List.Perm.Basic
import OasisPlatform.Cancellation

/-!
A lookup that finds no keys. Each attempt of `write_input_files` notifies the API with
`INPUTS_GENERATION_NO_KEYS` and raises, and each failure of the chain is handled by
`handle_task_failure`, which is retried while the logs of the failed sub-tasks are
missing. The messages may be processed in any order, and a user may cancel in between:
the status is the same in the end (`noKeys_final`).
-/
namespace OasisPlatform.NoKeys
open OasisPlatform.SharedRow OasisPlatform.Models OasisPlatform.AnalysisTasks OasisPlatform.Cancellation
set_option linter.unusedSimpArgs false

/-- The notification, sent at the time `dt`, and the errback of the chain with its
    retries. -/
inductive Message where
  | notification (dt : Time)
  | failure (traceback : String) (initiator : UserId) (retries : Nat)

def Message.task : Message → AnalysisTask
  | .notification dt => .setTaskStatusV2 .inputsGenerationNoKeys dt
  | .failure traceback initiator retries =>
    .handleTaskFailure ⟨traceback,initiator,.inputGenerationTracebackFile,.inputsGenerationError⟩ retries

/-- `self.retry()` of `handle_task_failure`. -/
def Message.retried (subTasks : List SubTask) : Message → List Message
  | .notification _ => []
  | .failure traceback initiator retries =>
    if logsPending subTasks && decide (retries < failureMaxRetries) then [.failure traceback initiator (retries + 1)]
    else []

/-- The row of the analysis, and the messages that are not processed yet. -/
structure State where
  row : AnalysisRow
  pending : List Message

/-- One of the messages is processed, with the services and the sub-task rows that it
    finds, or a user asks to cancel the generation of inputs. -/
inductive Event where
  | deliver (message : Nat) (env : Env) (subTasks : List SubTask)
  | cancel (env : Env)

def State.step (analysis : AnalysisId) (state : State) : Event → State
  | .deliver i env subTasks =>
    match state.pending[i]? with
    | some message =>
      { row := perform env subTasks analysis state.row message.task
        pending := state.pending.eraseIdx i ++ message.retried subTasks }
    | none => state
  | .cancel env =>
    match cancelGenerateInputs env (load state.row) with
    | .ok save => { state with row := save.apply state.row }
    | .error _ => state

def State.run (analysis : AnalysisId) (state : State) (events : List Event) : State :=
  events.foldl (State.step analysis) state

/-- An event that cancels. -/
def accepts (state : State) : Event → Bool
  | .deliver .. => false
  | .cancel env => (cancelGenerateInputs env (load state.row)).isOk

/-- Whether a request to cancel is accepted in a run. -/
def cancelAccepted (analysis : AnalysisId) : State → List Event → Bool
  | _,[] => false
  | state,event :: rest => accepts state event || cancelAccepted analysis (state.step analysis event) rest

/-- Cancelled; or without keys, or with a notification that is still to come. -/
def Settles (accepted : Bool) (state : State) : Prop :=
  if accepted then state.row .status = .inputsGenerationCancelled
  else state.row .status = .inputsGenerationNoKeys ∨
    state.row .status ∈ [.inputsGenerationStarted,.inputsGenerationError] ∧ ∃ dt, .notification dt ∈ state.pending

theorem cancelGenerateInputs_ok {env : Env} {row : AnalysisRow} {save : AnalysisSave}
    (accepted : cancelGenerateInputs env (load row) = .ok save) :
    row .status ∈ [.inputsGenerationQueued,.inputsGenerationStarted] ∧
      save.apply row .status = .inputsGenerationCancelled := by
  unfold cancelGenerateInputs at accepted
  split_ifs at accepted with status
  cases accepted
  refine ⟨status,?_⟩
  rw [Save.apply_writes rfl]
  simp

/-- A message that is not the one processed is still pending. -/
theorem pending_kept {pending : List Message} {i : Nat} {message other : Message} (processed : pending[i]? = some message)
    (waiting : other ∈ pending) (different : other ≠ message) (again : List Message) :
    other ∈ pending.eraseIdx i ++ again := by
  obtain ⟨bound,rfl⟩ := List.getElem?_eq_some_iff.mp processed
  rw [List.mem_append,List.mem_eraseIdx_iff_getElem?]
  obtain ⟨j,inside,rfl⟩ := List.mem_iff_getElem.mp waiting
  refine .inl ⟨j,?_,by simp [inside]⟩
  rintro rfl
  exact different rfl

theorem failure_status (env : Env) (subTasks : List SubTask) (analysis : AnalysisId) (row : AnalysisRow)
    (traceback : String) (initiator : UserId) (retries : Nat) :
    let after := perform env subTasks analysis row (Message.failure traceback initiator retries).task
    after .status = row .status ∨ row .status ∉ failureKeepsStatuses ∧ after .status = .inputsGenerationError :=
  perform_handleTaskFailure_status env subTasks analysis row _ retries

theorem notification_status (env : Env) (subTasks : List SubTask) (analysis : AnalysisId) (row : AnalysisRow)
    (dt : Time) :
    perform env subTasks analysis row (Message.notification dt).task .status =
      if row .status ∈ cancelledStatuses then row .status else .inputsGenerationNoKeys :=
  perform_setTaskStatusV2_status env subTasks analysis row _ dt

/-- A cancelled analysis stays cancelled. -/
theorem message_cancelled (env : Env) (subTasks : List SubTask) (analysis : AnalysisId) {row : AnalysisRow}
    (cancelled : row .status = .inputsGenerationCancelled) (message : Message) :
    perform env subTasks analysis row message.task .status = .inputsGenerationCancelled := by
  cases message with
  | notification dt =>
    rw [notification_status,if_pos (by rw [cancelled]; decide)]
    exact cancelled
  | failure traceback initiator retries =>
    rcases failure_status env subTasks analysis row traceback initiator retries with same | ⟨unkept,_⟩
    · exact same.trans cancelled
    · rw [cancelled] at unkept
      exact absurd (by decide) unkept

/-- An analysis without keys stays so. -/
theorem message_noKeys (env : Env) (subTasks : List SubTask) (analysis : AnalysisId) {row : AnalysisRow}
    (noKeys : row .status = .inputsGenerationNoKeys) (message : Message) :
    perform env subTasks analysis row message.task .status = .inputsGenerationNoKeys := by
  cases message with
  | notification dt => rw [notification_status,if_neg (by rw [noKeys]; decide)]
  | failure traceback initiator retries =>
    rcases failure_status env subTasks analysis row traceback initiator retries with same | ⟨unkept,_⟩
    · exact same.trans noKeys
    · rw [noKeys] at unkept
      exact absurd (by decide) unkept

/-- The notification of a generation that is under way, or has failed, is stored; a failure
    leaves it to come. -/
theorem deliver_active (env : Env) (subTasks : List SubTask) (analysis : AnalysisId) {state : State} {i : Nat}
    {message : Message} (processed : state.pending[i]? = some message) {dt : Time}
    (waiting : .notification dt ∈ state.pending)
    (active : state.row .status ∈ [.inputsGenerationStarted,.inputsGenerationError]) :
    Settles false
      { row := perform env subTasks analysis state.row message.task
        pending := state.pending.eraseIdx i ++ message.retried subTasks } := by
  cases message with
  | notification dt =>
    have uncancelled : state.row .status ∉ cancelledStatuses := by
      revert active
      cases state.row .status <;> decide
    exact .inl ((notification_status env subTasks analysis state.row dt).trans (if_neg uncancelled))
  | failure traceback initiator retries =>
    refine .inr ⟨?_,dt,pending_kept processed waiting (by simp) _⟩
    show perform _ _ _ _ _ _ ∈ _
    rcases failure_status env subTasks analysis state.row traceback initiator retries with same | ⟨_,failed⟩
    · rw [same]
      exact active
    · rw [failed]
      decide

theorem step_settles (analysis : AnalysisId) {accepted : Bool} {state : State} (settles : Settles accepted state)
    (event : Event) : Settles (accepted || accepts state event) (state.step analysis event) := by
  cases event with
  | cancel env =>
    cases cancel : cancelGenerateInputs env (load state.row) with
    | error errors => simpa [accepts,State.step,cancel,Except.isOk,Except.toBool] using settles
    | ok save =>
      obtain ⟨_,cancelled⟩ := cancelGenerateInputs_ok cancel
      simpa [Settles,accepts,State.step,cancel,Except.isOk,Except.toBool] using cancelled
  | deliver i env subTasks =>
    rw [show accepts state (.deliver i env subTasks) = false from rfl,Bool.or_false]
    cases processed : state.pending[i]? with
    | none => simpa [State.step,processed] using settles
    | some message =>
      simp only [State.step,processed]
      cases accepted with
      | true => exact message_cancelled env subTasks analysis settles message
      | false =>
        rcases settles with noKeys | ⟨active,dt,waiting⟩
        · exact .inl (message_noKeys env subTasks analysis noKeys message)
        · exact deliver_active env subTasks analysis processed waiting active

theorem run_settles (analysis : AnalysisId) {accepted : Bool} {state : State} (settles : Settles accepted state)
    (events : List Event) :
    Settles (accepted || cancelAccepted analysis state events) (state.run analysis events) := by
  induction events generalizing accepted state with
  | nil => simpa [cancelAccepted,State.run] using settles
  | cons event rest ih =>
    have later := ih (step_settles analysis settles event)
    rw [Bool.or_assoc] at later
    exact later

/-- Whatever the order of the notifications, of the failures with their retries and of
    requests to cancel, once all messages are processed the analysis is cancelled when a
    request was accepted, and without keys otherwise. -/
theorem noKeys_final (analysis : AnalysisId) {state : State} (started : state.row .status = .inputsGenerationStarted)
    (notified : ∃ dt, .notification dt ∈ state.pending) {events : List Event}
    (processed : (state.run analysis events).pending = []) :
    (state.run analysis events).row .status =
      if cancelAccepted analysis state events then .inputsGenerationCancelled else .inputsGenerationNoKeys := by
  have start : Settles false state := .inr ⟨by rw [started]; decide,notified⟩
  have final := run_settles analysis start events
  rw [Bool.false_or] at final
  cases accepted : cancelAccepted analysis state events with
  | true =>
    rw [accepted] at final
    exact final
  | false =>
    rw [accepted] at final
    rcases final with noKeys | ⟨_,dt,waiting⟩
    · exact noKeys
    · rw [processed] at waiting
      cases waiting

/-- How often a message can still be delivered. -/
def Message.deliveries : Message → Nat
  | .notification _ => 1
  | .failure _ _ retries => failureMaxRetries - retries + 1

def deliveriesLeft (pending : List Message) : Nat := (pending.map Message.deliveries).sum

/-- The event is the delivery of a pending message. -/
def Delivers (state : State) : Event → Prop
  | .deliver i _ _ => i < state.pending.length
  | .cancel _ => False

theorem retried_deliveries (subTasks : List SubTask) (message : Message) :
    deliveriesLeft (message.retried subTasks) < message.deliveries := by
  cases message with
  | notification dt => simp [Message.retried,deliveriesLeft,Message.deliveries]
  | failure traceback initiator retries =>
    simp only [Message.retried]
    split_ifs with again
    · simp only [Bool.and_eq_true,decide_eq_true_eq] at again
      simp only [deliveriesLeft,List.map_cons,List.map_nil,List.sum_cons,List.sum_nil,Message.deliveries]
      omega
    · simp [deliveriesLeft,Message.deliveries]

theorem step_deliveries (analysis : AnalysisId) {state : State} {event : Event} (delivers : Delivers state event) :
    deliveriesLeft (state.step analysis event).pending < deliveriesLeft state.pending := by
  cases event with
  | cancel env => exact delivers.elim
  | deliver i env subTasks =>
    have inside : i < state.pending.length := delivers
    have processed : state.pending[i]? = some state.pending[i] := List.getElem?_eq_getElem inside
    have split : deliveriesLeft state.pending =
        state.pending[i].deliveries + deliveriesLeft (state.pending.eraseIdx i) := by
      have sums := ((List.getElem_cons_eraseIdx_perm inside).map Message.deliveries).sum_nat
      rw [List.map_cons,List.sum_cons] at sums
      exact sums.symm
    have fewer := retried_deliveries subTasks state.pending[i]
    simp only [State.step,processed]
    rw [split]
    unfold deliveriesLeft at fewer ⊢
    rw [List.map_append,List.sum_append]
    omega

/-- The messages are processed after finitely many deliveries, whatever their order. -/
theorem deliveries_end (analysis : AnalysisId) {state : State} {events : List Event}
    (delivers : Along (State.step analysis) Delivers state events) : events.length ≤ deliveriesLeft state.pending := by
  induction events generalizing state with
  | nil => simp
  | cons event rest ih =>
    have later := ih delivers.2
    have fewer := step_deliveries analysis delivers.1
    rw [List.length_cons]
    omega

def noKeysStarted : State :=
  ⟨Function.update newAnalysis .status .inputsGenerationStarted,[.failure "" 1 7,.notification 50]⟩

/-- The failure is delivered before and after the notification. -/
def failureRetried : List Event := [.deliver 0 calmEnv [],.deliver 0 calmEnv [],.deliver 0 calmEnv []]

theorem noKeys_failure_retried : (noKeysStarted.run 1 failureRetried).row .status = .inputsGenerationNoKeys :=
  have notified : ∃ dt, .notification dt ∈ noKeysStarted.pending := ⟨50,by simp [noKeysStarted]⟩
  noKeys_final 1 rfl notified rfl

end OasisPlatform.NoKeys
