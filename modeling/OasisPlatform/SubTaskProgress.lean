import OasisPlatform.SharedRow
import OasisPlatform.SubTasks

/-!
Sub-tasks that are done. The controller records the task ids after it has dispatched
the chain: it reads all rows at once and saves every column of each, so that a row that
a fast worker has changed in between goes back to what the controller read. Where each
row is saved before it is done, or as it still is, nothing that is done is undone
(`terminal_never_regresses`).
-/
namespace OasisPlatform.SubTaskProgress
open OasisPlatform.SharedRow OasisPlatform.Models OasisPlatform.SubTasks
set_option linter.unusedSimpArgs false

/-- Of a row that is done, the status stays so, and no time or log is lost. -/
structure KeepsTerminal (row later : SubTask) : Prop where
  status : row.status.terminal → later.status.terminal
  startTime : row.status.terminal → row.startTime.isSome → later.startTime.isSome
  endTime : row.status.terminal → row.endTime.isSome → later.endTime.isSome
  outputLog : row.status.terminal → row.outputLog.isSome → later.outputLog.isSome
  errorLog : row.status.terminal → row.errorLog.isSome → later.errorLog.isSome
  retryLog : row.status.terminal → row.retryLog.isSome → later.retryLog.isSome

theorem KeepsTerminal.refl (row : SubTask) : KeepsTerminal row row :=
  ⟨fun done => done,fun _ set => set,fun _ set => set,fun _ set => set,fun _ set => set,fun _ set => set⟩

theorem KeepsTerminal.trans {row mid later : SubTask} (first : KeepsTerminal row mid) (second : KeepsTerminal mid later) :
    KeepsTerminal row later where
  status done := second.status (first.status done)
  startTime done set := second.startTime (first.status done) (first.startTime done set)
  endTime done set := second.endTime (first.status done) (first.endTime done set)
  outputLog done set := second.outputLog (first.status done) (first.outputLog done set)
  errorLog done set := second.errorLog (first.status done) (first.errorLog done set)
  retryLog done set := second.retryLog (first.status done) (first.retryLog done set)

theorem KeepsTerminal.of_running {row : SubTask} (running : row.status.terminal = false) (later : SubTask) :
    KeepsTerminal row later := by
  constructor <;> simp [running]

/-- Every row is still there, and has only gone forward. -/
def Forward (table later : SubTaskTable) : Prop :=
  ∀ row ∈ table.rows, ∃ row' ∈ later.rows, row'.id = row.id ∧ KeepsTerminal row row'

theorem Forward.refl (table : SubTaskTable) : Forward table table :=
  fun row listed => ⟨row,listed,rfl,.refl row⟩

theorem Forward.trans {table mid later : SubTaskTable} (first : Forward table mid) (second : Forward mid later) :
    Forward table later := by
  intro row listed
  obtain ⟨row',listed',sameId,keeps⟩ := first row listed
  obtain ⟨row'',listed'',sameId',keeps'⟩ := second row' listed'
  exact ⟨row'',listed'',sameId'.trans sameId,keeps.trans keeps'⟩

theorem forward_map {table later : SubTaskTable} {change : SubTask → SubTask} (mapped : later.rows = table.rows.map change)
    (forward : ∀ row ∈ table.rows, (change row).id = row.id ∧ KeepsTerminal row (change row)) : Forward table later := by
  intro row listed
  refine ⟨change row,?_,forward row listed⟩
  rw [mapped]
  exact List.mem_map_of_mem listed

theorem execute_forward {table : SubTaskTable} {st : Statement}
    (forward : ∀ row ∈ table.rows, st.filter row = true → (st.change row).id = row.id ∧ KeepsTerminal row (st.change row)) :
    Forward table (execute table st) := by
  rcases execute_rows table st with same | mapped
  · rw [SubTaskTable.ext same]
    exact .refl table
  · apply forward_map mapped
    intro row listed
    by_cases matched : st.filter row = true
    · simpa [matched] using forward row listed matched
    · rw [if_neg matched]
      exact ⟨rfl,.refl row⟩

/-- The table, and the instances that `_record_subtask_ids` has read and not yet saved. -/
structure RunState where
  table : SubTaskTable
  unsaved : List SubTask

inductive RunStep where
  | deliver (env : Env) (message : SubTaskMessage)
  | readRows (analysis : AnalysisId) (celeryTasksList : List String)
  | saveNext

/-- A save that is refused ends the controller's loop. -/
def RunState.step (state : RunState) : RunStep → RunState
  | .deliver env message => { state with table := process env state.table message }
  | .readRows analysis celeryTasksList => { state with unsaved := subtaskIds state.table analysis celeryTasksList }
  | .saveNext =>
    match state.unsaved with
    | [] => state
    | row :: rest =>
      match saveSubTask state.table row with
      | some table => ⟨table,rest⟩
      | none => ⟨state.table,[]⟩

def RunState.run (state : RunState) (steps : List RunStep) : RunState := steps.foldl RunState.step state

/-- What a message of the run may do to rows that are done: a success stores anew the
    logs that are there, and a status that is set is a final one. -/
def MessageForward (table : SubTaskTable) : SubTaskMessage → Prop
  | .recordSubTaskSuccess analysis _ slug _ logLocation errorLocation =>
    ∀ row ∈ table.rows, ofSlug analysis slug row = true → row.status.terminal →
      (row.outputLog.isSome → logLocation.isSome) ∧ (row.errorLog.isSome → errorLocation.isSome)
  | .setSubtaskStatus analysis _ slug subtaskStatus _ _ =>
    ∀ row ∈ table.rows, ofSlug analysis slug row = true → row.status.terminal → subtaskStatus.terminal
  | .markTaskAsQueued analysis slug _ _ =>
    ∀ row ∈ table.rows, ofSlug analysis slug row = true → row.status.terminal = false
  | _ => True

/-- A row is saved while the stored one is not done, or still has the status, times and
    logs that were read. -/
def SaveForward (table : SubTaskTable) (instanceRow : SubTask) : Prop :=
  ∀ row ∈ table.rows, row.id = instanceRow.id → row.status.terminal →
    row.status = instanceRow.status ∧ row.startTime = instanceRow.startTime ∧ row.endTime = instanceRow.endTime ∧
      row.outputLog = instanceRow.outputLog ∧ row.errorLog = instanceRow.errorLog ∧ row.retryLog = instanceRow.retryLog

def StepForward (state : RunState) : RunStep → Prop
  | .deliver _ message => MessageForward state.table message
  | .readRows .. => True
  | .saveNext => ∀ row rest, state.unsaved = row :: rest → SaveForward state.table row

theorem storeLog_isSome {env : Env} {location : Option String} {initiator : UserId} {filename : String}
    {log : Option FileId} (stored : storeLog env location initiator filename = some log) (given : location.isSome) :
    log.isSome := by
  cases location with
  | none => cases given
  | some reference =>
    simp only [storeLog,Env.store,Option.bind_eq_bind,Option.bind_eq_some_iff,Option.some.injEq] at stored
    obtain ⟨_,_,file,_,rfl⟩ := stored
    rfl

/-- A sub-task that succeeds again keeps the logs that its message names. -/
theorem recordSubTaskSuccess_forward {env : Env} {table : SubTaskTable} {analysis : AnalysisId} {initiator : UserId}
    {slug taskId : String} {logLocation errorLocation : Option String} {st : Statement}
    (has : recordSubTaskSuccess env analysis initiator slug taskId logLocation errorLocation = some st)
    (allowed : MessageForward table (.recordSubTaskSuccess analysis initiator slug taskId logLocation errorLocation)) :
    Forward table (execute table st) := by
  simp only [recordSubTaskSuccess,Option.bind_eq_bind,Option.bind_eq_some_iff,Option.some.injEq] at has
  obtain ⟨_,_,output,outputStored,error,errorStored,rfl⟩ := has
  apply execute_forward
  intro row listed matched
  refine ⟨rfl,?_⟩
  constructor
  · intro _
    rfl
  · intro _ set
    exact set
  · intro _ _
    rfl
  · intro done set
    exact storeLog_isSome outputStored ((allowed row listed matched done).1 set)
  · intro done set
    exact storeLog_isSome errorStored ((allowed row listed matched done).2 set)
  · intro _ set
    exact set

theorem queuePending_forward (table : SubTaskTable) (analysis : AnalysisId) :
    Forward table (execute table (queuePending analysis)) := by
  apply execute_forward
  intro row _ matched
  have pending : row.status = .pending := by
    simp only [queuePending,decide_eq_true_eq] at matched
    exact matched.2
  exact ⟨rfl,.of_running (by rw [pending]; rfl) _⟩

theorem assignTaskIds_forward {env : Env} {updates : List (String × AnalysisId × String)} {table later : SubTaskTable}
    (assigned : assignTaskIds env table updates = some later) : Forward table later := by
  induction updates generalizing table with
  | nil =>
    obtain rfl := Option.some.inj assigned
    exact .refl _
  | cons update rest ih =>
    obtain ⟨taskId,analysis,slug⟩ := update
    simp only [assignTaskIds,Option.bind_eq_bind,Option.bind_eq_some_iff] at assigned
    obtain ⟨mid,updated,assigned⟩ := assigned
    refine Forward.trans ?_ (ih assigned)
    apply forward_map (update_rows updated)
    intro row _
    split_ifs
    · exact ⟨rfl,fun done => done,fun _ set => set,fun _ set => set,fun _ set => set,fun _ set => set,fun _ set => set⟩
    · exact ⟨rfl,.refl row⟩

theorem updateTaskId_forward (env : Env) (table : SubTaskTable) (updates : List (String × AnalysisId × String)) :
    Forward table (updateTaskId env table updates) := by
  cases updates with
  | nil => exact .refl table
  | cons update rest =>
    obtain ⟨taskId,analysis,slug⟩ := update
    unfold updateTaskId
    have queued := queuePending_forward table analysis
    cases assigned : assignTaskIds env (execute table (queuePending analysis)) ((taskId,analysis,slug) :: rest) with
    | none => simpa [assigned] using queued
    | some later => simpa [assigned] using queued.trans (assignTaskIds_forward assigned)

/-- The statements of the other messages. -/
theorem statement_forward {env : Env} {table : SubTaskTable} {message : SubTaskMessage} {st : Statement}
    (allowed : MessageForward table message) (has : statement env table message = some st) :
    Forward table (execute table st) := by
  cases message with
  | recordSubTaskStart analysis slug taskId dt =>
    cases has
    apply execute_forward
    intro row _ _
    refine ⟨rfl,?_,?_,fun _ set => set,fun _ set => set,fun _ set => set,fun _ set => set⟩
    · intro done
      have notQueued : row.status ≠ .queued := by
        intro queued
        rw [queued] at done
        cases done
      simpa [recordSubTaskStart,notQueued] using done
    · intro _ set
      obtain ⟨time,started⟩ := Option.isSome_iff_exists.mp set
      simp [recordSubTaskStart,started]
  | recordSubTaskSuccess analysis initiator slug parentId logLocation errorLocation =>
    exact recordSubTaskSuccess_forward has allowed
  | setSubtaskStatus analysis initiator slug subtaskStatus errorMsg requestId =>
    simp only [statement,setSubtaskStatus,Option.bind_eq_bind,Option.bind_eq_some_iff,Option.some.injEq] at has
    obtain ⟨log,_,rfl⟩ := has
    apply execute_forward
    intro row listed matched
    exact ⟨rfl,allowed row listed matched,fun _ set => set,fun _ _ => rfl,fun _ set => set,fun _ _ => rfl,fun _ set => set⟩
  | recordSubTaskFailure analysis initiator slug parentId traceback =>
    simp only [statement,recordSubTaskFailure,Option.bind_eq_bind,Option.bind_eq_some_iff,Option.some.injEq] at has
    obtain ⟨log,_,rfl⟩ := has
    apply execute_forward
    intro row _ _
    exact ⟨rfl,fun _ => rfl,fun _ set => set,fun _ _ => rfl,fun _ set => set,fun _ _ => rfl,fun _ set => set⟩
  | chordErrorCallback analysis =>
    cases has
    apply execute_forward
    intro row _ _
    exact ⟨rfl,fun _ => rfl,fun _ set => set,fun _ _ => rfl,fun _ set => set,fun _ set => set,fun _ set => set⟩
  | cancelSubtasks analysis =>
    cases has
    apply execute_forward
    intro row _ _
    exact ⟨rfl,fun _ => rfl,fun _ set => set,fun _ _ => rfl,fun _ set => set,fun _ set => set,fun _ set => set⟩
  | markTaskAsQueued analysis slug taskId dt =>
    cases has
    apply execute_forward
    intro row listed matched
    exact ⟨rfl,.of_running (allowed row listed matched) _⟩
  | subtaskErrorLog analysis initiator slug taskId logFile =>
    simp only [statement,subtaskErrorLog,Env.store,Option.bind_eq_bind,Option.bind_eq_some_iff,Option.some.injEq] at has
    obtain ⟨_,_,log,⟨_,_,file,_,rfl⟩,rfl⟩ := has
    apply execute_forward
    intro row _ _
    exact ⟨rfl,fun done => done,fun _ set => set,fun _ set => set,fun _ _ => rfl,fun _ set => set,fun _ set => set⟩
  | subtaskRetryLog analysis initiator slug taskId errorTrace =>
    simp only [statement,subtaskRetryLog,Option.bind_eq_bind,Option.bind_eq_some_iff,Option.some.injEq] at has
    obtain ⟨_,_,_,_,log,_,rfl⟩ := has
    apply execute_forward
    intro row _ _
    exact ⟨rfl,fun done => done,fun _ set => set,fun _ set => set,fun _ set => set,fun _ set => set,fun _ _ => rfl⟩
  | updateTaskId updates => cases has

theorem process_forward {env : Env} {table : SubTaskTable} {message : SubTaskMessage}
    (allowed : MessageForward table message) : Forward table (process env table message) := by
  cases has : statement env table message with
  | some st =>
    rw [process_statement has]
    exact statement_forward allowed has
  | none =>
    by_cases update : ∃ updates, message = .updateTaskId updates
    · obtain ⟨updates,rfl⟩ := update
      exact updateTaskId_forward env table updates
    · rw [process_raises has fun updates same => update ⟨updates,same⟩]
      exact .refl table

theorem write_rows {table later : SubTaskTable} {rows : List SubTask} (written : table.write rows = some later) :
    later.rows = rows := by
  unfold SubTaskTable.write at written
  split_ifs at written
  cases written
  rfl

theorem saveSubTask_forward {table later : SubTaskTable} {instanceRow : SubTask} (allowed : SaveForward table instanceRow)
    (saved : saveSubTask table instanceRow = some later) : Forward table later := by
  unfold saveSubTask at saved
  split_ifs at saved with present
  · apply forward_map (write_rows saved)
    intro row listed
    by_cases same : row.id = instanceRow.id
    · rw [if_pos same]
      refine ⟨same.symm,?_⟩
      cases done : row.status.terminal with
      | false => exact .of_running done _
      | true =>
        obtain ⟨status,startTime,endTime,outputLog,errorLog,retryLog⟩ := allowed row listed same done
        exact ⟨fun done => status ▸ done,fun _ set => startTime ▸ set,fun _ set => endTime ▸ set,
          fun _ set => outputLog ▸ set,fun _ set => errorLog ▸ set,fun _ set => retryLog ▸ set⟩
    · rw [if_neg same]
      exact ⟨rfl,.refl row⟩
  · intro row listed
    refine ⟨row,?_,rfl,.refl row⟩
    rw [write_rows saved]
    exact (List.perm_orderedInsert _ _ _).mem_iff.mpr (List.mem_cons_of_mem _ listed)

theorem step_forward (state : RunState) (step : RunStep) (allowed : StepForward state step) :
    Forward state.table (state.step step).table := by
  cases step with
  | deliver env message => exact process_forward allowed
  | readRows analysis celeryTasksList => exact .refl _
  | saveNext =>
    unfold RunState.step
    cases unsaved : state.unsaved with
    | nil => exact .refl _
    | cons row rest =>
      cases saved : saveSubTask state.table row with
      | none => simpa [saved] using Forward.refl state.table
      | some table => simpa [saved] using saveSubTask_forward (allowed row rest unsaved) saved

/-- From any state of a run whose steps go forward, a row that is done stays done and
    keeps its times and logs. -/
theorem terminal_never_regresses (state : RunState) (steps : List RunStep)
    (allowed : Along RunState.step StepForward state steps) :
    ∀ row ∈ state.table.rows, ∃ later ∈ (state.run steps).table.rows, later.id = row.id ∧ KeepsTerminal row later := by
  have forward : Forward state.table (state.run steps).table := by
    have preserved : ∀ (mid : RunState) (step : RunStep), Forward state.table mid.table → StepForward mid step →
        Forward state.table (mid.step step).table :=
      fun mid step before condition => before.trans (step_forward mid step condition)
    exact allowed.invariant preserved (.refl _)
  exact forward

def paramsRow : SubTask :=
  { id := 7, analysis := 1, queueName := "model-v2", name := "Prepare input generation params",
    slug := "prepare-input-generation-params" }

def pendingRun : RunState := ⟨⟨[paramsRow],by decide⟩,[]⟩

def completedRow : SubTask := { paramsRow with status := .completed, endTime := some 90, outputLog := some 3 }

def completedRun : RunState := ⟨⟨[completedRow],by decide⟩,[]⟩

def paramsSuccess : RunStep :=
  .deliver calmEnv (.recordSubTaskSuccess 1 1 "prepare-input-generation-params" "t1" (some "log") none)

/-- The controller reads a row that is done, and leaves it so. -/
theorem terminal_never_regresses_completed :
    ∃ later ∈ (completedRun.run [.readRows 1 ["t1"],.saveNext]).table.rows,
      later.id = 7 ∧ KeepsTerminal completedRow later := by
  refine terminal_never_regresses completedRun [.readRows 1 ["t1"],.saveNext] ⟨trivial,?_,trivial⟩ completedRow
    (List.mem_singleton.mpr rfl)
  intro instanceRow rest unsaved row listed _ _
  obtain rfl := List.mem_singleton.mp listed
  cases unsaved
  exact ⟨rfl,rfl,rfl,rfl,rfl,rfl⟩

/-- The controller reads a row, its sub-task is completed, and the controller's save makes
    it pending again, without an end and without its log. -/
theorem completed_regresses_to_pending :
    ((pendingRun.run [.readRows 1 ["t1"],paramsSuccess]).table.rows.map fun row =>
        (row.status,row.endTime,row.outputLog)) = [(.completed,some 100,some 1)] ∧
      ((pendingRun.run [.readRows 1 ["t1"],paramsSuccess,.saveNext]).table.rows.map fun row =>
        (row.status,row.endTime,row.outputLog)) = [(.pending,none,none)] := by
  decide

end OasisPlatform.SubTaskProgress
