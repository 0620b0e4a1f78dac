import OasisPlatform.SubTasks
import Mathlib.Logic.Function.Defs
import Mathlib.Data.List.Nodup

/-!
The order of the messages about the start of a sub-task. Rows begin as pending;
`update_task_id` makes them queued, and `record_sub_task_start` makes a queued row
started, but leaves a pending one. So a sub-task whose start is recorded before the ids
are updated stays queued while it runs: it is started exactly when a start comes after an
update (`started_iff_start_after_update`). The success of a sub-task is recorded in any
order.
-/
namespace OasisPlatform.StartOrder
open OasisPlatform.Models OasisPlatform.SubTasks
set_option linter.unusedSimpArgs false

section Ids
variable (taskIdOf : AnalysisId × String → String)

def key (row : SubTask) : AnalysisId × String := (row.analysis,row.slug)

/-- Every row has the task id of its own sub-task, or none yet. -/
def OwnIds (rows : List SubTask) : Prop := ∀ row ∈ rows, row.taskId = "" ∨ row.taskId = taskIdOf (key row)

/-- The messages of the tasks of a run: starts, successes and failures of its sub-tasks,
    and updates, each with the task ids of the sub-tasks that it names. -/
def OwnMessage : SubTaskMessage → Prop
  | .recordSubTaskStart analysis slug taskId _ => taskId = taskIdOf (analysis,slug)
  | .recordSubTaskSuccess analysis _ slug parentId _ _ => parentId = taskIdOf (analysis,slug)
  | .recordSubTaskFailure analysis _ slug parentId _ => parentId = taskIdOf (analysis,slug)
  | .updateTaskId updates => updates ≠ [] ∧ ∀ update ∈ updates, update.1 = taskIdOf update.2
  | _ => False

variable {taskIdOf}

theorem ownIds_valid (distinct : Function.Injective taskIdOf) {rows : List SubTask}
    (ids : (rows.map SubTask.id).Nodup) (keys : (rows.map key).Nodup) (own : OwnIds taskIdOf rows) : ValidRows rows := by
  refine ⟨ids,keys,?_⟩
  have named : (rows.map SubTask.taskId).filter (· ≠ "") =
      ((rows.filter fun row => row.taskId ≠ "").map key).map taskIdOf := by
    rw [List.filter_map,List.map_map]
    apply List.map_congr_left
    intro row listed
    obtain ⟨inTable,nonempty⟩ := List.mem_filter.mp listed
    rcases own row inTable with empty | mine
    · simp [empty] at nonempty
    · exact mine
  rw [named]
  exact (keys.sublist (List.filter_sublist.map key)).map distinct

/-- A statement on one row. -/
def changed (st : Statement) (row : SubTask) : SubTask := if st.filter row then st.change row else row

/-- A statement that keeps the key of a row and sets no foreign task id. -/
structure OwnStatement (taskIdOf : AnalysisId × String → String) (st : Statement) : Prop where
  id : ∀ row, (st.change row).id = row.id
  key : ∀ row, key (st.change row) = key row
  taskId : ∀ row, st.filter row = true →
    (st.change row).taskId = row.taskId ∨ (st.change row).taskId = taskIdOf (StartOrder.key row)

theorem changed_id {st : Statement} (mine : OwnStatement taskIdOf st) (row : SubTask) : (changed st row).id = row.id := by
  unfold changed
  split_ifs
  · exact mine.id row
  · rfl

theorem changed_key {st : Statement} (mine : OwnStatement taskIdOf st) (row : SubTask) : key (changed st row) = key row := by
  unfold changed
  split_ifs
  · exact mine.key row
  · rfl

theorem changed_ownIds {st : Statement} (mine : OwnStatement taskIdOf st) {rows : List SubTask}
    (own : OwnIds taskIdOf rows) : OwnIds taskIdOf (rows.map (changed st)) := by
  intro row' listed'
  obtain ⟨row,listed,rfl⟩ := List.mem_map.mp listed'
  rw [changed_key mine]
  by_cases matched : st.filter row = true
  · rw [changed,if_pos matched]
    rcases mine.taskId row matched with same | assigned
    · rw [same]
      exact own row listed
    · exact .inr assigned
  · rw [changed,if_neg matched]
    exact own row listed

/-- No constraint refuses such a statement. -/
theorem update_own (distinct : Function.Injective taskIdOf) {table : SubTaskTable} (own : OwnIds taskIdOf table.rows)
    {st : Statement} (mine : OwnStatement taskIdOf st) :
    ∃ table', table.update st.filter st.change = some table' ∧ table'.rows = table.rows.map (changed st) ∧
      OwnIds taskIdOf table'.rows := by
  have valid : ValidRows (table.rows.map (changed st)) := by
    apply ownIds_valid distinct
    · rw [List.map_map,show SubTask.id ∘ changed st = SubTask.id from funext (changed_id mine)]
      exact table.valid.1
    · rw [List.map_map,show key ∘ changed st = key from funext (changed_key mine)]
      exact table.valid.2.1
    · exact changed_ownIds mine own
  exact ⟨⟨table.rows.map (changed st),valid⟩,dif_pos valid,rfl,changed_ownIds mine own⟩

theorem execute_own (distinct : Function.Injective taskIdOf) {table : SubTaskTable} (own : OwnIds taskIdOf table.rows)
    {st : Statement} (mine : OwnStatement taskIdOf st) :
    (execute table st).rows = table.rows.map (changed st) ∧ OwnIds taskIdOf (execute table st).rows := by
  obtain ⟨table',updated,rows,own'⟩ := update_own distinct own mine
  rw [execute,updated]
  exact ⟨rows,own'⟩

/-- The transaction of `update_task_id` on one row. -/
def assignRow (env : Env) (row : SubTask) (updates : List (String × AnalysisId × String)) : SubTask :=
  updates.foldl (fun row update => changed (assignTaskId env update.1 update.2.1 update.2.2) row) row

/-- A message of the run on one row. -/
def effect (env : Env) (message : SubTaskMessage) (row : SubTask) : SubTask :=
  match message with
  | .recordSubTaskStart analysis slug taskId dt => changed (recordSubTaskStart env analysis slug taskId dt) row
  | .recordSubTaskSuccess analysis initiator slug parentId logLocation errorLocation =>
    ((recordSubTaskSuccess env analysis initiator slug parentId logLocation errorLocation).map (changed · row)).getD row
  | .recordSubTaskFailure analysis initiator slug parentId traceback =>
    ((recordSubTaskFailure env analysis initiator slug parentId traceback).map (changed · row)).getD row
  | .updateTaskId ((taskId,analysis,slug) :: rest) =>
    assignRow env (changed (queuePending analysis) row) ((taskId,analysis,slug) :: rest)
  | _ => row

theorem recordSubTaskStart_own {env : Env} {analysis : AnalysisId} {slug taskId : String} {dt : Option Time}
    (mine : taskId = taskIdOf (analysis,slug)) : OwnStatement taskIdOf (recordSubTaskStart env analysis slug taskId dt) := by
  refine ⟨fun _ => rfl,fun _ => rfl,fun row matched => .inr ?_⟩
  simp only [recordSubTaskStart,ofSlug,decide_eq_true_eq] at matched ⊢
  rw [mine,key,matched.1,matched.2]

theorem recordSubTaskSuccess_own {env : Env} {analysis : AnalysisId} {initiator : UserId} {slug taskId : String}
    {logLocation errorLocation : Option String} {st : Statement} (mine : taskId = taskIdOf (analysis,slug))
    (has : recordSubTaskSuccess env analysis initiator slug taskId logLocation errorLocation = some st) :
    OwnStatement taskIdOf st := by
  simp only [recordSubTaskSuccess,Option.bind_eq_bind,Option.bind_eq_some_iff,Option.some.injEq] at has
  obtain ⟨_,_,_,_,_,_,rfl⟩ := has
  refine ⟨fun _ => rfl,fun _ => rfl,fun row matched => .inr ?_⟩
  simp only [ofSlug,decide_eq_true_eq] at matched ⊢
  rw [mine,key,matched.1,matched.2]

theorem recordSubTaskFailure_own {env : Env} {analysis : AnalysisId} {initiator : UserId} {slug taskId traceback : String}
    {st : Statement} (mine : taskId = taskIdOf (analysis,slug))
    (has : recordSubTaskFailure env analysis initiator slug taskId traceback = some st) : OwnStatement taskIdOf st := by
  simp only [recordSubTaskFailure,Option.bind_eq_bind,Option.bind_eq_some_iff,Option.some.injEq] at has
  obtain ⟨_,_,rfl⟩ := has
  refine ⟨fun _ => rfl,fun _ => rfl,fun row matched => .inr ?_⟩
  simp only [ofSlug,decide_eq_true_eq] at matched ⊢
  rw [mine,key,matched.1,matched.2]

theorem queuePending_own (analysis : AnalysisId) : OwnStatement taskIdOf (queuePending analysis) :=
  ⟨fun _ => rfl,fun _ => rfl,fun _ _ => .inl rfl⟩

theorem assignTaskId_own {env : Env} {taskId : String} {analysis : AnalysisId} {slug : String}
    (mine : taskId = taskIdOf (analysis,slug)) : OwnStatement taskIdOf (assignTaskId env taskId analysis slug) := by
  refine ⟨fun _ => rfl,fun _ => rfl,fun row matched => .inr ?_⟩
  simp only [assignTaskId,ofSlug,decide_eq_true_eq] at matched ⊢
  rw [mine,key,matched.1,matched.2]

/-- The transaction goes through, row by row. -/
theorem assignTaskIds_own (distinct : Function.Injective taskIdOf) (env : Env)
    {updates : List (String × AnalysisId × String)} (mine : ∀ update ∈ updates, update.1 = taskIdOf update.2)
    {table : SubTaskTable} (own : OwnIds taskIdOf table.rows) :
    ∃ table', assignTaskIds env table updates = some table' ∧
      table'.rows = table.rows.map (fun row => assignRow env row updates) ∧ OwnIds taskIdOf table'.rows := by
  induction updates generalizing table with
  | nil => exact ⟨table,rfl,by simp [assignRow],own⟩
  | cons update rest ih =>
    obtain ⟨taskId,analysis,slug⟩ := update
    have assign : OwnStatement taskIdOf (assignTaskId env taskId analysis slug) :=
      assignTaskId_own (mine (taskId,analysis,slug) (by simp))
    obtain ⟨mid,updated,rows,ownMid⟩ := update_own distinct own assign
    obtain ⟨table',assigned,rows',own'⟩ := ih (fun update member => mine update (by simp [member])) ownMid
    refine ⟨table',?_,?_,own'⟩
    · simp [assignTaskIds,updated,assigned]
    · rw [rows',rows,List.map_map]
      rfl

/-- A task that may raise before its statement. -/
theorem executeOptional_own (distinct : Function.Injective taskIdOf) {table : SubTaskTable}
    (own : OwnIds taskIdOf table.rows) {found : Option Statement}
    (mine : ∀ st, found = some st → OwnStatement taskIdOf st) :
    ((found.map (execute table)).getD table).rows = table.rows.map (fun row => (found.map (changed · row)).getD row) ∧
      OwnIds taskIdOf ((found.map (execute table)).getD table).rows := by
  cases found with
  | none => exact ⟨(List.map_id table.rows).symm,own⟩
  | some st => exact execute_own distinct own (mine st rfl)

/-- A message of the run changes each row by itself. -/
theorem process_own (distinct : Function.Injective taskIdOf) (env : Env) {table : SubTaskTable}
    (own : OwnIds taskIdOf table.rows) {message : SubTaskMessage} (mine : OwnMessage taskIdOf message) :
    (process env table message).rows = table.rows.map (effect env message) ∧
      OwnIds taskIdOf (process env table message).rows := by
  cases message with
  | recordSubTaskStart analysis slug taskId dt =>
    exact execute_own distinct own (recordSubTaskStart_own mine)
  | recordSubTaskSuccess analysis initiator slug parentId logLocation errorLocation =>
    rw [process_optional (by rintro updates ⟨⟩)]
    exact executeOptional_own distinct own fun st has => recordSubTaskSuccess_own mine has
  | recordSubTaskFailure analysis initiator slug parentId traceback =>
    rw [process_optional (by rintro updates ⟨⟩)]
    exact executeOptional_own distinct own fun st has => recordSubTaskFailure_own mine has
  | updateTaskId updates =>
    cases updates with
    | nil => exact absurd rfl mine.1
    | cons update rest =>
      obtain ⟨taskId,analysis,slug⟩ := update
      obtain ⟨rows,ownQueued⟩ := execute_own distinct own (queuePending_own analysis)
      obtain ⟨table',assigned,rows',own'⟩ := assignTaskIds_own distinct env mine.2 ownQueued
      have result : process env table (.updateTaskId ((taskId,analysis,slug) :: rest)) = table' := by
        simp [process,updateTaskId,assigned]
      rw [result,rows',rows,List.map_map]
      exact ⟨rfl,by rwa [← List.map_map,← rows,← rows']⟩
  | _ => cases mine

/-- The table after messages in the order of their processing. -/
def processAll (table : SubTaskTable) (messages : List (Env × SubTaskMessage)) : SubTaskTable :=
  messages.foldl (fun table message => process message.1 table message.2) table

def effects (row : SubTask) (messages : List (Env × SubTaskMessage)) : SubTask :=
  messages.foldl (fun row message => effect message.1 message.2 row) row

theorem processAll_own (distinct : Function.Injective taskIdOf) {messages : List (Env × SubTaskMessage)}
    (mine : ∀ message ∈ messages, OwnMessage taskIdOf message.2) {table : SubTaskTable}
    (own : OwnIds taskIdOf table.rows) :
    (processAll table messages).rows = table.rows.map fun row => effects row messages := by
  induction messages generalizing table with
  | nil => simp [processAll,effects]
  | cons message rest ih =>
    obtain ⟨rows,own'⟩ := process_own distinct message.1 own (mine message (by simp))
    have later := ih (fun message member => mine message (by simp [member])) own'
    rw [rows,List.map_map] at later
    exact later

end Ids

/-! ### The status of a row -/

/-- The start of the sub-task of a row. -/
def startsRow (message : SubTaskMessage) (row : SubTask) : Bool :=
  match message with
  | .recordSubTaskStart analysis slug _ _ => ofSlug analysis slug row
  | _ => false

/-- An update of task ids for the analysis of a row. -/
def queuesRow (message : SubTaskMessage) (row : SubTask) : Bool :=
  match message with
  | .updateTaskId ((_,analysis,_) :: _) => row.analysis = analysis
  | _ => false

/-- A success of the sub-task of a row that is recorded: its logs can be stored. -/
def completesRow (env : Env) (message : SubTaskMessage) (row : SubTask) : Bool :=
  match message with
  | .recordSubTaskSuccess analysis initiator slug parentId logLocation errorLocation =>
    ofSlug analysis slug row &&
      (recordSubTaskSuccess env analysis initiator slug parentId logLocation errorLocation).isSome
  | _ => false

/-- A failure of the sub-task of a row. -/
def failsRow (message : SubTaskMessage) (row : SubTask) : Bool :=
  match message with
  | .recordSubTaskFailure analysis _ slug _ _ => ofSlug analysis slug row
  | _ => false

/-- What a message of the run, other than a failure of its sub-task, does to a row. -/
structure Effect (env : Env) (message : SubTaskMessage) (row later : SubTask) : Prop where
  key : key later = key row
  id : later.id = row.id
  status : later.status =
    if completesRow env message row then .completed
    else if startsRow message row then (if row.status = .queued then .started else row.status)
    else if queuesRow message row then (if row.status = .pending then .queued else row.status)
    else row.status
  startTime : later.startTime.isSome = (row.startTime.isSome || startsRow message row)

theorem assignRow_spec (env : Env) (updates : List (String × AnalysisId × String)) (row : SubTask) :
    key (assignRow env row updates) = key row ∧ (assignRow env row updates).id = row.id ∧
      (assignRow env row updates).status = row.status ∧ (assignRow env row updates).startTime = row.startTime := by
  induction updates generalizing row with
  | nil => exact ⟨rfl,rfl,rfl,rfl⟩
  | cons update rest ih =>
    have later := ih (changed (assignTaskId env update.1 update.2.1 update.2.2) row)
    have here : key (changed (assignTaskId env update.1 update.2.1 update.2.2) row) = key row ∧
        (changed (assignTaskId env update.1 update.2.1 update.2.2) row).id = row.id ∧
        (changed (assignTaskId env update.1 update.2.1 update.2.2) row).status = row.status ∧
        (changed (assignTaskId env update.1 update.2.1 update.2.2) row).startTime = row.startTime := by
      unfold changed
      split_ifs <;> exact ⟨rfl,rfl,rfl,rfl⟩
    exact ⟨later.1.trans here.1,later.2.1.trans here.2.1,later.2.2.1.trans here.2.2.1,later.2.2.2.trans here.2.2.2⟩

theorem start_effect (env : Env) (analysis : AnalysisId) (slug taskId : String) (dt : Option Time)
    (row : SubTask) :
    Effect env (.recordSubTaskStart analysis slug taskId dt) row
      (effect env (.recordSubTaskStart analysis slug taskId dt) row) := by
  by_cases matched : ofSlug analysis slug row = true
  · have started : effect env (.recordSubTaskStart analysis slug taskId dt) row =
        (recordSubTaskStart env analysis slug taskId dt).change row := if_pos matched
    rw [started]
    refine ⟨rfl,rfl,?_,?_⟩
    · simp [completesRow,startsRow,matched,recordSubTaskStart]
    · simp [startsRow,matched,recordSubTaskStart]
  · have still : effect env (.recordSubTaskStart analysis slug taskId dt) row = row := if_neg matched
    rw [still]
    exact ⟨rfl,rfl,by simp [completesRow,startsRow,queuesRow,matched],by simp [startsRow,matched]⟩

theorem success_effect (env : Env) (analysis : AnalysisId) (initiator : UserId) (slug parentId : String)
    (logLocation errorLocation : Option String) (row : SubTask) :
    Effect env (.recordSubTaskSuccess analysis initiator slug parentId logLocation errorLocation) row
      (effect env (.recordSubTaskSuccess analysis initiator slug parentId logLocation errorLocation) row) := by
  cases has : recordSubTaskSuccess env analysis initiator slug parentId logLocation errorLocation with
  | none =>
    simp only [effect,has]
    exact ⟨rfl,rfl,by simp [completesRow,startsRow,queuesRow,has],by simp [startsRow]⟩
  | some st =>
    simp only [effect,has]
    have statement := has
    simp only [recordSubTaskSuccess,Option.bind_eq_bind,Option.bind_eq_some_iff,Option.some.injEq] at statement
    obtain ⟨_,_,_,_,_,_,rfl⟩ := statement
    by_cases matched : ofSlug analysis slug row = true
    · simp only [Option.map_some,Option.getD_some,changed,matched,if_true]
      exact ⟨rfl,rfl,by simp [completesRow,matched,has],by simp [startsRow]⟩
    · simp only [Option.map_some,Option.getD_some,changed,matched]
      exact ⟨rfl,rfl,by simp [completesRow,startsRow,queuesRow,matched],by simp [startsRow]⟩

/-- A failure leaves the rows of other slugs. -/
theorem failure_still (env : Env) {analysis : AnalysisId} (initiator : UserId) {slug : String}
    (parentId traceback : String) {row : SubTask} (unmatched : ofSlug analysis slug row = false) :
    effect env (.recordSubTaskFailure analysis initiator slug parentId traceback) row = row := by
  cases has : recordSubTaskFailure env analysis initiator slug parentId traceback with
  | none => simp [effect,has]
  | some st =>
    simp only [effect,has]
    simp only [recordSubTaskFailure,Option.bind_eq_bind,Option.bind_eq_some_iff,Option.some.injEq] at has
    obtain ⟨_,_,rfl⟩ := has
    simp [changed,unmatched]

theorem queuePending_spec (analysis : AnalysisId) (row : SubTask) :
    key (changed (queuePending analysis) row) = key row ∧ (changed (queuePending analysis) row).id = row.id ∧
      (changed (queuePending analysis) row).startTime = row.startTime := by
  unfold changed
  split_ifs <;> exact ⟨rfl,rfl,rfl⟩

/-- The ids of a run queue what is pending of its first analysis. -/
theorem updateTaskId_effect (env : Env) (taskId : String) (analysis : AnalysisId) (slug : String)
    (rest : List (String × AnalysisId × String)) (row : SubTask) :
    Effect env (.updateTaskId ((taskId,analysis,slug) :: rest)) row
      (effect env (.updateTaskId ((taskId,analysis,slug) :: rest)) row) := by
  obtain ⟨sameKey,sameId,sameStatus,sameStart⟩ :=
    assignRow_spec env ((taskId,analysis,slug) :: rest) (changed (queuePending analysis) row)
  obtain ⟨queuedKey,queuedId,queuedStart⟩ := queuePending_spec analysis row
  refine ⟨sameKey.trans queuedKey,sameId.trans queuedId,sameStatus.trans ?_,?_⟩
  · by_cases inAnalysis : row.analysis = analysis
    · by_cases pending : row.status = .pending
      · simp [changed,queuePending,inAnalysis,pending,completesRow,startsRow,queuesRow]
      · simp [changed,queuePending,inAnalysis,pending,completesRow,startsRow,queuesRow]
    · simp [changed,queuePending,inAnalysis,completesRow,startsRow,queuesRow]
  · rw [effect,sameStart,queuedStart]
    simp [startsRow]

theorem effect_spec (env : Env) (message : SubTaskMessage) (row : SubTask) (noFailure : failsRow message row = false) :
    Effect env message row (effect env message row) := by
  cases message with
  | recordSubTaskStart analysis slug taskId dt => exact start_effect env analysis slug taskId dt row
  | recordSubTaskSuccess analysis initiator slug parentId logLocation errorLocation =>
    exact success_effect env analysis initiator slug parentId logLocation errorLocation row
  | recordSubTaskFailure analysis initiator slug parentId traceback =>
    rw [failure_still env initiator parentId traceback noFailure]
    exact ⟨rfl,rfl,by simp [completesRow,startsRow,queuesRow],by simp [startsRow]⟩
  | updateTaskId updates =>
    cases updates with
    | nil => exact ⟨rfl,rfl,by simp [effect,completesRow,startsRow,queuesRow],by simp [effect,startsRow]⟩
    | cons update rest => exact updateTaskId_effect env update.1 update.2.1 update.2.2 rest row
  | _ => exact ⟨rfl,rfl,by simp [effect,completesRow,startsRow,queuesRow],by simp [effect,startsRow]⟩

section Order
variable {row later : SubTask}

theorem ofSlug_key (same : key later = key row) (analysis : AnalysisId) (slug : String) :
    ofSlug analysis slug later = ofSlug analysis slug row := by
  obtain ⟨sameAnalysis,sameSlug⟩ := Prod.mk.inj same
  simp [ofSlug,sameAnalysis,sameSlug]

theorem startsRow_key (same : key later = key row) (message : SubTaskMessage) :
    startsRow message later = startsRow message row := by
  cases message with
  | recordSubTaskStart analysis slug taskId dt => exact ofSlug_key same analysis slug
  | _ => rfl

theorem queuesRow_key (same : key later = key row) (message : SubTaskMessage) :
    queuesRow message later = queuesRow message row := by
  have sameAnalysis : later.analysis = row.analysis := (Prod.mk.inj same).1
  cases message with
  | updateTaskId updates => cases updates <;> simp [queuesRow,sameAnalysis]
  | _ => rfl

theorem completesRow_key (same : key later = key row) (env : Env) (message : SubTaskMessage) :
    completesRow env message later = completesRow env message row := by
  cases message with
  | recordSubTaskSuccess analysis initiator slug parentId logLocation errorLocation =>
    simp [completesRow,ofSlug_key same]
  | _ => rfl

theorem failsRow_key (same : key later = key row) (message : SubTaskMessage) :
    failsRow message later = failsRow message row := by
  cases message with
  | recordSubTaskFailure analysis initiator slug parentId traceback => exact ofSlug_key same analysis slug
  | _ => rfl

/-- No message ends the sub-task of a row. -/
def Unfinished (row : SubTask) (messages : List (Env × SubTaskMessage)) : Prop :=
  ∀ message ∈ messages, failsRow message.2 row = false ∧ completesRow message.1 message.2 row = false

def starts (row : SubTask) (messages : List (Env × SubTaskMessage)) : Bool :=
  messages.any fun message => startsRow message.2 row

def updates (row : SubTask) (messages : List (Env × SubTaskMessage)) : Bool :=
  messages.any fun message => queuesRow message.2 row

/-- Some start of the sub-task comes after some update of the task ids. -/
def startAfterUpdate (row : SubTask) : List (Env × SubTaskMessage) → Bool
  | [] => false
  | message :: rest => (queuesRow message.2 row && starts row rest) || startAfterUpdate row rest

theorem Unfinished.tail {message : Env × SubTaskMessage} {messages : List (Env × SubTaskMessage)}
    (unfinished : Unfinished row (message :: messages)) (same : key later = key row) : Unfinished later messages := by
  intro other member
  rw [failsRow_key same,completesRow_key same]
  exact unfinished other (by simp [member])

theorem starts_key (same : key later = key row) (messages : List (Env × SubTaskMessage)) :
    starts later messages = starts row messages := by
  simp only [starts,startsRow_key same]

theorem startAfterUpdate_key (same : key later = key row) (messages : List (Env × SubTaskMessage)) :
    startAfterUpdate later messages = startAfterUpdate row messages := by
  induction messages with
  | nil => rfl
  | cons message rest ih => simp only [startAfterUpdate,queuesRow_key same,starts_key same,ih]

theorem startAfterUpdate_none {messages : List (Env × SubTaskMessage)} (none_starts : starts row messages = false) :
    startAfterUpdate row messages = false := by
  induction messages with
  | nil => rfl
  | cons message rest ih =>
    obtain ⟨_,noneLater⟩ : startsRow message.2 row = false ∧ starts row rest = false := by
      simpa [starts] using none_starts
    simp [startAfterUpdate,noneLater,ih noneLater]

theorem effects_cons (row : SubTask) (message : Env × SubTaskMessage) (rest : List (Env × SubTaskMessage)) :
    effects row (message :: rest) = effects (effect message.1 message.2 row) rest := rfl

theorem starts_cons (row : SubTask) (message : Env × SubTaskMessage) (rest : List (Env × SubTaskMessage)) :
    starts row (message :: rest) = (startsRow message.2 row || starts row rest) := rfl

theorem updates_cons (row : SubTask) (message : Env × SubTaskMessage) (rest : List (Env × SubTaskMessage)) :
    updates row (message :: rest) = (queuesRow message.2 row || updates row rest) := rfl

theorem effects_started {messages : List (Env × SubTaskMessage)} (started : row.status = .started)
    (unfinished : Unfinished row messages) : (effects row messages).status = .started := by
  induction messages generalizing row with
  | nil => exact started
  | cons message rest ih =>
    obtain ⟨noFailure,noSuccess⟩ := unfinished message (by simp)
    have spec := effect_spec message.1 message.2 row noFailure
    apply ih
    · simp [spec.status,noSuccess,started]
    · exact unfinished.tail spec.key

/-- A queued row becomes started with the first start. -/
theorem effects_queued {messages : List (Env × SubTaskMessage)} (queued : row.status = .queued)
    (unfinished : Unfinished row messages) :
    (effects row messages).status = if starts row messages then .started else .queued := by
  induction messages generalizing row with
  | nil => exact queued
  | cons message rest ih =>
    obtain ⟨noFailure,noSuccess⟩ := unfinished message (by simp)
    have spec := effect_spec message.1 message.2 row noFailure
    cases start : startsRow message.2 row with
    | true =>
      have started : (effect message.1 message.2 row).status = .started := by
        simp [spec.status,noSuccess,start,queued]
      rw [effects_cons,starts_cons,start,Bool.true_or,if_pos rfl]
      exact effects_started started (unfinished.tail spec.key)
    | false =>
      have still : (effect message.1 message.2 row).status = .queued := by
        simp [spec.status,noSuccess,start,queued]
      rw [effects_cons,starts_cons,start,Bool.false_or,← starts_key spec.key]
      exact ih still (unfinished.tail spec.key)

/-- A pending row waits for an update. -/
theorem effects_pending {messages : List (Env × SubTaskMessage)} (pending : row.status = .pending)
    (unfinished : Unfinished row messages) :
    (effects row messages).status =
      if startAfterUpdate row messages then .started else if updates row messages then .queued else .pending := by
  induction messages generalizing row with
  | nil => exact pending
  | cons message rest ih =>
    obtain ⟨noFailure,noSuccess⟩ := unfinished message (by simp)
    have spec := effect_spec message.1 message.2 row noFailure
    cases queues : queuesRow message.2 row with
    | true =>
      have noStart : startsRow message.2 row = false := by
        cases shape : message.2 with
        | recordSubTaskStart analysis slug taskId dt =>
          rw [shape] at queues
          cases queues
        | _ => rfl
      have queued : (effect message.1 message.2 row).status = .queued := by
        simp [spec.status,noSuccess,noStart,queues,pending]
      have later : startAfterUpdate row (message :: rest) = starts row rest := by
        simp only [startAfterUpdate,queues,Bool.true_and]
        cases start : starts row rest with
        | true => rfl
        | false => exact startAfterUpdate_none start
      rw [effects_cons,updates_cons,queues,Bool.true_or,later,if_pos rfl,← starts_key spec.key]
      exact effects_queued queued (unfinished.tail spec.key)
    | false =>
      have still : (effect message.1 message.2 row).status = .pending := by
        simp [spec.status,noSuccess,queues,pending]
      have sameUpdates : updates (effect message.1 message.2 row) rest = updates row rest := by
        simp only [updates,queuesRow_key spec.key]
      have later : startAfterUpdate row (message :: rest) = startAfterUpdate row rest := by
        simp only [startAfterUpdate,queues,Bool.false_and,Bool.false_or]
      rw [effects_cons,updates_cons,queues,Bool.false_or,later,← sameUpdates,← startAfterUpdate_key spec.key]
      exact ih still (unfinished.tail spec.key)

/-- Whatever its status, a row has a start time after a start. -/
theorem effects_startTime {messages : List (Env × SubTaskMessage)}
    (noFailures : ∀ message ∈ messages, failsRow message.2 row = false) :
    (effects row messages).startTime.isSome = (row.startTime.isSome || starts row messages) := by
  induction messages generalizing row with
  | nil => simp [effects,starts]
  | cons message rest ih =>
    have spec := effect_spec message.1 message.2 row (noFailures message (by simp))
    have noneLater : ∀ other ∈ rest, failsRow other.2 (effect message.1 message.2 row) = false := by
      intro other member
      rw [failsRow_key spec.key]
      exact noFailures other (by simp [member])
    rw [effects_cons,ih noneLater,spec.startTime,starts_key spec.key,starts_cons,Bool.or_assoc]

theorem effects_completed {messages : List (Env × SubTaskMessage)}
    (noFailures : ∀ message ∈ messages, failsRow message.2 row = false)
    (completed : row.status = .completed ∨ messages.any (fun message => completesRow message.1 message.2 row) = true) :
    (effects row messages).status = .completed := by
  induction messages generalizing row with
  | nil =>
    rcases completed with done | none_left
    · exact done
    · cases none_left
  | cons message rest ih =>
    have spec := effect_spec message.1 message.2 row (noFailures message (by simp))
    rw [effects_cons]
    apply ih
    · intro other member
      rw [failsRow_key spec.key]
      exact noFailures other (by simp [member])
    · simp only [completesRow_key spec.key]
      rcases completed with done | some_success
      · left
        simp [spec.status,done]
      · rw [List.any_cons,Bool.or_eq_true] at some_success
        rcases some_success with here | later
        · left
          rw [spec.status,if_pos here]
        · exact .inr later

theorem effects_id {messages : List (Env × SubTaskMessage)}
    (noFailures : ∀ message ∈ messages, failsRow message.2 row = false) : (effects row messages).id = row.id := by
  induction messages generalizing row with
  | nil => rfl
  | cons message rest ih =>
    have spec := effect_spec message.1 message.2 row (noFailures message (by simp))
    refine (ih fun other member => ?_).trans spec.id
    rw [failsRow_key spec.key]
    exact noFailures other (by simp [member])

end Order

/-- A pending sub-task whose start has been recorded, among any messages of the run: it has a
    start time; unless it has succeeded it is started exactly when a start came after an
    update of the task ids; and a success makes it completed. -/
theorem started_iff_start_after_update {taskIdOf : AnalysisId × String → String}
    (distinct : Function.Injective taskIdOf) {table : SubTaskTable} (own : OwnIds taskIdOf table.rows) {row : SubTask}
    (listed : row ∈ table.rows) (pending : row.status = .pending) {messages : List (Env × SubTaskMessage)}
    (mine : ∀ message ∈ messages, OwnMessage taskIdOf message.2)
    (noFailure : ∀ message ∈ messages, failsRow message.2 row = false) (started : starts row messages = true) :
    ∃ later ∈ (processAll table messages).rows, later.id = row.id ∧ later.startTime.isSome ∧
      ((∀ message ∈ messages, completesRow message.1 message.2 row = false) →
        (later.status = .started ↔ startAfterUpdate row messages = true)) ∧
      ((∃ message ∈ messages, completesRow message.1 message.2 row = true) → later.status = .completed) := by
  refine ⟨effects row messages,?_,effects_id noFailure,?_,?_,?_⟩
  · rw [processAll_own distinct mine own]
    exact List.mem_map_of_mem listed
  · rw [effects_startTime noFailure,started,Bool.or_true]
  · intro noSuccess
    have status := effects_pending pending fun message member => ⟨noFailure message member,noSuccess message member⟩
    rw [status]
    cases startAfterUpdate row messages with
    | true => simp
    | false => cases updates row messages <;> simp
  · rintro ⟨message,member,completes⟩
    exact effects_completed noFailure (.inr (List.any_eq_true.mpr ⟨message,member,completes⟩))

/-- Task ids that tell the sub-tasks of all analyses apart. -/
def numberedIds (subTask : AnalysisId × String) : String :=
  String.ofList (List.replicate subTask.1 '-' ++ 'T' :: subTask.2.toList)

theorem numberedIds_injective : Function.Injective numberedIds := by
  rintro ⟨a,s⟩ ⟨b,t⟩ same
  have chars := String.ofList_injective same
  have front : ∀ (n : Nat) (text : List Char), (List.replicate n '-' ++ 'T' :: text).takeWhile (· = '-') =
      List.replicate n '-' := by
    intro n text
    simp [List.takeWhile_append]
  have sameFront := congrArg (fun text => (text.takeWhile (· = '-')).length) chars
  simp only [front,List.length_replicate] at sameFront
  subst sameFront
  have rest := List.append_cancel_left chars
  simp only [List.cons.injEq,true_and,String.toList_inj] at rest
  rw [rest]

def paramsTask : SubTask :=
  { id := 1, analysis := 1, queueName := "model-v2", name := "Prepare input generation params",
    slug := "prepare-input-generation-params" }

def hookTask : SubTask :=
  { id := 2, analysis := 1, queueName := "model-v2", name := "Pre analysis hook", slug := "pre-analysis-hook" }

def firstRows : SubTaskTable := ⟨[paramsTask,hookTask],by decide⟩

def paramsStart : Env × SubTaskMessage :=
  (calmEnv,.recordSubTaskStart 1 "prepare-input-generation-params"
    (numberedIds (1,"prepare-input-generation-params")) (some 90))

def hookUpdate : Env × SubTaskMessage :=
  (calmEnv,.updateTaskId [(numberedIds (1,"pre-analysis-hook"),1,"pre-analysis-hook")])

/-- A start that is processed after the update. -/
theorem started_after_update :
    ∃ later ∈ (processAll firstRows [hookUpdate,paramsStart]).rows, later.id = 1 ∧ later.startTime.isSome ∧
      later.status = .started := by
  have own : OwnIds numberedIds firstRows.rows := by
    intro row listed
    left
    simp only [firstRows,List.mem_cons,List.not_mem_nil,or_false] at listed
    rcases listed with rfl | rfl <;> rfl
  have listed : paramsTask ∈ firstRows.rows := by simp [firstRows]
  have mine : ∀ message ∈ [hookUpdate,paramsStart], OwnMessage numberedIds message.2 := by
    intro message member
    simp only [List.mem_cons,List.not_mem_nil,or_false] at member
    rcases member with rfl | rfl
    · simp [hookUpdate,OwnMessage]
    · rfl
  obtain ⟨later,listedLater,sameId,time,started,_⟩ := started_iff_start_after_update numberedIds_injective own listed rfl
    mine (by decide) (by decide)
  exact ⟨later,listedLater,sameId,time,(started (by decide)).mpr (by decide)⟩

/-- The first task of a stage sends its start before the update, and stays queued. -/
theorem queued_after_start :
    ((processAll firstRows [paramsStart,hookUpdate]).rows.map fun row => (row.slug,row.status,row.startTime)) =
      [("prepare-input-generation-params",.queued,some 90),("pre-analysis-hook",.queued,none)] := by
  decide

end OasisPlatform.StartOrder
