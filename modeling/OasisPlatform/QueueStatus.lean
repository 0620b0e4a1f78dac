import Mathlib.Algebra.Order.BigOperators.Group.List
import Mathlib.Algebra.Order.Group.Nat
import Mathlib.Algebra.Order.Monoid.Prod
import Mathlib.Algebra.Order.Ring.Int
import OasisPlatform.Autoscaler
import OasisPlatform.QueueNames

/-!
The queue-status message of the server, from the tables and the queues of the broker, and
what the worker controller makes of it. For a queue that is named like a model the message
lists the analyses of that model, for another one those with a sub-task on it; the
controller takes an analysis without sub-tasks for one that runs on the queue it is listed
for. Analyses that wait contribute nothing and those that run contribute to their queues
exactly under the condition of `contributions_iff`.
-/
namespace OasisPlatform.QueueStatus
open OasisPlatform.PathText OasisPlatform.Models OasisPlatform.AutoscalerRules OasisPlatform.WorkerDeployments
open OasisPlatform.QueueNames OasisPlatform.Autoscaler
set_option linter.unusedSimpArgs false

/-- A row of the models table; a model may be deleted and stay in the table. -/
structure ModelRecord where
  id : Nat
  ids : ModelIds
  deleted : Bool
  deriving DecidableEq, Repr

structure AnalysisRecord where
  id : AnalysisId
  model : Nat
  status : AnalysisStatus
  priority : Nat
  deriving DecidableEq, Repr

structure Database where
  models : List ModelRecord
  analyses : List AnalysisRecord
  subTasks : SubTaskTable
  primaryKey : (analyses.map AnalysisRecord.id).Nodup

/-- A queue of the broker, with the messages and consumers that `queue_declare` counts. -/
structure BrokerQueue where
  name : Text
  messageCount : Nat
  consumers : Nat
  deriving DecidableEq, Repr

def onQueue (name : Text) (row : SubTask) : Bool := row.queueName.toList = name

/-- `PENDING`, `QUEUED` or `STARTED`. -/
def liveTasks (db : Database) (analysis : AnalysisId) : List SubTask :=
  (db.subTasks.ofAnalysis analysis).filter fun row => row.status ∈ [.pending,.queued,.started]

def taskCount (db : Database) (status : TaskStatus) (name : Text) : Nat :=
  (db.subTasks.rows.filter fun row => row.status = status ∧ onQueue name row).length

def getQueuesInfo (db : Database) (broker : List BrokerQueue) : List QueueInfo :=
  broker.map fun queue =>
    { name := queue.name
      pendingCount := taskCount db .pending queue.name
      queuedCount := taskCount db .queued queue.name
      runningCount := taskCount db .started queue.name
      queueMessageCount := queue.messageCount
      workerCount := queue.consumers }

def isActive (queue : QueueInfo) : Bool :=
  queue.workerCount ≠ 0 || queue.pendingCount ≠ 0 || queue.runningCount ≠ 0 || queue.queuedCount ≠ 0 ||
    queue.queueMessageCount ≠ 0

def activeQueues (db : Database) (broker : List BrokerQueue) : List QueueInfo := (getQueuesInfo db broker).filter isActive

/-- The first model that is not deleted and has the queue name. -/
def findModelFromQueueName (db : Database) (name : Text) : Option Nat :=
  ((db.models.filter fun model => !model.deleted).find? fun model => model.ids.str = name).map ModelRecord.id

def reportedStatuses : List AnalysisStatus :=
  [.new,.inputsGenerationQueued,.inputsGenerationStarted,.ready,.runQueued,.runStarted]

/-- The analyses that are listed for a queue. -/
def queueAnalyses (db : Database) (name : Text) : List AnalysisRecord :=
  let analyses := db.analyses.filter fun analysis => analysis.status ∈ reportedStatuses
  match findModelFromQueueName db name with
  | some model => analyses.filter fun analysis => analysis.model = model
  | none => analyses.filter fun analysis => (db.subTasks.ofAnalysis analysis.id).any (onQueue name)

/-- `AnalysisSerializerWebSocket`. -/
def serialize (db : Database) (analysis : AnalysisRecord) : AnalysisInfo where
  id := analysis.id
  priority := analysis.priority
  subTaskCount := (db.subTasks.ofAnalysis analysis.id).length
  queueNames := ((liveTasks db analysis.id).map fun row => row.queueName.toList).dedup
  totalInQueue := (liveTasks db analysis.id).length

def buildAllQueueStatusMessage (db : Database) (broker : List BrokerQueue) : QueueStatusMessage :=
  (activeQueues db broker).map fun queue => ⟨queue,(queueAnalyses db queue.name).map (serialize db)⟩

/-- The tasks and analyses that are counted for a queue. -/
def counts (states : ModelStates) (queue : Text) : Nat × Nat :=
  ((states.find? fun entry => entry.1 = queue).map fun entry => (entry.2.tasks,entry.2.analyses)).getD 0

section Contributions
variable (lowercase : Lowercase) (wds : List WorkerDeployment) (db : Database) (broker : List BrokerQueue)

/-- The running and pending analyses that the controller finds in the message. -/
def derived : List RunningAnalysis :=
  parseQueuedPending (buildAllQueueStatusMessage db broker) ++ parseRunningAnalyses (buildAllQueueStatusMessage db broker)

/-- What is counted for a queue, with all analyses and without one of them. -/
def countsWith (queue : Text) : Nat × Nat :=
  counts (modelStates lowercase wds (buildAllQueueStatusMessage db broker)) queue

def countsWithout (id : AnalysisId) (queue : Text) : Nat × Nat :=
  counts (aggregateModelStates lowercase wds ((derived db broker).filter fun other => other.key ≠ .analysis id)) queue

/-- Analyses that wait contribute nothing; those that run contribute to the active queues
    of their sub-tasks. -/
structure Contributions : Prop where
  idle : ∀ analysis ∈ db.analyses, analysis.status ∈ [.new,.ready] → liveTasks db analysis.id = [] →
    ∀ queue, countsWith lowercase wds db broker queue = countsWithout lowercase wds db broker analysis.id queue
  busy : ∀ analysis ∈ db.analyses,
    analysis.status ∈ [.inputsGenerationQueued,.inputsGenerationStarted,.runQueued,.runStarted] →
    ∀ row ∈ liveTasks db analysis.id, ∀ queue ∈ activeQueues db broker, onQueue queue.name row →
      (countsWithout lowercase wds db broker analysis.id (lowercase.lower queue.name)).1 <
          (countsWith lowercase wds db broker (lowercase.lower queue.name)).1 ∧
        (countsWithout lowercase wds db broker analysis.id (lowercase.lower queue.name)).2 <
          (countsWith lowercase wds db broker (lowercase.lower queue.name)).2

/-- An analysis that waits has sub-tasks, or the queue of its model is not active. One that
    runs, with a sub-task on an active queue, is listed for an active queue. -/
structure Separated : Prop where
  idle : ∀ analysis ∈ db.analyses, analysis.status ∈ [.new,.ready] → liveTasks db analysis.id = [] →
    db.subTasks.ofAnalysis analysis.id ≠ [] ∨
      ∀ queue ∈ activeQueues db broker, findModelFromQueueName db queue.name ≠ some analysis.model
  busy : ∀ analysis ∈ db.analyses,
    analysis.status ∈ [.inputsGenerationQueued,.inputsGenerationStarted,.runQueued,.runStarted] →
    ∀ row ∈ liveTasks db analysis.id, ∀ queue ∈ activeQueues db broker, onQueue queue.name row →
      ∃ other ∈ activeQueues db broker, findModelFromQueueName db other.name = some analysis.model ∨
        findModelFromQueueName db other.name = none ∧ (db.subTasks.ofAnalysis analysis.id).any (onQueue other.name)

end Contributions

section Sums
variable (lowercase : Lowercase)

/-- What one analysis adds to a queue. -/
def share (queue : Text) (analysis : RunningAnalysis) : Nat × Nat :=
  let times := (analysis.queueNames.map lowercase.lower).count queue
  (times * analysis.tasks,times)

/-- A change to the states of one queue leaves the counts of the others. -/
theorem counts_map (change : ModelState → ModelState) (states : ModelStates) (name queue : Text) :
    counts (states.map fun entry => if entry.1 = name then (entry.1,change entry.2) else entry) queue =
      if name = queue then
        ((states.find? fun entry => entry.1 = queue).map fun entry =>
          ((change entry.2).tasks,(change entry.2).analyses)).getD 0
      else counts states queue := by
  induction states with
  | nil => simp [counts]
  | cons entry rest ih =>
    by_cases here : entry.1 = queue
    · by_cases same : name = queue
      · simp [counts,here,same]
      · simp [counts,here,same,Ne.symm same]
    · by_cases named : entry.1 = name
      · have other : name ≠ queue := named ▸ here
        simp only [counts,List.map_cons,named,if_true,List.find?_cons,other,decide_false] at ih ⊢
        simpa [other] using ih
      · simp only [counts,List.map_cons,named,if_false,List.find?_cons,here,decide_false] at ih ⊢
        exact ih

theorem counts_append (states : ModelStates) (name queue : Text) (state : ModelState)
    (fresh : ∀ entry ∈ states, entry.1 ≠ name) :
    counts (states ++ [(name,state)]) queue =
      counts states queue + if name = queue then (state.tasks,state.analyses) else 0 := by
  by_cases same : name = queue
  · subst same
    have absent : states.find? (fun entry => entry.1 = name) = none :=
      List.find?_eq_none.mpr fun entry listed => by simpa using fresh entry listed
    simp [counts,List.find?_append,absent]
  · cases found : states.find? (fun entry => entry.1 = queue) <;> simp [counts,List.find?_append,found,same]

theorem addAnalysis_counts (analysis : RunningAnalysis) (states : ModelStates) (queueName queue : Text) :
    counts (addAnalysis lowercase analysis states queueName) queue =
      counts states queue + if lowercase.lower queueName = queue then (analysis.tasks,1) else 0 := by
  unfold addAnalysis
  by_cases known : states.any fun entry => entry.1 = lowercase.lower queueName
  · simp only [known,if_true]
    rw [counts_map (fun state => { tasks := state.tasks + analysis.tasks, analyses := state.analyses + 1
                                   priority := max state.priority analysis.priority })]
    by_cases same : lowercase.lower queueName = queue
    · rw [same] at known
      have some_state : (states.find? fun entry => entry.1 = queue).isSome := by
        rw [List.find?_isSome]
        exact List.any_eq_true.mp known
      obtain ⟨entry,found⟩ := Option.isSome_iff_exists.mp some_state
      simp [counts,same,found]
    · simp [same]
  · have fresh : ∀ entry ∈ states, entry.1 ≠ lowercase.lower queueName := by
      intro entry listed same
      exact known (List.any_eq_true.mpr ⟨entry,listed,by simp [same]⟩)
    simp only [known,if_false,Bool.false_eq_true]
    exact counts_append states _ queue _ fresh

/-- All queues of an analysis. -/
theorem analysis_counts (analysis : RunningAnalysis) (states : ModelStates) (queue : Text) :
    counts (analysis.queueNames.foldl (addAnalysis lowercase analysis) states) queue =
      counts states queue + share lowercase queue analysis := by
  unfold share
  induction analysis.queueNames generalizing states with
  | nil => simp
  | cons name rest ih =>
    rw [List.foldl_cons,ih,addAnalysis_counts,List.map_cons,List.count_cons,add_assoc]
    by_cases same : lowercase.lower name = queue
    · simp [same,Nat.add_mul,Nat.add_comm]
    · simp [same]

theorem addMissing_counts (states : ModelStates) (wd : WorkerDeployment) (queue : Text) :
    counts (addMissing lowercase states wd) queue = counts states queue := by
  unfold addMissing
  by_cases known : states.any fun entry => entry.1 = wd.idString lowercase ∨
      entry.1 = (wd.idString lowercase).take ((wd.idString lowercase).length - 3)
  · simp only [known,if_true]
  · have fresh : ∀ entry ∈ states, entry.1 ≠ wd.idString lowercase := by
      intro entry listed same
      exact known (List.any_eq_true.mpr ⟨entry,listed,by simp [same]⟩)
    simp only [known,if_false,Bool.false_eq_true]
    rw [counts_append states _ queue _ fresh]
    simp

/-- The states count what all analyses add. -/
theorem aggregate_counts (wds : List WorkerDeployment) (analyses : List RunningAnalysis) (queue : Text) :
    counts (aggregateModelStates lowercase wds analyses) queue = (analyses.map (share lowercase queue)).sum := by
  have missing : ∀ states, counts (wds.foldl (addMissing lowercase) states) queue = counts states queue := by
    induction wds with
    | nil => exact fun _ => rfl
    | cons wd rest ih => exact fun states => (ih _).trans (addMissing_counts lowercase states wd queue)
  have added : ∀ states, counts (analyses.foldl (fun states analysis =>
      analysis.queueNames.foldl (addAnalysis lowercase analysis) states) states) queue =
        counts states queue + (analyses.map (share lowercase queue)).sum := by
    induction analyses with
    | nil => simp
    | cons analysis rest ih =>
      intro states
      rw [List.foldl_cons,ih,analysis_counts,List.map_cons,List.sum_cons,add_assoc]
  rw [aggregateModelStates,missing,added]
  simp [counts]

end Sums

/-- One more analysis, unless there is one with its key. -/
theorem addOnce_one (analyses : List RunningAnalysis) (analysis : RunningAnalysis) :
    (∀ found ∈ addOnce analyses analysis, found ∈ analyses ∨ found = analysis) ∧
      (∀ other ∈ analyses, other ∈ addOnce analyses analysis) ∧
      ∃ found ∈ addOnce analyses analysis, found.key = analysis.key := by
  unfold addOnce
  split_ifs with known
  · obtain ⟨first,member,same⟩ := List.any_eq_true.mp known
    exact ⟨fun found listed => .inl listed,fun other listed => listed,first,member,by simpa using same⟩
  · exact ⟨by simp,fun other listed => List.mem_append_left _ listed,analysis,by simp,rfl⟩

theorem addOnce_all (analyses others : List RunningAnalysis) :
    (∀ found ∈ others.foldl addOnce analyses, found ∈ analyses ∨ found ∈ others) ∧
      ∀ other ∈ analyses ++ others, ∃ found ∈ others.foldl addOnce analyses, found.key = other.key := by
  induction others generalizing analyses with
  | nil => exact ⟨fun found listed => .inl listed,fun other listed => ⟨other,by simpa using listed,rfl⟩⟩
  | cons analysis rest ih =>
    obtain ⟨sound,complete⟩ := ih (addOnce analyses analysis)
    obtain ⟨added,kept,first,first_listed,first_key⟩ := addOnce_one analyses analysis
    refine ⟨?_,?_⟩
    · intro found listed
      rcases sound found listed with before | later
      · rcases added found before with old | rfl
        · exact .inl old
        · exact .inr List.mem_cons_self
      · exact .inr (List.mem_cons_of_mem _ later)
    · intro other listed
      rcases List.mem_append.mp listed with old | new
      · exact complete other (List.mem_append_left _ (kept other old))
      · rcases List.mem_cons.mp new with rfl | later
        · obtain ⟨found,found_listed,key⟩ := complete first (List.mem_append_left _ first_listed)
          exact ⟨found,found_listed,key.trans first_key⟩
        · exact complete other (List.mem_append_right _ later)

section Found
variable {db : Database} {broker : List BrokerQueue}

theorem runningAnalysis_key {name : Text} {info : AnalysisInfo} {running : RunningAnalysis}
    (runs : runningAnalysis name info = some running) : running.key = .analysis info.id := by
  unfold runningAnalysis at runs
  split_ifs at runs <;> cases runs <;> rfl

theorem pending_key {message : QueueStatusMessage} {running : RunningAnalysis}
    (listed : running ∈ parseQueuedPending message) (id : AnalysisId) : running.key ≠ .analysis id := by
  rcases (addOnce_all [] _).1 running listed with none | found
  · cases none
  · obtain ⟨entry,-,waits⟩ := List.mem_filterMap.mp found
    unfold pendingTask at waits
    split_ifs at waits
    cases waits
    rintro ⟨⟩

/-- An analysis is found where it is listed for an active queue. -/
theorem mem_derived {analysis : AnalysisRecord} (stored : analysis ∈ db.analyses) {running : RunningAnalysis}
    (listed : running ∈ derived db broker) (key : running.key = .analysis analysis.id) :
    ∃ queue ∈ activeQueues db broker, analysis ∈ queueAnalyses db queue.name ∧
      runningAnalysis queue.name (serialize db analysis) = some running := by
  rcases List.mem_append.mp listed with pending | found
  · exact absurd key (pending_key pending analysis.id)
  · rcases (addOnce_all [] _).1 running found with none | member
    · cases none
    · obtain ⟨entry,entry_listed,runs⟩ := List.mem_flatMap.mp member
      obtain ⟨info,info_listed,runs⟩ := List.mem_filterMap.mp runs
      obtain ⟨queue,active,rfl⟩ := List.mem_map.mp entry_listed
      obtain ⟨other,other_listed,rfl⟩ := List.mem_map.mp info_listed
      have same : other.id = analysis.id := AnalysisKey.analysis.inj ((runningAnalysis_key runs).symm.trans key)
      have other_stored : other ∈ db.analyses := by
        unfold queueAnalyses at other_listed
        split at other_listed <;> exact List.mem_of_mem_filter (List.mem_of_mem_filter other_listed)
      obtain rfl := List.inj_on_of_nodup_map db.primaryKey other_stored stored same
      exact ⟨queue,active,other_listed,runs⟩

theorem derived_of_listed {analysis : AnalysisRecord} {queue : QueueInfo} (active : queue ∈ activeQueues db broker)
    (listed : analysis ∈ queueAnalyses db queue.name) {running : RunningAnalysis}
    (runs : runningAnalysis queue.name (serialize db analysis) = some running) :
    ∃ found ∈ derived db broker, found.key = .analysis analysis.id := by
  have member : running ∈ (buildAllQueueStatusMessage db broker).flatMap fun entry =>
      entry.analyses.filterMap (runningAnalysis entry.queue.name) := by
    refine List.mem_flatMap.mpr ⟨_,List.mem_map.mpr ⟨queue,active,rfl⟩,?_⟩
    exact List.mem_filterMap.mpr ⟨_,List.mem_map.mpr ⟨analysis,listed,rfl⟩,runs⟩
  obtain ⟨found,found_listed,same⟩ := (addOnce_all [] _).2 running member
  exact ⟨found,List.mem_append_right _ found_listed,same.trans (runningAnalysis_key runs)⟩

/-- The rules by which an analysis is listed for a queue. -/
theorem mem_queueAnalyses {analysis : AnalysisRecord} {name : Text} (stored : analysis ∈ db.analyses)
    (reported : analysis.status ∈ reportedStatuses) :
    analysis ∈ queueAnalyses db name ↔ findModelFromQueueName db name = some analysis.model ∨
      findModelFromQueueName db name = none ∧ (db.subTasks.ofAnalysis analysis.id).any (onQueue name) := by
  unfold queueAnalyses
  cases found : findModelFromQueueName db name with
  | none => simp [stored,reported]
  | some model =>
    simp only [List.mem_filter,stored,reported,decide_true,and_true,true_and,decide_eq_true_eq,Option.some.injEq,
      reduceCtorEq,false_and,or_false]
    exact eq_comm

end Found

/-! ### Analyses that wait and analyses that run -/

section Main
variable {lowercase : Lowercase} {wds : List WorkerDeployment} {db : Database} {broker : List BrokerQueue}

/-- The counts differ by what is found of the analysis. -/
theorem countsWith_eq (id : AnalysisId) (queue : Text) :
    countsWith lowercase wds db broker queue = countsWithout lowercase wds db broker id queue +
      (((derived db broker).filter fun other => other.key = .analysis id).map (share lowercase queue)).sum := by
  unfold countsWith countsWithout modelStates
  rw [aggregate_counts,aggregate_counts,add_comm]
  have split := List.sum_map_filter_add_sum_map_filter_not (fun other : RunningAnalysis => other.key = .analysis id)
    (share lowercase queue) (derived db broker)
  exact split.symm

/-- An analysis that is found contributes to each of its queues. -/
theorem found_contributes (lowercase : Lowercase) (wds : List WorkerDeployment) {id : AnalysisId}
    {running : RunningAnalysis} (listed : running ∈ derived db broker) (key : running.key = .analysis id)
    {name : Text} (named : name ∈ running.queueNames) (tasks : 0 < running.tasks) :
    (countsWithout lowercase wds db broker id (lowercase.lower name)).1 <
        (countsWith lowercase wds db broker (lowercase.lower name)).1 ∧
      (countsWithout lowercase wds db broker id (lowercase.lower name)).2 <
        (countsWith lowercase wds db broker (lowercase.lower name)).2 := by
  have own : running ∈ (derived db broker).filter fun other => other.key = .analysis id :=
    List.mem_filter.mpr ⟨listed,by simpa using key⟩
  have added : share lowercase (lowercase.lower name) running ∈
      ((derived db broker).filter fun other => other.key = .analysis id).map (share lowercase (lowercase.lower name)) :=
    List.mem_map_of_mem own
  obtain ⟨tasks_most,analyses_most⟩ := List.le_sum_of_mem added
  have counted : 0 < (running.queueNames.map lowercase.lower).count (lowercase.lower name) :=
    List.count_pos_iff.mpr (List.mem_map.mpr ⟨name,named,rfl⟩)
  have some_tasks := Nat.mul_pos counted tasks
  rw [countsWith_eq id]
  simp only [share,Prod.fst_add,Prod.snd_add] at tasks_most analyses_most ⊢
  omega

/-- One that is not found contributes nothing. -/
theorem unfound_counts {id : AnalysisId} (unfound : ∀ running ∈ derived db broker, running.key ≠ .analysis id)
    (queue : Text) : countsWith lowercase wds db broker queue = countsWithout lowercase wds db broker id queue := by
  have none_found : (derived db broker).filter (fun other => other.key = .analysis id) = [] := by
    refine List.filter_eq_nil_iff.mpr ?_
    intro running listed
    simpa using unfound running listed
  rw [countsWith_eq id,none_found]
  simp

/-- An analysis without live sub-tasks runs, for the controller, when it has no sub-tasks. -/
theorem runningAnalysis_idle (name : Text) {analysis : AnalysisRecord} (ended : liveTasks db analysis.id = []) :
    runningAnalysis name (serialize db analysis) =
      if db.subTasks.ofAnalysis analysis.id = [] then some ⟨.analysis analysis.id,1,[name],analysis.priority⟩
      else none := by
  simp [runningAnalysis,serialize,ended]

/-- One with live sub-tasks runs on their queues. -/
theorem runningAnalysis_busy (name : Text) {analysis : AnalysisRecord} {row : SubTask}
    (live : row ∈ liveTasks db analysis.id) :
    runningAnalysis name (serialize db analysis) =
      some ⟨.analysis analysis.id,(db.subTasks.ofAnalysis analysis.id).length,
        ((liveTasks db analysis.id).map fun row => row.queueName.toList).dedup,analysis.priority⟩ := by
  have some_task : (serialize db analysis).subTaskCount ≠ 0 := by
    have member : row ∈ db.subTasks.ofAnalysis analysis.id := List.mem_of_mem_filter live
    exact Nat.ne_of_gt (List.length_pos_of_mem member)
  have some_queue : (serialize db analysis).queueNames ≠ [] :=
    List.ne_nil_of_mem (List.mem_dedup.mpr (List.mem_map.mpr ⟨row,live,rfl⟩))
  have some_live : 0 < (serialize db analysis).totalInQueue := List.length_pos_of_mem live
  rw [runningAnalysis,if_neg some_task,if_pos ⟨some_live,some_queue⟩]
  rfl

theorem idle_iff {analysis : AnalysisRecord} (stored : analysis ∈ db.analyses)
    (waits : analysis.status ∈ [AnalysisStatus.new,.ready]) (ended : liveTasks db analysis.id = []) :
    (∀ queue, countsWith lowercase wds db broker queue = countsWithout lowercase wds db broker analysis.id queue) ↔
      (db.subTasks.ofAnalysis analysis.id ≠ [] ∨
        ∀ queue ∈ activeQueues db broker, findModelFromQueueName db queue.name ≠ some analysis.model) := by
  have reported : analysis.status ∈ reportedStatuses := by
    simp only [List.mem_cons,List.not_mem_nil,or_false] at waits
    rcases waits with new | ready
    · simp [reportedStatuses,new]
    · simp [reportedStatuses,ready]
  constructor
  · intro same
    by_contra both
    simp only [not_or,not_not,not_forall] at both
    obtain ⟨none_left,queue,active,named⟩ := both
    have listed := (mem_queueAnalyses stored reported).mpr (.inl named)
    have runs := runningAnalysis_idle queue.name ended
    rw [if_pos none_left] at runs
    obtain ⟨found,found_listed,key⟩ := derived_of_listed active listed runs
    obtain ⟨other,-,-,other_runs⟩ := mem_derived stored found_listed key
    rw [runningAnalysis_idle other.name ended,if_pos none_left] at other_runs
    cases other_runs
    have more := found_contributes lowercase wds found_listed key List.mem_cons_self Nat.one_pos
    rw [same] at more
    exact Nat.lt_irrefl _ more.1
  · intro condition
    refine unfound_counts ?_
    intro running listed key
    obtain ⟨queue,active,queue_listed,runs⟩ := mem_derived stored listed key
    rw [runningAnalysis_idle queue.name ended] at runs
    split_ifs at runs with none_left
    rcases (mem_queueAnalyses stored reported).mp queue_listed with named | ⟨-,on_queue⟩
    · exact condition.resolve_left (not_not.mpr none_left) queue active named
    · simp [none_left] at on_queue

theorem busy_iff {analysis : AnalysisRecord} (stored : analysis ∈ db.analyses)
    (runs : analysis.status ∈ [AnalysisStatus.inputsGenerationQueued,.inputsGenerationStarted,.runQueued,.runStarted])
    {row : SubTask} (live : row ∈ liveTasks db analysis.id) {queue : QueueInfo} (placed : onQueue queue.name row) :
    ((countsWithout lowercase wds db broker analysis.id (lowercase.lower queue.name)).1 <
          (countsWith lowercase wds db broker (lowercase.lower queue.name)).1 ∧
        (countsWithout lowercase wds db broker analysis.id (lowercase.lower queue.name)).2 <
          (countsWith lowercase wds db broker (lowercase.lower queue.name)).2) ↔
      ∃ other ∈ activeQueues db broker, findModelFromQueueName db other.name = some analysis.model ∨
        findModelFromQueueName db other.name = none ∧ (db.subTasks.ofAnalysis analysis.id).any (onQueue other.name) := by
  have reported : analysis.status ∈ reportedStatuses := by
    simp only [List.mem_cons,List.not_mem_nil,or_false] at runs
    rcases runs with status | status | status | status <;> simp [reportedStatuses,status]
  constructor
  · intro more
    by_contra unlisted
    have unfound : ∀ running ∈ derived db broker, running.key ≠ .analysis analysis.id := by
      intro running listed key
      obtain ⟨other,active,other_listed,-⟩ := mem_derived stored listed key
      exact unlisted ⟨other,active,(mem_queueAnalyses stored reported).mp other_listed⟩
    rw [unfound_counts unfound] at more
    exact Nat.lt_irrefl _ more.1
  · rintro ⟨other,active,rule⟩
    have listed := (mem_queueAnalyses stored reported).mpr rule
    obtain ⟨found,found_listed,key⟩ := derived_of_listed active listed (runningAnalysis_busy other.name live)
    obtain ⟨first,-,-,first_runs⟩ := mem_derived stored found_listed key
    rw [runningAnalysis_busy first.name live] at first_runs
    cases first_runs
    refine found_contributes lowercase wds found_listed key ?_ ?_
    · refine List.mem_dedup.mpr (List.mem_map.mpr ⟨row,live,?_⟩)
      simpa [onQueue] using placed
    · exact List.length_pos_of_mem (List.mem_of_mem_filter live)

end Main

/-- Analyses that wait contribute nothing and those that run contribute to their active
    queues, exactly when the tables and the broker are separated. -/
theorem contributions_iff (lowercase : Lowercase) (wds : List WorkerDeployment) (db : Database)
    (broker : List BrokerQueue) : Contributions lowercase wds db broker ↔ Separated db broker := by
  constructor
  · rintro ⟨idle,busy⟩
    refine ⟨?_,?_⟩
    · intro analysis stored waits ended
      exact (idle_iff stored waits ended).mp (idle analysis stored waits ended)
    · intro analysis stored runs row live queue active placed
      exact (busy_iff stored runs live placed).mp (busy analysis stored runs row live queue active placed)
  · rintro ⟨idle,busy⟩
    refine ⟨?_,?_⟩
    · intro analysis stored waits ended
      exact (idle_iff stored waits ended).mpr (idle analysis stored waits ended)
    · intro analysis stored runs row live queue active placed
      exact (busy_iff stored runs live placed).mpr (busy analysis stored runs row live queue active placed)

/-- A new analysis of a V1 model, of which one worker runs. -/
def newAnalysisV1 : Database where
  models := [⟨1,modelOne,false⟩]
  analyses := [⟨1,1,.new,4⟩]
  subTasks := ⟨[],by decide⟩
  primaryKey := by decide

def oneWorker : List BrokerQueue := [⟨modelOne.str,0,1⟩]

/-- The new analysis is counted as one task of one analysis on the queue of its model. -/
theorem newAnalysisV1_counted :
    countsWith asciiLowercase [] newAnalysisV1 oneWorker (asciiLowercase.lower modelOne.str) = (1,1) ∧
      countsWithout asciiLowercase [] newAnalysisV1 oneWorker 1 (asciiLowercase.lower modelOne.str) = (0,0) ∧
      ¬ Contributions asciiLowercase [] newAnalysisV1 oneWorker := by
  refine ⟨by decide,by decide,?_⟩
  intro contributions
  have same := contributions.idle ⟨1,1,.new,4⟩ (by decide) (by decide) rfl (asciiLowercase.lower modelOne.str)
  exact absurd same (by decide)

end OasisPlatform.QueueStatus
