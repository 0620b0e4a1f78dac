import Mathlib.Data.List.Dedup
import OasisPlatform.WorkerDeployments

/-!
The auto scaler of the worker controller: from a queue-status message of the API to the
replicas that it asks the cluster for. The message is reduced to the work that waits for
each model; each deployment is then scaled in turn, with what the ones before it leave of
the limit. A deployment without work is not scaled down at once but collected for a
cleanup that a timer starts later.
-/
namespace OasisPlatform.Autoscaler
open OasisPlatform.PathText OasisPlatform.AutoscalerRules OasisPlatform.WorkerDeployments
set_option linter.unusedSimpArgs false

structure QueueInfo where
  name : Text
  pendingCount : Nat
  queuedCount : Nat
  runningCount : Nat
  queueMessageCount : Nat
  workerCount : Nat
  deriving DecidableEq, Repr

/-- An analysis as `AnalysisSerializerWebSocket` writes it: the number of its sub-tasks, and
    the queues and the number of those that are not over. -/
structure AnalysisInfo where
  id : Nat
  priority : Nat
  subTaskCount : Nat
  queueNames : List Text
  totalInQueue : Nat
  deriving DecidableEq, Repr

structure QueueEntry where
  queue : QueueInfo
  analyses : List AnalysisInfo
  deriving DecidableEq, Repr

abbrev QueueStatusMessage := List QueueEntry

/-- `pending-task_<queue>`, or the id of an analysis. -/
inductive AnalysisKey where
  | pendingTask (queueName : Text)
  | analysis (id : Nat)
  deriving DecidableEq, Repr

structure RunningAnalysis where
  key : AnalysisKey
  tasks : Nat
  queueNames : List Text
  priority : Nat
  deriving DecidableEq, Repr

/-- Adds an analysis to a dictionary, unless its key is there. -/
def addOnce (analyses : List RunningAnalysis) (analysis : RunningAnalysis) : List RunningAnalysis :=
  if analyses.any fun other => other.key = analysis.key then analyses else analyses ++ [analysis]

def internalQueues : List Text :=
  [['c','e','l','e','r','y'],['c','e','l','e','r','y','-','v','2'],
    ['t','a','s','k','-','c','o','n','t','r','o','l','l','e','r']]

/-- A queue with messages, or queued sub-tasks, but without analyses. -/
def pendingTask (entry : QueueEntry) : Option RunningAnalysis :=
  if entry.queue.name ∉ internalQueues ∧ 0 < max entry.queue.queuedCount entry.queue.queueMessageCount ∧
      entry.analyses = [] then
    some ⟨.pendingTask entry.queue.name,1,[entry.queue.name],4⟩
  else none

def parseQueuedPending (message : QueueStatusMessage) : List RunningAnalysis :=
  (message.filterMap pendingTask).foldl addOnce []

/-- An analysis without sub-tasks runs as one task, on the queue that it is listed for;
    another one on the queues of its sub-tasks that are not over. -/
def runningAnalysis (queueName : Text) (analysis : AnalysisInfo) : Option RunningAnalysis :=
  if analysis.subTaskCount = 0 then some ⟨.analysis analysis.id,1,[queueName],analysis.priority⟩
  else if 0 < analysis.totalInQueue ∧ analysis.queueNames ≠ [] then
    some ⟨.analysis analysis.id,analysis.subTaskCount,analysis.queueNames,analysis.priority⟩
  else none

def parseRunningAnalyses (message : QueueStatusMessage) : List RunningAnalysis :=
  (message.flatMap fun entry => entry.analyses.filterMap (runningAnalysis entry.queue.name)).foldl addOnce []

abbrev ModelStates := List (Text × ModelState)

/-- Counts an analysis for one of its queues. -/
def addAnalysis (lowercase : Lowercase) (analysis : RunningAnalysis) (states : ModelStates) (queueName : Text) :
    ModelStates :=
  let queueName := lowercase.lower queueName
  if states.any fun entry => entry.1 = queueName then
    states.map fun entry =>
      if entry.1 = queueName then
        (entry.1,{ tasks := entry.2.tasks + analysis.tasks, analyses := entry.2.analyses + 1
                   priority := max entry.2.priority analysis.priority })
      else entry
  else states ++ [(queueName,⟨analysis.tasks,1,analysis.priority⟩)]

/-- A deployment whose queue, with or without its API version, has no state. -/
def addMissing (lowercase : Lowercase) (states : ModelStates) (wd : WorkerDeployment) : ModelStates :=
  let id := wd.idString lowercase
  if states.any fun entry => entry.1 = id ∨ entry.1 = id.take (id.length - 3) then states
  else states ++ [(id,⟨0,0,1⟩)]

def aggregateModelStates (lowercase : Lowercase) (wds : List WorkerDeployment) (analyses : List RunningAnalysis) :
    ModelStates :=
  wds.foldl (addMissing lowercase)
    (analyses.foldl (fun states analysis => analysis.queueNames.foldl (addAnalysis lowercase analysis) states) [])

/-- The model states that the controller derives from a message. -/
def modelStates (lowercase : Lowercase) (wds : List WorkerDeployment) (message : QueueStatusMessage) : ModelStates :=
  aggregateModelStates lowercase wds (parseQueuedPending message ++ parseRunningAnalyses message)

/-- The states of models with a deployment, as its place among the cached ones. -/
def filterModelStatesWithWd (lowercase : Lowercase) (wds : List WorkerDeployment) (states : ModelStates) :
    List (ModelState × Nat) :=
  states.filterMap fun entry => (getWorkerDeploymentByNameId lowercase wds entry.1).map fun i => (entry.2,i)

def filterModelsByApiVersion (wds : List WorkerDeployment) (models : List (ModelState × Nat)) (apiVersion : Text) :
    List (ModelState × Nat) :=
  models.filter fun model => (wds[model.2]?).any fun wd => wd.apiVersion = apiVersion

structure Config where
  prioritizedModelsLimit : Option Nat
  limit : Option Nat
  continueUpdateScaling : Bool
  neverShutdownFixedWorkers : Bool

/-- The highest priorities, where there are several and their number is limited. -/
def getHighestModelPriorities {ι : Type} (config : Config) (models : List (ModelState × ι)) : Option (List Nat) :=
  match config.prioritizedModelsLimit with
  | none | some 0 => none
  | some limit =>
    let priorities := ((models.map fun model => model.1.priority).dedup).mergeSort (fun a b => b ≤ a)
    if 1 < priorities.length then some (priorities.take limit) else none

def clearUnprioritizedModels {ι : Type} (config : Config) (models : List (ModelState × ι)) : List (ModelState × ι) :=
  match getHighestModelPriorities config models with
  | none => models
  | some priorities =>
    models.map fun model => if model.1.priority ∈ priorities then model else (⟨0,0,1⟩,model.2)

/-- The models in the order in which they are scaled. -/
def prioritizedModels (lowercase : Lowercase) (config : Config) (wds : List WorkerDeployment)
    (message : QueueStatusMessage) : List (ModelState × Nat) :=
  let models := filterModelStatesWithWd lowercase wds (modelStates lowercase wds message)
  clearUnprioritizedModels config
    (filterModelsByApiVersion wds models ['v','1'] ++ filterModelsByApiVersion wds models ['v','2'])

/-- What the API answers: the id of a model, and its auto scaling settings if it has any. -/
structure OasisApi where
  getOasisModelId : (supplierId modelId modelVersionId : Text) → Option Nat
  getAutoScaling : Nat → Option AutoScaling

/-- Settings without a strategy: the deployment is left as it is. -/
def WorkerDeployment.unscaled (wd : WorkerDeployment) : Bool := wd.autoScaling.any fun s => s.scalingStrategy.isNone

/-- Loads the settings of a deployment that has none, is at zero, is always updated or has a
    minimum. -/
def loadSettings (config : Config) (api : OasisApi) (wd : WorkerDeployment) : WorkerDeployment :=
  if wd.autoScaling.isNone || wd.replicas = 0 || config.continueUpdateScaling ||
      wd.autoScaling.any (fun s => 0 < s.countMin) then
    match wd.oasisModelId <|> api.getOasisModelId wd.supplierId wd.modelId wd.modelVersionId with
    | none => wd
    | some id => { wd with oasisModelId := some id, autoScaling := api.getAutoScaling id }
  else wd

/-- `replicas_limit`: a limit of zero counts as none. -/
def Config.budget (config : Config) (workersTotal : Int) : Option Int :=
  match config.limit with
  | none | some 0 => none
  | some limit => some (limit - workersTotal)

/-- The desired replicas of `_scale_deployment`: a `ValueError` gives zero, other exceptions
    stop the controller. -/
def desiredReplicas (config : Config) (settings : AutoScaling) (state : ModelState) (limit : Option Int) :
    Except RuleError Int :=
  match getDesiredWorkerCount settings state config.neverShutdownFixedWorkers with
  | .ok count => .ok (limit.elim (count : Int) fun limit => if limit < count then limit else count)
  | .error error => if error.isValueError then .ok 0 else .error error

/-- What `_scale_deployment` does: the collected deployments after it, whether it restarts
    the cleanup timer, the replicas that it asks for and what it returns. -/
structure Scaling where
  cleanup : List String
  restarts : Bool
  request : Option Int
  created : Int
  deriving DecidableEq, Repr

def scaleDeployment (cleanup : List String) (wd : WorkerDeployment) (desired : Int) : Scaling :=
  let cleanup := if 0 < desired then cleanup.filter (· ≠ wd.name) else cleanup
  if (wd.replicas : Int) ≠ desired then
    if 0 < desired then ⟨cleanup,false,some desired,desired⟩
    else ⟨if wd.name ∈ cleanup then cleanup else cleanup ++ [wd.name],true,none,wd.replicas⟩
  else ⟨cleanup,false,none,desired⟩

/-- The cached deployments, those collected for the next cleanup, and whether its timer
    runs. -/
structure Fleet where
  wds : List WorkerDeployment
  cleanup : List String
  timer : Bool

/-- A call of `_scale_deployment`: the limit that it was given and the replicas that it
    found desirable. -/
structure Call where
  limit : Option Int
  desired : Int

/-- What a message brings about: requests to the cluster in order, the calls, and an
    exception that stops the controller. -/
structure Scaled where
  fleet : Fleet
  requests : List (String × Int)
  calls : List Call
  raised : Option RuleError

/-- The deployments with the settings of one of them loaded, and that one with its settings
    when it is to be scaled. -/
def prepare (config : Config) (api : OasisApi) (wds : List WorkerDeployment) (i : Nat) :
    List WorkerDeployment × Option (WorkerDeployment × AutoScaling) :=
  match wds[i]? with
  | none => (wds,none)
  | some wd =>
    if WorkerDeployment.unscaled wd then (wds,none)
    else
      let wd := loadSettings config api wd
      (wds.set i wd,wd.autoScaling.map fun settings => (wd,settings))

/-- Either the deployment is left out, or its settings are loaded. -/
theorem prepare_cases (config : Config) (api : OasisApi) (wds : List WorkerDeployment) (i : Nat) :
    prepare config api wds i = (wds,none) ∨ ∃ old, wds[i]? = some old ∧
      prepare config api wds i = (wds.set i (loadSettings config api old),
        (loadSettings config api old).autoScaling.map fun settings => (loadSettings config api old,settings)) := by
  unfold prepare
  cases found : wds[i]? with
  | none => exact .inl rfl
  | some old =>
    by_cases left : WorkerDeployment.unscaled old = true
    · exact .inl (by simp [left])
    · exact .inr ⟨old,rfl,by simp [left]⟩

/-- A deployment that is to be scaled is in its place with its settings. -/
theorem prepare_found {config : Config} {api : OasisApi} {wds after : List WorkerDeployment} {i : Nat}
    {wd : WorkerDeployment} {settings : AutoScaling}
    (prepared : prepare config api wds i = (after,some (wd,settings))) :
    ∃ old, wds[i]? = some old ∧ wd = loadSettings config api old ∧ after = wds.set i wd ∧
      wd.autoScaling = some settings := by
  rcases prepare_cases config api wds i with left | ⟨old,found,loaded⟩
  · rw [prepared] at left
    cases left
  · rw [prepared] at loaded
    obtain ⟨rfl,scaled⟩ := Prod.mk.inj loaded
    obtain ⟨known,some_settings,same⟩ := Option.map_eq_some_iff.mp scaled.symm
    obtain ⟨rfl,rfl⟩ := Prod.mk.inj same
    exact ⟨old,found,rfl,rfl,some_settings⟩

def scaleModels (config : Config) (api : OasisApi) : Int → Fleet → List (ModelState × Nat) → Scaled
  | _,fleet,[] => ⟨fleet,[],[],none⟩
  | workersTotal,fleet,(state,i) :: rest =>
    match prepare config api fleet.wds i with
    | (wds,none) => scaleModels config api workersTotal { fleet with wds := wds } rest
    | (wds,some (wd,settings)) =>
      let limit := config.budget workersTotal
      match desiredReplicas config settings state limit with
      | .error error => ⟨{ fleet with wds := wds },[],[],some error⟩
      | .ok desired =>
        let scaling := scaleDeployment fleet.cleanup wd desired
        let next := scaleModels config api (workersTotal + scaling.created)
          { wds := wds, cleanup := scaling.cleanup, timer := fleet.timer || scaling.restarts } rest
        { next with
          requests := (scaling.request.map fun replicas => (wd.name,replicas)).toList ++ next.requests
          calls := ⟨limit,desired⟩ :: next.calls }

def processQueueStatusMessage (lowercase : Lowercase) (config : Config) (api : OasisApi) (fleet : Fleet)
    (message : QueueStatusMessage) : Scaled :=
  scaleModels config api 0 fleet (prioritizedModels lowercase config fleet.wds message)

/-- `_cleanup`: asks for no replicas of the collected deployments. -/
def cleanup (fleet : Fleet) : Fleet × List (String × Int) :=
  ({ fleet with cleanup := [], timer := false },fleet.cleanup.map fun name => (name,0))

end OasisPlatform.Autoscaler
