import OasisPlatform.Autoscaler
import OasisPlatform.SharedRow

/-!
The delayed cleanup next to the messages. While a message is processed, at each place where
the controller awaits an answer, the timer may fire, patches of the cleanup may reach the
cluster and the watch may report. A deployment that gets work is taken off the collected
ones, but a patch that the timer has already started is not stopped, and the deployment is
not patched when the cached replicas are the desired ones. A busy deployment has its
replicas in the end when neither is the case as it is scaled (`busy_deployments_run`).
Only the controller changes the deployments here, and the watch reports what it changed.
-/
namespace OasisPlatform.DelayedCleanup
open OasisPlatform.SharedRow OasisPlatform.PathText OasisPlatform.AutoscalerRules OasisPlatform.WorkerDeployments
open OasisPlatform.Autoscaler
set_option linter.unusedSimpArgs false

structure Labels where
  supplierId : Text
  modelId : Text
  modelVersionId : Text
  apiVersion : Text

def Labels.report (labels : Labels) (name : String) (replicas : Nat) : Report :=
  ⟨name,labels.supplierId,labels.modelId,labels.modelVersionId,labels.apiVersion,replicas⟩

/-- Where the message that is being processed stands: before its next model, with the
    settings of a model loaded, or with a patch awaited. -/
inductive Stage where
  | next
  | loaded (state : ModelState) (i : Nat)
  | patching (name : String) (replicas : Int)
  deriving DecidableEq

/-- The controller with the rest of its message, the patches that the timer has started,
    the cluster with the reports of its watch, and what the last message found desirable. -/
structure State where
  fleet : Fleet
  workersTotal : Int
  rest : List (ModelState × Nat)
  stage : Stage
  stopped : Bool
  zeroing : List String
  cluster : String → Nat
  reports : List Report
  desired : String → Option Int

inductive Event where
  | receive (message : QueueStatusMessage)
  | load (api : OasisApi)
  | scale
  | patched
  | timer
  | zeroed (i : Nat)
  | watch

/-- No message is being processed. -/
def State.idle (state : State) : Bool := state.rest.isEmpty && state.stage = .next

/-- All patches and reports are delivered, and no message is pending. -/
def State.Settled (state : State) : Prop := state.idle = true ∧ state.zeroing = [] ∧ state.reports = []

section Step
variable (lowercase : Lowercase) (config : Config) (labels : String → Labels)

/-- The cluster takes a patch; a change is reported. -/
def State.patch (state : State) (name : String) (replicas : Int) : State :=
  { state with
    cluster := Function.update state.cluster name replicas.toNat
    reports := if state.cluster name = replicas.toNat then state.reports
      else state.reports ++ [(labels name).report name replicas.toNat] }

/-- The settings of the next model are loaded; a model without is passed over. -/
def State.load (state : State) (api : OasisApi) : State :=
  match state.rest with
  | [] => state
  | (model,i) :: rest =>
    match prepare config api state.fleet.wds i with
    | (wds,none) => { state with fleet := { state.fleet with wds := wds }, rest := rest }
    | (wds,some _) => { state with fleet := { state.fleet with wds := wds }, rest := rest, stage := .loaded model i }

/-- `_scale_deployment` until its patch. -/
def State.scale (state : State) (model : ModelState) (wd : WorkerDeployment) (settings : AutoScaling) : State :=
  match desiredReplicas config settings model (config.budget state.workersTotal) with
  | .error _ => { state with rest := [], stage := .next, stopped := true }
  | .ok desired =>
    let scaling := scaleDeployment state.fleet.cleanup wd desired
    { state with
      fleet := { state.fleet with cleanup := scaling.cleanup, timer := state.fleet.timer || scaling.restarts }
      workersTotal := state.workersTotal + scaling.created
      stage := scaling.request.elim .next fun replicas => .patching wd.name replicas
      desired := Function.update state.desired wd.name (some desired) }

/-- The deployment that is to be scaled. -/
def State.current (state : State) : Option (ModelState × WorkerDeployment × AutoScaling) :=
  match state.stage with
  | .loaded model i => (state.fleet.wds[i]?).bind fun wd => wd.autoScaling.map fun settings => (model,wd,settings)
  | _ => none

def State.step (state : State) : Event → State
  | .receive message =>
    if state.idle && !state.stopped then
      { state with
        workersTotal := 0, rest := prioritizedModels lowercase config state.fleet.wds message
        desired := fun _ => none }
    else state
  | .load api => if state.stage = .next then state.load config api else state
  | .scale =>
    match state.current with
    | some (model,wd,settings) => state.scale config model wd settings
    | none => state
  | .patched =>
    match state.stage with
    | .patching name replicas => { state.patch labels name replicas with stage := .next }
    | _ => state
  | .timer =>
    if state.fleet.timer && !state.stopped then
      let cleaned := cleanup state.fleet
      { state with fleet := cleaned.1, zeroing := state.zeroing ++ cleaned.2.map Prod.fst }
    else state
  | .zeroed i =>
    match state.zeroing[i]? with
    | some name => { state.patch labels name 0 with zeroing := state.zeroing.eraseIdx i }
    | none => state
  | .watch =>
    match state.reports with
    | [] => state
    | report :: later =>
      { state with
        fleet := { state.fleet with wds := updateWorker lowercase state.fleet.wds report }, reports := later }

def State.run (state : State) (events : List Event) : State :=
  events.foldl (State.step lowercase config labels) state

/-- As a deployment is scaled to some replicas, no patch of the cleanup is under way for it,
    and when they are the cached ones, the cluster has them. -/
def Calm (state : State) : Event → Prop
  | .scale => ∀ model wd settings, state.current = some (model,wd,settings) →
      ∀ desired, desiredReplicas config settings model (config.budget state.workersTotal) = .ok desired → 0 < desired →
        wd.name ∉ state.zeroing ∧ ((wd.replicas : Int) = desired → (state.cluster wd.name : Int) = desired)
  | _ => True

end Step

/-- Only the deployment that is scaled is collected or taken off. -/
theorem scaleDeployment_cleanup {cleanup : List String} {wd : WorkerDeployment} {desired : Int} {name : String}
    (listed : name ∈ (scaleDeployment cleanup wd desired).cleanup) : name ∈ cleanup ∨ name = wd.name := by
  unfold scaleDeployment at listed
  by_cases positive : 0 < desired
  · simp only [positive,if_true] at listed
    split_ifs at listed <;> exact .inl (List.mem_of_mem_filter listed)
  · simp only [positive,if_false] at listed
    split_ifs at listed with _ old
    · exact .inl listed
    · simpa using listed
    · exact .inl listed

/-- A deployment that is to have replicas is taken off the collected ones, and patched unless
    it has them. -/
theorem scaleDeployment_busy (cleanup : List String) (wd : WorkerDeployment) {desired : Int} (positive : 0 < desired) :
    wd.name ∉ (scaleDeployment cleanup wd desired).cleanup ∧
      ((wd.replicas : Int) = desired ∨ (scaleDeployment cleanup wd desired).request = some desired) := by
  unfold scaleDeployment
  by_cases same : (wd.replicas : Int) = desired <;> simp [same,positive]

theorem scaleDeployment_request {cleanup : List String} {wd : WorkerDeployment} {desired replicas : Int}
    (asked : (scaleDeployment cleanup wd desired).request = some replicas) : replicas = desired ∧ 0 < desired := by
  unfold scaleDeployment at asked
  by_cases same : (wd.replicas : Int) = desired
  · simp [same] at asked
  · by_cases positive : 0 < desired
    · simp [same,positive] at asked
      exact ⟨asked.symm,positive⟩
    · simp [same,positive] at asked

/-! ### Every step -/

/-- A busy deployment is safe from the cleanup, and has its replicas or awaits them. -/
structure Busy (state : State) (name : String) (desired : Int) : Prop where
  uncollected : name ∉ state.fleet.cleanup
  unzeroed : name ∉ state.zeroing
  replicas : (state.cluster name : Int) = desired ∨ state.stage = .patching name desired

structure Safe (state : State) : Prop where
  busy : ∀ name desired, state.desired name = some desired → 0 < desired → Busy state name desired
  awaited : ∀ name replicas, state.stage = .patching name replicas → state.desired name = some replicas ∧ 0 < replicas

section Run
variable {lowercase : Lowercase} {config : Config} {labels : String → Labels} {state : State}

/-- A step that changes none of what `Busy` reads. -/
theorem Busy.congr {after : State} {name : String} {desired : Int} (busy : Busy state name desired)
    (cleanup : after.fleet.cleanup = state.fleet.cleanup) (zeroing : after.zeroing = state.zeroing)
    (cluster : after.cluster name = state.cluster name)
    (stage : state.stage = .patching name desired → after.stage = .patching name desired) :
    Busy after name desired := by
  refine ⟨cleanup ▸ busy.uncollected,zeroing ▸ busy.unzeroed,?_⟩
  rw [cluster]
  exact busy.replicas.imp_right stage

theorem idle_next (idle : state.idle = true) : state.stage = .next := by
  simp only [State.idle,Bool.and_eq_true,decide_eq_true_eq] at idle
  exact idle.2

theorem load_safe (api : OasisApi) (between : state.stage = .next) (safe : Safe state) :
    Safe (state.load config api) := by
  unfold State.load
  split
  · exact safe
  · split
    · exact ⟨fun name desired wanted positive => (safe.busy name desired wanted positive).congr rfl rfl rfl id,
        safe.awaited⟩
    · refine ⟨?_,?_⟩
      · intro name desired wanted positive
        refine (safe.busy name desired wanted positive).congr rfl rfl rfl ?_
        intro patching
        rw [between] at patching
        cases patching
      · rintro name replicas ⟨⟩

theorem scale_safe {model : ModelState} {wd : WorkerDeployment} {settings : AutoScaling}
    (current : state.current = some (model,wd,settings)) (calm : Calm config state .scale) (safe : Safe state) :
    Safe (state.scale config model wd settings) := by
  have waiting : ∀ name replicas, state.stage ≠ .patching name replicas := by
    intro name replicas patching
    simp [State.current,patching] at current
  have holds : ∀ name desired, state.desired name = some desired → 0 < desired →
      (state.cluster name : Int) = desired := fun name desired wanted positive =>
    (safe.busy name desired wanted positive).replicas.resolve_right (waiting name desired)
  unfold State.scale
  cases found : desiredReplicas config settings model (config.budget state.workersTotal) with
  | error error =>
    refine ⟨?_,?_⟩
    · intro name desired wanted positive
      have busy := safe.busy name desired wanted positive
      exact ⟨busy.uncollected,busy.unzeroed,.inl (holds name desired wanted positive)⟩
    · rintro name replicas ⟨⟩
  | ok result =>
    refine ⟨?_,?_⟩
    · intro name desired wanted positive
      by_cases same : name = wd.name
      · subst same
        simp only [Function.update_self,Option.some.injEq] at wanted
        subst wanted
        obtain ⟨unzeroed,cached⟩ := calm model wd settings current result found positive
        obtain ⟨uncollected,has | asked⟩ := scaleDeployment_busy state.fleet.cleanup wd positive
        · exact ⟨uncollected,unzeroed,.inl (cached has)⟩
        · exact ⟨uncollected,unzeroed,.inr (by simp [asked])⟩
      · simp only [Function.update_of_ne same] at wanted
        have busy := safe.busy name desired wanted positive
        refine ⟨?_,busy.unzeroed,.inl (holds name desired wanted positive)⟩
        intro listed
        rcases scaleDeployment_cleanup listed with old | this
        · exact busy.uncollected old
        · exact same this
    · intro name replicas patching
      cases asked : (scaleDeployment state.fleet.cleanup wd result).request with
      | none => simp [asked] at patching
      | some count =>
        obtain ⟨rfl,positive⟩ := scaleDeployment_request asked
        simp only [asked,Option.elim_some,Stage.patching.injEq] at patching
        obtain ⟨rfl,rfl⟩ := patching
        exact ⟨Function.update_self ..,positive⟩

/-- The awaited patch is the one that the message found desirable. -/
theorem patched_safe (labels : String → Labels) {name : String} {replicas : Int}
    (patching : state.stage = .patching name replicas) (safe : Safe state) :
    Safe { state.patch labels name replicas with stage := .next } := by
  obtain ⟨wanted,positive⟩ := safe.awaited name replicas patching
  refine ⟨?_,?_⟩
  · intro other desired otherWanted otherPositive
    have busy := safe.busy other desired otherWanted otherPositive
    refine ⟨busy.uncollected,busy.unzeroed,.inl ?_⟩
    by_cases same : other = name
    · subst same
      have agree : some replicas = some desired := wanted.symm.trans otherWanted
      cases agree
      simp only [State.patch,Function.update_self]
      omega
    · simp only [State.patch,Function.update_of_ne same]
      refine busy.replicas.resolve_right ?_
      rw [patching]
      rintro ⟨⟩
      exact same rfl
  · rintro other count ⟨⟩

/-- The timer starts patches of collected deployments only. -/
theorem timer_safe (safe : Safe state) :
    Safe { state with
      fleet := (cleanup state.fleet).1, zeroing := state.zeroing ++ (cleanup state.fleet).2.map Prod.fst } := by
  refine ⟨?_,safe.awaited⟩
  intro name desired wanted positive
  have busy := safe.busy name desired wanted positive
  have started : (cleanup state.fleet).2.map Prod.fst = state.fleet.cleanup := by
    simp [cleanup,Function.comp_def]
  refine ⟨List.not_mem_nil,?_,busy.replicas⟩
  simp only [started,List.mem_append,not_or]
  exact ⟨busy.unzeroed,busy.uncollected⟩

/-- A patch of the cleanup is one of another deployment. -/
theorem zeroed_safe (labels : String → Labels) {name : String} {i : Nat} (started : state.zeroing[i]? = some name)
    (safe : Safe state) : Safe { state.patch labels name 0 with zeroing := state.zeroing.eraseIdx i } := by
  refine ⟨?_,safe.awaited⟩
  intro other desired wanted positive
  have busy := safe.busy other desired wanted positive
  have different : other ≠ name := by
    rintro rfl
    exact busy.unzeroed (List.mem_of_getElem? started)
  refine ⟨busy.uncollected,fun listed => busy.unzeroed (List.mem_of_mem_eraseIdx listed),?_⟩
  simp only [State.patch,Function.update_of_ne different]
  exact busy.replicas

theorem step_safe (event : Event) (safe : Safe state) (calm : Calm config state event) :
    Safe (state.step lowercase config labels event) := by
  cases event with
  | receive message =>
    simp only [State.step]
    split_ifs with ready
    · have between := idle_next (Bool.and_eq_true_iff.mp ready).1
      refine ⟨?_,?_⟩
      · rintro name desired ⟨⟩
      · intro name replicas patching
        exact absurd (between.symm.trans patching) (by rintro ⟨⟩)
    · exact safe
  | load api =>
    simp only [State.step]
    split_ifs with between
    · exact load_safe api between safe
    · exact safe
  | scale =>
    cases current : state.current with
    | none => simpa [State.step,current] using safe
    | some found =>
      obtain ⟨model,wd,settings⟩ := found
      simpa [State.step,current] using scale_safe current calm safe
  | patched =>
    cases stage : state.stage with
    | patching name replicas => simpa [State.step,stage] using patched_safe labels stage safe
    | _ => simpa [State.step,stage] using safe
  | timer =>
    simp only [State.step]
    split_ifs
    · exact timer_safe safe
    · exact safe
  | zeroed i =>
    cases started : state.zeroing[i]? with
    | none => simpa [State.step,started] using safe
    | some name => simpa [State.step,started] using zeroed_safe labels started safe
  | watch =>
    cases reports : state.reports with
    | nil => simpa [State.step,reports] using safe
    | cons report later =>
      simp only [State.step,reports]
      exact ⟨fun name desired wanted positive => (safe.busy name desired wanted positive).congr rfl rfl rfl id,
        safe.awaited⟩

end Run

section Alone
variable (lowercase : Lowercase) (config : Config) (labels : String → Labels) (api : OasisApi)

/-- What a message does itself. -/
def Event.processes : Event → Bool
  | .load _ | .scale | .patched => true
  | _ => false

def patchAll (cluster : String → Nat) (requests : List (String × Int)) : String → Nat :=
  requests.foldl (fun cluster entry => Function.update cluster entry.1 entry.2.toNat) cluster

/-- The state after a message in which nothing came between. -/
structure Processed (before after : State) (scaled : Scaled) : Prop where
  fleet : after.fleet = scaled.fleet
  cluster : after.cluster = patchAll before.cluster scaled.requests
  stopped : after.stopped = (before.stopped || scaled.raised.isSome)
  idle : after.idle = true

theorem run_cons (state : State) (event : Event) (events : List Event) :
    state.run lowercase config labels (event :: events) =
      (state.step lowercase config labels event).run lowercase config labels events := rfl

/-- A model with settings is loaded and scaled. -/
theorem step_loaded {state : State} {model : ModelState} {i : Nat} {rest : List (ModelState × Nat)}
    {wds : List WorkerDeployment} {wd : WorkerDeployment} {settings : AutoScaling}
    (here : state.rest = (model,i) :: rest) (between : state.stage = .next)
    (prepared : prepare config api state.fleet.wds i = (wds,some (wd,settings))) :
    (state.step lowercase config labels (.load api)).step lowercase config labels .scale =
      State.scale config
        { state with fleet := { state.fleet with wds := wds }, rest := rest, stage := .loaded model i }
        model wd settings := by
  obtain ⟨old,found,-,rfl,loaded⟩ := prepare_found prepared
  obtain ⟨inside,-⟩ := List.getElem?_eq_some_iff.mp found
  simp [State.step,State.load,between,here,prepared,State.current,inside,loaded]

/-- The models of a message are scaled one by one as `_scale_models` has them. -/
theorem models_processed (entries : List (ModelState × Nat)) (state : State) (here : state.rest = entries)
    (between : state.stage = .next) :
    ∃ events, (∀ event ∈ events, event.processes = true) ∧
      Processed state (state.run lowercase config labels events)
        (scaleModels config api state.workersTotal state.fleet entries) := by
  induction entries generalizing state with
  | nil =>
    refine ⟨[],by simp,rfl,rfl,?_,?_⟩
    · simp [State.run,scaleModels]
    · simp [State.idle,State.run,here,between]
  | cons entry rest ih =>
    obtain ⟨model,i⟩ := entry
    cases prepared : prepare config api state.fleet.wds i with
    | mk wds found =>
      cases found with
      | none =>
        obtain ⟨events,processes,processed⟩ := ih
          { state with fleet := { state.fleet with wds := wds }, rest := rest } rfl between
        refine ⟨.load api :: events,by simpa [Event.processes] using processes,?_⟩
        have passed : state.step lowercase config labels (.load api) =
            { state with fleet := { state.fleet with wds := wds }, rest := rest } := by
          simp [State.step,State.load,between,here,prepared]
        rw [run_cons,passed]
        simp only [scaleModels,prepared]
        exact ⟨processed.fleet,processed.cluster,processed.stopped,processed.idle⟩
      | some pair =>
        obtain ⟨wd,settings⟩ := pair
        have loaded := step_loaded lowercase config labels api here between prepared
        cases found : desiredReplicas config settings model (config.budget state.workersTotal) with
        | error error =>
          refine ⟨[.load api,.scale],by simp [Event.processes],?_⟩
          rw [run_cons,run_cons,loaded]
          simp only [scaleModels,prepared,State.scale,found]
          exact ⟨rfl,rfl,by simp [State.run],rfl⟩
        | ok desired =>
          -- the patch that is awaited, if any, reaches the cluster before the next model
          cases asked : (scaleDeployment state.fleet.cleanup wd desired).request with
          | none =>
            obtain ⟨events,processes,processed⟩ := ih (State.scale config
              { state with fleet := { state.fleet with wds := wds }, rest := rest, stage := .loaded model i }
              model wd settings) (by simp [State.scale,found]) (by simp [State.scale,found,asked])
            refine ⟨.load api :: .scale :: events,by simpa [Event.processes] using processes,?_⟩
            rw [run_cons,run_cons,loaded]
            simp only [scaleModels,prepared,found,asked,State.scale] at processed ⊢
            exact ⟨processed.fleet,processed.cluster,processed.stopped,processed.idle⟩
          | some replicas =>
            obtain ⟨events,processes,processed⟩ := ih (State.step lowercase config labels (State.scale config
              { state with fleet := { state.fleet with wds := wds }, rest := rest, stage := .loaded model i }
              model wd settings) .patched) (by simp [State.step,State.scale,State.patch,found,asked])
              (by simp [State.step,State.scale,found,asked])
            refine ⟨.load api :: .scale :: .patched :: events,by simpa [Event.processes] using processes,?_⟩
            rw [run_cons,run_cons,run_cons,loaded]
            simp only [scaleModels,prepared,found,asked,State.scale,State.step,State.patch,Option.elim_some] at processed ⊢
            exact ⟨processed.fleet,processed.cluster,processed.stopped,processed.idle⟩

/-- A message in which nothing comes between has the effect of `processQueueStatusMessage`. -/
theorem message_processed (state : State) (message : QueueStatusMessage) (idle : state.idle = true)
    (goes : state.stopped = false) :
    ∃ events, (∀ event ∈ events, event.processes = true) ∧
      Processed state (state.run lowercase config labels (.receive message :: events))
        (processQueueStatusMessage lowercase config api state.fleet message) := by
  have received : state.step lowercase config labels (.receive message) =
      { state with
        workersTotal := 0, rest := prioritizedModels lowercase config state.fleet.wds message
        desired := fun _ => none } := by
    simp [State.step,idle,goes]
  obtain ⟨events,processes,processed⟩ := models_processed lowercase config labels api
    (prioritizedModels lowercase config state.fleet.wds message)
    (state.step lowercase config labels (.receive message)) (by rw [received]) (by rw [received,idle_next idle])
  refine ⟨events,processes,?_⟩
  rw [received] at processed
  rw [run_cons,received]
  exact ⟨processed.fleet,processed.cluster,processed.stopped,processed.idle⟩

end Alone

/-- The controller starts without messages, with nothing collected. -/
def start (wds : List WorkerDeployment) (cluster : String → Nat) : State :=
  ⟨⟨wds,[],false⟩,0,[],.next,false,[],cluster,[],fun _ => none⟩

theorem start_safe (wds : List WorkerDeployment) (cluster : String → Nat) : Safe (start wds cluster) := by
  refine ⟨?_,?_⟩
  · rintro name desired ⟨⟩
  · rintro name replicas ⟨⟩

/-- After a calm run, when all is delivered, each deployment for which the last message found
    replicas desirable has them. -/
theorem busy_deployments_run (lowercase : Lowercase) (config : Config) (labels : String → Labels)
    (wds : List WorkerDeployment) (cluster : String → Nat) (events : List Event)
    (calm : Along (State.step lowercase config labels) (Calm config) (start wds cluster) events)
    (settled : ((start wds cluster).run lowercase config labels events).Settled) :
    ∀ name desired, ((start wds cluster).run lowercase config labels events).desired name = some desired →
      0 < desired → (((start wds cluster).run lowercase config labels events).cluster name : Int) = desired := by
  intro name desired wanted positive
  have safe : Safe ((start wds cluster).run lowercase config labels events) :=
    calm.invariant (fun state event => step_safe event) (start_safe wds cluster)
  refine (safe.busy name desired wanted positive).replicas.resolve_right ?_
  rw [idle_next settled.1]
  rintro ⟨⟩

def twoWorkers : OasisApi := ⟨fun _ _ _ => some 1,fun _ => some ⟨some .fixedWorkers,some 2,none,none,none⟩⟩

def unlimited : Config := ⟨none,none,false,false⟩

def workerLabels (_ : String) : Labels := ⟨['s'],['m'],['1'],['v','2']⟩

def worker (replicas : Nat) : WorkerDeployment :=
  { name := "worker", supplierId := ['s'], modelId := ['m'], modelVersionId := ['1'], apiVersion := ['v','2']
    replicas := replicas }

def work : QueueStatusMessage :=
  let queueName := ['s','-','m','-','1','-','v','2']
  [⟨⟨queueName,0,1,0,1,0⟩,[⟨1,4,1,[queueName],1⟩]⟩]

/-- Work, no work until the cleanup is over, and work again. -/
def workAgain : List Event :=
  [.receive work,.load twoWorkers,.scale,.patched,.watch,
    .receive [],.load twoWorkers,.scale,.timer,.zeroed 0,.watch,
    .receive work,.load twoWorkers,.scale,.patched,.watch]

theorem workAgain_runs :
    (((start [worker 0] fun _ => 0).run asciiLowercase unlimited workerLabels workAgain).cluster "worker" : Int) =
      2 := by
  refine busy_deployments_run asciiLowercase unlimited workerLabels [worker 0] (fun _ => 0) workAgain ?_
    ⟨rfl,rfl,rfl⟩ "worker" 2 rfl (by decide)
  refine ⟨trivial,trivial,?_,trivial,trivial,trivial,trivial,?_,trivial,trivial,trivial,trivial,trivial,?_,trivial,
    trivial,trivial⟩
  · rintro model wd settings ⟨⟩ desired ⟨⟩ positive
    exact ⟨List.not_mem_nil,by rintro ⟨⟩⟩
  · rintro model wd settings ⟨⟩ desired ⟨⟩ positive
    exact absurd positive (by decide)
  · rintro model wd settings ⟨⟩ desired ⟨⟩ positive
    exact ⟨List.not_mem_nil,by rintro ⟨⟩⟩

def workMeetsCleanup : List Event :=
  [.receive [],.load twoWorkers,.scale,.timer,.receive work,.load twoWorkers,.scale,.zeroed 0,.watch]

/-- Work that arrives when the timer has started the patch to zero: the cached replicas are
    still the desired ones, and the busy deployment is shut down. -/
theorem busy_deployment_shut_down :
    ((start [worker 2] fun _ => 2).run asciiLowercase unlimited workerLabels workMeetsCleanup).Settled ∧
      ((start [worker 2] fun _ => 2).run asciiLowercase unlimited workerLabels workMeetsCleanup).desired "worker" =
        some 2 ∧
      ((start [worker 2] fun _ => 2).run asciiLowercase unlimited workerLabels workMeetsCleanup).cluster "worker" =
        0 := by
  refine ⟨⟨rfl,rfl,rfl⟩,rfl,rfl⟩

end OasisPlatform.DelayedCleanup
