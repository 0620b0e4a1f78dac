import OasisPlatform.ScalingVerdicts

/-!
The cache of worker deployments next to the messages of the controller, which nobody else
interferes with. Messages load settings into it and the watch reports replicas to it, but no
deployment is added to it, dropped from it or takes other ids (`step_bare`), and it will have the
replicas of the cluster when all reports are delivered (`run_tracked`).
-/
namespace OasisPlatform.DeploymentCache
open OasisPlatform.PathText OasisPlatform.AutoscalerRules OasisPlatform.WorkerDeployments
open OasisPlatform.Autoscaler OasisPlatform.DelayedCleanup OasisPlatform.ScalingVerdicts
set_option linter.unusedSimpArgs false

/-- A deployment without what messages and reports change. -/
def bare (wd : WorkerDeployment) : WorkerDeployment :=
  { wd with oasisModelId := none, replicas := 0, autoScaling := none }

/-- Each deployment is found by its own ids, which are the labels of its name. -/
structure Cached (lowercase : Lowercase) (labels : String → Labels) (wds : List WorkerDeployment) : Prop where
  names : (wds.map WorkerDeployment.name).Nodup
  found : ∀ (i : Nat) wd, wds[i]? = some wd →
    getWorkerDeployment lowercase wds wd.supplierId wd.modelId wd.modelVersionId (some wd.apiVersion) = some i
  labelled : ∀ wd ∈ wds, labels wd.name = ⟨wd.supplierId,wd.modelId,wd.modelVersionId,wd.apiVersion⟩

section Bare
variable {lowercase : Lowercase} {labels : String → Labels} {wds after : List WorkerDeployment}

theorem getWorkerDeployment_bare (lowercase : Lowercase) (wds : List WorkerDeployment)
    (supplierId modelId modelVersionId : Text) (apiVersion : Option Text) :
    getWorkerDeployment lowercase (wds.map bare) supplierId modelId modelVersionId apiVersion =
      getWorkerDeployment lowercase wds supplierId modelId modelVersionId apiVersion := by
  rw [getWorkerDeployment,List.findIdx?_map]
  rfl

theorem names_bare (wds : List WorkerDeployment) :
    (wds.map bare).map WorkerDeployment.name = wds.map WorkerDeployment.name := by
  rw [List.map_map]
  rfl

theorem names_same (same : after.map bare = wds.map bare) :
    after.map WorkerDeployment.name = wds.map WorkerDeployment.name := by
  rw [← names_bare after,same,names_bare]

theorem get_same (same : after.map bare = wds.map bare) (i : Nat) : (after[i]?).map bare = (wds[i]?).map bare := by
  rw [← List.getElem?_map,same,List.getElem?_map]

/-- What reads no more than names and ids is the same. -/
theorem Cached.congr (cached : Cached lowercase labels wds) (same : after.map bare = wds.map bare) :
    Cached lowercase labels after := by
  refine ⟨names_same same ▸ cached.names,?_,?_⟩
  · intro i wd here
    have at_i := get_same same i
    rw [here] at at_i
    obtain ⟨old,there,alike⟩ := Option.map_eq_some_iff.mp at_i.symm
    have found := cached.found i old there
    rw [← getWorkerDeployment_bare,← same,getWorkerDeployment_bare] at found
    obtain ⟨_,_,_,_,_,_,_,_⟩ := wd
    obtain ⟨_,_,_,_,_,_,_,_⟩ := old
    simp only [bare,WorkerDeployment.mk.injEq] at alike
    obtain ⟨-,rfl,rfl,rfl,rfl,-⟩ := alike
    exact found
  · intro wd listed
    have kept : bare wd ∈ wds.map bare := same ▸ List.mem_map_of_mem listed
    obtain ⟨old,there,alike⟩ := List.mem_map.mp kept
    have labelled := cached.labelled old there
    obtain ⟨_,_,_,_,_,_,_,_⟩ := wd
    obtain ⟨_,_,_,_,_,_,_,_⟩ := old
    simp only [bare,WorkerDeployment.mk.injEq] at alike
    obtain ⟨rfl,rfl,rfl,rfl,rfl,-⟩ := alike
    exact labelled

/-- Two places of one name are one. -/
theorem Cached.place (cached : Cached lowercase labels wds) {i j : Nat} {one other : WorkerDeployment}
    (here : wds[i]? = some one) (there : wds[j]? = some other) (name : one.name = other.name) : i = j := by
  obtain ⟨inside,-⟩ := List.getElem?_eq_some_iff.mp here
  refine (List.getElem?_inj (by simpa using inside) cached.names).mp ?_
  simp only [List.getElem?_map,here,there,Option.map_some,name]

theorem modify_bare (wds : List WorkerDeployment) (i : Nat) {change : WorkerDeployment → WorkerDeployment}
    (keeps : ∀ wd, bare (change wd) = bare wd) : (wds.modify i change).map bare = wds.map bare := by
  refine List.ext_getElem? fun j => ?_
  rw [List.getElem?_map,List.getElem?_map,List.getElem?_modify]
  by_cases at_i : i = j <;> cases wds[j]? <;> simp [at_i,keeps]

theorem ready_bare (config : Config) (api : OasisApi) (wd : WorkerDeployment) :
    bare (ready config api wd) = bare wd := by
  unfold ready
  split_ifs
  · rfl
  · rcases loadSettings_cases config api wd with ⟨same,_⟩ | ⟨id,_,same⟩ <;> rw [same]
    rfl

theorem ready_replicas (config : Config) (api : OasisApi) (wd : WorkerDeployment) :
    (ready config api wd).replicas = wd.replicas := by
  unfold ready
  split_ifs
  · rfl
  · exact loadSettings_replicas_eq config api wd

theorem prepare_bare (config : Config) (api : OasisApi) (wds : List WorkerDeployment) (i : Nat) :
    (prepare config api wds i).1.map bare = wds.map bare := by
  rw [prepare_eq]
  exact modify_bare wds i (ready_bare config api)

/-- A report of a cached deployment changes its replicas. -/
theorem updateWorker_report (cached : Cached lowercase labels wds) {i : Nat} {wd : WorkerDeployment}
    (here : wds[i]? = some wd) (replicas : Nat) :
    updateWorker lowercase wds ((labels wd.name).report wd.name replicas) =
      wds.modify i fun wd => withReplicas wd replicas := by
  have found := cached.found i wd here
  rw [cached.labelled wd (List.mem_of_getElem? here)]
  simp only [updateWorker,Labels.report,found]
  rfl

theorem bare_apiVersion (i : Nat) (same : after.map bare = wds.map bare) (apiVersion : Text) :
    ((after[i]?).any fun wd => wd.apiVersion = apiVersion) = ((wds[i]?).any fun wd => wd.apiVersion = apiVersion) := by
  have at_i := get_same same i
  cases here : after[i]? <;> cases there : wds[i]? <;> simp_all [bare]

theorem filterModelsByApiVersion_same (same : after.map bare = wds.map bare) (models : List (ModelState × Nat))
    (apiVersion : Text) :
    filterModelsByApiVersion after models apiVersion = filterModelsByApiVersion wds models apiVersion := by
  unfold filterModelsByApiVersion
  exact List.filter_congr fun model _ => bare_apiVersion model.2 same apiVersion

theorem getWorkerDeploymentByNameId_same (same : after.map bare = wds.map bare) (nameId : Text) :
    getWorkerDeploymentByNameId lowercase after nameId = getWorkerDeploymentByNameId lowercase wds nameId := by
  have finds : ∀ a b c d, getWorkerDeployment lowercase after a b c d = getWorkerDeployment lowercase wds a b c d := by
    intro a b c d
    rw [← getWorkerDeployment_bare,same,getWorkerDeployment_bare]
  unfold getWorkerDeploymentByNameId
  split <;> simp only [finds]

theorem aggregateModelStates_same (same : after.map bare = wds.map bare) (analyses : List RunningAnalysis) :
    aggregateModelStates lowercase after analyses = aggregateModelStates lowercase wds analyses := by
  have adds : ∀ (wds : List WorkerDeployment) states,
      wds.foldl (addMissing lowercase) states = (wds.map bare).foldl (addMissing lowercase) states := by
    intro wds states
    rw [List.foldl_map]
    rfl
  rw [aggregateModelStates,adds,same,← adds,aggregateModelStates]

theorem prioritizedModels_same (same : after.map bare = wds.map bare) (config : Config) (message : QueueStatusMessage) :
    prioritizedModels lowercase config after message = prioritizedModels lowercase config wds message := by
  unfold prioritizedModels filterModelStatesWithWd modelStates
  simp only [aggregateModelStates_same same,getWorkerDeploymentByNameId_same same,filterModelsByApiVersion_same same]

end Bare

/-- The replicas of a deployment once the reports are delivered. -/
def latest (reports : List Report) (name : String) (cached : Nat) : Nat :=
  reports.foldl (fun replicas report => if report.name = name then report.replicas else replicas) cached

theorem latest_append (reports : List Report) (report : Report) (name : String) (cached : Nat) :
    latest (reports ++ [report]) name cached =
      if report.name = name then report.replicas else latest reports name cached := by
  simp [latest]

theorem latest_absent {reports : List Report} {name : String} (absent : ∀ report ∈ reports, report.name ≠ name)
    (cached : Nat) : latest reports name cached = cached := by
  induction reports with
  | nil => rfl
  | cons report rest ih =>
    rw [latest,List.foldl_cons,if_neg (absent report List.mem_cons_self)]
    exact ih fun report listed => absent report (List.mem_cons_of_mem _ listed)

/-- The cluster has what the cache will have when the reports are delivered. Patches are those
    of cached deployments, and what is collected waits for the timer. -/
structure Tracked (lowercase : Lowercase) (labels : String → Labels) (state : State) : Prop where
  cached : Cached lowercase labels state.fleet.wds
  reported : ∀ report ∈ state.reports, ∃ wd ∈ state.fleet.wds, ∃ replicas,
    report = (labels wd.name).report wd.name replicas
  follows : ∀ wd ∈ state.fleet.wds, state.cluster wd.name = latest state.reports wd.name wd.replicas
  collected : ∀ name ∈ state.fleet.cleanup ++ state.zeroing, name ∈ state.fleet.wds.map WorkerDeployment.name
  patched : ∀ name replicas, state.stage = .patching name replicas → name ∈ state.fleet.wds.map WorkerDeployment.name
  timed : state.fleet.timer = false → state.fleet.cleanup = []

section Tracking
variable {lowercase : Lowercase} {config : Config} {labels : String → Labels} {state : State}

theorem scaleDeployment_untimed {cleanup : List String} {wd : WorkerDeployment} {desired : Int}
    (empty : cleanup = []) (off : (scaleDeployment cleanup wd desired).restarts = false) :
    (scaleDeployment cleanup wd desired).cleanup = [] := by
  subst empty
  by_cases same : (wd.replicas : Int) = desired <;> by_cases positive : 0 < desired <;>
    simp [scaleDeployment,same,positive] at off ⊢

/-- A patch of a cached deployment is reported when it changes something. -/
theorem patch_tracked {name : String} (replicas : Int) (known : name ∈ state.fleet.wds.map WorkerDeployment.name)
    (tracked : Tracked lowercase labels state) : Tracked lowercase labels (state.patch labels name replicas) := by
  refine ⟨tracked.cached,?_,?_,tracked.collected,tracked.patched,tracked.timed⟩
  · intro report listed
    simp only [State.patch] at listed
    split_ifs at listed with unchanged
    · exact tracked.reported report listed
    · rcases List.mem_append.mp listed with old | new
      · exact tracked.reported report old
      · obtain rfl := List.mem_singleton.mp new
        obtain ⟨wd,there,rfl⟩ := List.mem_map.mp known
        exact ⟨wd,there,_,rfl⟩
  · intro wd listed
    have follows := tracked.follows wd listed
    simp only [State.patch]
    by_cases same : wd.name = name
    · subst same
      rw [Function.update_self]
      split_ifs with unchanged
      · exact unchanged ▸ follows
      · rw [latest_append]
        exact (if_pos rfl).symm
    · rw [Function.update_of_ne same]
      split_ifs with unchanged
      · exact follows
      · rw [latest_append,follows]
        exact (if_neg (Ne.symm same)).symm

/-- The first report is delivered to the deployment that it names. -/
theorem watch_tracked {report : Report} {later : List Report} (reports : state.reports = report :: later)
    (tracked : Tracked lowercase labels state) : Tracked lowercase labels (state.step lowercase config labels .watch) := by
  obtain ⟨wd,listed,replicas,rfl⟩ := tracked.reported report (reports ▸ List.mem_cons_self)
  obtain ⟨i,here⟩ := List.getElem?_of_mem listed
  simp only [State.step,reports,updateWorker_report tracked.cached here]
  have same : (state.fleet.wds.modify i fun wd => withReplicas wd replicas).map bare = state.fleet.wds.map bare :=
    modify_bare _ i fun _ => rfl
  have names := names_same same
  refine ⟨tracked.cached.congr same,?_,?_,names ▸ tracked.collected,names ▸ tracked.patched,tracked.timed⟩
  · intro report reported
    obtain ⟨old,there,count,rfl⟩ := tracked.reported report (reports ▸ List.mem_cons_of_mem _ reported)
    have known : old.name ∈ (state.fleet.wds.modify i fun wd => withReplicas wd replicas).map WorkerDeployment.name :=
      names ▸ List.mem_map_of_mem there
    obtain ⟨other,changed,name⟩ := List.mem_map.mp known
    exact ⟨other,changed,count,by rw [name]⟩
  · intro other changed
    obtain ⟨j,there⟩ := List.getElem?_of_mem changed
    rw [List.getElem?_modify] at there
    obtain ⟨old,at_j,rfl⟩ := Option.map_eq_some_iff.mp there
    have follows := tracked.follows old (List.mem_of_getElem? at_j)
    rw [reports] at follows
    by_cases place : i = j
    · subst place
      obtain rfl : wd = old := Option.some.inj (here.symm.trans at_j)
      simpa [latest,Labels.report,withReplicas] using follows
    · have apart : wd.name ≠ old.name := fun name => place (tracked.cached.place here at_j name)
      simpa [place,latest,Labels.report,apart] using follows

theorem load_tracked (api : OasisApi) (between : state.stage = .next) (tracked : Tracked lowercase labels state) :
    Tracked lowercase labels (state.load config api) := by
  have loads : ∀ (i : Nat) (rest : List (ModelState × Nat)) (stage : Stage),
      (∀ name replicas, stage ≠ .patching name replicas) →
      Tracked lowercase labels { state with
        fleet := { state.fleet with wds := (prepare config api state.fleet.wds i).1 }, rest := rest, stage := stage } := by
    intro i rest stage waits
    have same := prepare_bare config api state.fleet.wds i
    have names := names_same same
    refine ⟨tracked.cached.congr same,?_,?_,names ▸ tracked.collected,?_,tracked.timed⟩
    · intro report listed
      obtain ⟨old,there,count,rfl⟩ := tracked.reported report listed
      obtain ⟨other,changed,name⟩ := List.mem_map.mp (names ▸ List.mem_map_of_mem there)
      exact ⟨other,changed,count,by rw [name]⟩
    · intro wd listed
      rw [prepare_eq] at listed
      obtain ⟨j,there⟩ := List.getElem?_of_mem listed
      rw [List.getElem?_modify] at there
      obtain ⟨old,at_j,rfl⟩ := Option.map_eq_some_iff.mp there
      have follows := tracked.follows old (List.mem_of_getElem? at_j)
      by_cases place : i = j <;> simpa [place,ready_name,ready_replicas] using follows
    · intro name replicas patching
      exact absurd patching (waits name replicas)
  unfold State.load
  split
  · exact tracked
  · next model i rest here =>
    split
    · next wds prepared =>
      have same := loads i rest state.stage (by simp [between])
      rwa [prepared] at same
    · next wds found prepared =>
      have same := loads i rest (.loaded model i) (by simp)
      rwa [prepared] at same

theorem scale_tracked {model : ModelState} {wd : WorkerDeployment} {settings : AutoScaling}
    (current : state.current = some (model,wd,settings)) (tracked : Tracked lowercase labels state) :
    Tracked lowercase labels (state.scale config model wd settings) := by
  have known : wd.name ∈ state.fleet.wds.map WorkerDeployment.name := by
    unfold State.current at current
    split at current
    · obtain ⟨other,there,found⟩ := Option.bind_eq_some_iff.mp current
      obtain ⟨_,_,same⟩ := Option.map_eq_some_iff.mp found
      obtain ⟨rfl,rfl⟩ := (Prod.mk.inj (Prod.mk.inj same).2)
      exact List.mem_map_of_mem (List.mem_of_getElem? there)
    · cases current
  unfold State.scale
  split
  · exact ⟨tracked.cached,tracked.reported,tracked.follows,tracked.collected,by simp,tracked.timed⟩
  · next desired _ =>
    refine ⟨tracked.cached,tracked.reported,tracked.follows,?_,?_,?_⟩
    · intro name listed
      rcases List.mem_append.mp listed with collected | zeroing
      · rcases scaleDeployment_cleanup collected with old | rfl
        · exact tracked.collected name (List.mem_append_left _ old)
        · exact known
      · exact tracked.collected name (List.mem_append_right _ zeroing)
    · intro name replicas patching
      cases asked : (scaleDeployment state.fleet.cleanup wd desired).request with
      | none => simp [asked] at patching
      | some count =>
        simp only [asked,Option.elim_some,Stage.patching.injEq] at patching
        exact patching.1 ▸ known
    · intro off
      simp only [Bool.or_eq_false_iff] at off
      exact scaleDeployment_untimed (tracked.timed off.1) off.2

theorem step_tracked (event : Event) (tracked : Tracked lowercase labels state) :
    Tracked lowercase labels (state.step lowercase config labels event) := by
  cases event with
  | receive message =>
    simp only [State.step]
    split_ifs
    · exact ⟨tracked.cached,tracked.reported,tracked.follows,tracked.collected,tracked.patched,tracked.timed⟩
    · exact tracked
  | load api =>
    simp only [State.step]
    split_ifs with between
    · exact load_tracked api between tracked
    · exact tracked
  | scale =>
    cases current : state.current with
    | none => simpa [State.step,current] using tracked
    | some found =>
      obtain ⟨model,wd,settings⟩ := found
      simpa [State.step,current] using scale_tracked current tracked
  | patched =>
    cases stage : state.stage with
    | patching name replicas =>
      simp only [State.step,stage]
      have kept := patch_tracked replicas (tracked.patched name replicas stage) tracked
      exact ⟨kept.cached,kept.reported,kept.follows,kept.collected,by simp,kept.timed⟩
    | _ => simpa [State.step,stage] using tracked
  | timer =>
    simp only [State.step]
    split_ifs
    · refine ⟨tracked.cached,tracked.reported,tracked.follows,?_,tracked.patched,fun _ => rfl⟩
      intro name listed
      simp only [cleanup,List.map_map,Function.comp_def,List.map_id',List.nil_append] at listed
      exact tracked.collected name (List.mem_append.mpr (List.mem_append.mp listed).symm)
    · exact tracked
  | zeroed i =>
    cases started : state.zeroing[i]? with
    | none => simpa [State.step,started] using tracked
    | some name =>
      simp only [State.step,started]
      have known := tracked.collected name (List.mem_append_right _ (List.mem_of_getElem? started))
      have kept := patch_tracked 0 known tracked
      refine ⟨kept.cached,kept.reported,kept.follows,?_,kept.patched,kept.timed⟩
      intro other listed
      refine tracked.collected other (List.mem_append.mpr ?_)
      exact (List.mem_append.mp listed).imp_right List.mem_of_mem_eraseIdx
  | watch =>
    cases reports : state.reports with
    | nil => simpa [State.step,reports] using tracked
    | cons report later => exact watch_tracked reports tracked

/-- No step adds or drops a deployment, or changes its ids. -/
theorem step_bare (event : Event) (tracked : Tracked lowercase labels state) :
    (state.step lowercase config labels event).fleet.wds.map bare = state.fleet.wds.map bare := by
  cases event with
  | receive message =>
    simp only [State.step]
    split_ifs <;> rfl
  | load api =>
    simp only [State.step,State.load]
    split_ifs
    · split
      · rfl
      · next model i rest here =>
        have same := prepare_bare config api state.fleet.wds i
        split <;> next prepared => rwa [prepared] at same
    · rfl
  | scale =>
    simp only [State.step,State.scale]
    split
    · split <;> rfl
    · rfl
  | patched =>
    simp only [State.step,State.patch]
    split <;> rfl
  | timer =>
    simp only [State.step]
    split_ifs <;> rfl
  | zeroed i =>
    simp only [State.step,State.patch]
    split <;> rfl
  | watch =>
    cases reports : state.reports with
    | nil => simp [State.step,reports]
    | cons report later =>
      obtain ⟨wd,listed,replicas,rfl⟩ := tracked.reported report (reports ▸ List.mem_cons_self)
      obtain ⟨i,here⟩ := List.getElem?_of_mem listed
      simp only [State.step,reports,updateWorker_report tracked.cached here]
      exact modify_bare _ i fun _ => rfl

theorem run_tracked (events : List Event) (tracked : Tracked lowercase labels state) :
    Tracked lowercase labels (state.run lowercase config labels events) := by
  induction events generalizing state with
  | nil => exact tracked
  | cons event rest ih => exact ih (step_tracked event tracked)

theorem run_bare (events : List Event) (tracked : Tracked lowercase labels state) :
    (state.run lowercase config labels events).fleet.wds.map bare = state.fleet.wds.map bare := by
  induction events generalizing state with
  | nil => rfl
  | cons event rest ih => exact (ih (step_tracked event tracked)).trans (step_bare event tracked)

end Tracking

theorem start_tracked {lowercase : Lowercase} {labels : String → Labels} {wds : List WorkerDeployment}
    {cluster : String → Nat} (cached : Cached lowercase labels wds)
    (agrees : ∀ wd ∈ wds, cluster wd.name = wd.replicas) : Tracked lowercase labels (start wds cluster) :=
  ⟨cached,by rintro report ⟨⟩,agrees,by rintro name ⟨⟩,by rintro name replicas ⟨⟩,fun _ => rfl⟩

def twoDeployments : List WorkerDeployment :=
  [⟨"worker-a",['s'],['m'],['1'],['v','2'],none,0,none⟩,⟨"worker-b",['s'],['m'],['2'],['v','2'],none,1,none⟩]

def twoLabels (name : String) : Labels :=
  if name = "worker-a" then ⟨['s'],['m'],['1'],['v','2']⟩ else ⟨['s'],['m'],['2'],['v','2']⟩

theorem twoDeployments_cached : Cached asciiLowercase twoLabels twoDeployments := by
  refine ⟨by decide,?_,by simp [twoDeployments,twoLabels]⟩
  intro i wd here
  obtain ⟨inside,rfl⟩ := List.getElem?_eq_some_iff.mp here
  have place : i = 0 ∨ i = 1 := by
    simp only [twoDeployments,List.length_cons,List.length_nil] at inside
    omega
  rcases place with rfl | rfl
  · decide +revert
  · decide +revert

end OasisPlatform.DeploymentCache
