import OasisPlatform.DeploymentCache

/-!
The watch of the worker deployments. Anyone may create, scale and delete deployments in the
cluster while the controller loads settings into its cache; the watch reports the changes in
their order. When all of them are delivered, the cache has the deployments of the cluster, each
once and with its replicas (`cache_follows`). What the controller does with its messages is a run
of such changes (`step_watched`).
-/
namespace OasisPlatform.DeploymentWatch
open OasisPlatform.PathText OasisPlatform.WorkerDeployments OasisPlatform.Autoscaler OasisPlatform.DelayedCleanup
open OasisPlatform.ScalingVerdicts OasisPlatform.DeploymentCache
set_option linter.unusedSimpArgs false

/-- An event of the watch; what is not `DELETED` has the deployment as it is. -/
inductive WatchEvent where
  | updated (report : Report)
  | deleted (name : String)

def updateDeployment (lowercase : Lowercase) (wds : List WorkerDeployment) : WatchEvent → List WorkerDeployment
  | .updated report => updateWorker lowercase wds report
  | .deleted name => delete wds name

def WatchEvent.name : WatchEvent → String
  | .updated report => report.name
  | .deleted name => name

/-- The replicas of the deployment, none when it is gone. -/
def WatchEvent.status : WatchEvent → Option Nat
  | .updated report => some report.replicas
  | .deleted _ => none

/-- The cached deployments, those of the cluster, and the events that are under way. -/
structure Watched where
  wds : List WorkerDeployment
  cluster : String → Option Nat
  events : List WatchEvent

inductive Change where
  /-- a deployment is created or scaled, by the controller or by someone else -/
  | scaled (name : String) (replicas : Nat)
  | removed (name : String)
  /-- a watch that starts lists what is there -/
  | listed (name : String)
  /-- the settings of a cached deployment are loaded -/
  | loaded (i : Nat) (api : OasisApi)
  | watch

section Step
variable (lowercase : Lowercase) (config : Config) (labels : String → Option Labels)

/-- The labels are those of worker deployments, which alone are watched. -/
def Watched.step (state : Watched) : Change → Watched
  | .scaled name replicas =>
    match labels name with
    | none => state
    | some own =>
      if state.cluster name = some replicas then state
      else
        { state with
          cluster := Function.update state.cluster name (some replicas)
          events := state.events ++ [.updated (own.report name replicas)] }
  | .removed name =>
    match state.cluster name with
    | none => state
    | some _ =>
      { state with cluster := Function.update state.cluster name none, events := state.events ++ [.deleted name] }
  | .listed name =>
    match labels name,state.cluster name with
    | some own,some replicas => { state with events := state.events ++ [.updated (own.report name replicas)] }
    | _,_ => state
  | .loaded i api => { state with wds := (prepare config api state.wds i).1 }
  | .watch =>
    match state.events with
    | [] => state
    | event :: later => { state with wds := updateDeployment lowercase state.wds event, events := later }

def Watched.run (state : Watched) (changes : List Change) : Watched :=
  changes.foldl (Watched.step lowercase config labels) state

end Step

/-- Deployments whose labels differ in no more than case are one. -/
def Apart (lowercase : Lowercase) (labels : String → Option Labels) : Prop :=
  ∀ one other own others, labels one = some own → labels other = some others →
    lowercase.lower own.supplierId = lowercase.lower others.supplierId →
    lowercase.lower own.modelId = lowercase.lower others.modelId →
    lowercase.lower own.modelVersionId = lowercase.lower others.modelVersionId →
    lowercase.lower own.apiVersion = lowercase.lower others.apiVersion → one = other

def ids (wd : WorkerDeployment) : Labels := ⟨wd.supplierId,wd.modelId,wd.modelVersionId,wd.apiVersion⟩

/-- The replicas of a deployment once the events are delivered. -/
def latest (events : List WatchEvent) (name : String) (cached : Option Nat) : Option Nat :=
  events.foldl (fun status event => if event.name = name then event.status else status) cached

theorem latest_append (events : List WatchEvent) (event : WatchEvent) (name : String) (cached : Option Nat) :
    latest (events ++ [event]) name cached = if event.name = name then event.status else latest events name cached := by
  simp [latest]

theorem latest_here {event : WatchEvent} {name : String} (same : event.name = name) (later : List WatchEvent)
    (cached : Option Nat) : latest (event :: later) name cached = latest later name event.status := by
  rw [latest,List.foldl_cons,if_pos same]
  rfl

theorem latest_other {event : WatchEvent} {name : String} (other : event.name ≠ name) (later : List WatchEvent)
    (cached : Option Nat) : latest (event :: later) name cached = latest later name cached := by
  rw [latest,List.foldl_cons,if_neg other]
  rfl

/-- The cache has each deployment once, under its labels, and will have those of the cluster when
    the events are delivered. -/
structure Follows (lowercase : Lowercase) (labels : String → Option Labels) (state : Watched) : Prop where
  names : (state.wds.map WorkerDeployment.name).Nodup
  labelled : ∀ wd ∈ state.wds, labels wd.name = some (ids wd)
  reported : ∀ report, .updated report ∈ state.events →
    ∃ own replicas, labels report.name = some own ∧ report = own.report report.name replicas
  cached : ∀ wd ∈ state.wds, state.cluster wd.name = latest state.events wd.name (some wd.replicas)
  missing : ∀ name ∉ state.wds.map WorkerDeployment.name, state.cluster name = latest state.events name none

section Following
variable {lowercase : Lowercase} {config : Config} {labels : String → Option Labels} {state : Watched}

/-- What a change of the cluster and its event leave to be shown. -/
theorem Follows.changed (follows : Follows lowercase labels state) {event : WatchEvent}
    (reported : ∀ report, event = .updated report →
      ∃ own replicas, labels report.name = some own ∧ report = own.report report.name replicas) :
    Follows lowercase labels
      ⟨state.wds,Function.update state.cluster event.name event.status,state.events ++ [event]⟩ := by
  have delivered (name : String) (cached : Option Nat) (before : state.cluster name = latest state.events name cached) :
      Function.update state.cluster event.name event.status name = latest (state.events ++ [event]) name cached := by
    rw [latest_append]
    by_cases same : event.name = name
    · rw [if_pos same,same,Function.update_self]
    · rw [if_neg same,Function.update_of_ne (Ne.symm same),before]
  refine ⟨follows.names,follows.labelled,fun report listed => ?_,?_,?_⟩
  · rcases List.mem_append.mp listed with old | new
    · exact follows.reported report old
    · exact reported report (List.mem_singleton.mp new).symm
  · exact fun wd listed => delivered wd.name _ (follows.cached wd listed)
  · exact fun name absent => delivered name _ (follows.missing name absent)

theorem Follows.loaded (follows : Follows lowercase labels state) (i : Nat) (api : OasisApi) :
    Follows lowercase labels { state with wds := (prepare config api state.wds i).1 } := by
  have same := prepare_bare config api state.wds i
  have names := names_same same
  have loads {wd : WorkerDeployment} (listed : wd ∈ (prepare config api state.wds i).1) :
      ∃ old ∈ state.wds, wd.name = old.name ∧ ids wd = ids old ∧ wd.replicas = old.replicas := by
    rw [prepare_eq] at listed
    obtain ⟨j,there⟩ := List.getElem?_of_mem listed
    rw [List.getElem?_modify] at there
    obtain ⟨old,here,rfl⟩ := Option.map_eq_some_iff.mp there
    refine ⟨old,List.mem_of_getElem? here,?_⟩
    split_ifs
    · have kept := ready_bare config api old
      simp only [bare,WorkerDeployment.mk.injEq] at kept
      obtain ⟨name,supplier,model,version,apiVersion,-⟩ := kept
      exact ⟨name,by simp only [ids,supplier,model,version,apiVersion],ready_replicas config api old⟩
    · exact ⟨rfl,rfl,rfl⟩
  refine ⟨names ▸ follows.names,fun wd listed => ?_,follows.reported,fun wd listed => ?_,fun name absent => ?_⟩
  · obtain ⟨old,there,name,labelled,-⟩ := loads listed
    rw [name,labelled]
    exact follows.labelled old there
  · obtain ⟨old,there,name,-,replicas⟩ := loads listed
    rw [name,replicas]
    exact follows.cached old there
  · exact follows.missing name (names ▸ absent)

/-- The deployment that a report finds is the one that it names. -/
theorem Follows.answers (follows : Follows lowercase labels state) (apart : Apart lowercase labels)
    {wd : WorkerDeployment} (listed : wd ∈ state.wds) {own : Labels} {name : String} (labelled : labels name = some own) :
    WorkerDeployment.answers lowercase own.supplierId own.modelId own.modelVersionId (some own.apiVersion) wd = true ↔
      wd.name = name := by
  have held := follows.labelled wd listed
  simp only [WorkerDeployment.answers,Option.mem_some_iff,forall_eq',decide_eq_true_eq]
  constructor
  · rintro ⟨supplier,model,version,apiVersion⟩
    exact apart wd.name name (ids wd) own held labelled supplier model version apiVersion
  · rintro rfl
    obtain rfl := Option.some.inj (held.symm.trans labelled)
    exact ⟨rfl,rfl,rfl,rfl⟩

/-- A report puts the replicas in the place of those that are cached, or adds the deployment. -/
theorem updateWorker_cases (follows : Follows lowercase labels state) (apart : Apart lowercase labels) {own : Labels}
    {name : String} (labelled : labels name = some own) (replicas : Nat) :
    (∃ i wd, state.wds[i]? = some wd ∧ wd.name = name ∧
        updateWorker lowercase state.wds (own.report name replicas) =
          state.wds.modify i fun wd => withReplicas wd replicas) ∨
      name ∉ state.wds.map WorkerDeployment.name ∧
        ∃ wd, wd.name = name ∧ ids wd = own ∧ wd.replicas = replicas ∧
          updateWorker lowercase state.wds (own.report name replicas) = state.wds ++ [wd] := by
  cases found : getWorkerDeployment lowercase state.wds own.supplierId own.modelId own.modelVersionId
      (some own.apiVersion) with
  | some i =>
    obtain ⟨inside,answers,-⟩ := List.findIdx?_eq_some_iff_getElem.mp found
    refine .inl ⟨i,state.wds[i],List.getElem?_eq_getElem inside,?_,?_⟩
    · exact (follows.answers apart (List.getElem_mem inside) labelled).mp answers
    · simp only [updateWorker,Labels.report,found]
      rfl
  | none =>
    refine .inr ⟨fun listed => ?_,⟨name,own.supplierId,own.modelId,own.modelVersionId,own.apiVersion,none,replicas,none⟩,
      rfl,rfl,rfl,?_⟩
    · obtain ⟨wd,there,named⟩ := List.mem_map.mp listed
      have unanswered := List.findIdx?_eq_none_iff.mp found wd there
      rw [(follows.answers apart there labelled).mpr named] at unanswered
      cases unanswered
    · simp only [updateWorker,Labels.report,found]

/-- The deployments after the replicas of one are changed: that one, and the others as they were. -/
theorem rescaled_cases {wds : List WorkerDeployment} (names : (wds.map WorkerDeployment.name).Nodup) {i : Nat}
    {wd : WorkerDeployment} (here : wds[i]? = some wd) (replicas : Nat) {changed : WorkerDeployment}
    (listed : changed ∈ wds.modify i fun wd => withReplicas wd replicas) :
    changed = withReplicas wd replicas ∨ changed ∈ wds ∧ changed.name ≠ wd.name := by
  obtain ⟨j,there⟩ := List.getElem?_of_mem listed
  rw [List.getElem?_modify] at there
  obtain ⟨old,before,rfl⟩ := Option.map_eq_some_iff.mp there
  by_cases place : i = j
  · subst place
    obtain rfl := Option.some.inj (here.symm.trans before)
    exact .inl (by simp)
  · refine .inr ⟨by simpa [place] using List.mem_of_getElem? before,fun alike => place ?_⟩
    refine (List.getElem?_inj (by simpa using (List.getElem?_eq_some_iff.mp here).1) names).mp ?_
    simp only [List.getElem?_map,here,before,Option.map_some]
    simpa [place] using alike.symm

theorem Follows.later (follows : Follows lowercase labels state) {event : WatchEvent} {later : List WatchEvent}
    (events : state.events = event :: later) (report : Report) (listed : .updated report ∈ later) :
    ∃ own replicas, labels report.name = some own ∧ report = own.report report.name replicas :=
  follows.reported report (events ▸ List.mem_cons_of_mem _ listed)

theorem Follows.rescaled (follows : Follows lowercase labels state) {i : Nat} {wd : WorkerDeployment}
    (here : state.wds[i]? = some wd) {own : Labels} {replicas : Nat} {later : List WatchEvent}
    (events : state.events = .updated (own.report wd.name replicas) :: later) :
    Follows lowercase labels ⟨state.wds.modify i fun wd => withReplicas wd replicas,state.cluster,later⟩ := by
  have names : (state.wds.modify i fun wd => withReplicas wd replicas).map WorkerDeployment.name =
      state.wds.map WorkerDeployment.name := names_same (modify_bare _ i fun _ => rfl)
  have cached := follows.cached
  have missing := follows.missing
  rw [events] at cached missing
  refine ⟨names ▸ follows.names,fun changed listed => ?_,follows.later events,fun changed listed => ?_,
    fun other absent => ?_⟩
  · rcases rescaled_cases follows.names here replicas listed with rfl | ⟨kept,-⟩
    · exact follows.labelled wd (List.mem_of_getElem? here)
    · exact follows.labelled changed kept
  · rcases rescaled_cases follows.names here replicas listed with rfl | ⟨kept,apart⟩
    · exact (cached wd (List.mem_of_getElem? here)).trans (latest_here rfl later _)
    · exact (cached changed kept).trans (latest_other (Ne.symm apart) later _)
  · rw [names] at absent
    refine (missing other absent).trans (latest_other (fun named => absent ?_) later _)
    exact List.mem_map.mpr ⟨wd,List.mem_of_getElem? here,named⟩

theorem Follows.added (follows : Follows lowercase labels state) {wd : WorkerDeployment}
    (absent : wd.name ∉ state.wds.map WorkerDeployment.name) (labelled : labels wd.name = some (ids wd))
    {later : List WatchEvent} (events : state.events = .updated ((ids wd).report wd.name wd.replicas) :: later) :
    Follows lowercase labels ⟨state.wds ++ [wd],state.cluster,later⟩ := by
  have cached := follows.cached
  have missing := follows.missing
  rw [events] at cached missing
  refine ⟨?_,fun changed listed => ?_,follows.later events,fun changed listed => ?_,fun other others => ?_⟩
  · rw [List.map_append,List.map_singleton]
    exact List.nodup_append.mpr ⟨follows.names,List.nodup_singleton _,fun one listed other new same =>
      absent (List.mem_singleton.mp new ▸ same ▸ listed)⟩
  · rcases List.mem_append.mp listed with old | new
    · exact follows.labelled changed old
    · obtain rfl := List.mem_singleton.mp new
      exact labelled
  · rcases List.mem_append.mp listed with old | new
    · refine (cached changed old).trans (latest_other (fun named => absent ?_) later _)
      exact List.mem_map.mpr ⟨changed,old,named.symm⟩
    · obtain rfl := List.mem_singleton.mp new
      exact (missing changed.name absent).trans (latest_here rfl later _)
  · rw [List.map_append,List.mem_append,not_or] at others
    refine (missing other others.1).trans (latest_other (fun named => others.2 ?_) later _)
    exact List.mem_singleton.mpr named.symm

theorem Follows.updated (follows : Follows lowercase labels state) (apart : Apart lowercase labels) {report : Report}
    {later : List WatchEvent} (events : state.events = .updated report :: later) :
    Follows lowercase labels ⟨updateWorker lowercase state.wds report,state.cluster,later⟩ := by
  obtain ⟨own,replicas,labelled,same⟩ := follows.reported report (events ▸ List.mem_cons_self)
  generalize report.name = name at labelled same
  subst same
  rcases updateWorker_cases follows apart labelled replicas with
    ⟨i,wd,here,rfl,written⟩ | ⟨absent,wd,rfl,rfl,rfl,written⟩
  · rw [written]
    exact follows.rescaled here events
  · rw [written]
    exact follows.added absent labelled events

theorem Follows.deleted (follows : Follows lowercase labels state) {name : String} {later : List WatchEvent}
    (events : state.events = .deleted name :: later) :
    Follows lowercase labels ⟨delete state.wds name,state.cluster,later⟩ := by
  have cached := follows.cached
  have missing := follows.missing
  rw [events] at cached missing
  refine ⟨follows.names.sublist (List.filter_sublist.map _),fun wd listed => ?_,fun report listed => ?_,
    fun wd listed => ?_,fun other absent => ?_⟩
  · exact follows.labelled wd (List.mem_of_mem_filter listed)
  · exact follows.reported report (events ▸ List.mem_cons_of_mem _ listed)
  · obtain ⟨kept,apart⟩ := List.mem_filter.mp listed
    exact (cached wd kept).trans (latest_other (Ne.symm (of_decide_eq_true apart)) later _)
  · by_cases same : name = other
    · subst same
      by_cases held : name ∈ state.wds.map WorkerDeployment.name
      · obtain ⟨wd,there,rfl⟩ := List.mem_map.mp held
        exact (cached wd there).trans (latest_here rfl later _)
      · exact (missing name held).trans (latest_here rfl later _)
    · have before : other ∉ state.wds.map WorkerDeployment.name := by
        intro held
        obtain ⟨wd,there,rfl⟩ := List.mem_map.mp held
        exact absent (List.mem_map_of_mem (List.mem_filter.mpr ⟨there,decide_eq_true (Ne.symm same)⟩))
      have apart : (WatchEvent.deleted name).name ≠ other := same
      exact (missing other before).trans (latest_other apart later _)

end Following

/-- The cache has the deployments of the cluster with their replicas, each once and under its
    labels. -/
structure Agrees (labels : String → Option Labels) (state : Watched) : Prop where
  names : (state.wds.map WorkerDeployment.name).Nodup
  labelled : ∀ wd ∈ state.wds, labels wd.name = some (ids wd)
  replicas : ∀ name replicas,
    state.cluster name = some replicas ↔ ∃ wd ∈ state.wds, wd.name = name ∧ wd.replicas = replicas

theorem Agrees.follows {lowercase : Lowercase} {labels : String → Option Labels} {state : Watched}
    (agrees : Agrees labels state) (quiet : state.events = []) : Follows lowercase labels state := by
  refine ⟨agrees.names,agrees.labelled,?_,?_,?_⟩
  · rw [quiet]
    rintro report ⟨⟩
  · intro wd listed
    rw [quiet]
    exact (agrees.replicas wd.name wd.replicas).mpr ⟨wd,listed,rfl,rfl⟩
  · intro name absent
    rw [quiet]
    refine Option.eq_none_iff_forall_ne_some.mpr fun replicas running => ?_
    obtain ⟨wd,listed,rfl,-⟩ := (agrees.replicas name replicas).mp running
    exact absent (List.mem_map_of_mem listed)

theorem Follows.agrees {lowercase : Lowercase} {labels : String → Option Labels} {state : Watched}
    (follows : Follows lowercase labels state) (delivered : state.events = []) : Agrees labels state := by
  have cached := follows.cached
  have missing := follows.missing
  rw [delivered] at cached missing
  refine ⟨follows.names,follows.labelled,fun name replicas => ⟨fun running => ?_,?_⟩⟩
  · by_cases held : name ∈ state.wds.map WorkerDeployment.name
    · obtain ⟨wd,listed,rfl⟩ := List.mem_map.mp held
      exact ⟨wd,listed,rfl,Option.some.inj ((cached wd listed).symm.trans running)⟩
    · cases (missing name held).symm.trans running
  · rintro ⟨wd,listed,rfl,rfl⟩
    exact cached wd listed

/-! ### The messages of the controller -/

/-- What the watch sees of a controller that nobody else interferes with. -/
def watched (state : State) : Watched where
  wds := state.fleet.wds
  cluster := fun name => if name ∈ state.fleet.wds.map WorkerDeployment.name then some (state.cluster name) else none
  events := state.reports.map .updated

/-- The labels of the deployments that are cached. -/
def cachedLabels (labels : String → Labels) (wds : List WorkerDeployment) (name : String) : Option Labels :=
  if name ∈ wds.map WorkerDeployment.name then some (labels name) else none

theorem patch_watched (lowercase : Lowercase) (config : Config) {labels : String → Labels} {state : State} {name : String}
    (known : name ∈ state.fleet.wds.map WorkerDeployment.name) (replicas : Int) :
    watched (state.patch labels name replicas) =
      (watched state).step lowercase config (cachedLabels labels state.fleet.wds) (.scaled name replicas.toNat) := by
  have running : (watched state).cluster name = some (state.cluster name) := if_pos known
  simp only [Watched.step,cachedLabels,if_pos known,running,Option.some.injEq]
  by_cases unchanged : state.cluster name = replicas.toNat
  · rw [if_pos unchanged]
    simp only [watched,State.patch,← unchanged,Function.update_eq_self,if_true]
  · rw [if_neg unchanged]
    simp only [watched,State.patch,if_neg unchanged,List.map_append,List.map_singleton,Watched.mk.injEq,true_and,and_true]
    funext other
    by_cases same : other = name
    · subst same
      simp [known]
    · simp [Function.update_of_ne same]

/-- Each step of the controller is a run of changes: settings that are loaded, deployments that are
    scaled and events that are delivered. -/
theorem step_watched {lowercase : Lowercase} {config : Config} {labels : String → Labels} {state : State}
    (tracked : Tracked lowercase labels state) (event : Event) :
    ∃ changes, watched (state.step lowercase config labels event) =
      (watched state).run lowercase config (cachedLabels labels state.fleet.wds) changes := by
  cases event with
  | receive message =>
    refine ⟨[],?_⟩
    simp only [State.step]
    split_ifs <;> rfl
  | load api =>
    simp only [State.step,State.load]
    split_ifs
    · split
      · exact ⟨[],rfl⟩
      · next model i rest here =>
        refine ⟨[.loaded i api],?_⟩
        have names := names_same (prepare_bare config api state.fleet.wds i)
        split <;> next prepared =>
          rw [prepared] at names
          simp only [watched,Watched.run,List.foldl_cons,List.foldl_nil,Watched.step,prepared,names]
    · exact ⟨[],rfl⟩
  | scale =>
    refine ⟨[],?_⟩
    simp only [State.step,State.scale]
    split
    · split <;> rfl
    · rfl
  | patched =>
    cases stage : state.stage with
    | patching name replicas =>
      refine ⟨[.scaled name replicas.toNat],?_⟩
      simp only [State.step,stage]
      exact patch_watched lowercase config (tracked.patched name replicas stage) replicas
    | _ => exact ⟨[],by simp [State.step,stage,Watched.run]⟩
  | timer =>
    refine ⟨[],?_⟩
    simp only [State.step]
    split_ifs <;> rfl
  | zeroed i =>
    cases started : state.zeroing[i]? with
    | none => exact ⟨[],by simp [State.step,started,Watched.run]⟩
    | some name =>
      refine ⟨[.scaled name 0],?_⟩
      simp only [State.step,started]
      exact patch_watched lowercase config (tracked.collected name (List.mem_append_right _ (List.mem_of_getElem? started))) 0
  | watch =>
    cases reports : state.reports with
    | nil => exact ⟨[],by simp [State.step,reports,Watched.run]⟩
    | cons report later =>
      refine ⟨[.watch],?_⟩
      have bares : (state.step lowercase config labels .watch).fleet.wds.map bare = state.fleet.wds.map bare :=
        step_bare .watch tracked
      have names := names_same bares
      simp only [State.step,reports] at names ⊢
      simp only [watched,Watched.run,List.foldl_cons,List.foldl_nil,Watched.step,reports,List.map_cons,updateDeployment,names]

end OasisPlatform.DeploymentWatch
