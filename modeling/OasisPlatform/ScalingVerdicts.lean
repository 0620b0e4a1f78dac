import OasisPlatform.DelayedCleanup
import OasisPlatform.Rationing

/-!
What a queue-status message decides, by the models that it reaches: the workers that each
demands and the replicas that are found desirable (`verdicts`). The models are the claimants of
the limit: each gets its share of it (`desired_granted`), and when the replicas are those of the
message before, the same message is a next round (`verdicts_next`).
-/
namespace OasisPlatform.ScalingVerdicts
open OasisPlatform.PathText OasisPlatform.AutoscalerRules OasisPlatform.WorkerDeployments
open OasisPlatform.Autoscaler OasisPlatform.DelayedCleanup OasisPlatform.Rationing
set_option linter.unusedSimpArgs false

/-- The limit, where it is not zero. -/
def ceiling (config : Config) : Option Int :=
  match config.limit with
  | none | some 0 => none
  | some limit => some limit

/-- The workers that a model demands. -/
def demand (config : Config) (settings : AutoScaling) (model : ModelState) : Except RuleError Nat :=
  match getDesiredWorkerCount settings model config.neverShutdownFixedWorkers with
  | .ok count => .ok count
  | .error error => if error.isValueError then .ok 0 else .error error

/-- A deployment that a message scales, the workers that its model demands and the replicas
    that are found desirable. -/
structure Verdict where
  wd : WorkerDeployment
  demand : Nat
  desired : Int

def Verdict.claimant (verdict : Verdict) : Claimant := ⟨verdict.wd.replicas,verdict.demand⟩

/-- The replicas that the cluster is asked for. -/
def Verdict.request (verdict : Verdict) : Option (String × Int) :=
  if (verdict.wd.replicas : Int) ≠ verdict.desired ∧ 0 < verdict.desired then
    some (verdict.wd.name,verdict.desired)
  else none

section Message
variable (config : Config) (api : OasisApi)

def verdicts : Int → List WorkerDeployment → List (ModelState × Nat) → List Verdict
  | _,_,[] => []
  | used,wds,(model,i) :: rest =>
    match prepare config api wds i with
    | (wds,none) => verdicts used wds rest
    | (wds,some (wd,settings)) =>
      match demand config settings model,desiredReplicas config settings model (config.budget used) with
      | .ok demand,.ok desired => ⟨wd,demand,desired⟩ :: verdicts (used + counted wd.replicas desired) wds rest
      | _,_ => []

/-- The deployments with the settings of those that a message reaches loaded. -/
def loaded (wds : List WorkerDeployment) (entries : List (ModelState × Nat)) : List WorkerDeployment :=
  entries.foldl (fun wds entry => (prepare config api wds entry.2).1) wds

variable {config api}

theorem demand_cases (config : Config) (settings : AutoScaling) (model : ModelState) (limit : Option Int) :
    (∃ count desired, demand config settings model = .ok count ∧
      desiredReplicas config settings model limit = .ok desired) ∨
    ∃ error, demand config settings model = .error error ∧
      desiredReplicas config settings model limit = .error error := by
  unfold demand desiredReplicas
  cases getDesiredWorkerCount settings model config.neverShutdownFixedWorkers with
  | ok count => exact .inl ⟨_,_,rfl,rfl⟩
  | error error =>
    by_cases value : error.isValueError = true
    · exact .inl ⟨0,0,by simp [value],by simp [value]⟩
    · exact .inr ⟨error,by simp [value],by simp [value]⟩

theorem scaleDeployment_created (cleanup : List String) (wd : WorkerDeployment) (desired : Int) :
    (scaleDeployment cleanup wd desired).created = counted wd.replicas desired := by
  unfold scaleDeployment counted
  split_ifs <;> simp_all

theorem scaleDeployment_asks (cleanup : List String) (wd : WorkerDeployment) (demand : Nat) (desired : Int) :
    (scaleDeployment cleanup wd desired).request.map (fun replicas => (wd.name,replicas)) =
      (Verdict.mk wd demand desired).request := by
  unfold scaleDeployment Verdict.request
  by_cases same : (wd.replicas : Int) = desired <;> by_cases positive : 0 < desired <;> simp [same,positive]

/-- A message that does not stop the controller asks for what its verdicts say. -/
theorem scaleModels_verdicts {used : Int} {fleet : Fleet} {entries : List (ModelState × Nat)}
    (goes : (scaleModels config api used fleet entries).raised = none) :
    let scaled := scaleModels config api used fleet entries
    let found := verdicts config api used fleet.wds entries
    scaled.requests = found.filterMap Verdict.request ∧ scaled.fleet.wds = loaded config api fleet.wds entries := by
  induction entries generalizing used fleet with
  | nil => exact ⟨rfl,rfl⟩
  | cons entry rest ih =>
    obtain ⟨model,i⟩ := entry
    cases prepared : prepare config api fleet.wds i with
    | mk wds scaled =>
      cases scaled with
      | none =>
        simp only [scaleModels,prepared] at goes
        simpa only [scaleModels,prepared,verdicts,loaded,List.foldl_cons] using ih goes
      | some pair =>
        obtain ⟨wd,settings⟩ := pair
        rcases demand_cases config settings model (config.budget used) with
          ⟨count,desired,demands,desires⟩ | ⟨error,demands,desires⟩
        · have created := scaleDeployment_created fleet.cleanup wd desired
          have reached : loaded config api fleet.wds ((model,i) :: rest) = loaded config api wds rest := by
            simp only [loaded,List.foldl_cons,prepared]
          simp only [scaleModels,prepared,desires,created] at goes
          obtain ⟨requests,kept⟩ := ih goes
          rw [reached]
          simp only [scaleModels,prepared,desires,demands,verdicts,created]
          refine ⟨?_,kept⟩
          rw [scaleDeployment_asks fleet.cleanup wd count desired,List.filterMap_cons,requests]
          cases (Verdict.mk wd count desired).request <;> rfl
        · simp only [scaleModels,prepared,desires] at goes
          cases goes

theorem budget_eq (config : Config) (used : Int) : config.budget used = (ceiling config).map (· - used) := by
  unfold Config.budget ceiling
  rcases config.limit with _ | _ | limit <;> rfl

/-- A model gets its share of the limit; one whose rules fail is to have nothing, also where
    the limit is exceeded. -/
def Granted (limit : Option Int) (used : Int) (verdict : Verdict) : Prop :=
  verdict.desired = share limit used verdict.demand ∨ verdict.demand = 0 ∧ verdict.desired = 0

theorem desired_granted {settings : AutoScaling} {model : ModelState} {used : Int} {count : Nat} {desired : Int}
    (wd : WorkerDeployment) (demands : demand config settings model = .ok count)
    (desires : desiredReplicas config settings model (config.budget used) = .ok desired) :
    Granted (ceiling config) used ⟨wd,count,desired⟩ := by
  rw [budget_eq] at desires
  unfold demand at demands
  unfold desiredReplicas at desires
  cases counts : getDesiredWorkerCount settings model config.neverShutdownFixedWorkers with
  | ok workers =>
    rw [counts] at demands desires
    cases demands
    cases desires
    left
    unfold share
    cases ceiling config with
    | none => rfl
    | some limit =>
      simp only [Option.map_some,Option.elim_some]
      split_ifs <;> omega
  | error error =>
    rw [counts] at demands desires
    dsimp only at demands desires
    split_ifs at demands desires
    cases demands
    cases desires
    exact .inr ⟨rfl,rfl⟩

theorem Granted.counted {limit : Option Int} {used : Int} {verdict : Verdict} (granted : Granted limit used verdict) :
    counted verdict.wd.replicas verdict.desired = counted verdict.wd.replicas (share limit used verdict.demand) ∧
      verdict.desired.toNat = (share limit used verdict.demand).toNat := by
  rcases granted with same | ⟨idle,nothing⟩
  · rw [same]
    exact ⟨rfl,rfl⟩
  · have most := share_le limit used 0
    rw [idle,nothing]
    unfold Rationing.counted
    constructor
    · split_ifs <;> omega
    · omega

/-! ### The next message -/

/-- The settings of a deployment are those that the API has. -/
def Current (api : OasisApi) (wd : WorkerDeployment) : Prop :=
  ∀ settings, wd.autoScaling = some settings →
    ∃ id, wd.oasisModelId = some id ∧ api.getAutoScaling id = some settings

/-- A deployment after a message that reaches it. -/
def ready (config : Config) (api : OasisApi) (wd : WorkerDeployment) : WorkerDeployment :=
  if WorkerDeployment.unscaled wd then wd else loadSettings config api wd

def withReplicas (wd : WorkerDeployment) (replicas : Nat) : WorkerDeployment := {wd with replicas := replicas}

theorem loadSettings_cases (config : Config) (api : OasisApi) (wd : WorkerDeployment) :
    (loadSettings config api wd = wd ∧
      (wd.autoScaling.isSome ∨ (wd.oasisModelId <|> api.getOasisModelId wd.supplierId wd.modelId wd.modelVersionId) = none)) ∨
    ∃ id, (wd.oasisModelId <|> api.getOasisModelId wd.supplierId wd.modelId wd.modelVersionId) = some id ∧
      loadSettings config api wd = {wd with oasisModelId := some id, autoScaling := api.getAutoScaling id} := by
  unfold loadSettings
  by_cases loads : (wd.autoScaling.isNone || wd.replicas = 0 || config.continueUpdateScaling ||
      wd.autoScaling.any fun s => 0 < s.countMin) = true
  · rw [if_pos loads]
    cases found : wd.oasisModelId <|> api.getOasisModelId wd.supplierId wd.modelId wd.modelVersionId with
    | none => exact .inl ⟨rfl,.inr rfl⟩
    | some id => exact .inr ⟨id,rfl,rfl⟩
  · rw [if_neg loads]
    refine .inl ⟨rfl,.inl ?_⟩
    cases some_settings : wd.autoScaling with
    | none => simp [some_settings] at loads
    | some settings => rfl

theorem loadSettings_current {wd : WorkerDeployment} (current : Current api wd) :
    Current api (loadSettings config api wd) := by
  rcases loadSettings_cases config api wd with ⟨same,_⟩ | ⟨id,_,same⟩
  · rw [same]
    exact current
  · rw [same]
    exact fun settings found => ⟨id,rfl,found⟩

/-- Settings that are loaded stay as they are, whatever the replicas. -/
theorem loadSettings_again (config : Config) {wd : WorkerDeployment} (current : Current api wd) (replicas : Nat) :
    loadSettings config api (withReplicas (loadSettings config api wd) replicas) =
      withReplicas (loadSettings config api wd) replicas := by
  rcases loadSettings_cases config api (withReplicas (loadSettings config api wd) replicas) with
    ⟨same,_⟩ | ⟨id,found,same⟩
  · exact same
  · rw [same]
    -- loading once more finds the id and the settings of the first time
    rcases loadSettings_cases config api wd with ⟨first,known | unknown⟩ | ⟨old,_,first⟩
    · obtain ⟨settings,some_settings⟩ := Option.isSome_iff_exists.mp known
      obtain ⟨model,has,api_has⟩ := current settings some_settings
      rw [first] at found ⊢
      simp only [withReplicas,has] at found
      obtain rfl : model = id := Option.some.inj found
      rw [api_has,← some_settings]
      cases wd
      cases has
      rfl
    · rw [first] at found
      exact absurd (unknown.symm.trans found) (by simp)
    · rw [first] at found ⊢
      obtain rfl : old = id := Option.some.inj found
      rfl

/-- The deployment that a message scales at a place, with its settings. -/
def scaledAt (config : Config) (api : OasisApi) (wds : List WorkerDeployment) (i : Nat) :
    Option (WorkerDeployment × AutoScaling) :=
  (wds[i]?).bind fun wd =>
    if WorkerDeployment.unscaled wd then none
    else (loadSettings config api wd).autoScaling.map fun settings => (loadSettings config api wd,settings)

theorem prepare_eq (config : Config) (api : OasisApi) (wds : List WorkerDeployment) (i : Nat) :
    prepare config api wds i = (wds.modify i (ready config api),scaledAt config api wds i) := by
  unfold prepare scaledAt
  cases found : wds[i]? with
  | none => rw [List.modify_eq_self (List.getElem?_eq_none_iff.mp found)]; rfl
  | some wd =>
    obtain ⟨inside,here⟩ := List.getElem?_eq_some_iff.mp found
    have changed : wds.modify i (ready config api) = wds.set i (ready config api wd) := by
      refine List.ext_getElem? fun j => ?_
      rw [List.getElem?_modify,List.getElem?_set]
      by_cases at_i : i = j
      · subst at_i
        simp [inside,here]
      · simp [at_i]
    rw [changed]
    by_cases left : WorkerDeployment.unscaled wd = true
    · have same : wds.set i wd = wds := by rw [← here,List.set_getElem_self]
      simp [left,ready,same]
    · simp [left,ready]

theorem scaledAt_congr {wds other : List WorkerDeployment} {i : Nat} (same : wds[i]? = other[i]?) :
    scaledAt config api wds i = scaledAt config api other i := by
  rw [scaledAt,scaledAt,same]

theorem getElem?_ready {wds : List WorkerDeployment} {i j : Nat} (apart : i ≠ j) :
    (prepare config api wds i).1[j]? = wds[j]? := by
  rw [prepare_eq]
  exact List.getElem?_modify_ne _ wds apart

theorem loaded_get (wds : List WorkerDeployment) {entries : List (ModelState × Nat)}
    (apart : (entries.map Prod.snd).Nodup) (j : Nat) :
    (loaded config api wds entries)[j]? =
      if j ∈ entries.map Prod.snd then (wds[j]?).map (ready config api) else wds[j]? := by
  induction entries generalizing wds with
  | nil => rfl
  | cons entry rest ih =>
    obtain ⟨fresh,others⟩ := List.nodup_cons.mp apart
    have goes := ih (prepare config api wds entry.2).1 others
    rw [loaded,List.foldl_cons,← loaded,goes,List.map_cons]
    by_cases here : j = entry.2
    · subst here
      rw [if_neg fresh,if_pos List.mem_cons_self,prepare_eq]
      exact List.getElem?_modify_eq ..
    · rw [getElem?_ready (Ne.symm here)]
      simp only [List.mem_cons,here,false_or]

/-- Only the deployments that the entries name decide. -/
theorem verdicts_congr {used : Int} {wds other : List WorkerDeployment} {entries : List (ModelState × Nat)}
    (apart : (entries.map Prod.snd).Nodup) (same : ∀ i ∈ entries.map Prod.snd, wds[i]? = other[i]?) :
    verdicts config api used wds entries = verdicts config api used other entries := by
  induction entries generalizing used wds other with
  | nil => rfl
  | cons entry rest ih =>
    obtain ⟨model,i⟩ := entry
    obtain ⟨fresh,others⟩ := List.nodup_cons.mp apart
    have later : ∀ used, verdicts config api used (wds.modify i (ready config api)) rest =
        verdicts config api used (other.modify i (ready config api)) rest := by
      intro used
      refine ih others fun j listed => ?_
      have away : i ≠ j := fun same => fresh (same ▸ listed)
      rw [List.getElem?_modify_ne _ _ away,List.getElem?_modify_ne _ _ away]
      exact same j (List.mem_cons_of_mem _ listed)
    have here : scaledAt config api wds i = scaledAt config api other i := scaledAt_congr (same i List.mem_cons_self)
    simp only [verdicts,prepare_eq,here]
    cases scaledAt config api other i <;> simp only [later]

/-- The verdict of the first model, and those of the rest, which it leaves alone. -/
theorem verdicts_cons {used : Int} {wds : List WorkerDeployment} {model : ModelState} {i : Nat}
    {rest : List (ModelState × Nat)} (apart : (((model,i) :: rest).map Prod.snd).Nodup) :
    verdicts config api used wds ((model,i) :: rest) =
      match scaledAt config api wds i with
      | none => verdicts config api used wds rest
      | some (wd,settings) =>
        match demand config settings model,desiredReplicas config settings model (config.budget used) with
        | .ok demand,.ok desired =>
          ⟨wd,demand,desired⟩ :: verdicts config api (used + counted wd.replicas desired) wds rest
        | _,_ => [] := by
  obtain ⟨fresh,others⟩ := List.nodup_cons.mp apart
  have later : ∀ used, verdicts config api used (wds.modify i (ready config api)) rest =
      verdicts config api used wds rest := by
    intro used
    refine verdicts_congr others fun j listed => ?_
    exact List.getElem?_modify_ne _ wds fun same => fresh (same ▸ listed)
  simp only [verdicts,prepare_eq]
  cases scaledAt config api wds i <;> simp only [later]

theorem loadSettings_name_eq (config : Config) (api : OasisApi) (wd : WorkerDeployment) : (loadSettings config api wd).name = wd.name := by
  rcases loadSettings_cases config api wd with ⟨same,_⟩ | ⟨id,_,same⟩ <;> rw [same]

theorem loadSettings_replicas_eq (config : Config) (api : OasisApi) (wd : WorkerDeployment) :
    (loadSettings config api wd).replicas = wd.replicas := by
  rcases loadSettings_cases config api wd with ⟨same,_⟩ | ⟨id,_,same⟩ <;> rw [same]

theorem ready_name (wd : WorkerDeployment) : (ready config api wd).name = wd.name := by
  unfold ready
  split_ifs
  · rfl
  · exact loadSettings_name_eq config api wd

/-- After a message that reaches it, a deployment is scaled with the same settings, or no more
    when they have no strategy. -/
theorem scaledAt_next (config : Config) {wds after : List WorkerDeployment} {i : Nat} {replicas : String → Nat}
    (current : ∀ wd ∈ wds, Current api wd)
    (reached : after[i]? = (wds[i]?).map fun wd => withReplicas (ready config api wd) (replicas wd.name)) :
    match scaledAt config api wds i with
    | none => scaledAt config api after i = none
    | some (wd,settings) =>
      settings.scalingStrategy = none ∧ scaledAt config api after i = none ∨
        scaledAt config api after i = some (withReplicas wd (replicas wd.name),settings) := by
  simp only [scaledAt,reached]
  cases found : wds[i]? with
  | none => rfl
  | some old =>
    simp only [Option.bind_some,Option.map_some]
    by_cases left : WorkerDeployment.unscaled old = true
    · have stays : WorkerDeployment.unscaled (withReplicas (ready config api old) (replicas old.name)) = true := by
        rw [ready,if_pos left]
        exact left
      simp [left,stays]
    · have again := loadSettings_again config (current old (List.mem_of_getElem? found)) (replicas old.name)
      rw [ready,if_neg left,if_neg left,again]
      cases settled : (loadSettings config api old).autoScaling with
      | none => simp [withReplicas,settled]
      | some settings =>
        simp only [Option.map_some,loadSettings_name_eq]
        by_cases strategy : settings.scalingStrategy = none
        · exact .inl ⟨strategy,by simp [WorkerDeployment.unscaled,withReplicas,settled,strategy]⟩
        · have scales : ¬ WorkerDeployment.unscaled
              (withReplicas (loadSettings config api old) (replicas old.name)) = true := by
            simp [WorkerDeployment.unscaled,withReplicas,settled,Option.isNone_iff_eq_none,strategy]
          right
          rw [if_neg scales]
          simp [withReplicas,settled]

theorem demand_noStrategy {settings : AutoScaling} (none : settings.scalingStrategy = none) (model : ModelState) :
    demand config settings model = .ok 0 := by
  simp [demand,getDesiredWorkerCount,none,RuleError.isValueError]

/-- The rules of no model stop the controller. -/
def Goes (config : Config) (api : OasisApi) (wds : List WorkerDeployment) (entries : List (ModelState × Nat)) : Prop :=
  ∀ entry ∈ entries, ∀ wd settings, scaledAt config api wds entry.2 = some (wd,settings) →
    ∃ count, demand config settings entry.1 = .ok count

theorem goes_modify {wds : List WorkerDeployment} {i : Nat} {rest : List (ModelState × Nat)}
    (fresh : i ∉ rest.map Prod.snd) :
    Goes config api (wds.modify i (ready config api)) rest ↔ Goes config api wds rest := by
  refine forall₂_congr fun entry listed => ?_
  have away : i ≠ entry.2 := fun same => fresh (same ▸ List.mem_map_of_mem listed)
  rw [scaledAt_congr (List.getElem?_modify_ne _ wds away)]

theorem goes_iff {used : Int} {fleet : Fleet} {entries : List (ModelState × Nat)}
    (apart : (entries.map Prod.snd).Nodup) :
    (scaleModels config api used fleet entries).raised = none ↔ Goes config api fleet.wds entries := by
  induction entries generalizing used fleet with
  | nil => simp [scaleModels,Goes]
  | cons entry rest ih =>
    obtain ⟨model,i⟩ := entry
    obtain ⟨fresh,others⟩ := List.nodup_cons.mp apart
    have split : Goes config api fleet.wds ((model,i) :: rest) ↔
        (∀ wd settings, scaledAt config api fleet.wds i = some (wd,settings) →
          ∃ count, demand config settings model = .ok count) ∧ Goes config api fleet.wds rest :=
      List.forall_mem_cons
    rw [split]
    simp only [scaleModels,prepare_eq]
    cases scaled : scaledAt config api fleet.wds i with
    | none => simp [ih others,goes_modify fresh]
    | some pair =>
      obtain ⟨wd,settings⟩ := pair
      rcases demand_cases config settings model (config.budget used) with
        ⟨count,desired,demands,desires⟩ | ⟨error,demands,desires⟩
      · simp [desires,demands,ih others,goes_modify fresh]
      · simp [desires,demands]

/-- The claimants of a message after the one before is settled. -/
theorem verdicts_next {used later : Int} {wds after : List WorkerDeployment} {entries : List (ModelState × Nat)}
    {replicas : String → Nat} (apart : (entries.map Prod.snd).Nodup) (current : ∀ wd ∈ wds, Current api wd)
    (goes : Goes config api wds entries)
    (reached : ∀ i ∈ entries.map Prod.snd,
      after[i]? = (wds[i]?).map fun wd => withReplicas (ready config api wd) (replicas wd.name))
    (settled : ∀ verdict ∈ verdicts config api used wds entries, replicas verdict.wd.name = verdict.desired.toNat) :
    Next (ceiling config) used ((verdicts config api used wds entries).map Verdict.claimant)
      ((verdicts config api later after entries).map Verdict.claimant) := by
  induction entries generalizing used later with
  | nil => exact .nil used
  | cons entry rest ih =>
    obtain ⟨model,i⟩ := entry
    obtain ⟨fresh,others⟩ := List.nodup_cons.mp apart
    have next := scaledAt_next config current (reached i List.mem_cons_self)
    have restGoes : Goes config api wds rest := fun entry listed => goes entry (List.mem_cons_of_mem _ listed)
    have restReached := fun j listed => reached j (List.mem_cons_of_mem _ listed)
    rw [verdicts_cons apart] at settled ⊢
    rw [verdicts_cons apart]
    cases scaled : scaledAt config api wds i with
    | none =>
      rw [scaled] at next settled
      dsimp only at next settled
      rw [next]
      exact ih others restGoes restReached settled
    | some pair =>
      obtain ⟨wd,settings⟩ := pair
      obtain ⟨count,demands⟩ := goes (model,i) List.mem_cons_self wd settings scaled
      rw [scaled] at next settled
      rcases demand_cases config settings model (config.budget used) with
        ⟨again,desired,demandsAgain,desires⟩ | ⟨error,fails,_⟩
      swap
      · cases demands.symm.trans fails
      simp only [demands,desires] at settled ⊢
      have granted := (desired_granted wd demands desires).counted
      dsimp only at granted
      have here := settled _ List.mem_cons_self
      have there := fun verdict listed => settled verdict (List.mem_cons_of_mem _ listed)
      dsimp only at next here
      rw [List.map_cons]
      rcases next with ⟨strategy,gone⟩ | kept
      · rw [gone]
        obtain rfl : count = 0 := by simpa [demand_noStrategy strategy model] using demands.symm
        refine .leave rfl ?_
        simp only [Verdict.claimant]
        rw [← granted.1]
        exact ih others restGoes restReached there
      · rw [kept]
        rcases demand_cases config settings model (config.budget later) with
          ⟨counts,desiredNext,demandsNext,desiresNext⟩ | ⟨error,fails,_⟩
        swap
        · cases demands.symm.trans fails
        simp only [demands,desiresNext,List.map_cons]
        have running : Verdict.claimant ⟨withReplicas wd (replicas wd.name),count,desiredNext⟩ =
            Claimant.settled ⟨wd.replicas,count⟩ (share (ceiling config) used count) := by
          simp only [Verdict.claimant,Claimant.settled,withReplicas,here,granted.2]
        rw [running]
        refine .keep ?_
        simp only [Verdict.claimant]
        rw [← granted.1]
        exact ih others restGoes restReached there

theorem verdict_place {used : Int} {wds : List WorkerDeployment} {entries : List (ModelState × Nat)}
    (apart : (entries.map Prod.snd).Nodup) {verdict : Verdict}
    (listed : verdict ∈ verdicts config api used wds entries) :
    ∃ i ∈ entries.map Prod.snd, ∃ old, wds[i]? = some old ∧ verdict.wd = loadSettings config api old := by
  induction entries generalizing used with
  | nil => cases listed
  | cons entry rest ih =>
    obtain ⟨model,i⟩ := entry
    obtain ⟨-,others⟩ := List.nodup_cons.mp apart
    have further : ∀ {used : Int}, verdict ∈ verdicts config api used wds rest →
        ∃ j ∈ ((model,i) :: rest).map Prod.snd, ∃ old, wds[j]? = some old ∧
          verdict.wd = loadSettings config api old := by
      intro used listed
      obtain ⟨j,member,place⟩ := ih others listed
      exact ⟨j,List.mem_cons_of_mem _ member,place⟩
    rw [verdicts_cons apart] at listed
    cases scaled : scaledAt config api wds i with
    | none => exact further (by simpa [scaled] using listed)
    | some pair =>
      obtain ⟨wd,settings⟩ := pair
      rcases demand_cases config settings model (config.budget used) with
        ⟨count,desired,demands,desires⟩ | ⟨error,demands,desires⟩
      · simp only [scaled,demands,desires] at listed
        rcases List.mem_cons.mp listed with rfl | later
        · obtain ⟨old,found,here⟩ := Option.bind_eq_some_iff.mp scaled
          split_ifs at here
          obtain ⟨_,_,same⟩ := Option.map_eq_some_iff.mp here
          exact ⟨i,List.mem_cons_self,old,found,(Prod.mk.inj same).1.symm⟩
        · exact further later
      · simp [scaled,demands,desires] at listed

theorem verdict_names {used : Int} {wds : List WorkerDeployment} {entries : List (ModelState × Nat)}
    (apart : (entries.map Prod.snd).Nodup) (names : (wds.map WorkerDeployment.name).Nodup) :
    ((verdicts config api used wds entries).map fun verdict => verdict.wd.name).Nodup := by
  induction entries generalizing used with
  | nil => exact List.nodup_nil
  | cons entry rest ih =>
    obtain ⟨model,i⟩ := entry
    obtain ⟨fresh,others⟩ := List.nodup_cons.mp apart
    rw [verdicts_cons apart]
    cases scaled : scaledAt config api wds i with
    | none => exact ih others
    | some pair =>
      obtain ⟨wd,settings⟩ := pair
      rcases demand_cases config settings model (config.budget used) with
        ⟨count,desired,demands,desires⟩ | ⟨error,demands,desires⟩
      · simp only [demands,desires,List.map_cons,List.nodup_cons]
        refine ⟨fun listed => ?_,ih others⟩
        obtain ⟨verdict,member,same⟩ := List.mem_map.mp listed
        obtain ⟨j,reached,other,there,verdictWd⟩ := verdict_place others member
        obtain ⟨old,found,here⟩ := Option.bind_eq_some_iff.mp scaled
        split_ifs at here
        obtain ⟨_,_,wdSame⟩ := Option.map_eq_some_iff.mp here
        have name : other.name = old.name := by
          rw [← loadSettings_name_eq config api other,← verdictWd,same,← (Prod.mk.inj wdSame).1,
            loadSettings_name_eq]
        obtain ⟨inside,-⟩ := List.getElem?_eq_some_iff.mp there
        have place : j = i := by
          refine (List.getElem?_inj (by simpa using inside) names).mp ?_
          simp only [List.getElem?_map,there,found,Option.map_some,name]
        exact fresh (place ▸ reached)
      · simp [demands,desires]

theorem scaleDeployment_others (cleanup : List String) {wd : WorkerDeployment} (desired : Int) {name : String}
    (different : name ≠ wd.name) : name ∈ (scaleDeployment cleanup wd desired).cleanup ↔ name ∈ cleanup := by
  by_cases positive : 0 < desired <;> by_cases same : (wd.replicas : Int) = desired <;>
    by_cases old : wd.name ∈ cleanup <;> simp [scaleDeployment,positive,same,old,different]

end Message

end OasisPlatform.ScalingVerdicts
