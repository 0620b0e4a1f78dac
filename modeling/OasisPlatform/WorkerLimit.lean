import Mathlib.Algebra.BigOperators.Group.Finset.Basic
import Mathlib.Algebra.BigOperators.Group.Finset.Piecewise
import Mathlib.Algebra.Order.BigOperators.Group.Finset
import Mathlib.Algebra.Order.BigOperators.Group.List
import Mathlib.Algebra.Order.Ring.Int
import OasisPlatform.Autoscaler
import OasisPlatform.SharedRow

/-!
The hard limit for the number of workers. Within one message the auto scaler takes what it
gives to a deployment off the limit, but a deployment that it collects for the cleanup
keeps its replicas for now, whether they fit or not, and deployments that it does not
scale are not counted. The limit is kept when they fit and the cached replicas are up to
date (`limit_kept`).
-/
namespace OasisPlatform.WorkerLimit
open OasisPlatform.SharedRow OasisPlatform.PathText OasisPlatform.AutoscalerRules OasisPlatform.WorkerDeployments
open OasisPlatform.Autoscaler
set_option linter.unusedSimpArgs false

/-- The controller, with the replicas that it has last asked for, by deployment. -/
structure State where
  fleet : Fleet
  requested : String → Option Int

inductive Event where
  | message (api : OasisApi) (message : QueueStatusMessage)
  | timer
  | watch (report : Report)
  | deleted (name : String)

def request (requested : String → Option Int) (requests : List (String × Int)) : String → Option Int :=
  requests.foldl (fun requested entry => Function.update requested entry.1 (some entry.2)) requested

section Step
variable (lowercase : Lowercase) (config : Config)

def State.step (state : State) : Event → State
  | .message api message =>
    let scaled := processQueueStatusMessage lowercase config api state.fleet message
    ⟨scaled.fleet,request state.requested scaled.requests⟩
  | .timer =>
    if state.fleet.timer then
      let cleaned := cleanup state.fleet
      ⟨cleaned.1,request state.requested cleaned.2⟩
    else state
  | .watch report => { state with fleet := { state.fleet with wds := updateWorker lowercase state.fleet.wds report } }
  | .deleted name =>
    ⟨{ state.fleet with wds := delete state.fleet.wds name },Function.update state.requested name none⟩

end Step

/-- The replicas last asked for, or those that run when none were. -/
def effective (requested : String → Option Int) (wd : WorkerDeployment) : Int := (requested wd.name).getD wd.replicas

def State.total (state : State) : Int := (state.fleet.wds.map (effective state.requested)).sum

section Fits
variable (config : Config) (api : OasisApi) (requested : String → Option Int)

/-- A deployment that is not asked for replicas: no more than the cached ones were asked
    for, and they fit. -/
def Keeps (left : Int) (wd : WorkerDeployment) : Prop := effective requested wd ≤ wd.replicas ∧ wd.replicas ≤ left

/-- Each deployment takes its share off what is left: the workers that it wants, as far as
    they fit; one that gets none, or has them already, keeps its replicas. -/
def Fits : Int → List WorkerDeployment → List (ModelState × Nat) → Prop
  | _,_,[] => True
  | left,wds,(state,i) :: rest =>
    match prepare config api wds i with
    | (wds,none) => Fits left wds rest
    | (wds,some (wd,settings)) =>
      match getDesiredWorkerCount settings state config.neverShutdownFixedWorkers with
      | .ok count =>
        if 0 < min (count : Int) left ∧ wd.replicas ≠ min (count : Int) left then
          Fits (left - min (count : Int) left) wds rest
        else Keeps requested left wd ∧ Fits (left - wd.replicas) wds rest
      | .error error => error.isValueError = true ∧ Keeps requested left wd ∧ Fits (left - wd.replicas) wds rest

/-- The names of the deployments that are scaled. -/
def scaledNames : List WorkerDeployment → List (ModelState × Nat) → List String
  | _,[] => []
  | wds,(_,i) :: rest =>
    match prepare config api wds i with
    | (wds,none) => scaledNames wds rest
    | (wds,some (wd,_)) => wd.name :: scaledNames wds rest

end Fits

/-- A message scales all deployments that have replicas, and what they keep or get fits. A report
    of the watch names one deployment, and when nothing was requested of it, its replicas
    fit beside the others. -/
def Calm (lowercase : Lowercase) (config : Config) (limit : Nat) (state : State) : Event → Prop
  | .message api message =>
    let models := prioritizedModels lowercase config state.fleet.wds message
    0 < limit ∧
      (∀ wd ∈ state.fleet.wds, 0 < effective state.requested wd →
        wd.name ∈ scaledNames config api state.fleet.wds models) ∧
      Fits config api state.requested limit state.fleet.wds models
  | .timer => True
  | .watch report =>
    match getWorkerDeployment lowercase state.fleet.wds report.supplierId report.modelId report.modelVersionId
        (some report.apiVersion) with
    | some i => ∀ wd ∈ state.fleet.wds[i]?, state.requested wd.name = none →
        state.total - wd.replicas + report.replicas ≤ limit
    | none => (∀ wd ∈ state.fleet.wds, wd.name ≠ report.name) ∧
        state.total + (state.requested report.name).getD report.replicas ≤ limit
  | .deleted _ => True

/-- Neither the limit that is handed to `_scale_deployment` nor the replicas that it finds
    desirable are negative. -/
def CallsNonneg (lowercase : Lowercase) (config : Config) (state : State) : Event → Prop
  | .message api message =>
    ∀ call ∈ (processQueueStatusMessage lowercase config api state.fleet message).calls,
      (∀ limit ∈ call.limit, 0 ≤ limit) ∧ 0 ≤ call.desired
  | _ => True

section Sums
variable {cached : String → Int} {requested : String → Option Int}

/-- The replicas of a deployment by name, from those that are cached. -/
def inForce (cached : String → Int) (requested : String → Option Int) (name : String) : Int :=
  (requested name).getD (cached name)

theorem inForce_nonneg (cachedNonneg : ∀ name, 0 ≤ cached name)
    (requestedNonneg : ∀ name, ∀ replicas ∈ requested name, 0 ≤ replicas) (name : String) :
    0 ≤ inForce cached requested name := by
  unfold inForce
  cases asked : requested name with
  | none => exact cachedNonneg name
  | some replicas => exact requestedNonneg name replicas asked

/-- A request counts with what it asks for. -/
theorem sum_request (nonneg : ∀ name, 0 ≤ inForce cached requested name) (names : Finset String) (name : String)
    (replicas : Int) :
    ∑ other ∈ insert name names, inForce cached (Function.update requested name (some replicas)) other ≤
      ∑ other ∈ names, inForce cached requested other + replicas := by
  have split : insert name names = insert name (names.erase name) := by
    ext other
    by_cases same : other = name <;> simp [same]
  have others : ∑ other ∈ names.erase name, inForce cached (Function.update requested name (some replicas)) other =
      ∑ other ∈ names.erase name, inForce cached requested other := by
    refine Finset.sum_congr rfl ?_
    intro other listed
    simp only [inForce,Function.update_of_ne (Finset.ne_of_mem_erase listed)]
  have fewer : ∑ other ∈ names.erase name, inForce cached requested other ≤
      ∑ other ∈ names, inForce cached requested other :=
    Finset.sum_le_sum_of_subset_of_nonneg (Finset.erase_subset _ _) fun other _ _ => nonneg other
  rw [split,Finset.sum_insert (Finset.notMem_erase _ _),others]
  simp only [inForce,Function.update_self,Option.getD_some] at fewer ⊢
  omega

/-- A deployment that is left counts with its cached replicas. -/
theorem sum_keep {names : Finset String} {name : String} {replicas : Int} (nonneg : 0 ≤ replicas)
    (current : name ∉ names → inForce cached requested name ≤ replicas) :
    ∑ other ∈ insert name names, inForce cached requested other ≤
      ∑ other ∈ names, inForce cached requested other + replicas := by
  by_cases listed : name ∈ names
  · rw [Finset.insert_eq_of_mem listed]
    omega
  · rw [Finset.sum_insert listed]
    have most := current listed
    omega

/-- Names that add nothing may be left out. -/
theorem sum_le_of_rest {names scaled : Finset String} (nonneg : ∀ name, 0 ≤ inForce cached requested name)
    (rest : ∀ name ∈ names, name ∉ scaled → inForce cached requested name ≤ 0) :
    ∑ name ∈ names, inForce cached requested name ≤ ∑ name ∈ scaled, inForce cached requested name := by
  have split := Finset.sum_inter_add_sum_sdiff names scaled (inForce cached requested)
  have inside : ∑ name ∈ names ∩ scaled, inForce cached requested name ≤
      ∑ name ∈ scaled, inForce cached requested name :=
    Finset.sum_le_sum_of_subset_of_nonneg Finset.inter_subset_right fun name _ _ => nonneg name
  have outside : ∑ name ∈ names \ scaled, inForce cached requested name ≤ 0 := by
    refine Finset.sum_nonpos ?_
    intro name listed
    exact rest name (Finset.mem_sdiff.mp listed).1 (Finset.mem_sdiff.mp listed).2
  omega

end Sums

theorem request_append (requested : String → Option Int) (first second : List (String × Int)) :
    request requested (first ++ second) = request (request requested first) second :=
  List.foldl_append

theorem request_cons (requested : String → Option Int) (entry : String × Int) (rest : List (String × Int)) :
    request requested (entry :: rest) = request (Function.update requested entry.1 (some entry.2)) rest := rfl

theorem request_nonneg {requested : String → Option Int} {requests : List (String × Int)}
    (nonneg : ∀ name, ∀ replicas ∈ requested name, 0 ≤ replicas) (asked : ∀ entry ∈ requests, 0 ≤ entry.2) :
    ∀ name, ∀ replicas ∈ request requested requests name, 0 ≤ replicas := by
  induction requests generalizing requested with
  | nil => exact nonneg
  | cons entry rest ih =>
    rw [request_cons]
    refine ih ?_ fun other listed => asked other (List.mem_cons_of_mem _ listed)
    intro name replicas found
    by_cases same : name = entry.1
    · subst same
      rw [Function.update_self] at found
      cases found
      exact asked entry List.mem_cons_self
    · rw [Function.update_of_ne same] at found
      exact nonneg name replicas found

theorem loadSettings_name (config : Config) (api : OasisApi) (wd : WorkerDeployment) :
    (loadSettings config api wd).name = wd.name ∧ (loadSettings config api wd).replicas = wd.replicas := by
  unfold loadSettings
  split_ifs
  · split <;> exact ⟨rfl,rfl⟩
  · exact ⟨rfl,rfl⟩

/-- The names and cached replicas, which scaling leaves as they are. -/
def shape (wds : List WorkerDeployment) : List (String × Nat) := wds.map fun wd => (wd.name,wd.replicas)

theorem prepare_shape (config : Config) (api : OasisApi) (wds : List WorkerDeployment) (i : Nat) :
    shape (prepare config api wds i).1 = shape wds := by
  rcases prepare_cases config api wds i with left | ⟨old,found,loaded⟩
  · rw [left]
  · obtain ⟨inside,rfl⟩ := List.getElem?_eq_some_iff.mp found
    obtain ⟨name,replicas⟩ := loadSettings_name config api wds[i]
    rw [loaded]
    simp only [shape,List.map_set,name,replicas]
    refine List.ext_getElem (by simp) ?_
    intro j _ _
    by_cases same : i = j
    · subst same
      simp
    · simp [List.getElem_set_ne same]

theorem prepare_some {config : Config} {api : OasisApi} {wds after : List WorkerDeployment} {i : Nat}
    {wd : WorkerDeployment} {settings : AutoScaling} (prepared : prepare config api wds i = (after,some (wd,settings))) :
    (wd.name,wd.replicas) ∈ shape wds := by
  obtain ⟨old,found,rfl,-,-⟩ := prepare_found prepared
  obtain ⟨name,replicas⟩ := loadSettings_name config api old
  rw [name,replicas]
  exact List.mem_map.mpr ⟨old,List.mem_of_getElem? found,rfl⟩

theorem scaleDeployment_asked (cleanup : List String) (wd : WorkerDeployment) {desired : Int} (positive : 0 < desired)
    (more : (wd.replicas : Int) ≠ desired) :
    (scaleDeployment cleanup wd desired).created = desired ∧
      (scaleDeployment cleanup wd desired).request = some desired := by
  simp [scaleDeployment,more,positive]

theorem scaleDeployment_kept (cleanup : List String) (wd : WorkerDeployment) {desired : Int}
    (kept : desired ≤ 0 ∨ (wd.replicas : Int) = desired) :
    (scaleDeployment cleanup wd desired).created = wd.replicas ∧
      (scaleDeployment cleanup wd desired).request = none := by
  unfold scaleDeployment
  by_cases same : (wd.replicas : Int) = desired
  · simp [same]
  · simp [same,not_lt.mpr (kept.resolve_right same)]

/-- A deployment is asked for replicas out of what is left, or keeps those that it has. -/
def Share (requested : String → Option Int) (wd : WorkerDeployment) (desired left : Int) : Prop :=
  0 < desired ∧ (wd.replicas : Int) ≠ desired ∧ desired ≤ left ∨
    (desired ≤ 0 ∨ (wd.replicas : Int) = desired) ∧ Keeps requested left wd

theorem desired_ok {config : Config} {settings : AutoScaling} {state : ModelState} {count : Nat} (left : Int)
    (counted : getDesiredWorkerCount settings state config.neverShutdownFixedWorkers = .ok count) :
    desiredReplicas config settings state (some left) = .ok (min (count : Int) left) := by
  simp only [desiredReplicas,counted,Option.elim_some]
  congr 1
  split_ifs <;> omega

theorem desired_error {config : Config} {settings : AutoScaling} {state : ModelState} {error : RuleError}
    (limit : Option Int) (failed : getDesiredWorkerCount settings state config.neverShutdownFixedWorkers = .error error)
    (value : error.isValueError = true) : desiredReplicas config settings state limit = .ok 0 := by
  simp [desiredReplicas,failed,value]

section Message
variable (config : Config) (api : OasisApi)

theorem scaleModels_shape (total : Int) (fleet : Fleet) (entries : List (ModelState × Nat)) :
    shape (scaleModels config api total fleet entries).fleet.wds = shape fleet.wds := by
  induction entries generalizing total fleet with
  | nil => rfl
  | cons entry rest ih =>
    obtain ⟨state,i⟩ := entry
    have same := prepare_shape config api fleet.wds i
    cases prepared : prepare config api fleet.wds i with
    | mk wds scaled =>
      rw [prepared] at same
      cases scaled with
      | none =>
        simp only [scaleModels,prepared]
        rw [ih]
        exact same
      | some pair =>
        obtain ⟨wd,settings⟩ := pair
        simp only [scaleModels,prepared]
        cases desiredReplicas config settings state (config.budget total) with
        | error error => exact same
        | ok desired =>
          simp only
          rw [ih]
          exact same

variable {config api}

theorem budget_some {limit : Nat} (limited : config.limit = some limit) (positive : 0 < limit) (total : Int) :
    config.budget total = some (limit - total) := by
  unfold Config.budget
  rw [limited]
  cases limit with
  | zero => omega
  | succ n => rfl

/-- In the middle of a message: the deployments that were scaled count at most with what
    was taken off the limit, and for the others what was asked for `before` is in force. -/
structure Counted (cached : String → Int) (before : String → Option Int) (wds : List WorkerDeployment)
    (requested : String → Option Int) (names : Finset String) (total : Int) : Prop where
  known : ∀ entry ∈ shape wds, cached entry.1 = entry.2
  untouched : ∀ name ∉ names, requested name = before name
  nonneg : ∀ name, ∀ replicas ∈ requested name, 0 ≤ replicas
  sum : ∑ name ∈ names, inForce cached requested name ≤ total

variable {cached : String → Int} {wds after : List WorkerDeployment} {before requested : String → Option Int}
  {names : Finset String} {total : Int}

theorem Counted.shape (counted : Counted cached before wds requested names total) (same : shape after = shape wds) :
    Counted cached before after requested names total :=
  ⟨same ▸ counted.known,counted.untouched,counted.nonneg,counted.sum⟩

/-- A deployment is left with its cached replicas. -/
theorem Counted.keep (counted : Counted cached before wds requested names total) {wd : WorkerDeployment}
    (listed : (wd.name,wd.replicas) ∈ WorkerLimit.shape wds) (current : effective before wd ≤ wd.replicas) :
    Counted cached before wds requested (insert wd.name names) (total + wd.replicas) := by
  refine ⟨counted.known,?_,counted.nonneg,?_⟩
  · intro other fresh
    exact counted.untouched other fun old => fresh (Finset.mem_insert_of_mem old)
  · have most : wd.name ∉ names → inForce cached requested wd.name ≤ wd.replicas := by
      intro fresh
      have same : cached wd.name = wd.replicas := counted.known _ listed
      rw [inForce,counted.untouched _ fresh,same]
      exact current
    have kept := sum_keep (Int.natCast_nonneg wd.replicas) most
    have sum := counted.sum
    omega

/-- Replicas of a deployment are asked for. -/
theorem Counted.ask (counted : Counted cached before wds requested names total)
    (cachedNonneg : ∀ name, 0 ≤ cached name) (name : String) {replicas : Int} (nonneg : 0 ≤ replicas) :
    Counted cached before wds (Function.update requested name (some replicas)) (insert name names)
      (total + replicas) := by
  refine ⟨counted.known,?_,?_,?_⟩
  · intro other fresh
    have different : other ≠ name := fun same => fresh (by simp [same])
    rw [Function.update_of_ne different]
    exact counted.untouched other fun old => fresh (Finset.mem_insert_of_mem old)
  · have only : ∀ entry ∈ [(name,replicas)], 0 ≤ entry.2 := by simpa using nonneg
    exact request_nonneg counted.nonneg only
  · have asked := sum_request (inForce_nonneg cachedNonneg counted.nonneg) names name replicas
    have sum := counted.sum
    omega

/-- One deployment gets some of what is left, or keeps replicas that fit. -/
theorem Counted.scale (counted : Counted cached before wds requested names total)
    (cachedNonneg : ∀ name, 0 ≤ cached name) {wd : WorkerDeployment}
    (listed : (wd.name,wd.replicas) ∈ WorkerLimit.shape wds) (cleanup : List String) {desired limit : Int}
    (share : Share before wd desired (limit - total)) :
    total + (scaleDeployment cleanup wd desired).created ≤ limit ∧
      Counted cached before wds
        (request requested
          ((scaleDeployment cleanup wd desired).request.map fun replicas => (wd.name,replicas)).toList)
        (insert wd.name names) (total + (scaleDeployment cleanup wd desired).created) := by
  rcases share with ⟨positive,more,fits⟩ | ⟨kept,current,fits⟩
  · obtain ⟨created,some_asked⟩ := scaleDeployment_asked cleanup wd positive more
    rw [created,some_asked]
    exact ⟨by omega,counted.ask cachedNonneg wd.name (le_of_lt positive)⟩
  · obtain ⟨created,none_asked⟩ := scaleDeployment_kept cleanup wd kept
    rw [created,none_asked]
    exact ⟨by omega,counted.keep listed current⟩

/-- What a deployment is to have, when its share fits. -/
theorem fits_desired {limit : Nat} {state : ModelState} {settings : AutoScaling} {wd : WorkerDeployment}
    {rest : List (ModelState × Nat)} (limited : config.limit = some limit) (positive : 0 < limit) (within : total ≤ limit)
    (fits : match getDesiredWorkerCount settings state config.neverShutdownFixedWorkers with
      | .ok count =>
        if 0 < min (count : Int) (limit - total) ∧ wd.replicas ≠ min (count : Int) (limit - total) then
          Fits config api before (limit - total - min (count : Int) (limit - total)) wds rest
        else Keeps before (limit - total) wd ∧ Fits config api before (limit - total - wd.replicas) wds rest
      | .error error => error.isValueError = true ∧ Keeps before (limit - total) wd ∧
          Fits config api before (limit - total - wd.replicas) wds rest)
    (cleanup : List String) :
    ∃ desired, desiredReplicas config settings state (config.budget total) = .ok desired ∧ 0 ≤ desired ∧
      Share before wd desired (limit - total) ∧
      Fits config api before (limit - (total + (scaleDeployment cleanup wd desired).created)) wds rest := by
  rw [budget_some limited positive]
  cases counted : getDesiredWorkerCount settings state config.neverShutdownFixedWorkers with
  | ok count =>
    simp only [counted] at fits
    refine ⟨min (count : Int) (limit - total),desired_ok _ counted,by omega,?_⟩
    split_ifs at fits with asked
    · rw [(scaleDeployment_asked cleanup wd asked.1 asked.2).1,← sub_sub]
      exact ⟨.inl ⟨asked.1,asked.2,by omega⟩,fits⟩
    · have kept : min (count : Int) (limit - total) ≤ 0 ∨ (wd.replicas : Int) = min (count : Int) (limit - total) := by
        omega
      rw [(scaleDeployment_kept cleanup wd kept).1,← sub_sub]
      exact ⟨.inr ⟨kept,fits.1⟩,fits.2⟩
  | error error =>
    simp only [counted] at fits
    obtain ⟨value,keeps,rest_fits⟩ := fits
    refine ⟨0,desired_error _ counted value,le_refl 0,.inr ⟨.inl (le_refl 0),keeps⟩,?_⟩
    rw [(scaleDeployment_kept cleanup wd (.inl (le_refl 0))).1,← sub_sub]
    exact rest_fits

/-- A message that meets what fits keeps the count, and hands on no negative limit. -/
theorem scaleModels_counted {limit : Nat} (limited : config.limit = some limit) (positive : 0 < limit)
    (cachedNonneg : ∀ name, 0 ≤ cached name) {entries : List (ModelState × Nat)} (fleet : Fleet)
    (counted : Counted cached before fleet.wds requested names total) (within : total ≤ limit)
    (fits : Fits config api before (limit - total) fleet.wds entries) :
    (∃ final ≤ (limit : Int),
      Counted cached before fleet.wds (request requested (scaleModels config api total fleet entries).requests)
        (names ∪ (scaledNames config api fleet.wds entries).toFinset) final) ∧
      ∀ call ∈ (scaleModels config api total fleet entries).calls,
        (∀ left ∈ call.limit, 0 ≤ left) ∧ 0 ≤ call.desired := by
  induction entries generalizing total fleet requested names with
  | nil =>
    refine ⟨⟨total,within,?_⟩,?_⟩
    · simpa [scaleModels,scaledNames,request] using counted
    · intro call listed
      cases listed
  | cons entry rest ih =>
    obtain ⟨state,i⟩ := entry
    have same := prepare_shape config api fleet.wds i
    cases prepared : prepare config api fleet.wds i with
    | mk wds scaled =>
      rw [prepared] at same
      have again := counted.shape same
      cases scaled with
      | none =>
        simp only [Fits,prepared] at fits
        simp only [scaleModels,scaledNames,prepared]
        obtain ⟨⟨final,bounded,rest_counted⟩,calls⟩ := ih { fleet with wds := wds } again within fits
        exact ⟨⟨final,bounded,rest_counted.shape same.symm⟩,calls⟩
      | some pair =>
        obtain ⟨wd,settings⟩ := pair
        simp only [Fits,prepared] at fits
        obtain ⟨desired,found,nonneg,share,rest_fits⟩ := fits_desired limited positive within fits fleet.cleanup
        have listed : (wd.name,wd.replicas) ∈ WorkerLimit.shape wds := same ▸ prepare_some prepared
        obtain ⟨bounded,next⟩ := again.scale cachedNonneg listed fleet.cleanup share
        simp only [scaleModels,scaledNames,prepared,found]
        obtain ⟨⟨final,final_bounded,rest_counted⟩,calls⟩ := ih ⟨wds,_,_⟩ next bounded rest_fits
        refine ⟨⟨final,final_bounded,?_⟩,?_⟩
        · rw [request_append,List.toFinset_cons,Finset.union_insert,← Finset.insert_union]
          exact rest_counted.shape same.symm
        · intro call later
          rcases List.mem_cons.mp later with rfl | other
          · refine ⟨?_,nonneg⟩
            intro left given
            rw [budget_some limited positive] at given
            cases given
            omega
          · exact calls call other

end Message

/-! ### Every step -/

/-- The deployments have different names, and all of them together are within the limit. -/
structure Within (limit : Nat) (state : State) : Prop where
  names : (state.fleet.wds.map WorkerDeployment.name).Nodup
  nonneg : ∀ name, ∀ replicas ∈ state.requested name, 0 ≤ replicas
  total : state.total ≤ limit

theorem effective_nonneg {requested : String → Option Int}
    (nonneg : ∀ name, ∀ replicas ∈ requested name, 0 ≤ replicas) (wd : WorkerDeployment) : 0 ≤ effective requested wd := by
  unfold effective
  cases asked : requested wd.name with
  | none => exact Int.natCast_nonneg _
  | some replicas => exact nonneg wd.name replicas asked

theorem effective_lowered {requested : String → Option Int} {requests : List (String × Int)} {wd : WorkerDeployment}
    (nonneg : 0 ≤ effective requested wd) (nothing : ∀ entry ∈ requests, entry.2 = 0) :
    effective (request requested requests) wd ≤ effective requested wd := by
  induction requests generalizing requested with
  | nil => exact le_refl _
  | cons entry rest ih =>
    have first := nothing entry List.mem_cons_self
    have next : effective (Function.update requested entry.1 (some entry.2)) wd ≤ effective requested wd ∧
        0 ≤ effective (Function.update requested entry.1 (some entry.2)) wd := by
      by_cases same : wd.name = entry.1
      · simp only [effective,same,Function.update_self,Option.getD_some,first] at nonneg ⊢
        exact ⟨nonneg,le_refl 0⟩
      · simp only [effective,Function.update_of_ne same] at nonneg ⊢
        exact ⟨le_refl _,nonneg⟩
    rw [request_cons]
    exact (ih next.2 fun other listed => nothing other (List.mem_cons_of_mem _ listed)).trans next.1

theorem sum_modify (count : WorkerDeployment → Int) (change : WorkerDeployment → WorkerDeployment)
    {wds : List WorkerDeployment} {i : Nat} (inside : i < wds.length) :
    ((wds.modify i change).map count).sum = (wds.map count).sum - count wds[i] + count (change wds[i]) := by
  induction wds generalizing i with
  | nil => exact absurd inside (Nat.not_lt_zero i)
  | cons wd rest ih =>
    cases i with
    | zero =>
      simp only [List.modify_zero_cons,List.map_cons,List.sum_cons,List.getElem_cons_zero]
      omega
    | succ j =>
      have later := ih (Nat.lt_of_succ_lt_succ inside)
      simp only [List.modify_succ_cons,List.map_cons,List.sum_cons,List.getElem_cons_succ,later]
      omega

/-- Deployments with different names have their cached replicas by name. -/
theorem exists_cached {wds : List WorkerDeployment} (names : (wds.map WorkerDeployment.name).Nodup) :
    ∃ cached : String → Int, (∀ name, 0 ≤ cached name) ∧ ∀ entry ∈ shape wds, cached entry.1 = entry.2 := by
  induction wds with
  | nil =>
    refine ⟨fun _ => 0,fun _ => le_refl 0,?_⟩
    intro entry listed
    cases listed
  | cons wd rest ih =>
    rw [List.map_cons,List.nodup_cons] at names
    obtain ⟨cached,nonneg,known⟩ := ih names.2
    refine ⟨Function.update cached wd.name wd.replicas,?_,?_⟩
    · intro name
      by_cases same : name = wd.name
      · subst same
        simp
      · rw [Function.update_of_ne same]
        exact nonneg name
    · intro entry listed
      rcases List.mem_cons.mp listed with rfl | later
      · simp
      · have other : entry.1 ≠ wd.name := by
          obtain ⟨old,member,rfl⟩ := List.mem_map.mp later
          exact fun same => names.1 (List.mem_map.mpr ⟨old,member,same⟩)
        rw [Function.update_of_ne other]
        exact known entry later

theorem shape_names {wds after : List WorkerDeployment} (same : shape after = shape wds) :
    after.map WorkerDeployment.name = wds.map WorkerDeployment.name := by
  have names := congrArg (List.map Prod.fst) same
  simpa [shape,Function.comp_def] using names

theorem total_inForce (requested : String → Option Int) {wds : List WorkerDeployment} {cached : String → Int}
    (names : (wds.map WorkerDeployment.name).Nodup) (known : ∀ entry ∈ shape wds, cached entry.1 = entry.2) :
    (wds.map (effective requested)).sum =
      ∑ name ∈ (wds.map WorkerDeployment.name).toFinset, inForce cached requested name := by
  rw [List.sum_toFinset _ names,List.map_map]
  congr 1
  refine List.map_congr_left ?_
  intro wd listed
  have same : cached wd.name = wd.replicas := known (wd.name,wd.replicas) (List.mem_map.mpr ⟨wd,listed,rfl⟩)
  simp [effective,inForce,same]

section Run
variable {lowercase : Lowercase} {config : Config} {limit : Nat} {state : State}

theorem message_within (limited : config.limit = some limit) {api : OasisApi} {message : QueueStatusMessage}
    (within : Within limit state) (calm : Calm lowercase config limit state (.message api message)) :
    Within limit (state.step lowercase config (.message api message)) ∧
      CallsNonneg lowercase config state (.message api message) := by
  obtain ⟨positive,scaled,fits⟩ := calm
  obtain ⟨cached,cachedNonneg,known⟩ := exists_cached within.names
  have start : Counted cached state.requested state.fleet.wds state.requested ∅ 0 :=
    ⟨known,fun _ _ => rfl,within.nonneg,by simp⟩
  obtain ⟨⟨final,bounded,counted⟩,calls⟩ := scaleModels_counted limited positive cachedNonneg state.fleet start
    (by omega) (by simpa using fits)
  have same := scaleModels_shape config api 0 state.fleet (prioritizedModels lowercase config state.fleet.wds message)
  have names := shape_names same
  refine ⟨⟨names ▸ within.names,counted.nonneg,?_⟩,calls⟩
  have sum := total_inForce (request state.requested (scaleModels config api 0 state.fleet
    (prioritizedModels lowercase config state.fleet.wds message)).requests) (names ▸ within.names) (same ▸ known)
  rw [names] at sum
  refine (le_of_eq sum).trans (le_trans (le_trans ?_ counted.sum) bounded)
  refine sum_le_of_rest (inForce_nonneg cachedNonneg counted.nonneg) ?_
  -- a deployment that is not scaled has no replicas, and none are asked for
  intro name listed fresh
  obtain ⟨wd,member,rfl⟩ := List.mem_map.mp (List.mem_toFinset.mp listed)
  have same : cached wd.name = wd.replicas := known (wd.name,wd.replicas) (List.mem_map.mpr ⟨wd,member,rfl⟩)
  rw [inForce,counted.untouched _ fresh,same]
  rw [Finset.empty_union,List.mem_toFinset] at fresh
  by_contra busy
  exact fresh (scaled wd member (not_le.mp busy))

/-- The timer asks for no replicas, which only lowers the total. -/
theorem timer_within (within : Within limit state) : Within limit (state.step lowercase config .timer) := by
  unfold State.step
  by_cases runs : state.fleet.timer = true
  · have nothing : ∀ entry ∈ state.fleet.cleanup.map fun name => (name,(0 : Int)), entry.2 = 0 := by
      intro entry listed
      obtain ⟨name,-,rfl⟩ := List.mem_map.mp listed
      rfl
    simp only [runs,if_true]
    refine ⟨within.names,request_nonneg within.nonneg ?_,le_trans ?_ within.total⟩
    · exact fun entry listed => le_of_eq (nothing entry listed).symm
    · refine List.sum_le_sum ?_
      intro wd _
      exact effective_lowered (effective_nonneg within.nonneg wd) nothing
  · simp only [runs,Bool.false_eq_true,if_false]
    exact within

/-- A deployment that is deleted no longer counts. -/
theorem deleted_within (name : String) (within : Within limit state) :
    Within limit (state.step lowercase config (.deleted name)) := by
  have fewer : (delete state.fleet.wds name).Sublist state.fleet.wds := List.filter_sublist
  refine ⟨within.names.sublist (fewer.map _),?_,?_⟩
  · intro other replicas found
    by_cases same : other = name
    · subst same
      simp [State.step] at found
    · refine within.nonneg other replicas ?_
      simpa [State.step,Function.update_of_ne same] using found
  · have kept : (delete state.fleet.wds name).map (effective (Function.update state.requested name none)) =
        (delete state.fleet.wds name).map (effective state.requested) := by
      refine List.map_congr_left ?_
      intro wd listed
      have other : wd.name ≠ name := by simpa using List.of_mem_filter listed
      simp only [effective,Function.update_of_ne other]
    have less := (fewer.map (effective state.requested)).sum_le_sum ?_
    · have most := within.total
      unfold State.total at most ⊢
      simp only [State.step,kept]
      omega
    · intro value listed
      obtain ⟨wd,-,rfl⟩ := List.mem_map.mp listed
      exact effective_nonneg within.nonneg wd

/-- The watch changes the cached replicas of one deployment, or finds a new one. -/
theorem watch_within {report : Report} (within : Within limit state)
    (calm : Calm lowercase config limit state (.watch report)) :
    Within limit (state.step lowercase config (.watch report)) := by
  unfold Calm at calm
  unfold State.step updateWorker
  cases found : getWorkerDeployment lowercase state.fleet.wds report.supplierId report.modelId report.modelVersionId
      (some report.apiVersion) with
  | none =>
    simp only [found] at calm ⊢
    refine ⟨?_,within.nonneg,?_⟩
    · rw [List.map_append,List.nodup_append]
      refine ⟨within.names,by simp,?_⟩
      simpa using calm.1
    · simpa [State.total,effective] using calm.2
  | some i =>
    simp only [found] at calm ⊢
    refine ⟨?_,within.nonneg,?_⟩
    · have same : (state.fleet.wds.modify i fun wd => { wd with replicas := report.replicas }).map
          WorkerDeployment.name = state.fleet.wds.map WorkerDeployment.name := by
        refine List.ext_getElem? ?_
        intro j
        by_cases here : i = j <;> simp [List.getElem?_modify,here,Function.comp_def]
      exact same ▸ within.names
    · obtain ⟨inside,-,-⟩ := List.findIdx?_eq_some_iff_getElem.mp found
      have fresh := calm state.fleet.wds[i] (List.getElem?_eq_getElem inside)
      have most := within.total
      unfold State.total at fresh most ⊢
      rw [sum_modify (effective state.requested) _ inside]
      cases asked : state.requested state.fleet.wds[i].name with
      | none =>
        have room := fresh asked
        simp only [effective,asked,Option.getD_none] at room ⊢
        omega
      | some replicas =>
        have same : effective state.requested { state.fleet.wds[i] with replicas := report.replicas } =
            effective state.requested state.fleet.wds[i] := by
          simp [effective,asked]
        rw [same]
        omega

theorem step_within (limited : config.limit = some limit) (event : Event) (within : Within limit state)
    (calm : Calm lowercase config limit state event) :
    Within limit (state.step lowercase config event) ∧ CallsNonneg lowercase config state event := by
  cases event with
  | message api message => exact message_within limited within calm
  | timer => exact ⟨timer_within within,trivial⟩
  | watch report => exact ⟨watch_within within calm,trivial⟩
  | deleted name => exact ⟨deleted_within name within,trivial⟩

/-- In a run whose steps are calm, the limit is kept after every step and no limit or number
    of replicas is negative. -/
theorem limit_kept (lowercase : Lowercase) (config : Config) (limit : Nat) (limited : config.limit = some limit)
    (start : State) (within : Within limit start) (events : List Event)
    (calm : Along (State.step lowercase config) (Calm lowercase config limit) start events) :
    Along (State.step lowercase config)
      (fun state event => (state.step lowercase config event).total ≤ limit ∧ CallsNonneg lowercase config state event)
      start events := by
  have kept := calm.and_invariant (fun state event before now => (step_within limited event before now).1) within
  refine kept.imp ?_
  intro state event held
  obtain ⟨after,calls⟩ := step_within limited event held.1 held.2
  exact ⟨after.total,calls⟩

end Run

/-- All models have two workers while there is work for them. -/
def twoEach : OasisApi := ⟨fun _ _ _ => some 1,fun _ => some ⟨some .fixedWorkers,some 2,none,none,none⟩⟩

def limitTwo : Config := ⟨none,some 2,false,false⟩

def deployment (name : String) (supplierId : Text) (replicas : Nat) : WorkerDeployment :=
  { name := name, supplierId := supplierId, modelId := ['m'], modelVersionId := ['1'], apiVersion := ['v','2'],
    replicas := replicas }

/-- One analysis with a sub-task on the queue of the model of supplier `b`. -/
def workForB : QueueStatusMessage :=
  let queueName := ['b','-','m','-','1','-','v','2']
  [⟨⟨queueName,0,1,0,1,0⟩,[⟨1,4,1,[queueName],1⟩]⟩]

def idleAndB (running : Nat) : State :=
  ⟨⟨[deployment "worker-a" ['a'] running,deployment "worker-b" ['b'] 0,deployment "worker-c" ['c'] 0],[],false⟩,
    fun _ => none⟩

theorem idleAndB_within {running : Nat} (few : running ≤ 2) : Within 2 (idleAndB running) := by
  refine ⟨?_,?_,?_⟩
  · simp [idleAndB,deployment]
  · intro name replicas asked
    cases asked
  · simp [State.total,idleAndB,effective,deployment]
    omega

def busyThenIdle : List Event :=
  [.message twoEach workForB,.watch ⟨"worker-b",['b'],['m'],['1'],['v','2'],2⟩,.message twoEach [],.timer]

theorem limit_kept_busy_then_idle :
    Along (State.step asciiLowercase limitTwo)
      (fun state event => (state.step asciiLowercase limitTwo event).total ≤ 2 ∧
        CallsNonneg asciiLowercase limitTwo state event)
      (idleAndB 0) busyThenIdle := by
  refine limit_kept asciiLowercase limitTwo 2 rfl (idleAndB 0) (idleAndB_within (by decide)) busyThenIdle ?_
  refine ⟨⟨by decide,by decide,?_⟩,?_,⟨by decide,by decide,?_⟩,trivial,trivial⟩
  · exact ⟨⟨by decide,by decide⟩,⟨by decide,by decide⟩,trivial⟩
  · intro wd place unasked
    cases place
    cases unasked
  · exact ⟨⟨by decide,by decide⟩,⟨by decide,by decide⟩,⟨by decide,by decide⟩,trivial⟩

/-- Two workers of an idle model run on for the delay of the cleanup while a busy one gets
    two more; for the next model the limit is then negative. -/
theorem limit_exceeded :
    Within 2 (idleAndB 2) ∧
      ((idleAndB 2).step asciiLowercase limitTwo (.message twoEach workForB)).total = 4 ∧
      ¬ CallsNonneg asciiLowercase limitTwo (idleAndB 2) (.message twoEach workForB) := by
  refine ⟨idleAndB_within (by decide),by decide,?_⟩
  intro nonneg
  have last : (0 : Int) ≤ -2 := (nonneg ⟨some (-2),-2⟩ ?_).2
  · omega
  · exact .tail _ (.tail _ (.head _))

end OasisPlatform.WorkerLimit
