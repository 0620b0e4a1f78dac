import OasisPlatform.DeploymentCache

/-!
The auto scaler as a control loop. A message with the patches, the cleanup and the reports that
it brings about, in whatever order they come, is a cycle (`Cycle`). `Midway` says how far a cycle
has come. After two cycles of the same message the models have their workers in order, each
what it demands or what is left of the limit, and further cycles change nothing
(`cycles_settle`).
-/
namespace OasisPlatform.SteadyScaling
open OasisPlatform.PathText OasisPlatform.AutoscalerRules OasisPlatform.WorkerDeployments OasisPlatform.Autoscaler
open OasisPlatform.DelayedCleanup OasisPlatform.Rationing OasisPlatform.ScalingVerdicts OasisPlatform.DeploymentCache
set_option linter.unusedSimpArgs false

/-- The replicas that are being asked for. -/
def awaits (stage : Stage) (name : String) : Option Int :=
  match stage with
  | .patching other replicas => if other = name then some replicas else none
  | _ => none

/-- The replicas that a deployment has when all patches have reached the cluster. -/
def expected (state : State) (name : String) : Nat :=
  if name ∈ state.fleet.cleanup ∨ name ∈ state.zeroing then 0
  else (awaits state.stage name).elim (state.cluster name) Int.toNat

/-- What is left of the message, the model that is loaded first. -/
def waiting (state : State) : List (ModelState × Nat) :=
  match state.stage with
  | .loaded model i => (model,i) :: state.rest
  | _ => state.rest

/-- What may come between a message and the next one. -/
def Event.within (api : OasisApi) : Event → Prop
  | .receive _ => False
  | .load other => other = api
  | _ => True

/-- A message that has been worked off to some place: the models before it have their verdicts,
    and the deployments that they scale are to have their desired replicas. Nothing has been
    done about the others. -/
structure Midway (config : Config) (api : OasisApi) (before state : State) (entries seen : List (ModelState × Nat))
    (done : List Verdict) : Prop where
  split : entries = seen ++ waiting state
  verdicts : verdicts config api 0 before.fleet.wds entries =
    done ++ verdicts config api state.workersTotal before.fleet.wds (waiting state)
  places : ∀ verdict ∈ done, ∃ i ∈ seen.map Prod.snd, ∃ old, before.fleet.wds[i]? = some old ∧
    verdict.wd.name = old.name
  loaded : ∀ model i, state.stage = .loaded model i → (scaledAt config api before.fleet.wds i).isSome
  wds : ∀ j : Nat, (state.fleet.wds[j]?).map (withReplicas · 0) = (before.fleet.wds[j]?).map fun wd =>
    withReplicas (if j ∈ entries.map Prod.snd ∧ j ∉ state.rest.map Prod.snd then ready config api wd else wd) 0
  settled : ∀ verdict ∈ done, expected state verdict.wd.name = verdict.desired.toNat
  unreported : ∀ report ∈ state.reports, ∃ verdict ∈ done, verdict.wd.name = report.name
  unpatched : ∀ name, (∀ verdict ∈ done, verdict.wd.name ≠ name) → state.cluster name = before.cluster name
  idle : ∀ name, name ∈ state.fleet.cleanup ∨ name ∈ state.zeroing →
    ∃ verdict ∈ done, verdict.wd.name = name ∧ ¬ 0 < verdict.desired
  awaited : ∀ name replicas, state.stage = .patching name replicas →
    ∃ verdict ∈ done, verdict.wd.name = name ∧ verdict.desired = replicas ∧ 0 < replicas
  goes : state.stopped = false

theorem withReplicas_inj {one other : WorkerDeployment} (same : withReplicas one 0 = withReplicas other 0)
    (replicas : one.replicas = other.replicas) : one = other := by
  obtain ⟨_,_,_,_,_,_,_,_⟩ := one
  obtain ⟨_,_,_,_,_,_,_,_⟩ := other
  simp only [withReplicas,WorkerDeployment.mk.injEq] at same replicas
  obtain ⟨rfl,rfl,rfl,rfl,rfl,rfl,-,rfl⟩ := same
  subst replicas
  rfl

theorem withReplicas_name {one other : WorkerDeployment} (same : withReplicas one 0 = withReplicas other 0) :
    one.name = other.name :=
  (congrArg WorkerDeployment.name same :)

section Working
variable {lowercase : Lowercase} {config : Config} {labels : String → Labels} {api : OasisApi}
variable {before state : State} {entries seen : List (ModelState × Nat)} {done : List Verdict}

theorem Midway.done_names (midway : Midway config api before state entries seen done)
    (apart : (entries.map Prod.snd).Nodup) (began : Tracked lowercase labels before) :
    (done.map fun verdict => verdict.wd.name).Nodup := by
  have names : ((ScalingVerdicts.verdicts config api 0 before.fleet.wds entries).map
      fun verdict => verdict.wd.name).Nodup := verdict_names apart began.cached.names
  rw [midway.verdicts,List.map_append] at names
  exact (List.nodup_append.mp names).1

/-- A deployment whose model is still to come is none of those that are done. -/
theorem Midway.undone (midway : Midway config api before state entries seen done)
    (began : Tracked lowercase labels before) {j : Nat} {wd : WorkerDeployment} (fresh : j ∉ seen.map Prod.snd)
    (here : before.fleet.wds[j]? = some wd) : ∀ verdict ∈ done, verdict.wd.name ≠ wd.name := by
  intro verdict listed same
  obtain ⟨i,reached,old,there,name⟩ := midway.places verdict listed
  exact fresh (began.cached.place there here (name.symm.trans same) ▸ reached)

/-- It is cached as it was, with its settings loaded when its model has been reached. -/
theorem Midway.cached (midway : Midway config api before state entries seen done)
    (began : Tracked lowercase labels before) (settled : before.reports = []) (tracked : Tracked lowercase labels state)
    {j : Nat} {wd : WorkerDeployment} (fresh : j ∉ seen.map Prod.snd) (here : before.fleet.wds[j]? = some wd) :
    state.fleet.wds[j]? =
      some (if j ∈ entries.map Prod.snd ∧ j ∉ state.rest.map Prod.snd then ready config api wd else wd) := by
  have undone := midway.undone began fresh here
  have wds := midway.wds j
  rw [here] at wds
  obtain ⟨cached,there,same⟩ := Option.map_eq_some_iff.mp wds
  have name : cached.name = wd.name := by
    refine (withReplicas_name same).trans ?_
    split_ifs
    · exact ready_name wd
    · rfl
  have unreported : ∀ report ∈ state.reports, report.name ≠ cached.name := by
    intro report listed reports
    obtain ⟨verdict,member,sameName⟩ := midway.unreported report listed
    exact undone verdict member (by rw [sameName,reports,name])
  have now := tracked.follows cached (List.mem_of_getElem? there)
  have then_ := began.follows wd (List.mem_of_getElem? here)
  rw [latest_absent unreported,name,midway.unpatched wd.name undone,then_,settled] at now
  rw [there]
  refine congrArg some (withReplicas_inj same ?_)
  split_ifs
  · exact now.symm.trans (ready_replicas config api wd).symm
  · exact now.symm

theorem expected_congr {after : State} {name : String}
    (idle : (name ∈ after.fleet.cleanup ∨ name ∈ after.zeroing) ↔ (name ∈ state.fleet.cleanup ∨ name ∈ state.zeroing))
    (cluster : after.cluster name = state.cluster name) (stage : awaits after.stage name = awaits state.stage name) :
    expected after name = expected state name := by
  simp only [expected,idle,cluster,stage]

theorem Midway.between (midway : Midway config api before state entries seen done)
    (began : Tracked lowercase labels before) (settled : before.reports = []) (tracked : Tracked lowercase labels state)
    (apart : (entries.map Prod.snd).Nodup) (between : state.stage = .next) {model : ModelState} {i : Nat}
    {rest : List (ModelState × Nat)} (here : state.rest = (model,i) :: rest) :
    i ∉ seen.map Prod.snd ∧ i ∉ rest.map Prod.snd ∧ state.fleet.wds[i]? = before.fleet.wds[i]? := by
  have split := midway.split
  rw [waiting,between,here] at split
  rw [split,List.map_append,List.nodup_append] at apart
  obtain ⟨-,others,apart⟩ := apart
  have fresh : i ∉ seen.map Prod.snd := fun listed => apart i listed i List.mem_cons_self rfl
  refine ⟨fresh,(List.nodup_cons.mp others).1,?_⟩
  cases old : before.fleet.wds[i]? with
  | none => simpa [old] using midway.wds i
  | some wd =>
    have cached := midway.cached began settled tracked fresh old
    simpa [here] using cached

theorem Midway.load (midway : Midway config api before state entries seen done)
    (began : Tracked lowercase labels before) (settled : before.reports = []) (tracked : Tracked lowercase labels state)
    (apart : (entries.map Prod.snd).Nodup) (between : state.stage = .next) :
    ∃ seen, Midway config api before (state.load config api) entries seen done := by
  unfold State.load
  cases here : state.rest with
  | nil => exact ⟨seen,by simpa [here] using midway⟩
  | cons entry rest =>
    obtain ⟨model,i⟩ := entry
    obtain ⟨fresh,later,same⟩ := midway.between began settled tracked apart between here
    have split := midway.split
    have verdicts := midway.verdicts
    simp only [waiting,between,here] at split verdicts
    have wds : ∀ j : Nat, ((state.fleet.wds.modify i (ready config api))[j]?).map (withReplicas · 0) =
        (before.fleet.wds[j]?).map fun wd =>
          withReplicas (if j ∈ entries.map Prod.snd ∧ j ∉ rest.map Prod.snd then ready config api wd else wd) 0 := by
      intro j
      by_cases place : i = j
      · subst place
        have member : i ∈ entries.map Prod.snd := by simp [split]
        rw [List.getElem?_modify_eq]
        simp [same,member,later,Function.comp_def]
      · have reached : j ∉ state.rest.map Prod.snd ↔ j ∉ rest.map Prod.snd := by simp [here,Ne.symm place]
        rw [List.getElem?_modify_ne _ _ place,midway.wds j]
        simp only [reached]
    simp only [prepare_eq,scaledAt_congr same]
    cases scaled : scaledAt config api before.fleet.wds i with
    | none =>
      refine ⟨seen ++ [(model,i)],?_,?_,?_,?_,wds,?_,midway.unreported,midway.unpatched,midway.idle,?_,midway.goes⟩
      · simpa [waiting,between] using split
      · rw [split,List.map_append,List.nodup_append] at apart
        rw [verdicts_cons apart.2.1,scaled] at verdicts
        simpa [waiting,between] using verdicts
      · intro verdict listed
        obtain ⟨j,reached,place⟩ := midway.places verdict listed
        exact ⟨j,by simp [List.mem_map.mp reached],place⟩
      · simp [between]
      · exact midway.settled
      · exact midway.awaited
    | some pair =>
      refine ⟨seen,by simpa [waiting] using split,by simpa [waiting] using verdicts,midway.places,?_,wds,?_,
        midway.unreported,midway.unpatched,midway.idle,by simp,midway.goes⟩
      · rintro other j ⟨⟩
        simp [scaled]
      · intro verdict listed
        rw [← midway.settled verdict listed]
        exact expected_congr Iff.rfl rfl (by simp [awaits,between])

/-- The deployment that is loaded is the one that the verdict is about. -/
theorem Midway.at_loaded (midway : Midway config api before state entries seen done)
    (began : Tracked lowercase labels before) (settled : before.reports = []) (tracked : Tracked lowercase labels state)
    (apart : (entries.map Prod.snd).Nodup) {model : ModelState} {i : Nat} (stage : state.stage = .loaded model i) :
    i ∉ seen.map Prod.snd ∧ ∃ old wd settings, before.fleet.wds[i]? = some old ∧ old.name = wd.name ∧
      scaledAt config api before.fleet.wds i = some (wd,settings) ∧ state.current = some (model,wd,settings) := by
  have split := midway.split
  rw [waiting,stage] at split
  have member : i ∈ entries.map Prod.snd := by simp [split]
  rw [split,List.map_append,List.nodup_append] at apart
  obtain ⟨-,others,apart⟩ := apart
  have fresh : i ∉ seen.map Prod.snd := fun listed => apart i listed i List.mem_cons_self rfl
  obtain ⟨⟨wd,settings⟩,scaled⟩ := Option.isSome_iff_exists.mp (midway.loaded model i stage)
  obtain ⟨old,here,ready_some⟩ := Option.bind_eq_some_iff.mp scaled
  split_ifs at ready_some with left
  obtain ⟨found,some_settings,same⟩ := Option.map_eq_some_iff.mp ready_some
  obtain ⟨rfl,rfl⟩ := Prod.mk.inj same
  have cached := midway.cached began settled tracked fresh here
  rw [if_pos ⟨member,(List.nodup_cons.mp others).1⟩,ready,if_neg left] at cached
  refine ⟨fresh,old,_,found,here,(loadSettings_name_eq config api old).symm,scaled,?_⟩
  simp [State.current,stage,cached,some_settings]

/-- A deployment that is scaled is to have its desired replicas. -/
theorem expected_scaled {cleanup : List String} {wd : WorkerDeployment} {desired : Int} {after : State}
    (unzeroed : wd.name ∉ after.zeroing) (uncollected : wd.name ∉ cleanup)
    (runs : after.cluster wd.name = wd.replicas)
    (collects : after.fleet.cleanup = (scaleDeployment cleanup wd desired).cleanup)
    (stage : after.stage = (scaleDeployment cleanup wd desired).request.elim .next fun replicas =>
      .patching wd.name replicas) : expected after wd.name = desired.toNat := by
  unfold expected
  rw [collects,stage,runs]
  by_cases positive : 0 < desired <;> by_cases same : (wd.replicas : Int) = desired <;>
    simp [scaleDeployment,positive,same,uncollected,unzeroed,awaits] <;> omega

theorem Midway.scale (midway : Midway config api before state entries seen done)
    (began : Tracked lowercase labels before) (settled : before.reports = []) (tracked : Tracked lowercase labels state)
    (apart : (entries.map Prod.snd).Nodup) (goes : Goes config api before.fleet.wds entries) {model : ModelState}
    {i : Nat} (stage : state.stage = .loaded model i) {found : ModelState × WorkerDeployment × AutoScaling}
    (current : state.current = some found) :
    ∃ seen done, Midway config api before (state.scale config found.1 found.2.1 found.2.2) entries seen done := by
  obtain ⟨fresh,old,wd,settings,here,name,scaled,now⟩ := midway.at_loaded began settled tracked apart stage
  obtain rfl : (model,wd,settings) = found := Option.some.inj (now.symm.trans current)
  have split := midway.split
  have verdicts := midway.verdicts
  simp only [waiting,stage] at split verdicts
  obtain ⟨count,demands⟩ := goes (model,i) (by simp [split]) wd settings scaled
  rcases demand_cases config settings model (config.budget state.workersTotal) with
    ⟨again,desired,demandsAgain,desires⟩ | ⟨error,fails,_⟩
  swap
  · cases demands.symm.trans fails
  have undone := midway.undone began fresh here
  rw [name] at undone
  have uncollected : ¬ (wd.name ∈ state.fleet.cleanup ∨ wd.name ∈ state.zeroing) := by
    intro listed
    obtain ⟨verdict,member,same,-⟩ := midway.idle wd.name listed
    exact undone verdict member same
  rw [not_or] at uncollected
  have runs : state.cluster wd.name = wd.replicas := by
    have follows := began.follows old (List.mem_of_getElem? here)
    rw [settled,name] at follows
    rw [midway.unpatched wd.name undone,follows]
    obtain ⟨other,there,found⟩ := Option.bind_eq_some_iff.mp scaled
    obtain rfl : old = other := Option.some.inj (here.symm.trans there)
    split_ifs at found with left
    obtain ⟨_,_,same⟩ := Option.map_eq_some_iff.mp found
    obtain ⟨rfl,-⟩ := Prod.mk.inj same
    have replicas := ready_replicas config api old
    rw [ready,if_neg left] at replicas
    exact replicas.symm
  have apartNow := apart
  rw [split,List.map_append,List.nodup_append] at apartNow
  rw [verdicts_cons apartNow.2.1,scaled] at verdicts
  simp only [demandsAgain,desires] at verdicts
  simp only [State.scale,desires]
  refine ⟨seen ++ [(model,i)],done ++ [⟨wd,again,desired⟩],?_,?_,?_,?_,midway.wds,?_,?_,?_,?_,?_,midway.goes⟩
  · cases asked : (scaleDeployment state.fleet.cleanup wd desired).request <;> simpa [waiting,asked] using split
  · rw [scaleDeployment_created]
    cases asked : (scaleDeployment state.fleet.cleanup wd desired).request <;> simpa [waiting,asked] using verdicts
  · intro verdict listed
    rcases List.mem_append.mp listed with before | this
    · obtain ⟨j,reached,place⟩ := midway.places verdict before
      exact ⟨j,by simp [List.mem_map.mp reached],place⟩
    · obtain rfl := List.mem_singleton.mp this
      exact ⟨i,by simp,old,here,name.symm⟩
  · intro other j loaded
    cases asked : (scaleDeployment state.fleet.cleanup wd desired).request <;> simp [asked] at loaded
  · intro verdict listed
    rcases List.mem_append.mp listed with before | this
    · have different := undone verdict before
      rw [← midway.settled verdict before]
      refine expected_congr ?_ rfl ?_
      · rw [scaleDeployment_others _ _ different]
      · cases asked : (scaleDeployment state.fleet.cleanup wd desired).request <;>
          simp [asked,awaits,stage,Ne.symm different]
    · obtain rfl := List.mem_singleton.mp this
      exact expected_scaled uncollected.2 uncollected.1 runs rfl rfl
  · intro report listed
    obtain ⟨verdict,member,same⟩ := midway.unreported report listed
    exact ⟨verdict,List.mem_append_left _ member,same⟩
  · intro other absent
    exact midway.unpatched other fun verdict listed => absent verdict (List.mem_append_left _ listed)
  · intro other listed
    by_cases same : other = wd.name
    · subst same
      refine ⟨_,List.mem_append_right _ List.mem_cons_self,rfl,fun positive => ?_⟩
      exact listed.elim (scaleDeployment_busy state.fleet.cleanup wd positive).1 uncollected.2
    · rw [scaleDeployment_others _ _ same] at listed
      obtain ⟨verdict,member,idle⟩ := midway.idle other listed
      exact ⟨verdict,List.mem_append_left _ member,idle⟩
  · intro other replicas patching
    cases asked : (scaleDeployment state.fleet.cleanup wd desired).request with
    | none => simp [asked] at patching
    | some wanted =>
      obtain ⟨rfl,positive⟩ := scaleDeployment_request asked
      simp only [asked,Option.elim_some,Stage.patching.injEq] at patching
      obtain ⟨rfl,rfl⟩ := patching
      exact ⟨_,List.mem_append_right _ List.mem_cons_self,rfl,rfl,positive⟩

theorem patch_reports {name other : String} {replicas : Int} {report : Report}
    (listed : report ∈ (state.patch labels name replicas).reports) (other_name : report.name = other) :
    report ∈ state.reports ∨ other = name := by
  simp only [State.patch] at listed
  split_ifs at listed
  · exact .inl listed
  · refine (List.mem_append.mp listed).imp_right fun new => ?_
    obtain rfl := List.mem_singleton.mp new
    exact other_name.symm

theorem Midway.patched (midway : Midway config api before state entries seen done) {name : String} {replicas : Int}
    (stage : state.stage = .patching name replicas) :
    Midway config api before { state.patch labels name replicas with stage := .next } entries seen done := by
  obtain ⟨verdict,member,rfl,rfl,positive⟩ := midway.awaited name replicas stage
  have split := midway.split
  have verdicts := midway.verdicts
  simp only [waiting,stage] at split verdicts
  refine ⟨split,verdicts,midway.places,by simp,midway.wds,?_,?_,?_,midway.idle,by simp,midway.goes⟩
  · intro other listed
    rw [← midway.settled other listed]
    unfold expected
    simp only [State.patch,awaits,stage,Option.elim_none]
    by_cases same : verdict.wd.name = other.wd.name
    · simp [same]
    · simp [same,Function.update_of_ne (Ne.symm same)]
  · intro report listed
    rcases patch_reports listed rfl with old | same
    · exact midway.unreported report old
    · exact ⟨verdict,member,same.symm⟩
  · intro other absent
    exact (Function.update_of_ne (Ne.symm (absent verdict member)) ..).trans (midway.unpatched other absent)

theorem Midway.timer (midway : Midway config api before state entries seen done) :
    Midway config api before { state with
      fleet := (cleanup state.fleet).1, zeroing := state.zeroing ++ (cleanup state.fleet).2.map Prod.fst }
      entries seen done := by
  have moved : ∀ name, name ∈ ([] : List String) ∨ name ∈ state.zeroing ++ (cleanup state.fleet).2.map Prod.fst ↔
      name ∈ state.fleet.cleanup ∨ name ∈ state.zeroing := by
    intro name
    simp [cleanup,Function.comp_def,or_comm]
  refine ⟨midway.split,midway.verdicts,midway.places,midway.loaded,midway.wds,?_,midway.unreported,midway.unpatched,
    fun name listed => midway.idle name ((moved name).mp listed),midway.awaited,midway.goes⟩
  intro verdict listed
  rw [← midway.settled verdict listed]
  exact expected_congr (moved verdict.wd.name) rfl rfl

theorem mem_eraseIdx {α : Type} {list : List α} {i : Nat} {one other : α} (here : list[i]? = some one)
    (different : other ≠ one) : other ∈ list.eraseIdx i ↔ other ∈ list := by
  rw [List.mem_eraseIdx_iff_getElem?,List.mem_iff_getElem?]
  refine ⟨fun ⟨j,_,there⟩ => ⟨j,there⟩,fun ⟨j,there⟩ => ⟨j,?_,there⟩⟩
  rintro rfl
  exact different (Option.some.inj (there.symm.trans here))

theorem Midway.zeroed (midway : Midway config api before state entries seen done)
    (began : Tracked lowercase labels before) (apart : (entries.map Prod.snd).Nodup) {i : Nat} {name : String}
    (started : state.zeroing[i]? = some name) :
    Midway config api before { state.patch labels name 0 with zeroing := state.zeroing.eraseIdx i } entries seen done := by
  obtain ⟨verdict,member,rfl,nothing⟩ := midway.idle name (.inr (List.mem_of_getElem? started))
  have one : ∀ other ∈ done, other.wd.name = verdict.wd.name → other = verdict := fun other listed same =>
    List.inj_on_of_nodup_map (midway.done_names apart began) listed member same
  refine ⟨midway.split,midway.verdicts,midway.places,midway.loaded,midway.wds,?_,?_,?_,?_,midway.awaited,midway.goes⟩
  · intro other listed
    by_cases same : other.wd.name = verdict.wd.name
    · obtain rfl := one other listed same
      have unawaited : awaits state.stage other.wd.name = none := by
        unfold awaits
        split
        · next name replicas stage =>
          refine if_neg fun same => ?_
          obtain ⟨asked,there,sameName,wanted,positive⟩ := midway.awaited name replicas stage
          obtain rfl := one asked there (sameName.trans same)
          exact nothing (wanted ▸ positive)
        · rfl
      have zero : other.desired.toNat = 0 := by omega
      unfold expected
      simp [State.patch,unawaited,zero]
    · rw [← midway.settled other listed]
      refine expected_congr ?_ (Function.update_of_ne same ..) rfl
      rw [mem_eraseIdx started same]
      rfl
  · intro report listed
    rcases patch_reports listed rfl with old | same
    · exact midway.unreported report old
    · exact ⟨verdict,member,same.symm⟩
  · intro other absent
    exact (Function.update_of_ne (Ne.symm (absent verdict member)) ..).trans (midway.unpatched other absent)
  · intro other listed
    exact midway.idle other (listed.imp_right List.mem_of_mem_eraseIdx)

theorem Midway.watch (midway : Midway config api before state entries seen done)
    (tracked : Tracked lowercase labels state) :
    Midway config api before (state.step lowercase config labels .watch) entries seen done := by
  cases reports : state.reports with
  | nil => simpa [State.step,reports] using midway
  | cons report later =>
    obtain ⟨wd,listed,replicas,rfl⟩ := tracked.reported report (reports ▸ List.mem_cons_self)
    obtain ⟨i,here⟩ := List.getElem?_of_mem listed
    simp only [State.step,reports,updateWorker_report tracked.cached here]
    refine ⟨midway.split,midway.verdicts,midway.places,midway.loaded,?_,midway.settled,?_,midway.unpatched,
      midway.idle,midway.awaited,midway.goes⟩
    · intro j
      rw [← midway.wds j]
      by_cases place : i = j
      · subst place
        simp [List.getElem?_modify_eq,Function.comp_def,withReplicas]
      · rw [List.getElem?_modify_ne _ _ place]
    · intro report listed
      exact midway.unreported report (reports ▸ List.mem_cons_of_mem _ listed)

theorem Midway.step (midway : Midway config api before state entries seen done)
    (began : Tracked lowercase labels before) (settled : before.reports = []) (tracked : Tracked lowercase labels state)
    (apart : (entries.map Prod.snd).Nodup) (goes : Goes config api before.fleet.wds entries) {event : Event}
    (within : Event.within api event) :
    ∃ seen done, Midway config api before (state.step lowercase config labels event) entries seen done := by
  cases event with
  | receive message => cases within
  | load other =>
    obtain rfl : other = api := within
    simp only [State.step]
    split_ifs with between
    · obtain ⟨seen,loaded⟩ := midway.load began settled tracked apart between
      exact ⟨seen,done,loaded⟩
    · exact ⟨seen,done,midway⟩
  | scale =>
    cases current : state.current with
    | none => exact ⟨seen,done,by simpa [State.step,current] using midway⟩
    | some found =>
      have stage : ∃ model i, state.stage = .loaded model i := by
        unfold State.current at current
        split at current
        · exact ⟨_,_,‹_›⟩
        · cases current
      obtain ⟨model,i,stage⟩ := stage
      simpa [State.step,current] using midway.scale began settled tracked apart goes stage current
  | patched =>
    cases stage : state.stage with
    | patching name replicas => exact ⟨seen,done,by simpa [State.step,stage] using midway.patched stage⟩
    | _ => exact ⟨seen,done,by simpa [State.step,stage] using midway⟩
  | timer =>
    simp only [State.step]
    split_ifs
    · exact ⟨seen,done,midway.timer⟩
    · exact ⟨seen,done,midway⟩
  | zeroed i =>
    cases started : state.zeroing[i]? with
    | none => exact ⟨seen,done,by simpa [State.step,started] using midway⟩
    | some name => exact ⟨seen,done,by simpa [State.step,started] using midway.zeroed began apart started⟩
  | watch => exact ⟨seen,done,midway.watch tracked⟩

theorem Midway.run (midway : Midway config api before state entries seen done)
    (began : Tracked lowercase labels before) (settled : before.reports = []) (tracked : Tracked lowercase labels state)
    (apart : (entries.map Prod.snd).Nodup) (goes : Goes config api before.fleet.wds entries) {events : List Event}
    (within : ∀ event ∈ events, Event.within api event) :
    ∃ seen done, Midway config api before (state.run lowercase config labels events) entries seen done := by
  induction events generalizing state seen done with
  | nil => exact ⟨seen,done,midway⟩
  | cons event rest ih =>
    obtain ⟨here,later⟩ := List.forall_mem_cons.mp within
    obtain ⟨seen,done,next⟩ : ∃ seen done, Midway config api before (state.step lowercase config labels event) entries
        seen done := midway.step began settled tracked apart goes here
    exact ih next (step_tracked event tracked) later

end Working

/-! ### What a cycle brings about -/

/-- All is delivered, and the cleanup is over. -/
structure Quiet (state : State) : Prop where
  settled : state.Settled
  untimed : state.fleet.timer = false
  goes : state.stopped = false

section Cycles
variable (lowercase : Lowercase) (config : Config) (labels : String → Labels) (api : OasisApi)
variable (message : QueueStatusMessage)

/-- A message and what comes between it and the next one, in any order. -/
def Cycle (before after : State) : Prop :=
  ∃ events, (∀ event ∈ events, Event.within api event) ∧
    before.run lowercase config labels (.receive message :: events) = after ∧ after.Settled ∧ after.fleet.timer = false

/-- The verdicts of the message. -/
def found (state : State) : List Verdict :=
  verdicts config api 0 state.fleet.wds (prioritizedModels lowercase config state.fleet.wds message)

variable {lowercase config labels api message}

/-- The deployments that are scaled have their desired replicas, the others those of before,
    and the cache has them all. -/
structure Cycled (lowercase : Lowercase) (config : Config) (labels : String → Labels) (api : OasisApi)
    (message : QueueStatusMessage) (before after : State) : Prop where
  tracked : Tracked lowercase labels after
  quiet : Quiet after
  same : after.fleet.wds.map bare = before.fleet.wds.map bare
  settled : ∀ verdict ∈ found lowercase config api message before,
    after.cluster verdict.wd.name = verdict.desired.toNat
  others : ∀ name, (∀ verdict ∈ found lowercase config api message before, verdict.wd.name ≠ name) →
    after.cluster name = before.cluster name
  wds : ∀ j : Nat, after.fleet.wds[j]? = (before.fleet.wds[j]?).map fun wd => withReplicas
    (if j ∈ (prioritizedModels lowercase config before.fleet.wds message).map Prod.snd then ready config api wd else wd)
    (after.cluster wd.name)

theorem Quiet.uncollected {state : State} (quiet : Quiet state) (tracked : Tracked lowercase labels state) :
    state.fleet.cleanup = [] ∧ state.zeroing = [] ∧ state.reports = [] :=
  ⟨tracked.timed quiet.untimed,quiet.settled.2⟩

/-- A message that is worked off, with all delivered. -/
theorem Midway.over {before after : State} {seen : List (ModelState × Nat)} {done : List Verdict}
    (midway : Midway config api before after (prioritizedModels lowercase config before.fleet.wds message) seen done)
    (tracked : Tracked lowercase labels after) (quiet : Quiet after)
    (same : after.fleet.wds.map bare = before.fleet.wds.map bare) :
    Cycled lowercase config labels api message before after := by
  obtain ⟨uncollected,unzeroed,unreported⟩ := quiet.uncollected tracked
  have stage := idle_next quiet.settled.1
  have rest : after.rest = [] := by
    have idle := quiet.settled.1
    simp only [State.idle,Bool.and_eq_true,List.isEmpty_iff] at idle
    exact idle.1
  have all : done = found lowercase config api message before := by
    have verdicts := midway.verdicts
    simp only [waiting,stage,rest,ScalingVerdicts.verdicts,List.append_nil] at verdicts
    exact verdicts.symm
  refine ⟨tracked,quiet,same,?_,?_,?_⟩
  · intro verdict listed
    rw [← midway.settled verdict (all ▸ listed)]
    simp [expected,uncollected,unzeroed,stage,awaits]
  · intro name absent
    exact midway.unpatched name (all ▸ absent)
  · intro j
    have wds := midway.wds j
    simp only [rest,List.map_nil,List.not_mem_nil,not_false_eq_true,and_true] at wds
    cases old : before.fleet.wds[j]? with
    | none => simpa [old] using wds
    | some wd =>
      rw [old] at wds
      obtain ⟨cached,there,alike⟩ := Option.map_eq_some_iff.mp wds
      have name : cached.name = wd.name := by
        refine (withReplicas_name alike).trans ?_
        split_ifs
        · exact ready_name wd
        · rfl
      have follows := tracked.follows cached (List.mem_of_getElem? there)
      rw [unreported] at follows
      rw [there,Option.map_some,← name,follows]
      have restored := congrArg (fun wd => some (withReplicas wd cached.replicas)) alike
      exact restored

theorem cycle_cycled {before after : State} (tracked : Tracked lowercase labels before) (quiet : Quiet before)
    (apart : ((prioritizedModels lowercase config before.fleet.wds message).map Prod.snd).Nodup)
    (goes : Goes config api before.fleet.wds (prioritizedModels lowercase config before.fleet.wds message))
    (cycle : Cycle lowercase config labels api message before after) :
    Cycled lowercase config labels api message before after := by
  obtain ⟨events,within,rfl,settled,untimed⟩ := cycle
  obtain ⟨uncollected,unzeroed,unreported⟩ := quiet.uncollected tracked
  have between := idle_next quiet.settled.1
  have received : before.step lowercase config labels (.receive message) =
      { before with
        workersTotal := 0, rest := prioritizedModels lowercase config before.fleet.wds message
        desired := fun _ => none } := by
    simp [State.step,quiet.settled.1,quiet.goes]
  have began : Midway config api before (before.step lowercase config labels (.receive message))
      (prioritizedModels lowercase config before.fleet.wds message) [] [] := by
    rw [received]
    refine ⟨?_,?_,by simp,?_,?_,by simp,?_,fun _ _ => rfl,?_,?_,quiet.goes⟩
    · simp [waiting,between]
    · simp [waiting,between]
    · simp [between]
    · intro j
      simp only [and_not_self,if_false]
    · simp [unreported]
    · simp [uncollected,unzeroed]
    · simp [between]
  obtain ⟨seen,done,midway⟩ := began.run tracked unreported (step_tracked (.receive message) tracked) apart goes within
  exact Midway.over midway (run_tracked (.receive message :: events) tracked) ⟨settled,untimed,midway.goes⟩
    (run_bare (.receive message :: events) tracked)

theorem ready_current {wd : WorkerDeployment} (current : Current api wd) : Current api (ready config api wd) := by
  unfold ready
  split_ifs
  · exact current
  · exact loadSettings_current current

/-- A deployment that a message has reached is not changed by loading its settings again. -/
theorem ready_again {wd : WorkerDeployment} (current : Current api wd) (replicas : Nat) :
    ready config api (withReplicas (ready config api wd) replicas) = withReplicas (ready config api wd) replicas := by
  by_cases left : WorkerDeployment.unscaled wd = true
  · have stays : WorkerDeployment.unscaled (withReplicas wd replicas) = true := left
    rw [ready,ready,if_pos left,if_pos stays]
  · rw [ready,ready,if_neg left]
    split_ifs
    · rfl
    · exact loadSettings_again config current replicas

theorem Cycled.entries {before after : State} (cycled : Cycled lowercase config labels api message before after) :
    prioritizedModels lowercase config after.fleet.wds message =
      prioritizedModels lowercase config before.fleet.wds message :=
  prioritizedModels_same cycled.same config message

theorem Cycled.reached {before after : State} (cycled : Cycled lowercase config labels api message before after)
    {j : Nat} (listed : j ∈ (prioritizedModels lowercase config before.fleet.wds message).map Prod.snd) :
    after.fleet.wds[j]? = (before.fleet.wds[j]?).map fun wd =>
      withReplicas (ready config api wd) (after.cluster wd.name) := by
  simpa only [listed,if_true] using cycled.wds j

theorem Cycled.current {before after : State} (cycled : Cycled lowercase config labels api message before after)
    (current : ∀ wd ∈ before.fleet.wds, Current api wd) : ∀ wd ∈ after.fleet.wds, Current api wd := by
  intro wd listed
  obtain ⟨j,here⟩ := List.getElem?_of_mem listed
  rw [cycled.wds j] at here
  obtain ⟨old,there,rfl⟩ := Option.map_eq_some_iff.mp here
  have known := current old (List.mem_of_getElem? there)
  split_ifs
  · exact ready_current known
  · exact known

theorem Cycled.goes {before after : State} (cycled : Cycled lowercase config labels api message before after)
    (current : ∀ wd ∈ before.fleet.wds, Current api wd)
    (goes : Goes config api before.fleet.wds (prioritizedModels lowercase config before.fleet.wds message)) :
    Goes config api after.fleet.wds (prioritizedModels lowercase config after.fleet.wds message) := by
  rw [cycled.entries]
  intro entry listed wd settings scaled
  have next := scaledAt_next config current (cycled.reached (List.mem_map_of_mem listed))
  cases old : scaledAt config api before.fleet.wds entry.2 with
  | none =>
    rw [old] at next
    exact absurd (next.symm.trans scaled) (by simp)
  | some pair =>
    obtain ⟨oldWd,oldSettings⟩ := pair
    rw [old] at next
    rcases next with ⟨_,gone⟩ | kept
    · exact absurd (gone.symm.trans scaled) (by simp)
    · obtain ⟨-,rfl⟩ := Prod.mk.inj (Option.some.inj (kept.symm.trans scaled))
      exact goes entry listed oldWd oldSettings old

/-- The claimants of a message, and of the same message after its cycle. -/
theorem Cycled.next {before after : State} (cycled : Cycled lowercase config labels api message before after)
    (apart : ((prioritizedModels lowercase config before.fleet.wds message).map Prod.snd).Nodup)
    (current : ∀ wd ∈ before.fleet.wds, Current api wd)
    (goes : Goes config api before.fleet.wds (prioritizedModels lowercase config before.fleet.wds message)) :
    Next (ceiling config) 0 ((found lowercase config api message before).map Verdict.claimant)
      ((found lowercase config api message after).map Verdict.claimant) := by
  unfold found
  rw [cycled.entries]
  exact verdicts_next apart current goes (fun i listed => cycled.reached listed) cycled.settled

/-! ### Rest -/

/-- When everyone runs with its share, everyone has its desired replicas. -/
theorem steady_desired {used : Int} {wds : List WorkerDeployment} {entries : List (ModelState × Nat)}
    (apart : (entries.map Prod.snd).Nodup) (within : Rationing.Within (ceiling config) used)
    (steady : Steady (ceiling config) used ((verdicts config api used wds entries).map Verdict.claimant)) :
    ∀ verdict ∈ verdicts config api used wds entries, (verdict.wd.replicas : Int) = verdict.desired := by
  induction entries generalizing used with
  | nil => rintro verdict ⟨⟩
  | cons entry rest ih =>
    obtain ⟨model,i⟩ := entry
    obtain ⟨-,others⟩ := List.nodup_cons.mp apart
    rw [verdicts_cons apart] at steady ⊢
    cases scaled : scaledAt config api wds i with
    | none =>
      rw [scaled] at steady
      exact ih others within steady
    | some pair =>
      obtain ⟨wd,settings⟩ := pair
      rw [scaled] at steady
      rcases demand_cases config settings model (config.budget used) with
        ⟨count,desired,demands,desires⟩ | ⟨error,demands,desires⟩
      · simp only [demands,desires,List.map_cons] at steady ⊢
        obtain ⟨here,later⟩ := steady
        simp only [Verdict.claimant] at here later
        have granted := desired_granted wd demands desires
        have desiredHere : (wd.replicas : Int) = desired := by
          rcases granted with same | ⟨idle,nothing⟩
          · exact here.trans same.symm
          · dsimp only at idle nothing
            rw [here,idle,share_zero within,nothing]
        have counts : counted wd.replicas desired = share (ceiling config) used count := by
          rw [← here]
          simp [counted,desiredHere]
        rw [counts] at later ⊢
        exact List.forall_mem_cons.mpr ⟨desiredHere,ih others (share_within within count) later⟩
      · simp [demands,desires]

theorem ceiling_within (config : Config) : Rationing.Within (ceiling config) 0 := by
  intro limit limited
  unfold ceiling at limited
  split at limited <;> cases limited
  exact Int.natCast_nonneg _

/-- The same message finds everything as it is to be. -/
structure Rest (lowercase : Lowercase) (config : Config) (api : OasisApi) (message : QueueStatusMessage)
    (fleet : Fleet) : Prop where
  desired : ∀ verdict ∈ verdicts config api 0 fleet.wds (prioritizedModels lowercase config fleet.wds message),
    (verdict.wd.replicas : Int) = verdict.desired
  known : ∀ i ∈ (prioritizedModels lowercase config fleet.wds message).map Prod.snd, ∀ wd,
    fleet.wds[i]? = some wd → ready config api wd = wd

theorem Rest.loads {fleet : Fleet} (rest : Rest lowercase config api message fleet)
    (apart : ((prioritizedModels lowercase config fleet.wds message).map Prod.snd).Nodup) :
    loaded config api fleet.wds (prioritizedModels lowercase config fleet.wds message) = fleet.wds := by
  refine List.ext_getElem? fun j => ?_
  rw [loaded_get fleet.wds apart]
  split_ifs with listed
  · cases here : fleet.wds[j]? with
    | none => rfl
    | some wd => exact congrArg some (rest.known j listed wd here)
  · rfl

/-- It asks for nothing. -/
theorem Rest.quiet {fleet : Fleet} (rest : Rest lowercase config api message fleet)
    (apart : ((prioritizedModels lowercase config fleet.wds message).map Prod.snd).Nodup)
    (goes : Goes config api fleet.wds (prioritizedModels lowercase config fleet.wds message)) :
    (processQueueStatusMessage lowercase config api fleet message).requests = [] ∧
      (processQueueStatusMessage lowercase config api fleet message).fleet.wds = fleet.wds := by
  have unraised : (processQueueStatusMessage lowercase config api fleet message).raised = none :=
    (goes_iff apart).mpr goes
  obtain ⟨requests,wds⟩ := scaleModels_verdicts unraised
  refine ⟨?_,wds.trans (rest.loads apart)⟩
  rw [processQueueStatusMessage,requests,List.filterMap_eq_nil_iff]
  intro verdict listed
  simp [Verdict.request,rest.desired verdict listed]

/-- A cycle leaves it so. -/
theorem Rest.cycled {before after : State} (rest : Rest lowercase config api message before.fleet)
    (apart : ((prioritizedModels lowercase config before.fleet.wds message).map Prod.snd).Nodup)
    (tracked : Tracked lowercase labels before) (quiet : Quiet before)
    (cycled : Cycled lowercase config labels api message before after) :
    after.fleet = before.fleet ∧ after.cluster = before.cluster := by
  obtain ⟨uncollected,-,unreported⟩ := quiet.uncollected tracked
  obtain ⟨uncollectedAfter,-,-⟩ := cycled.quiet.uncollected cycled.tracked
  have follows : ∀ wd ∈ before.fleet.wds, before.cluster wd.name = wd.replicas := by
    intro wd listed
    rw [tracked.follows wd listed,unreported]
    rfl
  have cluster : after.cluster = before.cluster := by
    funext name
    by_cases scaled : ∃ verdict ∈ found lowercase config api message before, verdict.wd.name = name
    · obtain ⟨verdict,listed,rfl⟩ := scaled
      obtain ⟨i,_,old,here,same⟩ := verdict_place apart listed
      have runs := follows old (List.mem_of_getElem? here)
      have desired := rest.desired verdict listed
      rw [cycled.settled verdict listed,← desired,same,loadSettings_name_eq,loadSettings_replicas_eq,runs]
      exact Int.toNat_natCast _
    · exact cycled.others name fun verdict listed same => scaled ⟨verdict,listed,same⟩
  refine ⟨?_,cluster⟩
  have wds : after.fleet.wds = before.fleet.wds := by
    refine List.ext_getElem? fun j => ?_
    rw [cycled.wds j,cluster]
    cases here : before.fleet.wds[j]? with
    | none => rfl
    | some wd =>
      have replicas := follows wd (List.mem_of_getElem? here)
      refine congrArg some ?_
      dsimp only
      rw [replicas]
      split_ifs with listed
      · rw [rest.known j listed wd here]
        rfl
      · rfl
  calc
    after.fleet = ⟨after.fleet.wds,after.fleet.cleanup,after.fleet.timer⟩ := rfl
    _ = ⟨before.fleet.wds,before.fleet.cleanup,before.fleet.timer⟩ := by
      rw [wds,uncollected,uncollectedAfter,quiet.untimed,cycled.quiet.untimed]
    _ = before.fleet := rfl

/-- Two cycles bring a fleet to rest, with the workers handed out in order. -/
theorem cycles_rest {first second third : State} (tracked : Tracked lowercase labels first) (quiet : Quiet first)
    (current : ∀ wd ∈ first.fleet.wds, Current api wd)
    (apart : ((prioritizedModels lowercase config first.fleet.wds message).map Prod.snd).Nodup)
    (goes : Goes config api first.fleet.wds (prioritizedModels lowercase config first.fleet.wds message))
    (one : Cycle lowercase config labels api message first second)
    (two : Cycle lowercase config labels api message second third) :
    Cycled lowercase config labels api message second third ∧ Rest lowercase config api message third.fleet ∧
      Steady (ceiling config) 0 ((found lowercase config api message third).map Verdict.claimant) := by
  have cycledOne := cycle_cycled tracked quiet apart goes one
  have apartTwo := cycledOne.entries ▸ apart
  have currentTwo := cycledOne.current current
  have goesTwo := cycledOne.goes current goes
  have cycledTwo := cycle_cycled cycledOne.tracked cycledOne.quiet apartTwo goesTwo two
  have calm := next_calm (cycledOne.next apart current goes) le_rfl (ceiling_within config)
  have steady := next_steady (cycledTwo.next apartTwo currentTwo goesTwo) calm (ceiling_within config)
  refine ⟨cycledTwo,⟨steady_desired (cycledTwo.entries ▸ apartTwo) (ceiling_within config) steady,?_⟩,steady⟩
  intro i listed wd here
  rw [cycledTwo.entries] at listed
  rw [cycledTwo.reached listed] at here
  obtain ⟨old,there,rfl⟩ := Option.map_eq_some_iff.mp here
  exact ready_again (currentTwo old (List.mem_of_getElem? there)) _

theorem Rest.further {state later : State} (rest : Rest lowercase config api message state.fleet)
    (tracked : Tracked lowercase labels state) (quiet : Quiet state)
    (apart : ((prioritizedModels lowercase config state.fleet.wds message).map Prod.snd).Nodup)
    (goes : Goes config api state.fleet.wds (prioritizedModels lowercase config state.fleet.wds message))
    (cycles : Relation.ReflTransGen (Cycle lowercase config labels api message) state later) :
    Tracked lowercase labels later ∧ Quiet later ∧ later.fleet = state.fleet ∧ later.cluster = state.cluster := by
  induction cycles with
  | refl => exact ⟨tracked,quiet,rfl,rfl⟩
  | tail _ cycle ih =>
    obtain ⟨trackedNow,quietNow,fleet,cluster⟩ := ih
    rw [← fleet] at rest apart goes
    have cycled := cycle_cycled trackedNow quietNow apart goes cycle
    obtain ⟨sameFleet,sameCluster⟩ := rest.cycled apart trackedNow quietNow cycled
    exact ⟨cycled.tracked,cycled.quiet,sameFleet.trans fleet,sameCluster.trans cluster⟩

end Cycles

/-- From any quiet state, after two cycles of one message, the workers of the models that it
    scales are handed out in order, within the limit, and no further cycle changes anything. -/
theorem cycles_settle (lowercase : Lowercase) (config : Config) (labels : String → Labels) (api : OasisApi)
    (message : QueueStatusMessage) (wds : List WorkerDeployment) (cluster : String → Nat) (events : List Event)
    (cached : Cached lowercase labels wds) (agrees : ∀ wd ∈ wds, cluster wd.name = wd.replicas)
    {first second third : State} (reached : (start wds cluster).run lowercase config labels events = first)
    (quiet : Quiet first) (current : ∀ wd ∈ first.fleet.wds, Current api wd)
    (apart : ((prioritizedModels lowercase config first.fleet.wds message).map Prod.snd).Nodup)
    (goes : (processQueueStatusMessage lowercase config api first.fleet message).raised = none)
    (one : Cycle lowercase config labels api message first second)
    (two : Cycle lowercase config labels api message second third) :
    let workers := (found lowercase config api message third).map fun verdict => (third.cluster verdict.wd.name : Int)
    workers = greedy (ceiling config) 0 ((found lowercase config api message third).map Verdict.demand) ∧
      (∀ limit, ceiling config = some limit → workers.sum ≤ limit) ∧
      (processQueueStatusMessage lowercase config api third.fleet message).requests = [] ∧
      ∀ later, Relation.ReflTransGen (Cycle lowercase config labels api message) third later →
        later.fleet = third.fleet ∧ later.cluster = third.cluster := by
  intro workers
  have tracked : Tracked lowercase labels first := reached ▸ run_tracked events (start_tracked cached agrees)
  have firstGoes := (goes_iff apart).mp goes
  obtain ⟨cycled,rest,steady⟩ := cycles_rest tracked quiet current apart firstGoes one two
  have cycledOne := cycle_cycled tracked quiet apart firstGoes one
  have goesTwo := cycledOne.goes current firstGoes
  have goesThree := cycled.goes (cycledOne.current current) goesTwo
  have apartThree : ((prioritizedModels lowercase config third.fleet.wds message).map Prod.snd).Nodup :=
    cycled.entries ▸ cycledOne.entries ▸ apart
  have handed : workers = greedy (ceiling config) 0 ((found lowercase config api message third).map Verdict.demand) := by
    have settled := steady_greedy steady
    rw [List.map_map,List.map_map] at settled
    refine Eq.trans (List.map_congr_left fun verdict listed => ?_) settled
    obtain ⟨i,_,old,here,same⟩ := verdict_place apartThree listed
    have follows := cycled.tracked.follows old (List.mem_of_getElem? here)
    rw [(cycled.quiet.uncollected cycled.tracked).2.2] at follows
    show (third.cluster verdict.wd.name : Int) = verdict.wd.replicas
    rw [same,loadSettings_name_eq,loadSettings_replicas_eq,follows]
    rfl
  refine ⟨handed,?_,(rest.quiet apartThree goesThree).1,fun later further => ?_⟩
  · intro limit limited
    have most := greedy_within (ceiling_within config) ((found lowercase config api message third).map Verdict.demand) limit limited
    rw [handed]
    simpa using most
  · exact (rest.further cycled.tracked cycled.quiet apartThree goesThree further).2.2

def limitThree : Config := ⟨none,some 3,false,false⟩

/-- An analysis on each of the queues. -/
def twoQueues : QueueStatusMessage :=
  let first := ['s','-','m','-','1','-','v','2']
  let second := ['s','-','m','-','2','-','v','2']
  [⟨⟨first,0,1,0,1,0⟩,[⟨1,4,1,[first],1⟩]⟩,⟨⟨second,0,1,0,1,0⟩,[⟨2,4,1,[second],1⟩]⟩]

/-- The first deployment is scaled, the second has what is left of the limit. -/
def firstCycle : List Event := [.load twoWorkers,.scale,.patched,.load twoWorkers,.watch,.scale]

def secondCycle : List Event := [.load twoWorkers,.scale,.load twoWorkers,.scale]

def begun : State :=
  start twoDeployments fun name => if name = "worker-b" then 1 else 0

def afterOne : State := begun.run asciiLowercase limitThree twoLabels (.receive twoQueues :: firstCycle)

def afterTwo : State := afterOne.run asciiLowercase limitThree twoLabels (.receive twoQueues :: secondCycle)

theorem cycles_settle_two :
    (found asciiLowercase limitThree twoWorkers twoQueues afterTwo).map
        (fun verdict => (afterTwo.cluster verdict.wd.name : Int)) = [2,1] ∧
      (afterTwo.run asciiLowercase limitThree twoLabels (.receive twoQueues :: secondCycle)).fleet = afterTwo.fleet ∧
      (afterTwo.run asciiLowercase limitThree twoLabels (.receive twoQueues :: secondCycle)).cluster = afterTwo.cluster :=
  have settled := cycles_settle asciiLowercase limitThree twoLabels twoWorkers twoQueues twoDeployments begun.cluster []
    twoDeployments_cached (by simp [twoDeployments,begun,start]) rfl ⟨⟨rfl,rfl,rfl⟩,rfl,rfl⟩
    (by simp [State.run,start,twoDeployments,Current]) (by decide +kernel) rfl
    ⟨firstCycle,by simp [firstCycle,Event.within],(rfl : _ = afterOne),⟨by decide +kernel,rfl,rfl⟩,rfl⟩
    ⟨secondCycle,by simp [secondCycle,Event.within],(rfl : _ = afterTwo),⟨by decide +kernel,rfl,rfl⟩,rfl⟩
  ⟨settled.1.trans (by decide +kernel),settled.2.2.2 _
    (.single ⟨secondCycle,by simp [secondCycle,Event.within],rfl,⟨by decide +kernel,rfl,rfl⟩,rfl⟩)⟩

end OasisPlatform.SteadyScaling
