import Mathlib.Algebra.Order.Ring.Int
import OasisPlatform.Autoscaler
import OasisPlatform.Dictionaries
import OasisPlatform.ListSelections

/-!
The work that waits for the models, and its priorities. The states give each queue the
analyses that list it, and every other deployment a state of zero, exactly when no analysis
lists a queue twice and no deployment comes before one whose id goes on with three more
characters (`queued_work_iff`). The states that are cleared are those below the highest
priorities, for any priorities.
-/
namespace OasisPlatform.QueuedWork
open OasisPlatform.PathText OasisPlatform.AutoscalerRules OasisPlatform.WorkerDeployments OasisPlatform.Autoscaler
open OasisPlatform.Dictionaries OasisPlatform.ListSelections
set_option linter.unusedSimpArgs false

/-- The analyses that list a queue. -/
def listing (lowercase : Lowercase) (analyses : List RunningAnalysis) (name : Text) : List RunningAnalysis :=
  analyses.filter fun analysis => name ∈ analysis.queueNames.map lowercase.lower

def total (analyses : List RunningAnalysis) : ModelState where
  tasks := (analyses.map (·.tasks)).sum
  analyses := analyses.length
  priority := (analyses.map (·.priority)).foldr max 0

/-- The id without its last three characters. -/
def stem (id : Text) : Text := id.take (id.length - 3)

/-- No analysis lists the queue of the id, with or without its API version. -/
def Unlisted (lowercase : Lowercase) (analyses : List RunningAnalysis) (id : Text) : Prop :=
  listing lowercase analyses id = [] ∧ listing lowercase analyses (stem id) = []

def ids (lowercase : Lowercase) (wds : List WorkerDeployment) : List Text := wds.map (·.idString lowercase)

/-- Each key once; the queues that are listed with the total of their analyses, and zero for
    the deployments that are not. -/
def Aggregates (lowercase : Lowercase) (wds : List WorkerDeployment) (analyses : List RunningAnalysis)
    (states : ModelStates) : Prop :=
  (keys states).Nodup ∧
    (∀ name, listing lowercase analyses name ≠ [] → find states name = some (total (listing lowercase analyses name))) ∧
    (∀ id ∈ ids lowercase wds, Unlisted lowercase analyses id → find states id = some ⟨0,0,1⟩) ∧
    ∀ name, listing lowercase analyses name = [] →
      ¬(name ∈ ids lowercase wds ∧ Unlisted lowercase analyses name) → find states name = none

/-- The order of the analyses does not matter. -/
def OrderFree (lowercase : Lowercase) (wds : List WorkerDeployment) (analyses : List RunningAnalysis) : Prop :=
  ∀ others : List RunningAnalysis, others.Perm analyses → ∀ name,
    find (aggregateModelStates lowercase wds others) name = find (aggregateModelStates lowercase wds analyses) name

def ListedOnce (lowercase : Lowercase) (analyses : List RunningAnalysis) : Prop :=
  ∀ analysis ∈ analyses, (analysis.queueNames.map lowercase.lower).Nodup

/-- Of two ids that are not listed, the longer by three characters comes first. -/
def StemsLater (lowercase : Lowercase) (wds : List WorkerDeployment) (analyses : List RunningAnalysis) : Prop :=
  ∀ id ∈ ids lowercase wds, ∀ other ∈ ids lowercase wds, Unlisted lowercase analyses id →
    Unlisted lowercase analyses other → other = stem id →
    (ids lowercase wds).idxOf id ≤ (ids lowercase wds).idxOf other

/-- What an analysis adds to a state. -/
def counted (analysis : RunningAnalysis) : Option ModelState → ModelState
  | none => ⟨analysis.tasks,1,analysis.priority⟩
  | some state => ⟨state.tasks + analysis.tasks,state.analyses + 1,max state.priority analysis.priority⟩

theorem addAnalysis_eq (lowercase : Lowercase) (analysis : RunningAnalysis) (states : ModelStates) (queueName : Text) :
    addAnalysis lowercase analysis states queueName =
      upsert states (lowercase.lower queueName) (counted analysis) := rfl

/-- The analyses that list a queue, each as often as it does. -/
def occurrences (lowercase : Lowercase) (analyses : List RunningAnalysis) (name : Text) : List RunningAnalysis :=
  analyses.flatMap fun analysis =>
    (analysis.queueNames.filter fun queueName => lowercase.lower queueName = name).map fun _ => analysis

/-- The states before the deployments are added. -/
def queueStates (lowercase : Lowercase) (analyses : List RunningAnalysis) : ModelStates :=
  analyses.foldl (fun states analysis => analysis.queueNames.foldl (addAnalysis lowercase analysis) states) []

def listings (analyses : List RunningAnalysis) : List (RunningAnalysis × Text) :=
  analyses.flatMap fun analysis => analysis.queueNames.map fun queueName => (analysis,queueName)

theorem queueStates_eq (lowercase : Lowercase) (analyses : List RunningAnalysis) :
    queueStates lowercase analyses = (listings analyses).foldl
      (fun states listed => upsert states (lowercase.lower listed.2) (counted listed.1)) [] := by
  simp only [queueStates,listings,List.foldl_flatMap,List.foldl_map,← addAnalysis_eq]

theorem listings_filter (lowercase : Lowercase) (analyses : List RunningAnalysis) (name : Text) :
    ((listings analyses).filter fun listed => lowercase.lower listed.2 = name).map Prod.fst =
      occurrences lowercase analyses name := by
  simp only [listings,occurrences,List.filter_flatMap,List.map_flatMap,List.filter_map,List.map_map]
  rfl

theorem foldl_counted_some (analyses : List RunningAnalysis) (state : ModelState) :
    analyses.foldl (fun state analysis => some (counted analysis state)) (some state) =
      some ⟨state.tasks + (total analyses).tasks,state.analyses + (total analyses).analyses,
        max state.priority (total analyses).priority⟩ := by
  induction analyses generalizing state with
  | nil => simp [total]
  | cons analysis rest ih =>
    rw [List.foldl_cons,ih]
    simp only [counted,total,List.map_cons,List.sum_cons,List.length_cons,List.foldr_cons,Option.some.injEq,
      ModelState.mk.injEq]
    omega

theorem foldl_counted (analyses : List RunningAnalysis) :
    analyses.foldl (fun state analysis => some (counted analysis state)) none =
      if analyses = [] then none else some (total analyses) := by
  cases analyses with
  | nil => rfl
  | cons analysis rest =>
    rw [List.foldl_cons,foldl_counted_some]
    simp only [counted,total,List.map_cons,List.sum_cons,List.length_cons,List.foldr_cons,reduceCtorEq,if_false,
      Option.some.injEq,ModelState.mk.injEq,true_and,and_true]
    omega

theorem find_queueStates (lowercase : Lowercase) (analyses : List RunningAnalysis) (name : Text) :
    find (queueStates lowercase analyses) name =
      if occurrences lowercase analyses name = [] then none else some (total (occurrences lowercase analyses name)) := by
  rw [queueStates_eq,find_foldl_upsert (fun listed : RunningAnalysis × Text => lowercase.lower listed.2)
      (fun listed => counted listed.1),
    ← foldl_counted,← listings_filter,List.foldl_map,find_nil]

theorem queueStates_nodup (lowercase : Lowercase) (analyses : List RunningAnalysis) :
    (keys (queueStates lowercase analyses)).Nodup := by
  rw [queueStates_eq]
  exact keys_foldl_upsert_nodup (fun listed : RunningAnalysis × Text => lowercase.lower listed.2)
    (fun listed => counted listed.1) _ List.nodup_nil

theorem count_lower (lowercase : Lowercase) (queueNames : List Text) (name : Text) :
    (queueNames.map lowercase.lower).count name =
      (queueNames.filter fun queueName => lowercase.lower queueName = name).length := by
  rw [List.count,List.countP_map,List.countP_eq_length_filter]
  exact congrArg List.length (List.filter_congr fun queueName _ => beq_eq_decide ..)

theorem occurrences_cons (lowercase : Lowercase) (analysis : RunningAnalysis) (rest : List RunningAnalysis)
    (name : Text) : (occurrences lowercase (analysis :: rest) name).length =
      (analysis.queueNames.map lowercase.lower).count name + (occurrences lowercase rest name).length := by
  simp only [occurrences,List.flatMap_cons,List.length_append,List.length_map,count_lower]

theorem listing_cons (lowercase : Lowercase) (analysis : RunningAnalysis) (rest : List RunningAnalysis)
    (name : Text) : (listing lowercase (analysis :: rest) name).length =
      min 1 ((analysis.queueNames.map lowercase.lower).count name) + (listing lowercase rest name).length := by
  by_cases listed : name ∈ analysis.queueNames.map lowercase.lower
  · have some := List.count_pos_iff.mpr listed
    simp only [listing,List.filter_cons,listed,decide_true,if_true,List.length_cons]
    omega
  · have none := List.count_eq_zero.mpr listed
    simp only [listing,List.filter_cons,listed,decide_false,Bool.false_eq_true,if_false,none]
    omega

theorem listing_le (lowercase : Lowercase) (analyses : List RunningAnalysis) (name : Text) :
    (listing lowercase analyses name).length ≤ (occurrences lowercase analyses name).length := by
  induction analyses with
  | nil => exact Nat.le_refl _
  | cons analysis rest ih =>
    rw [listing_cons,occurrences_cons]
    omega

theorem occurrences_eq_nil_iff (lowercase : Lowercase) (analyses : List RunningAnalysis) (name : Text) :
    occurrences lowercase analyses name = [] ↔ listing lowercase analyses name = [] := by
  simp only [occurrences,listing,List.flatMap_eq_nil_iff,List.map_eq_nil_iff,List.filter_eq_nil_iff,List.mem_map,
    decide_eq_true_eq,not_exists,not_and]

/-- Queues that are counted once for each analysis are listed once. -/
theorem listed_once_of_length {lowercase : Lowercase} {analyses : List RunningAnalysis}
    (lengths : ∀ name, (occurrences lowercase analyses name).length = (listing lowercase analyses name).length) :
    ListedOnce lowercase analyses := by
  induction analyses with
  | nil => simp [ListedOnce]
  | cons analysis rest ih =>
    have split (name : Text) : (analysis.queueNames.map lowercase.lower).count name ≤ 1 ∧
        (occurrences lowercase rest name).length = (listing lowercase rest name).length := by
      have same := lengths name
      have below := listing_le lowercase rest name
      rw [occurrences_cons,listing_cons] at same
      omega
    intro other listed
    rcases List.mem_cons.mp listed with rfl | listed
    · exact List.nodup_iff_count_le_one.mpr fun name => (split name).1
    · exact ih (fun name => (split name).2) other listed

theorem occurrences_eq {lowercase : Lowercase} {analyses : List RunningAnalysis} (once : ListedOnce lowercase analyses)
    (name : Text) : occurrences lowercase analyses name = listing lowercase analyses name := by
  induction analyses with
  | nil => rfl
  | cons analysis rest ih =>
    have tail := ih fun other listed => once other (List.mem_cons_of_mem _ listed)
    have single := List.nodup_iff_count_le_one.mp (once analysis List.mem_cons_self) name
    rw [count_lower] at single
    have head : (analysis.queueNames.filter fun queueName => lowercase.lower queueName = name).map (fun _ => analysis) =
        if name ∈ analysis.queueNames.map lowercase.lower then [analysis] else [] := by
      cases found : analysis.queueNames.filter fun queueName => lowercase.lower queueName = name with
      | nil =>
        have absent : name ∉ analysis.queueNames.map lowercase.lower := by
          simpa [List.filter_eq_nil_iff] using found
        rw [if_neg absent,List.map_nil]
      | cons queueName more =>
        have listed : queueName ∈ analysis.queueNames ∧ lowercase.lower queueName = name := by
          simpa using (found ▸ List.mem_cons_self : queueName ∈
            analysis.queueNames.filter fun queueName => lowercase.lower queueName = name)
        have last : more = [] := by
          rw [found,List.length_cons] at single
          exact List.length_eq_zero_iff.mp (by omega)
        rw [if_pos (List.mem_map.mpr ⟨queueName,listed⟩),last,List.map_cons,List.map_nil]
    rw [occurrences,List.flatMap_cons,head]
    change _ ++ occurrences lowercase rest name = _
    rw [tail]
    by_cases listed : name ∈ analysis.queueNames.map lowercase.lower
    · simp only [listing,listed,if_true,List.filter_cons,decide_true,List.singleton_append]
    · simp only [listing,listed,if_false,List.filter_cons,decide_false,Bool.false_eq_true,List.nil_append]

theorem mem_keys_queueStates (lowercase : Lowercase) (analyses : List RunningAnalysis) (name : Text) :
    name ∈ keys (queueStates lowercase analyses) ↔ listing lowercase analyses name ≠ [] := by
  rw [← not_iff_not,← find_eq_none_iff,find_queueStates,ite_eq_left_iff]
  simp [occurrences_eq_nil_iff]

theorem addMissing_cases (lowercase : Lowercase) (states : ModelStates) (wd : WorkerDeployment) :
    (addMissing lowercase states wd = states ∧ take stem (keys states) (wd.idString lowercase) = keys states) ∨
      (addMissing lowercase states wd = states ++ [(wd.idString lowercase,⟨0,0,1⟩)] ∧
        take stem (keys states) (wd.idString lowercase) = keys states ++ [wd.idString lowercase]) := by
  have there : (states.any fun entry => entry.1 = wd.idString lowercase ∨
        entry.1 = (wd.idString lowercase).take ((wd.idString lowercase).length - 3)) = true ↔
      wd.idString lowercase ∈ keys states ∨ stem (wd.idString lowercase) ∈ keys states := by
    simp only [List.any_eq_true,decide_eq_true_eq,keys,List.mem_map,stem,and_or_left,exists_or]
  by_cases held : wd.idString lowercase ∈ keys states ∨ stem (wd.idString lowercase) ∈ keys states
  · exact .inl ⟨if_pos (there.mpr held),if_pos held⟩
  · exact .inr ⟨if_neg (mt there.mp held),if_neg held⟩

/-- The deployments are added after the queues, with a state of zero each. -/
theorem foldl_addMissing (lowercase : Lowercase) (wds : List WorkerDeployment) (states : ModelStates) :
    ∃ added : List Text, wds.foldl (addMissing lowercase) states = states ++ added.map (fun id => (id,⟨0,0,1⟩)) ∧
      collect stem (keys states) (ids lowercase wds) = keys states ++ added := by
  induction wds generalizing states with
  | nil => exact ⟨[],by simp,by simp [ids]⟩
  | cons wd rest ih =>
    obtain ⟨added,extended,collected⟩ := ih (addMissing lowercase states wd)
    rcases addMissing_cases lowercase states wd with ⟨same,taken⟩ | ⟨new,taken⟩
    · rw [same] at extended collected
      refine ⟨added,by rw [List.foldl_cons,same,extended],?_⟩
      rw [ids,List.map_cons,collect_cons,taken]
      exact collected
    · rw [new] at extended collected
      have grown : keys (states ++ [(wd.idString lowercase,(⟨0,0,1⟩ : ModelState))]) =
          keys states ++ [wd.idString lowercase] := by simp [keys]
      rw [grown] at collected
      refine ⟨wd.idString lowercase :: added,?_,?_⟩
      · rw [List.foldl_cons,new,extended]
        simp
      · rw [ids,List.map_cons,collect_cons,taken]
        simpa [ids] using collected

theorem keys_aggregate (lowercase : Lowercase) (wds : List WorkerDeployment) (analyses : List RunningAnalysis) :
    keys (aggregateModelStates lowercase wds analyses) =
      collect stem (keys (queueStates lowercase analyses)) (ids lowercase wds) := by
  obtain ⟨added,extended,collected⟩ := foldl_addMissing lowercase wds (queueStates lowercase analyses)
  rw [collected]
  change keys (wds.foldl (addMissing lowercase) (queueStates lowercase analyses)) = _
  rw [extended]
  simp [keys,Function.comp_def]

theorem find_zeros (added : List Text) (name : Text) :
    find (added.map fun id => (id,(⟨0,0,1⟩ : ModelState))) name = if name ∈ added then some ⟨0,0,1⟩ else none := by
  induction added with
  | nil => simp
  | cons id rest ih =>
    rw [List.map_cons,find_cons,ih]
    by_cases same : id = name
    · simp [same]
    · simp [same,Ne.symm same]

/-- A key is a queue with its states, or a deployment that was added with zero. -/
theorem find_aggregate (lowercase : Lowercase) (wds : List WorkerDeployment) (analyses : List RunningAnalysis)
    (name : Text) :
    find (aggregateModelStates lowercase wds analyses) name =
      if listing lowercase analyses name ≠ [] then some (total (occurrences lowercase analyses name))
      else if name ∈ keys (aggregateModelStates lowercase wds analyses) then some ⟨0,0,1⟩ else none := by
  obtain ⟨added,extended,collected⟩ := foldl_addMissing lowercase wds (queueStates lowercase analyses)
  have whole : aggregateModelStates lowercase wds analyses =
      queueStates lowercase analyses ++ added.map fun id => (id,⟨0,0,1⟩) := extended
  rw [keys_aggregate,collected,whole,find_append,find_queueStates,find_zeros]
  by_cases listed : listing lowercase analyses name = []
  · have outside : name ∉ keys (queueStates lowercase analyses) := by
      rw [mem_keys_queueStates]
      simpa using listed
    simp [occurrences_eq_nil_iff,listed,outside]
  · simp [occurrences_eq_nil_iff,listed]

theorem free_iff (lowercase : Lowercase) (analyses : List RunningAnalysis) (id : Text) :
    Free stem (keys (queueStates lowercase analyses)) id ↔ Unlisted lowercase analyses id := by
  simp [Free,Unlisted,mem_keys_queueStates]

theorem aggregates_iff (lowercase : Lowercase) (wds : List WorkerDeployment) (analyses : List RunningAnalysis) :
    Aggregates lowercase wds analyses (aggregateModelStates lowercase wds analyses) ↔
      ListedOnce lowercase analyses ∧ StemsLater lowercase wds analyses := by
  have ordered := collects_iff stem (keys (queueStates lowercase analyses)) (ids lowercase wds)
  simp only [free_iff,← keys_aggregate] at ordered
  unfold StemsLater
  rw [← ordered]
  constructor
  · rintro ⟨-,queues,zeros,-⟩
    constructor
    · refine listed_once_of_length fun name => ?_
      by_cases listed : listing lowercase analyses name = []
      · rw [listed,(occurrences_eq_nil_iff lowercase analyses name).mpr listed]
      · have found := queues name listed
        rw [find_aggregate,if_pos listed,Option.some.injEq] at found
        exact congrArg ModelState.analyses found
    · intro id member unlisted
      exact find_isSome_iff.mp (by simp [zeros id member unlisted])
  · rintro ⟨once,added⟩
    refine ⟨?_,?_,?_,?_⟩
    · rw [keys_aggregate]
      exact collect_nodup stem (queueStates_nodup lowercase analyses) _
    · intro name listed
      rw [find_aggregate,if_pos listed,occurrences_eq once]
    · intro id member unlisted
      rw [find_aggregate,if_neg (by simpa using unlisted.1),if_pos (added id member unlisted)]
    · intro name unlisted other
      rw [find_eq_none_iff,keys_aggregate]
      intro member
      rcases mem_collect member with queue | ⟨deployment,free⟩
      · exact (mem_keys_queueStates lowercase analyses name).mp queue unlisted
      · exact other ⟨deployment,(free_iff lowercase analyses name).mp free⟩

theorem total_perm {analyses others : List RunningAnalysis} (permuted : others.Perm analyses) :
    total others = total analyses := by
  have tasks : (others.map (·.tasks)).sum = (analyses.map (·.tasks)).sum := (permuted.map _).sum_nat
  have priorities : (others.map (·.priority)).foldr max 0 = (analyses.map (·.priority)).foldr max 0 :=
    (permuted.map _).foldr_eq' (fun a _ b _ c => max_left_comm b a c) 0
  rw [total,total,tasks,priorities,permuted.length_eq]

theorem listing_perm {lowercase : Lowercase} {analyses others : List RunningAnalysis} (permuted : others.Perm analyses)
    (name : Text) : listing lowercase others name = [] ↔ listing lowercase analyses name = [] := by
  rw [← List.length_eq_zero_iff,← List.length_eq_zero_iff,listing,listing,(permuted.filter _).length_eq]

theorem order_free (lowercase : Lowercase) (wds : List WorkerDeployment) (analyses : List RunningAnalysis) :
    OrderFree lowercase wds analyses := by
  intro others permuted name
  have totals : total (occurrences lowercase others name) = total (occurrences lowercase analyses name) :=
    total_perm (permuted.flatMap_right _)
  have queues (key : Text) : key ∈ keys (queueStates lowercase others) ↔ key ∈ keys (queueStates lowercase analyses) := by
    rw [mem_keys_queueStates,mem_keys_queueStates,Ne,Ne,listing_perm permuted]
  simp only [find_aggregate,Ne,listing_perm permuted,totals,keys_aggregate,
    collect_congr stem queues (ids lowercase wds) name]

/-! ### Priorities -/

section Priorities
variable {ι : Type}

def priorities (models : List (ModelState × ι)) : List Nat := models.map fun model => model.1.priority

/-- The priority is among the largest, where their number is limited. -/
def Kept (config : Config) (models : List (ModelState × ι)) (state : ModelState) : Prop :=
  ∀ limit ∈ config.prioritizedModelsLimit, larger (priorities models) state.priority < limit

instance (config : Config) (models : List (ModelState × ι)) (state : ModelState) : Decidable (Kept config models state) :=
  inferInstanceAs (Decidable (∀ limit ∈ config.prioritizedModelsLimit, _))

/-- The same models in the same order; the states with a priority among the largest are as
    they were, and the others are zero. -/
def Prioritises (config : Config) (models cleared : List (ModelState × ι)) : Prop :=
  cleared.length = models.length ∧ cleared.map Prod.snd = models.map Prod.snd ∧
    ∀ (i : Nat) (model : ModelState × ι), models[i]? = some model →
      (Kept config models model.1 → cleared[i]? = some model) ∧
        (¬Kept config models model.1 → cleared[i]? = some (⟨0,0,1⟩,model.2))

def cleared (config : Config) (models : List (ModelState × ι)) (model : ModelState × ι) : ModelState × ι :=
  if Kept config models model.1 then model else (⟨0,0,1⟩,model.2)

theorem mem_priorities {models : List (ModelState × ι)} {model : ModelState × ι} (listed : model ∈ models) :
    model.1.priority ∈ priorities models := List.mem_map.mpr ⟨model,listed,rfl⟩

theorem map_cleared_eq {config : Config} {models : List (ModelState × ι)}
    (kept : ∀ model ∈ models, Kept config models model.1) : models.map (cleared config models) = models :=
  (List.map_congr_left fun model listed => if_pos (kept model listed)).trans (List.map_id models)

theorem clear_eq_map {config : Config} (positive : ∀ limit, config.prioritizedModelsLimit = some limit → 1 ≤ limit)
    (models : List (ModelState × ι)) :
    clearUnprioritizedModels config models = models.map (cleared config models) := by
  unfold clearUnprioritizedModels getHighestModelPriorities
  cases limited : config.prioritizedModelsLimit with
  | none => exact (map_cleared_eq (by simp [Kept,limited])).symm
  | some limit =>
    have some_limit := positive limit limited
    cases limit with
    | zero => omega
    | succ limit =>
      have size : ((models.map fun model => model.1.priority).dedup.mergeSort fun a b => decide (b ≤ a)).length =
          (priorities models).dedup.length := (List.mergeSort_perm _ _).length_eq
      by_cases several : 1 < (priorities models).dedup.length
      · rw [← size] at several
        simp only [several,if_true]
        refine List.map_congr_left fun model listed => ?_
        have selected := mem_largest_iff (limit + 1) (priorities models) model.1.priority
        simp only [mem_priorities listed,true_and] at selected
        refine if_congr (selected.trans ?_) rfl rfl
        simp [Kept,limited]
      · have all (model : ModelState × ι) (listed : model ∈ models) : Kept config models model.1 := by
          have below := larger_lt_length (mem_priorities listed)
          intro most given
          rw [limited,Option.mem_some_iff] at given
          omega
        rw [← size] at several
        simp only [several,if_false]
        exact (map_cleared_eq all).symm

theorem clear_prioritises {config : Config}
    (positive : ∀ limit, config.prioritizedModelsLimit = some limit → 1 ≤ limit) (models : List (ModelState × ι)) :
    Prioritises config models (clearUnprioritizedModels config models) := by
  rw [clear_eq_map positive]
  refine ⟨List.length_map _,?_,?_⟩
  · rw [List.map_map]
    refine List.map_congr_left fun model _ => ?_
    simp only [Function.comp_apply,cleared]
    split <;> rfl
  · intro i model found
    rw [List.getElem?_map,found,Option.map_some]
    constructor
    · intro kept
      rw [cleared,if_pos kept]
    · intro lower
      rw [cleared,if_neg lower]

/-- A state that is kept is still kept when the others are zero: none of those had a
    priority as large. -/
theorem kept_again {config : Config} {models : List (ModelState × ι)} {state : ModelState}
    (kept : Kept config models state) : Kept config (models.map (cleared config models)) state := by
  intro limit given
  refine lt_of_le_of_lt (larger_le ?_) (kept limit given)
  intro priority listed above
  simp only [priorities,List.map_map,List.mem_map,Function.comp_apply] at listed
  obtain ⟨model,member,rfl⟩ := listed
  by_cases still : Kept config models model.1
  · rw [cleared,if_pos still] at above ⊢
    exact ⟨mem_priorities member,above⟩
  · exfalso
    rw [cleared,if_neg still] at above
    have lowest : state.priority = 0 := by simpa using above
    refine still fun most bound => lt_of_le_of_lt (larger_le ?_) (kept most bound)
    intro other listed exceeds
    exact ⟨listed,by omega⟩

theorem clear_idempotent {config : Config}
    (positive : ∀ limit, config.prioritizedModelsLimit = some limit → 1 ≤ limit) (models : List (ModelState × ι)) :
    clearUnprioritizedModels config (clearUnprioritizedModels config models) = clearUnprioritizedModels config models := by
  rw [clear_eq_map positive models,clear_eq_map positive,List.map_map]
  refine List.map_congr_left fun model _ => ?_
  by_cases kept : Kept config models model.1
  · have first : cleared config models model = model := if_pos kept
    rw [Function.comp_apply,first,cleared,if_pos (kept_again kept)]
  · have first : cleared config models model = (⟨0,0,1⟩,model.2) := if_neg kept
    rw [Function.comp_apply,first,cleared]
    split <;> rfl

theorem queued_work_iff (lowercase : Lowercase) (wds : List WorkerDeployment) (analyses : List RunningAnalysis)
    (config : Config) (positive : ∀ limit, config.prioritizedModelsLimit = some limit → 1 ≤ limit)
    (models : List (ModelState × ι)) :
    Aggregates lowercase wds analyses (aggregateModelStates lowercase wds analyses) ∧ OrderFree lowercase wds analyses ∧
        Prioritises config models (clearUnprioritizedModels config models) ∧
        clearUnprioritizedModels config (clearUnprioritizedModels config models) =
          clearUnprioritizedModels config models ↔
      ListedOnce lowercase analyses ∧ StemsLater lowercase wds analyses := by
  rw [← aggregates_iff]
  exact and_iff_left ⟨order_free lowercase wds analyses,clear_prioritises positive models,
    clear_idempotent positive models⟩

end Priorities

/-- Two deployments without work: the id of the second is that of the first and "-v2". -/
def stemFirst : List WorkerDeployment :=
  [{ name := "first", supplierId := ['s'], modelId := ['m'], modelVersionId := ['1'], apiVersion := ['v','1']
     replicas := 0 },
    { name := "second", supplierId := ['s'], modelId := ['m'], modelVersionId := ['1','-','v','1']
      apiVersion := ['v','2'], replicas := 0 }]

/-- The second one gets no state. -/
theorem stemFirst_missing :
    find (aggregateModelStates asciiLowercase stemFirst []) ['s','-','m','-','1','-','v','1','-','v','2'] = none ∧
      ¬Aggregates asciiLowercase stemFirst [] (aggregateModelStates asciiLowercase stemFirst []) := by
  have missing : find (aggregateModelStates asciiLowercase stemFirst [])
      ['s','-','m','-','1','-','v','1','-','v','2'] = none := by decide +kernel
  refine ⟨missing,fun aggregates => ?_⟩
  have zero := aggregates.2.2.1 ['s','-','m','-','1','-','v','1','-','v','2'] (by decide +kernel) ⟨rfl,rfl⟩
  rw [missing] at zero
  cases zero

/-- The other way round, with a deployment for which there is work. -/
def stemLast : List WorkerDeployment :=
  stemFirst.reverse ++ [{ name := "third", supplierId := ['s'], modelId := ['n'], modelVersionId := ['1']
                          apiVersion := ['v','2'], replicas := 1 }]

/-- Two analyses of the third deployment, one of which waits for a queue of its own as well. -/
def thirdWork : List RunningAnalysis :=
  [⟨.analysis 1,3,[['s','-','n','-','1','-','v','2']],2⟩,⟨.analysis 2,4,[['S','-','N','-','1','-','V','2'],['q']],5⟩]

def twoModels : List (ModelState × Char) := [(⟨3,1,2⟩,'a'),(⟨1,1,1⟩,'b')]

theorem queued_work_third :
    Aggregates asciiLowercase stemLast thirdWork (aggregateModelStates asciiLowercase stemLast thirdWork) ∧
      OrderFree asciiLowercase stemLast thirdWork ∧
      Prioritises ⟨some 1,none,false,false⟩ twoModels (clearUnprioritizedModels ⟨some 1,none,false,false⟩ twoModels) ∧
      clearUnprioritizedModels ⟨some 1,none,false,false⟩
          (clearUnprioritizedModels ⟨some 1,none,false,false⟩ twoModels) =
        clearUnprioritizedModels ⟨some 1,none,false,false⟩ twoModels := by
  have once : ListedOnce asciiLowercase thirdWork := by
    unfold ListedOnce
    decide +kernel
  have later : StemsLater asciiLowercase stemLast thirdWork := by
    unfold StemsLater Unlisted
    decide +kernel
  exact (queued_work_iff asciiLowercase stemLast thirdWork ⟨some 1,none,false,false⟩ (by simp) twoModels).mpr ⟨once,later⟩

end OasisPlatform.QueuedWork
