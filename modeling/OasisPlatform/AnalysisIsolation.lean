import OasisPlatform.AnalysisViews

/-!
Isolation of analyses by group. A user without further rights asks for something while an
analysis belongs to a portfolio of other groups. Whatever the analysis is like, the answer
and the dispatched tasks are the same, but for the two actions that do not go through the
queryset of the user: the progress of its run, and a combination that names it
(`isolated_iff`).
-/
namespace OasisPlatform.AnalysisIsolation
open OasisPlatform.SharedRow OasisPlatform.Models OasisPlatform.Starting OasisPlatform.GroupAccess
open OasisPlatform.AnalysisViews OasisPlatform.AutoscalerRules
set_option linter.unusedSimpArgs false

variable {γ : Type} [DecidableEq γ]

omit [DecidableEq γ] in
theorem map_replace_ids (analyses : List (AnalysisRecord γ)) (other : AnalysisRecord γ) :
    (analyses.map fun analysis => if analysis.id = other.id then other else analysis).map AnalysisRecord.id =
      analyses.map AnalysisRecord.id := by
  rw [List.map_map]
  refine List.map_congr_left ?_
  intro analysis _
  by_cases same : analysis.id = other.id <;> simp [same]

/-- The analysis with the id of `other` is like `other`. -/
def replace (db : Database γ) (other : AnalysisRecord γ) : Database γ where
  shared := db.shared
  analyses := db.analyses.map fun analysis => if analysis.id = other.id then other else analysis
  primaryKey := (map_replace_ids db.analyses other).symm ▸ db.primaryKey

/-- The portfolio of the analysis has groups, none of them the user's. -/
def Hidden (shared : Shared γ) (user : User γ) (analysis : AnalysisRecord γ) : Prop :=
  ∃ portfolio, shared.portfolioOf analysis.portfolio = some portfolio ∧ portfolio.groups ≠ [] ∧
    ∀ group ∈ portfolio.groups, group ∉ user.groups

/-- The answer and the tasks do not depend on the hidden analysis with this id. -/
def Isolated (site : Site γ) (db : Database γ) (user : User γ) (id : AnalysisId) (request : Request γ) : Prop :=
  ∀ other : AnalysisRecord γ, other.id = id → Hidden db.shared user other →
    respond site (replace db other) user request = respond site db user request

/-- The progress of the analysis is asked for, or a combination with a configuration that
    names it, among analyses that are all there. -/
def Reads (db : Database γ) (id : AnalysisId) : Request γ → Prop
  | .combine data => ∃ ids config, data.analysisIds = some ids ∧ data.config = some config ∧ id ∈ ids ∧
      (db.analyses.filter fun analysis => analysis.id ∈ ids).length = ids.length
  | .runProgress pk => pk = id
  | _ => False

section Seen
variable {site : Site γ} {db : Database γ} {user : User γ} {analysis other : AnalysisRecord γ}

omit [DecidableEq γ] in
/-- Neither the analysis nor what it is replaced by is looked for. -/
theorem filter_replace {looked : AnalysisRecord γ → Bool} (unlooked : looked other = false)
    (rest : ∀ analysis ∈ db.analyses, analysis.id = other.id → looked analysis = false) :
    (replace db other).analyses.filter looked = db.analyses.filter looked := by
  show (db.analyses.map _).filter looked = _
  generalize db.analyses = analyses at rest ⊢
  induction analyses with
  | nil => rfl
  | cons analysis later ih =>
    have tail := ih fun analysis listed => rest analysis (List.mem_cons_of_mem _ listed)
    by_cases same : analysis.id = other.id
    · have hidden := rest analysis List.mem_cons_self same
      simpa [same,unlooked,hidden] using tail
    · by_cases found : looked analysis = true <;> simpa [same,found] using tail

theorem hidden_unseen (hidden : Hidden db.shared user analysis) :
    (db.shared.portfolios.filter fun portfolio => inUserGroupsOrNone user portfolio.groups).any
      (fun portfolio => portfolio.id = analysis.portfolio) = false := by
  obtain ⟨own,found,some_groups,foreign⟩ := hidden
  rw [Bool.eq_false_iff]
  intro seen
  obtain ⟨portfolio,listed,same⟩ := List.any_eq_true.mp seen
  obtain ⟨stored,visible⟩ := List.mem_filter.mp listed
  have key : own.id = analysis.portfolio := by simpa using List.find?_some found
  have one : portfolio = own := by
    refine List.inj_on_of_nodup_map db.shared.portfolioKey stored (List.mem_of_find?_eq_some found) ?_
    rw [key]
    simpa using same
  subst one
  unfold inUserGroupsOrNone at visible
  rcases (Bool.or_eq_true _ _).mp visible with groupless | shared
  · exact some_groups (by simpa using groupless)
  · obtain ⟨group,member,listed⟩ := List.any_eq_true.mp shared
    exact foreign group (by simpa using listed) member

/-- A hidden analysis, and another hidden one in its place. -/
structure Swap (db : Database γ) (user : User γ) (analysis other : AnalysisRecord γ) : Prop where
  stored : analysis ∈ db.analyses
  hidden : Hidden db.shared user analysis
  same : other.id = analysis.id
  otherHidden : Hidden db.shared user other

omit [DecidableEq γ] in
/-- There is one row with the id. -/
theorem Swap.row_hidden (swap : Swap db user analysis other) :
    ∀ row ∈ db.analyses, row.id = other.id → Hidden db.shared user row := by
  intro row listed rowSame
  have one : row = analysis := List.inj_on_of_nodup_map db.primaryKey listed swap.stored (rowSame.trans swap.same)
  rw [one]
  exact swap.hidden

/-- The user sees the same analyses. -/
theorem getAnalyses_replace (plain : user.isAdmin = false) (swap : Swap db user analysis other) :
    getAnalyses (replace db other) user = getAnalyses db user := by
  unfold getAnalyses
  rw [plain_superuser plain]
  simp only [Bool.false_eq_true,if_false]
  refine filter_replace (hidden_unseen swap.otherHidden) ?_
  intro row listed same
  exact hidden_unseen (swap.row_hidden row listed same)

omit [DecidableEq γ] in
/-- Another analysis is found as before. -/
theorem find_replace {pk : AnalysisId} (different : pk ≠ other.id) :
    ((replace db other).analyses.find? fun row => row.id = pk) = db.analyses.find? fun row => row.id = pk := by
  rw [← List.head?_filter,← List.head?_filter]
  refine congrArg List.head? (filter_replace ?_ ?_)
  · simpa using Ne.symm different
  · intro row _ same
    simpa [same] using Ne.symm different

omit [DecidableEq γ] in
theorem find_stored (stored : analysis ∈ db.analyses) :
    (db.analyses.find? fun row => row.id = analysis.id) = some analysis := by
  have found : (db.analyses.find? fun row => row.id = analysis.id).isSome := by
    rw [List.find?_isSome]
    exact ⟨analysis,stored,by simp⟩
  obtain ⟨row,row_found⟩ := Option.isSome_iff_exists.mp found
  have same : row.id = analysis.id := by simpa using List.find?_some row_found
  have one := List.inj_on_of_nodup_map db.primaryKey (List.mem_of_find?_eq_some row_found) stored same
  rw [row_found,one]

omit [DecidableEq γ] in
theorem replaced_stored (stored : analysis ∈ db.analyses) (same : other.id = analysis.id) :
    other ∈ (replace db other).analyses :=
  List.mem_map.mpr ⟨analysis,stored,by simp [same]⟩

/-- A hidden analysis may not be changed. -/
theorem mayChange_hidden (plain : user.isAdmin = false) {pk : AnalysisId}
    (found : (db.analyses.find? fun row => row.id = pk) = some analysis) (hidden : Hidden db.shared user analysis) :
    mayChange db user pk = false := by
  obtain ⟨portfolio,owned,some_groups,foreign⟩ := hidden
  have stranger : validateUserIsOwner user portfolio.groups = false := by
    rw [Bool.eq_false_iff]
    intro owner
    rcases (owner_iff plain).mp owner with groupless | ⟨group,listed,member⟩
    · exact some_groups groupless
    · exact foreign group listed member
  simp [mayChange,plain_superuser plain,found,owned,stranger]

/-- Whether an analysis may be changed does not depend on the hidden one. -/
theorem mayChange_replace (plain : user.isAdmin = false) (swap : Swap db user analysis other) (pk : AnalysisId) :
    mayChange (replace db other) user pk = mayChange db user pk := by
  by_cases here : pk = other.id
  · have before : mayChange db user pk = false := by
      refine mayChange_hidden plain ?_ swap.hidden
      rw [here,swap.same]
      exact find_stored swap.stored
    have after : mayChange (replace db other) user pk = false := by
      have found := find_stored (replaced_stored swap.stored swap.same)
      rw [← here] at found
      exact mayChange_hidden plain found swap.otherHidden
    rw [before,after]
  · unfold mayChange
    rw [find_replace here]
    rfl

theorem detail_replace (plain : user.isAdmin = false) (swap : Swap db user analysis other) (pk : AnalysisId)
    (action : DetailAction) : detail site (replace db other) user pk action = detail site db user pk action := by
  unfold detail
  rw [mayChange_replace plain swap,getAnalyses_replace plain swap]
  rfl

omit [DecidableEq γ] in
/-- As many analyses are named. -/
theorem named_length (ids : List AnalysisId) :
    ((replace db other).analyses.filter fun row => row.id ∈ ids).length =
      (db.analyses.filter fun row => row.id ∈ ids).length := by
  have count : ∀ analyses : List (AnalysisRecord γ), (analyses.filter fun row => row.id ∈ ids).length =
      ((analyses.map AnalysisRecord.id).filter fun id => id ∈ ids).length := by
    intro analyses
    rw [List.filter_map,List.length_map]
    rfl
  rw [count,count]
  exact congrArg (fun keys : List AnalysisId => (keys.filter fun id => id ∈ ids).length)
    (map_replace_ids db.analyses other)

omit [DecidableEq γ] in
theorem combine_replace {data : CombineData} (unread : ¬ Reads db other.id (.combine data)) :
    combine site (replace db other) user data = combine site db user data := by
  unfold combine
  cases given : data.analysisIds with
  | none => rfl
  | some ids =>
    cases configured : data.config with
    | none => rfl
    | some config =>
      simp only
      by_cases named : other.id ∈ ids
      · have missing : (db.analyses.filter fun row => row.id ∈ ids).length ≠ ids.length :=
          fun all => unread ⟨ids,config,given,configured,named,all⟩
        rw [named_length,if_pos missing,if_pos missing]
      · have selected : ((replace db other).analyses.filter fun row => row.id ∈ ids) =
            db.analyses.filter fun row => row.id ∈ ids := by
          refine filter_replace (by simpa using named) ?_
          intro row _ same
          simpa [same] using named
        rw [selected]
        rfl

/-- What does not read the analysis is answered as if it were another. -/
theorem unread_isolated (plain : user.isAdmin = false) (stored : analysis ∈ db.analyses)
    (hidden : Hidden db.shared user analysis) {request : Request γ} (unread : ¬ Reads db analysis.id request) :
    Isolated site db user analysis.id request := by
  intro other same otherHidden
  have swap : Swap db user analysis other := ⟨stored,hidden,same,otherHidden⟩
  cases request with
  | list filter =>
    simp only [respond]
    rw [getAnalyses_replace plain swap]
    rfl
  | create attrs => rfl
  | detail pk action => exact detail_replace plain swap pk action
  | combine data =>
    rw [← same] at unread
    exact combine_replace unread
  | runProgress pk =>
    have different : pk ≠ other.id := by
      rw [same]
      exact unread
    simp only [respond,runProgress]
    rw [find_replace different]

end Seen

section Leaks
variable {site : Site γ} {db : Database γ} {user : User γ} {analysis : AnalysisRecord γ}

/-- The analysis with other columns. -/
def withRow (analysis : AnalysisRecord γ) (row : AnalysisRow) : AnalysisRecord γ := { analysis with row := row }

/-- Isolation makes the answers the same for any two rows of the analysis. -/
theorem isolated_rows (hidden : Hidden db.shared user analysis) {request : Request γ}
    (isolated : Isolated site db user analysis.id request) (first second : AnalysisRow) :
    respond site (replace db (withRow analysis first)) user request =
      respond site (replace db (withRow analysis second)) user request := by
  have before := isolated (withRow analysis first) rfl hidden
  have after := isolated (withRow analysis second) rfl hidden
  rw [before,after]

def progressRow (row : AnalysisRow) (complete : Int) : AnalysisRow :=
  Function.update (Function.update row .numEventsComplete complete) .numEventsTotal 0

omit [DecidableEq γ] in
/-- The progress is read from the table. -/
theorem runProgress_withRow (stored : analysis ∈ db.analyses) (complete : Int) :
    runProgress (replace db (withRow analysis (progressRow analysis.row complete))) analysis.id =
      (.status (toString complete ++ "/" ++ toString (0 : Int) ++ " gul stages complete"),[]) := by
  have same : (withRow analysis (progressRow analysis.row complete)).id = analysis.id := rfl
  have found := find_stored (replaced_stored stored same)
  rw [same] at found
  unfold runProgress
  rw [found]
  simp [withRow,progressRow]

/-- The progress shows the events of a hidden analysis. -/
theorem runProgress_leaks (stored : analysis ∈ db.analyses) (hidden : Hidden db.shared user analysis) :
    ¬ Isolated site db user analysis.id (.runProgress analysis.id) := by
  intro isolated
  have same := isolated_rows hidden isolated (progressRow analysis.row 0) (progressRow analysis.row 1)
  simp only [respond,runProgress_withRow stored] at same
  have text := Response.status.inj (congrArg Prod.fst same)
  exact absurd text (by decide)

/-- A completed analysis without an input file, which `run_combine` refuses by its id. -/
def inputMissing (site : Site γ) (analysis : AnalysisRecord γ) : Bool :=
  analysis.row .status = .runCompleted && (link site (analysis.file .inputFile)).isNone

omit [DecidableEq γ] in
theorem combineErrors_inputs (selected : List (AnalysisRecord γ)) :
    (combineErrors site selected).countP (fun error => error.1 = "input_file") =
      selected.countP (inputMissing site) := by
  have named : ∀ valid : List (AnalysisRecord γ), (valid.flatMap fun analysis =>
      (if (link site (analysis.file .inputFile)).isNone then
        [("input_file","Analysis ID " ++ toString analysis.id ++ " does not have an input file")] else []) ++
      (if (link site (analysis.file .outputFile)).isNone then
        [("output_file","Analysis ID " ++ toString analysis.id ++ " does not have an output_file")] else [])).countP
          (fun error => error.1 = "input_file") =
      valid.countP fun analysis => (link site (analysis.file .inputFile)).isNone := by
    intro valid
    induction valid with
    | nil => rfl
    | cons analysis later ih =>
      rw [List.flatMap_cons,List.countP_append,ih,List.countP_cons]
      by_cases noInput : (link site (analysis.file .inputFile)).isNone = true <;>
        by_cases noOutput : (link site (analysis.file .outputFile)).isNone = true <;>
          simp [noInput,noOutput] <;> omega
  unfold combineErrors
  rw [List.countP_append,named,List.countP_filter]
  have status : (if (selected.filter fun analysis => analysis.row .status = .runCompleted).length ≠ selected.length then
      [("status","Analyses status must be [RUN_COMPLETED]")] else []).countP
        (fun error => error.1 = "input_file") = 0 := by
    split_ifs <;> simp
  rw [status,Nat.zero_add]
  refine List.countP_congr ?_
  intro analysis _
  simp [inputMissing,and_comm]

def refusedRow (row : AnalysisRow) (status : AnalysisStatus) : AnalysisRow :=
  Function.update (Function.update row .status status) .inputFile none

omit [DecidableEq γ] in
theorem inputMissing_refused (status : AnalysisStatus) :
    inputMissing site (withRow analysis (refusedRow analysis.row status)) = decide (status = .runCompleted) := by
  simp [inputMissing,withRow,refusedRow,AnalysisRecord.file,fileId,link]

omit [DecidableEq γ] in
/-- The named analyses, with the one of `other` like it. -/
theorem filter_named (other : AnalysisRecord γ) (ids : List AnalysisId) :
    ((replace db other).analyses.filter fun row => row.id ∈ ids) =
      (db.analyses.filter fun row => row.id ∈ ids).map fun row => if row.id = other.id then other else row := by
  show (db.analyses.map _).filter _ = _
  rw [List.filter_map]
  congr 1
  refine List.filter_congr ?_
  intro row _
  by_cases same : row.id = other.id <;> simp [same]

/-- What is counted besides makes the count greater. -/
theorem countP_lt {α : Type} {less more : α → Bool} {rows : List α} (weaker : ∀ row ∈ rows, less row → more row)
    {extra : α} (listed : extra ∈ rows) (uncounted : less extra = false) (counted : more extra = true) :
    rows.countP less < rows.countP more := by
  obtain ⟨before,after,rfl⟩ := List.append_of_mem listed
  have early : before.countP less ≤ before.countP more :=
    List.countP_mono_left fun row earlier => weaker row (List.mem_append_left _ earlier)
  have late : after.countP less ≤ after.countP more :=
    List.countP_mono_left fun row later => weaker row (List.mem_append_right _ (List.mem_cons_of_mem _ later))
  simp only [List.countP_append,List.countP_cons,uncounted,counted,if_true,Bool.false_eq_true,if_false]
  omega

omit [DecidableEq γ] in
/-- One more input file is missing when the named analysis is completed. -/
theorem inputMissing_count (site : Site γ) {ids : List AnalysisId} (stored : analysis ∈ db.analyses)
    (named : analysis.id ∈ ids) :
    ((replace db (withRow analysis (refusedRow analysis.row .new))).analyses.filter fun row => row.id ∈ ids).countP
        (inputMissing site) <
      ((replace db (withRow analysis (refusedRow analysis.row .runCompleted))).analyses.filter fun row =>
        row.id ∈ ids).countP (inputMissing site) := by
  rw [filter_named,filter_named,List.countP_map,List.countP_map]
  have listed : analysis ∈ db.analyses.filter fun row => row.id ∈ ids :=
    List.mem_filter.mpr ⟨stored,by simpa using named⟩
  have same : ∀ row, (withRow analysis row).id = analysis.id := fun _ => rfl
  refine countP_lt ?_ listed ?_ ?_
  · intro row _ missing
    simp only [Function.comp_apply,same] at missing ⊢
    by_cases here : row.id = analysis.id
    · rw [if_pos here,inputMissing_refused]
      rfl
    · rw [if_neg here] at missing ⊢
      exact missing
  · simp only [Function.comp_apply,same,if_true]
    rw [inputMissing_refused]
    rfl
  · simp only [Function.comp_apply,same,if_true]
    rw [inputMissing_refused]
    rfl

omit [DecidableEq γ] in
/-- An answer of errors tells which. -/
theorem runCombine_errors {shared : Shared γ} {first second : List (AnalysisRecord γ)} {config : String}
    {name : Option String} (refused : combineErrors site first ≠ [])
    (same : runCombine site user shared first config name = runCombine site user shared second config name) :
    combineErrors site first = combineErrors site second := by
  obtain ⟨error,rest,errors⟩ := List.exists_cons_of_ne_nil refused
  unfold runCombine at same
  rw [errors] at same ⊢
  cases others : combineErrors site second with
  | cons other later =>
    rw [others] at same
    exact Response.invalid.inj (congrArg Prod.fst same)
  | nil =>
    rw [others] at same
    cases name with
    | none => cases same
    | some name => cases same

/-- A combination answers which of the named analyses are without an input file. -/
theorem combine_leaks (stored : analysis ∈ db.analyses) (hidden : Hidden db.shared user analysis) {data : CombineData}
    (reads : Reads db analysis.id (.combine data)) : ¬ Isolated site db user analysis.id (.combine data) := by
  intro isolated
  obtain ⟨ids,config,given,configured,named,all⟩ := reads
  have same := isolated_rows hidden isolated (refusedRow analysis.row .runCompleted) (refusedRow analysis.row .new)
  simp only [respond,combine,given,configured,named_length,all,ne_eq,not_true,if_false] at same
  have more := inputMissing_count site stored named
  rw [← combineErrors_inputs,← combineErrors_inputs] at more
  have refused := List.ne_nil_of_length_pos (Nat.lt_of_lt_of_le (Nat.zero_lt_of_lt more) List.countP_le_length)
  have errors := runCombine_errors refused same
  rw [errors] at more
  exact Nat.lt_irrefl _ more

/-- Every answer is the same whatever the hidden analysis is like, exactly where it is not
    read from the table. -/
theorem isolated_iff (site : Site γ) (db : Database γ) (user : User γ) (analysis : AnalysisRecord γ)
    (plain : user.isAdmin = false) (stored : analysis ∈ db.analyses) (hidden : Hidden db.shared user analysis)
    (request : Request γ) : Isolated site db user analysis.id request ↔ ¬ Reads db analysis.id request := by
  constructor
  · intro isolated reads
    cases request with
    | combine data => exact combine_leaks stored hidden reads isolated
    | runProgress pk =>
      have here : pk = analysis.id := reads
      subst here
      exact runProgress_leaks stored hidden isolated
    | list filter => exact reads
    | create attrs => exact reads
    | detail pk action => exact reads
  · exact unread_isolated plain stored hidden

end Leaks

/-- A site that keeps its files under their names. -/
def plainSite : Site String where
  names := ⟨id,Function.injective_id⟩
  env := calmEnv
  fileStorageLink := fun file _ => some file.filename
  listTarFile := fun _ => []
  extractFileFromTar := fun _ _ => none
  fileLen := fun _ => .ok 1
  parseJson := fun _ => none
  str := fun _ => ""
  adminLevels := [8,9,10]
  taskControllerQueue := "task-controller"
  validateSettings := .ok
  taskId := "task"

/-- A completed analysis with an input and an output file. -/
def insurersAnalysis : AnalysisRecord String where
  id := 1
  name := "insurers"
  creator := 3
  created := 0
  modified := 0
  portfolio := 1
  model := none
  row := Function.update (Function.update (Function.update newAnalysis .status .runCompleted) .inputFile (some 1))
    .outputFile (some 2)
  chunkingOptions := none
  dataFiles := []
  subTasks := []
  stored := fun id => some ⟨if id = 1 then "inputs.tar.gz" else "outputs.tar.gz","application/gzip",["insurers"],"",none⟩

def insurersOnly : Database String where
  shared := ⟨[{ id := 1, groups := ["insurers"], files := {} }],[],[],fun _ => none,2,by simp⟩
  analyses := [insurersAnalysis]
  primaryKey := by simp

theorem insurersAnalysis_hidden : Hidden insurersOnly.shared broker insurersAnalysis :=
  ⟨{ id := 1, groups := ["insurers"], files := {} },rfl,by simp,by decide⟩

theorem retrieve_isolated : Isolated plainSite insurersOnly broker 1 (.detail 1 .retrieve) :=
  (isolated_iff plainSite insurersOnly broker insurersAnalysis rfl List.mem_cons_self insurersAnalysis_hidden _).mpr id

/-- A user of another group combines the files of the analysis, and is told its progress. -/
theorem insurersAnalysis_read :
    (respond plainSite insurersOnly broker (.combine ⟨some [1],some "config",some "combined"⟩)).2 =
        [.runCombine [some "inputs.tar.gz"] [some "outputs.tar.gz"] "config",.recordCombineOutput 2 7] ∧
      ¬ Isolated plainSite insurersOnly broker 1 (.combine ⟨some [1],some "config",some "combined"⟩) ∧
      ¬ Isolated plainSite insurersOnly broker 1 (.runProgress 1) := by
  refine ⟨rfl,?_,?_⟩
  · exact combine_leaks List.mem_cons_self insurersAnalysis_hidden ⟨[1],"config",rfl,rfl,List.mem_cons_self,rfl⟩
  · exact runProgress_leaks List.mem_cons_self insurersAnalysis_hidden

end OasisPlatform.AnalysisIsolation
