import Mathlib.Data.Rat.Floor
import Mathlib.Algebra.Order.Floor.Ring
import OasisPlatform.ScalingOptions
import OasisPlatform.Starting

/-!
The chunking options that the API stores, and the numbers of chunks that the controller
takes from them. Two columns may be null, and `validate` skips a null: the numbers are in
their bounds for every accepted portfolio exactly when the fixed counts that are used are
not null (`chunks_usable_iff`).
-/
namespace OasisPlatform.ChunkCounts
open OasisPlatform.PathText OasisPlatform.Starting
open OasisPlatform.ScalingOptions (Value integerField problem?)
set_option linter.unusedSimpArgs false

inductive Stage where
  | lookup
  | loss
  deriving DecidableEq, Repr

inductive Column where
  | dynamicLocationsPerLookup
  | dynamicEventsPerAnalysis
  | dynamicChunksMax
  | fixedAnalysisChunks
  | fixedLookupChunks
  deriving DecidableEq, Repr

/-- `null=True`. -/
def Column.nullable : Column → Bool
  | .fixedAnalysisChunks | .fixedLookupChunks => true
  | _ => false

/-- The validators of the columns: `PositiveSmallIntegerField` and `PositiveIntegerField`. -/
def Column.maximum : Column → Int
  | .fixedAnalysisChunks | .fixedLookupChunks => 32767
  | _ => 2147483647

structure ModelChunkingOptions where
  strategy : Stage → ChunkingType := fun _ => .fixedChunks
  value : Column → Option Int := fun
    | .dynamicLocationsPerLookup => some 10000
    | .dynamicEventsPerAnalysis => some 1
    | .dynamicChunksMax => some 200
    | .fixedAnalysisChunks => some 1
    | .fixedLookupChunks => some 1

/-- `initial_data`: a JSON object, or a form, whose values are all texts. -/
structure Submission where
  form : Bool := false
  strategy : Stage → Option Value := fun _ => none
  value : Column → Option Value := fun _ => none

inductive Field where
  | strategy (stage : Stage)
  | value (column : Column)
  deriving DecidableEq, Repr

inductive Problem where
  | field (problem : ScalingOptions.Problem)
  /-- "Value is less than one." -/
  | belowOne

/-- What a nullable field reads as null. -/
def emptyInput (form : Bool) : Option Value → Bool
  | some .null => true
  | some (.string []) => form
  | _ => false

/-- An `IntegerField` with a default: absent, or given with its value. -/
def columnField (column : Column) (form : Bool) (input : Option Value) :
    Except ScalingOptions.Problem (Option (Option Int)) :=
  if column.nullable && emptyInput form input then .ok (some none)
  else (integerField column.maximum form input).map fun given => given.map some

def chunkingTypeNamed (text : Text) : Option ChunkingType :=
  if text = "FIXED_CHUNKS".toList then some .fixedChunks
  else if text = "DYNAMIC_CHUNKS".toList then some .dynamicChunks
  else none

def strategyField (form : Bool) : Option Value → Except ScalingOptions.Problem (Option ChunkingType)
  | none => .ok none
  | some .null => .error .null
  | some (.string text) =>
    if form ∧ text = [] then .ok none
    else
      match chunkingTypeNamed text with
      | some strategy => .ok (some strategy)
      | none => .error (.notChoice (.string text))
  | some input => .error (.notChoice input)

/-- `attrs`: the values of the fields that were given. -/
structure Attrs where
  strategy : Stage → Option ChunkingType
  value : Column → Option (Option Int)

def fields : List Field :=
  [.strategy .lookup,.strategy .loss,.value .dynamicLocationsPerLookup,.value .dynamicEventsPerAnalysis,
    .value .dynamicChunksMax,.value .fixedAnalysisChunks,.value .fixedLookupChunks]

def fieldProblem (data : Submission) : Field → Option ScalingOptions.Problem
  | .strategy stage => problem? (strategyField data.form (data.strategy stage))
  | .value column => problem? (columnField column data.form (data.value column))

/-- `to_internal_value`: all fields are read before the errors are raised. -/
def fieldErrors (data : Submission) : List (Field × Problem) :=
  fields.filterMap fun field => (fieldProblem data field).map fun problem => (field,.field problem)

def fieldValues (data : Submission) : Attrs where
  strategy := fun stage => (strategyField data.form (data.strategy stage)).toOption.join
  value := fun column => (columnField column data.form (data.value column)).toOption.join

def nonNegFields : List Column :=
  [.dynamicLocationsPerLookup,.dynamicEventsPerAnalysis,.dynamicChunksMax,.fixedAnalysisChunks,.fixedLookupChunks]

/-- The type and the least value of a field; a null is skipped. -/
def valueProblem : Option Value → Option Problem
  | none => none
  | some .null => none
  | some (.int n) => if n < 1 then some .belowOne else none
  | some (.bool b) => if b then none else some .belowOne
  | some value => some (.field (.notInt value))

def validateErrors (data : Submission) : List (Field × Problem) :=
  nonNegFields.filterMap fun column => (valueProblem (data.value column)).map fun problem => (.value column,problem)

/-- `attrs[k] = value`, where no error is found. -/
def Attrs.set (attrs : Attrs) (data : Submission) : Attrs :=
  { attrs with
    value := fun column =>
      match data.value column with
      | some (.int n) => some (some n)
      | some (.bool b) => some (some (if b then 1 else 0))
      | _ => attrs.value column }

/-- `update`: only the fields that were given are set. -/
def ModelChunkingOptions.update (options : ModelChunkingOptions) (attrs : Attrs) : ModelChunkingOptions where
  strategy := fun stage => (attrs.strategy stage).getD (options.strategy stage)
  value := fun column => (attrs.value column).getD (options.value column)

inductive Response where
  | invalid (errors : List (Field × Problem))
  | saved (options : ModelChunkingOptions)

/-- `is_valid` and `save` of `ModelChunkingConfigSerializer`. -/
def submit (data : Submission) (own : ModelChunkingOptions) : Response :=
  match fieldErrors data,validateErrors data with
  | [],[] => .saved (own.update ((fieldValues data).set data))
  | [],errors => .invalid errors
  | errors,_ => .invalid errors

/-- The options of the model, and those of the analysis where it has its own. -/
structure State where
  model : ModelChunkingOptions := {}
  analysis : Option ModelChunkingOptions := none

inductive Target where
  | model
  | analysis
  deriving DecidableEq, Repr

/-- The two `chunking_configuration` actions. -/
def State.post (state : State) (request : Target × Submission) : State :=
  match request.1 with
  | .model =>
    match submit request.2 state.model with
    | .saved options => { state with model := options }
    | .invalid _ => state
  | .analysis =>
    match submit request.2 (state.analysis.getD {}) with
    | .saved options => { state with analysis := some options }
    | .invalid _ => state

def State.run (requests : List (Target × Submission)) : State := requests.foldl State.post {}

/-- `get_chunking_options`. -/
def State.chunkingOptions (state : State) : ModelChunkingOptions := state.analysis.getD state.model

inductive ChunkError where
  | typeError
  | zeroDivision
  deriving DecidableEq, Repr

/-- `ceil(a / b)`. -/
def ceilDiv (a b : Option Int) : Except ChunkError Int :=
  match a,b with
  | some a,some b => if b = 0 then .error .zeroDivision else .ok ⌈(a : Rat) / b⌉
  | _,_ => .error .typeError

/-- `min(a, b)`. -/
def least (a b : Option Int) : Except ChunkError Int :=
  match a,b with
  | some a,some b => .ok (min a b)
  | _,_ => .error .typeError

def getInputsGenerationChunks (options : ModelChunkingOptions) (locLines : Option Nat) :
    Except ChunkError (Option Int) :=
  match options.strategy .lookup with
  | .fixedChunks =>
    match locLines with
    | none => .ok (options.value .fixedLookupChunks)
    | some lines => (least (options.value .fixedLookupChunks) (some lines)).map some
  | .dynamicChunks => do
    let chunks ← ceilDiv (locLines.map Int.ofNat) (options.value .dynamicLocationsPerLookup)
    (least (some chunks) (options.value .dynamicChunksMax)).map some

def getLossGenerationChunks (options : ModelChunkingOptions) (eventsTotal : Option Nat) :
    Except ChunkError (Option Int) :=
  match options.strategy .loss with
  | .fixedChunks => .ok (options.value .fixedAnalysisChunks)
  | .dynamicChunks => do
    let chunks ← ceilDiv (eventsTotal.map Int.ofNat) (options.value .dynamicEventsPerAnalysis)
    (least (some chunks) (options.value .dynamicChunksMax)).map some

/-- `range(num_chunks)`, for the header of the chord. -/
def headerIndices : Option Int → Except ChunkError (List Nat)
  | none => .error .typeError
  | some numChunks => .ok (List.range numChunks.toNat)

/-- Counts are positive, and null only where the column may be. -/
def ModelChunkingOptions.Valid (options : ModelChunkingOptions) : Prop :=
  ∀ column, (∀ n, options.value column = some n → 1 ≤ n) ∧ (column.nullable = false → options.value column ≠ none)

theorem default_valid : ({} : ModelChunkingOptions).Valid := by
  intro column
  cases column <;> simp [Column.nullable]

theorem submit_saved {data : Submission} {own options : ModelChunkingOptions}
    (saved : submit data own = .saved options) :
    fieldErrors data = [] ∧ validateErrors data = [] ∧ options = own.update ((fieldValues data).set data) := by
  unfold submit at saved
  split at saved
  · rename_i fields values
    exact ⟨fields,values,(Response.saved.inj saved).symm⟩
  · cases saved
  · cases saved

theorem fieldErrors_nil {data : Submission} (clean : fieldErrors data = []) (column : Column) :
    ∃ given, columnField column data.form (data.value column) = .ok given := by
  have listed : Field.value column ∈ fields := by cases column <;> decide
  have none := List.filterMap_eq_nil_iff.mp clean _ listed
  cases read : columnField column data.form (data.value column) with
  | ok given => exact ⟨given,rfl⟩
  | error problem => simp [fieldProblem,problem?,read] at none

theorem validateErrors_nil {data : Submission} (clean : validateErrors data = []) (column : Column) :
    valueProblem (data.value column) = none := by
  have listed : column ∈ nonNegFields := by cases column <;> decide
  simpa using List.filterMap_eq_nil_iff.mp clean _ listed

/-- A count of an accepted submission is absent, null in a nullable column, or positive. -/
theorem given_cases {data : Submission} (fields : fieldErrors data = []) (values : validateErrors data = [])
    (column : Column) :
    ((fieldValues data).set data).value column = none ∨
      (column.nullable = true ∧ ((fieldValues data).set data).value column = some none) ∨
      ∃ n, 1 ≤ n ∧ ((fieldValues data).set data).value column = some (some n) := by
  obtain ⟨given,read⟩ := fieldErrors_nil fields column
  have valid := validateErrors_nil values column
  cases input : data.value column with
  | none => exact .inl (by simp [Attrs.set,fieldValues,columnField,emptyInput,integerField,input,Except.map,Except.toOption])
  | some value =>
    cases value with
    | null =>
      cases nullable : column.nullable with
      | true => exact .inr (.inl ⟨rfl,by simp [Attrs.set,fieldValues,columnField,emptyInput,input,nullable,Except.toOption]⟩)
      | false => simp [columnField,emptyInput,integerField,input,nullable,Except.map] at read
    | int n =>
      have positive : ¬n < 1 := by
        intro below
        simp [input,valueProblem,below] at valid
      exact .inr (.inr ⟨n,by omega,by simp [Attrs.set,input]⟩)
    | bool b => simp [columnField,emptyInput,integerField,input,Except.map] at read
    | float q => simp [input,valueProblem] at valid
    | string text => simp [input,valueProblem] at valid
    | collection => simp [input,valueProblem] at valid

theorem submit_valid {data : Submission} {own options : ModelChunkingOptions} (valid : own.Valid)
    (saved : submit data own = .saved options) : options.Valid := by
  obtain ⟨fields,values,rfl⟩ := submit_saved saved
  intro column
  rcases given_cases fields values column with absent | ⟨nullable,null⟩ | ⟨n,positive,given⟩
  · simpa [ModelChunkingOptions.update,absent] using valid column
  · simp [ModelChunkingOptions.update,null,nullable]
  · simpa [ModelChunkingOptions.update,given] using positive

def State.Valid (state : State) : Prop := state.model.Valid ∧ ∀ options, state.analysis = some options → options.Valid

theorem State.Valid.post {state : State} (valid : state.Valid) (request : Target × Submission) :
    (state.post request).Valid := by
  obtain ⟨target,data⟩ := request
  cases target with
  | model =>
    simp only [State.post]
    split
    · rename_i options saved
      exact ⟨submit_valid valid.1 saved,valid.2⟩
    · exact valid
  | analysis =>
    simp only [State.post]
    split
    · rename_i options saved
      have own : (state.analysis.getD {}).Valid := by
        cases held : state.analysis with
        | none => exact default_valid
        | some options => exact valid.2 options held
      refine ⟨valid.1,?_⟩
      rintro _ ⟨⟩
      exact submit_valid own saved
    · exact valid

theorem run_valid (requests : List (Target × Submission)) : (State.run requests).Valid :=
  List.foldlRecOn (motive := State.Valid) requests State.post ⟨default_valid,by simp⟩
    fun _ valid request _ => valid.post request

theorem State.Valid.chunkingOptions {state : State} (valid : state.Valid) : state.chunkingOptions.Valid := by
  unfold State.chunkingOptions
  cases held : state.analysis with
  | none => exact valid.1
  | some options => exact valid.2 options held

/-! ### Usable numbers of chunks -/

/-- The fixed count of a stage, or `dynamic_chunks_max`. -/
def ModelChunkingOptions.bound (options : ModelChunkingOptions) (stage : Stage) : Option Int :=
  match options.strategy stage,stage with
  | .fixedChunks,.lookup => options.value .fixedLookupChunks
  | .fixedChunks,.loss => options.value .fixedAnalysisChunks
  | .dynamicChunks,_ => options.value .dynamicChunksMax

/-- At least one chunk, in the bound of the stage and in the number of rows where it is
    given; the header of the chord is not empty. -/
def Usable (options : ModelChunkingOptions) (stage : Stage) (rows : Option Nat)
    (numChunks : Except ChunkError (Option Int)) : Prop :=
  ∃ n most : Int, numChunks = .ok (some n) ∧ options.bound stage = some most ∧ 1 ≤ n ∧ n ≤ most ∧
    (∀ lines : Nat, rows = some lines → n ≤ lines) ∧ ∃ indices, headerIndices (some n) = .ok indices ∧ indices ≠ []

/-- A fixed count that is used is not null. -/
def FixedGiven (options : ModelChunkingOptions) : Prop :=
  (options.strategy .lookup = .fixedChunks → options.value .fixedLookupChunks ≠ none) ∧
    (options.strategy .loss = .fixedChunks → options.value .fixedAnalysisChunks ≠ none)

theorem header_nonempty {n : Int} (positive : 1 ≤ n) : ∃ indices, headerIndices (some n) = .ok indices ∧ indices ≠ [] := by
  refine ⟨_,rfl,?_⟩
  rw [Ne,List.range_eq_nil]
  omega

theorem ceil_bounds {a b : Int} (some : 1 ≤ a) (size : 1 ≤ b) : 1 ≤ ⌈(a : Rat) / b⌉ ∧ ⌈(a : Rat) / b⌉ ≤ a := by
  have above : (1 : Rat) ≤ a := by exact_mod_cast some
  have size : (1 : Rat) ≤ b := by exact_mod_cast size
  constructor
  · exact Int.ceil_pos.mpr (div_pos (by linarith) (by linarith))
  · exact Int.ceil_le.mpr (div_le_self (by linarith) size)

/-- The dynamic number of chunks of a stage, from the number of its items. -/
theorem dynamic_usable {options : ModelChunkingOptions} (valid : options.Valid) {stage : Stage}
    (dynamic : options.strategy stage = .dynamicChunks) {column : Column} (held : column.nullable = false) {items : Nat}
    (some_item : 1 ≤ items) {rows : Option Nat} (same : ∀ lines, rows = some lines → lines = items) :
    Usable options stage rows (do
      let chunks ← ceilDiv (some (Int.ofNat items)) (options.value column)
      (least (some chunks) (options.value .dynamicChunksMax)).map some) := by
  obtain ⟨size,read⟩ := Option.ne_none_iff_exists'.mp ((valid column).2 held)
  obtain ⟨most,bound⟩ := Option.ne_none_iff_exists'.mp ((valid .dynamicChunksMax).2 rfl)
  have positive := (valid column).1 size read
  have most_positive := (valid .dynamicChunksMax).1 most bound
  have nonzero : size ≠ 0 := by omega
  have ⟨low,high⟩ := ceil_bounds (a := Int.ofNat items) (by simpa using some_item) positive
  have chosen : 1 ≤ min ⌈((Int.ofNat items : Int) : Rat) / size⌉ most := le_min low most_positive
  refine ⟨min ⌈((Int.ofNat items : Int) : Rat) / size⌉ most,most,?_,by simp [ModelChunkingOptions.bound,dynamic,bound],
    chosen,min_le_right _ _,?_,header_nonempty chosen⟩
  · simp only [read,bound,ceilDiv,least,nonzero,if_false,bind,Except.bind,Except.map]
  · intro lines given
    rw [same lines given]
    exact (min_le_left _ _).trans high

theorem inputs_usable_iff {options : ModelChunkingOptions} (valid : options.Valid) {locLines : Option Nat}
    (some_row : ∀ lines, locLines = some lines → 1 ≤ lines)
    (given : options.strategy .lookup = .dynamicChunks → locLines ≠ none) :
    Usable options .lookup locLines (getInputsGenerationChunks options locLines) ↔
      (options.strategy .lookup = .fixedChunks → options.value .fixedLookupChunks ≠ none) := by
  cases chosen : options.strategy .lookup with
  | fixedChunks =>
    cases fixed : options.value .fixedLookupChunks with
    | none =>
      simp [Usable,ModelChunkingOptions.bound,chosen,fixed]
    | some count =>
      have positive := (valid .fixedLookupChunks).1 count fixed
      refine iff_of_true ?_ (by simp)
      cases rows : locLines with
      | none =>
        refine ⟨count,count,?_,by simp [ModelChunkingOptions.bound,chosen,fixed],positive,le_refl _,by simp,
          header_nonempty positive⟩
        simp [getInputsGenerationChunks,chosen,fixed]
      | some lines =>
        have row := some_row lines rows
        have least_positive : 1 ≤ min count (lines : Int) := le_min positive (by exact_mod_cast row)
        refine ⟨min count lines,count,?_,by simp [ModelChunkingOptions.bound,chosen,fixed],least_positive,min_le_left _ _,
          ?_,header_nonempty least_positive⟩
        · simp [getInputsGenerationChunks,chosen,fixed,least,Except.map]
        · rintro _ ⟨⟩
          exact min_le_right _ _
  | dynamicChunks =>
    obtain ⟨lines,rows⟩ := Option.ne_none_iff_exists'.mp (given chosen)
    refine iff_of_true ?_ (by simp)
    simp only [getInputsGenerationChunks,chosen,rows,Option.map_some]
    exact dynamic_usable valid chosen rfl (some_row lines rows) (by rintro _ ⟨⟩; rfl)

theorem losses_usable_iff {options : ModelChunkingOptions} (valid : options.Valid) {eventsTotal : Option Nat}
    (some_event : ∀ events, eventsTotal = some events → 1 ≤ events)
    (given : options.strategy .loss = .dynamicChunks → eventsTotal ≠ none) :
    Usable options .loss none (getLossGenerationChunks options eventsTotal) ↔
      (options.strategy .loss = .fixedChunks → options.value .fixedAnalysisChunks ≠ none) := by
  cases chosen : options.strategy .loss with
  | fixedChunks =>
    cases fixed : options.value .fixedAnalysisChunks with
    | none =>
      simp [Usable,ModelChunkingOptions.bound,chosen,fixed]
    | some count =>
      have positive := (valid .fixedAnalysisChunks).1 count fixed
      refine iff_of_true ⟨count,count,?_,by simp [ModelChunkingOptions.bound,chosen,fixed],positive,le_refl _,by simp,
        header_nonempty positive⟩ (by simp)
      simp [getLossGenerationChunks,chosen,fixed]
  | dynamicChunks =>
    obtain ⟨events,total⟩ := Option.ne_none_iff_exists'.mp (given chosen)
    refine iff_of_true ?_ (by simp)
    simp only [getLossGenerationChunks,chosen,total,Option.map_some]
    exact dynamic_usable valid chosen rfl (some_event events total) (by simp)

/-- The options as a start reads them. -/
def ModelChunkingOptions.strategies (options : ModelChunkingOptions) : ChunkingOptions :=
  ⟨options.strategy .lookup,options.strategy .loss⟩

/-- The start reads the options of this model and this analysis. -/
def Reads (ctx : StartContext) (model : AnalysisModel) (state : State) : Prop :=
  ctx.chunkingOptions = state.analysis.map ModelChunkingOptions.strategies ∧
    model.chunkingOptions = state.model.strategies

theorem Reads.strategies {ctx : StartContext} {model : AnalysisModel} {state : State} (reads : Reads ctx model state) :
    getChunkingOptions ctx model = state.chunkingOptions.strategies := by
  unfold getChunkingOptions State.chunkingOptions
  rw [reads.1,reads.2]
  cases state.analysis <;> rfl

theorem accepted_rows {ctx : StartContext} {model : AnalysisModel} {locLines : Option Nat}
    (accepted : validateV2LocationFile ctx model [] = (locLines,[])) :
    (∀ lines, locLines = some lines → 1 ≤ lines) ∧
      ((getChunkingOptions ctx model).lookupStrategy = .dynamicChunks → locLines ≠ none) := by
  unfold validateV2LocationFile at accepted
  split at accepted
  · split at accepted
    · exact absurd (Prod.mk.inj accepted).2 (setError_ne_nil _ _ _)
    · rename_i lines read
      obtain ⟨rfl,clean⟩ := Prod.mk.inj accepted
      have row := (setErrorWhen_nil.mp clean).1
      refine ⟨?_,by simp⟩
      rintro _ ⟨⟩
      rw [decide_eq_false_iff_not] at row
      omega
  · obtain ⟨rfl,clean⟩ := Prod.mk.inj accepted
    refine ⟨by simp,fun dynamic => ?_⟩
    have fixed := (setErrorWhen_nil.mp clean).1
    simp [dynamic] at fixed

/-- For the options after any requests, a location file that is accepted, and a number of
    events wherever it is needed. -/
theorem chunks_usable_iff (requests : List (Target × Submission)) (ctx : StartContext) (model : AnalysisModel)
    (reads : Reads ctx model (State.run requests)) (locLines : Option Nat)
    (accepted : validateV2LocationFile ctx model [] = (locLines,[])) (eventsTotal : Option Nat)
    (some_event : ∀ events, eventsTotal = some events → 1 ≤ events)
    (counted : eventsTotal = none → (State.run requests).chunkingOptions.strategy .loss = .fixedChunks) :
    Usable (State.run requests).chunkingOptions .lookup locLines
          (getInputsGenerationChunks (State.run requests).chunkingOptions locLines) ∧
        Usable (State.run requests).chunkingOptions .loss none
          (getLossGenerationChunks (State.run requests).chunkingOptions eventsTotal) ↔
      FixedGiven (State.run requests).chunkingOptions := by
  have valid := (run_valid requests).chunkingOptions
  obtain ⟨rows,given⟩ := accepted_rows accepted
  rw [reads.strategies] at given
  have total : (State.run requests).chunkingOptions.strategy .loss = .dynamicChunks → eventsTotal ≠ none := by
    intro dynamic absent
    simp [counted absent] at dynamic
  exact and_congr (inputs_usable_iff valid rows given) (losses_usable_iff valid some_event total)

/-- `{"fixed_lookup_chunks": null}`, posted to the model. -/
def nullChunks : Target × Submission :=
  (.model,{ value := Function.update (fun _ => none) .fixedLookupChunks (some .null) })

/-- A start of an analysis of the model, whose portfolio has some locations. -/
def located (state : State) (lines : Nat) : StartContext × AnalysisModel :=
  (⟨none,state.analysis.map ModelChunkingOptions.strategies,{ locationFile := some 1 },.ok lines,fun _ => none,fun _ => ""⟩,
    { id := 1, runMode := some .v2, chunkingOptions := state.model.strategies })

theorem located_accepted (state : State) {lines : Nat} (some_line : 1 ≤ lines) :
    Reads (located state lines).1 (located state lines).2 state ∧
      validateV2LocationFile (located state lines).1 (located state lines).2 [] = (some lines,[]) := by
  refine ⟨⟨rfl,rfl⟩,?_⟩
  have enough : ¬lines < 1 := by omega
  simp [validateV2LocationFile,located,enough,setErrorWhen]

/-- The null is stored; the controller compares it with the one row. -/
theorem nullChunks_unusable :
    (∃ options, submit nullChunks.2 {} = .saved options ∧ (State.run [nullChunks]).model = options) ∧
      Reads (located (State.run [nullChunks]) 1).1 (located (State.run [nullChunks]) 1).2 (State.run [nullChunks]) ∧
      validateV2LocationFile (located (State.run [nullChunks]) 1).1 (located (State.run [nullChunks]) 1).2 [] =
        (some 1,[]) ∧
      getInputsGenerationChunks (State.run [nullChunks]).chunkingOptions (some 1) = .error .typeError ∧
      ¬Usable (State.run [nullChunks]).chunkingOptions .lookup (some 1)
        (getInputsGenerationChunks (State.run [nullChunks]).chunkingOptions (some 1)) := by
  have accepted := located_accepted (State.run [nullChunks]) (le_refl 1)
  have failed : getInputsGenerationChunks (State.run [nullChunks]).chunkingOptions (some 1) = .error .typeError := rfl
  refine ⟨⟨_,rfl,rfl⟩,accepted.1,accepted.2,failed,?_⟩
  simp [failed,Usable]

/-- The analysis has options of its own: dynamic chunks in both stages, with three locations
    for a lookup. -/
def dynamicOptions : Target × Submission :=
  (.analysis,
    { strategy := fun _ => some (.string "DYNAMIC_CHUNKS".toList),
      value := Function.update (fun _ => none) .dynamicLocationsPerLookup (some (.int 3)) })

theorem chunks_usable_dynamic :
    Usable (State.run [nullChunks,dynamicOptions]).chunkingOptions .lookup (some 20)
        (getInputsGenerationChunks (State.run [nullChunks,dynamicOptions]).chunkingOptions (some 20)) ∧
      Usable (State.run [nullChunks,dynamicOptions]).chunkingOptions .loss none
        (getLossGenerationChunks (State.run [nullChunks,dynamicOptions]).chunkingOptions (some 500)) := by
  have accepted := located_accepted (State.run [nullChunks,dynamicOptions]) (by decide : 1 ≤ 20)
  have dynamic : ∀ stage, (State.run [nullChunks,dynamicOptions]).chunkingOptions.strategy stage = .dynamicChunks := by
    rintro (_ | _) <;> rfl
  exact (chunks_usable_iff _ _ _ accepted.1 (some 20) accepted.2 (some 500) (by simp) (by simp)).mpr
    ⟨fun fixed => absurd ((dynamic .lookup).symm.trans fixed) (by decide),
      fun fixed => absurd ((dynamic .loss).symm.trans fixed) (by decide)⟩

end OasisPlatform.ChunkCounts
