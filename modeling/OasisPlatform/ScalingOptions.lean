import OasisPlatform.ChunkFailure
import OasisPlatform.SharedRow

/-!
The scaling options of the models. A submission may give one bound of the number of
workers alone; `validate` compares it with the options whose own key is the key of the
model, which may belong to another model or not exist. Along any run of requests all
options stay ordered, and no submission is refused for an order that it keeps, exactly
when each comparison comes out as it would with the model's own options
(`scaling_ordered_iff`).
-/
namespace OasisPlatform.ScalingOptions
open OasisPlatform.PathText OasisPlatform.ChunkFailure OasisPlatform.SharedRow OasisPlatform.Models
set_option linter.unusedSimpArgs false

inductive ScalingStrategy where
  | fixedWorkers
  | queueLoad
  | dynamicTasks
  deriving DecidableEq, Repr

inductive Count where
  | workerCountFixed
  | workerCountMax
  | workerCountMin
  | chunksPerWorker
  deriving DecidableEq, Repr

structure ModelScalingOptions where
  scalingStrategy : ScalingStrategy := .fixedWorkers
  count : Count → Int := fun
    | .workerCountFixed => 1
    | .workerCountMax => 10
    | .workerCountMin => 0
    | .chunksPerWorker => 10

def ModelScalingOptions.Ordered (options : ModelScalingOptions) : Prop :=
  options.count .workerCountMin ≤ options.count .workerCountMax

/-- A value of the submitted data; lists and objects are never numbers. -/
inductive Value where
  | null
  | bool (value : Bool)
  | int (value : Int)
  | float (value : Rat)
  | string (text : Text)
  | collection

def Value.numeric : Value → Option Rat
  | .bool value => some (if value then 1 else 0)
  | .int value => some value
  | .float value => some value
  | _ => none

/-- `a < b`, none where Python raises `TypeError`. -/
def Value.less (a b : Value) : Option Bool :=
  match a.numeric,b.numeric,a,b with
  | some x,some y,_,_ => some (decide (x < y))
  | _,_,.string s,.string t => some (decide (s < t))
  | _,_,_,_ => none

/-- `initial_data`: a JSON object, or a form, whose values are all texts. -/
structure Submission where
  form : Bool := false
  scalingStrategy : Option Value := none
  count : Count → Option Value := fun _ => none

inductive Field where
  | scalingStrategy
  | count (name : Count)
  deriving DecidableEq, Repr

/-- What is wrong with a field. -/
inductive Problem where
  /-- "This field may not be null." -/
  | null
  /-- "A valid integer is required." -/
  | notInteger
  /-- "String value too large." -/
  | tooLong
  /-- "Ensure this value is less than or equal to {maximum}." -/
  | tooLarge (maximum : Int)
  /-- "Ensure this value is greater than or equal to 0." -/
  | tooSmall
  /-- "{input} is not a valid choice." -/
  | notChoice (input : Value)
  /-- "DYNAMIC_TASKS is not allowed in v1." -/
  | dynamicInV1
  /-- "Value is not type int, found {type}" -/
  | notInt (found : Value)
  /-- "Value is less than zero." -/
  | belowZero
  /-- "Value '{wrk_min}' must be less than 'worker_count_max: {wrk_max}'" -/
  | minAboveMax (wrkMin wrkMax : Value)
  /-- "Value '{wrk_max}' must be greater than 'worker_count_min: {wrk_min}'" -/
  | maxBelowMin (wrkMax wrkMin : Value)

def Problem.isOrder : Problem → Bool
  | .minAboveMax _ _ => true
  | .maxBelowMin _ _ => true
  | _ => false

abbrev Errors := Field → Option Problem

def Errors.clean (errors : Errors) : Bool :=
  [Field.scalingStrategy,.count .workerCountFixed,.count .workerCountMax,.count .workerCountMin,
    .count .chunksPerWorker].all fun field => (errors field).isNone

def Errors.order (errors : Errors) : Prop := ∃ field problem, errors field = some problem ∧ problem.isOrder

/-- The validators of the columns: `PositiveSmallIntegerField` and `PositiveIntegerField`. -/
def Count.maximum : Count → Int
  | .chunksPerWorker => 2147483647
  | _ => 32767

def inRange (maximum n : Int) : Except Problem (Option Int) :=
  if maximum < n then .error (.tooLarge maximum)
  else if n < 0 then .error .tooSmall
  else .ok (some n)

/-- `re_decimal.sub('', text)`, of `\.0*\s*$`. -/
def dropDecimal (text : Text) : Text :=
  match (rstrip (rstrip text spaces) ['0']).reverse with
  | '.' :: whole => whole.reverse
  | _ => text

/-- An `IntegerField` with a default; an empty input of a form counts as no input. From `1e16`
    on, the text of a float has an exponent and is no integer. -/
def integerField (maximum : Int) (form : Bool) : Option Value → Except Problem (Option Int)
  | none => .ok none
  | some .null => .error .null
  | some (.int n) => inRange maximum n
  | some (.float q) => if q.den = 1 ∧ q.num.natAbs < 10000000000000000 then inRange maximum q.num else .error .notInteger
  | some (.string text) =>
    if form ∧ text = [] then .ok none
    else if 1000 < text.length then .error .tooLong
    else
      match parseInt (dropDecimal text) with
      | some n => inRange maximum n
      | none => .error .notInteger
  | some (.bool _) => .error .notInteger
  | some .collection => .error .notInteger

def ScalingStrategy.named (text : Text) : Option ScalingStrategy :=
  if text = "FIXED_WORKERS".toList then some .fixedWorkers
  else if text = "QUEUE_LOAD".toList then some .queueLoad
  else if text = "DYNAMIC_TASKS".toList then some .dynamicTasks
  else none

def choiceField (form : Bool) : Option Value → Except Problem (Option ScalingStrategy)
  | none => .ok none
  | some .null => .error .null
  | some (.string text) =>
    if form ∧ text = [] then .ok none
    else
      match ScalingStrategy.named text with
      | some strategy => .ok (some strategy)
      | none => .error (.notChoice (.string text))
  | some input => .error (.notChoice input)

/-- `attrs`: the values of the fields that were given. -/
structure Attrs where
  scalingStrategy : Option ScalingStrategy
  count : Count → Option Int

def problem? {α : Type} : Except Problem α → Option Problem
  | .error problem => some problem
  | .ok _ => none

/-- `to_internal_value`: all fields are read before the errors are raised. -/
def fieldErrors (data : Submission) : Errors
  | .scalingStrategy => problem? (choiceField data.form data.scalingStrategy)
  | .count k => problem? (integerField k.maximum data.form (data.count k))

def fieldValues (data : Submission) : Attrs where
  scalingStrategy := (choiceField data.form data.scalingStrategy).toOption.join
  count := fun k => (integerField k.maximum data.form (data.count k)).toOption.join

/-- `attrs` and `errors`, as `validate` changes them. -/
structure Pass where
  attrs : Attrs
  errors : Errors

def Pass.error (pass : Pass) (k : Count) (problem : Problem) : Pass :=
  { pass with errors := Function.update pass.errors (.count k) (some problem) }

def Pass.set (pass : Pass) (k : Count) (n : Int) : Pass :=
  { pass with attrs := { pass.attrs with count := Function.update pass.attrs.count k (some n) } }

/-- The loop over `non_neg_fields`, for one of them. -/
def checkNonNeg (data : Submission) (pass : Pass) (k : Count) : Pass :=
  match data.count k with
  | none => pass
  | some .null => pass
  | some (.int n) => if n < 0 then pass.error k .belowZero else pass.set k n
  | some (.bool b) => pass.set k (if b then 1 else 0)
  | some value => pass.error k (.notInt value)

def nonNegFields : List Count := [.workerCountFixed,.workerCountMax,.workerCountMin,.chunksPerWorker]

def versionErrors (version : Option RunMode) (attrs : Attrs) : Errors :=
  if version = some .v1 ∧ attrs.scalingStrategy = some .dynamicTasks then
    Function.update (fun _ => none) .scalingStrategy (some .dynamicInV1)
  else fun _ => none

/-- `initial_data.get(k, current_val.k)`. -/
def bound (data : Submission) (currentVal : ModelScalingOptions) (k : Count) : Value :=
  (data.count k).getD (.int (currentVal.count k))

/-- The comparison of the two bounds, none where it raises `TypeError`. -/
def checkOrder (data : Submission) (currentVal : ModelScalingOptions) (errors : Errors) : Option Errors := do
  let wrkMin := bound data currentVal .workerCountMin
  let wrkMax := bound data currentVal .workerCountMax
  let minAbove ← if (data.count .workerCountMin).isSome then wrkMax.less wrkMin else some false
  let maxBelow ← if (data.count .workerCountMax).isSome then wrkMax.less wrkMin else some false
  let errors :=
    if minAbove then Function.update errors (.count .workerCountMin) (some (.minAboveMax wrkMin wrkMax)) else errors
  some (if maxBelow then Function.update errors (.count .workerCountMax) (some (.maxBelowMin wrkMax wrkMin))
    else errors)

def checkFields (version : Option RunMode) (data : Submission) : Pass :=
  nonNegFields.foldl (checkNonNeg data) ⟨fieldValues data,versionErrors version (fieldValues data)⟩

inductive Response where
  | notFound
  | serverError
  | invalid (errors : Errors)
  | saved (options : ModelScalingOptions)

/-- `update`: only the fields that were given are set. -/
def ModelScalingOptions.update (options : ModelScalingOptions) (attrs : Attrs) : ModelScalingOptions where
  scalingStrategy := attrs.scalingStrategy.getD options.scalingStrategy
  count := fun k => (attrs.count k).getD (options.count k)

/-- `is_valid` and `save` of `ModelScalingConfigSerializer`, with the options that
    `validate` has looked up. -/
def submit (version : Option RunMode) (data : Submission) (currentVal own : ModelScalingOptions) : Response :=
  if (fieldErrors data).clean then
    match checkOrder data currentVal (checkFields version data).errors with
    | none => .serverError
    | some errors => if errors.clean then .saved (own.update (checkFields version data).attrs) else .invalid errors
  else .invalid (fieldErrors data)

structure AnalysisModel where
  runMode : Option RunMode
  scalingOptions : Nat
  deleted : Bool

/-- The rows of both tables, by key. -/
structure State where
  models : Nat → Option AnalysisModel
  options : Nat → Option ModelScalingOptions

/-- `ModelScalingOptions.objects.get(id=m_id)`, or the defaults; `m_id` is the key of the
    model. -/
def State.currentVal (state : State) (pk : Nat) : ModelScalingOptions := (state.options pk).getD {}

/-- The model of a request and its options; `visible` says whether the requester may
    see the model. -/
def State.found (state : State) (pk : Nat) (visible : Bool) : Option (AnalysisModel × ModelScalingOptions) :=
  match state.models pk with
  | some model =>
    if model.deleted || !visible then none else (state.options model.scalingOptions).map fun own => (model,own)
  | none => none

/-- The run mode is read first, by `AnalysisModel.objects.get`, which raises where there is no
    model; one that is not visible is then not found. -/
def State.scalingConfiguration (state : State) (pk : Nat) (visible : Bool) (data : Submission) : Response :=
  match state.found pk visible with
  | some (model,own) => submit model.runMode data (state.currentVal pk) own
  | none => if (state.models pk).any fun model => !model.deleted then .notFound else .serverError

inductive Event where
  /-- A new model; the handler of `post_save` adds the options. -/
  | create (pk options : Nat)
  | setDeleted (pk : Nat) (deleted : Bool)
  | hardDelete (pk : Nat)
  | updateRunMode (pk : Nat) (runMode : RunMode)
  | post (pk : Nat) (visible : Bool) (data : Submission)

def State.setModel (state : State) (pk : Nat) (change : AnalysisModel → AnalysisModel) : State :=
  { state with models := Function.update state.models pk ((state.models pk).map change) }

def State.step (state : State) : Event → State
  | .create pk key =>
    if (state.models pk).isNone ∧ (state.options key).isNone then
      { models := Function.update state.models pk (some ⟨none,key,false⟩),
        options := Function.update state.options key (some {}) }
    else state
  | .setDeleted pk deleted => state.setModel pk fun model => { model with deleted := deleted }
  | .hardDelete pk => { state with models := Function.update state.models pk none }
  | .updateRunMode pk runMode => state.setModel pk fun model => { model with runMode := some runMode }
  | .post pk visible data =>
    match state.found pk visible,state.scalingConfiguration pk visible data with
    | some (model,_),.saved options =>
      { state with options := Function.update state.options model.scalingOptions (some options) }
    | _,_ => state

/-! ### What the checks report -/

def Errors.Orderless (errors : Errors) : Prop := ∀ field problem, errors field = some problem → problem.isOrder = false

theorem Errors.Orderless.not_order {errors : Errors} (orderless : errors.Orderless) : ¬errors.order := by
  rintro ⟨field,problem,reported,order⟩
  simp [orderless field problem reported] at order

theorem Errors.Orderless.update {errors : Errors} (orderless : errors.Orderless) (field : Field) (problem : Problem)
    (other : problem.isOrder = false) : Errors.Orderless (Function.update errors field (some problem)) := by
  intro f p reported
  by_cases same : f = field
  · subst same
    simp only [Function.update_self,Option.some.injEq] at reported
    exact reported ▸ other
  · rw [Function.update_of_ne same] at reported
    exact orderless f p reported

theorem Errors.clean_iff (errors : Errors) : errors.clean = true ↔ ∀ field, errors field = none := by
  constructor
  · intro clean field
    simp only [Errors.clean,List.all_cons,List.all_nil,Bool.and_true,Bool.and_eq_true,Option.isNone_iff_eq_none]
      at clean
    obtain ⟨strategy,fixed,max,min,chunks⟩ := clean
    cases field with
    | scalingStrategy => exact strategy
    | count k => cases k <;> assumption
  · intro none
    simp [Errors.clean,none]

theorem inRange_error {maximum n : Int} {problem : Problem} (failed : inRange maximum n = .error problem) :
    problem.isOrder = false := by
  simp only [inRange] at failed
  split_ifs at failed <;> cases failed <;> rfl

theorem integerField_error {maximum : Int} {form : Bool} {value : Option Value} {problem : Problem}
    (failed : integerField maximum form value = .error problem) : problem.isOrder = false := by
  unfold integerField at failed
  split at failed
  · cases failed
  · cases failed; rfl
  · exact inRange_error failed
  · split_ifs at failed
    · exact inRange_error failed
    · cases failed; rfl
  · split_ifs at failed
    · cases failed; rfl
    · split at failed
      · exact inRange_error failed
      · cases failed; rfl
  · cases failed; rfl
  · cases failed; rfl

theorem choiceField_error {form : Bool} {value : Option Value} {problem : Problem}
    (failed : choiceField form value = .error problem) : problem.isOrder = false := by
  unfold choiceField at failed
  split at failed
  · cases failed
  · cases failed; rfl
  · split_ifs at failed
    split at failed
    · cases failed
    · cases failed; rfl
  · cases failed; rfl

theorem problem?_eq_some {α : Type} {result : Except Problem α} {problem : Problem} :
    problem? result = some problem ↔ result = .error problem := by
  cases result <;> simp [problem?]

theorem fieldErrors_orderless (data : Submission) : (fieldErrors data).Orderless := by
  intro field problem reported
  cases field with
  | scalingStrategy => exact choiceField_error (problem?_eq_some.mp reported)
  | count k => exact integerField_error (problem?_eq_some.mp reported)

theorem versionErrors_orderless (version : Option RunMode) (attrs : Attrs) :
    (versionErrors version attrs).Orderless := by
  have none : Errors.Orderless fun _ => none := by simp [Errors.Orderless]
  unfold versionErrors
  split
  · exact none.update _ _ rfl
  · exact none

theorem checkNonNeg_orderless (data : Submission) {pass : Pass} (orderless : pass.errors.Orderless) (k : Count) :
    (checkNonNeg data pass k).errors.Orderless := by
  unfold checkNonNeg
  split
  · exact orderless
  · exact orderless
  · split
    · exact orderless.update _ _ rfl
    · exact orderless
  · exact orderless
  · exact orderless.update _ _ rfl

theorem checkFields_orderless (version : Option RunMode) (data : Submission) :
    (checkFields version data).errors.Orderless :=
  List.foldlRecOn (motive := fun pass => pass.errors.Orderless) nonNegFields (checkNonNeg data)
    (versionErrors_orderless version _)
    fun _ orderless k _ => checkNonNeg_orderless data orderless k

theorem checkNonNeg_other (data : Submission) (pass : Pass) {j k : Count} (other : k ≠ j) :
    (checkNonNeg data pass j).attrs.count k = pass.attrs.count k ∧
      (checkNonNeg data pass j).errors (.count k) = pass.errors (.count k) := by
  unfold checkNonNeg
  split
  · simp
  · simp
  · split <;> simp [other,Pass.error,Pass.set]
  · simp [other,Pass.set]
  · simp [other,Pass.error]

theorem foldl_checkNonNeg_other (data : Submission) {k : Count} :
    ∀ (counts : List Count) (pass : Pass), k ∉ counts →
      (counts.foldl (checkNonNeg data) pass).attrs.count k = pass.attrs.count k ∧
        (counts.foldl (checkNonNeg data) pass).errors (.count k) = pass.errors (.count k)
  | [],_,_ => ⟨rfl,rfl⟩
  | j :: rest,pass,outside => by
    rw [List.mem_cons,not_or] at outside
    have head := checkNonNeg_other data pass outside.1
    have tail := foldl_checkNonNeg_other data rest (checkNonNeg data pass j) outside.2
    exact ⟨tail.1.trans head.1,tail.2.trans head.2⟩

/-- The loop treats each count once. -/
theorem checkFields_at (version : Option RunMode) (data : Submission) (k : Count) :
    ∃ pass : Pass, pass.attrs.count k = (fieldValues data).count k ∧ pass.errors (.count k) = none ∧
      (checkFields version data).attrs.count k = (checkNonNeg data pass k).attrs.count k ∧
      (checkFields version data).errors (.count k) = (checkNonNeg data pass k).errors (.count k) := by
  have first : versionErrors version (fieldValues data) (.count k) = none := by
    unfold versionErrors
    split <;> simp
  have listed : k ∈ nonNegFields := by cases k <;> decide
  have once : nonNegFields.Nodup := by decide
  obtain ⟨before,after,split⟩ := List.append_of_mem listed
  rw [split,List.nodup_middle,List.nodup_cons,List.mem_append,not_or] at once
  have start := foldl_checkNonNeg_other data before ⟨fieldValues data,versionErrors version (fieldValues data)⟩ once.1.1
  refine ⟨before.foldl (checkNonNeg data) ⟨fieldValues data,versionErrors version (fieldValues data)⟩,start.1,
    start.2.trans first,?_⟩
  simp only [checkFields,split,List.foldl_append,List.foldl_cons]
  exact foldl_checkNonNeg_other data after _ once.1.2

def Readable (data : Submission) : Prop := (fieldErrors data).clean = true

/-- No field is at fault by itself. -/
def Sound (version : Option RunMode) (data : Submission) : Prop :=
  Readable data ∧ (checkFields version data).errors.clean = true

instance (data : Submission) : Decidable (Readable data) := inferInstanceAs (Decidable (_ = true))

instance (version : Option RunMode) (data : Submission) : Decidable (Sound version data) :=
  inferInstanceAs (Decidable (_ ∧ _))

theorem Readable.field {data : Submission} (readable : Readable data) (k : Count) :
    ∃ value, integerField k.maximum data.form (data.count k) = .ok value := by
  have none := (Errors.clean_iff _).mp readable (.count k)
  cases read : integerField k.maximum data.form (data.count k) with
  | ok value => exact ⟨value,rfl⟩
  | error problem => simp [fieldErrors,problem?,read] at none

theorem Readable.not_null {data : Submission} (readable : Readable data) (k : Count) : data.count k ≠ some .null := by
  intro null
  obtain ⟨value,read⟩ := readable.field k
  simp [null,integerField] at read

theorem Readable.not_bool {data : Submission} (readable : Readable data) (k : Count) (b : Bool) :
    data.count k ≠ some (.bool b) := by
  intro bool
  obtain ⟨value,read⟩ := readable.field k
  simp [bool,integerField] at read

/-- A count that passes all checks is a whole number or absent, and is stored as given. -/
theorem Sound.stored {version : Option RunMode} {data : Submission} (sound : Sound version data) (k : Count) :
    (data.count k = none ∧ (checkFields version data).attrs.count k = none) ∨
      ∃ n, data.count k = some (.int n) ∧ (checkFields version data).attrs.count k = some n := by
  have none := (Errors.clean_iff _).mp sound.2 (.count k)
  obtain ⟨pass,attrs,errors,attrsAt,errorsAt⟩ := checkFields_at version data k
  rw [errorsAt] at none
  rw [attrsAt]
  unfold checkNonNeg at none ⊢
  split at none
  case h_1 absent =>
    have unread : (fieldValues data).count k = Option.none := by
      simp [fieldValues,absent,integerField,Except.toOption]
    simp only [absent]
    exact .inl ⟨trivial,attrs.trans unread⟩
  case h_2 null => exact absurd null (sound.1.not_null k)
  case h_3 n given =>
    simp only [given]
    split at none
    · simp [Pass.error] at none
    · rename_i positive
      exact .inr ⟨n,rfl,by simp [positive,Pass.set]⟩
  case h_4 b given => exact absurd given (sound.1.not_bool k b)
  case h_5 => simp [Pass.error] at none

theorem Sound.update_bound {version : Option RunMode} {data : Submission} (sound : Sound version data)
    (own : ModelScalingOptions) (k : Count) :
    bound data own k = .int ((own.update (checkFields version data).attrs).count k) := by
  rcases sound.stored k with ⟨absent,stored⟩ | ⟨n,given,stored⟩
  · simp [bound,ModelScalingOptions.update,absent,stored]
  · simp [bound,ModelScalingOptions.update,given,stored]

/-- Whether `validate` finds the bounds out of order, none where it raises. -/
def disordered (data : Submission) (currentVal : ModelScalingOptions) : Option Bool :=
  if (data.count .workerCountMin).isSome || (data.count .workerCountMax).isSome then
    (bound data currentVal .workerCountMax).less (bound data currentVal .workerCountMin)
  else some false

theorem checkOrder_cases (data : Submission) (currentVal : ModelScalingOptions) (errors : Errors) :
    (disordered data currentVal = none ∧ checkOrder data currentVal errors = none) ∨
      (disordered data currentVal = some false ∧ checkOrder data currentVal errors = some errors) ∨
      (disordered data currentVal = some true ∧ ∃ reported, checkOrder data currentVal errors = some reported ∧
        reported.order) := by
  unfold disordered checkOrder
  cases compared : (bound data currentVal .workerCountMax).less (bound data currentVal .workerCountMin) with
  | none =>
    cases (data.count .workerCountMin).isSome <;> cases (data.count .workerCountMax).isSome <;> simp [compared]
  | some below =>
    cases below with
    | false =>
      cases (data.count .workerCountMin).isSome <;> cases (data.count .workerCountMax).isSome <;> simp [compared]
    | true =>
      cases least : (data.count .workerCountMin).isSome with
      | true =>
        have found (reported : Errors)
            (at_min : reported (.count .workerCountMin) = some (.minAboveMax (bound data currentVal .workerCountMin)
              (bound data currentVal .workerCountMax))) : reported.order := ⟨_,_,at_min,rfl⟩
        cases (data.count .workerCountMax).isSome with
        | true => exact .inr (.inr ⟨by simp,_,by simp [compared]; rfl,found _ (by simp)⟩)
        | false => exact .inr (.inr ⟨by simp,_,by simp [compared]; rfl,found _ (by simp)⟩)
      | false =>
        cases (data.count .workerCountMax).isSome with
        | true =>
          exact .inr (.inr ⟨by simp,_,by simp [compared]; rfl,.count .workerCountMax,_,Function.update_self ..,rfl⟩)
        | false => simp

/-- The response names the order of the bounds. -/
def Response.refused (response : Response) : Prop := ∃ errors, response = .invalid errors ∧ errors.order

theorem Errors.order.not_clean {errors : Errors} (order : errors.order) : ¬errors.clean = true := by
  obtain ⟨field,problem,reported,-⟩ := order
  intro clean
  simp [(Errors.clean_iff errors).mp clean field] at reported

theorem submit_cases (version : Option RunMode) (data : Submission) (currentVal own : ModelScalingOptions) :
    (¬Readable data ∧ ∃ errors, submit version data currentVal own = .invalid errors ∧ ¬errors.order) ∨
      (Readable data ∧ disordered data currentVal = none ∧ submit version data currentVal own = .serverError) ∨
      (Sound version data ∧ disordered data currentVal = some false ∧
        submit version data currentVal own = .saved (own.update (checkFields version data).attrs)) ∨
      (Readable data ∧ ¬Sound version data ∧ disordered data currentVal = some false ∧
        ∃ errors, submit version data currentVal own = .invalid errors ∧ ¬errors.order) ∨
      (Readable data ∧ disordered data currentVal = some true ∧ (submit version data currentVal own).refused) := by
  by_cases readable : Readable data
  · have clean : (fieldErrors data).clean = true := readable
    have step := checkOrder_cases data currentVal (checkFields version data).errors
    rcases step with ⟨compared,checked⟩ | ⟨compared,checked⟩ | ⟨compared,errors,checked,order⟩
    · exact .inr (.inl ⟨readable,compared,by simp [submit,clean,checked]⟩)
    · by_cases sound : Sound version data
      · exact .inr (.inr (.inl ⟨sound,compared,by simp [submit,clean,checked,sound.2]⟩))
      · have faulty : ¬(checkFields version data).errors.clean = true := fun clean => sound ⟨readable,clean⟩
        exact .inr (.inr (.inr (.inl ⟨readable,sound,compared,_,by simp [submit,clean,checked,faulty],
          (checkFields_orderless version data).not_order⟩)))
    · exact .inr (.inr (.inr (.inr ⟨readable,compared,errors,by simp [submit,clean,checked,order.not_clean],order⟩)))
  · have faulty : ¬(fieldErrors data).clean = true := readable
    exact .inl ⟨readable,_,by simp only [submit,faulty,if_false]; rfl,(fieldErrors_orderless data).not_order⟩

theorem submit_saved_iff {version : Option RunMode} {data : Submission} {currentVal own row : ModelScalingOptions} :
    submit version data currentVal own = .saved row ↔ Sound version data ∧ disordered data currentVal = some false ∧
      row = own.update (checkFields version data).attrs := by
  rcases submit_cases version data currentVal own with ⟨unread,errors,given,-⟩ | ⟨-,compared,given⟩ |
    ⟨sound,compared,given⟩ | ⟨-,faulty,-,errors,given,-⟩ | ⟨-,compared,errors,given,-⟩
  · simp [given,Sound,unread]
  · simp [given,compared]
  · simp [given,sound,compared,eq_comm]
  · simp [given,faulty]
  · simp [given,compared]

theorem submit_refused_iff {version : Option RunMode} {data : Submission} {currentVal own : ModelScalingOptions} :
    (submit version data currentVal own).refused ↔ Readable data ∧ disordered data currentVal = some true := by
  rcases submit_cases version data currentVal own with ⟨unread,errors,given,orderless⟩ | ⟨-,compared,given⟩ |
    ⟨-,compared,given⟩ | ⟨-,-,compared,errors,given,orderless⟩ | ⟨readable,compared,refused⟩
  · simp [given,unread,Response.refused,orderless]
  · simp [given,compared,Response.refused]
  · simp [given,compared,Response.refused]
  · simp [given,compared,Response.refused,orderless]
  · simp [refused,readable,compared]

/-- The bounds would be in order once they are stored in the model's own options. -/
def KeepsOrder (data : Submission) (own : ModelScalingOptions) : Prop :=
  ∃ least most : Int, bound data own .workerCountMin = .int least ∧ bound data own .workerCountMax = .int most ∧
    least ≤ most

/-- A bound that is submitted alone compares with the options that are looked up as with
    the model's own. -/
def Comparable (version : Option RunMode) (data : Submission) (currentVal own : ModelScalingOptions) : Prop :=
  Readable data →
    (∀ least, data.count .workerCountMin = some (.int least) → data.count .workerCountMax = none →
      (least ≤ own.count .workerCountMax → least ≤ currentVal.count .workerCountMax) ∧
        (Sound version data → least ≤ currentVal.count .workerCountMax → least ≤ own.count .workerCountMax)) ∧
    (∀ most, data.count .workerCountMax = some (.int most) → data.count .workerCountMin = none →
      (own.count .workerCountMin ≤ most → currentVal.count .workerCountMin ≤ most) ∧
        (Sound version data → currentVal.count .workerCountMin ≤ most → own.count .workerCountMin ≤ most))

/-- A submission that is saved keeps the order, and one that keeps it is not refused for it. -/
def Kept (version : Option RunMode) (data : Submission) (currentVal own : ModelScalingOptions) : Prop :=
  (∀ row, submit version data currentVal own = .saved row → row.Ordered) ∧
    (KeepsOrder data own → ¬(submit version data currentVal own).refused)

@[simp] theorem less_int (a b : Int) : Value.less (.int a) (.int b) = some (decide (a < b)) := by
  simp [Value.less,Value.numeric,Rat.intCast_lt_intCast]

theorem Sound.ordered_iff {version : Option RunMode} {data : Submission} (sound : Sound version data)
    (own : ModelScalingOptions) :
    (own.update (checkFields version data).attrs).Ordered ↔ KeepsOrder data own := by
  simp only [KeepsOrder,sound.update_bound,Value.int.injEq]
  constructor
  · intro ordered
    exact ⟨_,_,rfl,rfl,ordered⟩
  · rintro ⟨least,most,rfl,rfl,ordered⟩
    exact ordered

theorem kept_iff_compared (version : Option RunMode) (data : Submission) (currentVal own : ModelScalingOptions) :
    Kept version data currentVal own ↔
      (Sound version data → disordered data currentVal = some false → KeepsOrder data own) ∧
        (Readable data → KeepsOrder data own → disordered data currentVal ≠ some true) := by
  constructor
  · rintro ⟨saved,accepted⟩
    refine ⟨fun sound compared => (sound.ordered_iff own).mp (saved _ (submit_saved_iff.mpr ⟨sound,compared,rfl⟩)),?_⟩
    intro readable keeps compared
    exact accepted keeps (submit_refused_iff.mpr ⟨readable,compared⟩)
  · rintro ⟨saved,accepted⟩
    constructor
    · intro row given
      obtain ⟨sound,compared,rfl⟩ := submit_saved_iff.mp given
      exact (sound.ordered_iff own).mpr (saved sound compared)
    · intro keeps refused
      obtain ⟨readable,compared⟩ := submit_refused_iff.mp refused
      exact accepted readable keeps compared

theorem keepsOrder_iff {data : Submission} {own : ModelScalingOptions} {least most : Int}
    (min : bound data own .workerCountMin = .int least) (max : bound data own .workerCountMax = .int most) :
    KeepsOrder data own ↔ least ≤ most := by
  simp [KeepsOrder,min,max]

theorem disordered_iff {data : Submission} {currentVal : ModelScalingOptions} {least most : Int}
    (given : (data.count .workerCountMin).isSome || (data.count .workerCountMax).isSome)
    (min : bound data currentVal .workerCountMin = .int least)
    (max : bound data currentVal .workerCountMax = .int most) :
    disordered data currentVal = some (decide (most < least)) := by
  rw [disordered,if_pos given,min,max,less_int]

@[simp] theorem bound_absent {data : Submission} {k : Count} (absent : data.count k = none)
    (options : ModelScalingOptions) : bound data options k = .int (options.count k) := by
  simp [bound,absent]

@[simp] theorem bound_given {data : Submission} {k : Count} {value : Value} (given : data.count k = some value)
    (options : ModelScalingOptions) : bound data options k = value := by
  simp [bound,given]

/-- A bound that is no whole number is neither stored nor compared with what is stored. -/
theorem not_whole (version : Option RunMode) {data : Submission} {k : Count} {value : Value}
    (given : data.count k = some value) (other : ∀ n, value ≠ .int n) :
    ¬Sound version data ∧ ∀ (own : ModelScalingOptions) (n : Int), bound data own k ≠ .int n := by
  constructor
  · intro sound
    rcases sound.stored k with ⟨absent,-⟩ | ⟨n,whole,-⟩
    · simp [absent] at given
    · exact other n (by simpa [whole] using given.symm)
  · intro own n stored
    rw [bound_given given] at stored
    exact other n stored

theorem kept_iff_comparable (version : Option RunMode) (data : Submission) (currentVal : ModelScalingOptions)
    {own : ModelScalingOptions} (ordered : own.Ordered) :
    Kept version data currentVal own ↔ Comparable version data currentVal own := by
  rw [kept_iff_compared]
  have ordered : own.count .workerCountMin ≤ own.count .workerCountMax := ordered
  by_cases whole : ∀ k, k = .workerCountMin ∨ k = .workerCountMax → ∀ value, data.count k = some value →
      ∃ n, value = .int n
  · -- the options that are looked up are read only for a bound that is not given
    cases min : data.count .workerCountMin with
    | none =>
      cases max : data.count .workerCountMax with
      | none =>
        have keeps := keepsOrder_iff (bound_absent min own) (bound_absent max own)
        simp [Comparable,disordered,min,max,keeps,ordered]
      | some value =>
        obtain ⟨most,rfl⟩ := whole .workerCountMax (.inr rfl) value max
        have keeps := keepsOrder_iff (bound_absent min own) (bound_given max own)
        have compared := disordered_iff (by simp [max]) (bound_absent min currentVal) (bound_given max currentVal)
        have readable : Sound version data → Readable data := And.left
        simp only [Comparable,min,max,keeps,compared]
        simp
        tauto
    | some value =>
      obtain ⟨least,rfl⟩ := whole .workerCountMin (.inl rfl) value min
      cases max : data.count .workerCountMax with
      | none =>
        have keeps := keepsOrder_iff (bound_given min own) (bound_absent max own)
        have compared := disordered_iff (by simp [min]) (bound_given min currentVal) (bound_absent max currentVal)
        have readable : Sound version data → Readable data := And.left
        simp only [Comparable,min,max,keeps,compared]
        simp
        tauto
      | some value =>
        obtain ⟨most,rfl⟩ := whole .workerCountMax (.inr rfl) value max
        have keeps := keepsOrder_iff (bound_given min own) (bound_given max own)
        have compared := disordered_iff (by simp [min]) (bound_given min currentVal) (bound_given max currentVal)
        simp [Comparable,min,max,keeps,compared]
  · simp only [not_forall] at whole
    obtain ⟨k,either,value,given,other⟩ := whole
    obtain ⟨faulty,unstored⟩ := not_whole version given (fun n whole => other ⟨n,whole⟩)
    rcases either with rfl | rfl
    · have unkept : ¬KeepsOrder data own := fun ⟨least,_,stored,_⟩ => unstored own least stored
      simp only [Comparable,faulty,unkept,given]
      simp
      exact fun _ n whole => (other ⟨n,whole⟩).elim
    · have unkept : ¬KeepsOrder data own := fun ⟨_,most,_,stored,_⟩ => unstored own most stored
      simp only [Comparable,faulty,unkept,given]
      simp
      exact fun _ n whole => (other ⟨n,whole⟩).elim

/-! ### Runs of requests -/

def AllOrdered (state : State) : Prop := ∀ key options, state.options key = some options → options.Ordered

/-- After the event all options are in order, and it is no submission that was refused
    for an order that it keeps. -/
def OrderHolds (state : State) (event : Event) : Prop :=
  AllOrdered (state.step event) ∧
    match event with
    | .post pk visible data => ∀ model own, state.found pk visible = some (model,own) → KeepsOrder data own →
      ¬(state.scalingConfiguration pk visible data).refused
    | _ => True

/-- A submission for a model compares its bounds as it would with the options of the
    model. -/
def Matched (state : State) : Event → Prop
  | .post pk visible data => ∀ model own, state.found pk visible = some (model,own) →
    Comparable model.runMode data (state.currentVal pk) own
  | _ => True

theorem found_iff {state : State} {pk : Nat} {visible : Bool} {model : AnalysisModel} {own : ModelScalingOptions} :
    state.found pk visible = some (model,own) ↔ state.models pk = some model ∧ model.deleted = false ∧
      visible = true ∧ state.options model.scalingOptions = some own := by
  unfold State.found
  cases stored : state.models pk with
  | none => simp
  | some row =>
    constructor
    · intro found
      simp only at found
      split_ifs at found with hidden
      simp only [Option.map_eq_some_iff] at found
      obtain ⟨options,kept,same⟩ := found
      cases same
      simp only [Bool.or_eq_true,not_or,Bool.not_eq_true,Bool.not_eq_eq_eq_not,Bool.not_true] at hidden
      exact ⟨rfl,hidden.1,by simpa using hidden.2,kept⟩
    · rintro ⟨same,alive,rfl,kept⟩
      cases same
      simp [alive,kept]

theorem AllOrdered.update {state : State} (ordered : AllOrdered state) (models : Nat → Option AnalysisModel)
    (key : Nat) (options : ModelScalingOptions) :
    AllOrdered ⟨models,Function.update state.options key (some options)⟩ ↔ options.Ordered := by
  constructor
  · intro all
    exact all key options (Function.update_self ..)
  · intro kept other stored found
    by_cases same : other = key
    · subst same
      simp only [Function.update_self,Option.some.injEq] at found
      exact found ▸ kept
    · exact ordered other stored (by simpa [same] using found)

theorem step_post_ordered_iff {state : State} (ordered : AllOrdered state) {pk : Nat} {visible : Bool}
    {data : Submission} {model : AnalysisModel} {own : ModelScalingOptions}
    (found : state.found pk visible = some (model,own)) :
    AllOrdered (state.step (.post pk visible data)) ↔
      ∀ row, submit model.runMode data (state.currentVal pk) own = .saved row → row.Ordered := by
  have response : state.scalingConfiguration pk visible data = submit model.runMode data (state.currentVal pk) own := by
    simp [State.scalingConfiguration,found]
  simp only [State.step,found,response]
  cases submit model.runMode data (state.currentVal pk) own with
  | saved row => simpa using ordered.update state.models model.scalingOptions row
  | _ => simpa using ordered

theorem step_orderHolds_iff (state : State) (event : Event) (ordered : AllOrdered state) :
    OrderHolds state event ↔ Matched state event := by
  cases event with
  | post pk visible data =>
    cases found : state.found pk visible with
    | none => simpa [OrderHolds,Matched,State.step,found] using ordered
    | some row =>
      obtain ⟨model,own⟩ := row
      have stored := (found_iff.mp found).2.2.2
      have same := kept_iff_comparable model.runMode data (state.currentVal pk) (ordered _ own stored)
      simp only [OrderHolds,Matched,step_post_ordered_iff ordered found,found]
      simpa [Kept,State.scalingConfiguration,found] using same
  | create pk key =>
    simp only [OrderHolds,Matched,and_true,iff_true,State.step]
    split
    · exact (ordered.update _ _ _).mpr (by simp [ModelScalingOptions.Ordered])
    · exact ordered
  | setDeleted pk deleted => exact iff_of_true ⟨ordered,trivial⟩ trivial
  | hardDelete pk => exact iff_of_true ⟨ordered,trivial⟩ trivial
  | updateRunMode pk runMode => exact iff_of_true ⟨ordered,trivial⟩ trivial

/-- The options stay ordered along a run, and no submission is refused for an order that
    it keeps, exactly when each bound that is submitted alone compares with the options
    that are looked up as with the model's own. -/
theorem scaling_ordered_iff (start : State) (ordered : AllOrdered start) (events : List Event) :
    Along State.step OrderHolds start events ↔ Along State.step Matched start events :=
  Along.exact_iff step_orderHolds_iff (fun _ _ _ holds => holds.1) ordered

theorem comparable_own (version : Option RunMode) (data : Submission) (own : ModelScalingOptions) :
    Comparable version data own own := by
  intro _
  exact ⟨fun _ _ _ => ⟨id,fun _ => id⟩,fun _ _ _ => ⟨id,fun _ => id⟩⟩

/-- Where a model and its options have one key, the options that are looked up are its
    own. -/
theorem matched_same_key {state : State} (same : ∀ pk model, state.models pk = some model → model.scalingOptions = pk)
    (event : Event) : Matched state event := by
  cases event with
  | post pk visible data =>
    intro model own found
    obtain ⟨stored,-,-,options⟩ := found_iff.mp found
    rw [same pk model stored] at options
    rw [State.currentVal,options]
    exact comparable_own model.runMode data own
  | _ => trivial

theorem step_post_models (state : State) (pk : Nat) (visible : Bool) (data : Submission) :
    (state.step (.post pk visible data)).models = state.models := by
  simp only [State.step]
  split <;> rfl

def noModels : State := ⟨fun _ => none,fun _ => none⟩

def onlyMax (n : Int) : Submission := { count := fun k => if k = .workerCountMax then some (.int n) else none }

def onlyMin (n : Int) : Submission := { count := fun k => if k = .workerCountMin then some (.int n) else none }

theorem firstModel_ordered :
    Along State.step OrderHolds noModels [.create 1 1,.post 1 true (onlyMax 5),.post 1 true (onlyMin 3)] := by
  have created : ∀ pk model, (noModels.step (.create 1 1)).models pk = some model → model.scalingOptions = pk := by
    intro pk model stored
    by_cases first : pk = 1
    · subst first
      cases stored
      rfl
    · simp [State.step,noModels,Function.update_of_ne first] at stored
  refine (scaling_ordered_iff noModels (fun _ _ found => by cases found) _).mpr
    ⟨trivial,matched_same_key created _,matched_same_key ?_ _,trivial⟩
  rw [step_post_models]
  exact created

/-- A model whose options have another key than it: the bounds are compared with the
    defaults. -/
def shifted : State :=
  ⟨fun pk => if pk = 1 then some ⟨none,2,false⟩ else none,fun key => if key = 2 then some {} else none⟩

theorem shifted_disordered :
    AllOrdered shifted ∧
      ¬Along State.step OrderHolds shifted [.post 1 true (onlyMax 5),.post 1 true (onlyMin 8)] := by
  constructor
  · intro key options stored
    simp only [shifted] at stored
    split_ifs at stored
    cases stored
    simp [ModelScalingOptions.Ordered]
  · rintro ⟨-,⟨all,-⟩,-⟩
    have stored : (((shifted.step (.post 1 true (onlyMax 5))).step (.post 1 true (onlyMin 8))).options 2).map
        (fun options => (options.count .workerCountMin,options.count .workerCountMax)) = some (8,5) := by decide
    rw [Option.map_eq_some_iff] at stored
    obtain ⟨options,found,bounds⟩ := stored
    have ordered := all 2 options found
    simp only [Prod.mk.injEq] at bounds
    simp [ModelScalingOptions.Ordered,bounds] at ordered

end OasisPlatform.ScalingOptions
