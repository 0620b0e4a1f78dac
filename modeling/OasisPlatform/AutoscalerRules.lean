import OasisPlatform.FloatQuotients

/-!
The number of workers that a model should have, from the scaling configuration of the
model and the numbers of tasks and analyses that wait for it.
-/
namespace OasisPlatform.AutoscalerRules
open OasisPlatform.FloatQuotients
set_option linter.unusedSimpArgs false

inductive ScalingStrategy where
  | fixedWorkers
  | queueLoad
  | dynamicTasks
  | other (name : String)
  deriving DecidableEq, Repr

/-- The auto scaling settings of a model as the API sends them, each where it is there. -/
structure AutoScaling where
  scalingStrategy : Option ScalingStrategy
  workerCountFixed : Option Nat
  workerCountMax : Option Nat
  workerCountMin : Option Nat
  chunksPerWorker : Option Nat
  deriving DecidableEq, Repr

/-- The work that waits for a model. -/
structure ModelState where
  tasks : Nat
  analyses : Nat
  priority : Nat
  deriving DecidableEq, Repr

/-- The first three are a `ValueError`. -/
inductive RuleError where
  | noStrategy
  | missing (name : String)
  | unsupported (name : String)
  | typeError
  | zeroDivision
  | overflow
  deriving DecidableEq, Repr

def RuleError.isValueError : RuleError → Bool
  | .noStrategy | .missing _ | .unsupported _ => true
  | .typeError | .zeroDivision | .overflow => false

/-- `get_req_setting`: zero counts as missing. -/
def getReqSetting (value : Option Nat) (name : String) : Except RuleError Nat :=
  match value with
  | none | some 0 => .error (.missing name)
  | some count => .ok count

/-- `math.ceil(int(tasks) / int(chunks_per_worker))`; the quotient is a `float`. -/
def ceilDiv (tasks : Nat) : Option Nat → Except RuleError Nat
  | none => .error .typeError
  | some 0 => .error .zeroDivision
  | some chunks =>
    let workers := ceilQuotient binary64 tasks chunks
    if 2 ^ 1024 ≤ workers then .error .overflow else .ok workers

theorem ceilDiv_succ (tasks chunks : Nat) :
    ceilDiv tasks (some (chunks + 1)) =
      if 2 ^ 1024 ≤ ceilQuotient binary64 tasks (chunks + 1) then .error .overflow
      else .ok (ceilQuotient binary64 tasks (chunks + 1)) := rfl

def ModelState.inProgress (state : ModelState) : Bool := 0 < state.tasks || 0 < state.analyses

def AutoScaling.countMin (settings : AutoScaling) : Nat := settings.workerCountMin.getD 0

def fixedCount (settings : AutoScaling) : Except RuleError Nat := do
  let count ← getReqSetting settings.workerCountFixed "worker_count_fixed"
  .ok (max count settings.countMin)

def getDesiredWorkerCount (settings : AutoScaling) (state : ModelState) (neverShutdownFixedWorkers : Bool) :
    Except RuleError Nat :=
  match settings.scalingStrategy with
  | none => .error .noStrategy
  | some .fixedWorkers =>
    if neverShutdownFixedWorkers then fixedCount settings
    else if state.inProgress then fixedCount settings
    else .ok settings.countMin
  | some .queueLoad => do
    let countMax ← getReqSetting settings.workerCountMax "worker_count_max"
    if state.inProgress then .ok (max (min state.analyses countMax) settings.countMin) else .ok settings.countMin
  | some .dynamicTasks => do
    let countMax ← getReqSetting settings.workerCountMax "worker_count_max"
    if state.inProgress then
      let workers ← ceilDiv state.tasks settings.chunksPerWorker
      .ok (max (min workers countMax) settings.countMin)
    else .ok settings.countMin
  | some (.other name) =>
    if name = "" then .error .noStrategy
    else if state.inProgress then .error (.unsupported name)
    else .ok settings.countMin

end OasisPlatform.AutoscalerRules
