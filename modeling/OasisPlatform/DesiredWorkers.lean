import OasisPlatform.AutoscalerRules
import OasisPlatform.ScalingOptions

/-!
The desired number of workers under the scaling options that the API stores. The options
may all be zero: zero workers count as a missing option, which is a `ValueError` that the
scaling loop handles, but zero chunks per worker end it, as do more tasks than a `float`
can hold. The number of workers is in the bounds of its strategy, or the options are
refused, exactly when no waiting work is divided so (`desired_worker_count_iff`).
-/
namespace OasisPlatform.DesiredWorkers
open OasisPlatform.ScalingOptions OasisPlatform.Models
open OasisPlatform.AutoscalerRules (AutoScaling ModelState RuleError getDesiredWorkerCount getReqSetting ceilDiv ceilDiv_succ fixedCount)
open OasisPlatform.FloatQuotients
set_option linter.unusedSimpArgs false

/-- The options of a model, after any accepted submissions. -/
inductive Stored : ModelScalingOptions → Prop where
  | default : Stored {}
  | post {version : Option RunMode} {data : Submission} {currentVal own options : ModelScalingOptions}
      (before : Stored own) (saved : submit version data currentVal own = .saved options) : Stored options

theorem Sound.least {version : Option RunMode} {data : Submission} (sound : Sound version data) {k : Count} {n : Int}
    (given : data.count k = some (.int n)) : 0 ≤ n := by
  obtain ⟨pass,-,errors,-,errorsAt⟩ := checkFields_at version data k
  have none := (Errors.clean_iff _).mp sound.2 (.count k)
  rw [errorsAt] at none
  by_contra negative
  have below : n < 0 := by omega
  simp [checkNonNeg,given,below,Pass.error] at none

theorem Stored.nonneg {options : ModelScalingOptions} (stored : Stored options) (k : Count) : 0 ≤ options.count k := by
  induction stored with
  | default => cases k <;> decide
  | @post version data currentVal own options before saved held =>
    obtain ⟨sound,-,rfl⟩ := submit_saved_iff.mp saved
    rcases sound.stored k with ⟨-,absent⟩ | ⟨n,given,kept⟩
    · simpa [ModelScalingOptions.update,absent] using held
    · have least := Sound.least sound given
      simpa [ModelScalingOptions.update,kept] using least

instance (options : ModelScalingOptions) : Decidable options.Ordered := inferInstanceAs (Decidable (_ ≤ _))

def strategy : ScalingStrategy → AutoscalerRules.ScalingStrategy
  | .fixedWorkers => .fixedWorkers
  | .queueLoad => .queueLoad
  | .dynamicTasks => .dynamicTasks

/-- The options as the API sends them; none of the columns is null. -/
def settings (options : ModelScalingOptions) : AutoScaling where
  scalingStrategy := some (strategy options.scalingStrategy)
  workerCountFixed := some (options.count .workerCountFixed).toNat
  workerCountMax := some (options.count .workerCountMax).toNat
  workerCountMin := some (options.count .workerCountMin).toNat
  chunksPerWorker := some (options.count .chunksPerWorker).toNat

@[simp] theorem settings_countMin (options : ModelScalingOptions) :
    (settings options).countMin = (options.count .workerCountMin).toNat := rfl

/-- The number of workers is in the bounds of its strategy. -/
def InBounds (options : ModelScalingOptions) (count : Nat) : Prop :=
  options.count .workerCountMin ≤ count ∧
    match options.scalingStrategy with
    | .fixedWorkers => (count : Int) ≤ max (options.count .workerCountMin) (options.count .workerCountFixed)
    | .queueLoad | .dynamicTasks => (count : Int) ≤ options.count .workerCountMax

/-- A number in the bounds, or an error that `_scale_deployment` handles. -/
def Safe (options : ModelScalingOptions) : Except RuleError Nat → Prop
  | .ok count => InBounds options count
  | .error error => error.isValueError = true

def Monotone (options : ModelScalingOptions) (neverShutdownFixedWorkers : Bool) : Prop :=
  ∀ (state later : ModelState) (count more : Nat), state.tasks ≤ later.tasks → state.analyses ≤ later.analyses →
    getDesiredWorkerCount (settings options) state neverShutdownFixedWorkers = .ok count →
    getDesiredWorkerCount (settings options) later neverShutdownFixedWorkers = .ok more → count ≤ more

/-- Work that waits is divided by zero chunks per worker, or the quotient is none of a `float`. -/
def Undivided (options : ModelScalingOptions) (state : ModelState) : Prop :=
  options.scalingStrategy = .dynamicTasks ∧ options.count .workerCountMax ≠ 0 ∧ state.inProgress = true ∧
    (options.count .chunksPerWorker = 0 ∨
      (2 ^ 1024 - 2 ^ 970) * (options.count .chunksPerWorker).toNat ≤ state.tasks)

theorem getReqSetting_cases (value : Nat) (name : String) :
    (value = 0 ∧ getReqSetting (some value) name = .error (.missing name)) ∨
      (0 < value ∧ getReqSetting (some value) name = .ok value) := by
  cases value with
  | zero => exact .inl ⟨rfl,rfl⟩
  | succ value => exact .inr ⟨by omega,rfl⟩

theorem ceilDiv_cases (tasks chunks : Nat) :
    ((chunks = 0 ∨ (2 ^ 1024 - 2 ^ 970) * chunks ≤ tasks) ∧
        ∃ error : RuleError, error.isValueError = false ∧ ceilDiv tasks (some chunks) = .error error) ∨
      ((2 ^ 1024 - 2 ^ 970) * chunks > tasks ∧ 0 < chunks ∧
        ceilDiv tasks (some chunks) = .ok (ceilQuotient binary64 tasks chunks)) := by
  cases chunks with
  | zero => exact .inl ⟨.inl rfl,.zeroDivision,rfl,rfl⟩
  | succ chunks =>
    have overflows := binary64_overflows_iff (n := tasks) (d := chunks + 1) (by omega)
    rw [ceilDiv_succ]
    generalize (2 ^ 1024 - 2 ^ 970) * (chunks + 1) = bound at overflows ⊢
    generalize 2 ^ 1024 = limit at overflows ⊢
    by_cases large : limit ≤ ceilQuotient binary64 tasks (chunks + 1)
    · exact .inl ⟨.inr (overflows.mp large),.overflow,rfl,if_pos large⟩
    · exact .inr ⟨Nat.lt_of_not_le fun many => large (overflows.mpr many),Nat.succ_pos chunks,if_neg large⟩

/-- What the strategy asks for, without the branch for a model at rest. -/
def asked (options : ModelScalingOptions) (state : ModelState) (neverShutdownFixedWorkers : Bool) : Nat :=
  let chunks := (options.count .chunksPerWorker).toNat
  match options.scalingStrategy with
  | .fixedWorkers =>
    if neverShutdownFixedWorkers || state.inProgress then (options.count .workerCountFixed).toNat else 0
  | .queueLoad => min state.analyses (options.count .workerCountMax).toNat
  | .dynamicTasks => min (ceilQuotient binary64 state.tasks chunks) (options.count .workerCountMax).toNat

def workers (options : ModelScalingOptions) (state : ModelState) (neverShutdownFixedWorkers : Bool) : Nat :=
  max (asked options state neverShutdownFixedWorkers) (options.count .workerCountMin).toNat

theorem resting {state : ModelState} (resting : ¬state.inProgress = true) : state.tasks = 0 ∧ state.analyses = 0 := by
  simp only [ModelState.inProgress,Bool.or_eq_true,decide_eq_true_eq] at resting
  omega

theorem fixedCount_cases (options : ModelScalingOptions) :
    (∃ name, fixedCount (settings options) = .error (.missing name)) ∨
      fixedCount (settings options) =
        .ok (max (options.count .workerCountFixed).toNat (options.count .workerCountMin).toNat) := by
  rcases getReqSetting_cases (options.count .workerCountFixed).toNat "worker_count_fixed" with ⟨-,read⟩ | ⟨-,read⟩
  · exact .inl ⟨"worker_count_fixed",by simp [fixedCount,settings,read,Bind.bind,Except.bind]⟩
  · exact .inr (by simp [fixedCount,settings,AutoScaling.countMin,read,Bind.bind,Except.bind])

theorem fixedWorkers_cases {options : ModelScalingOptions} (chosen : options.scalingStrategy = .fixedWorkers)
    (state : ModelState) (flag : Bool) :
    (∃ error : RuleError, error.isValueError = true ∧
        getDesiredWorkerCount (settings options) state flag = .error error) ∨
      getDesiredWorkerCount (settings options) state flag = .ok (workers options state flag) := by
  by_cases busy : flag = true ∨ state.inProgress = true
  · have called : getDesiredWorkerCount (settings options) state flag = fixedCount (settings options) := by
      rcases busy with raised | busy
      · simp [getDesiredWorkerCount,settings,strategy,chosen,raised]
      · simp [getDesiredWorkerCount,settings,strategy,chosen,busy]
    rcases fixedCount_cases options with ⟨name,failed⟩ | counted
    · exact .inl ⟨_,rfl,called.trans failed⟩
    · refine .inr ?_
      rw [called,counted]
      simp [workers,asked,chosen,busy]
  · rw [not_or] at busy
    refine .inr ?_
    simp [getDesiredWorkerCount,settings,strategy,chosen,busy,workers,asked,AutoScaling.countMin]

theorem queueLoad_cases {options : ModelScalingOptions} (chosen : options.scalingStrategy = .queueLoad)
    (state : ModelState) (flag : Bool) :
    (∃ error : RuleError, error.isValueError = true ∧
        getDesiredWorkerCount (settings options) state flag = .error error) ∨
      getDesiredWorkerCount (settings options) state flag = .ok (workers options state flag) := by
  rcases getReqSetting_cases (options.count .workerCountMax).toNat "worker_count_max" with ⟨-,read⟩ | ⟨-,read⟩
  · refine .inl ⟨.missing "worker_count_max",rfl,?_⟩
    simp [getDesiredWorkerCount,settings,strategy,chosen,read,Bind.bind,Except.bind]
  · refine .inr ?_
    by_cases busy : state.inProgress = true
    · simp [getDesiredWorkerCount,settings,strategy,chosen,read,Bind.bind,Except.bind,busy,workers,asked,
        AutoScaling.countMin]
    · simp [getDesiredWorkerCount,settings,strategy,chosen,read,Bind.bind,Except.bind,busy,workers,asked,
        AutoScaling.countMin,(resting busy).2]

theorem dynamicTasks_cases {options : ModelScalingOptions} (held : ∀ k, 0 ≤ options.count k)
    (chosen : options.scalingStrategy = .dynamicTasks) (state : ModelState) (flag : Bool) :
    (¬Undivided options state ∧ ∃ error : RuleError, error.isValueError = true ∧
        getDesiredWorkerCount (settings options) state flag = .error error) ∨
      (Undivided options state ∧ ∃ error : RuleError, error.isValueError = false ∧
        getDesiredWorkerCount (settings options) state flag = .error error) ∨
      (¬Undivided options state ∧
        getDesiredWorkerCount (settings options) state flag = .ok (workers options state flag)) := by
  have most_held := held .workerCountMax
  have chunks_held := held .chunksPerWorker
  rcases getReqSetting_cases (options.count .workerCountMax).toNat "worker_count_max" with ⟨zero,read⟩ | ⟨most,read⟩
  · have none : options.count .workerCountMax = 0 := by omega
    refine .inl ⟨fun undivided => undivided.2.1 none,.missing "worker_count_max",rfl,?_⟩
    simp [getDesiredWorkerCount,settings,strategy,chosen,read,Bind.bind,Except.bind]
  · have some : options.count .workerCountMax ≠ 0 := by omega
    by_cases busy : state.inProgress = true
    · rcases ceilDiv_cases state.tasks (options.count .chunksPerWorker).toNat with
        ⟨whole,error,other,divided⟩ | ⟨few,least,divided⟩
      · refine .inr (.inl ⟨⟨chosen,some,busy,whole.imp_left fun zero => by omega⟩,error,other,?_⟩)
        simp [getDesiredWorkerCount,settings,strategy,chosen,read,Bind.bind,Except.bind,busy,divided]
      · refine .inr (.inr ⟨fun undivided => ?_,?_⟩)
        · rcases undivided.2.2.2 with zero | many
          · omega
          · exact absurd many (Nat.not_le.mpr few)
        · simp [getDesiredWorkerCount,settings,strategy,chosen,read,Bind.bind,Except.bind,busy,divided,workers,asked,
            AutoScaling.countMin]
    · refine .inr (.inr ⟨fun undivided => busy undivided.2.2.1,?_⟩)
      simp [getDesiredWorkerCount,settings,strategy,chosen,read,Bind.bind,Except.bind,busy,workers,asked,
        AutoScaling.countMin,(resting busy).1]

/-- Every call raises a `ValueError`, raises in the division, or gives what the strategy asks for. -/
theorem desired_cases {options : ModelScalingOptions} (held : ∀ k, 0 ≤ options.count k) (state : ModelState)
    (flag : Bool) :
    (¬Undivided options state ∧ ∃ error : RuleError, error.isValueError = true ∧
        getDesiredWorkerCount (settings options) state flag = .error error) ∨
      (Undivided options state ∧ ∃ error : RuleError, error.isValueError = false ∧
        getDesiredWorkerCount (settings options) state flag = .error error) ∨
      (¬Undivided options state ∧
        getDesiredWorkerCount (settings options) state flag = .ok (workers options state flag)) := by
  have other (unlike : options.scalingStrategy ≠ .dynamicTasks) : ¬Undivided options state :=
    fun undivided => unlike undivided.1
  cases chosen : options.scalingStrategy with
  | fixedWorkers =>
    have divided : ¬Undivided options state := other (by simp [chosen])
    rcases fixedWorkers_cases chosen state flag with failed | counted
    · exact .inl ⟨divided,failed⟩
    · exact .inr (.inr ⟨divided,counted⟩)
  | queueLoad =>
    have divided : ¬Undivided options state := other (by simp [chosen])
    rcases queueLoad_cases chosen state flag with failed | counted
    · exact .inl ⟨divided,failed⟩
    · exact .inr (.inr ⟨divided,counted⟩)
  | dynamicTasks => exact dynamicTasks_cases held chosen state flag

theorem workers_inBounds {options : ModelScalingOptions} (held : ∀ k, 0 ≤ options.count k) (ordered : options.Ordered)
    (state : ModelState) (flag : Bool) : InBounds options (workers options state flag) := by
  have least := held .workerCountMin
  have fixed := held .workerCountFixed
  unfold ModelScalingOptions.Ordered at ordered
  cases chosen : options.scalingStrategy with
  | fixedWorkers =>
    simp only [InBounds,workers,asked,chosen]
    split <;> omega
  | queueLoad =>
    simp only [InBounds,workers,asked,chosen]
    omega
  | dynamicTasks =>
    simp only [InBounds,workers,asked,chosen]
    omega

theorem workers_mono (options : ModelScalingOptions) (flag : Bool) {state later : ModelState}
    (tasks : state.tasks ≤ later.tasks) (analyses : state.analyses ≤ later.analyses) :
    workers options state flag ≤ workers options later flag := by
  suffices asked options state flag ≤ asked options later flag by
    unfold workers
    omega
  cases chosen : options.scalingStrategy with
  | fixedWorkers =>
    have kept : state.inProgress = true → later.inProgress = true := by
      simp only [ModelState.inProgress,Bool.or_eq_true,decide_eq_true_eq]
      omega
    simp only [asked,chosen,Bool.or_eq_true]
    split_ifs with now then_
    · exact le_refl _
    · exact absurd (now.imp_right kept) then_
    · exact Nat.zero_le _
    · exact le_refl _
  | queueLoad =>
    simp only [asked,chosen]
    omega
  | dynamicTasks =>
    simp only [asked,chosen]
    exact min_le_min_right _ (ceilQuotient_mono _ tasks)

theorem monotone {options : ModelScalingOptions} (held : ∀ k, 0 ≤ options.count k) (flag : Bool) :
    Monotone options flag := by
  intro state later count more tasks analyses now next
  have given (state : ModelState) (count : Nat)
      (called : getDesiredWorkerCount (settings options) state flag = .ok count) : count = workers options state flag := by
    rcases desired_cases held state flag with ⟨-,error,-,failed⟩ | ⟨-,error,-,failed⟩ | ⟨-,returned⟩
    · simp [failed] at called
    · simp [failed] at called
    · simpa [called] using returned
  rw [given state count now,given later more next]
  exact workers_mono options flag tasks analyses

theorem safe_iff {options : ModelScalingOptions} (held : ∀ k, 0 ≤ options.count k) (ordered : options.Ordered)
    (state : ModelState) (flag : Bool) :
    Safe options (getDesiredWorkerCount (settings options) state flag) ↔ ¬Undivided options state := by
  rcases desired_cases held state flag with
    ⟨divided,error,value,failed⟩ | ⟨undivided,error,other,failed⟩ | ⟨divided,returned⟩
  · simp [failed,Safe,value,divided]
  · simp [failed,Safe,other,undivided]
  · simp [returned,Safe,workers_inBounds held ordered,divided]

theorem desired_worker_count_iff {options : ModelScalingOptions} (stored : Stored options) (ordered : options.Ordered)
    (state : ModelState) (neverShutdownFixedWorkers : Bool) :
    Safe options (getDesiredWorkerCount (settings options) state neverShutdownFixedWorkers) ∧
        Monotone options neverShutdownFixedWorkers ↔
      ¬Undivided options state := by
  rw [safe_iff stored.nonneg ordered]
  exact and_iff_left (monotone stored.nonneg _)

/-- Zero chunks for each worker, submitted with the strategy that divides by them. -/
def zeroChunks : Submission where
  scalingStrategy := some (.string "DYNAMIC_TASKS".toList)
  count := Function.update (fun _ => none) .chunksPerWorker (some (.int 0))

def divided : ModelScalingOptions := ({} : ModelScalingOptions).update (checkFields (some .v2) zeroChunks).attrs

theorem divided_stored : Stored divided :=
  .post .default (submit_saved_iff.mpr
    ⟨by decide,by decide +kernel,rfl⟩ : submit (some .v2) zeroChunks {} {} = .saved divided)

/-- The options are accepted and ordered; one task that waits ends the loop. -/
theorem divided_unsafe : Stored divided ∧ divided.Ordered ∧
    getDesiredWorkerCount (settings divided) ⟨1,1,1⟩ false = .error .zeroDivision ∧
    ¬Safe divided (getDesiredWorkerCount (settings divided) ⟨1,1,1⟩ false) := by
  have failed : getDesiredWorkerCount (settings divided) ⟨1,1,1⟩ false = .error .zeroDivision := by decide +kernel
  exact ⟨divided_stored,by decide +kernel,failed,by simp [failed,Safe,RuleError.isValueError]⟩

/-- Four chunks for each of at most five workers. -/
def fourChunks : Submission where
  scalingStrategy := some (.string "DYNAMIC_TASKS".toList)
  count := Function.update (Function.update (fun _ => none) .chunksPerWorker (some (.int 4))) .workerCountMax
    (some (.int 5))

def dynamic : ModelScalingOptions := ({} : ModelScalingOptions).update (checkFields (some .v2) fourChunks).attrs

theorem dynamic_stored : Stored dynamic :=
  .post .default (submit_saved_iff.mpr ⟨by decide,by decide +kernel,rfl⟩ : submit (some .v2) fourChunks {} {} = .saved dynamic)

theorem desired_worker_count_dynamic :
    Safe dynamic (getDesiredWorkerCount (settings dynamic) ⟨9,1,1⟩ false) ∧ Monotone dynamic false := by
  have chunks : (dynamic.count .chunksPerWorker).toNat = 4 := by decide +kernel
  refine (desired_worker_count_iff dynamic_stored (by decide +kernel) ⟨9,1,1⟩ false).mpr fun undivided => ?_
  rcases undivided.2.2.2 with zero | many
  · rw [zero] at chunks
    cases chunks
  · rw [chunks] at many
    exact absurd many (by decide +kernel)

end OasisPlatform.DesiredWorkers
