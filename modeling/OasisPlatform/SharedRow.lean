import Mathlib.Logic.Function.Basic
import Mathlib.Tactic.Common

/-!
A row of a table that processes load, change and save without a lock. A loaded
instance is a copy of the row; a save stores the instance's values in the columns it
names, or in all of them, whatever the row has become since. Two rules for such
processes: a column keeps a good value when the processes that save it check it first
(`run_column_kept`), and no update is lost when no save meets a change to a column
that it stores but did not set (`run_latest_kept`).
-/
namespace OasisPlatform.SharedRow
set_option linter.unusedSimpArgs false

variable {κ π : Type} {ν : κ → Type}

/-- A row, by column. -/
abbrev Row (ν : κ → Type) := (c : κ) → ν c

/-- A copy of a row in memory, with the columns that were set since it was loaded. -/
structure Loaded (ν : κ → Type) where
  values : Row ν
  assigned : List κ

def load (row : Row ν) : Loaded ν := ⟨row,[]⟩

@[simp] theorem load_values (row : Row ν) : (load row).values = row := rfl

@[simp] theorem load_assigned (row : Row ν) : (load row).assigned = [] := rfl

/-- An instance has the values of the row in the columns that were not set. -/
def Loaded.Copies (loaded : Loaded ν) (row : Row ν) : Prop := ∀ c ∉ loaded.assigned, loaded.values c = row c

theorem load_copies (row : Row ν) : (load row).Copies row := fun _ _ => rfl

variable [DecidableEq κ] [DecidableEq π]

def Loaded.set (loaded : Loaded ν) (c : κ) (value : ν c) : Loaded ν :=
  ⟨Function.update loaded.values c value,c :: loaded.assigned⟩

/-- A pending save of an instance: of the columns in `updateFields`, or of all. -/
structure Save (ν : κ → Type) where
  updateFields : Option (List κ)
  loaded : Loaded ν

def Save.writes (save : Save ν) (c : κ) : Bool :=
  match save.updateFields with
  | none => true
  | some fields => c ∈ fields

/-- The row after a save. -/
def Save.apply (save : Save ν) (row : Row ν) : Row ν := fun c => if save.writes c then save.loaded.values c else row c

/-- Whether a save stores a value that its process set. -/
def Save.sets (save : Save ν) (c : κ) : Bool := save.writes c && c ∈ save.loaded.assigned

@[simp] theorem set_values_self (loaded : Loaded ν) (c : κ) (value : ν c) : (loaded.set c value).values c = value := by
  simp [Loaded.set]

@[simp] theorem set_values_other (loaded : Loaded ν) {c d : κ} (value : ν c) (other : d ≠ c) :
    (loaded.set c value).values d = loaded.values d := by
  simp [Loaded.set,other]

@[simp] theorem set_assigned (loaded : Loaded ν) (c : κ) (value : ν c) :
    (loaded.set c value).assigned = c :: loaded.assigned := rfl

theorem Save.apply_writes {save : Save ν} {c : κ} (written : save.writes c = true) (row : Row ν) :
    save.apply row c = save.loaded.values c := by
  simp [Save.apply,written]

theorem Save.apply_other {save : Save ν} {c : κ} (left : save.writes c = false) (row : Row ν) :
    save.apply row c = row c := by
  simp [Save.apply,left]

theorem Loaded.Copies.set {loaded : Loaded ν} {row : Row ν} (copies : loaded.Copies row) (c : κ) (value : ν c) :
    (loaded.set c value).Copies row := by
  intro d unset
  simp only [set_assigned,List.mem_cons,not_or] at unset
  rw [set_values_other _ _ unset.1]
  exact copies d unset.2

/-- What a process has left to do: all of it, or some saves. -/
inductive Phase (ν : κ → Type) where
  | waiting
  | running (todo : List (Save ν))

structure System (π : Type) (ν : κ → Type) where
  row : Row ν
  phase : π → Phase ν

inductive Action (π : Type) where
  | load (p : π)
  | save (p : π)

/-- One step of a process; `body` says what a process saves, given the row that it
    loads. -/
def System.step (body : π → Row ν → List (Save ν)) (system : System π ν) : Action π → System π ν
  | .load p =>
    match system.phase p with
    | .waiting => { system with phase := Function.update system.phase p (.running (body p system.row)) }
    | .running _ => system
  | .save p =>
    match system.phase p with
    | .running (save :: todo) =>
      { row := save.apply system.row, phase := Function.update system.phase p (.running todo) }
    | _ => system

def System.run (body : π → Row ν → List (Save ν)) (system : System π ν) (actions : List (Action π)) : System π ν :=
  actions.foldl (System.step body) system

/-- Every step of a run meets a condition on the state in which it is taken. -/
def Along {σ α : Type} (step : σ → α → σ) (condition : σ → α → Prop) : σ → List α → Prop
  | _,[] => True
  | state,action :: rest => condition state action ∧ Along step condition (step state action) rest

instance Along.decidable {σ α : Type} {step : σ → α → σ} {condition : σ → α → Prop}
    [∀ state action, Decidable (condition state action)] :
    (state : σ) → (actions : List α) → Decidable (Along step condition state actions)
  | _,[] => isTrue trivial
  | state,action :: rest =>
    have : Decidable (Along step condition (step state action) rest) := Along.decidable (step state action) rest
    inferInstanceAs (Decidable (condition state action ∧ Along step condition (step state action) rest))

theorem Along.imp {σ α : Type} {step : σ → α → σ} {condition weaker : σ → α → Prop}
    (implies : ∀ state action, condition state action → weaker state action) {state : σ} {actions : List α}
    (along : Along step condition state actions) : Along step weaker state actions := by
  induction actions generalizing state with
  | nil => trivial
  | cons action rest ih => exact ⟨implies state action along.1,ih along.2⟩

/-- What each step that meets the condition preserves, a run preserves. -/
theorem Along.invariant {σ α : Type} {step : σ → α → σ} {condition : σ → α → Prop} {invariant : σ → Prop}
    (preserved : ∀ state action, invariant state → condition state action → invariant (step state action))
    {state : σ} {actions : List α} (along : Along step condition state actions) (holds : invariant state) :
    invariant (actions.foldl step state) := by
  induction actions generalizing state with
  | nil => exact holds
  | cons action rest ih => exact ih along.2 (preserved state action holds along.1)

/-- Each step of a run is taken in a state that has what the steps before it preserve. -/
theorem Along.and_invariant {σ α : Type} {step : σ → α → σ} {condition : σ → α → Prop} {invariant : σ → Prop}
    (preserved : ∀ state action, invariant state → condition state action → invariant (step state action))
    {state : σ} {actions : List α} (along : Along step condition state actions) (holds : invariant state) :
    Along step (fun state action => invariant state ∧ condition state action) state actions := by
  induction actions generalizing state with
  | nil => trivial
  | cons action rest ih => exact ⟨⟨holds,along.1⟩,ih along.2 (preserved state action holds along.1)⟩

/-- The last step of a run meets the condition where it is taken. -/
theorem Along.last {σ α : Type} {step : σ → α → σ} {condition : σ → α → Prop} {state : σ} {actions : List α} {action : α}
    (along : Along step condition state (actions ++ [action])) : condition (actions.foldl step state) action := by
  induction actions generalizing state with
  | nil => exact along.1
  | cons first rest ih => exact ih along.2

/-- Where the condition is what a step needs to be sound, and sound steps keep the
    invariant, the steps of a run are all sound exactly when they all meet the
    condition. -/
theorem Along.exact_iff {σ α : Type} {step : σ → α → σ} {sound condition : σ → α → Prop} {invariant : σ → Prop}
    (exact_step : ∀ state action, invariant state → (sound state action ↔ condition state action))
    (preserved : ∀ state action, invariant state → sound state action → invariant (step state action))
    {state : σ} {actions : List α} (holds : invariant state) :
    Along step sound state actions ↔ Along step condition state actions := by
  induction actions generalizing state with
  | nil => exact Iff.rfl
  | cons action rest ih =>
    constructor
    · rintro ⟨kept,later⟩
      exact ⟨(exact_step state action holds).mp kept,(ih (preserved state action holds kept)).mp later⟩
    · rintro ⟨met,later⟩
      have kept := (exact_step state action holds).mpr met
      exact ⟨kept,(ih (preserved state action holds kept)).mpr later⟩

/-- Where the condition is what a step needs to keep the invariant, it is met along a run
    exactly when every state that is reached has the invariant. -/
theorem Along.kept_iff {σ α : Type} {step : σ → α → σ} {condition : σ → α → Prop} {invariant : σ → Prop}
    (exact_step : ∀ state action, invariant state → (invariant (step state action) ↔ condition state action))
    {state : σ} {actions : List α} (holds : invariant state) :
    Along step (fun state action => invariant (step state action)) state actions ↔
      Along step condition state actions :=
  Along.exact_iff exact_step (fun _ _ _ kept => kept) holds

section Kept
variable {body : π → Row ν → List (Save ν)} {c : κ} {P : ν c → Prop}

/-- A save that stores only good values in a column. -/
def Save.Keeps (save : Save ν) (c : κ) (P : ν c → Prop) : Prop := save.writes c = true → P (save.loaded.values c)

/-- A process that saves only good values in a column when it loads one there. -/
def Checks (body : Row ν → List (Save ν)) (c : κ) (P : ν c → Prop) : Prop :=
  ∀ row, P (row c) → ∀ save ∈ body row, save.Keeps c P

/-- A step that saves the column only for a process that checks it, and that was not
    already under way. -/
def SavesChecked (body : π → Row ν → List (Save ν)) (c : κ) (P : ν c → Prop) (underWay : π → Prop)
    (system : System π ν) : Action π → Prop
  | .load _ => True
  | .save p => (¬ underWay p ∧ Checks (body p) c P) ∨
      ∀ save todo, system.phase p = .running (save :: todo) → save.writes c = false

/-- The column has a good value, and no process that checks it is about to store a bad one. -/
structure ColumnKept (body : π → Row ν → List (Save ν)) (c : κ) (P : ν c → Prop) (underWay : π → Prop)
    (system : System π ν) : Prop where
  stored : P (system.row c)
  pending : ∀ p todo, ¬ underWay p → Checks (body p) c P → system.phase p = .running todo →
    ∀ save ∈ todo, save.Keeps c P

theorem step_columnKept {underWay : π → Prop} (system : System π ν) (action : Action π)
    (kept : ColumnKept body c P underWay system) (checked : SavesChecked body c P underWay system action) :
    ColumnKept body c P underWay (system.step body action) := by
  cases action with
  | load p =>
    cases phase : system.phase p with
    | running todo => simpa [System.step,phase] using kept
    | waiting =>
      simp only [System.step,phase]
      refine ⟨kept.stored,?_⟩
      intro q todo fresh checks running
      by_cases same : q = p
      · subst same
        simp only [Function.update_self,Phase.running.injEq] at running
        subst running
        exact checks system.row kept.stored
      · simp only [Function.update_of_ne same] at running
        exact kept.pending q todo fresh checks running
  | save p =>
    cases phase : system.phase p with
    | waiting => simpa [System.step,phase] using kept
    | running todo =>
      cases todo with
      | nil => simpa [System.step,phase] using kept
      | cons save todo =>
        simp only [System.step,phase]
        refine ⟨?_,?_⟩
        · change P (save.apply system.row c)
          rcases checked with ⟨fresh,checks⟩ | untouched
          · cases written : save.writes c with
            | false =>
              rw [Save.apply_other written]
              exact kept.stored
            | true =>
              rw [Save.apply_writes written]
              exact kept.pending p _ fresh checks phase save (by simp) written
          · rw [Save.apply_other (untouched save todo phase)]
            exact kept.stored
        · intro q rest fresh checks running
          by_cases same : q = p
          · subst same
            simp only [Function.update_self,Phase.running.injEq] at running
            subst running
            intro later member
            exact kept.pending q _ fresh checks phase later (by simp [member])
          · simp only [Function.update_of_ne same] at running
            exact kept.pending q rest fresh checks running

/-- A column keeps a good value as long as it is saved only by processes that check it,
    and that load the row when it has one or have only good values to save. -/
theorem run_column_kept (underWay : π → Prop) {system : System π ν} (stored : P (system.row c))
    (pending : ∀ p todo, ¬ underWay p → system.phase p = .running todo → ∀ save ∈ todo, save.Keeps c P)
    {actions : List (Action π)}
    (checked : Along (System.step body) (SavesChecked body c P underWay) system actions) :
    P ((system.run body actions).row c) := by
  have start : ColumnKept body c P underWay system := by
    refine ⟨stored,?_⟩
    intro p todo fresh _ running
    exact pending p todo fresh running
  exact (checked.invariant step_columnKept start).stored

end Kept

section Latest
variable {body : π → Row ν → List (Save ν)}

/-- The system with what an observer notes: for each column the latest value that one
    of the `writers` set, and for each process the columns that were set since it
    loaded the row. -/
structure Observed (π : Type) (ν : κ → Type) extends System π ν where
  latest : (c : κ) → Option (ν c)
  disturbed : π → κ → Bool

/-- The notes after a save. -/
def Observed.noteSave (observed : Observed π ν) (writers : π → Bool) (p : π) (save : Save ν) (todo : List (Save ν)) :
    Observed π ν where
  row := save.apply observed.row
  phase := Function.update observed.phase p (.running todo)
  latest := fun c => if writers p && save.sets c then some (save.loaded.values c) else observed.latest c
  disturbed := fun q c => observed.disturbed q c || save.sets c

def Observed.step (body : π → Row ν → List (Save ν)) (writers : π → Bool) (observed : Observed π ν) :
    Action π → Observed π ν
  | .load p =>
    match observed.phase p with
    | .waiting =>
      { observed with
        phase := Function.update observed.phase p (.running (body p observed.row))
        disturbed := Function.update observed.disturbed p fun _ => false }
    | .running _ => observed
  | .save p =>
    match observed.phase p with
    | .running (save :: todo) => observed.noteSave writers p save todo
    | _ => observed

def Observed.run (body : π → Row ν → List (Save ν)) (writers : π → Bool) (observed : Observed π ν)
    (actions : List (Action π)) : Observed π ν :=
  actions.foldl (Observed.step body writers) observed

/-- Observing does not change what the system does. -/
theorem observed_run_system (writers : π → Bool) (observed : Observed π ν) (actions : List (Action π)) :
    (observed.run body writers actions).toSystem = observed.toSystem.run body actions := by
  have one : ∀ (observed : Observed π ν) action,
      (observed.step body writers action).toSystem = observed.toSystem.step body action := by
    intro observed action
    cases action with
    | load p => cases phase : observed.phase p <;> simp [Observed.step,System.step,phase]
    | save p =>
      cases phase : observed.phase p with
      | waiting => simp [Observed.step,System.step,phase]
      | running todo => cases todo <;> simp [Observed.step,System.step,phase,Observed.noteSave]
  induction actions generalizing observed with
  | nil => rfl
  | cons action rest ih =>
    have later := ih (observed.step body writers action)
    rw [one] at later
    exact later

/-- A save stores in each tracked column a value that a writer sets, one that no writer
    has set before it, or one that nobody has set since it was loaded. -/
def Undisturbed (tracked : List κ) (writers : π → Bool) (observed : Observed π ν) : Action π → Prop
  | .load _ => True
  | .save p => ∀ save todo, observed.phase p = .running (save :: todo) → ∀ c ∈ tracked, save.writes c = true →
      if c ∈ save.loaded.assigned then writers p = true ∨ observed.latest c = none
      else observed.disturbed p c = false

structure LatestKept (tracked : List κ) (observed : Observed π ν) : Prop where
  stored : ∀ c ∈ tracked, ∀ value, observed.latest c = some value → observed.row c = value
  copied : ∀ p todo, observed.phase p = .running todo → ∀ save ∈ todo, ∀ c ∈ tracked,
    c ∉ save.loaded.assigned → observed.disturbed p c = false → save.loaded.values c = observed.row c

/-- In an undisturbed column, a save stores what is there. -/
theorem noteSave_row {tracked : List κ} {writers : π → Bool} {observed : Observed π ν} {p : π} {save : Save ν}
    {todo : List (Save ν)} (kept : LatestKept tracked observed) (phase : observed.phase p = .running (save :: todo))
    (undisturbed : Undisturbed tracked writers observed (.save p)) {c : κ} (listed : c ∈ tracked)
    (unset : save.sets c = false) : (observed.noteSave writers p save todo).row c = observed.row c := by
  cases written : save.writes c with
  | false => exact Save.apply_other written _
  | true =>
    have unassigned : c ∉ save.loaded.assigned := by simpa [Save.sets,written] using unset
    have calm := undisturbed save todo phase c listed written
    rw [if_neg unassigned] at calm
    exact (Save.apply_writes written _).trans (kept.copied p _ phase save (by simp) c listed unassigned calm)

/-- What a writer sets is the latest value, and what another sets comes before any. -/
theorem noteSave_stored {tracked : List κ} {writers : π → Bool} {observed : Observed π ν} {p : π} {save : Save ν}
    {todo : List (Save ν)} (kept : LatestKept tracked observed) (phase : observed.phase p = .running (save :: todo))
    (undisturbed : Undisturbed tracked writers observed (.save p)) {c : κ} (listed : c ∈ tracked) {value : ν c}
    (noted : (observed.noteSave writers p save todo).latest c = some value) :
    (observed.noteSave writers p save todo).row c = value := by
  cases setting : save.sets c with
  | false =>
    rw [noteSave_row kept phase undisturbed listed setting]
    simp only [Observed.noteSave,setting,Bool.and_false] at noted
    exact kept.stored c listed value noted
  | true =>
    obtain ⟨written,assigned⟩ : save.writes c = true ∧ c ∈ save.loaded.assigned := by
      simpa [Save.sets] using setting
    have calm := undisturbed save todo phase c listed written
    rw [if_pos assigned] at calm
    cases writer : writers p with
    | true =>
      simp only [Observed.noteSave,setting,writer,Bool.and_self,if_true,Option.some.injEq] at noted
      rw [← noted]
      exact Save.apply_writes written _
    | false =>
      simp only [Observed.noteSave,writer,Bool.false_and] at noted
      rcases calm with isWriter | none_before
      · rw [writer] at isWriter
        cases isWriter
      · simp [none_before] at noted

theorem step_latestKept {tracked : List κ} {writers : π → Bool}
    (copies : ∀ p row, ∀ save ∈ body p row, save.loaded.Copies row) (observed : Observed π ν) (action : Action π)
    (kept : LatestKept tracked observed) (undisturbed : Undisturbed tracked writers observed action) :
    LatestKept tracked (observed.step body writers action) := by
  cases action with
  | load p =>
    cases phase : observed.phase p with
    | running todo => simpa [Observed.step,phase] using kept
    | waiting =>
      simp only [Observed.step,phase]
      refine ⟨kept.stored,?_⟩
      intro q todo running save member c listed unassigned calm
      by_cases same : q = p
      · subst same
        simp only [Function.update_self,Phase.running.injEq] at running
        subst running
        exact copies q observed.row save member c unassigned
      · simp only [Function.update_of_ne same] at running calm
        exact kept.copied q todo running save member c listed unassigned calm
  | save p =>
    cases phase : observed.phase p with
    | waiting => simpa [Observed.step,phase] using kept
    | running todo =>
      cases todo with
      | nil => simpa [Observed.step,phase] using kept
      | cons save todo =>
        simp only [Observed.step,phase]
        refine ⟨fun c listed value noted => noteSave_stored kept phase undisturbed listed noted,?_⟩
        intro q rest running later member c listed unassigned calm
        have parts : observed.disturbed q c = false ∧ save.sets c = false := by
          simpa [Observed.noteSave] using calm
        rw [noteSave_row kept phase undisturbed listed parts.2]
        by_cases same : q = p
        · subst same
          simp only [Observed.noteSave,Function.update_self,Phase.running.injEq] at running
          subst running
          exact kept.copied q _ phase later (by simp [member]) c listed unassigned parts.1
        · simp only [Observed.noteSave,Function.update_of_ne same] at running
          exact kept.copied q rest running later member c listed unassigned parts.1

/-- Along a run without disturbed saves, the row has in each tracked column the latest
    value that a writer set. -/
theorem run_latest_kept {tracked : List κ} {writers : π → Bool}
    (copies : ∀ p row, ∀ save ∈ body p row, save.loaded.Copies row) {observed : Observed π ν}
    (kept : LatestKept tracked observed) {actions : List (Action π)}
    (undisturbed : Along (Observed.step body writers) (Undisturbed tracked writers) observed actions) :
    ∀ c ∈ tracked, ∀ value, (observed.run body writers actions).latest c = some value →
      (observed.run body writers actions).row c = value :=
  (undisturbed.invariant (step_latestKept copies) kept).stored

end Latest

end OasisPlatform.SharedRow
