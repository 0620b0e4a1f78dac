import Mathlib.Data.List.Forall2
import OasisPlatform.Canvas

/-!
Assertions about canvases. A triple says what a canvas is given and what it ends with, and
that each task on the way is given what it requires. Triples are put together step by step;
where every task returns on what it requires, a canvas with a triple runs to its end
(`Triple.completes`).
-/
namespace OasisPlatform.Canvas
set_option linter.unusedSimpArgs false

variable {τ δ : Type} {returns : τ → List δ → δ → Prop}

/-- The results of the last step, when all steps have run. -/
inductive Ends (returns : τ → List δ → δ → Prop) : List (Step τ) → List δ → List δ → Prop where
  | done (given : List δ) : Ends returns [] given given
  | task {work : τ} {rest : List (Step τ)} {given ends : List δ} {result : δ} (returned : returns work given result)
      (later : Ends returns rest [result] ends) : Ends returns (.task work :: rest) given ends
  | header {works : List τ} {rest : List (Step τ)} {given results ends : List δ}
      (returned : List.Forall₂ (fun work result => returns work given result) works results)
      (later : Ends returns rest results ends) : Ends returns (.header works :: rest) given ends

/-- A run through two parts ends the first, and then the second. -/
theorem Ends.split {steps others : List (Step τ)} {given ends : List δ} (run : Ends returns (steps ++ others) given ends) :
    ∃ results, Ends returns steps given results ∧ Ends returns others results ends := by
  induction steps generalizing given with
  | nil => exact ⟨given,.done given,run⟩
  | cons step rest ih =>
    cases run with
    | task returned later =>
      obtain ⟨results,first,second⟩ := ih later
      exact ⟨results,.task returned first,second⟩
    | header returned later =>
      obtain ⟨results,first,second⟩ := ih later
      exact ⟨results,.header returned first,second⟩

theorem Ends.append {steps others : List (Step τ)} {given results ends : List δ} (first : Ends returns steps given results)
    (second : Ends returns others results ends) : Ends returns (steps ++ others) given ends := by
  induction first with
  | done given => exact second
  | task returned _ ih => exact .task returned (ih second)
  | header returned _ ih => exact .header returned (ih second)

/-- What a task is given in two parts, it is given in the first or after it. -/
theorem Given.split {steps others : List (Step τ)} {given args : List δ} {work : τ}
    (reached : Given returns (steps ++ others) given work args) :
    Given returns steps given work args ∨ ∃ results, Ends returns steps given results ∧ Given returns others results work args := by
  induction steps generalizing given with
  | nil => exact .inr ⟨given,.done given,reached⟩
  | cons step rest ih =>
    cases reached with
    | task => exact .inl (.task ..)
    | header listed => exact .inl (.header listed ..)
    | afterTask returned later =>
      rcases ih later with inside | ⟨results,first,second⟩
      · exact .inl (.afterTask returned inside)
      · exact .inr ⟨results,.task returned first,second⟩
    | afterHeader returned later =>
      rcases ih later with inside | ⟨results,first,second⟩
      · exact .inl (.afterHeader returned inside)
      · exact .inr ⟨results,.header returned first,second⟩

theorem Ends.mono {fewer : τ → List δ → δ → Prop}
    (part : ∀ work given result, fewer work given result → returns work given result) {steps : List (Step τ)}
    {given ends : List δ} (run : Ends fewer steps given ends) : Ends returns steps given ends := by
  induction run with
  | done given => exact .done given
  | task returned _ ih => exact .task (part _ _ _ returned) ih
  | header returned _ ih => exact .header (returned.imp fun _ _ => part _ _ _) ih

theorem Given.mono {fewer : τ → List δ → δ → Prop}
    (part : ∀ work given result, fewer work given result → returns work given result) {steps : List (Step τ)}
    {given args : List δ} {work : τ} (reached : Given fewer steps given work args) : Given returns steps given work args := by
  induction reached with
  | task work rest given => exact .task work rest given
  | header listed rest given => exact .header listed rest given
  | afterTask returned _ ih => exact .afterTask (part _ _ _ returned) ih
  | afterHeader returned _ ih => exact .afterHeader (returned.imp fun _ _ => part _ _ _) ih

/-- From what `before` holds of, each task is given what it requires, and `after` holds of
    the results. -/
structure Triple (returns : τ → List δ → δ → Prop) (requires : τ → List δ → Prop) (before : List δ → Prop)
    (steps : List (Step τ)) (after : List δ → Prop) : Prop where
  meets : ∀ given, before given → ∀ work args, Given returns steps given work args → requires work args
  ends : ∀ given, before given → ∀ results, Ends returns steps given results → after results

variable {requires : τ → List δ → Prop} {before between after : List δ → Prop} {steps others : List (Step τ)}

theorem Triple.skip : Triple returns requires before [] before where
  meets := fun _ _ _ _ reached => nomatch reached
  ends := by
    rintro given holds _ ⟨⟩
    exact holds

theorem Triple.task {work : τ} (meets : ∀ given, before given → requires work given)
    (keeps : ∀ given, before given → ∀ result, returns work given result → after [result]) :
    Triple returns requires before [.task work] after where
  meets := by
    intro given holds other args reached
    cases reached with
    | task => exact meets given holds
    | afterTask _ later => cases later
  ends := by
    intro given holds results run
    cases run with
    | task returned later =>
      cases later
      exact keeps given holds _ returned

theorem Triple.header {works : List τ} (meets : ∀ work ∈ works, ∀ given, before given → requires work given)
    (keeps : ∀ given, before given → ∀ results,
      List.Forall₂ (fun work result => returns work given result) works results → after results) :
    Triple returns requires before [.header works] after where
  meets := by
    intro given holds other args reached
    cases reached with
    | header listed => exact meets _ listed given holds
    | afterHeader _ later => cases later
  ends := by
    intro given holds results run
    cases run with
    | header returned later =>
      cases later
      exact keeps given holds _ returned

theorem Triple.append (first : Triple returns requires before steps between)
    (second : Triple returns requires between others after) : Triple returns requires before (steps ++ others) after where
  meets := by
    intro given holds work args reached
    rcases reached.split with inside | ⟨results,run,later⟩
    · exact first.meets given holds work args inside
    · exact second.meets results (first.ends given holds results run) work args later
  ends := by
    intro given holds ends run
    obtain ⟨results,run,later⟩ := run.split
    exact second.ends results (first.ends given holds results run) ends later

theorem Triple.weaken {weaker stronger : List δ → Prop} (triple : Triple returns requires before steps after)
    (pre : ∀ given, stronger given → before given) (post : ∀ results, after results → weaker results) :
    Triple returns requires stronger steps weaker where
  meets := fun given holds => triple.meets given (pre given holds)
  ends := fun given holds results run => post results (triple.ends given (pre given holds) results run)

/-- Fewer results are returned. -/
theorem Triple.restrict {fewer : τ → List δ → δ → Prop} (triple : Triple returns requires before steps after)
    (part : ∀ work given result, fewer work given result → returns work given result) :
    Triple fewer requires before steps after where
  meets := fun given holds work args reached => triple.meets given holds work args (reached.mono part)
  ends := fun given holds results run => triple.ends given holds results (run.mono part)

/-- The rest of a canvas, after its first step. -/
theorem Triple.rest {step : Step τ} {given results : List δ} (triple : Triple returns requires before (step :: steps) after)
    (holds : before given) (first : Ends returns [step] given results) :
    Triple returns requires (· = results) steps after where
  meets := by
    rintro _ rfl work args reached
    refine triple.meets given holds work args ?_
    cases first with
    | task returned later =>
      cases later
      exact .afterTask returned reached
    | header returned later =>
      cases later
      exact .afterHeader returned reached
  ends := by
    rintro _ rfl ends run
    exact triple.ends given holds ends (first.append run)

theorem each_forall₂ {given : List δ} {works : List τ} (each : ∀ work ∈ works, ∃ result, returns work given result) :
    ∃ results, List.Forall₂ (fun work result => returns work given result) works results := by
  induction works with
  | nil => exact ⟨[],.nil⟩
  | cons work rest ih =>
    obtain ⟨result,returned⟩ := each work List.mem_cons_self
    obtain ⟨results,later⟩ := ih fun other listed => each other (List.mem_cons_of_mem _ listed)
    exact ⟨result :: results,.cons returned later⟩

/-- A canvas whose tasks all return on what they require runs to its end. -/
theorem Triple.completes (total : ∀ work args, requires work args → ∃ result, returns work args result) {given : List δ}
    (triple : Triple returns requires before steps after) (holds : before given) :
    ∃ results, Ends returns steps given results ∧ after results := by
  induction steps generalizing given before with
  | nil => exact ⟨given,.done given,triple.ends given holds given (.done given)⟩
  | cons step rest ih =>
    have first : ∃ results, Ends returns [step] given results := by
      cases step with
      | task work =>
        obtain ⟨result,returned⟩ := total work given (triple.meets given holds work given (.task ..))
        exact ⟨[result],.task returned (.done _)⟩
      | header works =>
        have each : ∀ work ∈ works, ∃ result, returns work given result := fun work listed =>
          total work given (triple.meets given holds work given (.header listed ..))
        obtain ⟨results,returned⟩ := each_forall₂ each
        exact ⟨results,.header returned (.done _)⟩
    obtain ⟨results,first⟩ := first
    obtain ⟨ends,later,holds⟩ := ih (triple.rest holds first) rfl
    exact ⟨ends,first.append later,holds⟩

end OasisPlatform.Canvas
