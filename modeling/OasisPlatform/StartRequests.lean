import OasisPlatform.Starting

/-!
Start requests for one analysis at the same time. Each loads the row, checks it, saves it
as queued and dispatches a task, without a lock: two requests that both load the row
before one of them has saved it are both accepted. At most one is when a request is
between its load and its save only by itself (`at_most_one_dispatch`).
-/
namespace OasisPlatform.StartRequests
open OasisPlatform.SharedRow OasisPlatform.Models OasisPlatform.Starting
set_option linter.unusedSimpArgs false

/-- How far a request is. -/
inductive RequestPhase where
  | waiting
  | loaded (analysis : Analysis)
  | checked (started : Start)
  | queued (started : Start)
  | published (started : Start) (taskId : String)
  | recorded
  | refused (error : StartError)

/-- A request that has loaded the row and not saved it yet. -/
def RequestPhase.entering : RequestPhase → Bool
  | .loaded _ => true
  | .checked _ => true
  | _ => false

def RequestPhase.isQueued : RequestPhase → Bool
  | .queued _ => true
  | _ => false

/-- A request whose task is dispatched. -/
def RequestPhase.sent : RequestPhase → Bool
  | .published .. => true
  | .recorded => true
  | _ => false

/-- The status is one of a run that is queued or has started. -/
def inProgress (row : AnalysisRow) : Bool := row .status ∉ inputsGenerationValidStatuses

/-- The row, the requests, and those of them that have dispatched a task since no run was
    last in progress. -/
structure Requests (π : Type) where
  row : AnalysisRow
  phase : π → RequestPhase
  dispatched : List π

/-- A step of a request, or a save by some other process. -/
inductive Step (π : Type) where
  | load (p : π)
  | check (p : π)
  | save (p : π)
  | dispatch (p : π) (taskId : String)
  | record (p : π) (now : Time)
  | other (save : AnalysisSave)

variable {π : Type} [DecidableEq π]

def Requests.goto (requests : Requests π) (p : π) (phase : RequestPhase) : Requests π :=
  { requests with phase := Function.update requests.phase p phase }

def Requests.step (ctx : π → StartContext) (method : π → StartMethod) (requests : Requests π) : Step π → Requests π
  | .load p =>
    match requests.phase p with
    | .waiting => requests.goto p (.loaded (load requests.row))
    | _ => requests
  | .check p =>
    match requests.phase p with
    | .loaded analysis =>
      match start (ctx p) (method p) analysis with
      | .ok started => requests.goto p (.checked started)
      | .error error => requests.goto p (.refused error)
    | _ => requests
  | .save p =>
    match requests.phase p with
    | .checked started =>
      { requests.goto p (.queued started) with row := (Analysis.save started.queued).apply requests.row }
    | _ => requests
  | .dispatch p taskId =>
    match requests.phase p with
    | .queued started => { requests.goto p (.published started taskId) with dispatched := p :: requests.dispatched }
    | _ => requests
  | .record p now =>
    match requests.phase p with
    | .published started taskId =>
      { requests.goto p .recorded with row := (recordDispatch now started taskId).apply requests.row }
    | _ => requests
  | .other save =>
    { requests with
      row := save.apply requests.row
      dispatched := if inProgress (save.apply requests.row) then requests.dispatched else [] }

def Requests.run (ctx : π → StartContext) (method : π → StartMethod) (requests : Requests π) (steps : List (Step π)) :
    Requests π :=
  steps.foldl (Requests.step ctx method) requests

/-- No request, or only requests that have not begun. -/
def Requests.begin (row : AnalysisRow) : Requests π := ⟨row,fun _ => .waiting,[]⟩

/-- A request loads the row while no other is between its load and its save; the settings
    files that it comes to can be used; and no other process ends a run between the save and
    the dispatch of a request. -/
def Orderly (ctx : π → StartContext) (method : π → StartMethod) (requests : Requests π) : Step π → Prop
  | .load _ => ∀ q, (requests.phase q).entering = false
  | .check p => ∀ analysis, requests.phase p = .loaded analysis → readsSettings (ctx p) (method p) analysis = true →
      settingsShaped (ctx p) analysis = true
  | .other save => (∃ q, (requests.phase q).isQueued = true) → inProgress (save.apply requests.row) = true
  | _ => True

/-- A request has saved the row and not dispatched yet, or has dispatched in this run. -/
def Requests.Holds (requests : Requests π) (p : π) : Prop :=
  (requests.phase p).isQueued = true ∨ p ∈ requests.dispatched

/-- What the phase of a request says about the row and the other requests. -/
def PhaseOk (requests : Requests π) : RequestPhase → Prop
  | .loaded analysis => (∃ q, requests.Holds q) → analysis.values .status ∉ inputsGenerationValidStatuses
  | .checked started =>
    started.queued.values .status ∉ inputsGenerationValidStatuses ∧ ∀ q, ¬ requests.Holds q
  | .queued started => started.queued.values .status ∉ inputsGenerationValidStatuses
  | .published started _ => started.queued.values .status ∉ inputsGenerationValidStatuses
  | .refused error => error.isValidation = true
  | _ => True

structure Exclusive (requests : Requests π) : Prop where
  entering : ∀ p q, (requests.phase p).entering = true → (requests.phase q).entering = true → p = q
  holder : ∀ p q, requests.Holds p → requests.Holds q → p = q
  single : requests.dispatched.length ≤ 1
  sent : ∀ p ∈ requests.dispatched, (requests.phase p).sent = true
  progress : ∀ p, requests.Holds p → inProgress requests.row = true
  phaseOk : ∀ p, PhaseOk requests (requests.phase p)

omit [DecidableEq π] in
theorem begin_exclusive (row : AnalysisRow) : Exclusive (Requests.begin row : Requests π) := by
  constructor
  · intro p q entered
    cases entered
  · rintro p q (queued | listed)
    · cases queued
    · cases listed
  · simp [Requests.begin]
  · intro p listed
    cases listed
  · rintro p (queued | listed)
    · cases queued
    · cases listed
  · intro p
    trivial

omit [DecidableEq π] in
/-- A phase asks for less where fewer requests hold the row. -/
theorem PhaseOk.fewer {requests after : Requests π} (fewer : ∀ q, after.Holds q → requests.Holds q)
    {phase : RequestPhase} (ok : PhaseOk requests phase) : PhaseOk after phase := by
  cases phase with
  | loaded analysis =>
    rintro ⟨q,holds⟩
    exact ok ⟨q,fewer q holds⟩
  | checked started => exact ⟨ok.1,fun q holds => ok.2 q (fewer q holds)⟩
  | _ => exact ok

section Moves
variable {requests after : Requests π} {p : π} {new : RequestPhase}

theorem moved_self (moved : after.phase = Function.update requests.phase p new) : after.phase p = new := by
  rw [moved,Function.update_self]

theorem moved_other (moved : after.phase = Function.update requests.phase p new) {q : π} (different : q ≠ p) :
    after.phase q = requests.phase q := by
  rw [moved,Function.update_of_ne different]

omit [DecidableEq π] in
/-- A request between its load and its save is the only one. -/
theorem Exclusive.alone (exclusive : Exclusive requests) (entered : (requests.phase p).entering = true) (q : π)
    (different : q ≠ p) : (requests.phase q).entering = false := by
  by_contra another
  exact different (exclusive.entering q p (by simpa using another) entered)

theorem move_fewer (moved : after.phase = Function.update requests.phase p new)
    (kept : after.dispatched = requests.dispatched) (unqueued : new.isQueued = false) (q : π) (holds : after.Holds q) :
    requests.Holds q := by
  rcases holds with queued | listed
  · left
    by_cases same : q = p
    · rw [same,moved_self moved,unqueued] at queued
      cases queued
    · rwa [moved_other moved same] at queued
  · right
    rwa [kept] at listed

theorem goto_fewer (unqueued : new.isQueued = false) {q : π} (holds : (requests.goto p new).Holds q) :
    requests.Holds q := by
  have moved : (requests.goto p new).phase = Function.update requests.phase p new := rfl
  exact move_fewer moved rfl unqueued q holds

/-- A request moves on without saving the row as queued or dispatching. -/
theorem Exclusive.move (exclusive : Exclusive requests) (moved : after.phase = Function.update requests.phase p new)
    (kept : after.dispatched = requests.dispatched) (unqueued : new.isQueued = false)
    (stays : (requests.phase p).sent = true → new.sent = true)
    (enters : new.entering = true → ∀ q, q ≠ p → (requests.phase q).entering = false)
    (progress : inProgress requests.row = true → inProgress after.row = true) (ok : PhaseOk after new) :
    Exclusive after := by
  have fewer := move_fewer moved kept unqueued
  have other : ∀ {q}, q ≠ p → after.phase q = requests.phase q := moved_other moved
  have mine : after.phase p = new := moved_self moved
  constructor
  · intro q r enteredQ enteredR
    by_cases isQ : q = p
    · by_cases isR : r = p
      · rw [isQ,isR]
      · rw [isQ,mine] at enteredQ
        rw [other isR,enters enteredQ r isR] at enteredR
        cases enteredR
    · rw [other isQ] at enteredQ
      by_cases isR : r = p
      · rw [isR,mine] at enteredR
        rw [enters enteredR q isQ] at enteredQ
        cases enteredQ
      · rw [other isR] at enteredR
        exact exclusive.entering q r enteredQ enteredR
  · intro q r holdsQ holdsR
    exact exclusive.holder q r (fewer q holdsQ) (fewer r holdsR)
  · rw [kept]
    exact exclusive.single
  · intro q listed
    rw [kept] at listed
    by_cases same : q = p
    · rw [same,mine]
      exact stays (same ▸ exclusive.sent q listed)
    · rw [other same]
      exact exclusive.sent q listed
  · intro q holds
    exact progress (exclusive.progress q (fewer q holds))
  · intro q
    by_cases same : q = p
    · rw [same,mine]
      exact ok
    · rw [other same]
      exact (exclusive.phaseOk q).fewer fewer

/-- The save of a request whose check nobody has overtaken. -/
theorem Exclusive.save (exclusive : Exclusive requests) {started : Start} (phase : requests.phase p = .checked started)
    (moved : after.phase = Function.update requests.phase p (.queued started))
    (kept : after.dispatched = requests.dispatched) (saved : after.row .status = started.queued.values .status) :
    Exclusive after := by
  have free : PhaseOk requests (.checked started) := phase ▸ exclusive.phaseOk p
  have alone : ∀ q, q ≠ p → (requests.phase q).entering = false := exclusive.alone (by rw [phase]; rfl)
  have none_dispatched : requests.dispatched = [] := by
    rw [List.eq_nil_iff_forall_not_mem]
    intro q listed
    exact free.2 q (.inr listed)
  have other : ∀ {q}, q ≠ p → after.phase q = requests.phase q := moved_other moved
  have mine : after.phase p = .queued started := moved_self moved
  have only : ∀ q, after.Holds q → q = p := by
    intro q holds
    by_contra different
    rcases holds with queued | listed
    · rw [other different] at queued
      exact free.2 q (.inl queued)
    · rw [kept,none_dispatched] at listed
      cases listed
  have left : ∀ q, (after.phase q).entering = false := by
    intro q
    by_cases same : q = p
    · rw [same,mine]
      rfl
    · rw [other same]
      exact alone q same
  constructor
  · intro q r entered
    rw [left q] at entered
    cases entered
  · intro q r holdsQ holdsR
    rw [only q holdsQ,only r holdsR]
  · simp [kept,none_dispatched]
  · intro q listed
    rw [kept,none_dispatched] at listed
    cases listed
  · intro q _
    simpa [inProgress,saved] using free.1
  · intro q
    by_cases same : q = p
    · rw [same,mine]
      exact free.1
    · have before := exclusive.phaseOk q
      have notEntering := alone q same
      rw [other same]
      cases phaseQ : requests.phase q with
      | loaded analysis => simp [phaseQ,RequestPhase.entering] at notEntering
      | checked other => simp [phaseQ,RequestPhase.entering] at notEntering
      | _ =>
        rw [phaseQ] at before
        exact before

/-- The dispatch of the only request that holds the row. -/
theorem Exclusive.dispatch (exclusive : Exclusive requests) {started : Start} {taskId : String}
    (phase : requests.phase p = .queued started)
    (moved : after.phase = Function.update requests.phase p (.published started taskId))
    (listed : after.dispatched = p :: requests.dispatched) (kept : after.row = requests.row) : Exclusive after := by
  have held : requests.Holds p := .inl (by rw [phase]; rfl)
  have none_dispatched : requests.dispatched = [] := by
    rw [List.eq_nil_iff_forall_not_mem]
    intro q member
    have unsent := exclusive.sent q member
    rw [exclusive.holder q p (.inr member) held,phase] at unsent
    cases unsent
  have other : ∀ {q}, q ≠ p → after.phase q = requests.phase q := moved_other moved
  have mine : after.phase p = .published started taskId := moved_self moved
  have fewer : ∀ q, after.Holds q → requests.Holds q := by
    intro q holds
    by_cases same : q = p
    · rw [same]
      exact held
    · rcases holds with queued | member
      · rw [other same] at queued
        exact .inl queued
      · rw [listed] at member
        exact .inr ((List.mem_cons.mp member).resolve_left same)
  have entered : ∀ {q}, (after.phase q).entering = true → (requests.phase q).entering = true := by
    intro q entering
    by_cases same : q = p
    · rw [same,mine] at entering
      cases entering
    · rwa [other same] at entering
  constructor
  · intro q r enteredQ enteredR
    exact exclusive.entering q r (entered enteredQ) (entered enteredR)
  · intro q r holdsQ holdsR
    exact exclusive.holder q r (fewer q holdsQ) (fewer r holdsR)
  · simp [listed,none_dispatched]
  · intro q member
    rw [listed,none_dispatched,List.mem_singleton] at member
    rw [member,mine]
    rfl
  · intro q holds
    rw [kept]
    exact exclusive.progress q (fewer q holds)
  · intro q
    by_cases same : q = p
    · have mineOk := exclusive.phaseOk p
      rw [phase] at mineOk
      rw [same,mine]
      exact mineOk
    · rw [other same]
      exact (exclusive.phaseOk q).fewer fewer

omit [DecidableEq π] in
/-- A save of another process, which may end the run of the request that has dispatched. -/
theorem Exclusive.other (exclusive : Exclusive requests) (row : AnalysisRow)
    (unended : (∃ q, (requests.phase q).isQueued = true) → inProgress row = true) :
    Exclusive { requests with row := row, dispatched := if inProgress row then requests.dispatched else [] } := by
  have listed : ∀ {q}, q ∈ (if inProgress row then requests.dispatched else []) →
      inProgress row = true ∧ q ∈ requests.dispatched := by
    intro q member
    split_ifs at member with progress
    · exact ⟨progress,member⟩
    · cases member
  have fewer : ∀ q, Requests.Holds { requests with
      row := row, dispatched := if inProgress row then requests.dispatched else [] } q → requests.Holds q := by
    rintro q (queued | member)
    · exact .inl queued
    · exact .inr (listed member).2
  constructor
  · exact exclusive.entering
  · intro q r holdsQ holdsR
    exact exclusive.holder q r (fewer q holdsQ) (fewer r holdsR)
  · change (if inProgress row then requests.dispatched else []).length ≤ 1
    split_ifs
    · exact exclusive.single
    · simp
  · intro q member
    exact exclusive.sent q (listed member).2
  · rintro q (queued | member)
    · exact unended ⟨q,queued⟩
    · exact (listed member).1
  · intro q
    exact (exclusive.phaseOk q).fewer fewer

end Moves

/-! ### Whole runs -/

theorem step_exclusive (ctx : π → StartContext) (method : π → StartMethod) (requests : Requests π) (step : Step π)
    (exclusive : Exclusive requests) (orderly : Orderly ctx method requests step) :
    Exclusive (requests.step ctx method step) := by
  cases step with
  | load p =>
    cases phase : requests.phase p with
    | waiting =>
      simp only [Requests.step,phase]
      refine exclusive.move rfl rfl rfl (by simp [phase,RequestPhase.sent]) (fun _ q _ => orderly q) id ?_
      rintro ⟨q,holds⟩
      have progress := exclusive.progress q (goto_fewer rfl holds)
      simpa [inProgress] using progress
    | _ => simpa [Requests.step,phase] using exclusive
  | check p =>
    cases phase : requests.phase p with
    | loaded analysis =>
      have alone : ∀ q, q ≠ p → (requests.phase q).entering = false := exclusive.alone (by rw [phase]; rfl)
      have loadedOk : PhaseOk requests (.loaded analysis) := phase ▸ exclusive.phaseOk p
      cases outcome : start (ctx p) (method p) analysis with
      | ok started =>
        simp only [Requests.step,phase,outcome]
        obtain ⟨valid,queued⟩ := start_status outcome
        refine exclusive.move rfl rfl rfl (by simp [phase,RequestPhase.sent]) (fun _ => alone) id ⟨queued,?_⟩
        intro q holds
        exact loadedOk ⟨q,goto_fewer rfl holds⟩ valid
      | error error =>
        simp only [Requests.step,phase,outcome]
        refine exclusive.move rfl rfl rfl (by simp [phase,RequestPhase.sent]) (fun _ => alone) id ?_
        exact start_refused (orderly analysis phase) outcome
    | _ => simpa [Requests.step,phase] using exclusive
  | save p =>
    cases phase : requests.phase p with
    | checked started =>
      have status : (Analysis.save started.queued).apply requests.row .status = started.queued.values .status :=
        Save.apply_writes rfl _
      simp only [Requests.step,phase]
      exact exclusive.save phase rfl rfl status
    | _ => simpa [Requests.step,phase] using exclusive
  | dispatch p taskId =>
    cases phase : requests.phase p with
    | queued started =>
      simp only [Requests.step,phase]
      exact exclusive.dispatch phase rfl rfl rfl
    | _ => simpa [Requests.step,phase] using exclusive
  | record p now =>
    cases phase : requests.phase p with
    | published started taskId =>
      have queued : started.queued.values .status ∉ inputsGenerationValidStatuses := by
        have ok := exclusive.phaseOk p
        rw [phase] at ok
        exact ok
      simp only [Requests.step,phase]
      refine exclusive.move rfl rfl rfl (fun _ => rfl) (fun entered => by cases entered) (fun _ => ?_) trivial
      have status : (recordDispatch now started taskId).apply requests.row .status = started.queued.values .status :=
        (Save.apply_writes rfl _).trans (recordDispatch_status now started taskId)
      simpa [inProgress,status] using queued
    | _ => simpa [Requests.step,phase] using exclusive
  | other save => exact exclusive.other _ orderly

/-- Along every interleaving of requests that are orderly, at most one dispatches a task
    while a run is in progress; then no other is accepted, those that have loaded the row
    are going to be refused, and all that are refused raise a `ValidationError`. -/
theorem at_most_one_dispatch (ctx : π → StartContext) (method : π → StartMethod) (row : AnalysisRow)
    (steps : List (Step π)) (orderly : Along (Requests.step ctx method) (Orderly ctx method) (Requests.begin row) steps) :
    (((Requests.begin row).run ctx method steps).dispatched.length ≤ 1 ∧
      ∀ p ∈ ((Requests.begin row).run ctx method steps).dispatched, ∀ q, q ≠ p →
        (∀ started, ((Requests.begin row).run ctx method steps).phase q ≠ .checked started ∧
          ((Requests.begin row).run ctx method steps).phase q ≠ .queued started) ∧
        ∀ analysis, ((Requests.begin row).run ctx method steps).phase q = .loaded analysis →
          ∃ error, start (ctx q) (method q) analysis = .error error) ∧
      ∀ p error, ((Requests.begin row).run ctx method steps).phase p = .refused error → error.isValidation = true := by
  have exclusive : Exclusive ((Requests.begin row).run ctx method steps) :=
    orderly.invariant (step_exclusive ctx method) (begin_exclusive row)
  generalize (Requests.begin row).run ctx method steps = final at exclusive
  refine ⟨⟨exclusive.single,fun p listed q different => ⟨fun started => ⟨?_,?_⟩,?_⟩⟩,?_⟩
  · intro checked
    have ok := exclusive.phaseOk q
    rw [checked] at ok
    exact ok.2 p (.inr listed)
  · intro queued
    exact different (exclusive.holder q p (.inl (by rw [queued]; rfl)) (.inr listed))
  · intro analysis loaded
    have ok := exclusive.phaseOk q
    rw [loaded] at ok
    cases outcome : start (ctx q) (method q) analysis with
    | ok started => exact absurd (start_status outcome).1 (ok ⟨p,.inr listed⟩)
    | error error => exact ⟨error,rfl⟩
  · intro p error refused
    have ok := exclusive.phaseOk p
    rw [refused] at ok
    exact ok

def generateMethod : StartMethod := .generateInputs none

/-- The second request comes when the first one has saved. -/
def orderlySteps : List (Step Bool) := [.load true,.check true,.save true,.load false,.check false,.dispatch true "a"]

/-- Only the first of two requests dispatches. -/
theorem one_dispatch_in_order :
    ((Requests.begin newAnalysis).run (fun _ => locationContext) (fun _ => generateMethod) orderlySteps).dispatched.length ≤
      1 := by
  refine (at_most_one_dispatch (fun _ : Bool => locationContext) (fun _ => generateMethod) newAnalysis orderlySteps
    ⟨fun _ => rfl,fun _ _ _ => rfl,trivial,?_,fun _ _ _ => rfl,trivial,trivial⟩).1.1
  intro q
  cases q <;> rfl

/-- Both requests load the row before one has saved it. -/
def overlappingSteps : List (Step Bool) :=
  [.load true,.load false,.check true,.check false,.save true,.save false,.dispatch true "a",.dispatch false "b"]

/-- Both of two overlapping requests dispatch. -/
theorem two_dispatches :
    newAnalysis .status ∈ inputsGenerationValidStatuses ∧
      ((Requests.begin newAnalysis).run (fun _ => locationContext) (fun _ => generateMethod)
        overlappingSteps).dispatched = [false,true] := by
  decide

end OasisPlatform.StartRequests
