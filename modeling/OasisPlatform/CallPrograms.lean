import Mathlib.Data.List.Basic

/-!
Programs of calls that may raise. A program performs calls one after another and ends with
a value, with an exception of its own, or with a `try` whose body is a sequence of calls.
When a single call raises, what matters is where it stands: outside the `try` the exception
is the result (`exec_outside`), inside it the handler's value is (`exec_guarded`), and
elsewhere nothing changes (`exec_unreached`).
-/
namespace OasisPlatform.CallPrograms
set_option linter.unusedSimpArgs false

/-- Calls `ω` that raise exceptions `ε`, and values `α`. -/
inductive Program (ω ε α : Type) where
  | ret (value : α)
  | raise (error : ε)
  | call (c : ω) (next : Program ω ε α)
  /-- `try: body; return value; except Exception as e: handler(e); return handled(e);
      finally: cleanup` -/
  | attempt (body : List ω) (value : α) (handler : ε → List ω) (handled : ε → α) (cleanup : List ω)

variable {ω ε α : Type}

namespace Program

def calls (cs : List ω) (next : Program ω ε α) : Program ω ε α := cs.foldr call next

/-- The result, where `fails` says which calls raise. -/
def exec (fails : ω → Option ε) : Program ω ε α → Except ε α
  | ret value => .ok value
  | raise error => .error error
  | call c next =>
    match fails c with
    | some error => .error error
    | none => exec fails next
  | attempt body value handler handled cleanup =>
    let result : Except ε α :=
      match body.findSome? fails with
      | none => .ok value
      | some error =>
        match (handler error).findSome? fails with
        | none => .ok (handled error)
        | some raised => .error raised
    match cleanup.findSome? fails with
    | some raised => .error raised
    | none => result

/-- The calls before a `try` and after it. -/
def outside : Program ω ε α → List ω
  | ret _ => []
  | raise _ => []
  | call c next => c :: next.outside
  | attempt _ _ _ _ cleanup => cleanup

/-- The calls in the body of a `try`. -/
def guarded : Program ω ε α → List ω
  | ret _ => []
  | raise _ => []
  | call _ next => next.guarded
  | attempt body _ _ _ _ => body

/-- The value of the handler, if there is one. -/
def handledValue (error : ε) : Program ω ε α → Option α
  | ret _ => none
  | raise _ => none
  | call _ next => next.handledValue error
  | attempt _ _ _ handled _ => some (handled error)

/-- What the handler calls. -/
def handlerCalls (error : ε) : Program ω ε α → List ω
  | ret _ => []
  | raise _ => []
  | call _ next => next.handlerCalls error
  | attempt _ _ handler _ _ => handler error

@[simp] theorem outside_calls (cs : List ω) (next : Program ω ε α) : (calls cs next).outside = cs ++ next.outside := by
  induction cs with
  | nil => rfl
  | cons c rest ih => exact congrArg (c :: ·) ih

@[simp] theorem guarded_calls (cs : List ω) (next : Program ω ε α) : (calls cs next).guarded = next.guarded := by
  induction cs with
  | nil => rfl
  | cons c rest ih => exact ih

@[simp] theorem handledValue_calls (error : ε) (cs : List ω) (next : Program ω ε α) :
    (calls cs next).handledValue error = next.handledValue error := by
  induction cs with
  | nil => rfl
  | cons c rest ih => exact ih

@[simp] theorem handlerCalls_calls (error : ε) (cs : List ω) (next : Program ω ε α) :
    (calls cs next).handlerCalls error = next.handlerCalls error := by
  induction cs with
  | nil => rfl
  | cons c rest ih => exact ih

theorem calls_append (first last : List ω) (next : Program ω ε α) :
    calls (first ++ last) next = calls first (calls last next) := List.foldr_append

variable [DecidableEq ω]

def only (c : ω) (error : ε) : ω → Option ε := fun d => if d = c then some error else none

/-- No call raises. -/
def noFault : ω → Option ε := fun _ => none

theorem findSome_only {c : ω} {error : ε} {cs : List ω} :
    cs.findSome? (only c error) = if c ∈ cs then some error else none := by
  induction cs with
  | nil => rfl
  | cons d rest ih =>
    by_cases same : d = c
    · simp [only,same]
    · simp [only,same,Ne.symm same,ih]

theorem findSome_only_mem {c : ω} {cs : List ω} (member : c ∈ cs) (error : ε) :
    cs.findSome? (only c error) = some error := by
  rw [findSome_only,if_pos member]

theorem findSome_only_absent {c : ω} {cs : List ω} (absent : c ∉ cs) (error : ε) :
    cs.findSome? (only c error) = none := by
  rw [findSome_only,if_neg absent]

omit [DecidableEq ω] in
@[simp] theorem findSome_noFault (cs : List ω) : cs.findSome? (noFault : ω → Option ε) = none := by
  induction cs with
  | nil => rfl
  | cons d rest ih => exact ih

omit [DecidableEq ω] in
@[simp] theorem exec_calls_noFault (cs : List ω) (next : Program ω ε α) :
    exec noFault (calls cs next) = exec noFault next := by
  induction cs with
  | nil => rfl
  | cons c rest ih => exact ih

/-- A call outside the `try` raises to the caller. -/
theorem exec_outside {c : ω} {program : Program ω ε α} (member : c ∈ program.outside) (error : ε) :
    program.exec (only c error) = .error error := by
  induction program with
  | ret value => cases member
  | raise raised => cases member
  | call d next ih =>
    by_cases same : d = c
    · simp [exec,only,same]
    · have later := ih ((List.mem_cons.mp member).resolve_left (Ne.symm same))
      simpa [exec,only,same] using later
  | attempt body value handler handled cleanup =>
    have raised : cleanup.findSome? (only c error) = some error := findSome_only_mem member error
    simp [exec,raised]

/-- A call in the body of the `try` leaves the result to the handler. -/
theorem exec_guarded {c : ω} {error : ε} {program : Program ω ε α} (member : c ∈ program.guarded)
    (clear : c ∉ program.outside) (apart : c ∉ program.handlerCalls error) :
    ∃ value, program.handledValue error = some value ∧ program.exec (only c error) = .ok value := by
  induction program with
  | ret value => cases member
  | raise raised => cases member
  | call d next ih =>
    rw [outside,List.mem_cons,not_or] at clear
    obtain ⟨value,handled,executed⟩ := ih member clear.2 apart
    exact ⟨value,handled,by simpa [exec,only,Ne.symm clear.1] using executed⟩
  | attempt body value handler handled cleanup =>
    have raised : body.findSome? (only c error) = some error := findSome_only_mem member error
    have calm : cleanup.findSome? (only c error) = none := findSome_only_absent clear error
    have quiet : (handler error).findSome? (only c error) = none := findSome_only_absent apart error
    exact ⟨handled error,rfl,by simp [exec,raised,calm,quiet]⟩

/-- A call that the program does not come to changes nothing. -/
theorem exec_unreached {c : ω} {error : ε} {program : Program ω ε α} (clear : c ∉ program.outside)
    (unguarded : c ∉ program.guarded) : program.exec (only c error) = program.exec noFault := by
  induction program with
  | ret value => rfl
  | raise raised => rfl
  | call d next ih =>
    rw [outside,List.mem_cons,not_or] at clear
    simpa [exec,only,noFault,Ne.symm clear.1] using ih clear.2 unguarded
  | attempt body value handler handled cleanup =>
    have calm : cleanup.findSome? (only c error) = none := findSome_only_absent clear error
    have quiet : body.findSome? (only c error) = none := findSome_only_absent unguarded error
    simp [exec,calm,quiet]

/-- The program returns a value that is good. -/
def Returns (good : α → Prop) (fails : ω → Option ε) (program : Program ω ε α) : Prop :=
  ∃ value, program.exec fails = .ok value ∧ good value

/-- With one call that raises, a program returns a good value exactly when it does without,
    unless the call is outside the `try`, or it is inside and the handler's value is not
    good. -/
theorem returns_only_iff {good : α → Prop} {c : ω} {error : ε} {program : Program ω ε α}
    (apart : c ∈ program.guarded → c ∉ program.handlerCalls error) :
    Returns good (only c error) program ↔ c ∉ program.outside ∧
      (c ∈ program.guarded → ∀ value ∈ program.handledValue error, good value) ∧
        (c ∉ program.guarded → Returns good noFault program) := by
  by_cases out : c ∈ program.outside
  · simp [Returns,exec_outside out,out]
  · by_cases inside : c ∈ program.guarded
    · obtain ⟨value,handled,executed⟩ := exec_guarded inside out (apart inside)
      simp [Returns,executed,handled,out,inside]
    · simp [Returns,exec_unreached out inside,out,inside]

end Program

end OasisPlatform.CallPrograms
