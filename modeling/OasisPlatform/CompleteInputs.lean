import OasisPlatform.RunPaths

/-!
What the attempts of the tasks of a run find at their paths. A fetch that is broken off
leaves a path that the next attempt takes for complete (`partial_found`); where no fetch is,
each attempt that gets past the preparation of its directories finds all objects complete
(`inputs_complete`).
-/
namespace OasisPlatform.CompleteInputs
open OasisPlatform.JsonValues OasisPlatform.GuardedFetch OasisPlatform.PrepareDirectories OasisPlatform.RunPaths
open OasisPlatform.SharedRow (Along)
set_option linter.unusedSimpArgs false

variable {ι : Type} [DecidableEq ι]

/-- The tasks of a run that disturb no fetch, and agree on the objects at their paths, each
    find all of their objects complete. -/
theorem inputs_complete (run : Run) (filestore : Filestore) (objectAt : String → Object)
    (history : List (Action ι String Task))
    (along : Along (Node.step run.plan filestore.pieces)
      (fun node action => Undisturbed node action ∧ Agrees run.plan objectAt action) Node.fresh history)
    (attempt : ι) (task : Task) (found : String → Option (List Piece))
    (past : (Node.fresh.run run.plan filestore.pieces history).phase attempt = .past task found) :
    ∀ fetch ∈ (run.plan task).fetches, found fetch.path = some (filestore.pieces fetch.object) :=
  found_complete along past

/-- The tasks that are started are those of one run. -/
def StartsOf (run : Run) (inputs : RunInputs) : Action ι String Task → Prop
  | .start _ task => OfRun run inputs task
  | _ => True

omit [DecidableEq ι] in
theorem startsOf_agrees {run : Run} {inputs : RunInputs} {action : Action ι String Task}
    (starts : StartsOf run inputs action) : Agrees run.plan (objectAt run inputs) action := by
  cases action with
  | start attempt task => exact run_agrees starts
  | _ => trivial

/-- With the files of one run and the default directories, the tasks agree. -/
theorem run_inputs_complete (run : Run) (inputs : RunInputs) (filestore : Filestore) (history : List (Action ι String Task))
    (along : Along (Node.step run.plan filestore.pieces)
      (fun node action => Undisturbed node action ∧ StartsOf run inputs action) Node.fresh history)
    (attempt : ι) (task : Task) (found : String → Option (List Piece))
    (past : (Node.fresh.run run.plan filestore.pieces history).phase attempt = .past task found) :
    ∀ fetch ∈ (run.plan task).fetches, found fetch.path = some (filestore.pieces fetch.object) :=
  found_complete (along.imp fun _ _ condition => ⟨condition.1,startsOf_agrees condition.2⟩) past

def smallRun : Run := ⟨"/tmp/run",1,"f","l",false⟩

/-- An archive of two members. -/
def smallStore : Filestore := ⟨fun _ _ => ["block"],fun _ _ => ["events.bin","items.bin"]⟩

/-- The first task of a loss generation. -/
def smallTask : Task := .losses { inputLocation := .string "inputs.tar.gz" } [fun _ => none]

def smallFetch : Fetch String Object :=
  ⟨"/tmp/run/analysis-1_losses-l/input-data",.archive (.string "inputs.tar.gz") "",false⟩

theorem smallTask_plan : smallRun.plan smallTask = ⟨[smallFetch],false⟩ := by
  rfl

/-- The first attempt ends after one member, and the second gets past. -/
def brokenOff : List (Action Nat String Task) :=
  [.start 1 smallTask,.lock 1,.look 1,.place 1,.fail 1,.start 2 smallTask,.lock 2,.look 2,.unlock 2,.pass 2]

theorem partial_found :
    ¬ ∀ (history : List (Action Nat String Task)) (attempt : Nat) (task : Task) (found : String → Option (List Piece)),
      (Node.fresh.run smallRun.plan smallStore.pieces history).phase attempt = .past task found →
        ∀ fetch ∈ (smallRun.plan task).fetches, found fetch.path = some (smallStore.pieces fetch.object) := by
  intro complete
  have found := complete brokenOff 2 smallTask _ rfl smallFetch (by simp [smallTask_plan])
  revert found
  decide

/-- An attempt that fails before it creates the path, and its retry. -/
def retried : List (Action Nat String Task) :=
  [.start 1 smallTask,.lock 1,.fail 1,.start 2 smallTask,.lock 2,.look 2,.place 2,.place 2,.place 2,.unlock 2,.pass 2]

theorem retried_along :
    Along (Node.step smallRun.plan smallStore.pieces)
      (fun node action => Undisturbed node action ∧ Agrees smallRun.plan (fun _ => smallFetch.object) action)
      Node.fresh retried := by
  have agrees : ∀ fetch ∈ (smallRun.plan smallTask).fetches, fetch.object = smallFetch.object := by
    simp [smallTask_plan]
  have phase : (Node.fresh.run smallRun.plan smallStore.pieces [.start 1 smallTask,.lock 1]).phase 1 =
      .fetching smallTask .locked [smallFetch] := rfl
  have locked : ∀ task piece left todo,
      (Node.fresh.run smallRun.plan smallStore.pieces [.start 1 smallTask,.lock 1]).phase 1 ≠
        .fetching task (.filling (piece :: left)) todo := by
    rw [phase]
    exact fun _ _ _ _ => nofun
  exact ⟨⟨trivial,agrees⟩,⟨trivial,trivial⟩,⟨locked,trivial⟩,⟨trivial,agrees⟩,⟨trivial,trivial⟩,⟨trivial,trivial⟩,
    ⟨trivial,trivial⟩,⟨trivial,trivial⟩,⟨trivial,trivial⟩,⟨trivial,trivial⟩,⟨trivial,trivial⟩,trivial⟩

theorem inputs_complete_retried :
    ∃ found, (Node.fresh.run smallRun.plan smallStore.pieces retried).phase 2 = .past smallTask found ∧
      ∀ fetch ∈ (smallRun.plan smallTask).fetches, found fetch.path = some (smallStore.pieces fetch.object) :=
  ⟨_,rfl,inputs_complete smallRun smallStore _ retried retried_along 2 smallTask _ rfl⟩

end OasisPlatform.CompleteInputs
