import Mathlib.Algebra.BigOperators.Group.List.Basic
import Mathlib.Algebra.Order.Ring.Int
import Mathlib.Data.List.Perm.Basic

/-!
A queue of work. The first item is taken, what it yields is collected, and its parts join
the end of the queue. The loop ends when the parts of an item together weigh less than it.
When each item yields its own outputs and its parts the others, the loop collects the
outputs of all items, each as often as it occurs (`drain_collects`).
-/
namespace OasisPlatform.Worklist
open scoped List
set_option linter.unusedSimpArgs false

variable {α β γ ε : Type}

/-- An item weighs more than its parts together. -/
def Shrinks (visit : α → Except ε (List β × List α)) (weight : α → Nat) : Prop :=
  ∀ item yielded parts, visit item = .ok (yielded,parts) → (parts.map weight).sum < weight item

def drain (visit : α → Except ε (List β × List α)) (weight : α → Nat) (shrinks : Shrinks visit weight)
    (queue : List α) (collected : List β) : Except ε (List β) :=
  match queue with
  | [] => .ok collected
  | item :: rest =>
    match _visited : visit item with
    | .error error => .error error
    | .ok (yielded,parts) => drain visit weight shrinks (rest ++ parts) (collected ++ yielded)
termination_by (queue.map weight).sum
decreasing_by
  have lighter := shrinks item yielded parts _visited
  simp only [List.map_append,List.sum_append,List.map_cons,List.sum_cons]
  omega

variable {visit : α → Except ε (List β × List α)} {weight : α → Nat}

theorem drain_nil (shrinks : Shrinks visit weight) (collected : List β) :
    drain visit weight shrinks [] collected = .ok collected := by
  rw [drain]

theorem drain_cons (shrinks : Shrinks visit weight) {item : α} {yielded : List β} {parts : List α}
    (visited : visit item = .ok (yielded,parts)) (rest : List α) (collected : List β) :
    drain visit weight shrinks (item :: rest) collected =
      drain visit weight shrinks (rest ++ parts) (collected ++ yielded) := by
  rw [drain]
  split
  · rename_i error failed
    simp [visited] at failed
  · rename_i yielded' parts' visited'
    rw [visited] at visited'
    obtain ⟨rfl,rfl⟩ := Prod.mk.inj (Except.ok.inj visited')
    rfl

/-- What an item of the queue stands for has outputs: those that it yields, and those of
    its parts. -/
def Yields (visit : α → Except ε (List β × List α)) (item : γ → α) (outputs : γ → List β) : Prop :=
  ∀ thing, ∃ yielded, ∃ parts : List γ, visit (item thing) = .ok (yielded,parts.map item) ∧
    (outputs thing).Perm (yielded ++ parts.flatMap outputs)

theorem drain_collects (shrinks : Shrinks visit weight) {item : γ → α} {outputs : γ → List β}
    (yields : Yields visit item outputs) (queue : List γ) (collected : List β) :
    ∃ result, drain visit weight shrinks (queue.map item) collected = .ok result ∧
      result.Perm (collected ++ queue.flatMap outputs) := by
  induction size : ((queue.map item).map weight).sum using Nat.strongRecOn generalizing queue collected with
  | ind total ih =>
    cases queue with
    | nil => exact ⟨collected,drain_nil shrinks collected,by simp⟩
    | cons thing rest =>
      obtain ⟨yielded,parts,visited,outputs_perm⟩ := yields thing
      have lighter := shrinks _ _ _ visited
      have less : (((rest ++ parts).map item).map weight).sum < total := by
        rw [← size]
        simp only [List.map_append,List.sum_append,List.map_cons,List.sum_cons]
        omega
      obtain ⟨result,drained,perm⟩ := ih _ less (rest ++ parts) (collected ++ yielded) rfl
      refine ⟨result,?_,perm.trans ?_⟩
      · rw [List.map_cons,drain_cons shrinks visited,← List.map_append]
        exact drained
      · rw [List.flatMap_append,List.flatMap_cons,List.append_assoc]
        have swapped : (rest.flatMap outputs ++ parts.flatMap outputs).Perm
            (parts.flatMap outputs ++ rest.flatMap outputs) := List.perm_append_comm
        calc collected ++ (yielded ++ (rest.flatMap outputs ++ parts.flatMap outputs))
          _ ~ collected ++ (yielded ++ (parts.flatMap outputs ++ rest.flatMap outputs)) :=
              (swapped.append_left yielded).append_left collected
          _ = collected ++ (yielded ++ parts.flatMap outputs ++ rest.flatMap outputs) := by rw [List.append_assoc]
          _ ~ collected ++ (outputs thing ++ rest.flatMap outputs) :=
              (outputs_perm.symm.append_right _).append_left collected

end OasisPlatform.Worklist
