import Mathlib.Data.List.Nodup
import Mathlib.Data.List.Pairwise

/-!
Tables as lists of rows with a key. Statements change the rows of one key; what a query
for a condition gives afterwards is `filter_edit`.
-/
namespace OasisPlatform.Tables
set_option linter.unusedSimpArgs false

variable {ρ κ α : Type}

theorem le_foldr_max {ids : List Nat} {id : Nat} (listed : id ∈ ids) : id ≤ ids.foldr max 0 := by
  induction ids with
  | nil => cases listed
  | cons first rest ih =>
    rw [List.foldr_cons]
    rcases List.mem_cons.mp listed with rfl | later
    · exact Nat.le_max_left _ _
    · exact Nat.le_trans (ih later) (Nat.le_max_right _ _)

/-- The id after the largest is not in use. -/
theorem next_fresh (ids : List Nat) : ids.foldr max 0 + 1 ∉ ids := by
  intro listed
  have within := le_foldr_max listed
  omega

variable [DecidableEq κ] (key : ρ → κ)

/-- The row with the key is changed, if there is one. -/
def edit (rows : List ρ) (k : κ) (change : ρ → ρ) : List ρ := rows.map fun row => if key row = k then change row else row

variable {key} {rows : List ρ} {k : κ} {change : ρ → ρ}

theorem mem_edit {row : ρ} (member : row ∈ edit key rows k change) :
    (row ∈ rows ∧ key row ≠ k) ∨ ∃ before ∈ rows, key before = k ∧ row = change before := by
  obtain ⟨before,listed,same⟩ := List.mem_map.mp member
  by_cases here : key before = k
  · rw [if_pos here] at same
    exact .inr ⟨before,listed,here,same.symm⟩
  · rw [if_neg here] at same
    subst same
    exact .inl ⟨listed,here⟩

/-- A field that the change keeps is kept throughout. -/
theorem map_edit (field : ρ → α) (kept : ∀ row, key row = k → field (change row) = field row) :
    (edit key rows k change).map field = rows.map field := by
  rw [edit,List.map_map]
  refine List.map_congr_left fun row _ => ?_
  show field (if key row = k then change row else row) = field row
  by_cases here : key row = k
  · rw [if_pos here,kept row here]
  · rw [if_neg here]

theorem edit_id (same : ∀ row ∈ rows, key row = k → change row = row) : edit key rows k change = rows := by
  refine (List.map_congr_left fun row member => ?_).trans (List.map_id rows)
  by_cases here : key row = k
  · rw [if_pos here]
    exact same row member here
  · rw [if_neg here]
    rfl

/-- A query that found one row finds it as it is after the change. -/
theorem filter_edit {query : ρ → Bool} {row : ρ} (distinct : (rows.map key).Nodup) (found : rows.filter query = [row])
    (here : key row = k) (kept : query (change row) = query row) :
    (edit key rows k change).filter query = [change row] := by
  subst here
  have listed : row ∈ rows.filter query := found ▸ List.mem_singleton_self row
  have member := (List.mem_filter.mp listed).1
  have same : (query ∘ fun other => if key other = key row then change other else other) = fun other =>
      if key other = key row then query (change other) else query other := by
    funext other
    show query (if key other = key row then change other else other) = _
    by_cases here : key other = key row
    · rw [if_pos here,if_pos here]
    · rw [if_neg here,if_neg here]
  have before : rows.filter (query ∘ fun other => if key other = key row then change other else other) = [row] := by
    rw [← found,same]
    refine List.filter_congr fun other among => ?_
    by_cases here : key other = key row
    · have equal : other = row := List.inj_on_of_nodup_map distinct among member here
      rw [if_pos here,equal,kept]
    · rw [if_neg here]
  rw [edit,List.filter_map,before,List.map_singleton,if_pos rfl]

/-- Where keys are different, a row that meets a condition on them is all that a query for it finds. -/
theorem filter_eq_singleton {row : ρ} (distinct : (rows.map key).Nodup) (member : row ∈ rows) :
    rows.filter (fun other => key other = key row) = [row] := by
  refine List.perm_singleton.mp ((List.perm_ext_iff_of_nodup ?_ (List.nodup_singleton row)).mpr fun other => ?_)
  · exact (List.Nodup.of_map key distinct).filter _
  · rw [List.mem_filter,List.mem_singleton,decide_eq_true_iff]
    constructor
    · rintro ⟨among,same⟩
      exact List.inj_on_of_nodup_map distinct among member same
    · rintro rfl
      exact ⟨member,rfl⟩

/-- In a column whose values are different, no two rows have the same one. -/
theorem filterMap_inj {column : ρ → Option α} (distinct : (rows.filterMap column).Nodup) {row other : ρ}
    (member : row ∈ rows) (among : other ∈ rows) {value : α} (here : column row = some value)
    (there : column other = some value) : row = other := by
  by_contra different
  have apart := List.pairwise_filterMap.mp distinct
  have symmetric : Std.Symm fun row other => ∀ value, column row = some value → ∀ also, column other = some also →
      value ≠ also := ⟨fun _ _ apart also there value here => (apart value here also there).symm⟩
  exact apart.forall member among different value here value there rfl

end OasisPlatform.Tables
