import Mathlib.Data.List.Dedup
import Mathlib.Data.List.Sort
import Mathlib.Order.Lattice

/-!
Two selections from a list. The largest values are those that few distinct values exceed
(`mem_largest_iff`). A collection that takes each item, unless the item or its stem is there,
takes all the items that are free at first exactly when no item comes before an item it is
the stem of (`collects_iff`).
-/
namespace OasisPlatform.ListSelections
set_option linter.unusedSimpArgs false

section Largest
variable {α : Type} [LinearOrder α]

/-- The `count` largest distinct values, the largest first. -/
def largest (count : Nat) (values : List α) : List α := (values.dedup.mergeSort fun a b => b ≤ a).take count

/-- The number of distinct values that exceed this one. -/
def larger (values : List α) (value : α) : Nat := (values.dedup.filter fun other => value < other).length

theorem sorted_dedup (values : List α) : (values.dedup.mergeSort fun a b => b ≤ a).Pairwise fun a b => b < a := by
  have sorted : (values.dedup.mergeSort fun a b => b ≤ a).Pairwise fun a b => decide (b ≤ a) = true := by
    apply List.pairwise_mergeSort
    · intro a b c below above
      simp only [decide_eq_true_eq] at below above ⊢
      exact above.trans below
    · intro a b
      simpa using le_total b a
  have distinct : (values.dedup.mergeSort fun a b => b ≤ a).Nodup :=
    (List.mergeSort_perm _ _).nodup_iff.mpr (List.nodup_dedup values)
  refine List.Pairwise.imp₂ ?_ sorted distinct
  intro a b ordered other
  exact lt_of_le_of_ne (of_decide_eq_true ordered) (Ne.symm other)

/-- In a decreasing list, the first values are those that few others exceed. -/
theorem mem_take_iff {values : List α} (decreasing : values.Pairwise fun a b => b < a) (count : Nat) (value : α) :
    value ∈ values.take count ↔ value ∈ values ∧ (values.filter fun other => value < other).length < count := by
  induction values generalizing count with
  | nil => simp
  | cons first rest ih =>
    obtain ⟨above,decreasing⟩ := List.pairwise_cons.mp decreasing
    cases count with
    | zero => simp
    | succ count =>
      rw [List.take_succ_cons,List.mem_cons,List.mem_cons,ih decreasing]
      by_cases same : value = first
      · subst same
        have none : rest.filter (fun other => value < other) = [] := by
          rw [List.filter_eq_nil_iff]
          intro other listed
          simpa using (above other listed).le
        simp [none]
      · by_cases listed : value ∈ rest
        · have below := above value listed
          simp [same,listed,below]
        · simp [same,listed]

theorem mem_largest_iff (count : Nat) (values : List α) (value : α) :
    value ∈ largest count values ↔ value ∈ values ∧ larger values value < count := by
  have permuted := List.mergeSort_perm values.dedup fun a b => b ≤ a
  rw [largest,mem_take_iff (sorted_dedup values),permuted.mem_iff,List.mem_dedup,larger,
    (permuted.filter _).length_eq]

/-- Values exceed another no more often, when those that exceed it are among the others. -/
theorem larger_le {values others : List α} {value other : α}
    (among : ∀ x ∈ values, value < x → x ∈ others ∧ other < x) : larger values value ≤ larger others other := by
  refine (List.subperm_of_subset ((List.nodup_dedup values).filter _) ?_).length_le
  intro x listed
  simp only [List.mem_filter,List.mem_dedup,decide_eq_true_eq] at listed ⊢
  exact among x listed.1 listed.2

theorem larger_lt_length {values : List α} {value : α} (listed : value ∈ values) :
    larger values value < values.dedup.length :=
  List.length_filter_lt_length_iff_exists.mpr ⟨value,List.mem_dedup.mpr listed,by simp⟩

end Largest

section Stems
variable {α : Type} [BEq α] [LawfulBEq α]

/-- Takes an item, unless it or its stem is there. -/
def take (stem : α → α) (held : List α) (item : α) : List α :=
  if item ∈ held ∨ stem item ∈ held then held else held ++ [item]

def collect (stem : α → α) (held items : List α) : List α := items.foldl (take stem) held

/-- Neither the item nor its stem is there. -/
def Free (stem : α → α) (held : List α) (item : α) : Prop := item ∉ held ∧ stem item ∉ held

@[simp] theorem collect_nil (stem : α → α) (held : List α) : collect stem held [] = held := rfl

@[simp] theorem collect_cons (stem : α → α) (held : List α) (item : α) (rest : List α) :
    collect stem held (item :: rest) = collect stem (take stem held item) rest := rfl

theorem collect_append (stem : α → α) (held before after : List α) :
    collect stem held (before ++ after) = collect stem (collect stem held before) after := List.foldl_append ..

theorem take_held (stem : α → α) {held : List α} (item : α) {x : α} (member : x ∈ held) : x ∈ take stem held item := by
  unfold take
  split
  · exact member
  · exact List.mem_append_left _ member

theorem collect_held (stem : α → α) {held : List α} (items : List α) {x : α} (member : x ∈ held) :
    x ∈ collect stem held items := by
  induction items generalizing held with
  | nil => exact member
  | cons item rest ih => exact ih (take_held stem item member)

theorem mem_take {stem : α → α} {held : List α} {item x : α} (member : x ∈ take stem held item) :
    x ∈ held ∨ (x = item ∧ Free stem held x) := by
  unfold take at member
  split at member
  · exact .inl member
  · rename_i free
    rw [not_or] at free
    rcases List.mem_append.mp member with before | new
    · exact .inl before
    · obtain rfl := List.mem_singleton.mp new
      exact .inr ⟨rfl,free⟩

/-- What is collected was there, or is one of the items and was free. -/
theorem mem_collect {stem : α → α} {held items : List α} {x : α} (member : x ∈ collect stem held items) :
    x ∈ held ∨ (x ∈ items ∧ Free stem held x) := by
  induction items generalizing held with
  | nil => exact .inl member
  | cons item rest ih =>
    rcases ih member with taken | ⟨listed,free⟩
    · rcases mem_take taken with before | ⟨rfl,free⟩
      · exact .inl before
      · exact .inr ⟨List.mem_cons_self,free⟩
    · exact .inr ⟨List.mem_cons_of_mem _ listed,fun before => free.1 (take_held stem item before),
        fun before => free.2 (take_held stem item before)⟩

theorem collect_nodup (stem : α → α) {held : List α} (distinct : held.Nodup) (items : List α) :
    (collect stem held items).Nodup := by
  induction items generalizing held with
  | nil => exact distinct
  | cons item rest ih =>
    refine ih ?_
    unfold take
    split
    · exact distinct
    · rename_i free
      rw [not_or] at free
      exact List.nodup_append.mpr ⟨distinct,List.nodup_singleton _,by
        rintro x listed y new rfl
        exact free.1 (List.mem_singleton.mp new ▸ listed)⟩

/-- What is collected depends on the members that were there only. -/
theorem collect_congr (stem : α → α) {held others : List α} (same : ∀ x, x ∈ held ↔ x ∈ others) (items : List α)
    (x : α) : x ∈ collect stem held items ↔ x ∈ collect stem others items := by
  induction items generalizing held others with
  | nil => exact same x
  | cons item rest ih =>
    refine ih fun y => ?_
    unfold take
    simp only [same]
    split
    · exact same y
    · rw [List.mem_append,List.mem_append,same]

/-- After an item was offered, it or its stem is there. -/
theorem collect_settled (stem : α → α) {held items : List α} {x : α} (listed : x ∈ items) :
    x ∈ collect stem held items ∨ stem x ∈ collect stem held items := by
  obtain ⟨front,back,rfl⟩ := List.append_of_mem listed
  rw [collect_append,collect_cons]
  unfold take
  split
  · rename_i there
    exact there.imp (collect_held stem back) (collect_held stem back)
  · exact .inl (collect_held stem back (List.mem_append_right _ (List.mem_singleton_self x)))

theorem idxOf_front {front back : List α} {x : α} (first : x ∉ front) :
    (front ++ x :: back).idxOf x = front.length := by
  simp [List.idxOf_append,first]

/-- What is collected in the end and was listed early was collected early. -/
theorem collected_early {stem : α → α} {held front rest : List α} {y : α} (listed : y ∈ front)
    (collected : y ∈ collect stem held (front ++ rest)) : y ∈ collect stem held front := by
  rw [collect_append] at collected
  rcases mem_collect collected with taken | ⟨-,free⟩
  · exact taken
  · rcases collect_settled stem listed with taken | blocked
    · exact taken
    · exact absurd blocked free.2

/-- An item is not collected after its stem. -/
theorem stem_uncollected {stem : α → α} {held front back : List α} {x : α} (first : x ∉ front) (free : Free stem held x)
    (taken : stem x ∈ collect stem held front) : x ∉ collect stem held (front ++ x :: back) := by
  intro kept
  rw [collect_append] at kept
  rcases mem_collect kept with early | ⟨-,unblocked⟩
  · rcases mem_collect early with before | ⟨again,-⟩
    · exact free.1 before
    · exact first again
  · exact unblocked.2 taken

theorem collects_iff (stem : α → α) (held items : List α) :
    (∀ x ∈ items, Free stem held x → x ∈ collect stem held items) ↔
      ∀ x ∈ items, ∀ y ∈ items, Free stem held x → Free stem held y → y = stem x → items.idxOf x ≤ items.idxOf y := by
  constructor
  · rintro all x listed y early free stem_free rfl
    by_contra before
    have kept := all x listed free
    have stem_kept := all (stem x) early stem_free
    obtain ⟨front,back,rfl,first⟩ := List.eq_append_cons_of_mem listed
    have in_front : stem x ∈ front := by
      by_contra outside
      rw [idxOf_front first,List.idxOf_append_of_notMem outside] at before
      omega
    exact stem_uncollected first free (collected_early in_front stem_kept) kept
  · intro ordered x listed free
    obtain ⟨front,back,rfl,first⟩ := List.eq_append_cons_of_mem listed
    rw [collect_append,collect_cons]
    refine collect_held stem back ?_
    unfold take
    split
    · rename_i taken
      rcases taken with member | blocked
      · exact member
      · exfalso
        rcases mem_collect blocked with before | ⟨early,stem_free⟩
        · exact free.2 before
        · have order := ordered x listed (stem x) (List.mem_append_left _ early) free stem_free rfl
          rw [idxOf_front first,List.idxOf_append_of_mem early] at order
          have bound := List.idxOf_lt_length_iff.mpr early
          omega
    · exact List.mem_append_right _ (List.mem_singleton_self x)

end Stems

end OasisPlatform.ListSelections
