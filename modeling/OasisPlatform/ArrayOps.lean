import Mathlib.Data.List.Sort
import Mathlib.Data.List.Nodup
import Mathlib.Data.List.TakeWhile
import Mathlib.Data.Finset.Card
import Mathlib.Algebra.BigOperators.Group.List.Basic
import Mathlib.Tactic.Ring

/-!
The array primitives that a split of rows by key is composed of, over lists:
codes in order of first appearance (`factorize`), even blocks (`arraySplit`),
repetition, indexing by an array of positions, stable `argsort`, left
`searchsorted` and cutting at positions (`split`). Sorting the positions by key
and cutting where the keys change collects, for each key, its positions in order
(`split_argsort`).
-/
namespace OasisPlatform.ArrayOps
set_option linter.unusedSimpArgs false

section Factorize
variable {α : Type*} [DecidableEq α]

/-- The values already `seen`, then the new ones of a list in order of first
    appearance. -/
def uniquesFrom (seen : List α) : List α → List α
  | [] => seen
  | x :: rest => uniquesFrom (if x ∈ seen then seen else seen ++ [x]) rest

/-- The place where a value first appears. -/
def firstIndex (xs : List α) (x : α) : Nat := xs.idxOf x

/-- `pandas.factorize`: the code of each value and the distinct values, coded by
    their order of first appearance. -/
def factorize (xs : List α) : List Nat × List α :=
  (xs.map (firstIndex (uniquesFrom [] xs)),uniquesFrom [] xs)

theorem mem_uniquesFrom (seen xs : List α) (x : α) : x ∈ uniquesFrom seen xs ↔ x ∈ seen ∨ x ∈ xs := by
  induction xs generalizing seen with
  | nil => simp [uniquesFrom]
  | cons y rest ih =>
    rw [uniquesFrom,ih]
    by_cases known : y ∈ seen
    · simp only [known,↓reduceIte,List.mem_cons]
      constructor
      · rintro (old | new)
        · exact .inl old
        · exact .inr (.inr new)
      · rintro (old | rfl | new)
        · exact .inl old
        · exact .inl known
        · exact .inr new
    · simp [known,or_assoc]

theorem uniquesFrom_nodup (seen xs : List α) (distinct : seen.Nodup) : (uniquesFrom seen xs).Nodup := by
  induction xs generalizing seen with
  | nil => exact distinct
  | cons y rest ih =>
    rw [uniquesFrom]
    by_cases known : y ∈ seen
    · simpa only [known,↓reduceIte] using ih seen distinct
    · simp only [known,↓reduceIte]
      apply ih
      rw [List.nodup_append]
      refine ⟨distinct,List.nodup_singleton y,?_⟩
      intro a old b new same
      rw [List.mem_singleton] at new
      exact known (new ▸ same ▸ old)

theorem seen_prefix (seen xs : List α) : seen <+: uniquesFrom seen xs := by
  induction xs generalizing seen with
  | nil => exact List.prefix_refl seen
  | cons y rest ih =>
    rw [uniquesFrom]
    by_cases known : y ∈ seen
    · simpa only [known,↓reduceIte] using ih seen
    · simp only [known,↓reduceIte]
      exact (List.prefix_append seen [y]).trans (ih _)

/-- A value that is not seen yet has a code after those seen. -/
theorem length_le_firstIndex {seen xs : List α} {x : α} (new : x ∉ seen) :
    seen.length ≤ firstIndex (uniquesFrom seen xs) x := by
  obtain ⟨rest,same⟩ := seen_prefix seen xs
  rw [firstIndex,← same,List.idxOf_append_of_notMem new]
  omega

/-- Codes follow the order of first appearance. -/
theorem firstIndex_uniquesFrom_lt {seen xs : List α} {a b : α} (newA : a ∉ seen) (newB : b ∉ seen)
    (first : firstIndex xs a < firstIndex xs b) :
    firstIndex (uniquesFrom seen xs) a < firstIndex (uniquesFrom seen xs) b := by
  induction xs generalizing seen with
  | nil => simp [firstIndex] at first
  | cons y rest ih =>
    rw [uniquesFrom]
    have otherB : y ≠ b := by
      rintro rfl
      simp [firstIndex] at first
    by_cases same : y = a
    · subst same
      simp only [newA,↓reduceIte]
      have newB' : b ∉ seen ++ [y] := by simp [newB,Ne.symm otherB]
      have later : (seen ++ [y]).length ≤ firstIndex (uniquesFrom (seen ++ [y]) rest) b := length_le_firstIndex newB'
      have here : firstIndex (uniquesFrom (seen ++ [y]) rest) y = seen.length := by
        obtain ⟨more,whole⟩ := seen_prefix (seen ++ [y]) rest
        rw [firstIndex,← whole,List.append_assoc,List.idxOf_append_of_notMem newA]
        simp
      rw [here]
      simp only [List.length_append,List.length_singleton] at later
      omega
    · rw [firstIndex,firstIndex,List.idxOf_cons_ne _ same,List.idxOf_cons_ne _ otherB] at first
      by_cases known : y ∈ seen
      · simpa only [known,↓reduceIte] using ih newA newB (Nat.lt_of_succ_lt_succ first)
      · simp only [known,↓reduceIte]
        apply ih
        · simp [newA,Ne.symm same]
        · simp [newB,Ne.symm otherB]
        · exact Nat.lt_of_succ_lt_succ first

theorem factorize_length (xs : List α) : (factorize xs).1.length = xs.length := by
  simp [factorize]

theorem mem_factorize (xs : List α) (x : α) : x ∈ (factorize xs).2 ↔ x ∈ xs := by
  simp [factorize,mem_uniquesFrom]

theorem factorize_nodup (xs : List α) : (factorize xs).2.Nodup := uniquesFrom_nodup [] xs List.nodup_nil

/-- The code of a position is the place of its value among the distinct values. -/
theorem factorize_getElem? (xs : List α) (i : Nat) :
    (factorize xs).1[i]? = xs[i]?.map (firstIndex (factorize xs).2) := by
  simp [factorize]

theorem firstIndex_lt {xs : List α} {x : α} (member : x ∈ xs) : firstIndex xs x < xs.length :=
  List.idxOf_lt_length_of_mem member

/-- Distinct values are numbered by their places. -/
theorem map_firstIndex {xs : List α} (distinct : xs.Nodup) : xs.map (firstIndex xs) = List.range xs.length := by
  apply List.ext_getElem
  · simp
  · intro i left right
    simp [firstIndex,distinct.idxOf_getElem]

theorem factorize_lt (xs : List α) {c : Nat} (member : c ∈ (factorize xs).1) : c < (factorize xs).2.length := by
  simp only [factorize,List.mem_map] at member
  obtain ⟨x,listed,rfl⟩ := member
  exact firstIndex_lt ((mem_factorize xs x).mpr listed)

end Factorize

/-! ### Even blocks -/

section Blocks
variable {α : Type*}

/-- The sizes of `k` sections of `n` elements: the first `n % k` have one more. -/
def sectionSizes (n k : Nat) : List Nat :=
  List.replicate (n % k) (n / k + 1) ++ List.replicate (k - n % k) (n / k)

/-- Consecutive sections of given sizes. -/
def sections : List α → List Nat → List (List α)
  | _, [] => []
  | xs, size :: sizes => xs.take size :: sections (xs.drop size) sizes

/-- `numpy.array_split(xs, k)`, a `ValueError` for no sections. -/
def arraySplit (xs : List α) (k : Nat) : Option (List (List α)) :=
  if k = 0 then none else some (sections xs (sectionSizes xs.length k))

theorem sectionSizes_length {n k : Nat} (some_k : 0 < k) : (sectionSizes n k).length = k := by
  have := Nat.mod_lt n some_k
  simp [sectionSizes]
  omega

theorem sectionSizes_sum {n k : Nat} (some_k : 0 < k) : (sectionSizes n k).sum = n := by
  have small := Nat.mod_lt n some_k
  have whole := Nat.div_add_mod n k
  have split : (n % k) * (n / k + 1) + (k - n % k) * (n / k) = k * (n / k) + n % k := by
    have parts : n % k + (k - n % k) = k := by omega
    calc (n % k) * (n / k + 1) + (k - n % k) * (n / k)
        = (n % k + (k - n % k)) * (n / k) + n % k := by ring
      _ = k * (n / k) + n % k := by rw [parts]
  simp only [sectionSizes,List.sum_append,List.sum_replicate_nat]
  omega

theorem sectionSizes_getD {n k c : Nat} (inside : c < k) :
    (sectionSizes n k).getD c 0 = n / k + if c < n % k then 1 else 0 := by
  by_cases large : c < n % k
  · simp [sectionSizes,List.getD_eq_getElem?_getD,List.getElem?_append,large]
  · have small : c - n % k < k - n % k := by omega
    simp [sectionSizes,List.getD_eq_getElem?_getD,List.getElem?_append,large,small]

theorem sections_lengths (xs : List α) (sizes : List Nat) (fits : sizes.sum ≤ xs.length) :
    (sections xs sizes).map List.length = sizes := by
  induction sizes generalizing xs with
  | nil => rfl
  | cons size sizes ih =>
    simp only [List.sum_cons] at fits
    have rest := ih (xs.drop size) (by simp; omega)
    simp only [sections,List.map_cons,rest,List.length_take]
    rw [Nat.min_eq_left (by omega)]

/-- `numpy.repeat(xs, counts)`. -/
def repeatEach (xs : List α) (counts : List Nat) : List α :=
  (List.zipWith (fun x count => List.replicate count x) xs counts).flatten

/-- Repetition of `0, …, k - 1` puts each number as often as its count says. -/
theorem repeatEach_range {counts : List Nat} {k : Nat} (each : counts.length = k) :
    repeatEach (List.range k) counts = (List.range k).flatMap fun c => List.replicate (counts.getD c 0) c := by
  have rows : List.zipWith (fun x count => List.replicate count x) (List.range k) counts =
      (List.range k).map fun c => List.replicate (counts.getD c 0) c := by
    apply List.ext_getElem
    · simp [each]
    · intro i left right
      have inside : i < counts.length := by
        simp only [List.length_map,List.length_range] at right
        omega
      simp [List.getElem?_eq_getElem inside]
  rw [repeatEach,rows,List.flatMap_def]

theorem repeatEach_range_count {counts : List Nat} {k c : Nat} (each : counts.length = k) (inside : c < k) :
    (repeatEach (List.range k) counts).count c = counts.getD c 0 := by
  rw [repeatEach_range each]
  clear each
  induction k with
  | zero => omega
  | succ k ih =>
    rw [List.range_succ,List.flatMap_append,List.count_append]
    have last : ((([k] : List Nat).flatMap fun c => List.replicate (counts.getD c 0) c).count c) =
        if c = k then counts.getD c 0 else 0 := by
      simp only [List.flatMap_cons,List.flatMap_nil,List.append_nil,List.count_replicate]
      by_cases same : c = k
      · simp [same]
      · simp [same,Ne.symm same]
    rw [last]
    by_cases same : c = k
    · subst same
      have none_before : ((List.range c).flatMap fun x => List.replicate (counts.getD x 0) x).count c = 0 := by
        rw [List.count_eq_zero]
        intro member
        obtain ⟨x,small,copy⟩ := List.mem_flatMap.mp member
        rw [List.mem_range] at small
        have := List.eq_of_mem_replicate copy
        omega
      rw [none_before]
      simp
    · simp only [same,↓reduceIte]
      rw [ih (by omega)]
      omega

theorem repeatEach_range_mem {counts : List Nat} {k c : Nat} (each : counts.length = k)
    (member : c ∈ repeatEach (List.range k) counts) : c < k := by
  rw [repeatEach_range each] at member
  obtain ⟨x,small,copy⟩ := List.mem_flatMap.mp member
  rw [List.eq_of_mem_replicate copy]
  exact List.mem_range.mp small

theorem repeatEach_range_sorted {counts : List Nat} {k : Nat} (each : counts.length = k) :
    (repeatEach (List.range k) counts).Pairwise (· ≤ ·) := by
  rw [repeatEach_range each,List.pairwise_flatMap]
  refine ⟨?_,?_⟩
  · intro c _
    exact List.pairwise_replicate.mpr (.inr le_rfl)
  · apply List.Pairwise.imp _ List.pairwise_lt_range
    intro a b less x left y right
    rw [List.eq_of_mem_replicate left,List.eq_of_mem_replicate right]
    exact less.le

theorem repeatEach_range_length {counts : List Nat} {k : Nat} (each : counts.length = k) :
    (repeatEach (List.range k) counts).length = counts.sum := by
  have rows : (List.zipWith (fun x count => List.replicate count x) (List.range k) counts).map List.length = counts := by
    apply List.ext_getElem
    · simp [each]
    · intro i left right
      simp
  rw [repeatEach,List.length_flatten,rows]

/-- Indexing by an array of positions, an `IndexError` beyond the end. -/
def takeAt (xs : List α) (positions : List Nat) : Option (List α) :=
  positions.mapM fun i => xs[i]?

theorem takeAt_eq {xs : List α} {positions : List Nat} (inside : ∀ i ∈ positions, i < xs.length) (default : α) :
    takeAt xs positions = some (positions.map fun i => xs.getD i default) := by
  induction positions with
  | nil => rfl
  | cons i rest ih =>
    have here := inside i (by simp)
    have tail := ih (fun j member => inside j (by simp [member]))
    simp only [takeAt] at tail
    simp [takeAt,tail,List.getElem?_eq_getElem here]

end Blocks

/-! ### Sorting positions and cutting at keys -/

section Grouping
variable {α : Type*}

/-- `numpy.argsort(keys, kind='stable')`. -/
def argsort (keys : List Nat) : List Nat :=
  (List.range keys.length).insertionSort fun i j => keys.getD i 0 ≤ keys.getD j 0

/-- `numpy.searchsorted(sorted, v)`: the first place where `v` keeps the order. -/
def searchsorted (sorted : List Nat) (v : Nat) : Nat := (sorted.takeWhile (· < v)).length

/-- The parts of `xs` from `start` on, cut at each of the given positions. -/
def splitFrom (xs : List α) (start : Nat) : List Nat → List (List α)
  | [] => [xs.drop start]
  | stop :: stops => (xs.take stop).drop start :: splitFrom xs stop stops

/-- `numpy.split(xs, positions)`. -/
def split (xs : List α) (positions : List Nat) : List (List α) := splitFrom xs 0 positions

/-- The positions of a key, in order. -/
def positionsOf (keys : List Nat) (c : Nat) : List Nat :=
  (List.range keys.length).filter fun i => keys.getD i 0 = c

theorem mem_positionsOf {keys : List Nat} {c i : Nat} :
    i ∈ positionsOf keys c ↔ i < keys.length ∧ keys.getD i 0 = c := by
  simp [positionsOf]

theorem positionsOf_increasing (keys : List Nat) (c : Nat) : (positionsOf keys c).Pairwise (· < ·) :=
  List.pairwise_lt_range.filter _

/-- The rows at the positions of a key are the rows with that key. -/
theorem takeAt_positionsOf (xs : List α) (key : α → Nat) (c : Nat) :
    takeAt xs (positionsOf (xs.map key) c) = some (xs.filter fun x => key x = c) := by
  cases xs with
  | nil => rfl
  | cons first rest =>
    generalize whole : first :: rest = xs
    have inside : ∀ i ∈ positionsOf (xs.map key) c, i < xs.length := by
      intro i member
      simpa using (mem_positionsOf.mp member).1
    have listed : xs = (List.range xs.length).map fun i => xs.getD i first := by
      apply List.ext_getElem
      · simp
      · intro i left right
        simp [List.getElem?_eq_getElem left]
    rw [takeAt_eq inside first]
    congr 1
    conv_rhs => rw [listed,List.filter_map]
    rw [positionsOf,List.length_map]
    congr 1
    apply List.filter_congr
    intro i member
    have bound := List.mem_range.mp member
    simp [List.getElem?_eq_getElem bound]

theorem argsort_perm (keys : List Nat) : (argsort keys).Perm (List.range keys.length) :=
  List.perm_insertionSort _ _

theorem argsort_sorted (keys : List Nat) :
    (argsort keys).Pairwise fun i j => keys.getD i 0 ≤ keys.getD j 0 := by
  have total : Std.Total fun i j => keys.getD i 0 ≤ keys.getD j 0 := ⟨fun i j => Nat.le_total _ _⟩
  have trans : IsTrans Nat fun i j => keys.getD i 0 ≤ keys.getD j 0 := ⟨fun i j k => Nat.le_trans⟩
  exact List.pairwise_insertionSort _ _

/-- A stable sort keeps the positions of one key in order. -/
theorem argsort_filter (keys : List Nat) (c : Nat) :
    (argsort keys).filter (fun i => keys.getD i 0 = c) = positionsOf keys c := by
  have inOrder : (positionsOf keys c).Pairwise fun i j => keys.getD i 0 ≤ keys.getD j 0 := by
    rw [List.pairwise_iff_forall_sublist]
    intro i j pair
    have left := (mem_positionsOf.mp (pair.subset (by simp : i ∈ [i,j]))).2
    have right := (mem_positionsOf.mp (pair.subset (by simp : j ∈ [i,j]))).2
    omega
  have kept : (positionsOf keys c).Sublist (argsort keys) :=
    List.sublist_insertionSort inOrder (List.filter_sublist)
  have inside : (positionsOf keys c).Sublist ((argsort keys).filter fun i => keys.getD i 0 = c) := by
    have := kept.filter fun i => keys.getD i 0 = c
    simpa only [positionsOf,List.filter_filter,Bool.and_self] using this
  have same := ((argsort_perm keys).filter fun i => keys.getD i 0 = c).length_eq
  exact (inside.eq_of_length same.symm).symm

/-- A list in order of its keys is its elements with keys below `k`, then those
    with key `k`. -/
theorem sorted_split {key : α → Nat} {k : Nat} {xs : List α} (sorted : xs.Pairwise fun x y => key x ≤ key y)
    (bounded : ∀ x ∈ xs, key x < k + 1) :
    xs = xs.filter (fun x => key x < k) ++ xs.filter (fun x => key x = k) := by
  induction xs with
  | nil => rfl
  | cons x rest ih =>
    obtain ⟨least,tail⟩ := List.pairwise_cons.mp sorted
    have whole := ih tail (fun y member => bounded y (by simp [member]))
    by_cases small : key x < k
    · have differ : ¬ key x = k := by omega
      simpa [small,differ] using whole
    · have here : key x = k := by
        have := bounded x (by simp)
        omega
      have none_below : rest.filter (fun y => key y < k) = [] := by
        rw [List.filter_eq_nil_iff]
        intro y member
        have := least y member
        simp
        omega
      rw [none_below,List.nil_append] at whole
      simpa [here,none_below] using whole

theorem sorted_eq_flatMap {key : α → Nat} {k : Nat} {xs : List α} (sorted : xs.Pairwise fun x y => key x ≤ key y)
    (bounded : ∀ x ∈ xs, key x < k) :
    xs = (List.range k).flatMap fun c => xs.filter fun x => key x = c := by
  induction k generalizing xs with
  | zero =>
    cases xs with
    | nil => rfl
    | cons x rest => exact absurd (bounded x (by simp)) (by omega)
  | succ k ih =>
    have below := ih (sorted.filter fun x => key x < k) (by simp)
    have filters : ∀ c ∈ List.range k, (xs.filter fun x => key x < k).filter (fun x => key x = c) =
        xs.filter fun x => key x = c := by
      intro c small
      rw [List.mem_range] at small
      rw [List.filter_filter]
      apply List.filter_congr
      intro x _
      by_cases same : key x = c
      · simp [same,small]
      · simp [same]
    have left : (List.range k).flatMap (fun c => xs.filter fun x => key x = c) = xs.filter fun x => key x < k := by
      rw [below]
      exact (List.flatMap_congr filters).symm
    rw [List.range_succ,List.flatMap_append,left]
    simpa using sorted_split sorted bounded

theorem argsort_eq_flatMap {keys : List Nat} {k : Nat} (bounded : ∀ c ∈ keys, c < k) :
    argsort keys = (List.range k).flatMap (positionsOf keys) := by
  have small : ∀ i ∈ argsort keys, keys.getD i 0 < k := by
    intro i member
    have inside : i < keys.length := List.mem_range.mp ((argsort_perm keys).subset member)
    rw [List.getD_eq_getElem?_getD,List.getElem?_eq_getElem inside,Option.getD_some]
    exact bounded _ (List.getElem_mem inside)
  have grouped := sorted_eq_flatMap (argsort_sorted keys) small
  simpa only [argsort_filter] using grouped

/-- Positions before the groups from `v` on. -/
theorem searchsorted_groups {key : α → Nat} {groups : Nat → List α} (inGroup : ∀ c, ∀ x ∈ groups c, key x = c)
    {v k : Nat} (inside : v ≤ k) :
    searchsorted (((List.range k).flatMap groups).map key) v = ((List.range v).flatMap groups).length := by
  have parts : List.range k = List.range v ++ (List.range (k - v)).map (v + ·) := by
    rw [← List.range_add]
    congr 1
    omega
  rw [parts,List.flatMap_append,List.map_append,searchsorted]
  rw [List.takeWhile_append_of_pos]
  · have stops : ((((List.range (k - v)).map (v + ·)).flatMap groups).map key).takeWhile (· < v) = [] := by
      rw [List.takeWhile_eq_nil_iff]
      intro nonempty small
      have member := List.getElem_mem nonempty
      obtain ⟨x,listed,value⟩ := List.mem_map.mp member
      obtain ⟨c,late,inC⟩ := List.mem_flatMap.mp listed
      obtain ⟨d,_,rfl⟩ := List.mem_map.mp late
      rw [inGroup _ x inC] at value
      have low : ((((List.range (k - v)).map (v + ·)).flatMap groups).map key)[0] < v := of_decide_eq_true small
      omega
    rw [stops]
    simp
  · intro c member
    obtain ⟨x,listed,rfl⟩ := List.mem_map.mp member
    obtain ⟨d,small,inD⟩ := List.mem_flatMap.mp listed
    rw [inGroup d x inD]
    simpa using small

/-- Cutting a sequence of groups where each group begins gives the groups back. -/
theorem splitFrom_groups (groups : Nat → List α) (m c : Nat) :
    splitFrom ((List.range (c + m + 1)).flatMap groups) ((List.range c).flatMap groups).length
        ((List.range' (c + 1) m).map fun v => ((List.range v).flatMap groups).length) =
      (List.range' c (m + 1)).map groups := by
  induction m generalizing c with
  | zero =>
    simp only [List.range'_zero,List.map_nil,splitFrom,Nat.add_zero,Nat.zero_add,List.range'_one,List.map_cons]
    rw [List.range_succ,List.flatMap_append,List.drop_left]
    simp
  | succ m ih =>
    have first : (List.range (c + (m + 1) + 1)).flatMap groups =
        (List.range (c + 1)).flatMap groups ++ (((List.range (m + 1)).map (c + 1 + ·)).flatMap groups) := by
      rw [← List.flatMap_append,← List.range_add]
      congr 2
      omega
    have rest := ih (c + 1)
    rw [show c + 1 + m + 1 = c + (m + 1) + 1 by omega] at rest
    rw [List.range'_succ,List.map_cons,splitFrom,rest,@List.range'_succ c,List.map_cons]
    congr 1
    rw [first,List.take_left,List.range_succ,List.flatMap_append,List.drop_left]
    simp

/-- Sorting the positions by key and cutting where the keys change collects the
    positions of each key. -/
theorem split_argsort {keys : List Nat} {k : Nat} (some_k : 0 < k) (bounded : ∀ c ∈ keys, c < k) :
    split (argsort keys)
        ((List.range' 1 (k - 1)).map (searchsorted ((argsort keys).map fun i => keys.getD i 0))) =
      (List.range k).map (positionsOf keys) := by
  have inGroup : ∀ c, ∀ i ∈ positionsOf keys c, keys.getD i 0 = c := fun c i member => (mem_positionsOf.mp member).2
  have cuts : (List.range' 1 (k - 1)).map (searchsorted ((argsort keys).map fun i => keys.getD i 0)) =
      (List.range' 1 (k - 1)).map fun v => ((List.range v).flatMap (positionsOf keys)).length := by
    apply List.map_congr_left
    intro v member
    rw [argsort_eq_flatMap bounded]
    apply searchsorted_groups inGroup
    have := List.mem_range'_1.mp member
    omega
  have groups := splitFrom_groups (positionsOf keys) (k - 1) 0
  rw [show 0 + (k - 1) + 1 = k by omega,show k - 1 + 1 = k by omega,← List.range_eq_range'] at groups
  rw [split,cuts,argsort_eq_flatMap bounded]
  simpa using groups

end Grouping

end OasisPlatform.ArrayOps
