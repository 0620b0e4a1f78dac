import OasisPlatform.ArrayOps
import Mathlib.Data.Finset.Dedup

/-!
The split of the subject at risk (SAR) exposure into lookup chunks. Rows are
assigned by subject id, so that every row of a subject is looked up in the same
chunk; the subjects, in order of first appearance, fall into even blocks
(`subjectAtRiskChunkRows_exact`).
-/
namespace OasisPlatform.SubjectAtRisk
open OasisPlatform.ArrayOps
set_option linter.unusedSimpArgs false

variable {ι δ : Type} [DecidableEq ι]

/-- A row of the exposure: its `loc_id`, which may be missing, and its other
    columns. -/
structure SarRow (ι δ : Type) where
  locId : Option ι
  fields : δ
  deriving DecidableEq, Repr

/-- The `loc_id` column. -/
def locIds (sarDf : List (SarRow ι δ)) : List (Option ι) := sarDf.map SarRow.locId

/-- The row positions of each of the `numChunks` lookup chunks; `none` where an
    array primitive raises. A missing id is a subject of its own
    (`use_na_sentinel=False`). -/
def subjectAtRiskChunkRows (sarDf : List (SarRow ι δ)) (numChunks : Nat) : Option (List (List Nat)) := do
  let (codes,sarIds) := factorize (locIds sarDf)
  let blocks ← arraySplit (List.range sarIds.length) numChunks
  let rowChunks ← takeAt (repeatEach (List.range numChunks) (blocks.map List.length)) codes
  -- stable, so rows keep their original order within each chunk
  let rows := argsort rowChunks
  let sorted ← takeAt rowChunks rows
  some (split rows ((List.range' 1 (numChunks - 1)).map (searchsorted sorted)))

/-- The `chunkIdx` slice of the exposure. -/
def splitSubjectAtRiskData (sarDf : List (SarRow ι δ)) (numChunks chunkIdx : Nat) : Option (List (SarRow ι δ)) := do
  let chunks ← subjectAtRiskChunkRows sarDf numChunks
  let chunkRows ← chunks[chunkIdx]?
  takeAt sarDf chunkRows

/-- The chunk of the subject with a code, among `n` subjects in `k` chunks. -/
def subjectChunk (n k code : Nat) : Nat := (repeatEach (List.range k) (sectionSizes n k)).getD code 0

/-- The chunk of a subject, by the code it has among the subjects of `ids`. -/
def chunkOf (ids : List (Option ι)) (k : Nat) (x : Option ι) : Nat :=
  subjectChunk (factorize ids).2.length k (firstIndex (factorize ids).2 x)

/-- The chunk of each row. -/
def rowChunks (ids : List (Option ι)) (k : Nat) : List Nat :=
  (factorize ids).1.map (subjectChunk (factorize ids).2.length k)

theorem subjects_length {n k : Nat} (some_k : 0 < k) :
    (repeatEach (List.range k) (sectionSizes n k)).length = n := by
  rw [repeatEach_range_length (sectionSizes_length some_k),sectionSizes_sum some_k]

theorem subjectChunk_getElem? {n k code : Nat} (some_k : 0 < k) (inside : code < n) :
    (repeatEach (List.range k) (sectionSizes n k))[code]? = some (subjectChunk n k code) := by
  have bound : code < (repeatEach (List.range k) (sectionSizes n k)).length := by rwa [subjects_length some_k]
  simp [subjectChunk,List.getElem?_eq_getElem bound]

theorem subjectChunk_lt {n k code : Nat} (some_k : 0 < k) (inside : code < n) : subjectChunk n k code < k :=
  repeatEach_range_mem (sectionSizes_length some_k)
    (List.mem_of_getElem? (subjectChunk_getElem? some_k inside))

/-- Later subjects are in later chunks. -/
theorem subjectChunk_mono {n k a b : Nat} (some_k : 0 < k) (le : a ≤ b) (inside : b < n) :
    subjectChunk n k a ≤ subjectChunk n k b := by
  rcases Nat.lt_or_eq_of_le le with less | same
  · have sorted := repeatEach_range_sorted (sectionSizes_length (n := n) some_k)
    have bound : b < (repeatEach (List.range k) (sectionSizes n k)).length := by rwa [subjects_length some_k]
    have ordered := List.pairwise_iff_getElem.mp sorted a b (by omega) bound less
    simpa [subjectChunk,List.getElem?_eq_getElem bound,List.getElem?_eq_getElem (less.trans bound)] using ordered
  · rw [same]

/-- A chunk has as many subjects as its section is long. -/
theorem subjectChunk_count {n k c : Nat} (inside : c < k) :
    ((List.range n).filter fun code => subjectChunk n k code = c).length = (sectionSizes n k).getD c 0 := by
  have some_k : 0 < k := by omega
  have all : (List.range n).map (subjectChunk n k) = repeatEach (List.range k) (sectionSizes n k) := by
    apply List.ext_getElem?
    intro code
    by_cases small : code < n
    · rw [subjectChunk_getElem? some_k small]
      simp [small]
    · have long := subjects_length (n := n) some_k
      rw [List.getElem?_eq_none (by simp; omega),List.getElem?_eq_none (by omega)]
  rw [← repeatEach_range_count (sectionSizes_length some_k) inside,← all]
  simp only [List.count_eq_length_filter,List.filter_map,List.length_map]
  congr 2

theorem rowChunks_length (ids : List (Option ι)) (k : Nat) : (rowChunks ids k).length = ids.length := by
  simp [rowChunks,factorize_length]

/-- The chunk of a row is the chunk of its subject. -/
theorem rowChunks_getD {ids : List (Option ι)} (k : Nat) {i : Nat} {x : Option ι} (at_i : ids[i]? = some x) :
    (rowChunks ids k).getD i 0 = chunkOf ids k x := by
  simp [rowChunks,chunkOf,factorize_getElem?,at_i]

theorem rowChunks_eq_map (ids : List (Option ι)) (k : Nat) : rowChunks ids k = ids.map (chunkOf ids k) := by
  simp [rowChunks,chunkOf,factorize,Function.comp_def]

theorem rowChunks_lt {ids : List (Option ι)} {k : Nat} (some_k : 0 < k) :
    ∀ c ∈ rowChunks ids k, c < k := by
  intro c member
  obtain ⟨code,coded,rfl⟩ := List.mem_map.mp member
  exact subjectChunk_lt some_k (factorize_lt ids coded)

/-- The split collects, for each chunk, the rows of its subjects. -/
theorem subjectAtRiskChunkRows_eq (sarDf : List (SarRow ι δ)) {numChunks : Nat} (some_chunk : 0 < numChunks) :
    subjectAtRiskChunkRows sarDf numChunks =
      some ((List.range numChunks).map (positionsOf (rowChunks (locIds sarDf) numChunks))) := by
  have blocks : (arraySplit (List.range (factorize (locIds sarDf)).2.length) numChunks) =
      some (sections (List.range (factorize (locIds sarDf)).2.length)
        (sectionSizes (factorize (locIds sarDf)).2.length numChunks)) := by
    simp [arraySplit,Nat.ne_of_gt some_chunk]
  have sizes : (sections (List.range (factorize (locIds sarDf)).2.length)
        (sectionSizes (factorize (locIds sarDf)).2.length numChunks)).map List.length =
      sectionSizes (factorize (locIds sarDf)).2.length numChunks :=
    sections_lengths _ _ (by simp [sectionSizes_sum some_chunk])
  have assigned : takeAt (repeatEach (List.range numChunks)
        (sectionSizes (factorize (locIds sarDf)).2.length numChunks)) (factorize (locIds sarDf)).1 =
      some (rowChunks (locIds sarDf) numChunks) :=
    takeAt_eq (fun code coded => by
      rw [subjects_length some_chunk]
      exact factorize_lt _ coded) 0
  have sorted : takeAt (rowChunks (locIds sarDf) numChunks) (argsort (rowChunks (locIds sarDf) numChunks)) =
      some ((argsort (rowChunks (locIds sarDf) numChunks)).map
        fun i => (rowChunks (locIds sarDf) numChunks).getD i 0) :=
    takeAt_eq (fun i member => List.mem_range.mp ((argsort_perm _).subset member)) 0
  simp only [subjectAtRiskChunkRows,blocks,sizes,assigned,sorted,Option.bind_eq_bind,Option.bind_some]
  rw [split_argsort some_chunk (rowChunks_lt some_chunk)]

/-- A chunk is the rows of its subjects, in their order in the exposure. -/
theorem splitSubjectAtRiskData_eq (sarDf : List (SarRow ι δ)) {numChunks chunkIdx : Nat} (inside : chunkIdx < numChunks) :
    splitSubjectAtRiskData sarDf numChunks chunkIdx =
      some (sarDf.filter fun row => chunkOf (locIds sarDf) numChunks row.locId = chunkIdx) := by
  have keys : rowChunks (locIds sarDf) numChunks =
      sarDf.map fun row => chunkOf (locIds sarDf) numChunks row.locId := by
    rw [rowChunks_eq_map,locIds,List.map_map]
    rfl
  rw [splitSubjectAtRiskData,subjectAtRiskChunkRows_eq sarDf (by omega : 0 < numChunks),keys]
  simp only [Option.bind_eq_bind,Option.bind_some,List.getElem?_map,List.getElem?_range inside,Option.map_some]
  exact takeAt_positionsOf sarDf _ chunkIdx

/-- How many subjects the rows at given positions have. -/
def distinctSubjects (ids : List (Option ι)) (rows : List Nat) : Nat :=
  (rows.filterMap fun i => ids[i]?).dedup.length

/-- Lists of row positions that split the rows of `ids` by subject into `k` even
    chunks. -/
structure ExactSplit (ids : List (Option ι)) (k : Nat) (chunks : List (List Nat)) : Prop where
  /-- There are exactly `k` lists, -/
  count : chunks.length = k
  /-- of row positions, -/
  positions : ∀ rows ∈ chunks, ∀ i ∈ rows, i < ids.length
  /-- each row position in exactly one list, -/
  once : ∀ i < ids.length, ∃! c, i ∈ chunks.getD c []
  /-- strictly increasing within each list, -/
  increasing : ∀ rows ∈ chunks, rows.Pairwise (· < ·)
  /-- the rows of a subject in the same list, -/
  together : ∀ c d, ∀ i ∈ chunks.getD c [], ∀ j ∈ chunks.getD d [], ids[i]? = ids[j]? → c = d
  /-- subjects in order of first appearance, -/
  ordered : ∀ c d, ∀ i ∈ chunks.getD c [], ∀ j ∈ chunks.getD d [], ∀ a b, ids[i]? = some a → ids[j]? = some b →
    firstIndex ids a < firstIndex ids b → c ≤ d
  /-- and numbers of subjects that differ by at most one, the larger first. -/
  balanced : ∀ c d, c ≤ d → d < k →
    distinctSubjects ids (chunks.getD d []) ≤ distinctSubjects ids (chunks.getD c []) ∧
      distinctSubjects ids (chunks.getD c []) ≤ distinctSubjects ids (chunks.getD d []) + 1

/-- The subjects of a chunk are those of its section. -/
theorem distinctSubjects_positionsOf (ids : List (Option ι)) {k c : Nat} (inside : c < k) :
    distinctSubjects ids (positionsOf (rowChunks ids k) c) = (sectionSizes (factorize ids).2.length k).getD c 0 := by
  have same : ((positionsOf (rowChunks ids k) c).filterMap fun i => ids[i]?).dedup.Perm
      ((factorize ids).2.filter fun x => chunkOf ids k x = c) := by
    rw [List.perm_ext_iff_of_nodup (List.nodup_dedup _) ((factorize_nodup ids).filter _)]
    intro x
    simp only [List.mem_dedup,List.mem_filterMap,List.mem_filter,mem_factorize,decide_eq_true_eq,mem_positionsOf]
    constructor
    · rintro ⟨i,⟨_,chunk⟩,at_i⟩
      exact ⟨List.mem_of_getElem? at_i,by rw [← rowChunks_getD k at_i]; exact chunk⟩
    · rintro ⟨listed,chunk⟩
      obtain ⟨i,at_i⟩ := List.mem_iff_getElem?.mp listed
      refine ⟨i,⟨?_,?_⟩,at_i⟩
      · rw [rowChunks_length]
        exact (List.getElem?_eq_some_iff.mp at_i).1
      · rw [rowChunks_getD k at_i]
        exact chunk
  rw [distinctSubjects,same.length_eq,← subjectChunk_count inside,← map_firstIndex (factorize_nodup ids),
    List.filter_map,List.length_map]
  rfl

/-- The chunk that holds a row. -/
theorem mem_chunk {ids : List (Option ι)} {k c i : Nat} :
    i ∈ ((List.range k).map (positionsOf (rowChunks ids k))).getD c [] ↔
      c < k ∧ i < ids.length ∧ (rowChunks ids k).getD i 0 = c := by
  by_cases inside : c < k
  · simp [inside,mem_positionsOf,rowChunks_length]
  · simp [inside]

theorem rowChunks_getD_lt {ids : List (Option ι)} {k i : Nat} (some_k : 0 < k) (inside : i < ids.length) :
    (rowChunks ids k).getD i 0 < k := by
  have bound : i < (rowChunks ids k).length := by rwa [rowChunks_length]
  rw [List.getD_eq_getElem?_getD,List.getElem?_eq_getElem bound,Option.getD_some]
  exact rowChunks_lt some_k _ (List.getElem_mem bound)

/-- The split of any exposure, with repeated, interleaved or missing ids or no
    rows at all, into any number of chunks is exact. -/
theorem subjectAtRiskChunkRows_exact (sarDf : List (SarRow ι δ)) (numChunks : Nat) (some_chunk : 1 ≤ numChunks) :
    ∃ chunks, subjectAtRiskChunkRows sarDf numChunks = some chunks ∧
      ExactSplit (locIds sarDf) numChunks chunks := by
  refine ⟨_,subjectAtRiskChunkRows_eq sarDf some_chunk,?_⟩
  generalize locIds sarDf = ids
  refine ⟨by simp,?_,?_,?_,?_,?_,?_⟩
  · intro rows listed i member
    obtain ⟨c,_,rfl⟩ := List.mem_map.mp listed
    have := (mem_positionsOf.mp member).1
    rwa [rowChunks_length] at this
  · intro i inside
    refine ⟨(rowChunks ids numChunks).getD i 0,?_,?_⟩
    · exact mem_chunk.mpr ⟨rowChunks_getD_lt some_chunk inside,inside,rfl⟩
    · intro c member
      exact (mem_chunk.mp member).2.2.symm
  · intro rows listed
    obtain ⟨c,_,rfl⟩ := List.mem_map.mp listed
    exact positionsOf_increasing _ c
  · intro c d i inC j inD sameId
    obtain ⟨_,insideI,rfl⟩ := mem_chunk.mp inC
    obtain ⟨_,_,rfl⟩ := mem_chunk.mp inD
    have at_i : ids[i]? = some ids[i] := List.getElem?_eq_getElem insideI
    rw [rowChunks_getD numChunks at_i,rowChunks_getD numChunks (sameId ▸ at_i)]
  · intro c d i inC j inD a b at_i at_j first
    obtain ⟨_,_,rfl⟩ := mem_chunk.mp inC
    obtain ⟨_,_,rfl⟩ := mem_chunk.mp inD
    rw [rowChunks_getD numChunks at_i,rowChunks_getD numChunks at_j]
    apply subjectChunk_mono some_chunk
    · exact (firstIndex_uniquesFrom_lt (by simp) (by simp) first).le
    · exact firstIndex_lt ((mem_factorize ids b).mpr (List.mem_of_getElem? at_j))
  · intro c d le inside
    have chunk : ∀ e < numChunks, ((List.range numChunks).map (positionsOf (rowChunks ids numChunks))).getD e [] =
        positionsOf (rowChunks ids numChunks) e := by
      intro e small
      simp [small]
    rw [chunk c (by omega),chunk d inside,distinctSubjects_positionsOf ids (by omega : c < numChunks),
      distinctSubjects_positionsOf ids inside,sectionSizes_getD (by omega : c < numChunks),sectionSizes_getD inside]
    split_ifs <;> omega

/-- Four rows of three subjects, one of them missing, in two chunks. -/
theorem subjectAtRiskChunkRows_exact_interleaved :
    ∃ chunks, subjectAtRiskChunkRows [(⟨some 5,()⟩ : SarRow Nat Unit),⟨none,()⟩,⟨some 5,()⟩,⟨some 3,()⟩] 2 =
        some chunks ∧
      ExactSplit [some 5,none,some 5,some 3] 2 chunks :=
  subjectAtRiskChunkRows_exact _ 2 (by decide)

end OasisPlatform.SubjectAtRisk
