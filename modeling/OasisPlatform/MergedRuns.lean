import OasisPlatform.DirectoryTrees

/-!
The work and log trees of the chunks of a loss generation, merged into those of the run.
Where no chunk has a file that stands as a directory elsewhere, every file of the chunks is
there with the content of the last chunk having it and the rest is as it was
(`merge_chunks_correct`).
-/
namespace OasisPlatform.MergedRuns
open DirectoryTrees
set_option linter.unusedSimpArgs false

variable {γ : Type}

/-- A directory with what is in it. -/
structure Directory (γ : Type) where
  entries : List (String × Tree String γ)
  sound : (Tree.directory entries).Sound

def Directory.tree (directory : Directory γ) : Tree String γ := .directory directory.entries

/-- `shutil.copy(src, dst)`: where `dst` is a directory, into it under the name of `src`. -/
def copy (tree : Tree String γ) (file : List String × γ) : Option (Tree String γ) :=
  match tree.entryAt file.1 with
  | some .directory => tree.write file.2 (file.1 ++ file.1.getLast?.toList)
  | _ => tree.write file.2 file.1

/-- One file of `merge_dirs`: its parent with `mkdir(exist_ok=True, parents=True)`, then the copy. -/
def mergeFile (destination : Tree String γ) (file : List String × γ) : Option (Tree String γ) :=
  (destination.mkdirs file.1.dropLast).bind fun made => copy made file

/-- `merge_dirs(src_root, dst_root)`; none where it raises. -/
def mergeDirs (source destination : Tree String γ) : Option (Tree String γ) :=
  source.walk.foldlM mergeFile destination

/-- What `generate_losses_output` does with the chunks, for the work directory and for the log directory. -/
def mergeChunks (chunks : List (Directory γ)) (destination : Tree String γ) : Option (Tree String γ) :=
  chunks.foldlM (fun tree chunk => mergeDirs chunk.tree tree) destination

/-- The content at a path in the last chunk having a file there. -/
def lastContent (chunks : List (Directory γ)) (path : List String) : Option γ :=
  chunks.reverse.findSome? fun chunk => chunk.tree.fileAt path

/-- Where a chunk has a file, no chunk has a directory with a file in it, and the destination
    has no directory there and no file above. -/
structure Compatible (chunks : List (Directory γ)) (destination : Tree String γ) : Prop where
  apart : ∀ chunk ∈ chunks, ∀ other ∈ chunks, Apart chunk.tree.fileAt other.tree.fileAt
  fits : ∀ chunk ∈ chunks, Fits chunk.tree.fileAt destination.entryAt

/-- No path has a file in both. -/
def Separate (chunk other : Directory γ) : Prop := ∀ path, chunk.tree.fileAt path = none ∨ other.tree.fileAt path = none

def singleFile (name : String) (content : Nat) : Directory Nat where
  entries := [(name,.file content)]
  sound := .directory (List.nodup_singleton name) fun entry member => by
    cases List.mem_singleton.mp member
    exact .file content

def directoryChunk : Directory Nat where
  entries := [("a",.directory [("b",.file 2)])]
  sound := .directory (by decide) fun entry member => by
    cases List.mem_singleton.mp member
    exact .directory (by decide) fun entry member => by
      cases List.mem_singleton.mp member
      exact .file 2

/-- With the file first the directory cannot be made; with the directory first the file
    goes into it, where no chunk has a file. -/
theorem conflict_not_merged :
    mergeChunks [singleFile "a" 1,directoryChunk] (.directory []) = none ∧
      ∃ merged, mergeChunks [directoryChunk,singleFile "a" 1] (.directory []) = some merged ∧
        lastContent [directoryChunk,singleFile "a" 1] ["a"] = some 1 ∧ merged.fileAt ["a"] = none ∧
        lastContent [directoryChunk,singleFile "a" 1] ["a","a"] = none ∧ merged.fileAt ["a","a"] = some 1 :=
  ⟨rfl,_,rfl,rfl,rfl,rfl,rfl⟩

theorem mergeFile_overlay {destination : Tree String γ} {file : List String × γ} (named : file.1 ≠ [])
    (fits : Fits (single file) destination.entryAt) :
    ∃ merged, mergeFile destination file = some merged ∧
      merged.entryAt = overlay (single file) destination.entryAt := by
  obtain ⟨placed,done,view⟩ := entryAt_place named fits
  refine ⟨placed,?_,view⟩
  obtain ⟨made,parents,written⟩ := Option.bind_eq_some_iff.mp done
  have target : made.entryAt file.1 ≠ some .directory := by
    have shorter : ¬ file.1 <+: file.1.dropLast := by
      intro under
      have longer := under.length_le
      rw [List.length_dropLast] at longer
      have := List.length_pos_iff.mpr named
      omega
    rw [Tree.entryAt_mkdirs parents,if_neg shorter]
    exact (fits file.1 (isSome_single.mpr rfl)).1
  rw [mergeFile,parents,Option.bind_some,copy]
  split
  · rename_i directory
    exact absurd directory target
  · exact written

theorem Directory.mem_walk (chunk : Directory γ) (path : List String) (content : γ) :
    (path,content) ∈ chunk.tree.walk ↔ chunk.tree.fileAt path = some content := by
  refine (Tree.mem_walk chunk.sound).trans (and_iff_right_of_imp ?_)
  rintro held rfl
  cases held

/-- A chunk is laid over the destination. -/
theorem mergeDirs_overlay {chunk : Directory γ} {destination : Tree String γ}
    (apart : Apart chunk.tree.fileAt chunk.tree.fileAt) (fits : Fits chunk.tree.fileAt destination.entryAt) :
    ∃ merged, mergeDirs chunk.tree destination = some merged ∧
      merged.entryAt = overlay chunk.tree.fileAt destination.entryAt := by
  have files := layered_single_eq chunk.mem_walk
  rw [← files] at apart fits ⊢
  refine foldlM_overlay ?_ apart fits
  rintro file member tree - here
  refine mergeFile_overlay ?_ here
  rintro root
  have held := (chunk.mem_walk file.1 file.2).mp member
  rw [root] at held
  cases held

theorem lastContent_eq (chunks : List (Directory γ)) :
    lastContent chunks = layered (chunks.map fun chunk => chunk.tree.fileAt) := by
  funext path
  unfold lastContent
  induction chunks with
  | nil => rfl
  | cons chunk rest ih =>
    rw [List.reverse_cons,List.findSome?_append,ih,List.map_cons,layered,List.findSome?_cons,List.findSome?_nil]
    cases chunk.tree.fileAt path <;> rfl

theorem isSome_lastContent {chunks : List (Directory γ)} {path : List String} :
    (lastContent chunks path).isSome ↔ ∃ chunk ∈ chunks, (chunk.tree.fileAt path).isSome := by
  simp only [lastContent_eq,isSome_layered,List.mem_map,exists_exists_and_eq_and]

variable {chunks : List (Directory γ)} {destination : Tree String γ}

theorem Compatible.layers (compatible : Compatible chunks destination) :
    Apart (lastContent chunks) (lastContent chunks) := by
  intro above path held given
  obtain ⟨chunk,member,held⟩ := isSome_lastContent.mp held
  obtain ⟨other,listed,given⟩ := isSome_lastContent.mp given
  exact compatible.apart chunk member other listed above path held given

theorem Compatible.onto (compatible : Compatible chunks destination) :
    Fits (lastContent chunks) destination.entryAt := by
  intro path given
  obtain ⟨chunk,member,given⟩ := isSome_lastContent.mp given
  exact compatible.fits chunk member path given

/-- The fold lays the last contents over the destination. -/
theorem mergeChunks_overlay (apart : Apart (lastContent chunks) (lastContent chunks))
    (fits : Fits (lastContent chunks) destination.entryAt) :
    ∃ merged, mergeChunks chunks destination = some merged ∧
      merged.entryAt = overlay (lastContent chunks) destination.entryAt := by
  rw [lastContent_eq] at apart fits ⊢
  exact foldlM_overlay (fun chunk _ tree => mergeDirs_overlay) apart fits

theorem mergeChunks_again {merged : Tree String γ} (apart : Apart (lastContent chunks) (lastContent chunks))
    (fits : Fits (lastContent chunks) destination.entryAt)
    (view : merged.entryAt = overlay (lastContent chunks) destination.entryAt) :
    ∃ again, mergeChunks chunks merged = some again ∧ again.entryAt = merged.entryAt := by
  have upper : Fits (lastContent chunks) merged.entryAt := by
    rw [view]
    exact fits.overlay apart apart
  obtain ⟨again,done,laid⟩ := mergeChunks_overlay apart upper
  refine ⟨again,done,?_⟩
  have twice : (fun path => (lastContent chunks path).or (lastContent chunks path)) = lastContent chunks :=
    funext fun path => Option.or_self
  rw [laid,view,overlay_overlay apart,twice]

theorem lastContent_separate (separate : chunks.Pairwise Separate) {path : List String} {content : γ} :
    lastContent chunks path = some content ↔ ∃ chunk ∈ chunks, chunk.tree.fileAt path = some content := by
  rw [lastContent_eq]
  induction chunks with
  | nil => simp [layered]
  | cons chunk rest ih =>
    obtain ⟨first,later⟩ := List.pairwise_cons.mp separate
    rw [List.map_cons,layered,Option.or_eq_some_iff,ih later]
    simp only [List.mem_cons,exists_eq_or_imp]
    constructor
    · rintro (deeper | ⟨-,here⟩)
      · exact .inr deeper
      · exact .inl here
    · rintro (here | deeper)
      · refine .inr ⟨?_,here⟩
        rw [← Option.not_isSome_iff_eq_none,isSome_layered]
        rintro ⟨layer,listed,given⟩
        obtain ⟨other,member,rfl⟩ := List.mem_map.mp listed
        rcases first other member path with free | free
        · rw [free] at here
          cases here
        · rw [free] at given
          cases given
      · exact .inl deeper

theorem lastContent_perm (separate : chunks.Pairwise Separate) {others : List (Directory γ)} (same : others.Perm chunks) :
    lastContent others = lastContent chunks := by
  have swap {chunk other : Directory γ} (apart : Separate chunk other) : Separate other chunk :=
    fun path => (apart path).symm
  have reordered := (same.pairwise_iff swap).mpr separate
  funext path
  refine Option.ext fun content => ?_
  simp only [lastContent_separate reordered,lastContent_separate separate,same.mem_iff]

/-- Nothing less will do: where a tree has the last contents over what the destination had,
    the chunks were compatible. -/
theorem compatible_of_merged {merged : Tree String γ}
    (files : ∀ path, merged.fileAt path = (lastContent chunks path).or (destination.fileAt path))
    (directories : ∀ path, destination.entryAt path = some .directory → merged.entryAt path = some .directory) :
    Compatible chunks destination := by
  have held {chunk : Directory γ} (member : chunk ∈ chunks) {path : List String}
      (given : (chunk.tree.fileAt path).isSome) : (merged.fileAt path).isSome := by
    rw [files,Option.isSome_or,isSome_lastContent.mpr ⟨chunk,member,given⟩,Bool.true_or]
  -- A file of the merged tree has only directories above it.
  have above {chunk : Directory γ} (member : chunk ∈ chunks) {path parent : List String}
      (given : (chunk.tree.fileAt path).isSome) (under : parent <+: path) (proper : parent ≠ path) :
      merged.fileAt parent = none := by
    obtain ⟨content,kept⟩ := Option.isSome_iff_exists.mp (held member given)
    have present : merged.entryAt path ≠ none := by rw [Tree.fileAt_eq_some.mp kept]; nofun
    rw [Tree.fileAt,Tree.entryAt_above present under proper]
  constructor
  · intro chunk member other listed parent path first second under
    by_contra proper
    have some := held member first
    rw [above listed second under proper] at some
    cases some
  · intro chunk member path given
    constructor
    · intro directory
      have some := held member given
      rw [Tree.fileAt,directories path directory] at some
      cases some
    · intro parent under proper content file
      have free := above member given under proper
      rw [files,Option.or_eq_none_iff,Tree.fileAt_eq_some.mpr file] at free
      cases free.2

theorem merge_chunks_correct (chunks : List (Directory γ)) (destination : Directory γ)
    (compatible : Compatible chunks destination.tree) :
    ∃ merged, mergeChunks chunks destination.tree = some merged ∧
      (∀ path, merged.fileAt path = (lastContent chunks path).or (destination.tree.fileAt path)) ∧
      (chunks.Pairwise Separate →
        (∀ chunk ∈ chunks, ∀ path content, chunk.tree.fileAt path = some content → merged.fileAt path = some content) ∧
          ∀ others : List (Directory γ), others.Perm chunks →
            ∃ same, mergeChunks others destination.tree = some same ∧ same.entryAt = merged.entryAt) ∧
      ∃ again, mergeChunks chunks merged = some again ∧ again.entryAt = merged.entryAt := by
  have apart := compatible.layers
  have fits := compatible.onto
  obtain ⟨merged,done,view⟩ := mergeChunks_overlay apart fits
  refine ⟨merged,done,fileAt_overlay fits view,?_,mergeChunks_again apart fits view⟩
  intro separate
  constructor
  · intro chunk member path content held
    rw [fileAt_overlay fits view,(lastContent_separate separate).mpr ⟨chunk,member,held⟩,Option.some_or]
  · intro others same
    rw [← lastContent_perm separate same] at apart fits view
    obtain ⟨other,finished,laid⟩ := mergeChunks_overlay apart fits
    exact ⟨other,finished,laid.trans view.symm⟩

theorem Directory.isSome_fileAt (chunk : Directory γ) (path : List String) :
    (chunk.tree.fileAt path).isSome ↔ ∃ content, (path,content) ∈ chunk.tree.walk := by
  simp only [Option.isSome_iff_exists,chunk.mem_walk]

theorem apart_iff_walk (chunk other : Directory γ) : Apart chunk.tree.fileAt other.tree.fileAt ↔
    ∀ file ∈ chunk.tree.walk, ∀ later ∈ other.tree.walk, file.1 <+: later.1 → file.1 = later.1 := by
  constructor
  · intro apart file walked later member
    exact apart _ _ ((chunk.isSome_fileAt _).mpr ⟨_,walked⟩) ((other.isSome_fileAt _).mpr ⟨_,member⟩)
  · intro walks above path held given
    obtain ⟨content,walked⟩ := (chunk.isSome_fileAt _).mp held
    obtain ⟨former,member⟩ := (other.isSome_fileAt _).mp given
    exact walks _ walked _ member

theorem fits_iff_walk (chunk : Directory γ) (view : List String → Option (Entry γ)) : Fits chunk.tree.fileAt view ↔
    ∀ file ∈ chunk.tree.walk, view file.1 ≠ some .directory ∧
      ∀ above ∈ file.1.inits, above ≠ file.1 → view above = none ∨ view above = some .directory := by
  have free (value : Option (Entry γ)) :
      (∀ content, value ≠ some (.file content)) ↔ value = none ∨ value = some .directory := by
    rcases value with _ | _ | content <;> simp
  simp only [Fits,chunk.isSome_fileAt,free,List.mem_inits]
  exact ⟨fun fits file walked => fits file.1 ⟨file.2,walked⟩,fun walks path given => walks _ given.choose_spec⟩

theorem compatible_iff_walk (chunks : List (Directory γ)) (destination : Tree String γ) : Compatible chunks destination ↔
    (∀ chunk ∈ chunks, ∀ other ∈ chunks, ∀ file ∈ chunk.tree.walk, ∀ later ∈ other.tree.walk,
        file.1 <+: later.1 → file.1 = later.1) ∧
      ∀ chunk ∈ chunks, ∀ file ∈ chunk.tree.walk, destination.entryAt file.1 ≠ some .directory ∧
        ∀ above ∈ file.1.inits, above ≠ file.1 →
          destination.entryAt above = none ∨ destination.entryAt above = some .directory := by
  simp only [← apart_iff_walk,← fits_iff_walk]
  exact ⟨fun compatible => ⟨compatible.apart,compatible.fits⟩,fun both => ⟨both.1,both.2⟩⟩

instance [DecidableEq γ] (chunks : List (Directory γ)) (destination : Tree String γ) :
    Decidable (Compatible chunks destination) := decidable_of_iff' _ (compatible_iff_walk chunks destination)

/-- A file in a directory. -/
def inDirectory (name inner : String) (content : Nat) : Directory Nat where
  entries := [(name,.directory [(inner,.file content)])]
  sound := .directory (List.nodup_singleton name) fun entry member => by
    cases List.mem_singleton.mp member
    exact .directory (List.nodup_singleton inner) fun entry member => by
      cases List.mem_singleton.mp member
      exact .file content

/-- The chunks have files in a directory that is there, one of which is written again. -/
theorem nested_chunks_merged :
    ∃ merged, mergeChunks [inDirectory "work" "first" 1,inDirectory "work" "second" 2,singleFile "log" 3]
        (inDirectory "work" "first" 0).tree = some merged ∧
      merged.fileAt ["work","first"] = some 1 ∧ merged.fileAt ["work","second"] = some 2 ∧
      merged.fileAt ["log"] = some 3 := by
  have compatible : Compatible [inDirectory "work" "first" 1,inDirectory "work" "second" 2,singleFile "log" 3]
      (inDirectory "work" "first" 0).tree := by decide
  obtain ⟨merged,done,files,-⟩ := merge_chunks_correct _ (inDirectory "work" "first" 0) compatible
  exact ⟨merged,done,files _,files _,files _⟩

end OasisPlatform.MergedRuns
