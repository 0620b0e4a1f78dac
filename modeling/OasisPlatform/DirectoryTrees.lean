import Mathlib.Data.List.Infix
import OasisPlatform.Dictionaries

/-!
Directory trees. What stands at each path is the view of a tree; making directories and
writing a file are described by what they do to the view (`entryAt_mkdirs`,`entryAt_write`),
and writing a file with the directories above it, or many in turn, lays them over the view
(`entryAt_place`,`foldlM_overlay`). Overlays compose and do not depend on the order of files
that are apart (`overlay_overlay`).
-/
namespace OasisPlatform.DirectoryTrees
open Dictionaries
set_option linter.unusedSimpArgs false

inductive Tree (ν γ : Type) where
  | file (content : γ)
  | directory (entries : List (ν × Tree ν γ))

inductive Entry (γ : Type) where
  | directory
  | file (content : γ)
  deriving DecidableEq

variable {ν γ : Type} [DecidableEq ν]

namespace Tree

def kind : Tree ν γ → Entry γ
  | .file content => .file content
  | .directory _ => .directory

/-- What stands at a path. -/
def entryAt : Tree ν γ → List ν → Option (Entry γ)
  | tree,[] => some tree.kind
  | .file _,_ :: _ => none
  | .directory entries,name :: path =>
    match find entries name with
    | some tree => entryAt tree path
    | none => none

def fileAt (tree : Tree ν γ) (path : List ν) : Option γ :=
  match tree.entryAt path with
  | some (.file content) => some content
  | _ => none

/-- No directory lists a name twice. -/
inductive Sound : Tree ν γ → Prop where
  | file (content : γ) : Sound (.file content)
  | directory {entries : List (ν × Tree ν γ)} : (keys entries).Nodup →
      (∀ entry ∈ entries, Sound entry.2) → Sound (.directory entries)

/-- The directory at the path, with those above it; a file on the way makes it raise. -/
def mkdirs : Tree ν γ → List ν → Option (Tree ν γ)
  | .file _,_ => none
  | .directory entries,[] => some (.directory entries)
  | .directory entries,name :: path =>
    (mkdirs ((find entries name).getD (.directory [])) path).map fun tree => .directory (put entries name tree)

/-- A file opened for writing: its directory is there and it is not a directory itself. -/
def write (content : γ) : Tree ν γ → List ν → Option (Tree ν γ)
  | .file _,[] => some (.file content)
  | .directory _,[] => none
  | .file _,_ :: _ => none
  | .directory entries,name :: path =>
    match find entries name with
    | some tree => (write content tree path).map fun written => .directory (put entries name written)
    | none => if path = [] then some (.directory (put entries name (.file content))) else none

omit [DecidableEq ν] in
theorem induct {motive : Tree ν γ → Prop} (file : ∀ content, motive (.file content))
    (directory : ∀ entries, (∀ entry ∈ entries, motive entry.2) → motive (.directory entries)) (tree : Tree ν γ) :
    motive tree := by
  induction bound : sizeOf tree using Nat.strong_induction_on generalizing tree with
  | _ bound ih =>
    subst bound
    cases tree with
    | file content => exact file content
    | directory entries =>
      refine directory entries fun entry member => ih (sizeOf entry.2) ?_ entry.2 rfl
      have smaller := List.sizeOf_lt_of_mem member
      have second : sizeOf entry = 1 + sizeOf entry.1 + sizeOf entry.2 := rfl
      simp only [Tree.directory.sizeOf_spec]
      omega

@[simp] theorem entryAt_nil (tree : Tree ν γ) : tree.entryAt [] = some tree.kind := by cases tree <;> rfl

@[simp] theorem entryAt_file_cons (content : γ) (name : ν) (path : List ν) :
    (Tree.file content).entryAt (name :: path) = none := rfl

theorem entryAt_directory_cons (entries : List (ν × Tree ν γ)) (name : ν) (path : List ν) :
    (Tree.directory entries).entryAt (name :: path) = (find entries name).bind fun tree => tree.entryAt path := by
  rw [entryAt]
  cases find entries name <;> rfl

@[simp] theorem entryAt_empty_cons (name : ν) (path : List ν) :
    (Tree.directory ([] : List (ν × Tree ν γ))).entryAt (name :: path) = none := rfl

theorem fileAt_eq_some {tree : Tree ν γ} {path : List ν} {content : γ} :
    tree.fileAt path = some content ↔ tree.entryAt path = some (.file content) := by
  unfold fileAt
  split
  · rename_i found
    simp [found]
  · rename_i other
    constructor
    · nofun
    · intro found
      exact absurd found (other content)

/-- Above an entry there are directories. -/
theorem entryAt_above {tree : Tree ν γ} {path above : List ν} (held : tree.entryAt path ≠ none)
    (under : above <+: path) (proper : above ≠ path) : tree.entryAt above = some .directory := by
  induction above generalizing tree path with
  | nil =>
    cases path with
    | nil => exact absurd rfl proper
    | cons name path =>
      cases tree with
      | file content => exact absurd rfl held
      | directory entries => rfl
  | cons name above ih =>
    obtain ⟨rest,rfl⟩ := under
    cases tree with
    | file content => exact absurd rfl held
    | directory entries =>
      rw [List.cons_append,entryAt_directory_cons] at held
      rw [entryAt_directory_cons]
      cases found : find entries name with
      | none => exact absurd (by rw [found]; rfl) held
      | some tree =>
        rw [found] at held
        exact ih held (List.prefix_append _ _) fun same => proper (by rw [List.cons_append,← same])

theorem entryAt_mkdirs {tree made : Tree ν γ} {path : List ν} (done : mkdirs tree path = some made) (place : List ν) :
    made.entryAt place = if place <+: path then some .directory else tree.entryAt place := by
  induction path generalizing tree made place with
  | nil =>
    cases tree with
    | file content => cases done
    | directory entries =>
      cases done
      cases place <;> simp [kind]
  | cons name path ih =>
    cases tree with
    | file content => cases done
    | directory entries =>
      rw [mkdirs,Option.map_eq_some_iff] at done
      obtain ⟨inner,done,rfl⟩ := done
      cases place with
      | nil => simp [kind]
      | cons other place =>
        rw [entryAt_directory_cons,put,find_upsert,entryAt_directory_cons]
        simp only [List.cons_prefix_cons]
        by_cases same : name = other
        · subst same
          rw [if_pos rfl,Option.bind_some,ih done]
          by_cases under : place <+: path
          · rw [if_pos under,if_pos ⟨rfl,under⟩]
          · rw [if_neg under,if_neg (fun both => under both.2)]
            cases find entries name with
            | some tree => rfl
            | none =>
              cases place with
              | nil => exact absurd List.nil_prefix under
              | cons => rfl
        · rw [if_neg same,if_neg (fun both => same both.1.symm)]

theorem mkdirs_of_free {tree : Tree ν γ} {path : List ν}
    (free : ∀ above, above <+: path → ∀ content, tree.entryAt above ≠ some (.file content)) :
    ∃ made, mkdirs tree path = some made := by
  induction path generalizing tree with
  | nil =>
    cases tree with
    | file content => exact absurd rfl (free [] List.nil_prefix content)
    | directory entries => exact ⟨_,rfl⟩
  | cons name path ih =>
    cases tree with
    | file content => exact absurd rfl (free [] List.nil_prefix content)
    | directory entries =>
      have inner : ∃ made, mkdirs ((find entries name).getD (.directory [])) path = some made := by
        refine ih fun above under content => ?_
        cases found : find entries name with
        | some tree =>
          have outer := free (name :: above) (List.cons_prefix_cons.mpr ⟨rfl,under⟩) content
          rwa [entryAt_directory_cons,found] at outer
        | none => cases above <;> simp [kind]
      obtain ⟨made,done⟩ := inner
      exact ⟨_,by rw [mkdirs,done,Option.map_some]⟩

theorem entryAt_write {content : γ} {tree written : Tree ν γ} {path : List ν}
    (done : write content tree path = some written) (place : List ν) :
    written.entryAt place = if place = path then some (.file content) else tree.entryAt place := by
  induction path generalizing tree written place with
  | nil =>
    cases tree with
    | directory entries => cases done
    | file former =>
      cases done
      cases place <;> simp [kind]
  | cons name path ih =>
    cases tree with
    | file former => cases done
    | directory entries =>
      -- The written file is below the first name, in a tree of its own or a new one.
      have below : ∃ inner, written = .directory (put entries name inner) ∧ ∀ place,
          inner.entryAt place = if place = path then some (.file content)
            else (find entries name).bind fun tree => tree.entryAt place := by
        rw [write] at done
        cases found : find entries name with
        | some tree =>
          rw [found] at done
          obtain ⟨inner,deeper,rfl⟩ := Option.map_eq_some_iff.mp done
          exact ⟨inner,rfl,fun place => by rw [ih deeper,Option.bind_some]⟩
        | none =>
          rw [found] at done
          obtain ⟨rfl,made⟩ : path = [] ∧ Tree.directory (put entries name (.file content)) = written := by
            simpa using done
          refine ⟨_,made.symm,fun place => ?_⟩
          cases place <;> simp [kind]
      obtain ⟨inner,rfl,inside⟩ := below
      cases place with
      | nil => simp [kind]
      | cons other place =>
        rw [entryAt_directory_cons,put,find_upsert,entryAt_directory_cons]
        by_cases same : name = other
        · subst same
          rw [if_pos rfl,Option.bind_some,inside]
          simp only [List.cons.injEq,true_and]
        · rw [if_neg same,if_neg (fun both => same (List.cons.inj both).1.symm)]

theorem write_of_parent {content : γ} {tree : Tree ν γ} {path : List ν}
    (parent : tree.entryAt path.dropLast = some .directory) (target : tree.entryAt path ≠ some .directory) :
    ∃ written, write content tree path = some written := by
  induction path generalizing tree with
  | nil => exact absurd parent target
  | cons name path ih =>
    cases tree with
    | file former => cases path <;> simp [kind] at parent
    | directory entries =>
      rw [entryAt_directory_cons] at target
      cases found : find entries name with
      | none =>
        cases path with
        | nil => exact ⟨.directory (put entries name (.file content)),by rw [write,found]; rfl⟩
        | cons next path =>
          rw [List.dropLast_cons_cons,entryAt_directory_cons,found] at parent
          cases parent
      | some tree =>
        rw [found,Option.bind_some] at target
        have inner : ∃ written, write content tree path = some written := by
          cases path with
          | nil =>
            cases tree with
            | file former => exact ⟨_,rfl⟩
            | directory => exact absurd rfl target
          | cons next path =>
            rw [List.dropLast_cons_cons,entryAt_directory_cons,found] at parent
            exact ih parent target
        obtain ⟨written,done⟩ := inner
        refine ⟨.directory (put entries name written),?_⟩
        rw [write,found]
        simp only [done,Option.map_some]

/-! ### The files of a tree -/

/-- The files in a directory itself. -/
def filesIn (entries : List (ν × Tree ν γ)) : List (List ν × γ) :=
  entries.filterMap fun entry =>
    match entry.2 with
    | .file content => some ([entry.1],content)
    | .directory _ => none

mutual

/-- The files below a directory with their paths from it: its own first, then those of each directory in it. -/
def walk : Tree ν γ → List (List ν × γ)
  | .file _ => []
  | .directory entries => filesIn entries ++ walkEntries entries

def walkEntries : List (ν × Tree ν γ) → List (List ν × γ)
  | [] => []
  | (name,tree) :: rest => (walk tree).map (fun file => (name :: file.1,file.2)) ++ walkEntries rest

end

omit [DecidableEq ν] in
theorem mem_walkEntries {entries : List (ν × Tree ν γ)} {file : List ν × γ} :
    file ∈ walkEntries entries ↔
      ∃ entry ∈ entries, ∃ inner ∈ walk entry.2, file = (entry.1 :: inner.1,inner.2) := by
  induction entries with
  | nil => simp [walkEntries]
  | cons entry rest ih =>
    obtain ⟨name,tree⟩ := entry
    rw [walkEntries,List.mem_append,ih,List.mem_map]
    simp only [List.mem_cons,exists_eq_or_imp,eq_comm]

omit [DecidableEq ν] in
theorem mem_filesIn {entries : List (ν × Tree ν γ)} {file : List ν × γ} :
    file ∈ filesIn entries ↔ ∃ name, file.1 = [name] ∧ (name,Tree.file file.2) ∈ entries := by
  unfold filesIn
  rw [List.mem_filterMap]
  constructor
  · rintro ⟨⟨name,tree⟩,member,made⟩
    cases tree with
    | file content =>
      cases made
      exact ⟨name,rfl,member⟩
    | directory => cases made
  · rintro ⟨name,single,member⟩
    exact ⟨_,member,by rw [← single]⟩

theorem fileAt_directory {entries : List (ν × Tree ν γ)} (distinct : (keys entries).Nodup) {name : ν} {path : List ν}
    {content : γ} : (Tree.directory entries).fileAt (name :: path) = some content ↔
      ∃ tree, (name,tree) ∈ entries ∧ tree.fileAt path = some content := by
  simp only [fileAt_eq_some,entryAt_directory_cons,Option.bind_eq_some_iff,find_eq_some_iff distinct]

/-- What is walked through are the files of the tree. -/
theorem mem_walk {tree : Tree ν γ} (sound : tree.Sound) {path : List ν} {content : γ} :
    (path,content) ∈ walk tree ↔ path ≠ [] ∧ tree.fileAt path = some content := by
  induction tree using Tree.induct generalizing path with
  | file former =>
    rw [walk]
    cases path <;> simp [fileAt_eq_some]
  | directory entries ih =>
    cases sound with
    | directory distinct deeper =>
      rw [walk,List.mem_append,mem_filesIn,mem_walkEntries]
      cases path with
      | nil => simp
      | cons name path =>
        rw [fileAt_directory distinct]
        constructor
        · rintro (⟨same,single,member⟩ | ⟨entry,member,⟨inner,former⟩,walked,both⟩)
          · obtain ⟨rfl,rfl⟩ := List.cons.inj single
            exact ⟨List.cons_ne_nil _ _,_,member,rfl⟩
          · obtain ⟨⟨rfl,rfl⟩,rfl⟩ : (name = entry.1 ∧ path = inner) ∧ content = former := by simpa using both
            exact ⟨List.cons_ne_nil _ _,_,member,((ih entry member (deeper entry member)).mp walked).2⟩
        · rintro ⟨-,tree,member,held⟩
          cases path with
          | nil =>
            cases tree with
            | file former =>
              cases held
              exact .inl ⟨name,rfl,member⟩
            | directory => cases held
          | cons next path =>
            refine .inr ⟨_,member,⟨_,_⟩,(ih _ member (deeper _ member)).mpr ⟨List.cons_ne_nil _ _,held⟩,rfl⟩

end Tree

section Overlays

open Classical in
/-- Files laid over a view, with the directories above them. -/
noncomputable def overlay (files : List ν → Option γ) (view : List ν → Option (Entry γ)) (path : List ν) :
    Option (Entry γ) :=
  match files path with
  | some content => some (.file content)
  | none => if ∃ file, path <+: file ∧ (files file).isSome then some .directory else view path

/-- No file of the first stands above one of the second. -/
def Apart (files others : List ν → Option γ) : Prop :=
  ∀ above path, (files above).isSome → (others path).isSome → above <+: path → above = path

/-- The files can be laid over the view: none is a directory there, and nothing above one is a file there. -/
def Fits (files : List ν → Option γ) (view : List ν → Option (Entry γ)) : Prop :=
  ∀ path, (files path).isSome → view path ≠ some .directory ∧
    ∀ above, above <+: path → above ≠ path → ∀ content, view above ≠ some (.file content)

omit [DecidableEq ν] in
theorem overlay_file {files : List ν → Option γ} {path : List ν} {content : γ} (held : files path = some content)
    (view : List ν → Option (Entry γ)) : overlay files view path = some (.file content) := by
  rw [overlay,held]

omit [DecidableEq ν] in
theorem overlay_above {files : List ν → Option γ} {path : List ν} (free : files path = none)
    (below : ∃ file, path <+: file ∧ (files file).isSome) (view : List ν → Option (Entry γ)) :
    overlay files view path = some .directory := by
  rw [overlay,free]
  exact if_pos below

omit [DecidableEq ν] in
theorem overlay_beside {files : List ν → Option γ} {path : List ν} (free : files path = none)
    (beside : ¬ ∃ file, path <+: file ∧ (files file).isSome) (view : List ν → Option (Entry γ)) :
    overlay files view path = view path := by
  rw [overlay,free]
  exact if_neg beside

omit [DecidableEq ν] in
theorem overlay_overlay {files others : List ν → Option γ} (apart : Apart others files)
    (view : List ν → Option (Entry γ)) :
    overlay files (overlay others view) = overlay (fun path => (files path).or (others path)) view := by
  funext path
  cases held : files path with
  | some content => rw [overlay_file held,overlay_file (by rw [held]; rfl)]
  | none =>
    have joined : (files path).or (others path) = others path := by rw [held,Option.none_or]
    by_cases below : ∃ file, path <+: file ∧ (files file).isSome
    · obtain ⟨file,under,given⟩ := below
      rw [overlay_above held ⟨file,under,given⟩]
      cases other : others path with
      | some content =>
        have same := apart path file (by rw [other]; rfl) given under
        rw [← same,held] at given
        cases given
      | none =>
        rw [overlay_above (joined.trans other) ⟨file,under,by rw [Option.isSome_or,given,Bool.true_or]⟩]
    · rw [overlay_beside held below]
      cases other : others path with
      | some content => rw [overlay_file other,overlay_file (joined.trans other)]
      | none =>
        by_cases deeper : ∃ file, path <+: file ∧ (others file).isSome
        · obtain ⟨file,under,given⟩ := deeper
          rw [overlay_above other ⟨file,under,given⟩,
            overlay_above (joined.trans other) ⟨file,under,by rw [Option.isSome_or,given,Bool.or_true]⟩]
        · rw [overlay_beside other deeper,overlay_beside (joined.trans other)]
          rintro ⟨file,under,given⟩
          rw [Option.isSome_or,Bool.or_eq_true] at given
          rcases given with given | given
          · exact below ⟨file,under,given⟩
          · exact deeper ⟨file,under,given⟩

omit [DecidableEq ν] in
/-- Files still fit over what others were laid over. -/
theorem Fits.overlay {files others : List ν → Option γ} {view : List ν → Option (Entry γ)} (fits : Fits files view)
    (below : Apart others files) (above : Apart files others) : Fits files (overlay others view) := by
  intro path given
  obtain ⟨target,parents⟩ := fits path given
  constructor
  · cases other : others path with
    | some content => rw [overlay_file other]; nofun
    | none =>
      by_cases deeper : ∃ file, path <+: file ∧ (others file).isSome
      · obtain ⟨file,under,held⟩ := deeper
        have same := above path file given held under
        rw [← same,other] at held
        cases held
      · rwa [overlay_beside other deeper]
  · intro parent under proper content
    cases other : others parent with
    | some former => exact absurd (below parent path (by rw [other]; rfl) given under) proper
    | none =>
      by_cases deeper : ∃ file, parent <+: file ∧ (others file).isSome
      · rw [overlay_above other deeper]
        nofun
      · rw [overlay_beside other deeper]
        exact parents parent under proper content

omit [DecidableEq ν] in
theorem Apart.mono {files others fewer less : List ν → Option γ} (apart : Apart files others)
    (first : ∀ path, (fewer path).isSome → (files path).isSome)
    (second : ∀ path, (less path).isSome → (others path).isSome) : Apart fewer less :=
  fun above path held given => apart above path (first above held) (second path given)

omit [DecidableEq ν] in
theorem Fits.mono {files fewer : List ν → Option γ} {view : List ν → Option (Entry γ)} (fits : Fits files view)
    (first : ∀ path, (fewer path).isSome → (files path).isSome) : Fits fewer view :=
  fun path given => fits path (first path given)

/-- The files under an overlay are those of the layer and, at the other paths, those below it. -/
theorem fileAt_overlay {tree laid : Tree ν γ} {files : List ν → Option γ} (fits : Fits files tree.entryAt)
    (view : laid.entryAt = overlay files tree.entryAt) (path : List ν) :
    laid.fileAt path = (files path).or (tree.fileAt path) := by
  cases given : files path with
  | some content =>
    rw [Option.some_or,Tree.fileAt_eq_some,view]
    exact overlay_file given _
  | none =>
    rw [Option.none_or]
    by_cases deeper : ∃ file, path <+: file ∧ (files file).isSome
    · have free : tree.fileAt path = none := by
        obtain ⟨file,under,held⟩ := deeper
        rw [Option.eq_none_iff_forall_ne_some]
        intro content kept
        refine (fits file held).2 path under ?_ content (Tree.fileAt_eq_some.mp kept)
        rintro rfl
        rw [given] at held
        cases held
      rw [free,Tree.fileAt,view,overlay_above given deeper]
    · rw [Tree.fileAt,view,overlay_beside given deeper,Tree.fileAt]

/-- Layers of files, each over the ones before it. -/
def layered : List (List ν → Option γ) → List ν → Option γ
  | [],_ => none
  | layer :: rest,path => (layered rest path).or (layer path)

omit [DecidableEq ν] in
theorem isSome_layered {layers : List (List ν → Option γ)} {path : List ν} :
    (layered layers path).isSome ↔ ∃ layer ∈ layers, (layer path).isSome := by
  induction layers with
  | nil => simp [layered]
  | cons layer rest ih =>
    rw [layered,Option.isSome_or,Bool.or_eq_true,ih]
    simp only [List.mem_cons,exists_eq_or_imp,or_comm]

/-- What puts one layer over a tree puts all of them, in order. -/
theorem foldlM_overlay {α : Type} {lay : Tree ν γ → α → Option (Tree ν γ)} {files : α → List ν → Option γ} {items : List α}
    (step : ∀ item ∈ items, ∀ tree : Tree ν γ, Apart (files item) (files item) → Fits (files item) tree.entryAt →
      ∃ laid, lay tree item = some laid ∧ laid.entryAt = overlay (files item) tree.entryAt)
    {tree : Tree ν γ} (apart : Apart (layered (items.map files)) (layered (items.map files)))
    (fits : Fits (layered (items.map files)) tree.entryAt) :
    ∃ laid, items.foldlM lay tree = some laid ∧ laid.entryAt = overlay (layered (items.map files)) tree.entryAt := by
  induction items generalizing tree with
  | nil =>
    refine ⟨tree,rfl,funext fun path => (overlay_beside rfl ?_ _).symm⟩
    rintro ⟨file,-,given⟩
    cases given
  | cons item rest ih =>
    have first (path : List ν) (given : (files item path).isSome) :
        (layered ((item :: rest).map files) path).isSome :=
      isSome_layered.mpr ⟨_,List.mem_cons_self,given⟩
    have later (path : List ν) (given : (layered (rest.map files) path).isSome) :
        (layered ((item :: rest).map files) path).isSome := by
      rw [List.map_cons,layered,Option.isSome_or,given,Bool.true_or]
    obtain ⟨once,done,view⟩ := step item List.mem_cons_self tree (apart.mono first first) (fits.mono first)
    have below : Fits (layered (rest.map files)) once.entryAt := by
      rw [view]
      exact (fits.mono later).overlay (apart.mono first later) (apart.mono later first)
    obtain ⟨laid,finished,upper⟩ :=
      ih (fun other member => step other (List.mem_cons_of_mem _ member)) (apart.mono later later) below
    refine ⟨laid,?_,?_⟩
    · rw [List.foldlM_cons,done]
      exact finished
    · rw [upper,view,overlay_overlay (apart.mono first later)]
      rfl

/-- A file with the directories above it. -/
def place (tree : Tree ν γ) (file : List ν × γ) : Option (Tree ν γ) :=
  (tree.mkdirs file.1.dropLast).bind fun made => made.write file.2 file.1

/-- One file as a layer. -/
def single (file : List ν × γ) (path : List ν) : Option γ := if path = file.1 then some file.2 else none

theorem isSome_single {file : List ν × γ} {path : List ν} : (single file path).isSome ↔ path = file.1 := by
  unfold single
  split <;> simp [*]

/-- One file is placed as an overlay, where it fits. -/
theorem entryAt_place {tree : Tree ν γ} {file : List ν × γ} (named : file.1 ≠ [])
    (fits : Fits (single file) tree.entryAt) :
    ∃ placed, place tree file = some placed ∧ placed.entryAt = overlay (single file) tree.entryAt := by
  obtain ⟨path,content⟩ := file
  obtain ⟨init,last,rfl⟩ := (List.eq_nil_or_concat' path).resolve_left named
  obtain ⟨target,parents⟩ := fits (init ++ [last]) (isSome_single.mpr rfl)
  have shorter : ¬ init ++ [last] <+: init := by
    intro under
    have longer := under.length_le
    rw [List.length_append,List.length_singleton] at longer
    omega
  have free : ∀ above, above <+: init → ∀ content, tree.entryAt above ≠ some (.file content) := by
    intro above under
    exact parents above (under.trans (List.prefix_append _ _)) fun same => shorter (same ▸ under)
  obtain ⟨made,done⟩ := Tree.mkdirs_of_free free
  have view := Tree.entryAt_mkdirs done
  obtain ⟨written,finished⟩ := @Tree.write_of_parent ν γ _ content made (init ++ [last])
    (by rw [List.dropLast_concat,view,if_pos List.prefix_rfl]) (by rwa [view,if_neg shorter])
  refine ⟨written,by rw [place,List.dropLast_concat,done]; exact finished,funext fun other => ?_⟩
  rw [Tree.entryAt_write finished,view]
  by_cases same : other = init ++ [last]
  · rw [if_pos same,overlay_file (if_pos same)]
  rw [if_neg same]
  by_cases under : other <+: init
  · rw [if_pos under]
    exact (overlay_above (if_neg same) ⟨_,under.trans (List.prefix_append _ _),isSome_single.mpr rfl⟩ _).symm
  · rw [if_neg under]
    refine (overlay_beside (if_neg same) ?_ _).symm
    rintro ⟨held,prefixed,given⟩
    rw [isSome_single.mp given,List.prefix_concat_iff] at prefixed
    exact prefixed.elim same under

theorem layered_single {files : List (List ν × γ)} {path : List ν} {content : γ}
    (given : layered (files.map single) path = some content) : (path,content) ∈ files := by
  induction files with
  | nil => cases given
  | cons file rest ih =>
    rw [List.map_cons,layered,Option.or_eq_some_iff] at given
    rcases given with later | ⟨-,here⟩
    · exact List.mem_cons_of_mem _ (ih later)
    · unfold single at here
      split at here
      · rename_i same
        cases here
        rw [same]
        exact List.mem_cons_self
      · cases here

/-- Files listed each with its only content are the layer they make. -/
theorem layered_single_eq {files : List (List ν × γ)} {held : List ν → Option γ}
    (listed : ∀ path content, (path,content) ∈ files ↔ held path = some content) :
    layered (files.map single) = held := by
  funext path
  cases given : layered (files.map single) path with
  | some content => exact ((listed path content).mp (layered_single given)).symm
  | none =>
    cases kept : held path with
    | none => rfl
    | some content =>
      have some : (layered (files.map single) path).isSome := by
        rw [isSome_layered]
        exact ⟨_,List.mem_map_of_mem ((listed path content).mpr kept),isSome_single.mpr rfl⟩
      rw [given] at some
      cases some

end Overlays

end OasisPlatform.DirectoryTrees
