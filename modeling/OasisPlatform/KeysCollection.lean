import OasisPlatform.Dictionaries
import OasisPlatform.PathText
import OasisPlatform.SubjectAtRisk

/-!
The distributed keys lookup. Each chunk of the exposure is looked up on its own
and its output directory stored as one archive (`prepareKeysFileChunk`);
`collectKeys` extracts the archives side by side and merges the files of the same
name. For a lookup that treats each subject by itself, the keys and the key errors
are stored with exactly the rows of the subjects, whatever the number of chunks
(`distributedLookup_transparent`).
-/
namespace OasisPlatform.KeysCollection
open OasisPlatform.ArrayOps OasisPlatform.Dictionaries OasisPlatform.PathText OasisPlatform.SubjectAtRisk
set_option linter.unusedSimpArgs false

variable {ι δ ρ : Type} [DecidableEq ι]

/-- A tabular file: empty or unreadable, or a table with rows. -/
inductive TableFile (ρ : Type) where
  | unreadable
  | table (rows : List ρ)
  deriving DecidableEq, Repr

/-- The files of a directory by name. -/
abbrev Directory (ρ : Type) := List (Text × TableFile ρ)

/-- The rows of a file, none where it is missing or unreadable. -/
def rowsOf : Option (TableFile ρ) → List ρ
  | some (.table rows) => rows
  | _ => []

/-- The compression of worker archives, `ARCHIVE_COMPRESSION_TYPE`. -/
inductive Compression where
  | gz
  | zst
  deriving DecidableEq, Repr

def archiveSuffix : Compression → Text
  | .gz => ['t','a','r','.','g','z']
  | .zst => ['t','a','r','.','z','s','t']

/-- Archived directories under their references, below a location. -/
structure Filestore (ρ : Type) where
  location : Text
  objects : List (Text × Directory ρ)

/-- The reference that `put` returns for a file name. -/
def Filestore.reference (store : Filestore ρ) (filename : Text) : Text := store.location ++ '/' :: filename

/-- Stores a directory, in place of one stored under the same name. -/
def Filestore.put (store : Filestore ρ) (filename : Text) (dir : Directory ρ) : Text × Filestore ρ :=
  (store.reference filename,{ store with objects := (store.reference filename,dir) :: store.objects })

def Filestore.extract (store : Filestore ρ) (reference : Text) : Option (Directory ρ) :=
  (store.objects.find? fun object => object.1 = reference).map Prod.snd

/-- What the names of all chunk directories begin with. -/
def lookupText : Text := ['l','o','o','k','u','p','-']

/-- The name under which a chunk's output directory is archived. -/
def archiveName (compression : Compression) (chunkIdx : Nat) : Text :=
  lookupText ++ decimal (chunkIdx + 1) ++ '.' :: archiveSuffix compression

/-- Looks up one chunk and stores its output directory; an empty chunk is
    skipped and stores an empty directory. -/
def prepareKeysFileChunk (generateKeyFiles : List (SarRow ι δ) → Directory ρ) (compression : Compression)
    (store : Filestore ρ) (sarDf : List (SarRow ι δ)) (numChunks chunkIdx : Nat) : Option (Text × Filestore ρ) := do
  let chunk ← splitSubjectAtRiskData sarDf numChunks chunkIdx
  let chunkTargetDir : Directory ρ := if chunk.isEmpty then [] else generateKeyFiles chunk
  some (store.put (archiveName compression chunkIdx) chunkTargetDir)

/-- The directory that an archive is extracted to:
    `tar.name.rstrip(''.join(tar.suffixes))`. -/
def chunkDirname (tar : Text) : Text := rstrip (pathName tar) (suffixes (pathName tar)).flatten

/-- The glob `lookup-[0-9]*`. -/
def lookupGlob (dirname : Text) : Bool :=
  lookupText.isPrefixOf dirname &&
    match dirname.drop lookupText.length with
    | c :: _ => c.isDigit
    | [] => false

/-- Extracts a directory, over the files of one that is already there. -/
def extractChunk (chunksDir : List (Text × Directory ρ)) (dirname : Text) (content : Directory ρ) :
    List (Text × Directory ρ) :=
  if chunksDir.any fun dir => dir.1 = dirname then
    chunksDir.map fun dir => if dir.1 = dirname then (dir.1,merge dir.2 content) else dir
  else chunksDir ++ [(dirname,content)]

/-- `_merge_parquet_streaming` (and `_merge_csv_streaming`): the readable files
    concatenated, each row kept where it first appears; nothing is written when
    no file is readable. -/
def mergeStreaming [DecidableEq ρ] (paths : List (TableFile ρ)) : Option (TableFile ρ) :=
  let valid := paths.filterMap fun
    | .table rows => some rows
    | .unreadable => none
  if valid.isEmpty then none else some (.table (uniquesFrom [] valid.flatten))

def mergeDataframes [DecidableEq ρ] (paths : List (TableFile ρ)) (fileType : Text) : Option (TableFile ρ) :=
  if paths.isEmpty then none
  else if fileType = ['c','s','v'] then mergeStreaming paths
  else if fileType = ['p','a','r','q','u','e','t'] then mergeStreaming paths
  else none

def takeFirst (paths : List (TableFile ρ)) : Option (TableFile ρ) := paths.head?

/-- The files of one name, each under the directory that it is in. -/
def filePaths (chunksDir : List (Text × Directory ρ)) (file : Text) : List (Text × TableFile ρ) :=
  (chunksDir.filter fun dir => lookupGlob dir.1).filterMap fun dir =>
    (find dir.2 file).map fun content => (dir.1,content)

/-- What the merged directory has under a file name. -/
def mergeFile [DecidableEq ρ] (natsorted : List (Text × TableFile ρ) → List (Text × TableFile ρ))
    (chunksDir : List (Text × Directory ρ)) (file : Text) : Option (TableFile ρ) :=
  let fileChunks := (natsorted (filePaths chunksDir file)).map Prod.snd
  if (filePaths chunksDir file).isEmpty then none
  else if stem file ∈ [['e','v','e','n','t','s'],['o','c','c','u','r','r','e','n','c','e'],['e','n','s','e','m','b','l','e','_','m','a','p','p','i','n','g']] then takeFirst fileChunks
  else if (suffix file).drop 1 ∈ [['c','s','v'],['p','a','r','q','u','e','t']] then
    mergeDataframes fileChunks ((suffix file).drop 1)
  else none

/-- The merged directory. It becomes a path only in the loop over the files, and `as_posix` of the
    text it is before raises. -/
def mergeChunks [DecidableEq ρ] (natsorted : List (Text × TableFile ρ) → List (Text × TableFile ρ))
    (chunksDir : List (Text × Directory ρ)) : Option (Directory ρ) :=
  let fileNames := uniquesFrom [] ((chunksDir.filter fun dir => lookupGlob dir.1).flatMap fun dir => keys dir.2)
  if fileNames = [] then none
  else some (fileNames.filterMap fun file => (mergeFile natsorted chunksDir file).map fun merged => (file,merged))

/-- Extracts every chunk and merges the files of each name. -/
def collectKeys [DecidableEq ρ] (natsorted : List (Text × TableFile ρ) → List (Text × TableFile ρ)) (store : Filestore ρ)
    (chunkTars : List Text) : Option (Directory ρ) := do
  let chunksDir ← chunkTars.foldlM (fun dirs tar => do
    let content ← store.extract tar
    some (extractChunk dirs (chunkDirname tar) content)) []
  mergeChunks natsorted chunksDir

/-- The lookup of an exposure in `numChunks` chunks. -/
def distributedLookup [DecidableEq ρ] (generateKeyFiles : List (SarRow ι δ) → Directory ρ)
    (natsorted : List (Text × TableFile ρ) → List (Text × TableFile ρ)) (compression : Compression)
    (store : Filestore ρ) (sarDf : List (SarRow ι δ)) (numChunks : Nat) : Option (Directory ρ) := do
  let (chunkTars,stored) ← (List.range numChunks).foldlM (fun (tars,current) chunkIdx => do
    let (tar,next) ← prepareKeysFileChunk generateKeyFiles compression current sarDf numChunks chunkIdx
    some (tars ++ [tar],next)) (([] : List Text),store)
  collectKeys natsorted stored chunkTars

/-- The directory of a chunk: `lookup-` and the number of the chunk. -/
def lookupDir (chunkIdx : Nat) : Text := lookupText ++ decimal (chunkIdx + 1)

theorem archiveName_eq (compression : Compression) (chunkIdx : Nat) :
    archiveName compression chunkIdx = lookupDir chunkIdx ++ '.' :: archiveSuffix compression := rfl

theorem lookupDir_injective {i j : Nat} (same : lookupDir i = lookupDir j) : i = j := by
  have digits := decimal_injective (List.append_cancel_left same)
  omega

/-- Digits are none of the characters of a given text without digits. -/
theorem decimal_notMem {n : Nat} {c : Char} (other : c.isDigit = false) : c ∉ decimal n := by
  intro member
  have := decimal_digit member
  simp [other] at this

theorem lookupDir_notMem {chunkIdx : Nat} {c : Char} (other : c.isDigit = false) (fresh : c ∉ lookupText) :
    c ∉ lookupDir chunkIdx := by
  rw [lookupDir,List.mem_append,not_or]
  exact ⟨fresh,decimal_notMem other⟩

theorem lookupDir_last (chunkIdx : Nat) : ∃ last, (lookupDir chunkIdx).getLast? = some last ∧ last.isDigit := by
  obtain ⟨last,ends⟩ : ∃ last, (decimal (chunkIdx + 1)).getLast? = some last :=
    Option.ne_none_iff_exists'.mp (by simp [decimal_ne_nil])
  refine ⟨last,?_,decimal_digit (List.mem_of_getLast? ends)⟩
  rw [lookupDir,List.getLast?_append,ends]
  rfl

theorem archiveName_suffixes (compression : Compression) (chunkIdx : Nat) :
    (suffixes (archiveName compression chunkIdx)).flatten = '.' :: archiveSuffix compression := by
  have noDot : '.' ∉ lookupDir chunkIdx := lookupDir_notMem rfl (by decide)
  have starts : (archiveName compression chunkIdx).dropWhile (· = '.') = archiveName compression chunkIdx := by
    simp [archiveName,lookupText]
  have ends : (archiveName compression chunkIdx).getLast? ≠ some '.' := by
    rw [archiveName_eq,List.getLast?_append]
    cases compression <;> simp [archiveSuffix]
  rw [suffixes,if_neg ends,starts,archiveName_eq,splitOnChar_append noDot]
  cases compression <;> rfl

/-- Stripping characters, not a suffix, still leaves the directory: no digit is
    among the characters of `.tar.gz` or `.tar.zst`. -/
theorem chunkDirname_archive (location : Text) (compression : Compression) (chunkIdx : Nat) :
    chunkDirname (location ++ '/' :: archiveName compression chunkIdx) = lookupDir chunkIdx := by
  have flat : '/' ∉ archiveName compression chunkIdx := by
    rw [archiveName_eq,List.mem_append,not_or]
    refine ⟨lookupDir_notMem rfl (by decide),?_⟩
    cases compression <;> decide
  obtain ⟨last,ends,digit⟩ := lookupDir_last chunkIdx
  rw [chunkDirname,pathName_append flat,archiveName_suffixes,archiveName_eq]
  apply rstrip_append (fun c member => member) ends
  intro member
  have letters : ('.' :: archiveSuffix compression).all (fun c => !c.isDigit) = true := by
    cases compression <;> rfl
  have letter := List.all_eq_true.mp letters last member
  rw [digit] at letter
  cases letter

theorem lookupGlob_lookupDir (chunkIdx : Nat) : lookupGlob (lookupDir chunkIdx) = true := by
  obtain ⟨first,rest,digits⟩ := List.exists_cons_of_ne_nil (decimal_ne_nil (chunkIdx + 1))
  have digit : first.isDigit := decimal_digit (n := chunkIdx + 1) (by rw [digits]; simp)
  rw [lookupDir,digits]
  simp [lookupGlob,digit]

theorem reference_injective {store : Filestore ρ} {compression : Compression} {i j : Nat}
    (same : store.reference (archiveName compression i) = store.reference (archiveName compression j)) : i = j := by
  have dirs := congrArg chunkDirname same
  simp only [Filestore.reference,chunkDirname_archive] at dirs
  exact lookupDir_injective dirs

section Chunks
variable (generateKeyFiles : List (SarRow ι δ) → Directory ρ) (compression : Compression)

/-- The output directory of a chunk. -/
def chunkContent (sarDf : List (SarRow ι δ)) (numChunks chunkIdx : Nat) : Directory ρ :=
  let chunk := sarDf.filter fun row => chunkOf (locIds sarDf) numChunks row.locId = chunkIdx
  if chunk.isEmpty then [] else generateKeyFiles chunk

theorem prepareKeysFileChunk_eq (store : Filestore ρ) (sarDf : List (SarRow ι δ)) {numChunks chunkIdx : Nat}
    (inside : chunkIdx < numChunks) :
    prepareKeysFileChunk generateKeyFiles compression store sarDf numChunks chunkIdx =
      some (store.put (archiveName compression chunkIdx)
        (chunkContent generateKeyFiles sarDf numChunks chunkIdx)) := by
  rw [prepareKeysFileChunk,splitSubjectAtRiskData_eq sarDf inside]
  rfl

/-- The filestore after the chunks in a list were stored. -/
def storedChunks (content : Nat → Directory ρ) (store : Filestore ρ) (chunks : List Nat) : Filestore ρ :=
  { store with objects := (chunks.reverse.map fun c => (store.reference (archiveName compression c),content c)) ++
      store.objects }

theorem prepareAll_eq (store : Filestore ρ) (sarDf : List (SarRow ι δ)) {numChunks : Nat} (chunks : List Nat)
    (inside : ∀ c ∈ chunks, c < numChunks) (tars : List Text) :
    chunks.foldlM (fun (tars,current) chunkIdx => do
        let (tar,next) ← prepareKeysFileChunk generateKeyFiles compression current sarDf numChunks chunkIdx
        some (tars ++ [tar],next)) (tars,store) =
      some (tars ++ chunks.map fun c => store.reference (archiveName compression c),
        storedChunks compression (chunkContent generateKeyFiles sarDf numChunks) store chunks) := by
  induction chunks generalizing tars store with
  | nil => simp [storedChunks]
  | cons c rest ih =>
    have here := prepareKeysFileChunk_eq generateKeyFiles compression store sarDf (inside c (by simp))
    have later := ih (store.put (archiveName compression c) (chunkContent generateKeyFiles sarDf numChunks c)).2
      (fun d member => inside d (by simp [member])) (tars ++ [store.reference (archiveName compression c)])
    rw [List.foldlM_cons]
    simp only [here,Option.bind_eq_bind,Option.bind_some]
    simp only [Option.bind_eq_bind,Filestore.put] at later ⊢
    rw [later]
    simp [storedChunks,Filestore.reference]

/-- Later archives have other names, so that an archive is extracted as it was
    stored. -/
theorem extract_storedChunks (content : Nat → Directory ρ) (store : Filestore ρ) {chunks : List Nat} {c : Nat}
    (member : c ∈ chunks) :
    (storedChunks compression content store chunks).extract (store.reference (archiveName compression c)) =
      some (content c) := by
  have listed : c ∈ chunks.reverse := List.mem_reverse.mpr member
  unfold Filestore.extract storedChunks
  generalize chunks.reverse = recent at listed
  induction recent with
  | nil => cases listed
  | cons d rest ih =>
    by_cases same : d = c
    · simp [same]
    · have other : ¬ store.reference (archiveName compression d) = store.reference (archiveName compression c) :=
        fun equal => same (reference_injective equal)
      have later : c ∈ rest := by
        rcases List.mem_cons.mp listed with rfl | later
        · exact absurd rfl same
        · exact later
      simpa [other] using ih later

/-- Each archive is extracted to a directory of its own. -/
theorem extractAll_eq (content : Nat → Directory ρ) (store stored : Filestore ρ) (chunks : List Nat)
    (distinct : chunks.Nodup)
    (kept : ∀ c ∈ chunks, stored.extract (store.reference (archiveName compression c)) = some (content c))
    (dirs : List (Text × Directory ρ)) (fresh : ∀ dir ∈ dirs, ∀ c ∈ chunks, dir.1 ≠ lookupDir c) :
    (chunks.map fun c => store.reference (archiveName compression c)).foldlM (fun dirs tar => do
        let content ← stored.extract tar
        some (extractChunk dirs (chunkDirname tar) content)) dirs =
      some (dirs ++ chunks.map fun c => (lookupDir c,content c)) := by
  induction chunks generalizing dirs with
  | nil => simp
  | cons c rest ih =>
    obtain ⟨notLater,distinctRest⟩ := List.nodup_cons.mp distinct
    have dirname : chunkDirname (store.reference (archiveName compression c)) = lookupDir c :=
      chunkDirname_archive _ _ _
    have appended : extractChunk dirs (lookupDir c) (content c) = dirs ++ [(lookupDir c,content c)] := by
      rw [extractChunk,if_neg]
      simpa using fun dir listed => fresh (lookupDir c,dir) listed c (by simp) rfl
    have later := ih distinctRest (fun d member => kept d (by simp [member])) (dirs ++ [(lookupDir c,content c)])
      (by
        intro dir listed d member
        rcases List.mem_append.mp listed with before | last
        · exact fresh dir before d (by simp [member])
        · rw [List.mem_singleton.mp last]
          intro equal
          rw [lookupDir_injective equal] at notLater
          exact notLater member)
    rw [List.map_cons,List.foldlM_cons]
    simp only [kept c (by simp),dirname,appended,Option.bind_eq_bind,Option.bind_some] at later ⊢
    rw [later]
    simp

end Chunks

/-! ### Merging -/

section Merging
variable [DecidableEq ρ]

/-- A merged file has the rows of the files it is merged from, each once. -/
theorem rowsOf_mergeStreaming (paths : List (TableFile ρ)) :
    rowsOf (mergeStreaming paths) = uniquesFrom [] (paths.flatMap fun path => rowsOf (some path)) := by
  have valid : (paths.filterMap fun
      | .table rows => some rows
      | .unreadable => none).flatten = paths.flatMap fun path => rowsOf (some path) := by
    induction paths with
    | nil => rfl
    | cons path rest ih => cases path <;> simp [rowsOf,ih]
  rw [← valid]
  simp only [mergeStreaming]
  split_ifs with empty
  · rw [List.isEmpty_iff.mp empty]
    rfl
  · rfl

/-- The files that chunks are merged by rows for: `csv` or `parquet` tables other
    than the static ones, of which the first is taken. -/
def MergedByRows (file : Text) : Prop :=
  stem file ∉ [['e','v','e','n','t','s'],['o','c','c','u','r','r','e','n','c','e'],
    ['e','n','s','e','m','b','l','e','_','m','a','p','p','i','n','g']] ∧
    (suffix file).drop 1 ∈ [['c','s','v'],['p','a','r','q','u','e','t']]

theorem mergeDataframes_eq {paths : List (TableFile ρ)} {fileType : Text}
    (known : fileType ∈ [['c','s','v'],['p','a','r','q','u','e','t']]) :
    mergeDataframes paths fileType = mergeStreaming paths := by
  unfold mergeDataframes
  split_ifs with empty csv parquet
  · rw [List.isEmpty_iff.mp empty]
    rfl
  · rfl
  · rfl
  · simp [csv,parquet] at known

theorem mergeStreaming_table {paths : List (TableFile ρ)} {rows : List ρ} (member : .table rows ∈ paths) :
    ∃ merged, mergeStreaming paths = some (.table merged) := by
  have valid : (paths.filterMap fun
      | .table rows => some rows
      | .unreadable => none) ≠ [] := List.ne_nil_of_mem (List.mem_filterMap.mpr ⟨_,member,rfl⟩)
  exact ⟨_,by rw [mergeStreaming,if_neg (mt List.isEmpty_iff.mp valid)]⟩

omit [DecidableEq ρ] in
theorem mem_filePaths {content : Nat → Directory ρ} {chunks : List Nat} {file : Text} {path : Text × TableFile ρ} :
    path ∈ filePaths (chunks.map fun c => (lookupDir c,content c)) file ↔
      ∃ c ∈ chunks, find (content c) file = some path.2 ∧ lookupDir c = path.1 := by
  have found : (chunks.map fun c => (lookupDir c,content c)).filter (fun dir => lookupGlob dir.1) =
      chunks.map fun c => (lookupDir c,content c) := by
    rw [List.filter_eq_self]
    intro dir listed
    obtain ⟨c,_,rfl⟩ := List.mem_map.mp listed
    exact lookupGlob_lookupDir c
  rw [filePaths,found,List.mem_filterMap]
  constructor
  · rintro ⟨dir,inDirs,here⟩
    obtain ⟨c,inside,rfl⟩ := List.mem_map.mp inDirs
    obtain ⟨stored,present,rfl⟩ := Option.map_eq_some_iff.mp here
    exact ⟨c,inside,present,rfl⟩
  · rintro ⟨c,inside,present,dirname⟩
    exact ⟨_,List.mem_map_of_mem inside,by simp [present,dirname]⟩

theorem mergeFile_eq {natsorted : List (Text × TableFile ρ) → List (Text × TableFile ρ)}
    (natural : ∀ paths, (natsorted paths).Perm paths) {file : Text} (byRows : MergedByRows file)
    (chunksDir : List (Text × Directory ρ)) :
    mergeFile natsorted chunksDir file = mergeStreaming ((natsorted (filePaths chunksDir file)).map Prod.snd) := by
  simp only [mergeFile,if_neg byRows.1,if_pos byRows.2,mergeDataframes_eq byRows.2]
  split_ifs with empty
  · have sorted := natural (filePaths chunksDir file)
    rw [List.isEmpty_iff.mp empty] at sorted ⊢
    rw [sorted.eq_nil]
    rfl
  · rfl

theorem mergeFile_cases {natsorted : List (Text × TableFile ρ) → List (Text × TableFile ρ)}
    (natural : ∀ paths, (natsorted paths).Perm paths) {file : Text} (byRows : MergedByRows file)
    (chunksDir : List (Text × Directory ρ)) :
    mergeFile natsorted chunksDir file = none ∨ ∃ rows, mergeFile natsorted chunksDir file = some (.table rows) := by
  rw [mergeFile_eq natural byRows,mergeStreaming]
  split_ifs
  · exact .inl rfl
  · exact .inr ⟨_,rfl⟩

/-- Over the chunk directories, a file merged by rows has exactly the rows it has in
    some chunk, each once. -/
theorem mergeFile_rows {natsorted : List (Text × TableFile ρ) → List (Text × TableFile ρ)}
    (natural : ∀ paths, (natsorted paths).Perm paths) {file : Text} (byRows : MergedByRows file)
    (content : Nat → Directory ρ) (chunks : List Nat) :
    (rowsOf (mergeFile natsorted (chunks.map fun c => (lookupDir c,content c)) file)).Nodup ∧
      ∀ row, row ∈ rowsOf (mergeFile natsorted (chunks.map fun c => (lookupDir c,content c)) file) ↔
        ∃ c ∈ chunks, row ∈ rowsOf (find (content c) file) := by
  rw [mergeFile_eq natural byRows,rowsOf_mergeStreaming]
  refine ⟨uniquesFrom_nodup [] _ List.nodup_nil,fun row => ?_⟩
  simp only [mem_uniquesFrom,List.not_mem_nil,false_or,List.mem_flatMap,List.mem_map,exists_exists_and_eq_and,
    (natural _).mem_iff,mem_filePaths]
  constructor
  · rintro ⟨path,⟨c,inside,present,-⟩,member⟩
    exact ⟨c,inside,by rwa [present]⟩
  · rintro ⟨c,inside,member⟩
    cases present : find (content c) file with
    | none =>
      rw [present] at member
      cases member
    | some stored => exact ⟨(lookupDir c,stored),⟨c,inside,present,rfl⟩,by rwa [present] at member⟩

/-- A file that is a table in some chunk is a table when merged. -/
theorem mergeFile_table {natsorted : List (Text × TableFile ρ) → List (Text × TableFile ρ)}
    (natural : ∀ paths, (natsorted paths).Perm paths) {file : Text} (byRows : MergedByRows file)
    {content : Nat → Directory ρ} {chunks : List Nat} {c : Nat} (inside : c ∈ chunks) {rows : List ρ}
    (present : find (content c) file = some (.table rows)) :
    ∃ merged, mergeFile natsorted (chunks.map fun c => (lookupDir c,content c)) file = some (.table merged) := by
  rw [mergeFile_eq natural byRows]
  have listed : (lookupDir c,.table rows) ∈ natsorted (filePaths (chunks.map fun c => (lookupDir c,content c)) file) :=
    (natural _).mem_iff.mpr (mem_filePaths.mpr ⟨c,inside,present,rfl⟩)
  exact mergeStreaming_table (List.mem_map.mpr ⟨_,listed,rfl⟩)

omit [DecidableEq ρ] in
theorem find_filterMap (names : List Text) (content : Text → Option (TableFile ρ)) (file : Text) :
    find (names.filterMap fun name => (content name).map fun stored => (name,stored)) file =
      if file ∈ names then content file else none := by
  induction names with
  | nil => rfl
  | cons name rest ih =>
    cases stored : content name with
    | none =>
      rw [List.filterMap_cons_none (by rw [stored]; rfl),ih]
      by_cases same : file = name
      · simp [same,stored]
      · simp [same]
    | some value =>
      rw [List.filterMap_cons_some (by rw [stored]; rfl),find_cons,ih]
      by_cases same : name = file
      · simp [← same,stored]
      · simp [same,Ne.symm same]

/-- A file is merged as it is by itself, and there is a directory where a chunk has any file. -/
theorem mergeChunks_find (natsorted : List (Text × TableFile ρ) → List (Text × TableFile ρ))
    {content : Nat → Directory ρ} {chunks : List Nat} {c : Nat} (inside : c ∈ chunks) (written : content c ≠ []) :
    ∃ dir, mergeChunks natsorted (chunks.map fun c => (lookupDir c,content c)) = some dir ∧
      ∀ file, find dir file = mergeFile natsorted (chunks.map fun c => (lookupDir c,content c)) file := by
  obtain ⟨⟨name,first⟩,rest,files⟩ := List.exists_cons_of_ne_nil written
  have chunk : (lookupDir c,content c) ∈
      (chunks.map fun c => (lookupDir c,content c)).filter fun dir => lookupGlob dir.1 :=
    List.mem_filter.mpr ⟨List.mem_map_of_mem inside,lookupGlob_lookupDir c⟩
  generalize chunks.map (fun c => (lookupDir c,content c)) = chunksDir at chunk ⊢
  have named : name ∈ uniquesFrom [] ((chunksDir.filter fun dir => lookupGlob dir.1).flatMap fun dir => keys dir.2) := by
    rw [mem_uniquesFrom,List.mem_flatMap]
    exact .inr ⟨_,chunk,by rw [files]; exact List.mem_cons_self⟩
  have listed {file : Text} {merged : TableFile ρ} (stored : mergeFile natsorted chunksDir file = some merged) :
      file ∈ uniquesFrom [] ((chunksDir.filter fun dir => lookupGlob dir.1).flatMap fun dir => keys dir.2) := by
    obtain ⟨path,found⟩ : ∃ path, path ∈ filePaths chunksDir file := by
      by_contra none
      have empty : filePaths chunksDir file = [] := List.eq_nil_iff_forall_not_mem.mpr (not_exists.mp none)
      simp [mergeFile,empty] at stored
    obtain ⟨dir,inDirs,present⟩ := List.mem_filterMap.mp found
    obtain ⟨held,there,-⟩ := Option.map_eq_some_iff.mp present
    rw [mem_uniquesFrom,List.mem_flatMap]
    exact .inr ⟨dir,inDirs,find_isSome_iff.mp (Option.isSome_iff_exists.mpr ⟨held,there⟩)⟩
  rw [mergeChunks,if_neg (List.ne_nil_of_mem named)]
  refine ⟨_,rfl,fun file => ?_⟩
  rw [find_filterMap]
  split_ifs with known
  · rfl
  · exact (Option.eq_none_iff_forall_ne_some.mpr fun value held => known (listed held)).symm

theorem distributedLookup_eq (generateKeyFiles : List (SarRow ι δ) → Directory ρ)
    (natsorted : List (Text × TableFile ρ) → List (Text × TableFile ρ)) (compression : Compression)
    (store : Filestore ρ) (sarDf : List (SarRow ι δ)) (numChunks : Nat) :
    distributedLookup generateKeyFiles natsorted compression store sarDf numChunks =
      mergeChunks natsorted ((List.range numChunks).map fun c =>
        (lookupDir c,chunkContent generateKeyFiles sarDf numChunks c)) := by
  have prepared := prepareAll_eq generateKeyFiles compression store sarDf (List.range numChunks)
    (fun c member => List.mem_range.mp member) []
  have extracted := extractAll_eq compression (chunkContent generateKeyFiles sarDf numChunks) store
    (storedChunks compression (chunkContent generateKeyFiles sarDf numChunks) store (List.range numChunks))
    (List.range numChunks) List.nodup_range (fun c member => extract_storedChunks compression _ store member) []
    (by simp)
  simp only [Option.bind_eq_bind] at prepared extracted
  simp only [distributedLookup,prepared,Option.bind_eq_bind,Option.bind_some,List.nil_append,collectKeys,extracted]

end Merging

/-- A lookup that outputs to a file, for each frame with rows and in some order, what it outputs for
    the subjects of the frame, each looked up by its own rows. The file may be missing or unreadable
    where that is nothing. -/
def PerSubject (generateKeyFiles : List (SarRow ι δ) → Directory ρ) (file : Text)
    (perSubject : List (SarRow ι δ) → List ρ) : Prop :=
  ∀ frame ≠ [], (rowsOf (find (generateKeyFiles frame) file)).Perm
    ((factorize (locIds frame)).2.flatMap fun subject => perSubject (frame.filter fun row => row.locId = subject))

/-- A lookup that writes a table to a file for each frame with rows. -/
def Writes (generateKeyFiles : List (SarRow ι δ) → Directory ρ) (file : Text) : Prop :=
  ∀ frame ≠ [], ∃ rows, find (generateKeyFiles frame) file = some (.table rows)

/-- A file has these rows. When there are none, it may be missing if the lookup does not always
    write it. -/
def Holds (generateKeyFiles : List (SarRow ι δ) → Directory ρ) (merged : Directory ρ) (file : Text)
    (rows : List ρ) : Prop :=
  find merged file = some (.table rows) ∨ rows = [] ∧ find merged file = none ∧ ¬ Writes generateKeyFiles file

/-- All the rows of a subject are in its chunk. -/
theorem chunk_subject_rows {sarDf : List (SarRow ι δ)} {numChunks c : Nat} {subject : Option ι}
    (here : chunkOf (locIds sarDf) numChunks subject = c) :
    (sarDf.filter fun row => chunkOf (locIds sarDf) numChunks row.locId = c).filter (fun row => row.locId = subject) =
      sarDf.filter fun row => row.locId = subject := by
  rw [List.filter_filter]
  apply List.filter_congr
  intro row _
  by_cases same : row.locId = subject
  · simp [same,here]
  · simp [same]

theorem mem_locIds_chunk {sarDf : List (SarRow ι δ)} {numChunks c : Nat} {subject : Option ι} :
    subject ∈ locIds (sarDf.filter fun row => chunkOf (locIds sarDf) numChunks row.locId = c) ↔
      subject ∈ locIds sarDf ∧ chunkOf (locIds sarDf) numChunks subject = c := by
  simp only [locIds,List.mem_map,List.mem_filter]
  constructor
  · rintro ⟨row,⟨listed,chunk⟩,rfl⟩
    exact ⟨⟨row,listed,rfl⟩,of_decide_eq_true chunk⟩
  · rintro ⟨⟨row,listed,rfl⟩,chunk⟩
    exact ⟨row,⟨listed,decide_eq_true chunk⟩,rfl⟩

theorem chunkOf_lt {ids : List (Option ι)} {k : Nat} (some_k : 0 < k) {subject : Option ι} (listed : subject ∈ ids) :
    chunkOf ids k subject < k :=
  subjectChunk_lt some_k (firstIndex_lt ((mem_factorize ids subject).mpr listed))

/-- The chunks together output what the subjects of the exposure do, whatever
    their number. -/
theorem chunkContent_rows {generateKeyFiles : List (SarRow ι δ) → Directory ρ} {file : Text}
    {perSubject : List (SarRow ι δ) → List ρ} (outputs : PerSubject generateKeyFiles file perSubject)
    (sarDf : List (SarRow ι δ)) {numChunks : Nat} (some_chunk : 0 < numChunks) (row : ρ) :
    (∃ c ∈ List.range numChunks, row ∈ rowsOf (find (chunkContent generateKeyFiles sarDf numChunks c) file)) ↔
      ∃ subject ∈ locIds sarDf, row ∈ perSubject (sarDf.filter fun row => row.locId = subject) := by
  constructor
  · rintro ⟨c,_,member⟩
    unfold chunkContent at member
    dsimp only at member
    split_ifs at member with empty
    · cases member
    · rw [(outputs _ (mt List.isEmpty_iff.mpr empty)).mem_iff,List.mem_flatMap] at member
      obtain ⟨subject,known,output⟩ := member
      rw [mem_factorize,mem_locIds_chunk] at known
      rw [chunk_subject_rows known.2] at output
      exact ⟨subject,known.1,output⟩
  · rintro ⟨subject,listed,output⟩
    refine ⟨chunkOf (locIds sarDf) numChunks subject,List.mem_range.mpr (chunkOf_lt some_chunk listed),?_⟩
    have inChunk : subject ∈ locIds (sarDf.filter fun row =>
        chunkOf (locIds sarDf) numChunks row.locId = chunkOf (locIds sarDf) numChunks subject) :=
      mem_locIds_chunk.mpr ⟨listed,rfl⟩
    unfold chunkContent
    dsimp only
    split_ifs with empty
    · rw [List.isEmpty_iff.mp empty] at inChunk
      cases inChunk
    · rw [(outputs _ (mt List.isEmpty_iff.mpr empty)).mem_iff,List.mem_flatMap]
      refine ⟨subject,(mem_factorize _ _).mpr inChunk,?_⟩
      rwa [chunk_subject_rows rfl]

/-- Where there is a row, some chunk is looked up. -/
theorem chunkContent_some (generateKeyFiles : List (SarRow ι δ) → Directory ρ) {sarDf : List (SarRow ι δ)}
    (some_row : sarDf ≠ []) {numChunks : Nat} (some_chunk : 0 < numChunks) :
    ∃ c ∈ List.range numChunks, ∃ frame ≠ [],
      chunkContent generateKeyFiles sarDf numChunks c = generateKeyFiles frame := by
  obtain ⟨first,rest,rfl⟩ := List.exists_cons_of_ne_nil some_row
  have listed : first.locId ∈ locIds (first :: rest) := List.mem_cons_self
  have nonempty : (first :: rest).filter (fun row => chunkOf (locIds (first :: rest)) numChunks row.locId =
      chunkOf (locIds (first :: rest)) numChunks first.locId) ≠ [] :=
    List.ne_nil_of_mem (List.mem_filter.mpr ⟨List.mem_cons_self,decide_eq_true rfl⟩)
  refine ⟨chunkOf (locIds (first :: rest)) numChunks first.locId,List.mem_range.mpr (chunkOf_lt some_chunk listed),
    _,nonempty,?_⟩
  rw [chunkContent,if_neg (mt List.isEmpty_iff.mp nonempty)]

def keysParquet : Text := ['k','e','y','s','.','p','a','r','q','u','e','t']

def keysErrorsParquet : Text := ['k','e','y','s','-','e','r','r','o','r','s','.','p','a','r','q','u','e','t']

theorem mergedByRows_keys : ∀ file ∈ [keysParquet,keysErrorsParquet], MergedByRows file := by
  unfold MergedByRows
  decide

/-- The lookup in any number of chunks stores the files, with the rows of the subjects and each of
    them once. -/
theorem distributedLookup_files [DecidableEq ρ] {generateKeyFiles : List (SarRow ι δ) → Directory ρ}
    {perSubject : Text → List (SarRow ι δ) → List ρ}
    (outputs : ∀ file ∈ [keysParquet,keysErrorsParquet], PerSubject generateKeyFiles file (perSubject file))
    (written : ∀ frame ≠ [], generateKeyFiles frame ≠ [])
    {natsorted : List (Text × TableFile ρ) → List (Text × TableFile ρ)}
    (natural : ∀ paths, (natsorted paths).Perm paths) (compression : Compression) (store : Filestore ρ)
    {sarDf : List (SarRow ι δ)} (some_row : sarDf ≠ []) {numChunks : Nat} (some_chunk : 1 ≤ numChunks) :
    ∃ merged, distributedLookup generateKeyFiles natsorted compression store sarDf numChunks = some merged ∧
      ∀ file ∈ [keysParquet,keysErrorsParquet], ∃ rows, Holds generateKeyFiles merged file rows ∧ rows.Nodup ∧
        ∀ row, row ∈ rows ↔
          ∃ subject ∈ locIds sarDf, row ∈ perSubject file (sarDf.filter fun row => row.locId = subject) := by
  obtain ⟨c,inside,frame,nonempty,lookedUp⟩ := chunkContent_some generateKeyFiles some_row some_chunk
  obtain ⟨merged,collected,found⟩ := mergeChunks_find natsorted inside (lookedUp ▸ written frame nonempty)
  refine ⟨merged,(distributedLookup_eq ..).trans collected,fun file known => ?_⟩
  have contents := mergeFile_rows natural (mergedByRows_keys file known)
    (chunkContent generateKeyFiles sarDf numChunks) (List.range numChunks)
  rw [← found file] at contents
  refine ⟨rowsOf (find merged file),?_,contents.1,fun row => ?_⟩
  · rcases mergeFile_cases natural (mergedByRows_keys file known) ((List.range numChunks).map fun c =>
      (lookupDir c,chunkContent generateKeyFiles sarDf numChunks c)) with missing | ⟨rows,table⟩
    · rw [← found file] at missing
      refine .inr ⟨by rw [missing]; rfl,missing,fun writes => ?_⟩
      obtain ⟨rows,table⟩ := writes frame nonempty
      obtain ⟨others,stored⟩ := mergeFile_table natural (mergedByRows_keys file known) inside
        (lookedUp ▸ table : find (chunkContent generateKeyFiles sarDf numChunks c) file = some (.table rows))
      rw [← found file,missing] at stored
      cases stored
    · rw [← found file] at table
      exact .inl (by rw [table]; rfl)
  · exact (contents.2 row).trans (chunkContent_rows (outputs file known) sarDf some_chunk row)

/-- Whatever the number of chunks, the keys and the key errors are stored with, without
    duplicates, exactly the rows that the subjects of the exposure have, as in a lookup in one
    chunk; each archive is extracted to a directory of its own, which the glob finds. -/
theorem distributedLookup_transparent [DecidableEq ρ] (generateKeyFiles : List (SarRow ι δ) → Directory ρ)
    (perSubject : Text → List (SarRow ι δ) → List ρ)
    (outputs : ∀ file ∈ [keysParquet,keysErrorsParquet], PerSubject generateKeyFiles file (perSubject file))
    (written : ∀ frame ≠ [], generateKeyFiles frame ≠ [])
    (natsorted : List (Text × TableFile ρ) → List (Text × TableFile ρ))
    (natural : ∀ paths, (natsorted paths).Perm paths) (compression : Compression) (store : Filestore ρ)
    (sarDf : List (SarRow ι δ)) (some_row : sarDf ≠ []) (numChunks : Nat) (some_chunk : 1 ≤ numChunks) :
    (∃ merged single, distributedLookup generateKeyFiles natsorted compression store sarDf numChunks = some merged ∧
      distributedLookup generateKeyFiles natsorted compression store sarDf 1 = some single ∧
      ∀ file ∈ [keysParquet,keysErrorsParquet], ∃ rows alone,
        Holds generateKeyFiles merged file rows ∧ Holds generateKeyFiles single file alone ∧ rows.Nodup ∧ alone.Nodup ∧
        (∀ row, row ∈ rows ↔
          ∃ subject ∈ locIds sarDf, row ∈ perSubject file (sarDf.filter fun row => row.locId = subject)) ∧
        ∀ row, row ∈ rows ↔ row ∈ alone) ∧
    (∀ i, chunkDirname (store.reference (archiveName compression i)) = lookupText ++ decimal (i + 1) ∧
      lookupGlob (lookupText ++ decimal (i + 1)) = true) ∧
    ∀ i j, chunkDirname (store.reference (archiveName compression i)) =
      chunkDirname (store.reference (archiveName compression j)) → i = j := by
  refine ⟨?_,?_,?_⟩
  · obtain ⟨merged,looked,files⟩ := distributedLookup_files outputs written natural compression store some_row some_chunk
    obtain ⟨single,lookedOnce,filesOnce⟩ :=
      distributedLookup_files outputs written natural compression store some_row (le_refl 1)
    refine ⟨merged,single,looked,lookedOnce,fun file known => ?_⟩
    obtain ⟨rows,held,distinct,holds⟩ := files file known
    obtain ⟨alone,heldOnce,distinctOnce,holdsOnce⟩ := filesOnce file known
    exact ⟨rows,alone,held,heldOnce,distinct,distinctOnce,holds,fun row => (holds row).trans (holdsOnce row).symm⟩
  · intro i
    exact ⟨chunkDirname_archive store.location compression i,lookupGlob_lookupDir i⟩
  · intro i j same
    simp only [Filestore.reference,chunkDirname_archive] at same
    exact lookupDir_injective same

/-- Subject by subject, a key for each odd field and an error for each even one. -/
def keysAndErrors (file : Text) (rows : List (SarRow Nat Nat)) : List Nat :=
  (rows.map SarRow.fields).filter fun field => field % 2 = if file = keysParquet then 1 else 0

/-- The errors are written only when there are some. -/
def lookupFields (frame : List (SarRow Nat Nat)) : Directory Nat :=
  let rows (file : Text) := (factorize (locIds frame)).2.flatMap fun subject =>
    keysAndErrors file (frame.filter fun row => row.locId = subject)
  (keysParquet,.table (rows keysParquet)) ::
    if rows keysErrorsParquet = [] then [] else [(keysErrorsParquet,.table (rows keysErrorsParquet))]

theorem lookupFields_perSubject :
    ∀ file ∈ [keysParquet,keysErrorsParquet], PerSubject lookupFields file (keysAndErrors file) := by
  intro file known frame _
  rcases List.mem_pair.mp known with rfl | rfl
  · exact .refl _
  · unfold lookupFields
    dsimp only
    split_ifs with empty
    · rw [empty]
      exact .refl _
    · exact .refl _

/-- Four rows of two subjects, in five chunks of which three are empty and one has no errors. -/
def fourRows : List (SarRow Nat Nat) := [⟨some 5,1⟩,⟨some 3,2⟩,⟨some 5,3⟩,⟨some 3,1⟩]

theorem distributedLookup_transparent_fourRows :
    ∃ merged single,
      distributedLookup lookupFields id .zst ⟨['s','t','o','r','e'],[]⟩ fourRows 5 = some merged ∧
      distributedLookup lookupFields id .zst ⟨['s','t','o','r','e'],[]⟩ fourRows 1 = some single ∧
      ∀ file ∈ [keysParquet,keysErrorsParquet], ∃ rows alone,
        Holds lookupFields merged file rows ∧ Holds lookupFields single file alone ∧ rows.Nodup ∧ alone.Nodup ∧
        (∀ row, row ∈ rows ↔ ∃ subject ∈ locIds fourRows,
          row ∈ keysAndErrors file (fourRows.filter fun row => row.locId = subject)) ∧
        ∀ row, row ∈ rows ↔ row ∈ alone :=
  (distributedLookup_transparent lookupFields keysAndErrors lookupFields_perSubject
    (fun _ _ => List.cons_ne_nil _ _) id (fun _ => .refl _) .zst ⟨['s','t','o','r','e'],[]⟩ fourRows (by decide) 5
    (by decide)).1

example : (distributedLookup lookupFields id .zst ⟨['s','t','o','r','e'],[]⟩ fourRows 5).map
    (fun merged => (find merged keysParquet,find merged keysErrorsParquet)) =
      some (some (.table [1,3]),some (.table [2])) := by decide +kernel

end OasisPlatform.KeysCollection
