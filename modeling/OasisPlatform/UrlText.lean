import Mathlib.Data.List.Infix
import OasisPlatform.PathText

/-!
The path of a reference as `urllib.parse` takes it out of a text, and of the references that
are put together from their parts: a path in a storage (`urlPath_path`) and a URL with a
query (`urlPath_url`). The server takes the suffix of an archive from it (`archiveSuffix`).
-/
namespace OasisPlatform.UrlText
open PathText
set_option linter.unusedSimpArgs false

def schemeChar (c : Char) : Bool := c.isAlphanum || c ∈ ['+','-','.']

/-- Whether what stands before the first colon is a scheme. -/
def hasScheme (url : Text) : Prop :=
  ':' ∈ url ∧ ((url.takeWhile (· ≠ ':')).head?.any Char.isAlpha) ∧ (url.takeWhile (· ≠ ':')).all schemeChar

instance (url : Text) : Decidable (hasScheme url) := inferInstanceAs (Decidable (_ ∧ _))

def urlScheme (url : Text) : Text := if hasScheme url then (url.takeWhile (· ≠ ':')).map Char.toLower else []

def dropScheme (url : Text) : Text := if hasScheme url then url.drop ((url.takeWhile (· ≠ ':')).length + 1) else url

/-- Without the host and what stands before it. -/
def dropNetloc (url : Text) : Text :=
  match url with
  | '/' :: '/' :: rest => rest.dropWhile fun c => c ∉ ['/','?','#']
  | url => url

/-- Without the fragment and the query. -/
def dropQuery (url : Text) : Text := (url.takeWhile (· ≠ '#')).takeWhile (· ≠ '?')

/-- Without the parameters of the last component. -/
def dropParams (path : Text) : Text :=
  path.take (path.length - (pathName path).length) ++ (pathName path).takeWhile (· ≠ ';')

/-- `uses_params`, with the empty scheme. -/
def usesParams : List Text :=
  [[],"ftp".toList,"hdl".toList,"prospero".toList,"http".toList,"imap".toList,"https".toList,"shttp".toList,"rtsp".toList,
    "rtsps".toList,"rtspu".toList,"sip".toList,"sips".toList,"mms".toList,"sftp".toList,"tel".toList]

/-- What `urlparse` gives for a text without the characters that it takes out first. -/
def parsedPath (url : Text) : Text :=
  let path := dropQuery (dropNetloc (dropScheme url))
  if urlScheme url ∈ usesParams then dropParams path else path

def visible (c : Char) : Bool := 0x20 < c.toNat

/-- `urlparse(url).path`, for a host that it accepts. -/
def urlPath (url : Text) : Text :=
  parsedPath ((url.dropWhile fun c => !visible c).filter fun c => c ∉ ['\t','\r','\n'])

def tarZst : Text := ".tar.zst".toList

/-- `archive_suffix`. -/
def archiveSuffix (reference : Text) : Text := if tarZst <:+ urlPath reference then "tar.zst".toList else "tar.gz".toList

theorem takeWhile_append_mem {d : Char} {text : Text} (member : d ∈ text) (rest : Text) :
    (text ++ rest).takeWhile (· ≠ d) = text.takeWhile (· ≠ d) := by
  induction text with
  | nil => cases member
  | cons c text ih =>
    by_cases same : c = d
    · simp [same]
    · have later := (List.mem_cons.mp member).resolve_left (Ne.symm same)
      simp only [List.cons_append,List.takeWhile_cons,ne_eq,same,not_false_eq_true,decide_true,if_true] at ih ⊢
      rw [ih later]

theorem takeWhile_free {d : Char} {text : Text} (free : d ∉ text) : text.takeWhile (· ≠ d) = text := by
  rw [List.takeWhile_eq_self_iff]
  intro c member
  simp only [decide_eq_true_eq]
  rintro rfl
  exact free member

theorem pathName_free {name : Text} (flat : '/' ∉ name) : pathName name = name := by
  rw [pathName,takeWhile_free (fun member => flat (List.mem_reverse.mp member)),List.reverse_reverse]

/-- Some components of a path, each with a slash. -/
def folderText (folders : List Text) : Text := folders.flatMap fun folder => folder ++ ['/']

theorem folderText_cases (folders : List Text) : folderText folders = [] ∨ ∃ front, folderText folders = front ++ ['/'] := by
  rcases List.eq_nil_or_concat' folders with rfl | ⟨front,last,rfl⟩
  · exact .inl rfl
  · refine .inr ⟨folderText front ++ last,?_⟩
    simp [folderText]

theorem pathName_folders (folders : List Text) {name : Text} (flat : '/' ∉ name) :
    pathName (folderText folders ++ name) = name := by
  rcases folderText_cases folders with empty | ⟨front,ends⟩
  · rw [empty,List.nil_append,pathName_free flat]
  · rw [ends,List.append_assoc]
    exact pathName_append flat

theorem mem_folderText {folders : List Text} {c : Char} (member : c ∈ folderText folders) :
    c = '/' ∨ ∃ folder ∈ folders, c ∈ folder := by
  obtain ⟨folder,listed,held⟩ := List.mem_flatMap.mp member
  rcases List.mem_append.mp held with inside | slash
  · exact .inr ⟨folder,listed,inside⟩
  · exact .inl (List.mem_singleton.mp slash)

theorem urlPath_visible {url : Text} (seen : ∀ c ∈ url, visible c) : urlPath url = parsedPath url := by
  have first : url.dropWhile (fun c => !visible c) = url := by
    cases url with
    | nil => rfl
    | cons c rest => rw [List.dropWhile_cons_of_neg (by simp [seen c List.mem_cons_self])]
  have kept : url.filter (fun c => c ∉ ['\t','\r','\n']) = url := by
    rw [List.filter_eq_self]
    intro c member
    have shown := seen c member
    simp only [List.mem_cons,List.not_mem_nil,or_false,not_or,decide_eq_true_eq]
    refine ⟨?_,?_,?_⟩ <;> rintro rfl <;> exact absurd shown (by decide)
  rw [urlPath,first,kept]

theorem dropScheme_free {url : Text} (free : ':' ∉ url) : dropScheme url = url := if_neg fun named => free named.1

theorem parsedPath_free {url : Text} (free : ':' ∉ url) : parsedPath url = dropParams (dropQuery (dropNetloc url)) := by
  have nameless : urlScheme url = [] := if_neg fun named => free named.1
  simp only [parsedPath,nameless,dropScheme_free free]
  exact if_pos List.mem_cons_self

theorem dropScheme_scheme {first : Char} {scheme : Text} (rest : Text) (letter : first.isAlpha)
    (plain : ∀ c ∈ first :: scheme, schemeChar c) : dropScheme (first :: scheme ++ ':' :: rest) = rest := by
  have before : (first :: scheme ++ ':' :: rest).takeWhile (· ≠ ':') = first :: scheme := by
    rw [List.takeWhile_append_of_pos]
    · simp
    · intro c member
      simp only [decide_eq_true_eq]
      rintro rfl
      exact absurd (plain ':' member) (by decide)
  have colon : ':' ∈ first :: scheme ++ ':' :: rest := List.mem_append_right _ List.mem_cons_self
  have all : (first :: scheme).all schemeChar := List.all_eq_true.mpr plain
  simp only [dropScheme,hasScheme,before]
  rw [if_pos ⟨colon,letter,all⟩]
  have length : (first :: scheme).length + 1 = (first :: scheme ++ [':']).length := by simp
  rw [length]
  have regroup : first :: scheme ++ ':' :: rest = (first :: scheme ++ [':']) ++ rest := by simp
  rw [regroup,List.drop_left]

theorem dropNetloc_netloc {netloc : Text} (path : Text) (plain : ∀ c ∈ netloc, c ∉ ['/','?','#']) :
    dropNetloc ('/' :: '/' :: (netloc ++ '/' :: path)) = '/' :: path := by
  rw [dropNetloc,List.dropWhile_append_of_pos]
  · rw [List.dropWhile_cons_of_neg (by simp)]
  · intro c member
    simpa using plain c member

theorem dropQuery_free {path : Text} (free : '#' ∉ path) (plain : '?' ∉ path) : dropQuery path = path := by
  rw [dropQuery,takeWhile_free free,takeWhile_free plain]

theorem pathName_suffix (path : Text) : pathName path <:+ path := by
  have first := List.takeWhile_prefix (l := path.reverse) (· ≠ '/')
  have reversed := List.reverse_suffix.mpr first
  rwa [List.reverse_reverse] at reversed

theorem dropParams_free {path : Text} (free : ';' ∉ pathName path) : dropParams path = path := by
  rw [dropParams,takeWhile_free free]
  exact List.suffix_iff_eq_append.mp (pathName_suffix path)

/-- Without parameters the scheme does not matter. -/
theorem parsedPath_plain {url path : Text} (rest : dropQuery (dropNetloc (dropScheme url)) = path)
    (free : ';' ∉ pathName path) : parsedPath url = path := by
  simp only [parsedPath,rest]
  split_ifs
  · exact dropParams_free free
  · rfl

/-! ### References -/

/-- A path in a storage: its folders, from the root of the file system or not. -/
structure StoredPath where
  absolute : Bool
  folders : List Text
  named : ∀ folder ∈ folders, folder ≠ [] ∧ ∀ c ∈ folder, c ≠ '/' ∧ c ≠ ':' ∧ visible c

def StoredPath.directory (path : StoredPath) : Text := (if path.absolute then ['/'] else []) ++ folderText path.folders

/-- A URL up to the last component of its path, and its query. -/
structure Url where
  first : Char
  scheme : Text
  netloc : Text
  folders : List Text
  query : Option Text
  letter : first.isAlpha
  schemeChars : ∀ c ∈ first :: scheme, schemeChar c
  netlocChars : ∀ c ∈ netloc, c ∉ ['/','?','#'] ∧ visible c
  folderChars : ∀ folder ∈ folders, ∀ c ∈ folder, c ∉ ['/','?','#'] ∧ visible c
  queryChars : ∀ text ∈ query, ∀ c ∈ text, c ≠ '#' ∧ visible c

def Url.path (url : Url) : Text := '/' :: folderText url.folders

def Url.queryText (url : Url) : Text :=
  match url.query with
  | some text => '?' :: text
  | none => []

/-- The text of the URL with a last component. -/
def Url.text (url : Url) (name : Text) : Text :=
  url.first :: url.scheme ++ ':' :: '/' :: '/' :: (url.netloc ++ (url.path ++ name ++ url.queryText))

/-- A character that a storage keeps in the name of a file. -/
def nameChar (c : Char) : Bool := c ∉ ['/',':','?','#',';'] && visible c

theorem nameChar_ne {c d : Char} (kept : nameChar c) (listed : d ∈ ['/',':','?','#',';']) : c ≠ d := by
  rintro rfl
  simp [nameChar,listed] at kept

theorem nameChar_visible {c : Char} (kept : nameChar c) : visible c := by
  rw [nameChar,Bool.and_eq_true] at kept
  exact kept.2

theorem schemeChar_visible {c : Char} (plain : schemeChar c) : visible c := by
  have alpha : c.isAlpha = (c.isUpper || c.isLower) := rfl
  have upper : c.isUpper = decide (c.val ≥ 'A'.val ∧ c.val ≤ 'Z'.val) := rfl
  have lower : c.isLower = (decide (c.val ≥ 'a'.val) && decide (c.val ≤ 'z'.val)) := rfl
  simp only [schemeChar,Char.isAlphanum,alpha,upper,lower,Char.isDigit,Bool.or_eq_true,Bool.and_eq_true,
    decide_eq_true_eq,UInt32.le_iff_toNat_le,ge_iff_le,List.mem_cons,List.not_mem_nil,or_false] at plain
  simp only [visible,decide_eq_true_eq]
  change ((((65 ≤ c.toNat ∧ c.toNat ≤ 90) ∨ (97 ≤ c.toNat ∧ c.toNat ≤ 122)) ∨
    (48 ≤ c.toNat ∧ c.toNat ≤ 57)) ∨ c = '+' ∨ c = '-' ∨ c = '.') at plain
  rcases plain with ((upper | lower) | digit) | rfl | rfl | rfl
  · omega
  · omega
  · omega
  · decide
  · decide
  · decide

theorem StoredPath.directory_char (path : StoredPath) {c : Char} (member : c ∈ path.directory) :
    c ≠ ':' ∧ visible c := by
  rcases List.mem_append.mp member with slash | inFolders
  · split at slash
    · cases List.mem_singleton.mp slash
      decide
    · cases slash
  · rcases mem_folderText inFolders with rfl | ⟨folder,listed,held⟩
    · decide
    · exact ((path.named folder listed).2 c held).2

section Names
variable {name : Text} (kept : ∀ c ∈ name, nameChar c)
include kept

theorem name_free {d : Char} (listed : d ∈ ['/',':','?','#',';']) : d ∉ name :=
  fun member => nameChar_ne (kept d member) listed rfl

theorem Url.text_visible (url : Url) : ∀ c ∈ url.text name, visible c := by
  intro c member
  rcases List.mem_append.mp member with inScheme | rest
  · exact schemeChar_visible (url.schemeChars c inScheme)
  simp only [List.mem_cons,List.mem_append] at rest
  rcases rest with rfl | rfl | rfl | inNetloc | (inPath | inName) | inQuery
  · decide
  · decide
  · decide
  · exact (url.netlocChars c inNetloc).2
  · rcases List.mem_cons.mp inPath with rfl | inFolders
    · decide
    · rcases mem_folderText inFolders with rfl | ⟨folder,listed,held⟩
      · decide
      · exact (url.folderChars folder listed c held).2
  · exact nameChar_visible (kept c inName)
  · unfold Url.queryText at inQuery
    cases given : url.query with
    | none => simp [given] at inQuery
    | some text =>
      rw [given] at inQuery
      rcases List.mem_cons.mp inQuery with rfl | held
      · decide
      · exact (url.queryChars text given c held).2

theorem Url.path_free (url : Url) {d : Char} (mark : d ∈ ['?','#']) : d ∉ url.path ++ name := by
  have other : d ∈ ['/','?','#'] := List.mem_cons_of_mem _ mark
  have listed : d ∈ ['/',':','?','#',';'] := by
    simp only [List.mem_cons,List.not_mem_nil,or_false] at mark ⊢
    tauto
  rintro member
  rcases List.mem_append.mp member with inPath | inName
  · rcases List.mem_cons.mp inPath with rfl | inFolders
    · simp at mark
    · rcases mem_folderText inFolders with rfl | ⟨folder,held,inside⟩
      · simp at mark
      · exact (url.folderChars folder held d inside).1 other
  · exact name_free kept listed inName

theorem dropQuery_query (url : Url) : dropQuery (url.path ++ name ++ url.queryText) = url.path ++ name := by
  unfold Url.queryText
  cases given : url.query with
  | none => simp only [List.append_nil,dropQuery_free (url.path_free kept (by simp)) (url.path_free kept (by simp))]
  | some text =>
    have whole : (url.path ++ name ++ '?' :: text).takeWhile (· ≠ '#') = url.path ++ name ++ '?' :: text := by
      rw [List.takeWhile_eq_self_iff]
      intro c member
      simp only [decide_eq_true_eq]
      rintro rfl
      rcases List.mem_append.mp member with inPath | inQuery
      · exact url.path_free kept (by simp) inPath
      · rcases List.mem_cons.mp inQuery with same | held
        · cases same
        · exact (url.queryChars text given '#' held).1 rfl
    simp only [dropQuery,whole]
    rw [List.takeWhile_append_of_pos]
    · simp
    · intro c member
      simp only [decide_eq_true_eq]
      rintro rfl
      exact url.path_free kept (by simp) member

/-- The path of a URL is its path, whatever its query is. -/
theorem urlPath_url (url : Url) : urlPath (url.text name) = url.path ++ name := by
  have flat : pathName (url.path ++ name) = name :=
    pathName_folders ([] :: url.folders) (name_free kept (by simp))
  have free : ';' ∉ pathName (url.path ++ name) := by
    rw [flat]
    exact name_free kept (by simp)
  rw [urlPath_visible (url.text_visible kept)]
  refine parsedPath_plain ?_ free
  rw [Url.text,dropScheme_scheme _ url.letter url.schemeChars]
  have slash : url.path ++ name ++ url.queryText = '/' :: (folderText url.folders ++ name ++ url.queryText) := rfl
  rw [slash,dropNetloc_netloc _ fun c member => (url.netlocChars c member).1,← slash,dropQuery_query kept]

theorem StoredPath.head_folders (path : StoredPath) : (folderText path.folders ++ name).head? ≠ some '/' := by
  cases folders : path.folders with
  | nil =>
    intro slash
    exact name_free kept (d := '/') (by simp) (List.mem_of_mem_head? slash)
  | cons folder rest =>
    have named := path.named folder (folders ▸ List.mem_cons_self)
    cases folder with
    | nil => exact absurd rfl named.1
    | cons c folder =>
      intro slash
      exact (named.2 c List.mem_cons_self).1 (by simpa [folderText] using slash)

theorem dropNetloc_directory (path : StoredPath) : dropNetloc (path.directory ++ name) = path.directory ++ name := by
  have head := path.head_folders kept
  unfold StoredPath.directory
  cases path.absolute with
  | true =>
    simp only [if_true,List.singleton_append,List.cons_append]
    rw [dropNetloc]
    rintro rest same
    have tail : folderText path.folders ++ name = '/' :: rest := (List.cons.inj same).2
    rw [tail] at head
    exact head rfl
  | false =>
    simp only [Bool.false_eq_true,if_false,List.nil_append]
    rw [dropNetloc]
    rintro rest same
    rw [same] at head
    exact head rfl

theorem urlPath_directory (path : StoredPath) :
    urlPath (path.directory ++ name) = dropParams (dropQuery (path.directory ++ name)) := by
  rw [urlPath_visible,parsedPath_free,dropNetloc_directory kept]
  · intro member
    rcases List.mem_append.mp member with inDirectory | inName
    · exact (path.directory_char inDirectory).1 rfl
    · exact name_free kept (by simp) inName
  · intro c member
    rcases List.mem_append.mp member with inDirectory | inName
    · exact (path.directory_char inDirectory).2
    · exact nameChar_visible (kept c inName)

theorem StoredPath.pathName (path : StoredPath) : PathText.pathName (path.directory ++ name) = name := by
  have flat := name_free kept (d := '/') (by simp)
  unfold StoredPath.directory
  cases path.absolute with
  | true => exact pathName_folders ([] :: path.folders) flat
  | false => exact pathName_folders path.folders flat

/-- The path of a stored path without a mark is the whole text. -/
theorem urlPath_path {path : StoredPath} (unasked : '?' ∉ path.directory) (unhashed : '#' ∉ path.directory) :
    urlPath (path.directory ++ name) = path.directory ++ name := by
  rw [urlPath_directory kept,dropQuery_free,dropParams_free]
  · rw [path.pathName kept]
    exact name_free kept (by simp)
  · exact List.not_mem_append unhashed (name_free kept (by simp))
  · exact List.not_mem_append unasked (name_free kept (by simp))

/-- A mark in the directory cuts the name off. -/
theorem urlPath_marked {path : StoredPath} (marked : '?' ∈ path.directory ∨ '#' ∈ path.directory) :
    urlPath (path.directory ++ name) = urlPath path.directory := by
  have alone : urlPath path.directory = dropParams (dropQuery path.directory) := by
    have nameless := @urlPath_directory [] (fun c member => nomatch member) path
    rwa [List.append_nil] at nameless
  rw [urlPath_directory kept,alone,dropQuery,dropQuery]
  by_cases hashed : '#' ∈ path.directory
  · rw [takeWhile_append_mem hashed]
  · rw [takeWhile_free (List.not_mem_append hashed (name_free kept (by simp))),takeWhile_free hashed,
      takeWhile_append_mem (marked.resolve_right hashed)]

end Names

end OasisPlatform.UrlText
