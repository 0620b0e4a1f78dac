import OasisPlatform.InternalJobs
import OasisPlatform.UrlText

/-!
The format of an uploaded file or worker archive, from the name it is uploaded with to the
copy that a worker makes of it. The server checks the last extension in any case and takes
the path out of a URL; the worker looks at the last extension of the whole reference: the
copy has the format of the file exactly under the condition of `format_kept_iff`.
-/
namespace OasisPlatform.FileFormats
open PathText UrlText
open InternalJobs (splitextExt destinationSuffix)
set_option linter.unusedSimpArgs false

inductive Format where
  | csv
  | parquet
  | gzip
  | zip
  | bzip2
  | tarGz
  | tarZst
  deriving DecidableEq

/-- `CONTENT_TYPE_MAPPING`. -/
def mappedContentType (contentType : String) : String :=
  if contentType = "application/vnd.ms-excel" then "text/csv" else contentType

def extentionMapping : List (Text × String) :=
  [("parquet".toList,"application/octet-stream"),("pq".toList,"application/octet-stream"),("csv".toList,"text/csv"),
    ("gz".toList,"application/gzip"),("zip".toList,"application/zip"),("bz2".toList,"application/x-bzip2")]

def lower (text : Text) : Text := text.map Char.toLower

/-- `Path(value.name).suffix[1:].lower()`. -/
def fileExtention (name : Text) : Text := lower ((suffix (pathName name)).drop 1)

/-- `RelatedFileSerializer.validate_file`. -/
def validateFile (contentTypes : List String) (name : Text) (contentType : String) : Except String Unit :=
  let mapped := mappedContentType contentType
  let extention := fileExtention name
  if contentTypes ≠ [] ∧ mapped ∉ contentTypes then
    .error ("File should be one of [" ++ ", ".intercalate contentTypes ++ "]")
  else
    match extentionMapping.lookup extention with
    | none => .ok ()
    | some expected =>
      if expected ≠ mapped then
        .error ("File extention '" ++ String.ofList extention ++ "' mismatched with request header 'Content-Type': '" ++
          mapped ++ "', should be set to '" ++ expected ++ "'")
      else .ok ()

/-- `uuid4().hex`. -/
structure Uuid where
  hex : Text
  digits : ∀ c ∈ hex, c.isDigit ∨ c ∈ ['a','b','c','d','e','f']
  some_digit : hex ≠ []

def tarGz : Text := ".tar.gz".toList

/-- `random_file_name`. -/
def randomFileName (storeAsFilename : Bool) (uuid : Uuid) (filename : Text) : Text :=
  if storeAsFilename then filename
  else if tarGz <:+ filename ∨ tarZst <:+ filename then
    uuid.hex ++ (".tar.".toList ++ (filename.reverse.takeWhile (· ≠ '.')).reverse)
  else uuid.hex ++ splitextExt filename

/-- `os.path.join(path, name)`. -/
def join (path name : Text) : Text := if path = [] ∨ path.getLast? = some '/' then path ++ name else path ++ '/' :: name

/-- `get_destination_file`, none where it raises. -/
def getDestinationFile (filename destinationDir destinationTitle : Text) : Option Text :=
  (destinationSuffix filename).map fun ending => join destinationDir (destinationTitle ++ ending.toList)

/-- The format that an extension stands for. -/
def extensionFormat (ext : Text) : Option Format :=
  [(".csv".toList,Format.csv),(".parquet".toList,.parquet),(".pq".toList,.parquet),(".gz".toList,.gzip),
    (".zip".toList,.zip),(".bz2".toList,.bzip2),(tarGz,.tarGz),(tarZst,.tarZst)].lookup ext

/-- An exposure file that the server accepts, with an extension it knows. -/
structure Upload where
  contentTypes : List String
  name : Text
  contentType : String
  accepted : validateFile contentTypes name contentType = .ok ()
  known : fileExtention name ∈ extentionMapping.map Prod.fst

/-- An archive of a worker. -/
structure Archive where
  name : Text
  named : tarGz <:+ name ∨ tarZst <:+ name

inductive Source where
  | upload (file : Upload)
  | archive (file : Archive)

def Source.name : Source → Text
  | .upload file => file.name
  | .archive file => file.name

def Source.format : Source → Option Format
  | .upload file => if tarGz <:+ lower file.name then some .tarGz else extensionFormat ('.' :: fileExtention file.name)
  | .archive file => if tarZst <:+ file.name then some .tarZst else some .tarGz

/-- How the server refers to a stored file, before its name and after it. -/
inductive Reference where
  | stored (place : StoredPath)
  | remote (address : Url)

def Reference.text (name : Text) : Reference → Text
  | .stored place => place.directory ++ name
  | .remote address => address.text name

def Reference.queryText : Reference → Text
  | .stored _ => []
  | .remote address => address.queryText

/-- The copy has an extension of the format of the file, for an archive the one that the
    server takes from the reference. -/
def KeepsFormat (source : Source) (reference destinationDir destinationTitle : Text) : Prop :=
  ∃ ext, getDestinationFile reference destinationDir destinationTitle = some (join destinationDir (destinationTitle ++ ext)) ∧
    extensionFormat ext = source.format ∧ (∀ file, source = .archive file → ext = '.' :: archiveSuffix reference)

/-- How the extension of a reference begins for the formats that the worker copies. -/
def copiedMark : Format → Option Text
  | .csv => some ".csv".toList
  | .parquet => some ".parquet".toList
  | .tarGz => some ".gz".toList
  | .tarZst => some ".zst".toList
  | _ => none

/-- The format is one that the worker copies, the extension is written as its mark in the name or,
    where the query has a dot or a slash, in the query; and for an archive given by its path
    the directory has no mark of a URL (or its part before one ends like the archive). -/
def FormatStays (source : Source) (reference : Reference) : Prop :=
  (∃ format mark, source.format = some format ∧ copiedMark format = some mark ∧
    mark <+: splitextExt
      (if '/' ∈ reference.queryText ∨ '.' ∈ reference.queryText then reference.queryText else source.name)) ∧
  ∀ file place, source = .archive file → reference = .stored place → '?' ∈ place.directory ∨ '#' ∈ place.directory →
    (tarZst <:+ urlPath place.directory ↔ tarZst <:+ file.name)

theorem after_dot {base after : Text} (free : '.' ∉ after) :
    ((base ++ '.' :: after).reverse.takeWhile (· ≠ '.')).reverse = after := by
  have reversed : (base ++ '.' :: after).reverse = after.reverse ++ '.' :: base.reverse := by simp
  rw [reversed,List.takeWhile_append_of_pos]
  · simp
  · intro c member
    simp only [decide_eq_true_eq]
    rintro rfl
    exact free (List.mem_reverse.mp member)

theorem splitextExt_dot {path base after : Text} (last : pathName path = base ++ '.' :: after) (free : '.' ∉ after) :
    splitextExt path = if base.any (· ≠ '.') then '.' :: after else [] := by
  have root : (base ++ '.' :: after).take ((base ++ '.' :: after).length - after.length - 1) = base := by
    have length : (base ++ '.' :: after).length - after.length - 1 = base.length := by simp; omega
    rw [length,List.take_left]
  have dotted : '.' ∈ base ++ '.' :: after := List.mem_append_right _ List.mem_cons_self
  unfold splitextExt
  simp only [last,after_dot free,root,dotted,true_and]

theorem splitextExt_free {path : Text} (free : '.' ∉ pathName path) : splitextExt path = [] :=
  if_neg fun both => free both.1

theorem dot_cases (name : Text) : '.' ∉ name ∨ ∃ base after, name = base ++ '.' :: after ∧ '.' ∉ after := by
  by_cases dotted : '.' ∈ name
  · right
    obtain ⟨front,back,split,first⟩ := List.eq_append_cons_of_mem (List.mem_reverse.mpr dotted)
    refine ⟨back.reverse,front.reverse,?_,fun member => first (List.mem_reverse.mp member)⟩
    have reversed := congrArg List.reverse split
    simpa using reversed
  · exact .inl dotted

/-- An extension is a dot and what follows the last one, or nothing. -/
theorem splitextExt_cases (path : Text) :
    splitextExt path = [] ∨ ∃ after, splitextExt path = '.' :: after ∧ '.' ∉ after ∧ after <:+ pathName path := by
  rcases dot_cases (pathName path) with free | ⟨base,after,last,free⟩
  · exact .inl (splitextExt_free free)
  · rw [splitextExt_dot last free]
    split
    · refine .inr ⟨after,rfl,free,?_⟩
      rw [last]
      exact (List.suffix_cons _ _).trans (List.suffix_append _ _)
    · exact .inl rfl

theorem pathName_flat (path : Text) : '/' ∉ pathName path := by
  intro member
  have held := List.mem_takeWhile_imp (List.mem_reverse.mp member)
  simp at held

theorem pathName_append_flat (path : Text) {name : Text} (flat : '/' ∉ name) :
    pathName (path ++ name) = pathName path ++ name := by
  have reversed : (path ++ name).reverse = name.reverse ++ path.reverse := List.reverse_append
  rw [pathName,reversed,List.takeWhile_append_of_pos]
  · rw [List.reverse_append,List.reverse_reverse]
    rfl
  · intro c member
    simp only [decide_eq_true_eq]
    rintro rfl
    exact flat (List.mem_reverse.mp member)

theorem pathName_append_mem (path : Text) {name : Text} (slash : '/' ∈ name) : pathName (path ++ name) = pathName name := by
  rw [pathName,List.reverse_append,takeWhile_append_mem (List.mem_reverse.mpr slash)]
  rfl

/-- A name with a known ending of an archive has its last extension. -/
theorem splitextExt_archive {name : Text} {after : Text} (free : '.' ∉ after) (flat : '/' ∉ after)
    (named : ".tar.".toList ++ after <:+ name) : splitextExt name = '.' :: after := by
  obtain ⟨front,rfl⟩ := named
  have ending : '/' ∉ ".tar.".toList ++ after := List.not_mem_append (by decide) flat
  have last : pathName (front ++ (".tar.".toList ++ after)) = (pathName front ++ ".tar".toList) ++ '.' :: after := by
    rw [pathName_append_flat front ending]
    simp
  rw [splitextExt_dot last free,if_pos]
  simp

theorem Uuid.char (uuid : Uuid) {c : Char} (member : c ∈ uuid.hex) : nameChar c ∧ c ≠ '.' := by
  rcases uuid.digits c member with digit | letter
  · simp only [Char.isDigit,Bool.and_eq_true,decide_eq_true_eq,UInt32.le_iff_toNat_le,ge_iff_le] at digit
    change 48 ≤ c.toNat ∧ c.toNat ≤ 57 at digit
    have other {d : Char} (outside : d.toNat < 48 ∨ 57 < d.toNat) : c ≠ d := by
      rintro rfl
      omega
    refine ⟨?_,other (by decide)⟩
    simp only [nameChar,visible,Bool.and_eq_true,decide_eq_true_eq,List.mem_cons,List.not_mem_nil,or_false,not_or]
    exact ⟨⟨other (by decide),other (by decide),other (by decide),other (by decide),other (by decide)⟩,by omega⟩
  · simp only [List.mem_cons,List.not_mem_nil,or_false] at letter
    rcases letter with rfl | rfl | rfl | rfl | rfl | rfl <;> decide

theorem splitextExt_uuid (uuid : Uuid) {after : Text} (free : '.' ∉ after) (flat : '/' ∉ after) :
    splitextExt (uuid.hex ++ '.' :: after) = '.' :: after := by
  have whole : '/' ∉ uuid.hex ++ '.' :: after := by
    refine List.not_mem_append (fun member => nameChar_ne (uuid.char member).1 (by simp) rfl) ?_
    rw [List.mem_cons,not_or]
    exact ⟨by decide,flat⟩
  rw [splitextExt_dot (pathName_free whole) free,if_pos]
  obtain ⟨first,rest,some⟩ := List.exists_cons_of_ne_nil uuid.some_digit
  have named : first ≠ '.' := (uuid.char (some ▸ List.mem_cons_self)).2
  simp [some,named]

theorem splitextExt_hex (uuid : Uuid) : splitextExt uuid.hex = [] := by
  have flat : '/' ∉ uuid.hex := fun member => nameChar_ne (uuid.char member).1 (by simp) rfl
  refine splitextExt_free ?_
  rw [pathName_free flat]
  exact fun member => (uuid.char member).2 rfl

/-- A name with the ending of an archive is stored with this ending. -/
theorem randomFileName_archive (uuid : Uuid) {filename after : Text} (free : '.' ∉ after)
    (named : tarGz <:+ filename ∨ tarZst <:+ filename) (ends : ".tar.".toList ++ after <:+ filename) :
    randomFileName false uuid filename = uuid.hex ++ (".tar.".toList ++ after) := by
  obtain ⟨front,rfl⟩ := ends
  have split : front ++ (".tar.".toList ++ after) = (front ++ ".tar".toList) ++ '.' :: after := by simp
  rw [randomFileName,if_neg Bool.false_ne_true,if_pos named,split,after_dot free]

theorem archive_ending {name : Text} (named : tarGz <:+ name ∨ tarZst <:+ name) :
    ∃ after, (after = "gz".toList ∧ tarGz <:+ name ∨ after = "zst".toList ∧ tarZst <:+ name) ∧ '.' ∉ after ∧
      '/' ∉ after ∧ ".tar.".toList ++ after <:+ name := by
  rcases named with gz | zst
  · exact ⟨_,.inl ⟨rfl,gz⟩,by decide,by decide,gz⟩
  · exact ⟨_,.inr ⟨rfl,zst⟩,by decide,by decide,zst⟩

/-- The stored name has the extension of the file. -/
theorem splitextExt_randomFileName (storeAsFilename : Bool) (uuid : Uuid) (filename : Text) :
    splitextExt (randomFileName storeAsFilename uuid filename) = splitextExt filename := by
  cases storeAsFilename with
  | true => rfl
  | false =>
    by_cases named : tarGz <:+ filename ∨ tarZst <:+ filename
    · obtain ⟨after,-,free,flat,ends⟩ := archive_ending named
      rw [randomFileName_archive uuid free named ends,splitextExt_archive free flat ends,
        splitextExt_archive free flat (List.suffix_append _ _)]
    · rw [randomFileName,if_neg Bool.false_ne_true,if_neg named]
      rcases splitextExt_cases filename with empty | ⟨after,ext,free,inside⟩
      · rw [empty,List.append_nil,splitextExt_hex]
      · rw [ext,splitextExt_uuid uuid free fun slash => pathName_flat filename (inside.mem slash)]

/-! ### References -/

section References
variable {name : Text} (kept : ∀ c ∈ name, nameChar c)
include kept

theorem splitextExt_stored (place : StoredPath) : splitextExt (place.directory ++ name) = splitextExt name := by
  have same : pathName (place.directory ++ name) = pathName name := by
    rw [place.pathName kept,pathName_free (name_free kept (by simp))]
  unfold splitextExt
  rw [same]

omit kept in
theorem Url.text_eq (url : Url) (name : Text) : ∃ front, url.text name = front ++ '/' :: (name ++ url.queryText) := by
  have path : ∃ front, url.path = front ++ ['/'] := by
    rcases folderText_cases ([] :: url.folders) with empty | ends
    · cases empty
    · exact ends
  obtain ⟨front,ends⟩ := path
  refine ⟨url.first :: url.scheme ++ ':' :: '/' :: '/' :: (url.netloc ++ front),?_⟩
  rw [Url.text,ends]
  simp

/-- The last component of a URL is that of its query, where that has a slash. -/
theorem pathName_url (url : Url) :
    pathName (url.text name) = if '/' ∈ url.queryText then pathName url.queryText else name ++ url.queryText := by
  obtain ⟨front,text⟩ := Url.text_eq url name
  rw [text]
  split
  · rename_i slash
    have regroup : front ++ '/' :: (name ++ url.queryText) = (front ++ '/' :: name) ++ url.queryText := by simp
    rw [regroup,pathName_append_mem _ slash]
  · rename_i flat
    exact pathName_append (List.not_mem_append (name_free kept (by simp)) flat)

omit kept in
theorem queryText_cases (url : Url) : url.queryText = [] ∨ ∃ text, url.queryText = '?' :: text := by
  unfold Url.queryText
  cases url.query with
  | none => exact .inl rfl
  | some text => exact .inr ⟨text,rfl⟩

omit kept in
theorem prefix_mark {mark : Text} (free : '?' ∉ mark) (text rest : Text) :
    mark <+: text ++ '?' :: rest ↔ mark <+: text := by
  induction text generalizing mark with
  | nil =>
    cases mark with
    | nil => simp
    | cons c mark =>
      have other : c ≠ '?' := fun same => free (same ▸ List.mem_cons_self)
      simp [List.cons_prefix_cons,other]
  | cons c text ih =>
    cases mark with
    | nil => simp
    | cons d mark =>
      rw [List.cons_append,List.cons_prefix_cons,List.cons_prefix_cons,
        ih fun member => free (List.mem_cons_of_mem _ member)]

/-- The extension of a URL is that of its query where this has a dot or a slash, and else begins
    like that of the name. -/
theorem prefix_url (url : Url) {mark : Text} (free : '?' ∉ mark) :
    mark <+: splitextExt (url.text name) ↔
      mark <+: splitextExt (if '/' ∈ url.queryText ∨ '.' ∈ url.queryText then url.queryText else name) := by
  have last := pathName_url kept url
  by_cases slash : '/' ∈ url.queryText
  · have same : splitextExt (url.text name) = splitextExt url.queryText := by
      rw [if_pos slash] at last
      unfold splitextExt
      rw [last]
    rw [if_pos (.inl slash),same]
  rw [if_neg slash] at last
  by_cases dot : '.' ∈ url.queryText
  · rw [if_pos (.inr dot)]
    rcases dot_cases url.queryText with free | ⟨base,after,split,free⟩
    · exact absurd dot free
    have named : base.any (· ≠ '.') := by
      rcases queryText_cases url with empty | ⟨text,asked⟩
      · rw [empty] at dot
        cases dot
      · rw [asked] at split
        cases base with
        | nil => cases split
        | cons c base =>
          rw [List.cons_append,List.cons.injEq] at split
          rw [← split.1]
          rfl
    have longer : pathName (url.text name) = (name ++ base) ++ '.' :: after := by rw [last,split,List.append_assoc]
    have query : pathName url.queryText = base ++ '.' :: after := by rw [pathName_free slash,split]
    rw [splitextExt_dot longer free,splitextExt_dot query free,if_pos named,if_pos]
    rw [List.any_append,named,Bool.or_true]
  · rw [if_neg (not_or.mpr ⟨slash,dot⟩)]
    have flat : pathName name = name := pathName_free (name_free kept (by simp))
    rcases dot_cases name with dotless | ⟨base,after,split,dotless⟩
    · rw [splitextExt_free (by rw [last]; exact List.not_mem_append dotless dot),splitextExt_free (by rwa [flat])]
    · have longer : pathName (url.text name) = base ++ '.' :: (after ++ url.queryText) := by rw [last,split]; simp
      rw [splitextExt_dot longer (List.not_mem_append dotless dot),splitextExt_dot (flat.trans split) dotless]
      split
      · rcases queryText_cases url with empty | ⟨text,asked⟩
        · rw [empty,List.append_nil]
        · rw [asked,← List.cons_append,prefix_mark free]
      · rfl

end References

theorem copiedMark_plain {format : Format} {mark : Text} (copied : copiedMark format = some mark) : '?' ∉ mark := by
  cases format <;> cases copied <;> decide

theorem prefix_reference {name : Text} (kept : ∀ c ∈ name, nameChar c) (reference : Reference) {mark : Text}
    (free : '?' ∉ mark) :
    mark <+: splitextExt (reference.text name) ↔
      mark <+: splitextExt (if '/' ∈ reference.queryText ∨ '.' ∈ reference.queryText then reference.queryText else name) := by
  cases reference with
  | stored place =>
    rw [Reference.text,splitextExt_stored kept]
    simp [Reference.queryText]
  | remote address => exact prefix_url kept address free

/-- The worker takes the ending whose mark the extension begins with. -/
theorem destinationSuffix_iff (reference : Text) (format : Option Format) :
    (∃ ending, destinationSuffix reference = some ending ∧ extensionFormat ending.toList = format) ↔
      ∃ kind mark, format = some kind ∧ copiedMark kind = some mark ∧ mark <+: splitextExt reference := by
  have apart (second : Text) {first : Text} (clash : ¬ first <+: second ∧ ¬ second <+: first)
      (begins : first <+: splitextExt reference) : ¬ second <+: splitextExt reference := by
    intro other
    exact (List.prefix_or_prefix_of_prefix begins other).elim clash.1 clash.2
  unfold destinationSuffix
  constructor
  · rintro ⟨ending,taken,rfl⟩
    simp only at taken
    split_ifs at taken with csv parquet gz zst
    · cases taken
      exact ⟨.csv,_,by decide,rfl,csv⟩
    · cases taken
      exact ⟨.parquet,_,by decide,rfl,parquet⟩
    · cases taken
      exact ⟨.tarGz,_,by decide,rfl,gz⟩
    · cases taken
      exact ⟨.tarZst,_,by decide,rfl,zst⟩
  · rintro ⟨kind,mark,rfl,copied,begins⟩
    cases kind <;> cases copied
    · exact ⟨".csv",by simp only [begins,if_true],by decide⟩
    · have csv := apart ".csv".toList (by decide) begins
      exact ⟨".parquet",by simp only [csv,begins,if_true,if_false],by decide⟩
    · have csv := apart ".csv".toList (by decide) begins
      have parquet := apart ".parquet".toList (by decide) begins
      exact ⟨".tar.gz",by simp only [csv,parquet,begins,if_true,if_false],by decide⟩
    · have csv := apart ".csv".toList (by decide) begins
      have parquet := apart ".parquet".toList (by decide) begins
      have gz := apart ".gz".toList (by decide) begins
      exact ⟨".tar.zst",by simp only [csv,parquet,gz,begins,if_true,if_false],by decide⟩

theorem join_injective {path name other : Text} (same : join path name = join path other) : name = other := by
  unfold join at same
  split at same
  · exact List.append_cancel_left same
  · exact (List.cons.inj (List.append_cancel_left same)).2

theorem zst_append {front name : Text} (named : tarGz <:+ name ∨ tarZst <:+ name) :
    tarZst <:+ front ++ name ↔ tarZst <:+ name := by
  constructor
  · intro ends
    refine named.resolve_left fun gz => ?_
    -- the last characters differ
    have last {text suffix : Text} {c : Char} (ends : suffix ++ [c] <:+ text) : text.getLast? = some c := by
      obtain ⟨rest,rfl⟩ := ends
      simp
    have zst : (front ++ name).getLast? = some 't' := @last _ ".tar.zs".toList 't' ends
    have other : (front ++ name).getLast? = some 'z' :=
      @last _ ".tar.g".toList 'z' (gz.trans (List.suffix_append _ _))
    rw [zst] at other
    cases other
  · intro ends
    exact ends.trans (List.suffix_append _ _)

/-- The stored name of an archive ends as the archive does. -/
theorem stored_archive (storeAsFilename : Bool) (uuid : Uuid) {name : Text} (named : tarGz <:+ name ∨ tarZst <:+ name) :
    (tarGz <:+ randomFileName storeAsFilename uuid name ∨ tarZst <:+ randomFileName storeAsFilename uuid name) ∧
      (tarZst <:+ randomFileName storeAsFilename uuid name ↔ tarZst <:+ name) := by
  cases storeAsFilename with
  | true => exact ⟨named,Iff.rfl⟩
  | false =>
    obtain ⟨after,which,free,-,ends⟩ := archive_ending named
    rw [randomFileName_archive uuid free named ends]
    rcases which with ⟨rfl,gz⟩ | ⟨rfl,zst⟩
    · have stored : tarGz <:+ uuid.hex ++ (".tar.".toList ++ "gz".toList) := List.suffix_append _ _
      refine ⟨.inl stored,iff_of_false ?_ ?_⟩
      · intro other
        exact absurd ((zst_append (.inl List.suffix_rfl)).mp other) (by decide)
      · obtain ⟨front,rfl⟩ := gz
        intro other
        exact absurd ((zst_append (.inl List.suffix_rfl)).mp other) (by decide)
    · have stored : tarZst <:+ uuid.hex ++ (".tar.".toList ++ "zst".toList) := List.suffix_append _ _
      exact ⟨.inr stored,iff_of_true stored zst⟩

/-- Which archives the server takes a reference for. -/
theorem archiveSuffix_zst {name : Text} (kept : ∀ c ∈ name, nameChar c) (named : tarGz <:+ name ∨ tarZst <:+ name)
    (reference : Reference) : tarZst <:+ urlPath (reference.text name) ↔
      match reference with
      | .stored place =>
        if '?' ∈ place.directory ∨ '#' ∈ place.directory then tarZst <:+ urlPath place.directory else tarZst <:+ name
      | .remote _ => tarZst <:+ name := by
  cases reference with
  | stored place =>
    simp only [Reference.text]
    split
    · rename_i marked
      rw [urlPath_marked kept marked]
    · rename_i plain
      rw [not_or] at plain
      rw [urlPath_path kept plain.1 plain.2,zst_append named]
  | remote address =>
    simp only [Reference.text]
    rw [urlPath_url kept address,zst_append named]

theorem mem_of_lookup {α β : Type} [BEq α] [LawfulBEq α] {key : α} {value : β} {entries : List (α × β)}
    (held : entries.lookup key = some value) : (key,value) ∈ entries := by
  obtain ⟨before,after,rfl,-⟩ := List.lookup_eq_some_iff.mp held
  exact List.mem_append_right _ List.mem_cons_self

/-- An ending of the format of an archive is the one that the server takes exactly where both
    see the same kind of archive. -/
theorem agrees_iff {file : Archive} {reference ending : Text} (format : extensionFormat ending = (Source.archive file).format) :
    ending = '.' :: archiveSuffix reference ↔ (tarZst <:+ urlPath reference ↔ tarZst <:+ file.name) := by
  have found {kind : Format} {ext : Text} (held : extensionFormat ext = some kind) (archive : kind = .tarGz ∨ kind = .tarZst) :
      ext = if kind = .tarZst then tarZst else tarGz := by
    have member := mem_of_lookup held
    rcases archive with rfl | rfl
    · simpa using member
    · simpa using member
  unfold archiveSuffix
  by_cases zst : tarZst <:+ file.name
  · rw [Source.format,if_pos zst] at format
    rw [found format (.inr rfl),if_pos rfl]
    by_cases path : tarZst <:+ urlPath reference
    · simp only [path,zst,if_true,iff_true]
      rfl
    · simp only [path,zst,if_false,iff_true,iff_false]
      decide
  · rw [Source.format,if_neg zst] at format
    rw [found format (.inl rfl),if_neg (by decide)]
    by_cases path : tarZst <:+ urlPath reference
    · simp only [path,zst,if_true,iff_false]
      decide
    · simp only [path,zst,if_false,iff_true]
      rfl

theorem nameChar_of_lower {c : Char} (lowered : nameChar c.toLower) : nameChar c := by
  unfold Char.toLower at lowered
  split at lowered
  · rename_i upper
    simp only [ge_iff_le,UInt32.le_iff_toNat_le] at upper
    change 65 ≤ c.toNat ∧ c.toNat ≤ 90 at upper
    have other {d : Char} (outside : d.toNat < 65 ∨ 90 < d.toNat) : c ≠ d := by
      rintro rfl
      omega
    simp only [nameChar,visible,Bool.and_eq_true,decide_eq_true_eq,List.mem_cons,List.not_mem_nil,or_false,not_or]
    exact ⟨⟨other (by decide),other (by decide),other (by decide),other (by decide),other (by decide)⟩,by omega⟩
  · exact lowered

/-- An extension that the server knows has such characters only. -/
theorem known_chars {name : Text} (known : fileExtention name ∈ extentionMapping.map Prod.fst) :
    ∀ c ∈ splitextExt name, nameChar c := by
  have keys : (extentionMapping.map Prod.fst).all (fun key => key ≠ [] ∧ key.all nameChar) := by decide
  have key := List.all_eq_true.mp keys _ known
  simp only [decide_eq_true_eq,List.all_eq_true] at key
  obtain ⟨some,chars⟩ := key
  unfold fileExtention suffix cutExtension lower at some chars
  unfold splitextExt
  simp only at some chars ⊢
  split at some
  · rename_i cut
    rw [if_pos cut] at chars
    intro c member
    split at member
    · rcases List.mem_cons.mp member with rfl | held
      · decide
      · refine nameChar_of_lower (chars c.toLower ?_)
        simp only [List.drop_succ_cons,List.drop_zero]
        exact List.mem_map_of_mem held
    · cases member
  · exact absurd rfl some

/-- The storage keeps every character of the names that it makes up. -/
theorem randomFileName_chars (source : Source) (uuid : Uuid) :
    ∀ c ∈ randomFileName false uuid source.name, nameChar c := by
  intro c member
  by_cases named : tarGz <:+ source.name ∨ tarZst <:+ source.name
  · obtain ⟨after,which,free,-,ends⟩ := archive_ending named
    rw [randomFileName_archive uuid free named ends] at member
    have ending : ∀ c ∈ ".tar.".toList ++ after, nameChar c := by
      rcases which with ⟨rfl,-⟩ | ⟨rfl,-⟩ <;> exact List.all_eq_true.mp (by decide)
    exact (List.mem_append.mp member).elim (fun digit => (uuid.char digit).1) (ending c)
  · cases source with
    | archive file => exact absurd file.named named
    | upload file =>
      rw [randomFileName,if_neg Bool.false_ne_true,if_neg named] at member
      exact (List.mem_append.mp member).elim (fun digit => (uuid.char digit).1) (known_chars file.known c)

/-- The copy keeps the format of the file exactly under the condition; a name that is stored as
    it is has the characters that the storage keeps. -/
theorem format_kept_iff (source : Source) (storeAsFilename : Bool) (uuid : Uuid)
    (named : storeAsFilename = true → ∀ c ∈ source.name, nameChar c) (reference : Reference)
    (destinationDir destinationTitle : Text) :
    KeepsFormat source (reference.text (randomFileName storeAsFilename uuid source.name)) destinationDir destinationTitle ↔
      FormatStays source reference := by
  have kept : ∀ c ∈ randomFileName storeAsFilename uuid source.name, nameChar c := by
    cases storeAsFilename with
    | true => exact named rfl
    | false => exact randomFileName_chars source uuid
  have extension (mark : Text) (free : '?' ∉ mark) :
      mark <+: splitextExt (reference.text (randomFileName storeAsFilename uuid source.name)) ↔
        mark <+: splitextExt
          (if '/' ∈ reference.queryText ∨ '.' ∈ reference.queryText then reference.queryText else source.name) := by
    rw [prefix_reference kept reference free]
    split
    · rfl
    · rw [splitextExt_randomFileName]
  have server (file : Archive) (same : source = .archive file) :
      (tarZst <:+ urlPath (reference.text (randomFileName storeAsFilename uuid source.name)) ↔ tarZst <:+ file.name) ↔
        ∀ place, reference = .stored place → '?' ∈ place.directory ∨ '#' ∈ place.directory →
          (tarZst <:+ urlPath place.directory ↔ tarZst <:+ file.name) := by
    subst same
    obtain ⟨stored,which⟩ := stored_archive storeAsFilename uuid file.named
    rw [archiveSuffix_zst kept stored]
    cases reference with
    | stored place =>
      by_cases marked : '?' ∈ place.directory ∨ '#' ∈ place.directory
      · simp [marked]
      · simp only [marked,if_false]
        exact iff_of_true which fun other same => by cases same; exact fun held => absurd held marked
    | remote address => exact iff_of_true which fun other same => nomatch same
  unfold KeepsFormat FormatStays getDestinationFile
  constructor
  · rintro ⟨ext,copied,format,agrees⟩
    obtain ⟨ending,taken,joined⟩ := Option.map_eq_some_iff.mp copied
    obtain rfl : ending.toList = ext := List.append_cancel_left (join_injective joined)
    obtain ⟨kind,mark,known,copies,begins⟩ := (destinationSuffix_iff _ _).mp ⟨ending,taken,format⟩
    refine ⟨⟨kind,mark,known,copies,(extension mark (copiedMark_plain copies)).mp begins⟩,?_⟩
    intro file place same
    have together := (agrees_iff (same ▸ format)).mp (agrees file same)
    exact (server file same).mp together place
  · rintro ⟨⟨kind,mark,known,copies,begins⟩,directories⟩
    obtain ⟨ending,taken,format⟩ :=
      (destinationSuffix_iff _ source.format).mpr ⟨kind,mark,known,copies,(extension mark (copiedMark_plain copies)).mpr begins⟩
    refine ⟨ending.toList,by rw [taken]; rfl,format,?_⟩
    intro file same
    exact (agrees_iff (same ▸ format)).mpr ((server file same).mpr fun place => directories file place same)

theorem every_char {P : Char → Prop} [DecidablePred P] {text : Text} (all : text.all (fun c => P c) = true) :
    ∀ c ∈ text, P c := by
  simpa using all

def someUuid : Uuid := ⟨"0123456789abcdef0123456789abcdef".toList,every_char (by decide),by decide⟩

def locations : Upload := ⟨["text/csv"],"location.csv".toList,"text/csv",by decide,by decide⟩

def parquetLocations : Upload :=
  ⟨["application/octet-stream"],"location.pq".toList,"application/octet-stream",by decide,by decide⟩

/-- A URL of an object in a bucket, with a query. -/
def bucketUrl (query : Text) (chars : query.all fun c => c ≠ '#' ∧ visible c) : Url where
  first := 'h'
  scheme := "ttps".toList
  netloc := "storage.googleapis.com".toList
  folders := ["bucket".toList]
  query := some query
  letter := by decide
  schemeChars := every_char (by decide)
  netlocChars := every_char (by decide)
  folderChars := by
    intro folder member
    rw [List.mem_singleton.mp member]
    exact every_char (by decide)
  queryChars := by
    rintro text given
    cases given
    exact every_char chars

def rootPath : StoredPath where
  absolute := true
  folders := ["shared-fs".toList]
  named := by
    intro folder member
    rw [List.mem_singleton.mp member]
    exact ⟨by decide,every_char (by decide)⟩

/-- A signed URL whose query has a dot, and a file called `.pq`: the worker raises. -/
theorem formats_lost :
    ¬ KeepsFormat (.upload locations)
        ((Reference.remote (bucketUrl "GoogleAccessId=svc@p.iam.gserviceaccount.com".toList (by decide))).text
          (randomFileName false someUuid locations.name)) "/tmp".toList "location".toList ∧
      ¬ KeepsFormat (.upload parquetLocations)
        ((Reference.stored rootPath).text (randomFileName false someUuid parquetLocations.name))
          "/tmp".toList "location".toList := by
  constructor
  · rintro ⟨ext,copied,-⟩
    have raised : destinationSuffix
        ((Reference.remote (bucketUrl "GoogleAccessId=svc@p.iam.gserviceaccount.com".toList (by decide))).text
          (randomFileName false someUuid locations.name)) = none := by decide
    rw [getDestinationFile,raised] at copied
    cases copied
  · rintro ⟨ext,copied,-⟩
    have raised : destinationSuffix
        ((Reference.stored rootPath).text (randomFileName false someUuid parquetLocations.name)) = none := by decide
    rw [getDestinationFile,raised] at copied
    cases copied

def outputArchive : Archive := ⟨"output.tar.zst".toList,.inr (by decide)⟩

theorem signed_archive_kept :
    KeepsFormat (.archive outputArchive)
      ((Reference.remote (bucketUrl "sig=abc".toList (by decide))).text (randomFileName true someUuid outputArchive.name))
      "/tmp".toList "output".toList := by
  refine (format_kept_iff (.archive outputArchive) true someUuid (fun _ => every_char (by decide)) _ _ _).mpr ⟨?_,?_⟩
  · exact ⟨.tarZst,".zst".toList,by decide,rfl,by decide⟩
  · intro file place same other
    cases other

end OasisPlatform.FileFormats
