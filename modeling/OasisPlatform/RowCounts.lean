import Mathlib.Data.List.Infix
import OasisPlatform.CsvText
import OasisPlatform.Starting

/-!
The number of rows of an uploaded location file, which the server counts without loading the
file: from the footer of a parquet file, else by reading the text of a table, which may be
compressed. `count_upload` has it that the rows of every table are counted, whichever way it
is written, and that the start of an input generation goes on with this number. A byte order
mark is a character of the first field, so that a field in quotes cannot follow it.
-/
namespace OasisPlatform.RowCounts
open CsvText OasisPlatform.Starting
set_option linter.unusedSimpArgs false

abbrev Bytes := List UInt8

inductive ReadError where
  | unreadable
  | severalFiles (names : Nat)
  | notUtf8
  | csv (error : CsvError)
  deriving Repr

/-- The libraries that read compressed bytes and the footer of a parquet file. -/
structure Codecs where
  gunzip : Bytes → Except ReadError Bytes
  bunzip2 : Bytes → Except ReadError Bytes
  unxz : Bytes → Except ReadError Bytes
  unzip : Bytes → Except ReadError (List (String × Bytes))
  parquetRows : Bytes → Except ReadError Nat

structure Upload where
  content : Bytes
  contentType : String

def gzipMagic : Bytes := [0x1f,0x8b]

/-- `b'BZh'`. -/
def bzip2Magic : Bytes := [0x42,0x5a,0x68]

/-- `b'\xfd7zXZ\x00'`. -/
def xzMagic : Bytes := [0xfd,0x37,0x7a,0x58,0x5a,0x00]

/-- `b'PK\x03\x04'`. -/
def zipMagic : Bytes := [0x50,0x4b,0x03,0x04]

/-- `b'PAR1'`. -/
def parquetMagic : Bytes := [0x50,0x41,0x52,0x31]

/-- `_open_decompressed_upload`. -/
def openDecompressedUpload (codecs : Codecs) (content : Bytes) : Except ReadError Bytes :=
  let magic := content.take 6
  if gzipMagic <+: magic then codecs.gunzip content
  else if bzip2Magic <+: magic then codecs.bunzip2 content
  else if xzMagic <+: magic then codecs.unxz content
  else if zipMagic <+: magic then do
    match ← codecs.unzip content with
    | [(_,entry)] => .ok entry
    | entries => .error (.severalFiles entries.length)
  else .ok content

/-- What `TextIOWrapper(stream, encoding='utf-8')` gives. -/
def decode (bytes : Bytes) : Except ReadError (List Char) :=
  match bytes.toByteArray.utf8Decode? with
  | some text => .ok text.toList
  | none => .error .notUtf8

def encode (text : List Char) : Bytes := text.flatMap String.utf8EncodeChar

/-- `csv.field_size_limit()`. -/
def fieldSizeLimit : Nat := 131072

/-- `related_file_row_count`. The text is decoded as it is read, so that of two errors the
    earlier one is raised; the order of errors is not kept here. -/
def relatedFileRowCount (codecs : Codecs) : Option Upload → Except ReadError (Option Nat)
  | none => .ok none
  | some upload =>
    if upload.contentType = "application/octet-stream" ∨ upload.content.take 4 = parquetMagic then
      (codecs.parquetRows upload.content).map some
    else do
      let text ← decode (← openDecompressedUpload codecs upload.content)
      match readRows fieldSizeLimit text with
      | .error error => .error (.csv error)
      | .ok rows => .ok (some ((rows.filter (· ≠ [])).length - 1))

/-- How an upload holds bytes: as they are, where nothing tells them apart from something
    else, or compressed. -/
inductive Holds (codecs : Codecs) : Bytes → Bytes → Prop where
  | plain {bytes : Bytes} (parquet : ¬ parquetMagic <+: bytes) (bzip2 : ¬ bzip2Magic <+: bytes)
      (zip : ¬ zipMagic <+: bytes) : Holds codecs bytes bytes
  | gzip {content bytes : Bytes} (magic : gzipMagic <+: content) (reads : codecs.gunzip content = .ok bytes) :
      Holds codecs content bytes
  | bzip2 {content bytes : Bytes} (magic : bzip2Magic <+: content) (reads : codecs.bunzip2 content = .ok bytes) :
      Holds codecs content bytes
  | xz {content bytes : Bytes} (magic : xzMagic <+: content) (reads : codecs.unxz content = .ok bytes) :
      Holds codecs content bytes
  | zip {content bytes : Bytes} (name : String) (magic : zipMagic <+: content)
      (reads : codecs.unzip content = .ok [(name,bytes)]) : Holds codecs content bytes

theorem decode_encode (text : List Char) : decode (encode text) = .ok text := by
  have bytes : (encode text).toByteArray = text.utf8Encode := rfl
  simp [decode,bytes]

/-- No character begins with a byte that continues one, and none with a byte from 0xf8 on. -/
theorem utf8EncodeChar_head (c : Char) :
    ∃ first later, String.utf8EncodeChar c = first :: later ∧
      (first.toNat < 0x80 ∧ later = [] ∨ 0xc0 ≤ first.toNat) ∧ first.toNat < 0xf8 := by
  unfold String.utf8EncodeChar
  dsimp only
  split_ifs with one two three
  · exact ⟨_,_,rfl,by simp only [UInt8.toNat_ofNat',and_true]; omega⟩
  · exact ⟨_,_,rfl,by simp only [UInt8.toNat_ofNat']; omega⟩
  · exact ⟨_,_,rfl,by simp only [UInt8.toNat_ofNat']; omega⟩
  · exact ⟨_,_,rfl,by simp only [UInt8.toNat_ofNat']; omega⟩

theorem encode_cons {text : List Char} {first : UInt8} {later : Bytes} (starts : encode text = first :: later) :
    (first.toNat < 0x80 ∧ (∃ rest, later = encode rest) ∨ 0xc0 ≤ first.toNat) ∧ first.toNat < 0xf8 := by
  cases text with
  | nil => cases starts
  | cons c text =>
    obtain ⟨byte,more,encoded,kinds,low⟩ := utf8EncodeChar_head c
    rw [encode,List.flatMap_cons,encoded,List.cons_append,List.cons.injEq] at starts
    obtain ⟨rfl,rest⟩ := starts
    refine ⟨kinds.imp_left fun ascii => ⟨ascii.1,text,?_⟩,low⟩
    rw [← rest,ascii.2]
    rfl

theorem encode_gzip (text : List Char) : ¬ gzipMagic <+: encode text := by
  rintro ⟨rest,starts⟩
  obtain ⟨kinds | high,_⟩ := encode_cons starts.symm
  · obtain ⟨_,later,encoded⟩ := kinds
    obtain ⟨⟨low,_⟩ | high,_⟩ := encode_cons encoded.symm
    · exact absurd low (by decide)
    · exact absurd high (by decide)
  · exact absurd high (by decide)

theorem encode_xz (text : List Char) : ¬ xzMagic <+: encode text := by
  rintro ⟨rest,starts⟩
  exact absurd (encode_cons starts.symm).2 (by decide)

/-- Two markers that differ early are not both at the start of a file. -/
theorem marked_apart {magic : Bytes} (other : Bytes) (apart : ¬ magic <+: other ∧ ¬ other <+: magic)
    {content : Bytes} (marked : magic <+: content) : ¬ other <+: content := by
  intro also
  rcases List.prefix_or_prefix_of_prefix marked also with shorter | shorter
  · exact apart.1 shorter
  · exact apart.2 shorter

theorem holds_opened {codecs : Codecs} {content : Bytes} {text : List Char}
    (holds : Holds codecs content (encode text)) :
    openDecompressedUpload codecs content = .ok (encode text) ∧ content.take 4 ≠ parquetMagic := by
  have marker : ∀ magic : Bytes, magic.length ≤ 6 → (magic <+: content.take 6 ↔ magic <+: content) := by
    intro magic short
    rw [List.prefix_take_iff]
    exact and_iff_left short
  have footer : content.take 4 = parquetMagic ↔ parquetMagic <+: content := by
    rw [List.prefix_iff_eq_take]
    exact eq_comm
  simp only [openDecompressedUpload,marker gzipMagic (by decide),marker bzip2Magic (by decide),
    marker xzMagic (by decide),marker zipMagic (by decide),ne_eq,footer]
  cases holds with
  | plain parquet bzip2 zip => exact ⟨by simp [encode_gzip,encode_xz,bzip2,zip],parquet⟩
  | gzip magic reads => exact ⟨by simp [magic,reads],marked_apart parquetMagic (by decide) magic⟩
  | bzip2 magic reads =>
    have gzip := marked_apart gzipMagic (by decide) magic
    exact ⟨by simp [gzip,magic,reads],marked_apart parquetMagic (by decide) magic⟩
  | xz magic reads =>
    have gzip := marked_apart gzipMagic (by decide) magic
    have bzip2 := marked_apart bzip2Magic (by decide) magic
    exact ⟨by simp [gzip,bzip2,magic,reads],marked_apart parquetMagic (by decide) magic⟩
  | zip name magic reads =>
    have gzip := marked_apart gzipMagic (by decide) magic
    have bzip2 := marked_apart bzip2Magic (by decide) magic
    have xz := marked_apart xzMagic (by decide) magic
    exact ⟨by simp [gzip,bzip2,xz,magic,reads,bind,Except.bind],marked_apart parquetMagic (by decide) magic⟩

/-- What a start reads, with an uploaded location file. -/
def withLocationFile (ctx : StartContext) (codecs : Codecs) (describe : ReadError → String) (file : Models.FileId)
    (upload : Upload) : StartContext :=
  {ctx with
    portfolio := {ctx.portfolio with locationFile := some file}
    locationFileLen := match relatedFileRowCount codecs (some upload) with
      | .ok rows => .ok (rows.getD 0)
      | .error error => .error (describe error)}

/-- The data rows of a table are counted: all but the header, whatever is in their fields and
    however the file is written. -/
theorem count_table {codecs : Codecs} {upload : Upload} {table : Table}
    (csv : upload.contentType ≠ "application/octet-stream")
    (fits : ∀ record ∈ table.records, record.Fits fieldSizeLimit)
    (holds : Holds codecs upload.content (encode table.text)) :
    relatedFileRowCount codecs (some upload) = .ok (some (table.records.length - 1)) := by
  obtain ⟨opened,footer⟩ := holds_opened holds
  have read := readRows_table table fits
  simp only [relatedFileRowCount,csv,footer,or_self,if_false,opened,bind,Except.bind,decode_encode]
  cases rows : readRows fieldSizeLimit table.text with
  | error error => rw [rows] at read; cases read
  | ok given =>
    rw [rows] at read
    have shownRows : given.filter (· ≠ []) = table.records.map Record.fields := by simpa [shown,Except.map] using read
    dsimp only
    rw [shownRows,List.length_map]

/-- A text of any kind is counted, if only its fields are not too long. -/
theorem count_text {codecs : Codecs} {upload : Upload} {text : List Char}
    (csv : upload.contentType ≠ "application/octet-stream") (holds : Holds codecs upload.content (encode text)) :
    (∃ rows, relatedFileRowCount codecs (some upload) = .ok (some rows)) ∨
      relatedFileRowCount codecs (some upload) = .error (.csv .fieldLargerThanLimit) := by
  obtain ⟨opened,footer⟩ := holds_opened holds
  simp only [relatedFileRowCount,csv,footer,or_self,if_false,opened,bind,Except.bind,decode_encode]
  cases rows : readRows fieldSizeLimit text with
  | ok given => exact .inl ⟨_,rfl⟩
  | error error =>
    rw [readRows_error rows]
    exact .inr rfl

/-- Whatever the text is, its rows are counted or a field is too long; where it is that of a
    table, all rows but the header are, and a generation of inputs starts with this number
    unless there is none. -/
theorem count_upload {codecs : Codecs} {upload : Upload} {text : List Char}
    (csv : upload.contentType ≠ "application/octet-stream") (holds : Holds codecs upload.content (encode text)) :
    ((∃ rows, relatedFileRowCount codecs (some upload) = .ok (some rows)) ∨
        relatedFileRowCount codecs (some upload) = .error (.csv .fieldLargerThanLimit)) ∧
      ∀ table : Table, table.text = text → (∀ record ∈ table.records, record.Fits fieldSizeLimit) →
        relatedFileRowCount codecs (some upload) = .ok (some (table.records.length - 1)) ∧
          ∀ ctx describe file model,
            validateV2LocationFile (withLocationFile ctx codecs describe file upload) model [] =
                (some (table.records.length - 1),
                  setErrorWhen (table.records.length < 2) [] "portfolio" "\"location_file\" must at least one row") := by
  refine ⟨count_text csv holds,?_⟩
  rintro table rfl fits
  have counted := count_table csv fits holds
  refine ⟨counted,fun ctx describe file model => ?_⟩
  simp only [validateV2LocationFile,withLocationFile,counted,Option.getD_some]
  have few : table.records.length - 1 < 1 ↔ table.records.length < 2 := by omega
  simp only [few]

/-- A field that is written as it is. -/
def bare (content : List Char) (plain : content.head? ≠ some '"' ∧ ∀ c ∈ content, isEnd c = false ∧ c ≠ ',') : Field :=
  ⟨content,false,fun _ => plain⟩

/-- A location file as it may be uploaded: a byte order mark, a note over two lines, a blank
    line, no line end after the last row. -/
def notedTable : Table where
  rows := [(some ⟨bare ['\uFEFF','I','d'] (by simp [isEnd]),[bare ['N','o','t','e'] (by simp [isEnd])],by simp⟩,.crlf),
    (some ⟨bare ['1'] (by simp [isEnd]),[⟨['b','y','\n','"','c','"'],true,by simp⟩],by simp⟩,.cr),(none,.lf)]
  last := some ⟨bare ['2'] (by simp [isEnd]),[bare [] (by simp)],by simp⟩

def storedCodecs : Codecs where
  gunzip content := .ok (content.drop 2)
  bunzip2 content := .ok (content.drop 3)
  unxz content := .ok (content.drop 6)
  unzip content := .ok [("location.csv",content.drop 4)]
  parquetRows _ := .error .unreadable

theorem count_upload_noted :
    relatedFileRowCount storedCodecs (some ⟨zipMagic ++ encode notedTable.text,"application/zip"⟩) = .ok (some 2) :=
  ((@count_upload storedCodecs ⟨zipMagic ++ encode notedTable.text,"application/zip"⟩ notedTable.text (by decide)
    (.zip "location.csv" (List.prefix_append _ _) rfl)).2 notedTable rfl
    (by simp [notedTable,bare,Table.records,Record.Fits,Record.fields,fieldSizeLimit])).1

end OasisPlatform.RowCounts
