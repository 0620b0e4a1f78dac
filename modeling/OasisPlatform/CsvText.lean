import Mathlib.Data.List.Basic

/-!
Comma-separated text: the lines of a file opened with `newline=''`, the reader of Python's
`csv` module with its default dialect, and the texts that are tables: rows of fields, written
bare or in quotes, with any line ends and with blank lines between them. `readRows_table`
reads a table back; `readRows_error` says what a text can be refused for.
-/
namespace OasisPlatform.CsvText
set_option linter.unusedSimpArgs false

def isEnd (c : Char) : Bool := c = '\n' || c = '\r'

/-- The lines of a text, each with its own end. -/
def lines : List Char → List (List Char)
  | [] => []
  | '\r' :: '\n' :: rest => ['\r','\n'] :: lines rest
  | c :: rest =>
    if isEnd c then [c] :: lines rest
    else
      match lines rest with
      | [] => [[c]]
      | line :: later => (c :: line) :: later

inductive Mode where
  | startRecord
  | startField
  | inField
  | inQuotedField
  | quoteInQuotedField
  | eatCrnl
  deriving DecidableEq, Repr

/-- What is read of a record: its fields so far and the field that is being read. -/
structure Reader where
  mode : Mode
  fields : List (List Char)
  field : List Char
  deriving DecidableEq, Repr

/-- The reader before a record. -/
def Reader.fresh : Reader := ⟨.startRecord,[],[]⟩

inductive CsvError where
  | fieldLargerThanLimit
  | newLineInUnquotedField
  deriving DecidableEq, Repr

section
variable (limit : Nat)

def Reader.addChar (reader : Reader) (c : Char) : Except CsvError Reader :=
  if limit ≤ reader.field.length then .error .fieldLargerThanLimit
  else .ok {reader with field := reader.field ++ [c]}

def Reader.saveField (reader : Reader) (mode : Mode) : Reader := ⟨mode,reader.fields ++ [reader.field],[]⟩

def Reader.inMode (reader : Reader) (mode : Mode) : Reader := {reader with mode := mode}

/-- A character, or the end of a line, where a field is expected. -/
def Reader.expectField (reader : Reader) : Option Char → Except CsvError Reader
  | none => .ok (reader.saveField .startRecord)
  | some c =>
    if isEnd c then .ok (reader.saveField .eatCrnl)
    else if c = '"' then .ok (reader.inMode .inQuotedField)
    else if c = ',' then .ok (reader.saveField .startField)
    else (reader.addChar limit c).map (·.inMode .inField)

/-- `parse_process_char`: one character of a line, or its end. -/
def Reader.process (reader : Reader) (char : Option Char) : Except CsvError Reader :=
  match reader.mode with
  | .startRecord =>
    match char with
    | none => .ok reader
    | some c => if isEnd c then .ok (reader.inMode .eatCrnl) else reader.expectField limit (some c)
  | .startField => reader.expectField limit char
  | .inField =>
    match char with
    | none => .ok (reader.saveField .startRecord)
    | some c =>
      if isEnd c then .ok (reader.saveField .eatCrnl)
      else if c = ',' then .ok (reader.saveField .startField)
      else reader.addChar limit c
  | .inQuotedField =>
    match char with
    | none => .ok reader
    | some c => if c = '"' then .ok (reader.inMode .quoteInQuotedField) else reader.addChar limit c
  | .quoteInQuotedField =>
    match char with
    | none => .ok (reader.saveField .startRecord)
    | some c =>
      if c = '"' then (reader.addChar limit c).map (·.inMode .inQuotedField)
      else if c = ',' then .ok (reader.saveField .startField)
      else if isEnd c then .ok (reader.saveField .eatCrnl)
      else (reader.addChar limit c).map (·.inMode .inField)
  | .eatCrnl =>
    match char with
    | none => .ok (reader.inMode .startRecord)
    | some c => if isEnd c then .ok reader else .error .newLineInUnquotedField

def Reader.processLine : (reader : Reader) → List Char → Except CsvError Reader
  | reader, [] => reader.process limit none
  | reader, c :: line => do (← reader.process limit (some c)).processLine line

/-- The records from here to the end of the lines. A record takes lines until one ends outside
    quotes; the last lines give a record of their own where the file ends inside them. -/
def Reader.readFrom : (reader : Reader) → List (List Char) → Except CsvError (List (List (List Char)))
  | reader, [] =>
    .ok (if reader.field ≠ [] ∨ reader.mode = .inQuotedField then [(reader.saveField .startRecord).fields] else [])
  | reader, line :: later => do
    let reader ← reader.processLine limit line
    if reader.mode = .startRecord then return reader.fields :: (← Reader.fresh.readFrom later)
    else reader.readFrom later

/-- `list(csv.reader(text))`. -/
def readRows (text : List Char) : Except CsvError (List (List (List Char))) := Reader.fresh.readFrom limit (lines text)

end

/-- A field as it is written, bare or in quotes. A bare one has nothing in it that the reader
    takes for something else. -/
structure Field where
  content : List Char
  quoted : Bool
  bare : quoted = false → content.head? ≠ some '"' ∧ ∀ c ∈ content, isEnd c = false ∧ c ≠ ','

def doubled (content : List Char) : List Char := content.flatMap fun c => if c = '"' then ['"','"'] else [c]

def Field.text (field : Field) : List Char :=
  if field.quoted then '"' :: (doubled field.content ++ ['"']) else field.content

/-- A row of fields, not one that is written as a blank line. -/
structure Record where
  first : Field
  later : List Field
  visible : later = [] → first.text ≠ []

def Record.text (record : Record) : List Char :=
  record.first.text ++ record.later.flatMap fun field => ',' :: field.text

def Record.fields (record : Record) : List (List Char) := record.first.content :: record.later.map Field.content

inductive LineEnd where
  | lf
  | cr
  | crlf
  deriving DecidableEq, Repr

def LineEnd.text : LineEnd → List Char
  | .lf => ['\n']
  | .cr => ['\r']
  | .crlf => ['\r','\n']

/-- Rows and blank lines, each with its line end, and perhaps a last row without one. -/
structure Table where
  rows : List (Option Record × LineEnd)
  last : Option Record

def rowText (row : Option Record × LineEnd) : List Char := (row.1.map Record.text).getD [] ++ row.2.text

def Table.text (table : Table) : List Char := table.rows.flatMap rowText ++ (table.last.map Record.text).getD []

def Table.records (table : Table) : List Record := table.rows.filterMap Prod.fst ++ table.last.toList

section
variable {limit : Nat}

/-- Whether a line ends with the character, before the rest of the text. -/
def endsLine (c : Char) (rest : List Char) : Bool := c = '\n' || c = '\r' && rest.head? ≠ some '\n'

variable (limit) in
/-- The reader over the characters of a text. `started` says that the line under way has
    characters, so that it ends where the text does. -/
def Reader.readChars : (started : Bool) → Reader → List Char → Except CsvError (List (List (List Char)))
  | started, reader, [] => reader.readFrom limit (if started then [[]] else [])
  | _, reader, c :: rest => do
    let reader ← reader.process limit (some c)
    if endsLine c rest then
      let reader ← reader.process limit none
      if reader.mode = .startRecord then return reader.fields :: (← Reader.fresh.readChars false rest)
      else reader.readChars false rest
    else reader.readChars true rest

theorem lines_eq_nil {text : List Char} : lines text = [] ↔ text = [] := by
  fun_cases lines text <;> simp_all

theorem lines_cons (c : Char) (rest : List Char) :
    lines (c :: rest) = if endsLine c rest then [c] :: lines rest else
      match lines rest with
      | [] => [[c]]
      | line :: later => (c :: line) :: later := by
  by_cases pair : c = '\r' ∧ rest.head? = some '\n'
  · obtain ⟨rfl,head⟩ := pair
    obtain ⟨later,rfl⟩ := List.head?_eq_some_iff.mp head
    simp [lines,endsLine,isEnd]
  · have single : endsLine c rest = isEnd c := by
      simp only [not_and] at pair
      by_cases cr : c = '\r'
      · simp [endsLine,isEnd,cr,pair cr]
      · simp [endsLine,isEnd,cr]
    rw [single]
    rcases rest with _ | ⟨d,rest⟩
    · simp [lines]
    · rw [lines]
      intro later cr same
      exact pair ⟨cr,by rw [same]; rfl⟩

/-- The lines under way hold what the reader has not seen of the text. -/
theorem readChars_eq (started : Bool) (reader : Reader) (text : List Char) :
    reader.readChars limit started text =
      reader.readFrom limit (if started = true ∧ text = [] then [[]] else lines text) := by
  induction text generalizing started reader with
  | nil => cases started <;> simp [Reader.readChars,lines]
  | cons c rest ih =>
    simp only [Reader.readChars,lines_cons,ih,reduceCtorEq,and_false,if_false]
    by_cases ends : endsLine c rest = true
    · simp only [ends,if_true,Bool.false_eq_true,false_and,if_false,Reader.readFrom,Reader.processLine,bind_assoc]
    · simp only [ends,if_false,true_and]
      cases left : lines rest with
      | nil =>
        rw [lines_eq_nil] at left
        simp [left,Reader.readFrom,Reader.processLine]
      | cons line later =>
        have more : rest ≠ [] := fun empty => by simp [empty,lines] at left
        simp [more,Reader.readFrom,Reader.processLine]

theorem readRows_chars (text : List Char) : readRows limit text = Reader.fresh.readChars limit false text := by
  rw [readChars_eq]
  rfl

/-! ### Fields, records and tables -/

/-- The states in which a field may end: what comes next closes it. -/
def Mode.closing (mode : Mode) : Prop := mode = .startField ∨ mode = .inField ∨ mode = .quoteInQuotedField

theorem readChars_inside {started : Bool} {reader after : Reader} {c : Char} {rest : List Char}
    (inside : isEnd c = false) (step : reader.process limit (some c) = .ok after) :
    reader.readChars limit started (c :: rest) = after.readChars limit true rest := by
  have goes : endsLine c rest = false := by
    simp only [isEnd,Bool.or_eq_false_iff,decide_eq_false_iff_not] at inside
    simp [endsLine,inside]
  simp [Reader.readChars,step,goes,bind,Except.bind]

/-- Within quotes the end of a line changes nothing. -/
theorem readChars_quoted (started : Bool) {reader after : Reader} {c : Char} (rest : List Char)
    (step : reader.process limit (some c) = .ok after) (quoted : after.mode = .inQuotedField) :
    ∃ later, reader.readChars limit started (c :: rest) = after.readChars limit later rest := by
  have stays : after.process limit none = .ok after := by simp [Reader.process,quoted]
  by_cases ends : endsLine c rest = true
  · exact ⟨false,by simp [Reader.readChars,step,ends,stays,quoted,bind,Except.bind]⟩
  · exact ⟨true,by simp [Reader.readChars,step,ends,bind,Except.bind]⟩

theorem addChar_fits {field : List Char} (fits : field.length < limit) (mode : Mode) (fields : List (List Char))
    (c : Char) : (Reader.mk mode fields field).addChar limit c = .ok ⟨mode,fields,field ++ [c]⟩ := by
  rw [Reader.addChar,if_neg (Nat.not_le.mpr fits)]

theorem readChars_doubled {content : List Char} (fields : List (List Char)) (field rest : List Char) (started : Bool)
    (fits : field.length + content.length ≤ limit) :
    (Reader.mk .inQuotedField fields field).readChars limit started (doubled content ++ '"' :: rest) =
      (Reader.mk .quoteInQuotedField fields (field ++ content)).readChars limit true rest := by
  induction content generalizing field started with
  | nil =>
    rw [List.append_nil]
    exact readChars_inside (by decide) rfl
  | cons c content ih =>
    rw [List.length_cons] at fits
    have room : field.length < limit := by omega
    have next := ih (field ++ [c])
    simp only [List.append_assoc,List.singleton_append] at next
    by_cases quote : c = '"'
    · subst quote
      have text : doubled ('"' :: content) ++ '"' :: rest = '"' :: '"' :: (doubled content ++ '"' :: rest) := rfl
      rw [text,readChars_inside (by decide) rfl]
      have step : (Reader.mk .quoteInQuotedField fields field).process limit (some '"') =
          .ok ⟨.inQuotedField,fields,field ++ ['"']⟩ := by
        simp [Reader.process,addChar_fits room,Except.map,Reader.inMode]
      obtain ⟨later,reads⟩ := readChars_quoted true (doubled content ++ '"' :: rest) step rfl
      exact reads.trans (next later (by simp; omega))
    · have text : doubled (c :: content) ++ '"' :: rest = c :: (doubled content ++ '"' :: rest) := by
        simp [doubled,quote]
      have step : (Reader.mk .inQuotedField fields field).process limit (some c) =
          .ok ⟨.inQuotedField,fields,field ++ [c]⟩ := by
        simp [Reader.process,quote,addChar_fits room]
      obtain ⟨later,reads⟩ := readChars_quoted started (doubled content ++ '"' :: rest) step rfl
      rw [text]
      exact reads.trans (next later (by simp; omega))

theorem readChars_bare {content : List Char} (plain : ∀ c ∈ content, isEnd c = false ∧ c ≠ ',')
    (fields : List (List Char)) (field rest : List Char) (fits : field.length + content.length ≤ limit) :
    (Reader.mk .inField fields field).readChars limit true (content ++ rest) =
      (Reader.mk .inField fields (field ++ content)).readChars limit true rest := by
  induction content generalizing field with
  | nil => simp
  | cons c content ih =>
    rw [List.length_cons] at fits
    obtain ⟨inside,apart⟩ := plain c List.mem_cons_self
    have step : (Reader.mk .inField fields field).process limit (some c) = .ok ⟨.inField,fields,field ++ [c]⟩ := by
      have room : field.length < limit := by omega
      simp [Reader.process,inside,apart,addChar_fits room]
    rw [List.cons_append,readChars_inside inside step,
      ih (fun d member => plain d (List.mem_cons_of_mem c member)) _ (by simp; omega)]
    simp

theorem readChars_field (field : Field) (fields : List (List Char)) (rest : List Char)
    (fits : field.content.length ≤ limit) :
    ∃ mode, mode.closing ∧ (Reader.mk .startField fields []).readChars limit true (field.text ++ rest) =
      (Reader.mk mode fields field.content).readChars limit true rest := by
  obtain ⟨content,quoted,bare⟩ := field
  cases quoted with
  | true =>
    refine ⟨.quoteInQuotedField,.inr (.inr rfl),?_⟩
    have text : Field.text ⟨content,true,bare⟩ ++ rest = '"' :: (doubled content ++ '"' :: rest) := by
      simp [Field.text]
    rw [text,readChars_inside (by decide) rfl]
    exact readChars_doubled fields [] rest true (by simpa using fits)
  | false =>
    obtain ⟨unquoted,plain⟩ := bare rfl
    cases content with
    | nil => exact ⟨.startField,.inl rfl,rfl⟩
    | cons c content =>
      refine ⟨.inField,.inr (.inl rfl),?_⟩
      obtain ⟨inside,apart⟩ := plain c List.mem_cons_self
      have step : (Reader.mk .startField fields []).process limit (some c) = .ok ⟨.inField,fields,[c]⟩ := by
        have quote : c ≠ '"' := fun same => unquoted (by simp [same])
        have room : ([] : List Char).length < limit := Nat.lt_of_lt_of_le (by simp) fits
        simp only [Reader.process,Reader.expectField,inside,quote,apart,addChar_fits room,Except.map,Reader.inMode]
        simp
      show (Reader.mk .startField fields []).readChars limit true (c :: (content ++ rest)) = _
      rw [readChars_inside inside step,
        readChars_bare (fun d member => plain d (List.mem_cons_of_mem c member)) fields [c] rest
          (by simp at fits ⊢; omega)]
      rfl

theorem process_comma {mode : Mode} (closing : mode.closing) (fields : List (List Char)) (field : List Char) :
    (Reader.mk mode fields field).process limit (some ',') = .ok ⟨.startField,fields ++ [field],[]⟩ := by
  rcases closing with rfl | rfl | rfl <;> rfl

theorem process_lineEnd {mode : Mode} (closing : mode.closing) {c : Char} (ends : isEnd c = true)
    (fields : List (List Char)) (field : List Char) :
    (Reader.mk mode fields field).process limit (some c) = .ok ⟨.eatCrnl,fields ++ [field],[]⟩ := by
  have kinds : c ≠ '"' ∧ c ≠ ',' := by
    constructor <;> rintro rfl <;> exact absurd ends (by decide)
  rcases closing with rfl | rfl | rfl <;> simp [Reader.process,Reader.expectField,ends,kinds,Reader.saveField]

theorem process_close {mode : Mode} (closing : mode.closing) (fields : List (List Char)) (field : List Char) :
    (Reader.mk mode fields field).process limit none = .ok ⟨.startRecord,fields ++ [field],[]⟩ := by
  rcases closing with rfl | rfl | rfl <;> rfl

theorem readChars_later {later : List Field} (fits : ∀ field ∈ later, field.content.length ≤ limit) {mode : Mode}
    (closing : mode.closing) (fields : List (List Char)) (field rest : List Char) :
    ∃ mode' fields' field', mode'.closing ∧ fields' ++ [field'] = fields ++ [field] ++ later.map Field.content ∧
      (Reader.mk mode fields field).readChars limit true ((later.flatMap fun other => ',' :: other.text) ++ rest) =
        (Reader.mk mode' fields' field').readChars limit true rest := by
  induction later generalizing mode fields field with
  | nil => exact ⟨mode,fields,field,closing,by simp,rfl⟩
  | cons other later ih =>
    obtain ⟨here,there⟩ := List.forall_mem_cons.mp fits
    obtain ⟨read,closes,reads⟩ := readChars_field other (fields ++ [field])
      ((later.flatMap fun other => ',' :: other.text) ++ rest) here
    obtain ⟨mode',fields',field',closing',total,goes⟩ := ih there closes (fields ++ [field]) other.content
    have comma : (Reader.mk mode fields field).readChars limit true
        (',' :: (other.text ++ ((later.flatMap fun other => ',' :: other.text) ++ rest))) =
        (Reader.mk .startField (fields ++ [field]) []).readChars limit true
          (other.text ++ ((later.flatMap fun other => ',' :: other.text) ++ rest)) :=
      readChars_inside (by decide) (process_comma closing fields field)
    refine ⟨mode',fields',field',closing',by simpa using total,?_⟩
    rw [← goes,← reads,← comma]
    simp

def Record.Fits (limit : Nat) (record : Record) : Prop := ∀ content ∈ record.fields, content.length ≤ limit

theorem text_head (field : Field) {c : Char} {rest : List Char} (text : field.text = c :: rest) : isEnd c = false := by
  obtain ⟨content,quoted,bare⟩ := field
  cases quoted with
  | true =>
    simp only [Field.text,if_true,List.cons.injEq] at text
    rw [← text.1]
    decide
  | false =>
    have written : content = c :: rest := by simpa [Field.text] using text
    exact ((bare rfl).2 c (by simp [written])).1

/-- A row is more than nothing, and it does not begin as a blank line does. -/
theorem record_head (record : Record) : ∃ c rest, record.text = c :: rest ∧ isEnd c = false := by
  obtain ⟨first,later,visible⟩ := record
  cases text : first.text with
  | cons c rest => exact ⟨c,_,by simp [Record.text,text]; rfl,text_head first text⟩
  | nil =>
    cases later with
    | nil => exact absurd text (visible rfl)
    | cons field later => exact ⟨',',_,by simp [Record.text,text]; rfl,by decide⟩

theorem readChars_start {c : Char} (inside : isEnd c = false) (rest : List Char) :
    Reader.fresh.readChars limit false (c :: rest) = (Reader.mk .startField [] []).readChars limit true (c :: rest) := by
  have same : Reader.fresh.process limit (some c) = (Reader.mk .startField [] []).process limit (some c) := by
    simp only [Reader.process,Reader.fresh,Reader.expectField,Reader.addChar,inside,Reader.saveField,Reader.inMode]
    by_cases room : limit = 0 <;> simp [room,Except.map]
  simp only [Reader.readChars,same]

theorem readChars_record {record : Record} (fits : record.Fits limit) (rest : List Char) :
    ∃ mode fields field, mode.closing ∧ fields ++ [field] = record.fields ∧
      Reader.fresh.readChars limit false (record.text ++ rest) =
        (Reader.mk mode fields field).readChars limit true rest := by
  obtain ⟨c,more,head,inside⟩ := record_head record
  obtain ⟨first,later,visible⟩ := record
  obtain ⟨here,there⟩ := List.forall_mem_cons.mp fits
  rw [List.forall_mem_map] at there
  obtain ⟨read,closes,reads⟩ := readChars_field first []
    ((later.flatMap fun other => ',' :: other.text) ++ rest) here
  obtain ⟨mode,fields,field,closing,total,goes⟩ := readChars_later there closes [] first.content rest
  refine ⟨mode,fields,field,closing,by simpa [Record.fields] using total,?_⟩
  rw [← goes,← reads,head,List.cons_append,readChars_start inside,← List.cons_append,← head]
  simp [Record.text]

/-- The rows that a reader gives, without the empty ones of blank lines. -/
def shown (rows : Except CsvError (List (List (List Char)))) : Except CsvError (List (List (List Char))) :=
  rows.map (List.filter (· ≠ []))

theorem shown_cons (fields : List (List Char)) (rows : Except CsvError (List (List (List Char)))) :
    shown ((fields :: ·) <$> rows) = (shown rows).map (List.filter (· ≠ []) [fields] ++ ·) := by
  cases rows with
  | error error => rfl
  | ok rows => simp [shown,Except.map,Functor.map,List.filter_cons]; split_ifs <;> rfl

theorem readChars_lineEnd {started : Bool} {reader : Reader} {fields : List (List Char)} {c : Char}
    {rest : List Char}
    (step : reader.process limit (some c) = .ok ⟨.eatCrnl,fields,[]⟩) (ends : endsLine c rest = true) :
    reader.readChars limit started (c :: rest) = (fields :: ·) <$> Reader.fresh.readChars limit false rest := by
  have close : (Reader.mk .eatCrnl fields []).process limit none = .ok ⟨.startRecord,fields,[]⟩ := rfl
  simp only [Reader.readChars,step,ends,close,bind,Except.bind,if_true]
  cases Reader.fresh.readChars limit false rest <;> rfl

theorem readChars_pair {started : Bool} {reader : Reader} {fields : List (List Char)} {rest : List Char}
    (step : reader.process limit (some '\r') = .ok ⟨.eatCrnl,fields,[]⟩) :
    reader.readChars limit started ('\r' :: '\n' :: rest) = (fields :: ·) <$> Reader.fresh.readChars limit false rest := by
  have eaten : (Reader.mk .eatCrnl fields []).process limit (some '\n') = .ok ⟨.eatCrnl,fields,[]⟩ := rfl
  have goes : reader.readChars limit started ('\r' :: '\n' :: rest) =
      (Reader.mk .eatCrnl fields []).readChars limit true ('\n' :: rest) := by
    rw [Reader.readChars,step]
    rfl
  exact goes.trans (readChars_lineEnd eaten rfl)

/-- A carriage return before a blank line that is a line feed takes that line with it, which
    is not a row. -/
theorem shown_lineEnd {started : Bool} {reader : Reader} {fields : List (List Char)}
    (step : ∀ c, isEnd c = true → reader.process limit (some c) = .ok ⟨.eatCrnl,fields,[]⟩) (lineEnd : LineEnd)
    (rest : List Char) :
    shown (reader.readChars limit started (lineEnd.text ++ rest)) =
      (shown (Reader.fresh.readChars limit false rest)).map (List.filter (· ≠ []) [fields] ++ ·) := by
  rw [← shown_cons]
  cases lineEnd with
  | lf => exact congrArg shown (readChars_lineEnd (step '\n' rfl) rfl)
  | crlf => exact congrArg shown (readChars_pair (step '\r' rfl))
  | cr =>
    by_cases head : rest.head? = some '\n'
    · obtain ⟨later,rfl⟩ := List.head?_eq_some_iff.mp head
      have blank : Reader.fresh.process limit (some '\n') = .ok ⟨.eatCrnl,[],[]⟩ := rfl
      rw [shown_cons,readChars_lineEnd blank rfl,shown_cons]
      refine (congrArg shown (readChars_pair (step '\r' rfl))).trans ?_
      rw [shown_cons]
      cases shown (Reader.fresh.readChars limit false later) <;> simp [Except.map]
    · exact congrArg shown (readChars_lineEnd (step '\r' rfl) (by simp [endsLine,head]))

theorem shown_row {row : Option Record × LineEnd} (fits : ∀ record, row.1 = some record → record.Fits limit)
    (rest : List Char) :
    shown (Reader.fresh.readChars limit false (rowText row ++ rest)) =
      (shown (Reader.fresh.readChars limit false rest)).map ((row.1.map Record.fields).toList ++ ·) := by
  obtain ⟨record,lineEnd⟩ := row
  cases record with
  | none =>
    have step : ∀ c, isEnd c = true → Reader.fresh.process limit (some c) = .ok ⟨.eatCrnl,[],[]⟩ := by
      intro c ends
      simp [Reader.process,Reader.fresh,ends,Reader.inMode]
    exact (shown_lineEnd step lineEnd rest).trans (by simp)
  | some record =>
    have text : rowText (some record,lineEnd) ++ rest = record.text ++ (lineEnd.text ++ rest) := by simp [rowText]
    obtain ⟨mode,fields,field,closing,total,reads⟩ := readChars_record (fits record rfl) (lineEnd.text ++ rest)
    rw [text,reads,shown_lineEnd (fun c ends => process_lineEnd closing ends fields field) lineEnd rest,total]
    simp [Record.fields]

theorem shown_last (last : Option Record) (fits : ∀ record, last = some record → record.Fits limit) :
    shown (Reader.fresh.readChars limit false ((last.map Record.text).getD [])) =
      .ok (last.map Record.fields).toList := by
  cases last with
  | none => rfl
  | some record =>
    obtain ⟨mode,fields,field,closing,total,reads⟩ := readChars_record (fits record rfl) []
    rw [List.append_nil] at reads
    rw [Option.map_some,Option.getD_some,reads]
    simp [Reader.readChars,Reader.readFrom,Reader.processLine,process_close closing,bind,Except.bind,shown,Except.map,
      Functor.map,total,Reader.fresh,pure,Except.pure,Record.fields]

/-- A table is read back row by row. -/
theorem readRows_table (table : Table) (fits : ∀ record ∈ table.records, record.Fits limit) :
    shown (readRows limit table.text) = .ok (table.records.map Record.fields) := by
  obtain ⟨rows,last⟩ := table
  rw [readRows_chars]
  induction rows with
  | nil =>
    refine (shown_last last fun record found => ?_).trans ?_
    · exact fits record (by simp [Table.records,found])
    · cases last <;> rfl
  | cons row rows ih =>
    have text : Table.text ⟨row :: rows,last⟩ = rowText row ++ Table.text ⟨rows,last⟩ := by simp [Table.text]
    have listed : Table.records ⟨row :: rows,last⟩ = row.1.toList ++ Table.records ⟨rows,last⟩ := by
      cases found : row.1 <;> simp [Table.records,found]
    rw [listed] at fits
    rw [text,listed,shown_row fun record found => fits record (by simp [found]),
      ih fun record member => fits record (List.mem_append_right _ member)]
    cases row.1 <;> rfl

theorem addChar_mode {reader after : Reader} {c : Char} (added : reader.addChar limit c = .ok after) :
    after.mode = reader.mode := by
  unfold Reader.addChar at added
  split_ifs at added
  cases added
  rfl

theorem addChar_error {reader : Reader} {c : Char} {error : CsvError} (refused : reader.addChar limit c = .error error) :
    error = .fieldLargerThanLimit := by
  unfold Reader.addChar at refused
  split_ifs at refused
  cases refused
  rfl

theorem expectField_error {reader : Reader} {char : Option Char} {error : CsvError}
    (refused : reader.expectField limit char = .error error) : error = .fieldLargerThanLimit := by
  cases char with
  | none => cases refused
  | some c =>
    simp only [Reader.expectField] at refused
    split_ifs at refused
    cases added : reader.addChar limit c with
    | ok after => rw [added] at refused; cases refused
    | error other => rw [added] at refused; cases refused; exact addChar_error added

theorem process_error {reader : Reader} {char : Option Char} {error : CsvError}
    (refused : reader.process limit char = .error error) :
    error = .fieldLargerThanLimit ∨ reader.mode = .eatCrnl ∧ ∃ c, char = some c ∧ isEnd c = false := by
  by_cases eats : reader.mode = .eatCrnl
  · rcases char with _ | c <;> simp only [Reader.process,eats] at refused
    · cases refused
    · split_ifs at refused with ends
      exact .inr ⟨eats,c,rfl,by simpa using ends⟩
  · left
    unfold Reader.process at refused
    split at refused
    · split at refused
      · cases refused
      · split_ifs at refused
        exact expectField_error refused
    · exact expectField_error refused
    · split at refused
      · cases refused
      · split_ifs at refused
        exact addChar_error refused
    · split at refused
      · cases refused
      · split_ifs at refused
        exact addChar_error refused
    · split at refused
      · cases refused
      · rename_i c
        split_ifs at refused <;>
          cases added : reader.addChar limit c <;> rw [added] at refused <;> cases refused <;> exact addChar_error added
    · exact absurd ‹_› eats

theorem map_inMode {reader after : Reader} {c : Char} {mode : Mode}
    (step : (reader.addChar limit c).map (·.inMode mode) = .ok after) : after.mode = mode := by
  cases added : reader.addChar limit c <;> rw [added] at step <;> cases step
  rfl

theorem expectField_eats {reader after : Reader} {char : Option Char} (step : reader.expectField limit char = .ok after)
    (eats : after.mode = .eatCrnl) : ∃ c, char = some c ∧ isEnd c = true := by
  cases char with
  | none => cases step; cases eats
  | some c =>
    refine ⟨c,rfl,?_⟩
    by_contra inside
    simp only [Reader.expectField,inside,if_false] at step
    split_ifs at step
    · cases step; cases eats
    · cases step; cases eats
    · rw [map_inMode step] at eats; cases eats

theorem process_eats {reader after : Reader} {char : Option Char} (step : reader.process limit char = .ok after)
    (eats : after.mode = .eatCrnl) : ∃ c, char = some c ∧ isEnd c = true := by
  cases char with
  | none =>
    cases mode : reader.mode <;> simp only [Reader.process,Reader.expectField,mode] at step <;> cases step <;>
      first | exact absurd (mode.symm.trans eats) (by decide) | cases eats
  | some c =>
    refine ⟨c,rfl,?_⟩
    by_contra inside
    cases mode : reader.mode <;> simp only [Reader.process,mode,inside,if_false] at step
    · obtain ⟨d,same,ends⟩ := expectField_eats step eats
      cases same
      exact inside ends
    · obtain ⟨d,same,ends⟩ := expectField_eats step eats
      cases same
      exact inside ends
    · split_ifs at step
      · cases step; cases eats
      · rw [addChar_mode step,mode] at eats; cases eats
    · split_ifs at step
      · cases step; cases eats
      · rw [addChar_mode step,mode] at eats; cases eats
    · split_ifs at step
      · rw [map_inMode step] at eats; cases eats
      · cases step; cases eats
      · rw [map_inMode step] at eats; cases eats
    · cases step

theorem readFrom_error {reader : Reader} {error : CsvError} (started : Bool)
    (refused : reader.readFrom limit (if started then [[]] else []) = .error error) : error = .fieldLargerThanLimit := by
  cases started with
  | false => cases refused
  | true =>
    simp only [if_true,Reader.readFrom,Reader.processLine,bind,Except.bind] at refused
    cases step : reader.process limit none with
    | error other =>
      rw [step] at refused
      cases refused
      rcases process_error step with larger | ⟨_,c,here,_⟩
      · exact larger
      · cases here
    | ok after =>
      rw [step] at refused
      dsimp only at refused
      split_ifs at refused <;> cases refused

/-- A reader that eats a line end is before the rest of it. -/
def Reader.Ready (reader : Reader) (text : List Char) : Prop := reader.mode = .eatCrnl → text.head? = some '\n'

theorem readChars_error {started : Bool} {reader : Reader} {text : List Char} {error : CsvError}
    (ready : reader.Ready text) (refused : reader.readChars limit started text = .error error) :
    error = .fieldLargerThanLimit := by
  induction text generalizing started reader with
  | nil => exact readFrom_error started refused
  | cons c rest ih =>
    simp only [Reader.readChars,bind,Except.bind] at refused
    cases step : reader.process limit (some c) with
    | error other =>
      rw [step] at refused
      cases refused
      rcases process_error step with larger | ⟨eats,d,same,inside⟩
      · exact larger
      · have feed : c = '\n' := by simpa using ready eats
        cases Option.some.inj same
        exact absurd inside (by rw [feed]; decide)
    | ok after =>
      rw [step] at refused
      dsimp only at refused
      by_cases ends : endsLine c rest = true
      · rw [if_pos ends] at refused
        cases close : after.process limit none with
        | error other =>
          rw [close] at refused
          cases refused
          rcases process_error close with larger | ⟨_,d,same,_⟩
          · exact larger
          · cases same
        | ok closed =>
          rw [close] at refused
          dsimp only at refused
          split_ifs at refused
          · cases more : Reader.fresh.readChars limit false rest with
            | error other =>
              rw [more] at refused
              cases refused
              exact ih (fun eats => by cases eats) more
            | ok rows => rw [more] at refused; cases refused
          · refine ih (fun eats => ?_) refused
            obtain ⟨d,same,_⟩ := process_eats close eats
            cases same
      · rw [if_neg ends] at refused
        refine ih (fun eats => ?_) refused
        obtain ⟨d,same,lineEnd⟩ := process_eats step eats
        cases Option.some.inj same
        by_contra other
        rcases Bool.or_eq_true _ _ ▸ lineEnd with feed | cr
        · exact ends (by simp [endsLine,feed])
        · exact ends (by simp [endsLine,cr,other])

/-- Whatever the text, only a field that is too long is refused: a line end is always eaten
    up before the next character. -/
theorem readRows_error {text : List Char} {error : CsvError} (refused : readRows limit text = .error error) :
    error = .fieldLargerThanLimit := by
  rw [readRows_chars] at refused
  exact readChars_error (fun eats => by cases eats) refused

end

end OasisPlatform.CsvText
