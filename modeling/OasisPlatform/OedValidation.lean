import OasisPlatform.PathText
import OasisPlatform.PortfolioFiles
import OasisPlatform.SharedRow

/-!
`oed_validated` of the files of portfolios. A validation is given paths when its signature
is made, reads them when a worker gets to it, and marks what is attached when its result is
recorded; an analysis reads what `file_storage_link` hands over, which a conversion changes.
A mark says that those bytes were validated as long as results are recorded for the files
that were read, and no marked file is converted (`validated_reached`).
-/
namespace OasisPlatform.OedValidation
open OasisPlatform.SharedRow OasisPlatform.PathText OasisPlatform.PortfolioFiles
set_option linter.unusedSimpArgs false

variable {β : Type}

inductive ConversionState where
  | none
  | pending
  | inProgress
  | done
  | error
  deriving DecidableEq, Repr

/-- `ConversionState.is_ready`. -/
def ConversionState.isReady (state : ConversionState) : Bool := state ∈ [.none,.error,.done]

/-- A row of `RelatedFile`, with the names of its files in the storage; no name is empty
    but for a file that is not there. -/
structure RelatedFile where
  file : Text
  convertedFile : Text
  conversionState : ConversionState
  oedValidated : Bool
  deriving DecidableEq, Repr

/-- `file_storage_link`, the name of the object that an analysis is given. -/
def fileStorageLink (row : RelatedFile) : Option Text :=
  if row.file = [] then none
  else if row.convertedFile ≠ [] ∧ row.conversionState = .done then some row.convertedFile
  else some row.file

/-- `get_path_or_url`, the name of the object behind the path or the URL. -/
def getPathOrUrl (row : RelatedFile) : Option Text := if row.file = [] then none else some row.file

/-- The name of the output of `run_file_conversion`. Without a suffix it has no stem:
    `name[0:-0]` is empty. -/
def convertedName (name : Text) : Text :=
  let inputSuffixes := (suffixes (pathName name)).flatten
  let inputWithoutSuffixes := if inputSuffixes = [] then [] else name.take (name.length - inputSuffixes.length)
  inputWithoutSuffixes ++ "-converted".toList ++ inputSuffixes

/-- The storage, the rows, the rows that the fields of portfolios name, and the instances
    that running conversions have loaded. -/
structure Files (β : Type) where
  storage : Text → Option β
  rows : Nat → Option RelatedFile
  nextRow : Nat
  fields : Nat → PortfolioField → Option Nat
  conversions : Nat → Option RelatedFile

namespace Files

def put (files : Files β) (name : Text) (content : β) : Files β :=
  { files with storage := Function.update files.storage name (some content) }

def save (files : Files β) (id : Nat) (row : RelatedFile) : Files β :=
  { files with rows := Function.update files.rows id (some row) }

def setField (files : Files β) (portfolio : Nat) (field : PortfolioField) (id : Option Nat) : Files β :=
  { files with fields := fun p f => if p = portfolio ∧ f = field then id else files.fields p f }

/-- A new row for an object in the storage. -/
def create (files : Files β) (name : Text) : Files β :=
  { files.save files.nextRow ⟨name,[],.none,false⟩ with nextRow := files.nextRow + 1 }

/-- The objects that go with a row that is deleted. -/
def objects (files : Files β) (id : Nat) : List Text :=
  match files.rows id with
  | none => []
  | some row => [row.file,row.convertedFile]

/-- `_delete_related_file`; the objects of a deleted row are removed from the storage. -/
def deleteRelatedFile (files : Files β) (portfolio : Nat) (field : PortfolioField) : Files β :=
  match files.fields portfolio field with
  | none => files
  | some id =>
    { files.setField portfolio field none with
      rows := Function.update files.rows id none
      storage := fun name => if name ∈ files.objects id then none else files.storage name }

/-- `_handle_post_related_file`: the storage gives the upload a name that is free. -/
def upload (files : Files β) (portfolio : Nat) (field : PortfolioField) (name : Text) (content : β) : Files β :=
  if (files.storage name).isSome then files
  else (((files.put name content).create name).deleteRelatedFile portfolio field).setField portfolio field
    (some files.nextRow)

/-- `convert` with `start_conversion`. -/
def convert (files : Files β) (id : Nat) : Files β :=
  match files.rows id with
  | none => files
  | some row =>
    if row.conversionState.isReady then files.save id { row with conversionState := .pending } else files

/-- `run_file_conversion` up to the converter. -/
def startConversion (files : Files β) (id : Nat) : Files β :=
  match files.rows id with
  | none => files
  | some row =>
    if row.conversionState.isReady ∨ row.conversionState = .pending then
      let running := { row with conversionState := .inProgress }
      { files.save id running with conversions := Function.update files.conversions id (some running) }
    else files

/-- The converter writes its output. -/
def writeConverted (files : Files β) (id : Nat) (content : β) : Files β :=
  match files.conversions id with
  | none => files
  | some row => files.put (convertedName row.file) content

/-- The instance that `run_file_conversion` saves in the end. -/
def finished (row : RelatedFile) (success : Bool) : RelatedFile :=
  if success then { row with convertedFile := convertedName row.file, conversionState := .done }
  else { row with conversionState := .error }

/-- The save writes all columns, also of a row that was deleted. -/
def finishConversion (files : Files β) (id : Nat) (success : Bool) : Files β :=
  match files.conversions id with
  | none => files
  | some row =>
    { files.save id (finished row success) with conversions := Function.update files.conversions id none }

def mark (rows : Nat → Option RelatedFile) (ref : Option Nat) : Nat → Option RelatedFile :=
  match ref with
  | none => rows
  | some id =>
    match rows id with
    | none => rows
    | some row => Function.update rows id (some { row with oedValidated := true })

/-- `set_portfolio_valid`. -/
def setPortfolioValid (files : Files β) (portfolio : Nat) : Files β :=
  { files with rows := (oedFields.map (files.fields portfolio)).foldl mark files.rows }

/-- The paths of `run_oed_validation_signature`. -/
def validationPaths (files : Files β) (portfolio : Nat) (field : PortfolioField) : Option Text := do
  let id ← files.fields portfolio field
  let row ← files.rows id
  getPathOrUrl row

end Files

/-- A validation that was sent, with the portfolio that its recorder marks. -/
structure Validation where
  portfolio : Nat
  paths : PortfolioField → Option Text

/-- A transform and what its chain goes on with. -/
structure Transform where
  portfolio : Nat
  fileType : String
  validation : Validation

/-- What `run_oed_validation` returns: the list of errors, or the text of an exception. -/
inductive ValidationErrors where
  | errors (texts : List String)
  | failure (text : String)
  deriving DecidableEq, Repr

def ValidationErrors.truthy : ValidationErrors → Bool
  | .errors texts => !texts.isEmpty
  | .failure text => text ≠ ""

/-- The tasks that were sent, by their number, what they have read and what they returned.
    A result stays for further deliveries. -/
structure Tasks (β : Type) where
  validations : List Validation
  reads : List (Nat × Text × β)
  results : List (Nat × ValidationErrors)
  transforms : List Transform
  outputs : List (Nat × Option Text)

/-- A validation that read the bytes has returned no errors. -/
def Tasks.Cleared (tasks : Tasks β) (bytes : β) : Prop :=
  ∃ task name, (task,name,bytes) ∈ tasks.reads ∧ (task,ValidationErrors.errors []) ∈ tasks.results

structure State (β : Type) where
  files : Files β
  tasks : Tasks β

inductive Event (β : Type) where
  | upload (portfolio : Nat) (field : PortfolioField) (name : Text) (content : β)
  | delete (portfolio : Nat) (field : PortfolioField)
  | convert (file : Nat)
  | startConversion (file : Nat)
  | writeConverted (file : Nat) (content : β)
  | finishConversion (file : Nat) (success : Bool)
  | runOedValidation (portfolio : Nat)
  /-- a worker copies one of the files of a validation -/
  | fetch (task : Nat) (field : PortfolioField)
  | finishValidation (task : Nat) (result : ValidationErrors)
  | exposureTransform (portfolio : Nat) (fileType : String)
  /-- the output that `run_exposure_transform` puts into the storage, none where it fails -/
  | finishTransform (transform : Nat) (output : Option (Text × β))
  | recordTransformOutput (transform : Nat) (output : Option Text)
  | recordValidationOutput (task : Nat) (result : ValidationErrors)

namespace State

def fetch (state : State β) (task : Nat) (field : PortfolioField) : State β :=
  match state.tasks.validations[task]? with
  | none => state
  | some validation =>
    match (validation.paths field).bind fun name => (state.files.storage name).map fun bytes => (name,bytes) with
    | none => state
    | some (name,bytes) =>
      if task ∈ state.tasks.results.map Prod.fst then state
      else { state with tasks := { state.tasks with reads := state.tasks.reads ++ [(task,name,bytes)] } }

/-- A validation returns once, and not before it has read its files. -/
def finishValidation (state : State β) (task : Nat) (result : ValidationErrors) : State β :=
  match state.tasks.validations[task]? with
  | none => state
  | some validation =>
    if task ∈ state.tasks.results.map Prod.fst then state
    else if oedFields.all fun field => ((validation.paths field).toList).all fun name =>
        state.tasks.reads.any fun read => read.1 = task ∧ read.2.1 = name then
      { state with tasks := { state.tasks with results := state.tasks.results ++ [(task,result)] } }
    else state

def finishTransform (state : State β) (transform : Nat) (output : Option (Text × β)) : State β :=
  if state.tasks.transforms[transform]?.isNone ∨ transform ∈ state.tasks.outputs.map Prod.fst then state
  else
    let tasks := { state.tasks with outputs := state.tasks.outputs ++ [(transform,output.map Prod.fst)] }
    match output with
    | none => { state with tasks := tasks }
    | some (name,content) =>
      if (state.files.storage name).isSome then state else { files := state.files.put name content, tasks := tasks }

/-- `record_transform_output`; a file that is replaced keeps its row. The chain goes on
    with the validation only if this does not raise. -/
def recordTransformOutput (state : State β) (transform : Nat) (output : Option Text) : State β :=
  if (transform,output) ∈ state.tasks.outputs then
    match state.tasks.transforms[transform]?,output with
    | some sent,some name =>
      match selection sent.fileType with
      | none => state
      | some field =>
        { files := (state.files.create name).setField sent.portfolio field (some state.files.nextRow)
          tasks := { state.tasks with validations := state.tasks.validations ++ [sent.validation] } }
    | _,_ => state
  else state

/-- `record_validation_output`. -/
def recordValidationOutput (state : State β) (task : Nat) (result : ValidationErrors) : State β :=
  if (task,result) ∈ state.tasks.results then
    match state.tasks.validations[task]? with
    | none => state
    | some validation =>
      if result.truthy then state else { state with files := state.files.setPortfolioValid validation.portfolio }
  else state

def step (state : State β) : Event β → State β
  | .upload portfolio field name content => { state with files := state.files.upload portfolio field name content }
  | .delete portfolio field => { state with files := state.files.deleteRelatedFile portfolio field }
  | .convert file => { state with files := state.files.convert file }
  | .startConversion file => { state with files := state.files.startConversion file }
  | .writeConverted file content => { state with files := state.files.writeConverted file content }
  | .finishConversion file success => { state with files := state.files.finishConversion file success }
  | .runOedValidation portfolio =>
    let validation : Validation := ⟨portfolio,state.files.validationPaths portfolio⟩
    { state with tasks := { state.tasks with validations := state.tasks.validations ++ [validation] } }
  | .fetch task field => state.fetch task field
  | .finishValidation task result => state.finishValidation task result
  | .exposureTransform portfolio fileType =>
    -- the paths are those from before the transform
    let transform : Transform := ⟨portfolio,fileType,⟨portfolio,state.files.validationPaths portfolio⟩⟩
    { state with tasks := { state.tasks with transforms := state.tasks.transforms ++ [transform] } }
  | .finishTransform transform output => state.finishTransform transform output
  | .recordTransformOutput transform output => state.recordTransformOutput transform output
  | .recordValidationOutput task result => state.recordValidationOutput task result

def run (state : State β) (events : List (Event β)) : State β := events.foldl step state

end State

/-! ### What a mark says -/

namespace Files

def Attached (files : Files β) (id : Nat) : Prop := ∃ portfolio, ∃ field ∈ oedFields, files.fields portfolio field = some id

structure Marked (files : Files β) (id : Nat) (row : RelatedFile) : Prop where
  attached : files.Attached id
  stored : files.rows id = some row
  validated : row.oedValidated = true

/-- Deleting what a field names leaves the objects of other marked rows. -/
def Spares (files : Files β) (portfolio : Nat) (field : PortfolioField) : Prop :=
  ∀ id, files.fields portfolio field = some id → ∀ other row, other ≠ id → files.Marked other row →
    row.file ∉ files.objects id

/-- How the rows, the fields and the running conversions fit together. -/
structure Tidy (files : Files β) : Prop where
  unique : ∀ p f q g id, files.fields p f = some id → files.fields q g = some id → p = q ∧ f = g
  present : ∀ p f id, files.fields p f = some id → ∃ row, files.rows id = some row
  issued : ∀ id row, files.rows id = some row → id < files.nextRow
  loaded : ∀ id row, files.conversions id = some row → id < files.nextRow
  running : ∀ id copy row, files.conversions id = some copy → files.rows id = some row →
    row.conversionState = .inProgress ∧ row.file = copy.file ∧ (copy.oedValidated = true → row.oedValidated = true)

/-- A marked row hands over its own object, whose bytes are cleared. -/
structure Sound (cleared : β → Prop) (files : Files β) : Prop extends Tidy files where
  clear : ∀ id row, files.Marked id row →
    fileStorageLink row = some row.file ∧ ∃ bytes, files.storage row.file = some bytes ∧ cleared bytes

end Files

/-- A file that is attached and marked has bytes for an analysis, and a validation that read
    them has returned no errors. -/
def State.Validated (state : State β) : Prop :=
  ∀ id row, state.files.Marked id row →
    ∃ name bytes, fileStorageLink row = some name ∧ state.files.storage name = some bytes ∧ state.tasks.Cleared bytes

/-- No object of a marked file is removed or overwritten, no conversion of a marked file
    succeeds, and a result without errors is recorded while what it newly marks are files
    without a conversion that this validation has read. -/
def Calm (state : State β) : Event β → Prop
  | .upload portfolio field name _ => state.files.storage name = none → state.files.Spares portfolio field
  | .delete portfolio field => state.files.Spares portfolio field
  | .writeConverted file _ =>
    ∀ copy, state.files.conversions file = some copy → ∀ id row, state.files.Marked id row →
      row.file ≠ convertedName copy.file
  | .finishConversion file success =>
    success = true → ∀ copy, state.files.conversions file = some copy → copy.oedValidated = true →
      ¬ state.files.Attached file
  | .recordValidationOutput task result =>
    (task,result) ∈ state.tasks.results → result.truthy = false →
      ∀ validation, state.tasks.validations[task]? = some validation → ∀ field ∈ oedFields, ∀ id row,
        state.files.fields validation.portfolio field = some id → state.files.rows id = some row →
          row.oedValidated = false → result = .errors [] ∧ fileStorageLink row = some row.file ∧
            ∃ bytes, state.files.storage row.file = some bytes ∧ (task,row.file,bytes) ∈ state.tasks.reads
  | _ => True

theorem link_nonempty {row : RelatedFile} (link : fileStorageLink row = some row.file) : row.file ≠ [] := by
  intro blank
  rw [fileStorageLink,if_pos blank] at link
  cases link

theorem link_own {row : RelatedFile} (nonempty : row.file ≠ []) (unconverted : row.conversionState ≠ .done) :
    fileStorageLink row = some row.file := by
  rw [fileStorageLink,if_neg nonempty,if_neg fun converted => unconverted converted.2]

theorem updated_cases {rows : Nat → Option RelatedFile} {id other : Nat} {value : Option RelatedFile} {row : RelatedFile}
    (stored : Function.update rows id value other = some row) :
    (other = id ∧ value = some row) ∨ (other ≠ id ∧ rows other = some row) := by
  by_cases same : other = id
  · subst same
    rw [Function.update_self] at stored
    exact .inl ⟨rfl,stored⟩
  · rw [Function.update_of_ne same] at stored
    exact .inr ⟨same,stored⟩

theorem updated_stored {rows : Nat → Option RelatedFile} {id other : Nat} (saved : RelatedFile)
    (present : ∃ row, rows other = some row) : ∃ row, Function.update rows id (some saved) other = some row := by
  by_cases same : other = id
  · exact ⟨saved,by rw [same,Function.update_self]⟩
  · obtain ⟨row,stored⟩ := present
    exact ⟨row,by rw [Function.update_of_ne same]; exact stored⟩

namespace Files

variable {cleared : β → Prop} {files : Files β}

theorem Sound.mono {more : β → Prop} (sound : files.Sound cleared) (implies : ∀ bytes, cleared bytes → more bytes) :
    files.Sound more where
  toTidy := sound.toTidy
  clear := fun id row marked => by
    obtain ⟨link,bytes,stored,clear⟩ := sound.clear id row marked
    exact ⟨link,bytes,stored,implies bytes clear⟩

/-- An object is written that is none of a marked row. -/
theorem Sound.put (sound : files.Sound cleared) {name : Text} (content : β)
    (other : ∀ id row, files.Marked id row → row.file ≠ name) : (files.put name content).Sound cleared where
  toTidy := ⟨sound.unique,sound.present,sound.issued,sound.loaded,sound.running⟩
  clear := fun id row marked => by
    have before : files.Marked id row := ⟨marked.attached,marked.stored,marked.validated⟩
    obtain ⟨link,bytes,stored,clear⟩ := sound.clear id row before
    exact ⟨link,bytes,(Function.update_of_ne (other id row before) _ _).trans stored,clear⟩

theorem Sound.put_free (sound : files.Sound cleared) {name : Text} (free : files.storage name = none) (content : β) :
    (files.put name content).Sound cleared := by
  refine sound.put content fun id row marked same => ?_
  obtain ⟨_,bytes,stored,_⟩ := sound.clear id row marked
  rw [same,free] at stored
  cases stored

theorem Sound.create (sound : files.Sound cleared) (name : Text) : (files.create name).Sound cleared where
  unique := sound.unique
  present := fun p f id field => updated_stored _ (sound.present p f id field)
  issued := fun id row stored => by
    rcases updated_cases stored with ⟨fresh,_⟩ | ⟨_,before⟩
    · exact fresh ▸ Nat.lt_succ_self _
    · exact Nat.lt_succ_of_lt (sound.issued id row before)
  loaded := fun id row conversion => Nat.lt_succ_of_lt (sound.loaded id row conversion)
  running := fun id copy row conversion stored => by
    rcases updated_cases stored with ⟨fresh,_⟩ | ⟨_,before⟩
    · exact absurd fresh (sound.loaded id copy conversion).ne
    · exact sound.running id copy row conversion before
  clear := fun id row marked => by
    rcases updated_cases marked.stored with ⟨_,created⟩ | ⟨_,before⟩
    · have validated := marked.validated
      rw [← Option.some.inj created] at validated
      cases validated
    · exact sound.clear id row ⟨marked.attached,before,marked.validated⟩

/-- A row is saved, and its running conversion begins, goes on or ends. -/
theorem Sound.save (sound : files.Sound cleared) {id : Nat} {saved : RelatedFile} {conversion : Option RelatedFile}
    (issued : id < files.nextRow)
    (running : ∀ copy, conversion = some copy → saved.conversionState = .inProgress ∧ saved.file = copy.file ∧
      (copy.oedValidated = true → saved.oedValidated = true))
    (clear : files.Attached id → saved.oedValidated = true →
      fileStorageLink saved = some saved.file ∧ ∃ bytes, files.storage saved.file = some bytes ∧ cleared bytes) :
    ({ files.save id saved with conversions := Function.update files.conversions id conversion } : Files β).Sound cleared where
  unique := sound.unique
  present := fun p f other field => updated_stored _ (sound.present p f other field)
  issued := fun other row stored => by
    rcases updated_cases stored with ⟨same,_⟩ | ⟨_,before⟩
    · exact same ▸ issued
    · exact sound.issued other row before
  loaded := fun other row conversion => by
    rcases updated_cases conversion with ⟨same,_⟩ | ⟨_,before⟩
    · exact same ▸ issued
    · exact sound.loaded other row before
  running := fun other copy row loaded stored => by
    rcases updated_cases stored with ⟨same,self⟩ | ⟨differs,before⟩
    · rcases updated_cases loaded with ⟨_,began⟩ | ⟨differs,_⟩
      · exact Option.some.inj self ▸ running copy began
      · exact absurd same differs
    · rcases updated_cases loaded with ⟨same,_⟩ | ⟨_,went⟩
      · exact absurd same differs
      · exact sound.running other copy row went before
  clear := fun other row marked => by
    rcases updated_cases marked.stored with ⟨same,self⟩ | ⟨_,before⟩
    · have attached := marked.attached
      have validated := marked.validated
      rw [same] at attached
      rw [← Option.some.inj self] at validated ⊢
      exact clear attached validated
    · exact sound.clear other row ⟨marked.attached,before,marked.validated⟩

/-- A save that leaves the running conversions. -/
theorem Sound.save_row (sound : files.Sound cleared) {id : Nat} {saved : RelatedFile} (issued : id < files.nextRow)
    (running : ∀ copy, files.conversions id = some copy → saved.conversionState = .inProgress ∧ saved.file = copy.file ∧
      (copy.oedValidated = true → saved.oedValidated = true))
    (clear : files.Attached id → saved.oedValidated = true →
      fileStorageLink saved = some saved.file ∧ ∃ bytes, files.storage saved.file = some bytes ∧ cleared bytes) :
    (files.save id saved).Sound cleared := by
  have saved := sound.save issued running clear
  rwa [Function.update_eq_self] at saved

theorem Sound.deleteRelatedFile (sound : files.Sound cleared) {portfolio : Nat} {field : PortfolioField}
    (spares : files.Spares portfolio field) : (files.deleteRelatedFile portfolio field).Sound cleared := by
  unfold Files.deleteRelatedFile
  cases named : files.fields portfolio field with
  | none => exact sound
  | some id =>
    have kept : ∀ {q g other}, (files.setField portfolio field none).fields q g = some other →
        files.fields q g = some other ∧ other ≠ id := by
      intro q g other setting
      by_cases here : q = portfolio ∧ g = field
      · simp [Files.setField,here] at setting
      · simp only [Files.setField,if_neg here] at setting
        refine ⟨setting,fun same => here ?_⟩
        exact sound.unique q g portfolio field id (same ▸ setting) named
    have survives : ∀ {other row}, Function.update files.rows id none other = some row →
        other ≠ id ∧ files.rows other = some row := by
      intro other row stored
      rcases updated_cases stored with ⟨_,gone⟩ | before
      · cases gone
      · exact before
    refine ⟨⟨?_,?_,?_,sound.loaded,?_⟩,?_⟩
    · intro p f q g other first second
      exact sound.unique p f q g other (kept first).1 (kept second).1
    · intro p f other setting
      obtain ⟨before,same⟩ := kept setting
      obtain ⟨row,stored⟩ := sound.present p f other before
      exact ⟨row,(Function.update_of_ne same _ _).trans stored⟩
    · intro other row stored
      exact sound.issued other row (survives stored).2
    · intro other copy row conversion stored
      exact sound.running other copy row conversion (survives stored).2
    · intro other row marked
      obtain ⟨same,stored⟩ := survives marked.stored
      obtain ⟨p,f,oed,setting⟩ := marked.attached
      have before : files.Marked other row := ⟨⟨p,f,oed,(kept setting).1⟩,stored,marked.validated⟩
      obtain ⟨link,bytes,held,clear⟩ := sound.clear other row before
      refine ⟨link,bytes,?_,clear⟩
      simp only [if_neg (spares id named other row same before)]
      exact held

/-- A row that is on no field and not marked is set on one. -/
theorem Sound.setField (sound : files.Sound cleared) {portfolio : Nat} {field : PortfolioField} {id : Nat}
    {row : RelatedFile} (stored : files.rows id = some row) (unmarked : row.oedValidated = false)
    (unattached : ∀ p f, files.fields p f ≠ some id) : (files.setField portfolio field (some id)).Sound cleared := by
  have cases_field : ∀ {q g other}, (files.setField portfolio field (some id)).fields q g = some other →
      (q = portfolio ∧ g = field ∧ other = id) ∨ (files.fields q g = some other ∧ other ≠ id) := by
    intro q g other setting
    by_cases here : q = portfolio ∧ g = field
    · simp only [Files.setField,if_pos here,Option.some.injEq] at setting
      exact .inl ⟨here.1,here.2,setting.symm⟩
    · simp only [Files.setField,if_neg here] at setting
      exact .inr ⟨setting,fun same => unattached q g (same ▸ setting)⟩
  refine ⟨⟨?_,?_,sound.issued,sound.loaded,sound.running⟩,?_⟩
  · intro p f q g other first second
    rcases cases_field first with ⟨rfl,rfl,rfl⟩ | ⟨old,differs⟩
    · rcases cases_field second with ⟨rfl,rfl,_⟩ | ⟨_,differs⟩
      · exact ⟨rfl,rfl⟩
      · exact absurd rfl differs
    · rcases cases_field second with ⟨_,_,same⟩ | ⟨older,_⟩
      · exact absurd same differs
      · exact sound.unique p f q g other old older
  · intro p f other setting
    rcases cases_field setting with ⟨_,_,rfl⟩ | ⟨old,_⟩
    · exact ⟨row,stored⟩
    · exact sound.present p f other old
  · intro other found marked
    obtain ⟨p,f,oed,setting⟩ := marked.attached
    rcases cases_field setting with ⟨_,_,rfl⟩ | ⟨old,_⟩
    · have same : row = found := Option.some.inj (stored.symm.trans marked.stored)
      have validated := marked.validated
      rw [← same,unmarked] at validated
      cases validated
    · exact sound.clear other found ⟨⟨p,f,oed,old⟩,marked.stored,marked.validated⟩

theorem Sound.marked (sound : files.Sound cleared) {id : Nat} {row : RelatedFile} (stored : files.rows id = some row)
    (attached : files.Attached id) (validated : row.oedValidated = true) :
    row.file ≠ [] ∧ ∃ bytes, files.storage row.file = some bytes ∧ cleared bytes := by
  obtain ⟨link,held⟩ := sound.clear id row ⟨attached,stored,validated⟩
  exact ⟨link_nonempty link,held⟩

theorem Sound.convert (sound : files.Sound cleared) (id : Nat) : (files.convert id).Sound cleared := by
  unfold Files.convert
  cases stored : files.rows id with
  | none => exact sound
  | some row =>
    by_cases ready : row.conversionState.isReady = true
    · simp only [if_pos ready]
      refine sound.save_row (sound.issued id row stored) ?_ fun attached validated => ?_
      · intro copy running
        have busy := (sound.running id copy row running stored).1
        rw [busy] at ready
        cases ready
      · obtain ⟨nonempty,held⟩ := sound.marked stored attached validated
        exact ⟨link_own nonempty (by simp),held⟩
    · simp only [if_neg ready]
      exact sound

theorem Sound.startConversion (sound : files.Sound cleared) (id : Nat) : (files.startConversion id).Sound cleared := by
  unfold Files.startConversion
  cases stored : files.rows id with
  | none => exact sound
  | some row =>
    by_cases free : row.conversionState.isReady ∨ row.conversionState = .pending
    · simp only [if_pos free]
      refine sound.save (sound.issued id row stored) ?_ fun attached validated => ?_
      · rintro copy ⟨⟩
        exact ⟨rfl,rfl,fun validated => validated⟩
      · obtain ⟨nonempty,held⟩ := sound.marked stored attached validated
        exact ⟨link_own nonempty (by simp),held⟩
    · simp only [if_neg free]
      exact sound

theorem Sound.writeConverted (sound : files.Sound cleared) {id : Nat} (content : β)
    (apart : ∀ copy, files.conversions id = some copy → ∀ other row, files.Marked other row →
      row.file ≠ convertedName copy.file) : (files.writeConverted id content).Sound cleared := by
  unfold Files.writeConverted
  cases running : files.conversions id with
  | none => exact sound
  | some copy => exact sound.put content (apart copy running)

theorem Sound.finishConversion (sound : files.Sound cleared) {id : Nat} {success : Bool}
    (unmarked : success = true → ∀ copy, files.conversions id = some copy → copy.oedValidated = true → ¬ files.Attached id) :
    (files.finishConversion id success).Sound cleared := by
  unfold Files.finishConversion
  cases running : files.conversions id with
  | none => exact sound
  | some copy =>
    refine sound.save (sound.loaded id copy running) (by intro _ ended; cases ended) fun attached validated => ?_
    cases success with
    | true => exact absurd attached (unmarked rfl copy running validated)
    | false =>
      have placed := attached
      obtain ⟨_,field,_,named⟩ := placed
      obtain ⟨row,stored⟩ := sound.present _ field id named
      obtain ⟨_,same,kept⟩ := sound.running id copy row running stored
      obtain ⟨nonempty,held⟩ := sound.marked stored attached (kept validated)
      rw [same] at nonempty held
      exact ⟨link_own nonempty (by simp [finished]),held⟩

theorem deleteRelatedFile_named {portfolio p id : Nat} {field f : PortfolioField}
    (named : (files.deleteRelatedFile portfolio field).fields p f = some id) : files.fields p f = some id := by
  unfold Files.deleteRelatedFile at named
  cases attached : files.fields portfolio field with
  | none => simpa [attached] using named
  | some other =>
    simp only [attached,Files.setField] at named
    by_cases here : p = portfolio ∧ f = field
    · rw [if_pos here] at named
      cases named
    · rwa [if_neg here] at named

theorem deleteRelatedFile_rows {portfolio id : Nat} {field : PortfolioField}
    (other : files.fields portfolio field ≠ some id) :
    (files.deleteRelatedFile portfolio field).rows id = files.rows id := by
  unfold Files.deleteRelatedFile
  cases attached : files.fields portfolio field with
  | none => rfl
  | some deleted => exact Function.update_of_ne (fun same => other (attached.trans (congrArg some same.symm))) _ _

/-- The row that comes next is on no field. -/
theorem Tidy.fresh (tidy : files.Tidy) (p : Nat) (f : PortfolioField) : files.fields p f ≠ some files.nextRow := by
  intro named
  obtain ⟨row,stored⟩ := tidy.present p f _ named
  exact absurd (tidy.issued _ row stored) (Nat.lt_irrefl _)

theorem create_rows (files : Files β) {id : Nat} (name : Text) (old : id ≠ files.nextRow) :
    (files.create name).rows id = files.rows id :=
  Function.update_of_ne old _ _

theorem Sound.created_spares (sound : files.Sound cleared) {portfolio : Nat} {field : PortfolioField} (name : Text)
    (content : β) (spares : files.Spares portfolio field) :
    ((files.put name content).create name).Spares portfolio field := by
  intro id named other row differs marked
  have old : id ≠ files.nextRow := by
    rintro rfl
    exact sound.fresh portfolio field named
  have oldOther : other ≠ files.nextRow := by
    rintro rfl
    obtain ⟨p,f,_,setting⟩ := marked.attached
    exact sound.fresh p f setting
  have before : files.Marked other row :=
    ⟨marked.attached,(create_rows (files.put name content) name oldOther).symm.trans marked.stored,marked.validated⟩
  have same : ((files.put name content).create name).objects id = files.objects id := by
    rw [Files.objects,create_rows (files.put name content) name old]
    rfl
  rw [same]
  exact spares id named other row differs before

theorem Sound.upload (sound : files.Sound cleared) {portfolio : Nat} {field : PortfolioField} {name : Text} (content : β)
    (spares : files.storage name = none → files.Spares portfolio field) :
    (files.upload portfolio field name content).Sound cleared := by
  unfold Files.upload
  by_cases taken : (files.storage name).isSome = true
  · rw [if_pos taken]
    exact sound
  · rw [if_neg taken]
    have free : files.storage name = none := by simpa using taken
    have created := (sound.put_free free content).create name
    have deleted := created.deleteRelatedFile (sound.created_spares name content (spares free))
    have stored : ((files.put name content).create name).rows files.nextRow = some ⟨name,[],.none,false⟩ :=
      Function.update_self _ _ _
    have unattached : ∀ p f, ((files.put name content).create name).fields p f ≠ some files.nextRow := sound.fresh
    refine deleted.setField ((deleteRelatedFile_rows (unattached portfolio field)).trans stored) rfl fun p f named => ?_
    exact unattached p f (deleteRelatedFile_named named)

theorem Sound.attach (sound : files.Sound cleared) (portfolio : Nat) (field : PortfolioField) (name : Text) :
    ((files.create name).setField portfolio field (some files.nextRow)).Sound cleared :=
  (sound.create name).setField (Function.update_self _ _ _) rfl sound.fresh

/-- Rows are marked one after another; those that were not marked have been cleared. -/
theorem Sound.foldl_mark (refs : List (Option Nat)) (sound : files.Sound cleared)
    (read : ∀ id, some id ∈ refs → ∀ row, files.rows id = some row → row.oedValidated = false →
      fileStorageLink row = some row.file ∧ ∃ bytes, files.storage row.file = some bytes ∧ cleared bytes) :
    ({ files with rows := refs.foldl mark files.rows } : Files β).Sound cleared := by
  induction refs generalizing files with
  | nil => exact sound
  | cons ref rest ih =>
    have later : ∀ id, some id ∈ rest → some id ∈ ref :: rest := fun id listed => List.mem_cons_of_mem ref listed
    cases ref with
    | none => exact ih sound fun id listed => read id (later id listed)
    | some marked =>
      cases stored : files.rows marked with
      | none =>
        rw [List.foldl_cons,mark,stored]
        exact ih sound fun id listed => read id (later id listed)
      | some row =>
        have held : files.Attached marked → fileStorageLink row = some row.file ∧
            ∃ bytes, files.storage row.file = some bytes ∧ cleared bytes := by
          intro attached
          cases validated : row.oedValidated with
          | true => exact sound.clear marked row ⟨attached,stored,validated⟩
          | false => exact read marked List.mem_cons_self row stored validated
        have saved : (files.save marked { row with oedValidated := true }).Sound cleared := by
          refine sound.save_row (sound.issued marked row stored) ?_ fun attached _ => held attached
          intro copy running
          obtain ⟨busy,same,_⟩ := sound.running marked copy row running stored
          exact ⟨busy,same,fun _ => rfl⟩
        rw [List.foldl_cons,mark,stored]
        refine ih saved fun id listed found before unmarked => ?_
        rcases updated_cases before with ⟨_,self⟩ | ⟨_,before⟩
        · rw [← Option.some.inj self] at unmarked
          cases unmarked
        · exact read id (later id listed) found before unmarked

end Files

/-! ### Steps and runs -/

theorem Tasks.Cleared.mono {tasks more : Tasks β} {bytes : β} (cleared : tasks.Cleared bytes)
    (reads : ∀ read ∈ tasks.reads, read ∈ more.reads) (results : ∀ result ∈ tasks.results, result ∈ more.results) :
    more.Cleared bytes := by
  obtain ⟨task,name,read,returned⟩ := cleared
  exact ⟨task,name,reads _ read,results _ returned⟩

/-- The files are sound for what the validations so far have cleared. -/
def State.Sound (state : State β) : Prop := state.files.Sound state.tasks.Cleared

theorem State.Sound.validated {state : State β} (sound : state.Sound) : state.Validated := by
  intro id row marked
  obtain ⟨link,held⟩ := sound.clear id row marked
  exact ⟨row.file,held.choose,link,held.choose_spec⟩

theorem State.not_validated {state : State β} {id : Nat} {row : RelatedFile} {name : Text} {bytes : β}
    (marked : state.files.Marked id row) (link : fileStorageLink row = some name)
    (stored : state.files.storage name = some bytes) (unread : ∀ read ∈ state.tasks.reads, read.2.2 ≠ bytes) :
    ¬ state.Validated := by
  intro validated
  obtain ⟨found,held,linked,kept,task,path,read,_⟩ := validated id row marked
  obtain rfl : name = found := Option.some.inj (link.symm.trans linked)
  obtain rfl : bytes = held := Option.some.inj (stored.symm.trans kept)
  exact unread _ read rfl

theorem State.Sound.log {state : State β} {tasks : Tasks β} (sound : state.Sound)
    (reads : ∀ read ∈ state.tasks.reads, read ∈ tasks.reads)
    (results : ∀ result ∈ state.tasks.results, result ∈ tasks.results) :
    ({ state with tasks := tasks } : State β).Sound :=
  Files.Sound.mono sound fun _ cleared => cleared.mono reads results

theorem State.Sound.fetch {state : State β} (sound : state.Sound) (task : Nat) (field : PortfolioField) :
    (state.fetch task field).Sound := by
  unfold State.fetch
  split
  · exact sound
  · split
    · exact sound
    · split
      · exact sound
      · exact sound.log (fun read listed => List.mem_append_left _ listed) fun result listed => listed

theorem State.Sound.finishValidation {state : State β} (sound : state.Sound) (task : Nat) (result : ValidationErrors) :
    (state.finishValidation task result).Sound := by
  unfold State.finishValidation
  split
  · exact sound
  · split
    · exact sound
    · split
      · exact sound.log (fun read listed => listed) fun result listed => List.mem_append_left _ listed
      · exact sound

theorem State.Sound.finishTransform {state : State β} (sound : state.Sound) (transform : Nat)
    (output : Option (Text × β)) : (state.finishTransform transform output).Sound := by
  unfold State.finishTransform
  split
  · exact sound
  · cases output with
    | none => exact sound.log (fun read listed => listed) fun result listed => listed
    | some stored =>
      by_cases taken : (state.files.storage stored.1).isSome = true
      · simp only [if_pos taken]
        exact sound
      · simp only [if_neg taken]
        exact Files.Sound.put_free sound (by simpa using taken) stored.2

theorem State.Sound.recordTransformOutput {state : State β} (sound : state.Sound) (transform : Nat)
    (output : Option Text) : (state.recordTransformOutput transform output).Sound := by
  unfold State.recordTransformOutput
  split
  · split
    · split
      · exact sound
      · exact Files.Sound.attach sound _ _ _
    · exact sound
  · exact sound

theorem State.Sound.recordValidationOutput {state : State β} (sound : state.Sound) {task : Nat} {result : ValidationErrors}
    (calm : Calm state (.recordValidationOutput task result)) : (state.recordValidationOutput task result).Sound := by
  unfold State.recordValidationOutput
  by_cases returned : (task,result) ∈ state.tasks.results
  · rw [if_pos returned]
    cases sent : state.tasks.validations[task]? with
    | none => exact sound
    | some validation =>
      cases truthy : result.truthy with
      | true => exact sound
      | false =>
        refine Files.Sound.foldl_mark (oedFields.map (state.files.fields validation.portfolio)) sound ?_
        intro id listed row stored unmarked
        obtain ⟨field,oed,named⟩ := List.mem_map.mp listed
        obtain ⟨errors,link,bytes,held,read⟩ := calm returned truthy validation sent field oed id row named stored unmarked
        exact ⟨link,bytes,held,task,row.file,read,errors ▸ returned⟩
  · rw [if_neg returned]
    exact sound

theorem step_sound (state : State β) (event : Event β) (sound : state.Sound) (calm : Calm state event) :
    (state.step event).Sound := by
  cases event with
  | upload portfolio field name content => exact Files.Sound.upload sound content calm
  | delete portfolio field => exact Files.Sound.deleteRelatedFile sound calm
  | convert file => exact Files.Sound.convert sound file
  | startConversion file => exact Files.Sound.startConversion sound file
  | writeConverted file content => exact Files.Sound.writeConverted sound content calm
  | finishConversion file success => exact Files.Sound.finishConversion sound calm
  | runOedValidation portfolio => exact sound.log (fun _ listed => listed) fun _ listed => listed
  | fetch task field => exact sound.fetch task field
  | finishValidation task result => exact sound.finishValidation task result
  | exposureTransform portfolio fileType => exact sound.log (fun _ listed => listed) fun _ listed => listed
  | finishTransform transform output => exact sound.finishTransform transform output
  | recordTransformOutput transform output => exact sound.recordTransformOutput transform output
  | recordValidationOutput task result => exact sound.recordValidationOutput calm

/-- Nothing is stored, and nothing was sent. -/
def noFiles : State β where
  files := ⟨fun _ => none,fun _ => none,0,fun _ _ => none,fun _ => none⟩
  tasks := ⟨[],[],[],[],[]⟩

theorem noFiles_sound : (noFiles : State β).Sound where
  unique := fun p f q g id named => by cases named
  present := fun p f id named => by cases named
  issued := fun id row stored => by cases stored
  loaded := fun id row conversion => by cases conversion
  running := fun id copy row conversion => by cases conversion
  clear := fun id row marked => by cases marked.stored

/-- In a run of calm steps, a mark on an attached file always says that a validation has
    read what the file hands over, and has returned no errors. -/
theorem validated_reached (events : List (Event β)) (calm : Along State.step Calm noFiles events) :
    Along State.step (fun state event => (state.step event).Validated) noFiles events := by
  refine (calm.and_invariant step_sound noFiles_sound).imp ?_
  rintro state event ⟨sound,met⟩
  exact (step_sound state event sound met).validated

def validatedLocations : List (Event String) :=
  [.upload 1 .locationFile "a.csv".toList "locations",.runOedValidation 1,.fetch 0 .locationFile,
    .finishValidation 0 (.errors [])]

theorem validatedLocations_recorded :
    Along State.step (fun state event => (state.step event).Validated) noFiles
      (validatedLocations ++ [.recordValidationOutput 0 (.errors [])]) := by
  refine validated_reached _ ⟨?_,trivial,trivial,trivial,?_,trivial⟩
  · intro _ id named
    cases named
  · intro _ _ validation sent field oed id row named stored _
    cases sent
    have location : field = .locationFile ∧ id = 0 := by
      simp only [oedFields,List.mem_cons,List.not_mem_nil,or_false] at oed
      rcases oed with rfl | rfl | rfl | rfl
      · cases named
      · exact ⟨rfl,(Option.some.inj named).symm⟩
      · cases named
      · cases named
    obtain ⟨rfl,rfl⟩ := location
    cases stored
    exact ⟨rfl,rfl,"locations",rfl,by decide⟩

/-- Another file is uploaded before the result is recorded. -/
def replacedLocations : List (Event String) :=
  validatedLocations ++ [.upload 1 .locationFile "b.csv".toList "others",.recordValidationOutput 0 (.errors [])]

/-- The validation after a transform reads the file from before it. -/
def transformedLocations : List (Event String) :=
  [.upload 1 .locationFile "a.csv".toList "locations",.exposureTransform 1 "location",
    .finishTransform 0 (some ("c.csv".toList,"transformed")),.recordTransformOutput 0 (some "c.csv".toList),
    .fetch 0 .locationFile,.finishValidation 0 (.errors []),.recordValidationOutput 0 (.errors [])]

def convertedLocations : List (Event String) :=
  validatedLocations ++ [.recordValidationOutput 0 (.errors []),.convert 0,.startConversion 0,
    .writeConverted 0 "converted",.finishConversion 0 true]

/-- Files are marked whose bytes no validation has read: of a later upload, of a transform
    and of a conversion. -/
theorem unread_marked :
    ¬ ((noFiles : State String).run replacedLocations).Validated ∧
      ¬ ((noFiles : State String).run transformedLocations).Validated ∧
      ¬ ((noFiles : State String).run convertedLocations).Validated := by
  have replaced : ((noFiles : State String).run replacedLocations).files.Marked 1 ⟨"b.csv".toList,[],.none,true⟩ :=
    ⟨⟨1,.locationFile,by decide,rfl⟩,rfl,rfl⟩
  have transformed : ((noFiles : State String).run transformedLocations).files.Marked 1 ⟨"c.csv".toList,[],.none,true⟩ :=
    ⟨⟨1,.locationFile,by decide,rfl⟩,rfl,rfl⟩
  have converted : ((noFiles : State String).run convertedLocations).files.Marked 0
      ⟨"a.csv".toList,"a-converted.csv".toList,.done,true⟩ :=
    ⟨⟨1,.locationFile,by decide,rfl⟩,rfl,rfl⟩
  exact ⟨State.not_validated replaced rfl rfl (by decide),State.not_validated transformed rfl rfl (by decide),
    State.not_validated converted rfl rfl (by decide)⟩

end OasisPlatform.OedValidation
