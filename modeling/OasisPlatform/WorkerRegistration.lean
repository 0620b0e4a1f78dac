import OasisPlatform.Json
import OasisPlatform.Models
import OasisPlatform.Tables

/-!
Registration of a model by its workers. The two versions of the task look the row up through
different managers, while the constraint on the triple covers the rows of both: version 2 does
not see a deleted row, cannot create another, and the error is only logged. Both tasks leave a
live row with the reported versions exactly when no deleted row has the triple and each
version is one that the task stores (`registered_iff`).
-/
namespace OasisPlatform.WorkerRegistration
open JsonValues Models
set_option linter.unusedSimpArgs false

/-- What a worker has a version of. -/
inductive Component where
  | ktools
  | oasislmf
  | platform
  | ods
  | oed
  deriving DecidableEq, Repr

def Component.all : List Component := [.ktools,.oasislmf,.platform,.ods,.oed]

/-- The keys of `get_worker_versions`. -/
def Component.key : Component → String
  | .ktools => "ktools"
  | .oasislmf => "oasislmf"
  | .platform => "platform"
  | .ods => "ods-tools"
  | .oed => "oed-schema"

structure Triple where
  supplierId : String
  modelId : String
  versionId : String
  deriving DecidableEq, Repr

/-- A row of `AnalysisModel`; `ver` is its five columns of versions. -/
structure ModelRow where
  pk : Nat
  triple : Triple
  resourceFile : Option FileId
  creator : UserId
  ver : Component → Option String
  oasislmfConfig : String
  deleted : Bool
  runMode : Option RunMode

abbrev Table := List ModelRow

/-- Python's `str(value)` and `json.dumps(value)`, and the texts that the database takes in a
    column of 255 characters. -/
structure Backend where
  str : Json → String
  dumps : Json → String
  takes : String → Bool

/-- `CharField.get_prep_value`. -/
def Backend.charValue (backend : Backend) : Json → Option String
  | .null => none
  | .string text => some text
  | value => some (backend.str value)

def Backend.takesTriple (backend : Backend) (triple : Triple) : Bool :=
  backend.takes triple.supplierId && backend.takes triple.modelId && backend.takes triple.versionId

def Backend.takesRow (backend : Backend) (row : ModelRow) : Bool :=
  backend.takesTriple row.triple && Component.all.all fun component => (row.ver component).all backend.takes

inductive Error where
  | doesNotExist
  | multipleObjectsReturned
  | integrityError
  | dataError
  | s3ClientError
  deriving DecidableEq, Repr

/-- `SoftDeleteManager.get_queryset`. -/
def getQueryset (aliveOnly : Bool) (table : Table) : Table :=
  if aliveOnly then table.filter fun row => !row.deleted else table

/-- `manager.get(model_id=.., supplier_id=.., version_id=..)`. -/
def get (aliveOnly : Bool) (table : Table) (triple : Triple) : Except Error ModelRow :=
  match (getQueryset aliveOnly table).filter fun row => row.triple = triple with
  | [] => .error .doesNotExist
  | [row] => .ok row
  | _ => .error .multipleObjectsReturned

/-- A new row, with the defaults of the columns. -/
def newRow (table : Table) (triple : Triple) (creator : UserId) : ModelRow where
  pk := (table.map ModelRow.pk).foldr max 0 + 1
  triple := triple
  resourceFile := none
  creator := creator
  ver := fun _ => none
  oasislmfConfig := ""
  deleted := false
  runMode := none

/-- `objects.create(..)`; the triple is unique among all rows. -/
def create (backend : Backend) (table : Table) (triple : Triple) (creator : UserId) : Table × Except Error ModelRow :=
  let row := newRow table triple creator
  if !backend.takesRow row then (table,.error .dataError)
  else if table.any fun other => other.triple = triple then (table,.error .integrityError)
  else (table ++ [row],.ok row)

/-- `model.save()` of an instance of the row. -/
def save (backend : Backend) (table : Table) (row : ModelRow) : Table × Except Error ModelRow :=
  if backend.takesRow row then (Tables.edit ModelRow.pk table row.pk fun _ => row,.ok row)
  else (table,.error .dataError)

/-- `model.activate()`. -/
def activate (backend : Backend) (table : Table) (row : ModelRow) : Table × Except Error ModelRow :=
  save backend table { row with deleted := false }

/-- How storing the settings ends: the file of the instance and that of its row after it, and
    whether it was with an `S3_ClientError`. Other errors are logged. -/
structure Stored where
  held : Option FileId
  row : Option FileId
  s3ClientError : Bool

/-- `handle_json_data(model, 'resource_file', ..)`. -/
def storeSettings (table : Table) (row : ModelRow) (stored : Stored) : Table × Except Error ModelRow :=
  let after := Tables.edit ModelRow.pk table row.pk fun other => { other with resourceFile := stored.row }
  (after,if stored.s3ClientError then .error .s3ClientError else .ok { row with resourceFile := stored.held })

/-- Where the versions of a task are assigned from: `m_version[key]`, or `m_version.get(key, None)`. -/
structure Assignment where
  component : Component
  required : Bool

/-- The assignments that are made before one raises. -/
def assigned (version : Json) : List Assignment → List (Component × Json)
  | [] => []
  | assignment :: rest =>
    match if assignment.required then version.item assignment.component.key
      else version.get assignment.component.key .null with
    | none => []
    | some value => (assignment.component,value) :: assigned version rest

def setVersion (backend : Backend) (row : ModelRow) (version : Component × Json) : ModelRow :=
  { row with ver := Function.update row.ver version.1 (backend.charValue version.2) }

/-- What the two tasks do not have in common. -/
structure Task where
  aliveOnly : Bool
  oasislmfConfig : Option String
  assignments : List Assignment
  runMode : RunMode

/-- The lookup, with the row of a deleted model made live. -/
def lookUp (task : Task) (backend : Backend) (table : Table) (triple : Triple) (systemUser : UserId) :
    Table × Except Error ModelRow :=
  match get task.aliveOnly table triple with
  | .ok row => if row.deleted then activate backend table row else (table,.ok row)
  | .error .doesNotExist => create backend table triple systemUser
  | .error error => (table,.error error)

/-- What is assigned to the instance between the settings file and the last save. -/
def prepare (task : Task) (backend : Backend) (version : Json) (row : ModelRow) : ModelRow :=
  let configured := { row with oasislmfConfig := task.oasislmfConfig.getD row.oasislmfConfig }
  let versioned :=
    if version.truthy then (assigned version task.assignments).foldl (setVersion backend) configured else configured
  { versioned with runMode := some (versioned.runMode.getD task.runMode) }

/-- The part of a task under its outer `try`. -/
def attempt (task : Task) (backend : Backend) (table : Table) (triple : Triple) (settings version : Json)
    (stored : Stored) (systemUser : UserId) : Table × Except Error ModelRow :=
  match lookUp task backend table triple systemUser with
  | (found,.error error) => (found,.error error)
  | (found,.ok row) =>
    match if settings.truthy then storeSettings found row stored else (found,.ok row) with
    | (after,.error error) => (after,.error error)
    | (after,.ok row) => save backend after (prepare task backend version row)

/-- Only an `S3_ClientError` is raised again. -/
def register (task : Task) (backend : Backend) (table : Table) (triple : Triple) (settings version : Json)
    (stored : Stored) (systemUser : UserId) : Table × Option Error :=
  match attempt task backend table triple settings version stored systemUser with
  | (after,.error .s3ClientError) => (after,some .s3ClientError)
  | (after,_) => (after,none)

def taskV1 : Task where
  aliveOnly := false
  oasislmfConfig := none
  assignments := [⟨.ktools,true⟩,⟨.oasislmf,true⟩,⟨.platform,true⟩]
  runMode := .v1

def taskV2 (backend : Backend) (conf : Json) : Task where
  aliveOnly := true
  oasislmfConfig := if conf.truthy then some (backend.dumps conf) else none
  assignments := [⟨.ktools,true⟩,⟨.oasislmf,true⟩,⟨.platform,true⟩,⟨.ods,false⟩,⟨.oed,false⟩]
  runMode := .v2

def runRegisterWorker (backend : Backend) (table : Table) (triple : Triple) (settings version : Json) (stored : Stored)
    (systemUser : UserId) : Table × Option Error :=
  register taskV1 backend table triple settings version stored systemUser

def runRegisterWorkerV2 (backend : Backend) (table : Table) (triple : Triple) (settings version conf : Json)
    (stored : Stored) (systemUser : UserId) : Table × Option Error :=
  register (taskV2 backend conf) backend table triple settings version stored systemUser

/-- Keys and triples are different, and what is in the table the database has taken. -/
structure Sound (backend : Backend) (table : Table) : Prop where
  pks : (table.map ModelRow.pk).Nodup
  triples : (table.map ModelRow.triple).Nodup
  taken : ∀ row ∈ table, backend.takesRow row = true

/-- The only row with the triple is live, with the reported versions and a run mode. -/
def Registered (backend : Backend) (triple : Triple) (version : Json) (table : Table) : Prop :=
  ∃ row, table.filter (fun row => row.triple = triple) = [row] ∧ row.deleted = false ∧
    (∀ component value, version.item component.key = some value → row.ver component = backend.charValue value) ∧
    row.runMode ≠ none

/-- The version of a component before the registration. -/
def heldVersion (table : Table) (triple : Triple) (component : Component) : Option String :=
  (table.find? fun row => row.triple = triple).bind fun row => row.ver component

/-- The task sees the row, or may create it, and reported versions are taken by the database and
    assigned by the task, unless the row has them already. -/
structure Registrable (task : Task) (backend : Backend) (table : Table) (triple : Triple) (version : Json) : Prop where
  visible : task.aliveOnly = true → ∀ row ∈ table, row.triple = triple → row.deleted = false
  creatable : (∀ row ∈ table, row.triple ≠ triple) → backend.takesTriple triple = true
  versions : ∀ component value, version.item component.key = some value →
    (backend.charValue value).all backend.takes = true ∧
      (component ∈ (assigned version task.assignments).map Prod.fst ∨
        heldVersion table triple component = backend.charValue value)

variable {task : Task} {backend : Backend} {table : Table} {triple : Triple} {settings version : Json} {stored : Stored}
  {systemUser : UserId} {row : ModelRow}

theorem takesRow_iff :
    backend.takesRow row = true ↔
      backend.takesTriple row.triple = true ∧ ∀ component, (row.ver component).all backend.takes = true := by
  rw [Backend.takesRow,Bool.and_eq_true,List.all_eq_true]
  refine and_congr_right fun _ => ⟨fun all component => all component ?_,fun all component _ => all component⟩
  cases component <;> decide

/-- No row has the triple, or one row has it. -/
theorem Sound.cases (sound : Sound backend table) (triple : Triple) :
    (∀ row ∈ table, row.triple ≠ triple) ∨
      ∃ row ∈ table, row.triple = triple ∧ table.filter (fun row => row.triple = triple) = [row] := by
  by_cases some : ∃ row ∈ table, row.triple = triple
  · obtain ⟨row,member,rfl⟩ := some
    exact .inr ⟨row,member,rfl,Tables.filter_eq_singleton sound.triples member⟩
  · push Not at some
    exact .inl some

theorem filter_absent (absent : ∀ row ∈ table, row.triple ≠ triple) :
    table.filter (fun row => row.triple = triple) = [] := by
  rw [List.filter_eq_nil_iff]
  intro row member
  simpa using absent row member

theorem mem_of_filter (found : table.filter (fun row => row.triple = triple) = [row]) :
    row ∈ table ∧ row.triple = triple := by
  have listed : row ∈ table.filter fun row => row.triple = triple := found ▸ List.mem_singleton_self row
  simpa using List.mem_filter.mp listed

theorem heldVersion_found (found : table.filter (fun row => row.triple = triple) = [row]) (component : Component) :
    heldVersion table triple component = row.ver component := by
  rw [heldVersion,← List.head?_filter,found]
  rfl

theorem heldVersion_absent (absent : ∀ row ∈ table, row.triple ≠ triple) (component : Component) :
    heldVersion table triple component = none := by
  rw [heldVersion,← List.head?_filter,filter_absent absent]
  rfl

theorem get_absent (absent : ∀ row ∈ table, row.triple ≠ triple) (aliveOnly : Bool) :
    get aliveOnly table triple = .error .doesNotExist := by
  have none : (getQueryset aliveOnly table).filter (fun row => row.triple = triple) = [] := by
    refine filter_absent fun row member => absent row ?_
    unfold getQueryset at member
    split at member
    · exact List.mem_of_mem_filter member
    · exact member
  rw [get,none]

/-- A deleted row is found by the manager of all rows only. -/
theorem get_found (found : table.filter (fun row => row.triple = triple) = [row]) (aliveOnly : Bool) :
    get aliveOnly table triple = if aliveOnly && row.deleted then .error .doesNotExist else .ok row := by
  have queried : (getQueryset aliveOnly table).filter (fun row => row.triple = triple) =
      if aliveOnly && row.deleted then [] else [row] := by
    cases aliveOnly with
    | false => exact found
    | true =>
      rw [getQueryset,if_pos rfl,List.filter_comm,found]
      cases deleted : row.deleted <;> simp [deleted]
  rw [get,queried]
  cases aliveOnly && row.deleted <;> rfl

/-! ### Steps of a registration -/

theorem Sound.edit (sound : Sound backend table) {pk : Nat} {change : ModelRow → ModelRow}
    (keys : ∀ row, row.pk = pk → (change row).pk = row.pk)
    (kept : ∀ row ∈ table, row.pk = pk → (change row).triple = row.triple ∧ backend.takesRow (change row) = true) :
    Sound backend (Tables.edit ModelRow.pk table pk change) := by
  constructor
  · rw [Tables.map_edit ModelRow.pk keys]
    exact sound.pks
  · have same : (Tables.edit ModelRow.pk table pk change).map ModelRow.triple = table.map ModelRow.triple := by
      rw [Tables.edit,List.map_map]
      refine List.map_congr_left fun row member => ?_
      by_cases here : row.pk = pk
      · simp [here,(kept row member here).1]
      · simp [here]
    rw [same]
    exact sound.triples
  · intro row member
    rcases Tables.mem_edit member with ⟨before,-⟩ | ⟨before,listed,here,rfl⟩
    · exact sound.taken row before
    · exact (kept before listed here).2

/-- The instance that a task holds is its row, the settings file apart. -/
structure Instance (backend : Backend) (triple : Triple) (table : Table) (row : ModelRow) : Prop where
  sound : Sound backend table
  same : row.triple = triple
  found : ∃ file, table.filter (fun row => row.triple = triple) = [{ row with resourceFile := file }]

theorem Instance.taken (held : Instance backend triple table row) : backend.takesRow row = true := by
  obtain ⟨file,found⟩ := held.found
  have stands := takesRow_iff.mp (held.sound.taken _ (mem_of_filter found).1)
  exact takesRow_iff.mpr stands

/-- Saving an instance whose texts the database takes. -/
theorem Instance.save (held : Instance backend triple table row) {changed : ModelRow} (pk : changed.pk = row.pk)
    (same : changed.triple = triple) (taken : backend.takesRow changed = true) :
    ∃ after, save backend table changed = (after,.ok changed) ∧ Sound backend after ∧
      after.filter (fun row => row.triple = triple) = [changed] := by
  obtain ⟨file,found⟩ := held.found
  have stands := (mem_of_filter found).1
  refine ⟨_,if_pos taken,?_,?_⟩
  · refine held.sound.edit (fun _ here => here.symm) fun other member here => ?_
    have equal : other = { row with resourceFile := file } :=
      List.inj_on_of_nodup_map held.sound.pks member stands (here.trans pk)
    exact ⟨by rw [equal,same,held.same],taken⟩
  · exact Tables.filter_edit held.sound.pks found pk.symm (by simp [same,held.same])

theorem takesRow_newRow (table : Table) (triple : Triple) (creator : UserId) :
    backend.takesRow (newRow table triple creator) = backend.takesTriple triple :=
  Bool.and_true _

theorem create_absent (sound : Sound backend table) (absent : ∀ row ∈ table, row.triple ≠ triple)
    (taken : backend.takesTriple triple = true) (creator : UserId) :
    ∃ found row, create backend table triple creator = (found,.ok row) ∧ Instance backend triple found row ∧
      row.deleted = false ∧ ∀ component, row.ver component = none := by
  have new : (table.any fun other => other.triple = triple) = false := by
    rw [List.any_eq_false]
    intro other member
    simpa using absent other member
  have accepted := (takesRow_newRow table triple creator).trans taken
  refine ⟨table ++ [newRow table triple creator],newRow table triple creator,?_,⟨⟨?_,?_,?_⟩,rfl,none,?_⟩,rfl,fun _ => rfl⟩
  · simp only [create,accepted,new]
    rfl
  · rw [List.map_append,List.nodup_append]
    refine ⟨sound.pks,List.nodup_singleton _,?_⟩
    rintro pk listed other last rfl
    exact Tables.next_fresh _ (List.mem_singleton.mp last ▸ listed)
  · rw [List.map_append,List.nodup_append]
    refine ⟨sound.triples,List.nodup_singleton _,?_⟩
    rintro held listed other last rfl
    obtain ⟨before,member,equal⟩ := List.mem_map.mp listed
    exact absent before member (equal.trans (List.mem_singleton.mp last))
  · intro other member
    rcases List.mem_append.mp member with before | last
    · exact sound.taken other before
    · exact List.mem_singleton.mp last ▸ accepted
  · rw [List.filter_append,filter_absent absent]
    simp [newRow]

theorem create_refused (taken : backend.takesTriple triple = false) (creator : UserId) :
    create backend table triple creator = (table,.error .dataError) := by
  simp only [create,takesRow_newRow,taken]
  rfl

theorem create_present (taken : backend.takesTriple triple = true) (present : ∃ row ∈ table, row.triple = triple)
    (creator : UserId) : create backend table triple creator = (table,.error .integrityError) := by
  have listed : (table.any fun other => other.triple = triple) = true := by
    simpa using present
  simp only [create,takesRow_newRow,taken,listed]
  rfl

/-- The lookup fails and changes nothing, or it gives the instance of a live row with the
    versions from before. -/
theorem lookUp_cases (task : Task) (sound : Sound backend table) (triple : Triple) (systemUser : UserId) :
    ((∃ error, lookUp task backend table triple systemUser = (table,.error error) ∧ error ≠ .s3ClientError) ∧
        ((∃ row ∈ table, row.triple = triple ∧ task.aliveOnly = true ∧ row.deleted = true) ∨
          ((∀ row ∈ table, row.triple ≠ triple) ∧ backend.takesTriple triple = false))) ∨
      ((∃ found row, lookUp task backend table triple systemUser = (found,.ok row) ∧ Instance backend triple found row ∧
          row.deleted = false ∧ ∀ component, row.ver component = heldVersion table triple component) ∧
        (task.aliveOnly = true → ∀ row ∈ table, row.triple = triple → row.deleted = false) ∧
        ((∀ row ∈ table, row.triple ≠ triple) → backend.takesTriple triple = true)) := by
  rcases sound.cases triple with absent | ⟨row,member,same,found⟩
  · rw [lookUp,get_absent absent]
    cases taken : backend.takesTriple triple with
    | false =>
      rw [show create backend table triple systemUser = _ from create_refused taken systemUser]
      exact .inl ⟨⟨_,rfl,nofun⟩,.inr ⟨absent,rfl⟩⟩
    | true =>
      obtain ⟨after,row,created,held,live,blank⟩ := create_absent sound absent taken systemUser
      refine .inr ⟨⟨after,row,created,held,live,fun component => ?_⟩,fun _ row member same => ?_,fun _ => rfl⟩
      · rw [blank,heldVersion_absent absent]
      · exact absurd same (absent row member)
  · have only (other : ModelRow) (listed : other ∈ table) (equal : other.triple = triple) : other = row :=
      List.inj_on_of_nodup_map sound.triples listed member (equal.trans same.symm)
    have taken : backend.takesTriple triple = true := same ▸ (takesRow_iff.mp (sound.taken row member)).1
    have held : Instance backend triple table row := ⟨sound,same,row.resourceFile,found⟩
    rw [lookUp,get_found found]
    cases hidden : task.aliveOnly && row.deleted with
    | true =>
      rw [Bool.and_eq_true] at hidden
      rw [if_pos rfl]
      refine .inl ⟨⟨_,create_present taken ⟨row,member,same⟩ systemUser,nofun⟩,.inl ⟨row,member,same,hidden⟩⟩
    | false =>
      rw [if_neg Bool.false_ne_true]
      refine .inr ⟨?_,fun alive other listed equal => ?_,fun absent => absurd same (absent row member)⟩
      · cases deleted : row.deleted with
        | false => exact ⟨table,row,by simp [deleted],held,deleted,fun component => (heldVersion_found found component).symm⟩
        | true =>
          obtain ⟨after,saved,sound,stands⟩ := held.save (show ({ row with deleted := false } : ModelRow).pk = row.pk from rfl) same
            (takesRow_iff.mpr (takesRow_iff.mp held.taken))
          refine ⟨after,{ row with deleted := false },?_,⟨sound,same,row.resourceFile,stands⟩,rfl,fun component => ?_⟩
          · simpa [deleted,activate] using saved
          exact (heldVersion_found found component).symm
      · rw [only other listed equal]
        simpa [alive] using hidden

/-- Storing the settings changes the file of the row and of the instance only. -/
theorem storeSettings_instance (held : Instance backend triple table row) (stored : Stored)
    (other : stored.s3ClientError = false) :
    ∃ after, storeSettings table row stored = (after,.ok { row with resourceFile := stored.held }) ∧
      Instance backend triple after { row with resourceFile := stored.held } := by
  obtain ⟨file,found⟩ := held.found
  refine ⟨_,by rw [storeSettings,other]; rfl,?_,held.same,stored.row,?_⟩
  · refine held.sound.edit (fun _ _ => rfl) fun before member _ => ⟨rfl,?_⟩
    exact takesRow_iff.mpr (takesRow_iff.mp (held.sound.taken before member))
  · let change (other : ModelRow) : ModelRow := { other with resourceFile := stored.row }
    have edited : (Tables.edit ModelRow.pk table row.pk change).filter (fun row => row.triple = triple) =
        [change { row with resourceFile := file }] := Tables.filter_edit held.sound.pks found rfl rfl
    exact edited

/-- An assigned value is that of the payload, or null where it has none. -/
theorem assigned_value {assignments : List Assignment} {entry : Component × Json}
    (member : entry ∈ assigned version assignments) : entry.2 = (version.item entry.1.key).getD .null := by
  induction assignments with
  | nil => cases member
  | cons assignment rest ih =>
    rw [assigned] at member
    split at member
    · cases member
    · rename_i value read
      rcases List.mem_cons.mp member with rfl | later
      · show value = (version.item assignment.component.key).getD .null
        by_cases required : assignment.required = true
        · rw [if_pos required] at read
          rw [read]
          rfl
        · rw [if_neg required] at read
          cases version <;> simp_all [Json.get,Json.item]
      · exact ih later

theorem foldl_setVersion {f : Component → Json} {entries : List (Component × Json)} (row : ModelRow)
    (values : ∀ entry ∈ entries, entry.2 = f entry.1) (component : Component) :
    (entries.foldl (setVersion backend) row).ver component =
      if component ∈ entries.map Prod.fst then backend.charValue (f component) else row.ver component := by
  induction entries generalizing row with
  | nil => rfl
  | cons entry rest ih =>
    rw [List.foldl_cons,ih _ fun entry member => values entry (List.mem_cons_of_mem _ member),List.map_cons]
    by_cases later : component ∈ rest.map Prod.fst
    · rw [if_pos later,if_pos (List.mem_cons_of_mem _ later)]
    · rw [if_neg later]
      by_cases here : component = entry.1
      · rw [here,if_pos List.mem_cons_self,setVersion,values entry List.mem_cons_self]
        exact Function.update_self _ _ _
      · rw [if_neg (List.not_mem_cons_of_ne_of_not_mem here later),setVersion]
        exact Function.update_of_ne here _ _

theorem foldl_setVersion_other (backend : Backend) (entries : List (Component × Json)) (row : ModelRow) :
    ∃ ver, entries.foldl (setVersion backend) row = { row with ver := ver } := by
  induction entries generalizing row with
  | nil => exact ⟨row.ver,rfl⟩
  | cons entry rest ih =>
    obtain ⟨ver,same⟩ := ih (setVersion backend row entry)
    exact ⟨ver,same⟩

/-- The assignments that a task makes. -/
def assignments (task : Task) (version : Json) : List (Component × Json) :=
  if version.truthy then assigned version task.assignments else []

theorem prepare_eq (task : Task) (backend : Backend) (version : Json) (row : ModelRow) :
    ∃ ver, prepare task backend version row =
      { row with
        ver := ver
        oasislmfConfig := task.oasislmfConfig.getD row.oasislmfConfig
        runMode := some (row.runMode.getD task.runMode) } := by
  unfold prepare
  split
  · obtain ⟨ver,same⟩ := foldl_setVersion_other backend (assigned version task.assignments)
      { row with oasislmfConfig := task.oasislmfConfig.getD row.oasislmfConfig }
    exact ⟨ver,congrArg (fun row : ModelRow => { row with runMode := some (row.runMode.getD task.runMode) }) same⟩
  · exact ⟨row.ver,rfl⟩

theorem prepare_ver (task : Task) (backend : Backend) (version : Json) (row : ModelRow) (component : Component) :
    (prepare task backend version row).ver component =
      if component ∈ (assignments task version).map Prod.fst then
        backend.charValue ((version.item component.key).getD .null)
      else row.ver component := by
  unfold prepare assignments
  split
  · exact foldl_setVersion (f := fun component => (version.item component.key).getD .null) _
      (fun _ member => assigned_value member) component
  · rfl

/-- A payload that reports a version is true. -/
theorem truthy_of_item {key : String} {value : Json} (reported : version.item key = some value) :
    version.truthy = true := by
  cases version with
  | object fields =>
    cases fields with
    | nil => cases reported
    | cons field rest => rfl
  | _ => cases reported

theorem assignments_reported {key : String} {value : Json} (reported : version.item key = some value) (task : Task) :
    assignments task version = assigned version task.assignments := if_pos (truthy_of_item reported)

/-- What a row has after the assignments, when it is taken. -/
theorem prepared_carries_iff (taken : backend.takesRow (prepare task backend version row) = true) :
    (∀ component value, version.item component.key = some value →
        (prepare task backend version row).ver component = backend.charValue value) ↔
      ∀ component value, version.item component.key = some value →
        (backend.charValue value).all backend.takes = true ∧
          (component ∈ (assigned version task.assignments).map Prod.fst ∨ row.ver component = backend.charValue value) := by
  refine forall_congr' fun component => forall_congr' fun value => forall_congr' fun reported => ?_
  have all := (takesRow_iff.mp taken).2 component
  have stored := prepare_ver task backend version row component
  rw [reported,assignments_reported reported] at stored
  rw [stored] at all ⊢
  by_cases here : component ∈ (assigned version task.assignments).map Prod.fst
  · simp only [here,if_true,Option.getD_some] at all ⊢
    simpa using all
  · simp only [here,if_false,false_or] at all ⊢
    exact ⟨fun equal => ⟨equal ▸ all,equal⟩,And.right⟩

/-- A row that was taken is refused for a version that is reported. -/
theorem refused_reported (before : backend.takesRow row = true)
    (refused : backend.takesRow (prepare task backend version row) = false) :
    ∃ (component : Component) (value : Json), version.item component.key = some value ∧
      (backend.charValue value).all backend.takes = false := by
  obtain ⟨ver,kept⟩ := prepare_eq task backend version row
  have before := takesRow_iff.mp before
  obtain ⟨component,bad⟩ : ∃ component,
      ((prepare task backend version row).ver component).all backend.takes = false := by
    by_contra none
    push Not at none
    refine Bool.false_ne_true (refused.symm.trans
      (takesRow_iff.mpr ⟨?_,fun component => by simpa using none component⟩))
    rw [kept]
    exact before.1
  rw [prepare_ver] at bad
  have here : component ∈ (assignments task version).map Prod.fst := by
    by_contra elsewhere
    rw [if_neg elsewhere,before.2 component] at bad
    cases bad
  rw [if_pos here] at bad
  cases reported : version.item component.key with
  | none =>
    rw [reported] at bad
    cases bad
  | some value =>
    rw [reported,Option.getD_some] at bad
    exact ⟨component,value,reported,bad⟩

/-- What a task does once it holds the instance of a live row. -/
theorem saved_iff (held : Instance backend triple table row) (live : row.deleted = false) :
    Registered backend triple version (save backend table (prepare task backend version row)).1 ↔
      ∀ component value, version.item component.key = some value →
        (backend.charValue value).all backend.takes = true ∧
          (component ∈ (assigned version task.assignments).map Prod.fst ∨ row.ver component = backend.charValue value) := by
  obtain ⟨ver,kept⟩ := prepare_eq task backend version row
  have same : (prepare task backend version row).triple = triple := by rw [kept,held.same]
  cases taken : backend.takesRow (prepare task backend version row) with
  | true =>
    rw [← prepared_carries_iff taken]
    obtain ⟨after,saved,-,found⟩ :=
      held.save (show (prepare task backend version row).pk = row.pk by rw [kept]) same taken
    have mode : (prepare task backend version row).runMode ≠ none := by rw [kept]; exact nofun
    rw [saved]
    constructor
    · rintro ⟨other,only,-,carried,-⟩
      obtain rfl : prepare task backend version row = other := List.singleton_injective (found.symm.trans only)
      exact carried
    · intro carried
      exact ⟨_,found,by rw [kept,live],carried,mode⟩
  | false =>
    have refused : save backend table (prepare task backend version row) = (table,.error .dataError) := by
      rw [save,taken]
      rfl
    obtain ⟨component,value,reported,bad⟩ := refused_reported held.taken taken
    rw [refused]
    refine iff_of_false ?_ fun all => ?_
    · rintro ⟨other,only,-,carried,-⟩
      obtain ⟨file,found⟩ := held.found
      obtain rfl : { row with resourceFile := file } = other := List.singleton_injective (found.symm.trans only)
      have stands : row.ver component = backend.charValue value := carried component value reported
      rw [← stands,(takesRow_iff.mp held.taken).2 component] at bad
      cases bad
    · rw [(all component value reported).1] at bad
      cases bad

theorem register_fst (task : Task) (backend : Backend) (table : Table) (triple : Triple) (settings version : Json)
    (stored : Stored) (systemUser : UserId) :
    (register task backend table triple settings version stored systemUser).1 =
      (attempt task backend table triple settings version stored systemUser).1 := by
  unfold register
  split <;> simp_all

theorem register_iff (task : Task) (sound : Sound backend table) (triple : Triple) (settings version : Json)
    (stored : Stored) (other : stored.s3ClientError = false) (systemUser : UserId) :
    Registered backend triple version (register task backend table triple settings version stored systemUser).1 ↔
      Registrable task backend table triple version := by
  rw [register_fst,attempt]
  rcases lookUp_cases task sound triple systemUser with ⟨⟨error,failed,-⟩,hidden⟩ |
    ⟨⟨found,row,looked,held,live,versions⟩,visible,creatable⟩
  · rw [failed]
    refine iff_of_false ?_ fun registrable => ?_
    · rintro ⟨row,only,live,-⟩
      obtain ⟨member,same⟩ := mem_of_filter only
      rcases hidden with ⟨before,listed,equal,-,deleted⟩ | ⟨absent,-⟩
      · obtain rfl : before = row := List.inj_on_of_nodup_map sound.triples listed member (equal.trans same.symm)
        exact Bool.false_ne_true (live.symm.trans deleted)
      · exact absent row member same
    · rcases hidden with ⟨before,listed,equal,alive,deleted⟩ | ⟨absent,refused⟩
      · exact Bool.false_ne_true ((registrable.visible alive before listed equal).symm.trans deleted)
      · exact Bool.false_ne_true (refused.symm.trans (registrable.creatable absent))
  · have exact : Registrable task backend table triple version ↔
        ∀ component value, version.item component.key = some value →
          (backend.charValue value).all backend.takes = true ∧
            (component ∈ (assigned version task.assignments).map Prod.fst ∨
              row.ver component = backend.charValue value) := by
      simp only [versions]
      exact ⟨fun registrable => registrable.versions,fun all => ⟨visible,creatable,all⟩⟩
    rw [looked,exact]
    by_cases sent : settings.truthy = true
    · obtain ⟨after,saved,kept⟩ := storeSettings_instance held stored other
      simp only [sent,if_true,saved]
      exact saved_iff kept live
    · simp only [sent]
      exact saved_iff held live

/-! ### Runs -/

/-- What changes the table: registrations by either task, and models that are deleted. -/
inductive Change where
  | register (task : Task) (triple : Triple) (settings version : Json) (stored : Stored) (systemUser : UserId)
  | delete (pk : Nat)

def apply (backend : Backend) (table : Table) : Change → Table
  | .register task triple settings version stored systemUser =>
    (register task backend table triple settings version stored systemUser).1
  | .delete pk => Tables.edit ModelRow.pk table pk fun row => { row with deleted := true }

theorem save_sound (held : Instance backend triple table row) (task : Task) (version : Json) :
    Sound backend (save backend table (prepare task backend version row)).1 := by
  obtain ⟨ver,kept⟩ := prepare_eq task backend version row
  generalize prepare task backend version row = changed at kept
  cases taken : backend.takesRow changed with
  | true =>
    obtain ⟨after,saved,sound,-⟩ := held.save (show changed.pk = row.pk by rw [kept]) (by rw [kept,held.same]) taken
    exact saved ▸ sound
  | false =>
    rw [save,taken]
    exact held.sound

theorem apply_sound (sound : Sound backend table) (change : Change) : Sound backend (apply backend table change) := by
  cases change with
  | delete pk =>
    refine sound.edit (fun _ _ => rfl) fun row member _ => ⟨rfl,?_⟩
    exact takesRow_iff.mpr (takesRow_iff.mp (sound.taken row member))
  | register task triple settings version stored systemUser =>
    rw [apply,register_fst,attempt]
    rcases lookUp_cases task sound triple systemUser with ⟨⟨error,failed,-⟩,-⟩ | ⟨⟨found,row,looked,held,-⟩,-⟩
    · rw [failed]
      exact sound
    · rw [looked]
      by_cases sent : settings.truthy = true
      · simp only [sent,if_true]
        cases error : stored.s3ClientError with
        | false =>
          obtain ⟨after,saved,kept⟩ := storeSettings_instance held stored error
          rw [saved]
          exact save_sound kept task version
        | true =>
          rw [storeSettings,error]
          refine held.sound.edit (fun _ _ => rfl) fun before member _ => ⟨rfl,?_⟩
          exact takesRow_iff.mpr (takesRow_iff.mp (held.sound.taken before member))
      · simp only [sent]
        exact save_sound held task version

theorem run_sound (sound : Sound backend table) (changes : List Change) : Sound backend (changes.foldl (apply backend) table) := by
  induction changes generalizing table with
  | nil => exact sound
  | cons change rest ih => exact ih (apply_sound sound change)

/-- Every table that is reached from the empty one is sound. -/
theorem reached_sound (backend : Backend) (changes : List Change) : Sound backend (changes.foldl (apply backend) []) := by
  have empty : Sound backend ([] : Table) :=
    ⟨.nil,.nil,fun _ member => nomatch member⟩
  exact run_sound empty changes

/-- Registrations by both versions of the task leave the live row, exactly where no deleted row
    has the triple and the versions are ones that the tasks store. -/
theorem registered_iff (backend : Backend) (table : Table) (sound : Sound backend table) (triple : Triple)
    (settings version conf : Json) (stored : Stored) (other : stored.s3ClientError = false) (systemUser : UserId) :
    (Registered backend triple version
        (runRegisterWorker backend table triple settings version stored systemUser).1 ∧
      Registered backend triple version
        (runRegisterWorkerV2 backend table triple settings version conf stored systemUser).1) ↔
      Registrable taskV1 backend table triple version ∧
        Registrable (taskV2 backend conf) backend table triple version :=
  and_congr (register_iff taskV1 sound triple settings version stored other systemUser)
    (register_iff (taskV2 backend conf) sound triple settings version stored other systemUser)

/-- A database that takes at most 255 characters. -/
def someBackend : Backend := ⟨fun _ => "",fun _ => "",fun text => decide (text.length ≤ 255)⟩

def piwind : Triple := ⟨"OasisLMF","PiWind","1"⟩

def piwindRow (deleted : Bool) : ModelRow where
  pk := 1
  triple := piwind
  resourceFile := none
  creator := 1
  ver := fun _ => none
  oasislmfConfig := ""
  deleted := deleted
  runMode := some .v2

theorem piwindRow_sound (deleted : Bool) : Sound someBackend [piwindRow deleted] where
  pks := List.nodup_singleton _
  triples := List.nodup_singleton _
  taken := by
    rintro row member
    rw [List.mem_singleton.mp member]
    cases deleted <;> decide

def reportedVersions : Json := .object [("ktools",.string "3.12.4"),("oasislmf",.string "2.4.5"),("platform",.string "2.4.5")]

def notStored : Stored := ⟨none,none,false⟩

theorem piwind_versions (deleted : Bool) (task : Task)
    (three : [Component.ktools,.oasislmf,.platform] ⊆ (assigned reportedVersions task.assignments).map Prod.fst)
    (visible : task.aliveOnly = true → deleted = false) :
    Registrable task someBackend [piwindRow deleted] piwind reportedVersions where
  visible := by
    intro alive row member _
    rw [List.mem_singleton.mp member]
    exact visible alive
  creatable := fun absent => absurd rfl (absent (piwindRow deleted) List.mem_cons_self)
  versions := by
    intro component value reported
    cases component <;> simp [reportedVersions,Json.item,Component.key,List.lookup_cons,List.lookup_nil] at reported
    all_goals
      subst reported
      exact ⟨by decide,.inl (three (by decide))⟩

/-- The first version makes a deleted model live again, the second leaves it deleted and logs
    the error. -/
theorem deleted_model_stays :
    Registered someBackend piwind reportedVersions
        (runRegisterWorker someBackend [piwindRow true] piwind .null reportedVersions notStored 1).1 ∧
      ¬ Registered someBackend piwind reportedVersions
        (runRegisterWorkerV2 someBackend [piwindRow true] piwind .null reportedVersions .null notStored 1).1 ∧
      (runRegisterWorkerV2 someBackend [piwindRow true] piwind .null reportedVersions .null notStored 1).2 = none := by
  refine ⟨?_,?_,rfl⟩
  · exact (register_iff taskV1 (piwindRow_sound true) piwind .null reportedVersions notStored rfl 1).mpr
      (piwind_versions true taskV1 (by decide) nofun)
  · rintro ⟨row,only,live,-⟩
    have stays : (runRegisterWorkerV2 someBackend [piwindRow true] piwind .null reportedVersions .null notStored 1).1 =
        [piwindRow true] := rfl
    rw [stays] at only
    obtain rfl : piwindRow true = row := List.singleton_injective only
    exact Bool.false_ne_true live.symm

theorem live_model_registered :
    Registered someBackend piwind reportedVersions
        (runRegisterWorker someBackend [piwindRow false] piwind .null reportedVersions notStored 1).1 ∧
      Registered someBackend piwind reportedVersions
        (runRegisterWorkerV2 someBackend [piwindRow false] piwind .null reportedVersions .null notStored 1).1 :=
  (registered_iff someBackend [piwindRow false] (piwindRow_sound false) piwind .null reportedVersions .null notStored rfl
    1).mpr ⟨piwind_versions false taskV1 (by decide) fun _ => rfl,
      piwind_versions false (taskV2 someBackend .null) (by decide) fun _ => rfl⟩

end OasisPlatform.WorkerRegistration
