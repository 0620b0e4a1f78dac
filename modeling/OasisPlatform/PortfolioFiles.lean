import Mathlib.Data.List.TakeWhile
import OasisPlatform.GroupAccess
import OasisPlatform.Json
import OasisPlatform.SharedRow

/-!
The groups of portfolios and of their files. A file has a copy of the groups, which is that
of the portfolio when the file is uploaded, the groups of the user when it is linked in the
storage, and empty when it is the output of a transform; and the groups of the portfolio may
change later. Who may use the portfolio may use its files, and nobody else, as long as these
copies agree (`files_follow_iff`).
-/
namespace OasisPlatform.PortfolioFiles
open OasisPlatform.SharedRow OasisPlatform.Models OasisPlatform.GroupAccess OasisPlatform.JsonValues
set_option linter.unusedSimpArgs false

variable {γ : Type} [DecidableEq γ]

inductive PortfolioField where
  | accountsFile
  | locationFile
  | reinsuranceInfoFile
  | reinsuranceScopeFile
  | currencyConversionJson
  | transformFile
  | mappingFile
  | runErrorsFile
  deriving DecidableEq, Repr

def oedFields : List PortfolioField := [.accountsFile,.locationFile,.reinsuranceInfoFile,.reinsuranceScopeFile]

/-- The fields of `PortfolioStorageSerializer`. -/
def storageFields : List PortfolioField :=
  [.locationFile,.accountsFile,.reinsuranceInfoFile,.reinsuranceScopeFile,.currencyConversionJson]

/-- The fields that have an action to upload a file. -/
def uploadFields : List PortfolioField := oedFields ++ [.currencyConversionJson]

def portfolioFields : List PortfolioField := uploadFields ++ [.transformFile,.mappingFile,.runErrorsFile]

/-- A row of `RelatedFile`, with the name of the file in the storage. -/
structure FileRow (γ : Type) where
  file : String
  groups : List γ
  deriving DecidableEq

/-- A portfolio with the rows that its fields name; each row is made for one field. -/
structure Portfolio (γ : Type) where
  id : Nat
  groups : List γ
  files : PortfolioField → Option (FileRow γ)

/-- A transform that is not recorded yet. -/
structure PendingTransform where
  portfolio : Nat
  fileType : String

structure State (γ : Type) where
  portfolios : List (Portfolio γ)
  detached : List (FileRow γ)
  transforms : List PendingTransform

inductive StorageType where
  | s3
  | azure
  | sharedFs
  deriving DecidableEq, Repr

/-- The storage, and the user that stands for anonymous ones. `alternativeName` is the name
    of a copy, `copies` whether it can be made, and `first` the row that a query without an
    order gives first. -/
structure Site (γ : Type) where
  names : GroupNames γ
  storage : StorageType
  inStorage : String → Bool
  alternativeName : String → String
  copies : String → Bool
  first : List (FileRow γ) → Option (FileRow γ)
  systemUser : User γ

/-- The user of a request; anonymous users have no groups. -/
inductive Requester (γ : Type) where
  | user (account : User γ)
  | anonymous

def Requester.asUser : Requester γ → User γ
  | .user account => account
  | .anonymous => ⟨0,false,false,[]⟩

/-- `resolve_user`. -/
def Requester.resolve (site : Site γ) : Requester γ → User γ
  | .user account => account
  | .anonymous => site.systemUser

def Portfolio.owned (portfolio : Portfolio γ) : Owned γ := { id := portfolio.id, groups := portfolio.groups }

def Portfolio.set (portfolio : Portfolio γ) (field : PortfolioField) (row : Option (FileRow γ)) : Portfolio γ :=
  { portfolio with files := Function.update portfolio.files field row }

def State.put (state : State γ) (portfolio : Portfolio γ) : State γ :=
  { state with
    portfolios := state.portfolios.map fun other => if other.id = portfolio.id then portfolio else other }

def State.detach (state : State γ) (rows : List (FileRow γ)) : State γ := { state with detached := state.detached ++ rows }

def State.find (state : State γ) (pk : Nat) : Option (Portfolio γ) :=
  state.portfolios.find? fun portfolio => portfolio.id = pk

/-- The permission for a request that is not a `GET`, and `get_object`. -/
def State.getObject (state : State γ) (user : User γ) (pk : Nat) : Option (Portfolio γ) :=
  let table := state.portfolios.map Portfolio.owned
  if hasPermission table user pk && ((getQueryset .portfolio table user).getD []).any fun object => object.id = pk then
    state.find pk
  else none

/-- `_delete_related_file`, none where the user may not. -/
def deleteRelatedFile (portfolio : Portfolio γ) (field : PortfolioField) (user : User γ) : Option (Portfolio γ) :=
  match portfolio.files field with
  | none => some portfolio
  | some current => if validateUserIsOwner user current.groups then some (portfolio.set field none) else none

/-- `_handle_post_related_file` of a file that is stored under a name; where the old file may
    not be deleted, the new row stays behind. -/
def handlePostRelatedFile (state : State γ) (portfolio : Portfolio γ) (field : PortfolioField) (user : User γ)
    (stored : String) : State γ :=
  let row : FileRow γ := ⟨stored,portfolio.groups⟩
  match deleteRelatedFile portfolio field user with
  | none => state.detach [row]
  | some portfolio => state.put (portfolio.set field (some row))

/-- The characters that `str.strip` takes off. -/
def isSpace (c : Char) : Bool :=
  c.toNat ∈ [0x20,0x85,0xa0,0x1680,0x2028,0x2029,0x202f,0x205f,0x3000] || (0x09 ≤ c.toNat && c.toNat ≤ 0x0d) ||
    (0x1c ≤ c.toNat && c.toNat ≤ 0x1f) || (0x2000 ≤ c.toNat && c.toNat ≤ 0x200a)

def typeName : Json → String
  | .null => "<class 'NoneType'>"
  | .bool _ => "<class 'bool'>"
  | .number value => if value.isInt then "<class 'int'>" else "<class 'float'>"
  | .string _ => "<class 'str'>"
  | .array _ => "<class 'list'>"
  | .object _ => "<class 'dict'>"

def State.rows (state : State γ) : List (FileRow γ) :=
  (state.portfolios.flatMap fun portfolio => portfolioFields.filterMap portfolio.files) ++ state.detached

def userBelongsToFileGroup (site : Site γ) (state : State γ) (user : User γ) (value : String) : Bool :=
  (site.first (state.rows.filter fun row => row.file = value)).all fun row => validateUserIsOwner user row.groups

/-- The link that a field is set to, none where it is null. -/
def validateLink (site : Site γ) (state : State γ) (user : User γ) : Json → Except String (Option String)
  | .null => .ok none
  | .string value =>
    if value.toList.all isSpace then .error "Value is empty or whitespace string."
    else if !site.inStorage value then .error ("File '" ++ value ++ "' not found in default storage")
    else if !userBelongsToFileGroup site state user value then
      .error ("File '" ++ value ++ "' belongs to a different group")
    else .ok (some value)
  | value => .error ("Value is not type string, found " ++ typeName value)

/-- `PortfolioStorageSerializer.validate`: the links by field, none where there are errors. -/
def validateLinks (site : Site γ) (state : State γ) (user : User γ) (data : PortfolioField → Option Json) :
    Option (List (PortfolioField × String)) :=
  if storageFields.all fun field => (data field).isNone then none
  else if storageFields.any fun field => (data field).any fun value =>
      !(validateLink site state user value).toBool then none
  else some (storageFields.filterMap fun field => do
    let value ← data field
    let link ← (validateLink site state user value).toOption.join
    some (field,link))

/-- The groups of a linked file; for Azure they are not set. -/
def linkedGroups (site : Site γ) (requester : Requester γ) : List γ :=
  match site.storage with
  | .azure => []
  | _ => (requester.resolve site).groups

def Portfolio.link (portfolio : Portfolio γ) (links : List (PortfolioField × String)) (row : String → FileRow γ) :
    Portfolio γ :=
  { portfolio with
    files := fun field => match links.lookup field with
      | some old => some (row old)
      | none => portfolio.files field }

/-- `PortfolioStorageSerializer.update`: nothing is saved where one of the copies raises; on
    S3 the row is there before the copy is made. -/
def updateLinks (site : Site γ) (state : State γ) (requester : Requester γ) (portfolio : Portfolio γ)
    (links : List (PortfolioField × String)) : State γ :=
  let row := fun old : String => FileRow.mk (site.alternativeName old) (linkedGroups site requester)
  match links.dropWhile fun link => site.copies link.2 with
  | [] => state.put (portfolio.link links row)
  | failed :: _ =>
    state.detach (((links.takeWhile fun link => site.copies link.2).map fun link => row link.2) ++
      if site.storage = .s3 then [row failed.2] else [])

/-- `selection` of `record_transform_output`. -/
def selection : String → Option PortfolioField
  | "location" => some .locationFile
  | "accounts" => some .accountsFile
  | "ri_info" => some .reinsuranceInfoFile
  | "ri_scope" => some .reinsuranceScopeFile
  | _ => none

/-- The files of a transform have no groups, and those of an earlier one stay behind; without
    a `file_type` it raises before the portfolio is saved. -/
def exposureTransform (state : State γ) (portfolio : Portfolio γ) (transformFile mappingFile : String)
    (fileType : Option String) : State γ :=
  match fileType with
  | none => state.detach [⟨transformFile,[]⟩,⟨mappingFile,[]⟩]
  | some fileType =>
    let old := [portfolio.files .transformFile,portfolio.files .mappingFile].filterMap id
    let changed := (portfolio.set .transformFile (some ⟨transformFile,[]⟩)).set .mappingFile (some ⟨mappingFile,[]⟩)
    { (state.detach old).put changed with transforms := state.transforms ++ [⟨portfolio.id,fileType⟩] }

/-- `record_transform_output`, with the file that it gets or the text of an error. A row that
    is replaced stays behind. -/
def recordTransformOutput (state : State γ) (portfolio : Portfolio γ) (initiator : User γ) (fileType : String)
    (result : String × Bool) : State γ :=
  match deleteRelatedFile portfolio .transformFile initiator with
  | none => state
  | some first =>
    match deleteRelatedFile first .mappingFile initiator with
    | none => state.put first
    | some second =>
      let attach := fun (field : PortfolioField) (file : String) =>
        (state.detach (second.files field).toList).put (second.set field (some ⟨file,[]⟩))
      if result.2 then
        match selection fileType with
        | none => state.put second
        | some field => attach field result.1
      else attach .runErrorsFile ("portfolio_" ++ toString portfolio.id ++ "_errors.txt")

/-- A file that the serializer refuses is not stored. A transform is recorded by a task,
    with the initiator as he then is. -/
inductive Event (γ : Type) where
  | write (requester : Requester γ) (request : Write γ)
  | upload (requester : Requester γ) (pk : Nat) (field : PortfolioField) (stored : Option String)
  | delete (requester : Requester γ) (pk : Nat) (field : PortfolioField)
  | storageLinks (requester : Requester γ) (pk : Nat) (data : PortfolioField → Option Json)
  | exposureTransform (requester : Requester γ) (pk : Nat) (transformFile mappingFile : String) (fileType : Option String)
  | recordTransform (transform : Nat) (initiator : Option (User γ)) (result : String × Bool)

section Step
variable (site : Site γ)

/-- The portfolio after a request that writes groups. -/
def State.written (state : State γ) (requester : Requester γ) (request : Write γ) : Option (Owned γ) :=
  (write site.names .portfolio (state.portfolios.map Portfolio.owned) requester.asUser request).map Written.object

def State.step (state : State γ) : Event γ → State γ
  | .write requester request =>
    match request,state.written site requester request with
    | _,none => state
    | .create _,some object =>
      { state with portfolios := state.portfolios ++ [⟨object.id,object.groups,fun _ => none⟩] }
    | .update .. ,some object =>
      match state.find object.id with
      | some portfolio => state.put { portfolio with groups := object.groups }
      | none => state
  | .upload requester pk field stored =>
    match state.getObject requester.asUser pk,stored with
    | some portfolio,some stored =>
      if field ∈ uploadFields then handlePostRelatedFile state portfolio field requester.asUser stored else state
    | _,_ => state
  | .delete requester pk field =>
    match state.getObject requester.asUser pk with
    | some portfolio =>
      match field ∈ uploadFields && (portfolio.files field).isSome,deleteRelatedFile portfolio field requester.asUser with
      | true,some portfolio => state.put portfolio
      | _,_ => state
    | none => state
  | .storageLinks requester pk data =>
    match state.getObject requester.asUser pk,validateLinks site state requester.asUser data with
    | some portfolio,some links => updateLinks site state requester portfolio links
    | _,_ => state
  | .exposureTransform requester pk transformFile mappingFile fileType =>
    match state.getObject requester.asUser pk with
    | some portfolio => exposureTransform state portfolio transformFile mappingFile fileType
    | none => state
  | .recordTransform i initiator result =>
    match state.transforms[i]? with
    | none => state
    | some transform =>
      let taken := { state with transforms := state.transforms.eraseIdx i }
      match state.find transform.portfolio,initiator with
      | some portfolio,some initiator => recordTransformOutput taken portfolio initiator transform.fileType result
      | _,_ => taken

end Step

/-! ### Files that follow their portfolio -/

/-- The user may delete the file of a field. -/
def mayDelete (portfolio : Portfolio γ) (user : User γ) (field : PortfolioField) : Bool :=
  (portfolio.files field).all fun row => validateUserIsOwner user row.groups

/-- The same groups, in any order. -/
def SameGroups (left right : List γ) : Prop := ∀ group, group ∈ left ↔ group ∈ right

def Portfolio.Follows (portfolio : Portfolio γ) : Prop :=
  ∀ field ∈ oedFields, ∀ row ∈ portfolio.files field, ∀ user : User γ, user.isAdmin = false →
    (validateUserIsOwner user row.groups = true ↔ validateUserIsOwner user portfolio.groups = true)

/-- Users without further rights may use a file exactly when they may use its portfolio. -/
def FilesFollow (state : State γ) : Prop := ∀ portfolio ∈ state.portfolios, portfolio.Follows

/-- What keeps the copies of the groups alike: an update leaves the groups of a portfolio that
    has files, files are linked by users of the groups of the portfolio, or none for Azure, and
    a portfolio whose transform is recorded has no groups. -/
def Calm (site : Site γ) (state : State γ) : Event γ → Prop
  | .write requester (.update pk isPartial groups) =>
    ∀ object ∈ state.written site requester (.update pk isPartial groups), ∀ portfolio ∈ state.find object.id,
      (∃ field ∈ oedFields, (portfolio.files field).isSome) → SameGroups object.groups portfolio.groups
  | .storageLinks requester pk data =>
    ∀ portfolio ∈ state.getObject requester.asUser pk, ∀ links ∈ validateLinks site state requester.asUser data,
      (∃ link ∈ links, link.1 ∈ oedFields) → (∀ link ∈ links, site.copies link.2 = true) →
        SameGroups (linkedGroups site requester) portfolio.groups
  | .recordTransform i initiator result =>
    ∀ transform ∈ state.transforms[i]?, ∀ portfolio ∈ state.find transform.portfolio, ∀ user ∈ initiator,
      mayDelete portfolio user .transformFile = true → mayDelete portfolio user .mappingFile = true →
        result.2 = true → (selection transform.fileType).isSome → portfolio.groups = []
  | _ => True

/-- All users have the same rights exactly when the groups are the same. -/
theorem owners_agree_iff (left right : List γ) :
    (∀ user : User γ, user.isAdmin = false →
        (validateUserIsOwner user left = true ↔ validateUserIsOwner user right = true)) ↔
      SameGroups left right := by
  constructor
  · intro agree
    have empty : left = [] ↔ right = [] := by
      have groupless := agree ⟨0,false,false,[]⟩ rfl
      rw [owner_iff rfl,owner_iff rfl] at groupless
      simpa using groupless
    have one : ∀ {first second : List γ} {group : γ}, (first = [] ↔ second = []) →
        (validateUserIsOwner ⟨0,false,false,[group]⟩ first = true →
          validateUserIsOwner ⟨0,false,false,[group]⟩ second = true) → group ∈ first → group ∈ second := by
      intro first second group empty owner listed
      rcases (owner_iff rfl).mp (owner ((owner_iff rfl).mpr (.inr ⟨group,listed,by simp⟩))) with none_left | ⟨other,named,own⟩
      · rw [empty.mpr none_left] at listed
        cases listed
      · rw [List.mem_singleton.mp own] at named
        exact named
    intro group
    have member := agree ⟨0,false,false,[group]⟩ rfl
    exact ⟨one empty member.mp,one empty.symm member.mpr⟩
  · intro same user plain
    have empty : left = [] ↔ right = [] := by
      simp only [List.eq_nil_iff_forall_not_mem,same _]
    rw [owner_iff plain,owner_iff plain,empty]
    simp only [same _]

omit [DecidableEq γ] in
theorem SameGroups.rfl {groups : List γ} : SameGroups groups groups := fun _ => Iff.rfl

theorem follows_iff (portfolio : Portfolio γ) :
    portfolio.Follows ↔ ∀ field ∈ oedFields, ∀ row ∈ portfolio.files field, SameGroups row.groups portfolio.groups := by
  unfold Portfolio.Follows
  simp only [owners_agree_iff]

section One
variable {portfolio changed : Portfolio γ} {field : PortfolioField} {user : User γ}

/-- A field is set: the row is to have the groups of the portfolio where it is an OED file. -/
theorem set_follows (follows : portfolio.Follows) (row : Option (FileRow γ)) :
    (portfolio.set field row).Follows ↔ (field ∈ oedFields → ∀ new ∈ row, SameGroups new.groups portfolio.groups) := by
  rw [follows_iff] at follows ⊢
  constructor
  · intro after oed new given
    exact after field oed new (by simpa [Portfolio.set] using given)
  · intro here other oed current found
    by_cases same : other = field
    · subst same
      exact here oed current (by simpa [Portfolio.set] using found)
    · exact follows other oed current (by simpa [Portfolio.set,Function.update_of_ne same] using found)

theorem set_none_follows (follows : portfolio.Follows) (field : PortfolioField) : (portfolio.set field none).Follows := by
  rw [set_follows follows]
  intro _ new given
  cases given

/-- A file is deleted by whoever may use it, and a field without one stays so. -/
theorem deleteRelatedFile_eq (portfolio : Portfolio γ) (field : PortfolioField) (user : User γ) :
    deleteRelatedFile portfolio field user =
      if mayDelete portfolio user field then some (portfolio.set field none) else none := by
  unfold deleteRelatedFile mayDelete
  cases current : portfolio.files field with
  | none =>
    have same : portfolio.set field none = portfolio := by
      rw [← current]
      simp [Portfolio.set]
    simp [same]
  | some row => simp

theorem delete_follows (follows : portfolio.Follows) (deleted : deleteRelatedFile portfolio field user = some changed) :
    changed.Follows ∧ changed.id = portfolio.id ∧ changed.groups = portfolio.groups := by
  rw [deleteRelatedFile_eq] at deleted
  split_ifs at deleted
  cases deleted
  exact ⟨set_none_follows follows field,rfl,rfl⟩

end One

/-! ### Every step -/

section Steps
variable {site : Site γ} {state : State γ} {portfolio changed : Portfolio γ} {user : User γ} {pk : Nat}

omit [DecidableEq γ] in
theorem find_listed (found : state.find pk = some portfolio) : portfolio ∈ state.portfolios :=
  List.mem_of_find?_eq_some found

theorem getObject_listed (found : state.getObject user pk = some portfolio) : portfolio ∈ state.portfolios := by
  simp only [State.getObject] at found
  split_ifs at found
  exact find_listed found

/-- A portfolio is saved. -/
theorem put_follows (follow : FilesFollow state) (listed : portfolio ∈ state.portfolios) (changed : Portfolio γ)
    (same : changed.id = portfolio.id) : FilesFollow (state.put changed) ↔ changed.Follows := by
  constructor
  · intro after
    exact after changed (List.mem_map.mpr ⟨portfolio,listed,by simp [same]⟩)
  · intro here other member
    obtain ⟨old,before,rfl⟩ := List.mem_map.mp member
    split_ifs
    · exact here
    · exact follow old before

theorem detach_follows (follow : FilesFollow state) (rows : List (FileRow γ)) : FilesFollow (state.detach rows) := follow

theorem upload_follows (follow : FilesFollow state) (listed : portfolio ∈ state.portfolios) (field : PortfolioField)
    (stored : String) : FilesFollow (handlePostRelatedFile state portfolio field user stored) := by
  unfold handlePostRelatedFile
  cases deleted : deleteRelatedFile portfolio field user with
  | none => exact follow
  | some current =>
    obtain ⟨follows,same,groups⟩ := delete_follows (follow portfolio listed) deleted
    refine (put_follows follow listed (current.set field _) same).mpr ((set_follows follows _).mpr ?_)
    intro _ new given
    cases given
    rw [groups]
    exact SameGroups.rfl

/-- The fields that are linked have the groups of the user, the others theirs. -/
theorem link_follows (follows : portfolio.Follows) (links : List (PortfolioField × String)) {groups : List γ}
    (name : String → String) :
    (portfolio.link links fun old => ⟨name old,groups⟩).Follows ↔
      ((∃ link ∈ links, link.1 ∈ oedFields) → SameGroups groups portfolio.groups) := by
  rw [follows_iff] at follows ⊢
  constructor
  · rintro after ⟨⟨field,old⟩,linked,oed⟩
    obtain ⟨first,found⟩ : ∃ first, links.lookup field = some first := by
      rw [← Option.isSome_iff_exists,List.lookup_isSome_iff]
      exact ⟨(field,old),linked,by simp⟩
    exact after field oed ⟨name first,groups⟩ (by simp [Portfolio.link,found])
  · intro same field oed row given
    unfold Portfolio.link at given
    cases found : links.lookup field with
    | none =>
      simp only [found] at given
      exact follows field oed row given
    | some old =>
      simp only [found,Option.mem_some_iff] at given
      subst given
      have linked : (field,old) ∈ links := by
        obtain ⟨before,after,split,-⟩ := List.lookup_eq_some_iff.mp found
        rw [split]
        simp
      exact same ⟨(field,old),linked,oed⟩

theorem updateLinks_follows (follow : FilesFollow state) (listed : portfolio ∈ state.portfolios)
    (requester : Requester γ) (links : List (PortfolioField × String)) :
    FilesFollow (updateLinks site state requester portfolio links) ↔
      ((∃ link ∈ links, link.1 ∈ oedFields) → (∀ link ∈ links, site.copies link.2 = true) →
        SameGroups (linkedGroups site requester) portfolio.groups) := by
  unfold updateLinks
  cases rest : links.dropWhile fun link => site.copies link.2 with
  | cons failed later =>
    refine iff_of_true follow ?_
    intro _ all
    have none_failed := List.dropWhile_eq_nil_iff.mpr all
    rw [rest] at none_failed
    cases none_failed
  | nil =>
    have all : ∀ link ∈ links, site.copies link.2 = true := List.dropWhile_eq_nil_iff.mp rest
    refine (put_follows follow listed (portfolio.link links _) rfl).trans ?_
    rw [link_follows (follow portfolio listed)]
    exact forall_congr' fun _ => ⟨fun same _ => same,fun same => same all⟩

/-- A row without groups is attached. -/
theorem attach_follows (follow : FilesFollow state) (listed : portfolio ∈ state.portfolios) (follows : changed.Follows)
    (id : changed.id = portfolio.id) (groups : changed.groups = portfolio.groups) (field : PortfolioField)
    (file : String) (left : List (FileRow γ)) :
    FilesFollow ((state.detach left).put (changed.set field (some ⟨file,[]⟩))) ↔
      (field ∈ oedFields → portfolio.groups = []) := by
  refine (put_follows (detach_follows follow left) listed (changed.set field _) id).trans ?_
  rw [set_follows follows,groups]
  simp [SameGroups,List.eq_nil_iff_forall_not_mem]

theorem selection_oed {fileType : String} {field : PortfolioField} (chosen : selection fileType = some field) :
    field ∈ oedFields := by
  unfold selection at chosen
  split at chosen <;> cases chosen <;> decide

theorem recordTransformOutput_follows (follow : FilesFollow state) (listed : portfolio ∈ state.portfolios)
    (fileType : String) (result : String × Bool) :
    FilesFollow (recordTransformOutput state portfolio user fileType result) ↔
      (mayDelete portfolio user .transformFile = true → mayDelete portfolio user .mappingFile = true →
        result.2 = true → (selection fileType).isSome → portfolio.groups = []) := by
  have first := set_none_follows (follow portfolio listed) .transformFile
  have second := set_none_follows first .mappingFile
  have kept : mayDelete (portfolio.set .transformFile none) user .mappingFile = mayDelete portfolio user .mappingFile := by
    simp [mayDelete,Portfolio.set]
  have transform := deleteRelatedFile_eq portfolio .transformFile user
  have mapping := deleteRelatedFile_eq (portfolio.set .transformFile none) .mappingFile user
  unfold recordTransformOutput
  cases mayTransform : mayDelete portfolio user .transformFile with
  | false =>
    simp only [mayTransform,Bool.false_eq_true,if_false] at transform
    simpa [transform] using follow
  | true =>
    simp only [mayTransform,if_true] at transform
    simp only [transform]
    cases mayMapping : mayDelete portfolio user .mappingFile with
    | false =>
      simp only [kept,mayMapping,Bool.false_eq_true,if_false] at mapping
      simp only [mapping]
      simpa using (put_follows follow listed (portfolio.set .transformFile none) rfl).mpr first
    | true =>
      simp only [kept,mayMapping,if_true] at mapping
      simp only [mapping,true_imp_iff]
      by_cases success : result.2 = true
      · cases chosen : selection fileType with
        | none =>
          have cleared := (put_follows follow listed ((portfolio.set .transformFile none).set .mappingFile none) rfl).mpr second
          simpa [success] using cleared
        | some field =>
          simp only [success,if_true,Option.isSome_some,true_imp_iff]
          refine (attach_follows follow listed second rfl rfl field result.1 _).trans ?_
          simp [selection_oed chosen]
      · simp only [success,if_false,Bool.false_eq_true,false_imp_iff,iff_true]
        refine (attach_follows follow listed second rfl rfl .runErrorsFile _ _).mpr ?_
        intro oed
        exact absurd oed (by decide)

theorem exposureTransform_follows (follow : FilesFollow state) (listed : portfolio ∈ state.portfolios)
    (transformFile mappingFile : String) (fileType : Option String) :
    FilesFollow (exposureTransform state portfolio transformFile mappingFile fileType) := by
  unfold exposureTransform
  cases fileType with
  | none => exact follow
  | some fileType =>
    have first : (portfolio.set .transformFile (some ⟨transformFile,[]⟩)).Follows := by
      rw [set_follows (follow portfolio listed)]
      intro oed
      exact absurd oed (by decide)
    have second : ((portfolio.set .transformFile (some ⟨transformFile,[]⟩)).set .mappingFile
        (some ⟨mappingFile,[]⟩)).Follows := by
      rw [set_follows first]
      intro oed
      exact absurd oed (by decide)
    exact (put_follows (detach_follows follow _) listed ((portfolio.set .transformFile _).set .mappingFile _) rfl).mpr second

/-- The groups of a portfolio are changed. -/
theorem regroup_follows (follows : portfolio.Follows) (groups : List γ) :
    Portfolio.Follows { portfolio with groups := groups } ↔
      ((∃ field ∈ oedFields, (portfolio.files field).isSome) → SameGroups groups portfolio.groups) := by
  rw [follows_iff] at follows ⊢
  constructor
  · rintro after ⟨field,oed,attached⟩ group
    obtain ⟨row,found⟩ := Option.isSome_iff_exists.mp attached
    exact (after field oed row found group).symm.trans (follows field oed row found group)
  · intro same field oed row found group
    have kept := same ⟨field,oed,Option.isSome_iff_exists.mpr ⟨row,found⟩⟩ group
    exact (follows field oed row found group).trans kept.symm

theorem write_follows_iff (site : Site γ) (follow : FilesFollow state) (requester : Requester γ) (request : Write γ) :
    FilesFollow (state.step site (.write requester request)) ↔ Calm site state (.write requester request) := by
  cases request with
  | create groups =>
    refine iff_of_true ?_ trivial
    simp only [State.step]
    split
    · exact follow
    · intro portfolio listed
      rcases List.mem_append.mp listed with old | new
      · exact follow portfolio old
      · rw [List.mem_singleton.mp new,follows_iff]
        intro field _ row found
        cases found
    · rename_i impossible _
      cases impossible
  | update pk isPartial groups =>
    cases accepted : state.written site requester (.update pk isPartial groups) with
    | none => simpa [State.step,Calm,accepted] using follow
    | some object =>
      cases found : state.find object.id with
      | none => simpa [State.step,Calm,accepted,found] using follow
      | some portfolio =>
        simp only [State.step,Calm,accepted,found,Option.mem_some_iff,forall_eq']
        refine (put_follows follow (find_listed found) { portfolio with groups := object.groups } rfl).trans ?_
        exact regroup_follows (follow portfolio (find_listed found)) object.groups

theorem step_follows_iff (site : Site γ) (state : State γ) (event : Event γ) (follow : FilesFollow state) :
    FilesFollow (state.step site event) ↔ Calm site state event := by
  cases event with
  | write requester request => exact write_follows_iff site follow requester request
  | upload requester pk field stored =>
    refine iff_of_true ?_ trivial
    simp only [State.step]
    split
    · rename_i portfolio stored found
      split_ifs
      · exact upload_follows follow (getObject_listed found) field stored
      · exact follow
    · exact follow
  | delete requester pk field =>
    refine iff_of_true ?_ trivial
    simp only [State.step]
    split
    · rename_i portfolio found
      split
      · rename_i changed _ deleted
        obtain ⟨follows,same,-⟩ := delete_follows (follow portfolio (getObject_listed found)) deleted
        exact (put_follows follow (getObject_listed found) changed same).mpr follows
      · exact follow
    · exact follow
  | storageLinks requester pk data =>
    cases found : state.getObject requester.asUser pk with
    | none => simpa [State.step,Calm,found] using follow
    | some portfolio =>
      cases accepted : validateLinks site state requester.asUser data with
      | none => simpa [State.step,Calm,found,accepted] using follow
      | some links =>
        simp only [State.step,Calm,found,accepted,Option.mem_some_iff,forall_eq']
        exact updateLinks_follows follow (getObject_listed found) requester links
  | exposureTransform requester pk transformFile mappingFile fileType =>
    refine iff_of_true ?_ trivial
    simp only [State.step]
    split
    · rename_i portfolio found
      exact exposureTransform_follows follow (getObject_listed found) transformFile mappingFile fileType
    · exact follow
  | recordTransform i initiator result =>
    cases pending : state.transforms[i]? with
    | none => simpa [State.step,Calm,pending] using follow
    | some transform =>
      have taken : FilesFollow { state with transforms := state.transforms.eraseIdx i } := follow
      cases found : state.find transform.portfolio with
      | none => simpa [State.step,Calm,pending,found] using taken
      | some portfolio =>
        cases initiator with
        | none => simpa [State.step,Calm,pending,found] using taken
        | some user =>
          simp only [State.step,Calm,pending,found,Option.mem_some_iff,forall_eq']
          exact recordTransformOutput_follows taken (find_listed found) transform.fileType result

end Steps

def State.run (site : Site γ) (state : State γ) (events : List (Event γ)) : State γ :=
  events.foldl (State.step site) state

/-- In every run of requests and tasks, all states that are reached have files that follow
    their portfolios exactly when each step is calm. -/
theorem files_follow_iff (site : Site γ) (start : State γ) (follow : FilesFollow start) (events : List (Event γ)) :
    Along (State.step site) (fun state event => FilesFollow (state.step site event)) start events ↔
      Along (State.step site) (Calm site) start events :=
  Along.kept_iff (step_follows_iff site) follow

def noPortfolios : State String := ⟨[],[],[]⟩

theorem noPortfolios_follow : FilesFollow noPortfolios := by
  intro portfolio listed
  cases listed

def admin : User String := ⟨1,true,true,[]⟩

def sharedStorage : Site String where
  names := ⟨id,Function.injective_id⟩
  storage := .sharedFs
  inStorage := fun _ => true
  alternativeName := id
  copies := fun _ => true
  first := List.head?
  systemUser := admin

def brokersLocations : List (Event String) :=
  [.write (.user broker) (.create none),.upload (.user broker) 1 .locationFile (some "locations.csv")]

/-- The groups of the portfolio are given again, a broker links a file, and the files of a
    portfolio for everybody are transformed. -/
def keptGroups : List (Event String) :=
  brokersLocations ++ [.write (.user admin) (.update 1 true (some ["brokers"])),
    .storageLinks (.user broker) 1 fun field => if field = .accountsFile then some (.string "accounts.csv") else none,
    .write (.user admin) (.create (some [])),
    .exposureTransform (.user admin) 2 "air.csv" "mapping.yaml" (some "location"),
    .recordTransform 0 (some admin) ("oed.csv",true)]

theorem keptGroups_follow :
    Along (State.step sharedStorage) (fun state event => FilesFollow (state.step sharedStorage event)) noPortfolios
      keptGroups := by
  refine (files_follow_iff sharedStorage noPortfolios noPortfolios_follow keptGroups).mpr
    ⟨trivial,trivial,?_,?_,trivial,trivial,?_,trivial⟩
  · rintro object ⟨⟩ portfolio ⟨⟩ - group
    exact Iff.rfl
  · rintro portfolio ⟨⟩ links - - - group
    exact Iff.rfl
  · rintro transform ⟨⟩ portfolio ⟨⟩ user ⟨⟩ - - - -
    rfl

/-- The portfolio is given to insurers. -/
def givenToInsurers : List (Event String) :=
  brokersLocations ++ [.write (.user admin) (.update 1 true (some ["insurers"]))]

/-- A user with another group of his own links a file in the storage. -/
def linkedByTwoGroups : List (Event String) :=
  brokersLocations ++ [.storageLinks (.user ⟨8,false,false,["brokers","insurers"]⟩) 1
    fun field => if field = .accountsFile then some (.string "accounts.csv") else none]

def transformedLocations : List (Event String) :=
  brokersLocations ++ [.exposureTransform (.user broker) 1 "air.csv" "mapping.yaml" (some "location"),
    .recordTransform 0 (some broker) ("oed.csv",true)]

def insurer : User String := ⟨9,false,false,["insurers"]⟩

/-- Insurers may use the portfolio and not its file, and others a file and not its portfolio. -/
theorem files_unlike_portfolio :
    ¬ FilesFollow (noPortfolios.run sharedStorage givenToInsurers) ∧
      ¬ FilesFollow (noPortfolios.run sharedStorage linkedByTwoGroups) ∧
      ¬ FilesFollow (noPortfolios.run sharedStorage transformedLocations) := by
  refine ⟨?_,?_,?_⟩
  · intro follow
    have agree := follow _ List.mem_cons_self .locationFile (by decide) _ rfl insurer rfl
    revert agree
    decide
  · intro follow
    have agree := follow _ List.mem_cons_self .accountsFile (by decide) _ rfl insurer rfl
    revert agree
    decide
  · intro follow
    have agree := follow _ List.mem_cons_self .locationFile (by decide) _ rfl insurer rfl
    revert agree
    decide

end OasisPlatform.PortfolioFiles
