import OasisPlatform.FileFormats
import OasisPlatform.GroupAccess
import OasisPlatform.Tables

/-!
Replacing the file of a field, by an upload or by settings in JSON. The row of the new file
is stored before the user's rights on the current file are looked at, and nothing is taken
back: a request is all or nothing exactly when the upload is refused by the serializer, or
the user may delete the current file (`replacement_atomic_iff`).
-/
namespace OasisPlatform.FileReplacement
open Models GroupAccess PathText
open FileFormats (Uuid validateFile randomFileName)
set_option linter.unusedSimpArgs false

variable {γ π δ : Type} [DecidableEq γ] [DecidableEq π]

/-- A row of `RelatedFile`; `file` is its name in the storage. -/
structure FileRow (γ : Type) where
  id : Nat
  file : Text
  filename : Text
  contentType : String
  creator : UserId
  groups : List γ
  deriving DecidableEq

/-- The rows, and which of them is attached at a place: a field of a parent that files can
    be posted to. `parentGroups` are the groups of the parent, where it has the attribute. -/
structure State (γ π : Type) where
  rows : List (FileRow γ)
  attached : π → Option Nat
  parentGroups : π → Option (List γ)

/-- Ids are different, an attached file is in the table, and at one place only. -/
structure Sound (state : State γ π) : Prop where
  distinct : (state.rows.map FileRow.id).Nodup
  stored : ∀ place id, state.attached place = some id → id ∈ state.rows.map FileRow.id
  exclusive : ∀ place other id, state.attached place = some id → state.attached other = some id → place = other

inductive Error where
  | validation (message : String)
  | permissionDenied (message : String)
  deriving DecidableEq

namespace State

def row (state : State γ π) (id : Nat) : Option (FileRow γ) := state.rows.find? fun row => row.id = id

/-- `getattr(parent, field)`. -/
def current (state : State γ π) (place : π) : Option (FileRow γ) := (state.attached place).bind state.row

def nextId (state : State γ π) : Nat := (state.rows.map FileRow.id).foldr max 0 + 1

def add (state : State γ π) (row : FileRow γ) : State γ π := { state with rows := state.rows ++ [row] }

/-- `instance.groups.set(groups)`. -/
def setGroups (state : State γ π) (id : Nat) (groups : List γ) : State γ π :=
  { state with rows := state.rows.map fun row => if row.id = id then { row with groups := groups } else row }

/-- `setattr(parent, field, ..)` and `parent.save(update_fields=[field])`. -/
def attach (state : State γ π) (place : π) (id : Option Nat) : State γ π :=
  { state with attached := Function.update state.attached place id }

/-- `current.delete()`; what refers to the row goes with it. -/
def deleteRow (state : State γ π) (id : Nat) : State γ π :=
  { state with
    rows := state.rows.filter fun row => row.id ≠ id
    attached := fun place => if state.attached place = some id then none else state.attached place }

end State

/-- `_delete_related_file`. -/
def deleteRelatedFile (state : State γ π) (place : π) (user : User γ) : State γ π × Option Error :=
  match state.current place with
  | none => (state,none)
  | some current =>
    if validateUserIsOwner user current.groups then ((state.attach place none).deleteRow current.id,none)
    else (state,some (.permissionDenied "You do not have permission to delete this file"))

/-- The end of both handlers, with the new row stored. -/
def attachNew (state : State γ π) (place : π) (user : User γ) (id : Nat) : State γ π × Option Error :=
  match deleteRelatedFile state place user with
  | (deleted,none) => (deleted.attach place (some id),none)
  | refused => refused

structure Upload where
  name : Text
  contentType : String

/-- A `RelatedFileSerializer`; `toParquet` is the conversion of an exposure file, which may fail. -/
structure FileSerializer where
  contentTypes : List String
  parquetStorage : Bool
  toParquet : Upload → Except String Upload

/-- `is_valid`: `validate_file` and `validate`. -/
def FileSerializer.isValid (serializer : FileSerializer) (upload : Upload) : Except Error Upload :=
  match validateFile serializer.contentTypes upload.name upload.contentType with
  | .error message => .error (.validation message)
  | .ok () =>
    if serializer.parquetStorage && upload.contentType = "text/csv" then
      match serializer.toParquet upload with
      | .error message => .error (.validation message)
      | .ok converted => .ok converted
    else .ok upload

/-- `_handle_post_related_file`; `creator` is `resolve_user(request.user)`. -/
def handlePostRelatedFile (state : State γ π) (place : π) (user creator : User γ) (uuid : Uuid)
    (serializer : FileSerializer) (upload : Upload) : State γ π × Option Error :=
  match serializer.isValid upload with
  | .error error => (state,some error)
  | .ok file =>
    let row : FileRow γ :=
      { id := state.nextId, file := randomFileName false uuid file.name, filename := file.name,
        contentType := file.contentType, creator := creator.id, groups := creator.groups }
    let created := state.add row
    let grouped :=
      match state.parentGroups place with
      | some groups => created.setGroups row.id groups
      | none => created
    attachNew grouped place user row.id

/-- A serializer of JSON settings of some kind. -/
structure JsonSerializer (δ : Type) where
  filename : Text
  validate : δ → Except String Text

/-- `_json_write_to_file`; the row has no groups. -/
def jsonWriteToFile (state : State γ π) (place : π) (user creator : User γ) (uuid : Uuid)
    (serializer : JsonSerializer δ) (data : δ) : State γ π × Option Error :=
  match serializer.validate data with
  | .error message => (state,some (.validation message))
  | .ok _ =>
    let row : FileRow γ :=
      { id := state.nextId, file := randomFileName false uuid serializer.filename, filename := serializer.filename,
        contentType := "application/json", creator := creator.id, groups := [] }
    attachNew (state.add row) place user row.id

/-- A `POST` to one of the endpoints. -/
inductive Request (δ : Type) where
  | file (serializer : FileSerializer) (upload : Upload)
  | json (serializer : JsonSerializer δ) (data : δ)

def handle (state : State γ π) (place : π) (user creator : User γ) (uuid : Uuid) : Request δ → State γ π × Option Error
  | .file serializer upload => handlePostRelatedFile state place user creator uuid serializer upload
  | .json serializer data => jsonWriteToFile state place user creator uuid serializer data

/-- What the serializer refuses. -/
def Request.invalid : Request δ → Bool
  | .file serializer upload => !(serializer.isValid upload).toBool
  | .json serializer data => !(serializer.validate data).toBool

/-- The file at the place is gone and the new one attached, and nothing else is changed. -/
structure Replaced (before : State γ π) (place : π) (after : State γ π) : Prop where
  file : ∃ row, row.id ∉ before.rows.map FileRow.id ∧ after.attached place = some row.id ∧
    after.rows = (before.rows.filter fun other => before.attached place ≠ some other.id) ++ [row]
  elsewhere : ∀ other, other ≠ place → after.attached other = before.attached other
  parents : after.parentGroups = before.parentGroups

/-- A request that ends with an error changes nothing, and one that succeeds replaces the file. -/
def Atomic (before : State γ π) (place : π) (result : State γ π × Option Error) : Prop :=
  match result with
  | (after,some _) => after = before
  | (after,none) => Replaced before place after

/-- The user may delete the file that is attached, if one is. -/
def MayReplace (state : State γ π) (place : π) (user : User γ) : Prop :=
  ∀ current, state.current place = some current → validateUserIsOwner user current.groups = true

variable {state : State γ π} {place : π} {user : User γ}

theorem deleteRelatedFile_none (free : state.current place = none) :
    deleteRelatedFile state place user = (state,none) := by
  rw [deleteRelatedFile,free]

theorem deleteRelatedFile_allowed {current : FileRow γ} (held : state.current place = some current)
    (allowed : validateUserIsOwner user current.groups = true) :
    deleteRelatedFile state place user = ((state.attach place none).deleteRow current.id,none) := by
  rw [deleteRelatedFile,held]
  exact if_pos allowed

theorem deleteRelatedFile_denied {current : FileRow γ} (held : state.current place = some current)
    (denied : validateUserIsOwner user current.groups = false) :
    deleteRelatedFile state place user =
      (state,some (.permissionDenied "You do not have permission to delete this file")) := by
  rw [deleteRelatedFile,held]
  exact if_neg (by rw [denied]; exact Bool.false_ne_true)

omit [DecidableEq γ] [DecidableEq π] in
theorem nextId_fresh (state : State γ π) : state.nextId ∉ state.rows.map FileRow.id := Tables.next_fresh _

omit [DecidableEq γ] [DecidableEq π] in
theorem row_of_stored {id : Nat} (listed : id ∈ state.rows.map FileRow.id) :
    ∃ row, state.row id = some row ∧ row.id = id ∧ row ∈ state.rows := by
  cases found : state.row id with
  | none =>
    obtain ⟨row,member,same⟩ := List.mem_map.mp listed
    have other := List.find?_eq_none.mp found row member
    simp [same] at other
  | some row =>
    have same := List.find?_some found
    simp only [decide_eq_true_eq] at same
    exact ⟨row,rfl,same,List.mem_of_find?_eq_some found⟩

omit [DecidableEq γ] [DecidableEq π] in
/-- What is attached, with its row. -/
theorem current_cases (sound : Sound state) (place : π) :
    (state.attached place = none ∧ state.current place = none) ∨
      ∃ current, state.attached place = some current.id ∧ state.current place = some current ∧ current ∈ state.rows := by
  unfold State.current
  cases held : state.attached place with
  | none => exact .inl ⟨rfl,rfl⟩
  | some id =>
    obtain ⟨current,found,rfl,member⟩ := row_of_stored (sound.stored place id held)
    exact .inr ⟨current,rfl,found,member⟩

omit [DecidableEq γ] [DecidableEq π] in
theorem current_add (sound : Sound state) (row : FileRow γ) (place : π) :
    (state.add row).current place = state.current place := by
  unfold State.current
  change (state.attached place).bind (state.add row).row = _
  cases held : state.attached place with
  | none => rfl
  | some id =>
    obtain ⟨current,found,-,-⟩ := row_of_stored (sound.stored place id held)
    unfold State.row at found
    simp only [Option.bind_some,State.row,State.add,List.find?_append,found,Option.some_or]

/-- The end of the handlers is all or nothing exactly where the user may delete the current file. -/
theorem attachNew_atomic (sound : Sound state) {row : FileRow γ} (fresh : row.id ∉ state.rows.map FileRow.id) :
    Atomic state place (attachNew (state.add row) place user row.id) ↔ MayReplace state place user := by
  have kept := current_add sound row place
  rcases current_cases sound place with ⟨empty,free⟩ | ⟨current,held,found,member⟩
  · rw [attachNew,deleteRelatedFile_none (kept.trans free)]
    refine iff_of_true ⟨⟨row,fresh,?_,?_⟩,?_,rfl⟩ ?_
    · exact Function.update_self _ _ _
    · have all : state.rows.filter (fun other => state.attached place ≠ some other.id) = state.rows := by
        rw [List.filter_eq_self]
        intro other _
        simp [empty]
      rw [all]
      rfl
    · intro other different
      exact Function.update_of_ne different _ _
    · intro current some
      rw [free] at some
      cases some
  · cases allowed : validateUserIsOwner user current.groups with
    | false =>
      rw [attachNew,deleteRelatedFile_denied (kept.trans found) allowed]
      refine iff_of_false ?_ ?_
      · intro same
        have rows := congrArg (fun state => state.rows.length) same
        simp [State.add] at rows
      · intro may
        rw [may current found] at allowed
        cases allowed
    | true =>
      rw [attachNew,deleteRelatedFile_allowed (kept.trans found) allowed]
      refine iff_of_true ⟨⟨row,fresh,?_,?_⟩,?_,rfl⟩ ?_
      · exact Function.update_self _ _ _
      · have other : row.id ≠ current.id := fun same => fresh (same ▸ List.mem_map_of_mem member)
        have removed : (state.rows ++ [row]).filter (fun row => row.id ≠ current.id) =
            state.rows.filter (fun other => state.attached place ≠ some other.id) ++ [row] := by
          rw [List.filter_append,List.filter_singleton]
          simp only [other,ne_eq,not_false_eq_true,decide_true,if_true,held,Option.some.injEq,eq_comm]
          rfl
        exact removed
      · intro other different
        have apart : state.attached other ≠ some current.id :=
          fun same => different (sound.exclusive other place current.id same held)
        have before : ((state.add row).attach place none).attached other = state.attached other :=
          Function.update_of_ne different _ _
        refine (Function.update_of_ne different _ _).trans ?_
        simp only [State.deleteRow,before,apart,if_false]
      · intro some present
        rw [found] at present
        cases present
        exact allowed

omit [DecidableEq γ] [DecidableEq π] in
/-- The groups of the new row are set to those of the parent. -/
theorem add_setGroups {row : FileRow γ} (fresh : row.id ∉ state.rows.map FileRow.id) (groups : List γ) :
    (state.add row).setGroups row.id groups = state.add { row with groups := groups } := by
  have others : state.rows.map (fun other => if other.id = row.id then { other with groups := groups } else other) =
      state.rows := by
    refine (List.map_congr_left fun other member => ?_).trans (List.map_id _)
    have different : other.id ≠ row.id := fun same => fresh (same ▸ List.mem_map_of_mem member)
    rw [if_neg different,id]
  unfold State.setGroups State.add
  simp only [List.map_append,others,List.map_cons,List.map_nil,if_true]

/-! ### Requests -/

/-- Accepted requests store a new row and end alike. -/
theorem handle_cases (state : State γ π) (place : π) (user creator : User γ) (uuid : Uuid) (request : Request δ) :
    (request.invalid = true ∧ ∃ error, handle state place user creator uuid request = (state,some error)) ∨
      (request.invalid = false ∧ ∃ row : FileRow γ, row.id = state.nextId ∧
        handle state place user creator uuid request = attachNew (state.add row) place user row.id) := by
  have fresh := nextId_fresh state
  cases request with
  | file serializer upload =>
    rw [handle,handlePostRelatedFile]
    cases valid : serializer.isValid upload with
    | error error => exact .inl ⟨by simp [Request.invalid,valid,Except.toBool],_,rfl⟩
    | ok file =>
      refine .inr ⟨by simp [Request.invalid,valid,Except.toBool],?_⟩
      cases owned : state.parentGroups place with
      | none => exact ⟨_,rfl,rfl⟩
      | some groups =>
        have set := @add_setGroups γ π state
          ⟨state.nextId,randomFileName false uuid file.name,file.name,file.contentType,creator.id,creator.groups⟩ fresh groups
        simp only at set ⊢
        rw [set]
        exact ⟨_,rfl,rfl⟩
  | json serializer data =>
    rw [handle,jsonWriteToFile]
    cases valid : serializer.validate data with
    | error message => exact .inl ⟨by simp [Request.invalid,valid,Except.toBool],_,rfl⟩
    | ok text => exact .inr ⟨by simp [Request.invalid,valid,Except.toBool],_,rfl,rfl⟩

/-- A request is all or nothing exactly when its upload is invalid, or the user may delete the
    file that is there. -/
theorem replacement_atomic_iff (state : State γ π) (sound : Sound state) (place : π) (user creator : User γ) (uuid : Uuid)
    (request : Request δ) :
    Atomic state place (handle state place user creator uuid request) ↔
      request.invalid = true ∨ MayReplace state place user := by
  rcases handle_cases state place user creator uuid request with ⟨invalid,error,same⟩ | ⟨valid,row,new,same⟩
  · rw [same]
    exact iff_of_true rfl (.inl invalid)
  · rw [same,attachNew_atomic sound (new ▸ nextId_fresh state),valid]
    simp

omit [DecidableEq γ] [DecidableEq π] in
theorem Sound.add (sound : Sound state) {row : FileRow γ} (fresh : row.id ∉ state.rows.map FileRow.id) :
    Sound (state.add row) := by
  refine ⟨?_,fun place id held => ?_,sound.exclusive⟩
  · rw [State.add,List.map_append,List.nodup_append]
    refine ⟨sound.distinct,List.nodup_singleton _,?_⟩
    rintro id listed other new rfl
    exact fresh (List.mem_singleton.mp new ▸ listed)
  · rw [State.add,List.map_append]
    exact List.mem_append_left _ (sound.stored place id held)

omit [DecidableEq γ] [DecidableEq π] in
theorem Replaced.sound {after : State γ π} (sound : Sound state) (replaced : Replaced state place after) : Sound after := by
  obtain ⟨⟨row,fresh,attached,rows⟩,elsewhere,-⟩ := replaced
  have ids : after.rows.map FileRow.id =
      (state.rows.filter fun other => state.attached place ≠ some other.id).map FileRow.id ++ [row.id] := by
    rw [rows,List.map_append]
    rfl
  have kept : List.Sublist ((state.rows.filter fun other => state.attached place ≠ some other.id).map FileRow.id)
      (state.rows.map FileRow.id) := List.filter_sublist.map _
  constructor
  · rw [ids,List.nodup_append]
    refine ⟨kept.nodup sound.distinct,List.nodup_singleton _,?_⟩
    rintro id listed other new rfl
    exact fresh (List.mem_singleton.mp new ▸ kept.subset listed)
  · intro other id held
    rw [ids,List.mem_append]
    by_cases here : other = place
    · subst here
      rw [attached,Option.some.injEq] at held
      exact .inr (held ▸ List.mem_singleton_self _)
    · rw [elsewhere other here] at held
      obtain ⟨current,member,rfl⟩ := List.mem_map.mp (sound.stored other id held)
      refine .inl (List.mem_map_of_mem (List.mem_filter.mpr ⟨member,?_⟩))
      simpa using fun same => here (sound.exclusive other place current.id held same)
  · have apart (other : π) (different : other ≠ place) : after.attached other ≠ some row.id := by
      rw [elsewhere other different]
      exact fun held => fresh (sound.stored other row.id held)
    intro first second id one two
    by_cases here : first = place
    · subst here
      rw [attached,Option.some.injEq] at one
      subst one
      by_contra different
      exact apart second (Ne.symm different) two
    · by_cases there : second = place
      · subst there
        rw [attached,Option.some.injEq] at two
        subst two
        exact absurd one (apart first here)
      · rw [elsewhere first here] at one
        rw [elsewhere second there] at two
        exact sound.exclusive first second id one two

omit [DecidableEq γ] [DecidableEq π] in
theorem Atomic.sound {result : State γ π × Option Error} (sound : Sound state) (atomic : Atomic state place result) :
    Sound result.1 := by
  obtain ⟨after,error⟩ := result
  cases error with
  | none => exact Replaced.sound sound atomic
  | some error => exact (show after = state from atomic) ▸ sound

/-- A refused user leaves the new row in the table. -/
theorem attachNew_denied (sound : Sound state) {row : FileRow γ} (denied : ¬ MayReplace state place user) :
    (attachNew (state.add row) place user row.id).1 = state.add row := by
  unfold MayReplace at denied
  push Not at denied
  obtain ⟨current,found,refused⟩ := denied
  rw [attachNew,deleteRelatedFile_denied ((current_add sound row place).trans found) (Bool.not_eq_true _ ▸ refused)]

/-- Every request keeps the table sound, whether it is all or nothing or not. -/
theorem handle_sound (sound : Sound state) (place : π) (user creator : User γ) (uuid : Uuid) (request : Request δ) :
    Sound (handle state place user creator uuid request).1 := by
  rcases handle_cases state place user creator uuid request with ⟨-,error,same⟩ | ⟨-,row,new,same⟩
  · rw [same]
    exact sound
  · have fresh : row.id ∉ state.rows.map FileRow.id := new ▸ nextId_fresh state
    rw [same]
    by_cases may : MayReplace state place user
    · exact Atomic.sound sound ((attachNew_atomic sound fresh).mpr may)
    · rw [attachNew_denied sound may]
      exact sound.add fresh

/-- A portfolio file of group 1 at the only place. -/
def lockedState : State Nat Unit where
  rows := [⟨1,"a.csv".toList,"loc.csv".toList,"text/csv",7,[1]⟩]
  attached := fun _ => some 1
  parentGroups := fun _ => none

theorem lockedState_sound : Sound lockedState where
  distinct := by decide
  stored := by
    rintro place id held
    cases held
    decide
  exclusive := fun _ _ _ _ _ => rfl

def csvUpload : Request Unit :=
  .file ⟨["text/csv"],false,.ok⟩ ⟨"new.csv".toList,"text/csv"⟩

def member (groups : List Nat) : User Nat := ⟨8,false,false,groups⟩

/-- A user of group 2 is refused, and the row of the new file stays. -/
theorem refused_upload_stays :
    (handle lockedState () (member [2]) (member [2]) FileFormats.someUuid csvUpload).2 =
        some (.permissionDenied "You do not have permission to delete this file") ∧
      (handle lockedState () (member [2]) (member [2]) FileFormats.someUuid csvUpload).1.rows.map FileRow.id = [1,2] ∧
      ¬ Atomic lockedState () (handle lockedState () (member [2]) (member [2]) FileFormats.someUuid csvUpload) := by
  refine ⟨by decide,by decide,fun atomic => ?_⟩
  have same : (handle lockedState () (member [2]) (member [2]) FileFormats.someUuid csvUpload).1 = lockedState := atomic
  have rows := congrArg (fun state => state.rows.map FileRow.id) same
  exact absurd rows (by decide)

theorem member_replaces :
    Atomic lockedState () (handle lockedState () (member [1]) (member [1]) FileFormats.someUuid csvUpload) := by
  refine (replacement_atomic_iff lockedState lockedState_sound () (member [1]) (member [1]) FileFormats.someUuid
    csvUpload).mpr (.inr ?_)
  rintro current held
  cases held
  decide

end OasisPlatform.FileReplacement
