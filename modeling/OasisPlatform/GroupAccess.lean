import Mathlib.Data.List.Dedup
import Mathlib.Logic.Function.Basic
import OasisPlatform.Models

/-!
Access by groups. A user who has groups sees the objects of these groups, and one without
groups the objects without; changes are allowed to whoever shares a group with the object,
or when it has none; and a request may put an object into groups of the user only. These
rules agree for the viewsets that leave the queryset to the group access, and for
`MappingFilesViewSet`, which has a queryset of its own, exactly while no mapping file has
groups (`coherent_iff`).
-/
namespace OasisPlatform.GroupAccess
open OasisPlatform.Models
set_option linter.unusedSimpArgs false

variable {γ : Type} [DecidableEq γ]

/-- Groups have different names. -/
structure GroupNames (γ : Type) where
  name : γ → String
  unique : Function.Injective name

structure User (γ : Type) where
  id : UserId
  isSuperuser : Bool
  isStaff : Bool
  groups : List γ

def User.isAdmin (user : User γ) : Bool := user.isSuperuser || user.isStaff

def getGroupNames (names : GroupNames γ) (groups : List γ) : List String := (groups.map names.name).dedup

def reprChar (quote c : Char) : List Char :=
  if c = quote || c = '\\' then ['\\',c]
  else if c = '\n' then ['\\','n']
  else if c = '\r' then ['\\','r']
  else if c = '\t' then ['\\','t']
  else if c.toNat < 32 || c.toNat = 127 then ['\\','x',Nat.digitChar (c.toNat / 16),Nat.digitChar (c.toNat % 16)]
  else [c]

/-- `repr` of a text, for which all characters beyond ASCII are taken as printable. -/
def reprText (text : String) : String :=
  let apostrophe := Char.ofNat 39
  let quote := if apostrophe ∈ text.toList && '"' ∉ text.toList then '"' else apostrophe
  String.ofList (quote :: (text.toList.flatMap (reprChar quote) ++ [quote]))

def reprList (texts : List String) : String := "[" ++ ", ".intercalate (texts.map reprText) ++ "]"

/-- The groups of a request that are the user's; `none` where the request has no groups. -/
def verifyAndGetGroups (names : GroupNames γ) (user : User γ) (groups : Option (List γ)) :
    Except ValidationErrors (List γ) :=
  match groups with
  | none => .ok user.groups
  | some [] =>
    if user.groups = [] then .ok []
    else if user.isAdmin then .ok []
    else .error [("groups","user is required to specify groups")]
  | some groups =>
    if user.isAdmin then .ok groups
    else
      let groupNames := getGroupNames names groups
      let userNotInGroups := groupNames.filter fun name => name ∉ getGroupNames names user.groups
      if userNotInGroups ≠ [] ∧ userNotInGroups.length = groupNames.length then
        .error [("groups","user is not member of group(s): " ++ reprList userNotInGroups)]
      else .ok (groups.filter fun group => names.name group ∉ userNotInGroups)

/-- The groups of the request as they are after it; a partial update without groups has
    none. -/
def validateAndUpdateGroups (names : GroupNames γ) (isPartial : Bool) (user : User γ) (groups : Option (List γ)) :
    Except ValidationErrors (Option (List γ)) :=
  if !isPartial || groups.isSome then (verifyAndGetGroups names user groups).map some else .ok groups

/-- Whether a user may change an object with these groups. -/
def validateUserIsOwner (user : User γ) (groups : List γ) : Bool :=
  if user.isAdmin then true
  else
    let instanceGroups := groups.dedup
    let diff := instanceGroups.filter fun group => group ∉ user.groups
    instanceGroups = [] || diff.length ≠ instanceGroups.length

/-- The query for a model that owns the groups. -/
def inUserGroups (user : User γ) (groups : List γ) : Bool :=
  if user.groups = [] then groups = [] else user.groups.any fun group => group ∈ groups

/-- The query for a model whose parent owns the groups, on the groups of the parent. -/
def inUserGroupsOrNone (user : User γ) (groups : List γ) : Bool :=
  groups = [] || user.groups.any fun group => group ∈ groups

inductive GroupViewSet where
  | portfolio
  | dataFile
  | analysisModel
  | mappingFile
  deriving DecidableEq, Repr

/-- The class has a `queryset` of all objects. -/
def GroupViewSet.ownQueryset : GroupViewSet → Bool
  | .mappingFile => true
  | _ => false

/-- The class has a `group_access_model`, and a serializer that validates groups. -/
def GroupViewSet.groupAccess : GroupViewSet → Bool
  | .mappingFile => false
  | _ => true

/-- A row of such a model; analysis models may be deleted and stay in the table. -/
structure Owned (γ : Type) where
  id : Nat
  groups : List γ
  deleted : Bool := false
  deriving DecidableEq

/-- `objects.all()`. -/
def objects (table : List (Owned γ)) : List (Owned γ) := table.filter fun object => !object.deleted

/-- A queryset without objects counts as none; without a model a `ValueError` is raised. -/
def getQueryset (viewSet : GroupViewSet) (table : List (Owned γ)) (user : User γ) : Option (List (Owned γ)) :=
  if viewSet.ownQueryset && !(objects table).isEmpty then some (objects table)
  else if viewSet.groupAccess then
    some (if user.isSuperuser then objects table
      else (objects table).filter fun object => inUserGroups user object.groups)
  else none

/-- The requests that validate groups. A request that creates a deleted model again is not
    one of them. -/
inductive Write (γ : Type) where
  | create (groups : Option (List γ))
  | update (pk : Nat) (isPartial : Bool) (groups : Option (List γ))

/-- The object that a request leaves, with its groups before and the table after. -/
structure Written (γ : Type) where
  before : List γ
  object : Owned γ
  table : List (Owned γ)

def freshId (table : List (Owned γ)) : Nat := (table.map Owned.id).foldr max 0 + 1

/-- `IsMemberOfObjectGroupPermission`. -/
def hasPermission (table : List (Owned γ)) (user : User γ) (pk : Nat) : Bool :=
  user.isSuperuser || ((objects table).find? fun object => object.id = pk).all fun object =>
    validateUserIsOwner user object.groups

def write (names : GroupNames γ) (viewSet : GroupViewSet) (table : List (Owned γ)) (user : User γ) :
    Write γ → Option (Written γ)
  | .create groups =>
    if viewSet.groupAccess then
      match validateAndUpdateGroups names false user groups with
      | .error _ => none
      | .ok groups =>
        let object : Owned γ := { id := freshId table, groups := groups.getD [] }
        some ⟨[],object,table ++ [object]⟩
    else none
  | .update pk isPartial groups =>
    if viewSet.groupAccess && hasPermission table user pk then do
      let queryset ← getQueryset viewSet table user
      let object ← queryset.find? fun object => object.id = pk
      match validateAndUpdateGroups names isPartial user groups with
      | .error _ => none
      | .ok groups =>
        let changed := { object with groups := groups.getD object.groups }
        some ⟨object.groups,changed,table.map fun other => if other.id = pk then changed else other⟩
    else none

/-- The request names groups, none of them the user's, or no group while the user has some. -/
def NamesForeignGroups (user : User γ) (groups : Option (List γ)) : Prop :=
  (∃ named, groups = some named ∧ named ≠ [] ∧ ∀ group ∈ named, group ∉ user.groups) ∨
    (groups = some [] ∧ user.groups ≠ [])

/-- For users without further rights: what is seen may be changed, a request adds only
    groups of the user and leaves the object where the user sees it, and requests with
    foreign groups only, or no groups, are rejected. -/
structure Coherent (names : GroupNames γ) (viewSet : GroupViewSet) (table : List (Owned γ)) : Prop where
  owner : ∀ user : User γ, user.isAdmin = false → ∀ queryset, getQueryset viewSet table user = some queryset →
    ∀ object ∈ queryset, validateUserIsOwner user object.groups = true
  written : ∀ user : User γ, user.isAdmin = false → ∀ request written,
    write names viewSet table user request = some written →
      (∀ group ∈ written.object.groups, group ∉ written.before → group ∈ user.groups) ∧
        ∃ queryset, getQueryset viewSet written.table user = some queryset ∧ written.object ∈ queryset
  rejected : ∀ user : User γ, user.isAdmin = false → ∀ isPartial groups,
    (∃ errors, validateAndUpdateGroups names isPartial user groups = .error errors) ↔ NamesForeignGroups user groups

section Rules
variable {names : GroupNames γ} {user : User γ} {groups : List γ}

theorem owner_iff (plain : user.isAdmin = false) :
    validateUserIsOwner user groups = true ↔ groups = [] ∨ ∃ group ∈ groups, group ∈ user.groups := by
  unfold validateUserIsOwner
  simp only [plain,Bool.false_eq_true,if_false,Bool.or_eq_true,decide_eq_true_eq,List.dedup_eq_nil]
  refine or_congr_right ?_
  rw [ne_eq,List.length_filter_eq_length_iff]
  simp only [decide_eq_true_eq,not_forall,not_not,List.mem_dedup,exists_prop]

theorem owner_of_seen (plain : user.isAdmin = false) (seen : inUserGroups user groups = true) :
    validateUserIsOwner user groups = true := by
  rw [owner_iff plain]
  unfold inUserGroups at seen
  split_ifs at seen with groupless
  · exact .inl (by simpa using seen)
  · obtain ⟨group,own,shared⟩ := List.any_eq_true.mp seen
    exact .inr ⟨group,by simpa using shared,own⟩

omit [DecidableEq γ] in
theorem mem_getGroupNames {group : γ} : names.name group ∈ getGroupNames names groups ↔ group ∈ groups := by
  simp only [getGroupNames,List.mem_dedup,List.mem_map]
  constructor
  · rintro ⟨other,listed,same⟩
    exact names.unique same ▸ listed
  · intro listed
    exact ⟨group,listed,rfl⟩

omit [DecidableEq γ] in
/-- The names that are not the user's, all of them, when no group is the user's. -/
theorem all_missing_iff :
    ((getGroupNames names groups).filter fun name => name ∉ getGroupNames names user.groups).length =
        (getGroupNames names groups).length ↔
      ∀ group ∈ groups, group ∉ user.groups := by
  rw [List.length_filter_eq_length_iff]
  simp only [decide_eq_true_eq]
  constructor
  · intro missing group listed own
    exact missing _ (mem_getGroupNames.mpr listed) (mem_getGroupNames.mpr own)
  · intro missing name listed own
    obtain ⟨group,named,rfl⟩ := List.mem_map.mp (List.mem_dedup.mp listed)
    exact missing group named (mem_getGroupNames.mp own)

theorem verify_named (plain : user.isAdmin = false) (some_named : groups ≠ []) :
    verifyAndGetGroups names user (some groups) =
      if ∀ group ∈ groups, group ∉ user.groups then
        .error [("groups","user is not member of group(s): " ++ reprList
          ((getGroupNames names groups).filter fun name => name ∉ getGroupNames names user.groups))]
      else .ok (groups.filter fun group => group ∈ user.groups) := by
  obtain ⟨first,rest,rfl⟩ := List.exists_cons_of_ne_nil some_named
  have kept : (first :: rest).filter (fun group => names.name group ∉
      (getGroupNames names (first :: rest)).filter fun name => name ∉ getGroupNames names user.groups) =
        (first :: rest).filter fun group => group ∈ user.groups := by
    refine List.filter_congr ?_
    intro group listed
    simp [mem_getGroupNames,listed]
  unfold verifyAndGetGroups
  simp only [plain,Bool.false_eq_true,if_false,kept,all_missing_iff]
  by_cases missing : ∀ group ∈ first :: rest, group ∉ user.groups
  · have some_missing : ((getGroupNames names (first :: rest)).filter
        fun name => name ∉ getGroupNames names user.groups) ≠ [] := by
      have first_missing : names.name first ∈ (getGroupNames names (first :: rest)).filter
          fun name => name ∉ getGroupNames names user.groups := by
        simp [mem_getGroupNames,missing first List.mem_cons_self]
      exact List.ne_nil_of_mem first_missing
    rw [if_pos ⟨some_missing,missing⟩,if_pos missing]
  · rw [if_neg fun both => missing both.2,if_neg missing]

/-- A request is accepted with groups of the user in which the object is seen. -/
theorem verify_ok (plain : user.isAdmin = false) {named : Option (List γ)}
    (accepted : verifyAndGetGroups names user named = .ok groups) :
    (∀ group ∈ groups, group ∈ user.groups) ∧ inUserGroups user groups = true := by
  cases named with
  | none =>
    cases accepted
    refine ⟨fun group own => own,?_⟩
    unfold inUserGroups
    split_ifs with groupless
    · simpa using groupless
    · obtain ⟨first,rest,some_group⟩ := List.exists_cons_of_ne_nil groupless
      simp [some_group]
  | some named =>
    by_cases empty : named = []
    · subst empty
      unfold verifyAndGetGroups at accepted
      simp only [plain,Bool.false_eq_true,if_false] at accepted
      split_ifs at accepted with groupless
      cases accepted
      simp [inUserGroups,groupless]
    · rw [verify_named plain empty] at accepted
      split_ifs at accepted with missing
      cases accepted
      simp only [not_forall,not_not] at missing
      obtain ⟨shared,listed,own⟩ := missing
      refine ⟨fun group kept => by simpa using List.of_mem_filter kept,?_⟩
      unfold inUserGroups
      rw [if_neg (List.ne_nil_of_mem own)]
      exact List.any_eq_true.mpr ⟨shared,own,by simpa [listed] using own⟩

theorem rejected_iff (plain : user.isAdmin = false) (isPartial : Bool) (named : Option (List γ)) :
    (∃ errors, validateAndUpdateGroups names isPartial user named = .error errors) ↔ NamesForeignGroups user named := by
  unfold validateAndUpdateGroups NamesForeignGroups
  cases named with
  | none => cases isPartial <;> simp [verifyAndGetGroups,Except.map]
  | some named =>
    simp only [Option.isSome_some,Bool.or_true,if_true]
    by_cases empty : named = []
    · subst empty
      by_cases groupless : user.groups = [] <;> simp [verifyAndGetGroups,plain,groupless,Except.map]
    · rw [verify_named plain empty]
      by_cases missing : ∀ group ∈ named, group ∉ user.groups
      · rw [if_pos missing]
        simpa [Except.map,empty] using missing
      · rw [if_neg missing]
        simpa [Except.map,empty] using missing

end Rules

section ViewSets
variable {names : GroupNames γ} {viewSet : GroupViewSet} {table : List (Owned γ)} {user : User γ}

omit [DecidableEq γ] in
theorem plain_superuser (plain : user.isAdmin = false) : user.isSuperuser = false := by
  unfold User.isAdmin at plain
  exact (Bool.or_eq_false_iff.mp plain).1

theorem getQueryset_access (plain : user.isAdmin = false) (access : viewSet.groupAccess = true) :
    getQueryset viewSet table user = some ((objects table).filter fun object => inUserGroups user object.groups) := by
  have own : viewSet.ownQueryset = false := by
    cases viewSet with
    | mappingFile => cases access
    | _ => rfl
  simp [getQueryset,own,access,plain_superuser plain]

/-- An accepted request leaves groups in which the user sees the object, and adds only
    groups of the user. -/
theorem validate_ok (before : List γ) (plain : user.isAdmin = false) {isPartial : Bool} {named after : Option (List γ)}
    (seen : isPartial = true → inUserGroups user before = true)
    (accepted : validateAndUpdateGroups names isPartial user named = .ok after) :
    (∀ group ∈ after.getD before, group ∉ before → group ∈ user.groups) ∧
      inUserGroups user (after.getD before) = true := by
  unfold validateAndUpdateGroups at accepted
  split_ifs at accepted with checks
  · cases verified : verifyAndGetGroups names user named with
    | error errors => simp [verified,Except.map] at accepted
    | ok groups =>
      simp only [verified,Except.map,Except.ok.injEq] at accepted
      subst accepted
      obtain ⟨own,visible⟩ := verify_ok plain verified
      exact ⟨fun group listed _ => own group listed,visible⟩
  · cases accepted
    cases named with
    | some groups => simp at checks
    | none =>
      have unchanged : isPartial = true := by simpa using checks
      exact ⟨fun group listed fresh => absurd listed fresh,seen unchanged⟩

theorem written_seen (plain : user.isAdmin = false) {request : Write γ} {written : Written γ}
    (done : write names viewSet table user request = some written) :
    (∀ group ∈ written.object.groups, group ∉ written.before → group ∈ user.groups) ∧
      ∃ queryset, getQueryset viewSet written.table user = some queryset ∧ written.object ∈ queryset := by
  cases request with
  | create named =>
    simp only [write] at done
    split_ifs at done with access
    cases accepted : validateAndUpdateGroups names false user named with
    | error errors => simp [accepted] at done
    | ok after =>
      simp only [accepted,Option.some.injEq] at done
      subst done
      obtain ⟨added,visible⟩ := validate_ok [] plain (by simp) accepted
      refine ⟨added,_,getQueryset_access plain access,?_⟩
      simp [objects,visible]
  | update pk isPartial named =>
    simp only [write] at done
    split_ifs at done with allowed
    rw [Bool.and_eq_true] at allowed
    rw [getQueryset_access plain allowed.1] at done
    simp only [Option.bind_eq_bind,Option.bind_some,Option.bind_eq_some_iff] at done
    obtain ⟨object,found,done⟩ := done
    have same : object.id = pk := by simpa using List.find?_some found
    have member := List.mem_of_find?_eq_some found
    simp only [objects,List.mem_filter] at member
    cases accepted : validateAndUpdateGroups names isPartial user named with
    | error errors => simp [accepted] at done
    | ok after =>
      simp only [accepted,Option.some.injEq] at done
      subst done
      obtain ⟨added,visible⟩ := validate_ok object.groups plain (fun _ => member.2) accepted
      refine ⟨added,_,getQueryset_access plain allowed.1,?_⟩
      refine List.mem_filter.mpr ⟨List.mem_filter.mpr ⟨?_,member.1.2⟩,visible⟩
      exact List.mem_map.mpr ⟨object,member.1.1,by simp [same]⟩

end ViewSets

/-- The rules agree exactly where the viewset has no queryset of its own, or none of its
    objects has groups. -/
theorem coherent_iff (names : GroupNames γ) (viewSet : GroupViewSet) (table : List (Owned γ)) :
    Coherent names viewSet table ↔ (viewSet.ownQueryset = true → ∀ object ∈ objects table, object.groups = []) := by
  constructor
  · intro coherent own object listed
    let stranger : User γ := ⟨0,false,false,[]⟩
    have some_objects : (objects table).isEmpty = false := by
      simpa using List.ne_nil_of_mem listed
    have all : getQueryset viewSet table stranger = some (objects table) := by
      simp [getQueryset,own,some_objects]
    rcases (owner_iff rfl).mp (coherent.owner stranger rfl _ all object listed) with none_left | ⟨group,_,member⟩
    · exact none_left
    · cases member
  · intro condition
    refine ⟨?_,fun user plain request written done => written_seen plain done,
      fun user plain isPartial groups => rejected_iff plain isPartial groups⟩
    intro user plain queryset given object listed
    by_cases access : viewSet.groupAccess = true
    · rw [getQueryset_access plain access] at given
      cases given
      exact owner_of_seen plain (List.mem_filter.mp listed).2
    · have own : viewSet.ownQueryset = true := by
        cases viewSet with
        | mappingFile => rfl
        | _ => exact absurd rfl access
      unfold getQueryset at given
      simp only [own,access,Bool.true_and,Bool.false_eq_true,if_false] at given
      split_ifs at given
      cases given
      rw [owner_iff plain]
      exact .inl (condition own object listed)

def broker : User String := ⟨7,false,false,["brokers"]⟩

def insurersFile : Owned String := ⟨1,["insurers"],false⟩

/-- A mapping file of one group is in the queryset of a user of another, who is not an
    owner. -/
theorem mappingFile_seen :
    getQueryset .mappingFile [insurersFile] broker = some [insurersFile] ∧
      validateUserIsOwner broker insurersFile.groups = false ∧
      ¬ Coherent ⟨id,Function.injective_id⟩ .mappingFile [insurersFile] := by
  refine ⟨by decide,by decide,?_⟩
  intro coherent
  have owner := coherent.owner broker rfl [insurersFile] (by decide) insurersFile List.mem_cons_self
  exact absurd owner (by decide)

end OasisPlatform.GroupAccess
