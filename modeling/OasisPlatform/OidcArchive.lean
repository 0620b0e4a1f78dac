import OasisPlatform.OidcNames
import OasisPlatform.SharedRow

/-!
Users that are archived. `archive_old_user` renames a user to `<username>-<sub>` and deletes
whoever has that name. No login removes a user, or changes one that is not its own but by
archiving it, in exactly those runs in which nobody else is stored under the name of a user
that is about to be archived (`users_kept_iff`).
-/
namespace OasisPlatform.OidcArchive
open OasisPlatform.PathText OasisPlatform.ReadCommitted OasisPlatform.OidcLogins OasisPlatform.OidcWrites OasisPlatform.OidcNames
open OasisPlatform.SharedRow (Along)
set_option linter.unusedSimpArgs false

/-- A login that takes up a user to archive it. -/
def Archiving (system : System Account Op Login) (action : Action Claims) (session : Session Login Op) (user : Loaded) : Prop :=
  ∃ i users, action = .run i ∧ system.sessions[i]? = some session ∧ session.stage.stage = .archiveNext (user :: users)

def newName (session : Session Login Op) (user : Loaded) : Text := archivedName user.columns.username session.stage.claims.sub

/-- What a step of the logins may do to the users. -/
structure KeptChange (system : System Account Op Login) (action : Action Claims) (after : System Account Op Login) : Prop where
  /-- the users that were there are there -/
  rows : ∀ id, (system.rows id).isSome = true → (after.rows id).isSome = true
  /-- a login archives other users than its own, or leaves them as they are -/
  others : ∀ i (session : Session Login Op) id account, action = .run i → system.sessions[i]? = some session →
    session.stage.stage.own ≠ some id → system.rows id = some account → after.rows id = some account ∨
      after.rows id = some { account with toColumns := archivedColumns session.stage.claims.sub account.columns }
  /-- a name that is chosen for a user is that of no other user that the login sees -/
  names : ∀ session user, Archiving system action session user →
    ∀ id, nameAt (view Op.apply system.rows session.writes) id = some (newName session user) → id = user.id

def Kept (fold : Char → Char) (system : System Account Op Login) (action : Action Claims) : Prop :=
  KeptChange system action (system.step (rules fold) action)

/-- When a user is about to be archived, no other user is stored under its username with the
    claimed `sub` appended. -/
def Distinct (system : System Account Op Login) (action : Action Claims) : Prop :=
  ∀ session user, Archiving system action session user → ∀ id, id ≠ user.id → nameAt system.rows id ≠ some (newName session user)

/-- A login that has deleted nobody and is not about to. -/
structure Spares (session : Session Login Op) : Prop where
  writes : ∀ write ∈ session.writes, write.2 ≠ .delete
  ids : ∀ ids user users, session.stage.stage = .archiveDelete ids user users → ids = []

structure ArchiveSound (fold : Char → Char) (system : System Account Op Login) : Prop where
  logins : LoginsSound fold system
  names : NamesSound fold system
  spares : system.Each fun _ _ session => Spares session

section Sessions
variable {fold : Char → Char} {rows : Db} {next : Nat} {session : Session Login Op}

theorem Spares.undeleted (spares : Spares session) (id : Nat) : Op.delete ∉ opsAt session.writes id :=
  fun listed => spares.writes _ (mem_opsAt.mp listed) rfl

theorem Spares.view_some (spares : Spares session) {id : Nat} (stored : (rows id).isSome = true) :
    (view Op.apply rows session.writes id).isSome = true := by
  obtain ⟨account,found⟩ := Option.isSome_iff_exists.mp stored
  obtain ⟨later,seen,_⟩ := view_undeleted (spares.undeleted id) found
  exact Option.isSome_iff_exists.mpr ⟨later,seen⟩

theorem newName_long (session : Session Login Op) (user : Loaded) :
    user.columns.username.length < (newName session user).length := by
  rw [newName,archivedName,List.length_append,List.length_cons]
  omega

/-- What is stored under the new name, and what the login sees. A user that it has archived
    itself has a longer name now, and another one than this user will have. -/
theorem names_iff (sound : Sound rows next session) (unique : Unique rows) (spares : Spares session) {user : Loaded}
    {users : List Loaded} (stage : session.stage.stage = .archiveNext (user :: users)) :
    (∀ id, nameAt (view Op.apply rows session.writes) id = some (newName session user) → id = user.id) ↔
      ∀ id, id ≠ user.id → nameAt rows id ≠ some (newName session user) := by
  have shapes : ∀ id, Shape rows session.stage.claims.sub session.stage.username session.writes id :=
    fun id => sound.others id (by simp [stage,Stage.own])
  have held := sound.stage
  rw [StageSound,stage] at held
  have candidate := held.2 user List.mem_cons_self
  have longer := newName_long session user
  constructor
  · intro seen id differs named
    cases shapes id with
    | clean unwritten =>
      refine differs (seen id ?_)
      rwa [nameAt,view_unwritten unwritten]
    | deleted before ops => exact spares.undeleted id (ops ▸ List.mem_append_right _ List.mem_cons_self)
    | archived account stored long ops =>
      rw [nameAt,stored,Option.map_some,Option.some.injEq] at named
      have same : account.username.length = user.columns.username.length := long.trans candidate.long.symm
      change account.username = _ at named
      rw [named] at same
      omega
  · intro apart id named
    by_contra differs
    cases shapes id with
    | clean unwritten =>
      rw [nameAt,view_unwritten unwritten] at named
      exact apart id differs named
    | deleted before ops =>
      rw [nameAt,view_deleted ops] at named
      cases named
    | archived account stored long ops =>
      rw [nameAt,view_archived stored ops,Option.map_some,Option.some.injEq] at named
      have same : account.username = user.columns.username := List.append_cancel_right named
      obtain ⟨loaded,found,columns⟩ := Option.map_eq_some_iff.mp candidate.stored
      refine differs (unique id user.id account.username ?_ ?_)
      · rw [nameAt,stored]
        rfl
      · rw [nameAt,found,same,← columns]
        rfl

/-- Where the new name is nobody's, nobody is found to be deleted. -/
theorem others_nil {user : Loaded} {users : List Loaded} (candidates : Candidates rows session (user :: users))
    (names : ∀ id, nameAt (view Op.apply rows session.writes) id = some (newName session user) → id = user.id) :
    (others fold session.stage (view Op.apply rows session.writes) next fun account =>
      account.username = archivedName user.columns.username session.stage.claims.sub) = [] := by
  rw [List.eq_nil_iff_forall_not_mem]
  intro id listed
  obtain ⟨_,account,stored,found⟩ := mem_query.mp listed
  rw [Bool.and_eq_true,decide_eq_true_eq] at found
  have self : id = user.id := names id (by rw [nameAt,stored,Option.map_some]; exact congrArg some found.1)
  exact Candidate.kept candidates List.mem_cons_self user List.mem_cons_self (self ▸ listed)

theorem Spares.go (spares : Spares session) (sound : Sound rows next session)
    (names : ∀ user users, session.stage.stage = .archiveNext (user :: users) →
      ∀ id, nameAt (view Op.apply rows session.writes) id = some (newName session user) → id = user.id)
    {stage : Stage} {writes : Writes Op} {selected : List Nat} {drawn : Nat}
    (goes : Goes fold (view Op.apply rows session.writes) next session.stage session.stage.stage stage writes selected drawn) :
    Spares ⟨session.stage.move stage,session.writes ++ writes,session.selected ++ selected⟩ := by
  have held := sound.stage
  have ids := spares.ids
  rw [StageSound] at held
  constructor
  · intro write listed
    rcases List.mem_append.mp listed with old | new
    · exact spares.writes write old
    · generalize session.stage.stage = before at goes ids
      cases goes
      case archiveDelete deleted user users =>
        rw [ids deleted user users rfl] at new
        cases new
      case clear =>
        obtain ⟨group,_,rfl⟩ := List.mem_map.mp new
        simp
      all_goals simp_all
  · intro deleted user users after
    generalize here : session.stage.stage = before at goes held names
    rw [Login.move_stage] at after
    cases goes
    case archiveNext =>
      cases after
      exact others_nil held (names user users rfl)
    case sameGroups created same => cases created <;> cases after
    case joined created => cases created <;> cases after
    all_goals cases after

end Sessions

section Steps
variable {fold : Char → Char} {system : System Account Op Login}

/-- A step keeps the users exactly when the names are distinct. -/
theorem kept_iff (sound : ArchiveSound fold system) (action : Action Claims) :
    Kept fold system action ↔ Distinct system action := by
  have same : ∀ session user, Archiving system action session user →
      ((∀ id, nameAt (view Op.apply system.rows session.writes) id = some (newName session user) → id = user.id) ↔
        ∀ id, id ≠ user.id → nameAt system.rows id ≠ some (newName session user)) := by
    rintro session user ⟨i,users,_,found,stage⟩
    exact names_iff (sound.logins.each i session found) sound.names.rows (sound.spares i session found) stage
  constructor
  · exact fun kept session user archiving => (same session user archiving).mp (kept.names session user archiving)
  · intro distinct
    have names := fun session user archiving => (same session user archiving).mpr (distinct session user archiving)
    obtain ⟨_,unchanged | ⟨i,committing,_,_,rfl,found,_,rows⟩⟩ := step_rows (rules fold) system action
    · refine ⟨fun id stored => ?_,fun i session id account _ _ _ stored => .inl ?_,names⟩
      · rwa [unchanged]
      · rwa [unchanged]
    · refine ⟨fun id stored => ?_,?_,names⟩
      · rw [rows]
        exact (sound.spares i committing found).view_some stored
      · rintro _ session id account ⟨⟩ there differs stored
        obtain rfl : committing = session := Option.some.inj (found.symm.trans there)
        rw [rows]
        cases (sound.logins.each i committing found).others id differs with
        | clean unwritten => exact .inl ((view_unwritten unwritten).trans stored)
        | deleted before ops =>
          exact absurd (ops ▸ List.mem_append_right _ List.mem_cons_self) ((sound.spares i committing found).undeleted id)
        | archived account' held long ops =>
          obtain rfl : account' = account := Option.some.inj (held.symm.trans stored)
          exact .inr (view_archived held ops)

theorem fresh_spares {login : Login} (fresh : login.stage.Fresh) : Spares ⟨login,[],[]⟩ := by
  refine ⟨fun _ listed => (by cases listed),fun ids user users stage => ?_⟩
  rcases fresh with ended | ended | ⟨_,ended⟩ <;> cases ended.symm.trans stage

theorem step_archive (sound : ArchiveSound fold system) (action : Action Claims) (kept : Kept fold system action) :
    ArchiveSound fold (system.step (rules fold) action) := by
  refine ⟨step_sound sound.logins action,step_names sound.logins sound.names action,step_logins sound.spares action ?_ ?_ ?_ ?_ ?_⟩
  · exact fun _ fresh => fresh_spares fresh
  · exact fun _ _ _ held => held
  · intro i session stage writes selected drawn running found held goes
    refine held.go (sound.logins.each i session found) (fun user users archiving => ?_) goes
    exact kept.names session user ⟨i,users,running,found,archiving⟩
  · exact fun _ id _ _ => fresh_spares (.inr (.inr ⟨id,rfl⟩))
  · exact fun _ _ _ _ _ _ _ _ _ held _ _ => held

end Steps

theorem users_archive (fold : Char → Char) (users : Users) : ArchiveSound fold users.system where
  logins := database_sound fold users.toDatabase
  names := users_names fold users
  spares := fun i session here => by cases here

/-- The logins of a run keep the users exactly when, whenever a user is about to be archived,
    nobody else is stored under the name that it is archived to. -/
theorem users_kept_iff (fold : Char → Char) (users : Users) (actions : List (Action Claims)) :
    Along (System.step (rules fold)) (Kept fold) users.system actions ↔
      Along (System.step (rules fold)) Distinct users.system actions :=
  Along.exact_iff (fun _ action sound => kept_iff sound action) (fun _ action sound kept => step_archive sound action kept)
    (users_archive fold users)

def nobody : Users where
  rows := fun _ => none
  next := 0
  bounded := absent_bounded
  unique := fun _ _ _ named => by cases named

/-- A login with one group, and statements until it has returned. -/
def login (i : Nat) (sub name : String) (nonempty : sub.toList ≠ []) (statements : Nat) : List (Action Claims) :=
  .begin ⟨sub.toList,nonempty,some name.toList,false,.names ["g".toList]⟩ :: List.replicate statements (.run i)

/-- Two users, `foo` and `foo-s2`, and another identity that claims to be `foo`. -/
def thirdFoo : List (Action Claims) :=
  login 0 "s1" "foo" (by decide) 14 ++ login 1 "s3" "foo-s2" (by decide) 14 ++ login 2 "s2" "foo" (by decide) 16

/-- Its login removes the user `foo-s2` when it commits. -/
theorem thirdFoo_removes : ¬ Along (System.step (rules id)) (Kept id) nobody.system (thirdFoo ++ [.run 2]) := by
  intro along
  have kept := along.last.rows 1
  have stored : ((thirdFoo.foldl (System.step (rules id)) nobody.system).rows 1).map nameOf = some "foo-s2".toList := by
    decide +kernel
  have removed : (((thirdFoo.foldl (System.step (rules id)) nobody.system).step (rules id) (.run 2)).rows 1).isSome = false := by
    decide +kernel
  rw [removed] at kept
  obtain ⟨account,found,_⟩ := Option.map_eq_some_iff.mp stored
  rw [found] at kept
  cases kept rfl

end OasisPlatform.OidcArchive
