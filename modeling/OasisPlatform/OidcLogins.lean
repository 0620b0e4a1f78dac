import OasisPlatform.PathText
import OasisPlatform.ReadCommitted

/-!
Logins with OpenID Connect: `get_or_create_user`, statement by statement, in transactions
that run side by side. A login finds the user that is bound to the claimed `sub`, or
archives the users with the claimed name and takes or makes one; it sets the roles and
groups of the claims, and commits. What a statement can do is listed once (`Goes`,
`perform_performed`).
-/
namespace OasisPlatform.OidcLogins
open OasisPlatform.PathText OasisPlatform.ReadCommitted
set_option linter.unusedSimpArgs false

/-- The columns that an instance of the user model saves, as far as logins set them. -/
structure Columns where
  username : Text
  isSuperuser : Bool
  isStaff : Bool
  isActive : Bool
  deriving DecidableEq, Repr

/-- A user with its `OIDCUserId`, if it has one, and the names of its groups. -/
structure Account extends Columns where
  sub : Option Text
  groups : List Text
  deriving DecidableEq, Repr

def Account.columns (account : Account) : Columns := account.toColumns

def Account.roles (account : Account) : Bool × Bool := (account.isSuperuser,account.isStaff)

/-- An instance in memory. -/
structure Loaded where
  id : Nat
  columns : Columns
  deriving DecidableEq, Repr

inductive Op where
  /-- `user.save()`: all columns; a row that is gone is inserted again -/
  | save (columns : Columns)
  /-- the user with its binding and its memberships -/
  | delete
  /-- the insert of an `OIDCUserId`, which never changes one that is there -/
  | bind (sub : Text)
  | leave (group : Text)
  | join (group : Text)
  deriving DecidableEq, Repr

def Op.apply : Op → Option Account → Option Account
  | .save columns,none => some ⟨columns,none,[]⟩
  | .save columns,some account => some { account with toColumns := columns }
  | .delete,_ => none
  | .bind sub,account => account.map fun account => { account with sub := some (account.sub.getD sub) }
  | .leave group,account => account.map fun account => { account with groups := account.groups.filter (· ≠ group) }
  | .join group,account =>
    account.map fun account =>
      { account with groups := if group ∈ account.groups then account.groups else account.groups ++ [group] }

/-- Saves and deletes lock the row of the user. -/
def Op.locking : Op → Bool
  | .save _ => true
  | .delete => true
  | _ => false

/-- Bindings and memberships have a foreign key to the user. -/
def Op.references : Op → Bool
  | .bind _ => true
  | .join _ => true
  | _ => false

/-- `username` and the primary key of `OIDCUserId` are unique: a write waits for one that is
    not committed yet. -/
def conflicting : Nat × Op → Nat × Op → Bool
  | (id,.save columns),(other,.save pending) => id ≠ other && columns.username = pending.username
  | (id,.bind _),(other,.bind _) => id = other
  | _,_ => false

inductive GroupsClaim where
  | absent
  | null
  | names (groups : List Text)
  deriving DecidableEq, Repr

/-- The claims of a token, with a `sub` that is not empty. -/
structure Claims where
  sub : Text
  nonempty : sub ≠ []
  preferredUsername : Option Text
  isServiceAccount : Bool
  groups : GroupsClaim

/-- The username, none where `get_or_create_user` raises. -/
def Claims.username (claims : Claims) : Option Text :=
  match claims.preferredUsername with
  | some (c :: rest) => some (c :: rest)
  | _ => if claims.isServiceAccount then some ("svc-".toList ++ claims.sub) else none

/-- `claims.get('groups', None)` is not None. -/
def Claims.hasGroups (claims : Claims) : Bool :=
  match claims.groups with
  | .names _ => true
  | _ => false

/-- The claimed groups without leading slashes. -/
def Claims.wanted (claims : Claims) : List Text :=
  match claims.groups with
  | .names groups => groups.map fun group => group.dropWhile (· = '/')
  | _ => []

/-- `is_admin` of `update_roles`. -/
def Claims.isAdmin (claims : Claims) : Bool := "admin".toList ∈ claims.wanted || claims.isServiceAccount

/-- The name that `archive_old_user` gives. -/
def archivedName (username sub : Text) : Text := username ++ '-' :: sub

def archivedColumns (sub : Text) (columns : Columns) : Columns :=
  { columns with username := archivedName columns.username sub, isActive := false }

/-- Where a login is, before its next statement. Of the two paths, the one that takes or
    makes a user is `created`. -/
inductive Stage where
  | lookup
  | fetch (id : Nat)
  | rename (user : Loaded)
  | updateRoles (user : Loaded) (created : Bool)
  | updateGroups (user : Loaded) (created : Bool)
  | clear (user : Loaded) (created : Bool)
  | join (user : Loaded) (created : Bool) (rest : List Text)
  | getBinding (user : Loaded)
  | insertBinding (user : Loaded)
  | archive
  | lockRows (ids : List Nat)
  | archiveNext (users : List Loaded)
  | archiveDelete (ids : List Nat) (user : Loaded) (users : List Loaded)
  | archiveSave (user : Loaded) (users : List Loaded)
  | getUser
  | insertUser
  | regetUser
  | commit (id : Nat)
  | returned (id : Nat)
  | raised
  deriving DecidableEq, Repr

/-- A login with its name and the number of its attempt. -/
structure Login where
  claims : Claims
  username : Text
  attempt : Nat
  stage : Stage

abbrev Db := Nat → Option Account

abbrev Result := List Nat × Outcome Login Op

namespace Login

def start (claims : Claims) : Login :=
  match claims.username with
  | some username => ⟨claims,username,0,.lookup⟩
  | none => ⟨claims,[],0,.raised⟩

def move (login : Login) (stage : Stage) : Login := { login with stage := stage }

@[simp] theorem move_stage (login : Login) (stage : Stage) : (login.move stage).stage = stage := rfl
@[simp] theorem move_claims (login : Login) (stage : Stage) : (login.move stage).claims = login.claims := rfl

/-- A login that has ended stays as it is, another is rolled back. -/
def aborted (login : Login) : Login :=
  match login.stage with
  | .returned id => login.move (.returned id)
  | _ => login.move .raised

def go (login : Login) (stage : Stage) : Result := ([],.go (login.move stage) [] [] 0)

def write (login : Login) (stage : Stage) (writes : Writes Op) : Result := ([],.go (login.move stage) writes [] 0)

def raise (login : Login) : Result := ([],.restart (login.move .raised))

/-- `except IntegrityError`: once more in a new transaction, then it is raised. -/
def integrityError (login : Login) (waits : List Nat) : Result :=
  if login.attempt = 0 then (waits,.restart { login with attempt := 1, stage := .lookup })
  else (waits,.restart (login.move .raised))

end Login

def groupsAt (view : Db) (id : Nat) : List Text := ((view id).map Account.groups).getD []

def bindingAt (view : Db) (id : Nat) : Option Text := (view id).bind Account.sub

section Statements
variable (fold : Char → Char)

/-- `__iexact`. -/
def iexact (left right : Text) : Bool := left.map fold = right.map fold

/-- The ids of the rows that a query finds. -/
def query (view : Db) (next : Nat) (found : Account → Bool) : List Nat :=
  (List.range next).filter fun id => (view id).any found

/-- `oidc_sub__iexact=sub`. -/
def boundTo (sub : Text) (account : Account) : Bool := account.sub.any (iexact fold · sub)

/-- `user.save()`, which the unique index refuses when another user has the name. -/
def saveUser (login : Login) (view : Db) (next : Nat) (user : Loaded) (stage : Stage) : Result :=
  match (query view next fun account => account.username = user.columns.username).filter (· ≠ user.id) with
  | [] => login.write stage [(user.id,.save user.columns)]
  | taken => login.integrityError taken

def afterGroups (user : Loaded) (created : Bool) : Stage := if created then .getBinding user else .commit user.id

/-- `update_roles`; a null claim cannot be iterated. -/
def updateRoles (login : Login) (view : Db) (next : Nat) (user : Loaded) (created : Bool) : Result :=
  let isAdmin := login.claims.isAdmin
  if login.claims.groups = .null then login.raise
  else if isAdmin = user.columns.isSuperuser ∧ isAdmin = user.columns.isStaff then login.go (.updateGroups user created)
  else
    let user := { user with columns := { user.columns with isSuperuser := isAdmin, isStaff := isAdmin } }
    saveUser login view next user (.updateGroups user created)

/-- `update_groups` up to the comparison. -/
def updateGroups (login : Login) (view : Db) (user : Loaded) (created : Bool) : Result :=
  if !login.claims.hasGroups && !(user.columns.isSuperuser || user.columns.isStaff || login.claims.isServiceAccount) then login.raise
  else if login.claims.wanted.isPerm (groupsAt view user.id) then login.go (afterGroups user created)
  else login.go (.clear user created)

/-- What `create_oidc_user_id` makes of a binding that is there. -/
def compareBinding (login : Login) (user : Loaded) (sub : Text) : Result :=
  if sub = login.claims.sub then login.go (.commit user.id) else login.raise

/-- An `exclude` of those that are bound to the same `sub`. -/
def others (login : Login) (view : Db) (next : Nat) (found : Account → Bool) : List Nat :=
  query view next fun account => found account && !boundTo fold login.claims.sub account

/-- The locked rows that still have the name. -/
def lockRows (login : Login) (view : Db) (ids : List Nat) : List Loaded :=
  ids.filterMap fun id =>
    match view id with
    | some account => if iexact fold account.username login.username then some ⟨id,account.columns⟩ else none
    | none => none

def findUser (login : Login) (view : Db) (next : Nat) : Option Loaded :=
  (query view next fun account => account.username = login.username).findSome? fun id =>
    (view id).map fun account => ⟨id,account.columns⟩

/-- Foreign keys are checked at the commit. -/
def keysHold (view : Db) (writes : Writes Op) : Bool := writes.all fun write => !write.2.references || (view write.1).isSome

def perform (view : Db) (next : Nat) (session : Session Login Op) : Result :=
  let login := session.stage
  match login.stage with
  | .lookup =>
    match query view next (boundTo fold login.claims.sub) with
    | [id] => login.go (.fetch id)
    | _ => login.go .archive
  | .fetch id =>
    match view id with
    | some account => login.go (.rename ⟨id,account.columns⟩)
    | none => login.raise
  | .rename user =>
    if user.columns.username = login.username then login.go (.updateRoles user false)
    else
      let user := { user with columns := { user.columns with username := login.username } }
      saveUser login view next user (.updateRoles user false)
  | .updateRoles user created => updateRoles login view next user created
  | .updateGroups user created => updateGroups login view user created
  | .clear user created =>
    login.write (.join user created login.claims.wanted) ((groupsAt view user.id).map fun group => (user.id,.leave group))
  | .join user created [] => login.go (afterGroups user created)
  | .join user created (group :: rest) => login.write (.join user created rest) [(user.id,.join group)]
  | .getBinding user =>
    match bindingAt view user.id with
    | some sub => compareBinding login user sub
    | none => login.go (.insertBinding user)
  | .insertBinding user =>
    match bindingAt view user.id with
    -- the insert fails, and the binding is read again
    | some sub => compareBinding login user sub
    | none => login.write (.commit user.id) [(user.id,.bind login.claims.sub)]
  | .archive => login.go (.lockRows (others fold login view next fun account => iexact fold account.username login.username))
  | .lockRows ids =>
    let users := lockRows fold login view ids
    (ids,.go (login.move (.archiveNext users)) [] (users.map Loaded.id) 0)
  | .archiveNext [] => login.go .getUser
  | .archiveNext (user :: users) =>
    let name := archivedName user.columns.username login.claims.sub
    login.go (.archiveDelete (others fold login view next fun account => account.username = name) user users)
  | .archiveDelete ids user users =>
    (ids,.go (login.move (.archiveSave user users)) (ids.map fun id => (id,.delete)) [] 0)
  | .archiveSave user users =>
    saveUser login view next ⟨user.id,archivedColumns login.claims.sub user.columns⟩ (.archiveNext users)
  | .getUser =>
    match findUser login view next with
    | some user => login.go (.updateRoles user true)
    | none => login.go .insertUser
  | .insertUser =>
    match query view next fun account => account.username = login.username with
    | [] =>
      let user : Loaded := ⟨next,⟨login.username,false,false,true⟩⟩
      ([],.go (login.move (.updateRoles user true)) [(next,.save user.columns)] [] 1)
    | taken => (taken,.go (login.move .regetUser) [] [] 0)
  | .regetUser =>
    match findUser login view next with
    | some user => login.go (.updateRoles user true)
    | none => login.integrityError []
  | .commit id => if keysHold view session.writes then ([],.commit (login.move (.returned id))) else login.integrityError []
  | .returned _ => ([],.stay)
  | .raised => ([],.stay)

/-- The logins of `GenericOIDCAuthenticationBackend` in a database that is READ COMMITTED. -/
def rules : Rules Account Op Login Claims where
  apply := Op.apply
  locking := Op.locking
  conflicts := fun new pending => new.any fun write => pending.any (conflicting write)
  start := Login.start
  perform := perform fold
  abort := Login.aborted

end Statements

/-- A database before any login, with ids below the next one. -/
structure Database where
  rows : Db
  next : Nat
  bounded : ∀ id, (rows id).isSome → id < next

theorem absent_bounded (id : Nat) (stored : (none : Option Account).isSome) : id < 0 := by cases stored

def Database.system (database : Database) : System Account Op Login := ⟨database.rows,database.next,[]⟩

/-! ### What a statement can do -/

section Inversion
variable (fold : Char → Char) (view : Db) (next : Nat) (login : Login)

/-- No other user has the name. -/
def NameFree (id : Nat) (username : Text) : Prop :=
  ∀ other ∈ query view next fun account => account.username = username, other = id

/-- The statements after which a login goes on, with what they write, select and draw. -/
inductive Goes : Stage → Stage → Writes Op → List Nat → Nat → Prop
  | found {id : Nat} (bound : query view next (boundTo fold login.claims.sub) = [id]) : Goes .lookup (.fetch id) [] [] 0
  | notFound : Goes .lookup .archive [] [] 0
  | fetch {id : Nat} {account : Account} (stored : view id = some account) :
      Goes (.fetch id) (.rename ⟨id,account.columns⟩) [] [] 0
  | sameName {user : Loaded} : Goes (.rename user) (.updateRoles user false) [] [] 0
  | newName {user : Loaded} (free : NameFree view next user.id login.username) :
      Goes (.rename user) (.updateRoles ⟨user.id,{ user.columns with username := login.username }⟩ false)
        [(user.id,.save { user.columns with username := login.username })] [] 0
  | sameRoles {user : Loaded} {created : Bool}
      (admin : login.claims.isAdmin = user.columns.isSuperuser ∧ login.claims.isAdmin = user.columns.isStaff) :
      Goes (.updateRoles user created) (.updateGroups user created) [] [] 0
  | newRoles {user : Loaded} {created : Bool} {columns : Columns}
      (admin : login.claims.isAdmin = columns.isSuperuser ∧ login.claims.isAdmin = columns.isStaff)
      (free : NameFree view next user.id columns.username) :
      Goes (.updateRoles user created) (.updateGroups ⟨user.id,columns⟩ created) [(user.id,.save columns)] [] 0
  | sameGroups {user : Loaded} {created : Bool} (same : login.claims.wanted.Perm (groupsAt view user.id)) :
      Goes (.updateGroups user created) (afterGroups user created) [] [] 0
  | newGroups {user : Loaded} {created : Bool} : Goes (.updateGroups user created) (.clear user created) [] [] 0
  | clear {user : Loaded} {created : Bool} :
      Goes (.clear user created) (.join user created login.claims.wanted)
        ((groupsAt view user.id).map fun group => (user.id,.leave group)) [] 0
  | joined {user : Loaded} {created : Bool} : Goes (.join user created []) (afterGroups user created) [] [] 0
  | join {user : Loaded} {created : Bool} {group : Text} {rest : List Text} :
      Goes (.join user created (group :: rest)) (.join user created rest) [(user.id,.join group)] [] 0
  | bound {user : Loaded} (same : bindingAt view user.id = some login.claims.sub) :
      Goes (.getBinding user) (.commit user.id) [] [] 0
  | unbound {user : Loaded} : Goes (.getBinding user) (.insertBinding user) [] [] 0
  | boundMeanwhile {user : Loaded} (same : bindingAt view user.id = some login.claims.sub) :
      Goes (.insertBinding user) (.commit user.id) [] [] 0
  | bind {user : Loaded} (free : bindingAt view user.id = none) :
      Goes (.insertBinding user) (.commit user.id) [(user.id,.bind login.claims.sub)] [] 0
  | archive : Goes .archive (.lockRows (others fold login view next fun account => iexact fold account.username login.username)) [] [] 0
  | lockRows {ids : List Nat} :
      Goes (.lockRows ids) (.archiveNext (lockRows fold login view ids)) [] ((lockRows fold login view ids).map Loaded.id) 0
  | archived : Goes (.archiveNext []) .getUser [] [] 0
  | archiveNext {user : Loaded} {users : List Loaded} :
      Goes (.archiveNext (user :: users))
        (.archiveDelete (others fold login view next fun account =>
          account.username = archivedName user.columns.username login.claims.sub) user users) [] [] 0
  | archiveDelete {ids : List Nat} {user : Loaded} {users : List Loaded} :
      Goes (.archiveDelete ids user users) (.archiveSave user users) (ids.map fun id => (id,.delete)) [] 0
  | archiveSave {user : Loaded} {users : List Loaded}
      (free : NameFree view next user.id (archivedName user.columns.username login.claims.sub)) :
      Goes (.archiveSave user users) (.archiveNext users) [(user.id,.save (archivedColumns login.claims.sub user.columns))] [] 0
  | getUser {user : Loaded} (found : findUser login view next = some user) : Goes .getUser (.updateRoles user true) [] [] 0
  | noUser : Goes .getUser .insertUser [] [] 0
  | insertUser (free : NameFree view next next login.username) :
      Goes .insertUser (.updateRoles ⟨next,⟨login.username,false,false,true⟩⟩ true)
        [(next,.save ⟨login.username,false,false,true⟩)] [] 1
  | taken : Goes .insertUser .regetUser [] [] 0
  | regetUser {user : Loaded} (found : findUser login view next = some user) :
      Goes .regetUser (.updateRoles user true) [] [] 0

/-- What becomes of a transaction by a statement: it goes on, it is rolled back, it commits
    or nothing happens. -/
inductive Performed (session : Session Login Op) : Result → Prop
  | stay : Performed session ([],.stay)
  | go {waits : List Nat} {stage : Stage} {writes : Writes Op} {selected : List Nat} {drawn : Nat}
      (goes : Goes fold view next session.stage session.stage.stage stage writes selected drawn) :
      Performed session (waits,.go (session.stage.move stage) writes selected drawn)
  | retry {waits : List Nat} : Performed session (waits,.restart { session.stage with attempt := 1, stage := .lookup })
  | raise {waits : List Nat} : Performed session (waits,.restart (session.stage.move .raised))
  | commit {id : Nat} (stage : session.stage.stage = .commit id) (keys : keysHold view session.writes = true) :
      Performed session ([],.commit (session.stage.move (.returned id)))

variable {fold view next} {session : Session Login Op}

theorem integrityError_performed (waits : List Nat) :
    Performed fold view next session (session.stage.integrityError waits) := by
  unfold Login.integrityError
  split
  · exact .retry
  · exact .raise

theorem saveUser_performed {user : Loaded} {stage : Stage}
    (goes : NameFree view next user.id user.columns.username →
      Goes fold view next session.stage session.stage.stage stage [(user.id,.save user.columns)] [] 0) :
    Performed fold view next session (saveUser session.stage view next user stage) := by
  unfold saveUser
  split
  · rename_i nobody
    refine .go (goes fun other listed => ?_)
    simpa using List.filter_eq_nil_iff.mp nobody other listed
  · exact integrityError_performed _

theorem updateRoles_performed {user : Loaded} {created : Bool} (stage : session.stage.stage = .updateRoles user created) :
    Performed fold view next session (updateRoles session.stage view next user created) := by
  unfold updateRoles
  by_cases null : session.stage.claims.groups = .null
  · simp only [if_pos null]
    exact .raise
  · by_cases admin : session.stage.claims.isAdmin = user.columns.isSuperuser ∧ session.stage.claims.isAdmin = user.columns.isStaff
    · simp only [if_neg null,if_pos admin]
      exact .go (stage ▸ .sameRoles admin)
    · simp only [if_neg null,if_neg admin]
      exact saveUser_performed fun free => stage ▸ .newRoles ⟨rfl,rfl⟩ free

theorem updateGroups_performed {user : Loaded} {created : Bool} (stage : session.stage.stage = .updateGroups user created) :
    Performed fold view next session (updateGroups session.stage view user created) := by
  unfold updateGroups
  split
  · exact .raise
  · split
    · rename_i same
      exact .go (stage ▸ .sameGroups (List.isPerm_iff.mp same))
    · exact .go (stage ▸ .newGroups)

theorem compareBinding_performed {user : Loaded} {sub : Text}
    (goes : sub = session.stage.claims.sub → Goes fold view next session.stage session.stage.stage (.commit user.id) [] [] 0) :
    Performed fold view next session (compareBinding session.stage user sub) := by
  unfold compareBinding
  by_cases same : sub = session.stage.claims.sub
  · rw [if_pos same]
    exact .go (goes same)
  · rw [if_neg same]
    exact .raise

theorem perform_performed (fold : Char → Char) (view : Db) (next : Nat) (session : Session Login Op) :
    Performed fold view next session (perform fold view next session) := by
  unfold perform
  dsimp only
  split
  · rename_i stage
    split
    · rename_i id bound
      exact .go (stage ▸ .found bound)
    · exact .go (stage ▸ .notFound)
  · rename_i id stage
    split
    · rename_i account stored
      exact .go (stage ▸ .fetch stored)
    · exact .raise
  · rename_i user stage
    split
    · exact .go (stage ▸ .sameName)
    · exact saveUser_performed fun free => stage ▸ .newName free
  · rename_i user created stage
    exact updateRoles_performed stage
  · rename_i user created stage
    exact updateGroups_performed stage
  · rename_i user created stage
    exact .go (stage ▸ .clear)
  · rename_i user created stage
    exact .go (stage ▸ .joined)
  · rename_i user created group rest stage
    exact .go (stage ▸ .join)
  · rename_i user stage
    split
    · rename_i sub stored
      exact compareBinding_performed fun same => stage ▸ .bound (same ▸ stored)
    · exact .go (stage ▸ .unbound)
  · rename_i user stage
    split
    · rename_i sub stored
      exact compareBinding_performed fun same => stage ▸ .boundMeanwhile (same ▸ stored)
    · rename_i free
      exact .go (stage ▸ .bind free)
  · rename_i stage
    exact .go (stage ▸ .archive)
  · rename_i ids stage
    exact .go (stage ▸ .lockRows)
  · rename_i stage
    exact .go (stage ▸ .archived)
  · rename_i user users stage
    exact .go (stage ▸ .archiveNext)
  · rename_i ids user users stage
    exact .go (stage ▸ .archiveDelete)
  · rename_i user users stage
    exact saveUser_performed fun free => stage ▸ .archiveSave free
  · rename_i stage
    split
    · rename_i user found
      exact .go (stage ▸ .getUser found)
    · exact .go (stage ▸ .noUser)
  · rename_i stage
    split
    · rename_i nobody
      refine .go (stage ▸ .insertUser fun other listed => ?_)
      rw [nobody] at listed
      cases listed
    · exact .go (stage ▸ .taken)
  · rename_i stage
    split
    · rename_i user found
      exact .go (stage ▸ .regetUser found)
    · exact integrityError_performed _
  · rename_i id stage
    split
    · rename_i keys
      exact .commit stage keys
    · exact integrityError_performed _
  · exact .stay
  · exact .stay

theorem perform_go {waits selected : List Nat} {login : Login} {writes : Writes Op} {drawn : Nat}
    (performed : perform fold view next session = (waits,.go login writes selected drawn)) :
    ∃ stage, login = session.stage.move stage ∧
      Goes fold view next session.stage session.stage.stage stage writes selected drawn := by
  have outcome := perform_performed fold view next session
  rw [performed] at outcome
  cases outcome with
  | go goes => exact ⟨_,rfl,goes⟩

theorem perform_restart {waits : List Nat} {login : Login} (performed : perform fold view next session = (waits,.restart login)) :
    login.stage = .lookup ∨ login.stage = .raised := by
  have outcome := perform_performed fold view next session
  rw [performed] at outcome
  cases outcome with
  | retry => exact .inl rfl
  | raise => exact .inr rfl

theorem perform_commit {waits : List Nat} {login : Login} (performed : perform fold view next session = (waits,.commit login)) :
    ∃ id, session.stage.stage = .commit id ∧ login = session.stage.move (.returned id) ∧ keysHold view session.writes = true := by
  have outcome := perform_performed fold view next session
  rw [performed] at outcome
  cases outcome with
  | commit stage keys => exact ⟨_,stage,rfl,keys⟩

end Inversion

/-- Before the first statement, or at the end. -/
def Stage.Fresh (stage : Stage) : Prop := stage = .lookup ∨ stage = .raised ∨ ∃ id, stage = .returned id

theorem start_fresh (claims : Claims) : (Login.start claims).stage = .lookup ∨ (Login.start claims).stage = .raised := by
  unfold Login.start
  split
  · exact .inl rfl
  · exact .inr rfl

theorem aborted_fresh (login : Login) : login.aborted.stage = .raised ∨ ∃ id, login.aborted.stage = .returned id := by
  unfold Login.aborted
  split
  · exact .inr ⟨_,rfl⟩
  · exact .inl rfl

/-- A property holds of each login after a step, if it holds of logins that have done nothing,
    and statements, and the commits of others, keep it. -/
theorem step_logins {fold : Char → Char} {P : Db → Nat → Session Login Op → Prop} {system : System Account Op Login}
    (each : system.Each P) (action : Action Claims)
    (fresh : ∀ login : Login, login.stage.Fresh → P system.rows system.next ⟨login,[],[]⟩)
    (drawn : ∀ session next, system.next ≤ next → P system.rows system.next session → P system.rows next session)
    (go : ∀ (i : Nat) (session : Session Login Op) stage writes selected drawn, action = .run i →
      system.sessions[i]? = some session → P system.rows system.next session →
        Goes fold (view Op.apply system.rows session.writes) system.next session.stage session.stage.stage stage writes selected drawn →
          P system.rows (system.next + drawn) ⟨session.stage.move stage,session.writes ++ writes,session.selected ++ selected⟩)
    (commit : ∀ (session : Session Login Op) id, P system.rows system.next session → session.stage.stage = .commit id →
      P (view Op.apply system.rows session.writes) system.next ⟨session.stage.move (.returned id),[],[]⟩)
    (others : ∀ (i j : Nat) (session other : Session Login Op) id, action = .run i → j ≠ i → system.sessions[i]? = some session →
      system.sessions[j]? = some other → P system.rows system.next other → session.stage.stage = .commit id →
        keysHold (view Op.apply system.rows session.writes) session.writes = true →
          P (view Op.apply system.rows session.writes) system.next other) :
    (system.step (rules fold) action).Each P := by
  refine step_each each action ?_ ?_ drawn ?_ ?_ ?_ ?_
  · exact fun claims => fresh _ ((start_fresh claims).elim .inl fun raised => .inr (.inl raised))
  · exact fun session _ => fresh _ (.inr (aborted_fresh session.stage))
  · intro i session waits login writes selected drawn running found held performed
    obtain ⟨stage,rfl,goes⟩ := perform_go performed
    exact go i session stage writes selected drawn running found held goes
  · intro session waits login _ performed
    exact fresh login ((perform_restart performed).elim .inl fun raised => .inr (.inl raised))
  · intro session waits login held performed
    obtain ⟨id,stage,rfl,_⟩ := perform_commit performed
    exact commit session id held stage
  · intro i j session other waits login running differs found there held performed
    obtain ⟨id,stage,_,keys⟩ := perform_commit performed
    exact others i j session other id running differs found there held stage keys

/-- The user whose roles and groups a login sets. -/
def Stage.own : Stage → Option Nat
  | .fetch id => some id
  | .rename user => some user.id
  | .updateRoles user _ => some user.id
  | .updateGroups user _ => some user.id
  | .clear user _ => some user.id
  | .join user _ _ => some user.id
  | .getBinding user => some user.id
  | .insertBinding user => some user.id
  | .commit id => some id
  | _ => none

/-- The ids that a stage goes on with. -/
def Stage.ids : Stage → List Nat
  | .lockRows ids => ids
  | .archiveNext users => users.map Loaded.id
  | .archiveDelete ids user users => ids ++ user.id :: users.map Loaded.id
  | .archiveSave user users => user.id :: users.map Loaded.id
  | stage => stage.own.toList

theorem Stage.own_ids {stage : Stage} {id : Nat} (own : stage.own = some id) : stage.ids = [id] := by
  cases stage <;> cases own
  all_goals rfl

theorem afterGroups_own (user : Loaded) (created : Bool) : (afterGroups user created).own = some user.id := by
  cases created <;> rfl

/-- A login that has its user writes to it alone, and deletes nothing. -/
theorem Goes.own_writes {fold : Char → Char} {view : Db} {login : Login} {next : Nat} {before after : Stage}
    {writes : Writes Op} {selected : List Nat}
    {drawn id : Nat} (goes : Goes fold view next login before after writes selected drawn) (own : before.own = some id) :
    after.own = some id ∧ drawn = 0 ∧ ∀ write ∈ writes, write.1 = id ∧ write.2 ≠ .delete := by
  cases goes <;> cases own
  case sameGroups => exact ⟨afterGroups_own _ _,rfl,by simp⟩
  case joined => exact ⟨afterGroups_own _ _,rfl,by simp⟩
  all_goals simp [Stage.own]

end OasisPlatform.OidcLogins
