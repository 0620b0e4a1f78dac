import OasisPlatform.OidcWrites
import OasisPlatform.SharedRow

/-!
Who a login returns. It checks the binding under its transaction, and makes the roles and
groups what is claimed; but it takes no lock on a user whose roles or groups it finds to be
right, or whose memberships it replaces. The user that is returned is the claimed one in
every run in which no login commits a change to what another still relies on
(`identities_safe`).
-/
namespace OasisPlatform.OidcIdentity
open OasisPlatform.PathText OasisPlatform.ReadCommitted OasisPlatform.OidcLogins OasisPlatform.OidcWrites
open OasisPlatform.SharedRow (Along)
set_option linter.unusedSimpArgs false

/-- An account as claimed. -/
structure Identified (fold : Char → Char) (claims : Claims) (account : Account) : Prop where
  bound : boundTo fold claims.sub account = true
  groups : ∀ group, group ∈ account.groups ↔ group ∈ claims.wanted
  superuser : account.isSuperuser = claims.isAdmin
  staff : account.isStaff = claims.isAdmin

/-- What a step of the logins may do. -/
structure SafeChange (fold : Char → Char) (system : System Account Op Login) (action : Action Claims)
    (after : System Account Op Login) : Prop where
  /-- a login that returns a user returns one as claimed -/
  returned : ∀ (i : Nat) (session : Session Login Op) id, after.sessions[i]? = some session →
    session.stage.stage = .returned id →
      (∃ before : Session Login Op, system.sessions[i]? = some before ∧ before.stage.stage = .returned id) ∨
        ∃ account, after.rows id = some account ∧ Identified fold session.stage.claims account
  /-- a user bound to another `sub` keeps its roles and groups -/
  spared : ∀ i (session : Session Login Op), action = .run i → system.sessions[i]? = some session → ∀ id account sub,
    system.rows id = some account → account.sub = some sub → iexact fold sub session.stage.claims.sub = false →
      ∀ later, after.rows id = some later → later.roles = account.roles ∧ later.groups = account.groups
  /-- the database changes only in the step in which a login returns -/
  unchanged : after.rows = system.rows ∨
    ∃ (i : Nat) (before session : Session Login Op) (id : Nat), action = .run i ∧ system.sessions[i]? = some before ∧
      before.stage.stage = .commit id ∧ after.sessions[i]? = some session ∧ session.stage.stage = .returned id

def Safe (fold : Char → Char) (system : System Account Op Login) (action : Action Claims) : Prop :=
  SafeChange fold system action (system.step (rules fold) action)

def Agrees (claims : Claims) (columns : Columns) : Prop :=
  claims.isAdmin = columns.isSuperuser ∧ claims.isAdmin = columns.isStaff

/-- The roles of its user are as claimed, so far as it has read or written them. -/
def RolesRelied (claims : Claims) : Stage → Prop
  | .fetch _ => False
  | .rename user => Agrees claims user.columns
  | .updateRoles user _ => Agrees claims user.columns
  | _ => True

/-- The binding of its user has been found to be right. -/
def bindingFound : Stage → Bool
  | .fetch _ => true
  | .rename _ => true
  | .updateRoles _ created => !created
  | .updateGroups _ created => !created
  | .clear _ created => !created
  | .join _ created _ => !created
  | .commit _ => true
  | _ => false

/-- The groups of its user are as claimed but for those that it is still to join. -/
def groupsRelied : Stage → Bool
  | .join _ _ _ => true
  | .getBinding _ => true
  | .insertBinding _ => true
  | .commit _ => true
  | _ => false

def toJoin : Stage → List Text
  | .join _ _ rest => rest
  | _ => []

/-- A row is changed in nothing that a login relies on: that it is there, its binding, and
    the roles and groups that the login takes to be right. -/
structure Undisturbed (login : Login) (before after : Option Account) : Prop where
  binding : after.map Account.sub = before.map Account.sub
  roles : RolesRelied login.claims login.stage → after.map Account.roles = before.map Account.roles
  groups : groupsRelied login.stage = true → after.map Account.groups = before.map Account.groups

/-- A login that commits changes nothing that another, which has not ended, relies on. -/
def Calm (system : System Account Op Login) (action : Action Claims) : Prop :=
  ∀ i, action = .run i → ∀ (session : Session Login Op) id, system.sessions[i]? = some session →
    session.stage.stage = .commit id → keysHold (view Op.apply system.rows session.writes) session.writes = true →
    ∀ j (other : Session Login Op) own, j ≠ i → system.sessions[j]? = some other → other.stage.stage.own = some own →
      Undisturbed other.stage (system.rows own) (view Op.apply system.rows session.writes own)

instance (claims : Claims) (stage : Stage) : Decidable (RolesRelied claims stage) := by
  cases stage <;> dsimp only [RolesRelied,Agrees] <;> infer_instance

theorem undisturbed_iff (login : Login) (before after : Option Account) :
    after.map Account.sub = before.map Account.sub ∧
        (RolesRelied login.claims login.stage → after.map Account.roles = before.map Account.roles) ∧
        (groupsRelied login.stage = true → after.map Account.groups = before.map Account.groups) ↔
      Undisturbed login before after :=
  ⟨fun parts => ⟨parts.1,parts.2.1,parts.2.2⟩,fun undisturbed => ⟨undisturbed.binding,undisturbed.roles,undisturbed.groups⟩⟩

instance (login : Login) (before after : Option Account) : Decidable (Undisturbed login before after) :=
  decidable_of_iff _ (undisturbed_iff login before after)

theorem calm_run_iff (system : System Account Op Login) (i : Nat) :
    (∀ session ∈ system.sessions[i]?, ∀ id ∈ session.stage.stage.own,
        ¬(session.stage.stage = .commit id ∧ keysHold (view Op.apply system.rows session.writes) session.writes = true) ∨
          ∀ j < system.sessions.length, j = i ∨ ∀ other ∈ system.sessions[j]?, ∀ own ∈ other.stage.stage.own,
            Undisturbed other.stage (system.rows own) (view Op.apply system.rows session.writes own)) ↔
      Calm system (.run i) := by
  constructor
  · rintro calm _ ⟨⟩ session id found stage keys j other own differs there named
    have ownId : session.stage.stage.own = some id := by rw [stage]; rfl
    have later := (calm session found id ownId).resolve_left fun refused => refused ⟨stage,keys⟩
    exact (later j (List.getElem?_eq_some_iff.mp there).1).resolve_left differs other there own named
  · intro calm session found id _
    refine or_iff_not_imp_left.mpr fun committed j _ => or_iff_not_imp_left.mpr fun differs other there own named => ?_
    obtain ⟨stage,keys⟩ := not_not.mp committed
    exact calm i rfl session id found stage keys j other own differs there named

instance (system : System Account Op Login) : (action : Action Claims) → Decidable (Calm system action)
  | .run i => decidable_of_iff _ (calm_run_iff system i)
  | .begin _ => isTrue fun _ running => by cases running
  | .abort _ => isTrue fun _ running => by cases running

structure Facts (fold : Char → Char) (claims : Claims) (stage : Stage) (account : Account) : Prop where
  bound : bindingFound stage = true → boundTo fold claims.sub account = true
  roles : RolesRelied claims stage → account.roles = (claims.isAdmin,claims.isAdmin)
  groups : groupsRelied stage = true → ∀ group, group ∈ account.groups ∨ group ∈ toJoin stage ↔ group ∈ claims.wanted

def Knows (fold : Char → Char) (rows : Db) (session : Session Login Op) : Prop :=
  ∀ id, session.stage.stage.own = some id →
    ∃ account, view Op.apply rows session.writes id = some account ∧
      Facts fold session.stage.claims session.stage.stage account

theorem boundTo_self (fold : Char → Char) {sub : Text} {account : Account} (bound : account.sub = some sub) :
    boundTo fold sub account = true := by
  simp [boundTo,bound,iexact]

theorem sub_alike (op : Op) (row other : Option Account) (same : row.map Account.sub = other.map Account.sub) :
    (op.apply row).map Account.sub = (op.apply other).map Account.sub := by
  cases op <;> cases row <;> cases other <;> simp_all [Op.apply]

theorem roles_alike (op : Op) (row other : Option Account) (same : row.map Account.roles = other.map Account.roles) :
    (op.apply row).map Account.roles = (op.apply other).map Account.roles := by
  cases op <;> cases row <;> cases other <;> simp_all [Op.apply,Account.roles]

theorem groups_alike (op : Op) (row other : Option Account) (same : row.map Account.groups = other.map Account.groups) :
    (op.apply row).map Account.groups = (op.apply other).map Account.groups := by
  cases op <;> cases row <;> cases other <;> simp_all [Op.apply]

/-- What a login knows is not changed by a commit that leaves it undisturbed. -/
theorem Knows.undisturbed {fold : Char → Char} {rows later : Db} {session : Session Login Op}
    (knows : Knows fold rows session)
    (calm : ∀ id, session.stage.stage.own = some id → Undisturbed session.stage (rows id) (later id)) :
    Knows fold later session := by
  intro id own
  obtain ⟨account,seen,facts⟩ := knows id own
  obtain ⟨binding,roles,groups⟩ := calm id own
  have subs := foldl_congr sub_alike (opsAt session.writes id) binding
  change (view Op.apply later session.writes id).map _ = (view Op.apply rows session.writes id).map _ at subs
  rw [seen,Option.map_some] at subs
  obtain ⟨now,found,sub⟩ := Option.map_eq_some_iff.mp subs
  refine ⟨now,found,?_,?_,?_⟩
  · intro known
    have bound := facts.bound known
    rwa [boundTo,← sub] at bound
  · intro relied
    have same := foldl_congr roles_alike (opsAt session.writes id) (roles relied)
    change (view Op.apply later session.writes id).map _ = (view Op.apply rows session.writes id).map _ at same
    rw [seen,found,Option.map_some,Option.map_some,Option.some.injEq] at same
    exact same.trans (facts.roles relied)
  · intro relied
    have same := foldl_congr groups_alike (opsAt session.writes id) (groups relied)
    change (view Op.apply later session.writes id).map _ = (view Op.apply rows session.writes id).map _ at same
    rw [seen,found,Option.map_some,Option.map_some,Option.some.injEq] at same
    rw [same]
    exact facts.groups relied

section Statements
variable {fold : Char → Char} {rows : Db} {next : Nat} {session : Session Login Op}

theorem leave_all (groups : List Text) (account : Account) :
    (groups.map Op.leave).foldl (fun row op => op.apply row) (some account) =
      some { account with groups := account.groups.filter (· ∉ groups) } := by
  induction groups generalizing account with
  | nil => simp
  | cons group rest ih =>
    rw [List.map_cons,List.foldl_cons]
    refine (ih _).trans ?_
    simp only [List.filter_filter,List.mem_cons,not_or,Bool.decide_and]
    congr 2
    exact List.filter_congr fun other _ => Bool.and_comm _ _

theorem opsAt_leaves (id : Nat) (groups : List Text) :
    opsAt (groups.map fun group => (id,Op.leave group)) id = groups.map Op.leave := by
  induction groups with
  | nil => rfl
  | cons group rest ih => simpa [opsAt] using ih

theorem opsAt_self (id : Nat) (op : Op) : opsAt [(id,op)] id = [op] := by
  simp [opsAt]

theorem Facts.settled {claims : Claims} {account : Account} (user : Loaded) {created : Bool}
    (bound : (!created) = true → boundTo fold claims.sub account = true)
    (roles : account.roles = (claims.isAdmin,claims.isAdmin))
    (groups : ∀ group, group ∈ account.groups ↔ group ∈ claims.wanted) :
    Facts fold claims (afterGroups user created) account := by
  cases created with
  | true => exact ⟨fun found => (by cases found),fun _ => roles,fun _ group => by simpa [afterGroups,toJoin] using groups group⟩
  | false => exact ⟨fun _ => bound rfl,fun _ => roles,fun _ group => by simpa [afterGroups,toJoin] using groups group⟩

/-- A user that has just been read: its roles are as they were loaded. -/
theorem Facts.unread {claims : Claims} {account : Account} {user : Loaded} (columns : account.columns = user.columns) :
    Facts fold claims (.updateRoles user true) account := by
  refine ⟨fun created => (by cases created),fun agrees => ?_,fun relied => (by cases relied)⟩
  rw [RolesRelied,Agrees,← columns] at agrees
  exact Prod.ext agrees.1.symm agrees.2.symm

/-- Facts about the user after a statement of a login that has it. -/
theorem Facts.go {view : Db} {claims : Claims} {login : Login} {before after : Stage} {writes : Writes Op} {selected : List Nat}
    {drawn id : Nat} {account : Account} (same : login.claims = claims) (facts : Facts fold claims before account)
    (seen : view id = some account) (own : before.own = some id)
    (goes : Goes fold view next login before after writes selected drawn) :
    ∃ later, (opsAt writes id).foldl (fun row op => op.apply row) (some account) = some later ∧ Facts fold claims after later := by
  subst same
  obtain ⟨bound,roles,groups⟩ := facts
  have seenGroups : groupsAt view id = account.groups := by simp [groupsAt,seen]
  have seenBinding : bindingAt view id = account.sub := by simp [bindingAt,seen]
  cases goes <;> cases own
  case fetch stored =>
    obtain rfl := Option.some.inj (seen.symm.trans stored)
    refine ⟨account,rfl,fun _ => bound rfl,fun agrees => ?_,fun relied => (by cases relied)⟩
    exact Prod.ext agrees.1.symm agrees.2.symm
  case sameName => exact ⟨account,rfl,bound,roles,groups⟩
  case newName user free =>
    refine ⟨{ account with toColumns := { user.columns with username := login.username } },?_,fun _ => bound rfl,
      fun agrees => ?_,fun relied => (by cases relied)⟩
    · rw [opsAt_self]
      rfl
    · exact Prod.ext agrees.1.symm agrees.2.symm
  case sameRoles admin => exact ⟨account,rfl,bound,fun _ => roles admin,fun relied => (by cases relied)⟩
  case newRoles user created columns admin free =>
    refine ⟨{ account with toColumns := columns },?_,bound,fun _ => ?_,fun relied => (by cases relied)⟩
    · rw [opsAt_self]
      rfl
    · exact Prod.ext admin.1.symm admin.2.symm
  case sameGroups user created same =>
    rw [seenGroups] at same
    exact ⟨account,rfl,Facts.settled user bound (roles trivial) fun _ => same.symm.mem_iff⟩
  case newGroups => exact ⟨account,rfl,bound,roles,fun relied => (by cases relied)⟩
  case clear user created =>
    refine ⟨{ account with groups := account.groups.filter (· ∉ account.groups) },?_,bound,roles,fun _ group => ?_⟩
    · rw [opsAt_leaves,seenGroups]
      exact leave_all account.groups account
    · simp [toJoin]
  case joined user created =>
    refine ⟨account,rfl,Facts.settled user bound (roles trivial) fun group => ?_⟩
    simpa [toJoin] using groups rfl group
  case join user created group rest =>
    refine ⟨{ account with groups := if group ∈ account.groups then account.groups else account.groups ++ [group] },?_,
      bound,roles,fun _ other => ?_⟩
    · rw [opsAt_self]
      rfl
    · have wanted := groups rfl other
      rw [toJoin,List.mem_cons] at wanted
      rw [toJoin,← wanted]
      split
      · rename_i member
        constructor
        · rintro (old | later)
          · exact .inl old
          · exact .inr (.inr later)
        · rintro (old | rfl | later)
          · exact .inl old
          · exact .inl member
          · exact .inr later
      · simp [or_assoc]
  case bound user same =>
    rw [seenBinding] at same
    exact ⟨account,rfl,fun _ => boundTo_self fold same,roles,groups⟩
  case unbound => exact ⟨account,rfl,bound,roles,groups⟩
  case boundMeanwhile user same =>
    rw [seenBinding] at same
    exact ⟨account,rfl,fun _ => boundTo_self fold same,roles,groups⟩
  case bind user free =>
    rw [seenBinding] at free
    refine ⟨{ account with sub := some login.claims.sub },?_,fun _ => boundTo_self fold rfl,roles,groups⟩
    rw [opsAt_self]
    simp [Op.apply,free]

/-- A login that has its user goes on knowing it. -/
theorem Knows.go (knows : Knows fold rows session) {stage : Stage} {writes : Writes Op} {selected : List Nat} {drawn : Nat}
    (goes : Goes fold (view Op.apply rows session.writes) next session.stage session.stage.stage stage writes selected drawn) :
    Knows fold rows ⟨session.stage.move stage,session.writes ++ writes,session.selected ++ selected⟩ := by
  intro id own
  rw [Login.move_stage] at own
  rw [Login.move_stage,Login.move_claims,view_append]
  cases before : session.stage.stage.own with
  | some had =>
    obtain rfl : had = id := Option.some.inj ((goes.own_writes before).1.symm.trans own)
    obtain ⟨account,seen,facts⟩ := knows had before
    obtain ⟨later,written,facts⟩ := Facts.go rfl facts seen before goes
    exact ⟨later,by rw [seen]; exact written,facts⟩
  | none =>
    generalize session.stage.stage = stageBefore at goes before
    cases goes with
    | @found found bound =>
      obtain rfl : found = id := Option.some.inj own
      have listed : found ∈ query (view Op.apply rows session.writes) next (boundTo fold session.stage.claims.sub) :=
        bound ▸ List.mem_cons_self
      obtain ⟨_,account,seen,same⟩ := mem_query.mp listed
      exact ⟨account,seen,fun _ => same,fun relied => (by cases relied),fun relied => (by cases relied)⟩
    | @getUser user found =>
      obtain rfl : user.id = id := Option.some.inj own
      obtain ⟨_,account,seen,columns⟩ := findUser_found found
      exact ⟨account,seen,.unread columns⟩
    | @regetUser user found =>
      obtain rfl : user.id = id := Option.some.inj own
      obtain ⟨_,account,seen,columns⟩ := findUser_found found
      exact ⟨account,seen,.unread columns⟩
    | insertUser =>
      obtain rfl : next = id := Option.some.inj own
      rw [opsAt_self,List.foldl_cons,List.foldl_nil]
      cases view Op.apply rows session.writes next with
      | none => exact ⟨_,rfl,.unread rfl⟩
      | some account => exact ⟨_,rfl,.unread rfl⟩
    | fetch stored => cases before
    | notFound => cases own
    | archive => cases own
    | lockRows => cases own
    | archived => cases own
    | archiveNext => cases own
    | archiveDelete => cases own
    | archiveSave => cases own
    | noUser => cases own
    | taken => cases own
    | _ => cases before

end Statements

/-! ### Steps and runs -/

/-- The logins are sound and know their users. -/
structure Established (fold : Char → Char) (system : System Account Op Login) : Prop where
  sound : LoginsSound fold system
  knows : system.Each fun rows _ session => Knows fold rows session

section Steps
variable {fold : Char → Char} {system : System Account Op Login}

theorem fresh_knows (rows : Db) {login : Login} (fresh : login.stage.Fresh) : Knows fold rows ⟨login,[],[]⟩ := by
  intro id own
  rcases fresh with stage | stage | ⟨_,stage⟩ <;> rw [stage] at own <;> cases own

theorem step_established (action : Action Claims) (established : Established fold system) (calm : Calm system action) :
    Established fold (system.step (rules fold) action) := by
  refine ⟨step_sound established.sound action,step_logins established.knows action ?_ ?_ ?_ ?_ ?_⟩
  · exact fun _ fresh => fresh_knows _ fresh
  · exact fun _ _ _ knows => knows
  · exact fun _ _ _ _ _ _ _ _ knows goes => knows.go goes
  · exact fun _ id _ _ => fresh_knows _ (.inr (.inr ⟨id,rfl⟩))
  · intro i j session other id running differs found there knows stage keys
    exact knows.undisturbed fun own named => calm i running session id found stage keys j other own differs there named

theorem goes_unreturned {view : Db} {next : Nat} {login : Login} {before after : Stage} {writes : Writes Op}
    {selected : List Nat} {drawn : Nat} (goes : Goes fold view next login before after writes selected drawn) (id : Nat) :
    after ≠ .returned id := by
  have settled : ∀ user created, afterGroups user created ≠ .returned id := by
    rintro user (_ | _) <;> simp [afterGroups]
  cases goes <;> first | exact settled _ _ | simp

/-- A commit leaves the roles and groups of users that are bound to another `sub`. -/
theorem commit_spares {session : Session Login Op} {rows : Db} {next own : Nat} (sound : Sound rows next session)
    (knows : Knows fold rows session) (stage : session.stage.stage = .commit own) {id : Nat} {account later : Account}
    {sub : Text} (stored : rows id = some account) (bound : account.sub = some sub)
    (other : iexact fold sub session.stage.claims.sub = false) (seen : view Op.apply rows session.writes id = some later) :
    later.roles = account.roles ∧ later.groups = account.groups := by
  have named : session.stage.stage.own = some own := by rw [stage]; rfl
  by_cases self : id = own
  · -- the own user is bound to the claimed `sub`, as it was when the row was stored
    subst self
    obtain ⟨found,there,facts⟩ := knows id named
    obtain ⟨kept,same,keeps⟩ := view_undeleted (sound.own id named) stored
    rw [same,Option.some.injEq] at there
    have claimed := facts.bound (by rw [stage]; rfl)
    rw [← there,boundTo,keeps sub bound,Option.any_some,other] at claimed
    cases claimed
  · cases sound.others id (by rw [named]; exact fun equal => self (Option.some.inj equal).symm) with
    | clean unwritten =>
      rw [view_unwritten unwritten,stored] at seen
      cases seen
      exact ⟨rfl,rfl⟩
    | deleted before ops =>
      rw [view_deleted ops] at seen
      cases seen
    | archived archived held long ops =>
      rw [held] at stored
      cases stored
      rw [view_archived held ops] at seen
      cases seen
      exact ⟨rfl,rfl⟩

theorem run_safe (established : Established fold system) {i : Nat} {after : System Account Op Login}
    (ran : Ran (rules fold) system i after) : SafeChange fold system (.run i) after := by
  have kept : ∀ {stage : Login} {writes : Writes Op} {selected : List Nat} {next : Nat},
      (∀ id, stage.stage ≠ .returned id) →
        SafeChange fold system (.run i) ⟨system.rows,next,(system.replace i ⟨stage,writes,selected⟩).sessions⟩ := by
    intro stage writes selected next unreturned
    refine ⟨?_,?_,.inl rfl⟩
    · intro j session id there returned
      rcases set_cases there with ⟨_,rfl⟩ | ⟨_,before⟩
      · exact absurd returned (unreturned id)
      · exact .inl ⟨session,before,returned⟩
    · intro j session _ _ id account sub stored _ _ later seen
      rw [stored] at seen
      cases seen
      exact ⟨rfl,rfl⟩
  cases ran with
  | stay =>
    refine ⟨fun j session id there returned => .inl ⟨session,there,returned⟩,?_,.inl rfl⟩
    intro j session _ _ id account sub stored _ _ later seen
    rw [stored] at seen
    cases seen
    exact ⟨rfl,rfl⟩
  | go found performed free clear =>
    obtain ⟨stage,rfl,goes⟩ := perform_go performed
    exact kept (goes_unreturned goes)
  | restart found performed =>
    refine kept fun id => ?_
    rcases perform_restart performed with stage | stage <;> simp [stage]
  | @commit session waits login found performed =>
    obtain ⟨own,stage,rfl,_⟩ := perform_commit performed
    have knows := established.knows i session found
    refine ⟨?_,?_,?_⟩
    · intro j other id there returned
      rcases set_cases there with ⟨_,rfl⟩ | ⟨_,before⟩
      · cases returned
        obtain ⟨account,seen,facts⟩ := knows own (by rw [stage]; rfl)
        rw [stage] at facts
        refine .inr ⟨account,seen,facts.bound rfl,fun group => ?_,?_,?_⟩
        · simpa [toJoin] using facts.groups rfl group
        · exact congrArg Prod.fst (facts.roles trivial)
        · exact congrArg Prod.snd (facts.roles trivial)
      · exact .inl ⟨other,before,returned⟩
    · rintro j other ⟨⟩ there id account sub stored bound differs later seen
      rw [found] at there
      cases there
      exact commit_spares (established.sound.each i session found) knows stage stored bound differs seen
    · refine .inr ⟨i,session,⟨session.stage.move (.returned own),[],[]⟩,own,rfl,found,stage,?_,rfl⟩
      exact List.getElem?_set_self (List.getElem?_eq_some_iff.mp found).1

theorem step_safe (established : Established fold system) (action : Action Claims) : Safe fold system action := by
  cases action with
  | run i => exact run_safe established (run_ran (rules fold) system i)
  | begin claims =>
    refine ⟨?_,fun i session impossible => (by cases impossible),.inl rfl⟩
    intro i session id there returned
    rcases append_cases there with before | ⟨_,rfl⟩
    · exact .inl ⟨session,before,returned⟩
    · rcases start_fresh claims with stage | stage
      · exact absurd (stage.symm.trans returned) (by simp)
      · exact absurd (stage.symm.trans returned) (by simp)
  | abort i =>
    unfold Safe
    simp only [System.step]
    cases found : system.sessions[i]? with
    | none =>
      refine ⟨?_,fun i session impossible => (by cases impossible),.inl rfl⟩
      exact fun j session id there returned => .inl ⟨session,there,returned⟩
    | some session =>
      refine ⟨?_,fun i session impossible => (by cases impossible),.inl rfl⟩
      intro j other id there returned
      rcases set_cases there with ⟨rfl,rfl⟩ | ⟨_,before⟩
      · have aborted : session.stage.aborted.stage = .returned id := returned
        unfold Login.aborted at aborted
        split at aborted
        · rename_i stage
          exact .inl ⟨session,found,stage.trans aborted⟩
        · cases aborted
      · exact .inl ⟨other,before,returned⟩

end Steps

theorem database_established (fold : Char → Char) (database : Database) : Established fold database.system where
  sound := database_sound fold database
  knows := fun i session here => by cases here

/-- In every run of logins in which no commit changes what another login relies on, each
    step is safe: a login returns a user as claimed, it leaves users of other identities
    their roles and groups, and one that raises leaves the database as it was. -/
theorem identities_safe (fold : Char → Char) (database : Database) (actions : List (Action Claims))
    (calm : Along (System.step (rules fold)) Calm database.system actions) :
    Along (System.step (rules fold)) (Safe fold) database.system actions := by
  have established := calm.and_invariant (fun _ action => step_established action) (database_established fold database)
  exact established.imp fun _ action held => step_safe held.1 action

/-- A `sub` of one identity, with a name and groups. -/
def foo (groups : List String) : Claims :=
  ⟨"s".toList,by decide,some "foo".toList,false,.names (groups.map String.toList)⟩

/-- The user of that identity, without groups. -/
def fooDatabase : Database where
  rows := fun id => if id = 0 then some ⟨⟨"foo".toList,false,false,true⟩,some "s".toList,[]⟩ else none
  next := 1
  bounded := fun id stored => by
    by_cases first : id = 0
    · omega
    · rw [if_neg first] at stored
      cases stored

/-- Two logins of the user, of which the second has found it and compared its roles when the first
    commits; it finds the groups of the first, clears them and joins its own. -/
def interleavedLogins : List (Action Claims) :=
  [.begin (foo ["b"]),.begin (foo ["c"])] ++ List.replicate 4 (.run 0) ++ List.replicate 4 (.run 1) ++
    List.replicate 5 (.run 0) ++ List.replicate 5 (.run 1)

theorem interleavedLogins_safe :
    Along (System.step (rules id)) (Safe id) fooDatabase.system interleavedLogins ∧
      (interleavedLogins.foldl (System.step (rules id)) fooDatabase.system).sessions.map
        (fun session => session.stage.stage) = [.returned 0,.returned 0] :=
  ⟨identities_safe id fooDatabase interleavedLogins (by decide +kernel),by decide +kernel⟩

/-- Two logins of the user find no groups and clear them, and then each joins its own. -/
def crossedLogins : List (Action Claims) :=
  [.begin (foo ["b"]),.begin (foo ["c"])] ++ List.replicate 6 (.run 0) ++ List.replicate 6 (.run 1) ++
    List.replicate 3 (.run 0) ++ List.replicate 2 (.run 1)

/-- The second of them returns a user that has the groups of both. -/
theorem crossedLogins_unsafe :
    ¬ Along (System.step (rules id)) (Safe id) fooDatabase.system (crossedLogins ++ [.run 1]) := by
  intro along
  have safe := along.last
  have stages : ((((crossedLogins.foldl (System.step (rules id)) fooDatabase.system).step (rules id) (.run 1)).sessions[1]?).map
      fun session => (session.stage.stage,session.stage.claims.wanted)) = some (.returned 0,["c".toList]) := by
    decide +kernel
  have earlier : ((crossedLogins.foldl (System.step (rules id)) fooDatabase.system).sessions.map
      fun session => session.stage.stage) = [.returned 0,.commit 0] := by
    decide +kernel
  have groups : (((crossedLogins.foldl (System.step (rules id)) fooDatabase.system).step (rules id) (.run 1)).rows 0).map
      Account.groups = some ["b".toList,"c".toList] := by
    decide +kernel
  obtain ⟨session,there,stage⟩ := Option.map_eq_some_iff.mp stages
  obtain ⟨returned,wanted⟩ := Prod.mk.inj stage
  rcases safe.returned 1 session 0 there returned with ⟨before,was,stayed⟩ | ⟨account,stored,identified⟩
  · have committing := congrArg (fun stages => stages[1]?) earlier
    rw [List.getElem?_map,was,Option.map_some,stayed] at committing
    cases committing
  · rw [stored,Option.map_some,Option.some.injEq] at groups
    have claimed := (identified.groups "b".toList).mp (by rw [groups]; decide)
    rw [wanted] at claimed
    revert claimed
    decide

end OasisPlatform.OidcIdentity
