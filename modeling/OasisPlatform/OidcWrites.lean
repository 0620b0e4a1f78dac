import OasisPlatform.OidcLogins

/-!
What logins write. A login sets roles and groups of its own user only; what it has written
to any other user is at most that it is archived as it is stored, under a lock, or deleted
(`Shape`). This holds of all logins after every step, whatever the others do (`step_sound`).
-/
namespace OasisPlatform.OidcWrites
open OasisPlatform.PathText OasisPlatform.ReadCommitted OasisPlatform.OidcLogins
set_option linter.unusedSimpArgs false

/-- What is written to a user that is not the login's own: nothing, that it is deleted, or
    that it is archived as it is stored, with a name as long as the claimed one. -/
inductive Shape (rows : Db) (sub name : Text) (writes : Writes Op) (id : Nat) : Prop
  | clean (none : opsAt writes id = [])
  | deleted (before : List Op) (ops : opsAt writes id = before ++ [.delete])
  | archived (account : Account) (stored : rows id = some account) (long : account.username.length = name.length)
      (ops : opsAt writes id = [.save (archivedColumns sub account.columns)])

/-- Users that are still to be archived: they are locked, stored as they were loaded, and
    nothing is written to them. -/
structure Candidate (rows : Db) (session : Session Login Op) (user : Loaded) : Prop where
  selected : user.id ∈ session.selected
  unwritten : opsAt session.writes user.id = []
  stored : (rows user.id).map Account.columns = some user.columns
  long : user.columns.username.length = session.stage.username.length

def Candidates (rows : Db) (session : Session Login Op) (users : List Loaded) : Prop :=
  (users.map Loaded.id).Nodup ∧ ∀ user ∈ users, Candidate rows session user

def StageSound (rows : Db) (session : Session Login Op) : Prop :=
  match session.stage.stage with
  | .lookup => session.writes = []
  | .archive => session.writes = []
  | .lockRows ids => session.writes = [] ∧ ids.Nodup
  | .archiveNext users => Candidates rows session users
  | .archiveDelete ids user users => Candidates rows session (user :: users) ∧ ∀ other ∈ user :: users, other.id ∉ ids
  | .archiveSave user users => Candidates rows session (user :: users)
  | _ => True

structure Sound (rows : Db) (next : Nat) (session : Session Login Op) : Prop where
  written : ∀ write ∈ session.writes, write.1 < next
  known : ∀ id ∈ session.stage.stage.ids, id < next
  others : ∀ id, session.stage.stage.own ≠ some id → Shape rows session.stage.claims.sub session.stage.username session.writes id
  own : ∀ id, session.stage.stage.own = some id → Op.delete ∉ opsAt session.writes id
  stage : StageSound rows session

theorem mem_query {view : Db} {next id : Nat} {found : Account → Bool} :
    id ∈ query view next found ↔ id < next ∧ ∃ account, view id = some account ∧ found account = true := by
  simp [query,Option.any_eq_true]

theorem query_nodup (view : Db) (next : Nat) (found : Account → Bool) : (query view next found).Nodup :=
  List.filter_sublist.nodup List.nodup_range

theorem findUser_found {login : Login} {view : Db} {next : Nat} {user : Loaded} (found : findUser login view next = some user) :
    user.id < next ∧ ∃ account, view user.id = some account ∧ account.columns = user.columns := by
  obtain ⟨id,listed,loaded⟩ := List.exists_of_findSome?_eq_some found
  obtain ⟨account,stored,rfl⟩ := Option.map_eq_some_iff.mp loaded
  exact ⟨(mem_query.mp listed).1,account,stored,rfl⟩

theorem mem_lockRows {fold : Char → Char} {login : Login} {view : Db} {ids : List Nat} {user : Loaded}
    (listed : user ∈ lockRows fold login view ids) :
    user.id ∈ ids ∧ (view user.id).map Account.columns = some user.columns ∧
      iexact fold user.columns.username login.username = true := by
  obtain ⟨id,member,loaded⟩ := List.mem_filterMap.mp listed
  cases stored : view id with
  | none => simp [stored] at loaded
  | some account =>
    by_cases named : iexact fold account.username login.username = true
    · simp only [stored,if_pos named,Option.some.injEq] at loaded
      subst loaded
      exact ⟨member,by simp [stored],named⟩
    · simp [stored,named] at loaded

theorem lockRows_sublist (fold : Char → Char) (login : Login) (view : Db) (ids : List Nat) :
    ((lockRows fold login view ids).map Loaded.id).Sublist ids := by
  induction ids with
  | nil => exact List.Sublist.refl _
  | cons id rest ih =>
    rw [lockRows,List.filterMap_cons]
    split
    · exact ih.cons id
    · rename_i user loaded
      have same : user.id = id := by
        split at loaded
        · split at loaded
          · cases loaded
            rfl
          · cases loaded
        · cases loaded
      rw [List.map_cons,same]
      exact ih.cons_cons id

theorem iexact_length {fold : Char → Char} {left right : Text} (same : iexact fold left right = true) :
    left.length = right.length := by
  simpa using congrArg List.length (of_decide_eq_true same)

theorem columns_kept (op : Op) (unlocked : op.locking = false) (row : Option Account) :
    (op.apply row).map Account.columns = row.map Account.columns := by
  cases op <;> cases row <;> first | rfl | cases unlocked

theorem view_unwritten {rows : Db} {writes : Writes Op} {id : Nat} (unwritten : opsAt writes id = []) :
    view Op.apply rows writes id = rows id := by
  simp [view,unwritten]

theorem view_deleted {rows : Db} {writes : Writes Op} {id : Nat} {before : List Op}
    (ops : opsAt writes id = before ++ [.delete]) : view Op.apply rows writes id = none := by
  simp [view,ops,Op.apply]

theorem view_archived {rows : Db} {writes : Writes Op} {id : Nat} {sub : Text} {account : Account}
    (stored : rows id = some account)
    (ops : opsAt writes id = [.save (archivedColumns sub account.columns)]) :
    view Op.apply rows writes id = some { account with toColumns := archivedColumns sub account.columns } := by
  simp [view,ops,stored,Op.apply]

theorem foldl_undeleted {ops : List Op} (kept : Op.delete ∉ ops) (account : Account) :
    ∃ later, ops.foldl (fun row op => op.apply row) (some account) = some later ∧
      ∀ sub, account.sub = some sub → later.sub = some sub := by
  induction ops generalizing account with
  | nil => exact ⟨account,rfl,fun _ bound => bound⟩
  | cons op rest ih =>
    rw [List.mem_cons,not_or] at kept
    rw [List.foldl_cons]
    cases op with
    | save columns => exact ih kept.2 _
    | delete => exact absurd rfl kept.1
    | bind other =>
      obtain ⟨later,written,stays⟩ := ih kept.2 { account with sub := some (account.sub.getD other) }
      exact ⟨later,written,fun sub bound => stays sub (by simp [bound])⟩
    | leave group => exact ih kept.2 _
    | join group => exact ih kept.2 _

/-- A user that is not deleted stays there, and bound if it is. -/
theorem view_undeleted {rows : Db} {writes : Writes Op} {id : Nat} {account : Account} (kept : Op.delete ∉ opsAt writes id)
    (stored : rows id = some account) :
    ∃ later, view Op.apply rows writes id = some later ∧ ∀ sub, account.sub = some sub → later.sub = some sub := by
  rw [view,stored]
  exact foldl_undeleted kept account

theorem Shape.append {rows : Db} {sub name : Text} {writes new : Writes Op} {id : Nat}
    (shape : Shape rows sub name writes id) (apart : opsAt new id = []) : Shape rows sub name (writes ++ new) id := by
  have same : opsAt (writes ++ new) id = opsAt writes id := by rw [opsAt_append,apart,List.append_nil]
  cases shape with
  | clean none => exact .clean (same.trans none)
  | deleted before ops => exact .deleted before (same.trans ops)
  | archived account stored long ops => exact .archived account stored long (same.trans ops)

/-- A user that the login still sees has not been deleted by it. -/
theorem Shape.kept {rows : Db} {sub name : Text} {writes : Writes Op} {id : Nat} (shape : Shape rows sub name writes id)
    (seen : (view Op.apply rows writes id).isSome = true) : Op.delete ∉ opsAt writes id := by
  cases shape with
  | clean none => simp [none]
  | deleted before ops =>
    rw [view_deleted ops] at seen
    cases seen
  | archived account stored long ops => simp [ops]

theorem Candidate.append {rows : Db} {session : Session Login Op} {user : Loaded} (candidate : Candidate rows session user)
    (stage : Stage) {new : Writes Op} (selected : List Nat) (apart : opsAt new user.id = []) :
    Candidate rows ⟨session.stage.move stage,session.writes ++ new,session.selected ++ selected⟩ user where
  selected := List.mem_append_left _ candidate.selected
  unwritten := by rw [opsAt_append,candidate.unwritten,apart]; rfl
  stored := candidate.stored
  long := candidate.long

theorem stageSound_own {rows : Db} {session : Session Login Op} {id : Nat} (own : session.stage.stage.own = some id) :
    StageSound rows session := by
  unfold StageSound
  cases stage : session.stage.stage <;> rw [stage] at own <;> trivial

/-! ### Logins stay sound -/

section Sound
variable {fold : Char → Char} {rows : Db} {next : Nat} {session : Session Login Op}

theorem Sound.own_go (sound : Sound rows next session) {stage : Stage} {writes : Writes Op} {selected : List Nat} {drawn id : Nat}
    (goes : Goes fold (view Op.apply rows session.writes) next session.stage session.stage.stage stage writes selected drawn)
    (own : session.stage.stage.own = some id) :
    Sound rows (next + drawn) ⟨session.stage.move stage,session.writes ++ writes,session.selected ++ selected⟩ := by
  obtain ⟨stays,rfl,alone⟩ := goes.own_writes own
  have below : id < next := sound.known id (by rw [Stage.own_ids own]; exact List.mem_cons_self)
  refine ⟨?_,?_,?_,?_,stageSound_own stays⟩
  · intro write listed
    rcases List.mem_append.mp listed with old | new
    · exact sound.written write old
    · exact (alone write new).1 ▸ below
  · intro other known
    rw [Login.move_stage,Stage.own_ids stays,List.mem_singleton] at known
    exact known ▸ below
  · intro other differs
    rw [Login.move_stage,stays] at differs
    have apart : id ≠ other := fun same => differs (congrArg some same)
    refine (sound.others other (own ▸ differs)).append (opsAt_other fun write listed => ?_)
    exact (alone write listed).1 ▸ apart
  · intro other same
    rw [Login.move_stage,stays] at same
    rw [opsAt_append,List.mem_append,not_or]
    exact ⟨sound.own other (own.trans same),fun listed => (alone _ (mem_opsAt.mp listed)).2 rfl⟩

/-- A login that finds its user: what it has written there so far is no deletion. -/
theorem Sound.found (sound : Sound rows next session) (nobody : session.stage.stage.own = none) (stage : Stage) {id : Nat}
    (own : stage.own = some id) (below : id < next) (seen : (view Op.apply rows session.writes id).isSome = true) :
    Sound rows next ⟨session.stage.move stage,session.writes,session.selected⟩ where
  written := sound.written
  known := fun other known => by
    rw [Login.move_stage,Stage.own_ids own,List.mem_singleton] at known
    exact known ▸ below
  others := fun other _ => sound.others other (by simp [nobody])
  own := fun other same => by
    rw [Login.move_stage,own] at same
    cases same
    exact (sound.others id (by simp [nobody])).kept seen
  stage := stageSound_own own

/-- A login without a user goes on without one. -/
theorem Sound.none_go (sound : Sound rows next session) (stage : Stage) (stays : stage.own = none)
    {writes : Writes Op} {selected : List Nat} (written : ∀ write ∈ writes, write.1 < next)
    (known : ∀ id ∈ stage.ids, id < next)
    (others : ∀ id, Shape rows session.stage.claims.sub session.stage.username (session.writes ++ writes) id)
    (stageSound : StageSound rows ⟨session.stage.move stage,session.writes ++ writes,session.selected ++ selected⟩) :
    Sound rows next ⟨session.stage.move stage,session.writes ++ writes,session.selected ++ selected⟩ where
  written := fun write listed => (List.mem_append.mp listed).elim (sound.written write) (written write)
  known := known
  others := fun id _ => others id
  own := fun id own => by
    rw [Login.move_stage,stays] at own
    cases own
  stage := stageSound

/-- The view of a candidate is its stored row. -/
theorem Candidate.seen {user : Loaded} (candidate : Candidate rows session user) :
    (view Op.apply rows session.writes user.id).map Account.columns = some user.columns := by
  rw [view_unwritten candidate.unwritten]
  exact candidate.stored

/-- No candidate has the name that another is archived to. -/
theorem Candidate.kept {users : List Loaded} {user : Loaded} (candidates : Candidates rows session users)
    (listed : user ∈ users) :
    ∀ other ∈ users, other.id ∉ others fold session.stage (view Op.apply rows session.writes) next fun account =>
      account.username = archivedName user.columns.username session.stage.claims.sub := by
  intro other member found
  obtain ⟨_,account,stored,named⟩ := mem_query.mp found
  have columns := (candidates.2 other member).seen
  rw [stored,Option.map_some,Option.some.injEq] at columns
  rw [Bool.and_eq_true,decide_eq_true_eq] at named
  have lengths : other.columns.username.length = user.columns.username.length :=
    (candidates.2 other member).long.trans (candidates.2 user listed).long.symm
  rw [← columns] at lengths
  have longer := congrArg List.length named.1
  rw [archivedName,List.length_append,List.length_cons] at longer
  change account.username.length = _ at lengths
  omega

theorem opsAt_deletes {ids : List Nat} {id : Nat} (member : id ∈ ids) :
    ∃ before, opsAt (ids.map fun id => (id,Op.delete)) id = before ++ [.delete] := by
  have listed : Op.delete ∈ opsAt (ids.map fun id => (id,Op.delete)) id := mem_opsAt.mpr (List.mem_map_of_mem member)
  have only : ∀ op ∈ opsAt (ids.map fun id => (id,Op.delete)) id, op = .delete := by
    intro op written
    obtain ⟨_,_,same⟩ := List.mem_map.mp (mem_opsAt.mp written)
    exact (congrArg Prod.snd same).symm
  have nonempty := List.ne_nil_of_mem listed
  have last := only _ (List.getLast_mem nonempty)
  exact ⟨_,(last ▸ List.dropLast_append_getLast nonempty).symm⟩

theorem opsAt_spared {ids : List Nat} {id : Nat} (spared : id ∉ ids) : opsAt (ids.map fun id => (id,Op.delete)) id = [] := by
  refine opsAt_other fun write listed => ?_
  obtain ⟨deleted,member,rfl⟩ := List.mem_map.mp listed
  rintro rfl
  exact spared member

theorem Candidates.append {users : List Loaded} (candidates : Candidates rows session users) (stage : Stage)
    {new : Writes Op} (selected : List Nat) (apart : ∀ user ∈ users, opsAt new user.id = []) :
    Candidates rows ⟨session.stage.move stage,session.writes ++ new,session.selected ++ selected⟩ users :=
  ⟨candidates.1,fun user listed => (candidates.2 user listed).append stage selected (apart user listed)⟩

/-- Where nothing is written yet, the rows that are locked are candidates. -/
theorem lockRows_candidates {ids : List Nat} (nothing : session.writes = []) (distinct : ids.Nodup) (stage : Stage) :
    Candidates rows
      ⟨session.stage.move stage,session.writes ++ [],
        session.selected ++ (lockRows fold session.stage (view Op.apply rows session.writes) ids).map Loaded.id⟩
      (lockRows fold session.stage (view Op.apply rows session.writes) ids) := by
  have unwritten : ∀ id, opsAt session.writes id = [] := fun id => by rw [nothing]; rfl
  refine ⟨(lockRows_sublist fold _ _ ids).nodup distinct,fun user member => ?_⟩
  obtain ⟨_,stored,named⟩ := mem_lockRows member
  rw [view_unwritten (unwritten user.id)] at stored
  refine ⟨List.mem_append_right _ (List.mem_map_of_mem member),?_,stored,iexact_length named⟩
  rw [List.append_nil]
  exact unwritten user.id

theorem Shape.delete {sub name : Text} {writes : Writes Op} {id : Nat} (shape : Shape rows sub name writes id) (ids : List Nat) :
    Shape rows sub name (writes ++ ids.map fun id => (id,.delete)) id := by
  by_cases member : id ∈ ids
  · obtain ⟨before,deletes⟩ := opsAt_deletes member
    refine .deleted (opsAt writes id ++ before) ?_
    rw [opsAt_append,deletes,List.append_assoc]
  · exact shape.append (opsAt_spared member)

theorem Shape.archive {user : Loaded} (candidate : Candidate rows session user) {id : Nat}
    (shape : Shape rows session.stage.claims.sub session.stage.username session.writes id) :
    Shape rows session.stage.claims.sub session.stage.username
      (session.writes ++ [(user.id,.save (archivedColumns session.stage.claims.sub user.columns))]) id := by
  by_cases self : id = user.id
  · obtain ⟨account,stored,columns⟩ := Option.map_eq_some_iff.mp candidate.stored
    have long := candidate.long
    rw [← columns] at long
    refine .archived account (self ▸ stored) long ?_
    rw [self,opsAt_append,candidate.unwritten,columns]
    simp [opsAt]
  · refine shape.append (opsAt_other fun write listed => ?_)
    rw [List.mem_singleton.mp listed]
    exact Ne.symm self

/-- The users that are left when one of the candidates has been written to. -/
theorem Candidates.tail {user : Loaded} {users : List Loaded} (candidates : Candidates rows session (user :: users))
    (stage : Stage) (selected : List Nat) (op : Op) :
    Candidates rows ⟨session.stage.move stage,session.writes ++ [(user.id,op)],session.selected ++ selected⟩ users := by
  obtain ⟨distinct,each⟩ := candidates
  rw [List.map_cons,List.nodup_cons] at distinct
  refine ⟨distinct.2,fun other listed => ?_⟩
  refine (each other (List.mem_cons_of_mem _ listed)).append stage selected (opsAt_other fun write written => ?_)
  rw [List.mem_singleton.mp written]
  intro equal
  exact distinct.1 (List.mem_map.mpr ⟨other,listed,equal.symm⟩)

/-- The user that a login inserts is a new row. -/
theorem Sound.insert (sound : Sound rows next session)
    (shapes : ∀ id, Shape rows session.stage.claims.sub session.stage.username session.writes id) (columns : Columns) :
    Sound rows (next + 1)
      ⟨session.stage.move (.updateRoles ⟨next,columns⟩ true),session.writes ++ [(next,.save columns)],session.selected ++ []⟩ := by
  have unwritten : opsAt session.writes next = [] :=
    opsAt_other fun write listed => (sound.written write listed).ne
  refine ⟨?_,?_,?_,?_,trivial⟩
  · intro write listed
    rcases List.mem_append.mp listed with old | new
    · exact Nat.lt_succ_of_lt (sound.written write old)
    · rw [List.mem_singleton.mp new]
      exact Nat.lt_succ_self next
  · intro id listed
    rw [List.mem_singleton.mp listed]
    exact Nat.lt_succ_self next
  · intro id differs
    refine (shapes id).append (opsAt_other fun write listed => ?_)
    rw [List.mem_singleton.mp listed]
    exact fun equal => differs (congrArg some equal)
  · intro id self
    obtain rfl : next = id := Option.some.inj self
    rw [opsAt_append,unwritten]
    simp [opsAt]

theorem Sound.go (sound : Sound rows next session) {stage : Stage} {writes : Writes Op} {selected : List Nat} {drawn : Nat}
    (goes : Goes fold (view Op.apply rows session.writes) next session.stage session.stage.stage stage writes selected drawn) :
    Sound rows (next + drawn) ⟨session.stage.move stage,session.writes ++ writes,session.selected ++ selected⟩ := by
  cases own : session.stage.stage.own with
  | some id => exact sound.own_go goes own
  | none =>
    have shapes : ∀ id, Shape rows session.stage.claims.sub session.stage.username session.writes id :=
      fun id => sound.others id (by simp [own])
    have same : ∀ id, Shape rows session.stage.claims.sub session.stage.username (session.writes ++ []) id :=
      fun id => (shapes id).append rfl
    have nothing : ∀ write ∈ ([] : Writes Op), write.1 < next := by intro _ listed; cases listed
    have held := sound.stage
    have known := sound.known
    unfold StageSound at held
    generalize here : session.stage.stage = before at goes own held known
    have nobody : session.stage.stage.own = none := here ▸ own
    cases goes with
    | @found id bound =>
      have listed : id ∈ query (view Op.apply rows session.writes) next (boundTo fold session.stage.claims.sub) :=
        bound ▸ List.mem_cons_self
      obtain ⟨below,account,stored,_⟩ := mem_query.mp listed
      simpa using sound.found nobody (.fetch id) rfl below (by simp [stored])
    | notFound =>
      exact sound.none_go .archive rfl nothing (by intro _ listed; cases listed) same (by simpa [StageSound] using held)
    | archive =>
      refine sound.none_go (.lockRows _) rfl nothing (fun id listed => (mem_query.mp listed).1) same ⟨?_,query_nodup _ _ _⟩
      simpa using held
    | @lockRows ids =>
      obtain ⟨nothingYet,distinct⟩ := held
      refine sound.none_go (.archiveNext _) rfl nothing ?_ same (lockRows_candidates nothingYet distinct _)
      intro id listed
      obtain ⟨user,member,rfl⟩ := List.mem_map.mp listed
      exact known _ (mem_lockRows member).1
    | archived => exact sound.none_go .getUser rfl nothing (by intro _ listed; cases listed) same trivial
    | @archiveNext user users =>
      refine sound.none_go (.archiveDelete _ user users) rfl nothing ?_ same ⟨held.append _ _ fun _ _ => rfl,?_⟩
      · intro id listed
        rcases List.mem_append.mp listed with deleted | candidate
        · exact (mem_query.mp deleted).1
        · exact known id candidate
      · exact Candidate.kept held List.mem_cons_self
    | @archiveDelete ids user users =>
      obtain ⟨candidates,spared⟩ := held
      refine sound.none_go (.archiveSave user users) rfl ?_ ?_ (fun id => (shapes id).delete ids) ?_
      · intro write listed
        obtain ⟨id,member,rfl⟩ := List.mem_map.mp listed
        exact known id (List.mem_append_left _ member)
      · exact fun id listed => known id (List.mem_append_right _ listed)
      · exact candidates.append _ _ fun other listed => opsAt_spared (spared other listed)
    | @archiveSave user users =>
      have candidate := held.2 user List.mem_cons_self
      refine sound.none_go (.archiveNext users) rfl ?_ ?_ (fun id => (shapes id).archive candidate) (held.tail _ _ _)
      · intro write listed
        rw [List.mem_singleton.mp listed]
        exact known user.id List.mem_cons_self
      · exact fun id listed => known id (List.mem_cons_of_mem _ listed)
    | @getUser user found =>
      obtain ⟨below,account,stored,_⟩ := findUser_found found
      simpa using sound.found nobody (.updateRoles user true) rfl below (by simp [stored])
    | noUser => exact sound.none_go .insertUser rfl nothing (by intro _ listed; cases listed) same trivial
    | insertUser => exact sound.insert shapes _
    | taken => exact sound.none_go .regetUser rfl nothing (by intro _ listed; cases listed) same trivial
    | @regetUser user found =>
      obtain ⟨below,account,stored,_⟩ := findUser_found found
      simpa using sound.found nobody (.updateRoles user true) rfl below (by simp [stored])
    | fetch stored => cases own
    | _ => cases own

/-- A commit of another leaves what the locks of a login protect. -/
theorem Sound.other_commit (sound : Sound rows next session) {committing : Session Login Op}
    (apart : ∀ id ∈ session.locks (rules fold), id ∉ committing.locks (rules fold)) :
    Sound (view Op.apply rows committing.writes) next session := by
  have columns : ∀ id ∈ session.locks (rules fold),
      (view Op.apply rows committing.writes id).map Account.columns = (rows id).map Account.columns :=
    fun id locked => view_map_of_unlocked (rules fold) columns_kept (apart id locked) rows
  have candidates : ∀ users, Candidates rows session users → Candidates (view Op.apply rows committing.writes) session users := by
    rintro users ⟨distinct,each⟩
    refine ⟨distinct,fun user listed => ?_⟩
    have candidate := each user listed
    have kept := columns user.id (List.mem_append_left _ candidate.selected)
    exact ⟨candidate.selected,candidate.unwritten,kept.trans candidate.stored,candidate.long⟩
  refine ⟨sound.written,sound.known,?_,sound.own,?_⟩
  · intro id differs
    cases sound.others id differs with
    | clean none => exact .clean none
    | deleted before ops => exact .deleted before ops
    | archived account stored long ops =>
      have written : (id,Op.save (archivedColumns session.stage.claims.sub account.columns)) ∈ session.writes :=
        mem_opsAt.mp (ops ▸ List.mem_cons_self)
      have locked : id ∈ session.locks (rules fold) :=
        List.mem_append_right _ (List.mem_map.mpr ⟨_,List.mem_filter.mpr ⟨written,rfl⟩,rfl⟩)
      have kept := columns id locked
      rw [stored,Option.map_some] at kept
      obtain ⟨now,found,equal⟩ := Option.map_eq_some_iff.mp kept
      have same : now.username = account.username := congrArg Columns.username equal
      exact .archived now found (same ▸ long) (equal ▸ ops)
  · have held := sound.stage
    unfold StageSound at held ⊢
    split at held
    · exact held
    · exact held
    · exact held
    · exact candidates _ held
    · exact ⟨candidates _ held.1,held.2⟩
    · exact candidates _ held
    · trivial

/-- A transaction that has done nothing. -/
theorem fresh_sound (rows : Db) (next : Nat) {login : Login} (fresh : login.stage.Fresh) : Sound rows next ⟨login,[],[]⟩ := by
  have nobody : login.stage.own = none ∧ login.stage.ids = [] := by
    rcases fresh with stage | stage | ⟨id,stage⟩ <;> rw [stage] <;> exact ⟨rfl,rfl⟩
  refine ⟨?_,?_,fun _ _ => .clean rfl,?_,?_⟩
  · intro _ listed
    cases listed
  · intro id listed
    rw [nobody.2] at listed
    cases listed
  · intro id own
    rw [nobody.1] at own
    cases own
  · unfold StageSound
    rcases fresh with stage | stage | ⟨id,stage⟩ <;> simp [stage]

end Sound

/-- The logins are sound, and no row is locked by two. -/
structure LoginsSound (fold : Char → Char) (system : System Account Op Login) : Prop where
  apart : system.Apart (rules fold)
  each : system.Each Sound

theorem step_sound {fold : Char → Char} {system : System Account Op Login} (sound : LoginsSound fold system)
    (action : Action Claims) : LoginsSound fold (system.step (rules fold) action) := by
  refine ⟨step_apart sound.apart action,step_logins sound.each action ?_ ?_ ?_ ?_ ?_⟩
  · exact fun _ fresh => fresh_sound _ _ fresh
  · intro session later grown held
    exact ⟨fun write listed => (held.written write listed).trans_le grown,
      fun id listed => (held.known id listed).trans_le grown,held.others,held.own,held.stage⟩
  · exact fun _ _ _ _ _ _ _ _ held goes => held.go goes
  · exact fun _ id _ _ => fresh_sound _ _ (.inr (.inr ⟨id,rfl⟩))
  · intro i j session other id _ differs found there held _ _
    exact held.other_commit (sound.apart j i other session differs there found)

theorem database_sound (fold : Char → Char) (database : Database) : LoginsSound fold database.system where
  apart := fun i j session other _ here => by cases here
  each := fun i session here => by cases here

end OasisPlatform.OidcWrites
