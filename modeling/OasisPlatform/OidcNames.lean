import OasisPlatform.OidcWrites

/-!
Usernames of the accounts. A save is refused when another user has the name, and waits for
one that gives it and is not committed, so that no step of the logins gives two users one
name (`step_names`).
-/
namespace OasisPlatform.OidcNames
open OasisPlatform.PathText OasisPlatform.ReadCommitted OasisPlatform.OidcLogins OasisPlatform.OidcWrites
set_option linter.unusedSimpArgs false

def nameOf (account : Account) : Text := account.username

def nameAt (rows : Db) (id : Nat) : Option Text := (rows id).map nameOf

/-- No two users have one name. -/
def Unique (rows : Db) : Prop := ∀ id other name, nameAt rows id = some name → nameAt rows other = some name → id = other

/-- A database whose usernames are unique. -/
structure Users extends Database where
  unique : Unique rows

/-- Operations on a row leave its name, or what it is afterwards does not depend on the row:
    then it has the name of one of the saves, if it is there. -/
theorem names_written (ops : List Op) :
    (∀ row : Option Account, (ops.foldl (fun row op => Op.apply op row) row).map nameOf = row.map nameOf) ∨
      ∃ name, (∀ row : Option Account, (ops.foldl (fun row op => Op.apply op row) row).map nameOf = name) ∧
        ∀ text, name = some text → ∃ columns, .save columns ∈ ops ∧ columns.username = text := by
  induction ops with
  | nil => exact .inl fun row => rfl
  | cons op rest ih =>
    rcases ih with keeps | ⟨name,fixed,saved⟩
    · cases op with
      | save columns =>
        refine .inr ⟨some columns.username,fun row => (keeps _).trans ?_,?_⟩
        · cases row <;> rfl
        · rintro _ ⟨⟩
          exact ⟨columns,List.mem_cons_self,rfl⟩
      | delete => exact .inr ⟨none,fun row => keeps none,fun text impossible => (by cases impossible)⟩
      | bind sub => exact .inl fun row => (keeps _).trans (by cases row <;> rfl)
      | leave group => exact .inl fun row => (keeps _).trans (by cases row <;> rfl)
      | join group => exact .inl fun row => (keeps _).trans (by cases row <;> rfl)
    · refine .inr ⟨name,fun row => fixed _,fun text named => ?_⟩
      obtain ⟨columns,listed,same⟩ := saved text named
      exact ⟨columns,List.mem_cons_of_mem _ listed,same⟩

theorem view_names (writes : Writes Op) (id : Nat) :
    (∀ rows, nameAt (view Op.apply rows writes) id = nameAt rows id) ∨
      ∃ name, (∀ rows, nameAt (view Op.apply rows writes) id = name) ∧
        ∀ text, name = some text → ∃ columns, (id,.save columns) ∈ writes ∧ columns.username = text := by
  rcases names_written (opsAt writes id) with keeps | ⟨name,fixed,saved⟩
  · exact .inl fun rows => keeps (rows id)
  · refine .inr ⟨name,fun rows => fixed (rows id),fun text named => ?_⟩
    obtain ⟨columns,listed,same⟩ := saved text named
    exact ⟨columns,mem_opsAt.mp listed,same⟩

/-- Other operations than saves give no names. -/
theorem names_unsaved {ops : List Op} (unsaved : ∀ columns, .save columns ∉ ops) (row : Option Account) {name : Text}
    (named : (ops.foldl (fun row op => Op.apply op row) row).map nameOf = some name) :
    row.map nameOf = some name := by
  rcases names_written ops with keeps | ⟨result,fixed,saved⟩
  · exact (keeps row).symm.trans named
  · obtain ⟨columns,listed,_⟩ := saved name ((fixed row).symm.trans named)
    exact absurd listed (unsaved columns)

theorem conflicting_comm (write pending : Nat × Op) : conflicting write pending = conflicting pending write := by
  obtain ⟨id,op⟩ := write
  obtain ⟨other,second⟩ := pending
  cases op <;> cases second <;> simp [conflicting,eq_comm]

theorem conflicts_symm {fold : Char → Char} {first second : Writes Op} (clear : (rules fold).conflicts first second = false) :
    (rules fold).conflicts second first = false := by
  simp only [rules,List.any_eq_false,Bool.not_eq_true] at clear ⊢
  intro write listed pending earlier
  rw [conflicting_comm]
  exact clear pending earlier write listed

theorem saves_differ {fold : Char → Char} {first second : Writes Op} (clear : (rules fold).conflicts first second = false)
    {id other : Nat} {columns pending : Columns} (listed : (id,.save columns) ∈ first) (earlier : (other,.save pending) ∈ second)
    (same : columns.username = pending.username) : id = other := by
  simp only [rules,List.any_eq_false,Bool.not_eq_true] at clear
  simpa [conflicting,same] using clear _ listed _ earlier

/-- What one has named after a commit of the other is new to both. -/
theorem commit_differs {fold : Char → Char} {rows : Db} {first second : Writes Op} (unique : Unique (view Op.apply rows second))
    (clear : (rules fold).conflicts first second = false) {id other : Nat} {name : Text}
    (keeps : ∀ rows, nameAt (view Op.apply rows second) id = nameAt rows id)
    (here : nameAt (view Op.apply rows first) id = some name) (there : nameAt (view Op.apply rows second) other = some name)
    (saved : ∃ columns, (other,.save columns) ∈ second ∧ columns.username = name) : id = other := by
  rcases view_names first id with untouched | ⟨result,fixed,given⟩
  · rw [untouched] at here
    exact unique id other name ((keeps rows).trans here) there
  · obtain ⟨columns,listed,named⟩ := given name ((fixed rows).symm.trans here)
    obtain ⟨pending,earlier,same⟩ := saved
    exact saves_differ clear listed earlier (named.trans same.symm)

/-- Names stay unique for a login when another commits. -/
theorem commit_unique {fold : Char → Char} {rows : Db} {first second : Writes Op}
    (uniqueFirst : Unique (view Op.apply rows first))
    (uniqueSecond : Unique (view Op.apply rows second)) (clear : (rules fold).conflicts first second = false) :
    Unique (view Op.apply (view Op.apply rows first) second) := by
  intro id other name here there
  rcases view_names second id with keeps | ⟨result,fixed,saved⟩
  · rw [keeps] at here
    rcases view_names second other with keepsOther | ⟨result,fixed,saved⟩
    · rw [keepsOther] at there
      exact uniqueFirst id other name here there
    · rw [fixed] at there
      exact commit_differs uniqueSecond clear keeps here ((fixed rows).trans there) (saved name there)
  · rw [fixed] at here
    rcases view_names second other with keepsOther | ⟨resultOther,fixedOther,savedOther⟩
    · rw [keepsOther] at there
      exact (commit_differs uniqueSecond clear keepsOther there ((fixed rows).trans here) (saved name here)).symm
    · rw [fixedOther] at there
      exact uniqueSecond id other name ((fixed rows).trans here) ((fixedOther rows).trans there)

/-- A statement that saves a user has found its name to be free. -/
theorem goes_saves {fold : Char → Char} {view : Db} {next : Nat} {login : Login} {before after : Stage} {writes : Writes Op}
    {selected : List Nat} {drawn : Nat} (goes : Goes fold view next login before after writes selected drawn) :
    (∀ write ∈ writes, ∀ columns, write.2 ≠ .save columns) ∨
      ∃ id columns, writes = [(id,.save columns)] ∧ NameFree view next id columns.username := by
  cases goes
  case newName free => exact .inr ⟨_,_,rfl,free⟩
  case newRoles free => exact .inr ⟨_,_,rfl,free⟩
  case archiveSave free => exact .inr ⟨_,_,rfl,free⟩
  case insertUser free => exact .inr ⟨_,_,rfl,free⟩
  all_goals exact .inl (by simp)

theorem name_saved (rows : Db) (writes : Writes Op) (id : Nat) (columns : Columns) (other : Nat) :
    nameAt (view Op.apply rows (writes ++ [(id,.save columns)])) other =
      if other = id then some columns.username else nameAt (view Op.apply rows writes) other := by
  rw [nameAt,view_append]
  by_cases self : other = id
  · subst self
    rw [if_pos rfl]
    cases seen : view Op.apply rows writes other <;> simp [opsAt,Op.apply,nameOf]
  · have apart : opsAt [(id,Op.save columns)] other = [] := opsAt_other fun write listed => by
      rw [List.mem_singleton.mp listed]
      exact Ne.symm self
    rw [if_neg self,apart]
    rfl

theorem only_named {view : Db} {next id other : Nat} {name : Text} (free : NameFree view next id name)
    (bounded : ∀ id, (view id).isSome = true → id < next) (named : nameAt view other = some name) : other = id := by
  obtain ⟨account,stored,same⟩ := Option.map_eq_some_iff.mp named
  exact free other (mem_query.mpr ⟨bounded other (by simp [stored]),account,stored,decide_eq_true same⟩)

theorem go_unique {fold : Char → Char} {rows : Db} {next : Nat} {writes new : Writes Op} {login : Login} {before after : Stage}
    {selected : List Nat} {drawn : Nat} (unique : Unique (view Op.apply rows writes))
    (bounded : ∀ id, (view Op.apply rows writes id).isSome = true → id < next)
    (goes : Goes fold (view Op.apply rows writes) next login before after new selected drawn) :
    Unique (view Op.apply rows (writes ++ new)) := by
  rcases goes_saves goes with unsaved | ⟨id,columns,rfl,free⟩
  · have before : ∀ id name, nameAt (view Op.apply rows (writes ++ new)) id = some name →
        nameAt (view Op.apply rows writes) id = some name := by
      intro id name named
      rw [nameAt,view_append] at named
      exact names_unsaved (fun columns listed => unsaved _ (mem_opsAt.mp listed) columns rfl) _ named
    exact fun id other name here there => unique id other name (before id name here) (before other name there)
  · intro first second name here there
    rw [name_saved] at here there
    by_cases self : first = id
    · rw [if_pos self] at here
      by_cases selfToo : second = id
      · exact self.trans selfToo.symm
      · rw [if_neg selfToo] at there
        exact absurd (only_named free bounded (there.trans here.symm)) selfToo
    · rw [if_neg self] at here
      by_cases selfToo : second = id
      · rw [if_pos selfToo] at there
        exact absurd (only_named free bounded (here.trans there.symm)) self
      · rw [if_neg selfToo] at there
        exact unique first second name here there

/-- The users have ids below the next one. -/
def Bounded (system : System Account Op Login) : Prop := ∀ id, (system.rows id).isSome = true → id < system.next

/-- Names are unique in what is committed and in what each login sees, and the saves of two
    logins give different names. -/
structure NamesSound (fold : Char → Char) (system : System Account Op Login) : Prop where
  bounded : Bounded system
  rows : Unique system.rows
  each : system.Each fun rows _ session => Unique (view Op.apply rows session.writes)
  clear : system.Pairs fun session other => (rules fold).conflicts session.writes other.writes = false

theorem view_bounded {rows : Db} {next : Nat} {writes : Writes Op} (bounded : ∀ id, (rows id).isSome = true → id < next)
    (written : ∀ write ∈ writes, write.1 < next) (id : Nat) (seen : (view Op.apply rows writes id).isSome = true) :
    id < next := by
  by_cases touched : ∃ write ∈ writes, write.1 = id
  · obtain ⟨write,listed,rfl⟩ := touched
    exact written write listed
  · have unwritten : opsAt writes id = [] := opsAt_other fun write listed same => touched ⟨write,listed,same⟩
    rw [view_unwritten unwritten] at seen
    exact bounded id seen

theorem step_clear {fold : Char → Char} {system : System Account Op Login}
    (clear : system.Pairs fun session other => (rules fold).conflicts session.writes other.writes = false) (action : Action Claims) :
    (system.step (rules fold) action).Pairs fun session other => (rules fold).conflicts session.writes other.writes = false := by
  refine step_pairs (fun _ _ => conflicts_symm) (fun _ _ => rfl) ?_ clear action
  intro session other stage writes selected old _ new
  simp only [rules,List.any_append,Bool.or_eq_false_iff] at old new ⊢
  exact ⟨old,new⟩

theorem step_names {fold : Char → Char} {system : System Account Op Login} (sound : LoginsSound fold system)
    (names : NamesSound fold system) (action : Action Claims) : NamesSound fold (system.step (rules fold) action) := by
  obtain ⟨grown,changed⟩ := step_rows (rules fold) system action
  refine ⟨?_,?_,?_,step_clear names.clear action⟩
  · intro id stored
    rcases changed with same | ⟨i,session,_,_,_,found,_,same⟩
    · rw [same] at stored
      exact (names.bounded id stored).trans_le grown
    · rw [same] at stored
      exact (view_bounded names.bounded (sound.each i session found).written id stored).trans_le grown
  · rcases changed with same | ⟨i,session,_,_,_,found,_,same⟩
    · exact same ▸ names.rows
    · exact same ▸ names.each i session found
  · refine step_logins names.each action ?_ ?_ ?_ ?_ ?_
    · exact fun _ _ => names.rows
    · exact fun _ _ _ held => held
    · intro i session stage writes selected drawn _ found held goes
      exact go_unique held (view_bounded names.bounded (sound.each i session found).written) goes
    · exact fun _ _ held _ => held
    · intro i j session other id _ differs found there held _ _
      exact commit_unique (names.each i session found) held (names.clear i j session other (Ne.symm differs) found there)

theorem users_names (fold : Char → Char) (users : Users) : NamesSound fold users.system where
  bounded := users.bounded
  rows := users.unique
  each := fun i session here => by cases here
  clear := fun i j session other _ here => by cases here

end OasisPlatform.OidcNames
