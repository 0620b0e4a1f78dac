import Mathlib.Data.List.Basic

/-!
Transactions that read what is committed, each statement anew, and their own writes. A row
that one of them has selected for update, or written under a lock, is written under a lock
by no other until it ends (`Apart`, `step_apart`), so what others commit leaves the columns
that only such writes change (`view_map_of_unlocked`). What blocked statements keep of every
two transactions is an invariant (`step_pairs`). A property of each transaction is an
invariant when its own statements and the commits of the others keep it (`step_each`).
-/
namespace OasisPlatform.ReadCommitted
set_option linter.unusedSimpArgs false

/-- Operations `ω` on the rows with given ids, in order. -/
abbrev Writes (ω : Type) := List (Nat × ω)

variable {ρ ω σ χ : Type}

/-- The operations on one row. -/
def opsAt (writes : Writes ω) (id : Nat) : List ω := (writes.filter (·.1 = id)).map Prod.snd

/-- The rows with the writes done. -/
def view (apply : ω → Option ρ → Option ρ) (rows : Nat → Option ρ) (writes : Writes ω) (id : Nat) : Option ρ :=
  (opsAt writes id).foldl (fun row op => apply op row) (rows id)

@[simp] theorem opsAt_nil (id : Nat) : opsAt ([] : Writes ω) id = [] := rfl

@[simp] theorem opsAt_append (first last : Writes ω) (id : Nat) : opsAt (first ++ last) id = opsAt first id ++ opsAt last id := by
  simp [opsAt]

theorem mem_opsAt {writes : Writes ω} {id : Nat} {op : ω} : op ∈ opsAt writes id ↔ (id,op) ∈ writes := by
  simp [opsAt]

theorem opsAt_other {writes : Writes ω} {id : Nat} (other : ∀ write ∈ writes, write.1 ≠ id) : opsAt writes id = [] := by
  rw [List.eq_nil_iff_forall_not_mem]
  intro op listed
  exact other (id,op) (mem_opsAt.mp listed) rfl

@[simp] theorem view_nil (apply : ω → Option ρ → Option ρ) (rows : Nat → Option ρ) : view apply rows [] = rows := rfl

theorem view_append (apply : ω → Option ρ → Option ρ) (rows : Nat → Option ρ) (first last : Writes ω) (id : Nat) :
    view apply rows (first ++ last) id = (opsAt last id).foldl (fun row op => apply op row) (view apply rows first id) := by
  simp [view]

/-- Rows that agree in what each operation keeps alike are seen alike. -/
theorem foldl_congr {κ : Type} {apply : ω → Option ρ → Option ρ} {f : ρ → κ}
    (alike : ∀ op row other, Option.map f row = Option.map f other → (apply op row).map f = (apply op other).map f)
    (ops : List ω) {row other : Option ρ} (same : row.map f = other.map f) :
    (ops.foldl (fun row op => apply op row) row).map f = (ops.foldl (fun row op => apply op row) other).map f := by
  induction ops generalizing row other with
  | nil => exact same
  | cons op rest ih => exact ih (alike op row other same)

/-- Operations that leave a column leave it together. -/
theorem foldl_kept {κ : Type} {apply : ω → Option ρ → Option ρ} {f : ρ → κ} {ops : List ω}
    (kept : ∀ op ∈ ops, ∀ row, (apply op row).map f = Option.map f row) (row : Option ρ) :
    (ops.foldl (fun row op => apply op row) row).map f = row.map f := by
  induction ops generalizing row with
  | nil => rfl
  | cons op rest ih =>
    rw [List.forall_mem_cons] at kept
    exact (ih kept.2 (apply op row)).trans (kept.1 row)

/-- A transaction: what it is at, its writes so far, and the rows it has selected for
    update. -/
structure Session (σ ω : Type) where
  stage : σ
  writes : Writes ω
  selected : List Nat

/-- What a statement comes to. -/
inductive Outcome (σ ω : Type) where
  | stay
  | go (stage : σ) (writes : Writes ω) (selected : List Nat) (drawn : Nat)
  /-- the transaction is rolled back -/
  | restart (stage : σ)
  | commit (stage : σ)

/-- The operations of a database, and a program of statements. A statement that waits for
    rows is performed when nobody else has locked them. -/
structure Rules (ρ ω σ χ : Type) where
  apply : ω → Option ρ → Option ρ
  locking : ω → Bool
  /-- writes that wait for those of another transaction without a lock on their row -/
  conflicts : Writes ω → Writes ω → Bool
  start : χ → σ
  /-- the next statement, with the rows it waits for -/
  perform : (Nat → Option ρ) → Nat → Session σ ω → List Nat × Outcome σ ω
  /-- where an interrupted transaction goes -/
  abort : σ → σ

variable (rules : Rules ρ ω σ χ)

def lockedBy (writes : Writes ω) : List Nat := (writes.filter fun write => rules.locking write.2).map Prod.fst

def Session.locks (session : Session σ ω) : List Nat := session.selected ++ lockedBy rules session.writes

/-- The committed rows, the next value of the sequence of ids, and the transactions. -/
structure System (ρ ω σ : Type) where
  rows : Nat → Option ρ
  next : Nat
  sessions : List (Session σ ω)

inductive Action (χ : Type) where
  | begin (input : χ)
  | run (i : Nat)
  | abort (i : Nat)
  deriving DecidableEq, Repr

variable {rules}

def System.replace (system : System ρ ω σ) (i : Nat) (session : Session σ ω) : System ρ ω σ :=
  { system with sessions := system.sessions.set i session }

variable (rules)

/-- Nobody else has locked any of the rows. -/
def System.unlocked (system : System ρ ω σ) (i : Nat) (ids : List Nat) : Bool :=
  (system.sessions.eraseIdx i).all fun other => ids.all fun id => id ∉ other.locks rules

def System.run (system : System ρ ω σ) (i : Nat) : System ρ ω σ :=
  match system.sessions[i]? with
  | none => system
  | some session =>
    match rules.perform (view rules.apply system.rows session.writes) system.next session with
    | (_,.stay) => system
    | (waits,.go stage writes selected drawn) =>
      if system.unlocked rules i (waits ++ (selected ++ lockedBy rules writes)) &&
          (system.sessions.eraseIdx i).all fun other => !rules.conflicts writes other.writes then
        { system.replace i ⟨stage,session.writes ++ writes,session.selected ++ selected⟩ with next := system.next + drawn }
      else system
    | (waits,.restart stage) => if system.unlocked rules i waits then system.replace i ⟨stage,[],[]⟩ else system
    | (_,.commit stage) => { system.replace i ⟨stage,[],[]⟩ with rows := view rules.apply system.rows session.writes }

def System.step (system : System ρ ω σ) : Action χ → System ρ ω σ
  | .begin input => { system with sessions := system.sessions ++ [⟨rules.start input,[],[]⟩] }
  | .run i => system.run rules i
  | .abort i =>
    match system.sessions[i]? with
    | none => system
    | some session => system.replace i ⟨rules.abort session.stage,[],[]⟩

/-- What one statement can do. -/
inductive Ran (system : System ρ ω σ) (i : Nat) : System ρ ω σ → Prop
  | stay : Ran system i system
  | go {session : Session σ ω} {waits : List Nat} {stage : σ} {writes : Writes ω} {selected : List Nat} {drawn : Nat}
      (found : system.sessions[i]? = some session)
      (performed : rules.perform (view rules.apply system.rows session.writes) system.next session =
        (waits,.go stage writes selected drawn))
      (free : system.unlocked rules i (selected ++ lockedBy rules writes) = true)
      (clear : (system.sessions.eraseIdx i).all (fun other => !rules.conflicts writes other.writes) = true) :
      Ran system i
        { system.replace i ⟨stage,session.writes ++ writes,session.selected ++ selected⟩ with next := system.next + drawn }
  | restart {session : Session σ ω} {waits : List Nat} {stage : σ}
      (found : system.sessions[i]? = some session)
      (performed : rules.perform (view rules.apply system.rows session.writes) system.next session = (waits,.restart stage)) :
      Ran system i (system.replace i ⟨stage,[],[]⟩)
  | commit {session : Session σ ω} {waits : List Nat} {stage : σ}
      (found : system.sessions[i]? = some session)
      (performed : rules.perform (view rules.apply system.rows session.writes) system.next session = (waits,.commit stage)) :
      Ran system i { system.replace i ⟨stage,[],[]⟩ with rows := view rules.apply system.rows session.writes }

variable {rules}

theorem run_ran (rules : Rules ρ ω σ χ) (system : System ρ ω σ) (i : Nat) : Ran rules system i (system.run rules i) := by
  unfold System.run
  cases found : system.sessions[i]? with
  | none => exact .stay
  | some session =>
    rcases performed : rules.perform (view rules.apply system.rows session.writes) system.next session with ⟨waits,outcome⟩
    cases outcome with
    | stay => simpa [performed] using Ran.stay
    | go stage writes selected drawn =>
      simp only [performed]
      split
      · rename_i granted
        rw [Bool.and_eq_true] at granted
        refine .go found performed ?_ granted.2
        have all := granted.1
        simp only [System.unlocked,List.all_eq_true,List.mem_append] at all ⊢
        exact fun other listed id taken => all other listed id (.inr taken)
      · exact .stay
    | restart stage =>
      simp only [performed]
      split
      · exact .restart found performed
      · exact .stay
    | commit stage =>
      simp only [performed]
      exact .commit found performed

/-- Only commits change the committed rows. -/
theorem step_rows (rules : Rules ρ ω σ χ) (system : System ρ ω σ) (action : Action χ) :
    system.next ≤ (system.step rules action).next ∧
      ((system.step rules action).rows = system.rows ∨
        ∃ (i : Nat) (session : Session σ ω) (waits : List Nat) (stage : σ), action = .run i ∧ system.sessions[i]? = some session ∧
          rules.perform (view rules.apply system.rows session.writes) system.next session = (waits,.commit stage) ∧
          (system.step rules action).rows = view rules.apply system.rows session.writes) := by
  cases action with
  | begin input => exact ⟨Nat.le_refl _,.inl rfl⟩
  | run i =>
    have ran := run_ran rules system i
    simp only [System.step]
    generalize system.run rules i = after at ran
    cases ran with
    | stay => exact ⟨Nat.le_refl _,.inl rfl⟩
    | go found performed free clear => exact ⟨Nat.le_add_right _ _,.inl rfl⟩
    | restart found performed => exact ⟨Nat.le_refl _,.inl rfl⟩
    | commit found performed => exact ⟨Nat.le_refl _,.inr ⟨i,_,_,_,rfl,found,performed,rfl⟩⟩
  | abort i =>
    simp only [System.step]
    split
    · exact ⟨Nat.le_refl _,.inl rfl⟩
    · exact ⟨Nat.le_refl _,.inl rfl⟩

theorem set_cases {α : Type} {list : List α} {i j : Nat} {value found : α} (here : (list.set i value)[j]? = some found) :
    (j = i ∧ found = value) ∨ (j ≠ i ∧ list[j]? = some found) := by
  by_cases same : i = j
  · subst same
    rw [List.getElem?_set_self'] at here
    cases old : list[i]? <;> simp_all
  · rw [List.getElem?_set_ne same] at here
    exact .inr ⟨Ne.symm same,here⟩

theorem append_cases {α : Type} {list : List α} {j : Nat} {value found : α} (here : (list ++ [value])[j]? = some found) :
    list[j]? = some found ∨ (j = list.length ∧ found = value) := by
  rcases Nat.lt_or_ge j list.length with inside | beyond
  · rw [List.getElem?_append_left inside] at here
    exact .inl here
  · rw [List.getElem?_append_right beyond] at here
    cases index : j - list.length with
    | zero =>
      rw [index] at here
      exact .inr ⟨by omega,(Option.some.inj here).symm⟩
    | succ n =>
      rw [index] at here
      cases here

/-- Every two transactions are related. -/
def System.Pairs (system : System ρ ω σ) (R : Session σ ω → Session σ ω → Prop) : Prop :=
  ∀ (i j : Nat) (session other : Session σ ω), i ≠ j → system.sessions[i]? = some session →
    system.sessions[j]? = some other → R session other

theorem replace_pairs {R : Session σ ω → Session σ ω → Prop} (symmetric : ∀ session other, R session other → R other session)
    {system : System ρ ω σ} (pairs : system.Pairs R) {i : Nat} {session : Session σ ω}
    (related : ∀ (j : Nat) (other : Session σ ω), j ≠ i → system.sessions[j]? = some other → R session other) :
    (system.replace i session).Pairs R := by
  intro j k first second differs here there
  rcases set_cases here with ⟨rfl,rfl⟩ | ⟨notFirst,foundFirst⟩
  · rcases set_cases there with ⟨rfl,rfl⟩ | ⟨notSecond,foundSecond⟩
    · exact absurd rfl differs
    · exact related k second notSecond foundSecond
  · rcases set_cases there with ⟨rfl,rfl⟩ | ⟨_,foundSecond⟩
    · exact symmetric _ _ (related j first notFirst foundFirst)
    · exact pairs j k first second differs foundFirst foundSecond

/-- A relation holds of every two transactions after a step, if one that has done nothing is
    related to all, and the statements that others do not block keep it. -/
theorem step_pairs {R : Session σ ω → Session σ ω → Prop} (symmetric : ∀ session other, R session other → R other session)
    (fresh : ∀ stage other, R ⟨stage,[],[]⟩ other)
    (go : ∀ (session other : Session σ ω) stage writes selected, R session other →
      (∀ id ∈ selected ++ lockedBy rules writes, id ∉ other.locks rules) → rules.conflicts writes other.writes = false →
        R ⟨stage,session.writes ++ writes,session.selected ++ selected⟩ other)
    {system : System ρ ω σ} (pairs : system.Pairs R) (action : Action χ) : (system.step rules action).Pairs R := by
  have restart : ∀ i stage, (system.replace i ⟨stage,[],[]⟩).Pairs R :=
    fun i stage => replace_pairs symmetric pairs fun _ other _ _ => fresh stage other
  cases action with
  | begin input =>
    intro j k first second differs here there
    rcases append_cases here with foundFirst | ⟨_,rfl⟩
    · rcases append_cases there with foundSecond | ⟨_,rfl⟩
      · exact pairs j k first second differs foundFirst foundSecond
      · exact symmetric _ _ (fresh _ first)
    · exact fresh _ second
  | run i =>
    have ran := run_ran rules system i
    simp only [System.step]
    generalize system.run rules i = after at ran
    cases ran with
    | stay => exact pairs
    | restart found performed => exact restart i _
    | commit found performed => exact restart i _
    | go found performed free clear =>
      refine replace_pairs symmetric pairs fun j other differs there => ?_
      have listed : other ∈ system.sessions.eraseIdx i := List.mem_eraseIdx_iff_getElem?.mpr ⟨j,differs,there⟩
      simp only [System.unlocked,List.all_eq_true] at free clear
      refine go _ other _ _ _ (pairs i j _ other (Ne.symm differs) found there) (fun id waited => ?_) ?_
      · simpa using free other listed id waited
      · simpa using clear other listed
  | abort i =>
    simp only [System.step]
    split
    · exact pairs
    · exact restart i _

/-- No row is locked by two transactions. -/
def System.Apart (rules : Rules ρ ω σ χ) (system : System ρ ω σ) : Prop :=
  system.Pairs fun session other => ∀ id ∈ session.locks rules, id ∉ other.locks rules

theorem locks_append (stage : σ) (session : Session σ ω) (writes : Writes ω) (selected : List Nat) {id : Nat} :
    id ∈ (⟨stage,session.writes ++ writes,session.selected ++ selected⟩ : Session σ ω).locks rules ↔
      id ∈ session.locks rules ∨ id ∈ selected ++ lockedBy rules writes := by
  simp only [Session.locks,lockedBy,List.filter_append,List.map_append,List.mem_append]
  tauto

theorem step_apart {system : System ρ ω σ} (apart : system.Apart rules) (action : Action χ) :
    (system.step rules action).Apart rules := by
  refine step_pairs ?_ ?_ ?_ apart action
  · exact fun session other apart id taken shared => apart id shared taken
  · intro stage other id taken
    cases taken
  · intro session other stage writes selected apart free _ id taken
    rcases (locks_append _ _ _ _).mp taken with had | new
    · exact apart id had
    · exact free id new

/-- The columns that only locking writes change are those of the committed rows wherever
    nothing is locked. -/
theorem view_map_of_unlocked (rules : Rules ρ ω σ χ) {κ : Type} {f : ρ → κ}
    (kept : ∀ op, rules.locking op = false → ∀ row, (rules.apply op row).map f = Option.map f row)
    {session : Session σ ω} {id : Nat} (unlocked : id ∉ session.locks rules) (rows : Nat → Option ρ) :
    (view rules.apply rows session.writes id).map f = (rows id).map f := by
  refine foldl_kept (fun op listed => kept op ?_) _
  rw [Bool.eq_false_iff]
  intro locks
  refine unlocked (List.mem_append_right _ (List.mem_map.mpr ⟨(id,op),?_,rfl⟩))
  exact List.mem_filter.mpr ⟨mem_opsAt.mp listed,locks⟩

/-- All transactions have a property, which may speak of the committed rows and of the next id. -/
def System.Each (system : System ρ ω σ) (P : (Nat → Option ρ) → Nat → Session σ ω → Prop) : Prop :=
  ∀ (i : Nat) (session : Session σ ω), system.sessions[i]? = some session → P system.rows system.next session

theorem replace_each {system : System ρ ω σ} {P : (Nat → Option ρ) → Nat → Session σ ω → Prop} {rows : Nat → Option ρ}
    {next i : Nat} {session : Session σ ω} (own : P rows next session)
    (others : ∀ (j : Nat) (other : Session σ ω), j ≠ i → system.sessions[j]? = some other → P rows next other) :
    System.Each ⟨rows,next,(system.replace i session).sessions⟩ P := by
  intro j other here
  rcases set_cases here with ⟨_,rfl⟩ | ⟨differs,found⟩
  · exact own
  · exact others j other differs found

/-- A property holds of each transaction after a step, if it holds at the beginning, is kept
    by statements, by later ids and by rolling back, and by the commits of others. -/
theorem step_each {P : (Nat → Option ρ) → Nat → Session σ ω → Prop} {system : System ρ ω σ} (each : system.Each P)
    (action : Action χ)
    (start : ∀ input, P system.rows system.next ⟨rules.start input,[],[]⟩)
    (abort : ∀ session, P system.rows system.next session → P system.rows system.next ⟨rules.abort session.stage,[],[]⟩)
    (drawn : ∀ session next, system.next ≤ next → P system.rows system.next session → P system.rows next session)
    (go : ∀ (i : Nat) (session : Session σ ω) waits stage writes selected drawn, action = .run i →
      system.sessions[i]? = some session → P system.rows system.next session →
      rules.perform (view rules.apply system.rows session.writes) system.next session = (waits,.go stage writes selected drawn) →
        P system.rows (system.next + drawn) ⟨stage,session.writes ++ writes,session.selected ++ selected⟩)
    (restart : ∀ session waits stage, P system.rows system.next session →
      rules.perform (view rules.apply system.rows session.writes) system.next session = (waits,.restart stage) →
        P system.rows system.next ⟨stage,[],[]⟩)
    (commit : ∀ session waits stage, P system.rows system.next session →
      rules.perform (view rules.apply system.rows session.writes) system.next session = (waits,.commit stage) →
        P (view rules.apply system.rows session.writes) system.next ⟨stage,[],[]⟩)
    (others : ∀ (i j : Nat) (session other : Session σ ω) waits stage, action = .run i → j ≠ i → system.sessions[i]? = some session →
      system.sessions[j]? = some other → P system.rows system.next other →
        rules.perform (view rules.apply system.rows session.writes) system.next session = (waits,.commit stage) →
          P (view rules.apply system.rows session.writes) system.next other) :
    (system.step rules action).Each P := by
  cases action with
  | begin input =>
    intro j other here
    rcases append_cases here with found | ⟨_,rfl⟩
    · exact each j other found
    · exact start input
  | run i =>
    have ran := run_ran rules system i
    simp only [System.step]
    generalize system.run rules i = after at ran
    cases ran with
    | stay => exact each
    | go found performed free clear =>
      refine replace_each (go i _ _ _ _ _ _ rfl found (each i _ found) performed) fun j other _ there => ?_
      exact drawn other _ (Nat.le_add_right _ _) (each j other there)
    | restart found performed =>
      exact replace_each (restart _ _ _ (each i _ found) performed) fun j other _ there => each j other there
    | commit found performed =>
      refine replace_each (commit _ _ _ (each i _ found) performed) fun j other differs there => ?_
      exact others i j _ other _ _ rfl differs found there (each j other there) performed
  | abort i =>
    simp only [System.step]
    cases found : system.sessions[i]? with
    | none => exact each
    | some session => exact replace_each (abort session (each i session found)) fun j other _ there => each j other there

end OasisPlatform.ReadCommitted
