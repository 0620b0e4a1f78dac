import Mathlib.Logic.Function.Basic
import Mathlib.Order.Bounds.Defs
import Mathlib.Data.List.Nodup
import Mathlib.Tactic.Common

/-!
Task log contexts that are entered and left in any order, by tasks that share loggers. The
steps of an enter and of an exit may come between those of others. While a context with a
level is active on a logger, the logger has the lowest level that is asked for and the
tracker knows the logger; when no context is left on it, the logger is as it was
(`contexts_compose`).
-/
namespace OasisPlatform.LogContexts
set_option linter.unusedSimpArgs false

inductive LevelName where
  | critical
  | fatal
  | error
  | warn
  | warning
  | info
  | debug
  | notset
  deriving DecidableEq, Repr

/-- `logging.getLevelNamesMapping()`. -/
def LevelName.value : LevelName → Int
  | .critical => 50
  | .fatal => 50
  | .error => 40
  | .warn => 30
  | .warning => 30
  | .info => 20
  | .debug => 10
  | .notset => 0

inductive Level where
  | name (n : LevelName)
  | number (n : Int)
  deriving DecidableEq, Repr

def Level.truthy : Level → Bool
  | .name _ => true
  | .number n => n ≠ 0

def levelToInt : Level → Int
  | .name n => n.value
  | .number n => n

/-- What a `LoggingTaskContext` is made with; the tasks share the loggers in `α`. -/
structure Context (α : Type) where
  logger : α
  level : Option Level := none

variable {α κ : Type}

/-- The level that a context asks for, if it has one. -/
def Context.requested (context : Context α) : Option Int :=
  match context.level with
  | some level => if level.truthy then some (levelToInt level) else none
  | none => none

/-- The level is low enough for a `TaskLogFilter`. -/
def Context.filters (context : Context α) : Bool := context.requested.any fun level => level ≤ 10

inductive Handler (κ : Type) where
  | other (id : Nat)
  | ofContext (context : κ)
  deriving DecidableEq

/-- A context makes a new filter each time it is entered. -/
inductive Filter (κ : Type) where
  | other (id : Nat)
  | ofContext (context : κ) (entry : Nat)
  deriving DecidableEq

structure Logger (κ : Type) where
  level : Int
  handlers : List (Handler κ)
  filters : List (Filter κ)

/-- The value that `_LevelTracker` keeps for a logger. -/
structure Requests where
  baseline : Int
  requests : List Int

/-- How far a context has come: in `__enter__`, inside, or in `__exit__`. -/
inductive Phase where
  | outside
  | acquired
  | filtered
  | inside
  | released
  | unfiltered
  deriving DecidableEq, Repr

structure System (κ α : Type) where
  loggers : α → Logger κ
  tracker : α → Option Requests
  phase : κ → Phase
  /-- `_filter`, by the entry that made it. -/
  filter : κ → Option Nat
  entries : κ → Nat

variable [DecidableEq κ] [DecidableEq α]

def Logger.addHandler (logger : Logger κ) (handler : Handler κ) : Logger κ :=
  if handler ∈ logger.handlers then logger else { logger with handlers := logger.handlers ++ [handler] }

def Logger.removeHandler (logger : Logger κ) (handler : Handler κ) : Logger κ :=
  { logger with handlers := logger.handlers.erase handler }

def Logger.addFilter (logger : Logger κ) (filter : Filter κ) : Logger κ :=
  if filter ∈ logger.filters then logger else { logger with filters := logger.filters ++ [filter] }

def Logger.removeFilter (logger : Logger κ) (filter : Filter κ) : Logger κ :=
  { logger with filters := logger.filters.erase filter }

def System.setLogger (system : System κ α) (l : α) (logger : Logger κ) : System κ α :=
  { system with loggers := Function.update system.loggers l logger }

def System.setTracker (system : System κ α) (l : α) (requests : Option Requests) : System κ α :=
  { system with tracker := Function.update system.tracker l requests }

def System.setLevel (system : System κ α) (l : α) (level : Int) : System κ α :=
  system.setLogger l { system.loggers l with level := level }

def System.goto (system : System κ α) (c : κ) (phase : Phase) : System κ α :=
  { system with phase := Function.update system.phase c phase }

def System.countEntry (system : System κ α) (c : κ) : System κ α :=
  { system with entries := Function.update system.entries c (system.entries c + 1) }

def System.setFilter (system : System κ α) (c : κ) (entry : Nat) : System κ α :=
  { system with filter := Function.update system.filter c (some entry) }

def acquire (system : System κ α) (l : α) (numericLevel : Int) : System κ α :=
  let state := (system.tracker l).getD ⟨(system.loggers l).level,[]⟩
  let requests := state.requests ++ [numericLevel]
  (system.setTracker l (some ⟨state.baseline,requests⟩)).setLevel l (requests.min?.getD numericLevel)

/-- None where it raises: the logger is not there, or the level is not. -/
def release (system : System κ α) (l : α) (numericLevel : Int) : Option (System κ α) :=
  match system.tracker l with
  | none => none
  | some state =>
    if numericLevel ∉ state.requests then none
    else
      let requests := state.requests.erase numericLevel
      match requests.min? with
      | some lowest => some ((system.setTracker l (some ⟨state.baseline,requests⟩)).setLevel l lowest)
      | none => some ((system.setLevel l state.baseline).setTracker l none)

/-- The next step of a context, in `__enter__` and then in `__exit__`. -/
def step (contexts : κ → Context α) (system : System κ α) (c : κ) : Option (System κ α) :=
  let context := contexts c
  let logger := system.loggers context.logger
  match system.phase c with
  | .outside =>
    match context.requested with
    | some level => some ((acquire (system.countEntry c) context.logger level).goto c .acquired)
    | none => some ((system.countEntry c).goto c .acquired)
  | .acquired =>
    if context.filters then
      let logger := logger.addFilter (.ofContext c (system.entries c))
      some (((system.setFilter c (system.entries c)).setLogger context.logger logger).goto c .filtered)
    else some (system.goto c .filtered)
  | .filtered => some ((system.setLogger context.logger (logger.addHandler (.ofContext c))).goto c .inside)
  | .inside =>
    match context.requested with
    | some level => (release system context.logger level).map fun system => system.goto c .released
    | none => some (system.goto c .released)
  | .released =>
    match context.requested,system.filter c with
    | some _,some entry =>
      some ((system.setLogger context.logger (logger.removeFilter (.ofContext c entry))).goto c .unfiltered)
    | _,_ => some (system.goto c .unfiltered)
  | .unfiltered => some ((system.setLogger context.logger (logger.removeHandler (.ofContext c))).goto c .outside)

/-- Contexts take their next steps in some order. -/
def run (contexts : κ → Context α) (system : System κ α) (schedule : List κ) : Option (System κ α) :=
  schedule.foldlM (step contexts) system

/-- What a logger has before any context is entered. -/
structure Settings where
  level : Int
  handlers : List Nat
  filters : List Nat

def Settings.logger (settings : Settings) : Logger κ :=
  ⟨settings.level,settings.handlers.map .other,settings.filters.map .other⟩

def initial (settings : α → Settings) : System κ α where
  loggers := fun l => (settings l).logger
  tracker := fun _ => none
  phase := fun _ => .outside
  filter := fun _ => none
  entries := fun _ => 0

omit [DecidableEq α] in
@[simp] theorem goto_loggers (system : System κ α) (c : κ) (phase : Phase) :
    (system.goto c phase).loggers = system.loggers := rfl

omit [DecidableEq α] in
@[simp] theorem goto_tracker (system : System κ α) (c : κ) (phase : Phase) :
    (system.goto c phase).tracker = system.tracker := rfl

omit [DecidableEq α] in
@[simp] theorem goto_filter (system : System κ α) (c : κ) (phase : Phase) :
    (system.goto c phase).filter = system.filter := rfl

omit [DecidableEq α] in
@[simp] theorem goto_entries (system : System κ α) (c : κ) (phase : Phase) :
    (system.goto c phase).entries = system.entries := rfl

omit [DecidableEq α] in
@[simp] theorem goto_phase_self (system : System κ α) (c : κ) (phase : Phase) : (system.goto c phase).phase c = phase := by
  simp [System.goto]

omit [DecidableEq α] in
@[simp] theorem goto_phase_other (system : System κ α) {c d : κ} (phase : Phase) (other : d ≠ c) :
    (system.goto c phase).phase d = system.phase d := by
  simp [System.goto,other]

/-- The contexts with a property, each once. -/
structure Listed (property : κ → Prop) (contexts : List κ) : Prop where
  once : contexts.Nodup
  mem_iff : ∀ c, c ∈ contexts ↔ property c

section Listed
variable {property other : κ → Prop} {contexts : List κ}

omit [DecidableEq κ] in
theorem Listed.congr (listed : Listed property contexts) (same : ∀ c, other c ↔ property c) : Listed other contexts :=
  ⟨listed.once,fun c => (listed.mem_iff c).trans (same c).symm⟩

omit [DecidableEq κ] in
theorem Listed.append (listed : Listed property contexts) {c : κ} (fresh : ¬property c)
    (next : ∀ d, other d ↔ property d ∨ d = c) : Listed other (contexts ++ [c]) := by
  constructor
  · have outside : c ∉ contexts := fun member => fresh ((listed.mem_iff c).mp member)
    exact List.Nodup.append listed.once (List.nodup_singleton c) (by simpa using outside)
  · intro d
    rw [next,← listed.mem_iff d]
    simp

theorem Listed.erase (listed : Listed property contexts) {c : κ} (next : ∀ d, other d ↔ property d ∧ d ≠ c) :
    Listed other (contexts.erase c) := by
  constructor
  · exact listed.once.erase c
  · intro d
    rw [next,listed.once.mem_erase_iff,listed.mem_iff]
    exact and_comm

omit [DecidableEq κ] in
theorem Listed.eq_nil (listed : Listed property contexts) (none : ∀ c, ¬property c) : contexts = [] :=
  List.eq_nil_iff_forall_not_mem.mpr fun c member => none c ((listed.mem_iff c).mp member)

end Listed

/-- The level of the context has been acquired and not released. -/
def Phase.holds : Phase → Bool
  | .acquired | .filtered | .inside => true
  | _ => false

/-- The filter of the context has been added and not removed. -/
def Phase.filters : Phase → Bool
  | .filtered | .inside | .released => true
  | _ => false

/-- The handler of the context has been added and not removed. -/
def Phase.handles : Phase → Bool
  | .inside | .released | .unfiltered => true
  | _ => false

section Active
variable (contexts : κ → Context α) (settings : α → Settings) (system : System κ α) (l : α)

/-- A context of some kind is on a logger and has come to a stage. -/
def On (has : κ → Bool) (stage : Phase → Bool) (c : κ) : Prop :=
  (contexts c).logger = l ∧ has c = true ∧ stage (system.phase c) = true

/-- A context with a level is active on a logger. -/
abbrev Holding : κ → Prop := On contexts system l (fun c => (contexts c).requested.isSome) Phase.holds

abbrev Filtering : κ → Prop := On contexts system l (fun c => (contexts c).filters) Phase.filters

abbrev Handling : κ → Prop := On contexts system l (fun _ => true) Phase.handles

/-- What the tracker and the level of a logger are while some contexts are active. -/
def Tracks (baseline : Int) (active : List κ) (tracker : Option Requests) (level : Int) : Prop :=
  match tracker with
  | none => active = [] ∧ level = baseline
  | some state => state.baseline = baseline ∧
    state.requests.Perm (active.filterMap fun c => (contexts c).requested) ∧ state.requests.min? = some level

def LevelKept : Prop :=
  ∃ active, Listed (Holding contexts system l) active ∧
    Tracks contexts (settings l).level active (system.tracker l) (system.loggers l).level

def HandlersKept : Prop :=
  ∃ added, Listed (Handling contexts system l) added ∧
    (system.loggers l).handlers = (settings l).handlers.map .other ++ added.map .ofContext

def FiltersKept : Prop :=
  ∃ added, Listed (Filtering contexts system l) added ∧
    (system.loggers l).filters =
      (settings l).filters.map .other ++ added.map fun c => .ofContext c (system.entries c)

/-- What holds between any two steps. -/
structure Kept : Prop where
  level : ∀ l, LevelKept contexts settings system l
  handlers : ∀ l, HandlersKept contexts settings system l
  filters : ∀ l, FiltersKept contexts settings system l
  named : ∀ c, (contexts c).filters = true → (system.phase c).filters = true →
    system.filter c = some (system.entries c)
  unnamed : ∀ c, (contexts c).filters = false → system.filter c = none

end Active

omit [DecidableEq κ] [DecidableEq α] in
theorem initial_kept (contexts : κ → Context α) (settings : α → Settings) :
    Kept contexts settings (initial settings) where
  level := fun l => ⟨[],⟨List.nodup_nil,by simp [On,initial,Phase.holds]⟩,rfl,rfl⟩
  handlers := fun l => ⟨[],⟨List.nodup_nil,by simp [On,initial,Phase.handles]⟩,by simp [initial,Settings.logger]⟩
  filters := fun l => ⟨[],⟨List.nodup_nil,by simp [On,initial,Phase.filters]⟩,by simp [initial,Settings.logger]⟩
  named := by simp [initial,Phase.filters]
  unnamed := fun _ _ => rfl

/-- A step of the tracker changes one logger's level and its own value for that logger. -/
structure Frame (system next : System κ α) (l : α) : Prop where
  phase : next.phase = system.phase
  filter : next.filter = system.filter
  entries : next.entries = system.entries
  handlers : ∀ l', (next.loggers l').handlers = (system.loggers l').handlers
  filters : ∀ l', (next.loggers l').filters = (system.loggers l').filters
  tracker : ∀ l', l' ≠ l → next.tracker l' = system.tracker l'
  level : ∀ l', l' ≠ l → (next.loggers l').level = (system.loggers l').level

omit [DecidableEq κ] in
/-- Only the level of one logger is set. -/
theorem setLevel_logger (system : System κ α) (l : α) (level : Int) (l' : α) :
    (system.setLevel l level).loggers l' =
      { system.loggers l' with level := if l' = l then level else (system.loggers l').level } := by
  by_cases same : l' = l
  · subst same
    simp [System.setLevel,System.setLogger]
  · simp [System.setLevel,System.setLogger,same]

omit [DecidableEq κ] in
theorem setTracker_setLevel_frame (system : System κ α) (l : α) (requests : Option Requests) (level : Int) :
    Frame system ((system.setTracker l requests).setLevel l level) l where
  phase := rfl
  filter := rfl
  entries := rfl
  handlers := fun l' => by rw [setLevel_logger]; rfl
  filters := fun l' => by rw [setLevel_logger]; rfl
  tracker := fun l' other => by simp [System.setLevel,System.setLogger,System.setTracker,other]
  level := fun l' other => by rw [setLevel_logger,if_neg other]; rfl

omit [DecidableEq κ] in
theorem acquire_frame (system : System κ α) (l : α) (numericLevel : Int) :
    Frame system (acquire system l numericLevel) l := setTracker_setLevel_frame ..

theorem min?_append (requests : List Int) (n : Int) :
    (requests ++ [n]).min? = some ((requests ++ [n]).min?.getD n) := by
  cases lowest : (requests ++ [n]).min? with
  | none => simp [List.min?_eq_none_iff] at lowest
  | some m => rfl

omit [DecidableEq κ] in
theorem acquire_tracks {contexts : κ → Context α} {system : System κ α} {l : α} {baseline n : Int} {active : List κ}
    {c : κ} (tracks : Tracks contexts baseline active (system.tracker l) (system.loggers l).level)
    (requested : (contexts c).requested = some n) :
    Tracks contexts baseline (active ++ [c]) ((acquire system l n).tracker l)
      ((acquire system l n).loggers l).level := by
  have appended : (active ++ [c]).filterMap (fun c => (contexts c).requested) =
      active.filterMap (fun c => (contexts c).requested) ++ [n] := by
    simp [requested]
  cases known : system.tracker l with
  | none =>
    rw [known] at tracks
    obtain ⟨rfl,level⟩ := tracks
    simp [acquire,known,Tracks,System.setLevel,System.setLogger,System.setTracker,level,requested]
  | some state =>
    rw [known] at tracks
    obtain ⟨same,requests,-⟩ := tracks
    simp only [acquire,known,Tracks,System.setLevel,System.setLogger,System.setTracker,Option.getD_some,
      Function.update_self,appended]
    exact ⟨same,requests.append_right [n],min?_append ..⟩

omit [DecidableEq α] in
/-- What is left when one of the active contexts gives its level back. -/
theorem requested_erase {contexts : κ → Context α} {active : List κ} {c : κ} {n : Int} (member : c ∈ active)
    (requested : (contexts c).requested = some n) {requests : List Int}
    (perm : requests.Perm (active.filterMap fun c => (contexts c).requested)) :
    n ∈ requests ∧ (requests.erase n).Perm ((active.erase c).filterMap fun c => (contexts c).requested) := by
  have first : requests.Perm (n :: (active.erase c).filterMap fun c => (contexts c).requested) := by
    have moved := (List.perm_cons_erase member).filterMap fun c => (contexts c).requested
    simp only [List.filterMap_cons,requested] at moved
    exact perm.trans moved
  refine ⟨first.mem_iff.mpr List.mem_cons_self,?_⟩
  have erased := first.erase n
  rwa [List.erase_cons_head] at erased

theorem release_tracks {contexts : κ → Context α} {system : System κ α} {l : α} {baseline n : Int} {active : List κ}
    {c : κ} (tracks : Tracks contexts baseline active (system.tracker l) (system.loggers l).level) (member : c ∈ active)
    (each : ∀ d ∈ active, (contexts d).requested.isSome = true) (requested : (contexts c).requested = some n) :
    ∃ next, release system l n = some next ∧ Frame system next l ∧
      Tracks contexts baseline (active.erase c) (next.tracker l) (next.loggers l).level := by
  cases known : system.tracker l with
  | none =>
    rw [known] at tracks
    rw [tracks.1] at member
    cases member
  | some state =>
    rw [known] at tracks
    obtain ⟨same,perm,-⟩ := tracks
    obtain ⟨listed,left⟩ := requested_erase member requested perm
    cases lowest : (state.requests.erase n).min? with
    | some m =>
      refine ⟨(system.setTracker l (some ⟨state.baseline,state.requests.erase n⟩)).setLevel l m,
        by simp [release,known,listed,lowest],setTracker_setLevel_frame ..,?_⟩
      simp only [Tracks,System.setLevel,System.setLogger,System.setTracker,Function.update_self]
      exact ⟨same,left,lowest⟩
    | none =>
      refine ⟨(system.setTracker l none).setLevel l state.baseline,by simp [release,known,listed,lowest]; rfl,
        setTracker_setLevel_frame ..,?_⟩
      simp only [Tracks,System.setLevel,System.setLogger,System.setTracker,Function.update_self]
      refine ⟨?_,same⟩
      -- no request is left, and each active context has one
      rw [List.min?_eq_none_iff.mp lowest,List.nil_perm,List.filterMap_eq_nil_iff] at left
      refine List.eq_nil_iff_forall_not_mem.mpr fun d remains => ?_
      have some := each d (List.mem_of_mem_erase remains)
      rw [left d remains] at some
      cases some

/-! ### Steps -/

section Step
variable {contexts : κ → Context α} {settings : α → Settings} {system next : System κ α} {l : α} {c : κ}

omit [DecidableEq κ] [DecidableEq α] in
theorem LevelKept.same (kept : LevelKept contexts settings system l)
    (holding : ∀ d, Holding contexts next l d ↔ Holding contexts system l d)
    (tracker : next.tracker l = system.tracker l) (level : (next.loggers l).level = (system.loggers l).level) :
    LevelKept contexts settings next l := by
  obtain ⟨active,listed,tracks⟩ := kept
  exact ⟨active,listed.congr holding,by rwa [tracker,level]⟩

omit [DecidableEq κ] [DecidableEq α] in
theorem HandlersKept.same (kept : HandlersKept contexts settings system l)
    (handling : ∀ d, Handling contexts next l d ↔ Handling contexts system l d)
    (handlers : (next.loggers l).handlers = (system.loggers l).handlers) : HandlersKept contexts settings next l := by
  obtain ⟨added,listed,stored⟩ := kept
  exact ⟨added,listed.congr handling,handlers.trans stored⟩

omit [DecidableEq κ] [DecidableEq α] in
theorem FiltersKept.same (kept : FiltersKept contexts settings system l)
    (filtering : ∀ d, Filtering contexts next l d ↔ Filtering contexts system l d)
    (entries : ∀ d, Filtering contexts system l d → next.entries d = system.entries d)
    (filters : (next.loggers l).filters = (system.loggers l).filters) : FiltersKept contexts settings next l := by
  obtain ⟨added,listed,stored⟩ := kept
  refine ⟨added,listed.congr filtering,filters.trans (stored.trans ?_)⟩
  congr 1
  apply List.map_congr_left
  intro d member
  rw [entries d ((listed.mem_iff d).mp member)]

/-- A step of a context: the others stay where they are. -/
def Moves (system next : System κ α) (c : κ) (phase : Phase) : Prop :=
  next.phase c = phase ∧ ∀ d, d ≠ c → next.phase d = system.phase d

omit [DecidableEq α] in
theorem Moves.same {has : κ → Bool} {stage : Phase → Bool} {phase : Phase} (moves : Moves system next c phase)
    (unchanged : has c = false ∨ stage phase = stage (system.phase c) ∨ (contexts c).logger ≠ l) (d : κ) :
    On contexts next l has stage d ↔ On contexts system l has stage d := by
  unfold On
  by_cases own : d = c
  · subst own
    rw [moves.1]
    rcases unchanged with none | same | elsewhere
    · simp [none]
    · rw [same]
    · simp [elsewhere]
  · rw [moves.2 d own]

omit [DecidableEq α] in
theorem Moves.more {has : κ → Bool} {stage : Phase → Bool} {phase : Phase} (moves : Moves system next c phase)
    (has_it : has c = true) (now : stage phase = true) (d : κ) :
    On contexts next (contexts c).logger has stage d ↔ On contexts system (contexts c).logger has stage d ∨ d = c := by
  by_cases own : d = c
  · subst own
    exact iff_of_true ⟨rfl,has_it,by rw [moves.1,now]⟩ (.inr rfl)
  · simp [On,moves.2 d own,own]

omit [DecidableEq α] in
theorem Moves.fewer {has : κ → Bool} {stage : Phase → Bool} {phase : Phase} (moves : Moves system next c phase)
    (now : stage phase = false) (d : κ) :
    On contexts next l has stage d ↔ On contexts system l has stage d ∧ d ≠ c := by
  by_cases own : d = c
  · subst own
    simp [On,moves.1,now]
  · simp [On,moves.2 d own,own]

omit [DecidableEq α] in
theorem goto_moves (system : System κ α) (c : κ) (phase : Phase) : Moves system (system.goto c phase) c phase :=
  ⟨goto_phase_self ..,fun _ other => goto_phase_other _ _ other⟩

/-- A context is entered: its level is acquired if it has one. -/
theorem step_outside (kept : Kept contexts settings system) (phase : system.phase c = .outside) :
    ∃ next, step contexts system c = some next ∧ Kept contexts settings next := by
  have outside : ∀ l d, Filtering contexts system l d → d ≠ c := by
    rintro l d ⟨-,-,filtered⟩ rfl
    rw [phase] at filtered
    cases filtered
  have entered : ∃ next, step contexts system c = some next ∧ Moves system next c .acquired ∧
      next.filter = system.filter ∧ (∀ d, d ≠ c → next.entries d = system.entries d) ∧
      (∀ l, (next.loggers l).handlers = (system.loggers l).handlers) ∧
      (∀ l, (next.loggers l).filters = (system.loggers l).filters) ∧
      ∀ l, LevelKept contexts settings next l := by
    have counted : ∀ d, d ≠ c → (system.countEntry c).entries d = system.entries d :=
      fun d other => Function.update_of_ne other ..
    cases requested : (contexts c).requested with
    | none =>
      have moves := goto_moves (system.countEntry c) c .acquired
      refine ⟨_,by simp [step,phase,requested],moves,rfl,counted,fun _ => rfl,fun _ => rfl,fun l => ?_⟩
      exact (kept.level l).same (moves.same (.inl (by simp [requested]))) rfl rfl
    | some n =>
      have frame := acquire_frame (system.countEntry c) (contexts c).logger n
      have moves : Moves system ((acquire (system.countEntry c) (contexts c).logger n).goto c .acquired) c .acquired :=
        ⟨goto_phase_self ..,fun d other => (goto_phase_other _ _ other).trans (congrFun frame.phase d)⟩
      refine ⟨_,by simp [step,phase,requested],moves,frame.filter,fun d other => ?_,frame.handlers,frame.filters,
        fun l => ?_⟩
      · exact (congrFun frame.entries d).trans (counted d other)
      · by_cases here : l = (contexts c).logger
        · subst here
          obtain ⟨active,listed,tracks⟩ := kept.level (contexts c).logger
          have fresh : ¬Holding contexts system (contexts c).logger c := by simp [On,phase,Phase.holds]
          exact ⟨active ++ [c],listed.append fresh (moves.more (by simp [requested]) rfl),acquire_tracks tracks requested⟩
        · exact (kept.level l).same (moves.same (.inr (.inr (Ne.symm here)))) (frame.tracker l here) (frame.level l here)
  obtain ⟨next,stepped,moves,filter,entries,handlers,filters,level⟩ := entered
  refine ⟨next,stepped,level,?_,?_,?_,?_⟩
  · intro l
    exact (kept.handlers l).same (moves.same (.inr (.inl (by rw [phase]; rfl)))) (handlers l)
  · intro l
    exact (kept.filters l).same (moves.same (.inr (.inl (by rw [phase]; rfl))))
      (fun d filtering => entries d (outside l d filtering)) (filters l)
  · intro d low filtered
    by_cases own : d = c
    · subst own
      rw [moves.1] at filtered
      cases filtered
    · rw [filter,entries d own]
      exact kept.named d low (by rwa [moves.2 d own] at filtered)
  · intro d high
    rw [filter]
    exact kept.unnamed d high

omit [DecidableEq κ] in
theorem setLogger_field {β : Type} (field : Logger κ → β) (system : System κ α) {l : α} {logger : Logger κ}
    (same : field logger = field (system.loggers l)) (l' : α) :
    field ((system.setLogger l logger).loggers l') = field (system.loggers l') := by
  by_cases here : l' = l
  · subst here
    simpa [System.setLogger] using same
  · simp [System.setLogger,here]

omit [DecidableEq κ] in
@[simp] theorem setLogger_self (system : System κ α) (l : α) (logger : Logger κ) :
    (system.setLogger l logger).loggers l = logger := by
  simp [System.setLogger]

omit [DecidableEq κ] in
theorem setLogger_other (system : System κ α) {l l' : α} (logger : Logger κ) (other : l' ≠ l) :
    (system.setLogger l logger).loggers l' = system.loggers l' := by
  simp [System.setLogger,other]

theorem addFilter_level (logger : Logger κ) (filter : Filter κ) : (logger.addFilter filter).level = logger.level := by
  unfold Logger.addFilter
  split_ifs <;> rfl

theorem addFilter_handlers (logger : Logger κ) (filter : Filter κ) :
    (logger.addFilter filter).handlers = logger.handlers := by
  unfold Logger.addFilter
  split_ifs <;> rfl

theorem addHandler_level (logger : Logger κ) (handler : Handler κ) :
    (logger.addHandler handler).level = logger.level := by
  unfold Logger.addHandler
  split_ifs <;> rfl

theorem addHandler_filters (logger : Logger κ) (handler : Handler κ) :
    (logger.addHandler handler).filters = logger.filters := by
  unfold Logger.addHandler
  split_ifs <;> rfl

theorem removeFilter_level (logger : Logger κ) (filter : Filter κ) :
    (logger.removeFilter filter).level = logger.level := rfl

theorem removeFilter_handlers (logger : Logger κ) (filter : Filter κ) :
    (logger.removeFilter filter).handlers = logger.handlers := rfl

theorem removeHandler_level (logger : Logger κ) (handler : Handler κ) :
    (logger.removeHandler handler).level = logger.level := rfl

theorem removeHandler_filters (logger : Logger κ) (handler : Handler κ) :
    (logger.removeHandler handler).filters = logger.filters := rfl

omit [DecidableEq κ] in
theorem ofContext_injective : Function.Injective (@Handler.ofContext κ) := fun _ _ same => Handler.ofContext.inj same

omit [DecidableEq κ] in
theorem ofContext_entry_injective (entries : κ → Nat) : Function.Injective fun c => Filter.ofContext c (entries c) :=
  fun _ _ same => (Filter.ofContext.inj same).1

/-- What a context has added is removed, whatever others have added since. -/
theorem erase_added {β : Type} [DecidableEq β] {base : List β} {made : κ → β} (injective : Function.Injective made)
    {c : κ} (apart : made c ∉ base) (added : List κ) :
    (base ++ added.map made).erase (made c) = base ++ (added.erase c).map made := by
  rw [List.erase_append_right _ apart,List.map_erase injective]

omit [DecidableEq κ] in
theorem not_added {β : Type} {base : List β} {made : κ → β} (injective : Function.Injective made) {c : κ}
    (apart : made c ∉ base) {added : List κ} (fresh : c ∉ added) : made c ∉ base ++ added.map made := by
  rw [List.mem_append,List.mem_map]
  rintro (listed | ⟨d,member,same⟩)
  · exact apart listed
  · exact fresh (injective same ▸ member)

omit [DecidableEq α] in
/-- A step that leaves the filters to be removed of all contexts. -/
theorem Kept.named_after (kept : Kept contexts settings system) {phase : Phase} (moves : Moves system next c phase)
    (filter : next.filter = system.filter) (entries : next.entries = system.entries)
    (stage : (contexts c).filters = true → phase.filters = true → (system.phase c).filters = true) (d : κ)
    (low : (contexts d).filters = true) (filtered : (next.phase d).filters = true) :
    next.filter d = some (next.entries d) := by
  rw [filter,entries]
  by_cases own : d = c
  · subst own
    exact kept.named d low (stage low (by rwa [moves.1] at filtered))
  · exact kept.named d low (by rwa [moves.2 d own] at filtered)

omit [DecidableEq α] in
/-- A context without a filter moves on. -/
theorem Kept.goto_low (kept : Kept contexts settings system) (low : (contexts c).filters = false) {later : Phase}
    (holds : later.holds = (system.phase c).holds) (handles : later.handles = (system.phase c).handles) :
    Kept contexts settings (system.goto c later) := by
  have moves := goto_moves system c later
  refine ⟨fun l => ?_,fun l => ?_,fun l => ?_,?_,kept.unnamed⟩
  · exact (kept.level l).same (moves.same (.inr (.inl holds))) rfl rfl
  · exact (kept.handlers l).same (moves.same (.inr (.inl handles))) rfl
  · exact (kept.filters l).same (moves.same (.inl low)) (fun _ _ => rfl) rfl
  · exact kept.named_after moves rfl rfl (by simp [low])

/-- A filter is added where the level is low. -/
theorem step_acquired (kept : Kept contexts settings system) (phase : system.phase c = .acquired) :
    ∃ next, step contexts system c = some next ∧ Kept contexts settings next := by
  cases low : (contexts c).filters with
  | false =>
    have later : Kept contexts settings (system.goto c .filtered) := kept.goto_low low (by rw [phase]; rfl) (by rw [phase]; rfl)
    exact ⟨system.goto c .filtered,by simp [step,phase,low],later⟩
  | true =>
    let logger := (system.loggers (contexts c).logger).addFilter (.ofContext c (system.entries c))
    let next := ((system.setFilter c (system.entries c)).setLogger (contexts c).logger logger).goto c .filtered
    have moves : Moves system next c .filtered := ⟨goto_phase_self ..,fun d other => goto_phase_other _ _ other⟩
    refine ⟨next,by simp [step,phase,low,next,logger],fun l => ?_,fun l => ?_,fun l => ?_,?_,?_⟩
    · exact (kept.level l).same (moves.same (.inr (.inl (by rw [phase]; rfl)))) rfl
        (setLogger_field Logger.level (system.setFilter c (system.entries c)) (addFilter_level ..) l)
    · exact (kept.handlers l).same (moves.same (.inr (.inl (by rw [phase]; rfl))))
        (setLogger_field Logger.handlers (system.setFilter c (system.entries c)) (addFilter_handlers ..) l)
    · by_cases here : l = (contexts c).logger
      · subst here
        obtain ⟨added,listed,stored⟩ := kept.filters (contexts c).logger
        have fresh : ¬Filtering contexts system (contexts c).logger c := by simp [On,phase,Phase.filters]
        have absent : Filter.ofContext c (system.entries c) ∉ (system.loggers (contexts c).logger).filters := by
          rw [stored]
          exact not_added (ofContext_entry_injective system.entries) (by simp)
            fun member => fresh ((listed.mem_iff c).mp member)
        refine ⟨added ++ [c],listed.append fresh (moves.more low rfl),?_⟩
        have written : (next.loggers (contexts c).logger).filters =
            (system.loggers (contexts c).logger).filters ++ [.ofContext c (system.entries c)] := by
          simp [next,logger,Logger.addFilter,absent]
        rw [written,stored,List.map_append,List.append_assoc]
        rfl
      · exact (kept.filters l).same (moves.same (.inr (.inr (Ne.symm here)))) (fun _ _ => rfl)
          (congrArg Logger.filters (setLogger_other (system.setFilter c (system.entries c)) logger here))
    · intro d filters filtered
      by_cases own : d = c
      · subst own
        simp [next,System.setFilter,System.setLogger,System.goto]
      · have before := kept.named d filters (by rwa [moves.2 d own] at filtered)
        simpa [next,System.setFilter,System.setLogger,System.goto,own] using before
    · intro d high
      have own : d ≠ c := by
        rintro rfl
        rw [low] at high
        cases high
      simpa [next,System.setFilter,System.setLogger,System.goto,own] using kept.unnamed d high

/-- The handler is added. -/
theorem step_filtered (kept : Kept contexts settings system) (phase : system.phase c = .filtered) :
    ∃ next, step contexts system c = some next ∧ Kept contexts settings next := by
  let logger := (system.loggers (contexts c).logger).addHandler (.ofContext c)
  let next := (system.setLogger (contexts c).logger logger).goto c .inside
  have moves : Moves system next c .inside := ⟨goto_phase_self ..,fun d other => goto_phase_other _ _ other⟩
  refine ⟨next,by simp [step,phase,next,logger],fun l => ?_,fun l => ?_,fun l => ?_,?_,kept.unnamed⟩
  · exact (kept.level l).same (moves.same (.inr (.inl (by rw [phase]; rfl)))) rfl
      (setLogger_field Logger.level system (addHandler_level ..) l)
  · by_cases here : l = (contexts c).logger
    · subst here
      obtain ⟨added,listed,stored⟩ := kept.handlers (contexts c).logger
      have fresh : ¬Handling contexts system (contexts c).logger c := by simp [On,phase,Phase.handles]
      have absent : Handler.ofContext c ∉ (system.loggers (contexts c).logger).handlers := by
        rw [stored]
        exact not_added ofContext_injective (by simp) fun member => fresh ((listed.mem_iff c).mp member)
      refine ⟨added ++ [c],listed.append fresh (moves.more rfl rfl),?_⟩
      have written : (next.loggers (contexts c).logger).handlers =
          (system.loggers (contexts c).logger).handlers ++ [.ofContext c] := by
        simp [next,logger,Logger.addHandler,absent]
      rw [written,stored,List.map_append,List.append_assoc]
      rfl
    · exact (kept.handlers l).same (moves.same (.inr (.inr (Ne.symm here))))
        (congrArg Logger.handlers (setLogger_other system logger here))
  · exact (kept.filters l).same (moves.same (.inr (.inl (by rw [phase]; rfl)))) (fun _ _ => rfl)
      (setLogger_field Logger.filters system (addHandler_filters ..) l)
  · exact kept.named_after moves rfl rfl (by simp [phase,Phase.filters])

/-- The level is given back. -/
theorem step_inside (kept : Kept contexts settings system) (phase : system.phase c = .inside) :
    ∃ next, step contexts system c = some next ∧ Kept contexts settings next := by
  have released : ∃ next, step contexts system c = some next ∧ Moves system next c .released ∧
      next.filter = system.filter ∧ next.entries = system.entries ∧
      (∀ l, (next.loggers l).handlers = (system.loggers l).handlers) ∧
      (∀ l, (next.loggers l).filters = (system.loggers l).filters) ∧
      ∀ l, LevelKept contexts settings next l := by
    cases requested : (contexts c).requested with
    | none =>
      have moves := goto_moves system c .released
      refine ⟨_,by simp [step,phase,requested],moves,rfl,rfl,fun _ => rfl,fun _ => rfl,fun l => ?_⟩
      exact (kept.level l).same (moves.same (.inl (by simp [requested]))) rfl rfl
    | some n =>
      obtain ⟨active,listed,tracks⟩ := kept.level (contexts c).logger
      have member : c ∈ active := (listed.mem_iff c).mpr ⟨rfl,by simp [requested],by rw [phase]; rfl⟩
      have each : ∀ d ∈ active, (contexts d).requested.isSome = true := fun d held => ((listed.mem_iff d).mp held).2.1
      obtain ⟨after,release,frame,left⟩ := release_tracks tracks member each requested
      have moves : Moves system (after.goto c .released) c .released :=
        ⟨goto_phase_self ..,fun d other => (goto_phase_other _ _ other).trans (congrFun frame.phase d)⟩
      refine ⟨after.goto c .released,by simp [step,phase,requested,release],moves,frame.filter,frame.entries,
        frame.handlers,frame.filters,fun l => ?_⟩
      by_cases here : l = (contexts c).logger
      · subst here
        exact ⟨active.erase c,listed.erase (moves.fewer rfl),left⟩
      · exact (kept.level l).same (moves.same (.inr (.inr (Ne.symm here)))) (frame.tracker l here) (frame.level l here)
  obtain ⟨next,stepped,moves,filter,entries,handlers,filters,level⟩ := released
  refine ⟨next,stepped,level,fun l => ?_,fun l => ?_,?_,?_⟩
  · exact (kept.handlers l).same (moves.same (.inr (.inl (by rw [phase]; rfl)))) (handlers l)
  · exact (kept.filters l).same (moves.same (.inr (.inl (by rw [phase]; rfl)))) (fun d _ => congrFun entries d) (filters l)
  · exact kept.named_after moves filter entries (by simp [phase,Phase.filters])
  · intro d high
    rw [filter]
    exact kept.unnamed d high

/-- The filter is removed where there is one. -/
theorem step_released (kept : Kept contexts settings system) (phase : system.phase c = .released) :
    ∃ next, step contexts system c = some next ∧ Kept contexts settings next := by
  cases low : (contexts c).filters with
  | false =>
    have none := kept.unnamed c low
    have later : Kept contexts settings (system.goto c .unfiltered) := kept.goto_low low (by rw [phase]; rfl) (by rw [phase]; rfl)
    exact ⟨system.goto c .unfiltered,by simp [step,phase,none],later⟩
  | true =>
    have named := kept.named c low (by rw [phase]; rfl)
    obtain ⟨n,requested,-⟩ := (Option.any_eq_true _ _).mp low
    let logger := (system.loggers (contexts c).logger).removeFilter (.ofContext c (system.entries c))
    let next := (system.setLogger (contexts c).logger logger).goto c .unfiltered
    have moves : Moves system next c .unfiltered := ⟨goto_phase_self ..,fun d other => goto_phase_other _ _ other⟩
    refine ⟨next,by simp [step,phase,requested,named,next,logger],fun l => ?_,fun l => ?_,fun l => ?_,?_,kept.unnamed⟩
    · exact (kept.level l).same (moves.same (.inr (.inl (by rw [phase]; rfl)))) rfl
        (setLogger_field Logger.level system (removeFilter_level ..) l)
    · exact (kept.handlers l).same (moves.same (.inr (.inl (by rw [phase]; rfl))))
        (setLogger_field Logger.handlers system (removeFilter_handlers ..) l)
    · by_cases here : l = (contexts c).logger
      · subst here
        obtain ⟨added,listed,stored⟩ := kept.filters (contexts c).logger
        refine ⟨added.erase c,listed.erase (moves.fewer rfl),?_⟩
        have written : (next.loggers (contexts c).logger).filters =
            (system.loggers (contexts c).logger).filters.erase (.ofContext c (system.entries c)) := by
          simp [next,logger,Logger.removeFilter]
        rw [written,stored]
        exact erase_added (ofContext_entry_injective system.entries) (by simp) added
      · exact (kept.filters l).same (moves.same (.inr (.inr (Ne.symm here)))) (fun _ _ => rfl)
          (congrArg Logger.filters (setLogger_other system logger here))
    · exact kept.named_after moves rfl rfl (by simp [Phase.filters])

/-- The handler is removed. -/
theorem step_unfiltered (kept : Kept contexts settings system) (phase : system.phase c = .unfiltered) :
    ∃ next, step contexts system c = some next ∧ Kept contexts settings next := by
  let logger := (system.loggers (contexts c).logger).removeHandler (.ofContext c)
  let next := (system.setLogger (contexts c).logger logger).goto c .outside
  have moves : Moves system next c .outside := ⟨goto_phase_self ..,fun d other => goto_phase_other _ _ other⟩
  refine ⟨next,by simp [step,phase,next,logger],fun l => ?_,fun l => ?_,fun l => ?_,?_,kept.unnamed⟩
  · exact (kept.level l).same (moves.same (.inr (.inl (by rw [phase]; rfl)))) rfl
      (setLogger_field Logger.level system (removeHandler_level ..) l)
  · by_cases here : l = (contexts c).logger
    · subst here
      obtain ⟨added,listed,stored⟩ := kept.handlers (contexts c).logger
      refine ⟨added.erase c,listed.erase (moves.fewer rfl),?_⟩
      have written : (next.loggers (contexts c).logger).handlers =
          (system.loggers (contexts c).logger).handlers.erase (.ofContext c) := by
        simp [next,logger,Logger.removeHandler]
      rw [written,stored]
      exact erase_added ofContext_injective (by simp) added
    · exact (kept.handlers l).same (moves.same (.inr (.inr (Ne.symm here))))
        (congrArg Logger.handlers (setLogger_other system logger here))
  · exact (kept.filters l).same (moves.same (.inr (.inl (by rw [phase]; rfl)))) (fun _ _ => rfl)
      (setLogger_field Logger.filters system (removeHandler_filters ..) l)
  · exact kept.named_after moves rfl rfl (by simp [Phase.filters])

/-- A context can always take its next step. -/
theorem step_kept (kept : Kept contexts settings system) (c : κ) :
    ∃ next, step contexts system c = some next ∧ Kept contexts settings next := by
  cases phase : system.phase c with
  | outside => exact step_outside kept phase
  | acquired => exact step_acquired kept phase
  | filtered => exact step_filtered kept phase
  | inside => exact step_inside kept phase
  | released => exact step_released kept phase
  | unfiltered => exact step_unfiltered kept phase

theorem run_kept (kept : Kept contexts settings system) (schedule : List κ) :
    ∃ next, run contexts system schedule = some next ∧ Kept contexts settings next := by
  induction schedule generalizing system with
  | nil => exact ⟨system,rfl,kept⟩
  | cons c rest ih =>
    obtain ⟨middle,stepped,keptMiddle⟩ := step_kept kept c
    obtain ⟨next,ran,keptNext⟩ := ih keptMiddle
    exact ⟨next,by simpa [run,stepped] using ran,keptNext⟩

end Step

/-! ### The contexts together -/

section Together
variable {contexts : κ → Context α} {settings : α → Settings} {system : System κ α}

omit [DecidableEq κ] [DecidableEq α] in
/-- The level of a logger is one that is asked for, and none that is asked for is lower. -/
theorem Kept.level_isLeast (kept : Kept contexts settings system) {l : α} {c : κ} (held : Holding contexts system l c) :
    IsLeast {n | ∃ d, Holding contexts system l d ∧ (contexts d).requested = some n} (system.loggers l).level := by
  obtain ⟨active,listed,tracks⟩ := kept.level l
  cases known : system.tracker l with
  | none =>
    rw [known] at tracks
    have member := (listed.mem_iff c).mpr held
    rw [tracks.1] at member
    cases member
  | some state =>
    rw [known] at tracks
    obtain ⟨-,perm,lowest⟩ := tracks
    obtain ⟨asked,least⟩ := List.min?_eq_some_iff.mp lowest
    have member (n : Int) : n ∈ state.requests ↔
        ∃ d, Holding contexts system l d ∧ (contexts d).requested = some n := by
      rw [perm.mem_iff,List.mem_filterMap]
      exact exists_congr fun d => and_congr_left' (listed.mem_iff d)
    exact ⟨(member _).mp asked,fun n requested => least n ((member n).mpr requested)⟩

omit [DecidableEq κ] [DecidableEq α] in
theorem Kept.tracker_iff (kept : Kept contexts settings system) (l : α) :
    (system.tracker l).isSome = true ↔ ∃ c, Holding contexts system l c := by
  obtain ⟨active,listed,tracks⟩ := kept.level l
  cases known : system.tracker l with
  | none =>
    rw [known] at tracks
    have idle (c : κ) : ¬Holding contexts system l c := by
      rw [← listed.mem_iff,tracks.1]
      exact List.not_mem_nil
    simp [idle]
  | some state =>
    rw [known] at tracks
    obtain ⟨-,perm,lowest⟩ := tracks
    obtain ⟨asked,-⟩ := List.min?_eq_some_iff.mp lowest
    obtain ⟨c,active,-⟩ := List.mem_filterMap.mp (perm.mem_iff.mp asked)
    simpa using ⟨c,(listed.mem_iff c).mp active⟩

omit [DecidableEq κ] [DecidableEq α] in
/-- A logger that no context is on is as it was. -/
theorem Kept.restored (kept : Kept contexts settings system) {l : α}
    (left : ∀ c, (contexts c).logger = l → system.phase c = .outside) : system.loggers l = (settings l).logger := by
  have idle (has : κ → Bool) {stage : Phase → Bool} (outside : stage .outside = false) (c : κ) :
      ¬On contexts system l has stage c := by
    rintro ⟨here,-,come⟩
    rw [left c here,outside] at come
    cases come
  obtain ⟨active,listed,tracks⟩ := kept.level l
  obtain ⟨handling,listedHandlers,handlers⟩ := kept.handlers l
  obtain ⟨filtering,listedFilters,filters⟩ := kept.filters l
  have noHandlers := listedHandlers.eq_nil (idle _ rfl)
  have noFilters := listedFilters.eq_nil (idle _ rfl)
  have level : (system.loggers l).level = (settings l).level := by
    cases known : system.tracker l with
    | none =>
      rw [known] at tracks
      exact tracks.2
    | some state =>
      obtain ⟨c,held⟩ := (kept.tracker_iff l).mp (by rw [known]; rfl)
      exact absurd held (idle _ rfl c)
  rw [noHandlers,List.map_nil,List.append_nil] at handlers
  rw [noFilters,List.map_nil,List.append_nil] at filters
  cases logger : system.loggers l
  simp_all [Settings.logger]

end Together

/-- In every order of the steps of the contexts none of them raises. A logger with an
    active context that has a level has the lowest of their levels; the tracker knows a
    logger exactly while there is one; and a logger that all contexts have left is as it
    was before. -/
theorem contexts_compose (contexts : κ → Context α) (settings : α → Settings) (schedule : List κ) :
    ∃ system, run contexts (initial settings) schedule = some system ∧ ∀ l,
      ((∃ c, Holding contexts system l c) →
        IsLeast {n | ∃ c, Holding contexts system l c ∧ (contexts c).requested = some n} (system.loggers l).level) ∧
      ((system.tracker l).isSome = true ↔ ∃ c, Holding contexts system l c) ∧
      ((∀ c, (contexts c).logger = l → system.phase c = .outside) → system.loggers l = (settings l).logger) := by
  obtain ⟨system,ran,kept⟩ := run_kept (initial_kept contexts settings) schedule
  exact ⟨system,ran,fun l => ⟨fun ⟨_,held⟩ => kept.level_isLeast held,kept.tracker_iff l,kept.restored⟩⟩

/-- One task leaves while another that it overlaps is still inside. -/
example :
    (run (fun _ : Bool => ⟨(),some (.name .debug)⟩) (initial fun _ => ⟨30,[],[]⟩)
        [false,false,false,true,true,true,false,false,false]).map (fun system => (system.loggers ()).level) =
      some 10 := by
  decide

end OasisPlatform.LogContexts
