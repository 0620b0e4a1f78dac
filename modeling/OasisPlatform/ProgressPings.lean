import Mathlib.Algebra.Order.Ring.Int
import OasisPlatform.Dispatch

/-!
The progress that loss chunks report while an analysis runs. A ping loads the analysis,
sets the number of events or adds to the number of complete ones with an `F` expression,
and saves the whole instance, so that it also stores what it loaded in all other columns.
The counters are right, and pings change nothing else, as long as no save meets a change
to a column that it stores but did not set (`pings_counted`).
-/
namespace OasisPlatform.ProgressPings
open OasisPlatform.SharedRow OasisPlatform.Models OasisPlatform.AnalysisTasks OasisPlatform.Dispatch
set_option linter.unusedSimpArgs false

/-- The `events_total` and `events_complete` of a message where it has them, as
    `int(float(..))` and `int(..)` convert them; a conversion that raises gives none. -/
structure Ping where
  eventsTotal : Option (Option Int)
  eventsComplete : Option (Option Int)

/-- A pending save, with a number that is added to `num_events_complete` in the
    database (`F('num_events_complete') + number`). -/
structure Store where
  save : AnalysisSave
  added : Option Int

def Store.apply (store : Store) (row : AnalysisRow) : AnalysisRow :=
  match store.added with
  | none => store.save.apply row
  | some number => Function.update (store.save.apply row) .numEventsComplete (row .numEventsComplete + number)

/-- `AnalysisStatusConsumer.handle_content` from the row that `get_analysis` loads to its
    save, none where it raises before. -/
def handleContent (ping : Ping) (row : AnalysisRow) : Option Store := do
  let analysis ← match ping.eventsTotal with
    | none => some (load row)
    | some converted => converted.map ((load row).set .numEventsTotal)
  match ping.eventsComplete with
  | none => some ⟨Analysis.save analysis,none⟩
  | some converted => converted.map fun number => ⟨Analysis.save analysis,some number⟩

/-- What a ping has is converted. -/
def Ping.Converts (ping : Ping) : Prop := ping.eventsTotal ≠ some none ∧ ping.eventsComplete ≠ some none

/-- The columns that a ping sets. -/
def Ping.sets (ping : Ping) : Column → Bool
  | .numEventsTotal => ping.eventsTotal.isSome
  | .numEventsComplete => ping.eventsComplete.isSome
  | _ => false

def counters : List Column := [.numEventsTotal,.numEventsComplete]

/-- A ping since the counters were reset, one that loaded the row before, or a task
    handler. -/
inductive Caller where
  | ping (ping : Ping)
  | earlierPing (ping : Ping)
  | handler

/-- A call that has loaded the row: its pending saves, and the columns that saves have
    changed since. -/
structure Call where
  caller : Caller
  todo : List Store
  changed : Column → Bool

/-- The row, and the calls in the order in which they have loaded it. -/
structure State where
  row : AnalysisRow
  calls : List Call

inductive Event where
  | ping (ping : Ping)
  | handler (process : Process)
  | save (call : Nat)

def Call.note (old new : AnalysisRow) (call : Call) : Call :=
  { call with changed := fun c => call.changed c || decide (new c ≠ old c) }

/-- A call loads the row, or does its next save. -/
def State.step (state : State) : Event → State
  | .ping ping =>
    { state with calls := state.calls ++ [⟨.ping ping,(handleContent ping state.row).toList,fun _ => false⟩] }
  | .handler process =>
    { state with calls := state.calls ++ [⟨.handler,(process.body state.row).map (⟨·,none⟩),fun _ => false⟩] }
  | .save i =>
    match state.calls[i]? with
    | some ⟨caller,store :: todo,changed⟩ =>
      let row := store.apply state.row
      { row := row, calls := (state.calls.set i ⟨caller,todo,changed⟩).map (Call.note state.row row) }
    | _ => state

def State.run (state : State) (events : List Event) : State := events.foldl State.step state

/-- The pings that were received since the reset, in order. -/
def received (calls : List Call) : List Ping :=
  calls.filterMap fun call => match call.caller with
    | .ping ping => some ping
    | _ => none

/-- Those of them that are done. -/
def handled (calls : List Call) : List Ping := received (calls.filter fun call => call.todo.isEmpty)

/-- The sum of all `events_complete`. -/
def sumComplete (pings : List Ping) : Int := (pings.map fun ping => ping.eventsComplete.join.getD 0).sum

/-- The last `events_total`, 0 where there is none. -/
def lastTotal (pings : List Ping) : Int := (pings.filterMap fun ping => ping.eventsTotal.join).getLast?.getD 0

/-- The pings of a run. -/
def pingsOf (events : List Event) : List Ping :=
  events.filterMap fun event => match event with
    | .ping ping => some ping
    | _ => none

/-- The counters are those of some pings. -/
def Progress (row : AnalysisRow) (pings : List Ping) : Prop :=
  row .numEventsTotal = lastTotal pings ∧ row .numEventsComplete = sumComplete pings

def NoPingUnderWay (state : State) : Prop := ∀ call ∈ state.calls, ∀ ping, call.caller = .ping ping → call.todo = []

/-- `_reset_loss_progress` has just been saved; calls may be under way that loaded the row
    before it. -/
structure JustReset (state : State) : Prop where
  total : state.row .numEventsTotal = 0
  complete : state.row .numEventsComplete = 0
  earlier : ∀ call ∈ state.calls, (∀ ping, call.caller ≠ .ping ping) ∧ ∀ c, call.changed c = true
  handlers : ∀ call ∈ state.calls, call.caller = .handler → ∀ store ∈ call.todo, store.added = none

/-- A ping saves when no column that it does not set has been changed since it loaded the
    row, and before a later ping with a number of events; one that loaded the row before
    the reset does not save after it. A task handler does not set the counters, and when it
    stores one, nobody has changed it since it loaded the row. -/
def Calm (state : State) : Event → Prop
  | .ping ping => ping.Converts
  | .handler _ => True
  | .save i => ∀ caller store todo changed, state.calls[i]? = some ⟨caller,store :: todo,changed⟩ →
    match caller with
    | .ping ping => (∀ c, ping.sets c = false → changed c = false) ∧
        (ping.eventsTotal.isSome → ∀ later ∈ handled (state.calls.drop (i + 1)), later.eventsTotal = none)
    | .earlierPing _ => False
    | .handler => ∀ c ∈ counters, store.save.writes c = true → c ∉ store.save.loaded.assigned ∧ changed c = false

/-- A ping that saves leaves the columns that it does not set as they are. -/
def PingKeepsOthers (state : State) : Event → Prop
  | .save i => ∀ call ∈ state.calls[i]?, ∀ ping, call.caller = .ping ping ∨ call.caller = .earlierPing ping →
      ∀ c, ping.sets c = false → (state.step (.save i)).row c = state.row c
  | _ => True

/-- The save of a ping whose numbers are converted. -/
def Ping.store (ping : Ping) (row : AnalysisRow) : Store where
  save := Analysis.save (match ping.eventsTotal.join with
    | none => load row
    | some number => (load row).set .numEventsTotal number)
  added := ping.eventsComplete.join

section Ping
variable {ping : Ping}

theorem handleContent_converts (converts : ping.Converts) (row : AnalysisRow) :
    handleContent ping row = some (ping.store row) := by
  obtain ⟨total,complete⟩ := ping
  rcases total with _ | _ | total <;> rcases complete with _ | _ | complete <;>
    simp [Ping.Converts] at converts <;> rfl

theorem store_copies (row : AnalysisRow) : (ping.store row).save.loaded.Copies row := by
  unfold Ping.store
  cases ping.eventsTotal.join with
  | none => exact load_copies row
  | some number => exact (load_copies row).set _ _

theorem store_unassigned {c : Column} (unset : ping.sets c = false) (row : AnalysisRow) :
    c ∉ (ping.store row).save.loaded.assigned := by
  obtain ⟨total,complete⟩ := ping
  rcases total with _ | _ | total
  · simp [Ping.store]
  · simp [Ping.store]
  · simp only [Ping.store,Option.join_some,save_loaded,set_assigned,load_assigned,List.mem_singleton]
    rintro rfl
    cases unset

theorem store_apply_unset {c : Column} (unset : ping.sets c = false) (old row : AnalysisRow) :
    (ping.store old).apply row c = (ping.store old).save.loaded.values c := by
  have stored : (ping.store old).save.apply row c = (ping.store old).save.loaded.values c :=
    Save.apply_writes rfl row
  unfold Store.apply
  cases added : (ping.store old).added with
  | none => exact stored
  | some number =>
    have other : c ≠ .numEventsComplete := by
      rintro rfl
      simp only [Ping.sets,Option.isSome_eq_false_iff,Option.isNone_iff_eq_none] at unset
      simp [Ping.store,unset] at added
    simp only [Function.update_of_ne other]
    exact stored

theorem store_apply_complete {number : Int} (given : ping.eventsComplete = some (some number))
    (old row : AnalysisRow) :
    (ping.store old).apply row .numEventsComplete = row .numEventsComplete + number := by
  simp [Store.apply,Ping.store,given]

theorem store_apply_total {number : Int} (given : ping.eventsTotal = some (some number)) (old row : AnalysisRow) :
    (ping.store old).apply row .numEventsTotal = number := by
  have stored : (ping.store old).save.apply row .numEventsTotal = number := by
    simp [Ping.store,given,Save.apply]
  unfold Store.apply
  cases (ping.store old).added with
  | none => exact stored
  | some number => simpa using stored

end Ping

@[simp] theorem received_append (left right : List Call) : received (left ++ right) = received left ++ received right :=
  List.filterMap_append

@[simp] theorem handled_append (left right : List Call) : handled (left ++ right) = handled left ++ handled right := by
  simp [handled]

@[simp] theorem received_note (old new : AnalysisRow) (calls : List Call) :
    received (calls.map (Call.note old new)) = received calls := by
  unfold received
  rw [List.filterMap_map]
  rfl

theorem received_cons (call : Call) (rest : List Call) : received (call :: rest) = received [call] ++ received rest :=
  received_append [call] rest

theorem handled_cons (call : Call) (rest : List Call) : handled (call :: rest) = handled [call] ++ handled rest :=
  handled_append [call] rest

@[simp] theorem handled_note (old new : AnalysisRow) (calls : List Call) :
    handled (calls.map (Call.note old new)) = handled calls := by
  have one (call : Call) : handled [Call.note old new call] = handled [call] := by
    obtain ⟨caller,todo,changed⟩ := call
    cases caller <;> cases todo <;> rfl
  induction calls with
  | nil => rfl
  | cons call rest ih => rw [List.map_cons,handled_cons,one,ih,← handled_cons]

theorem received_none {calls : List Call} (none_sent : ∀ call ∈ calls, ∀ ping, call.caller ≠ .ping ping) :
    received calls = [] := by
  unfold received
  rw [List.filterMap_eq_nil_iff]
  intro call listed
  cases caller : call.caller with
  | ping ping => exact absurd caller (none_sent call listed ping)
  | earlierPing ping => rfl
  | handler => rfl

/-- When no ping is under way, all that were received are done. -/
theorem handled_received {calls : List Call} (done : ∀ call ∈ calls, ∀ ping, call.caller = .ping ping → call.todo = []) :
    handled calls = received calls := by
  induction calls with
  | nil => rfl
  | cons call rest ih =>
    have later := ih fun other listed => done other (List.mem_cons_of_mem _ listed)
    have one : handled [call] = received [call] := by
      obtain ⟨caller,todo,changed⟩ := call
      cases caller with
      | ping ping =>
        have finished : todo = [] := done _ List.mem_cons_self ping rfl
        simp [handled,finished]
      | earlierPing ping => cases todo <;> rfl
      | handler => cases todo <;> rfl
    rw [handled_cons,one,later,← received_cons]

theorem sumComplete_insert (before after : List Ping) (ping : Ping) :
    sumComplete (before ++ [ping] ++ after) =
      sumComplete (before ++ after) + ping.eventsComplete.join.getD 0 := by
  simp only [sumComplete,List.map_append,List.sum_append,List.map_cons,List.map_nil,List.sum_cons,List.sum_nil]
  omega

theorem lastTotal_insert_none (before after : List Ping) {ping : Ping} (absent : ping.eventsTotal = none) :
    lastTotal (before ++ [ping] ++ after) = lastTotal (before ++ after) := by
  simp [lastTotal,absent]

theorem lastTotal_insert {before after : List Ping} {ping : Ping} {number : Int}
    (given : ping.eventsTotal = some (some number)) (last : ∀ later ∈ after, later.eventsTotal = none) :
    lastTotal (before ++ [ping] ++ after) = number := by
  have empty : (after.filterMap fun ping => ping.eventsTotal.join) = [] := by
    rw [List.filterMap_eq_nil_iff]
    intro later listed
    simp [last later listed]
  simp [lastTotal,given,empty]

/-- The calls before and after one of them. -/
theorem calls_split {calls : List Call} {i : Nat} {call : Call} (listed : calls[i]? = some call) (next : Call) :
    calls = calls.take i ++ call :: calls.drop (i + 1) ∧
      calls.set i next = calls.take i ++ next :: calls.drop (i + 1) := by
  obtain ⟨bound,rfl⟩ := List.getElem?_eq_some_iff.mp listed
  constructor
  · rw [← List.drop_eq_getElem_cons bound,List.take_append_drop]
  · rw [List.set_eq_take_append_cons_drop,if_pos bound]

/-- A ping that was under way is done. -/
theorem handled_done {calls : List Call} {i : Nat} {ping : Ping} {store : Store} {todo : List Store}
    {changed : Column → Bool} (listed : calls[i]? = some ⟨.ping ping,store :: todo,changed⟩) :
    handled calls = handled (calls.take i) ++ handled (calls.drop (i + 1)) ∧
      handled (calls.set i ⟨.ping ping,[],changed⟩) =
        handled (calls.take i) ++ [ping] ++ handled (calls.drop (i + 1)) := by
  obtain ⟨whole,next⟩ := calls_split listed ⟨.ping ping,[],changed⟩
  constructor
  · conv_lhs => rw [whole]
    rw [handled_append,handled_cons]
    rfl
  · rw [next,handled_append,handled_cons,List.append_assoc]
    rfl

/-- The save of a task handler is not counted. -/
theorem handled_handler {calls : List Call} {i : Nat} {store : Store} {todo : List Store} {changed : Column → Bool}
    (listed : calls[i]? = some ⟨.handler,store :: todo,changed⟩) :
    handled (calls.set i ⟨.handler,todo,changed⟩) = handled calls := by
  obtain ⟨whole,next⟩ := calls_split listed ⟨.handler,todo,changed⟩
  have uncounted (todo : List Store) : handled [⟨.handler,todo,changed⟩] = [] := by cases todo <;> rfl
  conv_rhs => rw [whole]
  rw [next,handled_append,handled_append,handled_cons,handled_cons ⟨.handler,store :: todo,changed⟩,uncounted,uncounted]

/-! ### Steps and runs -/

/-- The counters are those of the pings that are done; each call that is under way has
    what is stored in the columns that it did not set and that were not changed since. -/
structure Counted (state : State) : Prop where
  total : state.row .numEventsTotal = lastTotal (handled state.calls)
  complete : state.row .numEventsComplete = sumComplete (handled state.calls)
  copied : ∀ call ∈ state.calls, ∀ store ∈ call.todo, ∀ c, c ∉ store.save.loaded.assigned → call.changed c = false →
    store.save.loaded.values c = state.row c
  pings : ∀ call ∈ state.calls, ∀ ping, call.caller = .ping ping →
    ping.Converts ∧ (call.todo = [] ∨ ∃ row, call.todo = [ping.store row])
  handlers : ∀ call ∈ state.calls, call.caller = .handler → ∀ store ∈ call.todo, store.added = none

theorem counted_start {state : State} (reset : JustReset state) : Counted state := by
  have none_handled : handled state.calls = [] :=
    received_none fun call listed => (reset.earlier call (List.mem_filter.mp listed).1).1
  refine ⟨?_,?_,?_,?_,reset.handlers⟩
  · rw [reset.total,none_handled]
    rfl
  · rw [reset.complete,none_handled]
    rfl
  · intro call listed store _ c _ calm
    rw [(reset.earlier call listed).2 c] at calm
    cases calm
  · intro call listed ping isPing
    exact absurd isPing ((reset.earlier call listed).1 ping)

/-- A call that has loaded the row. -/
theorem counted_load {state : State} (counted : Counted state) {call : Call} (underWay : handled [call] = [])
    (copies : ∀ store ∈ call.todo, store.save.loaded.Copies state.row)
    (ping : ∀ ping, call.caller = .ping ping → ping.Converts ∧ (call.todo = [] ∨ ∃ row, call.todo = [ping.store row]))
    (handler : call.caller = .handler → ∀ store ∈ call.todo, store.added = none) :
    Counted { state with calls := state.calls ++ [call] } := by
  refine ⟨?_,?_,?_,?_,?_⟩
  · simpa [underWay] using counted.total
  · simpa [underWay] using counted.complete
  · intro other listed store pending c unassigned calm
    rcases List.mem_append.mp listed with old | new
    · exact counted.copied other old store pending c unassigned calm
    · cases List.mem_singleton.mp new
      exact copies store pending c unassigned
  · intro other listed
    rcases List.mem_append.mp listed with old | new
    · exact counted.pings other old
    · cases List.mem_singleton.mp new
      exact ping
  · intro other listed
    rcases List.mem_append.mp listed with old | new
    · exact counted.handlers other old
    · cases List.mem_singleton.mp new
      exact handler

/-- What `.save i` does when there is something to save. -/
theorem step_save {state : State} {i : Nat} {caller : Caller} {store : Store} {todo : List Store}
    {changed : Column → Bool} (listed : state.calls[i]? = some ⟨caller,store :: todo,changed⟩) :
    state.step (.save i) =
      { row := store.apply state.row
        calls := (state.calls.set i ⟨caller,todo,changed⟩).map (Call.note state.row (store.apply state.row)) } := by
  simp only [State.step,listed]

/-- Either nothing is to be saved and nothing happens, or a call does its next save. -/
theorem step_save_cases (state : State) (i : Nat) :
    state.step (.save i) = state ∨
      ∃ caller store todo changed, state.calls[i]? = some ⟨caller,store :: todo,changed⟩ := by
  cases listed : state.calls[i]? with
  | none => exact .inl (by simp only [State.step,listed])
  | some call =>
    obtain ⟨caller,todo,changed⟩ := call
    cases todo with
    | nil => exact .inl (by simp only [State.step,listed])
    | cons store todo => exact .inr ⟨caller,store,todo,changed,rfl⟩

/-- The save of a call notes what it changes, so that the other calls still have what is
    stored in the columns that were not changed since they loaded the row. -/
theorem counted_save {state : State} {i : Nat} {caller : Caller} {store : Store} {todo : List Store}
    {changed : Column → Bool} (counted : Counted state)
    (listed : state.calls[i]? = some ⟨caller,store :: todo,changed⟩)
    (total : store.apply state.row .numEventsTotal = lastTotal (handled (state.calls.set i ⟨caller,todo,changed⟩)))
    (complete : store.apply state.row .numEventsComplete =
      sumComplete (handled (state.calls.set i ⟨caller,todo,changed⟩))) :
    Counted (state.step (.save i)) := by
  have member : ⟨caller,store :: todo,changed⟩ ∈ state.calls := List.mem_of_getElem? listed
  -- a call after the save is one from before it, with no more to save
  have back : ∀ call ∈ (state.step (.save i)).calls, ∃ old ∈ state.calls, old.caller = call.caller ∧
      (call.todo = old.todo ∨ old.todo = store :: call.todo) ∧
      call.changed = (Call.note state.row (store.apply state.row) old).changed := by
    intro call after
    rw [step_save listed] at after
    obtain ⟨between,inSet,rfl⟩ := List.mem_map.mp after
    rcases List.mem_or_eq_of_mem_set inSet with old | rfl
    · exact ⟨between,old,rfl,.inl rfl,rfl⟩
    · exact ⟨_,member,rfl,.inr rfl,rfl⟩
  refine ⟨?_,?_,?_,?_,?_⟩
  · rw [step_save listed]
    simpa only [handled_note] using total
  · rw [step_save listed]
    simpa only [handled_note] using complete
  · intro call after pending inTodo c unassigned calm
    obtain ⟨old,before,_,left,notes⟩ := back call after
    have inOld : pending ∈ old.todo := by
      rcases left with same | rest
      · exact same ▸ inTodo
      · exact rest ▸ List.mem_cons_of_mem _ inTodo
    rw [notes] at calm
    simp only [Call.note,Bool.or_eq_false_iff,decide_eq_false_iff_not,not_not] at calm
    rw [counted.copied old before pending inOld c unassigned calm.1,step_save listed]
    exact calm.2.symm
  · intro call after ping isPing
    obtain ⟨old,before,sameCaller,left,_⟩ := back call after
    obtain ⟨converts,pending⟩ := counted.pings old before ping (sameCaller.trans isPing)
    refine ⟨converts,?_⟩
    rcases left with same | rest
    · exact same ▸ pending
    · rcases pending with none_left | ⟨row,one⟩
      · rw [rest] at none_left
        cases none_left
      · rw [rest] at one
        exact .inl (List.cons.inj one).2
  · intro call after isHandler pending inTodo
    obtain ⟨old,before,sameCaller,left,_⟩ := back call after
    refine counted.handlers old before (sameCaller.trans isHandler) pending ?_
    rcases left with same | rest
    · exact same ▸ inTodo
    · exact rest ▸ List.mem_cons_of_mem _ inTodo

/-- A ping stores in the columns that it does not set, and that were not changed since it
    loaded the row, what is there. -/
theorem ping_apply_unset {state : State} {i : Nat} {ping : Ping} {store : Store} {todo : List Store}
    {changed : Column → Bool} (counted : Counted state)
    (listed : state.calls[i]? = some ⟨.ping ping,store :: todo,changed⟩) {c : Column} (unset : ping.sets c = false)
    (calm : changed c = false) : store.apply state.row c = state.row c := by
  have member := List.mem_of_getElem? listed
  obtain ⟨_,none_left | ⟨old,one⟩⟩ := counted.pings _ member ping rfl
  · cases none_left
  · obtain ⟨rfl,_⟩ := List.cons.inj one
    rw [store_apply_unset unset]
    exact counted.copied _ member _ List.mem_cons_self c (store_unassigned unset old) calm

theorem counted_ping_save {state : State} {i : Nat} {ping : Ping} {store : Store} {todo : List Store}
    {changed : Column → Bool} (counted : Counted state)
    (listed : state.calls[i]? = some ⟨.ping ping,store :: todo,changed⟩)
    (calm : ∀ c, ping.sets c = false → changed c = false)
    (inOrder : ping.eventsTotal.isSome → ∀ later ∈ handled (state.calls.drop (i + 1)), later.eventsTotal = none) :
    Counted (state.step (.save i)) := by
  have unset := fun c (other : ping.sets c = false) => ping_apply_unset counted listed other (calm c other)
  obtain ⟨converts,none_left | ⟨old,one⟩⟩ := counted.pings _ (List.mem_of_getElem? listed) ping rfl
  · cases none_left
  obtain ⟨rfl,rfl⟩ := List.cons.inj one
  obtain ⟨before,after⟩ := handled_done listed
  refine counted_save counted listed ?_ ?_
  · rw [after]
    rcases total : ping.eventsTotal with _ | _ | number
    · rw [lastTotal_insert_none _ _ total,← before,unset .numEventsTotal (by simp [Ping.sets,total])]
      exact counted.total
    · exact absurd total converts.1
    · rw [store_apply_total total,lastTotal_insert total (inOrder (by simp [total]))]
  · rw [after,sumComplete_insert,← before,← counted.complete]
    rcases complete : ping.eventsComplete with _ | _ | number
    · rw [unset .numEventsComplete (by simp [Ping.sets,complete])]
      simp
    · exact absurd complete converts.2
    · rw [store_apply_complete complete]
      simp

theorem counted_handler_save {state : State} {i : Nat} {store : Store} {todo : List Store} {changed : Column → Bool}
    (counted : Counted state) (listed : state.calls[i]? = some ⟨.handler,store :: todo,changed⟩)
    (calm : ∀ c ∈ counters, store.save.writes c = true → c ∉ store.save.loaded.assigned ∧ changed c = false) :
    Counted (state.step (.save i)) := by
  have member := List.mem_of_getElem? listed
  have plain : store.added = none := counted.handlers _ member rfl store List.mem_cons_self
  have kept : ∀ c ∈ counters, store.apply state.row c = state.row c := by
    intro c counter
    simp only [Store.apply,plain]
    cases written : store.save.writes c with
    | false => exact Save.apply_other written _
    | true =>
      obtain ⟨unassigned,unchanged⟩ := calm c counter written
      rw [Save.apply_writes written]
      exact counted.copied _ member store List.mem_cons_self c unassigned unchanged
  refine counted_save counted listed ?_ ?_
  · rw [kept .numEventsTotal (by simp [counters]),handled_handler listed]
    exact counted.total
  · rw [kept .numEventsComplete (by simp [counters]),handled_handler listed]
    exact counted.complete

theorem step_counted (state : State) (event : Event) (counted : Counted state) (calm : Calm state event) :
    Counted (state.step event) := by
  cases event with
  | ping ping =>
    have stored := handleContent_converts calm state.row
    refine counted_load counted ?_ ?_ ?_ ?_
    · simp [handled,stored,received]
    · intro store pending
      rw [stored] at pending
      rw [List.mem_singleton.mp pending]
      exact store_copies state.row
    · intro other same
      cases same
      exact ⟨calm,.inr ⟨state.row,by rw [stored]; rfl⟩⟩
    · intro isHandler
      cases isHandler
  | handler process =>
    refine counted_load counted ?_ ?_ ?_ ?_
    · cases saves : (process.body state.row).map (Store.mk · none) <;> simp [handled,received]
    · intro store pending
      obtain ⟨save,saved,rfl⟩ := List.mem_map.mp pending
      exact process_copies process state.row saved
    · intro ping isPing
      cases isPing
    · intro _ store pending
      obtain ⟨save,_,rfl⟩ := List.mem_map.mp pending
      rfl
  | save i =>
    rcases step_save_cases state i with same | ⟨caller,store,todo,changed,listed⟩
    · rw [same]
      exact counted
    · have now := calm caller store todo changed listed
      cases caller with
      | ping ping => exact counted_ping_save counted listed now.1 now.2
      | earlierPing ping => exact now.elim
      | handler => exact counted_handler_save counted listed now

theorem step_pingKeepsOthers (state : State) (event : Event) (counted : Counted state) (calm : Calm state event) :
    PingKeepsOthers state event := by
  cases event with
  | ping ping => trivial
  | handler process => trivial
  | save i =>
    intro call found ping isPing c unset
    rcases step_save_cases state i with same | ⟨caller,store,todo,changed,listed⟩
    · rw [same]
    · cases (Option.mem_def.mp found).symm.trans listed
      have now := calm caller store todo changed listed
      rcases isPing with rfl | rfl
      · rw [step_save listed]
        exact ping_apply_unset counted listed unset (now.1 c unset)
      · exact now.elim

theorem step_received (state : State) (event : Event) :
    received (state.step event).calls = received state.calls ++ pingsOf [event] := by
  cases event with
  | ping ping => simp [State.step,received,pingsOf]
  | handler process => simp [State.step,received,pingsOf]
  | save i =>
    rcases step_save_cases state i with same | ⟨caller,store,todo,changed,listed⟩
    · simp [same,pingsOf]
    · obtain ⟨whole,next⟩ := calls_split listed ⟨caller,todo,changed⟩
      have same : received [⟨caller,todo,changed⟩] = received [⟨caller,store :: todo,changed⟩] := rfl
      rw [step_save listed,received_note,next]
      conv_rhs => rw [whole]
      rw [received_append,received_append,received_cons,received_cons ⟨caller,store :: todo,changed⟩,same]
      simp [pingsOf]

theorem run_received (state : State) (events : List Event) :
    received (state.run events).calls = received state.calls ++ pingsOf events := by
  induction events generalizing state with
  | nil => simp [State.run,pingsOf]
  | cons event rest ih =>
    have later := ih (state.step event)
    rw [step_received,List.append_assoc] at later
    have joined : pingsOf [event] ++ pingsOf rest = pingsOf (event :: rest) := List.filterMap_append.symm
    rw [joined] at later
    exact later

/-- After the counters are reset, through every interleaving of the loads and saves of
    pings and task handlers in which no save meets a change to a column that it stores but
    did not set, each ping leaves the other columns as they are and the counters are those
    of the pings that are done: of all of the run's when none is under way. -/
theorem pings_counted {state : State} (reset : JustReset state) {events : List Event}
    (calm : Along State.step Calm state events) :
    Along State.step PingKeepsOthers state events ∧
      Progress (state.run events).row (handled (state.run events).calls) ∧
      (NoPingUnderWay (state.run events) → Progress (state.run events).row (pingsOf events)) := by
  have start := counted_start reset
  have kept := (calm.and_invariant step_counted start).imp fun state event now =>
    step_pingKeepsOthers state event now.1 now.2
  have counted : Counted (state.run events) := calm.invariant step_counted start
  have progress : Progress (state.run events).row (handled (state.run events).calls) := ⟨counted.total,counted.complete⟩
  refine ⟨kept,progress,?_⟩
  intro done
  have all := handled_received done
  have fresh : received state.calls = [] := received_none fun call listed => (reset.earlier call listed).1
  rw [run_received,fresh,List.nil_append] at all
  rw [all] at progress
  exact progress

/-- A run has started, and its counters are reset. -/
def lossesStarted : State := ⟨Function.update newAnalysis .status .runStarted,[]⟩

theorem lossesStarted_reset : JustReset lossesStarted := by
  refine ⟨rfl,rfl,?_,?_⟩
  · intro call listed
    cases listed
  · intro call listed
    cases listed

def tenEvents : Ping := ⟨some (some 10),none⟩

def fiveComplete : Ping := ⟨none,some (some 5)⟩

/-- `record_losses_files`, which completes the run. -/
def recordLosses : Process := .worker ⟨calmEnv,[],1,.recordLossesFiles ⟨none,some "losses.tar.gz"⟩ 1⟩

theorem noPingUnderWay_of_all {state : State} (done : state.calls.all (fun call => call.todo.isEmpty) = true) :
    NoPingUnderWay state := by
  intro call listed ping _
  exact List.isEmpty_iff.mp (List.all_eq_true.mp done call listed)

def inTurn : List Event := [.ping tenEvents,.save 0,.ping fiveComplete,.save 1]

/-- One ping after the other. -/
theorem pings_counted_in_turn : Progress (lossesStarted.run inTurn).row [tenEvents,fiveComplete] := by
  have calm : Along State.step Calm lossesStarted inTurn := by
    refine ⟨?_,?_,?_,?_,trivial⟩
    · simp [Calm,Ping.Converts,tenEvents]
    · intro caller store todo changed listed
      cases listed
      exact ⟨fun _ _ => rfl,fun _ later done => by cases done⟩
    · simp [Calm,Ping.Converts,fiveComplete]
    · intro caller store todo changed listed
      cases listed
      exact ⟨fun _ _ => rfl,fun _ later done => by cases done⟩
  exact (pings_counted lossesStarted_reset calm).2.2 (noPingUnderWay_of_all rfl)

/-- The number of events is saved by a ping that loaded the row before another one added to
    the complete ones. -/
def overlapping : List Event := [.ping tenEvents,.ping fiveComplete,.save 1,.save 0]

/-- The losses are recorded while a ping is under way. -/
def recordedMeanwhile : State := lossesStarted.run [.ping fiveComplete,.handler recordLosses,.save 1]

/-- Pings that overlap put the counter back to zero, and a ping puts back the status that
    was stored since it loaded the row. -/
theorem pings_lost :
    (JustReset lossesStarted ∧ NoPingUnderWay (lossesStarted.run overlapping) ∧
      (lossesStarted.run overlapping).row .numEventsComplete = 0 ∧ sumComplete (pingsOf overlapping) = 5 ∧
      ¬ Progress (lossesStarted.run overlapping).row (pingsOf overlapping)) ∧
    recordedMeanwhile.row .status = .runCompleted ∧ (recordedMeanwhile.step (.save 0)).row .status = .runStarted ∧
      ¬ PingKeepsOthers recordedMeanwhile (.save 0) := by
  refine ⟨⟨lossesStarted_reset,noPingUnderWay_of_all rfl,rfl,rfl,?_⟩,by decide,by decide,?_⟩
  · rintro ⟨_,complete⟩
    cases complete
  · intro kept
    have status := kept ⟨.ping fiveComplete,_,_⟩ rfl fiveComplete (.inl rfl) .status rfl
    revert status
    decide

end OasisPlatform.ProgressPings
