import OasisPlatform.CanvasTriples

/-!
Objects that the tasks of canvases share. A task reads objects by their keys, puts others
and deletes some; it may be lost on the way and be run again, and the tasks of a header come
in any order. Assertions say what holds of the objects that are there and of what a task is
given. Where each run puts and deletes only what is its own, a run finds among others what it
finds alone (`found_alone`).
-/
namespace OasisPlatform.StoreTraces
open OasisPlatform.Canvas
set_option linter.unusedSimpArgs false

variable {τ δ κ : Type}

inductive Event (κ : Type) where
  | read (key : κ)
  | put (key : κ)
  | delete (gone : κ → Bool)

/-- What is there after an event. -/
def Event.after (live : κ → Prop) : Event κ → κ → Prop
  | .read _ => live
  | .put key => fun other => other = key ∨ live other
  | .delete gone => fun key => live key ∧ gone key = false

def afterAll (live : κ → Prop) (events : List (Event κ)) : κ → Prop := events.foldl Event.after live

@[simp] theorem afterAll_nil (live : κ → Prop) : afterAll live [] = live := rfl

@[simp] theorem afterAll_cons (live : κ → Prop) (event : Event κ) (rest : List (Event κ)) :
    afterAll live (event :: rest) = afterAll (event.after live) rest := rfl

theorem afterAll_append (live : κ → Prop) (events others : List (Event κ)) :
    afterAll live (events ++ others) = afterAll (afterAll live events) others := List.foldl_append

/-- Nothing is deleted. -/
def Calm (event : Event κ) : Prop := ∀ gone, event ≠ .delete gone

theorem Calm.keeps {live : κ → Prop} {event : Event κ} (calm : Calm event) {key : κ} (there : live key) :
    event.after live key := by
  cases event with
  | read _ => exact there
  | put _ => exact .inr there
  | delete gone => exact absurd rfl (calm gone)

theorem calm_keeps {live : κ → Prop} {events : List (Event κ)} (calm : ∀ event ∈ events, Calm event) {key : κ}
    (there : live key) : afterAll live events key := by
  induction events generalizing live with
  | nil => exact there
  | cons event rest ih =>
    exact ih (fun other listed => calm other (List.mem_cons_of_mem _ listed)) ((calm event List.mem_cons_self).keeps there)

/-- What is put stays. -/
theorem calm_put {live : κ → Prop} {events : List (Event κ)} (calm : ∀ event ∈ events, Calm event) {key : κ}
    (put : .put key ∈ events) : afterAll live events key := by
  induction events generalizing live with
  | nil => cases put
  | cons event rest ih =>
    have later := fun other listed => calm other (List.mem_cons_of_mem _ listed)
    rcases List.mem_cons.mp put with rfl | put
    · exact calm_keeps later (.inl rfl)
    · exact ih later put

/-- What is there was there before, or has been put. -/
theorem afterAll_cases {live : κ → Prop} {events : List (Event κ)} {key : κ} (there : afterAll live events key) :
    live key ∨ .put key ∈ events := by
  induction events generalizing live with
  | nil => exact .inl there
  | cons event rest ih =>
    rcases ih there with after | later
    · cases event with
      | read _ => exact .inl after
      | put _ => exact after.elim (fun same => .inr (same ▸ List.mem_cons_self)) .inl
      | delete _ => exact .inl after.1
    · exact .inr (List.mem_cons_of_mem _ later)

theorem Event.after_mono {live later : κ → Prop} (grown : ∀ key, live key → later key) (event : Event κ) :
    ∀ key, event.after live key → event.after later key := by
  intro key there
  cases event with
  | read _ => exact grown key there
  | put _ => exact there.imp id (grown key)
  | delete _ => exact there.imp (grown key) id

/-- What has been deleted is there only if it has been put since. -/
theorem deleted_gone {live : κ → Prop} {events others : List (Event κ)} {gone : κ → Bool} {key : κ}
    (there : afterAll live (events ++ .delete gone :: others) key) (deleted : gone key = true) : .put key ∈ others := by
  rw [afterAll_append,afterAll_cons] at there
  rcases afterAll_cases there with ⟨-,kept⟩ | put
  · rw [deleted] at kept
    cases kept
  · exact put

/-- What still holds when there is more. -/
def Grows {α : Type} (holds : (κ → Prop) → α → Prop) : Prop :=
  ∀ live later : κ → Prop, (∀ key, live key → later key) → ∀ a, holds live a → holds later a

/-- Each event is allowed when it happens. -/
def Allowed (ok : (κ → Prop) → Event κ → Prop) (live : κ → Prop) : List (Event κ) → Prop
  | [] => True
  | event :: rest => ok live event ∧ Allowed ok (event.after live) rest

variable {ok : (κ → Prop) → Event κ → Prop}

theorem allowed_append {live : κ → Prop} {events others : List (Event κ)} :
    Allowed ok live (events ++ others) ↔ Allowed ok live events ∧ Allowed ok (afterAll live events) others := by
  induction events generalizing live with
  | nil => exact ⟨fun later => ⟨trivial,later⟩,And.right⟩
  | cons event rest ih =>
    rw [List.cons_append,Allowed,Allowed,ih,afterAll_cons,and_assoc]

theorem Allowed.mono (grows : Grows ok) {live later : κ → Prop} (grown : ∀ key, live key → later key)
    {events : List (Event κ)} (allowed : Allowed ok live events) : Allowed ok later events := by
  induction events generalizing live later with
  | nil => trivial
  | cons event rest ih => exact ⟨grows live later grown event allowed.1,ih (event.after_mono grown) allowed.2⟩

/-- What holds through each event. -/
theorem allowed_of_kept (inv : (κ → Prop) → Prop) {events : List (Event κ)}
    (kept : ∀ event ∈ events, ∀ live, inv live → ok live event ∧ inv (event.after live)) {live : κ → Prop}
    (holds : inv live) : Allowed ok live events ∧ inv (afterAll live events) := by
  induction events generalizing live with
  | nil => exact ⟨trivial,holds⟩
  | cons event rest ih =>
    obtain ⟨fine,next⟩ := kept event List.mem_cons_self live holds
    obtain ⟨later,ends⟩ := ih (fun other listed => kept other (List.mem_cons_of_mem _ listed)) next
    exact ⟨⟨fine,later⟩,ends⟩

/-- One of the lists goes on at a time. -/
inductive Interleaved {α : Type} : List (List α) → List α → Prop where
  | done {lists : List (List α)} (none : ∀ list ∈ lists, list = []) : Interleaved lists []
  | step {before after : List (List α)} {first : α} {rest merged : List α}
      (later : Interleaved (before ++ rest :: after) merged) :
      Interleaved (before ++ (first :: rest) :: after) (first :: merged)

/-- One list after the other. -/
theorem interleaved_flatten {α : Type} (lists : List (List α)) : Interleaved lists lists.flatten := by
  have after (done : List (List α)) (none : ∀ list ∈ done, list = []) : Interleaved (done ++ lists) lists.flatten := by
    induction lists generalizing done with
    | nil => exact .done (by simpa using none)
    | cons list rest ih =>
      induction list with
      | nil =>
        have next := ih (done ++ [[]]) fun other listed =>
          (List.mem_append.mp listed).elim (none other) fun last => List.mem_singleton.mp last
        rwa [List.append_assoc] at next
      | cons first others inner => exact .step inner
  exact after [] fun _ listed => absurd listed List.not_mem_nil

theorem Interleaved.mem {α : Type} {lists : List (List α)} {merged : List α} (interleaved : Interleaved lists merged)
    {a : α} : a ∈ merged ↔ ∃ list ∈ lists, a ∈ list := by
  induction interleaved with
  | @done lists none =>
    refine ⟨fun listed => absurd listed List.not_mem_nil,fun ⟨list,listed,member⟩ => ?_⟩
    rw [none list listed] at member
    exact member
  | @step before after first rest merged later ih =>
    rw [List.mem_cons,ih]
    simp only [List.mem_append,List.mem_cons]
    constructor
    · rintro (rfl | ⟨list,listed | rfl | listed,member⟩)
      · exact ⟨_,.inr (.inl rfl),List.mem_cons_self⟩
      · exact ⟨list,.inl listed,member⟩
      · exact ⟨_,.inr (.inl rfl),List.mem_cons_of_mem _ member⟩
      · exact ⟨list,.inr (.inr listed),member⟩
    · rintro ⟨list,listed | rfl | listed,member⟩
      · exact .inr ⟨list,.inl listed,member⟩
      · rcases List.mem_cons.mp member with rfl | member
        · exact .inl rfl
        · exact .inr ⟨rest,.inr (.inl rfl),member⟩
      · exact .inr ⟨list,.inr (.inr listed),member⟩

/-- Where nothing is deleted, what is allowed of each is allowed of all in any order. -/
theorem Interleaved.allowed (grows : Grows ok)
    {lists : List (List (Event κ))} {merged : List (Event κ)} (interleaved : Interleaved lists merged)
    (calm : ∀ list ∈ lists, ∀ event ∈ list, Calm event) {live : κ → Prop} (each : ∀ list ∈ lists, Allowed ok live list) :
    Allowed ok live merged := by
  induction interleaved generalizing live with
  | done none => trivial
  | @step before after first rest merged later ih =>
    have listed {list : List (Event κ)} (other : list ∈ before ∨ list ∈ after) : list ∈ before ++ (first :: rest) :: after :=
      List.mem_append.mpr (other.imp id fun after => List.mem_cons_of_mem _ after)
    have own : first :: rest ∈ before ++ (first :: rest) :: after := List.mem_append_right _ List.mem_cons_self
    have kept : ∀ key, live key → first.after live key := fun _ => (calm _ own first List.mem_cons_self).keeps
    have cases {list : List (Event κ)} (member : list ∈ before ++ rest :: after) :
        list = rest ∨ list ∈ before ∨ list ∈ after := by
      rcases List.mem_append.mp member with inside | inside
      · exact .inr (.inl inside)
      · exact (List.mem_cons.mp inside).imp id .inr
    refine ⟨(each _ own).1,ih (fun list member => ?_) fun list member => ?_⟩
    · rcases cases member with rfl | other
      · exact fun event inside => calm _ own event (List.mem_cons_of_mem _ inside)
      · exact calm list (listed other)
    · rcases cases member with rfl | other
      · exact (each _ own).2
      · exact (each list (listed other)).mono grows kept

/-- And what each event of each keeps is kept. -/
theorem Interleaved.kept (grows : Grows ok) {inv : (κ → Prop) → Prop} {lists : List (List (Event κ))}
    {merged : List (Event κ)} (interleaved : Interleaved lists merged) {live : κ → Prop}
    (each : ∀ list ∈ lists, Allowed ok live list ∧ ∀ event ∈ list, Calm event ∧ ∀ live, inv live → inv (event.after live))
    (holds : inv live) :
    (∀ event ∈ merged, Calm event) ∧ Allowed ok live merged ∧ inv (afterAll live merged) := by
  have quiet : ∀ event ∈ merged, Calm event ∧ ∀ live, inv live → inv (event.after live) := by
    intro event listed
    obtain ⟨list,member,inside⟩ := interleaved.mem.mp listed
    exact (each list member).2 event inside
  have allowed : Allowed ok live merged := interleaved.allowed grows
    (fun list listed event inside => ((each list listed).2 event inside).1) fun list listed => (each list listed).1
  have kept : Allowed (fun _ _ => True) live merged ∧ inv (afterAll live merged) := allowed_of_kept inv
    (fun event listed live holds => ⟨trivial,(quiet event listed).2 live holds⟩) holds
  exact ⟨fun event listed => (quiet event listed).1,allowed,kept.2⟩

/-! ### Traces -/

/-- What the attempts of tasks do: those that return, and those that are lost before that,
    with what the next attempt is given. -/
structure Effects (τ δ κ : Type) where
  returns : τ → List δ → List (Event κ) → δ → Prop
  lost : τ → List δ → List (Event κ) → List δ → Prop

variable {effects : Effects τ δ κ}

/-- Attempts that are lost, one after the other. -/
inductive Begun (effects : Effects τ δ κ) (work : τ) : List δ → List (Event κ) → List δ → Prop where
  | none (given : List δ) : Begun effects work given [] given
  | again {given changed ends : List δ} {events later : List (Event κ)} (lost : effects.lost work given events changed)
      (begun : Begun effects work changed later ends) : Begun effects work given (events ++ later) ends

/-- And the one that returns. -/
def Attempted (effects : Effects τ δ κ) (work : τ) (given : List δ) (events : List (Event κ)) (result : δ) : Prop :=
  ∃ before changed own, Begun effects work given before changed ∧ effects.returns work changed own result ∧
    events = before ++ own

/-- The events of a canvas, to its end or up to some point. -/
inductive Trace (effects : Effects τ δ κ) : List (Step τ) → List δ → List (Event κ) → Option (List δ) → Prop where
  | done (given : List δ) : Trace effects [] given [] (some given)
  | inTask {work : τ} {rest : List (Step τ)} {given changed : List δ} {events : List (Event κ)}
      (begun : Begun effects work given events changed) : Trace effects (.task work :: rest) given events none
  | task {work : τ} {rest : List (Step τ)} {given : List δ} {events others : List (Event κ)} {result : δ}
      {outcome : Option (List δ)} (attempted : Attempted effects work given events result)
      (later : Trace effects rest [result] others outcome) :
      Trace effects (.task work :: rest) given (events ++ others) outcome
  | inHeader {works : List τ} {rest : List (Step τ)} {given : List δ} {lists : List (List (Event κ))}
      {events : List (Event κ)}
      (each : List.Forall₂ (fun work list => (∃ changed, Begun effects work given list changed) ∨
        ∃ result, Attempted effects work given list result) works lists)
      (merged : Interleaved lists events) : Trace effects (.header works :: rest) given events none
  | header {works : List τ} {rest : List (Step τ)} {given : List δ} {outs : List (List (Event κ) × δ)}
      {events others : List (Event κ)} {outcome : Option (List δ)}
      (each : List.Forall₂ (fun work out => Attempted effects work given out.1 out.2) works outs)
      (merged : Interleaved (outs.map Prod.fst) events) (later : Trace effects rest (outs.map Prod.snd) others outcome) :
      Trace effects (.header works :: rest) given (events ++ others) outcome

theorem attempted_each {given : List δ} {works : List τ} {results : List δ}
    (each : List.Forall₂ (fun work result => ∃ events, Attempted effects work given events result) works results) :
    ∃ outs : List (List (Event κ) × δ), outs.map Prod.snd = results ∧
      List.Forall₂ (fun work out => Attempted effects work given out.1 out.2) works outs := by
  induction each with
  | nil => exact ⟨[],rfl,.nil⟩
  | cons first _ ih =>
    obtain ⟨outs,rfl,others⟩ := ih
    obtain ⟨events,attempted⟩ := first
    exact ⟨(events,_) :: outs,rfl,.cons attempted others⟩

/-- A canvas that runs to its end does so with some events. -/
theorem trace_of_ends {returns : τ → List δ → δ → Prop}
    (does : ∀ work given result, returns work given result → ∃ events, effects.returns work given events result)
    {steps : List (Step τ)} {given results : List δ} (ends : Ends returns steps given results) :
    ∃ events, Trace effects steps given events (some results) := by
  have attempt (work : τ) (given : List δ) (result : δ) (returned : returns work given result) :
      ∃ events, Attempted effects work given events result := by
    obtain ⟨events,done⟩ := does work given result returned
    exact ⟨events,[],given,events,.none given,done,rfl⟩
  induction ends with
  | done given => exact ⟨[],.done given⟩
  | task returned _ ih =>
    obtain ⟨events,attempted⟩ := attempt _ _ _ returned
    obtain ⟨others,later⟩ := ih
    exact ⟨events ++ others,.task attempted later⟩
  | header returned _ ih =>
    obtain ⟨others,later⟩ := ih
    obtain ⟨outs,rfl,each⟩ := attempted_each (returned.imp fun work result => attempt work _ result)
    exact ⟨(outs.map Prod.fst).flatten ++ others,.header each (interleaved_flatten _) later⟩

/-- From what `before` holds of, each event is allowed, and `after` holds at the end. -/
def Keeps (effects : Effects τ δ κ) (ok : (κ → Prop) → Event κ → Prop) (before : (κ → Prop) → List δ → Prop)
    (steps : List (Step τ)) (after : (κ → Prop) → List δ → Prop) : Prop :=
  ∀ live given, before live given → ∀ events outcome, Trace effects steps given events outcome →
    Allowed ok live events ∧ ∀ results, outcome = some results → after (afterAll live events) results

variable {before between after : (κ → Prop) → List δ → Prop} {steps others : List (Step τ)}

theorem Keeps.skip : Keeps effects ok before [] before := by
  rintro live given holds _ _ ⟨⟩
  exact ⟨trivial,fun _ same => Option.some.inj same ▸ holds⟩

theorem Trace.split {given : List δ} {events : List (Event κ)} {outcome : Option (List δ)}
    (trace : Trace effects (steps ++ others) given events outcome) :
    (Trace effects steps given events none ∧ outcome = none) ∨
      ∃ first second results, events = first ++ second ∧ Trace effects steps given first (some results) ∧
        Trace effects others results second outcome := by
  induction steps generalizing given events with
  | nil => exact .inr ⟨[],events,given,rfl,.done given,trace⟩
  | cons step rest ih =>
    cases trace with
    | inTask begun => exact .inl ⟨.inTask begun,rfl⟩
    | inHeader each merged => exact .inl ⟨.inHeader each merged,rfl⟩
    | @task _ _ _ events _ _ _ attempted later =>
      rcases ih later with ⟨inside,none⟩ | ⟨first,second,results,rfl,inside,rest⟩
      · exact .inl ⟨.task attempted inside,none⟩
      · exact .inr ⟨events ++ first,second,results,(List.append_assoc ..).symm,.task attempted inside,rest⟩
    | @header _ _ _ _ events _ _ each merged later =>
      rcases ih later with ⟨inside,none⟩ | ⟨first,second,results,rfl,inside,rest⟩
      · exact .inl ⟨.header each merged inside,none⟩
      · exact .inr ⟨events ++ first,second,results,(List.append_assoc ..).symm,.header each merged inside,rest⟩

theorem Keeps.append (first : Keeps effects ok before steps between) (second : Keeps effects ok between others after) :
    Keeps effects ok before (steps ++ others) after := by
  intro live given holds events outcome trace
  rcases trace.split with ⟨inside,rfl⟩ | ⟨events,later,results,rfl,inside,rest⟩
  · exact ⟨(first live given holds events none inside).1,nofun⟩
  · obtain ⟨allowed,met⟩ := first live given holds events (some results) inside
    obtain ⟨following,ends⟩ := second _ results (met results rfl) later outcome rest
    refine ⟨allowed_append.mpr ⟨allowed,following⟩,fun results same => ?_⟩
    rw [afterAll_append]
    exact ends results same

theorem Keeps.weaken {stronger weaker : (κ → Prop) → List δ → Prop} (keeps : Keeps effects ok before steps after)
    (pre : ∀ live given, stronger live given → before live given)
    (post : ∀ live results, after live results → weaker live results) : Keeps effects ok stronger steps weaker := by
  intro live given holds events outcome trace
  obtain ⟨allowed,ends⟩ := keeps live given (pre live given holds) events outcome trace
  exact ⟨allowed,fun results same => post _ _ (ends results same)⟩

/-- Lost attempts leave what an attempt is to find. -/
theorem Begun.kept {work : τ} (lost : ∀ live given, before live given → ∀ events changed,
      effects.lost work given events changed → Allowed ok live events ∧ before (afterAll live events) changed)
    {given ends : List δ} {events : List (Event κ)} (begun : Begun effects work given events ends) {live : κ → Prop}
    (holds : before live given) : Allowed ok live events ∧ before (afterAll live events) ends := by
  induction begun generalizing live with
  | none given => exact ⟨trivial,holds⟩
  | again gone _ ih =>
    obtain ⟨allowed,kept⟩ := lost live _ holds _ _ gone
    obtain ⟨later,ends⟩ := ih kept
    rw [afterAll_append]
    exact ⟨allowed_append.mpr ⟨allowed,later⟩,ends⟩

theorem Keeps.task {work : τ}
    (lost : ∀ live given, before live given → ∀ events changed, effects.lost work given events changed →
      Allowed ok live events ∧ before (afterAll live events) changed)
    (returns : ∀ live given, before live given → ∀ events result, effects.returns work given events result →
      Allowed ok live events ∧ after (afterAll live events) [result]) : Keeps effects ok before [.task work] after := by
  intro live given holds events outcome trace
  cases trace with
  | inTask begun => exact ⟨(begun.kept lost holds).1,nofun⟩
  | task attempted later =>
    obtain ⟨first,changed,own,begun,returned,rfl⟩ := attempted
    cases later
    obtain ⟨allowed,kept⟩ := begun.kept lost holds
    obtain ⟨returning,met⟩ := returns _ changed kept own _ returned
    rw [List.append_nil,afterAll_append]
    exact ⟨allowed_append.mpr ⟨allowed,returning⟩,fun _ same => Option.some.inj same ▸ met⟩

/-- What an attempt that returns has done. -/
theorem Keeps.attempted {work : τ} (keeps : Keeps effects ok before [.task work] after) {live : κ → Prop} {given : List δ}
    (holds : before live given) {events : List (Event κ)} {result : δ}
    (attempted : Attempted effects work given events result) :
    Allowed ok live events ∧ after (afterAll live events) [result] := by
  have alone := keeps live given holds (events ++ []) _ (.task attempted (.done _))
  rw [List.append_nil] at alone
  exact ⟨alone.1,alone.2 _ rfl⟩

/-- The events of an attempt of a task. -/
def Does (effects : Effects τ δ κ) (work : τ) (events : List (Event κ)) : Prop :=
  ∃ given, (∃ changed, effects.lost work given events changed) ∨ ∃ result, effects.returns work given events result

theorem Begun.mem {work : τ} {given changed : List δ} {events : List (Event κ)}
    (begun : Begun effects work given events changed) {event : Event κ} (listed : event ∈ events) :
    ∃ own, Does effects work own ∧ event ∈ own := by
  induction begun with
  | none given => cases listed
  | again gone _ ih =>
    rcases List.mem_append.mp listed with first | later
    · exact ⟨_,⟨_,.inl ⟨_,gone⟩⟩,first⟩
    · exact ih later

theorem Attempted.mem {work : τ} {given : List δ} {events : List (Event κ)} {result : δ}
    (attempted : Attempted effects work given events result) {event : Event κ} (listed : event ∈ events) :
    ∃ own, Does effects work own ∧ event ∈ own := by
  obtain ⟨before,changed,own,begun,returned,rfl⟩ := attempted
  rcases List.mem_append.mp listed with first | last
  · exact begun.mem first
  · exact ⟨own,⟨changed,.inr ⟨result,returned⟩⟩,last⟩

theorem forall₂_left {α β : Type} {related : α → β → Prop} {as : List α} {bs : List β}
    (each : List.Forall₂ related as bs) {b : β} (listed : b ∈ bs) : ∃ a ∈ as, related a b := by
  induction each with
  | nil => cases listed
  | cons first _ ih =>
    rcases List.mem_cons.mp listed with rfl | later
    · exact ⟨_,List.mem_cons_self,first⟩
    · obtain ⟨a,member,holds⟩ := ih later
      exact ⟨a,List.mem_cons_of_mem _ member,holds⟩

/-- The tasks of a header are kept as each of them alone, where they delete nothing. -/
theorem Keeps.header {works : List τ} {good : (κ → Prop) → δ → Prop} {inv : (κ → Prop) → Prop}
    (grows : Grows ok)
    (lasts : Grows good)
    (starts : ∀ live given, before live given → inv live)
    (quiet : ∀ work ∈ works, ∀ events, Does effects work events → ∀ event ∈ events,
      Calm event ∧ ∀ live, inv live → inv (event.after live))
    (each : ∀ work ∈ works, Keeps effects ok before [.task work] fun live results => ∀ result ∈ results, good live result) :
    Keeps effects ok before [.header works] fun live results =>
      inv live ∧ results.length = works.length ∧ ∀ result ∈ results, good live result := by
  intro live given holds events outcome trace
  have one (list : List (Event κ)) (begun : ∃ work ∈ works, (∃ changed, Begun effects work given list changed) ∨
        ∃ result, Attempted effects work given list result) :
      Allowed ok live list ∧ ∀ event ∈ list, Calm event ∧ ∀ live, inv live → inv (event.after live) := by
    obtain ⟨work,among,⟨changed,begun⟩ | ⟨result,attempted⟩⟩ := begun
    · refine ⟨(each work among live given holds list none (.inTask begun)).1,fun event inside => ?_⟩
      obtain ⟨own,done,member⟩ := begun.mem inside
      exact quiet work among own done event member
    · refine ⟨((each work among).attempted holds attempted).1,fun event inside => ?_⟩
      obtain ⟨own,done,member⟩ := attempted.mem inside
      exact quiet work among own done event member
  cases trace with
  | inHeader started merged =>
    have lists := merged.kept grows (fun list listed => one list (forall₂_left started listed)) (starts live given holds)
    exact ⟨lists.2.1,nofun⟩
  | @header _ _ _ outs events _ _ returned merged later =>
    cases later
    obtain ⟨calm,allowed,kept⟩ := merged.kept grows (fun list listed => by
      obtain ⟨out,member,rfl⟩ := List.mem_map.mp listed
      obtain ⟨work,among,attempted⟩ := forall₂_left returned member
      exact one out.1 ⟨work,among,.inr ⟨out.2,attempted⟩⟩) (starts live given holds)
    rw [List.append_nil]
    refine ⟨allowed,fun _ same => ?_⟩
    obtain rfl := Option.some.inj same
    refine ⟨kept,by rw [List.length_map,returned.length_eq],fun result listed => ?_⟩
    obtain ⟨out,member,rfl⟩ := List.mem_map.mp listed
    obtain ⟨work,among,attempted⟩ := forall₂_left returned member
    -- what it has put stays, whatever the others do
    refine lasts _ _ (fun key there => ?_) _ (((each work among).attempted holds attempted).2 out.2 List.mem_cons_self)
    rcases afterAll_cases there with before | put
    · exact calm_keeps calm before
    · exact calm_put calm (merged.mem.mpr ⟨out.1,List.mem_map_of_mem member,put⟩)

section Runs
variable {ρ : Type}

/-- A run puts what is its own or no run's, and deletes what is its own. -/
def Within (own : ρ → κ → Prop) (run : ρ) : Event κ → Prop
  | .read _ => True
  | .put key => own run key ∨ ∀ other, ¬ own other key
  | .delete gone => ∀ key, gone key = true → own run key

/-- And finds what it reads, which is its own or no run's too. -/
def Confined (own : ρ → κ → Prop) (run : ρ) (live : κ → Prop) : Event κ → Prop
  | .read key => live key ∧ (own run key ∨ ∀ other, ¬ own other key)
  | event => Within own run event

theorem Confined.within {own : ρ → κ → Prop} {run : ρ} {live : κ → Prop} {event : Event κ}
    (confined : Confined own run live event) : Within own run event := by
  cases event with
  | read _ => trivial
  | put _ => exact confined
  | delete _ => exact confined

theorem confined_grows (own : ρ → κ → Prop) (run : ρ) : Grows (Confined own run) := by
  intro live later grown event confined
  cases event with
  | read key => exact confined.imp (grown key) id
  | put _ => exact confined
  | delete _ => exact confined

theorem within_of_allowed {own : ρ → κ → Prop} {run : ρ} {live : κ → Prop} {events : List (Event κ)}
    (allowed : Allowed (Confined own run) live events) : ∀ event ∈ events, Within own run event := by
  induction events generalizing live with
  | nil => exact fun _ none => absurd none List.not_mem_nil
  | cons first rest ih =>
    intro event listed
    rcases List.mem_cons.mp listed with rfl | later
    · exact allowed.1.within
    · exact ih allowed.2 event later

theorem Within.outside {own : ρ → κ → Prop} {run : ρ} {event : Event κ} (within : Within own run event)
    {live : κ → Prop} {key : κ} (outside : ∀ other, ¬ own other key) (there : live key) : event.after live key := by
  cases event with
  | read _ => exact there
  | put _ => exact .inr there
  | delete gone => exact ⟨there,Bool.eq_false_iff.mpr fun deleted => outside run (within key deleted)⟩

/-- What no run owns is never deleted. -/
theorem outside_kept {own : ρ → κ → Prop} {events : List (Event κ)} (within : ∀ event ∈ events, ∃ run, Within own run event)
    {live : κ → Prop} {key : κ} (outside : ∀ run, ¬ own run key) (there : live key) : afterAll live events key := by
  induction events generalizing live with
  | nil => exact there
  | cons first rest ih =>
    obtain ⟨run,head⟩ := within first List.mem_cons_self
    exact ih (fun event listed => within event (List.mem_cons_of_mem _ listed)) (head.outside outside there)

variable [DecidableEq ρ]

/-- What one of the runs does. -/
def project (run : ρ) (events : List (ρ × Event κ)) : List (Event κ) := (events.filter (·.1 = run)).map Prod.snd

/-- What is there for all runs, and for each of them alone. -/
structure Agree (own : ρ → κ → Prop) (live : κ → Prop) (alone : ρ → κ → Prop) : Prop where
  mine : ∀ run key, own run key → (live key ↔ alone run key)
  outside : ∀ run key, (∀ other, ¬ own other key) → alone run key → live key

theorem Agree.step {own : ρ → κ → Prop} (apart : ∀ run other key, own run key → own other key → run = other)
    {live : κ → Prop} {alone : ρ → κ → Prop} (agree : Agree own live alone) {run : ρ} {event : Event κ}
    (within : Within own run event) :
    Agree own (event.after live) (Function.update alone run (event.after (alone run))) := by
  -- an event of another run is none at the keys of this one
  have others {other : ρ} (differs : other ≠ run) {key : κ} (mine : own other key) : event.after live key ↔ live key := by
    cases event with
    | read _ => exact Iff.rfl
    | put put =>
      refine ⟨fun there => there.resolve_left ?_,.inr⟩
      rintro rfl
      exact within.elim (fun owned => differs (apart _ _ _ mine owned)) fun outside => outside other mine
    | delete gone =>
      refine ⟨And.left,fun there => ⟨there,Bool.eq_false_iff.mpr fun deleted => ?_⟩⟩
      exact differs (apart _ _ _ mine (within key deleted))
  refine ⟨?_,?_⟩
  · intro other key mine
    by_cases same : other = run
    · subst same
      rw [Function.update_self]
      cases event with
      | read _ => exact agree.mine other key mine
      | put put => exact or_congr Iff.rfl (agree.mine other key mine)
      | delete gone => exact and_congr (agree.mine other key mine) Iff.rfl
    · rw [Function.update_of_ne same]
      exact (others same mine).trans (agree.mine other key mine)
  · intro other key outside there
    by_cases same : other = run
    · subst same
      rw [Function.update_self] at there
      cases event with
      | read _ => exact agree.outside other key outside there
      | put put => exact there.imp id (agree.outside other key outside)
      | delete gone => exact there.imp (agree.outside other key outside) id
    · rw [Function.update_of_ne same] at there
      exact within.outside outside (agree.outside other key outside there)

theorem project_cons (run other : ρ) (event : Event κ) (rest : List (ρ × Event κ)) :
    project run ((other,event) :: rest) = if other = run then event :: project run rest else project run rest := by
  unfold project
  split
  · rename_i same
    rw [List.filter_cons_of_pos (by simpa using same),List.map_cons]
  · rename_i differs
    rw [List.filter_cons_of_neg (by simpa using differs)]

theorem mem_project {run : ρ} {event : Event κ} {events : List (ρ × Event κ)} :
    event ∈ project run events ↔ (run,event) ∈ events := by
  simp [project]

/-- Among other runs, each has what it would have alone. -/
theorem Agree.run {own : ρ → κ → Prop} (apart : ∀ run other key, own run key → own other key → run = other)
    {events : List (ρ × Event κ)} {live : κ → Prop} {alone : ρ → κ → Prop} (agree : Agree own live alone)
    (within : ∀ entry ∈ events, Within own entry.1 entry.2) :
    Agree own (afterAll live (events.map Prod.snd)) fun run => afterAll (alone run) (project run events) := by
  induction events generalizing live alone with
  | nil => exact agree
  | cons first rest ih =>
    obtain ⟨run,event⟩ := first
    have next := agree.step apart (within (run,event) List.mem_cons_self)
    have later := ih next fun entry listed => within entry (List.mem_cons_of_mem _ listed)
    have same : (fun other => afterAll (alone other) (project other ((run,event) :: rest))) = fun other =>
        afterAll (Function.update alone run (event.after (alone run)) other) (project other rest) := by
      funext other
      rw [project_cons]
      by_cases equal : run = other
      · subst equal
        rw [if_pos rfl,Function.update_self,afterAll_cons]
      · rw [if_neg equal,Function.update_of_ne (Ne.symm equal)]
    rw [same]
    exact later

variable {own : ρ → κ → Prop} {live : κ → Prop}

theorem runs_agree (apart : ∀ run other key, own run key → own other key → run = other) {events : List (ρ × Event κ)}
    (within : ∀ entry ∈ events, Within own entry.1 entry.2) :
    Agree own (afterAll live (events.map Prod.snd)) fun run => afterAll live (project run events) :=
  Agree.run apart ⟨fun _ _ _ => Iff.rfl,fun _ _ _ there => there⟩ within

/-- What a run finds alone, it finds among the others. -/
theorem found_alone (apart : ∀ run other key, own run key → own other key → run = other) {before : List (ρ × Event κ)}
    (within : ∀ entry ∈ before, Within own entry.1 entry.2) {run : ρ} {key : κ} {alone : List (Event κ)}
    (allowed : Allowed (Confined own run) live alone) (first : project run before ++ [.read key] <+: alone) :
    afterAll live (before.map Prod.snd) key := by
  obtain ⟨rest,rfl⟩ := first
  rw [List.append_assoc,allowed_append] at allowed
  obtain ⟨there,mine | outside⟩ : Confined own run (afterAll live (project run before)) (.read key) := allowed.2.1
  · exact ((runs_agree apart within).mine run key mine).mpr there
  · exact (runs_agree apart within).outside run key outside there

end Runs

end OasisPlatform.StoreTraces
