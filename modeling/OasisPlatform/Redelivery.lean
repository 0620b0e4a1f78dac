import Mathlib.Algebra.Order.Ring.Int
import OasisPlatform.SharedRow

/-!
How often the body of a V2 sub-task runs. Its message carries the number of retries: a
body that raises, and a message that the broker delivers again, both publish a copy with
one retry more, as long as there are fewer than `max_retries`, and the old message is
acknowledged after that. The body is entered at most `max_retries + 1` times when a
message is not delivered again once its retry is published, and not while a worker still
runs it (`entries_bounded`).
-/
namespace OasisPlatform.Redelivery
open OasisPlatform.SharedRow
set_option linter.unusedSimpArgs false

/-- `worker_task_kwargs['max_retries']`. -/
def maxRetries : Nat := 2

/-- At the broker; received by a worker; in the body; with its retry published, and over,
    both before it is acknowledged. -/
inductive Phase where
  | queued
  | received
  | entered
  | published
  | finished
  deriving DecidableEq, Repr

/-- A copy of the message of a sub-task, `owned` unless the broker has already given it to
    another worker. -/
structure Message where
  retries : Nat
  redelivered : Bool
  phase : Phase
  owned : Bool
  deriving DecidableEq, Repr

/-- The copy that the broker delivers again. -/
def Message.again (message : Message) : Message := ⟨message.retries,true,.queued,true⟩

/-- `self.retry(exc=...)`: publishes a copy, or raises the exception. -/
def Message.retry (message : Message) : List Message :=
  if message.retries < maxRetries then
    [{ message with phase := .published },⟨message.retries + 1,false,.queued,true⟩]
  else [{ message with phase := .finished }]

/-- `before_start` with its `task_redelivered_guard`, and then the body: what becomes of the
    message, and how often the body is entered. At `max_retries` the guard's `retry` raises
    `WorkerLostError`, and not the `MaxRetriesExceededError` that it looks for. -/
def Message.beforeStart (message : Message) : List Message × Nat :=
  if message.redelivered then (message.retry,0) else ([{ message with phase := .entered }],1)

/-- What happens to a copy: a worker receives it, starts it, its body raises, it is over or
    its process is lost, it is acknowledged, its worker crashes, or the broker delivers it
    again though the worker goes on. -/
inductive Kind where
  | receive
  | start
  | raise
  | finish
  | ack
  | crash
  | redeliver
  deriving DecidableEq, Repr

def Message.act (message : Message) : Kind → List Message × Nat
  | .receive => if message.phase = .queued then ([{ message with phase := .received }],0) else ([message],0)
  | .start => if message.phase = .received then message.beforeStart else ([message],0)
  | .raise => if message.phase = .entered then (message.retry,0) else ([message],0)
  | .finish =>
    if message.phase = .received ∨ message.phase = .entered then ([{ message with phase := .finished }],0)
    else ([message],0)
  | .ack => if message.phase = .published ∨ message.phase = .finished then ([],0) else ([message],0)
  | .crash =>
    if message.phase = .queued then ([message],0) else if message.owned then ([message.again],0) else ([],0)
  | .redeliver =>
    if message.phase = .queued ∨ message.owned = false then ([message],0)
    else ([{ message with owned := false },message.again],0)

/-- All copies of the message, and how often the body was entered. -/
structure State where
  messages : List Message
  entries : Nat

structure Event where
  message : Nat
  kind : Kind

def State.step (state : State) (event : Event) : State :=
  match state.messages[event.message]? with
  | none => state
  | some message =>
    { messages := state.messages.take event.message ++ (message.act event.kind).1 ++
        state.messages.drop (event.message + 1)
      entries := state.entries + (message.act event.kind).2 }

def State.run (state : State) (events : List Event) : State := events.foldl State.step state

/-- A sub-task that was just dispatched. -/
def dispatched : State := ⟨[⟨0,false,.queued,true⟩],0⟩

def Message.Spared (message : Message) : Kind → Prop
  | .crash => message.phase ≠ .published
  | .redeliver => message.phase = .queued ∨ message.phase = .finished ∨ maxRetries ≤ message.retries
  | _ => True

/-- No worker crashes with a message whose retry is published, and no message is delivered
    again while its worker goes on, unless it is over or has no retries left. -/
def Calm (state : State) (event : Event) : Prop :=
  ∀ message ∈ state.messages[event.message]?, message.owned = true →
    message.Spared event.kind

def Message.left (message : Message) : Nat :=
  match message.phase with
  | .queued | .received => if message.redelivered then maxRetries - message.retries else maxRetries + 1 - message.retries
  | .entered => maxRetries - message.retries
  | .finished => if message.owned then maxRetries - message.retries else 0
  | .published => 0

def entriesLeft (messages : List Message) : Nat := (messages.map Message.left).sum

@[simp] theorem entriesLeft_nil : entriesLeft [] = 0 := rfl

@[simp] theorem entriesLeft_cons (message : Message) (rest : List Message) :
    entriesLeft (message :: rest) = message.left + entriesLeft rest := by
  simp [entriesLeft]

@[simp] theorem entriesLeft_append (left right : List Message) :
    entriesLeft (left ++ right) = entriesLeft left + entriesLeft right := by
  simp [entriesLeft]

theorem retry_left (message : Message) : entriesLeft message.retry ≤ maxRetries - message.retries := by
  unfold Message.retry
  split_ifs with more
  · simp only [entriesLeft_cons,entriesLeft_nil,Message.left,Bool.false_eq_true,if_false]
    omega
  · simp only [entriesLeft_cons,entriesLeft_nil,Message.left]
    split_ifs <;> omega

theorem again_left (message : Message) : message.again.left = maxRetries - message.retries := rfl

/-- A copy that is delivered again starts with a retry, which was left to the old one unless
    that has published it. -/
theorem left_of_unpublished {message : Message} (owned : message.owned = true)
    (unpublished : message.phase ≠ .published) : maxRetries - message.retries ≤ message.left := by
  cases phase : message.phase with
  | queued | received =>
    simp only [Message.left,phase]
    split_ifs <;> omega
  | entered => simp [Message.left,phase]
  | finished => simp [Message.left,phase,owned]
  | published => exact absurd phase unpublished

theorem unowned_left (message : Message) : Message.left { message with owned := false } ≤ message.left := by
  cases phase : message.phase <;> simp [Message.left,phase]

theorem beforeStart_left {message : Message} (bounded : message.retries ≤ maxRetries)
    (received : message.phase = .received) :
    entriesLeft message.beforeStart.1 + message.beforeStart.2 ≤ message.left := by
  unfold Message.beforeStart
  by_cases redelivered : message.redelivered = true
  · have retried := retry_left message
    simp only [redelivered,if_true,Message.left,received]
    omega
  · simp only [redelivered,Bool.false_eq_true,if_false,Message.left,received,entriesLeft_cons,entriesLeft_nil]
    omega

/-- No message brings about more entries than were left to it. -/
theorem act_left {message : Message} (bounded : message.retries ≤ maxRetries) {kind : Kind}
    (spared : message.owned = true → message.Spared kind) :
    entriesLeft (message.act kind).1 + (message.act kind).2 ≤ message.left := by
  cases kind with
  | receive =>
    simp only [Message.act]
    split_ifs with queued
    · simp [Message.left,queued]
    · simp
  | start =>
    simp only [Message.act]
    split_ifs with received
    · exact beforeStart_left bounded received
    · simp
  | raise =>
    simp only [Message.act]
    split_ifs with entered
    · have retried := retry_left message
      simp only [Message.left,entered]
      omega
    · simp
  | finish =>
    simp only [Message.act]
    split_ifs with running
    · rcases running with received | entered
      · simp only [entriesLeft_cons,entriesLeft_nil,Message.left,received]
        split_ifs <;> omega
      · simp only [entriesLeft_cons,entriesLeft_nil,Message.left,entered]
        split_ifs <;> omega
    · simp
  | ack =>
    simp only [Message.act]
    split_ifs <;> simp
  | crash =>
    simp only [Message.act]
    split_ifs with queued owned
    · simp
    · simp only [entriesLeft_cons,entriesLeft_nil,again_left,Nat.add_zero]
      exact left_of_unpublished owned (spared owned)
    · simp
  | redeliver =>
    simp only [Message.act]
    split_ifs with alone
    · simp
    · obtain ⟨unqueued,owned⟩ := not_or.mp alone
      simp only [Bool.not_eq_false] at owned
      simp only [entriesLeft_cons,entriesLeft_nil,again_left]
      rcases spared owned with queued | finished | last
      · exact absurd queued unqueued
      · simp [Message.left,finished,owned]
      · have rest := unowned_left message
        omega

theorem retry_bounded {message : Message} (bounded : message.retries ≤ maxRetries) :
    ∀ after ∈ message.retry, after.retries ≤ maxRetries := by
  intro after listed
  unfold Message.retry at listed
  split_ifs at listed with more
  · simp only [List.mem_cons,List.not_mem_nil,or_false] at listed
    rcases listed with rfl | rfl
    · exact bounded
    · exact more
  · rw [List.mem_singleton.mp listed]
    exact bounded

theorem act_bounded {message : Message} (bounded : message.retries ≤ maxRetries) (kind : Kind) :
    ∀ after ∈ (message.act kind).1, after.retries ≤ maxRetries := by
  have single : ∀ {copy after : Message}, copy.retries = message.retries → after ∈ [copy] → after.retries ≤ maxRetries := by
    intro copy after same listed
    rw [List.mem_singleton.mp listed,same]
    exact bounded
  intro after listed
  cases kind with
  | receive =>
    simp only [Message.act] at listed
    split_ifs at listed <;> exact single (by rfl) listed
  | start =>
    simp only [Message.act,Message.beforeStart] at listed
    split_ifs at listed
    · exact retry_bounded bounded after listed
    · exact single (by rfl) listed
    · exact single (by rfl) listed
  | raise =>
    simp only [Message.act] at listed
    split_ifs at listed
    · exact retry_bounded bounded after listed
    · exact single (by rfl) listed
  | finish =>
    simp only [Message.act] at listed
    split_ifs at listed <;> exact single (by rfl) listed
  | ack =>
    simp only [Message.act] at listed
    split_ifs at listed
    · cases listed
    · exact single (by rfl) listed
  | crash =>
    simp only [Message.act] at listed
    split_ifs at listed
    · exact single (by rfl) listed
    · exact single (by rfl) listed
    · cases listed
  | redeliver =>
    simp only [Message.act] at listed
    split_ifs at listed
    · exact single (by rfl) listed
    · rcases List.mem_cons.mp listed with rfl | copied
      · exact bounded
      · exact single (by rfl) copied

/-- The entries so far, with those that the copies can still bring about, are at most
    `max_retries + 1`. -/
structure Bounded (state : State) : Prop where
  retries : ∀ message ∈ state.messages, message.retries ≤ maxRetries
  entries : state.entries + entriesLeft state.messages ≤ maxRetries + 1

theorem step_bounded (state : State) (event : Event) (bounded : Bounded state) (calm : Calm state event) :
    Bounded (state.step event) := by
  unfold State.step
  cases found : state.messages[event.message]? with
  | none => exact bounded
  | some message =>
    have split : state.messages =
        state.messages.take event.message ++ message :: state.messages.drop (event.message + 1) := by
      obtain ⟨inside,rfl⟩ := List.getElem?_eq_some_iff.mp found
      rw [← List.drop_eq_getElem_cons inside,List.take_append_drop]
    have few := bounded.retries message (List.mem_of_getElem? found)
    constructor
    · intro after listed
      rcases List.mem_append.mp listed with front | last
      · rcases List.mem_append.mp front with before | acted
        · exact bounded.retries after (List.mem_of_mem_take before)
        · exact act_bounded few event.kind after acted
      · exact bounded.retries after (List.mem_of_mem_drop last)
    · have fewer := act_left few (calm message found)
      have sum := bounded.entries
      rw [split] at sum
      simp only [entriesLeft_append,entriesLeft_cons] at sum ⊢
      omega

/-- For every history of exceptions, crashes and redeliveries in which no message is
    delivered again once its retry is published, or while its worker goes on, the body is
    entered at most `max_retries + 1` times. -/
theorem entries_bounded {events : List Event} (calm : Along State.step Calm dispatched events) :
    (dispatched.run events).entries ≤ maxRetries + 1 := by
  have start : Bounded dispatched := by
    refine ⟨?_,?_⟩
    · intro message listed
      rw [List.mem_singleton.mp listed]
      exact Nat.zero_le _
    · decide
  have final : Bounded (dispatched.run events) := calm.invariant step_bounded start
  have entries := final.entries
  omega

/-- Each run of the body ends with a crash of its worker. -/
def crashLoop : List Event :=
  [⟨0,.receive⟩,⟨0,.start⟩,⟨0,.crash⟩,⟨0,.receive⟩,⟨0,.start⟩,⟨0,.ack⟩,⟨0,.receive⟩,⟨0,.start⟩]

theorem entries_bounded_crash_loop :
    (dispatched.run crashLoop).entries = 2 ∧ (dispatched.run crashLoop).entries ≤ maxRetries + 1 := by
  refine ⟨rfl,entries_bounded ?_⟩
  refine ⟨?_,?_,?_,?_,?_,?_,?_,?_,trivial⟩ <;> intro message found _ <;> cases found <;> simp [Message.Spared]

/-- A worker crashes after the retry is published and before the message is acknowledged:
    the first run is retried twice, and so is all that follows. -/
def retriedTwice : List Event :=
  [⟨0,.receive⟩,⟨0,.start⟩,⟨0,.raise⟩,⟨0,.crash⟩,⟨0,.receive⟩,⟨0,.start⟩,⟨0,.ack⟩,
    ⟨0,.receive⟩,⟨0,.start⟩,⟨0,.raise⟩,⟨0,.ack⟩,⟨0,.receive⟩,⟨0,.start⟩,⟨0,.raise⟩,⟨0,.ack⟩,
    ⟨0,.receive⟩,⟨0,.start⟩,⟨0,.raise⟩,⟨0,.ack⟩,⟨0,.receive⟩,⟨0,.start⟩]

theorem entries_exceeded : (dispatched.run retriedTwice).entries = 5 ∧ maxRetries + 1 = 3 := ⟨rfl,rfl⟩

end OasisPlatform.Redelivery
