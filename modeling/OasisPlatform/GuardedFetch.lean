import OasisPlatform.SharedRow

/-!
Attempts that share the paths of a node. Each goes through its fetches in turn: under the
lock of the path it looks whether the path exists, and where it does not, creates it and
places the pieces of the object. Whether the path exists is all that it looks at, so that
what a failed attempt leaves is taken for the object. When no attempt ends between the
first and the last piece, every attempt that gets past its fetches finds each object
complete (`found_complete`).
-/
namespace OasisPlatform.GuardedFetch
open OasisPlatform.SharedRow (Along)
set_option linter.unusedSimpArgs false

variable {ι π ο β τ : Type}

structure Fetch (π ο : Type) where
  path : π
  object : ο
  /-- The lock file is removed once the lock is released. -/
  unlinks : Bool

/-- The fetches of an attempt, and whether it raises an error after them. -/
structure Plan (π ο : Type) where
  fetches : List (Fetch π ο)
  raises : Bool

/-- Where an attempt is with the first of its fetches. -/
inductive Place (β : Type) where
  | waiting
  | locked
  | filling (left : List β)
  | leaving

/-- What an attempt has left of the fetches of its task, or what it has found. -/
inductive Phase (π ο β τ : Type) where
  | idle
  | fetching (task : τ) (place : Place β) (todo : List (Fetch π ο))
  | past (task : τ) (found : π → Option (List β))
  | ended

/-- What is at the paths, and who holds their locks; a lock file that was removed excludes
    nobody. -/
structure Node (ι π ο β τ : Type) where
  content : π → Option (List β)
  locks : π → List ι
  unlinked : π → Bool
  phase : ι → Phase π ο β τ

def Node.fresh : Node ι π ο β τ := ⟨fun _ => none,fun _ => [],fun _ => false,fun _ => .idle⟩

inductive Action (ι π τ : Type) where
  | start (a : ι) (task : τ)
  | lock (a : ι)
  | look (a : ι)
  | place (a : ι)
  | unlock (a : ι)
  | pass (a : ι)
  /-- An error, or the end of the process. -/
  | fail (a : ι)
  /-- A task that got past removes a path. -/
  | remove (path : π)

variable [DecidableEq ι] [DecidableEq π]

def Node.goTo (node : Node ι π ο β τ) (a : ι) (phase : Phase π ο β τ) : Node ι π ο β τ :=
  { node with phase := Function.update node.phase a phase }

omit [DecidableEq π] in
@[simp] theorem goTo_self (node : Node ι π ο β τ) (a : ι) (phase : Phase π ο β τ) : (node.goTo a phase).phase a = phase :=
  Function.update_self ..

omit [DecidableEq π] in
theorem goTo_other (node : Node ι π ο β τ) {a b : ι} (other : b ≠ a) (phase : Phase π ο β τ) :
    (node.goTo a phase).phase b = node.phase b :=
  Function.update_of_ne other ..

/-- One step, with the plan of a task, and the pieces of an object in the order in which
    they are placed. -/
def Node.step (plan : τ → Plan π ο) (pieces : ο → List β) (node : Node ι π ο β τ) : Action ι π τ → Node ι π ο β τ
  | .start a task =>
    match node.phase a with
    | .idle => node.goTo a (.fetching task .waiting (plan task).fetches)
    | _ => node
  | .lock a =>
    match node.phase a with
    | .fetching task .waiting (fetch :: todo) =>
      if node.locks fetch.path = [] ∨ node.unlinked fetch.path = true then
        { node with locks := Function.update node.locks fetch.path (a :: node.locks fetch.path) }.goTo a
          (.fetching task .locked (fetch :: todo))
      else node
    | _ => node
  | .look a =>
    match node.phase a with
    | .fetching task .locked (fetch :: todo) =>
      match node.content fetch.path with
      | some _ => node.goTo a (.fetching task .leaving (fetch :: todo))
      | none =>
        { node with content := Function.update node.content fetch.path (some []) }.goTo a
          (.fetching task (.filling (pieces fetch.object)) (fetch :: todo))
    | _ => node
  | .place a =>
    match node.phase a with
    | .fetching task (.filling (piece :: left)) (fetch :: todo) =>
      { node with
        content := Function.update node.content fetch.path (some ((node.content fetch.path).getD [] ++ [piece])) }.goTo a
        (.fetching task (.filling left) (fetch :: todo))
    | .fetching task (.filling []) (fetch :: todo) => node.goTo a (.fetching task .leaving (fetch :: todo))
    | _ => node
  | .unlock a =>
    match node.phase a with
    | .fetching task .leaving (fetch :: todo) =>
      { node with
        locks := Function.update node.locks fetch.path ((node.locks fetch.path).filter (· ≠ a))
        unlinked := Function.update node.unlinked fetch.path (fetch.unlinks || node.unlinked fetch.path) }.goTo a
        (.fetching task .waiting todo)
    | _ => node
  | .pass a =>
    match node.phase a with
    | .fetching task .waiting [] => if (plan task).raises then node else node.goTo a (.past task node.content)
    | _ => node
  | .fail a =>
    match node.phase a with
    | .fetching _ _ _ => { node with locks := fun path => (node.locks path).filter (· ≠ a) }.goTo a .ended
    | _ => node
  | .remove path =>
    { node with
      content := Function.update node.content path none
      unlinked := Function.update node.unlinked path false }

def Node.run (plan : τ → Plan π ο) (pieces : ο → List β) (node : Node ι π ο β τ) (actions : List (Action ι π τ)) :
    Node ι π ο β τ :=
  actions.foldl (Node.step plan pieces) node

/-- No attempt ends between the first and the last piece of an object, and no path is
    removed while an attempt is fetching. -/
def Undisturbed (node : Node ι π ο β τ) : Action ι π τ → Prop
  | .fail a => ∀ task piece left todo, node.phase a ≠ .fetching task (.filling (piece :: left)) todo
  | .remove _ => ∀ a task place todo, node.phase a ≠ .fetching task place todo
  | _ => True

/-- Attempts agree on the object that is to be at a path. -/
def Agrees (plan : τ → Plan π ο) (objectAt : π → ο) : Action ι π τ → Prop
  | .start _ task => ∀ fetch ∈ (plan task).fetches, fetch.object = objectAt fetch.path
  | _ => True

/-! ### The invariant -/

section Invariant
variable {plan : τ → Plan π ο} {pieces : ο → List β} {objectAt : π → ο}

def Complete (pieces : ο → List β) (objectAt : π → ο) (node : Node ι π ο β τ) (path : π) : Prop :=
  node.content path = some (pieces (objectAt path))

/-- What holds of the first fetch: its lock is held from the time it is not waiting on. -/
def PlaceSound (pieces : ο → List β) (objectAt : π → ο) (node : Node ι π ο β τ) (a : ι) (path : π) : Place β → Prop
  | .waiting => True
  | .locked => a ∈ node.locks path
  | .filling left => a ∈ node.locks path ∧ node.unlinked path = false ∧
      ∃ placed, node.content path = some placed ∧ placed ++ left = pieces (objectAt path)
  | .leaving => a ∈ node.locks path ∧ Complete pieces objectAt node path

def PhaseSound (plan : τ → Plan π ο) (pieces : ο → List β) (objectAt : π → ο) (node : Node ι π ο β τ) (a : ι) :
    Phase π ο β τ → Prop
  | .fetching task place todo =>
    (∀ fetch ∈ (plan task).fetches, fetch.object = objectAt fetch.path) ∧ (∀ fetch ∈ todo, fetch ∈ (plan task).fetches) ∧
      (∀ fetch ∈ (plan task).fetches, fetch ∈ todo ∨ Complete pieces objectAt node fetch.path) ∧
      ∀ fetch ∈ todo.head?, PlaceSound pieces objectAt node a fetch.path place
  | .past task found => ∀ fetch ∈ (plan task).fetches, found fetch.path = some (pieces fetch.object)
  | _ => True

def Filling (node : Node ι π ο β τ) (a : ι) (path : π) : Prop :=
  ∃ task left fetch todo, node.phase a = .fetching task (.filling left) (fetch :: todo) ∧ fetch.path = path

/-- The phase of an attempt that holds the lock of a path. -/
def Holding (phase : Phase π ο β τ) (path : π) : Prop :=
  ∃ task place fetch todo, phase = .fetching task place (fetch :: todo) ∧ place ≠ .waiting ∧ fetch.path = path

structure Sound (plan : τ → Plan π ο) (pieces : ο → List β) (objectAt : π → ο) (node : Node ι π ο β τ) : Prop where
  phases : ∀ a, PhaseSound plan pieces objectAt node a (node.phase a)
  holders : ∀ path, ∀ a ∈ node.locks path, Holding (node.phase a) path
  exclusive : ∀ path, node.unlinked path = false → ∀ a ∈ node.locks path, ∀ b ∈ node.locks path, a = b
  unlinked : ∀ path, node.unlinked path = true → Complete pieces objectAt node path
  contents : ∀ path placed, node.content path = some placed → Complete pieces objectAt node path ∨ ∃ a, Filling node a path

omit [DecidableEq ι] [DecidableEq π] in
theorem fresh_sound : Sound plan pieces objectAt (Node.fresh : Node ι π ο β τ) where
  phases := fun _ => trivial
  holders := fun _ _ held => absurd held List.not_mem_nil
  exclusive := fun _ _ _ held => absurd held List.not_mem_nil
  unlinked := fun _ removed => absurd removed Bool.false_ne_true
  contents := fun _ _ there => absurd there nofun

/-- What a step of one attempt leaves to the others: complete paths, their locks, and what
    they fill. -/
structure Frame (pieces : ο → List β) (objectAt : π → ο) (a : ι) (node after : Node ι π ο β τ) : Prop where
  phases : ∀ b, b ≠ a → after.phase b = node.phase b
  complete : ∀ path, Complete pieces objectAt node path → Complete pieces objectAt after path
  locks : ∀ b, b ≠ a → ∀ path, b ∈ after.locks path ↔ b ∈ node.locks path
  filled : ∀ b, b ≠ a → ∀ path, b ∈ node.locks path → node.unlinked path = false →
    after.content path = node.content path ∧ after.unlinked path = false

omit [DecidableEq ι] [DecidableEq π] in
theorem Frame.placeSound {a b : ι} {node after : Node ι π ο β τ} (frame : Frame pieces objectAt a node after) (other : b ≠ a)
    {path : π} {place : Place β} (sound : PlaceSound pieces objectAt node b path place) :
    PlaceSound pieces objectAt after b path place := by
  cases place with
  | waiting => trivial
  | locked => exact (frame.locks b other path).mpr sound
  | filling left =>
    obtain ⟨held,linked,placed,there,rest⟩ := sound
    obtain ⟨same,still⟩ := frame.filled b other path held linked
    exact ⟨(frame.locks b other path).mpr held,still,placed,same.trans there,rest⟩
  | leaving => exact ⟨(frame.locks b other path).mpr sound.1,frame.complete path sound.2⟩

omit [DecidableEq ι] [DecidableEq π] in
theorem Frame.phaseSound {a b : ι} {node after : Node ι π ο β τ} (frame : Frame pieces objectAt a node after) (other : b ≠ a)
    {phase : Phase π ο β τ} (sound : PhaseSound plan pieces objectAt node b phase) :
    PhaseSound plan pieces objectAt after b phase := by
  cases phase with
  | fetching task place todo =>
    obtain ⟨agrees,listed,done,first⟩ := sound
    refine ⟨agrees,listed,fun fetch member => ?_,fun fetch head => frame.placeSound other (first fetch head)⟩
    exact (done fetch member).imp_right (frame.complete fetch.path)
  | past task found => exact sound
  | idle => trivial
  | ended => trivial

omit [DecidableEq ι] [DecidableEq π] in
/-- The invariant after a step of one attempt. -/
theorem Sound.after {a : ι} {node after : Node ι π ο β τ} (sound : Sound plan pieces objectAt node)
    (frame : Frame pieces objectAt a node after) (own : PhaseSound plan pieces objectAt after a (after.phase a))
    (holds : ∀ path, a ∈ after.locks path → Holding (after.phase a) path)
    (exclusive : ∀ path, after.unlinked path = false → ∀ b ∈ after.locks path, ∀ c ∈ after.locks path, b = c)
    (unlinked : ∀ path, after.unlinked path = true → Complete pieces objectAt after path)
    (contents : ∀ path placed, after.content path = some placed →
      Complete pieces objectAt after path ∨ (∃ b, b ≠ a ∧ Filling node b path) ∨ Filling after a path) :
    Sound plan pieces objectAt after where
  phases := by
    intro b
    by_cases same : b = a
    · exact same ▸ own
    · rw [frame.phases b same]
      exact frame.phaseSound same (sound.phases b)
  holders := by
    intro path b member
    by_cases same : b = a
    · exact same ▸ holds path (same ▸ member)
    · rw [frame.phases b same]
      exact sound.holders path b ((frame.locks b same path).mp member)
  exclusive := exclusive
  unlinked := unlinked
  contents := by
    intro path placed there
    rcases contents path placed there with complete | ⟨b,other,task,left,fetch,todo,phase,at_path⟩ | filling
    · exact .inl complete
    · exact .inr ⟨b,task,left,fetch,todo,(frame.phases b other).trans phase,at_path⟩
    · exact .inr ⟨a,filling⟩

omit [DecidableEq ι] [DecidableEq π] in
theorem Sound.at_phase {a : ι} {node : Node ι π ο β τ} (sound : Sound plan pieces objectAt node) {phase : Phase π ο β τ}
    (at_phase : node.phase a = phase) : PhaseSound plan pieces objectAt node a phase :=
  at_phase ▸ sound.phases a

omit [DecidableEq ι] [DecidableEq π] in
/-- What an attempt that is not filling leaves incomplete, another fills. -/
theorem Sound.filled_beside {a : ι} {node : Node ι π ο β τ} (sound : Sound plan pieces objectAt node) {path : π}
    (idle : ¬ Filling node a path) {placed : List β} (there : node.content path = some placed) :
    Complete pieces objectAt node path ∨ ∃ b, b ≠ a ∧ Filling node b path := by
  rcases sound.contents path placed there with complete | ⟨b,filling⟩
  · exact .inl complete
  · exact .inr ⟨b,fun same => idle (same ▸ filling),filling⟩

omit [DecidableEq π] in
/-- A step that changes nothing but the phase of its attempt, which was not filling. -/
theorem Sound.goTo {a : ι} {node : Node ι π ο β τ} (sound : Sound plan pieces objectAt node) {phase : Phase π ο β τ}
    (idle : ∀ path, ¬ Filling node a path) (own : PhaseSound plan pieces objectAt node a phase)
    (holds : ∀ path, Holding (node.phase a) path → Holding phase path) : Sound plan pieces objectAt (node.goTo a phase) := by
  have frame : Frame pieces objectAt a node (node.goTo a phase) :=
    ⟨fun b other => goTo_other node other phase,fun _ complete => complete,fun _ _ _ => Iff.rfl,
      fun _ _ _ _ linked => ⟨rfl,linked⟩⟩
  refine sound.after frame ?_ ?_ sound.exclusive sound.unlinked fun path placed there => ?_
  · rw [goTo_self]
    cases phase <;> exact own
  · intro path member
    rw [goTo_self]
    exact holds path (sound.holders path a member)
  · exact (sound.filled_beside (idle path) there).imp_right .inl

variable {node : Node ι π ο β τ} {a : ι} {task : τ} {fetch : Fetch π ο} {todo : List (Fetch π ο)}

omit [DecidableEq ι] [DecidableEq π] in
theorem not_filling {phase : Phase π ο β τ} (at_phase : node.phase a = phase)
    (none : ∀ task left todo, phase ≠ .fetching task (.filling left) todo) (path : π) : ¬ Filling node a path := by
  rintro ⟨task,left,fetch,todo,filling,-⟩
  exact none task left (fetch :: todo) (at_phase.symm.trans filling)

omit [DecidableEq ι] [DecidableEq π] in
/-- The path of which a fetching attempt holds the lock is that of its first fetch. -/
theorem Sound.holds_first (sound : Sound plan pieces objectAt node) {place : Place β}
    (phase : node.phase a = .fetching task place (fetch :: todo)) {path : π} (held : a ∈ node.locks path) :
    place ≠ .waiting ∧ fetch.path = path := by
  obtain ⟨_,_,_,_,same,inside,at_path⟩ := sound.holders path a held
  rw [phase] at same
  injection same with _ same_place same_todo
  injection same_todo with same_fetch
  exact ⟨same_place ▸ inside,same_fetch ▸ at_path⟩

omit [DecidableEq ι] [DecidableEq π] in
/-- The path that a fetching attempt fills is that of its first fetch. -/
theorem filling_first {place : Place β} (phase : node.phase a = .fetching task place (fetch :: todo)) {path : π}
    (filling : Filling node a path) : fetch.path = path := by
  obtain ⟨_,_,_,_,same,at_path⟩ := filling
  rw [phase] at same
  injection same with _ _ same_todo
  injection same_todo with same_fetch
  exact same_fetch ▸ at_path

omit [DecidableEq ι] [DecidableEq π] in
/-- A path is complete when its last piece is placed. -/
theorem Sound.filled_complete (sound : Sound plan pieces objectAt node)
    (phase : node.phase a = .fetching task (.filling []) (fetch :: todo)) : Complete pieces objectAt node fetch.path := by
  obtain ⟨-,-,placed,there,rest⟩ := (sound.at_phase phase).2.2.2 fetch rfl
  rw [List.append_nil] at rest
  exact there.trans (congrArg some rest)

omit [DecidableEq ι] [DecidableEq π] in
/-- Only the attempt that fills a path holds its lock. -/
theorem Sound.filling_alone (sound : Sound plan pieces objectAt node) {b : ι} {path : π} (filling : Filling node b path)
    (held : a ∈ node.locks path) : a = b := by
  obtain ⟨task,left,fetch,todo,phase,rfl⟩ := filling
  obtain ⟨own,linked,-⟩ := (sound.at_phase phase).2.2.2 fetch rfl
  exact sound.exclusive _ linked a held b own

omit [DecidableEq ι] [DecidableEq π] in
theorem holding_first {place after : Place β} (inside : after ≠ .waiting) (path : π)
    (held : Holding (.fetching task place (fetch :: todo) : Phase π ο β τ) path) :
    Holding (.fetching task after (fetch :: todo) : Phase π ο β τ) path := by
  obtain ⟨_,_,_,_,same,-,at_path⟩ := held
  injection same with _ _ same_todo
  injection same_todo with same_fetch
  exact ⟨task,after,fetch,todo,rfl,inside,same_fetch ▸ at_path⟩

omit [DecidableEq π] in
theorem start_sound (sound : Sound plan pieces objectAt node) (idle : node.phase a = .idle)
    (agrees : ∀ fetch ∈ (plan task).fetches, fetch.object = objectAt fetch.path) :
    Sound plan pieces objectAt (node.goTo a (.fetching task .waiting (plan task).fetches)) :=
  sound.goTo (not_filling idle (by simp)) ⟨agrees,fun _ member => member,fun _ member => .inl member,fun _ _ => trivial⟩
    (by simp [idle,Holding])

theorem lock_sound (sound : Sound plan pieces objectAt node)
    (phase : node.phase a = .fetching task .waiting (fetch :: todo))
    (free : node.locks fetch.path = [] ∨ node.unlinked fetch.path = true) :
    Sound plan pieces objectAt
      ({ node with locks := Function.update node.locks fetch.path (a :: node.locks fetch.path) }.goTo a
        (.fetching task .locked (fetch :: todo))) := by
  have held (b : ι) (path : π) : b ∈ Function.update node.locks fetch.path (a :: node.locks fetch.path) path ↔
      b ∈ node.locks path ∨ (path = fetch.path ∧ b = a) := by
    by_cases same : path = fetch.path
    · subst same
      simp [or_comm]
    · simp [same]
  have own := sound.at_phase phase
  refine sound.after ⟨fun b other => goTo_other _ other _,fun _ complete => complete,?_,fun _ _ _ _ linked => ⟨rfl,linked⟩⟩
    ?_ ?_ ?_ sound.unlinked ?_
  · exact fun b other path => (held b path).trans (by simp [other])
  · rw [goTo_self]
    refine ⟨own.1,own.2.1,own.2.2.1,fun first head => ?_⟩
    obtain rfl := Option.some.inj head
    exact (held a _).mpr (.inr ⟨rfl,rfl⟩)
  · intro path member
    rw [goTo_self]
    rcases (held a path).mp member with before | ⟨rfl,-⟩
    · exact absurd rfl (sound.holds_first phase before).1
    · exact ⟨task,.locked,fetch,todo,rfl,nofun,rfl⟩
  · intro path linked b hb c hc
    have alone (d : ι) (member : d ∈ node.locks fetch.path) (here : path = fetch.path) : False := by
      rcases free with none | removed
      · simp [none] at member
      · exact absurd (linked.symm.trans (here ▸ removed)) Bool.false_ne_true
    rcases (held b path).mp hb with first | ⟨here,rfl⟩
    · rcases (held c path).mp hc with second | ⟨here,rfl⟩
      · exact sound.exclusive path linked b first c second
      · exact (alone b (here ▸ first) here).elim
    · rcases (held c path).mp hc with second | ⟨-,rfl⟩
      · exact (alone c (here ▸ second) here).elim
      · rfl
  · intro path placed there
    exact (sound.filled_beside (not_filling phase (by simp) path) there).imp_right .inl

omit [DecidableEq π] in
/-- What is there is complete, because nobody else fills it. -/
theorem found_sound (sound : Sound plan pieces objectAt node)
    (phase : node.phase a = .fetching task .locked (fetch :: todo))
    {placed : List β} (there : node.content fetch.path = some placed) :
    Sound plan pieces objectAt (node.goTo a (.fetching task .leaving (fetch :: todo))) := by
  have own := sound.at_phase phase
  have held : a ∈ node.locks fetch.path := own.2.2.2 fetch rfl
  refine sound.goTo (not_filling phase (by simp)) ⟨own.1,own.2.1,own.2.2.1,fun first head => ?_⟩
    (phase ▸ holding_first (by simp))
  obtain rfl := Option.some.inj head
  refine ⟨held,?_⟩
  rcases sound.contents fetch.path placed there with complete | ⟨b,filling⟩
  · exact complete
  · obtain rfl := sound.filling_alone filling held
    exact absurd filling (not_filling phase (by simp) _)

/-- A holder that places pieces at a path that is not complete. -/
theorem write_sound (sound : Sound plan pieces objectAt node) {place : Place β}
    (phase : node.phase a = .fetching task place (fetch :: todo)) (held : a ∈ node.locks fetch.path)
    (linked : node.unlinked fetch.path = false) (incomplete : ¬ Complete pieces objectAt node fetch.path)
    {placed left : List β} (rest : placed ++ left = pieces (objectAt fetch.path)) :
    Sound plan pieces objectAt
      ({ node with content := Function.update node.content fetch.path (some placed) }.goTo a
        (.fetching task (.filling left) (fetch :: todo))) := by
  have own := sound.at_phase phase
  have complete {path : π} (before : Complete pieces objectAt node path) :
      Function.update node.content fetch.path (some placed) path = some (pieces (objectAt path)) := by
    refine (Function.update_of_ne ?_ ..).trans before
    rintro rfl
    exact incomplete before
  refine sound.after ⟨fun b other => goTo_other _ other _,fun _ => complete,fun _ _ _ => Iff.rfl,?_⟩
    ?_ ?_ sound.exclusive (fun path removed => complete (sound.unlinked path removed)) ?_
  · intro b other path member still
    refine ⟨Function.update_of_ne ?_ ..,still⟩
    rintro rfl
    exact other (sound.exclusive _ still b member a held)
  · rw [goTo_self]
    refine ⟨own.1,own.2.1,fun f member => (own.2.2.1 f member).imp_right complete,fun first head => ?_⟩
    obtain rfl := Option.some.inj head
    exact ⟨held,linked,placed,Function.update_self ..,rest⟩
  · intro path member
    rw [goTo_self]
    exact ⟨task,.filling left,fetch,todo,rfl,nofun,(sound.holds_first phase member).2⟩
  · intro path content after
    by_cases here : path = fetch.path
    · exact .inr (.inr ⟨task,left,fetch,todo,goTo_self ..,here.symm⟩)
    · have before : node.content path = some content := (Function.update_of_ne here ..).symm.trans after
      rcases sound.contents path content before with done | ⟨b,filling⟩
      · exact .inl (complete done)
      · refine .inr (.inl ⟨b,?_,filling⟩)
        rintro rfl
        exact here (filling_first phase filling).symm

theorem created_sound (sound : Sound plan pieces objectAt node)
    (phase : node.phase a = .fetching task .locked (fetch :: todo))
    (absent : node.content fetch.path = none) :
    Sound plan pieces objectAt
      ({ node with content := Function.update node.content fetch.path (some []) }.goTo a
        (.fetching task (.filling (pieces fetch.object)) (fetch :: todo))) := by
  have own := sound.at_phase phase
  have incomplete : ¬ Complete pieces objectAt node fetch.path := fun complete => by simp [Complete,absent] at complete
  have linked : node.unlinked fetch.path = false := by
    by_contra removed
    exact incomplete (sound.unlinked _ (by simpa using removed))
  refine write_sound sound phase (own.2.2.2 fetch rfl) linked incomplete ?_
  rw [List.nil_append,own.1 fetch (own.2.1 fetch List.mem_cons_self)]

theorem placed_sound (sound : Sound plan pieces objectAt node) {piece : β} {left : List β}
    (phase : node.phase a = .fetching task (.filling (piece :: left)) (fetch :: todo)) :
    Sound plan pieces objectAt
      ({ node with
        content := Function.update node.content fetch.path (some ((node.content fetch.path).getD [] ++ [piece])) }.goTo a
        (.fetching task (.filling left) (fetch :: todo))) := by
  have own := sound.at_phase phase
  obtain ⟨held,linked,placed,there,rest⟩ := own.2.2.2 fetch rfl
  rw [there,Option.getD_some]
  refine write_sound sound phase held linked ?_ (by simpa using rest)
  intro complete
  obtain rfl := Option.some.inj (there.symm.trans complete)
  simp at rest

omit [DecidableEq π] in
/-- With all pieces placed, the attempt leaves the path. -/
theorem filled_sound (sound : Sound plan pieces objectAt node)
    (phase : node.phase a = .fetching task (.filling []) (fetch :: todo)) :
    Sound plan pieces objectAt (node.goTo a (.fetching task .leaving (fetch :: todo))) := by
  have own := sound.at_phase phase
  have held : a ∈ node.locks fetch.path := (own.2.2.2 fetch rfl).1
  have complete := sound.filled_complete phase
  refine sound.after ⟨fun b other => goTo_other _ other _,fun _ before => before,fun _ _ _ => Iff.rfl,
    fun _ _ _ _ still => ⟨rfl,still⟩⟩ ?_ ?_ sound.exclusive sound.unlinked ?_
  · rw [goTo_self]
    refine ⟨own.1,own.2.1,own.2.2.1,fun first head => ?_⟩
    obtain rfl := Option.some.inj head
    exact ⟨held,complete⟩
  · intro path member
    rw [goTo_self]
    exact ⟨task,.leaving,fetch,todo,rfl,nofun,(sound.holds_first phase member).2⟩
  · intro path content before
    rcases sound.contents path content before with done | ⟨b,filling⟩
    · exact .inl done
    · by_cases same : b = a
      · subst same
        exact .inl (filling_first phase filling ▸ complete)
      · exact .inr (.inl ⟨b,same,filling⟩)

theorem unlock_sound (sound : Sound plan pieces objectAt node)
    (phase : node.phase a = .fetching task .leaving (fetch :: todo)) :
    Sound plan pieces objectAt
      ({ node with
        locks := Function.update node.locks fetch.path ((node.locks fetch.path).filter (· ≠ a))
        unlinked := Function.update node.unlinked fetch.path (fetch.unlinks || node.unlinked fetch.path) }.goTo a
        (.fetching task .waiting todo)) := by
  have own := sound.at_phase phase
  obtain ⟨held,complete⟩ := own.2.2.2 fetch rfl
  have still_held (b : ι) (path : π) : b ∈ Function.update node.locks fetch.path
      ((node.locks fetch.path).filter (· ≠ a)) path ↔ b ∈ node.locks path ∧ (path = fetch.path → b ≠ a) := by
    by_cases here : path = fetch.path
    · subst here
      simp
    · simp [here]
  have still {path : π} (linked : Function.update node.unlinked fetch.path
      (fetch.unlinks || node.unlinked fetch.path) path = false) : node.unlinked path = false := by
    by_cases here : path = fetch.path
    · subst here
      rw [Function.update_self,Bool.or_eq_false_iff] at linked
      exact linked.2
    · rwa [Function.update_of_ne here] at linked
  refine sound.after ⟨fun b other => goTo_other _ other _,fun _ before => before,?_,?_⟩ ?_ ?_ ?_ ?_ ?_
  · exact fun b other path => (still_held b path).trans (and_iff_left fun _ => other)
  · intro b other path member linked
    refine ⟨rfl,?_⟩
    have elsewhere : path ≠ fetch.path := by
      rintro rfl
      exact other (sound.exclusive _ linked b member a held)
    exact (Function.update_of_ne elsewhere ..).trans linked
  · rw [goTo_self]
    refine ⟨own.1,fun f member => own.2.1 f (List.mem_cons_of_mem _ member),fun f member => ?_,fun _ _ => trivial⟩
    rcases own.2.2.1 f member with listed | done
    · rcases List.mem_cons.mp listed with rfl | later
      · exact .inr complete
      · exact .inl later
    · exact .inr done
  · intro path member
    obtain ⟨before,apart⟩ := (still_held a path).mp member
    exact absurd rfl (apart (sound.holds_first phase before).2.symm)
  · exact fun path linked b first c second =>
      sound.exclusive path (still linked) b ((still_held b path).mp first).1 c ((still_held c path).mp second).1
  · intro path removed
    by_cases here : path = fetch.path
    · exact here ▸ complete
    · exact sound.unlinked path ((Function.update_of_ne here ..).symm.trans removed)
  · intro path placed there
    exact (sound.filled_beside (not_filling phase (by simp) path) there).imp_right .inl

omit [DecidableEq π] in
theorem pass_sound (sound : Sound plan pieces objectAt node) (phase : node.phase a = .fetching task .waiting []) :
    Sound plan pieces objectAt (node.goTo a (.past task node.content)) := by
  have own := sound.at_phase phase
  refine sound.goTo (not_filling phase (by simp)) (fun fetch member => ?_) (by simp [phase,Holding])
  rcases own.2.2.1 fetch member with listed | complete
  · exact absurd listed List.not_mem_nil
  · exact own.1 fetch member ▸ complete

omit [DecidableEq π] in
/-- An attempt that ends while it is not filling a path leaves only complete ones. -/
theorem fail_sound (sound : Sound plan pieces objectAt node) {place : Place β}
    (phase : node.phase a = .fetching task place todo)
    (filled : ∀ task piece left todo, node.phase a ≠ .fetching task (.filling (piece :: left)) todo) :
    Sound plan pieces objectAt
      ({ node with locks := fun path => (node.locks path).filter (· ≠ a) }.goTo a .ended) := by
  refine sound.after ⟨fun b other => goTo_other _ other _,fun _ before => before,?_,fun _ _ _ _ still => ⟨rfl,still⟩⟩
    ?_ ?_ ?_ sound.unlinked ?_
  · exact fun b other path => List.mem_filter.trans (and_iff_left (by simpa using other))
  · rw [goTo_self]
    trivial
  · intro path member
    simpa using (List.mem_filter.mp member).2
  · exact fun path linked b first c second =>
      sound.exclusive path linked b (List.mem_filter.mp first).1 c (List.mem_filter.mp second).1
  · intro path placed there
    rcases sound.contents path placed there with done | ⟨b,filling⟩
    · exact .inl done
    · by_cases same : b = a
      · subst same
        obtain ⟨task',left,fetch,todo',at_phase,rfl⟩ := filling
        cases left with
        | nil => exact .inl (sound.filled_complete at_phase)
        | cons piece left => exact absurd at_phase (filled task' piece left _)
      · exact .inr (.inl ⟨b,same,filling⟩)

omit [DecidableEq ι] in
/-- Nobody who is fetching loses a path. -/
theorem remove_sound (sound : Sound plan pieces objectAt node) (path : π)
    (apart : ∀ a task place todo, node.phase a ≠ .fetching task place todo) :
    Sound plan pieces objectAt { node with
      content := Function.update node.content path none
      unlinked := Function.update node.unlinked path false } where
  phases := by
    intro b
    have before := sound.phases b
    cases phase : node.phase b with
    | fetching task place todo => exact absurd phase (apart b task place todo)
    | past task found =>
      rw [phase] at before
      exact before
    | idle => trivial
    | ended => trivial
  holders := sound.holders
  exclusive := by
    intro other _ a held
    obtain ⟨task,place,fetch,todo,phase,-⟩ := sound.holders other a held
    exact absurd phase (apart a task place _)
  unlinked := by
    intro other removed
    by_cases here : other = path
    · simp [here] at removed
    · exact (Function.update_of_ne here ..).trans (sound.unlinked other ((Function.update_of_ne here ..).symm.trans removed))
  contents := by
    intro other placed there
    by_cases here : other = path
    · simp [here] at there
    · have before : node.content other = some placed := (Function.update_of_ne here ..).symm.trans there
      rcases sound.contents other placed before with complete | filling
      · exact .inl ((Function.update_of_ne here ..).trans complete)
      · exact .inr filling

theorem step_sound {action : Action ι π τ} (sound : Sound plan pieces objectAt node)
    (condition : Undisturbed node action ∧ Agrees plan objectAt action) :
    Sound plan pieces objectAt (node.step plan pieces action) := by
  obtain ⟨undisturbed,agrees⟩ := condition
  cases action with
  | start a task =>
    simp only [Node.step]
    split
    · exact start_sound sound ‹_› agrees
    · exact sound
  | lock a =>
    simp only [Node.step]
    split
    · split
      · exact lock_sound sound ‹_› ‹_›
      · exact sound
    · exact sound
  | look a =>
    simp only [Node.step]
    split
    · split
      · exact found_sound sound ‹_› ‹_›
      · exact created_sound sound ‹_› ‹_›
    · exact sound
  | place a =>
    simp only [Node.step]
    split
    · exact placed_sound sound ‹_›
    · exact filled_sound sound ‹_›
    · exact sound
  | unlock a =>
    simp only [Node.step]
    split
    · exact unlock_sound sound ‹_›
    · exact sound
  | pass a =>
    simp only [Node.step]
    split
    · split
      · exact sound
      · exact pass_sound sound ‹_›
    · exact sound
  | fail a =>
    simp only [Node.step]
    split
    · exact fail_sound sound ‹_› undisturbed
    · exact sound
  | remove path => exact remove_sound sound path undisturbed

/-- Whoever gets past its fetches in an undisturbed run has found each object complete. -/
theorem found_complete {actions : List (Action ι π τ)}
    (along : Along (Node.step plan pieces) (fun node action => Undisturbed node action ∧ Agrees plan objectAt action)
      (Node.fresh : Node ι π ο β τ) actions) {found : π → Option (List β)}
    (past : (Node.fresh.run plan pieces actions).phase a = .past task found) :
    ∀ fetch ∈ (plan task).fetches, found fetch.path = some (pieces fetch.object) := by
  have sound : Sound plan pieces objectAt (Node.fresh.run plan pieces actions) :=
    along.invariant (fun _ _ => step_sound) fresh_sound
  exact sound.at_phase past

end Invariant

end OasisPlatform.GuardedFetch
