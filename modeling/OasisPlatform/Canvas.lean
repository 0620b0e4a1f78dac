import Mathlib.Data.List.Basic

/-!
Canvases of tasks: signatures, chords of parallel tasks with a body, and chains, each with
error callbacks. A chain that is built merges what follows a chord into its body; the
callbacks of a chain are copied to its tasks when it is taken apart. Whatever the mix of
tasks and chords, the parts of a chain then run the same tasks in the same order, and each
of them carries the callback of the chain once (`unchained_spec`).
-/
namespace OasisPlatform.Canvas
set_option linter.unusedSimpArgs false

variable {τ ε : Type}

/-- A signature of tasks `τ` with error callbacks `ε`. -/
inductive Sig (τ ε : Type) where
  | task (task : τ) (errbacks : List ε)
  | chord (header : List (τ × List ε)) (body : Sig τ ε)
  | chain (tasks : List (Sig τ ε)) (errbacks : List ε)

/-- What runs next: a task, or the tasks of a header in parallel. -/
inductive Step (τ : Type) where
  | task (task : τ)
  | header (tasks : List τ)
  deriving DecidableEq, Repr

def Step.tasks : Step τ → List τ
  | .task work => [work]
  | .header tasks => tasks

mutual

/-- The order of execution. -/
def flow : Sig τ ε → List (Step τ)
  | .task work _ => [.task work]
  | .chord header body => .header (header.map Prod.fst) :: flow body
  | .chain tasks _ => flows tasks

def flows : List (Sig τ ε) → List (Step τ)
  | [] => []
  | sig :: rest => flow sig ++ flows rest

end

/-- The callbacks that an element of a chain carries, a chord in its body. -/
def errbacks : Sig τ ε → List ε
  | .task _ errbacks => errbacks
  | .chord _ body => errbacks body
  | .chain _ errbacks => errbacks

mutual

/-- The callbacks of each task outside the headers, with those of the chains around it. -/
def carried (inherited : List ε) : Sig τ ε → List (τ × List ε)
  | .task work own => [(work,inherited ++ own)]
  | .chord _ body => carried inherited body
  | .chain tasks own => carrieds (inherited ++ own) tasks

def carrieds (inherited : List ε) : List (Sig τ ε) → List (τ × List ε)
  | [] => []
  | sig :: rest => carried inherited sig ++ carrieds inherited rest

end

theorem flows_append (sigs others : List (Sig τ ε)) : flows (sigs ++ others) = flows sigs ++ flows others := by
  induction sigs with
  | nil => rfl
  | cons sig rest ih => rw [List.cons_append,flows,flows,ih,List.append_assoc]

section Results
variable {δ : Type}

/-- What a task is given when steps run one after the other: the result of the task before
    it, or those of the header before it. -/
inductive Given (returns : τ → List δ → δ → Prop) : List (Step τ) → List δ → τ → List δ → Prop where
  | task (work : τ) (rest : List (Step τ)) (given : List δ) : Given returns (.task work :: rest) given work given
  | afterTask {work other : τ} {rest : List (Step τ)} {given args : List δ} {result : δ}
      (returned : returns work given result) (later : Given returns rest [result] other args) :
      Given returns (.task work :: rest) given other args
  | header {work : τ} {works : List τ} (listed : work ∈ works) (rest : List (Step τ)) (given : List δ) :
      Given returns (.header works :: rest) given work given
  | afterHeader {other : τ} {works : List τ} {rest : List (Step τ)} {given args results : List δ}
      (returned : List.Forall₂ (fun work result => returns work given result) works results)
      (later : Given returns rest results other args) : Given returns (.header works :: rest) given other args

theorem forall₂_good {returns : τ → List δ → δ → Prop} {given : List δ} {good : δ → Prop} {works : List τ}
    {results : List δ} (kept : ∀ work ∈ works, ∀ result, returns work given result → good result)
    (returned : List.Forall₂ (fun work result => returns work given result) works results) :
    ∀ result ∈ results, good result := by
  induction returned with
  | nil => exact fun _ none => absurd none List.not_mem_nil
  | cons first _ ih =>
    intro result listed
    rcases List.mem_cons.mp listed with rfl | later
    · exact kept _ List.mem_cons_self _ first
    · exact ih (fun work member => kept work (List.mem_cons_of_mem _ member)) result later

/-- What every task keeps, every task is given. -/
theorem Given.invariant {returns : τ → List δ → δ → Prop} {good : δ → Prop} {steps : List (Step τ)}
    (kept : ∀ step ∈ steps, ∀ work ∈ step.tasks, ∀ given result, (∀ d ∈ given, good d) → returns work given result →
      good result)
    {given args : List δ} {work : τ} (reached : Given returns steps given work args) (start : ∀ d ∈ given, good d) :
    ∀ d ∈ args, good d := by
  induction reached with
  | task work rest given => exact start
  | header listed rest given => exact start
  | @afterTask work other rest given args result returned later ih =>
    refine ih (fun step member => kept step (List.mem_cons_of_mem _ member)) fun d listed => ?_
    obtain rfl := List.mem_singleton.mp listed
    exact kept _ List.mem_cons_self work List.mem_cons_self given d start returned
  | @afterHeader other works rest given args results returned later ih =>
    refine ih (fun step member => kept step (List.mem_cons_of_mem _ member)) ?_
    exact forall₂_good (fun work member result => kept _ List.mem_cons_self work member given result start) returned

end Results

/-- A task or a chord before it is chained, each with the callbacks that it has by then. -/
inductive Element (τ ε : Type) where
  | task (task : τ) (errbacks : List ε)
  | chord (header : List (τ × List ε)) (body : τ × List ε)

def Element.sig : Element τ ε → Sig τ ε
  | .task work errbacks => .task work errbacks
  | .chord header body => .chord header (.task body.1 body.2)

def Element.flow : Element τ ε → List (Step τ)
  | .task work _ => [.task work]
  | .chord header body => [.header (header.map Prod.fst),.task body.1]

/-- The callbacks of the task, or of the body. -/
def Element.own : Element τ ε → List ε
  | .task _ errbacks => errbacks
  | .chord _ body => body.2

/-- The same tasks with other callbacks. -/
def Element.map {δ : Type} (f : δ → ε) : Element τ δ → Element τ ε
  | .task work errbacks => .task work (errbacks.map f)
  | .chord header body => .chord (header.map fun leaf => (leaf.1,leaf.2.map f)) (body.1,body.2.map f)

theorem Element.flow_map {δ : Type} (f : δ → ε) (element : Element τ δ) : (element.map f).flow = element.flow := by
  cases element with
  | task work errbacks => rfl
  | chord header body => simp [Element.map,Element.flow,Function.comp_def]

theorem Element.own_map {δ : Type} (f : δ → ε) (element : Element τ δ) : (element.map f).own = element.own.map f := by
  cases element <;> rfl

/-- What follows a chord is in its body. -/
def merged : List (Sig τ ε) → List (Sig τ ε)
  | [] => []
  | .chord header body :: [] => [.chord header body]
  | .chord header body :: next :: rest => [.chord header (.chain (body :: merged (next :: rest)) [])]
  | sig :: rest => sig :: merged rest

theorem merged_task (work : τ) (errbacks : List ε) (rest : List (Sig τ ε)) :
    merged (.task work errbacks :: rest) = .task work errbacks :: merged rest := by
  simp [merged]

theorem merged_chord (header : List (τ × List ε)) (body : τ × List ε) (next : Element τ ε) (rest : List (Element τ ε)) :
    merged ((Element.chord header body :: next :: rest).map Element.sig) =
      [.chord header (.chain (.task body.1 body.2 :: merged ((next :: rest).map Element.sig)) [])] := rfl

/-- Merging changes neither the order nor the callbacks. -/
theorem merged_kept (inherited : List ε) (elements : List (Element τ ε)) :
    flows (merged (elements.map Element.sig)) = elements.flatMap Element.flow ∧
      carrieds inherited (merged (elements.map Element.sig)) =
        elements.flatMap fun element => carried inherited element.sig := by
  induction elements with
  | nil => exact ⟨rfl,rfl⟩
  | cons element rest ih =>
    cases element with
    | task work own =>
      rw [List.map_cons,Element.sig,merged_task,flows,carrieds,ih.1,ih.2]
      exact ⟨rfl,rfl⟩
    | chord header body =>
      cases rest with
      | nil => simp [Element.sig,merged,flows,flow,Element.flow,carrieds,carried]
      | cons next rest =>
        rw [merged_chord]
        simp only [flows,flow,carrieds,carried,List.append_nil,ih.1,ih.2]
        exact ⟨rfl,rfl⟩

/-- The operations of the library that runs canvases. -/
structure Operations (τ ε : Type) where
  chain : List (Sig τ ε) → Sig τ ε
  /-- With `app=`. -/
  chainApart : List (Sig τ ε) → Sig τ ε
  unchainTasks : Sig τ ε → List (Sig τ ε)
  linkError : Sig τ ε → ε → Sig τ ε

variable [DecidableEq ε]

/-- A callback is in a list of callbacks once. -/
def addErrback (errbacks : List ε) (errback : ε) : List ε :=
  if errback ∈ errbacks then errbacks else errbacks ++ [errback]

/-- What is documented of the operations. -/
structure Documented (ops : Operations τ ε) : Prop where
  chain_merges : ∀ elements : List (Element τ ε),
    ops.chain (elements.map Element.sig) = .chain (merged (elements.map Element.sig)) []
  chain_apart : ∀ tasks, ops.chainApart tasks = .chain tasks []
  unchain_copies : ∀ tasks errbacks, ops.unchainTasks (.chain tasks errbacks) =
    tasks.map fun task => errbacks.foldl ops.linkError task
  link_task : ∀ work errbacks errback,
    ops.linkError (.task work errbacks) errback = .task work (addErrback errbacks errback)
  link_chain : ∀ tasks errbacks errback,
    ops.linkError (.chain tasks errbacks) errback = .chain tasks (addErrback errbacks errback)
  link_body : ∀ header body errback,
    ops.linkError (.chord header body) errback = .chord header (ops.linkError body errback)

theorem addErrback_filter {p : ε → Bool} {errbacks : List ε} {errback : ε} (kind : p errback = true)
    (free : errbacks.filter p = []) : (addErrback errbacks errback).filter p = [errback] := by
  have absent : errback ∉ errbacks := by
    intro listed
    have member : errback ∈ errbacks.filter p := List.mem_filter.mpr ⟨listed,kind⟩
    simp [free] at member
  rw [addErrback,if_neg absent,List.filter_append,free]
  simp [kind]

/-- An element that carries one callback of a kind, as do all its tasks. -/
def CarriesOne (p : ε → Bool) (errback : ε) (sig : Sig τ ε) : Prop :=
  (errbacks sig).filter p = [errback] ∧ ∀ leaf ∈ carried [] sig, leaf.2.filter p = [errback]

omit [DecidableEq ε] in
theorem element_carries {p : ε → Bool} {errback : ε} (kind : p errback = true) {element : Element τ ε}
    (free : element.own.filter p = []) : ∀ leaf ∈ carried [errback] element.sig, leaf.2.filter p = [errback] := by
  intro leaf listed
  cases element with
  | task work errbacks =>
    obtain rfl := List.mem_singleton.mp listed
    rw [Element.own] at free
    simp [kind,free]
  | chord header body =>
    obtain rfl := List.mem_singleton.mp listed
    rw [Element.own] at free
    simp [kind,free]

omit [DecidableEq ε] in
theorem elements_carry {p : ε → Bool} {errback : ε} (kind : p errback = true) {elements : List (Element τ ε)}
    (free : ∀ element ∈ elements, element.own.filter p = []) :
    ∀ leaf ∈ elements.flatMap (fun element => carried [errback] element.sig), leaf.2.filter p = [errback] := by
  intro leaf listed
  obtain ⟨element,member,listed⟩ := List.mem_flatMap.mp listed
  exact element_carries kind (free element member) leaf listed

omit [DecidableEq ε] in
/-- A task carries what is linked to it. -/
theorem task_carries {p : ε → Bool} {errback : ε} {errbacks : List ε} (one : errbacks.filter p = [errback]) (work : τ) :
    CarriesOne p errback (.task work errbacks) := by
  refine ⟨one,fun leaf member => ?_⟩
  obtain rfl := List.mem_singleton.mp member
  exact one

/-- A callback that is linked to every part of a merged chain. -/
theorem linked_spec {ops : Operations τ ε} (documented : Documented ops) {p : ε → Bool} {errback : ε}
    (kind : p errback = true) {elements : List (Element τ ε)} (free : ∀ element ∈ elements, element.own.filter p = []) :
    flows ((merged (elements.map Element.sig)).map fun sig => ops.linkError sig errback) =
        elements.flatMap Element.flow ∧
      ∀ sig ∈ (merged (elements.map Element.sig)).map (fun sig => ops.linkError sig errback),
        CarriesOne p errback sig := by
  induction elements with
  | nil => exact ⟨rfl,by simp [merged]⟩
  | cons element rest ih =>
    have own := free element List.mem_cons_self
    have later := fun other listed => free other (List.mem_cons_of_mem _ listed)
    obtain ⟨order,carry⟩ := ih later
    cases element with
    | task work errbacks =>
      rw [List.map_cons,Element.sig,merged_task,List.map_cons,documented.link_task]
      have one := addErrback_filter kind own
      constructor
      · rw [flows,order]
        rfl
      · intro sig listed
        rcases List.mem_cons.mp listed with rfl | listed
        · exact task_carries one work
        · exact carry sig listed
    | chord header body =>
      have one := addErrback_filter kind own
      cases rest with
      | nil =>
        simp only [List.map_cons,List.map_nil,Element.sig,merged,documented.link_body,documented.link_task]
        refine ⟨rfl,?_⟩
        intro sig listed
        obtain rfl := List.mem_singleton.mp listed
        refine ⟨one,fun leaf member => ?_⟩
        obtain rfl := List.mem_singleton.mp member
        exact one
      | cons next rest =>
        have kept := merged_kept [errback] (next :: rest)
        have single : addErrback [] errback = [errback] := rfl
        rw [merged_chord,List.map_cons,List.map_nil,documented.link_body,documented.link_chain,single]
        constructor
        · simp only [flows,flow,List.append_nil,kept.1]
          rfl
        · intro sig listed
          obtain rfl := List.mem_singleton.mp listed
          refine ⟨by simp [errbacks,kind],fun leaf member => ?_⟩
          simp only [carried,carrieds,List.nil_append,kept.2] at member
          rcases List.mem_append.mp member with first | others
          · exact element_carries kind own leaf first
          · exact elements_carry kind later leaf others

theorem unchained_spec {ops : Operations τ ε} (documented : Documented ops) {p : ε → Bool} {errback : ε}
    (kind : p errback = true) {elements : List (Element τ ε)} (free : ∀ element ∈ elements, element.own.filter p = []) :
    flows (ops.unchainTasks (ops.linkError (ops.chain (elements.map Element.sig)) errback)) =
        elements.flatMap Element.flow ∧
      ∀ sig ∈ ops.unchainTasks (ops.linkError (ops.chain (elements.map Element.sig)) errback),
        CarriesOne p errback sig := by
  rw [documented.chain_merges,documented.link_chain,documented.unchain_copies]
  exact linked_spec documented kind free

def link : Sig τ ε → ε → Sig τ ε
  | .task work errbacks,errback => .task work (addErrback errbacks errback)
  | .chord header body,errback => .chord header (link body errback)
  | .chain tasks errbacks,errback => .chain tasks (addErrback errbacks errback)

def unchain : Sig τ ε → List (Sig τ ε)
  | .chain tasks errbacks => tasks.map fun task => errbacks.foldl link task
  | sig => [sig]

def reference : Operations τ ε where
  chain := fun tasks => .chain (merged tasks) []
  chainApart := fun tasks => .chain tasks []
  unchainTasks := unchain
  linkError := link

theorem reference_documented : Documented (reference : Operations τ ε) where
  chain_merges := fun _ => rfl
  chain_apart := fun _ => rfl
  unchain_copies := fun _ _ => rfl
  link_task := fun _ _ _ => rfl
  link_chain := fun _ _ _ => rfl
  link_body := fun _ _ _ => rfl

end OasisPlatform.Canvas
