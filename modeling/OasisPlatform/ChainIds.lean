import OasisPlatform.Models
import OasisPlatform.Worklist

/-!
The ids of the remaining tasks, as the first task of a stage sends them. The worker looks
at the first element of the rest of the chain only, and descends into the bodies of chords
that are chains, not into those that are one task. All ids are sent exactly when nothing
else of the chain holds a sub-task (`all_ids_sent_iff`).
-/
namespace OasisPlatform.ChainIds
open OasisPlatform.Models OasisPlatform.Worklist
open scoped List
set_option linter.unusedSimpArgs false

structure Options where
  taskId : Option String

mutual

/-- The dictionary of a signature, with the keys that are read. -/
inductive TaskDict where
  | mk (kwargs : Option Kwargs) (options : Option Options)

inductive Kwargs where
  | mk (analysisId : Option AnalysisId) (slug : Option String) (body header : Option TaskDict)
    (tasks : Option (List TaskDict))

end

def TaskDict.kwargs : TaskDict → Option Kwargs
  | .mk kwargs _ => kwargs

def TaskDict.options : TaskDict → Option Options
  | .mk _ options => options

def Kwargs.analysisId : Kwargs → Option AnalysisId
  | .mk analysisId _ _ _ _ => analysisId

def Kwargs.slug : Kwargs → Option String
  | .mk _ slug _ _ _ => slug

def Kwargs.body : Kwargs → Option TaskDict
  | .mk _ _ body _ _ => body

def Kwargs.header : Kwargs → Option TaskDict
  | .mk _ _ _ header _ => header

def Kwargs.tasks : Kwargs → Option (List TaskDict)
  | .mk _ _ _ _ tasks => tasks

inductive PyError where
  | keyError (key : String)
  | indexError
  | typeError
  deriving DecidableEq, Repr

/-- `dict[key]`. -/
def item {α : Type} (key : String) : Option α → Except PyError α
  | some value => .ok value
  | none => .error (.keyError key)

/-- `list.sort()`: dictionaries are not ordered. -/
def sort : List TaskDict → Except PyError (List TaskDict)
  | [] => .ok []
  | [task] => .ok [task]
  | _ :: _ :: _ => .error .typeError

/-- What is sent of a sub-task. -/
structure TaskUpdate where
  taskId : String
  analysisId : AnalysisId
  slug : String
  deriving DecidableEq, Repr

/-- `.get("kwargs", {}).get("tasks", [])`. -/
def newTasks (task : TaskDict) : List TaskDict := (task.kwargs.bind Kwargs.tasks).getD []

/-- The task itself, where it is valid. -/
def ownUpdate (currLevel : TaskDict) : Except PyError (List TaskUpdate) :=
  match currLevel.kwargs.bind Kwargs.analysisId with
  | none => .ok []
  | some analysisId => do
    let options ← item "options" currLevel.options
    let taskId ← item "task_id" options.taskId
    let kwargs ← item "kwargs" currLevel.kwargs
    let slug ← item "slug" kwargs.slug
    .ok [⟨taskId,analysisId,slug⟩]

/-- The nested tasks, those of the body first. -/
def nestedTasks (currLevel : TaskDict) : Except PyError (List TaskDict) := do
  let kwargs ← item "kwargs" currLevel.kwargs
  .ok ((kwargs.body.map newTasks).getD [] ++ (kwargs.header.map newTasks).getD [])

/-- One turn of the loop. -/
def visit (currLevel : TaskDict) : Except PyError (List TaskUpdate × List TaskDict) := do
  let updates ← ownUpdate currLevel
  let nested ← nestedTasks currLevel
  .ok (updates,nested)

theorem sizes_sum (tasks : List TaskDict) : (tasks.map sizeOf).sum < sizeOf tasks := by
  induction tasks with
  | nil => simp
  | cons task rest ih =>
    simp only [List.map_cons,List.sum_cons,List.cons.sizeOf_spec]
    omega

theorem newTasks_size (task : TaskDict) : ((newTasks task).map sizeOf).sum < sizeOf task := by
  rcases task with ⟨_ | ⟨analysisId,slug,body,header,_ | tasks⟩,options⟩
  · simp only [newTasks,TaskDict.kwargs,Option.bind_none,Option.getD_none,List.map_nil,List.sum_nil,
      TaskDict.mk.sizeOf_spec]
    omega
  · simp only [newTasks,TaskDict.kwargs,Kwargs.tasks,Option.bind_some,Option.getD_none,List.map_nil,List.sum_nil,
      TaskDict.mk.sizeOf_spec]
    omega
  · have inside := sizes_sum tasks
    simp only [newTasks,TaskDict.kwargs,Kwargs.tasks,Option.bind_some,Option.getD_some,TaskDict.mk.sizeOf_spec,
      Option.some.sizeOf_spec,Kwargs.mk.sizeOf_spec]
    omega

theorem nested_size (nested : Option TaskDict) : (((nested.map newTasks).getD []).map sizeOf).sum < sizeOf nested := by
  cases nested with
  | none => simp
  | some task =>
    have inside := newTasks_size task
    simp only [Option.map_some,Option.getD_some,Option.some.sizeOf_spec]
    omega

theorem nestedTasks_size {task : TaskDict} {nested : List TaskDict} (read : nestedTasks task = .ok nested) :
    (nested.map sizeOf).sum < sizeOf task := by
  obtain ⟨_ | ⟨analysisId,slug,body,header,tasks⟩,options⟩ := task
  · cases read
  · have ofBody := nested_size body
    have ofHeader := nested_size header
    obtain rfl := Except.ok.inj read
    simp only [Kwargs.body,Kwargs.header,List.map_append,List.sum_append,TaskDict.mk.sizeOf_spec,
      Option.some.sizeOf_spec,Kwargs.mk.sizeOf_spec]
    omega

theorem visit_shrinks : Shrinks visit sizeOf := by
  intro task updates parts visited
  cases own : ownUpdate task with
  | error error => simp [visit,own,bind,Except.bind] at visited
  | ok update =>
    cases nested : nestedTasks task with
    | error error => simp [visit,own,nested,bind,Except.bind] at visited
    | ok tasks =>
      simp only [visit,own,nested,bind,Except.bind,Except.ok.injEq,Prod.mk.injEq] at visited
      exact visited.2 ▸ nestedTasks_size nested

/-- The loop from the first element of the chain, and the list that is sent. -/
def updateAllTasksIds (chain : List TaskDict) : Except PyError (List TaskUpdate) := do
  let sorted ← match sort chain with
    | .ok sorted => pure sorted
    | .error .typeError => pure chain
    | .error error => .error error
  match sorted with
  | [] => .error .indexError
  | chainTasks :: _ => drain visit sizeOf visit_shrinks [chainTasks] []

/-- A signature that is not nested: that of a sub-task, or of another task. -/
inductive Plain where
  | subTask (update : TaskUpdate)
  | other (taskId : String)
  deriving DecidableEq, Repr

/-- An element of a chain: a plain signature, or a chord whose body is one, or is a chain. -/
inductive Element where
  | plain (signature : Plain)
  | chordTask (header : List Element) (body : Plain)
  | chordChain (header body : List Element)

/-- The dictionary of a group or a chain. -/
def listDict (tasks : List TaskDict) : TaskDict := .mk (some (.mk none none none none (some tasks))) (some ⟨none⟩)

def chordDict (header body : TaskDict) : TaskDict := .mk (some (.mk none none (some body) (some header) none)) (some ⟨none⟩)

def Plain.dict : Plain → TaskDict
  | .subTask update => .mk (some (.mk (some update.analysisId) (some update.slug) none none none)) (some ⟨some update.taskId⟩)
  | .other taskId => .mk (some (.mk none none none none none)) (some ⟨some taskId⟩)

mutual

def Element.dict : Element → TaskDict
  | .plain signature => signature.dict
  | .chordTask header body => chordDict (listDict (dicts header)) body.dict
  | .chordChain header body => chordDict (listDict (dicts header)) (listDict (dicts body))

def dicts : List Element → List TaskDict
  | [] => []
  | element :: rest => element.dict :: dicts rest

end

def Plain.updates : Plain → List TaskUpdate
  | .subTask update => [update]
  | .other _ => []

mutual

/-- The sub-tasks that occur in an element. -/
def occurring : Element → List TaskUpdate
  | .plain signature => signature.updates
  | .chordTask header body => body.updates ++ occurringIn header
  | .chordChain header body => occurringIn body ++ occurringIn header

def occurringIn : List Element → List TaskUpdate
  | [] => []
  | element :: rest => occurring element ++ occurringIn rest

end

mutual

/-- Those of them that the loop finds from it. -/
def found : Element → List TaskUpdate
  | .plain signature => signature.updates
  | .chordTask header _ => foundIn header
  | .chordChain header body => foundIn body ++ foundIn header

def foundIn : List Element → List TaskUpdate
  | [] => []
  | element :: rest => found element ++ foundIn rest

end

mutual

/-- No chord of the element has a sub-task as its body. -/
def ChainedBodies : Element → Prop
  | .plain _ => True
  | .chordTask header body => (∀ update, body ≠ .subTask update) ∧ ChainedBodiesIn header
  | .chordChain header body => ChainedBodiesIn body ∧ ChainedBodiesIn header

def ChainedBodiesIn : List Element → Prop
  | [] => True
  | element :: rest => ChainedBodies element ∧ ChainedBodiesIn rest

end

theorem dicts_eq (elements : List Element) : dicts elements = elements.map Element.dict := by
  induction elements with
  | nil => rfl
  | cons element rest ih => rw [dicts,ih,List.map_cons]

theorem foundIn_eq (elements : List Element) : foundIn elements = elements.flatMap found := by
  induction elements with
  | nil => rfl
  | cons element rest ih => rw [foundIn,ih,List.flatMap_cons]

theorem occurringIn_nil {elements : List Element} :
    occurringIn elements = [] ↔ ∀ element ∈ elements, occurring element = [] := by
  induction elements with
  | nil => simp [occurringIn]
  | cons element rest ih => simp [occurringIn,ih]

/-- Each turn yields the sub-task itself, and leaves the elements of the body, where it is a
    chain, and of the header. -/
theorem visit_yields : Yields visit Element.dict found := by
  intro element
  cases element with
  | plain signature =>
    refine ⟨signature.updates,[],?_,by simp [found]⟩
    cases signature <;> rfl
  | chordTask header body =>
    refine ⟨[],header,?_,by simp [found,foundIn_eq]⟩
    rw [Element.dict,dicts_eq]
    cases body <;> rfl
  | chordChain header body =>
    refine ⟨[],body ++ header,?_,by simp [found,foundIn_eq]⟩
    rw [Element.dict,dicts_eq,dicts_eq,List.map_append]
    rfl

/-- The call ends without an error, and sends what is found from the first element. -/
theorem updateAllTasksIds_sends (first : Element) (rest : List Element) :
    ∃ sent, updateAllTasksIds ((first :: rest).map Element.dict) = .ok sent ∧ sent ~ found first := by
  obtain ⟨sent,drained,perm⟩ := drain_collects visit_shrinks visit_yields [first] []
  refine ⟨sent,?_,by simpa using perm⟩
  cases rest with
  | nil => exact drained
  | cons second others => exact drained

mutual

/-- What is found is all, unless a sub-task is the body of a chord. -/
theorem found_length : (element : Element) → (found element).length ≤ (occurring element).length ∧
    ((occurring element).length ≤ (found element).length → ChainedBodies element)
  | .plain signature => ⟨Nat.le_refl _,fun _ => trivial⟩
  | .chordTask header body => by
    obtain ⟨less,chained⟩ := foundIn_length header
    simp only [found,occurring,List.length_append]
    refine ⟨by omega,fun all => ⟨?_,chained (by omega)⟩⟩
    rintro update rfl
    simp only [Plain.updates,List.length_singleton] at all
    omega
  | .chordChain header body => by
    obtain ⟨lessHeader,chainedHeader⟩ := foundIn_length header
    obtain ⟨lessBody,chainedBody⟩ := foundIn_length body
    simp only [found,occurring,List.length_append]
    exact ⟨by omega,fun all => ⟨chainedBody (by omega),chainedHeader (by omega)⟩⟩

theorem foundIn_length : (elements : List Element) → (foundIn elements).length ≤ (occurringIn elements).length ∧
    ((occurringIn elements).length ≤ (foundIn elements).length → ChainedBodiesIn elements)
  | [] => ⟨Nat.le_refl _,fun _ => trivial⟩
  | element :: rest => by
    obtain ⟨less,chained⟩ := found_length element
    obtain ⟨lessRest,chainedRest⟩ := foundIn_length rest
    simp only [foundIn,occurringIn,List.length_append]
    exact ⟨by omega,fun all => ⟨chained (by omega),chainedRest (by omega)⟩⟩

end

mutual

theorem found_all : (element : Element) → ChainedBodies element → found element = occurring element
  | .plain _, _ => rfl
  | .chordTask header (.subTask update), chained => absurd rfl (chained.1 update)
  | .chordTask header (.other _), chained => by
    rw [found,occurring,foundIn_all header chained.2]
    rfl
  | .chordChain header body, chained => by
    rw [found,occurring,foundIn_all header chained.2,foundIn_all body chained.1]

theorem foundIn_all : (elements : List Element) → ChainedBodiesIn elements → foundIn elements = occurringIn elements
  | [], _ => rfl
  | element :: rest, chained => by rw [foundIn,occurringIn,found_all element chained.1,foundIn_all rest chained.2]

end

/-- Every sub-task of the chain is sent, once for each time it occurs, exactly when all of
    them are in the first element and none is the body of a chord. -/
theorem all_ids_sent_iff (first : Element) (rest : List Element) :
    (∃ sent, updateAllTasksIds ((first :: rest).map Element.dict) = .ok sent ∧ sent ~ occurringIn (first :: rest)) ↔
      ChainedBodies first ∧ ∀ element ∈ rest, occurring element = [] := by
  obtain ⟨sent,executed,found_sent⟩ := updateAllTasksIds_sends first rest
  constructor
  · rintro ⟨other,same,all⟩
    obtain rfl := Except.ok.inj (executed.symm.trans same)
    have lengths := found_sent.length_eq.symm.trans all.length_eq
    obtain ⟨less,chained⟩ := found_length first
    simp only [occurringIn,List.length_append] at lengths
    refine ⟨chained (by omega),occurringIn_nil.mp (List.eq_nil_of_length_eq_zero ?_)⟩
    omega
  · rintro ⟨chained,empty⟩
    refine ⟨sent,executed,?_⟩
    rw [occurringIn,occurringIn_nil.mpr empty,List.append_nil,← found_all first chained]
    exact found_sent

/-- The rest of the chain of `generate_inputs` when its first task starts: the chord, with
    the later tasks in its body, and the second task. -/
def generateInputsChain : List Element :=
  [.chordChain [.plain (.subTask ⟨"id-2",1,"prepare-keys-file-0"⟩)]
      [.plain (.subTask ⟨"id-3",1,"collect-keys"⟩),.plain (.subTask ⟨"id-4",1,"write-input-files"⟩),
        .plain (.subTask ⟨"id-5",1,"record-input-files"⟩),.plain (.subTask ⟨"id-6",1,"cleanup-input-generation"⟩)],
    .plain (.subTask ⟨"id-1",1,"pre-analysis-hook"⟩)]

theorem preAnalysisHook_unsent :
    ¬ ∃ sent, updateAllTasksIds (generateInputsChain.map Element.dict) = .ok sent ∧ sent ~ occurringIn generateInputsChain := by
  rintro ⟨sent,executed,all⟩
  obtain ⟨other,same,found_sent⟩ := updateAllTasksIds_sends _ _
  obtain rfl := Except.ok.inj (executed.symm.trans same)
  exact absurd (found_sent.length_eq.symm.trans all.length_eq) (by decide)

end OasisPlatform.ChainIds
