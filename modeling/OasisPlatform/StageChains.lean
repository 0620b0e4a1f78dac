import OasisPlatform.AnalysisTasks
import OasisPlatform.Canvas
import OasisPlatform.StageSlugs

/-!
The chains of the two stages of an analysis. Each stage is chained with a callback for its
failures; to run both, the chains are taken apart and their tasks are put into one chain.
That chain runs the first stage and then the second, and every part of it keeps the failure
handler of its own stage, once (`stages_joined`).
-/
namespace OasisPlatform.StageChains
open OasisPlatform.AnalysisTasks OasisPlatform.Canvas OasisPlatform.Models OasisPlatform.SubTasks
set_option linter.unusedSimpArgs false

/-- The signature of a sub-task, with its positional arguments. -/
structure TaskSignature where
  task : String
  slug : String
  queue : String
  args : List Nat
  deriving DecidableEq, Repr

/-- The callbacks that a task has before it is chained. -/
inductive TaskErrback where
  | recordSubTaskFailure (taskSlug : String)
  | chordErrorCallback
  | other (name : String)
  deriving DecidableEq, Repr

/-- The arguments of `handle_task_failure`. -/
structure FailureHandler where
  analysisId : AnalysisId
  initiatorId : UserId
  runDataUuid : String
  tracebackProperty : TracebackProperty
  failureStatus : AnalysisStatus
  deriving DecidableEq, Repr

inductive Errback where
  | task (errback : TaskErrback)
  | handleTaskFailure (handler : FailureHandler)
  deriving DecidableEq, Repr

def Errback.isFailureHandler : Errback → Bool
  | .task _ => false
  | .handleTaskFailure _ => true

abbrev Leaf := TaskSignature × List TaskErrback

abbrev StageElement := Element TaskSignature TaskErrback

abbrev Celery := Operations TaskSignature Errback

def signatures (tasks : List StageElement) : List (Sig TaskSignature Errback) :=
  tasks.map fun element => (element.map Errback.task).sig

def createChain (celery : Celery) (tasks : List StageElement) (handler : FailureHandler) : Sig TaskSignature Errback :=
  celery.linkError (celery.chain (signatures tasks)) (.handleTaskFailure handler)

def joinStageChains (celery : Celery) (stageChains : List (Sig TaskSignature Errback)) : Sig TaskSignature Errback :=
  celery.chainApart (stageChains.flatMap celery.unchainTasks)

def order (tasks : List StageElement) : List (Step TaskSignature) := tasks.flatMap Element.flow

/-- A part of a chain, or the body of a chord, with one failure handler. -/
def HandledBy (handler : FailureHandler) (sig : Sig TaskSignature Errback) : Prop :=
  CarriesOne Errback.isFailureHandler (.handleTaskFailure handler) sig

theorem signatures_eq (tasks : List StageElement) :
    signatures tasks = (tasks.map (Element.map Errback.task)).map Element.sig := by
  rw [List.map_map]
  rfl

theorem order_map (tasks : List StageElement) :
    (tasks.map (Element.map Errback.task)).flatMap Element.flow = order tasks := by
  rw [List.flatMap_map]
  exact List.flatMap_congr fun element _ => element.flow_map Errback.task

theorem task_errbacks_free (tasks : List StageElement) :
    ∀ element ∈ tasks.map (Element.map Errback.task), element.own.filter Errback.isFailureHandler = [] := by
  intro element listed
  obtain ⟨original,-,rfl⟩ := List.mem_map.mp listed
  rw [Element.own_map,List.filter_eq_nil_iff]
  intro errback member
  obtain ⟨own,-,rfl⟩ := List.mem_map.mp member
  simp [Errback.isFailureHandler]

/-- The parts of a stage's chain. -/
theorem createChain_parts {celery : Celery} (documented : Documented celery) (tasks : List StageElement)
    (handler : FailureHandler) :
    flows (celery.unchainTasks (createChain celery tasks handler)) = order tasks ∧
      ∀ sig ∈ celery.unchainTasks (createChain celery tasks handler), HandledBy handler sig := by
  rw [createChain,signatures_eq,← order_map]
  exact unchained_spec documented rfl (task_errbacks_free tasks)

/-- The chain of one stage runs its tasks in order. -/
theorem createChain_order {celery : Celery} (documented : Documented celery) (tasks : List StageElement)
    (handler : FailureHandler) : flow (createChain celery tasks handler) = order tasks := by
  rw [createChain,signatures_eq,documented.chain_merges,documented.link_chain,flow,(merged_kept [] _).1,order_map]

theorem joinStageChains_eq {celery : Celery} (documented : Documented celery) (first second : Sig TaskSignature Errback) :
    joinStageChains celery [first,second] = .chain (celery.unchainTasks first ++ celery.unchainTasks second) [] := by
  rw [joinStageChains,documented.chain_apart,List.flatMap_cons,List.flatMap_cons,List.flatMap_nil,List.append_nil]

theorem joinStageChains_order {celery : Celery} (documented : Documented celery) (first second : List StageElement)
    (inputs losses : FailureHandler) :
    flow (joinStageChains celery [createChain celery first inputs,createChain celery second losses]) =
      order first ++ order second := by
  rw [joinStageChains_eq documented,flow,flows_append,(createChain_parts documented first inputs).1,
    (createChain_parts documented second losses).1]

/-- The first stage is not merged with the second, neither is a handler lost. -/
theorem stages_joined (celery : Celery) (documented : Documented celery) (first second : List StageElement)
    (inputs losses : FailureHandler) :
    flow (joinStageChains celery [createChain celery first inputs,createChain celery second losses]) =
        order first ++ order second ∧
      ∃ firstPart secondPart,
        joinStageChains celery [createChain celery first inputs,createChain celery second losses] =
          .chain (firstPart ++ secondPart) [] ∧
        flows firstPart = order first ∧ flows secondPart = order second ∧
        (∀ sig ∈ firstPart, HandledBy inputs sig) ∧ ∀ sig ∈ secondPart, HandledBy losses sig := by
  obtain ⟨firstOrder,firstHandled⟩ := createChain_parts documented first inputs
  obtain ⟨secondOrder,secondHandled⟩ := createChain_parts documented second losses
  exact ⟨joinStageChains_order documented first second inputs losses,_,_,joinStageChains_eq documented _ _,firstOrder,
    secondOrder,firstHandled,secondHandled⟩

/-- A chord between two tasks. -/
def chordStage : List StageElement :=
  [.task ⟨"prepare","prepare","model-v2",[]⟩ [.recordSubTaskFailure "prepare"],
    .chord [(⟨"chunk","chunk-0","model-v2",[0]⟩,[]),(⟨"chunk","chunk-1","model-v2",[1]⟩,[])]
      (⟨"collect","collect","model-v2",[]⟩,[.chordErrorCallback]),
    .task ⟨"write","write","model-v2",[]⟩ []]

def inputsHandler : FailureHandler := ⟨1,1,"inputs",.inputGenerationTracebackFile,.inputsGenerationError⟩

def lossesHandler : FailureHandler := ⟨1,1,"losses",.runTracebackFile,.runError⟩

theorem stages_joined_chord :
    flow (joinStageChains reference [createChain reference chordStage inputsHandler,
        createChain reference chordStage lossesHandler]) = order chordStage ++ order chordStage ∧
      ∃ firstPart secondPart,
        joinStageChains reference [createChain reference chordStage inputsHandler,
          createChain reference chordStage lossesHandler] = .chain (firstPart ++ secondPart) [] ∧
        flows firstPart = order chordStage ∧ flows secondPart = order chordStage ∧
        (∀ sig ∈ firstPart, HandledBy inputsHandler sig) ∧ ∀ sig ∈ secondPart, HandledBy lossesHandler sig :=
  stages_joined reference reference_documented chordStage chordStage inputsHandler lossesHandler

end OasisPlatform.StageChains
