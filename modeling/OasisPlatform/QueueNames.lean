import OasisPlatform.Models
import OasisPlatform.WorkerDeployments

/-!
Queue names between the server and the worker controller. The server joins the ids of a
model with hyphens, and adds `-v2` for distributed runs; the controller splits the name at
its hyphens to find the deployment. Names are told apart and found again exactly when no
id has a hyphen, no other deployment of a model comes before its V1 one, and models do not
differ in case only (`names_decode_iff`).
-/
namespace OasisPlatform.QueueNames
open OasisPlatform.PathText OasisPlatform.Models OasisPlatform.WorkerDeployments
set_option linter.unusedSimpArgs false

structure ModelIds where
  supplierId : Text
  modelId : Text
  versionId : Text
  deriving DecidableEq, Repr

/-- `AnalysisModel.__str__`. -/
def ModelIds.str (ids : ModelIds) : Text := ids.supplierId ++ '-' :: (ids.modelId ++ '-' :: ids.versionId)

/-- A model with the mode that it runs in. -/
structure Registered where
  ids : ModelIds
  runMode : RunMode
  deriving DecidableEq, Repr

/-- `AnalysisModel.queue_name` for V1, `get_generate_inputs_queue` for V2. -/
def Registered.queueName (model : Registered) : Text :=
  match model.runMode with
  | .v1 => model.ids.str
  | .v2 => model.ids.str ++ ['-','v','2']

def versionLabel : RunMode → Text
  | .v1 => ['v','1']
  | .v2 => ['v','2']

section Names
variable (lowercase : Lowercase) (wds : List WorkerDeployment) (registered : List Registered)

/-- Without case, the deployment has the ids of the model. -/
def SameModel (wd : WorkerDeployment) (ids : ModelIds) : Prop :=
  lowercase.lower wd.supplierId = lowercase.lower ids.supplierId ∧
    lowercase.lower wd.modelId = lowercase.lower ids.modelId ∧
    lowercase.lower wd.modelVersionId = lowercase.lower ids.versionId

/-- The deployment of a model for its run mode. -/
def Serves (wd : WorkerDeployment) (model : Registered) : Prop :=
  SameModel lowercase wd model.ids ∧ wd.apiVersion = versionLabel model.runMode

def SameKey (a b : WorkerDeployment) : Prop :=
  lowercase.lower a.supplierId = lowercase.lower b.supplierId ∧ lowercase.lower a.modelId = lowercase.lower b.modelId ∧
    lowercase.lower a.modelVersionId = lowercase.lower b.modelVersionId ∧
    lowercase.lower a.apiVersion = lowercase.lower b.apiVersion

/-- The names of different models and run modes differ, and each leads to the deployment of
    its model. -/
structure NamesDecode : Prop where
  different : ∀ a ∈ registered, ∀ b ∈ registered, a ≠ b →
    lowercase.lower a.queueName ≠ lowercase.lower b.queueName
  decoded : ∀ model ∈ registered, ∀ (i : Nat) wd, wds[i]? = some wd → Serves lowercase wd model →
    getWorkerDeploymentByNameId lowercase wds (lowercase.lower model.queueName) = some i

def ModelIds.HyphenFree (ids : ModelIds) : Prop := '-' ∉ ids.supplierId ∧ '-' ∉ ids.modelId ∧ '-' ∉ ids.versionId

structure PlainNames : Prop where
  hyphenFree : ∀ model ∈ registered, model.ids.HyphenFree
  v1First : ∀ model ∈ registered, model.runMode = .v1 → ∀ (i : Nat) wd, wds[i]? = some wd →
    Serves lowercase wd model → ∀ j < i, ∀ other ∈ wds[j]?, ¬ SameModel lowercase other model.ids
  caseDistinct : ∀ a ∈ registered, ∀ b ∈ registered, a.runMode = b.runMode →
    lowercase.lower a.ids.supplierId = lowercase.lower b.ids.supplierId →
    lowercase.lower a.ids.modelId = lowercase.lower b.ids.modelId →
    lowercase.lower a.ids.versionId = lowercase.lower b.ids.versionId → a = b

end Names

section Split
variable {lowercase : Lowercase}

theorem lower_versionLabel (runMode : RunMode) : lowercase.lower (versionLabel runMode) = versionLabel runMode := by
  refine lowercase.lower_plain _ ?_
  cases runMode <;> simp [versionLabel]

theorem lower_str (ids : ModelIds) :
    lowercase.lower ids.str =
      lowercase.lower ids.supplierId ++ '-' :: (lowercase.lower ids.modelId ++ '-' :: lowercase.lower ids.versionId) := by
  rw [ModelIds.str,lowercase.lower_join,lowercase.lower_join]

/-- The parts of the name of a model without hyphens. -/
theorem split_v1 {ids : ModelIds} (free : ids.HyphenFree) :
    splitOnChar '-' (lowercase.lower ids.str) =
      [lowercase.lower ids.supplierId,lowercase.lower ids.modelId,lowercase.lower ids.versionId] := by
  have lowered : ∀ {text : Text}, '-' ∉ text → '-' ∉ lowercase.lower text := by
    intro text absent
    rwa [lowercase.hyphen_lower]
  rw [lower_str,splitOnChar_append (lowered free.1),splitOnChar_append (lowered free.2.1),
    splitOnChar_free (lowered free.2.2)]

theorem split_v2 {ids : ModelIds} (free : ids.HyphenFree) :
    splitOnChar '-' (lowercase.lower (ids.str ++ ['-','v','2'])) =
      [lowercase.lower ids.supplierId,lowercase.lower ids.modelId,lowercase.lower ids.versionId,['v','2']] := by
  have lowered : ∀ {text : Text}, '-' ∉ text → '-' ∉ lowercase.lower text := by
    intro text absent
    rwa [lowercase.hyphen_lower]
  have label : lowercase.lower ['v','2'] = ['v','2'] := lower_versionLabel .v2
  have whole : lowercase.lower (ids.str ++ ['-','v','2']) = lowercase.lower ids.supplierId ++
      '-' :: (lowercase.lower ids.modelId ++ '-' :: (lowercase.lower ids.versionId ++ '-' :: ['v','2'])) := by
    rw [lowercase.lower_join,label,lower_str]
    simp
  rw [whole,splitOnChar_append (lowered free.1),splitOnChar_append (lowered free.2.1),
    splitOnChar_append (lowered free.2.2),splitOnChar_free (by decide)]

/-- A deployment is found by parts of a name only, and these have no hyphens. -/
theorem found_hyphenFree {wds : List WorkerDeployment} {name : Text} {i : Nat} {wd : WorkerDeployment}
    {model : Registered} (found : getWorkerDeploymentByNameId lowercase wds name = some i) (listed : wds[i]? = some wd)
    (serves : Serves lowercase wd model) : model.ids.HyphenFree := by
  have free : ∀ {text part : Text}, part ∈ splitOnChar '-' name →
      lowercase.lower text = lowercase.lower part → '-' ∉ text := by
    intro text part listed same member
    have inPart : '-' ∈ lowercase.lower part := by
      rw [← same,lowercase.hyphen_lower]
      exact member
    rw [lowercase.hyphen_lower] at inPart
    exact splitOnChar_part listed inPart
  have answered : ∀ {supplierId modelId modelVersionId : Text} {apiVersion : Option Text},
      getWorkerDeployment lowercase wds supplierId modelId modelVersionId apiVersion = some i →
      supplierId ∈ splitOnChar '-' name → modelId ∈ splitOnChar '-' name → modelVersionId ∈ splitOnChar '-' name →
      model.ids.HyphenFree := by
    intro supplierId modelId modelVersionId apiVersion answer inSupplier inModel inVersion
    obtain ⟨inside,answers,_⟩ := List.findIdx?_eq_some_iff_getElem.mp answer
    have same : wds[i] = wd := by
      rw [List.getElem?_eq_getElem inside] at listed
      exact Option.some.inj listed
    rw [same] at answers
    simp only [WorkerDeployment.answers,Bool.decide_and,Bool.and_eq_true,decide_eq_true_eq] at answers
    obtain ⟨supplier,model,version,_⟩ := answers
    exact ⟨free inSupplier (serves.1.1.symm.trans supplier),free inModel (serves.1.2.1.symm.trans model),
      free inVersion (serves.1.2.2.symm.trans version)⟩
  unfold getWorkerDeploymentByNameId at found
  split at found
  · rename_i parts
    exact answered found (by simp [parts]) (by simp [parts]) (by simp [parts])
  · rename_i parts
    exact answered found (by simp [parts]) (by simp [parts]) (by simp [parts])
  · cases found

theorem answers_iff (wd : WorkerDeployment) (ids : ModelIds) (apiVersion : Option Text) :
    wd.answers lowercase (lowercase.lower ids.supplierId) (lowercase.lower ids.modelId) (lowercase.lower ids.versionId)
        apiVersion = true ↔
      SameModel lowercase wd ids ∧ ∀ version ∈ apiVersion, lowercase.lower wd.apiVersion = lowercase.lower version := by
  simp only [WorkerDeployment.answers,SameModel,decide_eq_true_eq,lowercase.lower_lower,and_assoc]

/-- The deployment with some ids is the first that answers. -/
theorem getWorkerDeployment_iff {wds : List WorkerDeployment} {ids : ModelIds} {apiVersion : Option Text} {i : Nat}
    {wd : WorkerDeployment} (listed : wds[i]? = some wd) :
    getWorkerDeployment lowercase wds (lowercase.lower ids.supplierId) (lowercase.lower ids.modelId)
        (lowercase.lower ids.versionId) apiVersion = some i ↔
      (SameModel lowercase wd ids ∧ ∀ version ∈ apiVersion, lowercase.lower wd.apiVersion = lowercase.lower version) ∧
        ∀ j < i, ∀ other ∈ wds[j]?, ¬ (SameModel lowercase other ids ∧
          ∀ version ∈ apiVersion, lowercase.lower other.apiVersion = lowercase.lower version) := by
  obtain ⟨inside,rfl⟩ := List.getElem?_eq_some_iff.mp listed
  unfold getWorkerDeployment
  rw [List.findIdx?_eq_some_iff_getElem]
  constructor
  · rintro ⟨_,answers,before⟩
    refine ⟨(answers_iff _ ids apiVersion).mp answers,?_⟩
    intro j earlier other found
    obtain ⟨_,rfl⟩ := List.getElem?_eq_some_iff.mp found
    rw [← answers_iff _ ids apiVersion]
    exact before j earlier
  · rintro ⟨same,before⟩
    refine ⟨inside,(answers_iff _ ids apiVersion).mpr same,?_⟩
    intro j earlier
    rw [answers_iff _ ids apiVersion]
    exact before j earlier _ (List.getElem?_eq_getElem _)

theorem decode_v1 (wds : List WorkerDeployment) {ids : ModelIds} (free : ids.HyphenFree) :
    getWorkerDeploymentByNameId lowercase wds (lowercase.lower ids.str) =
      getWorkerDeployment lowercase wds (lowercase.lower ids.supplierId) (lowercase.lower ids.modelId)
        (lowercase.lower ids.versionId) none := by
  rw [getWorkerDeploymentByNameId,split_v1 free]

theorem decode_v2 (wds : List WorkerDeployment) {ids : ModelIds} (free : ids.HyphenFree) :
    getWorkerDeploymentByNameId lowercase wds (lowercase.lower (ids.str ++ ['-','v','2'])) =
      getWorkerDeployment lowercase wds (lowercase.lower ids.supplierId) (lowercase.lower ids.modelId)
        (lowercase.lower ids.versionId) (some ['v','2']) := by
  rw [getWorkerDeploymentByNameId,split_v2 free]

end Split

section Decode
variable {lowercase : Lowercase} {wds : List WorkerDeployment} {registered : List Registered}

/-- Models that differ in case only have the same name. -/
theorem queueName_ignores_case {a b : Registered} (mode : a.runMode = b.runMode)
    (supplier : lowercase.lower a.ids.supplierId = lowercase.lower b.ids.supplierId)
    (model : lowercase.lower a.ids.modelId = lowercase.lower b.ids.modelId)
    (version : lowercase.lower a.ids.versionId = lowercase.lower b.ids.versionId) :
    lowercase.lower a.queueName = lowercase.lower b.queueName := by
  have str : lowercase.lower a.ids.str = lowercase.lower b.ids.str := by
    rw [lower_str,lower_str,supplier,model,version]
  unfold Registered.queueName
  rw [mode]
  cases b.runMode with
  | v1 => exact str
  | v2 =>
    show lowercase.lower (a.ids.str ++ '-' :: ['v','2']) = lowercase.lower (b.ids.str ++ '-' :: ['v','2'])
    rw [lowercase.lower_join,lowercase.lower_join,str]

/-- Names without hyphens in their ids tell the run modes and the ids apart. -/
theorem queueName_parts {a b : Registered} (aFree : a.ids.HyphenFree) (bFree : b.ids.HyphenFree)
    (same : lowercase.lower a.queueName = lowercase.lower b.queueName) :
    a.runMode = b.runMode ∧ lowercase.lower a.ids.supplierId = lowercase.lower b.ids.supplierId ∧
      lowercase.lower a.ids.modelId = lowercase.lower b.ids.modelId ∧
      lowercase.lower a.ids.versionId = lowercase.lower b.ids.versionId := by
  have parts := congrArg (splitOnChar '-') same
  unfold Registered.queueName at parts
  cases aMode : a.runMode <;> cases bMode : b.runMode <;>
    simp only [aMode,bMode,split_v1 aFree,split_v1 bFree,split_v2 aFree,split_v2 bFree] at parts <;>
    simp_all

theorem namesDecode_plain (deployed : ∀ model ∈ registered, ∃ wd ∈ wds, Serves lowercase wd model)
    (decode : NamesDecode lowercase wds registered) : PlainNames lowercase wds registered := by
  have free : ∀ model ∈ registered, model.ids.HyphenFree := by
    intro model listed
    obtain ⟨wd,cached,serves⟩ := deployed model listed
    obtain ⟨i,place⟩ := List.mem_iff_getElem?.mp cached
    exact found_hyphenFree (decode.decoded model listed i wd place serves) place serves
  refine ⟨free,?_,?_⟩
  · intro model listed v1 i wd place serves j earlier other found same
    have decoded := decode.decoded model listed i wd place serves
    rw [Registered.queueName,v1] at decoded
    rw [decode_v1 wds (free model listed),getWorkerDeployment_iff place] at decoded
    exact decoded.2 j earlier other found ⟨same,by simp⟩
  · intro a aListed b bListed mode supplier model version
    by_contra different
    exact decode.different a aListed b bListed different (queueName_ignores_case mode supplier model version)

theorem plain_namesDecode (distinct : wds.Pairwise fun a b => ¬ SameKey lowercase a b)
    (plain : PlainNames lowercase wds registered) : NamesDecode lowercase wds registered := by
  constructor
  · intro a aListed b bListed different same
    obtain ⟨mode,supplier,model,version⟩ :=
      queueName_parts (plain.hyphenFree a aListed) (plain.hyphenFree b bListed) same
    exact different (plain.caseDistinct a aListed b bListed mode supplier model version)
  · intro model listed i wd place serves
    have free := plain.hyphenFree model listed
    cases mode : model.runMode with
    | v1 =>
      rw [Registered.queueName,mode]
      rw [decode_v1 wds free,getWorkerDeployment_iff place]
      refine ⟨⟨serves.1,by simp⟩,?_⟩
      intro j earlier other found answers
      exact plain.v1First model listed mode i wd place serves j earlier other found answers.1
    | v2 =>
      have label : wd.apiVersion = ['v','2'] := by rw [serves.2,mode]; rfl
      rw [Registered.queueName,mode]
      rw [decode_v2 wds free,getWorkerDeployment_iff place]
      refine ⟨⟨serves.1,by simp [label]⟩,?_⟩
      -- an earlier deployment that answers would be the same one
      rintro j earlier other found ⟨same,version⟩
      obtain ⟨inside,rfl⟩ := List.getElem?_eq_some_iff.mp place
      obtain ⟨before,rfl⟩ := List.getElem?_eq_some_iff.mp found
      refine List.pairwise_iff_getElem.mp distinct j i before inside earlier ⟨?_,?_,?_,?_⟩
      · exact same.1.trans serves.1.1.symm
      · exact same.2.1.trans serves.1.2.1.symm
      · exact same.2.2.trans serves.1.2.2.symm
      · rw [version _ rfl,label]

/-- For all deployments that differ without case, and all models with a deployment for
    their run mode: the names of different models and run modes differ and lead to their
    deployments exactly when the ids have no hyphens, no other deployment of a V1 model
    comes before its own, and no two models of one run mode differ in case only. -/
theorem names_decode_iff (distinct : wds.Pairwise fun a b => ¬ SameKey lowercase a b)
    (deployed : ∀ model ∈ registered, ∃ wd ∈ wds, Serves lowercase wd model) :
    NamesDecode lowercase wds registered ↔ PlainNames lowercase wds registered :=
  ⟨namesDecode_plain deployed,plain_namesDecode distinct⟩

end Decode

def modelOne : ModelIds := ⟨['S','u','p'],['M','o','d'],['1']⟩

/-- The model id has a hyphen. -/
def hyphenated : ModelIds := ⟨['S','u','p'],['M','o','-','d'],['1']⟩

def deploymentOf (name : String) (ids : ModelIds) (runMode : RunMode) : WorkerDeployment :=
  { name := name, supplierId := ids.supplierId, modelId := ids.modelId, modelVersionId := ids.versionId
    apiVersion := versionLabel runMode, replicas := 0 }

def v1BeforeV2 : List WorkerDeployment := [deploymentOf "mod-v1" modelOne .v1,deploymentOf "mod-v2" modelOne .v2]

def v2BeforeV1 : List WorkerDeployment := [deploymentOf "mod-v2" modelOne .v2,deploymentOf "mod-v1" modelOne .v1]

def bothModes : List Registered := [⟨modelOne,.v1⟩,⟨modelOne,.v2⟩]

theorem bothModes_decode : NamesDecode asciiLowercase v1BeforeV2 bothModes := by
  have distinct : v1BeforeV2.Pairwise fun a b => ¬ SameKey asciiLowercase a b := by
    simp [v1BeforeV2,SameKey,deploymentOf,versionLabel,asciiLowercase]
  have deployed : ∀ model ∈ bothModes, ∃ wd ∈ v1BeforeV2, Serves asciiLowercase wd model := by
    intro model listed
    simp only [bothModes,List.mem_cons,List.not_mem_nil,or_false] at listed
    rcases listed with rfl | rfl
    · exact ⟨deploymentOf "mod-v1" modelOne .v1,by simp [v1BeforeV2],⟨rfl,rfl,rfl⟩,rfl⟩
    · exact ⟨deploymentOf "mod-v2" modelOne .v2,by simp [v1BeforeV2],⟨rfl,rfl,rfl⟩,rfl⟩
  refine (names_decode_iff distinct deployed).mpr ⟨?_,?_,?_⟩
  · intro model listed
    simp only [bothModes,List.mem_cons,List.not_mem_nil,or_false] at listed
    rcases listed with rfl | rfl <;> exact ⟨by decide,by decide,by decide⟩
  · rintro model listed v1 i wd place ⟨_,label⟩ j earlier
    rw [v1] at label
    match i with
    | 0 => omega
    | 1 =>
      cases place
      cases label
    | i + 2 => cases place
  · intro a aListed b bListed mode _ _ _
    simp only [bothModes,List.mem_cons,List.not_mem_nil,or_false] at aListed bListed
    rcases aListed with rfl | rfl <;> rcases bListed with rfl | rfl <;> first | rfl | cases mode

/-- The queue of a model with a hyphen has no deployment, and that of a V1 model leads to
    the V2 deployment that comes first. -/
theorem names_not_decoded :
    getWorkerDeploymentByNameId asciiLowercase [deploymentOf "mod-v2" hyphenated .v2]
        (asciiLowercase.lower (Registered.queueName ⟨hyphenated,.v2⟩)) = none ∧
      ¬ NamesDecode asciiLowercase [deploymentOf "mod-v2" hyphenated .v2] [⟨hyphenated,.v2⟩] ∧
      getWorkerDeploymentByNameId asciiLowercase v2BeforeV1
        (asciiLowercase.lower (Registered.queueName ⟨modelOne,.v1⟩)) = some 0 ∧
      ¬ NamesDecode asciiLowercase v2BeforeV1 bothModes := by
  refine ⟨rfl,?_,rfl,?_⟩
  · intro decode
    have found := decode.decoded ⟨hyphenated,.v2⟩ (by simp) 0 _ rfl ⟨⟨rfl,rfl,rfl⟩,rfl⟩
    cases found
  · intro decode
    have found := decode.decoded ⟨modelOne,.v1⟩ (by simp [bothModes]) 1 _ rfl ⟨⟨rfl,rfl,rfl⟩,rfl⟩
    cases found

end OasisPlatform.QueueNames
