import OasisPlatform.AutoscalerRules
import OasisPlatform.PathText

/-!
The worker deployments of the cluster, as the worker controller caches them. A deployment
is found by the ids of its model, which are compared without case; a queue name is taken
apart at its hyphens for that.
-/
namespace OasisPlatform.WorkerDeployments
open OasisPlatform.PathText OasisPlatform.AutoscalerRules
set_option linter.unusedSimpArgs false

/-- What is used of `str.lower`: it does not look over a hyphen, neither makes one nor
    drops one, and leaves what is lowercase. -/
structure Lowercase where
  lower : Text → Text
  lower_lower : ∀ text, lower (lower text) = lower text
  lower_join : ∀ left right, lower (left ++ '-' :: right) = lower left ++ '-' :: lower right
  hyphen_lower : ∀ text, '-' ∈ lower text ↔ '-' ∈ text
  lower_plain : ∀ text, (∀ c ∈ text, c.isLower ∨ c.isDigit) → lower text = text

theorem toLower_toLower (c : Char) : c.toLower.toLower = c.toLower := by
  unfold Char.toLower
  grind

theorem toLower_hyphen {c : Char} (lowered : c.toLower = '-') : c = '-' := by
  unfold Char.toLower at lowered
  split_ifs at lowered with upper
  · exfalso
    have value : (c.val + 32).toNat = 45 := congrArg (fun d => d.val.toNat) lowered
    have above : 65 ≤ c.val.toNat := UInt32.le_iff_toNat_le.mp upper.1
    have below : c.val.toNat ≤ 90 := UInt32.le_iff_toNat_le.mp upper.2
    rw [UInt32.toNat_add] at value
    have : (32 : UInt32).toNat = 32 := rfl
    omega
  · exact lowered

theorem toLower_plain {c : Char} (plain : c.isLower ∨ c.isDigit) : c.toLower = c := by
  unfold Char.toLower
  split_ifs with upper
  · exfalso
    have above : 65 ≤ c.val.toNat := UInt32.le_iff_toNat_le.mp upper.1
    have below : c.val.toNat ≤ 90 := UInt32.le_iff_toNat_le.mp upper.2
    rcases plain with letter | digit
    · have from_a : 97 ≤ c.val.toNat :=
        UInt32.le_iff_toNat_le.mp (of_decide_eq_true (Bool.and_eq_true_iff.mp letter).1)
      omega
    · have to_nine : c.val.toNat ≤ 57 :=
        UInt32.le_iff_toNat_le.mp (of_decide_eq_true (Bool.and_eq_true_iff.mp digit).2)
      omega
  · rfl

/-- On ASCII texts, `str.lower` is the lowercase of each character. -/
def asciiLowercase : Lowercase where
  lower := List.map Char.toLower
  lower_lower := fun text => by simp [toLower_toLower]
  lower_join := fun left right => by simp
  hyphen_lower := fun text => by
    constructor
    · intro member
      obtain ⟨c,listed,lowered⟩ := List.mem_map.mp member
      exact toLower_hyphen lowered ▸ listed
    · intro member
      exact List.mem_map.mpr ⟨'-',member,rfl⟩
  lower_plain := fun text plain => by
    conv_rhs => rw [← List.map_id text]
    exact List.map_congr_left fun c listed => toLower_plain (plain c listed)

structure WorkerDeployment where
  name : String
  supplierId : Text
  modelId : Text
  modelVersionId : Text
  apiVersion : Text
  oasisModelId : Option Nat := none
  replicas : Nat
  autoScaling : Option AutoScaling := none
  deriving DecidableEq, Repr

/-- The ids without case, joined by hyphens. -/
def WorkerDeployment.idString (lowercase : Lowercase) (wd : WorkerDeployment) : Text :=
  lowercase.lower (wd.supplierId ++ '-' :: (wd.modelId ++ '-' :: (wd.modelVersionId ++ '-' :: wd.apiVersion)))

/-- The deployment has the ids of a model, and the API version unless none is given. -/
def WorkerDeployment.answers (lowercase : Lowercase) (supplierId modelId modelVersionId : Text)
    (apiVersion : Option Text) (wd : WorkerDeployment) : Bool :=
  lowercase.lower wd.supplierId = lowercase.lower supplierId ∧ lowercase.lower wd.modelId = lowercase.lower modelId ∧
    lowercase.lower wd.modelVersionId = lowercase.lower modelVersionId ∧
    ∀ version ∈ apiVersion, lowercase.lower wd.apiVersion = lowercase.lower version

/-- The first deployment with these ids, as its place in the list. -/
def getWorkerDeployment (lowercase : Lowercase) (wds : List WorkerDeployment) (supplierId modelId modelVersionId : Text)
    (apiVersion : Option Text) : Option Nat :=
  wds.findIdx? (WorkerDeployment.answers lowercase supplierId modelId modelVersionId apiVersion)

def getWorkerDeploymentByNameId (lowercase : Lowercase) (wds : List WorkerDeployment) (nameId : Text) : Option Nat :=
  match splitOnChar '-' nameId with
  | [supplierId,modelId,modelVersionId] => getWorkerDeployment lowercase wds supplierId modelId modelVersionId none
  | [supplierId,modelId,modelVersionId,apiVersion] =>
    getWorkerDeployment lowercase wds supplierId modelId modelVersionId (some apiVersion)
  | _ => none

/-- What the watch reports of a deployment. -/
structure Report where
  name : String
  supplierId : Text
  modelId : Text
  modelVersionId : Text
  apiVersion : Text
  replicas : Nat
  deriving DecidableEq, Repr

def updateWorker (lowercase : Lowercase) (wds : List WorkerDeployment) (report : Report) : List WorkerDeployment :=
  match getWorkerDeployment lowercase wds report.supplierId report.modelId report.modelVersionId
      (some report.apiVersion) with
  | some i => wds.modify i fun wd => { wd with replicas := report.replicas }
  | none =>
    wds ++ [{ name := report.name, supplierId := report.supplierId, modelId := report.modelId
              modelVersionId := report.modelVersionId, apiVersion := report.apiVersion, replicas := report.replicas }]

def delete (wds : List WorkerDeployment) (name : String) : List WorkerDeployment := wds.filter fun wd => wd.name ≠ name

end OasisPlatform.WorkerDeployments
