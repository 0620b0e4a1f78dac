import OasisPlatform.PathText
import OasisPlatform.SubjectAtRisk
import Mathlib.Logic.Function.Basic

/-!
The exposure in the input generation tasks. The pre-analysis hook may modify the
files of the exposure; it stores the modified ones, and splits the exposure they
give into one stored file for each lookup chunk (`preAnalysisHook`). A chunk task
reads its file, or where there are no such files prepares its own copy of the
exposure and splits it (`loadSubjectAtRiskChunk`).
-/
namespace OasisPlatform.InputGeneration
open OasisPlatform.ArrayOps OasisPlatform.PathText OasisPlatform.SubjectAtRisk
set_option linter.unusedSimpArgs false

variable {φ ι δ : Type}

/-- The files of an exposure: `loc_file`, `acc_file`, `info_file`, `scope_file`. -/
inductive OedFile where
  | location
  | account
  | riInfo
  | riScope
  deriving DecidableEq, Repr

/-- The order in which a task prepares them. -/
def oedFiles : List OedFile := [.location,.account,.riInfo,.riScope]

/-- References of the filestore: a file of the portfolio, a file that the hook
    stored under a unique name, and `sar-chunk-<number>.parquet`, each with its
    suffixes. -/
inductive StoreRef where
  | portfolio (file : OedFile) (suffixes : Text)
  | unique (file : OedFile) (suffixes : Text)
  | sarChunk (number : Nat)
  deriving DecidableEq, Repr

/-- The suffixes of a reference, `"".join(pathlib.Path(ref).suffixes)`. -/
def StoreRef.extension : StoreRef → Text
  | .portfolio _ suffixes => suffixes
  | .unique _ suffixes => suffixes
  | .sarChunk _ => ['.','p','a','r','q','u','e','t']

/-- What is stored: an exposure file, or the rows of a chunk. -/
inductive Stored (φ ι δ : Type) where
  | oed (content : φ)
  | frame (rows : List (SarRow ι δ))

abbrev Storage (φ ι δ : Type) := StoreRef → Option (Stored φ ι δ)

/-- `filestore.get` of an exposure file, which raises where there is none. -/
def Storage.getFile (store : Storage φ ι δ) (ref : StoreRef) : Option φ :=
  match store ref with
  | some (.oed content) => some content
  | _ => none

/-- `pd.read_parquet` of an open stored file. -/
def Storage.readParquet (store : Storage φ ι δ) (ref : StoreRef) : Option (List (SarRow ι δ)) :=
  match store ref with
  | some (.frame rows) => some rows
  | _ => none

/-- Where a file in the run directory comes from: the prefix of its name. -/
inductive Source where
  | raw
  | pre
  deriving DecidableEq, Repr

/-- Paths on a worker: `<source><file><extension>` in the directory of the run, and
    the files of the hook's temporary directory. -/
inductive LocalPath where
  | run (source : Source) (file : OedFile) (extension : Text)
  | hook (file : OedFile) (name : Text)
  deriving DecidableEq, Repr

/-- The files on a worker. -/
abbrev Node (φ : Type) := LocalPath → Option φ

/-- The parameters that tasks of the input generation hand on. -/
structure Params where
  /-- `oed_location_csv`, `oed_accounts_csv`, `oed_info_csv` and `oed_scope_csv` -/
  oedCsv : OedFile → Option LocalPath
  /-- `pre_loc_file`, `pre_acc_file`, `pre_info_file` and `pre_scope_file` -/
  preFile : OedFile → Option StoreRef
  sarChunks : Option (List StoreRef)
  exposurePreAnalysisModule : Option Text
  checkOed : Option Bool
  oedSchemaInfo : Option Text
  oedBackendDtype : Option Text
  disableOedVersionUpdate : Option Bool

/-- The files that the server sent, by argument. -/
abbrev Kwargs := OedFile → Option StoreRef

/-- The options that `OedExposure` is given. -/
structure OedOptions where
  oedSchemaInfo : Option Text
  checkOed : Bool
  backendDtype : Text
  disableOedVersionUpdate : Bool

/-- The subject at risk rows of the exposure in a location and an account file,
    with `loc_id` assigned. -/
abbrev OedExposure (φ ι δ : Type) := Option φ → Option φ → OedOptions → Option (List (SarRow ι δ))

/-- The file that a task uses for an argument: none where the server sent none, the
    hook's in place of one that it sent. -/
def getFileRef (kwargs : Kwargs) (params : Params) (file : OedFile) : Option (StoreRef × Source) :=
  match kwargs file,params.preFile file with
  | none,_ => none
  | some _,some fileFromHook => some (fileFromHook,.pre)
  | some fileFromServer,none => some (fileFromServer,.raw)

/-- Fetches a file unless it is already there. -/
def maybeFetchFile (store : Storage φ ι δ) (node : Node φ) (ref : StoreRef) (path : LocalPath) : Option (Node φ) :=
  if (node path).isSome then some node
  else (store.getFile ref).map fun content => Function.update node path (some content)

def prepareFile (store : Storage φ ι δ) (kwargs : Kwargs) (task : Params × Node φ) (file : OedFile) :
    Option (Params × Node φ) :=
  match getFileRef kwargs task.1 file with
  | none => some task
  | some (ref,source) => do
    let path := LocalPath.run source file ref.extension
    let node ← maybeFetchFile store task.2 ref path
    some ({ task.1 with oedCsv := Function.update task.1.oedCsv file (some path) },node)

/-- `_prepare_directories`, as far as the exposure goes. -/
def prepareDirectories (store : Storage φ ι δ) (kwargs : Kwargs) (params : Params) (node : Node φ) :
    Option (Params × Node φ) :=
  oedFiles.foldlM (prepareFile store kwargs) (params,node)

/-- A file given by an optional path; `OedExposure` raises where it is missing. -/
def openPath (node : Node φ) : Option LocalPath → Option (Option φ)
  | none => some none
  | some path => (node path).map some

/-- `envSchemaInfo` is `OASIS_OED_SCHEMA_INFO`. -/
def oedOptions (envSchemaInfo : Option Text) (params : Params) : OedOptions where
  oedSchemaInfo := params.oedSchemaInfo <|> envSchemaInfo
  checkOed := params.checkOed.getD true
  backendDtype := params.oedBackendDtype.getD ['p','d','_','d','t','y','p','e']
  disableOedVersionUpdate := params.disableOedVersionUpdate.getD false

def loadSubjectAtRiskData (exposure : OedExposure φ ι δ) (envSchemaInfo : Option Text) (node : Node φ)
    (params : Params) : Option (List (SarRow ι δ)) := do
  let location ← openPath node (params.oedCsv .location)
  let account ← openPath node (params.oedCsv .account)
  exposure location account (oedOptions envSchemaInfo params)

/-- Stores the chunks from number `first` on. -/
def putChunks (store : Storage φ ι δ) (sarDf : List (SarRow ι δ)) (first : Nat) :
    List (List Nat) → Option (List StoreRef × Storage φ ι δ)
  | [] => some ([],store)
  | chunkRows :: rest => do
    let chunkDf ← takeAt sarDf chunkRows
    let (refs,stored) ← putChunks (Function.update store (.sarChunk (first + 1)) (some (.frame chunkDf))) sarDf
      (first + 1) rest
    some (.sarChunk (first + 1) :: refs,stored)

def storeSubjectAtRiskChunks [DecidableEq ι] (exposure : OedExposure φ ι δ) (envSchemaInfo : Option Text) (store : Storage φ ι δ)
    (node : Node φ) (params : Params) (numChunks : Nat) : Option (List StoreRef × Storage φ ι δ) := do
  let sarDf ← loadSubjectAtRiskData exposure envSchemaInfo node params
  let chunks ← subjectAtRiskChunkRows sarDf numChunks
  putChunks store sarDf 0 chunks

def loadSubjectAtRiskChunk [DecidableEq ι] (exposure : OedExposure φ ι δ) (envSchemaInfo : Option Text) (store : Storage φ ι δ)
    (node : Node φ) (params : Params) (numChunks chunkIdx : Nat) : Option (List (SarRow ι δ)) :=
  let sarChunks := params.sarChunks.getD []
  if sarChunks.length ≠ numChunks then do
    let sarDf ← loadSubjectAtRiskData exposure envSchemaInfo node params
    splitSubjectAtRiskData sarDf numChunks chunkIdx
  else do
    let ref ← sarChunks[chunkIdx]?
    store.readParquet ref

/-- The files that the hook reports as modified, under their names in its
    directory. -/
abbrev HookOutput (φ : Type) := OedFile → Option (Text × φ)

/-- The suffixes of a file name. -/
def extensionOf (name : Text) : Text := (suffixes name).flatten

/-- The files that the lookup chunks must use. -/
def sarFiles (output : HookOutput φ) : OedFile → Option LocalPath
  | .location => (output .location).map fun modified => .hook .location modified.1
  | .account => (output .account).map fun modified => .hook .account modified.1
  | _ => none

/-- What the hook reports, when the model has one. -/
def hookOutput (exposurePreAnalysis : HookOutput φ) (params : Params) : HookOutput φ :=
  if params.exposurePreAnalysisModule.isSome then exposurePreAnalysis else fun _ => none

/-- The parameters after the hook: references of the stored files, and the exposure
    is not checked again. -/
def hookParams (output : HookOutput φ) (params : Params) : Params :=
  if params.exposurePreAnalysisModule.isSome then
    { params with
      preFile := fun file =>
        ((output file).map fun modified => StoreRef.unique file (extensionOf modified.1)) <|> params.preFile file
      checkOed := some false }
  else params

/-- The filestore with the modified files. -/
def hookStore (output : HookOutput φ) (store : Storage φ ι δ) : Storage φ ι δ
  | .unique file suffixes =>
    match (output file).filter fun modified => extensionOf modified.1 = suffixes with
    | some (_,content) => some (.oed content)
    | none => store (.unique file suffixes)
  | ref => store ref

/-- The worker with the files in the hook's temporary directory. -/
def withHookFiles (node : Node φ) (output : HookOutput φ) : Node φ
  | .hook file name => ((output file).filter fun modified => modified.1 = name).map Prod.snd
  | path => node path

/-- The hook task; `exposurePreAnalysis` is what the model's own hook reports. -/
def preAnalysisHook [DecidableEq ι] (exposure : OedExposure φ ι δ) (exposurePreAnalysis : HookOutput φ)
    (envSchemaInfo : Option Text) (kwargs : Kwargs) (store : Storage φ ι δ) (params : Params) (node : Node φ)
    (numChunks : Option Nat) : Option (Params × Storage φ ι δ) := do
  let (prepared,node) ← prepareDirectories store kwargs params node
  let output := hookOutput exposurePreAnalysis prepared
  let params := hookParams output prepared
  let store := hookStore output store
  match numChunks with
  | none => some (params,store)
  | some numChunks =>
    if numChunks > 1 then do
      let (refs,store) ← storeSubjectAtRiskChunks exposure envSchemaInfo store (withHookFiles node output)
        { params with oedCsv := fun file => sarFiles output file <|> params.oedCsv file } numChunks
      some ({ params with sarChunks := some refs },store)
    else some (params,store)

/-- The exposure of a chunk task: `prepare_keys_file_chunk` up to its frame. -/
def chunkExposure [DecidableEq ι] (exposure : OedExposure φ ι δ) (envSchemaInfo : Option Text) (kwargs : Kwargs)
    (store : Storage φ ι δ) (params : Params) (node : Node φ) (numChunks chunkIdx : Nat) :
    Option (List (SarRow ι δ)) := do
  let (params,node) ← prepareDirectories store kwargs params node
  loadSubjectAtRiskChunk exposure envSchemaInfo store node params numChunks chunkIdx

/-- What the configuration of the model says about the exposure; its file paths are
    stripped. -/
structure ModelConfig where
  exposurePreAnalysisModule : Option Text
  checkOed : Option Bool
  oedSchemaInfo : Option Text
  oedBackendDtype : Option Text
  disableOedVersionUpdate : Option Bool

def configParams (config : ModelConfig) (envSchemaInfo : Option Text) : Params where
  oedCsv := fun _ => none
  preFile := fun _ => none
  sarChunks := none
  exposurePreAnalysisModule := config.exposurePreAnalysisModule
  checkOed := config.checkOed
  oedSchemaInfo := config.oedSchemaInfo <|> envSchemaInfo
  oedBackendDtype := config.oedBackendDtype
  disableOedVersionUpdate := config.disableOedVersionUpdate

/-- The first task of the input generation. -/
def prepareInputGenerationParams (config : ModelConfig) (envSchemaInfo : Option Text) (kwargs : Kwargs)
    (store : Storage φ ι δ) (node : Node φ) : Option Params := do
  let (params,_) ← prepareDirectories store kwargs (configParams config envSchemaInfo) node
  some params

/-- The files of the portfolio that the server sends, with their suffixes. -/
abbrev Sent (φ : Type) := OedFile → Option (Text × φ)

def Sent.kwargs (sent : Sent φ) : Kwargs := fun file => (sent file).map fun source => .portfolio file source.1

/-- The filestore at the start of the run. -/
def Sent.store (sent : Sent φ) : Storage φ ι δ
  | .portfolio file suffixes =>
    ((sent file).filter fun source => source.1 = suffixes).map fun source => .oed source.2
  | _ => none

/-- The files on a worker that has prepared tasks of the run, before or after the
    hook stored its files under `pre`. -/
inductive WorkerNode (store : Storage φ ι δ) (kwargs : Kwargs) (pre : OedFile → Option StoreRef) : Node φ → Prop where
  | fresh : WorkerNode store kwargs pre fun _ => none
  | task {node node' : Node φ} {params params' : Params} : WorkerNode store kwargs pre node →
    (∀ file, params.preFile file = none ∨ params.preFile file = pre file) →
    prepareDirectories store kwargs params node = some (params',node') → WorkerNode store kwargs pre node'

end OasisPlatform.InputGeneration
