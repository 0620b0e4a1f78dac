import OasisPlatform.PathText
import OasisPlatform.SubTasks

/-!
The error callback of a chord of chunks. Its signature has no arguments, so that celery
calls `chord_error_callback` with the id of the failed task alone, which the callback
takes for the id of the analysis: the query raises, and the other sub-tasks go on. All
that should be cancelled is cancelled only when there is nothing to cancel
(`chunk_failure_cancels_iff`).
-/
namespace OasisPlatform.ChunkFailure
open OasisPlatform.PathText OasisPlatform.Models OasisPlatform.SubTasks
set_option linter.unusedSimpArgs false

/-- The digits of a UUID, as celery gives one to each task. -/
abbrev Uuid := Fin 32 → Fin 16

def Uuid.hex (uuid : Uuid) : Text := List.ofFn fun i => Nat.digitChar (uuid i)

/-- `str(uuid)`. -/
def Uuid.text (uuid : Uuid) : Text :=
  let hex := uuid.hex
  hex.take 8 ++ '-' :: (hex.drop 8).take 4 ++ '-' :: (hex.drop 12).take 4 ++ '-' :: (hex.drop 16).take 4 ++
    '-' :: hex.drop 20

def spaces : Text := [' ','\t','\n','\x0b','\x0c','\r']

def strip (text : Text) : Text := rstrip (text.dropWhile (· ∈ spaces)) spaces

/-- Decimal digits, with single underscores between them. -/
def parseDigits (text : Text) : Option Nat :=
  if text.all (fun c => c.isDigit || c = '_') ∧ [] ∉ splitOnChar '_' text then
    some (Nat.ofDigitChars 10 (text.filter (· ≠ '_')) 0)
  else none

/-- `int(text)` of an ASCII text, none where it raises `ValueError`. -/
def parseInt (text : Text) : Option Int :=
  match strip text with
  | '-' :: digits => (parseDigits digits).map fun n => -Int.ofNat n
  | '+' :: digits => (parseDigits digits).map Int.ofNat
  | digits => (parseDigits digits).map Int.ofNat

structure Errback where
  task : String
  args : List Text

/-- A chord of chunks: the sub-tasks of its header and of its body, for one analysis, and
    the callback for its errors. -/
structure SubChord where
  analysis : AnalysisId
  header : List StageTask
  body : StageTask
  errback : Errback

/-- `get_subchord_statuses_and_signature`: `c.link_error(signature('chord_error_callback'))`. -/
def getSubchord (analysis : AnalysisId) (name slug queue : String) (numChunks : Nat) (body : StageTask) : SubChord :=
  ⟨analysis,chunkTasks name slug queue numChunks,body,⟨"chord_error_callback",[]⟩⟩

/-- The task ids that a task revokes, and the sub-task rows that it leaves. -/
structure Outcome where
  revoked : List String
  table : SubTaskTable

/-- `chord_error_callback`: the query converts its argument with `int`, and raises when
    that is not a number. -/
def chordErrorCallbackTask (env : Env) (table : SubTaskTable) (analysisId : Text) : Option Outcome :=
  match parseInt analysisId with
  | none => none
  | some (.negSucc _) => some ⟨[],table⟩
  | some (.ofNat analysis) =>
    let statement := chordErrorCallback env analysis
    some ⟨(table.rows.filter statement.filter).map SubTask.taskId,execute table statement⟩

/-- Celery calls an errback with the id of the failed task before its own arguments; the
    callback takes one. A task that raises revokes nothing and leaves the rows. -/
def callErrback (env : Env) (table : SubTaskTable) (errback : Errback) (failed : Uuid) : Outcome :=
  match failed.text :: errback.args with
  | [analysisId] => (chordErrorCallbackTask env table analysisId).getD ⟨[],table⟩
  | _ => ⟨[],table⟩

/-- A sub-task of the analysis that is not over. -/
def Unfinished (analysis : AnalysisId) (row : SubTask) : Prop :=
  row.analysis = analysis ∧ row.status ∈ [.pending,.queued,.started]

/-- All unfinished sub-tasks of the analysis are revoked and cancelled, and no other row is
    changed. -/
structure RestCancelled (analysis : AnalysisId) (before : SubTaskTable) (outcome : Outcome) : Prop where
  cancelled : ∀ row ∈ before.rows, Unfinished analysis row → row.taskId ∈ outcome.revoked ∧
    ∃ after ∈ outcome.table.rows, after.id = row.id ∧ after.status = .cancelled
  others : ∀ row ∈ before.rows, ¬ Unfinished analysis row → row ∈ outcome.table.rows

theorem parseDigits_hyphen {text : Text} (hyphen : '-' ∈ text) : parseDigits text = none := by
  unfold parseDigits
  rw [if_neg]
  rintro ⟨digits,_⟩
  have bad := List.all_eq_true.mp digits '-' hyphen
  revert bad
  decide

/-- What is stripped from the end are spaces. -/
theorem rstrip_keeps {text chars : Text} {c : Char} (listed : c ∈ text) (kept : c ∉ chars) : c ∈ rstrip text chars := by
  unfold rstrip
  rw [List.mem_reverse]
  have parts : text.reverse.takeWhile (· ∈ chars) ++ text.reverse.dropWhile (· ∈ chars) = text.reverse :=
    List.takeWhile_append_dropWhile
  have member : c ∈ text.reverse := List.mem_reverse.mpr listed
  rw [← parts,List.mem_append] at member
  rcases member with space | rest
  · exact absurd (by simpa using List.mem_takeWhile_imp space) kept
  · exact rest

/-- Stripping spaces leaves a text that begins with something else its beginning. -/
theorem rstrip_head {chars : Text} {c : Char} (kept : c ∉ chars) (rest : Text) :
    ∃ tail, rstrip (c :: rest) chars = c :: tail := by
  unfold rstrip
  rw [List.reverse_cons,List.dropWhile_append]
  split_ifs with empty
  · exact ⟨[],by simp [kept]⟩
  · exact ⟨(rest.reverse.dropWhile (· ∈ chars)).reverse,by simp⟩

theorem parseInt_hyphen {c : Char} {rest : Text} (first : c ∉ '-' :: '+' :: spaces) (hyphen : '-' ∈ rest) :
    parseInt (c :: rest) = none := by
  obtain ⟨noMinus,noPlus,noSpace⟩ : c ≠ '-' ∧ c ≠ '+' ∧ c ∉ spaces := by simpa [not_or] using first
  have front : (c :: rest).dropWhile (· ∈ spaces) = c :: rest := by simp [noSpace]
  obtain ⟨tail,begins⟩ := rstrip_head noSpace rest
  have whole : strip (c :: rest) = c :: tail := by rw [strip,front,begins]
  have member : '-' ∈ c :: tail := by
    rw [← begins]
    exact rstrip_keeps (List.mem_cons_of_mem _ hyphen) (by decide)
  unfold parseInt
  rw [whole]
  split
  · rename_i same
    exact absurd (List.cons.inj same).1 noMinus
  · rename_i same
    exact absurd (List.cons.inj same).1 noPlus
  · rw [parseDigits_hyphen member]
    rfl

theorem digitChar_plain : ∀ d : Fin 16, Nat.digitChar d ∉ '-' :: '+' :: spaces := by decide

/-- The id of a task is never taken for a number. -/
theorem parseInt_uuid (uuid : Uuid) : parseInt uuid.text = none := by
  have begins : uuid.hex = Nat.digitChar (uuid 0) :: List.ofFn fun i : Fin 31 => Nat.digitChar (uuid i.succ) := by
    simp [Uuid.hex,List.ofFn_succ]
  unfold Uuid.text
  rw [begins]
  simp only [List.take_succ_cons,List.cons_append]
  refine parseInt_hyphen (digitChar_plain _) ?_
  simp

theorem callErrback_raises (env : Env) (table : SubTaskTable) {errback : Errback} (bare : errback.args = [])
    (failed : Uuid) : callErrback env table errback failed = ⟨[],table⟩ := by
  simp [callErrback,bare,chordErrorCallbackTask,parseInt_uuid]

/-- For every chord of chunks, every sub-task rows and every failed task of its header,
    the callback cancels the rest of the run only when no sub-task is left that is not
    over. -/
theorem chunk_failure_cancels_iff (env : Env) (table : SubTaskTable) (analysis : AnalysisId) (name slug queue : String)
    (numChunks : Nat) (body : StageTask) (failed : Uuid) :
    RestCancelled analysis table
        (callErrback env table (getSubchord analysis name slug queue numChunks body).errback failed) ↔
      ∀ row ∈ table.rows, ¬ Unfinished analysis row := by
  rw [callErrback_raises env table rfl]
  constructor
  · intro rest row listed unfinished
    have revoked := (rest.cancelled row listed unfinished).1
    cases revoked
  · intro finished
    refine ⟨?_,?_⟩
    · intro row listed unfinished
      exact absurd unfinished (finished row listed)
    · intro row listed _
      exact listed

def failedChunk : SubTask :=
  { id := 1, analysis := 7, queueName := "oasislmf-piwind-1-v2", status := .error, taskId := "a"
    name := "Generate losses chunk 0", slug := "generate-losses-chunk-0" }

def otherChunk : SubTask :=
  { id := 2, analysis := 7, queueName := "oasislmf-piwind-1-v2", status := .started, taskId := "b"
    name := "Generate losses chunk 1", slug := "generate-losses-chunk-1" }

def twoChunks : SubTaskTable := ⟨[failedChunk,otherChunk],by decide⟩

def lossesBody : StageTask := ⟨"Generate losses output","generate-losses-output","oasislmf-piwind-1-v2"⟩

def lossesChord : SubChord :=
  getSubchord 7 "Generate losses chunk" "generate-losses-chunk" "oasislmf-piwind-1-v2" 2 lossesBody

theorem other_chunk_goes_on :
    otherChunk ∈ (callErrback calmEnv twoChunks lossesChord.errback fun _ => 10).table.rows ∧
      ¬ RestCancelled 7 twoChunks (callErrback calmEnv twoChunks lossesChord.errback fun _ => 10) := by
  rw [callErrback_raises calmEnv twoChunks rfl]
  refine ⟨by simp [twoChunks],?_⟩
  intro rest
  have revoked := (rest.cancelled otherChunk (by simp [twoChunks]) ⟨rfl,by decide⟩).1
  cases revoked

end OasisPlatform.ChunkFailure
