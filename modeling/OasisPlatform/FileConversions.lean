import OasisPlatform.PathText

/-!
The conversion of an uploaded file, a task that is retried when it raises. A retry is
rejected while the row says that a conversion is in progress, and an exception outside the
`try` leaves it saying so: a conversion ends exactly when some attempt starts and none gets
stuck there (`conversion_ends_iff`).
-/
namespace OasisPlatform.FileConversions
open PathText
set_option linter.unusedSimpArgs false

/-- `RelatedFile.ConversionState`. -/
inductive ConversionState where
  | none
  | pending
  | inProgress
  | done
  | error
  deriving DecidableEq

def ConversionState.isReady (state : ConversionState) : Bool := state ∈ [.none,.error,.done]

/-- A `RelatedFile`, as far as its conversion goes. -/
structure RelatedFile where
  file : Text
  conversionState : ConversionState
  conversionTime : Option Nat
  convertedFile : Option Text
  conversionLogFile : Option Text
  deriving DecidableEq

/-- The stored row, and the files that a converter wrote to the end. -/
structure Store where
  row : RelatedFile
  converted : List Text
  deriving DecidableEq

/-- What may raise in `run_file_conversion`. -/
inductive Step where
  | get
  | saveStarted
  | readMapping
  | getFilestore
  | inputUrl
  | outputUrl
  | mappingUrl
  | buildLogger
  | inputValidationUrl
  | outputValidationUrl
  | convert
  | saveFinished
  deriving DecidableEq

/-- Between the first save and the `try`. -/
def prepareSteps : List Step := [.readMapping,.getFilestore,.inputUrl,.outputUrl,.mappingUrl]

/-- In the `try`. -/
def convertSteps : List Step := [.buildLogger,.inputValidationUrl,.outputValidationUrl,.convert]

/-- One attempt at the task: which steps raise in it, when it is and how its log file is called. -/
structure Attempt where
  raises : Step → Bool
  now : Nat
  log : Text

/-- The name before its suffixes, `-converted`, and the suffixes. Without suffixes
    `[0:-len("")]` leaves nothing of the name. -/
def convertedName (file : Text) : Text :=
  let inputSuffixes := (suffixes (pathName file)).flatten
  let inputWithoutSuffixes := if inputSuffixes = [] then [] else file.take (file.length - inputSuffixes.length)
  inputWithoutSuffixes ++ "-converted".toList ++ inputSuffixes

/-- `run_file_conversion`, and whether it raises; `storageName` is the file name that
    `get_storage_url` returns with the URL. -/
def runFileConversion (storageName : Text → Text) (attempt : Attempt) (store : Store) : Store × Bool :=
  let state := store.row.conversionState
  if attempt.raises .get then (store,true)
  else if !(state.isReady || state = .pending) then (store,false)
  else if attempt.raises .saveStarted then (store,true)
  else
    let started := { store.row with conversionTime := some attempt.now, conversionState := .inProgress }
    if prepareSteps.any attempt.raises then ({ store with row := started },true)
    else
      let outputFilename := storageName (convertedName store.row.file)
      let failed := convertSteps.any attempt.raises
      let converted := if failed then store.converted else outputFilename :: store.converted
      let finished :=
        if failed then { started with conversionState := .error }
        else { started with convertedFile := some outputFilename, conversionState := .done }
      if attempt.raises .saveFinished then ({ row := started, converted := converted },true)
      else ({ row := { finished with conversionLogFile := some attempt.log }, converted := converted },failed)

/-- The task with its automatic retries: the next attempt is made where one raised. -/
def runAttempts (storageName : Text → Text) (store : Store) : List Attempt → Store
  | [] => store
  | attempt :: retries =>
    match runFileConversion storageName attempt store with
    | (next,true) => runAttempts storageName next retries
    | (next,false) => next

/-- The conversion is over, and it is done only with a file that a converter finished. -/
def Ended (store : Store) : Prop :=
  (store.row.conversionState = .done ∨ store.row.conversionState = .error) ∧
    (store.row.conversionState = .done → ∃ output ∈ store.converted, store.row.convertedFile = some output)

/-- Raises before the first save is stored. -/
def Early (attempt : Attempt) : Prop := attempt.raises .get ∨ attempt.raises .saveStarted

/-- Raises after the first save and outside the `try`: before it, or in the last save. -/
def Stuck (attempt : Attempt) : Prop :=
  ¬ Early attempt ∧ (prepareSteps.any attempt.raises ∨ attempt.raises .saveFinished)

/-- Raises in the `try`. -/
def Failed (attempt : Attempt) : Prop := ¬ Early attempt ∧ ¬ Stuck attempt ∧ convertSteps.any attempt.raises

/-- Raises nowhere. -/
def Succeeds (attempt : Attempt) : Prop := ¬ Early attempt ∧ ¬ Stuck attempt ∧ ¬ convertSteps.any attempt.raises

/-- Up to the first attempt that succeeds none is stuck. -/
def NoneStuck : List Attempt → Prop
  | [] => True
  | attempt :: retries => ¬ Stuck attempt ∧ (¬ Succeeds attempt → NoneStuck retries)

theorem kinds (attempt : Attempt) : Early attempt ∨ Stuck attempt ∨ Failed attempt ∨ Succeeds attempt := by
  by_cases early : Early attempt
  · exact .inl early
  by_cases stuck : Stuck attempt
  · exact .inr (.inl stuck)
  by_cases failed : convertSteps.any attempt.raises
  · exact .inr (.inr (.inl ⟨early,stuck,failed⟩))
  · exact .inr (.inr (.inr ⟨early,stuck,failed⟩))

variable {storageName : Text → Text} {attempt : Attempt} {store : Store}

/-- The row lets an attempt in. -/
def Open (store : Store) : Prop := store.row.conversionState = .pending ∨ store.row.conversionState.isReady

/-- Once let in, an attempt raises at its first save or goes on. -/
theorem runFileConversion_open (opened : Open store) (fetched : attempt.raises .get = false) :
    runFileConversion storageName attempt store =
      if attempt.raises .saveStarted then (store,true)
      else
        let started := { store.row with conversionTime := some attempt.now, conversionState := .inProgress }
        if prepareSteps.any attempt.raises then ({ store with row := started },true)
        else
          let outputFilename := storageName (convertedName store.row.file)
          let failed := convertSteps.any attempt.raises
          let converted := if failed then store.converted else outputFilename :: store.converted
          let finished :=
            if failed then { started with conversionState := .error }
            else { started with convertedFile := some outputFilename, conversionState := .done }
          if attempt.raises .saveFinished then ({ row := started, converted := converted },true)
          else ({ row := { finished with conversionLogFile := some attempt.log }, converted := converted },failed) := by
  have entered : (!(store.row.conversionState.isReady || store.row.conversionState = .pending)) = false := by
    rcases opened with pending | ready
    · simp [pending]
    · simp [ready]
  rw [runFileConversion]
  simp only [fetched,entered]
  rfl

theorem early_unchanged (opened : Open store) (early : Early attempt) :
    runFileConversion storageName attempt store = (store,true) := by
  cases fetched : attempt.raises .get with
  | true => rw [runFileConversion,if_pos fetched]
  | false =>
    have save : attempt.raises .saveStarted := early.resolve_left (by simp [fetched])
    rw [runFileConversion_open opened fetched,if_pos save]

theorem started {attempt : Attempt} (late : ¬ Early attempt) :
    attempt.raises .get = false ∧ attempt.raises .saveStarted = false := by
  simpa [Early] using late

theorem stuck_in_progress (opened : Open store) (stuck : Stuck attempt) :
    (runFileConversion storageName attempt store).2 = true ∧
      (runFileConversion storageName attempt store).1.row.conversionState = .inProgress := by
  obtain ⟨fetched,saved⟩ := started stuck.1
  rw [runFileConversion_open opened fetched,saved]
  cases prepared : prepareSteps.any attempt.raises with
  | true => exact ⟨rfl,rfl⟩
  | false =>
    have last : attempt.raises .saveFinished := stuck.2.resolve_left (by simp [prepared])
    simp only [last,if_true]
    exact ⟨rfl,rfl⟩

theorem unstuck {attempt : Attempt} (late : ¬ Early attempt) (free : ¬ Stuck attempt) :
    prepareSteps.any attempt.raises = false ∧ attempt.raises .saveFinished = false := by
  have outside : ¬ (prepareSteps.any attempt.raises ∨ attempt.raises .saveFinished) := fun raised => free ⟨late,raised⟩
  simpa only [not_or,Bool.not_eq_true] using outside

theorem failed_error (opened : Open store) (failed : Failed attempt) :
    (runFileConversion storageName attempt store).2 = true ∧
      (runFileConversion storageName attempt store).1.row.conversionState = .error := by
  obtain ⟨late,free,raised⟩ := failed
  obtain ⟨fetched,saved⟩ := started late
  obtain ⟨prepared,last⟩ := unstuck late free
  rw [runFileConversion_open opened fetched,saved]
  simp only [prepared,last,raised]
  exact ⟨rfl,rfl⟩

theorem succeeds_done (opened : Open store) (succeeds : Succeeds attempt) :
    (runFileConversion storageName attempt store).2 = false ∧
      Ended (runFileConversion storageName attempt store).1 := by
  obtain ⟨late,free,calm⟩ := succeeds
  obtain ⟨fetched,saved⟩ := started late
  obtain ⟨prepared,last⟩ := unstuck late free
  rw [Bool.not_eq_true] at calm
  rw [runFileConversion_open opened fetched,saved]
  simp only [prepared,last,calm]
  exact ⟨rfl,.inl rfl,fun _ => ⟨_,List.mem_cons_self,rfl⟩⟩

/-- While the row says that a conversion is in progress every retry is rejected. -/
theorem attempts_rejected (attempts : List Attempt) (progress : store.row.conversionState = .inProgress) :
    runAttempts storageName store attempts = store := by
  induction attempts with
  | nil => rfl
  | cons attempt retries ih =>
    rw [runAttempts,runFileConversion]
    cases fetched : attempt.raises .get with
    | true => exact ih
    | false =>
      simp only [progress]
      rfl

theorem runAttempts_raised {attempts : List Attempt} (raised : (runFileConversion storageName attempt store).2 = true) :
    runAttempts storageName store (attempt :: attempts) =
      runAttempts storageName (runFileConversion storageName attempt store).1 attempts := by
  rw [runAttempts]
  split
  · rename_i same
    rw [same]
  · rename_i same
    rw [same] at raised
    cases raised

/-- From a row that lets attempts in, with an error of an earlier attempt or none yet. -/
theorem runAttempts_ended (attempts : List Attempt)
    (opened : store.row.conversionState = .pending ∨ store.row.conversionState = .error) :
    Ended (runAttempts storageName store attempts) ↔
      (store.row.conversionState = .error ∨ ∃ attempt ∈ attempts, ¬ Early attempt) ∧ NoneStuck attempts := by
  induction attempts generalizing store with
  | nil =>
    rcases opened with pending | error
    · simp [runAttempts,Ended,NoneStuck,pending]
    · simp [runAttempts,Ended,NoneStuck,error]
  | cons attempt retries ih =>
    have entered : Open store := opened.imp id fun error => by rw [error]; rfl
    rcases kinds attempt with early | stuck | failed | succeeds
    · have same := @early_unchanged storageName attempt store entered early
      have free : ¬ Stuck attempt := fun stuck => stuck.1 early
      have raises : ¬ Succeeds attempt := fun succeeds => succeeds.1 early
      rw [runAttempts_raised (by rw [same]),same,ih opened]
      simp [NoneStuck,free,raises,early]
    · obtain ⟨raised,progress⟩ := @stuck_in_progress storageName attempt store entered stuck
      rw [runAttempts_raised raised,attempts_rejected retries progress]
      simp [Ended,progress,NoneStuck,stuck]
    · obtain ⟨raised,error⟩ := @failed_error storageName attempt store entered failed
      have raises : ¬ Succeeds attempt := fun succeeds => succeeds.2.2 failed.2.2
      rw [runAttempts_raised raised,ih (.inr error)]
      simp [NoneStuck,failed.2.1,raises,error,failed.1]
    · obtain ⟨returned,ended⟩ := @succeeds_done storageName attempt store entered succeeds
      have once : runAttempts storageName store (attempt :: retries) = (runFileConversion storageName attempt store).1 := by
        rw [runAttempts]
        split
        · rename_i same
          rw [same] at returned
          cases returned
        · rename_i same
          rw [same]
      rw [once]
      simp [ended,NoneStuck,succeeds.2.1,succeeds,succeeds.1]

/-- A pending conversion ends, however often it is retried, exactly when some attempt gets
    past its first save and none, up to the first that succeeds, gets stuck. -/
theorem conversion_ends_iff (storageName : Text → Text) (store : Store) (attempts : List Attempt)
    (pending : store.row.conversionState = .pending) :
    Ended (runAttempts storageName store attempts) ↔
      (∃ attempt ∈ attempts, ¬ Early attempt) ∧ NoneStuck attempts := by
  rw [runAttempts_ended attempts (.inl pending)]
  simp [pending]

def pendingStore : Store :=
  ⟨{ file := "loc.csv".toList, conversionState := .pending, conversionTime := none, convertedFile := none,
     conversionLogFile := none },[]⟩

/-- An attempt in which these steps raise. -/
def raisingAt (steps : List Step) (now : Nat) : Attempt := ⟨fun step => decide (step ∈ steps),now,"log".toList⟩

/-- The mapping cannot be read once, and both retries are rejected. -/
theorem conversion_stays_in_progress :
    (runAttempts id pendingStore [raisingAt [.readMapping] 1,raisingAt [] 2,raisingAt [] 3]).row.conversionState =
        .inProgress ∧
      ¬ Ended (runAttempts id pendingStore [raisingAt [.readMapping] 1,raisingAt [] 2,raisingAt [] 3]) := by
  have stays : runAttempts id pendingStore [raisingAt [.readMapping] 1,raisingAt [] 2,raisingAt [] 3] =
      { pendingStore with row := { pendingStore.row with conversionTime := some 1, conversionState := .inProgress } } :=
    rfl
  rw [stays]
  exact ⟨rfl,fun ended => by rcases ended.1 with same | same <;> cases same⟩

/-- A converter that raises once, and then finishes. -/
theorem conversion_retried :
    Ended (runAttempts id pendingStore [raisingAt [.convert] 1,raisingAt [] 2]) := by
  rw [conversion_ends_iff id pendingStore _ rfl]
  refine ⟨⟨_,List.mem_cons_self,?_⟩,?_⟩
  · simp [Early,raisingAt]
  · simp [NoneStuck,Stuck,Early,raisingAt,prepareSteps]

end OasisPlatform.FileConversions
