import OasisPlatform.RunsProceed
import OasisPlatform.StoredReferences

/-!
Attempts of the tasks of a run on the file store. Each task reads what is there when the
parameters that it is given refer only to what is there, and what it returns, or leaves for
its next attempt, does so again (`Spec`). An attempt may be lost at any of its events.
-/
namespace OasisPlatform.TaskEffects
open OasisPlatform.Canvas OasisPlatform.JsonValues OasisPlatform.GuardedFetch OasisPlatform.PrepareDirectories
open OasisPlatform.StageChains OasisPlatform.SubTaskIds OasisPlatform.InputParameters OasisPlatform.StoreTraces
open OasisPlatform.RunStorage OasisPlatform.StoredReferences
open OasisPlatform.RunsProceed (inputTasks workerTasks)
open OasisPlatform.LossInputs (Reference Written stored ofOne)
set_option linter.unusedSimpArgs false

variable {ρ : Type} {runs : Runs ρ} {run : ρ} {keep : Bool} {files : KeysKwargs} {losses : LossKwargs}
  {lookupChunks : Nat} {live : String → Prop}

/-- The attempts of the tasks of a run. The last task of the loss generation may be lost
    before it deletes its directory only. -/
def effects (runs : Runs ρ) (run : ρ) (keep : Bool) (files : KeysKwargs) (losses : LossKwargs) (lookupChunks : Nat) :
    Effects TaskSignature Params String where
  returns := fun signature given events result => ∃ attempt : StoreAttempt, Fits runs run keep attempt ∧
    perform files lookupChunks attempt.toInputAttempt signature given = some result ∧
    events = attemptEvents runs.location files losses lookupChunks attempt signature given
  lost := fun signature given events changed => ∃ attempt : StoreAttempt, Fits runs run keep attempt ∧
    events <+: attemptEvents runs.location files losses lookupChunks attempt signature given ∧
    List.Forall₂ (Retried signature.task events) given changed ∧
    (signature.task = "cleanup_losses_generation" → ∀ event ∈ events, Calm event)

/-- What holds before a task: the files of the server are there, what is cleaned up stays
    so, and the parameters refer to objects that are there. -/
structure Holds (runs : Runs ρ) (files : KeysKwargs) (losses : LossKwargs) (clean : (String → Prop) → Prop)
    (refs : (String → Prop) → Params → Prop) (live : String → Prop) (given : List Params) : Prop where
  served : Served runs files losses live
  clean : clean live
  refs : ∀ p ∈ given, refs live p

/-- What the events of a stage keep. -/
def Steady (runs : Runs ρ) (subdir : String) (clean : (String → Prop) → Prop) : Prop :=
  ∀ live event, Plain runs subdir event → clean live → clean (event.after live)

/-- What is put and there may be read. -/
theorem put_good {subdir : String} (mine : ∀ key, runs.within subdir key → runs.own run key) {events : List (Event String)}
    (plain : ∀ event ∈ events, Plain runs subdir event) (there : ∀ key, .put key ∈ events → live key) :
    ∀ key, .put key ∈ events → Good runs run live key :=
  fun key put => ⟨there key put,(plain _ put).imp (mine key) id⟩

section Stage
variable {subdir : String} {clean : (String → Prop) → Prop} {before after : (String → Prop) → Params → Prop}
  {given : List Params}

theorem served_step {event : Event String} (plain : Plain runs subdir event) (served : Served runs files losses live) :
    Served runs files losses (event.after live) := fun key listed => (served key listed).imp (plain.keeps key) id

theorem Holds.step (grows : Grows before) (steady : Steady runs subdir clean) {event : Event String}
    (plain : Plain runs subdir event) (holds : Holds runs files losses clean before live given) :
    Holds runs files losses clean before (event.after live) given where
  served := served_step plain holds.served
  clean := steady live event plain holds.clean
  refs := fun p listed => grows live _ plain.keeps p (holds.refs p listed)

theorem Holds.steps (grows : Grows before) (steady : Steady runs subdir clean) {events : List (Event String)}
    (plain : ∀ event ∈ events, Plain runs subdir event) (holds : Holds runs files losses clean before live given) :
    Holds runs files losses clean before (afterAll live events) given := by
  induction events generalizing live with
  | nil => exact holds
  | cons event rest ih =>
    exact ih (fun other listed => plain other (List.mem_cons_of_mem _ listed))
      (holds.step grows steady (plain event List.mem_cons_self))

/-- What the attempts of a task do, other than a cleanup. -/
structure Spec (runs : Runs ρ) (run : ρ) (keep : Bool) (files : KeysKwargs) (losses : LossKwargs) (lookupChunks : Nat)
    (subdir : String) (signature : TaskSignature) (before after : (String → Prop) → Params → Prop) : Prop where
  plain : ∀ attempt, Fits runs run keep attempt → ∀ given,
    ∀ event ∈ attemptEvents runs.location files losses lookupChunks attempt signature given, Plain runs subdir event
  allowed : ∀ attempt, Fits runs run keep attempt → ∀ given live, Served runs files losses live →
    (∀ p ∈ given, before live p) →
      Allowed (Confined runs.own run) live (attemptEvents runs.location files losses lookupChunks attempt signature given)
  retried : ∀ live p changed events, before live p → Retried signature.task events p changed →
    (∀ key, .put key ∈ events → Good runs run live key) → before live changed
  result : ∀ attempt, Fits runs run keep attempt → ∀ given result,
    perform files lookupChunks attempt.toInputAttempt signature given = some result → ∀ live,
      (∀ p ∈ given, before live p) →
      (∀ key, .put key ∈ attemptEvents runs.location files losses lookupChunks attempt signature given → live key) →
        after live result

variable {signature : TaskSignature}

theorem Spec.keeps (spec : Spec runs run keep files losses lookupChunks subdir signature before after)
    (mine : ∀ key, runs.within subdir key → runs.own run key) (grows : Grows before) (steady : Steady runs subdir clean) :
    Keeps (effects runs run keep files losses lookupChunks) (Confined runs.own run)
      (Holds runs files losses clean before) [.task signature] (Holds runs files losses clean after) := by
  refine Keeps.task ?_ ?_
  · rintro live given holds events changed ⟨attempt,fits,⟨rest,whole⟩,each,-⟩
    have allowed := spec.allowed attempt fits given live holds.served holds.refs
    rw [← whole] at allowed
    have plain : ∀ event ∈ events, Plain runs subdir event := fun event listed =>
      spec.plain attempt fits given event (whole ▸ List.mem_append_left _ listed)
    have kept := holds.steps grows steady plain
    refine ⟨(allowed_append.mp allowed).1,kept.served,kept.clean,fun p listed => ?_⟩
    obtain ⟨original,member,retried⟩ := forall₂_left each listed
    refine spec.retried _ original p events (kept.refs original member) retried (put_good mine plain fun key put => ?_)
    exact calm_put (fun event listed => (plain event listed).calm) put
  · rintro live given holds events result ⟨attempt,fits,returned,rfl⟩
    refine ⟨spec.allowed attempt fits given live holds.served holds.refs,?_⟩
    have plain := spec.plain attempt fits given
    have kept := holds.steps grows steady plain
    refine ⟨kept.served,kept.clean,fun p listed => ?_⟩
    obtain rfl := List.mem_singleton.mp listed
    exact spec.result attempt fits given p returned _ kept.refs fun key put =>
      calm_put (fun event listed => (plain event listed).calm) put

/-- The tasks of a header. -/
theorem header_keeps {works : List TaskSignature}
    (spec : ∀ work ∈ works, Spec runs run keep files losses lookupChunks subdir work before after)
    (mine : ∀ key, runs.within subdir key → runs.own run key) (grows : Grows before) (lasts : Grows after)
    (steady : Steady runs subdir clean) :
    Keeps (effects runs run keep files losses lookupChunks) (Confined runs.own run)
      (Holds runs files losses clean before) [.header works] (Holds runs files losses clean after) := by
  have known : ∀ work ∈ works, ∀ events, Does (effects runs run keep files losses lookupChunks) work events →
      ∀ event ∈ events, Plain runs subdir event := by
    rintro work listed events ⟨given,⟨changed,attempt,fits,part,-⟩ | ⟨result,attempt,fits,-,rfl⟩⟩ event inside
    · exact (spec work listed).plain attempt fits given event (part.subset inside)
    · exact (spec work listed).plain attempt fits given event inside
  have alone : ∀ work ∈ works, Keeps (effects runs run keep files losses lookupChunks) (Confined runs.own run)
      (Holds runs files losses clean before) [.task work] fun live results => ∀ result ∈ results, after live result :=
    fun work listed => ((spec work listed).keeps mine grows steady).weaken (fun _ _ holds => holds)
      fun _ _ holds => holds.refs
  have header : Keeps (effects runs run keep files losses lookupChunks) (Confined runs.own run)
      (Holds runs files losses clean before) [.header works] fun live results =>
        (Served runs files losses live ∧ clean live) ∧ results.length = works.length ∧
          ∀ result ∈ results, after live result := by
    refine Keeps.header (confined_grows runs.own run) lasts (fun _ _ holds => ⟨holds.served,holds.clean⟩) ?_ alone
    intro work listed events does event inside
    have plain := known work listed events does event inside
    exact ⟨plain.calm,fun live holds => ⟨served_step plain holds.1,steady live event plain holds.2⟩⟩
  exact header.weaken (fun _ _ holds => holds) fun _ _ holds => ⟨holds.1.1,holds.1.2,holds.2.2⟩

end Stage

/-! ### Tasks of the input generation -/

section Tasks
variable {task slug queue : String} {args : List Nat} {given : List Params} {subdir : String}

theorem taskOf_input (listed : task ∈ inputTasks) : taskOf files losses ⟨task,slug,queue,args⟩ given =
    some (.keys (taskKwargs files task) given) := by
  have recorded : ∀ task ∈ inputTasks, task ∉ ["record_input_files","record_losses_files"] := by decide
  have other : ∀ task ∈ inputTasks, task ∉ LossInputs.lossTasks := by decide
  rw [taskOf,if_neg (recorded _ listed),if_neg (other _ listed)]

theorem taskOf_worker (listed : task ∈ workerTasks) : taskOf files losses ⟨task,slug,queue,args⟩ given =
    some (.losses losses given) := by
  have recorded : ∀ task ∈ workerTasks, task ∉ ["record_input_files","record_losses_files"] := by decide
  have loss : ∀ task ∈ workerTasks, task ∈ LossInputs.lossTasks := by decide
  rw [taskOf,if_neg (recorded _ listed),if_pos (loss _ listed)]

theorem fetchReads_read (present : String → Bool) (plan : Plan String Object) :
    ∀ event ∈ fetchReads present plan, ∃ key, event = .read key := by
  intro event listed
  obtain ⟨fetch,-,inside⟩ := List.mem_flatMap.mp listed
  cases object : fetch.object with
  | file reference subdir =>
    rw [object] at inside
    obtain ⟨key,-,rfl⟩ := readOf_text inside
    exact ⟨key,rfl⟩
  | complexData complex =>
    rw [object] at inside
    obtain ⟨cmf,-,rfl⟩ := List.mem_map.mp inside
    exact ⟨_,rfl⟩
  | archive reference subdir =>
    rw [object] at inside
    obtain ⟨key,-,rfl⟩ := readOf_text inside
    exact ⟨key,rfl⟩

theorem reads_plain {events : List (Event String)} (reads : ∀ event ∈ events, ∃ key, event = .read key) :
    ∀ event ∈ events, Plain runs subdir event := by
  intro event listed
  obtain ⟨key,rfl⟩ := reads event listed
  trivial

theorem readOf_read (value : Json) : ∀ event ∈ readOf value, ∃ key, event = .read key := by
  intro event listed
  obtain ⟨key,-,rfl⟩ := readOf_text listed
  exact ⟨key,rfl⟩

theorem putOf_read {reference : Option Reference} {key : String} (listed : .read key ∈ putOf reference) : False := by
  obtain ⟨known,-,same⟩ := putOf_text listed
  cases same

/-- Reads of what is there before all events. -/
theorem allowed_of_plain (mine : ∀ key, runs.within subdir key → runs.own run key) {events : List (Event String)}
    (plain : ∀ event ∈ events, Plain runs subdir event) (found : ∀ key, .read key ∈ events → Good runs run live key) :
    Allowed (Confined runs.own run) live events := by
  refine (allowed_of_kept (fun later => ∀ key, live key → later key) (fun event listed later kept => ?_)
    fun _ there => there).1
  refine ⟨(plain event listed).confined mine fun key read => ?_,fun key there => ?_⟩
  · exact (found key (read ▸ listed)).mono kept
  · exact (plain event listed).keeps key (kept key there)

theorem files_mine (key : String) (inside : runs.within (runs.files run) key) : runs.own run key := .inl inside

theorem losses_mine (key : String) (inside : runs.within (runs.losses run) key) : runs.own run key := .inr inside

theorem prepared_refs {keys : List String} {params : Params} (node : Run) (kwargs : KeysKwargs)
    (apart : ∀ key ∈ keys, key ∉ keysParams) (refs : Refs runs run keys live params) :
    Refs runs run keys live (keysPrepareDirectories node kwargs params).1 :=
  refs.congr fun key listed => keysPrepareDirectories_other node kwargs params (apart key listed)

/-- The fetches of a task of the input generation. -/
theorem input_fetches (served : Served runs files losses live) (refs : ∀ p ∈ given, Refs runs run inputKeys live p)
    (node : Run) (present : String → Bool) (task : String) :
    ∀ event ∈ fetchReads present (node.plan (.keys (taskKwargs files task) given)),
      ∃ key, event = .read key ∧ Good runs run live key := by
  refine fetchReads_found (fun fetch called => ?_) present
  obtain ⟨p,listed,called⟩ := List.mem_flatMap.mp called
  exact keysCalls_found node (taskKwargs_part files task) served (refs p listed) fetch called

/-- What is left to say of a task of the worker: of its body, with the directories prepared. -/
structure Body (runs : Runs ρ) (run : ρ) (keep : Bool) (files : KeysKwargs) (lookupChunks : Nat) (subdir : String)
    (prepare : StoreAttempt → Params → Params) (signature : TaskSignature) (before after : (String → Prop) → Params → Prop) :
    Prop where
  plain : ∀ attempt, Fits runs run keep attempt → ∀ prepared,
    ∀ event ∈ bodyEvents runs.location lookupChunks attempt signature prepared, Plain runs subdir event
  allowed : ∀ attempt, Fits runs run keep attempt → ∀ prepared live, (∀ p ∈ prepared, before live p) →
    Allowed (Confined runs.own run) live (bodyEvents runs.location lookupChunks attempt signature prepared)
  result : ∀ attempt, Fits runs run keep attempt → ∀ given result,
    perform files lookupChunks attempt.toInputAttempt signature given = some result → ∀ live prepared,
      prepared = given.map (prepare attempt) → (∀ p ∈ prepared, before live p) →
      (∀ key, .put key ∈ bodyEvents runs.location lookupChunks attempt signature prepared → Good runs run live key) →
        after live result

variable {before after : (String → Prop) → Params → Prop} {prepare : StoreAttempt → Params → Params}
  {signature : TaskSignature}

/-- The fetches come first, and read what is there already. -/
theorem Body.spec (body : Body runs run keep files lookupChunks subdir prepare signature before after)
    (mine : ∀ key, runs.within subdir key → runs.own run key) (plan : StoreAttempt → List Params → Plan String Object)
    (events : ∀ attempt given, attemptEvents runs.location files losses lookupChunks attempt signature given =
      fetchReads attempt.present (plan attempt given) ++
        bodyEvents runs.location lookupChunks attempt signature (given.map (prepare attempt)))
    (found : ∀ attempt given live, Served runs files losses live → (∀ p ∈ given, before live p) →
      ∀ event ∈ fetchReads attempt.present (plan attempt given), ∃ key, event = .read key ∧ Good runs run live key)
    (prepares : ∀ attempt live p, before live p → before live (prepare attempt p))
    (retried : ∀ live p changed events, before live p → Retried signature.task events p changed →
      (∀ key, .put key ∈ events → Good runs run live key) → before live changed) :
    Spec runs run keep files losses lookupChunks subdir signature before after := by
  have prepared {live : String → Prop} {given : List Params} (attempt : StoreAttempt)
      (holds : ∀ p ∈ given, before live p) : ∀ p ∈ given.map (prepare attempt), before live p := by
    intro p member
    obtain ⟨original,inside,rfl⟩ := List.mem_map.mp member
    exact prepares attempt live original (holds original inside)
  refine ⟨fun attempt fits given event inside => ?_,fun attempt fits given live served holds => ?_,retried,
    fun attempt fits given result returned live holds puts => ?_⟩
  · rw [events] at inside
    rcases List.mem_append.mp inside with fetched | inside
    · exact reads_plain (fetchReads_read _ _) event fetched
    · exact body.plain attempt fits _ event inside
  · obtain ⟨reads,still⟩ := reads_allowed (found attempt given live served holds)
    rw [events,allowed_append,still]
    refine ⟨reads,?_⟩
    exact body.allowed attempt fits _ live (prepared attempt holds)
  · refine body.result attempt fits given result returned live _ rfl (prepared attempt holds) ?_
    refine put_good mine (body.plain attempt fits _) fun key put => puts key ?_
    rw [events]
    exact List.mem_append_right _ put

/-- Prepared for a task of the input generation. -/
def keysPrepared (files : KeysKwargs) (task : String) (attempt : StoreAttempt) (params : Params) : Params :=
  (keysPrepareDirectories attempt.node (taskKwargs files task) params).1

theorem input_spec (listed : task ∈ inputTasks)
    (prepares : ∀ live node kwargs p, before live p → before live (keysPrepareDirectories node kwargs p).1)
    (refs : ∀ live p, before live p → Refs runs run inputKeys live p)
    (retried : ∀ live p changed events, before live p → Retried task events p changed →
      (∀ key, .put key ∈ events → Good runs run live key) → before live changed)
    (body : Body runs run keep files lookupChunks (runs.files run) (keysPrepared files task) ⟨task,slug,queue,args⟩ before
      after) :
    Spec runs run keep files losses lookupChunks (runs.files run) ⟨task,slug,queue,args⟩ before after := by
  refine body.spec files_mine (fun attempt given => attempt.node.plan (.keys (taskKwargs files task) given))
    (fun attempt given => ?_) (fun attempt given live served holds => ?_)
    (fun attempt live p => prepares live attempt.node _ p) retried
  · rw [attemptEvents,taskOf_input listed]
    rfl
  · exact input_fetches served (fun p member => refs live p (holds p member)) attempt.node attempt.present task

theorem inputTask_some {attempt : StoreAttempt} {body : List Params → Option Params} {result : Params}
    (returned : (prepareEach attempt.node (taskKwargs files task) given).bind body = some result) :
    body (given.map (keysPrepared files task attempt)) = some result := by
  obtain ⟨prepared,same,done⟩ := Option.bind_eq_some_iff.mp returned
  unfold prepareEach at same
  split at same
  · cases same
  · exact Option.some.inj same ▸ done

/-- What a task of the input generation returns that is given one dictionary. -/
theorem of_keysPrepared {attempt : StoreAttempt} {prepared : List Params} {body : Params → Option Params}
    {result : Params} (same : prepared = given.map (keysPrepared files task attempt))
    (returned : (prepareEach attempt.node (taskKwargs files task) given).bind (fun prepared => ofOne prepared body) =
      some result) : ∃ params, prepared = [params] ∧ body params = some result := by
  obtain ⟨params,alone,made⟩ := LossInputs.ofOne_some (inputTask_some returned)
  exact ⟨params,same.trans alone,made⟩

theorem flatMap_plain {events : Params → List (Event String)} (plain : ∀ p, ∀ event ∈ events p, Plain runs subdir event)
    (prepared : List Params) : ∀ event ∈ prepared.flatMap events, Plain runs subdir event := by
  intro event listed
  obtain ⟨p,-,inside⟩ := List.mem_flatMap.mp listed
  exact plain p event inside

theorem append_plain {events others : List (Event String)} (first : ∀ event ∈ events, Plain runs subdir event)
    (second : ∀ event ∈ others, Plain runs subdir event) : ∀ event ∈ events ++ others, Plain runs subdir event :=
  fun event listed => (List.mem_append.mp listed).elim (first event) (second event)

theorem readOf_plain (value : Json) : ∀ event ∈ readOf value, Plain runs subdir event := reads_plain (readOf_read value)

theorem prepareParams_body : Body runs run keep files lookupChunks (runs.files run)
    (keysPrepared files "prepare_input_generation_params") ⟨"prepare_input_generation_params",slug,queue,args⟩
    (fun _ => Fresh inputKeys) (Refs runs run inputKeys) where
  plain := fun _ fits _ => putOf_root fits.logLocation
  allowed := fun _ fits _ _ _ => allowed_of_plain files_mine (putOf_root fits.logLocation) fun _ read => (putOf_read read).elim
  result := by
    intro attempt fits given result returned live prepared same fresh puts
    obtain ⟨params,rfl,made⟩ := of_keysPrepared same returned
    exact prepareInputGenerationParams_refs fits (fresh params (by simp)) made puts

theorem modifiedPuts_plain {attempt : StoreAttempt} (fits : Fits runs run keep attempt) :
    ∀ event ∈ modifiedPuts attempt.toInputAttempt, Plain runs (runs.files run) event ∧ ∀ key, event ≠ .read key := by
  intro event listed
  obtain ⟨file,-,inside⟩ := List.mem_flatMap.mp listed
  split at inside
  · cases inside
  · split at inside
    · cases inside
    · exact ⟨putOf_plain (runs.filesDir run) (fits.preFile file) event inside,
        fun key same => putOf_read (same ▸ inside)⟩

theorem hookEvents_plain {attempt : StoreAttempt} (fits : Fits runs run keep attempt) (params : Params) :
    ∀ event ∈ hookEvents attempt.toInputAttempt lookupChunks params,
      Plain runs (runs.files run) event ∧ ∀ key, event ≠ .read key := by
  intro event listed
  simp only [hookEvents,List.mem_append] at listed
  rcases listed with (modified | split) | log
  · split at modified
    · exact modifiedPuts_plain fits event modified
    · cases modified
  · split at split
    · obtain ⟨chunkIdx,-,inside⟩ := List.mem_flatMap.mp split
      exact ⟨putOf_plain (runs.filesDir run) (fits.sarChunk chunkIdx) event inside,
        fun key same => putOf_read (same ▸ inside)⟩
    · cases split
  · exact ⟨putOf_root fits.logLocation event log,fun key same => putOf_read (same ▸ log)⟩

theorem hook_body : Body runs run keep files lookupChunks (runs.files run)
    (keysPrepared files "pre_analysis_hook") ⟨"pre_analysis_hook",slug,queue,args⟩
    (Refs runs run inputKeys) (Refs runs run inputKeys) where
  plain := fun _ fits => flatMap_plain fun p event listed => (hookEvents_plain fits p event listed).1
  allowed := by
    intro attempt fits prepared live _
    refine allowed_of_plain files_mine (flatMap_plain (fun p event listed => (hookEvents_plain fits p event listed).1)
      prepared) fun key read => ?_
    obtain ⟨p,-,inside⟩ := List.mem_flatMap.mp read
    exact absurd rfl ((hookEvents_plain fits p _ inside).2 key)
  result := by
    intro attempt fits given result returned live prepared same refs puts
    obtain ⟨params,rfl,made⟩ := of_keysPrepared same returned
    refine preAnalysisHook_refs made (refs params (by simp)) fun key put => puts key ?_
    exact List.mem_flatMap.mpr ⟨params,by simp,put⟩

theorem sarReads_cases {params : Params} {event : Event String} (listed : event ∈ sarReads args params) :
    ∃ items, params.get "sar_chunks" = .array items ∧ ∃ item ∈ items, event ∈ readOf item := by
  unfold sarReads at listed
  split at listed
  · rename_i chunkIdx numChunks items split
    split at listed
    · refine ⟨items,split,items[chunkIdx]?.getD .null,?_,listed⟩
      cases item : items[chunkIdx]? with
      | none =>
        rw [item] at listed
        cases listed
      | some held => exact List.mem_of_getElem? item
    · cases listed
  · cases listed

theorem keysChunk_plain {attempt : StoreAttempt} (fits : Fits runs run keep attempt) (params : Params) :
    ∀ event ∈ keysChunkEvents attempt.toInputAttempt args params, Plain runs (runs.files run) event := by
  refine append_plain (append_plain ?_ (putOf_plain (runs.filesDir run) fits.chunkKeys)) (putOf_root fits.logLocation)
  refine reads_plain fun event listed => ?_
  obtain ⟨items,-,item,-,inside⟩ := sarReads_cases listed
  exact readOf_read item event inside

theorem keysChunk_found {attempt : StoreAttempt} {prepared : List Params}
    (refs : ∀ p ∈ prepared, Refs runs run inputKeys live p) (key : String)
    (read : .read key ∈ prepared.flatMap (keysChunkEvents attempt.toInputAttempt args)) : Good runs run live key := by
  obtain ⟨p,listed,inside⟩ := List.mem_flatMap.mp read
  simp only [keysChunkEvents,List.mem_append] at inside
  rcases inside with (chunk | put) | log
  · obtain ⟨items,split,item,member,inside⟩ := sarReads_cases chunk
    have held := refs p listed "sar_chunks" (by decide)
    rw [split] at held
    exact read_good (fun known named => held known (List.mem_flatMap.mpr ⟨item,member,named⟩)) inside
  · exact (putOf_read put).elim
  · exact (putOf_read log).elim

theorem keysChunk_body {chunkIdx numChunks : Nat} : Body runs run keep files lookupChunks (runs.files run)
    (keysPrepared files "prepare_keys_file_chunk") ⟨"prepare_keys_file_chunk",slug,queue,[chunkIdx,numChunks]⟩
    (Refs runs run inputKeys) (Refs runs run inputKeys) where
  plain := fun _ fits => flatMap_plain (keysChunk_plain fits)
  allowed := fun _ fits prepared _ refs =>
    allowed_of_plain files_mine (flatMap_plain (keysChunk_plain fits) prepared) (keysChunk_found refs)
  result := by
    intro attempt fits given result returned live prepared same refs puts
    obtain ⟨params,rfl,made⟩ := of_keysPrepared same returned
    refine prepareKeysFileChunk_refs [chunkIdx,numChunks] made (refs params (by simp)) fun key put => puts key ?_
    exact List.mem_flatMap.mpr ⟨params,by simp,put⟩

theorem collect_body : Body runs run keep files lookupChunks (runs.files run)
    (keysPrepared files "collect_keys") ⟨"collect_keys",slug,queue,args⟩ (Refs runs run inputKeys)
    (Refs runs run inputKeys) := by
  have plain (attempt : StoreAttempt) (fits : Fits runs run keep attempt) (prepared : List Params) :
      ∀ event ∈ bodyEvents runs.location lookupChunks attempt ⟨"collect_keys",slug,queue,args⟩ prepared,
        Plain runs (runs.files run) event :=
    append_plain (append_plain (flatMap_plain (fun p => readOf_plain (p.get "chunk_keys")) prepared)
      (putOf_plain (runs.filesDir run) fits.keysData)) (putOf_root fits.logLocation)
  refine ⟨plain,fun attempt fits prepared live refs => ?_,?_⟩
  · refine allowed_of_plain files_mine (plain attempt fits prepared) fun key read => ?_
    rcases List.mem_append.mp read with read | log
    · rcases List.mem_append.mp read with read | put
      · obtain ⟨p,listed,inside⟩ := List.mem_flatMap.mp read
        exact (refs p listed).read (by decide) inside
      · exact (putOf_read put).elim
    · exact (putOf_read log).elim
  · intro attempt fits given result returned live prepared same refs puts
    have returned : (prepareEach attempt.node (taskKwargs files "collect_keys") given).bind
        (collectKeys attempt.toInputAttempt slug) = some result := returned
    have done := inputTask_some returned
    rw [← same] at done
    refine collectKeys_refs done refs fun key put => puts key ?_
    rcases List.mem_append.mp put with keys | log
    · exact List.mem_append_left _ (List.mem_append_right _ keys)
    · exact List.mem_append_right _ log

/-- All events of the task, in the parts in which it reads its own log. -/
theorem write_plain {attempt : StoreAttempt} (fits : Fits runs run keep attempt) (params : Params) :
    ∀ event ∈ writeEvents attempt.toInputAttempt slug params, Plain runs (runs.files run) event := by
  have logs : ∀ event ∈ logReads attempt.toInputAttempt slug params, Plain runs (runs.files run) event := by
    refine reads_plain fun event listed => ?_
    unfold logReads at listed
    split at listed
    · obtain ⟨entry,-,inside⟩ := List.mem_flatMap.mp listed
      exact readOf_read entry.2 event inside
    · cases listed
  have written {reference : Option Reference} (listed : reference ∈ [attempt.written.lookupErrorLocation,
      attempt.written.lookupSuccessLocation,attempt.written.lookupValidationLocation,
      attempt.written.summaryLevelsLocation,attempt.written.outputLocation,attempt.written.analysisSettingsLocation]) :
      ∀ event ∈ putOf reference, Plain runs (runs.files run) event := putOf_root (fits.written reference listed)
  refine append_plain (append_plain (append_plain (append_plain (append_plain (append_plain (append_plain (append_plain
    (readOf_plain _) (putOf_root fits.logLocation)) logs) ?_) ?_) ?_) ?_) ?_) ?_
  · exact written (by simp)
  · exact written (by simp)
  · exact written (by simp)
  · exact written (by simp)
  · exact written (by simp)
  · exact written (by simp)

theorem putOf_allowed {reference : Option Reference} (plain : ∀ event ∈ putOf reference, Plain runs (runs.files run) event) :
    Allowed (Confined runs.own run) live (putOf reference) :=
  allowed_of_plain files_mine plain fun _ read => (putOf_read read).elim

theorem flatMap_allowed {events : Params → List (Event String)} (plain : ∀ p, ∀ event ∈ events p, Plain runs subdir event)
    {prepared : List Params} (allowed : ∀ p ∈ prepared, ∀ later : String → Prop, (∀ key, live key → later key) →
      Allowed (Confined runs.own run) later (events p)) : Allowed (Confined runs.own run) live (prepared.flatMap events) := by
  induction prepared generalizing live with
  | nil => trivial
  | cons p rest ih =>
    rw [List.flatMap_cons,allowed_append]
    refine ⟨allowed p List.mem_cons_self live fun _ there => there,ih fun q listed later grown => ?_⟩
    refine allowed q (List.mem_cons_of_mem _ listed) later fun key there => grown key ?_
    exact calm_keeps (fun event inside => (plain p event inside).calm) there

theorem logReads_good {attempt : InputAttempt} {params : Params} (refs : Refs runs run inputKeys live params)
    (log : ∀ key, .put key ∈ putOf attempt.logLocation → Good runs run live key) (key : String)
    (read : .read key ∈ logReads attempt slug params) : Good runs run live key := by
  unfold logReads at read
  split at read
  · rename_i logs found
    obtain ⟨registered,logged,held⟩ := Option.bind_eq_some_iff.mp found
    obtain ⟨entry,listed,inside⟩ := List.mem_flatMap.mp read
    exact read_good ((registerLog_refs logged refs log).logs held entry listed) inside
  · cases read

theorem write_allowed {attempt : StoreAttempt} (fits : Fits runs run keep attempt) {params : Params}
    (refs : Refs runs run inputKeys live params) :
    Allowed (Confined runs.own run) live (writeEvents attempt.toInputAttempt slug params) := by
  have written {live : String → Prop} {reference : Option Reference} (listed : reference ∈
      [attempt.written.lookupErrorLocation,attempt.written.lookupSuccessLocation,attempt.written.lookupValidationLocation,
        attempt.written.summaryLevelsLocation,attempt.written.outputLocation,attempt.written.analysisSettingsLocation]) :
      Allowed (Confined runs.own run) live (putOf reference) := putOf_allowed (putOf_root (fits.written reference listed))
  have keys : Allowed (Confined runs.own run) live (readOf (params.get "keys_data")) :=
    allowed_of_plain files_mine (readOf_plain _) fun _ read => refs.read (by decide) read
  -- its own log is put before it is read with those of the other tasks
  have first : ∀ event ∈ readOf (params.get "keys_data") ++ putOf attempt.logLocation, Plain runs (runs.files run) event :=
    append_plain (readOf_plain _) (putOf_root fits.logLocation)
  have grown := refs.mono fun key => calm_keeps fun event listed => (first event listed).calm
  have log : ∀ key, .put key ∈ putOf attempt.logLocation → Good runs run
      (afterAll live (readOf (params.get "keys_data") ++ putOf attempt.logLocation)) key := fun key put =>
    ⟨calm_put (fun event listed => (first event listed).calm) (List.mem_append_right _ put),
      (putOf_root fits.logLocation _ put).imp (files_mine key) id⟩
  have logs : Allowed (Confined runs.own run) (afterAll live (readOf (params.get "keys_data") ++ putOf attempt.logLocation))
      (logReads attempt.toInputAttempt slug params) := by
    refine allowed_of_plain files_mine (fun event listed => ?_) (logReads_good grown log)
    have among : event ∈ writeEvents attempt.toInputAttempt slug params := by
      simp only [writeEvents,List.mem_append,listed,true_or,or_true]
    exact write_plain fits params event among
  simp only [writeEvents,allowed_append]
  refine ⟨⟨⟨⟨⟨⟨⟨⟨keys,putOf_allowed (putOf_root fits.logLocation)⟩,logs⟩,?_⟩,?_⟩,?_⟩,?_⟩,?_⟩,?_⟩
  · exact written (by simp)
  · exact written (by simp)
  · exact written (by simp)
  · exact written (by simp)
  · exact written (by simp)
  · exact written (by simp)

theorem write_body : Body runs run keep files lookupChunks (runs.files run)
    (keysPrepared files "write_input_files") ⟨"write_input_files",slug,queue,args⟩ (Refs runs run inputKeys)
    (Recorded runs) where
  plain := fun _ fits => flatMap_plain (write_plain fits)
  allowed := fun _ fits _ _ refs =>
    flatMap_allowed (write_plain fits) fun p listed _ grown => write_allowed fits ((refs p listed).mono grown)
  result := by
    intro attempt fits given result returned live prepared same refs puts
    obtain ⟨params,rfl,made⟩ := of_keysPrepared same returned
    refine writeInputFiles_recorded fits made fun key put => (puts key ?_).1
    exact List.mem_flatMap.mpr ⟨params,by simp,put⟩

theorem prepareParams_spec : Spec runs run keep files losses lookupChunks (runs.files run)
    ⟨"prepare_input_generation_params",slug,queue,args⟩ (fun _ => Fresh inputKeys) (Refs runs run inputKeys) := by
  have own : ∀ key ∈ inputKeys, key ∉ ownKeys "prepare_input_generation_params" := fun _ _ => List.not_mem_nil
  have apart : ∀ key ∈ inputKeys, key ∉ keysParams := by decide
  refine input_spec (by decide) (fun _ node kwargs p fresh key listed => ?_) (fun _ _ => refs_of_absent)
    (fun _ p changed events fresh retried _ key listed => ?_) prepareParams_body
  · exact (keysPrepareDirectories_other node kwargs p (apart key listed)).trans (fresh key listed)
  · exact (retried.same (inputKeys_apart key listed) (own key listed)).trans (fresh key listed)

/-- A task whose parameters refer to what is there. -/
theorem refs_spec {after : (String → Prop) → Params → Prop} (listed : task ∈ inputTasks)
    (body : Body runs run keep files lookupChunks (runs.files run) (keysPrepared files task) ⟨task,slug,queue,args⟩
      (Refs runs run inputKeys) after) :
    Spec runs run keep files losses lookupChunks (runs.files run) ⟨task,slug,queue,args⟩ (Refs runs run inputKeys) after :=
  input_spec listed (fun _ node kwargs _ => prepared_refs node kwargs (by decide)) (fun _ _ refs => refs)
    (fun _ _ _ _ refs retried => retried.refs inputKeys_apart refs) body

theorem readIf_readOf (value : Json) : readIf value ⊆ readOf value := by
  unfold readIf
  split
  · exact List.Subset.refl _
  · exact List.nil_subset _

theorem recordInputReads_read {params : Params} {event : Event String} (listed : event ∈ recordInputReads params) :
    ∃ key ∈ inputLocations, event ∈ readOf (params.get key) := by
  rcases List.mem_append.mp listed with first | settings
  · obtain ⟨key,member,inside⟩ := List.mem_flatMap.mp first
    exact ⟨key,List.mem_of_mem_dropLast member,inside⟩
  · exact ⟨_,by decide,readIf_readOf _ settings⟩

theorem recordInput_found {given : List Params} (recorded : ∀ p ∈ given, Recorded runs live p) (key : String)
    (read : .read key ∈ given.flatMap recordInputReads) : Good runs run live key := by
  obtain ⟨p,listed,inside⟩ := List.mem_flatMap.mp read
  obtain ⟨name,among,inside⟩ := recordInputReads_read inside
  exact read_good (fun reference member => ((recorded p listed).refs name among reference (text_refs member)).imp id .inr)
    inside

theorem recordInputFiles_same {attempt : LossInputs.Attempt} {params result : Params}
    (returned : LossInputs.recordInputFiles attempt params = some result) : result = params := by
  unfold LossInputs.recordInputFiles at returned
  split at returned
  · cases returned
  · split at returned
    · exact (Option.some.inj returned).symm
    · cases returned

/-- The server copies what is recorded. -/
theorem record_spec : Spec runs run keep files losses lookupChunks (runs.files run)
    ⟨"record_input_files",slug,queue,args⟩ (Recorded runs) (Recorded runs) := by
  have plain (given : List Params) : ∀ event ∈ given.flatMap recordInputReads, Plain runs (runs.files run) event :=
    flatMap_plain (fun p event listed => by
      obtain ⟨key,-,inside⟩ := recordInputReads_read listed
      exact readOf_plain (p.get key) event inside) given
  refine ⟨fun _ _ => plain,fun _ _ given live _ recorded => ?_,
    fun _ _ _ _ recorded retried _ => recorded.retried (List.nil_subset _) retried,
    fun attempt _ given result returned live recorded _ => ?_⟩
  · exact allowed_of_plain files_mine (plain given) (recordInput_found recorded)
  · obtain ⟨params,rfl,made⟩ := LossInputs.ofOne_some returned
    exact recordInputFiles_same made ▸ recorded params List.mem_cons_self

/-! ### Tasks of the loss generation -/

/-- Prepared for a task of the loss generation. -/
def lossesPrepared (attempt : StoreAttempt) (params : Params) : Params := lossDirectories attempt.node params

theorem loss_fetches (served : Served runs files losses live) (refs : ∀ p ∈ given, Refs runs run lossKeys live p)
    (node : Run) (present : String → Bool) :
    ∀ event ∈ fetchReads present (node.plan (.losses losses given)), ∃ key, event = .read key ∧ Good runs run live key := by
  refine fetchReads_found (lossesCalls_found node (fun key listed => ?_) (fun _ given => given) (List.Subset.refl _) served
    refs) present
  exact served.good (List.mem_append_right _ listed)

theorem loss_spec {before after : (String → Prop) → Params → Prop} (listed : task ∈ workerTasks)
    (prepares : ∀ live node p, before live p → before live (lossDirectories node p))
    (refs : ∀ live p, before live p → Refs runs run lossKeys live p)
    (retried : ∀ live p changed events, before live p → Retried task events p changed →
      (∀ key, .put key ∈ events → Good runs run live key) → before live changed)
    (body : Body runs run keep files lookupChunks (runs.losses run) lossesPrepared ⟨task,slug,queue,args⟩ before after) :
    Spec runs run keep files losses lookupChunks (runs.losses run) ⟨task,slug,queue,args⟩ before after := by
  refine body.spec losses_mine (fun attempt given => attempt.node.plan (.losses losses given)) (fun attempt given => ?_)
    (fun attempt given live served holds => ?_) (fun attempt live p => prepares live attempt.node p) retried
  · rw [attemptEvents,taskOf_worker listed]
    rfl
  · exact loss_fetches served (fun p member => refs live p (holds p member)) attempt.node attempt.present

theorem lossDirectories_apart (node : Run) (params : Params) {key : String} (apart : key ∉ directoryKeys) :
    lossDirectories node params key = params key := by
  have part : ["storage_subdir","root_run_dir","oasis_files_dir","model_run_dir","results_path","user_data_dir",
      "analysis_settings_json"] ⊆ directoryKeys := by decide
  exact lossDirectories_other node params fun directory => apart (part directory)

theorem directories_refs {keys : List String} (apart : ∀ key ∈ keys, key ∉ directoryKeys) (node : Run) {params : Params}
    (refs : Refs runs run keys live params) : Refs runs run keys live (lossDirectories node params) :=
  refs.congr fun key listed => lossDirectories_apart node params (apart key listed)

theorem lossKeys_apart : ∀ key ∈ lossKeys, key ∉ directoryKeys := by decide

/-- A task of the loss generation whose parameters refer to what is there. -/
theorem loss_refs_spec {after : (String → Prop) → Params → Prop} (listed : task ∈ workerTasks)
    (body : Body runs run keep files lookupChunks (runs.losses run) lossesPrepared ⟨task,slug,queue,args⟩
      (Refs runs run lossKeys) after) :
    Spec runs run keep files losses lookupChunks (runs.losses run) ⟨task,slug,queue,args⟩ (Refs runs run lossKeys) after :=
  loss_spec listed (fun _ node _ => directories_refs lossKeys_apart node) (fun _ _ refs => refs)
    (fun _ _ _ _ refs retried => retried.refs lossKeys_apart refs) body

theorem prepareLosses_spec : Spec runs run keep files losses lookupChunks (runs.losses run)
    ⟨"prepare_losses_generation_params",slug,queue,args⟩ (Entering runs run) (Refs runs run lossKeys) := by
  refine loss_spec (by decide) (fun _ node p entering => ?_) (fun _ _ entering => entering.refs_all)
    (fun _ p changed _ entering retried _ => ?_) ⟨fun _ fits _ => putOf_root fits.logLocation,fun _ fits _ _ _ => ?_,?_⟩
  · exact entering.same fun key listed => lossDirectories_apart node p (lossKeys_apart key listed)
  · exact entering.same fun key listed => retried.same (lossKeys_apart key listed) List.not_mem_nil
  · exact allowed_of_plain losses_mine (putOf_root fits.logLocation) fun _ read => (putOf_read read).elim
  · intro attempt fits given result returned live prepared same entering _
    obtain ⟨params,alone,made⟩ := LossInputs.ofOne_some returned
    obtain rfl := Option.some.inj made
    have listed : params ∈ prepared := by
      rw [same]
      exact alone ▸ List.mem_cons_self
    exact prepareLossesGenerationParams_refs fits (entering params listed)

/-- And one of the loss generation. -/
theorem of_lossesPrepared {attempt : StoreAttempt} {prepared : List Params} {body : Params → Option Params} {result : Params}
    (same : prepared = given.map (lossesPrepared attempt))
    (returned : ofOne (given.map (lossDirectories attempt.node)) body = some result) :
    ∃ params, prepared = [params] ∧ body params = some result := by
  obtain ⟨params,alone,made⟩ := LossInputs.ofOne_some returned
  exact ⟨params,same.trans alone,made⟩

theorem directory_body : Body runs run keep files lookupChunks (runs.losses run) lossesPrepared
    ⟨"prepare_losses_generation_directory",slug,queue,args⟩ (Refs runs run lossKeys) (Refs runs run lossKeys) := by
  have plain (attempt : StoreAttempt) (fits : Fits runs run keep attempt) :
      ∀ event ∈ putOf attempt.runLocation ++ putOf attempt.logLocation, Plain runs (runs.losses run) event :=
    append_plain (putOf_plain (runs.lossesDir run) fits.runLocation) (putOf_root fits.logLocation)
  refine ⟨fun attempt fits _ => plain attempt fits,fun attempt fits _ _ _ => ?_,?_⟩
  · refine allowed_of_plain losses_mine (plain attempt fits) fun _ read => ?_
    exact ((List.mem_append.mp read).elim putOf_read putOf_read : False).elim
  · intro attempt fits given result returned live prepared same refs puts
    obtain ⟨params,rfl,made⟩ := of_lossesPrepared same returned
    obtain rfl := Option.some.inj made
    have kept := ((refs params List.mem_cons_self).put_own (by decide : "model_storage_json" ∉ lossKeys)
      (LossInputs.storageJson attempt.modelStorageJson)).put_own (by decide : "analysis_settings" ∉ lossKeys)
      (attempt.generateLossesDir (params.put "model_storage_json" (LossInputs.storageJson attempt.modelStorageJson)))
    refine (kept.put "run_location" (stored_good fun key put => puts key ?_)).put_own (by decide) _
    exact List.mem_append_left _ put

theorem lossesChunk_body : Body runs run keep files lookupChunks (runs.losses run) lossesPrepared
    ⟨"generate_losses_chunk",slug,queue,args⟩ (Refs runs run lossKeys) (Refs runs run lossKeys) := by
  have plain (attempt : StoreAttempt) (fits : Fits runs run keep attempt) :
      ∀ event ∈ lossesChunkEvents attempt.toInputAttempt, Plain runs (runs.losses run) event :=
    append_plain (append_plain (putOf_plain (runs.lossesDir run) fits.chunkWorkLocation)
      (putOf_plain (runs.lossesDir run) fits.chunkLogLocation)) (putOf_root fits.logLocation)
  have none (attempt : StoreAttempt) (key : String) (read : .read key ∈ lossesChunkEvents attempt.toInputAttempt) : False := by
    simp only [lossesChunkEvents,List.mem_append] at read
    rcases read with (work | log) | log
    · exact putOf_read work
    · exact putOf_read log
    · exact putOf_read log
  refine ⟨fun attempt fits _ => plain attempt fits,fun attempt fits _ _ _ => ?_,?_⟩
  · exact allowed_of_plain losses_mine (plain attempt fits) fun key read => (none attempt key read).elim
  · intro attempt fits given result returned live prepared same refs puts
    obtain ⟨params,rfl,made⟩ := of_lossesPrepared same returned
    split at made
    · unfold LossInputs.generateLossesChunk at made
      split at made
      · obtain rfl := Option.some.inj made
        have worked := (refs params List.mem_cons_self).put "chunk_work_location" (stored_good fun key put => puts key
          (List.mem_append_left _ (List.mem_append_left _ put)))
        have logged := worked.put "chunk_log_location" (stored_good fun key put => puts key
          (List.mem_append_left _ (List.mem_append_right _ put)))
        exact (((logged.put_own (by decide) _).put_own (by decide) _).put_own (by decide) _).put_own (by decide) _
      · cases made
    · cases made

/-- And the results. -/
def resultKeys : List String := lossKeys ++ ["run_logs","output_location"]

theorem output_body : Body runs run keep files lookupChunks (runs.losses run) lossesPrepared
    ⟨"generate_losses_output",slug,queue,args⟩ (Refs runs run lossKeys) (Refs runs run resultKeys) := by
  have plain (attempt : StoreAttempt) (fits : Fits runs run keep attempt) (prepared : List Params) :
      ∀ event ∈ outputEvents attempt.toInputAttempt prepared, Plain runs (runs.losses run) event :=
    append_plain (append_plain (append_plain (append_plain
      (flatMap_plain (fun p => readOf_plain (p.get "chunk_work_location")) prepared)
      (flatMap_plain (fun p => readOf_plain (p.get "chunk_log_location")) prepared))
      (putOf_root fits.outputLocation)) (putOf_root fits.runLogs)) (putOf_root fits.logLocation)
  have listed {live : String → Prop} {prepared : List Params} (refs : ∀ p ∈ prepared, Refs runs run lossKeys live p)
      {name : String} (among : name ∈ lossKeys) {key : String}
      (read : .read key ∈ prepared.flatMap fun params => readOf (params.get name)) : Good runs run live key := by
    obtain ⟨p,member,inside⟩ := List.mem_flatMap.mp read
    exact (refs p member).read among inside
  have found {live : String → Prop} {attempt : StoreAttempt} {prepared : List Params}
      (refs : ∀ p ∈ prepared, Refs runs run lossKeys live p) (key : String)
      (read : .read key ∈ outputEvents attempt.toInputAttempt prepared) :
      Good runs run live key := by
    simp only [outputEvents,List.mem_append] at read
    rcases read with (((work | log) | put) | put) | put
    · exact listed refs (by decide) work
    · exact listed refs (by decide) log
    · exact (putOf_read put).elim
    · exact (putOf_read put).elim
    · exact (putOf_read put).elim
  refine ⟨fun attempt fits => plain attempt fits,fun attempt fits prepared _ refs => ?_,?_⟩
  · exact allowed_of_plain losses_mine (plain attempt fits prepared) (found refs)
  · intro attempt fits given result returned live prepared same refs puts
    have made : LossInputs.generateLossesOutput _ (given.map (lossesPrepared attempt)) = some result := returned
    rw [← same] at made
    simp only [LossInputs.generateLossesOutput,Option.bind_eq_bind,Option.bind_eq_some_iff] at made
    obtain ⟨first,head,_,-,_,-,made⟩ := made
    obtain rfl := Option.some.inj made
    have puts : ∀ key, .put key ∈ outputEvents attempt.toInputAttempt prepared → Good runs run live key := puts
    simp only [outputEvents,List.mem_append] at puts
    have held := refs first (List.mem_of_head? head)
    have kept : Refs runs run lossKeys live ((((first.put "model_storage_json" .null).put "output_location"
        (stored attempt.outputLocation)).put "run_logs" (stored attempt.runLogs)).put "log_location"
        (stored attempt.logLocation)) :=
      (((held.put_own (by decide) _).put_own (by decide) _).put_own (by decide) _).put_own (by decide) _
    intro key among
    rcases List.mem_append.mp among with others | results
    · exact kept key others
    · simp only [List.mem_cons,List.not_mem_nil,or_false] at results
      rcases results with rfl | rfl
      · exact stored_good fun key put => puts key (.inl (.inr put))
      · exact stored_good fun key put => puts key (.inl (.inl (.inr put)))

theorem recordLosses_found {given : List Params} (refs : ∀ p ∈ given, Refs runs run resultKeys live p) (key : String)
    (read : .read key ∈ given.flatMap recordLossesReads) : Good runs run live key := by
  obtain ⟨p,listed,inside⟩ := List.mem_flatMap.mp read
  rcases List.mem_append.mp inside with logs | output
  · exact (refs p listed).read (by decide) (readIf_readOf _ logs)
  · exact (refs p listed).read (by decide) output

theorem resultKeys_apart : ∀ key ∈ resultKeys, key ∉ directoryKeys := by decide

theorem recordLosses_spec : Spec runs run keep files losses lookupChunks (runs.losses run)
    ⟨"record_losses_files",slug,queue,args⟩ (Refs runs run resultKeys) (Refs runs run resultKeys) := by
  have plain (given : List Params) : ∀ event ∈ given.flatMap recordLossesReads, Plain runs (runs.losses run) event :=
    flatMap_plain (fun p => append_plain (fun event listed => readOf_plain _ event (readIf_readOf _ listed)) (readOf_plain _))
      given
  refine ⟨fun _ _ => plain,fun _ _ given live _ refs => ?_,fun _ _ _ _ refs retried => retried.refs resultKeys_apart refs,
    fun attempt _ given result returned live refs _ => ?_⟩
  · exact allowed_of_plain losses_mine (plain given) (recordLosses_found refs)
  · obtain ⟨params,rfl,made⟩ := LossInputs.ofOne_some returned
    exact LossInputs.recordLossesFiles_same made ▸ refs params List.mem_cons_self

end Tasks

end OasisPlatform.TaskEffects
