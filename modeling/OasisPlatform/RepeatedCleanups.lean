import OasisPlatform.ReferencesFound

/-!
Cleanups that are run again. The last task of the loss generation prepares the directories
of its node like any other, and for that extracts the archive of the run. The archive is in
the directory that it deletes, so that another attempt finds it gone (`cleanup_again`).
-/
namespace OasisPlatform.RepeatedCleanups
open OasisPlatform.JsonValues OasisPlatform.GuardedFetch OasisPlatform.PrepareDirectories OasisPlatform.StageChains
open OasisPlatform.SubTaskIds OasisPlatform.InputParameters OasisPlatform.StoreTraces OasisPlatform.RunStorage
open OasisPlatform.StoredReferences OasisPlatform.TaskEffects OasisPlatform.ReferencesFound
open OasisPlatform.RunsProceed (Directed)
open OasisPlatform.LossInputs (Reference made)
set_option linter.unusedSimpArgs false

variable {ρ : Type} {runs : Runs ρ} {run : ρ} {files : KeysKwargs} {losses : LossKwargs} {lookupChunks : Nat}
  {live : String → Prop} {params : Params} {slug queue : String} {args : List Nat}

/-- Once the directory is deleted, nothing is put there. -/
theorem deleted_part {first : StoreAttempt} (fits : Fits runs run false first) {given : List Params}
    {events : List (Event String)} (part : events <+: attemptEvents runs.location files losses lookupChunks first
      ⟨"cleanup_losses_generation",slug,queue,args⟩ given) {gone : String → Bool} (deleted : .delete gone ∈ events)
    {key : String} (inside : runs.within (runs.losses run) key) : ¬ afterAll live events key := by
  have outside (key : String) (put : .put key ∈ events) : runs.Outside key := by
    have whole := part.subset put
    rw [cleanupLosses_events fits] at whole
    exact cleanup_puts (fetchReads_read _ _) fits.logLocation flatMap_part whole
  have own : gone key = true := by
    have whole := part.subset deleted
    rw [cleanupLosses_events fits] at whole
    rcases List.mem_append.mp whole with fetched | body
    · obtain ⟨_,same⟩ := fetchReads_read _ _ _ fetched
      cases same
    · rcases cleanupEvents_mem (flatMap_part body) with ⟨-,same⟩ | put
      · exact Event.delete.inj same ▸ inside
      · obtain ⟨_,-,same⟩ := putOf_text put
        cases same
  obtain ⟨before,after,rfl⟩ := List.append_of_mem deleted
  intro there
  have put := deleted_gone there own
  exact outside key (List.mem_append_right _ (List.mem_cons_of_mem _ put)) run (losses_mine key inside)

theorem reads_live {events : List (Event String)} (reads : ∀ event ∈ events, ∃ key, event = .read key)
    (allowed : Allowed (Confined runs.own run) live events) {key : String} (read : .read key ∈ events) : live key := by
  induction events with
  | nil => cases read
  | cons first rest ih =>
    rcases List.mem_cons.mp read with rfl | later
    · exact allowed.1.1
    · obtain ⟨other,rfl⟩ := reads first List.mem_cons_self
      exact ih (fun event listed => reads event (List.mem_cons_of_mem _ listed)) allowed.2 later

theorem planOf_fetches {calls : List Call} (safe : none ∉ calls) : (planOf calls).fetches = calls.filterMap id := by
  induction calls with
  | nil => rfl
  | cons call rest ih =>
    cases call with
    | none => exact absurd List.mem_cons_self safe
    | some fetch =>
      rw [planOf,ih fun later => safe (List.mem_cons_of_mem _ later)]
      rfl

/-- A fetch to a path that is not there, and that no fetch before it has filled, is made. -/
theorem made_of_absent {before rest : List (Fetch String Object)} {fetch : Fetch String Object} {present : String → Bool}
    (absent : present fetch.path = false) (others : ∀ other ∈ before, other.path ≠ fetch.path) :
    fetch ∈ made present (before ++ fetch :: rest) := by
  induction before generalizing present with
  | nil =>
    rw [List.nil_append,made,if_neg (by simp [absent])]
    exact List.mem_cons_self
  | cons first later ih =>
    have next := fun other listed => others other (List.mem_cons_of_mem _ listed)
    rw [List.cons_append,made]
    split
    · exact ih absent next
    · refine List.mem_cons_of_mem _ (ih ?_ next)
      rw [Function.update_of_ne (Ne.symm (others first List.mem_cons_self))]
      exact absent

/-- The archive of the run is extracted on a node that has no directory for it. -/
theorem extracted_again {again : StoreAttempt} (directed : Directed params) {location : Reference}
    (named : params "run_location" = some location.json)
    (apart : (lossDirectories again.node params).get "oasis_files_dir" ≠
      (lossDirectories again.node params).get "model_run_dir")
    (absent : ∀ path, (lossDirectories again.node params).get "model_run_dir" = .string path → again.present path = false) :
    .read location.text ∈ fetchReads again.present (again.node.plan (.losses losses [params])) := by
  have safe : none ∉ lossesCalls again.node losses [params] :=
    RunsProceed.lossesCalls_safe again.node losses fun p listed => List.mem_singleton.mp listed ▸ directed
  obtain ⟨path,text⟩ := directed.texts again.node "model_run_dir" (by decide)
  have kept : (lossDirectories again.node params).get "run_location" = location.json := by
    rw [Params.get,lossDirectories_other _ _ (by decide),named,Option.getD_some]
  have target : (lossDirectories again.node params).get "model_run_dir" = .string path := by
    rw [Params.get,text,Option.getD_some]
  have split : ∃ inputs rest, lossesCalls again.node losses [params] =
      inputs ++ some ⟨path,.archive location.json again.node.lossesSubdir,false⟩ :: rest ∧
      ∀ other, some other ∈ inputs → (lossDirectories again.node params).get "oasis_files_dir" = .string other.path := by
    rw [lossesCalls_cons,lossCalls,kept,if_pos location.truthy,target]
    refine ⟨_,_,by simp only [lossesCalls,preparedEach,List.append_assoc,List.flatMap_nil,List.append_nil]; rfl,fun other listed => ?_⟩
    split at listed
    · exact (fetchTo_some (List.mem_singleton.mp listed)).1
    · cases listed
  obtain ⟨inputs,rest,calls,first⟩ := split
  have fetches : (again.node.plan (.losses losses [params])).fetches = inputs.filterMap id ++
      ⟨path,.archive location.json again.node.lossesSubdir,false⟩ :: rest.filterMap id := by
    rw [Run.plan,Run.calls,planOf_fetches safe,calls,List.filterMap_append]
    rfl
  refine List.mem_flatMap.mpr ⟨⟨path,.archive location.json again.node.lossesSubdir,false⟩,?_,List.mem_singleton_self _⟩
  rw [fetches]
  refine made_of_absent (absent path target) fun other listed same => apart ?_
  obtain ⟨call,member,equal⟩ := List.mem_filterMap.mp listed
  rw [first other (equal ▸ member),target,same]

/-- Once an attempt has deleted the directory, another attempt of the task on a node without
    the directory of the run reads an archive that is gone. -/
theorem cleanup_again (runs : Runs ρ) (run : ρ) (files : KeysKwargs) (losses : LossKwargs) (lookupChunks : Nat)
    (slug queue : String) (args : List Nat) (first again : StoreAttempt) (fits : Fits runs run false first)
    (params : Params) (directed : Directed params) (location : Reference)
    (placed : InSubdir runs.location (runs.losses run) location) (named : params "run_location" = some location.json)
    (apart : (lossDirectories again.node params).get "oasis_files_dir" ≠
      (lossDirectories again.node params).get "model_run_dir")
    (absent : ∀ path, (lossDirectories again.node params).get "model_run_dir" = .string path → again.present path = false)
    (live : String → Prop) (events : List (Event String))
    (part : events <+: attemptEvents runs.location files losses lookupChunks first
      ⟨"cleanup_losses_generation",slug,queue,args⟩ [params]) (deleted : ∃ gone, .delete gone ∈ events) :
    .read location.text ∈ fetchReads again.present (again.node.plan (.losses losses [params])) ∧
      ¬ Allowed (Confined runs.own run) (afterAll live events) (attemptEvents runs.location files losses lookupChunks again
        ⟨"cleanup_losses_generation",slug,queue,args⟩ [params]) := by
  obtain ⟨gone,deleted⟩ := deleted
  have read : .read location.text ∈ fetchReads again.present (again.node.plan (.losses losses [params])) :=
    extracted_again directed named apart absent
  refine ⟨read,fun allowed => ?_⟩
  rw [attemptEvents,taskOf_worker (by decide)] at allowed
  have there := reads_live (fetchReads_read _ _) (allowed_append.mp allowed).1 read
  exact deleted_part fits part deleted (inSubdir_inDir (runs.lossesDir run) placed) there

/-- The archive of a run. -/
def runArchive : Reference := small (remoteSubdir "" (nodes true).lossesSubdir)

def recorded : Params := LossInputs.Params.empty.put "run_location" runArchive.json

/-- The files and the run directory of a run are apart by default. -/
theorem recorded_apart : (lossDirectories (nodes true) recorded).get "oasis_files_dir" ≠
    (lossDirectories (nodes true) recorded).get "model_run_dir" := by
  have default (entry : String × String) (listed : entry ∈ RunPaths.lossesDirs) (other : entry.1 ≠ "run_location") :
      (lossDirectories (nodes true) recorded).get entry.1 = .string (joinPath (nodes true).lossesDir entry.2) := by
    rw [Params.get,RunPaths.lossDirectories_set _ _ entry listed,recorded,put_other _ _ other]
    rfl
  rw [default ("oasis_files_dir","input-data") (by decide) (by decide),
    default ("model_run_dir","run-data") (by decide) (by decide)]
  intro same
  have paths := Json.string.inj same
  rw [RunPaths.joinPath_relative _ (by decide),RunPaths.joinPath_relative _ (by decide)] at paths
  have chars := congrArg String.toList paths
  rw [String.toList_append,String.toList_append] at chars
  exact absurd (List.append_cancel_left chars) (by decide)

theorem cleanup_again_small :
    .read runArchive.text ∈ fetchReads (storing true).present ((storing true).node.plan (.losses {} [recorded])) ∧
      ¬ Allowed (Confined twoRuns.own true)
        (afterAll (fun _ => True) (attemptEvents "" {} {} 2 (storing true) ⟨"cleanup_losses_generation","","",[]⟩ [recorded]))
        (attemptEvents "" {} {} 2 (storing true) ⟨"cleanup_losses_generation","","",[]⟩ [recorded]) := by
  have directed : Directed recorded := by
    intro key listed
    rw [recorded,put_other _ _ fun same => absurd (same ▸ listed) (by decide)]
    exact ⟨.absent,RunParameters.absent_set⟩
  have deleted : .delete (inDir (remoteSubdir "" (twoRuns.losses true))) ∈ attemptEvents "" {} {} 2 (storing true)
      ⟨"cleanup_losses_generation","","",[]⟩ [recorded] := by
    have events : attemptEvents "" {} {} 2 (storing true) ⟨"cleanup_losses_generation","","",[]⟩ [recorded] = _ :=
      cleanupLosses_events (storing_fits true)
    rw [events]
    exact List.mem_append_right _ (List.mem_flatMap.mpr ⟨recorded,List.mem_singleton_self _,List.mem_cons_self⟩)
  exact cleanup_again twoRuns true {} {} 2 "" "" [] (storing true) (storing true) (storing_fits true) recorded directed
    runArchive ⟨"object",by decide,rfl⟩ (by rw [recorded,Params.put,Function.update_self]) recorded_apart (fun _ _ => rfl)
    (fun _ => True) _ (List.prefix_refl _) ⟨_,deleted⟩

end OasisPlatform.RepeatedCleanups
