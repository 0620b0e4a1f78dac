import OasisPlatform.AnalysisDeletion

/-!
Copying an analysis, after any run of the system. The copy has a settings file of its own and
no other files, but it keeps the chunking options, which belong to one analysis; and settings
in the request need the creator of the copy, which has been taken away. In all other cases
both analyses stand for themselves (`copy_iff`).
-/
namespace OasisPlatform.AnalysisCopies
open SharedRow Models AnalysisTasks AnalysisRows TaskFiles FilePlaces AnalysisDeletion
open AnalysisViews (Attrs)
set_option linter.unusedSimpArgs false

/-- A new analysis beside the one that is copied; deleting one leaves the other as it is. -/
structure Independent (store after : Store) (entry new : Entry) : Prop where
  fresh : new.id ∉ store.analyses.map Entry.id
  status : new.row .status = .new
  stored : new ∈ after.analyses
  source : Intact store after entry
  apart : ∀ target ∈ entry.targets, target ∉ new.targets
  sourceDeleted : ∀ loading, Intact after ((after.delete loading entry.id).getD after) new
  copyDeleted : ∀ loading, Intact after ((after.delete loading new.id).getD after) entry

theorem copied_status (keys : NewKeys) (user : UserId) (attrs : Attrs) (entry : Entry) :
    (copied keys user attrs entry).row .status = .new := by
  simp [copied,inserted,Entry.assign,Entry.copy]

/-- The copy action succeeds, with two analyses that have nothing in common, exactly when the analysis
    has no chunking options of its own and the request has no settings. -/
theorem copy_iff {system : System} (reachable : Reachable system) {entry : Entry}
    (listed : entry ∈ system.store.analyses) (keys : NewKeys)
    (newAnalysis : keys.analysis ∉ system.store.analyses.map Entry.id)
    (newFile : keys.file ∉ system.store.files.map RelatedFile.id) (unmade : system.Unmade keys.file) (user : UserId)
    (attrs : Attrs) :
    (∃ new after, system.store.copy keys user (.ok attrs) entry.id = (.created new,after) ∧
        Independent system.store after entry new) ↔
      entry.chunkingOptions = none ∧ attrs.settings = none := by
  have sound := sound_of_reachable reachable
  obtain ⟨files,ids,copying⟩ := copy_eq sound.constraints listed newAnalysis newFile user (.ok attrs)
  constructor
  · rintro ⟨new,after,created,_⟩
    rw [copying] at created
    by_cases own : entry.chunkingOptions = none
    · rw [if_pos own] at created
      by_cases given : attrs.settings.isSome = true
      · simp [given] at created
      · exact ⟨own,by simpa using given⟩
    · rw [if_neg own] at created
      cases created
  · rintro ⟨own,given⟩
    rw [if_pos own] at copying
    simp only [given,Option.isSome_none,Bool.false_eq_true,if_false] at copying
    refine ⟨_,_,copying,?_⟩
    have later := sound_of_reachable (reachable.step (.copy keys user (.ok attrs) entry.id newAnalysis newFile unmade))
    rw [copying] at later
    have source : entry ∈ system.store.analyses ++ [copied keys user attrs entry] := List.mem_append_left _ listed
    have stored : copied keys user attrs entry ∈ system.store.analyses ++ [copied keys user attrs entry] := by simp
    have different : (copied keys user attrs entry).id ≠ entry.id :=
      fun same => newAnalysis (List.mem_map.mpr ⟨entry,listed,same.symm⟩)
    refine ⟨newAnalysis,copied_status keys user attrs entry,stored,?_,?_,?_,?_⟩
    · exact ⟨source,later.constraints.foreignKeys entry source,fun file among _ => List.mem_append_left _ among⟩
    · exact fun target named => later.own source stored different named
    · exact delete_intact later source stored different
    · exact delete_intact later stored source different.symm

theorem settings_copied : ∃ store new after, store.copy ⟨2,9⟩ 1 (.ok {}) withSettings.id = (.created new,after) ∧
    Independent store after withSettings new := by
  obtain ⟨system,reachable,same,-,unmade⟩ := withSettings_reachable
  have listed : withSettings ∈ system.store.analyses := by simp [same]
  exact ⟨system.store,(copy_iff reachable listed ⟨2,9⟩ (by rw [same]; decide) (by rw [same]; decide) unmade 1 {}).mpr
    ⟨rfl,rfl⟩⟩

def withOptions : Entry := { newEntry with chunkingOptions := some 3 }

theorem withOptions_reachable : ∃ system, Reachable system ∧ system.store = ⟨[withOptions],[logFile],[3]⟩ := by
  have stored := withLog_reachable.step (.storeOptions 3 (by decide))
  have saving : (⟨[newEntry],[logFile],[3]⟩ : Store).save withOptions (Analysis.save (load newAnalysis)) =
      some ⟨[withOptions],[logFile],[3]⟩ := save_single rfl (by decide)
  have saved := stored.alone rfl (List.mem_singleton_self newEntry) (.other withOptions [Analysis.save (load newAnalysis)])
    ⟨rfl,fun save saved field file held => by
      rw [List.mem_singleton.mp saved] at held
      exact held⟩ (fun _ _ makes => makes.elim) rfl saving
  exact ⟨_,saved,rfl⟩

/-- An analysis with chunking options cannot be copied. -/
theorem options_not_copied : ∃ system, Reachable system ∧ ∃ entry ∈ system.store.analyses,
    ∃ after, system.store.copy ⟨2,9⟩ 1 (.ok {}) entry.id = (.raised,after) := by
  obtain ⟨system,reachable,same⟩ := withOptions_reachable
  have listed : withOptions ∈ system.store.analyses := by simp [same]
  have constraints := (sound_of_reachable reachable).constraints
  obtain ⟨files,_,copying⟩ := copy_eq constraints listed (show NewKeys.analysis ⟨2,9⟩ ∉ _ by rw [same]; decide)
    (by rw [same]; decide) 1 (.ok {})
  exact ⟨system,reachable,withOptions,listed,_,copying⟩

end OasisPlatform.AnalysisCopies
