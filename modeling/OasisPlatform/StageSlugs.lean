import Std.Data.String.ToNat
import OasisPlatform.SubTasks

/-!
The slugs of the sub-tasks. Those of a stage are pairwise distinct, and so are those of both
stages together: the chunks are numbered, and no other slug begins as theirs do.
-/
namespace OasisPlatform.StageSlugs
open OasisPlatform.SubTasks
set_option linter.unusedSimpArgs false

def chunkSlug (slug : String) (idx : Nat) : String := s!"{slug}-{idx}"

theorem chunkSlug_toList (slug : String) (idx : Nat) :
    (chunkSlug slug idx).toList = slug.toList ++ '-' :: (Nat.repr idx).toList := by
  simp [chunkSlug,toString]

theorem chunkSlug_injective {slug : String} {i j : Nat} (same : chunkSlug slug i = chunkSlug slug j) : i = j := by
  have texts := congrArg String.toList same
  rw [chunkSlug_toList,chunkSlug_toList,List.append_cancel_left_eq,List.cons.injEq] at texts
  exact Nat.repr_injective (String.toList_injective texts.2)

theorem chunkSlug_begins (slug : String) (idx : Nat) : slug.toList <+: (chunkSlug slug idx).toList := by
  rw [chunkSlug_toList]
  exact List.prefix_append ..

def slugs (tasks : List StageTask) : List String := tasks.map (·.slug)

@[simp] theorem slugs_append (tasks others : List StageTask) : slugs (tasks ++ others) = slugs tasks ++ slugs others :=
  List.map_append

theorem slugs_chunkTasks (name slug queue : String) (numChunks : Nat) :
    slugs (chunkTasks name slug queue numChunks) = (List.range numChunks).map (chunkSlug slug) := by
  simp [slugs,chunkTasks,chunkSlug]

theorem chunkSlugs_nodup (slug : String) (numChunks : Nat) : ((List.range numChunks).map (chunkSlug slug)).Nodup :=
  List.nodup_range.map fun _ _ => chunkSlug_injective

/-- Slugs that do not begin as the chunks' do, put around the chunks. -/
theorem around_chunks_nodup {before after : List String} {slug : String} (numChunks : Nat)
    (distinct : (before ++ after).Nodup) (other : ∀ s ∈ before ++ after, ¬slug.toList <+: s.toList) :
    (before ++ (List.range numChunks).map (chunkSlug slug) ++ after).Nodup := by
  have apart (s : String) (listed : s ∈ before ++ after) (idx : Nat) : s ≠ chunkSlug slug idx := by
    rintro rfl
    exact other _ listed (chunkSlug_begins slug idx)
  rw [List.nodup_append] at distinct
  obtain ⟨first,last,between⟩ := distinct
  refine List.nodup_append.mpr ⟨List.nodup_append.mpr ⟨first,chunkSlugs_nodup slug numChunks,?_⟩,last,?_⟩
  · intro s listed t chunk
    obtain ⟨idx,-,rfl⟩ := List.mem_map.mp chunk
    exact apart s (List.mem_append_left _ listed) idx
  · intro s listed t later
    rcases List.mem_append.mp listed with early | chunk
    · exact between s early t later
    · obtain ⟨idx,-,rfl⟩ := List.mem_map.mp chunk
      exact (apart t (List.mem_append_right _ later) idx).symm

theorem inputsGeneration_slugs (queue : String) (numChunks : Nat) :
    slugs (inputsGenerationTasks queue numChunks) = ["prepare-input-generation-params","pre-analysis-hook"] ++
      (List.range numChunks).map (chunkSlug "prepare-keys-file") ++
      ["collect-keys","write-input-files","record-input-files","cleanup-input-generation"] := by
  rw [inputsGenerationTasks,slugs_append,slugs_append,slugs_chunkTasks]
  rfl

theorem lossGeneration_slugs (queue : String) (numChunks : Nat) :
    slugs (lossGenerationTasks queue numChunks) =
      ["prepare-losses-generation-params","prepare-losses-generation-directory"] ++
      (List.range numChunks).map (chunkSlug "generate-losses-chunk") ++
      ["generate-losses-output","record-losses-files","cleanup-losses-generation"] := by
  rw [lossGenerationTasks,slugs_append,slugs_append,slugs_chunkTasks]
  rfl

theorem inputsGeneration_nodup (queue : String) (numChunks : Nat) :
    (slugs (inputsGenerationTasks queue numChunks)).Nodup := by
  rw [inputsGeneration_slugs]
  exact around_chunks_nodup numChunks (by decide) (by decide)

theorem lossGeneration_nodup (queue : String) (numChunks : Nat) :
    (slugs (lossGenerationTasks queue numChunks)).Nodup := by
  rw [lossGeneration_slugs]
  exact around_chunks_nodup numChunks (by decide) (by decide)

/-- The chunks of two stages begin in different ways. -/
theorem chunkSlug_ne {slug other : String} (apart : ¬slug.toList <+: other.toList ∧ ¬other.toList <+: slug.toList)
    (i j : Nat) : chunkSlug slug i ≠ chunkSlug other j := by
  intro same
  have first := same ▸ chunkSlug_begins slug i
  rcases List.prefix_or_prefix_of_prefix first (chunkSlug_begins other j) with shorter | longer
  · exact apart.1 shorter
  · exact apart.2 longer

theorem mem_around {before after : List String} {slug s : String} {numChunks : Nat}
    (listed : s ∈ before ++ (List.range numChunks).map (chunkSlug slug) ++ after) :
    s ∈ before ++ after ∨ ∃ idx, s = chunkSlug slug idx := by
  rcases List.mem_append.mp listed with early | late
  · rcases List.mem_append.mp early with early | chunk
    · exact .inl (List.mem_append_left _ early)
    · obtain ⟨idx,-,rfl⟩ := List.mem_map.mp chunk
      exact .inr ⟨idx,rfl⟩
  · exact .inl (List.mem_append_right _ late)

/-- Two stages whose other slugs differ, where no slug of one begins as the chunks of the other. -/
theorem around_chunks_apart {before after before' after' : List String} {slug slug' : String} (m n : Nat)
    (fixed : ∀ s ∈ before ++ after, s ∉ before' ++ after' ∧ ¬slug'.toList <+: s.toList)
    (other : ∀ s ∈ before' ++ after', ¬slug.toList <+: s.toList)
    (apart : ¬slug.toList <+: slug'.toList ∧ ¬slug'.toList <+: slug.toList) :
    ∀ s ∈ before ++ (List.range m).map (chunkSlug slug) ++ after,
      ∀ t ∈ before' ++ (List.range n).map (chunkSlug slug') ++ after', s ≠ t := by
  rintro s listed t listed' rfl
  rcases mem_around listed with first | ⟨i,rfl⟩
  · rcases mem_around listed' with second | ⟨j,rfl⟩
    · exact (fixed s first).1 second
    · exact (fixed _ first).2 (chunkSlug_begins slug' j)
  · rcases mem_around listed' with second | ⟨j,same⟩
    · exact other _ second (chunkSlug_begins slug i)
    · exact chunkSlug_ne apart i j same

theorem stages_nodup (inputsQueue lossesQueue : String) (lookupChunks lossChunks : Nat) :
    (slugs (inputsGenerationTasks inputsQueue lookupChunks ++ lossGenerationTasks lossesQueue lossChunks)).Nodup := by
  rw [slugs_append,List.nodup_append]
  refine ⟨inputsGeneration_nodup inputsQueue lookupChunks,lossGeneration_nodup lossesQueue lossChunks,?_⟩
  rw [inputsGeneration_slugs,lossGeneration_slugs]
  exact around_chunks_apart lookupChunks lossChunks (by decide) (by decide) (by decide)

end OasisPlatform.StageSlugs
