import Mathlib
import ModuleBuild.Config.Check
import ModuleBuild.Proofs.Bundle.Chunks
import ModuleBuild.Proofs.Bundle.Writing
/-!
Names of chunks. Entries from a configuration leave the name of the shared chunk alone, and entries for dynamic
imports take names that no entry has. These do not know the shared chunk, though, so one of them can be called
like it.
-/

namespace ModuleBuild

theorem Config.checkEntries_ok {taken : List String} {entries : List Config.Entry}
    (passes : Config.checkEntries taken entries = .ok ()) :
    (entries.map (·.name)).Nodup ∧ ∀ entry ∈ entries, entry.name ∉ taken ∧
      entry.name ≠ Config.reservedName ∧ Config.isEntryName entry.name := by
  induction entries generalizing taken with
  | nil => simp
  | cons entry rest ih =>
    rw [Config.checkEntries] at passes
    split_ifs at passes with spelled reserved repeated hollow
    obtain ⟨nodup, others⟩ := ih passes
    refine ⟨List.nodup_cons.2 ⟨?_, nodup⟩, List.forall_mem_cons.2 ⟨⟨repeated, reserved, by simpa using spelled⟩, ?_⟩⟩
    · rw [List.mem_map]
      rintro ⟨other, member, same⟩
      exact (others other member).1 (same ▸ List.mem_cons_self)
    · intro other member
      obtain ⟨free, rest⟩ := others other member
      exact ⟨fun known => free (List.mem_cons_of_mem _ known), rest⟩

namespace Bundle

variable {graph : ModuleGraph} {given : List EntryPoint}

theorem analyze_scheduled (graph : ModuleGraph) (distinct : (given.map (·.name)).Nodup) :
    ∃ made targets done names roots, Scheduled graph given made targets done [] names roots ∧
      Visited graph done (analyze graph given) :=
  analyzeFrom_ok _ _ _ _ (visited_nil graph) (scheduled_start graph distinct)

section

variable {made : List EntryPoint} {targets roots : List Specifier} {done : List (EntryPoint × EntryKind)}
  {names : List String} {analysis : Analysis} {name : String}

theorem Scheduled.map_name (scheduled : Scheduled graph given made targets done [] names roots)
    (visited : Visited graph done analysis) :
    analysis.entries.map (·.name) = given.map (·.name) ++ made.map (·.name) := by
  have same := congrArg (List.map (·.1)) visited.map_entries
  have queue := scheduled.queue
  rw [List.append_nil] at queue
  simpa [queue, Function.comp_def] using same

theorem Scheduled.mem_asyncEntries (scheduled : Scheduled graph given made targets done [] names roots)
    (visited : Visited graph done analysis) :
    (∃ entry ∈ analysis.asyncEntries, entry.name = name) ↔ name ∈ made.map (·.name) := by
  have same := congrArg (List.map (·.1)) (visited.filter_kind .async)
  have queue := scheduled.queue
  rw [List.append_nil] at queue
  rw [queue] at same
  have names : analysis.asyncEntries.map (·.name) = made.map (·.name) := by
    simpa [List.filter_map, Function.comp_def, Analysis.asyncEntries] using same
  rw [← names, List.mem_map]

/-- A name without a hyphen that is not given goes to a dynamic import exactly if a file is called like it. -/
theorem Scheduled.asyncEntries_stem (scheduled : Scheduled graph given made targets done [] names roots)
    (visited : Visited graph done analysis) (plain : '-' ∉ name.toList)
    (free : name ∉ given.map (·.name)) :
    (∃ entry ∈ analysis.asyncEntries, entry.name = name) ↔
      ∃ entry ∈ analysis.asyncEntries, ∃ target, analysis.modulesOf entry = [target] ∧
        chunkStem target = name := by
  rw [scheduled.mem_asyncEntries visited, scheduled.stems name plain free]
  calc (∃ target ∈ targets, chunkStem target = name) ↔
        ∃ modules ∈ targets.map ([·]), ∃ target, modules = [target] ∧ chunkStem target = name := by simp
    _ ↔ _ := by
      rw [← (partitions_of_scheduled visited scheduled).made]
      simp only [List.mem_map, exists_exists_and_eq_and]

end

theorem map_name_plans (analysis : Analysis) :
    (plans analysis).map (·.name) =
      (if analysis.sharedModules = [] then [] else [sharedName]) ++
        (analysis.entries.map (·.name)).filter fun name => !(analysis.entryModules name).isEmpty := by
  rw [plans, List.filter_cons, List.filter_map, List.filter_map, apply_ite (List.map _)]
  by_cases none : analysis.sharedModules = []
  all_goals simp [none, Function.comp_def]

theorem nodup_names_plans {analysis : Analysis} (apart : (analysis.entries.map (·.name)).Nodup) :
    ((plans analysis).map (·.name)).Nodup ↔
      ¬ (analysis.sharedModules ≠ [] ∧ ∃ entry ∈ analysis.entries, entry.name = sharedName ∧
        analysis.entryModules entry.name ≠ []) := by
  have rest := apart.filter fun name => !(analysis.entryModules name).isEmpty
  have takes : sharedName ∈ (analysis.entries.map (·.name)).filter
        (fun name => !(analysis.entryModules name).isEmpty) ↔
      ∃ entry ∈ analysis.entries, entry.name = sharedName ∧ analysis.entryModules entry.name ≠ [] := by
    rw [List.mem_filter, List.mem_map]
    constructor
    · rintro ⟨⟨entry, member, same⟩, filled⟩
      exact ⟨entry, member, same, by simpa [same] using filled⟩
    · rintro ⟨entry, member, same, filled⟩
      exact ⟨⟨entry, member, same⟩, by simpa [same] using filled⟩
  rw [map_name_plans, ← takes]
  by_cases unshared : analysis.sharedModules = []
  · rw [if_pos unshared, List.nil_append]
    exact iff_of_true rest fun both => both.1 unshared
  · rw [if_neg unshared, List.singleton_append, List.nodup_cons]
    exact ⟨fun both taken => both.1 taken.2, fun free => ⟨fun taken => free ⟨unshared, taken⟩, rest⟩⟩

theorem nodup_names_unshared {analysis : Analysis} (apart : (analysis.entries.map (·.name)).Nodup) :
    (((plans analysis).map (·.name)).filter (· ≠ sharedName)).Nodup := by
  rw [map_name_plans, List.filter_append]
  refine List.Nodup.append ?_ ((apart.filter _).filter _) ?_
  all_goals split_ifs <;> simp

/-- Chunks have names of their own, except that a module whose file is called like the shared chunk takes its
name when it is imported dynamically. -/
theorem chunkNames_nodup_iff {options : BundleOptions} {entries : List Config.Entry} {desk after : Desk}
    {output : BundleOutput} (valid : Config.checkEntries [] entries = .ok ())
    (asked : given.map (·.name) = entries.map (·.name))
    (written : bundle options graph given desk = (.ok output, after)) :
    ((output.manifest.chunks.map (·.name)).Nodup ↔
      ¬ (output.analysis.sharedModules ≠ [] ∧ ∃ entry ∈ output.analysis.asyncEntries,
        entry.name = sharedName ∧ output.analysis.entryModules entry.name ≠ [])) ∧
    ((output.manifest.chunks.map (·.name)).filter (· ≠ sharedName)).Nodup ∧
    ((∃ entry ∈ output.analysis.asyncEntries, entry.name = sharedName) ↔
      ∃ entry ∈ output.analysis.asyncEntries, ∃ target,
        output.analysis.modulesOf entry = [target] ∧ chunkStem target = sharedName) := by
  obtain ⟨distinct, named⟩ := Config.checkEntries_ok valid
  rw [← asked] at distinct
  have free : sharedName ∉ given.map (·.name) := by
    rw [asked, List.mem_map]
    rintro ⟨entry, member, same⟩
    exact (named entry member).2.1 same
  obtain ⟨ready, middle, -, isAnalysis, -, stored, -⟩ := bundle_ok written
  have names : output.manifest.chunks.map (·.name) = (plans output.analysis).map (·.name) := by
    rw [← writeChunks_plans stored, List.map_map]
    rfl
  rw [names, isAnalysis]
  obtain ⟨made, targets, done, taken, roots, scheduled, visited⟩ := analyze_scheduled graph distinct
  have apart := (partitions_of_scheduled visited scheduled).names
  refine ⟨?_, nodup_names_unshared apart, scheduled.asyncEntries_stem visited (by decide) free⟩
  rw [nodup_names_plans apart]
  refine not_congr (and_congr_right fun _ => ?_)
  constructor
  · rintro ⟨entry, member, same, filled⟩
    -- no given entry has the name, so one was made for it
    have isNamed : sharedName ∈ (analyze graph given).entries.map (·.name) :=
      List.mem_map.2 ⟨entry, member, same⟩
    rw [scheduled.map_name visited, List.mem_append, or_iff_right free,
      ← scheduled.mem_asyncEntries visited] at isNamed
    obtain ⟨made, member', same'⟩ := isNamed
    exact ⟨made, member', same', by rwa [same', ← same]⟩
  · rintro ⟨entry, member, rest⟩
    exact ⟨entry, List.mem_of_mem_filter member, rest⟩

/-- Two entries that start from the same module, which imports one that is called like the shared chunk when it
is asked for. -/
def pages : List Config.Entry :=
  [{ name := "left", modules := ["/both.js"] }, { name := "right", modules := ["/both.js"] }]

def pageEntries : List EntryPoint :=
  [{ name := "left", modules := [⟨"/both.js"⟩] }, { name := "right", modules := [⟨"/both.js"⟩] }]

def compiledAs (name : String) (dependencies : List DependencyEdge) : ModuleRecord :=
  { ModuleRecord.awaiting ⟨"/" ++ name ++ ".js"⟩ with
    sourceHash := name, contentHash := name, dependencies
    output? := some { key := name, length := 1 }, state := .ready }

def crossing : ModuleGraph :=
  (ModuleGraph.empty.insert (compiledAs "shared" [])).insert
    (compiledAs "both" [{ target := ⟨"/shared.js"⟩, isDynamic := true }])

def crossingDesk : Desk where
  store := { blobs := (OrderedMap.empty.insert "both" [49]).insert "shared" [50] }
  files := .empty

theorem check_crossing : check crossing pageEntries = .ok () := by cbv

theorem plans_crossing : plans (analyze crossing pageEntries) =
    [{ name := "shared", kind := .sync, modules := [⟨"/both.js"⟩] },
      { name := "shared", kind := .async, modules := [⟨"/shared.js"⟩] }] := by cbv

theorem bundle_crossing : ∃ output after,
    bundle { directory := ['/'] } crossing pageEntries crossingDesk = (.ok output, after) ∧
      output.manifest.chunks.map (·.name) = [sharedName, sharedName] := by
  have run : (bundle { directory := ['/'] } crossing pageEntries crossingDesk).1.toOption.map
      (fun output => output.manifest.chunks.map (·.name)) = some [sharedName, sharedName] := by
    rw [bundle, check_crossing]
    dsimp only
    rw [plans_crossing]
    decide +kernel
  generalize bundle { directory := ['/'] } crossing pageEntries crossingDesk = result at run ⊢
  obtain ⟨_ | output, after⟩ := result
  · cases run
  · exact ⟨output, after, rfl, Option.some.inj run⟩

/-- The shared chunk and the one for the dynamic import get the same name. -/
theorem chunkNames_not_nodup : Config.checkEntries [] pages = .ok () ∧
    pageEntries.map (·.name) = pages.map (·.name) ∧
    ∃ output after, bundle { directory := ['/'] } crossing pageEntries crossingDesk = (.ok output, after) ∧
      ¬ (output.manifest.chunks.map (·.name)).Nodup := by
  obtain ⟨output, after, written, names⟩ := bundle_crossing
  exact ⟨by decide, by decide, output, after, written, by rw [names]; decide⟩

theorem chunkNames_nodup_iff_crossing : Config.checkEntries [] pages = .ok () ∧
    pageEntries.map (·.name) = pages.map (·.name) ∧
    ∃ output after, bundle { directory := ['/'] } crossing pageEntries crossingDesk = (.ok output, after) ∧
      output.analysis.sharedModules ≠ [] ∧
      ∃ entry ∈ output.analysis.asyncEntries, ∃ target, output.analysis.modulesOf entry = [target] ∧
        chunkStem target = sharedName := by
  obtain ⟨output, after, written, names⟩ := bundle_crossing
  have valid : Config.checkEntries [] pages = .ok () := by decide
  have asked : pageEntries.map (·.name) = pages.map (·.name) := by decide
  obtain ⟨distinct, -, stems⟩ := chunkNames_nodup_iff valid asked written
  have repeated : ¬ (output.manifest.chunks.map (·.name)).Nodup := by rw [names]; decide
  rw [distinct, not_not] at repeated
  obtain ⟨shared, entry, member, named, -⟩ := repeated
  exact ⟨valid, asked, output, after, written, shared, stems.1 ⟨entry, member, named⟩⟩

end Bundle

end ModuleBuild
