import ModuleBuild.Config.Basic
import ModuleBuild.Proofs.Resolver.ImportMaps
import ModuleBuild.Proofs.Specifier.Canonical
/-!
What the entries of a configuration are resolved to. Addresses and the names of the import map stand as they are
written; everything else is a path, also where a name that ends in a slash stands for it.
-/

namespace ModuleBuild

namespace ResolveError

/-- The import that could not be resolved. -/
def written : ResolveError → String
  | unresolved written _ => written
  | invalidTarget written _ => written

end ResolveError

section Mapped

variable {aliases : List (String × String)} {patterns : List Pattern} {compileRemote : List String}

theorem readTarget_eq_error {text : String} {isExternal : Bool} {error found : ResolveError}
    (fails : readTarget text isExternal error = .error found) : found = error := by
  unfold readTarget at fails
  split at fails
  · cases fails
  · exact (Except.error.inj fails).symm

theorem written_of_mappedImport {importer? : Option Specifier} {written : String} {error : ResolveError}
    (fails : mappedImport aliases patterns compileRemote importer? written = .error error) :
    error.written = written := by
  unfold mappedImport at fails
  dsimp only at fails
  split at fails
  · rw [readTarget_eq_error fails, ResolveError.written]
  · split at fails <;> rw [readTarget_eq_error fails, ResolveError.written]

theorem mappedImport_eq_iff (importer? : Option Specifier) (first second : String) :
    mappedImport aliases patterns compileRemote importer? first =
        mappedImport aliases patterns compileRemote importer? second ↔
      first = second ∨ ∃ resolved, mappedImport aliases patterns compileRemote importer? first = .ok resolved ∧
        mappedImport aliases patterns compileRemote importer? second = .ok resolved := by
  constructor
  · intro same
    cases one : mappedImport aliases patterns compileRemote importer? first with
    | ok resolved => exact .inr ⟨resolved, rfl, same ▸ one⟩
    | error error =>
      rw [one] at same
      exact .inl ((written_of_mappedImport one).symm.trans (written_of_mappedImport same.symm))
  · rintro (rfl | ⟨resolved, one, two⟩)
    · rfl
    · rw [one, two]

theorem mappedImport_of_unruled {text : String} (included : patterns.any (·.isFoundIn text) = false)
    (unnamed : ∀ entry ∈ aliases, ¬ StandsFor entry.1 text) :
    mappedImport aliases patterns compileRemote none text = readTarget text false (.unresolved text none) := by
  have none : aliases.find? (fun entry => StandsFor entry.1 text) = none :=
    List.find?_eq_none.2 fun entry listed => by simpa using unnamed entry listed
  have same : Resolver.candidate Option.none text = text := rfl
  simp only [mappedImport, same, included, none, Bool.false_eq_true, if_false]

end Mapped

namespace Config

open Specifier

variable {config : Config}

theorem isAbsolute_resolve (rooted : Path.isAbsolute config.root = true) (path : List Char) :
    Path.isAbsolute (config.resolve path) = true := by
  rw [resolve, Path.isAbsolute_clean, Path.join]
  split
  · next either =>
    rcases Bool.or_eq_true_iff.1 either with absolute | empty
    · exact absolute
    · rw [List.isEmpty_iff.1 empty] at rooted
      cases rooted
  · split
    · rwa [isAbsolute_append (by rintro empty; rw [empty] at rooted; cases rooted)]
    · rwa [isAbsolute_append (by rintro empty; rw [empty] at rooted; cases rooted)]

/-- An entry stands as it is written if it is an address, a name of the import map, or a path that leads from
the root to itself. -/
theorem entrySpecifier_eq_self_iff (written : String) :
    config.entrySpecifier written = written ↔ isRemoteText written.toList = true ∨
      config.importMap.contains written = true ∨ config.resolve written.toList = written.toList := by
  rw [entrySpecifier, ← or_assoc, ← Bool.or_eq_true_iff]
  split
  · next passes => simp [passes]
  · next taken =>
    rw [or_iff_right taken]
    refine ⟨fun same => ?_, fun same => by rw [same, String.ofList_toList]⟩
    simpa using congrArg String.toList same

/-- An entry is resolved like the text that is written for it if and only if it stands as it is written, or both
texts are resolved to one module. A text that does not stand as it is written is a path, and where no rule is
about the path it is the file at it, whatever name of the import map stands for the text. -/
theorem resolve_entrySpecifier_iff {resolver : Resolver} (built : config.resolver = .ok resolver)
    (written : String) :
    ∃ patterns, config.external.mapM Pattern.read? = some patterns ∧
      let entry := config.entrySpecifier written
      let mapped := mappedImport config.importMap.entries patterns config.compileRemote none
      (resolver.resolve none entry = resolver.resolve none written ↔
        (isRemoteText written.toList = true ∨ config.importMap.contains written = true ∨
          config.resolve written.toList = written.toList) ∨
        ∃ resolved, mapped entry = .ok resolved ∧ mapped written = .ok resolved) ∧
      (isRemoteText written.toList = false → config.importMap.contains written = false →
        Path.isAbsolute config.root = true → patterns.any (·.isFoundIn entry) = false →
        (∀ name ∈ config.importMap.keys, ¬ StandsFor name entry) →
        resolver.resolve none entry =
          .ok ⟨.ofChars (cleaned (Text.trimmed (config.resolve written.toList))), false⟩) := by
  obtain ⟨patterns, readable, resolves⟩ := Resolver.resolve_of_built built
  refine ⟨patterns, readable, ?_, fun address name rooted included unnamed => ?_⟩
  · rw [resolves, resolves, mappedImport_eq_iff, entrySpecifier_eq_self_iff]
  · have path : config.entrySpecifier written = String.ofList (config.resolve written.toList) := by
      rw [entrySpecifier, address, name]
      rfl
    rw [resolves, mappedImport_of_unruled included fun entry listed =>
      unnamed entry.1 (List.mem_map_of_mem listed), readTarget, path,
      parse_of_absolute (isAbsolute_resolve rooted _)]

/-! ## A name for all texts below it -/

/-- A map with one name, for all that begins with it. -/
def aliased : Config where
  root := "/proj".toList
  importMap := OrderedMap.empty.insert "@/" "/src/"

theorem resolver_aliased : ∃ resolver, aliased.resolver = .ok resolver := by
  have entries : ∀ entry ∈ aliased.importMap.entries, (Pattern.read? (Rule.nameSource entry.1)).isSome := by
    intro entry listed
    rw [@Rule.isSome_read?_nameSource entry.1 "" false]
    revert entry
    decide +kernel
  exact ⟨_, @Resolver.ofImportMap_eq _ _ _ [] rfl entries⟩

theorem entry_below_name_is_a_path :
    ∃ resolver, aliased.resolver = .ok resolver ∧ StandsFor "@/" "@/a.js" ∧
      resolver.resolve none "@/a.js" = .ok ⟨⟨"/src/a.js"⟩, false⟩ ∧
      resolver.resolve none (aliased.entrySpecifier "@/a.js") = .ok ⟨⟨"/proj/@/a.js"⟩, false⟩ := by
  obtain ⟨resolver, built⟩ := resolver_aliased
  obtain ⟨patterns, readable, resolves⟩ := Resolver.resolve_of_built built
  obtain rfl : patterns = [] := by
    cases readable
    rfl
  refine ⟨resolver, built, by decide, ?_, ?_⟩ <;> rw [resolves] <;> decide +kernel

theorem resolve_entrySpecifier_iff_aliased :
    ∃ resolver, aliased.resolver = .ok resolver ∧
      resolver.resolve none (aliased.entrySpecifier "@/") = resolver.resolve none "@/" ∧
      resolver.resolve none (aliased.entrySpecifier "@/a.js") = .ok ⟨⟨"/proj/@/a.js"⟩, false⟩ := by
  obtain ⟨resolver, built⟩ := resolver_aliased
  obtain ⟨patterns, readable, alike, -⟩ := resolve_entrySpecifier_iff built "@/"
  obtain ⟨patterns', readable', -, taken⟩ := resolve_entrySpecifier_iff built "@/a.js"
  obtain rfl : patterns' = [] := by
    cases readable'
    rfl
  refine ⟨resolver, built, alike.2 (.inl (.inr (.inl (by decide +kernel)))), ?_⟩
  exact taken (by decide +kernel) (by decide +kernel) rfl rfl (by decide +kernel)

end Config

end ModuleBuild
