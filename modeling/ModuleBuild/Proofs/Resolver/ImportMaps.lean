import ModuleBuild.Proofs.Pattern.Anchored
import ModuleBuild.Proofs.Pattern.Escaped
import ModuleBuild.Resolver
/-!
What import maps mean. Each name of a map becomes a rule with an escaped pattern; together with the external patterns
in front, the rules do to an import what the map says without them: the first name that stands for the import decides.
-/

namespace ModuleBuild

/-! ## Meaning -/

/-- Whether a name in an import map stands for a text: for itself, or, if the name ends in a slash, for all texts
that begin with it. -/
def StandsFor (name text : String) : Prop :=
  text = name ∨ name.toList.getLast? = some '/' ∧ name.toList <+: text.toList

instance (name text : String) : Decidable (StandsFor name text) :=
  inferInstanceAs (Decidable (_ ∨ _))

/-- Whether modules at a target are left alone: those at an address that is not to be compiled. -/
def IsLeftAlone (compileRemote : List String) (target : String) : Prop :=
  ("https://".toList <+: target.toList ∨ "http://".toList <+: target.toList) ∧
    ∀ start ∈ compileRemote, ¬ start.toList <+: target.toList

instance (compileRemote : List String) (target : String) : Decidable (IsLeftAlone compileRemote target) :=
  inferInstanceAs (Decidable (_ ∧ _))

/-- Reads a text as a specifier, with an error of its own if it is none. -/
def readTarget (text : String) (isExternal : Bool) (error : ResolveError) : Except ResolveError Resolved :=
  match Specifier.parse text with
  | .ok specifier => .ok { specifier, isExternal }
  | .error _ => .error error

/-- What an import is resolved to under external patterns and an import map. -/
def mappedImport (aliases : List (String × String)) (externals : List Pattern) (compileRemote : List String)
    (importer? : Option Specifier) (written : String) : Except ResolveError Resolved :=
  let candidate := Resolver.candidate importer? written
  if externals.any (·.isFoundIn candidate) then
    readTarget candidate true (.invalidTarget written candidate)
  else
    match aliases.find? (StandsFor ·.1 candidate) with
    | some (name, target) =>
      let renamed := target ++ String.ofList (candidate.toList.drop name.toList.length)
      readTarget renamed (IsLeftAlone compileRemote target) (.invalidTarget written renamed)
    | none => readTarget candidate false (.unresolved written importer?)

/-! ## Rules -/

namespace Rule

variable {name target text : String} {isExternal : Bool}

theorem isFoundIn_rename : (rename name target isExternal).pattern.isFoundIn text = true ↔ StandsFor name text := by
  unfold rename StandsFor
  dsimp only
  split
  · next slash =>
    rw [Pattern.isFoundIn_startingWith]
    refine ⟨fun begins => .inr ⟨slash, begins⟩, ?_⟩
    rintro (rfl | ⟨-, begins⟩)
    · exact List.prefix_refl _
    · exact begins
  · next plain => simp only [Pattern.isFoundIn_exactly, plain, false_and, or_false]

theorem renamed?_rename (stands : StandsFor name text) :
    ((rename name target isExternal).outcome text).renamed? =
      some (target ++ String.ofList (text.toList.drop name.toList.length)) := by
  have begins : name.toList <+: text.toList := by
    obtain rfl | ⟨-, begins⟩ := stands
    · exact List.prefix_refl _
    · exact begins
  obtain ⟨rest, whole⟩ := begins
  have stripped : Text.strip? name.toList text.toList = some rest := Text.strip?_eq_some_iff.2 whole.symm
  have dropped : text.toList.drop name.toList.length = rest := by rw [← whole, List.drop_left]
  simp only [rename, stripped, dropped, Option.getD_some, String.ofList_append, String.ofList_toList]

/-- The pattern of a name as a text. -/
def nameSource (name : String) : String :=
  if name.toList.getLast? = some '/' then String.ofList ('^' :: Pattern.escape name.toList)
  else String.ofList ('^' :: Pattern.escape name.toList ++ ['$'])

/-- The pattern of a rule that renames is what is read from its text, if this can be read at all. -/
theorem read?_nameSource {pattern : Pattern} (same : pattern = (rename name target isExternal).pattern) :
    Pattern.read? (nameSource name) = if pattern.expr.isWithinLimit then some pattern else none := by
  subst same
  unfold rename nameSource
  dsimp only
  split
  · exact Pattern.read?_startingWith name
  · exact Pattern.read?_exactly name

theorem isSome_read?_nameSource :
    (Pattern.read? (nameSource name)).isSome = (rename name target isExternal).pattern.expr.isWithinLimit := by
  rw [read?_nameSource (rfl : _ = (rename name target isExternal).pattern), Bool.eq_iff_iff, Option.isSome_ite]

theorem ofEntry_of_read? (readable : (Pattern.read? (nameSource name)).isSome) :
    ofEntry name target isExternal = .ok (rename name target isExternal) := by
  rw [isSome_read?_nameSource] at readable
  rw [ofEntry, if_pos readable]

end Rule

namespace Resolver

variable {aliases : List (String × String)} {externals compileRemote : List String} {patterns : List Pattern}

theorem mapM_external (readable : externals.mapM Pattern.read? = some patterns) :
    externals.mapM Rule.external =
      .ok (patterns.map fun pattern => { pattern, outcome := fun _ => { isExternal := true } }) := by
  induction externals generalizing patterns with
  | nil =>
    cases readable
    rfl
  | cons source externals ih =>
    rw [List.mapM_cons] at readable
    obtain ⟨pattern, first, readable⟩ := Option.bind_eq_some_iff.1 readable
    obtain ⟨others, later, same⟩ := Option.bind_eq_some_iff.1 readable
    cases same
    have read : Rule.external source = .ok { pattern, outcome := fun _ => { isExternal := true } } := by
      rw [Rule.external, readPattern, first]
      rfl
    rw [List.mapM_cons, read, ih later]
    rfl

theorem mapM_ofEntry (isExternal : String → Bool)
    (readable : ∀ entry ∈ aliases, (Pattern.read? (Rule.nameSource entry.1)).isSome) :
    aliases.mapM (fun entry => Rule.ofEntry entry.1 entry.2 (isExternal entry.2)) =
      .ok (aliases.map fun entry => .rename entry.1 entry.2 (isExternal entry.2)) := by
  induction aliases with
  | nil => rfl
  | cons entry aliases ih =>
    obtain ⟨first, readable⟩ := List.forall_mem_cons.1 readable
    rw [List.mapM_cons, Rule.ofEntry_of_read? first, ih readable]
    rfl

theorem decide_isLeftAlone (target : String) :
    (Specifier.isRemoteText target.toList &&
        !compileRemote.any fun start => Text.startsWith start.toList target.toList) =
      decide (IsLeftAlone compileRemote target) := by
  have starts : ∀ start : List Char, Text.startsWith start target.toList = decide (start <+: target.toList) := by
    intro start
    rw [Bool.eq_iff_iff, decide_eq_true_iff, Text.startsWith_iff]
    exact exists_congr fun rest => eq_comm
  rw [Bool.eq_iff_iff, decide_eq_true_iff, IsLeftAlone, Bool.and_eq_true, Bool.not_eq_true', List.any_eq_false]
  simp only [Specifier.isRemoteText, Specifier.remoteSchemes, List.any_cons, List.any_nil, Bool.or_false,
    Bool.or_eq_true, starts, decide_eq_true_iff]

/-- The rules of a readable import map: the external patterns, then its entries. -/
theorem ofImportMap_eq (readable : externals.mapM Pattern.read? = some patterns)
    (entries : ∀ entry ∈ aliases, (Pattern.read? (Rule.nameSource entry.1)).isSome) :
    ofImportMap aliases externals compileRemote =
      .ok { rules :=
        (patterns.map fun pattern => { pattern, outcome := fun _ => { isExternal := true } }) ++
          aliases.map fun entry => .rename entry.1 entry.2 (IsLeftAlone compileRemote entry.2) } := by
  have named := mapM_ofEntry (fun target => decide (IsLeftAlone compileRemote target)) entries
  simp only [ofImportMap, decide_isLeftAlone, mapM_external readable, named]
  rfl

theorem readable_of_mapM_external {rules : List Rule} (built : externals.mapM Rule.external = .ok rules) :
    ∃ patterns, externals.mapM Pattern.read? = some patterns := by
  induction externals generalizing rules with
  | nil => exact ⟨[], rfl⟩
  | cons source externals ih =>
    rw [List.mapM_cons] at built
    cases first : Pattern.read? source with
    | none =>
      have refused : Rule.external source = .error ⟨source⟩ := by
        rw [Rule.external, readPattern, first]
        rfl
      rw [refused] at built
      cases built
    | some pattern =>
      have read : Rule.external source = .ok { pattern, outcome := fun _ => { isExternal := true } } := by
        rw [Rule.external, readPattern, first]
        rfl
      rw [read] at built
      cases later : externals.mapM Rule.external with
      | error error =>
        rw [later] at built
        cases built
      | ok others =>
        obtain ⟨patterns, readable⟩ := ih later
        exact ⟨pattern :: patterns, by rw [List.mapM_cons, first, readable]; rfl⟩

theorem readable_of_mapM_ofEntry (isExternal : String → Bool) {rules : List Rule}
    (built : aliases.mapM (fun entry => Rule.ofEntry entry.1 entry.2 (isExternal entry.2)) = .ok rules) :
    ∀ entry ∈ aliases, (Pattern.read? (Rule.nameSource entry.1)).isSome := by
  induction aliases generalizing rules with
  | nil => exact fun _ listed => absurd listed List.not_mem_nil
  | cons entry aliases ih =>
    rw [List.mapM_cons] at built
    cases first : Rule.ofEntry entry.1 entry.2 (isExternal entry.2) with
    | error error =>
      rw [first] at built
      cases built
    | ok rule =>
      rw [first] at built
      have within : (Pattern.read? (Rule.nameSource entry.1)).isSome := by
        rw [@Rule.isSome_read?_nameSource entry.1 entry.2 (isExternal entry.2)]
        rw [Rule.ofEntry] at first
        split at first
        · assumption
        · cases first
      cases later : aliases.mapM fun entry => Rule.ofEntry entry.1 entry.2 (isExternal entry.2) with
      | error error =>
        rw [later] at built
        cases built
      | ok others => exact List.forall_mem_cons.2 ⟨within, ih later⟩

theorem resolve_rules (aliases : List (String × String)) (patterns : List Pattern) (compileRemote : List String)
    (importer? : Option Specifier) (written : String) :
    ({ rules :=
        (patterns.map fun pattern => { pattern, outcome := fun _ => { isExternal := true } }) ++
          aliases.map fun entry => .rename entry.1 entry.2 (IsLeftAlone compileRemote entry.2) } :
      Resolver).resolve importer? written = mappedImport aliases patterns compileRemote importer? written := by
  unfold resolve mappedImport
  generalize candidate importer? written = candidate
  dsimp only
  have named : (fun rule : Rule => rule.pattern.isFoundIn candidate) ∘
      (fun entry : String × String =>
        Rule.rename entry.1 entry.2 (decide (IsLeftAlone compileRemote entry.2))) =
      fun entry => decide (StandsFor entry.1 candidate) := by
    funext entry
    exact Bool.eq_iff_iff.2 (Rule.isFoundIn_rename.trans decide_eq_true_iff.symm)
  rw [List.find?_append, List.find?_map, List.find?_map, named]
  cases excluded : patterns.find? (·.isFoundIn candidate) with
  | some pattern =>
    have holds := List.find?_some excluded
    have matched : patterns.any (·.isFoundIn candidate) = true :=
      List.any_eq_true.2 ⟨pattern, List.mem_of_find?_eq_some excluded, holds⟩
    simp only [Function.comp_def, excluded, matched, Option.map_some, Option.some_or, if_true]
    rfl
  | none =>
    have unmatched : patterns.any (·.isFoundIn candidate) = false :=
      List.any_eq_false.2 (List.find?_eq_none.1 excluded)
    simp only [Function.comp_def, excluded, unmatched, Option.map_none, Option.none_or, Bool.false_eq_true, if_false]
    cases found : aliases.find? fun entry => decide (StandsFor entry.1 candidate) with
    | none => rfl
    | some entry =>
      have holds := List.find?_some found
      have stands : StandsFor entry.1 candidate := of_decide_eq_true holds
      simp only [Option.map_some, Rule.renamed?_rename stands, Option.getD_some]
      rfl

theorem resolve_of_built {resolver : Resolver} (built : ofImportMap aliases externals compileRemote = .ok resolver) :
    ∃ patterns, externals.mapM Pattern.read? = some patterns ∧
      ∀ importer? written,
        resolver.resolve importer? written = mappedImport aliases patterns compileRemote importer? written := by
  have parts := built
  simp only [ofImportMap, decide_isLeftAlone] at parts
  cases outer : externals.mapM Rule.external with
  | error error =>
    rw [outer] at parts
    cases parts
  | ok rules =>
    rw [outer] at parts
    cases inner : aliases.mapM fun entry =>
        Rule.ofEntry entry.1 entry.2 (decide (IsLeftAlone compileRemote entry.2)) with
    | error error =>
      simp only [inner] at parts
      cases parts
    | ok renames =>
      obtain ⟨patterns, readable⟩ := readable_of_mapM_external outer
      have entries :=
        readable_of_mapM_ofEntry (fun target => decide (IsLeftAlone compileRemote target)) inner
      have whole := @ofImportMap_eq aliases externals compileRemote patterns readable entries
      obtain rfl := Except.ok.inj (whole.symm.trans built)
      exact ⟨patterns, readable, resolve_rules aliases patterns compileRemote⟩

/-- An import map whose patterns can be read resolves imports as it says without them. -/
theorem resolve_ofImportMap (readable : externals.mapM Pattern.read? = some patterns)
    (entries : ∀ entry ∈ aliases, (Pattern.read? (Rule.nameSource entry.1)).isSome) :
    ∃ resolver, ofImportMap aliases externals compileRemote = .ok resolver ∧
      ∀ importer? written,
        resolver.resolve importer? written = mappedImport aliases patterns compileRemote importer? written :=
  ⟨_, ofImportMap_eq readable entries, resolve_rules aliases patterns compileRemote⟩

/-- A name with a dot in it stands for itself only, and externals come before names in the map. -/
theorem resolve_ofImportMap_dotted :
    let aliases := [("@/", "/lib/"), ("a.b", "https://h/a"), ("https://cdn/", "/vendor/")]
    ["^https://cdn/"].mapM Pattern.read? = some [.startingWith "https://cdn/"] ∧
      (∀ entry ∈ aliases, (Pattern.read? (Rule.nameSource entry.1)).isSome) ∧
      ∃ resolver, ofImportMap aliases ["^https://cdn/"] [] = .ok resolver ∧
        resolver.resolve none "https://cdn/x.js" = .ok ⟨⟨"https://cdn/x.js"⟩, true⟩ ∧
        resolver.resolve (some ⟨"/src/m.js"⟩) "@/../x.js" = .ok ⟨⟨"/x.js"⟩, false⟩ ∧
        resolver.resolve none "a.b" = .ok ⟨⟨"https://h/a"⟩, true⟩ ∧
        resolver.resolve none "axb" = .error (.unresolved "axb" none) := by
  intro aliases
  have readable : ["^https://cdn/"].mapM Pattern.read? = some [.startingWith "https://cdn/"] := by
    have written : (Pattern.startingWith "https://cdn/").source = "^https://cdn/" := by
      rw [Pattern.startingWith, Pattern.escape_of_plain (by simp)]
      rfl
    have read := Pattern.read?_startingWith "https://cdn/"
    rw [written, if_pos (by decide +kernel)] at read
    rw [List.mapM_cons, read]
    rfl
  have entries : ∀ entry ∈ aliases, (Pattern.read? (Rule.nameSource entry.1)).isSome := by
    intro entry listed
    rw [@Rule.isSome_read?_nameSource entry.1 "" false]
    revert entry
    decide +kernel
  obtain ⟨resolver, built, resolves⟩ := @resolve_ofImportMap aliases ["^https://cdn/"] [] _ readable entries
  refine ⟨readable, entries, resolver, built, ?_, ?_, ?_, ?_⟩ <;> rw [resolves] <;> decide +kernel

end Resolver

end ModuleBuild
