import ModuleBuild.Specifier.ServingPath
import ModuleBuild.Proofs.Specifier.Canonical
/-!
Which specifiers are served under one path. A serving path tells queries apart, but it leaves out the scheme
of an address and slashes at its end, writes colons as slashes, keeps no room of its own for what is no file,
and is completed to the path of a script. Two specifiers share a path exactly if they differ in no more than
that.
-/

namespace ModuleBuild

namespace Text

theorem endsWith_iff {finish text : List Char} : endsWith finish text = true ↔ ∃ start, text = start ++ finish := by
  rw [endsWith, startsWith_iff]
  constructor
  · rintro ⟨rest, reversed⟩
    exact ⟨rest.reverse, by rw [← List.reverse_inj, reversed]; simp⟩
  · rintro ⟨start, rfl⟩
    exact ⟨start.reverse, List.reverse_append⟩

end Text

namespace Specifier

open Text ModuleBuild.Path

/-! ## Script endings -/

def isScript (path : List Char) : Bool := scriptEndings.any (endsWith · path)

def asScript (path : List Char) : List Char := if isScript path then path else path ++ ".js".toList

theorem isScript_append (path : List Char) : isScript (path ++ ".js".toList) = true :=
  List.any_eq_true.2 ⟨".js".toList, List.mem_cons_self, endsWith_iff.2 ⟨path, rfl⟩⟩

/-- Completing paths to paths of scripts confuses a path with its own completion, and nothing else. -/
theorem asScript_eq_iff {first second : List Char} : asScript first = asScript second ↔
    first = second ∨ isScript first = false ∧ second = first ++ ".js".toList ∨
      isScript second = false ∧ first = second ++ ".js".toList := by
  unfold asScript
  cases one : isScript first <;> cases two : isScript second
  · constructor
    · intro same
      exact .inl (List.append_cancel_right same)
    · rintro (rfl | ⟨-, rfl⟩ | ⟨-, rfl⟩)
      · rfl
      · rw [isScript_append] at two
        cases two
      · rw [isScript_append] at one
        cases one
  · constructor
    · intro same
      exact .inr (.inl ⟨rfl, same.symm⟩)
    · rintro (rfl | ⟨-, same⟩ | ⟨false, -⟩)
      · cases one.symm.trans two
      · exact same.symm
      · cases false
  · constructor
    · intro same
      exact .inr (.inr ⟨rfl, same⟩)
    · rintro (rfl | ⟨false, -⟩ | ⟨-, same⟩)
      · cases one.symm.trans two
      · cases false
      · exact same
  · constructor
    · exact .inl
    · rintro (same | ⟨false, -⟩ | ⟨false, -⟩)
      · exact same
      · cases false
      · cases false

/-! ## Queries -/

theorem length_servingSuffix {suffix : List Char} (some : suffix ≠ []) : (servingSuffix suffix).length = 9 := by
  simp [servingSuffix, some, Blake3.length_hexDigits]

theorem notMem_servingSuffix (suffix : List Char) : 's' ∉ servingSuffix suffix := by
  unfold servingSuffix
  split
  · exact List.not_mem_nil
  · intro member
    rcases List.mem_cons.1 member with mark | digit
    · cases mark
    · obtain ⟨n, small, is⟩ := Blake3.mem_hexDigits (List.mem_of_mem_take digit)
      have digits : ∀ m < 16, 's' ≠ Nat.digitChar m := by decide
      exact digits n small is

theorem append_servingSuffix_ne {suffix : List Char} (some : suffix ≠ []) (path rest : List Char) :
    path ++ servingSuffix suffix ≠ rest ++ ".js".toList := by
  intro same
  -- both would end with an s, and no digit is one
  rcases List.eq_nil_or_concat (servingSuffix suffix) with empty | ⟨start, last, whole⟩
  · have long := length_servingSuffix some
    rw [empty] at long
    cases long
  · rw [List.concat_eq_append] at whole
    have ends : (path ++ start) ++ [last] = (rest ++ ".j".toList) ++ ['s'] := by
      rw [List.append_assoc, ← whole, same, List.append_assoc]
      rfl
    obtain rfl : last = 's' := by simpa using (List.append_inj' ends rfl).2
    exact notMem_servingSuffix suffix (whole ▸ List.mem_append_right _ List.mem_cons_self)

/-! ## What is shown of a path -/

def withoutSlashes (path : List Char) : List Char := (path.reverse.dropWhile (· == '/')).reverse

def colonsAsSlashes (name : List Char) : List Char := name.map fun c => if c = ':' then '/' else c

/-- A name with another scheme: no address and no path. -/
def IsSchemeName (name : List Char) : Prop := isRemoteText name = false ∧ isAbsolute name = false

theorem servingBase_address {scheme : List Char} (listed : scheme ∈ remoteSchemes) (rest : List Char) :
    servingBase (scheme ++ rest) = addressMark ++ withoutSlashes rest := by
  rcases mem_remoteSchemes.1 listed with rfl | rfl <;> rfl

theorem servingBase_local {path : List Char} (notRemote : isRemoteText path = false) :
    servingBase path = if isAbsolute path then path else addressMark ++ colonsAsSlashes path := by
  have none : remoteSchemes.findSome? (strip? · path) = none := by
    refine List.findSome?_eq_none_iff.2 fun scheme listed => ?_
    cases cut : strip? scheme path with
    | none => rfl
    | some rest =>
      rw [isRemoteText_iff.2 ⟨scheme, listed, rest, strip?_eq_some_iff.1 cut⟩] at notRemote
      cases notRemote
  rw [servingBase, none]
  rfl

theorem servingBase_file {path : List Char} (absolute : isAbsolute path = true) : servingBase path = path := by
  rw [servingBase_local (notRemote_of_absolute absolute), if_pos absolute]

theorem servingBase_name {name : List Char} (is : IsSchemeName name) :
    servingBase name = addressMark ++ colonsAsSlashes name := by
  rw [servingBase_local is.1, is.2]
  rfl

theorem kind_cases (path : List Char) : isAbsolute path = true ∨
    (∃ scheme ∈ remoteSchemes, ∃ rest, path = scheme ++ rest) ∨ IsSchemeName path := by
  cases absolute : isAbsolute path with
  | true => exact .inl rfl
  | false =>
    cases remote : isRemoteText path with
    | true => exact .inr (.inl (isRemoteText_iff.1 remote))
    | false => exact .inr (.inr ⟨remote, absolute⟩)

/-- The ways in which the same comes to be shown of two paths, up to the order of the two. -/
inductive SameStem : List Char → List Char → Prop
  /-- Neither the scheme of an address is shown nor slashes at its end. -/
  | addresses {scheme other first second : List Char} (listed : scheme ∈ remoteSchemes)
    (listed' : other ∈ remoteSchemes) (same : withoutSlashes first = withoutSlashes second) :
    SameStem (scheme ++ first) (other ++ second)
  | names {first second : List Char} (is : IsSchemeName first) (is' : IsSchemeName second)
    (same : colonsAsSlashes first = colonsAsSlashes second) : SameStem first second
  /-- An address may have a host that is the scheme of a name. -/
  | addressAndName {scheme rest name : List Char} (listed : scheme ∈ remoteSchemes) (is : IsSchemeName name)
    (same : withoutSlashes rest = colonsAsSlashes name) : SameStem (scheme ++ rest) name
  /-- A file may lie where addresses and names are shown. -/
  | fileAndOther {file other : List Char} (absolute : isAbsolute file = true)
    (relative : isAbsolute other = false) (same : file = servingBase other) : SameStem file other

theorem servingBase_eq_iff (first second : List Char) :
    servingBase first = servingBase second ↔
      first = second ∨ SameStem first second ∨ SameStem second first := by
  constructor
  · -- each of the three kinds of path against each
    intro same
    rcases kind_cases first with absolute | ⟨scheme, listed, rest, rfl⟩ | is <;>
      rcases kind_cases second with absolute' | ⟨other, listed', rest', rfl⟩ | is'
    · rw [servingBase_file absolute, servingBase_file absolute'] at same
      exact .inl same
    · have relative := notAbsolute_of_remote (isRemoteText_iff.2 ⟨other, listed', rest', rfl⟩)
      exact .inr (.inl (.fileAndOther absolute relative (servingBase_file absolute ▸ same)))
    · exact .inr (.inl (.fileAndOther absolute is'.2 (servingBase_file absolute ▸ same)))
    · have relative := notAbsolute_of_remote (isRemoteText_iff.2 ⟨scheme, listed, rest, rfl⟩)
      exact .inr (.inr (.fileAndOther absolute' relative (servingBase_file absolute' ▸ same.symm)))
    · rw [servingBase_address listed, servingBase_address listed'] at same
      exact .inr (.inl (.addresses listed listed' (List.append_cancel_left same)))
    · rw [servingBase_address listed, servingBase_name is'] at same
      exact .inr (.inl (.addressAndName listed is' (List.append_cancel_left same)))
    · exact .inr (.inr (.fileAndOther absolute' is.2 (servingBase_file absolute' ▸ same.symm)))
    · rw [servingBase_name is, servingBase_address listed'] at same
      exact .inr (.inr (.addressAndName listed' is (List.append_cancel_left same).symm))
    · rw [servingBase_name is, servingBase_name is'] at same
      exact .inr (.inl (.names is is' (List.append_cancel_left same)))
  · have one {first second : List Char} (stem : SameStem first second) :
        servingBase first = servingBase second := by
      cases stem with
      | addresses listed listed' same => rw [servingBase_address listed, servingBase_address listed', same]
      | names is is' same => rw [servingBase_name is, servingBase_name is', same]
      | addressAndName listed is same => rw [servingBase_address listed, servingBase_name is, same]
      | fileAndOther absolute _ same => rw [servingBase_file absolute, same]
    rintro (rfl | stem | stem)
    · rfl
    · exact one stem
    · exact (one stem).symm

/-- What is served, before it is completed to the path of a script. -/
def shownPath (specifier : Specifier) : List Char :=
  servingRoot ++ servingBase (pathPart specifier.chars) ++ servingSuffix (suffixPart specifier.chars)

theorem servingPath_eq (specifier : Specifier) : specifier.servingPath = String.ofList (asScript specifier.shownPath) :=
  rfl

/-- The ways in which two specifiers come to be served under one path, up to the order of the two. -/
inductive ServedAlike (first second : Specifier) : Prop
  | stems (query : suffixPart first.chars = suffixPart second.chars)
    (stem : SameStem (pathPart first.chars) (pathPart second.chars))
  /-- The digest of a query may be written in a path. -/
  | digest (queried : suffixPart first.chars ≠ []) (plain : suffixPart second.chars = [])
    (written : servingBase (pathPart second.chars) =
      servingBase (pathPart first.chars) ++ servingSuffix (suffixPart first.chars))
  /-- What ends like no script is completed, and a path may be complete already. -/
  | ending (unfinished : isScript first.shownPath = false) (plain : suffixPart second.chars = [])
    (written : servingBase (pathPart second.chars) =
      servingBase (pathPart first.chars) ++ servingSuffix (suffixPart first.chars) ++ ".js".toList)

section Pair

variable {first second : Specifier}

/-- Of two shown paths that are alike, both end with a query or neither does, or one path spells a digest. -/
theorem shownPath_eq_iff (digests : servingSuffix (suffixPart first.chars) = servingSuffix (suffixPart second.chars) →
      suffixPart first.chars = suffixPart second.chars) :
    first.shownPath = second.shownPath ↔
      suffixPart first.chars = suffixPart second.chars ∧
          servingBase (pathPart first.chars) = servingBase (pathPart second.chars) ∨
        suffixPart first.chars ≠ [] ∧ suffixPart second.chars = [] ∧ servingBase (pathPart second.chars) =
          servingBase (pathPart first.chars) ++ servingSuffix (suffixPart first.chars) ∨
        suffixPart second.chars ≠ [] ∧ suffixPart first.chars = [] ∧ servingBase (pathPart first.chars) =
          servingBase (pathPart second.chars) ++ servingSuffix (suffixPart second.chars) := by
  unfold shownPath
  generalize suffixPart first.chars = suffix at digests ⊢
  generalize suffixPart second.chars = suffix' at digests ⊢
  rw [List.append_assoc, List.append_assoc, List.append_cancel_left_eq]
  have blank : servingSuffix [] = [] := rfl
  constructor
  · intro same
    by_cases some : suffix = [] <;> by_cases some' : suffix' = []
    · subst some some'
      exact .inl ⟨rfl, List.append_cancel_right same⟩
    · subst some
      rw [blank, List.append_nil] at same
      exact .inr (.inr ⟨some', rfl, same⟩)
    · subst some'
      rw [blank, List.append_nil] at same
      exact .inr (.inl ⟨some, rfl, same.symm⟩)
    · obtain ⟨base, digest⟩ := List.append_inj' same
        ((length_servingSuffix some).trans (length_servingSuffix some').symm)
      exact .inl ⟨digests digest, base⟩
  · rintro (⟨rfl, base⟩ | ⟨-, rfl, written⟩ | ⟨-, rfl, written⟩)
    · rw [base]
    · rw [blank, List.append_nil, written]
    · rw [blank, List.append_nil, written]

theorem shownPath_eq_append_iff : second.shownPath = first.shownPath ++ ".js".toList ↔
    suffixPart second.chars = [] ∧ servingBase (pathPart second.chars) =
      servingBase (pathPart first.chars) ++ servingSuffix (suffixPart first.chars) ++ ".js".toList := by
  constructor
  · intro same
    have plain : suffixPart second.chars = [] := by
      by_cases some : suffixPart second.chars = []
      · exact some
      · exact absurd same (append_servingSuffix_ne some _ _)
    have blank : servingSuffix [] = [] := rfl
    rw [shownPath, shownPath, plain, blank, List.append_nil, List.append_assoc servingRoot,
      List.append_assoc servingRoot] at same
    exact ⟨plain, List.append_cancel_left same⟩
  · rintro ⟨plain, written⟩
    rw [shownPath, plain, written, shownPath]
    simp [servingSuffix]

theorem eq_of_parts (path : pathPart first.chars = pathPart second.chars)
    (query : suffixPart first.chars = suffixPart second.chars) : first = second := by
  rw [← ofChars_chars first, ← ofChars_chars second, ← pathPart_append_suffixPart first.chars, path, query,
    pathPart_append_suffixPart]

/-- Different specifiers are served under different paths, but for those that are served alike, as long as
different queries have different digests. -/
theorem servingPath_eq_iff (differ : first ≠ second)
    (digests : servingSuffix (suffixPart first.chars) = servingSuffix (suffixPart second.chars) →
      suffixPart first.chars = suffixPart second.chars) :
    first.servingPath = second.servingPath ↔ ServedAlike first second ∨ ServedAlike second first := by
  rw [servingPath_eq, servingPath_eq, String.ofList_inj, asScript_eq_iff, shownPath_eq_iff digests,
    servingBase_eq_iff, shownPath_eq_append_iff, shownPath_eq_append_iff]
  constructor
  · rintro ((⟨query, path | stem | stem⟩ | ⟨queried, plain, written⟩ | ⟨queried, plain, written⟩) |
      ⟨unfinished, plain, written⟩ | ⟨unfinished, plain, written⟩)
    · exact absurd (eq_of_parts path query) differ
    · exact .inl (.stems query stem)
    · exact .inr (.stems query.symm stem)
    · exact .inl (.digest queried plain written)
    · exact .inr (.digest queried plain written)
    · exact .inl (.ending unfinished plain written)
    · exact .inr (.ending unfinished plain written)
  · rintro ((⟨query, stem⟩ | ⟨queried, plain, written⟩ | ⟨unfinished, plain, written⟩) |
      ⟨query, stem⟩ | ⟨queried, plain, written⟩ | ⟨unfinished, plain, written⟩)
    · exact .inl (.inl ⟨query, .inr (.inl stem)⟩)
    · exact .inl (.inr (.inl ⟨queried, plain, written⟩))
    · exact .inr (.inl ⟨unfinished, plain, written⟩)
    · exact .inl (.inl ⟨query.symm, .inr (.inr stem)⟩)
    · exact .inl (.inr (.inr ⟨queried, plain, written⟩))
    · exact .inr (.inr ⟨unfinished, plain, written⟩)

end Pair

theorem servingPath_ne_of_query :
    (⟨"/a?x"⟩ : Specifier) ≠ ⟨"/a?y"⟩ ∧ servingSuffix "?x".toList ≠ servingSuffix "?y".toList ∧
      (⟨"/a?x"⟩ : Specifier).servingPath ≠ (⟨"/a?y"⟩ : Specifier).servingPath := by
  have differ : (⟨"/a?x"⟩ : Specifier) ≠ ⟨"/a?y"⟩ := by decide +kernel
  have first : suffixPart (⟨"/a?x"⟩ : Specifier).chars = "?x".toList := by decide +kernel
  have second : suffixPart (⟨"/a?y"⟩ : Specifier).chars = "?y".toList := by decide +kernel
  have digests : servingSuffix "?x".toList ≠ servingSuffix "?y".toList := by decide +kernel
  have exact := servingPath_eq_iff differ fun same => absurd (first ▸ second ▸ same) digests
  refine ⟨differ, digests, fun same => ?_⟩
  rcases exact.1 same with (⟨query, -⟩ | ⟨-, plain, -⟩ | ⟨-, plain, -⟩) | ⟨query, -⟩ | ⟨-, plain, -⟩ | ⟨-, plain, -⟩
  · exact absurd (first ▸ second ▸ query) (by decide +kernel)
  · cases second ▸ plain
  · cases second ▸ plain
  · exact absurd (second ▸ first ▸ query) (by decide +kernel)
  · cases first ▸ plain
  · cases first ▸ plain

/-- One module is found by two schemes and is served under one path. -/
theorem servingPath_not_injective : ¬ ∀ first second : Specifier,
    (∃ value, parse value = .ok first) → (∃ value, parse value = .ok second) →
    (servingSuffix (suffixPart first.chars) = servingSuffix (suffixPart second.chars) →
      suffixPart first.chars = suffixPart second.chars) →
    first ≠ second → first.servingPath ≠ second.servingPath := by
  intro all
  refine all ⟨"http://h/x.js"⟩ ⟨"https://h/x.js"⟩ ⟨"http://h/x.js", ?_⟩ ⟨"https://h/x.js", ?_⟩ (fun _ => ?_) ?_ ?_
  all_goals decide +kernel

end Specifier

end ModuleBuild
