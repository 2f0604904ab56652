import ModuleBuild.Proofs.Specifier.CleanText
/-!
Which specifiers are read back from their own text. Cleaning is done once and for all, but blanks are dropped
before it and not after it, and a path that is joined onto a name with another scheme may lose that scheme.
A specifier is read back exactly if neither of the two happened.
-/

namespace ModuleBuild

namespace Text

theorem trimmed_eq_self {text : List Char} (first : ∀ c ∈ text.head?, isBlank c = false)
    (last : ∀ c ∈ text.getLast?, isBlank c = false) : trimmed text = text := by
  have kept {text : List Char} (first : ∀ c ∈ text.head?, isBlank c = false) : text.dropWhile isBlank = text := by
    cases text with
    | nil => rfl
    | cons c rest => exact List.dropWhile_cons_of_neg (by simp [first c rfl])
  rw [trimmed, kept first, kept (by simpa using last), List.reverse_reverse]

theorem trimmed_sublist (text : List Char) : (trimmed text).Sublist text := by
  have cut : ((text.dropWhile isBlank).reverse.dropWhile isBlank).Sublist (text.dropWhile isBlank).reverse :=
    List.dropWhile_sublist _
  have kept := List.reverse_sublist.2 cut
  rw [List.reverse_reverse] at kept
  exact kept.trans (List.dropWhile_sublist _)

theorem head_trimmed {text : List Char} {c : Char} (head : (trimmed text).head? = some c) :
    isBlank c = false := by
  -- what is dropped at the end is not at the beginning
  obtain ⟨dropped, cut⟩ : ∃ dropped, text.dropWhile isBlank = trimmed text ++ dropped := by
    refine ⟨((text.dropWhile isBlank).reverse.takeWhile isBlank).reverse, ?_⟩
    rw [trimmed, ← List.reverse_append, List.takeWhile_append_dropWhile, List.reverse_reverse]
  obtain ⟨more, whole⟩ := List.head?_eq_some_iff.1 head
  rw [whole, List.cons_append] at cut
  exact of_dropWhile_eq_cons cut

theorem splitFirst?_eq_some {separator : Char} {text before after : List Char}
    (cut : splitFirst? separator text = some (before, after)) :
    text = before ++ separator :: after ∧ separator ∉ before := by
  unfold splitFirst? at cut
  split at cut
  · cases cut
  · next c rest found =>
    obtain ⟨rfl, rfl⟩ := Prod.mk.inj (Option.some.inj cut)
    obtain rfl : c = separator := by simpa using of_dropWhile_eq_cons found
    refine ⟨by rw [← found, List.takeWhile_append_dropWhile], fun member => ?_⟩
    simpa using List.mem_takeWhile_imp member

theorem splitLast?_eq_some {separator : Char} {text before after : List Char}
    (cut : splitLast? separator text = some (before, after)) :
    text = before ++ separator :: after ∧ separator ∉ after := by
  obtain ⟨⟨last, start⟩, found, same⟩ := Option.map_eq_some_iff.1 cut
  obtain ⟨rfl, rfl⟩ := Prod.mk.inj same
  obtain ⟨whole, absent⟩ := splitFirst?_eq_some found
  refine ⟨List.reverse_inj.1 ?_, mt List.mem_reverse.1 absent⟩
  rw [whole]
  simp

end Text

namespace Specifier

open Text ModuleBuild.Path

/-- Everything that can be a specifier: what is read from text or from a path, and what an import names
inside a module. -/
inductive Built : Specifier → Prop
  | parsed {value : String} {specifier : Specifier} (is : parse value = .ok specifier) : Built specifier
  | ofPath {path : Bytes} {specifier : Specifier} (is : ofPath path = .ok specifier) : Built specifier
  | joined {importer specifier : Specifier} {written : String} (built : Built importer)
    (is : importer.join? written = some specifier) : Built specifier

/-- The form of an address, of a name with another scheme, or of an absolute path. -/
def HasForm (text : List Char) : Prop :=
  isRemoteText text = true ∨ hasScheme text = true ∨ isAbsolute text = true

/-- Neither the path of an address nor a path has anything to clean. -/
structure IsClean (text : List Char) : Prop where
  address : isRemoteText text = true → cleanedAddress text = text
  path : isAbsolute text = true → cleaned text = text

theorem chars_ofChars (text : List Char) : (ofChars text).chars = text := String.toList_ofList

theorem ofChars_chars (specifier : Specifier) : ofChars specifier.chars = specifier :=
  congrArg Specifier.mk String.ofList_toList

theorem notRemote_of_absolute {text : List Char} (absolute : isAbsolute text = true) :
    isRemoteText text = false := by
  refine Bool.eq_false_iff.2 fun remote => ?_
  obtain ⟨scheme, listed, rest, rfl⟩ := isRemoteText_iff.1 remote
  rcases mem_remoteSchemes.1 listed with rfl | rfl <;> cases absolute

theorem notAbsolute_of_remote {text : List Char} (remote : isRemoteText text = true) :
    isAbsolute text = false := by
  refine Bool.eq_false_iff.2 fun absolute => ?_
  rw [notRemote_of_absolute absolute] at remote
  cases remote

theorem head_of_hasScheme {text : List Char} (has : hasScheme text = true) :
    ∃ c, text.head? = some c ∧ c.isAlpha = true := by
  unfold hasScheme at has
  split at has
  · next scheme rest cut =>
    simp only [Bool.and_eq_true, Option.any_eq_true] at has
    obtain ⟨⟨-, c, head, alpha⟩, -⟩ := has
    obtain ⟨more, rfl⟩ := List.head?_eq_some_iff.1 head
    exact ⟨c, by rw [(splitFirst?_eq_some cut).1]; rfl, alpha⟩
  · cases has

theorem notAbsolute_of_hasScheme {text : List Char} (has : hasScheme text = true) : isAbsolute text = false := by
  obtain ⟨c, head, alpha⟩ := head_of_hasScheme has
  refine Bool.eq_false_iff.2 fun absolute => ?_
  rw [isAbsolute, head, beq_iff_eq, Option.some.injEq] at absolute
  subst absolute
  exact absurd alpha (by decide)

theorem isAbsolute_trimmed {path : List Char} (absolute : isAbsolute path = true) :
    isAbsolute (trimmed path) = true := by
  obtain ⟨rest, rfl⟩ : ∃ rest, path = '/' :: rest := by
    cases path with
    | nil => cases absolute
    | cons c rest => exact ⟨rest, by simpa [isAbsolute] using absolute⟩
  have kept : ('/' :: rest).dropWhile isBlank = '/' :: rest := rfl
  rw [trimmed, kept, List.reverse_cons, List.dropWhile_append]
  split
  · rfl
  · rw [List.reverse_append]
    rfl

/-- An absolute path is read as the path, cleaned up to the first mark, without blanks at its end. -/
theorem parse_of_absolute {path : List Char} (absolute : isAbsolute path = true) :
    parse (String.ofList path) = .ok (ofChars (cleaned (trimmed path))) := by
  have trims := isAbsolute_trimmed absolute
  have nonempty : (trimmed path).isEmpty = false := by
    cases text : trimmed path with
    | nil =>
      rw [text] at trims
      cases trims
    | cons => rfl
  have notRemote := notRemote_of_absolute trims
  have noScheme : hasScheme (trimmed path) = false := by
    refine Bool.eq_false_iff.2 fun has => ?_
    rw [notAbsolute_of_hasScheme has] at trims
    cases trims
  rw [parse, String.toList_ofList]
  simp [nonempty, notRemote, noScheme, trims]

/-! ## What is built is clean -/

theorem isClean_address {origin path : List Char} (is : IsOrigin origin) (absolute : isAbsolute path = true) :
    IsClean (origin ++ cleaned path) ∧ HasForm (origin ++ cleaned path) := by
  have remote := is.isRemoteText (cleaned path)
  refine ⟨⟨fun _ => cleanedAddress_cleaned is absolute, fun rooted => ?_⟩, .inl remote⟩
  rw [notAbsolute_of_remote remote] at rooted
  cases rooted

theorem isClean_cleanedAddress {text : List Char} (remote : isRemoteText text = true) :
    IsClean (cleanedAddress text) ∧ HasForm (cleanedAddress text) := by
  obtain ⟨origin, path, split, is, absolute, -⟩ := splitOrigin?_of_remote remote
  rw [cleanedAddress, split]
  exact isClean_address is absolute

theorem isClean_path {text : List Char} (absolute : isAbsolute text = true) :
    IsClean (cleaned text) ∧ HasForm (cleaned text) := by
  have rooted := (isAbsolute_cleaned text).trans absolute
  refine ⟨⟨fun remote => ?_, fun _ => cleaned_cleaned text⟩, .inr (.inr rooted)⟩
  rw [notRemote_of_absolute rooted] at remote
  cases remote

theorem isClean_relative {text : List Char} (relative : isAbsolute text = false) : IsClean (cleaned text) := by
  refine ⟨fun remote => ?_, fun rooted => ?_⟩
  · -- an address has an empty part behind its scheme, and a relative text that was cleaned has none
    obtain ⟨scheme, listed, rest, whole⟩ := isRemoteText_iff.1 remote
    have path : clean (pathPart text) = scheme ++ pathPart rest := by
      rw [← (parts_cleaned text).1, whole, pathPart]
      refine List.takeWhile_append_of_pos ?_
      rcases mem_remoteSchemes.1 listed with rfl | rfl <;> simp [opensSuffix]
    have parts : [] ∈ splitOn '/' (clean (pathPart text)) := by
      rw [path]
      rcases mem_remoteSchemes.1 listed with rfl | rfl <;> simp [splitOn]
    exact absurd parts (notMem_nil_splitOn_clean ((isAbsolute_pathPart text).trans relative))
  · rw [isAbsolute_cleaned, relative] at rooted
    cases rooted

/-! ## Reading and joining -/

theorem parse_eq_ok {value : String} {specifier : Specifier} (is : parse value = .ok specifier) :
    let text := trimmed value.toList
    isRemoteText text = true ∧ specifier.chars = cleanedAddress text ∨
      isRemoteText text = false ∧ hasScheme text = true ∧ specifier.chars = text ∨
      isAbsolute text = true ∧ specifier.chars = cleaned text := by
  intro text
  rw [parse] at is
  change (if text.isEmpty then _ else _) = _ at is
  split at is
  · cases is
  split at is
  · next remote =>
    obtain rfl := Except.ok.inj is
    exact .inl ⟨remote, chars_ofChars _⟩
  next notRemote =>
  split at is
  · next has =>
    obtain rfl := Except.ok.inj is
    exact .inr (.inl ⟨by simpa using notRemote, has, chars_ofChars _⟩)
  split at is
  · next absolute =>
    obtain rfl := Except.ok.inj is
    exact .inr (.inr ⟨absolute, chars_ofChars _⟩)
  · cases is

/-- A text with a form that trimming and cleaning leave alone is read as it is. -/
theorem parse_of_isClean {specifier : Specifier} (clean : IsClean specifier.chars)
    (trims : trimmed specifier.chars = specifier.chars) (form : HasForm specifier.chars) :
    parse specifier.text = .ok specifier := by
  have text : trimmed specifier.text.toList = specifier.chars := trims
  have nonempty : specifier.chars.isEmpty = false := by
    cases chars : specifier.chars with
    | nil =>
      rw [chars] at form
      rcases form with form | form | form <;> cases form
    | cons => rfl
  simp only [parse, text, nonempty, Bool.false_eq_true, if_false]
  split
  · next remote => rw [clean.address remote, ofChars_chars]
  next notRemote =>
  split
  · rw [ofChars_chars]
  next has =>
  have absolute := (form.resolve_left notRemote).resolve_left has
  rw [if_pos absolute, clean.path absolute, ofChars_chars]

theorem isClean_parse {value : String} {specifier : Specifier} (is : parse value = .ok specifier) :
    IsClean specifier.chars ∧ HasForm specifier.chars := by
  rcases parse_eq_ok is with ⟨remote, chars⟩ | ⟨notRemote, has, chars⟩ | ⟨absolute, chars⟩
  · exact chars ▸ isClean_cleanedAddress remote
  · rw [chars]
    refine ⟨⟨fun remote => ?_, fun rooted => ?_⟩, .inr (.inl has)⟩
    · rw [notRemote] at remote
      cases remote
    · rw [notAbsolute_of_hasScheme has] at rooted
      cases rooted
  · exact chars ▸ isClean_path absolute

/-- What is joined onto a text that is absolute, or that has no slash, is absolute. -/
theorem isAbsolute_beside {text : List Char} (absolute : isAbsolute text = true) (rest : List Char) :
    isAbsolute (directory text ++ '/' :: rest) = true := by
  unfold directory
  split
  · next before after cut =>
    rw [(splitLast?_eq_some cut).1] at absolute
    cases before with
    | nil => rfl
    | cons c before => exact absolute
  · rfl

theorem isClean_join {importer specifier : Specifier} {written : String}
    (is : importer.join? written = some specifier) :
    IsClean specifier.chars ∧ (HasForm specifier.chars ∨ isRemoteText importer.chars = false ∧
      isAbsolute importer.chars = false ∧ isRelative written.toList = true) := by
  simp only [join?] at is
  split at is
  · next remote =>
    obtain rfl := Option.some.inj is
    rw [chars_ofChars]
    exact (isClean_cleanedAddress remote).imp_right .inl
  split at is
  · cases is
  next known =>
  split at is
  · next origin path cut =>
    -- an address: what is joined onto its path is absolute
    have remote : isRemoteText importer.chars = true := by
      refine Bool.not_eq_false _ |>.mp fun notRemote => ?_
      rw [splitOrigin?_eq_none notRemote] at cut
      cases cut
    obtain ⟨_, _, found, isOrigin, absolute, -⟩ := splitOrigin?_of_remote remote
    obtain ⟨rfl, rfl⟩ := Prod.mk.inj (Option.some.inj (found.symm.trans cut))
    obtain rfl := Option.some.inj is
    rw [chars_ofChars]
    refine (isClean_address isOrigin ?_).imp_right .inl
    split
    · assumption
    · exact isAbsolute_beside absolute _
  · next cut =>
    have notRemote : isRemoteText importer.chars = false := by
      refine Bool.eq_false_iff.2 fun remote => ?_
      obtain ⟨_, _, found, -⟩ := splitOrigin?_of_remote remote
      cases found.symm.trans cut
    obtain rfl := Option.some.inj is
    rw [chars_ofChars]
    split
    · next absolute => exact (isClean_path absolute).imp_right .inl
    next relative =>
    cases beside : isAbsolute (directory importer.chars ++ '/' :: written.toList) with
    | true => exact (isClean_path beside).imp_right .inl
    | false =>
      refine ⟨isClean_relative beside, .inr ⟨notRemote, ?_, by simpa [relative] using known⟩⟩
      refine Bool.eq_false_iff.2 fun absolute => ?_
      rw [isAbsolute_beside absolute] at beside
      cases beside

theorem Built.isClean {specifier : Specifier} (built : Built specifier) : IsClean specifier.chars := by
  cases built with
  | parsed is => exact (isClean_parse is).1
  | ofPath is => exact (isClean_parse is).1
  | joined _ is => exact (isClean_join is).1

/-- A text that is read as itself was trimmed before: cleaning never makes up for what trimming drops. -/
theorem trimmed_of_parse {specifier : Specifier} (is : parse specifier.text = .ok specifier) :
    trimmed specifier.chars = specifier.chars := by
  have whole {text : List Char} (long : text.length ≤ (trimmed text).length) : trimmed text = text :=
    (trimmed_sublist text).eq_of_length_le long
  have chars : specifier.text.toList = specifier.chars := rfl
  rcases parse_eq_ok is with ⟨remote, same⟩ | ⟨-, -, same⟩ | ⟨absolute, same⟩
  · rw [chars] at remote same
    obtain ⟨origin, path, split, isOrigin, absolute, parts⟩ := splitOrigin?_of_remote remote
    rw [cleanedAddress, split] at same
    rcases parts with cut | ⟨cut, rfl⟩
    · refine whole ?_
      calc specifier.chars.length = origin.length + (cleaned path).length := by rw [same, List.length_append]
        _ ≤ origin.length + path.length := Nat.add_le_add_left (length_cleaned_le absolute) _
        _ = (trimmed specifier.chars).length := by rw [cut, List.length_append]
    · -- a slash was added at the end, so there was no blank to drop
      rw [same]
      refine trimmed_eq_self (fun c head => ?_) fun c last => ?_
      · obtain ⟨scheme, listed, host, rfl, -⟩ := isOrigin
        refine @head_trimmed specifier.chars c ?_
        rw [cut]
        rcases mem_remoteSchemes.1 listed with rfl | rfl <;> exact head
      · have root : cleaned ['/'] = ['/'] := rfl
        obtain rfl : '/' = c := by simpa [root] using last
        rfl
  · exact same.symm
  · rw [chars] at absolute same
    refine whole ?_
    calc specifier.chars.length = (cleaned (trimmed specifier.chars)).length := by rw [← same]
      _ ≤ (trimmed specifier.chars).length := length_cleaned_le absolute

/-- A specifier is read back from its own text exactly if it has no blank at an end and a form of its own.
The form may be missing only where an import was joined onto a name that is no path and no address. -/
theorem parse_text_iff {specifier : Specifier} (built : Built specifier) :
    (parse specifier.text = .ok specifier ↔
      trimmed specifier.chars = specifier.chars ∧ HasForm specifier.chars) ∧
    (HasForm specifier.chars ∨ ∃ importer written, Built importer ∧ isRemoteText importer.chars = false ∧
      isAbsolute importer.chars = false ∧ isRelative written.toList = true ∧
      importer.join? written = some specifier) := by
  refine ⟨⟨fun is => ⟨trimmed_of_parse is, (isClean_parse is).2⟩, fun ⟨trims, form⟩ =>
    parse_of_isClean built.isClean trims form⟩, ?_⟩
  cases built with
  | parsed is => exact .inl (isClean_parse is).2
  | ofPath is => exact .inl (isClean_parse is).2
  | joined importer is =>
    exact (isClean_join is).2.imp_right fun ⟨notRemote, relative, written⟩ =>
      ⟨_, _, importer, notRemote, relative, written, is⟩

theorem parse_text_iff_beside :
    Built ⟨"https://h/b/x.js?v"⟩ ∧ parse "https://h/b/x.js?v" = .ok ⟨"https://h/b/x.js?v"⟩ := by
  have importer : Built ⟨"https://h/a/m.js"⟩ := .parsed (by decide +kernel : parse " https://h//a/./m.js" = _)
  have built : Built ⟨"https://h/b/x.js?v"⟩ :=
    .joined importer (by decide +kernel : join? ⟨"https://h/a/m.js"⟩ "../b/x.js?v" = _)
  exact ⟨built, (parse_text_iff built).1.2 ⟨by decide +kernel, .inl (by decide +kernel)⟩⟩

/-- Cleaning may leave a blank at the end, where trimming already was: such a specifier is not read back. -/
theorem parse_text_drops_blank : ¬ ∀ specifier, Built specifier → parse specifier.text = .ok specifier := by
  intro all
  have built : Built ⟨"/a "⟩ := .parsed (by decide +kernel : parse "/a /b/.." = _)
  have read : parse "/a " = .ok ⟨"/a"⟩ := by decide +kernel
  exact absurd (read.symm.trans (all _ built)) (by decide +kernel)

end Specifier

end ModuleBuild
