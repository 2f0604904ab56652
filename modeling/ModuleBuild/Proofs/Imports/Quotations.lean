import ModuleBuild.Imports.Scan
import ModuleBuild.Proofs.Artifact.Splicing
import Mathlib.Data.List.TakeWhile
/-!
What the imports that are found in code look like. A reading moves from place to place in the code and ends at
a name between two quotes. There is no quote in such a name, so two names in quotes either are the same or lie
apart, whichever readings they come from. Code can therefore be written with an edit for every import that was
found in it.
-/

namespace ModuleBuild

namespace Imports

open Text Utf8

/-- A name in code, between two quotes and without a quote or a line feed in it, and where it stands. -/
structure IsQuoted (code name : List Char) (span : Span) : Prop where
  around : ∃ before opening closing after, code = before ++ [opening] ++ (name ++ closing :: after) ∧
    isQuote opening = true ∧ isQuote closing = true ∧ span.start = width (before ++ [opening])
  stop : span.stop = span.start + width name
  nonempty : name ≠ []
  plain : ∀ c ∈ name, isQuote c = false ∧ c ≠ '\n'

theorem utf8Size_of_isQuote {c : Char} (quote : isQuote c = true) : c.utf8Size = 1 := by
  rw [isQuote, Bool.or_eq_true, beq_iff_eq, beq_iff_eq] at quote
  rcases quote with rfl | rfl <;> rfl

/-! ## Names in quotes lie apart -/

section Apart

variable {code name name' : List Char} {span span' : Span}

theorem exists_append_of_quote {name start rest after : List Char} {closing quote : Char}
    (plain : ∀ c ∈ name, isQuote c = false) (is : isQuote quote = true)
    (same : name ++ closing :: after = start ++ quote :: rest) : ∃ more, start = name ++ more := by
  rcases List.append_eq_append_iff.1 same with ⟨more, longer, -⟩ | ⟨more, shorter, cut⟩
  · exact ⟨more, longer⟩
  · cases more with
    | nil => exact ⟨[], by rw [shorter, List.append_nil, List.append_nil]⟩
    | cons c more =>
      -- the quote would be a character of the name
      obtain ⟨rfl, -⟩ := List.cons.inj cut
      have member : quote ∈ name := shorter ▸ List.mem_append_right _ List.mem_cons_self
      rw [plain quote member] at is
      cases is

/-- Of two names in quotes, the one that begins first ends before the other begins. -/
theorem IsQuoted.stop_lt (first : IsQuoted code name span) (second : IsQuoted code name' span')
    (before : span.start < span'.start) : span.stop < span'.start := by
  obtain ⟨start, opening, closing, after, whole, opens, -, begins⟩ := first.around
  obtain ⟨start', opening', closing', after', whole', opens', -, begins'⟩ := second.around
  rcases List.append_eq_append_iff.1 (whole.symm.trans whole') with ⟨more, longer, rest⟩ | ⟨more, shorter, -⟩
  · -- the opening quote of the second name is the last character of `more`
    rcases List.eq_nil_or_concat more with rfl | ⟨between, last, rfl⟩
    · rw [List.append_nil] at longer
      rw [begins, begins', longer] at before
      exact absurd before (Nat.lt_irrefl _)
    · rw [List.concat_eq_append] at longer rest
      rw [← List.append_assoc] at longer
      obtain ⟨same, quote⟩ := List.append_inj' longer rfl
      obtain rfl := (List.cons.inj quote).1
      rw [List.append_assoc, List.singleton_append] at rest
      obtain ⟨gap, rfl⟩ := exists_append_of_quote (fun c member => (first.plain c member).1) opens' rest
      have wide := opening'.utf8Size_pos
      have size := utf8Size_of_isQuote opens'
      rw [first.stop, begins, begins', same]
      simp only [width_append, width_cons]
      omega
  · rw [begins, begins', shorter, width_append] at before
    omega

theorem IsQuoted.eq_of_start (first : IsQuoted code name span) (second : IsQuoted code name' span')
    (same : span.start = span'.start) : name = name' ∧ span = span' := by
  obtain ⟨start, opening, closing, after, whole, -, closes, begins⟩ := first.around
  obtain ⟨start', opening', closing', after', whole', -, closes', begins'⟩ := second.around
  have size : width (start ++ [opening]) = width (start' ++ [opening']) := begins ▸ begins' ▸ same
  have cut := split?_append (start ++ [opening]) (name ++ closing :: after)
  rw [← whole, whole', size, split?_append] at cut
  have rest : name ++ closing :: after = name' ++ closing' :: after' :=
    (Prod.mk.inj (Option.some.inj cut)).2.symm
  -- each of the names is a start of the other
  obtain ⟨more, longer⟩ := exists_append_of_quote (fun c member => (first.plain c member).1) closes' rest
  obtain ⟨more', longer'⟩ := exists_append_of_quote (fun c member => (second.plain c member).1) closes rest.symm
  have names : name = name' := by
    have none : more = [] := by
      have sizes := congrArg List.length longer'
      rw [longer, List.append_assoc, List.length_append, List.length_append] at sizes
      exact List.eq_nil_of_length_eq_zero (by omega)
    rw [longer, none, List.append_nil]
  refine ⟨names, ?_⟩
  obtain ⟨begin, finish⟩ := span
  obtain ⟨begin', finish'⟩ := span'
  have stop := first.stop
  have stop' := second.stop
  simp only at same stop stop'
  rw [stop, stop', same, names]

end Apart

/-! ## Places in code -/

/-- A place is where it says it is, with the end of the code still to come. -/
def Place.Within (code : List Char) (place : Place) : Prop :=
  ∃ before, code = before ++ place.rest ∧ place.offset = width before

namespace Place.Within

variable {code : List Char} {place place' : Place}

theorem start (code : List Char) : Place.Within code ⟨0, code⟩ := ⟨[], rfl, rfl⟩

theorem pass (within : place.Within code) {passed rest : List Char} (cut : place.rest = passed ++ rest) :
    Place.Within code ⟨place.offset + width passed, rest⟩ := by
  obtain ⟨before, whole, offset⟩ := within
  exact ⟨before ++ passed, by rw [whole, cut, List.append_assoc], by rw [offset, width_append]⟩

theorem next {c : Char} {rest : List Char} {offset : Nat} (within : Place.Within code ⟨offset, c :: rest⟩) :
    Place.Within code ⟨offset + c.utf8Size, rest⟩ := by
  have passed : Place.Within code ⟨offset + width [c], rest⟩ := within.pass (List.singleton_append (l := rest)).symm
  rwa [width_cons, width, encode_nil, List.length_nil, Nat.add_zero] at passed

theorem skip (within : place.Within code) (p : Char → Bool) : (place.skip p).Within code :=
  within.pass List.takeWhile_append_dropWhile.symm

theorem skipBlanks (within : place.Within code) : place.skipBlanks.Within code := within.skip isBlank

theorem after? (within : place.Within code) {text : String} (found : place.after? text = some place') :
    place'.Within code := by
  obtain ⟨rest, stripped, rfl⟩ := Option.map_eq_some_iff.1 found
  exact within.pass (strip?_eq_some_iff.1 stripped)

theorem afterKeyword? (within : place.Within code) {text : String} {blanks : Nat}
    (found : place.afterKeyword? text = some (place', blanks)) : place'.Within code := by
  unfold Place.afterKeyword? at found
  split at found
  · cases found
  · next next after =>
    split at found
    · cases found
    · obtain ⟨rfl, -⟩ := Prod.mk.inj (Option.some.inj found)
      exact (within.after? after).skipBlanks

end Place.Within

/-! ## Readings end at names in quotes -/

def Quotation.IsIn (code : List Char) (quotation : Quotation) : Prop :=
  IsQuoted code quotation.name quotation.span

section Readings

variable {code : List Char} {place : Place} {quotation : Quotation} {reading : Reading}

theorem isIn_quotation? (within : place.Within code) (found : place.quotation? = some quotation) :
    quotation.IsIn code := by
  obtain ⟨before, whole, offset⟩ := within
  unfold Place.quotation? at found
  split at found
  · cases found
  next opening rest cut =>
  split at found
  · cases found
  next opens =>
  simp only at found
  split at found
  · cases found
  next closing after closed =>
  split at found
  · cases found
  next complete =>
  obtain rfl := Option.some.inj found
  simp only [Bool.or_eq_true, List.isEmpty_iff, Bool.not_eq_true', not_or, Bool.not_eq_false] at opens complete
  have size : width (before ++ [opening]) = place.offset + 1 := by
    rw [width_append, width_cons, utf8Size_of_isQuote opens, offset]
    rfl
  refine ⟨⟨before, opening, closing, after, ?_, opens, complete.2, size.symm⟩, rfl, complete.1, ?_⟩
  · rw [← closed, List.takeWhile_append_dropWhile, List.append_assoc, List.singleton_append, ← cut, whole]
  · intro c member
    simpa using List.mem_takeWhile_imp member

theorem isIn_source? (within : place.Within code) (found : place.source? = some quotation) :
    quotation.IsIn code := by
  obtain ⟨next, after, quoted⟩ := Option.bind_eq_some_iff.1 found
  exact isIn_quotation? (within.skipBlanks.after? after).skipBlanks quoted

theorem isIn_clauseSource? {offset : Nat} {rest : List Char} (within : Place.Within code ⟨offset, rest⟩)
    (found : clauseSource? offset rest = some quotation) : quotation.IsIn code := by
  induction rest generalizing offset with
  | nil => cases found
  | cons c rest ih =>
    rw [clauseSource?] at found
    split at found
    · simp only at found
      split at found
      · next source =>
        obtain rfl := Option.some.inj found
        exact isIn_source? within.next source
      · exact ih within.next found
    · cases found

theorem isIn_importTail? (within : place.Within code) {blanks : Nat}
    (found : importTail? place blanks = some reading) : reading.quotation.IsIn code := by
  unfold importTail? at found
  split at found
  · next clause =>
    obtain rfl := Option.some.inj found
    exact isIn_clauseSource? within clause
  split at found
  · next bare =>
    obtain rfl := Option.some.inj found
    exact isIn_quotation? within bare
  split at found
  · obtain ⟨quotation, source, rfl⟩ := Option.map_eq_some_iff.1 found
    obtain ⟨next, after, quoted⟩ := Option.bind_eq_some_iff.1 source
    exact isIn_quotation? (within.after? after).skipBlanks quoted
  · cases found

theorem isIn_staticImport? (within : place.Within code) (found : staticImport? place = some reading) :
    reading.quotation.IsIn code := by
  unfold staticImport? at found
  split at found
  · cases found
  simp only at found
  split at found
  · next typed =>
    obtain rfl := Option.some.inj found
    obtain ⟨⟨next, blanks⟩, marker, tail⟩ := Option.bind_eq_some_iff.1 typed
    have ends := isIn_importTail? (within.skipBlanks.afterKeyword? marker) tail
    exact ends
  · exact isIn_importTail? within.skipBlanks found

theorem isIn_namedSource? {offset : Nat} {rest : List Char} (within : Place.Within code ⟨offset, rest⟩)
    (found : namedSource? offset rest = some quotation) : quotation.IsIn code := by
  induction rest generalizing offset with
  | nil => cases found
  | cons c rest ih =>
    rw [namedSource?] at found
    split at found
    · simp only at found
      split at found
      · next longer =>
        obtain rfl := Option.some.inj found
        exact ih within.next longer
      · exact isIn_source? within.next found
    · cases found

theorem isIn_starSource? (within : place.Within code) (found : starSource? place = some quotation) :
    quotation.IsIn code := by
  unfold starSource? at found
  simp only at found
  split at found
  · next named =>
    obtain rfl := Option.some.inj found
    split at named
    · cases named
    · obtain ⟨⟨next, blanks⟩, marker, source⟩ := Option.bind_eq_some_iff.1 named
      exact isIn_namedSource? (within.skipBlanks.afterKeyword? marker) source
  · exact isIn_source? within found

theorem isIn_exportSource? (within : place.Within code) (found : exportSource? place = some quotation) :
    quotation.IsIn code := by
  obtain ⟨offset, rest⟩ := place
  unfold exportSource? at found
  split at found
  · next rest same =>
    subst same
    exact isIn_starSource? within.next found
  · next rest same =>
    subst same
    obtain ⟨next, after, source⟩ := Option.bind_eq_some_iff.1 found
    exact isIn_source? ((within.next.skip _).after? after) source
  · cases found

theorem isIn_reexport? (within : place.Within code) (found : reexport? place = some reading) :
    reading.quotation.IsIn code := by
  unfold reexport? at found
  split at found
  · cases found
  simp only at found
  split at found
  · next marker =>
    obtain ⟨quotation, source, rfl⟩ := Option.map_eq_some_iff.1 found
    exact isIn_exportSource? (within.skipBlanks.afterKeyword? marker) source
  · obtain ⟨quotation, source, rfl⟩ := Option.map_eq_some_iff.1 found
    exact isIn_exportSource? within.skipBlanks source

theorem isIn_dynamicImport? (within : place.Within code) (found : dynamicImport? place = some reading) :
    reading.quotation.IsIn code := by
  obtain ⟨quotation, read, found⟩ := Option.bind_eq_some_iff.1 found
  obtain ⟨next, after, quoted⟩ := Option.bind_eq_some_iff.1 read
  have within' := isIn_quotation? (within.skipBlanks.after? after).skipBlanks quoted
  simp only at found
  split at found
  · cases found
  · obtain ⟨stop, -, rfl⟩ := Option.map_eq_some_iff.1 found
    exact within'

theorem isIn_readings {keyword : String} {statement? : Place → Option Reading}
    (ends : ∀ {place reading}, place.Within code → statement? place = some reading → reading.quotation.IsIn code)
    {offset resume : Nat} {inWord : Bool} {rest : List Char} (within : Place.Within code ⟨offset, rest⟩)
    (member : reading ∈ readings keyword statement? offset resume inWord rest) : reading.quotation.IsIn code := by
  induction rest generalizing offset resume inWord with
  | nil => cases member
  | cons c rest ih =>
    rw [readings] at member
    split at member
    · next found =>
      rcases List.mem_cons.1 member with rfl | later
      · split at found
        · obtain ⟨next, after, read⟩ := Option.bind_eq_some_iff.1 found
          exact ends (within.after? after) read
        · cases found
      · exact ih within.next later
    · exact ih within.next member

end Readings

/-! ## The imports of a script -/

def StandsIn (code : List Char) (found : FoundImport) : Prop :=
  ∃ span, found.span? = some span ∧ IsQuoted code found.written.toList span

def Ahead (first second : FoundImport) : Prop :=
  ∀ span ∈ first.span?, ∀ span' ∈ second.span?, span.stop < span'.start

section Scan

variable {code : List Char} {found : List FoundImport}

theorem standsIn_toImport {reading : Reading} (isIn : reading.quotation.IsIn code) (isDynamic : Bool) :
    StandsIn code (reading.toImport isDynamic) := by
  refine ⟨reading.quotation.span, rfl, ?_⟩
  rw [Reading.toImport, String.toList_ofList]
  exact isIn

theorem withoutRepeats_sublist (found : List FoundImport) : (withoutRepeats found).Sublist found := by
  induction found with
  | nil => exact List.Sublist.refl _
  | cons first rest ih =>
    rw [withoutRepeats]
    split
    · exact List.cons_sublist_cons.2 (List.nil_sublist _)
    · next second others kept =>
      rw [kept] at ih
      split
      · exact List.cons_sublist_cons.2 ((List.sublist_cons_self _ _).trans ih)
      · exact List.cons_sublist_cons.2 ih

/-- What the three kinds of statements import, each kind in order. -/
def foundIn (code : List Char) : List FoundImport :=
  ((readings "import" staticImport? 0 0 false code).filter (!·.isTypeOnly)).map (Reading.toImport false) ++
    ((readings "export" reexport? 0 0 false code).filter (!·.isTypeOnly)).map (Reading.toImport false) ++
      (readings "import" dynamicImport? 0 0 false code).map (Reading.toImport true)

theorem scan_fst (code : List Char) :
    (scan code).1 = withoutRepeats ((foundIn code).mergeSort fun a b => startOf a ≤ startOf b) := rfl

theorem standsIn_foundIn {item : FoundImport} (member : item ∈ foundIn code) : StandsIn code item := by
  have start := Place.Within.start code
  rw [foundIn, List.mem_append, List.mem_append] at member
  rcases member with (inside | inside) | inside
  · obtain ⟨reading, kept, rfl⟩ := List.mem_map.1 inside
    exact standsIn_toImport (isIn_readings isIn_staticImport? start (List.mem_filter.1 kept).1) _
  · obtain ⟨reading, kept, rfl⟩ := List.mem_map.1 inside
    exact standsIn_toImport (isIn_readings isIn_reexport? start (List.mem_filter.1 kept).1) _
  · obtain ⟨reading, listed, rfl⟩ := List.mem_map.1 inside
    exact standsIn_toImport (isIn_readings isIn_dynamicImport? start listed) _

theorem ahead_of_startOf_le {first second : FoundImport} (here : StandsIn code first)
    (there : StandsIn code second) (least : startOf first ≤ startOf second)
    (differ : first.span? ≠ second.span?) : Ahead first second := by
  obtain ⟨span, is, quoted⟩ := here
  obtain ⟨span', is', quoted'⟩ := there
  rw [startOf, startOf, is, is'] at least
  rw [is, is'] at differ
  rw [Ahead, is, is']
  rintro _ ⟨⟩ _ ⟨⟩
  refine quoted.stop_lt quoted' (Nat.lt_of_le_of_ne least fun same => differ ?_)
  rw [(quoted.eq_of_start quoted' same).2]

theorem Ahead.trans {first second third : FoundImport} (ahead : Ahead first second)
    (stands : StandsIn code second) (ahead' : Ahead second third) : Ahead first third := by
  obtain ⟨span, is, quoted⟩ := stands
  intro start isFirst stop isThird
  have before := ahead start isFirst span is
  have after := ahead' span is stop isThird
  have forward := quoted.stop
  omega

theorem pairwise_withoutRepeats (stand : ∀ item ∈ found, StandsIn code item)
    (sorted : found.Pairwise fun first second => startOf first ≤ startOf second) :
    (withoutRepeats found).Pairwise Ahead := by
  induction found with
  | nil => exact .nil
  | cons first rest ih =>
    obtain ⟨least, sorted⟩ := List.pairwise_cons.1 sorted
    obtain ⟨here, stand⟩ := List.forall_mem_cons.1 stand
    have later := ih stand sorted
    have subset := (withoutRepeats_sublist rest).subset
    rw [withoutRepeats]
    split
    · exact List.pairwise_singleton _ _
    next second others kept =>
    rw [kept] at later subset
    obtain ⟨ahead, apart⟩ := List.pairwise_cons.1 later
    have inside := subset List.mem_cons_self
    split
    · next same =>
      refine List.pairwise_cons.2 ⟨fun other member => ?_, apart⟩
      rw [Ahead, same]
      exact ahead other member
    · next differ =>
      have next := ahead_of_startOf_le here (stand second inside) (least second inside) differ
      refine List.pairwise_cons.2 ⟨List.forall_mem_cons.2 ⟨next, fun other member => ?_⟩, later⟩
      exact next.trans (stand second inside) (ahead other member)

theorem standsIn_scan {item : FoundImport} (member : item ∈ (scan code).1) : StandsIn code item := by
  rw [scan_fst] at member
  exact standsIn_foundIn (List.mem_mergeSort.1 ((withoutRepeats_sublist _).subset member))

theorem pairwise_scan (code : List Char) : (scan code).1.Pairwise Ahead := by
  rw [scan_fst]
  refine pairwise_withoutRepeats (fun item member => standsIn_foundIn (List.mem_mergeSort.1 member)) ?_
  have sorted : ((foundIn code).mergeSort fun a b => startOf a ≤ startOf b).Pairwise
      fun a b => decide (startOf a ≤ startOf b) = true := by
    refine List.pairwise_mergeSort ?_ ?_ _
    · simp only [decide_eq_true_eq]
      omega
    · simp only [Bool.or_eq_true, decide_eq_true_eq]
      omega
  exact sorted.imp of_decide_eq_true

end Scan

end Imports

end ModuleBuild
