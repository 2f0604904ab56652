import ModuleBuild.Pattern.Reader
/-!
Escaped texts as patterns. A text with a backslash before each character that means something is read as the
literals of its characters, in any place of a pattern without flags. A name between the anchors of a text is
therefore read as the pattern of this name, unless it takes too much room.
-/

namespace ModuleBuild

namespace CharSet

theorem sole?_single (c : Char) : (single c).sole? = some c := by
  have valid : c.toNat < 0xD800 ∨ 0xDFFF < c.toNat ∧ c.toNat < 0x110000 := c.valid
  have code : Char.ofNat c.toNat = c := Char.ofNat_toNat c
  have first : runs.start (place c.toNat) = c.toNat := by
    unfold runs.start place
    split <;> split <;> omega
  by_cases last : c.toNat = 0x10FFFF
  · simp only [sole?, single, range, runs, runs.pairs, first, if_pos last]
    simp only [last]
    rw [← last, code]
  · have next : place (c.toNat + 1) - 1 = c.toNat := by
      unfold place
      split <;> omega
    simp only [sole?, single, range, runs, runs.pairs, first, if_neg last, next, if_true, code]

end CharSet

namespace Pattern

theorem isMeta_iff {c : Char} : isMeta c = true ↔ c ∈ "\\.+*?()|[]\x7b\x7d^$#&-~".toList := by
  rw [isMeta, String.contains_char_eq, decide_eq_true_iff]

theorem escape_of_plain {text : List Char}
    (plain : ∀ c ∈ text, c ∉ "\\.+*?()|[]\x7b\x7d^$#&-~".toList) : escape text = text := by
  induction text with
  | nil => rfl
  | cons c text ih =>
    obtain ⟨first, plain⟩ := List.forall_mem_cons.1 plain
    rw [escape, List.flatMap_cons, if_neg fun special => first (isMeta_iff.1 special), List.singleton_append]
    exact congrArg (c :: ·) (ih plain)

/-! ## Steps of the reader -/

theorem literalExpr?_plain (c : Char) : literalExpr? {} c false = some (.literal [c]) := by
  have sole : Expr.ofSet (CharSet.single c) = .literal [c] := by
    rw [Expr.ofSet, CharSet.sole?_single]
  exact congrArg some sole

variable {state : State}

theorem itemFrom?_of_take? (flags : state.flags = {}) {c : Char} {rest : List Char} {next : State} {width : Nat}
    (takes : state.take? c rest = some (next, width)) :
    itemFrom? state (c :: rest) = itemFrom? next (rest.drop width) := by
  -- blanks are skipped in verbose patterns only
  have noLayout : ¬ 0 < layoutWidth state.flags (c :: rest) := by
    rw [flags]
    exact Nat.lt_irrefl 0
  rw [itemFrom?, if_neg noLayout, takes]

theorem take?_plain (flags : state.flags = {}) {c : Char} (plain : isMeta c = false) (rest : List Char) :
    state.take? c rest = some (state.push (.literal [c]) 0, 0) := by
  unfold State.take?
  split
  case h_13 => simp only [flags, literalExpr?_plain, Option.map_some]
  -- all other cases are of characters that mean something
  all_goals exact absurd (isMeta_iff.2 (by decide)) (Bool.eq_false_iff.1 plain)

theorem take?_escaped (flags : state.flags = {}) {c : Char} (special : isMeta c = true) (rest : List Char) :
    state.take? '\\' (c :: rest) = some (state.push (.literal [c]) 0, 1) := by
  have escaped : escape? {} (c :: rest) = some (.literal c false, 1) := by
    have listed : c ∈ ['\\', '.', '+', '*', '?', '(', ')', '|', '[', ']', '\x7b', '\x7d', '^', '$', '#',
      '&', '-', '~'] := isMeta_iff.1 special
    simp only [List.mem_cons, List.not_mem_nil, or_false] at listed
    rcases listed with rfl | rfl | rfl | rfl | rfl | rfl | rfl | rfl | rfl | rfl | rfl | rfl | rfl |
      rfl | rfl | rfl | rfl | rfl <;> rfl
  simp only [State.take?, flags, escaped, literalExpr?_plain, Option.map_some]

/-! ## Several parts -/

def State.pushAll (state : State) (exprs : List Expr) : State := exprs.foldl (·.push · 0) state

theorem State.pushAll_eq (exprs : List Expr) :
    state.pushAll exprs =
      { state with
        level := { state.level with
          items := (exprs.map fun expr => ({ expr } : Item)).reverse ++ state.level.items } } := by
  induction exprs generalizing state with
  | nil => rfl
  | cons expr exprs ih =>
    refine ih.trans ?_
    simp [State.push, Level.push]

theorem itemFrom?_escape (flags : state.flags = {}) (text rest : List Char) :
    itemFrom? state (escape text ++ rest) = itemFrom? (state.pushAll (text.map (.literal [·]))) rest := by
  induction text generalizing state with
  | nil => rfl
  | cons c text ih =>
    have step : itemFrom? state (escape (c :: text) ++ rest) =
        itemFrom? (state.push (.literal [c]) 0) (escape text ++ rest) := by
      cases special : isMeta c with
      | true =>
        have unfolded : escape (c :: text) ++ rest = '\\' :: c :: (escape text ++ rest) := by
          simp [escape, special]
        rw [unfolded, itemFrom?_of_take? flags (take?_escaped flags special _), List.drop_one, List.tail_cons]
      | false =>
        have unfolded : escape (c :: text) ++ rest = c :: (escape text ++ rest) := by
          simp [escape, special]
        rw [unfolded, itemFrom?_of_take? flags (take?_plain flags special _), List.drop_zero]
    exact step.trans (ih flags)

theorem itemFrom?_nil (closed : state.outer = []) : itemFrom? state [] = some state.level.content := by
  rw [itemFrom?, closed]
  rfl

/-- Parts without structure of their own, one after the other, are nested no deeper than one level. -/
theorem together_concat (exprs : List Expr) (simple : ∀ expr ∈ exprs, expr.parts = [expr]) :
    (together .concat (exprs.map fun expr => ({ expr } : Item))).expr = .concat exprs ∧
      (together .concat (exprs.map fun expr => ({ expr } : Item))).depth ≤ 1 := by
  match exprs with
  | [] => exact ⟨rfl, Nat.zero_le 1⟩
  | [expr] =>
    have alone : Expr.concat [expr] = expr := by
      rw [Expr.concat, List.flatMap_singleton, simple expr List.mem_cons_self]
      cases expr <;> rfl
    exact ⟨alone.symm, Nat.zero_le 1⟩
  | first :: second :: rest =>
    have flat : ∀ items : List Expr, (items.map fun _ => 0).foldl max 0 = 0 := fun items => by
      induction items with
      | nil => rfl
      | cons item items ih => exact ih
    constructor
    · simp [together, Function.comp_def]
    · simpa [together, Function.comp_def] using flat rest

theorem glue_literals (text : List Char) (rest : List Expr) :
    (text.map fun c => Expr.literal [c]).foldr Expr.glue rest =
      (Expr.ofText text).parts.foldr Expr.glue rest := by
  induction text with
  | nil => rfl
  | cons c text ih =>
    rw [List.map_cons, List.foldr_cons, ih]
    cases text with
    | nil => rfl
    | cons d text =>
      cases rest with
      | nil => rfl
      | cons part rest => cases part <;> rfl

theorem concat_literals (before after : List Expr) (text : List Char) :
    Expr.concat (before ++ text.map (.literal [·]) ++ after) = .concat (before ++ .ofText text :: after) := by
  have single : (text.map fun c => Expr.literal [c]).flatMap Expr.parts =
      text.map fun c => Expr.literal [c] := by
    rw [List.flatMap_map]
    exact List.map_eq_flatMap.symm
  simp only [Expr.concat, List.append_assoc, List.flatMap_append, List.flatMap_cons, List.foldr_append,
    single, glue_literals]

/-! ## Names between anchors -/

theorem read?_of_parts {source : String} {exprs : List Expr} (simple : ∀ expr ∈ exprs, expr.parts = [expr])
    (reads : itemFrom? {} source.toList = itemFrom? (State.pushAll {} exprs) []) :
    read? source =
      if (Expr.concat exprs).isWithinLimit then some { source, expr := .concat exprs } else none := by
  obtain ⟨whole, shallow⟩ := together_concat exprs simple
  have content : itemFrom? (State.pushAll {} exprs) [] =
      some { together .concat (exprs.map fun expr => ({ expr } : Item)) with isSettings := false } := by
    rw [State.pushAll_eq, itemFrom?_nil rfl]
    simp [Level.content, Level.split, together]
  have deep : (together .concat (exprs.map fun expr => ({ expr } : Item))).depth ≤ nestingLimit :=
    Nat.le_trans shallow (by decide)
  rw [read?, reads, content]
  simp only [whole, deep, decide_true, Bool.true_and]

theorem take?_caret (flags : state.flags = {}) (rest : List Char) :
    state.take? '^' rest = some (state.push (.look .textStart false) 0, 0) := by
  simp only [State.take?, flags, caretExpr, Bool.not_false, if_true]

theorem take?_dollar (flags : state.flags = {}) (rest : List Char) :
    state.take? '$' rest = some (state.push (.look .textEnd false) 0, 0) := by
  simp only [State.take?, flags, dollarExpr, Bool.not_false, if_true]

def namedParts (text : List Char) : List Expr := .look .textStart false :: text.map (.literal [·])

theorem parts_of_mem_namedParts {text : List Char} {expr : Expr} (listed : expr ∈ namedParts text) :
    expr.parts = [expr] := by
  rcases List.mem_cons.1 listed with rfl | listed
  · rfl
  · obtain ⟨c, -, rfl⟩ := List.mem_map.1 listed
    rfl

theorem itemFrom?_named (text rest : List Char) :
    itemFrom? {} ('^' :: (escape text ++ rest)) = itemFrom? (State.pushAll {} (namedParts text)) rest := by
  rw [itemFrom?_of_take? rfl (take?_caret rfl _), List.drop_zero, itemFrom?_escape rfl]
  rfl

theorem read?_startingWith (text : String) :
    read? (startingWith text).source =
      if (startingWith text).expr.isWithinLimit then some (startingWith text) else none := by
  have reads : itemFrom? {} (startingWith text).source.toList =
      itemFrom? (State.pushAll {} (namedParts text.toList)) [] := by
    have written : (startingWith text).source.toList = '^' :: (escape text.toList ++ []) := by
      rw [startingWith, String.toList_ofList, List.append_nil]
    rw [written, itemFrom?_named]
  have whole : Expr.concat (namedParts text.toList) = (startingWith text).expr := by
    have joined := concat_literals [.look .textStart false] [] text.toList
    rwa [List.append_nil] at joined
  rw [read?_of_parts (fun _ => parts_of_mem_namedParts) reads, whole]

theorem read?_exactly (text : String) :
    read? (exactly text).source =
      if (exactly text).expr.isWithinLimit then some (exactly text) else none := by
  have simple : ∀ expr ∈ namedParts text.toList ++ [.look .textEnd false], expr.parts = [expr] := by
    intro expr listed
    rcases List.mem_append.1 listed with listed | listed
    · exact parts_of_mem_namedParts listed
    · rw [List.mem_singleton.1 listed]
      rfl
  have reads : itemFrom? {} (exactly text).source.toList =
      itemFrom? (State.pushAll {} (namedParts text.toList ++ [.look .textEnd false])) [] := by
    have written : (exactly text).source.toList = '^' :: (escape text.toList ++ ['$']) := by
      rw [exactly, String.toList_ofList]
      rfl
    have flags : (State.pushAll {} (namedParts text.toList)).flags = {} := by rw [State.pushAll_eq]
    rw [written, itemFrom?_named, itemFrom?_of_take? flags (take?_dollar flags []), List.drop_zero,
      State.pushAll, State.pushAll, List.foldl_append]
    rfl
  have whole : Expr.concat (namedParts text.toList ++ [.look .textEnd false]) = (exactly text).expr :=
    concat_literals [.look .textStart false] [.look .textEnd false] text.toList
  rw [read?_of_parts simple reads, whole]

end Pattern

end ModuleBuild
