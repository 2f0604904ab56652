/-!
Cutting a text at a separating character.
-/

namespace ModuleBuild.Text

/-- The parts between separators; there is one more part than separators. -/
def splitOn (separator : Char) : List Char → List (List Char)
  | [] => [[]]
  | c :: rest =>
    if c = separator then [] :: splitOn separator rest
    else
      match splitOn separator rest with
      | [] => [[c]]
      | first :: more => (c :: first) :: more

/-- What stands before and after the first separator, if there is one. -/
def splitFirst? (separator : Char) (text : List Char) : Option (List Char × List Char) :=
  match text.dropWhile (· ≠ separator) with
  | [] => none
  | _ :: after => some (text.takeWhile (· ≠ separator), after)

/-- What stands before and after the last separator, if there is one. -/
def splitLast? (separator : Char) (text : List Char) : Option (List Char × List Char) :=
  (splitFirst? separator text.reverse).map fun (after, before) => (before.reverse, after.reverse)

def afterLast (separator : Char) (text : List Char) : List Char :=
  match splitLast? separator text with
  | some (_, after) => after
  | none => text

/-- Whether a text begins with another, and what follows it then. -/
def strip? : (start text : List Char) → Option (List Char)
  | [], text => some text
  | _ :: _, [] => none
  | c :: start, d :: text => if c = d then strip? start text else none

theorem strip?_eq_some_iff {start text rest : List Char} :
    strip? start text = some rest ↔ text = start ++ rest := by
  induction start generalizing text with
  | nil => simp [strip?, eq_comm]
  | cons c start ih =>
    cases text with
    | nil => simp [strip?]
    | cons d text =>
      by_cases same : c = d
      · simp [strip?, same, ih]
      · simp [strip?, same, Ne.symm same]

def startsWith (start text : List Char) : Bool := (strip? start text).isSome

def endsWith (finish text : List Char) : Bool := startsWith finish.reverse text.reverse

def occursIn (part : List Char) : List Char → Bool
  | [] => part.isEmpty
  | c :: text => startsWith part (c :: text) || occursIn part text

end ModuleBuild.Text
