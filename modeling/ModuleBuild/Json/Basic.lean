import ModuleBuild.Text.Utf8
/-!
JSON values and their written forms.
-/

namespace ModuleBuild

inductive Json where
  | null
  | bool (value : Bool)
  /-- A number, as it is spelled. -/
  | number (spelling : String)
  /-- A text; there is none when escapes spell half of a surrogate pair. -/
  | string (text? : Option String)
  | array (items : List Json)
  | object (members : List (Option String × Json))

namespace Json

def ofString (text : String) : Json := .string (some text)

def ofStrings (texts : List String) : Json := .array (texts.map ofString)

def ofMembers (members : List (String × Json)) : Json :=
  .object (members.map fun (key, value) => (some key, value))

/-- How a character is written in a text: quote, backslash and controls are escaped. -/
def escaped (c : Char) : List Char :=
  match c with
  | '"' => ['\\', '"']
  | '\\' => ['\\', '\\']
  | '\n' => ['\\', 'n']
  | '\r' => ['\\', 'r']
  | '\t' => ['\\', 't']
  | '\x08' => ['\\', 'b']
  | '\x0c' => ['\\', 'f']
  | _ =>
    if c.toNat < 32 then
      ['\\', 'u', '0', '0', Nat.digitChar (c.toNat / 16), Nat.digitChar (c.toNat % 16)]
    else [c]

def quoted (text : String) : String :=
  String.ofList ('"' :: text.toList.flatMap escaped ++ ['"'])

def indentation (depth : Nat) : String :=
  "\n" ++ String.ofList (List.replicate (2 * depth) ' ')

mutual

/-- Writes a value over several lines, two blanks for each level. -/
def pretty (depth : Nat) : Json → String
  | null => "null"
  | bool true => "true"
  | bool false => "false"
  | number spelling => spelling
  | string text? => quoted (text?.getD "")
  | array [] => "[]"
  | array (item :: items) =>
    "[" ++ indentation (depth + 1) ++ pretty (depth + 1) item ++ prettyItems (depth + 1) items ++
      indentation depth ++ "]"
  | object [] => "\x7b\x7d"
  | object ((key?, value) :: members) =>
    "\x7b" ++ indentation (depth + 1) ++ quoted (key?.getD "") ++ ": " ++
      pretty (depth + 1) value ++ prettyMembers (depth + 1) members ++ indentation depth ++ "\x7d"

def prettyItems (depth : Nat) : List Json → String
  | [] => ""
  | item :: items => "," ++ indentation depth ++ pretty depth item ++ prettyItems depth items

def prettyMembers (depth : Nat) : List (Option String × Json) → String
  | [] => ""
  | (key?, value) :: members =>
    "," ++ indentation depth ++ quoted (key?.getD "") ++ ": " ++ pretty depth value ++
      prettyMembers depth members

end

def render (value : Json) : String := pretty 0 value

end Json

end ModuleBuild
