import ModuleBuild.OrderedMap
/-!
Settings before they are given a meaning. Later layers of settings are laid over earlier ones: tables
are merged key by key, and anything else takes the place of what was there.
-/

namespace ModuleBuild.Config

inductive Value where
  /-- A setting that is known and has no value. -/
  | empty
  | text (value : String)
  | boolean (value : Bool)
  | integer (value : Int)
  /-- A number with a fraction or an exponent, as it is spelled; no setting takes one. -/
  | decimal (spelling : String)
  | list (items : List Value)
  /-- No key occurs twice. -/
  | table (entries : List (String × Value))

namespace Value

mutual

def overlay (old : Value) : Value → Value
  | .table entries =>
    match old with
    | .table below => .table (entriesOver below entries)
    | _ => .table entries
  | new => new

def entriesOver (below : List (String × Value)) :
    List (String × Value) → List (String × Value)
  | [] => below
  | entry :: rest => entriesOver (entryOver below entry) rest

def entryOver (below : List (String × Value)) : String × Value → List (String × Value)
  | (key, value) =>
    let placed :=
      match OrderedMap.lookup key below with
      | some old => overlay old value
      | none => value
    OrderedMap.assign key placed below

end

def ofTexts (texts : List String) : Value := .list (texts.map .text)

def nested (value : Value) : List String → Value
  | [] => value
  | key :: keys => .table [(key, nested value keys)]

end Value

end ModuleBuild.Config
