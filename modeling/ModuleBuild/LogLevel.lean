import ModuleBuild.Text.Lower
/-!
How much is logged.
-/

namespace ModuleBuild

inductive LogLevel where
  | off
  | error
  | warn
  | info
  | debug
deriving DecidableEq

namespace LogLevel

def name : LogLevel → String
  | off => "off"
  | error => "error"
  | warn => "warn"
  | info => "info"
  | debug => "debug"

structure Unknown where
  text : String
deriving DecidableEq

def Unknown.message (unknown : Unknown) : String := s!"Invalid log level: {unknown.text}"

def words : List (String × LogLevel) :=
  [("silent", off), ("off", off), ("error", error), ("warn", warn), ("warning", warn),
    ("info", info), ("debug", debug)]

/-- Reads a level in any case. -/
def read (text : String) : Except Unknown LogLevel :=
  let word := Text.lower text
  match words.lookup word with
  | some level => .ok level
  | none => .error ⟨word⟩

end LogLevel

end ModuleBuild
