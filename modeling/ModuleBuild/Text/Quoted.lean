import ModuleBuild.Text.Unprintable
/-!
A text between double quotes, with escapes for the quote, the backslash, the common controls and
whatever has no printed form of its own.
-/

namespace ModuleBuild.Text

def escapedInQuotes (c : Char) : List Char :=
  match c with
  | '"' => ['\\', '"']
  | '\\' => ['\\', '\\']
  | '\n' => ['\\', 'n']
  | '\r' => ['\\', 'r']
  | '\t' => ['\\', 't']
  | '\x00' => ['\\', '0']
  | _ =>
    if isUnprintable c then
      ['\\', 'u', '\x7b'] ++ Nat.toDigits 16 c.toNat ++ ['\x7d']
    else [c]

def quoted (text : String) : String :=
  String.ofList (['"'] ++ text.toList.flatMap escapedInQuotes ++ ['"'])

end ModuleBuild.Text
