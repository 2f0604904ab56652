/-!
Texts as bytes. Decoding cuts a byte string into pieces: well-formed characters, and faults, each as
long as a well-formed character could still have begun there. A strict reading refuses at the first
fault and says where it is; a lenient one puts the replacement character in its place.
-/

namespace ModuleBuild

abbrev Bytes := List UInt8

namespace Utf8

def encode (text : List Char) : Bytes := text.flatMap String.utf8EncodeChar

@[simp] theorem encode_nil : encode [] = [] := rfl

@[simp] theorem encode_cons (c : Char) (text : List Char) :
    encode (c :: text) = String.utf8EncodeChar c ++ encode text := rfl

@[simp] theorem encode_append (first second : List Char) :
    encode (first ++ second) = encode first ++ encode second :=
  List.flatMap_append

/-- The number of bytes of a text. -/
def width (text : List Char) : Nat := (encode text).length

/-- Splits a text after a number of bytes, if a character ends there. -/
def split? : Nat → List Char → Option (List Char × List Char)
  | 0, text => some ([], text)
  | _ + 1, [] => none
  | n + 1, c :: text =>
    if c.utf8Size ≤ n + 1 then
      (split? (n + 1 - c.utf8Size) text).map fun (before, after) => (c :: before, after)
    else none

inductive Piece where
  | character (c : Char)
  | invalid (width : Nat)
  | incomplete
deriving DecidableEq

def isContinuation (b : UInt8) : Bool := 0x80 ≤ b && b ≤ 0xBF

/-- Which second bytes may follow the first byte of a character of three or four bytes. -/
def mayFollow (lead second : UInt8) : Bool :=
  if lead = 0xE0 then 0xA0 ≤ second && second ≤ 0xBF
  else if lead = 0xED then 0x80 ≤ second && second ≤ 0x9F
  else if lead = 0xF0 then 0x90 ≤ second && second ≤ 0xBF
  else if lead = 0xF4 then 0x80 ≤ second && second ≤ 0x8F
  else isContinuation second

/-- The character whose code is spelled by a lead value and six-bit continuations. -/
def assemble (lead : Nat) (continuations : List UInt8) : Char :=
  Char.ofNat (continuations.foldl (fun code b => code * 64 + (b.toNat - 0x80)) lead)

/-- The pieces of a byte string, put before those already found, last piece first. -/
def piecesOnto (found : List Piece) : Bytes → List Piece
  | [] => found
  | a :: tail =>
    if a < 0x80 then piecesOnto (.character (Char.ofNat a.toNat) :: found) tail
    else if 0xC2 ≤ a && a ≤ 0xDF then
      match tail with
      | [] => .incomplete :: found
      | b :: rest =>
        if isContinuation b then
          piecesOnto (.character (assemble (a.toNat - 0xC0) [b]) :: found) rest
        else piecesOnto (.invalid 1 :: found) (b :: rest)
    else if 0xE0 ≤ a && a ≤ 0xEF then
      match tail with
      | [] => .incomplete :: found
      | b :: rest =>
        if mayFollow a b then
          match rest with
          | [] => .incomplete :: found
          | c :: rest =>
            if isContinuation c then
              piecesOnto (.character (assemble (a.toNat - 0xE0) [b, c]) :: found) rest
            else piecesOnto (.invalid 2 :: found) (c :: rest)
        else piecesOnto (.invalid 1 :: found) (b :: rest)
    else if 0xF0 ≤ a && a ≤ 0xF4 then
      match tail with
      | [] => .incomplete :: found
      | b :: rest =>
        if mayFollow a b then
          match rest with
          | [] => .incomplete :: found
          | c :: rest =>
            if isContinuation c then
              match rest with
              | [] => .incomplete :: found
              | d :: rest =>
                if isContinuation d then
                  piecesOnto (.character (assemble (a.toNat - 0xF0) [b, c, d]) :: found) rest
                else piecesOnto (.invalid 3 :: found) (d :: rest)
            else piecesOnto (.invalid 2 :: found) (c :: rest)
        else piecesOnto (.invalid 1 :: found) (b :: rest)
    else piecesOnto (.invalid 1 :: found) tail

def pieces (bytes : Bytes) : List Piece := (piecesOnto [] bytes).reverse

/-- Where decoding stopped and why: a malformed sequence of some bytes, or the end of the input
inside a character. -/
structure Fault where
  index : Nat
  width? : Option Nat
deriving DecidableEq

def Fault.message (fault : Fault) : String :=
  match fault.width? with
  | some width => s!"invalid utf-8 sequence of {width} bytes from index {fault.index}"
  | none => s!"incomplete utf-8 byte sequence from index {fault.index}"

/-- Reads pieces into a text, `text` being what was read before, last character first. -/
def readOnto (text : List Char) (index : Nat) : List Piece → Except Fault (List Char)
  | [] => .ok text.reverse
  | .character c :: rest => readOnto (c :: text) (index + c.utf8Size) rest
  | .invalid width :: _ => .error ⟨index, some width⟩
  | .incomplete :: _ => .error ⟨index, none⟩

def decode (bytes : Bytes) : Except Fault (List Char) := readOnto [] 0 (pieces bytes)

def decodeLenient (bytes : Bytes) : List Char :=
  (pieces bytes).map fun
    | .character c => c
    | .invalid _ | .incomplete => '\uFFFD'

end Utf8

namespace Text

def bytes (text : String) : Bytes := Utf8.encode text.toList

end Text

end ModuleBuild
