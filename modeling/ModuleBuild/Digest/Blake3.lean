import ModuleBuild.Text.Utf8
/-!
The BLAKE3 hash function, in its plain mode with 32 bytes of output, and lower-case hexadecimal.

A message is cut into chunks of 1024 bytes and a chunk into blocks of 64. The chunks are the leaves
of a binary tree that is full on its left, so that its levels arise by pairing neighbours.
-/

namespace ModuleBuild.Blake3

abbrev Chain := Vector UInt32 8

abbrev Block := Vector UInt32 16

def initial : Chain :=
  #v[0x6A09E667, 0xBB67AE85, 0x3C6EF372, 0xA54FF53A, 0x510E527F, 0x9B05688C, 0x1F83D9AB, 0x5BE0CD19]

def rotateRight (word : UInt32) (amount : UInt32) : UInt32 :=
  (word >>> amount) ||| (word <<< (32 - amount))

/-- Mixes four words of the state with two words of the message. -/
def mix (state : Block) (a b c d : Fin 16) (x y : UInt32) : Block :=
  let a1 := state[a] + state[b] + x
  let d1 := rotateRight (state[d] ^^^ a1) 16
  let c1 := state[c] + d1
  let b1 := rotateRight (state[b] ^^^ c1) 12
  let a2 := a1 + b1 + y
  let d2 := rotateRight (d1 ^^^ a2) 8
  let c2 := c1 + d2
  let b2 := rotateRight (b1 ^^^ c2) 7
  (((state.set a a2).set b b2).set c c2).set d d2

def round (state message : Block) : Block :=
  let state := mix state 0 4 8 12 message[0] message[1]
  let state := mix state 1 5 9 13 message[2] message[3]
  let state := mix state 2 6 10 14 message[4] message[5]
  let state := mix state 3 7 11 15 message[6] message[7]
  let state := mix state 0 5 10 15 message[8] message[9]
  let state := mix state 1 6 11 12 message[10] message[11]
  let state := mix state 2 7 8 13 message[12] message[13]
  mix state 3 4 9 14 message[14] message[15]

def permute (m : Block) : Block :=
  #v[m[2], m[6], m[3], m[10], m[7], m[0], m[4], m[13], m[1], m[11], m[12], m[5], m[9], m[14], m[15],
    m[8]]

/-- The number of further rounds, each on a permuted message. -/
def rounds : Nat → Block → Block → Block
  | 0, state, _ => state
  | n + 1, state, message =>
    let message := permute message
    rounds n (round state message) message

/-- What a compression takes in: the chain so far, a block, its number of bytes, the number of the
chunk, and flags that tell the parts of the tree apart. -/
structure Node where
  chain : Chain
  block : Block
  length : UInt32
  counter : UInt64
  flags : UInt32

def chunkStart : UInt32 := 1
def chunkEnd : UInt32 := 2
def parent : UInt32 := 4
def root : UInt32 := 8

def Node.compress (node : Node) : Chain :=
  let h := node.chain
  let state : Block :=
    #v[h[0], h[1], h[2], h[3], h[4], h[5], h[6], h[7], initial[0], initial[1], initial[2],
      initial[3], node.counter.toUInt32, (node.counter >>> 32).toUInt32, node.length, node.flags]
  let state := rounds 6 (round state node.block) node.block
  Vector.ofFn fun i : Fin 8 => state[i.val] ^^^ state[i.val + 8]

/-- Four bytes of a message as a word, least significant byte first; bytes past the end are zero. -/
def wordAt (bytes : Array UInt8) (i : Nat) : UInt32 :=
  (bytes.getD i 0).toUInt32 ||| ((bytes.getD (i + 1) 0).toUInt32 <<< 8) |||
    ((bytes.getD (i + 2) 0).toUInt32 <<< 16) ||| ((bytes.getD (i + 3) 0).toUInt32 <<< 24)

def blockOf (bytes : Bytes) : Block :=
  let bytes := bytes.toArray
  Vector.ofFn fun i : Fin 16 => wordAt bytes (4 * i.val)

def slices (width : Nat) : Nat → Bytes → List Bytes
  | 0, _ => []
  | count + 1, bytes => bytes.take width :: slices width count (bytes.drop width)

/-- The slices of a message, of which there is at least one. -/
def slicesOf (width : Nat) (bytes : Bytes) : List Bytes :=
  slices width (max 1 ((bytes.length + (width - 1)) / width)) bytes

/-- The last node of a chunk whose remaining blocks are given. -/
def chunkNode (counter : UInt64) (chain : Chain) (flags : UInt32) : List Bytes → Node
  | [] => ⟨chain, blockOf [], 0, counter, flags ||| chunkEnd⟩
  | [block] => ⟨chain, blockOf block, block.length.toUInt32, counter, flags ||| chunkEnd⟩
  | block :: rest =>
    chunkNode counter
      (Node.compress ⟨chain, blockOf block, block.length.toUInt32, counter, flags⟩) 0 rest

def chunk (counter : Nat) (bytes : Bytes) : Node :=
  chunkNode counter.toUInt64 initial chunkStart (slicesOf 64 bytes)

def join (left right : Node) : Node :=
  ⟨initial, left.compress ++ right.compress, 64, 0, parent⟩

/-- One level of the tree up: neighbours are joined, and an odd last node rises by itself. -/
def level : List Node → List Node
  | left :: right :: rest => join left right :: level rest
  | nodes => nodes

def climb : (height : Nat) → List Node → List Node
  | height + 1, left :: right :: rest => climb height (level (left :: right :: rest))
  | _, nodes => nodes

def top (bytes : Bytes) : Node :=
  let leaves := (slicesOf 1024 bytes).mapIdx chunk
  (climb leaves.length leaves).headD (chunk 0 [])

def wordBytes (word : UInt32) : List UInt8 :=
  [word.toUInt8, (word >>> 8).toUInt8, (word >>> 16).toUInt8, (word >>> 24).toUInt8]

def hash (bytes : Bytes) : Bytes :=
  let node := top bytes
  ({ node with flags := node.flags ||| root }.compress).toList.flatMap wordBytes

@[simp] theorem length_hash (bytes : Bytes) : (hash bytes).length = 32 := by
  simp [hash, List.length_flatMap, wordBytes, List.map_const']

def hexDigit (value : UInt8) : Char := Nat.digitChar value.toNat

def hexDigits (bytes : Bytes) : List Char :=
  bytes.flatMap fun (b : UInt8) => [hexDigit (b >>> 4), hexDigit (b &&& 15)]

theorem length_hexDigits (bytes : Bytes) : (hexDigits bytes).length = 2 * bytes.length := by
  induction bytes with
  | nil => rfl
  | cons b rest ih =>
    simp only [hexDigits, List.flatMap_cons, List.length_append, List.length_cons, List.length_nil]
    simp only [hexDigits] at ih
    omega

theorem mem_hexDigits {bytes : Bytes} {c : Char} (member : c ∈ hexDigits bytes) :
    ∃ n < 16, c = Nat.digitChar n := by
  obtain ⟨b, -, is⟩ := List.mem_flatMap.1 member
  have size := b.toNat_lt
  simp only [List.mem_cons, List.not_mem_nil, or_false] at is
  rcases is with rfl | rfl
  · refine ⟨(b >>> 4).toNat, ?_, rfl⟩
    rw [UInt8.toNat_shiftRight, Nat.shiftRight_eq_div_pow]
    exact Nat.div_lt_of_lt_mul size
  · refine ⟨(b &&& 15).toNat, ?_, rfl⟩
    rw [UInt8.toNat_and]
    exact Nat.lt_of_le_of_lt Nat.and_le_right (by decide)

def hex (bytes : Bytes) : String := String.ofList (hexDigits (hash bytes))

theorem length_hex (bytes : Bytes) : (hex bytes).length = 64 := by
  simp [hex, length_hexDigits]

end ModuleBuild.Blake3
