import DocumentProof.Bytes.Basic

/-!
# Keccak-256

The sponge of 25 lanes of 64 bits with a rate of 136 bytes and the padding `1 0 … 0 1`, as it was
before a domain bit was added to it for SHA-3. Lane `x + 5 * y` stands in column `x` and row `y`.
-/

namespace DocumentProof

namespace Keccak

abbrev State := Vector UInt64 25

def rotateLeft (x : UInt64) (n : Nat) : UInt64 :=
  x <<< UInt64.ofNat n ||| x >>> UInt64.ofNat (64 - n)

/-! ### The permutation -/

def roundConstants : List UInt64 :=
  [0x0000000000000001, 0x0000000000008082, 0x800000000000808A, 0x8000000080008000,
   0x000000000000808B, 0x0000000080000001, 0x8000000080008081, 0x8000000000008009,
   0x000000000000008A, 0x0000000000000088, 0x0000000080008009, 0x000000008000000A,
   0x000000008000808B, 0x800000000000008B, 0x8000000000008089, 0x8000000000008003,
   0x8000000000008002, 0x8000000000000080, 0x000000000000800A, 0x800000008000000A,
   0x8000000080008081, 0x8000000000008080, 0x0000000080000001, 0x8000000080008008]

/-- How far each lane turns. -/
def rotations : Vector Nat 25 :=
  #v[0, 1, 62, 28, 27, 36, 44, 6, 55, 20, 3, 10, 43, 25, 39, 41, 45, 15, 21, 8, 18, 2, 61, 56, 14]

/-- The parity of column `x`. -/
def parity (s : State) (x : Nat) : UInt64 :=
  s[x % 5] ^^^ s[x % 5 + 5] ^^^ s[x % 5 + 10] ^^^ s[x % 5 + 15] ^^^ s[x % 5 + 20]

/-- Every lane is mixed with the parities of the two columns beside its own. -/
def theta (s : State) : State :=
  let parities : Vector UInt64 5 := Vector.ofFn fun x => parity s x
  let mixed : Vector UInt64 5 := Vector.ofFn fun x =>
    parities[(x.val + 4) % 5] ^^^ rotateLeft parities[(x.val + 1) % 5] 1
  Vector.ofFn fun i => s[i] ^^^ mixed[i.val % 5]

/-- Lanes turn and move to new places. -/
def rhoPi (s : State) : State :=
  Vector.ofFn fun i =>
    let x := i.val % 5
    let y := i.val / 5
    let source := (x + 3 * y) % 5 + 5 * x
    rotateLeft s[source] rotations[source]

/-- Each lane is mixed with the two after it in its row. -/
def chi (s : State) : State :=
  Vector.ofFn fun i =>
    let x := i.val % 5
    let y := i.val / 5
    s[i] ^^^ (~~~ s[(x + 1) % 5 + 5 * y] &&& s[(x + 2) % 5 + 5 * y])

def round (s : State) (constant : UInt64) : State :=
  let s := chi (rhoPi (theta s))
  s.set 0 (s[0] ^^^ constant)

def permute (s : State) : State := roundConstants.foldl round s

/-! ### The sponge -/

/-- The bytes of a block. -/
def rate : Nat := 136

/-- The message up to a whole number of blocks: a one, zeros, and a one as the last bit. -/
def pad (message : Bytes) : Bytes :=
  let missing := rate - message.length % rate
  message ++ if missing = 1 then [0x81] else 0x01 :: List.replicate (missing - 2) 0 ++ [0x80]

/-- The lane of eight bytes, least significant first. -/
def laneOfBytes (bs : Bytes) : UInt64 :=
  bs.foldr (fun b n => n <<< 8 ||| b.toUInt64) 0

def bytesOfLane (lane : UInt64) : Bytes :=
  (List.range 8).map fun i => (lane >>> UInt64.ofNat (8 * i)).toUInt8

/-- Mixes a block into the first lanes and permutes. -/
def absorb (s : State) (block : Bytes) : State :=
  let lanes := (Bytes.pieces 8 17 block).map laneOfBytes
  permute (Vector.ofFn fun i => s[i] ^^^ lanes.getD i 0)

def blocks (padded : Bytes) : List Bytes := Bytes.pieces rate (padded.length / rate) padded

/-- The first 32 bytes of the state after all blocks. -/
def digest (message : Bytes) : Bytes :=
  let s := (blocks (pad message)).foldl absorb (Vector.replicate 25 0)
  bytesOfLane s[0] ++ bytesOfLane s[1] ++ bytesOfLane s[2] ++ bytesOfLane s[3]

end Keccak

/-- The Keccak-256 hash as a word. -/
def keccak256 (message : Bytes) : Word := Word.ofBytes (Keccak.digest message)

/-- The hash of the parts one after the other. -/
def keccak256Concat (parts : List Bytes) : Word := keccak256 parts.flatten

end DocumentProof
