/-!
# Bytes and words

Bytes are a list. A word is a 256-bit vector, written as 32 bytes with the most significant first.
-/

namespace DocumentProof

abbrev Bytes := List UInt8

/-- A 256-bit word. -/
abbrev Word := BitVec 256

namespace Bytes

/-- The UTF-8 form of a text. -/
def ofString (s : String) : Bytes := s.toUTF8.toList

/-- The text with this UTF-8 form. -/
def toString? (bs : Bytes) : Option String := String.fromUTF8? ⟨bs.toArray⟩

/-- The number written with the most significant byte first. -/
def toNat (bs : Bytes) : Nat := bs.foldl (fun n b => n * 256 + b.toNat) 0

/-- The last `size` bytes of a number, most significant first. -/
def ofNat (size n : Nat) : Bytes :=
  (List.range size).map fun i => UInt8.ofNat (n / Nat.pow 256 (size - 1 - i))

/-- Zeros up to `size` bytes at the end. -/
def padRight (size : Nat) (bs : Bytes) : Bytes := bs ++ List.replicate (size - bs.length) 0

/-- The consecutive pieces of `size` items; `count` of them. -/
def pieces {α : Type} (size : Nat) : Nat → List α → List (List α)
  | 0, _ => []
  | count + 1, xs => xs.take size :: pieces size count (xs.drop size)

theorem length_ofNat (size n : Nat) : (ofNat size n).length = size := by simp [ofNat]

end Bytes

namespace Word

def toBytes (w : Word) : Bytes := Bytes.ofNat 32 w.toNat

def ofBytes (bs : Bytes) : Word := BitVec.ofNat 256 bs.toNat

theorem length_toBytes (w : Word) : (toBytes w).length = 32 := Bytes.length_ofNat 32 _

end Word

end DocumentProof
