/-!
# The curve secp256k1

The points of `y ^ 2 = x ^ 3 + 7` over the field of `fieldOrder` elements, a group of prime order
`groupOrder`. A point is kept as `(x, y, z)` and stands for `(x / z ^ 2, y / z ^ 3)`; the point at
infinity has `z = 0`. Field elements are natural numbers below the order.
-/

namespace DocumentProof

namespace Secp256k1

def fieldOrder : Nat := 0xfffffffffffffffffffffffffffffffffffffffffffffffffffffffefffffc2f

def groupOrder : Nat := 0xFFFFFFFFFFFFFFFFFFFFFFFFFFFFFFFEBAAEDCE6AF48A03BBFD25E8CD0364141

/-! ### Arithmetic modulo a prime -/

/-- The 256 low bits of an exponent or a factor, the highest first. -/
def bits (n : Nat) : List Bool := (List.range 256).map fun i => n.testBit (255 - i)

def powMod (m base exponent : Nat) : Nat :=
  (bits exponent).foldl (fun acc bit =>
    let square := acc * acc % m
    if bit then square * base % m else square) 1

/-- The inverse modulo a prime. -/
def invMod (m a : Nat) : Nat := powMod m a (m - 2)

def mul (a b : Nat) : Nat := a * b % fieldOrder

def sub (a b : Nat) : Nat := (a + (fieldOrder - b)) % fieldOrder

/-! ### Points -/

structure Point where
  x : Nat
  y : Nat
  z : Nat
deriving DecidableEq

namespace Point

def infinity : Point := ⟨1, 1, 0⟩

def generator : Point :=
  ⟨0x79BE667EF9DCBBAC55A06295CE870B07029BFCDB2DCE28D959F2815B16F81798,
   0x483ADA7726A3C4655DA4FBFC0E1108A8FD17B448A68554199C47D08FFB10D4B8, 1⟩

def isInfinity (p : Point) : Bool := p.z == 0

def double (p : Point) : Point :=
  if p.z = 0 ∨ p.y = 0 then infinity
  else
    let y2 := mul p.y p.y
    let s := 4 * mul p.x y2 % fieldOrder
    let m := 3 * mul p.x p.x % fieldOrder
    let x := sub (mul m m) (2 * s % fieldOrder)
    ⟨x, sub (mul m (sub s x)) (8 * mul y2 y2 % fieldOrder), 2 * mul p.y p.z % fieldOrder⟩

def add (p q : Point) : Point :=
  if p.z = 0 then q
  else if q.z = 0 then p
  else
    let pz2 := mul p.z p.z
    let qz2 := mul q.z q.z
    let u1 := mul p.x qz2
    let u2 := mul q.x pz2
    let s1 := mul p.y (mul qz2 q.z)
    let s2 := mul q.y (mul pz2 p.z)
    if u1 = u2 then
      if s1 = s2 then double p else infinity
    else
      let h := sub u2 u1
      let r := sub s2 s1
      let h2 := mul h h
      let h3 := mul h2 h
      let v := mul u1 h2
      let x := sub (sub (mul r r) h3) (2 * v % fieldOrder)
      ⟨x, sub (mul r (sub v x)) (mul s1 h3), mul h (mul p.z q.z)⟩

/-- The multiple of a point by doubling and adding. -/
def smul (n : Nat) (p : Point) : Point :=
  (bits n).foldl (fun acc bit => if bit then add (double acc) p else double acc) infinity

/-- The coordinates of a point that is not at infinity. -/
def affine? (p : Point) : Option (Nat × Nat) :=
  if p.z = 0 then none
  else
    let inverse := invMod fieldOrder p.z
    let inverse2 := mul inverse inverse
    some (mul p.x inverse2, mul p.y (mul inverse2 inverse))

/-- The point with this first coordinate and a second one of this parity. -/
def lift? (x : Nat) (odd : Bool) : Option Point :=
  if x < fieldOrder then
    let square := (mul (mul x x) x + 7) % fieldOrder
    let root := powMod fieldOrder square ((fieldOrder + 1) / 4)
    if mul root root = square then
      some ⟨x, if decide (root % 2 = 1) = odd then root else sub 0 root, 1⟩
    else none
  else none

end Point

end Secp256k1

end DocumentProof
