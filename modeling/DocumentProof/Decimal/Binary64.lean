/-!
# Binary64 numbers and their decimal text

A binary64 number is kept as its 64 bits, so two of them are equal exactly when their bits are. A
decimal `digits * 10 ^ exponent` is rounded to the nearest binary64 number, a tie going to the even
significand, and a binary64 number is written with the fewest digits that round back to it. Both
directions are computed in exact arithmetic on natural numbers.
-/

namespace DocumentProof

/-- A binary64 number, given by its bits. -/
structure Binary64 where
  bits : UInt64
deriving DecidableEq, Inhabited

/-- The decimal number `digits * 10 ^ exponent`. -/
structure Decimal where
  digits : Nat
  exponent : Int
deriving DecidableEq, Inhabited

namespace Binary64

/-! ### Sign and magnitude -/

def isNegative (x : Binary64) : Bool := decide (0x8000000000000000 ≤ x.bits.toNat)

/-- The bits without the sign. The order of magnitudes is the order of these numbers. -/
def magnitude (x : Binary64) : Nat := x.bits.toNat % 0x8000000000000000

/-- The magnitude of the infinities: everything from here on is no number. -/
def infinite : Nat := 2047 * 0x10000000000000

def ofMagnitude (negative : Bool) (m : Nat) : Binary64 :=
  ⟨UInt64.ofNat ((if negative then 0x8000000000000000 else 0) + m)⟩

/-- The magnitude as `significand * 2 ^ power`. -/
def significand (x : Binary64) : Nat :=
  if x.magnitude < 0x10000000000000 then x.magnitude else 0x10000000000000 + x.magnitude % 0x10000000000000

def power (x : Binary64) : Int :=
  if x.magnitude < 0x10000000000000 then -1074 else (x.magnitude / 0x10000000000000 : Nat) - 1075

/-! ### Rounding a decimal -/

/-- The quotient rounded to the nearest integer, a tie going to the even one. -/
def divRound (n d : Nat) : Nat :=
  let q := n / d
  let r := n % d
  if d < 2 * r ∨ (2 * r = d ∧ q % 2 = 1) then q + 1 else q

/-- The magnitude nearest to `n / d`, for positive `n` and `d`. A significand that rounds up to
`2 ^ 53` carries into the exponent by itself. -/
def nearestMagnitude (n d : Nat) : Nat :=
  let scaled (q : Int) : Nat × Nat := (n * Nat.pow 2 (-q).toNat, d * Nat.pow 2 q.toNat)
  let q := max ((n.log2 : Int) - d.log2 - 53) (-1074)
  let q := if (scaled q).1 / (scaled q).2 < 0x20000000000000 then q else q + 1
  (q + 1074).toNat * 0x10000000000000 + divRound (scaled q).1 (scaled q).2

/-- The number nearest to `± digits * 10 ^ exponent`, or `none` where that overflows. -/
def ofDecimal? (negative : Bool) (x : Decimal) : Option Binary64 :=
  let size : Int := (Nat.toDigits 10 x.digits).length + x.exponent
  if x.digits = 0 ∨ size < -330 then some (ofMagnitude negative 0)
  else if 310 < size then none
  else
    let m := nearestMagnitude (x.digits * Nat.pow 10 x.exponent.toNat)
      (Nat.pow 10 (-x.exponent).toNat)
    if m < infinite then some (ofMagnitude negative m) else none

/-! ### The fewest digits that round back -/

/-- The point of the grid of multiples of `10 ^ p` that rounds to `m * 2 ^ q`: of the two
neighbours the one that does, the nearer if both do, the even one on a tie. -/
def gridPoint? (m : Nat) (q p : Int) : Option Nat :=
  let scale := Nat.pow 2 (q - 2).toNat * Nat.pow 10 (-p).toNat
  let unit := Nat.pow 2 (2 - q).toNat * Nat.pow 10 p.toNat
  let value := 4 * m * scale
  let low := (if m = 0x10000000000000 ∧ -1074 < q then 4 * m - 1 else 4 * m - 2) * scale
  let high := (4 * m + 2) * scale
  let inside (c : Nat) : Bool :=
    if m % 2 = 0 then low ≤ c * unit ∧ c * unit ≤ high else low < c * unit ∧ c * unit < high
  let c := value / unit
  let below := value - c * unit
  let above := (c + 1) * unit - value
  match inside c, inside (c + 1) with
  | true, false => some c
  | false, true => some (c + 1)
  | true, true => some (if below < above ∨ (below = above ∧ c % 2 = 0) then c else c + 1)
  | false, false => none

/-- The first grid with a point that rounds to `m * 2 ^ q`, from the steps `10 ^ p` on downwards. -/
def firstGrid (m : Nat) (q : Int) : Nat → Int → Decimal
  | 0, _ => ⟨m * Nat.pow 2 q.toNat * Nat.pow 5 (-q).toNat, min q 0⟩
  | n + 1, p =>
    match gridPoint? m q p with
    | some c => ⟨c, p⟩
    | none => firstGrid m q n (p - 1)

/-- The magnitude as the decimal of fewest digits that rounds to it, the nearest one of those. -/
def shortest (x : Binary64) : Decimal :=
  if x.magnitude = 0 then ⟨0, 0⟩
  else
    let top : Int := ((x.significand.log2 : Int) + x.power + 1) * 30103 / 100000 + 1
    firstGrid x.significand x.power 24 top

end Binary64

namespace Decimal

/-! ### Layouts -/

def digitText (x : Decimal) : List Char := Nat.toDigits 10 x.digits

/-- The power of ten of the first digit. -/
def leading (x : Decimal) : Int := x.digitText.length + x.exponent - 1

/-- All digits in their places. A whole number ends in `fraction`. -/
def positional (x : Decimal) (fraction : List Char) : List Char :=
  let ds := x.digitText
  if 0 ≤ x.exponent then ds ++ List.replicate x.exponent.toNat '0' ++ fraction
  else if 0 ≤ x.leading then
    let n := x.leading.toNat + 1
    ds.take n ++ '.' :: ds.drop n
  else '0' :: '.' :: List.replicate (-x.leading - 1).toNat '0' ++ ds

/-- One digit before the point, and the power of ten with its sign. -/
def scientific (x : Decimal) : List Char :=
  let mantissa := match x.digitText with
    | [] => []
    | [d] => [d]
    | d :: ds => d :: '.' :: ds
  mantissa ++ 'e' :: (if x.leading < 0 then '-' else '+') :: Nat.toDigits 10 x.leading.natAbs

end Decimal

namespace Binary64

def signed (x : Binary64) (cs : List Char) : List Char := if x.isNegative then '-' :: cs else cs

/-- Plain text: never an exponent, and no fraction for a whole number. -/
def plainText (x : Binary64) : String := String.ofList (x.signed (x.shortest.positional []))

end Binary64

end DocumentProof
