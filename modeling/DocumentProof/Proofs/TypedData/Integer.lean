import DocumentProof.Proofs.TypedData.Atoms
import DocumentProof.Proofs.TypedData.Encoder
import Mathlib.Data.Nat.Size

/-!
# Integers as words

An unsigned integer of so many bits has a word if it is written without a sign and lies below the
power of two, a signed one if it lies between the two powers of one bit less, the lower one
included. The word is the integer modulo the size of a word, the highest byte first, and nothing
that is no integer has a word (`value_integer_exact`).

A machine finds the word of a signed integer from its sign and its magnitude, with a bound that is
shifted into place and a difference from zero for the negative. `Machine` has these steps, each of
which stops where its result is not what arithmetic says. They never stop so and they give the same
word as the encoder, or the same error (`Machine.signed_eq`, `Machine.unsigned_eq`).
-/

namespace DocumentProof

/-! ### Machine words -/

namespace Machine

open Encode

/-- What stops the machine: a result that is not exact, or a value that it refuses. -/
inductive Stop where
  | overflow
  | refused (e : CryptoError)

/-- The result of a step, if it is what arithmetic says. -/
def exactly {α : Type} (result : α) (correct : Prop) [Decidable correct] : Except Stop α :=
  if correct then .ok result else .error .overflow

/-- A difference of unsigned integers. -/
def sub (m n : Nat) : Except Stop Nat := exactly (m - n) (n ≤ m)

/-- A shift to the left by fewer places than there are. No bit may be lost. -/
def shiftLeft (x : Word) (k : Nat) : Except Stop Word :=
  exactly (x <<< k) (k < 256 ∧ (x <<< k).toNat = x.toNat * 2 ^ k)

/-- The absolute value of a signed word of 64 bits, as an unsigned one. -/
def unsignedAbs (n : BitVec 64) : Except Stop (BitVec 64) :=
  exactly n.abs (n.abs.toNat = n.toInt.natAbs)

/-- Zero less a magnitude, as a signed word. -/
def negate (m : Word) : Except Stop Word := exactly (0 - m) ((0 - m).toInt = -(m.toNat : Int))

/-- Whether the integer that a text gives is negative, and its magnitude. -/
def signMagnitudeText? : List Char → Option (Bool × Word)
  | '-' :: cs => (naturalText? cs).map fun m => (decide (m ≠ 0), BitVec.ofNat 256 m)
  | cs => (naturalText? cs).map fun m => (false, BitVec.ofNat 256 m)

/-- The same for the integer that a value gives. -/
def signMagnitude : Json → Except Stop (Option (Bool × Word))
  | .number n =>
    match n.toInt64? with
    | some i => do
      let magnitude ← unsignedAbs (BitVec.ofInt 64 i)
      return some (decide (i < 0), magnitude.setWidth 256)
    | none => return n.toNat?.map fun u => (false, BitVec.ofNat 256 u)
  | .string s => return signMagnitudeText? s.toList
  | _ => return none

/-- The word of a sign and a magnitude, where this is in range. -/
def place (e : CryptoError) (bound : Word) (negative : Bool) (magnitude : Word) :
    Except Stop Word :=
  match negative with
  | true => if magnitude ≤ bound then negate magnitude else .error (.refused e)
  | false => if magnitude < bound then .ok magnitude else .error (.refused e)

/-- The power of two that bounds the signed integers of this width. -/
def limit (width : Fin 32) : Except Stop Word := do
  shiftLeft 1 (← sub (FieldType.bitCount width) 1)

/-- The word of a signed integer of this width. -/
def signed (width : Fin 32) (v : Json) : Except Stop Word := do
  match ← signMagnitude v with
  | none => .error (.refused (.invalidValue (FieldType.int width).toText v "expected an integer"))
  | some (negative, magnitude) =>
    place (.invalidValue (FieldType.int width).toText v "out of range") (← limit width) negative
      magnitude

/-- The word of an unsigned integer of this width, which has at most so many bits. -/
def unsigned (width : Fin 32) (v : Json) : Except Stop Word :=
  match natural? v with
  | none =>
    .error (.refused (.invalidValue (FieldType.uint width).toText v "expected an unsigned integer"))
  | some n =>
    if FieldType.bitCount width < n.size then
      .error (.refused (.invalidValue (FieldType.uint width).toText v "out of range"))
    else .ok (BitVec.ofNat 256 n)

/-! ### No step overflows -/

theorem exactly_eq_ok {α : Type} {result : α} {correct : Prop} [Decidable correct] (h : correct) :
    exactly result correct = .ok result := if_pos h

/-- The lowest signed word has an absolute value too. -/
theorem toNat_abs (n : BitVec 64) : n.abs.toNat = n.toInt.natAbs := by
  have hlt := n.isLt
  rw [BitVec.toNat_abs, BitVec.toInt_eq_msb_cond]
  split_ifs
  · omega
  · rw [Int.natAbs_natCast]

theorem unsignedAbs_eq_ok (n : BitVec 64) : unsignedAbs n = .ok n.abs := exactly_eq_ok (toNat_abs n)

theorem toNat_one_shiftLeft {k : Nat} (hk : k < 256) : ((1 : Word) <<< k).toNat = 2 ^ k := by
  have hpow : 2 ^ k < 2 ^ 256 := Nat.pow_lt_pow_right (by omega) hk
  rw [BitVec.toNat_shiftLeft, Nat.shiftLeft_eq]
  exact (congrArg (· % 2 ^ 256) (Nat.one_mul (2 ^ k))).trans (Nat.mod_eq_of_lt hpow)

/-- The bits of a width, less the highest, are places of a word. -/
theorem lt_of_width (width : Fin 32) : FieldType.bitCount width - 1 < 256 := by
  have := TypedValue.bitCount_le width
  omega

/-- The bound of every width is found. -/
theorem limit_eq_ok (width : Fin 32) :
    limit width = .ok ((1 : Word) <<< (FieldType.bitCount width - 1)) := by
  have hbits : 1 ≤ FieldType.bitCount width := by
    unfold FieldType.bitCount FieldType.byteCount
    omega
  have hsub : sub (FieldType.bitCount width) 1 = .ok (FieldType.bitCount width - 1) :=
    exactly_eq_ok hbits
  unfold limit
  rw [hsub]
  refine exactly_eq_ok ⟨lt_of_width width, ?_⟩
  rw [toNat_one_shiftLeft (lt_of_width width)]
  exact (Nat.one_mul _).symm

/-- Down to the lowest signed word, zero less a magnitude is what it should be. -/
theorem negate_eq_ok {m : Nat} (hm : m ≤ 2 ^ 255) :
    negate (BitVec.ofNat 256 m) = .ok (BitVec.ofInt 256 (-m)) := by
  have hzero : 0 - BitVec.ofNat 256 m = BitVec.ofInt 256 (-m) := by
    rw [BitVec.ofInt_neg, BitVec.ofInt_natCast]
    exact BitVec.zero_sub _
  unfold negate
  rw [hzero]
  refine exactly_eq_ok ?_
  rw [BitVec.toInt_ofInt_eq_self (by omega) (by omega) (by omega), BitVec.toNat_ofNat,
    Nat.mod_eq_of_lt (by omega)]

/-! ### The machine agrees with the encoder -/

/-- The magnitude of a number of 64 bits, from the signed word or the unsigned one. -/
theorem signMagnitude_whole (z : Int) (lower : -0x8000000000000000 ≤ z)
    (upper : z < 0x10000000000000000) : signMagnitude (.number (.whole z lower upper)) =
      .ok (some (decide (z < 0), BitVec.ofNat 256 z.natAbs)) := by
  rw [signMagnitude, Number.toInt64?]
  by_cases hsmall : z < 0x8000000000000000
  · have hread : (BitVec.ofInt 64 z).toInt = z :=
      BitVec.toInt_ofInt_eq_self (by omega) (by omega) (by omega)
    have hword : (BitVec.ofInt 64 z).abs.setWidth 256 = BitVec.ofNat 256 z.natAbs := by
      apply BitVec.eq_of_toNat_eq
      rw [BitVec.toNat_setWidth, toNat_abs, hread, BitVec.toNat_ofNat]
    simp only [if_pos hsmall, unsignedAbs_eq_ok]
    rw [← hword]
    rfl
  · have hnonneg : 0 ≤ z := by omega
    simp only [if_neg hsmall, Number.toNat?, if_pos hnonneg]
    rw [decide_eq_false (by omega), show z.natAbs = z.toNat by omega]
    rfl

theorem signMagnitudeText?_eq (cs : List Char) : signMagnitudeText? cs =
    (integerText? cs).map fun z => (decide (z < 0), BitVec.ofNat 256 z.natAbs) := by
  have hnatural : ∀ n : Nat, (false, BitVec.ofNat 256 n) =
      (decide ((n : Int) < 0), BitVec.ofNat 256 (n : Int).natAbs) := fun n => by
    rw [decide_eq_false (by omega), Int.natAbs_natCast]
  have hminus : ∀ n : Nat, (decide (n ≠ 0), BitVec.ofNat 256 n) =
      (decide (-(n : Int) < 0), BitVec.ofNat 256 (-(n : Int)).natAbs) := fun n => by
    rw [Int.natAbs_neg, Int.natAbs_natCast, decide_eq_decide.mpr]
    omega
  unfold signMagnitudeText?
  split
  · next ds =>
    rw [integerText?]
    cases naturalText? ds with
    | none => rfl
    | some n => exact congrArg some (hminus n)
  · next hno =>
    rw [integerText?]
    · cases naturalText? cs with
      | none => rfl
      | some n => exact congrArg some (hnatural n)
    · exact hno

theorem signMagnitude_eq (v : Json) : signMagnitude v =
    .ok ((integer? v).map fun z => (decide (z < 0), BitVec.ofNat 256 z.natAbs)) := by
  cases v with
  | number m =>
    cases m with
    | whole z lower upper => exact signMagnitude_whole z lower upper
    | double x => rfl
  | string s => exact congrArg Except.ok (signMagnitudeText?_eq s.toList)
  | _ => rfl

/-- What is in range is placed, the negative as well. -/
theorem place_eq (e : CryptoError) {k : Nat} (hk : k < 256) {z : Int} (hz : z.natAbs < 2 ^ 256) :
    place e ((1 : Word) <<< k) (decide (z < 0)) (BitVec.ofNat 256 z.natAbs) =
      if -2 ^ k ≤ z ∧ z < 2 ^ k then .ok (BitVec.ofInt 256 z) else .error (.refused e) := by
  have hmagnitude : (BitVec.ofNat 256 z.natAbs).toNat = z.natAbs := by
    rw [BitVec.toNat_ofNat, Nat.mod_eq_of_lt hz]
  have hpow : 2 ^ k ≤ 2 ^ 255 := Nat.pow_le_pow_right (by omega) (by omega)
  have hcast : ((2 ^ k : Nat) : Int) = 2 ^ k := Nat.cast_pow 2 k
  have hle : BitVec.ofNat 256 z.natAbs ≤ (1 : Word) <<< k ↔ z.natAbs ≤ 2 ^ k := by
    rw [BitVec.le_def, hmagnitude, toNat_one_shiftLeft hk]
  have hlt : BitVec.ofNat 256 z.natAbs < (1 : Word) <<< k ↔ z.natAbs < 2 ^ k := by
    rw [BitVec.lt_def, hmagnitude, toNat_one_shiftLeft hk]
  rw [← hcast]
  by_cases hneg : z < 0
  · rw [decide_eq_true hneg, place]
    by_cases hin : z.natAbs ≤ 2 ^ k
    · have hword := negate_eq_ok (hin.trans hpow)
      rw [show (-(z.natAbs : Int)) = z by omega] at hword
      rw [if_pos (hle.mpr hin), if_pos (by omega), hword]
    · rw [if_neg (mt hle.mp hin), if_neg (by omega)]
  · rw [decide_eq_false hneg, place]
    by_cases hin : z.natAbs < 2 ^ k
    · have hword : BitVec.ofNat 256 z.natAbs = BitVec.ofInt 256 z := by
        rw [← BitVec.ofInt_natCast, show (z.natAbs : Int) = z by omega]
      rw [if_pos (hlt.mpr hin), if_pos (by omega), hword]
    · rw [if_neg (mt hlt.mp hin), if_neg (by omega)]

/-- **The machine finds the word of a signed integer,** or refuses it for the same reason, and no
step overflows. -/
theorem signed_eq (width : Fin 32) (v : Json) :
    signed width v = (atom (.int width) v).mapError .refused := by
  unfold signed
  rw [signMagnitude_eq, limit_eq_ok, atom]
  cases hz : integer? v with
  | none => rfl
  | some z =>
    have hcast : ((Nat.pow 2 (FieldType.bitCount width - 1) : Nat) : Int) =
        2 ^ (FieldType.bitCount width - 1) := Nat.cast_pow 2 _
    refine (place_eq _ (lt_of_width width) (integer?_eq_some_iff.mp hz).2).trans ?_
    simp only [hcast]
    split_ifs <;> rfl

/-- **The machine finds the word of an unsigned integer,** or refuses it for the same reason. -/
theorem unsigned_eq (width : Fin 32) (v : Json) :
    unsigned width v = (atom (.uint width) v).mapError .refused := by
  unfold unsigned
  rw [atom]
  cases natural? v with
  | none => rfl
  | some n =>
    have hsize : n < Nat.pow 2 (FieldType.bitCount width) ↔ ¬ FieldType.bitCount width < n.size := by
      rw [not_lt, Nat.size_le, Nat.pow_eq]
    simp only [hsize]
    split_ifs <;> rfl

end Machine

/-! ### What has a word -/

namespace Encode

open TypedValue

variable {types : TypeSchema} {width : Fin 32} {v : Json} {word : Word}

/-- The value is a text that begins with a minus sign. -/
def HasSign (v : Json) : Prop := ∃ s cs, v = .string s ∧ s.toList = '-' :: cs

/-- A natural number is an integer that is not negative and is written without a sign. -/
theorem givesNatural_iff {n : Nat} : GivesNatural v n ↔ GivesInteger v n ∧ ¬ HasSign v := by
  constructor
  · intro h
    refine ⟨h.givesInteger, ?_⟩
    rintro ⟨s, cs, rfl, hs⟩
    cases h with
    | text h => exact not_isNatural_minus (hs ▸ h)
  · rintro ⟨h, hsign⟩
    generalize hz : (n : Int) = z at h
    cases h with
    | number z lower upper =>
      subst hz
      exact .number n lower upper
    | text h =>
      obtain rfl := Int.ofNat.inj hz
      exact .text h
    | minus sign h => exact absurd ⟨_, _, rfl, sign⟩ hsign

theorem value_uint_eq_ok_iff : value types v (.uint width) = .ok word ↔
    ∃ n : Nat, GivesNatural v n ∧ n < 2 ^ FieldType.bitCount width ∧
      BitVec.ofInt 256 n = word := by
  simp only [value_eq_ok_iff, ofJson?, atom?_uint_eq_some_iff]
  constructor
  · rintro ⟨_, ⟨n, hn, hlt, rfl⟩, rfl⟩
    exact ⟨n, hn, hlt, rfl⟩
  · rintro ⟨n, hn, hlt, rfl⟩
    exact ⟨_, ⟨n, hn, hlt, rfl⟩, rfl⟩

theorem value_int_eq_ok_iff : value types v (.int width) = .ok word ↔
    ∃ z : Int, GivesInteger v z ∧ -2 ^ (FieldType.bitCount width - 1) ≤ z ∧
      z < 2 ^ (FieldType.bitCount width - 1) ∧ BitVec.ofInt 256 z = word := by
  simp only [value_eq_ok_iff, ofJson?, atom?_int_eq_some_iff]
  constructor
  · rintro ⟨_, ⟨z, hz, hlo, hhi, rfl⟩, rfl⟩
    exact ⟨z, hz, hlo, hhi, rfl⟩
  · rintro ⟨z, hz, hlo, hhi, rfl⟩
    exact ⟨_, ⟨z, hz, hlo, hhi, rfl⟩, rfl⟩

/-- Whatever has a word gives an integer, and the word is the integer's. -/
theorem exists_integer_of_value
    (h : value types v (.uint width) = .ok word ∨ value types v (.int width) = .ok word) :
    ∃ z, GivesInteger v z ∧ BitVec.ofInt 256 z = word := by
  rcases h with h | h
  · obtain ⟨n, hn, -, hword⟩ := value_uint_eq_ok_iff.mp h
    exact ⟨n, hn.givesInteger, hword⟩
  · obtain ⟨z, hz, -, -, hword⟩ := value_int_eq_ok_iff.mp h
    exact ⟨z, hz, hword⟩

/-- The bytes of a word, as digits with the lowest first, write the word. -/
theorem ofDigits_toBytes (word : Word) :
    Nat.ofDigits 256 (word.toBytes.reverse.map UInt8.toNat) = word.toNat := by
  have hread := congrArg BitVec.toNat (Word.ofBytes_toBytes word)
  rw [Word.toNat_ofBytes (Word.length_toBytes word).le, Bytes.toNat] at hread
  rw [List.map_reverse, ← foldl_eq_ofDigits, List.foldl_map, hread]

/-- **Integers are encoded as exact two's complement,** for every width. An integer has an unsigned
word exactly if it is written without a sign and lies in the unsigned range, and a signed word
exactly if it lies in the signed range. The word then has 32 bytes, the highest first, that write
the integer modulo the size of a word. What is no integer is refused. The machine's steps give the
same outcome, and none of them overflows. -/
theorem value_integer_exact (types : TypeSchema) (width : Fin 32) (v : Json) :
    (∀ z, GivesInteger v z →
      ((∃ word, value types v (.uint width) = .ok word) ↔
        ¬ HasSign v ∧ 0 ≤ z ∧ z < 2 ^ FieldType.bitCount width) ∧
      ((∃ word, value types v (.int width) = .ok word) ↔
        -2 ^ (FieldType.bitCount width - 1) ≤ z ∧ z < 2 ^ (FieldType.bitCount width - 1)) ∧
      ∀ word, value types v (.uint width) = .ok word ∨ value types v (.int width) = .ok word →
        word.toBytes.length = 32 ∧
          ((Nat.ofDigits 256 (word.toBytes.reverse.map UInt8.toNat) : Nat) : Int) = z % 2 ^ 256) ∧
    ((∀ z, ¬ GivesInteger v z) →
      (∃ e, value types v (.uint width) = .error e) ∧
        ∃ e, value types v (.int width) = .error e) ∧
    Machine.unsigned width v = (value types v (.uint width)).mapError .refused ∧
    Machine.signed width v = (value types v (.int width)).mapError .refused := by
  refine ⟨fun z hz => ⟨?_, ?_, fun word h => ⟨Word.length_toBytes word, ?_⟩⟩, fun hno => ⟨?_, ?_⟩,
    ?_, ?_⟩
  · simp only [value_uint_eq_ok_iff]
    constructor
    · rintro ⟨_, n, hn, hlt, -⟩
      obtain rfl : z = n := hz.unique hn.givesInteger
      exact ⟨(givesNatural_iff.mp hn).2, Int.natCast_nonneg n, by exact_mod_cast hlt⟩
    · rintro ⟨hsign, hnonneg, hlt⟩
      obtain ⟨n, rfl⟩ := Int.eq_ofNat_of_zero_le hnonneg
      exact ⟨_, n, givesNatural_iff.mpr ⟨hz, hsign⟩, by exact_mod_cast hlt, rfl⟩
  · simp only [value_int_eq_ok_iff]
    constructor
    · rintro ⟨_, y, hy, hlo, hhi, -⟩
      obtain rfl : z = y := hz.unique hy
      exact ⟨hlo, hhi⟩
    · rintro ⟨hlo, hhi⟩
      exact ⟨_, z, hz, hlo, hhi, rfl⟩
  · obtain ⟨y, hy, rfl⟩ := exists_integer_of_value h
    obtain rfl : z = y := hz.unique hy
    rw [ofDigits_toBytes, BitVec.toNat_ofInt]
    omega
  · cases h : value types v (.uint width) with
    | error e => exact ⟨e, rfl⟩
    | ok word =>
      obtain ⟨z, hz, -⟩ := exists_integer_of_value (.inl h)
      exact absurd hz (hno z)
  · cases h : value types v (.int width) with
    | error e => exact ⟨e, rfl⟩
    | ok word =>
      obtain ⟨z, hz, -⟩ := exists_integer_of_value (.inr h)
      exact absurd hz (hno z)
  · simp only [value, Machine.unsigned_eq]
  · simp only [value, Machine.signed_eq]

/-- The signed range reaches one further down than up. -/
theorem value_integer_exact_ends (types : TypeSchema) :
    (∃ word, value types (.string "-0x_80") (.int 0) = .ok word) ∧
      ¬ ∃ word, value types (.string "128") (.int 0) = .ok word := by
  have hlow : GivesInteger (.string "-0x_80") (-(128 : Nat)) :=
    .minus (show _ = '-' :: ['0', 'x', '_', '8', '0'] by decide)
      (.hex (by decide) (radixValue?_eq_some_iff.mp (by decide)))
  have hhigh : GivesInteger (.string "128") (128 : Nat) :=
    .text (.decimal (by decide) (radixValue?_eq_some_iff.mp (by decide)))
  rw [((value_integer_exact types 0 _).1 _ hlow).2.1, ((value_integer_exact types 0 _).1 _ hhigh).2.1]
  decide

end Encode

end DocumentProof
