import DocumentProof.Proofs.Outcome
import DocumentProof.Proofs.Wallet.Spelling
import DocumentProof.TypedData.EncodeData
import Mathlib.Data.Nat.Digits.Defs

/-!
# How atomic values are written

A byte string is written as hexadecimal digits after `0x` (`IsBytes`), an account as forty of them
with or without a mark (`IsAccount`), and an integer as a number or as a text of digits
(`GivesNatural`, `GivesInteger`). The readers accept what is written so and nothing else, and the
number that a text gives is that of its digits as Mathlib counts them (`Nat.ofDigits`).
-/

namespace DocumentProof

/-! ## Byte strings -/

namespace Hex

/-- A hexadecimal digit of either case. -/
def IsDigit (c : Char) : Prop := '0' ≤ c ∧ c ≤ '9' ∨ 'a' ≤ c ∧ c ≤ 'f' ∨ 'A' ≤ c ∧ c ≤ 'F'

instance : DecidablePred IsDigit := fun c =>
  inferInstanceAs (Decidable ('0' ≤ c ∧ c ≤ '9' ∨ 'a' ≤ c ∧ c ≤ 'f' ∨ 'A' ≤ c ∧ c ≤ 'F'))

/-- The digits of so many bytes, two each. -/
structure IsDigits (n : Nat) (ds : List Char) : Prop where
  length : ds.length = 2 * n
  digits : ∀ c ∈ ds, IsDigit c

theorem IsDigit.ascii {c : Char} (h : IsDigit c) : c.toNat ≤ 127 := by
  have hle : ∀ {d : Char}, c ≤ d → c.toNat ≤ d.toNat := id
  rcases h with ⟨-, h⟩ | ⟨-, h⟩ | ⟨-, h⟩
  all_goals exact Nat.le_trans (hle h) (by decide)

theorem isDigit_iff {c : Char} : IsDigit c ↔ c.toLower ∈ "0123456789abcdef".toList := by
  have all : ∀ c : Char, c.toNat ≤ 127 → (IsDigit c ↔ c.toLower ∈ "0123456789abcdef".toList) :=
    Bytes.forall_ascii (by decide +kernel)
  exact ⟨fun h => (all c h.ascii).mp h, fun h => (all c (ascii_of_toLower h)).mpr h⟩

/-- Two digits are those of a byte. -/
theorem exists_byteChars {a b : Char} (ha : a ∈ "0123456789abcdef".toList)
    (hb : b ∈ "0123456789abcdef".toList) : ∃ x : UInt8, byteChars x = [a, b] := by
  rw [show "0123456789abcdef".toList = (List.range 16).map digit by decide] at ha hb
  obtain ⟨i, hi, rfl⟩ := List.mem_map.mp ha
  obtain ⟨j, hj, rfl⟩ := List.mem_map.mp hb
  rw [List.mem_range] at hi hj
  have hbyte : (UInt8.ofNat (16 * i + j)).toNat = 16 * i + j := by
    rw [UInt8.toNat_ofNat']
    omega
  refine ⟨UInt8.ofNat (16 * i + j), ?_⟩
  rw [byteChars, hbyte, show (16 * i + j) / 16 = i by omega, show (16 * i + j) % 16 = j by omega]

theorem exists_encodeChars : ∀ {n : Nat} {ds : List Char}, ds.length = 2 * n →
    (∀ c ∈ ds, c ∈ "0123456789abcdef".toList) → ∃ bs : Bytes, bs.length = n ∧ encodeChars bs = ds
  | 0, [], _, _ => ⟨[], rfl, rfl⟩
  | 0, _ :: _, h, _ => by simp at h
  | n + 1, [], h, _ => by simp at h
  | n + 1, [_], h, _ => by
    rw [List.length_singleton] at h
    omega
  | n + 1, a :: b :: ds, h, hds => by
    obtain ⟨ha, htail⟩ := List.forall_mem_cons.mp hds
    obtain ⟨hb, hds⟩ := List.forall_mem_cons.mp htail
    obtain ⟨x, hx⟩ := exists_byteChars ha hb
    have hlength : ds.length = 2 * n := by
      rw [List.length_cons, List.length_cons] at h
      omega
    obtain ⟨bs, hlen, hbs⟩ := exists_encodeChars hlength hds
    refine ⟨x :: bs, by rw [List.length_cons, hlen], ?_⟩
    rw [encodeChars, List.flatMap_cons, hx, ← hbs]
    rfl

/-- **A text is read as so many bytes exactly if it is their number of digits, twice.** -/
theorem exists_decode_iff {n : Nat} {ds : List Char} :
    (∃ bs, decode (String.ofList ds) = .ok bs ∧ bs.length = n) ↔ IsDigits n ds := by
  simp only [decode_eq_ok_iff, String.toList_ofList]
  constructor
  · rintro ⟨bs, h, rfl⟩
    refine ⟨?_, fun c hc => isDigit_iff.mpr (mem_encodeChars (h ▸ List.mem_map_of_mem hc))⟩
    rw [← length_encodeChars, ← h, List.length_map]
  · intro h
    have hlower : ∀ c ∈ ds.map Char.toLower, c ∈ "0123456789abcdef".toList := fun c hc => by
      obtain ⟨d, hd, rfl⟩ := List.mem_map.mp hc
      exact isDigit_iff.mp (h.digits d hd)
    obtain ⟨bs, hlen, hbs⟩ := exists_encodeChars ((List.length_map _).trans h.length) hlower
    exact ⟨bs, hbs.symm, hlen⟩

end Hex

namespace Encode

/-- The text of so many bytes: their digits after `0x`. -/
def IsBytes (n : Nat) (s : String) : Prop := ∃ ds, s.toList = '0' :: 'x' :: ds ∧ Hex.IsDigits n ds

/-- The text of an account: forty digits, alone or after `0x` or `0X`. -/
def IsAccount (s : String) : Prop :=
  ∃ ds, (s.toList = ds ∨ s.toList = '0' :: 'x' :: ds ∨ s.toList = '0' :: 'X' :: ds) ∧
    Hex.IsDigits 20 ds

theorem exists_hexBytes_iff {t : FieldType} {v : Json} {n : Nat} :
    (∃ bs, hexBytes t v = .ok bs ∧ bs.length = n) ↔ ∃ s, v = .string s ∧ IsBytes n s := by
  unfold hexBytes IsBytes
  split
  · next s =>
    simp only [Json.string.injEq, ↓existsAndEq, true_and]
    split
    · next ds hds =>
      simp only [hds, List.cons.injEq, true_and, ↓existsAndEq, ← Hex.exists_decode_iff]
      cases Hex.decode (String.ofList ds) <;> simp [invalid]
    · next hno =>
      refine iff_of_false (fun ⟨bs, h, _⟩ => by cases h) fun ⟨ds, hds, _⟩ => hno ds hds
  · next hno =>
    refine iff_of_false (fun ⟨bs, h, _⟩ => by cases h) fun ⟨s, hs, _⟩ => hno s hs

/-- Digits have no mark. -/
theorem afterMark_of_isDigits {n : Nat} {ds : List Char} (h : Hex.IsDigits n ds) :
    afterMark ds = ds := by
  unfold afterMark
  split
  · exact absurd (h.digits 'x' (by simp)) (by decide)
  · exact absurd (h.digits 'X' (by simp)) (by decide)
  · rfl

theorem isDigits_afterMark_iff {n : Nat} {cs : List Char} : Hex.IsDigits n (afterMark cs) ↔
    ∃ ds, (cs = ds ∨ cs = '0' :: 'x' :: ds ∨ cs = '0' :: 'X' :: ds) ∧ Hex.IsDigits n ds := by
  constructor
  · intro h
    refine ⟨afterMark cs, ?_, h⟩
    unfold afterMark
    split
    · exact .inr (.inl rfl)
    · exact .inr (.inr rfl)
    · exact .inl rfl
  · rintro ⟨ds, rfl | rfl | rfl, h⟩
    · rwa [afterMark_of_isDigits h]
    · exact h
    · exact h

theorem exists_account_iff {s : String} : (∃ w, account? s = some w) ↔ IsAccount s := by
  unfold IsAccount account?
  rw [← isDigits_afterMark_iff, ← Hex.exists_decode_iff]
  cases Hex.decode (String.ofList (afterMark s.toList)) with
  | error e => simp
  | ok bs =>
    by_cases hlen : bs.length = 20
    all_goals simp [hlen]

/-! ## Integers -/

/-- Digits to this base, the highest first, with underscores anywhere between them. -/
def IsNumeral (radix : Nat) (cs : List Char) (n : Nat) : Prop :=
  ∃ ds, List.Forall₂ (fun c d => digitValue? c = some d ∧ d < radix) (cs.filter (· ≠ '_')) ds ∧
    Nat.ofDigits radix ds.reverse = n

theorem foldlM_digits_iff {radix n : Nat} : ∀ {cs : List Char} {m : Nat},
    cs.foldlM (fun n c =>
      if c = '_' then some n
      else
        match digitValue? c with
        | some d => if d < radix then some (n * radix + d) else none
        | none => none) m = some n ↔
      ∃ ds, List.Forall₂ (fun c d => digitValue? c = some d ∧ d < radix) (cs.filter (· ≠ '_')) ds ∧
        ds.foldl (fun n d => n * radix + d) m = n
  | [], m => by simp
  | c :: cs, m => by
    rw [List.foldlM_cons]
    by_cases hc : c = '_'
    · simp only [hc, if_true, Option.bind_eq_bind, Option.bind_some, @foldlM_digits_iff radix n cs,
        ne_eq, decide_not, decide_true, Bool.not_true, Bool.false_eq_true, not_false_eq_true,
        List.filter_cons_of_neg]
    · rw [if_neg hc, List.filter_cons_of_pos (by simpa using hc)]
      cases hd : digitValue? c with
      | none => simp [List.forall₂_cons_left_iff, hd]
      | some d =>
        by_cases hlt : d < radix
        · simp [List.forall₂_cons_left_iff, hd, hlt, @foldlM_digits_iff radix n cs]
        · simp [List.forall₂_cons_left_iff, hd, hlt]

theorem foldl_eq_ofDigits (radix : Nat) (ds : List Nat) :
    ds.foldl (fun n d => n * radix + d) 0 = Nat.ofDigits radix ds.reverse := by
  rw [Nat.ofDigits_eq_foldr, List.foldr_reverse]
  refine congrArg (fun f => List.foldl f 0 ds) (funext fun n => funext fun d => ?_)
  rw [Nat.cast_id, Nat.mul_comm, Nat.add_comm]

theorem radixValue?_eq_some_iff {radix n : Nat} {cs : List Char} :
    radixValue? radix cs = some n ↔ IsNumeral radix cs n := by
  unfold IsNumeral
  simp only [← foldl_eq_ofDigits]
  exact foldlM_digits_iff

/-- A natural number as text: decimal digits, or hexadecimal ones after `0x`. There is at least one
character. -/
inductive IsNatural : List Char → Nat → Prop
  | decimal {cs : List Char} {n : Nat} (some : cs ≠ []) (numeral : IsNumeral 10 cs n) :
      IsNatural cs n
  | hex {cs : List Char} {n : Nat} (some : cs ≠ []) (numeral : IsNumeral 16 cs n) :
      IsNatural ('0' :: 'x' :: cs) n

/-- The natural number that a value gives: a number, or the text of one. -/
inductive GivesNatural : Json → Nat → Prop
  | number (n : Nat) (lower : -0x8000000000000000 ≤ (n : Int))
      (upper : (n : Int) < 0x10000000000000000) : GivesNatural (.number (.whole n lower upper)) n
  | text {s : String} {n : Nat} (natural : IsNatural s.toList n) : GivesNatural (.string s) n

/-- The integer that a value gives: a number, or the text of a natural number with or without a
minus sign. -/
inductive GivesInteger : Json → Int → Prop
  | number (n : Int) (lower : -0x8000000000000000 ≤ n) (upper : n < 0x10000000000000000) :
      GivesInteger (.number (.whole n lower upper)) n
  | text {s : String} {n : Nat} (natural : IsNatural s.toList n) : GivesInteger (.string s) n
  | minus {s : String} {cs : List Char} {n : Nat} (sign : s.toList = '-' :: cs)
      (natural : IsNatural cs n) : GivesInteger (.string s) (-n)

/-- A character that is neither an underscore nor a digit is in no numeral. -/
theorem not_isNumeral {radix n : Nat} {c : Char} {cs : List Char} (hc : c ≠ '_')
    (hdigit : ∀ d < radix, digitValue? c ≠ some d) : ¬ IsNumeral radix (c :: cs) n := by
  rintro ⟨ds, h, -⟩
  rw [List.filter_cons_of_pos (by simpa using hc)] at h
  cases h with
  | cons hd _ => exact hdigit _ hd.2 hd.1

theorem not_isNatural_minus {n : Nat} {cs : List Char} : ¬ IsNatural ('-' :: cs) n := by
  rintro (⟨-, h⟩ | _)
  exact not_isNumeral (by decide) (by decide) h

theorem not_isNumeral_mark {n : Nat} {cs : List Char} : ¬ IsNumeral 10 ('0' :: 'x' :: cs) n := by
  rintro ⟨ds, h, -⟩
  rw [List.filter_cons_of_pos (by decide), List.filter_cons_of_pos (by decide)] at h
  obtain ⟨_, _, -, h, -⟩ := List.forall₂_cons_left_iff.mp h
  obtain ⟨d, _, ⟨hd, hlt⟩, -⟩ := List.forall₂_cons_left_iff.mp h
  have hx : digitValue? 'x' = some 33 := by decide
  cases hx.symm.trans hd
  omega

/-! ### One number for each text -/

theorem IsNumeral.unique {radix m n : Nat} {cs : List Char} (hm : IsNumeral radix cs m)
    (hn : IsNumeral radix cs n) : m = n :=
  Option.some.inj ((radixValue?_eq_some_iff.mpr hm).symm.trans (radixValue?_eq_some_iff.mpr hn))

theorem IsNatural.unique {m n : Nat} {cs : List Char} (hm : IsNatural cs m)
    (hn : IsNatural cs n) : m = n := by
  cases hm with
  | decimal _ hm =>
    cases hn with
    | decimal _ hn => exact hm.unique hn
    | hex _ _ => exact absurd hm not_isNumeral_mark
  | hex _ hm =>
    cases hn with
    | decimal _ hn => exact absurd hn not_isNumeral_mark
    | hex _ hn => exact hm.unique hn

/-- **A value gives at most one integer.** -/
theorem GivesInteger.unique {v : Json} {m n : Int} (hm : GivesInteger v m)
    (hn : GivesInteger v n) : m = n := by
  cases hm with
  | number =>
    cases hn
    rfl
  | text hm =>
    cases hn with
    | text hn => rw [hm.unique hn]
    | minus sign hn => exact absurd (sign ▸ hm) not_isNatural_minus
  | minus sign hm =>
    cases hn with
    | text hn => exact absurd (sign ▸ hn) not_isNatural_minus
    | minus sign' hn =>
      obtain ⟨-, rfl⟩ := List.cons_eq_cons.mp (sign.symm.trans sign')
      rw [hm.unique hn]

theorem GivesNatural.givesInteger {v : Json} {n : Nat} (h : GivesNatural v n) :
    GivesInteger v n := by
  cases h with
  | number _ lower upper => exact .number _ lower upper
  | text h => exact .text h

theorem GivesNatural.unique {v : Json} {m n : Nat} (hm : GivesNatural v m)
    (hn : GivesNatural v n) : m = n :=
  Int.ofNat.inj (hm.givesInteger.unique hn.givesInteger)

/-! ### Reading -/

theorem wordText_eq_some_iff {radix n : Nat} {cs : List Char} :
    (if cs = [] then none
      else
        match radixValue? radix cs with
        | some n => if n < Nat.pow 2 256 then some n else none
        | none => none) = some n ↔ (cs ≠ [] ∧ IsNumeral radix cs n) ∧ n < 2 ^ 256 := by
  rw [← radixValue?_eq_some_iff]
  by_cases hcs : cs = []
  · simp [hcs]
  · rw [if_neg hcs]
    cases radixValue? radix cs with
    | none => simp
    | some m =>
      simp only [Nat.pow_eq, Option.ite_none_right_eq_some, Option.some.injEq, ne_eq, hcs,
        not_false_eq_true, true_and]
      constructor
      · rintro ⟨hlt, rfl⟩
        exact ⟨rfl, hlt⟩
      · rintro ⟨rfl, hlt⟩
        exact ⟨hlt, rfl⟩

/-- **The texts of natural numbers below the size of a word are read,** and no others. -/
theorem naturalText?_eq_some_iff {cs : List Char} {n : Nat} :
    naturalText? cs = some n ↔ IsNatural cs n ∧ n < 2 ^ 256 := by
  unfold naturalText?
  split
  next radix digits heq =>
  split at heq
  · next ds =>
    cases heq
    refine wordText_eq_some_iff.trans (and_congr_left fun _ => ⟨fun h => .hex h.1 h.2, ?_⟩)
    rintro (⟨-, h⟩ | ⟨hne, h⟩)
    · exact absurd h not_isNumeral_mark
    · exact ⟨hne, h⟩
  · next hmark =>
    cases heq
    refine wordText_eq_some_iff.trans (and_congr_left fun _ => ⟨fun h => .decimal h.1 h.2, ?_⟩)
    rintro (⟨hne, h⟩ | ⟨hne, h⟩)
    · exact ⟨hne, h⟩
    · exact absurd rfl (hmark _)

theorem natural?_eq_some_iff {v : Json} {n : Nat} :
    natural? v = some n ↔ GivesNatural v n ∧ n < 2 ^ 256 := by
  cases v with
  | number m =>
    cases m with
    | whole m lower upper =>
      rw [natural?, Number.toNat?, Option.ite_none_right_eq_some, Option.some.injEq]
      constructor
      · rintro ⟨hm, rfl⟩
        obtain ⟨k, rfl⟩ := Int.eq_ofNat_of_zero_le hm
        exact ⟨.number k lower upper, by simp only [Int.toNat_natCast]; omega⟩
      · rintro ⟨h, -⟩
        cases h
        exact ⟨Int.natCast_nonneg n, Int.toNat_natCast n⟩
    | double d =>
      refine iff_of_false (fun h => by cases h) fun h => ?_
      cases h.1
  | string s =>
    rw [natural?, naturalText?_eq_some_iff]
    refine and_congr_left fun _ => ⟨.text, fun h => ?_⟩
    cases h with
    | text h => exact h
  | _ =>
    refine iff_of_false (fun h => by cases h) fun h => ?_
    cases h.1

theorem integerText?_eq_some_iff {cs : List Char} {n : Int} :
    integerText? cs = some n ↔
      (∃ m, IsNatural cs m ∧ m < 2 ^ 256 ∧ (m : Int) = n) ∨
        ∃ ds m, cs = '-' :: ds ∧ IsNatural ds m ∧ m < 2 ^ 256 ∧ -(m : Int) = n := by
  unfold integerText?
  split
  · next ds =>
    simp only [Option.map_eq_some_iff, Option.bind_eq_bind, Option.bind_eq_some_iff,
      Option.pure_def, Option.some.injEq, naturalText?_eq_some_iff, not_isNatural_minus, false_and,
      exists_false, false_or, List.cons.injEq, true_and, and_assoc, ↓existsAndEq]
  · next hno =>
    have hsign : ∀ ds, cs ≠ '-' :: ds := hno
    simp only [Option.map_eq_some_iff, Option.bind_eq_bind, Option.bind_eq_some_iff,
      Option.pure_def, Option.some.injEq, naturalText?_eq_some_iff, hsign, false_and, exists_false,
      or_false, and_true, and_assoc, ↓existsAndEq]

theorem integer?_eq_some_iff {v : Json} {n : Int} :
    integer? v = some n ↔ GivesInteger v n ∧ n.natAbs < 2 ^ 256 := by
  cases v with
  | number m =>
    cases m with
    | whole m lower upper =>
      rw [integer?, Option.some.injEq]
      constructor
      · rintro rfl
        exact ⟨.number m lower upper, by omega⟩
      · rintro ⟨h, -⟩
        cases h
        rfl
    | double d =>
      refine iff_of_false (fun h => by cases h) fun h => ?_
      cases h.1
  | string s =>
    rw [integer?, integerText?_eq_some_iff]
    constructor
    · rintro (⟨m, hm, hlt, rfl⟩ | ⟨ds, m, hs, hm, hlt, rfl⟩)
      · exact ⟨.text hm, by rwa [Int.natAbs_natCast]⟩
      · exact ⟨.minus hs hm, by rwa [Int.natAbs_neg, Int.natAbs_natCast]⟩
    · rintro ⟨h, hlt⟩
      cases h with
      | text h => exact .inl ⟨_, h, by rwa [Int.natAbs_natCast] at hlt, rfl⟩
      | minus hs h =>
        exact .inr ⟨_, _, hs, h, by rwa [Int.natAbs_neg, Int.natAbs_natCast] at hlt, rfl⟩
  | _ =>
    refine iff_of_false (fun h => by cases h) fun h => ?_
    cases h.1

end Encode

end DocumentProof
