import DocumentProof.Proofs.Bytes
import DocumentProof.Proofs.TypedData.Notation
import DocumentProof.Proofs.TypedData.TypedValue

/-!
# What atomic values say

The bytes and the account that a text gives (`GivesBytes`, `GivesAccount`) are those that the reader
finds (`hexBytes_eq_ok_iff`, `account?_eq_some_iff`). With the integers of `GivesNatural` and
`GivesInteger` this tells for each atomic type what a value says, without the readers.
-/

namespace DocumentProof

namespace Encode

/-- The bytes that a text gives: their digits, of either case, after `0x`. -/
def GivesBytes (v : Json) (bs : Bytes) : Prop :=
  ∃ s ds, v = .string s ∧ s.toList = '0' :: 'x' :: ds ∧ ds.map Char.toLower = Hex.encodeChars bs

/-- The twenty bytes of an account that a text gives: their digits, of either case, alone or after
`0x` or `0X`. -/
def GivesAccount (v : Json) (bs : Bytes) : Prop :=
  ∃ s ds, v = .string s ∧
    (s.toList = ds ∨ s.toList = '0' :: 'x' :: ds ∨ s.toList = '0' :: 'X' :: ds) ∧
    ds.map Char.toLower = Hex.encodeChars bs ∧ bs.length = 20

/-! ### Bytes and accounts -/

theorem GivesBytes.unique {v : Json} {bs cs : Bytes} (hb : GivesBytes v bs)
    (hc : GivesBytes v cs) : bs = cs := by
  obtain ⟨s, ds, rfl, hs, hds⟩ := hb
  obtain ⟨_, es, hv, hs', hes⟩ := hc
  cases hv
  obtain rfl : ds = es := by simpa using hs.symm.trans hs'
  exact Hex.encodeChars_inj (hds.symm.trans hes)

/-- **Bytes are read exactly if the text gives them.** -/
theorem hexBytes_eq_ok_iff {t : FieldType} {v : Json} {bs : Bytes} :
    hexBytes t v = .ok bs ↔ GivesBytes v bs := by
  unfold hexBytes
  split
  · next s =>
    split
    · next ds hs =>
      have hread : GivesBytes (.string s) bs ↔ ds.map Char.toLower = Hex.encodeChars bs := by
        constructor
        · rintro ⟨_, es, hv, hs', hes⟩
          cases hv
          obtain rfl : ds = es := by simpa using hs.symm.trans hs'
          exact hes
        · exact fun h => ⟨s, ds, rfl, hs, h⟩
      rw [hread, ← String.toList_ofList (l := ds), ← Hex.decode_eq_ok_iff, String.toList_ofList]
      cases Hex.decode (String.ofList ds) <;> simp [invalid]
    · next hno =>
      refine iff_of_false (fun h => by cases h) ?_
      rintro ⟨_, ds, hv, hs, -⟩
      cases hv
      exact hno ds hs
  · next hno =>
    refine iff_of_false (fun h => by cases h) ?_
    rintro ⟨s, -, hv, -⟩
    exact hno s hv

theorem givesAccount_iff {s : String} {bs : Bytes} : GivesAccount (.string s) bs ↔
    Hex.decode (String.ofList (afterMark s.toList)) = .ok bs ∧ bs.length = 20 := by
  rw [Hex.decode_eq_ok_iff, String.toList_ofList]
  constructor
  · rintro ⟨_, ds, hv, hs, hds, hlen⟩
    cases hv
    have hdigits : Hex.IsDigits 20 ds := by
      rw [← Hex.exists_decode_iff]
      exact ⟨bs, Hex.decode_eq_ok_iff.mpr (by rwa [String.toList_ofList]), hlen⟩
    refine ⟨?_, hlen⟩
    rcases hs with hs | hs | hs
    · rw [hs, afterMark_of_isDigits hdigits, hds]
    · rw [hs]
      exact hds
    · rw [hs]
      exact hds
  · rintro ⟨hds, hlen⟩
    refine ⟨s, afterMark s.toList, rfl, ?_, hds, hlen⟩
    unfold afterMark
    split
    · next hs => exact .inr (.inl hs)
    · next hs => exact .inr (.inr hs)
    · exact .inl rfl

theorem GivesAccount.length {v : Json} {bs : Bytes} (h : GivesAccount v bs) : bs.length = 20 := by
  obtain ⟨-, -, -, -, -, hlen⟩ := h
  exact hlen

theorem GivesAccount.unique {v : Json} {bs cs : Bytes} (hb : GivesAccount v bs)
    (hc : GivesAccount v cs) : bs = cs := by
  obtain ⟨s, -, rfl, -⟩ := id hb
  exact Except.ok.inj ((givesAccount_iff.mp hb).1.symm.trans (givesAccount_iff.mp hc).1)

/-- **An account is read exactly if the text gives its bytes.** -/
theorem account?_eq_some_iff {s : String} {w : Word} :
    account? s = some w ↔ ∃ bs, GivesAccount (.string s) bs ∧ Word.ofBytes bs = w := by
  simp only [givesAccount_iff]
  unfold account?
  cases Hex.decode (String.ofList (afterMark s.toList)) with
  | error e => simp
  | ok bs => simp

end Encode

namespace TypedValue

open Encode

variable {v : Json} {a : TypedValue}

/-! ### What atomic values say -/

theorem atom?_bool_eq_some_iff : atom? .bool v = some a ↔ ∃ b, v = .bool b ∧ bool b = a := by
  cases v <;> simp [atom?]

theorem atom?_string_eq_some_iff : atom? .string v = some a ↔ ∃ s, v = .string s ∧ text s = a := by
  cases v <;> simp [atom?]

theorem atom?_bytes_eq_some_iff :
    atom? .bytes v = some a ↔ ∃ bs, GivesBytes v bs ∧ bytes bs = a := by
  simp only [atom?, Option.map_eq_some_iff, toOption_eq_some_iff, hexBytes_eq_ok_iff]

theorem atom?_fixedBytes_eq_some_iff {size : Fin 32} : atom? (.fixedBytes size) v = some a ↔
    ∃ bs, GivesBytes v bs ∧ bs.length ≤ FieldType.byteCount size ∧
      fixed (Bytes.padRight (FieldType.byteCount size) bs) = a := by
  simp only [atom?, Option.bind_eq_some_iff, toOption_eq_some_iff, hexBytes_eq_ok_iff,
    Option.ite_none_right_eq_some, Option.some.injEq]

theorem atom?_address_eq_some_iff : atom? .address v = some a ↔
    ∃ bs, GivesAccount v bs ∧ account (Word.ofBytes bs) = a := by
  cases v with
  | string s =>
    simp only [atom?, Option.map_eq_some_iff, account?_eq_some_iff]
    constructor
    · rintro ⟨_, ⟨bs, hbs, rfl⟩, rfl⟩
      exact ⟨bs, hbs, rfl⟩
    · rintro ⟨bs, hbs, rfl⟩
      exact ⟨_, ⟨bs, hbs, rfl⟩, rfl⟩
  | _ =>
    refine iff_of_false (by simp [atom?]) ?_
    rintro ⟨bs, ⟨s, ds, hv, -⟩, -⟩
    cases hv

theorem atom?_uint_eq_some_iff {width : Fin 32} : atom? (.uint width) v = some a ↔
    ∃ n : Nat, GivesNatural v n ∧ n < 2 ^ FieldType.bitCount width ∧ number n = a := by
  simp only [atom?, Option.bind_eq_some_iff, natural?_eq_some_iff, Option.ite_none_right_eq_some,
    Option.some.injEq, Nat.pow_eq]
  constructor
  · rintro ⟨n, ⟨hn, -⟩, hlt, rfl⟩
    exact ⟨n, hn, hlt, rfl⟩
  · rintro ⟨n, hn, hlt, rfl⟩
    have hword := Nat.pow_le_pow_right (n := 2) (by omega) (bitCount_le width)
    exact ⟨n, ⟨hn, by omega⟩, hlt, rfl⟩

theorem atom?_int_eq_some_iff {width : Fin 32} : atom? (.int width) v = some a ↔
    ∃ n : Int, GivesInteger v n ∧ -2 ^ (FieldType.bitCount width - 1) ≤ n ∧
      n < 2 ^ (FieldType.bitCount width - 1) ∧ number n = a := by
  have hcast : ((Nat.pow 2 (FieldType.bitCount width - 1) : Nat) : Int) =
      2 ^ (FieldType.bitCount width - 1) := Nat.cast_pow 2 _
  simp only [atom?, Option.bind_eq_some_iff, integer?_eq_some_iff, Option.ite_none_right_eq_some,
    Option.some.injEq, hcast, and_assoc]
  constructor
  · rintro ⟨n, hn, -, hlo, hhi, rfl⟩
    exact ⟨n, hn, hlo, hhi, rfl⟩
  · rintro ⟨n, hn, hlo, hhi, rfl⟩
    have hword : (2 : Int) ^ (FieldType.bitCount width - 1) ≤ 2 ^ 255 :=
      pow_le_pow_right₀ (by omega) (by have := bitCount_le width; omega)
    exact ⟨n, hn, by omega, hlo, hhi, rfl⟩

end TypedValue

end DocumentProof
