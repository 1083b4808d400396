import DocumentProof.Proofs.TypedData.Notation
import DocumentProof.Proofs.Wallet.Spelling

/-!
# The wire form of signatures

The text of a signature is `0x` and 130 hexadecimal digits of either case, whose bytes hold two
scalars and one of four last bytes (`IsWireForm`, `exists_ofText_iff`). Two such texts are read
alike if they are the same but for the case and for the 27 in the last byte (`eq_iff_sameWire`).
-/

namespace DocumentProof

open Secp256k1

theorem Scalar.toBytes_inj {x y : Scalar} (h : x.toBytes = y.toBytes) : x = y := by
  have hx := x.ofNat?_toNat_toBytes
  rw [h, y.ofNat?_toNat_toBytes] at hx
  exact (Option.some.inj hx).symm

/-- 32 bytes are those of a scalar if their number is one. -/
theorem Scalar.exists_toBytes_iff {bs : Bytes} : (∃ x : Scalar, x.toBytes = bs) ↔
    bs.length = 32 ∧ 0 < Bytes.toNat bs ∧ Bytes.toNat bs < groupOrder := by
  constructor
  · rintro ⟨x, rfl⟩
    rw [x.toNat_toBytes]
    exact ⟨x.length_toBytes, x.pos, x.lt⟩
  · rintro ⟨hlen, hpos, hlt⟩
    refine ⟨⟨_, hpos, hlt⟩, ?_⟩
    unfold toBytes
    dsimp only
    rw [← hlen, Bytes.ofNat_toNat]

namespace Signature

/-- The last bytes that a parity is given by. -/
def lastBytes (odd : Bool) : List UInt8 := if odd then [1, 28] else [0, 27]

theorem exists_lastBytes_iff {b : UInt8} :
    (∃ odd, b ∈ lastBytes odd) ↔ b ∈ ([0, 1, 27, 28] : List UInt8) := by
  simp only [lastBytes, Bool.exists_bool, if_true, List.mem_cons, List.not_mem_nil, or_false]
  grind

theorem oddOfByte?_eq_some_iff_mem {b : UInt8} {odd : Bool} :
    oddOfByte? b = some odd ↔ b ∈ lastBytes odd := by
  have all : ∀ b odd, oddOfByte? b = some odd ↔ b ∈ lastBytes odd :=
    Bytes.forall_byte (by decide +kernel)
  exact all b odd

/-- The characters of a text that a signature is read from. -/
theorem exists_bytes_of_ofText {t : String} {s : Signature} : ofText t = .ok s ↔
    s.reduced = false ∧ ∃ digits last, t.toList = '0' :: 'x' :: digits ∧ last ∈ lastBytes s.odd ∧
      digits.map Char.toLower = Hex.encodeChars (s.r.toBytes ++ s.s.toBytes ++ [last]) := by
  rw [ofText_eq_ok_iff, SpelledBy]
  refine and_congr_right fun hreduced => ?_
  simp only [← oddOfByte?_eq_some_iff hreduced, oddOfByte?_eq_some_iff_mem]

/-- `0x` and 130 digits, whose bytes are two scalars and the parity with or without the 27. -/
def IsWireForm (t : String) : Prop := ∃ digits first second last,
  t.toList = '0' :: 'x' :: digits ∧ digits.length = 130 ∧ (∀ c ∈ digits, Hex.IsDigit c) ∧
    digits.map Char.toLower = Hex.encodeChars (first ++ second ++ [last]) ∧
    (first.length = 32 ∧ 0 < Bytes.toNat first ∧ Bytes.toNat first < groupOrder) ∧
    (second.length = 32 ∧ 0 < Bytes.toNat second ∧ Bytes.toNat second < groupOrder) ∧
    last ∈ [0, 1, 27, 28]

theorem exists_ofText_iff {t : String} : (∃ s, ofText t = .ok s) ↔ IsWireForm t := by
  constructor
  · rintro ⟨s, h⟩
    obtain ⟨-, digits, last, ht, hlast, hlower⟩ := exists_bytes_of_ofText.mp h
    have hlen : (s.r.toBytes ++ s.s.toBytes ++ [last]).length = 65 := by
      rw [List.length_append, List.length_append, s.r.length_toBytes, s.s.length_toBytes]
      rfl
    have hdigits : Hex.IsDigits 65 digits := by
      refine Hex.exists_decode_iff.mp ⟨_, ?_, hlen⟩
      rw [Hex.decode_eq_ok_iff, String.toList_ofList]
      exact hlower
    exact ⟨digits, _, _, last, ht, hdigits.length, hdigits.digits, hlower,
      Scalar.exists_toBytes_iff.mp ⟨s.r, rfl⟩, Scalar.exists_toBytes_iff.mp ⟨s.s, rfl⟩,
      exists_lastBytes_iff.mp ⟨_, hlast⟩⟩
  · rintro ⟨digits, first, second, last, ht, -, -, hlower, hfirst, hsecond, hlast⟩
    obtain ⟨r, rfl⟩ := Scalar.exists_toBytes_iff.mpr hfirst
    obtain ⟨v, rfl⟩ := Scalar.exists_toBytes_iff.mpr hsecond
    obtain ⟨odd, hodd⟩ := exists_lastBytes_iff.mpr hlast
    exact ⟨⟨r, v, odd, false⟩, exists_bytes_of_ofText.mpr ⟨rfl, digits, last, ht, hodd, hlower⟩⟩

/-- The texts are the same but for the case of digits and for 27 added to the last byte. -/
def SameWire (t u : String) : Prop := ∃ bs x y,
  t.toList.map Char.toLower = (Hex.encodeMarked (bs ++ [x])).toList ∧
    u.toList.map Char.toLower = (Hex.encodeMarked (bs ++ [y])).toList ∧
    (x = y ∨ x = y + 27 ∨ y = x + 27)

theorem lastBytes_iff {a b : Bool} {x y : UInt8} (hx : x ∈ lastBytes a) (hy : y ∈ lastBytes b) :
    a = b ↔ x = y ∨ x = y + 27 ∨ y = x + 27 := by
  have hall : ∀ a b, ((lastBytes a).all fun x => (lastBytes b).all fun y =>
      decide (a = b ↔ x = y ∨ x = y + 27 ∨ y = x + 27)) = true := by
    decide
  exact of_decide_eq_true (List.all_eq_true.mp (List.all_eq_true.mp (hall a b) x hx) y hy)

theorem lower_toList {t : String} {digits : List Char} {bs : Bytes}
    (ht : t.toList = '0' :: 'x' :: digits) (hlower : digits.map Char.toLower = Hex.encodeChars bs) :
    t.toList.map Char.toLower = (Hex.encodeMarked bs).toList := by
  rw [ht, List.map_cons, List.map_cons, hlower, Hex.encodeMarked, String.toList_ofList]
  rfl

theorem eq_iff_sameWire {t u : String} {s s' : Signature} (ht : ofText t = .ok s)
    (hu : ofText u = .ok s') : s = s' ↔ SameWire t u := by
  obtain ⟨hreduced, digits, x, htlist, hx, htlower⟩ := exists_bytes_of_ofText.mp ht
  obtain ⟨hreduced', digits', y, hulist, hy, hulower⟩ := exists_bytes_of_ofText.mp hu
  have htext := lower_toList htlist htlower
  have hutext := lower_toList hulist hulower
  constructor
  · rintro rfl
    exact ⟨_, x, y, htext, hutext, (lastBytes_iff hx hy).mp rfl⟩
  · rintro ⟨bs, x', y', ht', hu', hsame⟩
    rw [htext, String.toList_inj] at ht'
    rw [hutext, String.toList_inj] at hu'
    obtain ⟨hbs, hx'⟩ := List.append_inj' (Hex.encodeMarked_inj ht') rfl
    obtain ⟨hbs', hy'⟩ := List.append_inj' (Hex.encodeMarked_inj hu') rfl
    obtain rfl := List.singleton_inj.mp hx'
    obtain rfl := List.singleton_inj.mp hy'
    obtain ⟨hr, hs⟩ := List.append_inj (hbs.trans hbs'.symm)
      (s.r.length_toBytes.trans s'.r.length_toBytes.symm)
    have hodd := (lastBytes_iff hx hy).mpr hsame
    obtain ⟨r, v, odd, reduced⟩ := s
    obtain ⟨r', v', odd', reduced'⟩ := s'
    rw [Signature.mk.injEq]
    exact ⟨Scalar.toBytes_inj hr, Scalar.toBytes_inj hs, hodd, hreduced.trans hreduced'.symm⟩

/-- **The texts of signatures:** what is written is read, what is read has the form, and what is
read alike is the same but for the case and the 27. -/
theorem wire_form :
    (∀ (r s : Scalar) (odd : Bool), ofText (Hex.encodeMarked
      (r.toBytes ++ s.toBytes ++ [UInt8.ofNat (27 + odd.toNat)])) = .ok ⟨r, s, odd, false⟩) ∧
    (∀ t, (∃ s, ofText t = .ok s) ↔ IsWireForm t) ∧
    ∀ t u, (∃ s, ofText t = .ok s ∧ ofText u = .ok s) ↔
      IsWireForm t ∧ IsWireForm u ∧ SameWire t u := by
  refine ⟨fun r s odd => ?_, fun t => exists_ofText_iff, fun t u => ?_⟩
  · have hlast : ∀ odd : Bool, UInt8.ofNat (27 + odd.toNat) ∈ lastBytes odd := by decide
    exact exists_bytes_of_ofText.mpr
      ⟨rfl, _, _, String.toList_ofList, hlast odd, Hex.lower_encodeChars _⟩
  · rw [← exists_ofText_iff, ← exists_ofText_iff]
    constructor
    · rintro ⟨s, ht, hu⟩
      exact ⟨⟨s, ht⟩, ⟨s, hu⟩, (eq_iff_sameWire ht hu).mp rfl⟩
    · rintro ⟨⟨s, ht⟩, ⟨s', hu⟩, hsame⟩
      obtain rfl := (eq_iff_sameWire ht hu).mpr hsame
      exact ⟨s, ht, hu⟩

end Signature

end DocumentProof
