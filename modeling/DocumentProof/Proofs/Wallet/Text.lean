import DocumentProof.Proofs.Bytes
import DocumentProof.Proofs.Identity
import DocumentProof.Wallet.Checksum
import DocumentProof.Wallet.Wire
import Mathlib.Data.Bool.AllAny

/-!
# Signatures and accounts as text

Hexadecimal text is read as the bytes that were written (`decode_encode`), so the text of a
signature is read as this signature (`ofText_toText`) as long as its nonce's point was not reduced:
the last byte has no room for more than the parity. The text of an account has no character with a
meaning in an identifier (`isPlain_of_mem_toText`), so as an identifier it names this account
(`bareChars_toText`).
-/

namespace DocumentProof

namespace Hex

/-! ## Digits -/

theorem value?_digit {n : Nat} (h : n < 16) : value? (UInt8.ofNat (digit n).toNat) = some n := by
  have all : ∀ n < 16, value? (UInt8.ofNat (digit n).toNat) = some n := by decide
  exact all n h

theorem digit_mem {n : Nat} (h : n < 16) : digit n ∈ "0123456789abcdef".toList := by
  have all : ∀ n < 16, digit n ∈ "0123456789abcdef".toList := by decide
  exact all n h

theorem mem_encodeChars {bs : Bytes} {c : Char} (h : c ∈ encodeChars bs) :
    c ∈ "0123456789abcdef".toList := by
  obtain ⟨b, -, hc⟩ := List.mem_flatMap.mp h
  have hb : b.toNat < 256 := b.toNat_lt
  rcases List.mem_cons.mp hc with rfl | hc
  · exact digit_mem (by omega)
  · rw [List.mem_singleton.mp hc]
    exact digit_mem (by omega)

/-! ## Bytes -/

theorem length_encodeChars (bs : Bytes) : (encodeChars bs).length = 2 * bs.length := by
  induction bs with
  | nil => rfl
  | cons b bs ih =>
    have hcons : encodeChars (b :: bs) = byteChars b ++ encodeChars bs := List.flatMap_cons
    rw [hcons, List.length_append, ih, List.length_cons, Nat.mul_succ, Nat.add_comm]
    rfl

/-- The written digits as the bytes of a text. -/
theorem ofString_encode (bs : Bytes) :
    Bytes.ofString (encode bs) = (encodeChars bs).map fun c => UInt8.ofNat c.toNat := by
  have ascii : ∀ c ∈ "0123456789abcdef".toList, c.toNat ≤ 127 :=
    List.all_iff_forall_prop.mp (by decide)
  exact Bytes.ofString_ofList fun c hc => ascii c (mem_encodeChars hc)

theorem decodePairs_encodeChars (position : Nat) (bs : Bytes) :
    decodePairs position ((encodeChars bs).map fun c => UInt8.ofNat c.toNat) = .ok bs := by
  induction bs generalizing position with
  | nil => rfl
  | cons b bs ih =>
    have hb : b.toNat < 256 := b.toNat_lt
    have hcons : (encodeChars (b :: bs)).map (fun c => UInt8.ofNat c.toNat)
        = UInt8.ofNat (digit (b.toNat / 16)).toNat :: UInt8.ofNat (digit (b.toNat % 16)).toNat
          :: (encodeChars bs).map fun c => UInt8.ofNat c.toNat := rfl
    have hvalue : 16 * (b.toNat / 16) + b.toNat % 16 = b.toNat := Nat.div_add_mod b.toNat 16
    rw [hcons, decodePairs, value?_digit (by omega), value?_digit (by omega)]
    simp only [ih, hvalue, UInt8.ofNat_toNat]

/-- **Hexadecimal text is read as the bytes that were written.** -/
theorem decode_encode (bs : Bytes) : decode (encode bs) = .ok bs := by
  unfold decode decodeBytes
  rw [ofString_encode, List.length_map, length_encodeChars, if_neg (by omega)]
  exact decodePairs_encodeChars 0 bs

end Hex

/-! ## Signatures -/

namespace Scalar

theorem length_toBytes (s : Scalar) : s.toBytes.length = 32 := Bytes.length_ofNat 32 _

theorem toNat_toBytes (s : Scalar) : Bytes.toNat s.toBytes = s.value := by
  refine Bytes.toNat_ofNat (Nat.lt_trans s.lt ?_)
  decide

theorem ofNat?_toNat_toBytes (s : Scalar) : ofNat? (Bytes.toNat s.toBytes) = some s := by
  rw [toNat_toBytes]
  exact dif_pos ⟨s.pos, s.lt⟩

end Scalar

namespace Signature

theorem oddOfByte?_recoveryId {s : Signature} (h : s.recoveryId ≤ 1) :
    s.reduced = false ∧ oddOfByte? (UInt8.ofNat (27 + s.recoveryId)) = some s.odd := by
  obtain ⟨r, v, odd, reduced⟩ := s
  cases reduced
  · cases odd <;> exact ⟨rfl, rfl⟩
  · cases odd <;> simp [recoveryId] at h

theorem ofBytes_toBytes {s : Signature} (h : s.recoveryId ≤ 1) : ofBytes s.toBytes = .ok s := by
  obtain ⟨hreduced, hodd⟩ := oddOfByte?_recoveryId h
  have hlen : (s.r.toBytes ++ s.s.toBytes).length = 64 := by
    rw [List.length_append, Scalar.length_toBytes, Scalar.length_toBytes]
  have hlast : s.toBytes.getD 64 0 = UInt8.ofNat (27 + s.recoveryId) := by
    unfold toBytes
    rw [List.getD_eq_getElem?_getD, ← hlen, List.getElem?_concat_length, Option.getD_some]
  have hr : s.toBytes.take 32 = s.r.toBytes := by
    unfold toBytes
    rw [List.append_assoc, List.take_left' (Scalar.length_toBytes _)]
  have hs : (s.toBytes.drop 32).take 32 = s.s.toBytes := by
    unfold toBytes
    rw [List.append_assoc, List.drop_left' (Scalar.length_toBytes _),
      List.take_left' (Scalar.length_toBytes _)]
  have htotal : s.toBytes.length = 65 := by
    unfold toBytes
    rw [List.length_append, hlen, List.length_singleton]
  unfold ofBytes
  rw [if_neg (not_not.mpr htotal), hlast, hr, hs]
  simp only [hodd, Scalar.ofNat?_toNat_toBytes, ← hreduced]

/-- **A signature is what its text is read as.** -/
theorem ofText_toText {s : Signature} (h : s.recoveryId ≤ 1) : ofText s.toText = .ok s := by
  have hdecode : Hex.decode (String.ofList (Hex.encodeChars s.toBytes)) = .ok s.toBytes :=
    Hex.decode_encode s.toBytes
  unfold ofText toText Hex.encodeMarked
  simp only [String.toList_ofList, hdecode, ofBytes_toBytes h]

end Signature

/-! ## Accounts -/

namespace Address

/-- The digits of an account, upper or lower case, after the mark. -/
theorem toList_toText (a : Address) : ∃ cs, (toText a).toList = '0' :: 'x' :: cs ∧
    ∀ c ∈ cs, ∃ d ∈ "0123456789abcdef".toList, c = d ∨ c = d.toUpper := by
  refine ⟨_, String.toList_ofList, fun c hc => ?_⟩
  rw [show checkedDigit = Function.curry fun x => checkedDigit x.1 x.2 from rfl,
    ← List.map_zip_eq_zipWith] at hc
  obtain ⟨⟨d, check⟩, hmem, rfl⟩ := List.mem_map.mp hc
  refine ⟨d, Hex.mem_encodeChars (List.of_mem_zip hmem).1, ?_⟩
  unfold checkedDigit
  split
  · exact Or.inr rfl
  · exact Or.inl rfl

/-- No character of an account's text ends an identifier or a part of one. -/
theorem isPlain_of_mem_toText {a : Address} {c : Char} (h : c ∈ (toText a).toList) :
    Text.isBlank c = false ∧ c ≠ '#' ∧ c ≠ '?' := by
  obtain ⟨cs, htext, hcs⟩ := toList_toText a
  rw [htext] at h
  rcases List.mem_cons.mp h with rfl | h
  · decide
  rcases List.mem_cons.mp h with rfl | h
  · decide
  obtain ⟨d, hd, heq⟩ := hcs c h
  have plain : ∀ d ∈ "0123456789abcdef".toList,
      (Text.isBlank d = false ∧ d ≠ '#' ∧ d ≠ '?') ∧
        (Text.isBlank d.toUpper = false ∧ d.toUpper ≠ '#' ∧ d.toUpper ≠ '?') :=
    List.all_iff_forall_prop.mp (by decide)
  rcases heq with rfl | rfl
  · exact (plain _ hd).1
  · exact (plain d hd).2

/-- The identifier that is the text of an account. -/
def toMethodId (a : Address) : MethodId where
  text := toText a
  valid := by
    refine ⟨fun h => ?_, fun c hc => (isPlain_of_mem_toText hc).1⟩
    obtain ⟨cs, htext, -⟩ := toList_toText a
    rw [h] at htext
    simp at htext

/-- **The text of an account names this account.** -/
theorem bareAddress_toMethodId (a : Address) : a.toMethodId.bareAddress = toText a := by
  obtain ⟨cs, htext, -⟩ := toList_toText a
  have hnot : "did:".toList.isPrefixOf (toText a).toList = false := by
    rw [htext]
    rfl
  have hplain : ∀ c ∈ (toText a).toList, c ≠ '#' ∧ c ≠ '?' := fun c hc =>
    (isPlain_of_mem_toText hc).2
  have hparts := MethodId.bareChars_append none none hplain nofun
  rw [MethodId.marked, MethodId.marked, List.append_nil, List.append_nil, hnot] at hparts
  rw [MethodId.bareAddress, toMethodId, hparts, if_neg Bool.false_ne_true, String.ofList_toList]

end Address

end DocumentProof
