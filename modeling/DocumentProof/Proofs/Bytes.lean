import DocumentProof.Bytes.Basic
import Mathlib.Algebra.Group.Nat.Defs
import Mathlib.Data.List.Induction

/-!
# Bytes, numbers and words

A number below `256 ^ n` is the number that its `n` bytes write (`toNat_ofNat`), and `n` bytes are
the bytes of the number they write (`ofNat_toNat`). So words and their 32 bytes determine each
other, and so do texts and their UTF-8 form. What is to hold of every byte or of every character of
ASCII is checked one by one (`forall_byte`, `forall_ascii`).
-/

namespace DocumentProof

namespace Bytes

/-! ### One by one -/

/-- What is checked for the 256 bytes holds for every byte. -/
theorem forall_byte {P : UInt8 → Prop} (h : ∀ n < 256, P (UInt8.ofNat n)) (b : UInt8) : P b := by
  have hb := h b.toNat b.toNat_lt
  rwa [UInt8.ofNat_toNat] at hb

/-- What is checked for the 128 characters of ASCII holds for each of them. -/
theorem forall_ascii {P : Char → Prop} (h : ∀ n ≤ 127, P (Char.ofNat n)) (c : Char)
    (hc : c.toNat ≤ 127) : P c := by
  have hn := h c.toNat hc
  rwa [Char.ofNat_toNat] at hn

theorem toNat_ascii {n : Nat} (h : n ≤ 127) : (Char.ofNat n).toNat = n := by
  have all : ∀ n ≤ 127, (Char.ofNat n).toNat = n := by decide
  exact all n h

/-! ### Texts -/

theorem toList_loop (bs : ByteArray) (i : Nat) (r : List UInt8) :
    ByteArray.toList.loop bs i r = r.reverse ++ bs.data.toList.drop i := by
  fun_induction ByteArray.toList.loop bs i r with
  | case1 i r h ih =>
    have hi : i < bs.data.toList.length := h
    have hget : bs.get! i = bs.data.toList[i] := by
      show bs.data[i]! = bs.data.toList[i]
      rw [getElem!_pos bs.data i h, Array.getElem_toList]
    rw [ih, List.reverse_cons, List.append_assoc, List.drop_eq_getElem_cons hi, hget]
    rfl
  | case2 i r h =>
    rw [List.drop_eq_nil_of_le (Nat.le_of_not_lt h), List.append_nil]

theorem ofString_eq (s : String) : ofString s = s.toByteArray.data.toList := by
  unfold ofString ByteArray.toList
  rw [toList_loop]
  rfl

/-- **A text is determined by its UTF-8 form.** -/
theorem ofString_inj {s t : String} : ofString s = ofString t ↔ s = t := by
  refine ⟨fun h => ?_, fun h => by rw [h]⟩
  rw [ofString_eq, ofString_eq, Array.toList_inj] at h
  exact String.toByteArray_inj.mp (ByteArray.ext h)

theorem ofString_append (s t : String) : ofString (s ++ t) = ofString s ++ ofString t := by
  rw [ofString_eq, ofString_eq, ofString_eq, String.toByteArray_append, ByteArray.data_append,
    Array.toList_append]

/-- A text of ASCII characters has one byte a character. -/
theorem ofString_ofList {cs : List Char} (h : ∀ c ∈ cs, c.toNat ≤ 127) :
    ofString (String.ofList cs) = cs.map fun c => UInt8.ofNat c.toNat := by
  rw [ofString_eq, String.toByteArray_ofList, List.utf8Encode, List.toList_data_toByteArray,
    List.map_eq_flatMap, List.flatMap_def, List.flatMap_def]
  exact congrArg List.flatten (List.map_congr_left fun c hc => if_pos (h c hc))

/-! ### Numbers -/

theorem toNat_append_singleton (bs : Bytes) (b : UInt8) :
    toNat (bs ++ [b]) = toNat bs * 256 + b.toNat := by
  unfold toNat
  rw [List.foldl_append]
  rfl

theorem toNat_lt (bs : Bytes) : toNat bs < 256 ^ bs.length := by
  induction bs using List.reverseRecOn with
  | nil => decide
  | append_singleton bs b ih =>
    have hb : b.toNat < 256 := b.toNat_lt
    rw [toNat_append_singleton, List.length_append, List.length_singleton, Nat.pow_succ]
    omega

/-- The last byte of a number and the bytes of the rest. -/
theorem ofNat_succ (size n : Nat) :
    ofNat (size + 1) n = ofNat size (n / 256) ++ [UInt8.ofNat n] := by
  unfold ofNat
  rw [List.range_succ, List.map_append, List.map_singleton]
  congr 1
  · refine List.map_congr_left fun i hi => ?_
    have hi : i < size := List.mem_range.mp hi
    have hk : size + 1 - 1 - i = size - 1 - i + 1 := by omega
    show UInt8.ofNat (n / 256 ^ (size + 1 - 1 - i)) = UInt8.ofNat (n / 256 / 256 ^ (size - 1 - i))
    rw [hk, Nat.pow_succ, Nat.div_div_eq_div_mul, Nat.mul_comm (256 ^ (size - 1 - i))]
  · show [UInt8.ofNat (n / 256 ^ (size + 1 - 1 - size))] = [UInt8.ofNat n]
    rw [show size + 1 - 1 - size = 0 by omega, Nat.pow_zero, Nat.div_one]

theorem toNat_ofNat : ∀ {size n : Nat}, n < 256 ^ size → toNat (ofNat size n) = n
  | 0, n, h => by
    have : n = 0 := by simpa using h
    subst this
    rfl
  | size + 1, n, h => by
    have hdiv : n / 256 < 256 ^ size := by
      rw [Nat.pow_succ] at h
      omega
    rw [ofNat_succ, toNat_append_singleton, toNat_ofNat hdiv, UInt8.toNat_ofNat']
    omega

theorem ofNat_toNat (bs : Bytes) : ofNat bs.length (toNat bs) = bs := by
  induction bs using List.reverseRecOn with
  | nil => rfl
  | append_singleton bs b ih =>
    have hb : b.toNat < 256 := b.toNat_lt
    have hdiv : (toNat bs * 256 + b.toNat) / 256 = toNat bs := by omega
    have hmod : UInt8.ofNat (toNat bs * 256 + b.toNat) = b := by
      apply UInt8.toNat_inj.mp
      rw [UInt8.toNat_ofNat']
      omega
    rw [toNat_append_singleton, List.length_append, List.length_singleton, ofNat_succ, hdiv, hmod, ih]

/-- Byte strings of one length that write one number are equal. -/
theorem eq_of_toNat_eq {as bs : Bytes} (hl : as.length = bs.length) (h : toNat as = toNat bs) :
    as = bs := by
  rw [← ofNat_toNat as, ← ofNat_toNat bs, hl, h]

theorem length_padRight {size : Nat} {bs : Bytes} (h : bs.length ≤ size) :
    (padRight size bs).length = size := by
  unfold padRight
  rw [List.length_append, List.length_replicate]
  omega

/-- Zeros at the end of byte strings of one length can be taken off again. -/
theorem eq_of_padRight_eq {size : Nat} {as bs : Bytes} (hl : as.length = bs.length)
    (h : padRight size as = padRight size bs) : as = bs := (List.append_inj h hl).1

/-- Zeros up to one size, then up to a larger one, are zeros up to the larger one. -/
theorem padRight_padRight {small large : Nat} {bs : Bytes} (hb : bs.length ≤ small)
    (hs : small ≤ large) : padRight large (padRight small bs) = padRight large bs := by
  unfold padRight
  rw [List.append_assoc, List.append_cancel_left_eq, List.length_append, List.length_replicate,
    List.replicate_append_replicate]
  congr 1
  omega

end Bytes

namespace Word

theorem ofBytes_toBytes (w : Word) : ofBytes (toBytes w) = w := by
  unfold ofBytes toBytes
  rw [Bytes.toNat_ofNat (by have := w.isLt; omega), BitVec.ofNat_toNat, BitVec.setWidth_eq]

theorem toBytes_inj {v w : Word} (h : toBytes v = toBytes w) : v = w := by
  rw [← ofBytes_toBytes v, ← ofBytes_toBytes w, h]

/-- Bytes at the right end of a word write the same number as the word. -/
theorem toNat_ofBytes {bs : Bytes} (h : bs.length ≤ 32) : (ofBytes bs).toNat = bs.toNat := by
  unfold ofBytes
  have hpow : 256 ^ bs.length ≤ 256 ^ 32 := Nat.pow_le_pow_right (by omega) h
  rw [BitVec.toNat_ofNat, Nat.mod_eq_of_lt]
  exact Nat.lt_of_lt_of_le (Bytes.toNat_lt bs) hpow

/-- Bytes of one length are determined by the word that they stand in. -/
theorem eq_of_ofBytes_eq {as bs : Bytes} (hl : as.length = bs.length) (hle : bs.length ≤ 32)
    (h : ofBytes as = ofBytes bs) : as = bs := by
  have hnat := congrArg BitVec.toNat h
  rw [toNat_ofBytes (hl ▸ hle), toNat_ofBytes hle] at hnat
  exact Bytes.eq_of_toNat_eq hl hnat

/-- A word of 32 bytes determines them. -/
theorem ofBytes_inj {as bs : Bytes} (ha : as.length = 32) (hb : bs.length = 32)
    (h : ofBytes as = ofBytes bs) : as = bs :=
  eq_of_ofBytes_eq (ha.trans hb.symm) (Nat.le_of_eq hb) h

end Word

end DocumentProof
