import DocumentProof.Proofs.Outcome
import DocumentProof.Proofs.Wallet.Text
import DocumentProof.Wallet.Basic

/-!
# The spellings of a signature

Hexadecimal digits are read in either case, so a text is read as those bytes whose written form is
the text in lower case (`Hex.decode_eq_ok_iff`). A signature has a spelling for each choice of case,
with or without the 27 in its last byte, and no other (`Signature.ofText_eq_ok_iff`). The text of an
account has one spelling for each case as well, but only one account (`Address.eq_of_lower_eq`).
-/

namespace DocumentProof

namespace Hex

/-! ## Digits of either case -/

/-- The character of a byte, in lower case. -/
def lowerChar (b : UInt8) : Char := (Char.ofNat b.toNat).toLower

theorem value?_eq_some_iff {b : UInt8} {x : Nat} (hx : x < 16) :
    value? b = some x ↔ lowerChar b = digit x := by
  have all : ∀ b, ∀ x < 16, value? b = some x ↔ lowerChar b = digit x :=
    Bytes.forall_byte (by decide +kernel)
  exact all b x hx

theorem value?_lt {b : UInt8} {x : Nat} (h : value? b = some x) : x < 16 := by
  unfold value? at h
  dsimp only at h
  split_ifs at h <;> simp only [Option.some.injEq] at h <;> omega

theorem encodeChars_cons (b : UInt8) (bs : Bytes) :
    encodeChars (b :: bs) = digit (b.toNat / 16) :: digit (b.toNat % 16) :: encodeChars bs := rfl

/-- **Pairs of digits are read as the bytes** whose written form they are in lower case. -/
theorem decodePairs_eq_ok_iff : ∀ {ds bs : Bytes} {position : Nat},
    decodePairs position ds = .ok bs ↔ ds.map lowerChar = encodeChars bs
  | [], bs, position => by
    cases bs with
    | nil => simp [decodePairs, encodeChars]
    | cons b bs => simp [decodePairs, encodeChars_cons]
  | [a], bs, position => by
    cases bs with
    | nil => simp [decodePairs, encodeChars]
    | cons b bs => simp [decodePairs, encodeChars_cons]
  | a :: b :: rest, bs, position => by
    have ih : ∀ bs, decodePairs (position + 2) rest = .ok bs ↔
        rest.map lowerChar = encodeChars bs := fun _ => decodePairs_eq_ok_iff
    rw [decodePairs]
    constructor
    · intro h
      split at h
      · next x y hx hy =>
        split at h
        · next tail htail =>
          cases h
          have hx16 := value?_lt hx
          have hy16 := value?_lt hy
          have hbyte : (UInt8.ofNat (16 * x + y)).toNat = 16 * x + y := by
            rw [UInt8.toNat_ofNat']
            omega
          have hhigh : (16 * x + y) / 16 = x := by omega
          have hlow : (16 * x + y) % 16 = y := by omega
          rw [List.map_cons, List.map_cons, encodeChars_cons, hbyte, hhigh, hlow,
            (value?_eq_some_iff hx16).mp hx, (value?_eq_some_iff hy16).mp hy, (ih tail).mp htail]
        · cases h
      · cases h
      · cases h
    · intro h
      cases bs with
      | nil => cases h
      | cons c cs =>
        rw [List.map_cons, List.map_cons, encodeChars_cons, List.cons.injEq, List.cons.injEq] at h
        obtain ⟨ha, hb, htail⟩ := h
        have hc : c.toNat < 256 := c.toNat_lt
        have hvalue : 16 * (c.toNat / 16) + c.toNat % 16 = c.toNat := Nat.div_add_mod c.toNat 16
        simp only [(value?_eq_some_iff (by omega)).mpr ha, (value?_eq_some_iff (by omega)).mpr hb,
          (ih cs).mpr htail, hvalue, UInt8.ofNat_toNat]

/-! ## Texts of either case -/

/-- Only ASCII characters have a digit as their lower case. -/
theorem ascii_of_toLower {c : Char} (h : c.toLower ∈ "0123456789abcdef".toList) :
    c.toNat ≤ 127 := by
  have ascii : ∀ c ∈ "0123456789abcdef".toList, c.toNat ≤ 127 :=
    List.all_iff_forall_prop.mp (by decide)
  unfold Char.toLower at h
  split at h
  · next hupper =>
    have hle : c.val.toNat ≤ 'Z'.val.toNat := hupper.2
    exact Nat.le_trans hle (by decide)
  · exact ascii c h

theorem lowerChar_ofNat {c : Char} (h : c.toNat ≤ 127) :
    lowerChar (UInt8.ofNat c.toNat) = c.toLower := by
  unfold lowerChar
  rw [UInt8.toNat_ofNat', Nat.mod_eq_of_lt (by omega), Char.ofNat_toNat]

/-- The bytes of a text of ASCII characters, as characters in lower case. -/
theorem map_lowerChar_ofString {s : String} (h : ∀ c ∈ s.toList, c.toNat ≤ 127) :
    (Bytes.ofString s).map lowerChar = s.toList.map Char.toLower := by
  have hbytes := Bytes.ofString_ofList h
  rw [String.ofList_toList] at hbytes
  rw [hbytes, List.map_map]
  exact List.map_congr_left fun c hc => lowerChar_ofNat (h c hc)

/-- A text whose bytes are all ASCII has these as its characters. -/
theorem ascii_of_ofString {s : String} (h : ∀ b ∈ Bytes.ofString s, b.toNat ≤ 127) :
    ∀ c ∈ s.toList, c.toNat ≤ 127 := by
  have hascii : ∀ c ∈ (Bytes.ofString s).map (fun b => Char.ofNat b.toNat), c.toNat ≤ 127 := by
    intro c hc
    obtain ⟨b, hb, rfl⟩ := List.mem_map.mp hc
    rw [Bytes.toNat_ascii (h b hb)]
    exact h b hb
  have hs : Bytes.ofString (String.ofList ((Bytes.ofString s).map fun b => Char.ofNat b.toNat)) =
      Bytes.ofString s := by
    rw [Bytes.ofString_ofList hascii, List.map_map]
    conv_rhs => rw [← List.map_id (Bytes.ofString s)]
    refine List.map_congr_left fun b hb => ?_
    show UInt8.ofNat (Char.ofNat b.toNat).toNat = b
    rw [Bytes.toNat_ascii (h b hb), UInt8.ofNat_toNat]
  rw [Bytes.ofString_inj] at hs
  rw [← hs, String.toList_ofList]
  exact hascii

theorem ascii_of_lowerChar {b : UInt8} (h : lowerChar b ∈ "0123456789abcdef".toList) :
    b.toNat ≤ 127 := by
  have all : ∀ b, lowerChar b ∈ "0123456789abcdef".toList → b.toNat ≤ 127 :=
    Bytes.forall_byte (by decide +kernel)
  exact all b h

/-- **A text is read as the bytes** whose written form it is in lower case. -/
theorem decode_eq_ok_iff {s : String} {bs : Bytes} :
    decode s = .ok bs ↔ s.toList.map Char.toLower = encodeChars bs := by
  have hread : decode s = .ok bs ↔ (Bytes.ofString s).map lowerChar = encodeChars bs := by
    unfold decode decodeBytes
    split
    · next hodd =>
      refine ⟨nofun, fun h => ?_⟩
      have hlen := congrArg List.length h
      rw [List.length_map, length_encodeChars] at hlen
      omega
    · exact decodePairs_eq_ok_iff
  rw [hread]
  constructor
  · intro h
    have hascii : ∀ b ∈ Bytes.ofString s, b.toNat ≤ 127 := fun b hb =>
      ascii_of_lowerChar (mem_encodeChars (h ▸ List.mem_map_of_mem hb))
    rw [← map_lowerChar_ofString (ascii_of_ofString hascii)]
    exact h
  · intro h
    have hascii : ∀ c ∈ s.toList, c.toNat ≤ 127 := fun c hc =>
      ascii_of_toLower (mem_encodeChars (h ▸ List.mem_map_of_mem hc))
    rw [map_lowerChar_ofString hascii]
    exact h

theorem toLower_of_mem {d : Char} (h : d ∈ "0123456789abcdef".toList) :
    d.toLower = d ∧ d.toUpper.toLower = d := by
  have all : ∀ d ∈ "0123456789abcdef".toList, d.toLower = d ∧ d.toUpper.toLower = d :=
    List.all_iff_forall_prop.mp (by decide)
  exact all d h

theorem lower_encodeChars (bs : Bytes) : (encodeChars bs).map Char.toLower = encodeChars bs := by
  conv_rhs => rw [← List.map_id (encodeChars bs)]
  exact List.map_congr_left fun d hd => (toLower_of_mem (mem_encodeChars hd)).1

theorem lower_upper_encodeChars (bs : Bytes) :
    ((encodeChars bs).map Char.toUpper).map Char.toLower = encodeChars bs := by
  rw [List.map_map]
  conv_rhs => rw [← List.map_id (encodeChars bs)]
  exact List.map_congr_left fun d hd => (toLower_of_mem (mem_encodeChars hd)).2

theorem encodeChars_inj {as bs : Bytes} (h : encodeChars as = encodeChars bs) : as = bs := by
  have ha := decode_encode as
  unfold encode at ha
  rw [h] at ha
  exact Except.ok.inj (ha.symm.trans (decode_encode bs))

theorem encodeMarked_inj {as bs : Bytes} (h : encodeMarked as = encodeMarked bs) : as = bs := by
  have hlist := String.ofList_injective h
  rw [List.cons.injEq, List.cons.injEq] at hlist
  exact encodeChars_inj hlist.2.2

end Hex

/-! ## Signatures -/

/-- 32 bytes are read as the scalar that they are the bytes of. -/
theorem Scalar.ofNat?_toNat_iff {bs : Bytes} {x : Scalar} (h : bs.length = 32) :
    Scalar.ofNat? (Bytes.toNat bs) = some x ↔ bs = x.toBytes := by
  constructor
  · intro hx
    unfold Scalar.ofNat? at hx
    split at hx
    · cases hx
      unfold Scalar.toBytes
      rw [← h, Bytes.ofNat_toNat]
    · cases hx
  · rintro rfl
    exact x.ofNat?_toNat_toBytes

namespace Signature

variable {s : Signature} {t : String}

/-- A text that a signature is read from: `0x` and the digits of both scalars and of the parity of
the nonce's point, as it is or with 27 added, in either case. A point that was reduced has no text.
-/
def SpelledBy (s : Signature) (t : String) : Prop :=
  s.reduced = false ∧ ∃ digits last, t.toList = '0' :: 'x' :: digits ∧
    (last = UInt8.ofNat s.recoveryId ∨ last = UInt8.ofNat (27 + s.recoveryId)) ∧
    digits.map Char.toLower = Hex.encodeChars (s.r.toBytes ++ s.s.toBytes ++ [last])

theorem oddOfByte?_eq_some_iff {b : UInt8} (h : s.reduced = false) : oddOfByte? b = some s.odd ↔
    b = UInt8.ofNat s.recoveryId ∨ b = UInt8.ofNat (27 + s.recoveryId) := by
  have all : ∀ b odd, oddOfByte? b = some odd ↔ b = UInt8.ofNat (0 + if odd then 1 else 0) ∨
      b = UInt8.ofNat (27 + (0 + if odd then 1 else 0)) :=
    Bytes.forall_byte (by decide +kernel)
  have hid : s.recoveryId = 0 + if s.odd then 1 else 0 := by
    unfold recoveryId
    rw [h]
    rfl
  rw [hid]
  exact all b s.odd

/-- What the parts of 65 bytes are read as. -/
theorem ofBytes_parts {first second : Bytes} {last : UInt8} (h₁ : first.length = 32)
    (h₂ : second.length = 32) : ofBytes (first ++ second ++ [last]) = .ok s ↔
      oddOfByte? last = some s.odd ∧ first = s.r.toBytes ∧ second = s.s.toBytes ∧
        s.reduced = false := by
  have hlen : (first ++ second).length = 64 := by rw [List.length_append, h₁, h₂]
  have htotal : (first ++ second ++ [last]).length = 65 := by
    rw [List.length_append, hlen, List.length_singleton]
  have hlast : (first ++ second ++ [last]).getD 64 0 = last := by
    rw [List.getD_eq_getElem?_getD, ← hlen, List.getElem?_concat_length, Option.getD_some]
  have hr : (first ++ second ++ [last]).take 32 = first := by
    rw [List.append_assoc, List.take_left' h₁]
  have hs : ((first ++ second ++ [last]).drop 32).take 32 = second := by
    rw [List.append_assoc, List.drop_left' h₁, List.take_left' h₂]
  unfold ofBytes
  rw [if_neg (not_not.mpr htotal), hlast, hr, hs, ← Scalar.ofNat?_toNat_iff h₁,
    ← Scalar.ofNat?_toNat_iff h₂]
  obtain ⟨r, v, odd, reduced⟩ := s
  dsimp only
  rcases oddOfByte? last with _ | found
  · simp
  rcases Scalar.ofNat? (Bytes.toNat first) with _ | x
  · simp
  rcases Scalar.ofNat? (Bytes.toNat second) with _ | y
  · simp
  · simp only [Except.ok.injEq, Signature.mk.injEq, Option.some.injEq]
    grind

/-- **65 bytes are read as the signature** whose scalars and parity they are. -/
theorem ofBytes_eq_ok_iff {bs : Bytes} : ofBytes bs = .ok s ↔
    s.reduced = false ∧ ∃ last, oddOfByte? last = some s.odd ∧
      bs = s.r.toBytes ++ s.s.toBytes ++ [last] := by
  constructor
  · intro h
    by_cases hlen : bs.length = 65
    · obtain ⟨last, hlast⟩ : ∃ last, bs.drop 64 = [last] := by
        refine List.length_eq_one_iff.mp ?_
        rw [List.length_drop, hlen]
      have hparts : bs = bs.take 32 ++ (bs.drop 32).take 32 ++ [last] := by
        rw [← hlast, ← List.take_add, List.take_append_drop]
      have h₁ : (bs.take 32).length = 32 := by
        rw [List.length_take, hlen]
        rfl
      have h₂ : ((bs.drop 32).take 32).length = 32 := by
        rw [List.length_take, List.length_drop, hlen]
        rfl
      rw [hparts, ofBytes_parts h₁ h₂] at h
      obtain ⟨hodd, hr, hs, hreduced⟩ := h
      refine ⟨hreduced, last, hodd, ?_⟩
      rw [← hr, ← hs]
      exact hparts
    · unfold ofBytes at h
      rw [if_pos hlen] at h
      cases h
  · rintro ⟨hreduced, last, hodd, rfl⟩
    exact (ofBytes_parts s.r.length_toBytes s.s.length_toBytes).mpr ⟨hodd, rfl, rfl, hreduced⟩

/-- **A text is read as the signature that it spells.** -/
theorem ofText_eq_ok_iff : ofText t = .ok s ↔ s.SpelledBy t := by
  constructor
  · intro h
    unfold ofText at h
    split at h
    · next digits hdigits =>
      split at h
      · next bs hbs =>
        obtain ⟨hreduced, last, hodd, rfl⟩ := ofBytes_eq_ok_iff.mp h
        rw [Hex.decode_eq_ok_iff, String.toList_ofList] at hbs
        exact ⟨hreduced, digits, last, hdigits, (oddOfByte?_eq_some_iff hreduced).mp hodd, hbs⟩
      · cases h
    · cases h
  · rintro ⟨hreduced, digits, last, hdigits, hlast, hlower⟩
    have hdecode : Hex.decode (String.ofList digits) =
        .ok (s.r.toBytes ++ s.s.toBytes ++ [last]) := by
      rw [Hex.decode_eq_ok_iff, String.toList_ofList]
      exact hlower
    have hbytes : ofBytes (s.r.toBytes ++ s.s.toBytes ++ [last]) = .ok s :=
      ofBytes_eq_ok_iff.mpr ⟨hreduced, last, (oddOfByte?_eq_some_iff hreduced).mpr hlast, rfl⟩
    unfold ofText
    rw [hdigits]
    simp only [hdecode, hbytes]

/-! ### Some spellings -/

theorem spelledBy_toText (h : s.reduced = false) : s.SpelledBy s.toText :=
  ⟨h, _, _, String.toList_ofList, .inr rfl, Hex.lower_encodeChars s.toBytes⟩

/-- The text of the signature with its digits in upper case. -/
def upperText (s : Signature) : String :=
  String.ofList ('0' :: 'x' :: (Hex.encodeChars s.toBytes).map Char.toUpper)

theorem spelledBy_upperText (h : s.reduced = false) : s.SpelledBy s.upperText :=
  ⟨h, _, _, String.toList_ofList, .inr rfl, Hex.lower_upper_encodeChars s.toBytes⟩

/-- The text of the signature with the bare parity in its last byte. -/
def bareText (s : Signature) : String :=
  Hex.encodeMarked (s.r.toBytes ++ s.s.toBytes ++ [UInt8.ofNat s.recoveryId])

theorem spelledBy_bareText (h : s.reduced = false) : s.SpelledBy s.bareText :=
  ⟨h, _, _, String.toList_ofList, .inl rfl, Hex.lower_encodeChars _⟩

/-- What the text of a signature is read as is this signature. -/
theorem eq_of_ofText_toText {other : Signature} (h : ofText s.toText = .ok other) : other = s := by
  have hdecode : Hex.decode (String.ofList (Hex.encodeChars s.toBytes)) = .ok s.toBytes :=
    Hex.decode_encode s.toBytes
  unfold ofText toText Hex.encodeMarked at h
  simp only [String.toList_ofList, hdecode] at h
  obtain ⟨hodd, -⟩ := (ofBytes_parts s.r.length_toBytes s.s.length_toBytes).mp h
  -- a point that was reduced gives a last byte that is not read
  have hread : ∀ id < 4, ∀ odd, oddOfByte? (UInt8.ofNat (27 + id)) = some odd → id ≤ 1 := by
    decide
  have hid : s.recoveryId ≤ 1 := by
    refine hread _ ?_ _ hodd
    unfold recoveryId
    split <;> split <;> decide
  exact Except.ok.inj (h.symm.trans (ofBytes_toBytes hid))

end Signature

/-! ## Accounts -/

namespace Address

/-- The checks of an account's text only change the case. -/
theorem lower_toText (a : Address) :
    (toText a).toList.map Char.toLower = '0' :: 'x' :: lowerDigits a := by
  have hlower : ∀ (ds cs : List Char), ds.length ≤ cs.length →
      (∀ d ∈ ds, d ∈ "0123456789abcdef".toList) →
      (List.zipWith checkedDigit ds cs).map Char.toLower = ds := by
    intro ds
    induction ds with
    | nil => exact fun _ _ _ => rfl
    | cons d ds ih =>
      intro cs hlen hmem
      cases cs with
      | nil => cases hlen
      | cons c cs =>
        obtain ⟨hd, hds⟩ := List.forall_mem_cons.mp hmem
        have hc : (checkedDigit d c).toLower = d := by
          unfold checkedDigit
          split
          · exact (Hex.toLower_of_mem hd).2
          · exact (Hex.toLower_of_mem hd).1
        rw [List.zipWith_cons_cons, List.map_cons, hc, ih cs (Nat.le_of_succ_le_succ hlen) hds]
  unfold toText
  rw [String.toList_ofList, List.map_cons, List.map_cons, hlower]
  · rfl
  · unfold lowerDigits
    rw [Hex.length_encodeChars, Hex.length_encodeChars, Bytes.length_ofNat, Word.length_toBytes]
    decide
  · exact fun d hd => Hex.mem_encodeChars hd

/-- **Accounts whose texts agree up to case are equal.** -/
theorem eq_of_lower_eq {a b : Address}
    (h : (toText a).toList.map Char.toLower = (toText b).toList.map Char.toLower) : a = b := by
  rw [lower_toText, lower_toText, List.cons.injEq, List.cons.injEq] at h
  have hbytes : Bytes.ofNat 20 a.toNat = Bytes.ofNat 20 b.toNat := Hex.encodeChars_inj h.2.2
  have hnat := congrArg Bytes.toNat hbytes
  rw [Bytes.toNat_ofNat (by have := a.isLt; omega), Bytes.toNat_ofNat (by have := b.isLt; omega)]
    at hnat
  exact BitVec.eq_of_toNat_eq hnat

end Address

end DocumentProof
