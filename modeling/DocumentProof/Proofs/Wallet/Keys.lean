import DocumentProof.Proofs.Wallet.WireForm
import Mathlib.Data.List.DropRight

/-!
# The two ways to load a key

A text stands for bytes if it has their digits, in either case, with or without `0x` and between any
blanks (`Hex.Writes`). A key is read from such a text if its bytes are 32 whose number is a scalar
(`Wallet.exists_ofHex_iff`). The bytes themselves are read if they are such a key, and also if they
are 24 to 31 bytes that are not all zero (`Wallet.exists_ofBytes_iff`): these are read as if zeros
stood in front of them, and it is only there that both ways differ (`Wallet.key_loading`).
-/

namespace DocumentProof

open Secp256k1

namespace Text

/-! ### Texts between blanks -/

/-- Only blanks. -/
def Blanks (cs : List Char) : Prop := ∀ c ∈ cs, isBlank c = true

instance (cs : List Char) : Decidable (Blanks cs) :=
  decidable_of_iff (cs.all isBlank = true) List.all_eq_true

theorem exists_trim (cs : List Char) :
    ∃ front back, cs = front ++ trim cs ++ back ∧ Blanks front ∧ Blanks back := by
  have hfront : cs.takeWhile isBlank ++ cs.dropWhile isBlank = cs := List.takeWhile_append_dropWhile
  have hback : trim cs ++ (cs.dropWhile isBlank).rtakeWhile isBlank = cs.dropWhile isBlank :=
    List.rdropWhile_append_rtakeWhile
  refine ⟨cs.takeWhile isBlank, (cs.dropWhile isBlank).rtakeWhile isBlank, ?_,
    fun _ => List.mem_takeWhile_imp, fun _ => List.mem_rtakeWhile_imp⟩
  rw [List.append_assoc, hback, hfront]

theorem dropWhile_append {front cs : List Char} (hfront : Blanks front)
    (hcs : ∀ c ∈ cs.head?, isBlank c = false) : (front ++ cs).dropWhile isBlank = cs := by
  rw [List.dropWhile_append_of_pos hfront]
  cases cs with
  | nil => rfl
  | cons c cs => exact List.dropWhile_cons_of_neg (by simp [hcs c rfl])

/-- Blanks around a text without blanks are dropped. -/
theorem trim_append {front ds back : List Char} (hfront : Blanks front) (hback : Blanks back)
    (hds : ∀ c ∈ ds, isBlank c = false) : trim (front ++ ds ++ back) = ds := by
  have hall : ∀ c ∈ ds.reverse, isBlank c = false := fun c hc => hds c (List.mem_reverse.mp hc)
  have hlast : ∀ c ∈ ds.reverse.head?, isBlank c = false := fun c hc =>
    hall c (List.mem_of_mem_head? hc)
  have hreverse : Blanks back.reverse := fun c hc => hback c (List.mem_reverse.mp hc)
  unfold trim
  cases ds with
  | nil =>
    have hblank : Blanks (front ++ back) := fun c hc =>
      (List.mem_append.mp hc).elim (hfront c) (hback c)
    rw [List.append_nil, List.dropWhile_eq_nil_iff.mpr hblank]
    rfl
  | cons d ds =>
    have hhead : ∀ c ∈ (d :: ds ++ back).head?, isBlank c = false := fun c hc =>
      hds c (Option.mem_some.mp hc ▸ List.mem_cons_self)
    rw [List.append_assoc, dropWhile_append hfront hhead, List.reverse_append,
      dropWhile_append hreverse hlast, List.reverse_reverse]

end Text

namespace Hex

/-! ### Texts that stand for bytes -/

/-- The digits of the bytes in either case, marked or not, between any blanks. -/
def Writes (bs : Bytes) (t : String) : Prop := ∃ front mark digits back,
  t.toList = front ++ (mark ++ digits) ++ back ∧ (mark = [] ∨ mark = ['0', 'x']) ∧
    digits.map Char.toLower = encodeChars bs ∧ Text.Blanks front ∧ Text.Blanks back

/-- The digits after the mark `0x`, if there is one. -/
def unmarked : List Char → List Char
  | '0' :: 'x' :: ds => ds
  | ds => ds

theorem exists_mark (cs : List Char) :
    ∃ mark, (mark = [] ∨ mark = ['0', 'x']) ∧ cs = mark ++ unmarked cs := by
  fun_cases unmarked cs
  · exact ⟨_, .inr rfl, rfl⟩
  · exact ⟨_, .inl rfl, rfl⟩

theorem unmarked_append {mark ds : List Char} (hmark : mark = [] ∨ mark = ['0', 'x'])
    (hds : 'x' ∉ ds) : unmarked (mark ++ ds) = ds := by
  rcases hmark with rfl | rfl
  · rw [List.nil_append]
    fun_cases unmarked ds
    · simp at hds
    · rfl
  · rfl

/-- A digit of either case is neither a blank nor the letter of the mark. -/
theorem isBlank_of_toLower {c : Char} (h : c.toLower ∈ "0123456789abcdef".toList) :
    Text.isBlank c = false ∧ c ≠ 'x' := by
  have all : ∀ c : Char, c.toNat ≤ 127 → c.toLower ∈ "0123456789abcdef".toList →
      Text.isBlank c = false ∧ c ≠ 'x' :=
    Bytes.forall_ascii (by decide +kernel)
  exact all c (ascii_of_toLower h) h

/-- **The digits between blanks and after the mark** are those of the bytes that a text stands for.
-/
theorem decode_trim_iff {t : String} {bs : Bytes} :
    decode (String.ofList (unmarked (Text.trim t.toList))) = .ok bs ↔ Writes bs t := by
  rw [decode_eq_ok_iff, String.toList_ofList]
  constructor
  · intro h
    obtain ⟨front, back, ht, hfront, hback⟩ := Text.exists_trim t.toList
    obtain ⟨mark, hmark, htrim⟩ := exists_mark (Text.trim t.toList)
    rw [htrim] at ht
    exact ⟨front, mark, _, back, ht, hmark, h, hfront, hback⟩
  · rintro ⟨front, mark, digits, back, ht, hmark, hlower, hfront, hback⟩
    have hdigits : ∀ c ∈ digits, Text.isBlank c = false ∧ c ≠ 'x' := fun c hc =>
      isBlank_of_toLower (mem_encodeChars (hlower ▸ List.mem_map_of_mem hc))
    have hplain : ∀ c ∈ mark ++ digits, Text.isBlank c = false := by
      have hall : ∀ c ∈ mark, Text.isBlank c = false := by
        rcases hmark with rfl | rfl <;> exact List.all_iff_forall_prop.mp (by decide)
      exact fun c hc => (List.mem_append.mp hc).elim (hall c) fun hc => (hdigits c hc).1
    rw [ht, Text.trim_append hfront hback hplain,
      unmarked_append hmark fun hx => (hdigits _ hx).2 rfl]
    exact hlower

theorem writes_encode (bs : Bytes) : Writes bs (encode bs) :=
  ⟨[], [], _, [], by simp [encode], .inl rfl, lower_encodeChars bs, nofun, nofun⟩

end Hex

namespace Wallet

variable {bs : Bytes} {t : String} {w : Wallet}

/-! ### Keys as bytes -/

/-- 32 bytes whose number is a private key. -/
def IsKey (bs : Bytes) : Prop :=
  bs.length = 32 ∧ 0 < Bytes.toNat bs ∧ Bytes.toNat bs < groupOrder

/-- Fewer than 32 bytes that are a private key after zeros. -/
def IsShortKey (bs : Bytes) : Prop := 24 ≤ bs.length ∧ bs.length < 32 ∧ 0 < Bytes.toNat bs

theorem ofBytes_eq_ok_iff : ofBytes bs = .ok w ↔
    (24 ≤ bs.length ∧ bs.length ≤ 32) ∧ Bytes.toNat bs = w.key.value := by
  unfold ofBytes Scalar.ofNat?
  obtain ⟨key⟩ := w
  split_ifs with hlen hrange
  · simp only [Except.ok.injEq, Wallet.mk.injEq, hlen, and_self, true_and]
    exact ⟨fun h => congrArg Scalar.value h, fun h => by cases key; cases h; rfl⟩
  · refine iff_of_false (fun h => by cases h) fun h => hrange ?_
    rw [h.2]
    exact ⟨key.pos, key.lt⟩
  · exact iff_of_false (fun h => by cases h) fun h => hlen h.1

/-- A number of fewer than 32 bytes is below the order of the group. -/
theorem toNat_lt_of_length (h : bs.length < 32) : Bytes.toNat bs < groupOrder :=
  calc Bytes.toNat bs < 256 ^ bs.length := Bytes.toNat_lt bs
    _ ≤ 256 ^ 31 := Nat.pow_le_pow_right (by decide) (Nat.le_of_lt_succ h)
    _ < groupOrder := by decide

theorem exists_ofBytes_iff : (∃ w, ofBytes bs = .ok w) ↔ IsKey bs ∨ IsShortKey bs := by
  constructor
  · rintro ⟨w, h⟩
    obtain ⟨⟨hmin, hmax⟩, hvalue⟩ := ofBytes_eq_ok_iff.mp h
    have hpos : 0 < Bytes.toNat bs := hvalue ▸ w.key.pos
    rcases hmax.eq_or_lt with hlen | hlen
    · exact .inl ⟨hlen, hpos, hvalue ▸ w.key.lt⟩
    · exact .inr ⟨hmin, hlen, hpos⟩
  · rintro (⟨hlen, hpos, hlt⟩ | ⟨hmin, hmax, hpos⟩)
    · exact ⟨⟨⟨_, hpos, hlt⟩⟩, ofBytes_eq_ok_iff.mpr ⟨by omega, rfl⟩⟩
    · exact ⟨⟨⟨_, hpos, toNat_lt_of_length hmax⟩⟩, ofBytes_eq_ok_iff.mpr ⟨by omega, rfl⟩⟩

/-! ### Keys as text -/

/-- **A text that stands for bytes** is read as these if they are 32. -/
theorem ofHex_of_writes (h : Hex.Writes bs t) : ofHex t =
    if bs.length = 32 then ofBytes bs
    else .error (.invalidKey ("expected 32 bytes (64 hex chars), got " ++ toString bs.length
      ++ " bytes")) := by
  have hread := Hex.decode_trim_iff.mpr h
  unfold ofHex
  extract_lets digits
  split
  · next fault hfault => cases hfault.symm.trans hread
  · next found hfound =>
    obtain rfl : found = bs := Except.ok.inj (hfound.symm.trans hread)
    rfl

theorem ofHex_eq_ok_iff (h : Hex.Writes bs t) :
    ofHex t = .ok w ↔ bs.length = 32 ∧ ofBytes bs = .ok w := by
  rw [ofHex_of_writes h]
  split_ifs with hlen
  · exact (and_iff_right hlen).symm
  · exact iff_of_false (fun h => by cases h) fun h => hlen h.1

theorem exists_ofHex_iff (h : Hex.Writes bs t) : (∃ w, ofHex t = .ok w) ↔ IsKey bs := by
  simp only [ofHex_eq_ok_iff h, exists_and_left, exists_ofBytes_iff]
  constructor
  · rintro ⟨hlen, hkey | ⟨-, hlt, -⟩⟩
    · exact hkey
    · omega
  · exact fun hkey => ⟨hkey.1, .inl hkey⟩

/-- Bytes and a text for them are read alike unless they are a short key. -/
theorem ofBytes_iff_ofHex (h : Hex.Writes bs t) :
    (∀ w, ofBytes bs = .ok w ↔ ofHex t = .ok w) ↔ ¬ IsShortKey bs := by
  simp only [ofHex_eq_ok_iff h]
  constructor
  · rintro hall ⟨hmin, hmax, hpos⟩
    obtain ⟨w, hw⟩ := exists_ofBytes_iff.mpr (.inr ⟨hmin, hmax, hpos⟩)
    have hlen := ((hall w).mp hw).1
    omega
  · intro hshort w
    have hlen (hw : ofBytes bs = .ok w) : bs.length = 32 :=
      ((exists_ofBytes_iff.mp ⟨w, hw⟩).resolve_right hshort).1
    exact ⟨fun hw => ⟨hlen hw, hw⟩, And.right⟩

theorem ofBytes_toBytes (w : Wallet) : ofBytes w.key.toBytes = .ok w := by
  rw [ofBytes_eq_ok_iff, w.key.length_toBytes]
  exact ⟨by decide, w.key.toNat_toBytes⟩

theorem ofHex_of_writes_key (h : Hex.Writes w.key.toBytes t) : ofHex t = .ok w :=
  (ofHex_eq_ok_iff h).mpr ⟨w.key.length_toBytes, w.ofBytes_toBytes⟩

/-- The text of a key between blanks, with its mark or without it. -/
theorem writes_keyText {front back : List Char} (w : Wallet) (hfront : Text.Blanks front)
    (hback : Text.Blanks back) :
    Hex.Writes w.key.toBytes (String.ofList (front ++ w.keyText.toList ++ back)) ∧
    Hex.Writes w.key.toBytes (String.ofList (front ++ w.keyText.toList.drop 2 ++ back)) := by
  have htext : w.keyText.toList = ['0', 'x'] ++ Hex.encodeChars w.key.toBytes :=
    String.toList_ofList
  rw [htext]
  exact ⟨⟨front, _, _, back, String.toList_ofList, .inr rfl, Hex.lower_encodeChars _, hfront,
      hback⟩,
    ⟨front, [], _, back, String.toList_ofList, .inl rfl, Hex.lower_encodeChars _, hfront, hback⟩⟩

/-- **The bytes of a key and its text** are read alike unless they are a short key, which is read
from the bytes only; every text for the same bytes is read alike; and the text of a wallet's key,
marked or not and between any blanks, gives the wallet back. -/
theorem key_loading (bs : Bytes) :
    ((∃ w, ofHex (Hex.encode bs) = .ok w) ↔ IsKey bs) ∧
    ((∃ w, ofBytes bs = .ok w) ↔ IsKey bs ∨ IsShortKey bs) ∧
    (∀ w, ofBytes bs = .ok w → w.key.value = Bytes.toNat bs) ∧
    ((∀ w, ofBytes bs = .ok w ↔ ofHex (Hex.encode bs) = .ok w) ↔ ¬ IsShortKey bs) ∧
    (∀ t, Hex.Writes bs t → ofHex t = ofHex (Hex.encode bs)) ∧
    ∀ (w : Wallet) (front back : List Char), Text.Blanks front → Text.Blanks back →
      ofHex (String.ofList (front ++ w.keyText.toList ++ back)) = .ok w ∧
      ofHex (String.ofList (front ++ w.keyText.toList.drop 2 ++ back)) = .ok w := by
  have hwrites := Hex.writes_encode bs
  refine ⟨exists_ofHex_iff hwrites, exists_ofBytes_iff, fun w h => (ofBytes_eq_ok_iff.mp h).2.symm,
    ofBytes_iff_ofHex hwrites, fun t ht => ?_, fun w front back hfront hback => ?_⟩
  · rw [ofHex_of_writes ht, ofHex_of_writes hwrites]
  · obtain ⟨hmarked, hbare⟩ := writes_keyText w hfront hback
    exact ⟨ofHex_of_writes_key hmarked, ofHex_of_writes_key hbare⟩

/-- The key 1 in 32 bytes, and its text without the mark between a blank and a line feed. -/
theorem key_loading_one :
    ¬ IsShortKey (List.replicate 31 0 ++ [1]) ∧
    (∀ w, ofBytes (List.replicate 31 0 ++ [1]) = .ok w ↔
      ofHex (Hex.encode (List.replicate 31 0 ++ [1])) = .ok w) ∧
    ofHex " 0000000000000000000000000000000000000000000000000000000000000001\n"
      = .ok ⟨⟨1, by decide, by decide⟩⟩ := by
  have hshort : ¬ IsShortKey (List.replicate 31 0 ++ [1]) := by unfold IsShortKey; decide
  have htext : String.ofList ([' '] ++ (Wallet.mk ⟨1, by decide, by decide⟩).keyText.toList.drop 2
      ++ ['\n']) = " 0000000000000000000000000000000000000000000000000000000000000001\n" := by
    decide +kernel
  obtain ⟨-, -, -, hagree, -, htexts⟩ := key_loading (List.replicate 31 0 ++ [1])
  obtain ⟨-, hbare⟩ := htexts ⟨⟨1, by decide, by decide⟩⟩ [' '] ['\n'] (by decide) (by decide)
  exact ⟨hshort, hagree.mpr hshort, htext ▸ hbare⟩

/-- **24 bytes are read as a key, their text is not.** -/
theorem ofBytes_reads_short :
    (∃ w, ofBytes (List.replicate 24 1) = .ok w) ∧
      ¬ ∃ w, ofHex (Hex.encode (List.replicate 24 1)) = .ok w := by
  rw [exists_ofBytes_iff, exists_ofHex_iff (Hex.writes_encode _)]
  unfold IsKey IsShortKey
  decide

end Wallet

end DocumentProof
