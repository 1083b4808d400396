import DocumentProof.Proofs.Bytes
import DocumentProof.Proofs.Outcome
import DocumentProof.Time.Timestamp
import Mathlib.Data.List.Induction
import Mathlib.Data.List.TakeWhile

/-!
# Digits in the texts of times

The fields of a time are numbers of a fixed number of digits. Such digits are read as a number if
they are the ones that it is written with (`number?_eq_ok_iff`). A fraction is a point and digits
after it; it is read up to a byte that does not go on with it (`readFraction_eq_ok`), and nothing
else is read as one (`exists_of_readFraction`).
-/

namespace DocumentProof

namespace Timestamp

/-! ### Numbers of a fixed number of digits -/

theorem padded_succ {width : Nat} (hw : 0 < width) (n : Nat) :
    padded (width + 1) n = padded width (n / 10) ++ [(n % 10).digitChar] := by
  unfold padded
  dsimp only
  by_cases hn : n < 10
  · rw [Nat.toDigits_of_lt_base hn, Nat.div_eq_of_lt hn, Nat.mod_eq_of_lt hn, Nat.toDigits_zero]
    obtain ⟨k, rfl⟩ := Nat.exists_eq_succ_of_ne_zero hw.ne'
    show List.replicate (k + 1) '0' ++ _ = List.replicate k '0' ++ ['0'] ++ _
    rw [List.replicate_succ']
  · rw [Nat.toDigits_eq_if (by decide) (n := n), if_neg hn, List.length_append,
      List.length_singleton, Nat.add_sub_add_right, List.append_assoc]

theorem length_padded {k n : Nat} (hk : 0 < k) (h : n < 10 ^ k) : (padded k n).length = k := by
  induction k, hk using Nat.le_induction generalizing n with
  | base =>
    unfold padded
    rw [Nat.toDigits_of_lt_base (by simpa using h)]
    rfl
  | succ k hk ih =>
    rw [Nat.pow_succ] at h
    rw [padded_succ hk, List.length_append, ih (by omega), List.length_singleton]

theorem isDigit_of_mem_padded {width n : Nat} {c : Char} (h : c ∈ padded width n) :
    c.isDigit = true := by
  rcases List.mem_append.mp h with h | h
  · rw [List.eq_of_mem_replicate h]
    rfl
  · exact Nat.isDigit_of_mem_toDigits (by decide) (by decide) h

/-- The byte of an ASCII character. -/
def byteOf (c : Char) : UInt8 := UInt8.ofNat c.toNat

theorem digit?_eq_ok_iff {b : UInt8} {n : Nat} :
    digit? b = .ok n ↔ n < 10 ∧ b = byteOf n.digitChar := by
  have hwrite : ∀ n < 10, byteOf n.digitChar = UInt8.ofNat (48 + n) := by decide
  have hb : b.toNat < 256 := b.toNat_lt
  unfold digit?
  constructor
  · intro h
    split_ifs at h with hd
    cases h
    refine ⟨by omega, ?_⟩
    rw [hwrite _ (by omega), show 48 + (b.toNat - 48) = b.toNat by omega, UInt8.ofNat_toNat]
  · rintro ⟨hn, rfl⟩
    rw [hwrite n hn, UInt8.toNat_ofNat']
    rw [if_pos (by omega)]
    congr 1
    omega

theorem number?_append_singleton (bs : Bytes) (b : UInt8) : number? (bs ++ [b]) =
    (number? bs >>= fun n => digit? b >>= fun d => pure (10 * n + d)) := by
  unfold number?
  rw [List.foldlM_append]
  simp

theorem number?_eq_ok_iff {bs : Bytes} (hne : bs ≠ []) {n : Nat} : number? bs = .ok n ↔
    n < 10 ^ bs.length ∧ bs = (padded bs.length n).map byteOf := by
  -- by induction from the last digit, which is the one that `padded_succ` splits off
  induction bs using List.reverseRecOn generalizing n with
  | nil => exact absurd rfl hne
  | append_singleton bs b ih =>
    rw [number?_append_singleton, List.length_append, List.length_singleton]
    simp only [bind_eq_ok_iff, pure_eq_ok_iff, digit?_eq_ok_iff]
    by_cases hbs : bs = []
    · subst hbs
      have hnil : ∀ m, number? [] = .ok m ↔ 0 = m := fun m => pure_eq_ok_iff
      have hone : ∀ m < 10, padded 1 m = [m.digitChar] := by decide
      simp only [hnil, List.length_nil, List.nil_append, Nat.zero_add, Nat.pow_one, ↓existsAndEq,
        true_and, Nat.mul_zero, and_true]
      refine and_congr_right fun hn => ?_
      rw [hone n hn, List.map_singleton, List.singleton_inj]
    · have hlen : 0 < bs.length := List.length_pos_iff.mpr hbs
      simp only [ih hbs, padded_succ hlen, List.map_append, List.map_singleton, Nat.pow_succ]
      constructor
      · rintro ⟨m, ⟨hm, hmap⟩, d, ⟨hd, rfl⟩, rfl⟩
        rw [show (10 * m + d) / 10 = m by omega, show (10 * m + d) % 10 = d by omega, ← hmap]
        exact ⟨by omega, rfl⟩
      · rintro ⟨hn, h⟩
        obtain ⟨hmap, hlast⟩ := List.append_inj' h rfl
        rw [List.singleton_inj] at hlast
        exact ⟨n / 10, ⟨by omega, hmap⟩, n % 10, ⟨Nat.mod_lt n (by decide), hlast⟩, by omega⟩

theorem number?_two_iff {a b : UInt8} {n : Nat} :
    number? [a, b] = .ok n ↔ n < 10 ^ 2 ∧ (padded 2 n).map byteOf = [a, b] :=
  (number?_eq_ok_iff (List.cons_ne_nil _ _)).trans (and_congr_right' eq_comm)

theorem number?_four_iff {a b c d : UInt8} {n : Nat} :
    number? [a, b, c, d] = .ok n ↔ n < 10 ^ 4 ∧ (padded 4 n).map byteOf = [a, b, c, d] :=
  (number?_eq_ok_iff (List.cons_ne_nil _ _)).trans (and_congr_right' eq_comm)

theorem exists_two_digits {n : Nat} (h : n < 10 ^ 2) :
    ∃ a b, (padded 2 n).map byteOf = [a, b] ∧ number? [a, b] = .ok n := by
  obtain ⟨a, b, hab⟩ := List.length_eq_two.mp
    ((List.length_map byteOf).trans (length_padded (k := 2) (by decide) h))
  exact ⟨a, b, hab, number?_two_iff.mpr ⟨h, hab⟩⟩

theorem exists_four_digits {n : Nat} (h : n < 10 ^ 4) : ∃ a b c d,
    (padded 4 n).map byteOf = [a, b, c, d] ∧ number? [a, b, c, d] = .ok n := by
  obtain ⟨a, b, c, d, habcd⟩ : ∃ a b c d, (padded 4 n).map byteOf = [a, b, c, d] := by
    have hlen := (List.length_map byteOf).trans (length_padded (k := 4) (by decide) h)
    match (padded 4 n).map byteOf, hlen with
    | [a, b, c, d], _ => exact ⟨a, b, c, d, rfl⟩
  exact ⟨a, b, c, d, habcd, number?_four_iff.mpr ⟨h, habcd⟩⟩

/-! ### Hours and minutes -/

theorem expect_eq_ok_iff {holds : Bool} {fault : TimeFault} {u : Unit} :
    expect holds fault = .ok u ↔ holds = true := by
  unfold expect
  split_ifs with h
  · simp [h]
  · simp [h]

theorem readOffsetDigits_eq_ok_iff {bs rest : Bytes} {offset : Int} :
    readOffsetDigits bs = .ok (offset, rest) ↔ ∃ h m : Nat, h < 24 ∧ m < 60 ∧
      offset = (h * 60 + m) * 60 ∧
      bs = (padded 2 h).map byteOf ++ 0x3A :: ((padded 2 m).map byteOf ++ rest) := by
  constructor
  · intro hread
    unfold readOffsetDigits at hread
    split at hread
    · next h₁ h₂ cs =>
      obtain ⟨h, hh, hread⟩ := bind_eq_ok_iff.mp hread
      split at hread
      · cases hread
      · next c cs =>
        obtain ⟨_, hc, hread⟩ := bind_eq_ok_iff.mp hread
        split at hread
        · next m₁ m₂ cs =>
          obtain ⟨m, hm, hread⟩ := bind_eq_ok_iff.mp hread
          obtain ⟨_, hlt, hread⟩ := bind_eq_ok_iff.mp hread
          rw [expect_eq_ok_iff, beq_iff_eq] at hc
          rw [expect_eq_ok_iff, Bool.and_eq_true, decide_eq_true_eq, decide_eq_true_eq] at hlt
          cases hread
          refine ⟨h, m, hlt.2, hlt.1, rfl, ?_⟩
          rw [(number?_two_iff.mp hh).2, (number?_two_iff.mp hm).2, hc]
          rfl
        · cases hread
    · cases hread
  · rintro ⟨h, m, hh, hm, rfl, rfl⟩
    obtain ⟨a, b, hab, hreadh⟩ := exists_two_digits (n := h) (by omega)
    obtain ⟨c, d, hcd, hreadm⟩ := exists_two_digits (n := m) (by omega)
    rw [hab, hcd]
    unfold readOffsetDigits
    have hlt : (decide (m < 60) && decide (h < 24)) = true := by simp [hh, hm]
    simp only [List.cons_append, List.nil_append, hreadh, hreadm, hlt, expect, bind, Except.bind]
    rfl

/-! ### Characters and bytes -/

/-- The UTF-8 form of characters. -/
def utf8 (cs : List Char) : Bytes := Bytes.ofString (String.ofList cs)

theorem utf8_append (as bs : List Char) : utf8 (as ++ bs) = utf8 as ++ utf8 bs := by
  unfold utf8
  rw [String.ofList_append, Bytes.ofString_append]

theorem utf8_ascii {cs : List Char} (h : ∀ c ∈ cs, c.toNat ≤ 127) : utf8 cs = cs.map byteOf :=
  Bytes.ofString_ofList h

theorem ascii_of_isDigit {c : Char} (h : c.isDigit = true) : c.toNat ≤ 127 :=
  Nat.le_trans (Char.isDigit_iff_toNat.mp h).2 (by decide)

theorem utf8_padded (width n : Nat) : utf8 (padded width n) = (padded width n).map byteOf :=
  utf8_ascii fun _ hc => ascii_of_isDigit (isDigit_of_mem_padded hc)

theorem utf8_singleton {c : Char} (hc : c.toNat ≤ 127) : utf8 [c] = [byteOf c] :=
  utf8_ascii (List.forall_mem_singleton.mpr hc)

theorem utf8_cons {c : Char} (hc : c.toNat ≤ 127) (cs : List Char) :
    utf8 (c :: cs) = byteOf c :: utf8 cs := by
  rw [← List.singleton_append, utf8_append, utf8_singleton hc]
  rfl

/-- The minus character is no ASCII character. -/
theorem utf8_minus (cs : List Char) : utf8 ('−' :: cs) = 0xE2 :: 0x88 :: 0x92 :: utf8 cs := by
  have hone : utf8 ['−'] = [0xE2, 0x88, 0x92] := by
    rw [utf8, Bytes.ofString_eq]
    rfl
  rw [← List.singleton_append, utf8_append, hone]
  rfl

/-! ### Fractions -/

/-- How the digits of a fraction are written. -/
def fractionText : List Char → List Char
  | [] => []
  | ds => '.' :: ds

theorem isDigit_iff {b : UInt8} :
    isDigit b = true ↔ ∃ c : Char, c.isDigit = true ∧ b = byteOf c := by
  have hbytes : ∀ b, isDigit b = true → b.toNat ≤ 127 ∧ (Char.ofNat b.toNat).isDigit = true :=
    Bytes.forall_byte (by decide +kernel)
  have hchars : ∀ c : Char, c.toNat ≤ 127 → c.isDigit = true → isDigit (byteOf c) = true :=
    Bytes.forall_ascii (by decide +kernel)
  constructor
  · intro h
    obtain ⟨hn, hc⟩ := hbytes b h
    exact ⟨_, hc, by rw [byteOf, Bytes.toNat_ascii hn, UInt8.ofNat_toNat]⟩
  · rintro ⟨c, hc, rfl⟩
    exact hchars c (ascii_of_isDigit hc) hc

theorem foldl_digits_lt {ds : Bytes} (h : ∀ b ∈ ds, isDigit b = true) :
    ds.foldl (fun n b => 10 * n + (b.toNat - 48)) 0 < 10 ^ ds.length := by
  induction ds using List.reverseRecOn with
  | nil => decide
  | append_singleton ds b ih =>
    have hb := h b (List.mem_append_right ds List.mem_cons_self)
    unfold isDigit at hb
    rw [Bool.and_eq_true, decide_eq_true_eq, decide_eq_true_eq] at hb
    have hds := ih fun b hb => h b (List.mem_append_left _ hb)
    rw [List.foldl_concat, List.length_append, List.length_singleton, Nat.pow_succ]
    omega

theorem nanosOf_lt {ds : Bytes} (h : ∀ b ∈ ds, isDigit b = true) : nanosOf ds < 1000000000 := by
  have hlt := foldl_digits_lt fun b (hb : b ∈ ds.take 9) => h b (List.mem_of_mem_take hb)
  unfold nanosOf
  rw [List.length_take] at hlt
  rcases Nat.le_total ds.length 9 with hlen | hlen
  · rw [Nat.min_eq_right hlen] at hlt
    calc _ < 10 ^ ds.length * 10 ^ (9 - ds.length) :=
          Nat.mul_lt_mul_of_pos_right hlt (Nat.pow_pos (by decide))
      _ = 10 ^ 9 := by rw [← Nat.pow_add, Nat.add_sub_cancel' hlen]
  · rw [Nat.min_eq_left hlen] at hlt
    rw [Nat.sub_eq_zero_of_le hlen, show Nat.pow 10 0 = 1 from rfl, Nat.mul_one]
    exact hlt

/-- A fraction is read up to a byte that does not go on with it. -/
theorem readFraction_eq_ok {ds : List Char} (h : ∀ c ∈ ds, c.isDigit = true) {b : UInt8}
    (hb : isDigit b = false ∧ b ≠ 0x2E) (rest : Bytes) : ∃ nanos < 1000000000,
      readFraction ((fractionText ds).map byteOf ++ b :: rest) = .ok (nanos, b :: rest) := by
  cases ds with
  | nil =>
    refine ⟨0, by decide, ?_⟩
    show readFraction (b :: rest) = _
    unfold readFraction
    split
    · next heq => exact absurd (List.cons.inj heq).1 hb.2
    · next heq => exact absurd (List.cons.inj heq).1 hb.2
    · rfl
  | cons c cs =>
    have hds : ∀ b ∈ (c :: cs).map byteOf, isDigit b = true := by
      intro b hb
      obtain ⟨c, hc, rfl⟩ := List.mem_map.mp hb
      exact isDigit_iff.mpr ⟨c, h c hc, rfl⟩
    have hcs := (List.forall_mem_cons.mp hds).2
    refine ⟨nanosOf ((c :: cs).map byteOf), nanosOf_lt hds, ?_⟩
    show readFraction (0x2E :: byteOf c :: (cs.map byteOf ++ b :: rest)) = _
    have htake : (cs.map byteOf ++ b :: rest).takeWhile isDigit = cs.map byteOf := by
      rw [List.takeWhile_append_of_pos hcs, List.takeWhile_cons_of_neg (by simp [hb.1]),
        List.append_nil]
    have hdrop : (cs.map byteOf ++ b :: rest).dropWhile isDigit = b :: rest := by
      rw [List.dropWhile_append_of_pos hcs, List.dropWhile_cons_of_neg (by simp [hb.1])]
    rw [readFraction, if_pos (hds _ List.mem_cons_self), htake, hdrop]
    rfl

theorem exists_of_readFraction {bs rest : Bytes} {nanos : Nat}
    (h : readFraction bs = .ok (nanos, rest)) :
    ∃ ds : List Char, (∀ c ∈ ds, c.isDigit = true) ∧
      bs = (fractionText ds).map byteOf ++ rest := by
  have hchars : ∀ ds : Bytes, (∀ b ∈ ds, isDigit b = true) →
      ∃ cs : List Char, (∀ c ∈ cs, c.isDigit = true) ∧ ds = cs.map byteOf := by
    intro ds hds
    induction ds with
    | nil => exact ⟨[], List.forall_mem_nil _, rfl⟩
    | cons b ds ih =>
      obtain ⟨hb, htail⟩ := List.forall_mem_cons.mp hds
      obtain ⟨cs, hcs, rfl⟩ := ih htail
      obtain ⟨c, hc, rfl⟩ := isDigit_iff.mp hb
      exact ⟨c :: cs, List.forall_mem_cons.mpr ⟨hc, hcs⟩, rfl⟩
  unfold readFraction at h
  split at h
  · cases h
  · next b cs =>
    split_ifs at h with hb
    cases h
    obtain ⟨ds, hds, heq⟩ := hchars (b :: cs.takeWhile isDigit)
      (List.forall_mem_cons.mpr ⟨hb, fun c hc => List.mem_takeWhile_imp hc⟩)
    refine ⟨ds, hds, ?_⟩
    cases ds with
    | nil => cases heq
    | cons d ds =>
      show _ = 0x2E :: ((d :: ds).map byteOf ++ _)
      rw [← heq, List.cons_append, List.takeWhile_append_dropWhile]
  · cases h
    exact ⟨[], List.forall_mem_nil _, rfl⟩

end Timestamp

end DocumentProof
