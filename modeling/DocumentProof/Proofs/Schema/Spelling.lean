import DocumentProof.Proofs.Schema.FieldText
import Mathlib.Data.List.Basic
import Mathlib.Data.List.Induction
import Mathlib.Tactic.SplitIfs

/-!
# How types are spelled

A type is read from other texts than its own: digits may stand after zeros (`decimal?_eq_some_iff`),
and a length may have a plus sign. So what is read is written as it was if each number is a plain
decimal (`toChars_eq_iff`). The proof follows the text: without brackets it is a word with a width
(`toChars_of_numberAfter?`) or any other text (`toChars_of_ofBase?`), and with brackets at its end
it is an array (`ofChars?_array`). A word and digits are read if the number is a width, but also if
it does not fit 32 bits, as the name of a struct (`exists_ofText?_iff`).
-/

namespace DocumentProof

namespace FieldType

/-! ### Decimal numbers -/

/-- The decimal of a number, after zeros. -/
def decimalAfter (zeros n : Nat) : List Char := List.replicate zeros '0' ++ Nat.toDigits 10 n

theorem isDigit_of_mem_decimalAfter {zeros n : Nat} {c : Char} (h : c ∈ decimalAfter zeros n) :
    c.isDigit = true := by
  rcases List.mem_append.mp h with h | h
  · rw [List.eq_of_mem_replicate h]
    rfl
  · exact Nat.isDigit_of_mem_toDigits (by decide) (by decide) h

theorem decimalAfter_ne_nil (zeros n : Nat) : decimalAfter zeros n ≠ [] :=
  List.append_ne_nil_of_right_ne_nil _ Nat.toDigits_ne_nil

theorem digitsValue_decimalAfter (zeros n : Nat) : digitsValue (decimalAfter zeros n) = n := by
  have hzeros : (List.replicate zeros '0').foldl (fun n d => 10 * n + (d.toNat - 48)) 0 = 0 := by
    induction zeros with
    | zero => rfl
    | succ zeros ih => exact ih
  unfold digitsValue decimalAfter
  rw [List.foldl_append, hzeros]
  exact Nat.ofDigitChars_ten_toDigits

theorem digitsValue_toDigits (n : Nat) : digitsValue (Nat.toDigits 10 n) = n :=
  digitsValue_decimalAfter 0 n

theorem digitsValue_concat (ds : List Char) (d : Char) :
    digitsValue (ds ++ [d]) = 10 * digitsValue ds + (d.toNat - 48) := by
  unfold digitsValue
  rw [List.foldl_append]
  rfl

/-- Digits are the decimal of their value, after zeros. -/
theorem exists_zeros {ds : List Char} (hne : ds ≠ []) (h : ∀ c ∈ ds, c.isDigit = true) :
    ∃ zeros, ds = decimalAfter zeros (digitsValue ds) := by
  induction ds using List.reverseRecOn with
  | nil => exact absurd rfl hne
  | append_singleton ds d ih =>
    obtain ⟨hlow, hhigh⟩ : 48 ≤ d.toNat ∧ d.toNat ≤ 57 :=
      Char.isDigit_iff_toNat.mp (h d (List.mem_append_right ds List.mem_cons_self))
    have hdigit : Nat.toDigits 10 (d.toNat - 48) = [d] := by
      rw [Nat.toDigits_of_lt_base (by omega), List.singleton_inj, ← Char.toNat_inj,
        Nat.toNat_digitChar_of_lt_ten (by omega)]
      omega
    rw [digitsValue_concat]
    by_cases hnil : ds = []
    · subst hnil
      -- a single digit is a decimal, the digit 0 too
      refine ⟨0, ?_⟩
      show [d] = Nat.toDigits 10 (10 * 0 + (d.toNat - 48))
      rw [Nat.mul_zero, Nat.zero_add, hdigit]
    · obtain ⟨zeros, hds⟩ := ih hnil fun c hc => h c (List.mem_append_left _ hc)
      by_cases hzero : digitsValue ds = 0
      · -- the decimal of 0 before the last digit is one more zero
        rw [hzero] at hds ⊢
        refine ⟨zeros + 1, ?_⟩
        rw [hds, Nat.mul_zero, Nat.zero_add, decimalAfter, decimalAfter, hdigit,
          List.replicate_succ']
        rfl
      · refine ⟨zeros, ?_⟩
        rw [decimalAfter, ← Nat.toDigits_append_toDigits (by decide) (by omega) (by omega), hdigit,
          ← List.append_assoc]
        exact congrArg (· ++ [d]) hds

theorem decimal?_eq_some_iff {limit n : Nat} {ds : List Char} :
    decimal? limit ds = some n ↔ (∃ zeros, ds = decimalAfter zeros n) ∧ n < limit := by
  unfold decimal?
  constructor
  · intro h
    split_ifs at h with hds
    obtain rfl := Option.some.inj h
    exact ⟨exists_zeros hds.1 (List.all_eq_true.mp hds.2.1), hds.2.2⟩
  · rintro ⟨⟨zeros, rfl⟩, hn⟩
    have hall : (decimalAfter zeros n).all Char.isDigit = true :=
      List.all_eq_true.mpr fun c hc => isDigit_of_mem_decimalAfter hc
    rw [digitsValue_decimalAfter, if_pos ⟨decimalAfter_ne_nil zeros n, hall, hn⟩]

/-! ### Types with a width -/

theorem width?_eq_some_iff {step n : Nat} (hstep : 0 < step) {w : Fin 32} :
    width? step n = some w ↔ n = step * byteCount w := by
  unfold width? byteCount
  constructor
  · intro h
    split_ifs at h with hn
    obtain rfl := Option.some.inj h
    have hdiv := Nat.mul_div_cancel' (Nat.dvd_of_mod_eq_zero hn.1)
    dsimp only
    rw [Nat.sub_add_cancel hn.2.1, hdiv]
  · rintro rfl
    have hdiv := Nat.mul_div_cancel_left (w.val + 1) hstep
    have hn : step * (w.val + 1) % step = 0 ∧ 0 < step * (w.val + 1) / step ∧
        step * (w.val + 1) / step ≤ 32 := by
      rw [hdiv]
      exact ⟨Nat.mul_mod_right _ _, Nat.succ_pos _, w.isLt⟩
    rw [dif_pos hn, Option.some_inj, Fin.ext_iff]
    dsimp only
    rw [hdiv, Nat.add_sub_cancel]

/-- The words that a width follows, and how many units it has for a byte. -/
def numbered : List (String × Nat × (Fin 32 → FieldType)) :=
  [("uint", 8, uint), ("int", 8, int), ("bytes", 1, fixedBytes)]

theorem step_pos {word : String} {step : Nat} {make : Fin 32 → FieldType}
    (h : (word, step, make) ∈ numbered) : 0 < step := by
  have hall : ∀ e ∈ numbered, 0 < e.2.1 := by
    unfold numbered
    decide
  exact hall _ h

theorem step_le {word : String} {step : Nat} {make : Fin 32 → FieldType}
    (h : (word, step, make) ∈ numbered) : step ≤ 8 := by
  have hall : ∀ e ∈ numbered, e.2.1 ≤ 8 := by
    unfold numbered
    decide
  exact hall _ h

theorem exists_numbered {word : String} {step : Nat}
    (h : (word, step) ∈ [("uint", 8), ("int", 8), ("bytes", 1)]) :
    ∃ make, (word, step, make) ∈ numbered := by
  obtain ⟨⟨word, step, make⟩, hmem, heq⟩ :=
    List.mem_map.mp (show (word, step) ∈ numbered.map fun e => (e.1, e.2.1) from h)
  obtain ⟨rfl, rfl⟩ := Prod.mk.inj heq
  exact ⟨make, hmem⟩

theorem numberAfter?_eq_some_iff {word : String} {cs : List Char} {n : Nat} :
    numberAfter? word cs = some n ↔
      (∃ zeros, cs = word.toList ++ decimalAfter zeros n) ∧ n < 0x100000000 := by
  unfold numberAfter?
  constructor
  · intro h
    split_ifs at h with hprefix
    obtain ⟨ds, rfl⟩ := List.isPrefixOf_iff_prefix.mp hprefix
    rw [← String.length_toList, List.drop_left] at h
    obtain ⟨⟨zeros, rfl⟩, hn⟩ := decimal?_eq_some_iff.mp h
    exact ⟨⟨zeros, rfl⟩, hn⟩
  · rintro ⟨⟨zeros, rfl⟩, hn⟩
    rw [if_pos (List.isPrefixOf_iff_prefix.mpr (List.prefix_append _ _)), ← String.length_toList,
      List.drop_left]
    exact decimal?_eq_some_iff.mpr ⟨⟨zeros, rfl⟩, hn⟩

theorem toChars_numbered {word : String} {step : Nat} {make : Fin 32 → FieldType}
    (h : (word, step, make) ∈ numbered) (w : Fin 32) :
    (make w).toChars = word.toList ++ Nat.toDigits 10 (step * byteCount w) := by
  simp only [numbered, List.mem_cons, Prod.mk.injEq, List.not_mem_nil, or_false] at h
  rcases h with ⟨rfl, rfl, rfl⟩ | ⟨rfl, rfl, rfl⟩ | ⟨rfl, rfl, rfl⟩
  · rfl
  · rfl
  · rw [Nat.one_mul]
    rfl

/-- The words begin with different letters. -/
theorem word_inj {e e' : String × Nat × (Fin 32 → FieldType)} (he : e ∈ numbered)
    (he' : e' ∈ numbered) {as bs : List Char} (h : e.1.toList ++ as = e'.1.toList ++ bs) :
    e.1 = e'.1 := by
  have hne : ∀ e ∈ numbered, e.1.toList ≠ [] := by
    unfold numbered
    decide
  have hfirst : ∀ e ∈ numbered, ∀ e' ∈ numbered,
      e.1.toList.head? = e'.1.toList.head? → e.1 = e'.1 := by
    unfold numbered
    decide
  have hhead := congrArg List.head? h
  rw [List.head?_append_of_ne_nil _ (hne e he), List.head?_append_of_ne_nil _ (hne e' he')] at hhead
  exact hfirst e he e' he' hhead

theorem numberAfter?_eq_none {e e' : String × Nat × (Fin 32 → FieldType)} (he : e ∈ numbered)
    (he' : e' ∈ numbered) (hne : e.1 ≠ e'.1) {cs : List Char} {n : Nat}
    (h : numberAfter? e.1 cs = some n) : numberAfter? e'.1 cs = none := by
  obtain ⟨⟨zeros, rfl⟩, -⟩ := numberAfter?_eq_some_iff.mp h
  rw [Option.eq_none_iff_forall_ne_some]
  intro m hm
  obtain ⟨⟨zeros', hcs⟩, -⟩ := numberAfter?_eq_some_iff.mp hm
  exact hne (word_inj he he' hcs)

/-- A word and a number are no type but the one of this width. -/
theorem ofBase?_of_numberAfter? {word : String} {step : Nat} {make : Fin 32 → FieldType}
    (h : (word, step, make) ∈ numbered) {cs : List Char} {n : Nat}
    (hn : numberAfter? word cs = some n) : ofBase? cs = (width? step n).map make := by
  have hwords : ∀ cs' ∈ ["bool".toList, "string".toList, "bytes".toList, "address".toList],
      numberAfter? word cs' = none := by
    have hall : ∀ e ∈ numbered, ∀ cs' ∈ ["bool".toList, "string".toList, "bytes".toList,
        "address".toList], numberAfter? e.1 cs' = none := by
      unfold numbered
      decide
    exact hall _ h
  have hne : ∀ cs' ∈ ["bool".toList, "string".toList, "bytes".toList, "address".toList],
      cs ≠ cs' := by
    rintro cs' hcs' rfl
    rw [hwords _ hcs'] at hn
    cases hn
  simp only [List.mem_cons, List.not_mem_nil, or_false, forall_eq_or_imp, forall_eq] at hne
  obtain ⟨hbool, hstring, hbytes, haddress⟩ := hne
  unfold ofBase?
  rw [if_neg hbool, if_neg hstring, if_neg hbytes, if_neg haddress]
  have hother : ∀ e ∈ numbered, word ≠ e.1 → numberAfter? e.1 cs = none :=
    fun e he hne => numberAfter?_eq_none h he hne hn
  simp only [numbered, List.mem_cons, Prod.mk.injEq, List.not_mem_nil, or_false, forall_eq_or_imp,
    forall_eq] at h hother
  rcases h with ⟨rfl, rfl, rfl⟩ | ⟨rfl, rfl, rfl⟩ | ⟨rfl, rfl, rfl⟩
  · simp only [hn]
  · simp only [hother.1 (by decide), hn]
  · simp only [hother.1 (by decide), hother.2.1 (by decide), hn]

/-- Any other type without brackets is written as it was. -/
theorem toChars_of_ofBase? {cs : List Char} {t : FieldType} (h : ofBase? cs = some t)
    (hnone : ∀ e ∈ numbered, numberAfter? e.1 cs = none) : t.toChars = cs := by
  simp only [numbered, List.mem_cons, List.not_mem_nil, or_false, forall_eq_or_imp, forall_eq]
    at hnone
  obtain ⟨huint, hint, hbytes⟩ := hnone
  unfold ofBase? at h
  simp only [huint, hint, hbytes] at h
  split_ifs at h
  all_goals
    obtain rfl := Option.some.inj h
  · exact Eq.symm ‹_›
  · exact Eq.symm ‹_›
  · exact Eq.symm ‹_›
  · exact Eq.symm ‹_›
  · exact String.toList_ofList

/-- A width that fits 32 bits has no zeros before it. -/
def PlainWidth (cs : List Char) : Prop := ∀ e ∈ numbered, ∀ zeros, ∀ n < 0x100000000,
  cs = e.1.toList ++ decimalAfter zeros n → zeros = 0

theorem toChars_of_numberAfter? {word : String} {step : Nat} {make : Fin 32 → FieldType}
    (hmem : (word, step, make) ∈ numbered) {cs : List Char} {t : FieldType} {n : Nat}
    (h : ofBase? cs = some t) (hn : numberAfter? word cs = some n) :
    t.toChars = word.toList ++ Nat.toDigits 10 n := by
  rw [ofBase?_of_numberAfter? hmem hn] at h
  obtain ⟨w, hw, rfl⟩ := Option.map_eq_some_iff.mp h
  rw [toChars_numbered hmem, (width?_eq_some_iff (step_pos hmem)).mp hw]

/-- **A type without brackets is written as it was if its width has no zeros before it.** -/
theorem toChars_eq_iff_plainWidth {cs : List Char} {t : FieldType} (h : ofBase? cs = some t) :
    t.toChars = cs ↔ PlainWidth cs := by
  constructor
  · rintro ht ⟨word, step, make⟩ hmem zeros n hn hcs
    have htext := toChars_of_numberAfter? hmem h (numberAfter?_eq_some_iff.mpr ⟨⟨zeros, hcs⟩, hn⟩)
    rw [ht, hcs] at htext
    have hlen := congrArg List.length (List.append_cancel_left htext)
    unfold decimalAfter at hlen
    rw [List.length_append, List.length_replicate] at hlen
    omega
  · intro hplain
    by_cases hsome : ∃ e ∈ numbered, ∃ n, numberAfter? e.1 cs = some n
    · obtain ⟨⟨word, step, make⟩, hmem, n, hn⟩ := hsome
      obtain ⟨⟨zeros, hcs⟩, hlt⟩ := numberAfter?_eq_some_iff.mp hn
      obtain rfl := hplain _ hmem zeros n hlt hcs
      rw [toChars_of_numberAfter? hmem h hn, hcs]
      rfl
    · exact toChars_of_ofBase? h fun e he =>
        Option.eq_none_iff_forall_ne_some.mpr fun n hn => hsome ⟨e, he, n, hn⟩

/-! ### Lengths -/

/-- What stands between the brackets of an array type. -/
def lengthChars : Option UInt64 → List Char
  | none => []
  | some n => Nat.toDigits 10 n.toNat

theorem toChars_array (item : FieldType) (n : Option UInt64) :
    (array item n).toChars = item.toChars ++ '[' :: (lengthChars n ++ [']']) := by
  cases n with
  | none => rfl
  | some n => rfl

/-- What may stand between brackets: nothing or the decimal of a number. -/
def PlainLength (ds : List Char) : Prop := ds = [] ∨ ∃ n, ds = Nat.toDigits 10 n

theorem plainLength_lengthChars (n : Option UInt64) : PlainLength (lengthChars n) := by
  cases n with
  | none => exact .inl rfl
  | some n => exact .inr ⟨_, rfl⟩

theorem toDigits_ne_plus_cons (n : Nat) (ds : List Char) : Nat.toDigits 10 n ≠ '+' :: ds := by
  intro heq
  have hmem : '+' ∈ Nat.toDigits 10 n := by
    rw [heq]
    exact List.mem_cons_self
  exact absurd (Nat.isDigit_of_mem_toDigits (by decide) (by decide) hmem) (by decide)

theorem lengthChars_eq_iff {ds : List Char} {n : Option UInt64} (h : length? ds = some n) :
    lengthChars n = ds ↔ PlainLength ds := by
  unfold length? at h
  split at h
  · obtain rfl := Option.some.inj h
    exact iff_of_true rfl (.inl rfl)
  · next es =>
    obtain ⟨m, -, rfl⟩ := Option.map_eq_some_iff.mp h
    refine iff_of_false (toDigits_ne_plus_cons _ _) ?_
    rintro (hnil | ⟨k, hk⟩)
    · cases hnil
    · exact toDigits_ne_plus_cons _ _ hk.symm
  · obtain ⟨m, hm, rfl⟩ := Option.map_eq_some_iff.mp h
    obtain ⟨⟨zeros, rfl⟩, hlt⟩ := decimal?_eq_some_iff.mp hm
    have hchars : lengthChars (some (UInt64.ofNat m)) = Nat.toDigits 10 m := by
      rw [lengthChars, UInt64.toNat_ofNat', Nat.mod_eq_of_lt hlt]
    rw [hchars]
    constructor
    · exact fun heq => .inr ⟨m, heq.symm⟩
    · rintro (hnil | ⟨k, hk⟩)
      · exact absurd hnil (decimalAfter_ne_nil _ _)
      · obtain rfl : m = k := by
          rw [← digitsValue_decimalAfter zeros m, hk, digitsValue_toDigits]
        exact hk.symm

/-! ### Brackets -/

theorem peel_open (inside cs : List Char) : peel (some inside) ('[' :: cs) =
    (length? inside >>= fun n => peel none cs >>= fun p => some (n :: p.1, p.2)) := by
  conv_lhs => rw [peel]
  rfl

theorem peel_some {inside es cs : List Char} (h : '[' ∉ es) :
    peel (some inside) (es ++ cs) = peel (some (es.reverse ++ inside)) cs := by
  induction es generalizing inside with
  | nil => rfl
  | cons e es ih =>
    rw [List.mem_cons, not_or] at h
    rw [List.cons_append, peel, ih h.2, List.reverse_cons, List.append_assoc]
    · rfl
    · rintro rfl
      exact h.1 rfl

/-- Without a bracket at the end, the text is taken as it is. -/
theorem ofChars?_eq_ofBase? {cs : List Char} (h : ∀ front, cs ≠ front ++ [']']) :
    ofChars? cs = ofBase? cs := by
  have hpeel : peel none cs.reverse = some ([], cs.reverse) := by
    rw [peel]
    intro front hfront
    exact h front.reverse (by rw [← List.reverse_cons, ← hfront, List.reverse_reverse])
  unfold ofChars?
  rw [hpeel]
  simp

theorem ofChars?_eq_ofBase?_of_plain {cs : List Char}
    (h : ∀ c ∈ cs, (isDelimiter c || Text.isBlank c) = false) : ofChars? cs = ofBase? cs := by
  refine ofChars?_eq_ofBase? fun front heq => ?_
  have hclose := h ']' (by simp [heq])
  exact absurd hclose (by decide)

/-- The lengths of an array type are taken off from the outside in. -/
theorem ofChars?_array {cs ds : List Char} (h : '[' ∉ ds) :
    ofChars? (cs ++ '[' :: (ds ++ [']'])) =
      (length? ds >>= fun n => ofChars? cs >>= fun t => some (array t n)) := by
  have hrev : (cs ++ '[' :: (ds ++ [']'])).reverse = ']' :: (ds.reverse ++ '[' :: cs.reverse) := by
    simp
  unfold ofChars?
  rw [hrev, peel, peel_some (List.mem_reverse.not.mpr h), List.reverse_reverse, List.append_nil,
    peel_open]
  simp only [Option.bind_eq_bind, Option.bind_assoc]
  rfl

/-- An array type has an opening bracket. -/
theorem exists_array {front : List Char} {t : FieldType} (h : ofChars? (front ++ [']']) = some t) :
    ∃ cs ds, '[' ∉ ds ∧ front ++ [']'] = cs ++ '[' :: (ds ++ [']']) := by
  have hmem : '[' ∈ front.reverse := by
    by_contra hno
    have hpeel := @peel_some [] _ [] hno
    unfold ofChars? at h
    rw [List.reverse_append, List.reverse_singleton, List.singleton_append, peel,
      ← List.append_nil front.reverse, hpeel, peel] at h
    cases h
  obtain ⟨ds, cs, hfront, hds⟩ := List.eq_append_cons_of_mem hmem
  refine ⟨cs.reverse, ds.reverse, List.mem_reverse.not.mpr hds, ?_⟩
  rw [← List.reverse_reverse front, hfront]
  simp

/-- What the last opening bracket stands after and what it stands before. -/
theorem append_open_inj {as bs cs ds : List Char} (hbs : '[' ∉ bs) (hds : '[' ∉ ds)
    (h : as ++ '[' :: bs = cs ++ '[' :: ds) : as = cs ∧ bs = ds := by
  have hlast : ∀ {es bs ds : List Char}, '[' ∉ bs → '[' :: bs = es ++ '[' :: ds →
      es = [] ∧ bs = ds := by
    intro es bs ds hbs h
    cases es with
    | nil => exact ⟨rfl, (List.cons.inj h).2⟩
    | cons e es =>
      rw [(List.cons.inj h).2] at hbs
      exact absurd (List.mem_append_right es List.mem_cons_self) hbs
  rcases List.append_eq_append_iff.mp h with ⟨es, rfl, hes⟩ | ⟨es, rfl, hes⟩
  · obtain ⟨rfl, rfl⟩ := hlast hbs hes
    exact ⟨(List.append_nil _).symm, rfl⟩
  · obtain ⟨rfl, rfl⟩ := hlast hds hes
    exact ⟨List.append_nil _, rfl⟩

theorem brackets_inj {as bs cs ds : List Char} (hbs : '[' ∉ bs) (hds : '[' ∉ ds) :
    as ++ '[' :: (bs ++ [']']) = cs ++ '[' :: (ds ++ [']']) ↔ as = cs ∧ bs = ds := by
  constructor
  · intro h
    obtain ⟨has, hbracket⟩ := append_open_inj (by simp [hbs]) (by simp [hds]) h
    exact ⟨has, List.append_cancel_right hbracket⟩
  · rintro ⟨rfl, rfl⟩
    rfl

/-! ### Whole types -/

/-- The numbers of a type text are plain decimals: each length between brackets, and the width. -/
inductive PlainNumbers : List Char → Prop
  | base {cs : List Char} (last : ∀ front, cs ≠ front ++ [']']) (width : PlainWidth cs) :
      PlainNumbers cs
  | array {cs ds : List Char} (item : PlainNumbers cs) (length : PlainLength ds) :
      PlainNumbers (cs ++ '[' :: (ds ++ [']']))

theorem open_not_mem_of_plainLength {ds : List Char} (h : PlainLength ds) : '[' ∉ ds := by
  intro hmem
  rcases h with rfl | ⟨n, rfl⟩
  · cases hmem
  · exact absurd (Nat.isDigit_of_mem_toDigits (by decide) (by decide) hmem) (by decide)

theorem plainNumbers_array_iff {cs ds : List Char} (h : '[' ∉ ds) :
    PlainNumbers (cs ++ '[' :: (ds ++ [']'])) ↔ PlainNumbers cs ∧ PlainLength ds := by
  constructor
  · generalize htext : cs ++ '[' :: (ds ++ [']']) = text
    intro hplain
    cases hplain with
    | base last =>
      rw [← List.cons_append, ← List.append_assoc] at htext
      exact absurd htext.symm (last _)
    | array item length =>
      obtain ⟨rfl, rfl⟩ := (brackets_inj h (open_not_mem_of_plainLength length)).mp htext
      exact ⟨item, length⟩
  · rintro ⟨item, length⟩
    exact .array item length

/-- **The text of a type is the text it was read from if the numbers in it are plain decimals.** -/
theorem toChars_eq_iff {cs : List Char} {t : FieldType} (h : ofChars? cs = some t) :
    t.toChars = cs ↔ PlainNumbers cs := by
  -- by induction on the length, as the item's text is shorter
  induction hlen : cs.length using Nat.strongRecOn generalizing cs t with
  | ind k ih =>
    subst hlen
    by_cases hlast : ∃ front, cs = front ++ [']']
    · obtain ⟨front, rfl⟩ := hlast
      obtain ⟨cs, ds, hds, htext⟩ := exists_array h
      rw [htext] at h ih ⊢
      rw [ofChars?_array hds] at h
      obtain ⟨n, hn, h⟩ := Option.bind_eq_some_iff.mp h
      obtain ⟨item, hitem, h⟩ := Option.bind_eq_some_iff.mp h
      obtain rfl := Option.some.inj h
      have hshort : cs.length < (cs ++ '[' :: (ds ++ [']'])).length := by simp
      rw [plainNumbers_array_iff hds, ← ih _ hshort hitem rfl, ← lengthChars_eq_iff hn,
        toChars_array]
      exact brackets_inj (open_not_mem_of_plainLength (plainLength_lengthChars n)) hds
    · have hbase : ∀ front, cs ≠ front ++ [']'] := fun front heq => hlast ⟨front, heq⟩
      rw [ofChars?_eq_ofBase? hbase] at h
      rw [toChars_eq_iff_plainWidth h]
      constructor
      · exact .base hbase
      · intro hplain
        cases hplain with
        | base last width => exact width
        | array => exact absurd ⟨_, by rw [← List.cons_append, ← List.append_assoc]⟩ hlast

/-! ### Words and digits -/

theorem isDelimiter_of_isDigit {c : Char} (h : c.isDigit = true) :
    (isDelimiter c || Text.isBlank c) = false := by
  have hplain := isPlain_of_isDigit h
  simp only [isPlain, Bool.and_eq_true, bne_iff_ne, Bool.not_eq_true'] at hplain
  simp [isDelimiter, hplain, ne_of_isDigit h (d := '[') (by decide),
    ne_of_isDigit h (d := ']') (by decide)]

theorem exists_ofBase? {cs : List Char} (hnone : ∀ e ∈ numbered, numberAfter? e.1 cs = none)
    (hne : cs ≠ []) (hplain : ∀ c ∈ cs, (isDelimiter c || Text.isBlank c) = false) :
    ∃ t, ofBase? cs = some t := by
  simp only [numbered, List.mem_cons, List.not_mem_nil, or_false, forall_eq_or_imp, forall_eq]
    at hnone
  obtain ⟨huint, hint, hbytes⟩ := hnone
  have hname : ¬ (cs = [] ∨ (cs.any fun c => isDelimiter c || Text.isBlank c) = true) := by
    rw [not_or, List.any_eq_true]
    refine ⟨hne, ?_⟩
    rintro ⟨c, hc, hbad⟩
    rw [hplain c hc] at hbad
    cases hbad
  unfold ofBase?
  simp only [huint, hint, hbytes, if_neg hname]
  split_ifs
  all_goals exact ⟨_, rfl⟩

theorem plain_of_mem_numbered {word : String} {step : Nat} {make : Fin 32 → FieldType}
    (hmem : (word, step, make) ∈ numbered) (zeros n : Nat) :
    ∀ c ∈ word.toList ++ decimalAfter zeros n, (isDelimiter c || Text.isBlank c) = false := by
  have hwords : ∀ e ∈ numbered,
      (e.1.toList.all fun c => !(isDelimiter c || Text.isBlank c)) = true := by
    unfold numbered
    decide
  intro c hc
  rcases List.mem_append.mp hc with hc | hc
  · exact (Bool.not_eq_true' _).mp (List.all_eq_true.mp (hwords _ hmem) c hc)
  · exact isDelimiter_of_isDigit (isDigit_of_mem_decimalAfter hc)

/-- A word and digits are a type if the number is a width, or does not fit 32 bits. -/
theorem exists_ofText?_iff {word : String} {step : Nat} {make : Fin 32 → FieldType}
    (hmem : (word, step, make) ∈ numbered) (zeros n : Nat) :
    (∃ t, ofText? (word ++ String.ofList (decimalAfter zeros n)) = some t) ↔
      (∃ k, 1 ≤ k ∧ k ≤ 32 ∧ n = step * k) ∨ 0x100000000 ≤ n := by
  have hplain := plain_of_mem_numbered hmem zeros n
  have htext : ofText? (word ++ String.ofList (decimalAfter zeros n)) =
      ofBase? (word.toList ++ decimalAfter zeros n) := by
    unfold ofText?
    rw [String.toList_append, String.toList_ofList, ofChars?_eq_ofBase?_of_plain hplain]
  rw [htext]
  by_cases hn : n < 0x100000000
  · have hnumber : numberAfter? word (word.toList ++ decimalAfter zeros n) = some n :=
      numberAfter?_eq_some_iff.mpr ⟨⟨zeros, rfl⟩, hn⟩
    rw [ofBase?_of_numberAfter? hmem hnumber]
    constructor
    · rintro ⟨t, ht⟩
      obtain ⟨w, hw, -⟩ := Option.map_eq_some_iff.mp ht
      exact .inl ⟨_, Nat.succ_pos w, w.isLt, (width?_eq_some_iff (step_pos hmem)).mp hw⟩
    · rintro (⟨k, hk, hk', rfl⟩ | hlarge)
      · obtain ⟨w, rfl⟩ := Nat.exists_eq_succ_of_ne_zero (Nat.pos_iff_ne_zero.mp hk)
        have hw : width? step (step * (w + 1)) = some ⟨w, hk'⟩ :=
          (width?_eq_some_iff (step_pos hmem)).mpr rfl
        exact ⟨_, Option.map_eq_some_iff.mpr ⟨_, hw, rfl⟩⟩
      · exact absurd hn (Nat.not_lt.mpr hlarge)
  · -- no word has a number after it that fits, so the text is a name
    refine iff_of_true (exists_ofBase? ?_ ?_ hplain) (.inr (Nat.not_lt.mp hn))
    · intro e he
      rw [Option.eq_none_iff_forall_ne_some]
      intro m hm
      obtain ⟨⟨zeros', htext⟩, hlt⟩ := numberAfter?_eq_some_iff.mp hm
      obtain rfl := word_inj hmem he htext
      have hvalue := congrArg digitsValue (List.append_cancel_left htext)
      rw [digitsValue_decimalAfter, digitsValue_decimalAfter] at hvalue
      exact hn (hvalue ▸ hlt)
    · exact List.append_ne_nil_of_right_ne_nil _ (decimalAfter_ne_nil zeros n)

/-- **What is read is written as it was if its numbers are plain decimals, and a word and digits
are read if the number is a width or does not fit 32 bits.** -/
theorem type_spelling (s : String) :
    (∀ t, ofText? s = some t → (t.toText = s ↔ PlainNumbers s.toList)) ∧
    ∀ word step, (word, step) ∈ [("uint", 8), ("int", 8), ("bytes", 1)] →
      ∀ ds : List Char, ds ≠ [] → (∀ c ∈ ds, c.isDigit = true) → s = word ++ String.ofList ds →
        ((∃ t, ofText? s = some t) ↔
          ∃ zeros n, ds = decimalAfter zeros n ∧
            ((∃ k, 1 ≤ k ∧ k ≤ 32 ∧ n = step * k) ∨ 0x100000000 ≤ n)) := by
  constructor
  · intro t h
    rw [← toChars_eq_iff h, toText, ← String.toList_inj, String.toList_ofList]
  · rintro word step hmem ds hne hdigits rfl
    obtain ⟨make, hnumbered⟩ := exists_numbered hmem
    obtain ⟨zeros, hds⟩ := exists_zeros hne hdigits
    constructor
    · intro h
      rw [hds] at h
      exact ⟨zeros, _, hds, (exists_ofText?_iff hnumbered _ _).mp h⟩
    · rintro ⟨zeros, n, rfl, h⟩
      exact (exists_ofText?_iff hnumbered zeros n).mpr h

theorem type_spelling_uint256 :
    ofText? "uint256" = some (uint 31) ∧
    ((uint 31).toText = "uint256" ↔ PlainNumbers "uint256".toList) ∧
    ((∃ t, ofText? "uint256" = some t) ↔ ∃ zeros n, ['2', '5', '6'] = decimalAfter zeros n ∧
      ((∃ k, 1 ≤ k ∧ k ≤ 32 ∧ n = 8 * k) ∨ 0x100000000 ≤ n)) :=
  ⟨by decide, (type_spelling "uint256").1 _ (by decide),
    (type_spelling "uint256").2 "uint" 8 (by decide) _ (by decide)
      (List.all_eq_true.mp (by decide)) (by decide)⟩

/-- A plus sign and a zero are not written again, and a number of more than 32 bits is the name of a
struct. -/
theorem type_spelling_differs :
    ofText? "T[+3]" = some (array (struct "T") (some 3)) ∧
    (array (struct "T") (some 3)).toText = "T[3]" ∧
    ofText? "uint08" = some (uint 0) ∧ (uint 0).toText = "uint8" ∧
    ofText? "uint4294967304" = some (struct "uint4294967304") := by
  decide

end FieldType

end DocumentProof
