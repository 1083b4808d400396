import DocumentProof.Json.Reader
import DocumentProof.Json.Writer
import DocumentProof.Proofs.Json.Canonical
import DocumentProof.Proofs.Json.Order
import Mathlib.Data.List.TakeWhile

/-!
# Reading what was written

The text of a value whose numbers are integers is read as this value, with the members of its
objects by increasing key (`read?_compact`). A string comes back from its escapes whatever
characters it has (`readString_quoted`) and an integer from its digits (`readNumber_intText`). A
reader stops where the text of the value ends, if what follows cannot go on with a number
(`readValue_compact`). Every value that is read, of whatever text, has its keys in order
(`sorted_of_read?`), so it is a `Document`.
-/

namespace DocumentProof

namespace Json

/-! ## Strings -/

theorem hexUnit?_hexDigit {n : Nat} (h : n < 32) :
    hexUnit? '0' '0' (hexDigit (n / 16)) (hexDigit (n % 16)) = some n := by
  have all : ∀ n < 32, hexUnit? '0' '0' (hexDigit (n / 16)) (hexDigit (n % 16)) = some n := by decide
  exact all n h

/-- A character that stands for itself. -/
theorem readStringTail_plain {c : Char} (cs : List Char) (hquote : c ≠ '"') (hback : c ≠ '\\')
    (h : ¬ c.toNat < 32) :
    readStringTail none (c :: cs) = (readStringTail none cs).map fun (r, rest) => (c :: r, rest) := by
  rw [readStringTail.eq_def]
  split
  case h_1 heq => cases heq; exact absurd rfl hquote
  case h_2 heq => cases heq; exact absurd rfl hback
  case h_3 heq => cases heq; exact absurd rfl hback
  case h_4 heq =>
    cases heq
    rw [if_neg (by simp [h, hback])]
  case h_5 hnone => exact absurd rfl (hnone c cs rfl)

/-- A character by its number, which is no half of a pair. -/
theorem readStringTail_unit {a b c d : Char} {unit : Nat} (cs : List Char)
    (hunit : hexUnit? a b c d = some unit) (hhigh : isHighSurrogate unit = false)
    (hlow : isLowSurrogate unit = false) :
    readStringTail none ('\\' :: 'u' :: a :: b :: c :: d :: cs) =
      (readStringTail none cs).map fun (r, rest) => (Char.ofNat unit :: r, rest) := by
  rw [readStringTail.eq_def]
  simp only [hunit, hhigh, hlow, Bool.false_eq_true, if_false]

/-- **An escape is read as its character.** -/
theorem readStringTail_escape (c : Char) (cs : List Char) :
    readStringTail none (escape c ++ cs) =
      (readStringTail none cs).map fun (r, rest) => (c :: r, rest) := by
  have hc : Char.ofNat c.toNat = c := Char.ofNat_toNat c
  unfold escape
  split
  · simp [readStringTail, simpleEscape?]
  · simp [readStringTail, simpleEscape?]
  · simp [readStringTail, simpleEscape?]
  · simp [readStringTail, simpleEscape?]
  · simp [readStringTail, simpleEscape?]
  · next hquote hback _ _ _ =>
    split_ifs with h8 h12 h32
    · rw [← hc, h8]
      simp [readStringTail, simpleEscape?]
    · rw [← hc, h12]
      simp [readStringTail, simpleEscape?]
    · have hunit := hexUnit?_hexDigit h32
      have hhigh : isHighSurrogate c.toNat = false := by simp [isHighSurrogate]; omega
      have hlow : isLowSurrogate c.toNat = false := by simp [isLowSurrogate]; omega
      have hread := readStringTail_unit cs hunit hhigh hlow
      rw [hc] at hread
      exact hread
    · exact readStringTail_plain cs hquote hback h32

theorem readStringTail_flatMap_escape (rest : List Char) : ∀ cs : List Char,
    readStringTail none (cs.flatMap escape ++ '"' :: rest) = some (cs, rest)
  | [] => by simp [readStringTail]
  | c :: cs => by
    rw [List.flatMap_cons, List.append_assoc, readStringTail_escape,
      readStringTail_flatMap_escape rest cs]
    rfl

theorem readStringTail_quoted (s : String) (rest : List Char) :
    readStringTail none (s.toList.flatMap escape ++ ['"'] ++ rest) = some (s.toList, rest) := by
  rw [List.append_assoc]
  exact readStringTail_flatMap_escape rest s.toList

/-- **A string is read back,** whatever its characters. -/
theorem readString_quoted (s : String) (rest : List Char) :
    readString (quoted s ++ rest) = some (s, rest) := by
  unfold quoted readString
  rw [List.cons_append]
  simp only [readStringTail_quoted, Option.map_some, String.ofList_toList]

theorem quoted_inj {s t : String} (h : quoted s = quoted t) : s = t := by
  have hs := readString_quoted s []
  rw [h, readString_quoted t []] at hs
  exact (Prod.mk.inj (Option.some.inj hs)).1.symm

/-! ## Integers -/

/-- Characters that cannot go on with a number. -/
def EndsNumber (rest : List Char) : Prop :=
  ∀ c cs, rest = c :: cs → c.isDigit = false ∧ c ≠ '.' ∧ c ≠ 'e' ∧ c ≠ 'E'

theorem endsNumber_nil : EndsNumber [] := fun _ _ h => by cases h

theorem endsNumber_cons {c : Char} {cs : List Char}
    (h : c.isDigit = false ∧ c ≠ '.' ∧ c ≠ 'e' ∧ c ≠ 'E') : EndsNumber (c :: cs) := by
  rintro _ _ ⟨⟩
  exact h

theorem digitsValue_toDigits (n : Nat) : digitsValue (Nat.toDigits 10 n) = n :=
  Nat.ofDigitChars_ten_toDigits

theorem isDigit_toDigits {n : Nat} {c : Char} (h : c ∈ Nat.toDigits 10 n) : c.isDigit = true :=
  Nat.isDigit_of_mem_toDigits (by decide) (by decide) h

/-- No digits but those of zero begin with a zero. -/
theorem toDigits_ne_zero_cons {n : Nat} {d : Char} {ds : List Char} :
    Nat.toDigits 10 n ≠ '0' :: d :: ds := by
  have digit : ∀ n < 10, Nat.digitChar n = '0' → n = 0 := by decide
  have head : ∀ (n : Nat) (ds : List Char), Nat.toDigits 10 n = '0' :: ds → n = 0 := by
    intro n
    induction n using Nat.strong_induction_on with
    | _ n ih =>
      intro ds h
      rw [Nat.toDigits_eq_if (by decide)] at h
      split at h
      · next hlt =>
        exact digit n hlt (List.cons.inj h).1
      · next hge =>
        cases hds : Nat.toDigits 10 (n / 10) with
        | nil => exact absurd hds Nat.toDigits_ne_nil
        | cons e es =>
          rw [hds] at h
          obtain rfl : e = '0' := (List.cons.inj h).1
          have := ih (n / 10) (by omega) es hds
          omega
  intro h
  rw [head n _ h, Nat.toDigits_zero] at h
  cases h

theorem readDigits_append {ds rest : List Char} (hne : ds ≠ []) (hds : ∀ c ∈ ds, c.isDigit = true)
    (hrest : EndsNumber rest) : readDigits (ds ++ rest) = some (ds, rest) := by
  have hstop : rest.takeWhile Char.isDigit = [] ∧ rest.dropWhile Char.isDigit = rest := by
    cases rest with
    | nil => exact ⟨rfl, rfl⟩
    | cons c cs =>
      have hc : ¬ c.isDigit = true := by simp [(hrest c cs rfl).1]
      exact ⟨List.takeWhile_cons_of_neg hc, List.dropWhile_cons_of_neg hc⟩
  unfold readDigits
  rw [List.takeWhile_append_of_pos hds, List.dropWhile_append_of_pos hds, hstop.1, hstop.2,
    List.append_nil]
  cases ds with
  | nil => exact absurd rfl hne
  | cons d ds => rfl

theorem readWhole_toDigits (n : Nat) {rest : List Char} (hrest : EndsNumber rest) :
    readWhole (Nat.toDigits 10 n ++ rest) = some (Nat.toDigits 10 n, rest) := by
  unfold readWhole
  rw [readDigits_append Nat.toDigits_ne_nil (fun _ => isDigit_toDigits) hrest]
  split
  · next heq => exact absurd (Prod.mk.inj (Option.some.inj heq)).1 toDigits_ne_zero_cons
  · rfl

theorem readFraction_of_endsNumber {rest : List Char} (hrest : EndsNumber rest) :
    readFraction rest = some (none, rest) := by
  unfold readFraction
  split
  · next cs => exact absurd rfl (hrest _ cs rfl).2.1
  · rfl

theorem readExponent_of_endsNumber {rest : List Char} (hrest : EndsNumber rest) :
    readExponent rest = some (none, rest) := by
  cases rest with
  | nil => rfl
  | cons c cs =>
    obtain ⟨-, -, he, hE⟩ := hrest c cs rfl
    have hne : (c == 'e' || c == 'E') = false := by simp [he, hE]
    unfold readExponent
    simp only [hne, Bool.false_eq_true, if_false]

theorem ofInt?_eq_whole {n : Int} (lower : -0x8000000000000000 ≤ n) (upper : n < 0x10000000000000000) :
    Number.ofInt? n = some (.whole n lower upper) := dif_pos ⟨lower, upper⟩

theorem makeNumber_toDigits {n : Int} (lower : -0x8000000000000000 ≤ n)
    (upper : n < 0x10000000000000000) :
    makeNumber (decide (n < 0)) (Nat.toDigits 10 n.natAbs) none none =
      some (.whole n lower upper) := by
  unfold makeNumber
  simp only [Option.isSome_none, Bool.or_self, Bool.false_eq_true, if_false, digitsValue_toDigits,
    decide_eq_true_eq]
  split_ifs with hneg hlarge hlarge
  · omega
  · rw [show -(n.natAbs : Int) = n by omega]
    exact ofInt?_eq_whole lower upper
  · rw [show (n.natAbs : Int) = n by omega]
    exact ofInt?_eq_whole lower upper
  · omega

/-- **An integer is read back** up to where its digits end. -/
theorem readNumber_intText {n : Int} (lower : -0x8000000000000000 ≤ n)
    (upper : n < 0x10000000000000000) {rest : List Char} (hrest : EndsNumber rest) :
    readNumber (intText n ++ rest) = some (.whole n lower upper, rest) := by
  have hsign : readNumber (intText n ++ rest) =
      (makeNumber (decide (n < 0)) (Nat.toDigits 10 n.natAbs) none none).map (·, rest) := by
    unfold intText
    split_ifs with hneg
    · unfold readNumber
      simp only [List.cons_append, readWhole_toDigits n.natAbs hrest,
        readFraction_of_endsNumber hrest, readExponent_of_endsNumber hrest, hneg, decide_true]
    · have hdigit : ∀ cs, Nat.toDigits 10 n.natAbs ++ rest ≠ '-' :: cs := by
        intro cs h
        cases hds : Nat.toDigits 10 n.natAbs with
        | nil => exact absurd hds Nat.toDigits_ne_nil
        | cons d ds =>
          rw [hds] at h
          have hd : d.isDigit = true := isDigit_toDigits (n := n.natAbs) (hds ▸ List.mem_cons_self)
          rw [(List.cons.inj h).1] at hd
          cases hd
      unfold readNumber
      split
      next negative cs hsplit =>
      split at hsplit
      · next cs' heq => exact absurd heq (hdigit cs')
      · cases hsplit
        simp only [readWhole_toDigits n.natAbs hrest, readFraction_of_endsNumber hrest,
          readExponent_of_endsNumber hrest, hneg, decide_false]
  rw [hsign, makeNumber_toDigits lower upper, Option.map_some]

/-! ## Values -/

theorem skipBlanks_cons {c : Char} {cs : List Char} (h : isBlank c = false) :
    skipBlanks (c :: cs) = c :: cs := List.dropWhile_cons_of_neg (by simp [h])

theorem intText_head (n : Int) : ∃ c cs, intText n = c :: cs ∧ (c = '-' ∨ c.isDigit = true) := by
  unfold intText
  split_ifs
  · exact ⟨_, _, rfl, Or.inl rfl⟩
  · cases hds : Nat.toDigits 10 n.natAbs with
    | nil => exact absurd hds Nat.toDigits_ne_nil
    | cons d ds => exact ⟨d, ds, rfl, Or.inr (isDigit_toDigits (hds ▸ List.mem_cons_self))⟩

theorem not_blank_of_number {c : Char} (h : c = '-' ∨ c.isDigit = true) :
    isBlank c = false ∧ c ≠ ']' := by
  constructor
  · by_contra hb
    simp only [isBlank, Bool.not_eq_false, Bool.or_eq_true, beq_iff_eq] at hb
    rcases hb with ((rfl | rfl) | rfl) | rfl <;> revert h <;> decide
  · rintro rfl
    revert h
    decide

/-- The text of a value begins with neither a blank nor a closing bracket. -/
theorem compactChars_head {x : Json} (h : x.IsWhole) :
    ∃ c cs, x.compactChars = c :: cs ∧ isBlank c = false ∧ c ≠ ']' := by
  cases x with
  | null => exact ⟨_, _, rfl, by decide, by decide⟩
  | bool b => cases b <;> exact ⟨_, _, rfl, by decide, by decide⟩
  | number n =>
    cases n with
    | whole n lower upper =>
      obtain ⟨c, cs, htext, hc⟩ := intText_head n
      exact ⟨c, cs, htext, not_blank_of_number hc⟩
    | double d => exact absurd rfl (h (.double d) (List.mem_singleton_self _) d)
  | string s => exact ⟨_, _, rfl, by decide, by decide⟩
  | array xs => exact ⟨_, _, rfl, by decide, by decide⟩
  | object ms => exact ⟨_, _, rfl, by decide, by decide⟩

theorem skipBlanks_compactChars {x : Json} (h : x.IsWhole) (rest : List Char) :
    skipBlanks (x.compactChars ++ rest) = x.compactChars ++ rest := by
  obtain ⟨c, cs, htext, hc, -⟩ := compactChars_head h
  rw [htext]
  exact skipBlanks_cons hc

theorem skipBlanks_quoted (k : String) (rest : List Char) :
    skipBlanks (quoted k ++ rest) = quoted k ++ rest := skipBlanks_cons (by decide)

/-- A reader that reads the text of a value as this value, with its members by increasing key. -/
def Reads (item : List Char → Reading Json) (x : Json) : Prop :=
  ∀ rest, EndsNumber rest → item (x.compactChars ++ rest) = some (x.arranged, rest)

section Parts

variable {item : List Char → Reading Json} (rest : List Char)

theorem endsNumber_items (xs : List Json) : EndsNumber (compactItems false xs ++ ']' :: rest) := by
  cases xs with
  | nil => exact endsNumber_cons (by decide)
  | cons x xs => exact endsNumber_cons (by decide)

theorem endsNumber_members (ms : List (String × Json)) :
    EndsNumber (compactMembers false ms ++ '}' :: rest) := by
  cases ms with
  | nil => exact endsNumber_cons (by decide)
  | cons m ms => exact endsNumber_cons (by decide)

/-- **Items are read back** up to the bracket that closes them. -/
theorem readItems_compact : ∀ (xs : List Json) (x : Json) (n : Nat),
    (∀ y ∈ x :: xs, y.IsWhole ∧ Reads item y) → xs.length < n →
      readItems item n (x.compactChars ++ (compactItems false xs ++ ']' :: rest)) =
        some (x.arranged :: xs.map arranged, rest)
  | xs, x, 0, _, hn => absurd hn (Nat.not_lt_zero _)
  | [], x, n + 1, h, _ => by
    obtain ⟨hx, hread⟩ := h x List.mem_cons_self
    rw [readItems, skipBlanks_compactChars hx, hread _ (endsNumber_items rest [])]
    rfl
  | y :: ys, x, n + 1, h, hn => by
    obtain ⟨hx, hread⟩ := h x List.mem_cons_self
    have htail : compactItems false (y :: ys) ++ ']' :: rest =
        ',' :: (y.compactChars ++ (compactItems false ys ++ ']' :: rest)) := by
      simp [compactItems]
    have hys := readItems_compact ys y n (fun z hz => h z (List.mem_cons_of_mem x hz))
      (Nat.lt_of_succ_lt_succ hn)
    rw [readItems, skipBlanks_compactChars hx, hread _ (endsNumber_items rest (y :: ys)), htail]
    simp only [skipBlanks_cons (show isBlank ',' = false by decide), hys, Option.map_some,
      List.map_cons]

/-- **Members are read back** up to the brace that closes them. -/
theorem readMembers_compact : ∀ (ms : List (String × Json)) (k : String) (x : Json) (n : Nat),
    (∀ m ∈ (k, x) :: ms, m.2.IsWhole ∧ Reads item m.2) → ms.length < n →
      readMembers item n (quoted k ++ ':' :: (x.compactChars ++ (compactMembers false ms
        ++ '}' :: rest))) = some ((k, x.arranged) :: arrangedMembers ms, rest)
  | ms, k, x, 0, _, hn => absurd hn (Nat.not_lt_zero _)
  | [], k, x, n + 1, h, _ => by
    obtain ⟨hx, hread⟩ := h (k, x) List.mem_cons_self
    rw [readMembers, skipBlanks_quoted, readString_quoted]
    simp only [skipBlanks_cons (show isBlank ':' = false by decide), skipBlanks_compactChars hx,
      hread _ (endsNumber_members rest [])]
    rfl
  | (l, y) :: ms, k, x, n + 1, h, hn => by
    obtain ⟨hx, hread⟩ := h (k, x) List.mem_cons_self
    have htail : compactMembers false ((l, y) :: ms) ++ '}' :: rest =
        ',' :: (quoted l ++ ':' :: (y.compactChars ++ (compactMembers false ms ++ '}' :: rest))) := by
      simp [compactMembers]
    have hms := readMembers_compact ms l y n (fun m hm => h m (List.mem_cons_of_mem _ hm))
      (Nat.lt_of_succ_lt_succ hn)
    have hends := endsNumber_members rest ((l, y) :: ms)
    rw [htail] at hends ⊢
    rw [readMembers, skipBlanks_quoted, readString_quoted]
    simp only [skipBlanks_cons (show isBlank ':' = false by decide), skipBlanks_compactChars hx,
      hread _ hends, skipBlanks_cons (show isBlank ',' = false by decide), hms, Option.map_some,
      arrangedMembers]

end Parts

theorem length_le_compactItems : ∀ xs : List Json, xs.length ≤ (compactItems false xs).length
  | [] => Nat.le_refl 0
  | x :: xs => by
    have ih := length_le_compactItems xs
    simp only [compactItems, List.length_cons, List.length_append, Bool.false_eq_true, if_false,
      List.length_nil]
    omega

theorem length_le_compactMembers : ∀ ms : List (String × Json),
    ms.length ≤ (compactMembers false ms).length
  | [] => Nat.le_refl 0
  | (k, x) :: ms => by
    have ih := length_le_compactMembers ms
    simp only [compactMembers, List.length_cons, List.length_append, Bool.false_eq_true, if_false,
      List.length_nil]
    omega

theorem readValue_of_number {level : Nat} {c : Char} (cs : List Char)
    (h : c = '-' ∨ c.isDigit = true) :
    readValue level (c :: cs) = (readNumber (c :: cs)).map fun (n, rest) => (number n, rest) := by
  rw [readValue.eq_def]
  split
  case h_7 => rfl
  all_goals
    next heq =>
    obtain rfl := (List.cons.inj heq).1
    exact absurd h (by decide)

theorem reads_array {level : Nat} {xs : List Json}
    (h : ∀ y ∈ xs, y.IsWhole ∧ Reads (readValue level) y) :
    Reads (readValue (level + 1)) (array xs) := by
  intro rest _
  cases xs with
  | nil => simp [compactChars, compactItems, readValue, skipBlanks, isBlank, arranged, arrangedItems]
  | cons x xs =>
    have htext : (array (x :: xs)).compactChars ++ rest =
        '[' :: (x.compactChars ++ (compactItems false xs ++ ']' :: rest)) := by
      simp [compactChars, compactItems]
    have hx := (h x List.mem_cons_self).1
    have hlen := length_le_compactItems xs
    have hread := readItems_compact rest xs x
      ((x.compactChars ++ (compactItems false xs ++ ']' :: rest)).length + 1) h
      (by simp only [List.length_append]; omega)
    rw [htext, readValue]
    simp only [skipBlanks_compactChars hx]
    split
    · next heq =>
      obtain ⟨c, cs, hhead, -, hc⟩ := compactChars_head hx
      rw [hhead] at heq
      exact absurd (List.cons.inj heq).1 hc
    · rw [hread, arranged, arrangedItems_eq_map]
      rfl

theorem reads_object {level : Nat} {ms : List (String × Json)}
    (h : ∀ m ∈ ms, m.2.IsWhole ∧ Reads (readValue level) m.2) :
    Reads (readValue (level + 1)) (object ms) := by
  intro rest _
  cases ms with
  | nil =>
    simp [compactChars, compactMembers, readValue, skipBlanks, isBlank, arranged, arrangedMembers,
      ofMembers, Keyed.ofList]
  | cons m ms =>
    obtain ⟨k, x⟩ := m
    have htext : (object ((k, x) :: ms)).compactChars ++ rest = '{' :: (quoted k ++
        ':' :: (x.compactChars ++ (compactMembers false ms ++ '}' :: rest))) := by
      simp [compactChars, compactMembers]
    have hlen := length_le_compactMembers ms
    have hread := readMembers_compact rest ms k x
      ((quoted k ++ ':' :: (x.compactChars ++ (compactMembers false ms ++ '}' :: rest))).length + 1)
      h (by simp only [List.length_append, List.length_cons]; omega)
    rw [htext, readValue]
    simp only [skipBlanks_quoted]
    split
    · next heq => cases heq
    · rw [hread]
      rfl

/-- **A value is read back,** with the members of its objects by increasing key, where the level
allows for its arrays and objects. -/
theorem readValue_compact {x : Json} : ∀ {level : Nat}, x.IsWhole → x.depth ≤ level →
    Reads (readValue level) x := by
  induction x using induction with
  | null =>
    intro level _ _ rest _
    simp [compactChars, readValue, dropWord?, arranged]
  | bool b =>
    intro level _ _ rest _
    cases b <;> simp [compactChars, readValue, dropWord?, arranged]
  | number n =>
    intro level h _ rest hrest
    cases n with
    | double d => exact absurd rfl (h (.double d) (List.mem_singleton_self _) d)
    | whole n lower upper =>
      obtain ⟨c, cs, htext, hc⟩ := intText_head n
      have hread := readNumber_intText lower upper hrest
      show readValue level (intText n ++ rest) = _
      rw [htext, List.cons_append] at hread ⊢
      rw [readValue_of_number _ hc, hread]
      rfl
  | string s =>
    intro level _ _ rest _
    show readValue level (quoted s ++ rest) = _
    unfold quoted
    rw [List.cons_append, readValue]
    simp only [readStringTail_quoted, Option.map_some, String.ofList_toList, arranged]
  | array xs ih =>
    intro level h hdepth
    obtain ⟨level, rfl⟩ : ∃ l, level = l + 1 := ⟨level - 1, by rw [depth] at hdepth; omega⟩
    refine reads_array fun y hy => ?_
    have hy' := whole_array_iff.mp h y hy
    exact ⟨hy', ih y hy hy' (depthItems_le_iff.mp (Nat.le_of_succ_le_succ hdepth) y hy)⟩
  | object ms ih =>
    intro level h hdepth
    obtain ⟨level, rfl⟩ : ∃ l, level = l + 1 := ⟨level - 1, by rw [depth] at hdepth; omega⟩
    refine reads_object fun m hm => ?_
    have hm' := whole_object_iff.mp h m hm
    exact ⟨hm', ih m hm hm' (depthMembers_le_iff.mp (Nat.le_of_succ_le_succ hdepth) m hm)⟩

theorem read?_compact {x : Json} (h : x.IsWhole) (hdepth : x.depth ≤ maxDepth) :
    read? x.compact = some x.arranged := by
  have hread := readValue_compact h hdepth [] endsNumber_nil
  rw [List.append_nil] at hread
  have hblank := skipBlanks_compactChars h []
  rw [List.append_nil] at hblank
  unfold read? readChars? compact
  rw [String.toList_ofList, hblank, hread]
  rfl

/-! ## The order of keys -/

theorem sorted_of_readItems {item : List Char → Reading Json}
    (hitem : ∀ {cs x rest}, item cs = some (x, rest) → x.Sorted) :
    ∀ {n : Nat} {cs : List Char} {xs : List Json} {rest : List Char},
      readItems item n cs = some (xs, rest) → ∀ x ∈ xs, x.Sorted
  | 0, _, _, _, h => by cases h
  | n + 1, cs, xs, rest, h => by
    rw [readItems] at h
    split at h
    · cases h
    · next x _ hx =>
      split at h
      · obtain ⟨⟨ys, _⟩, hys, h⟩ := Option.map_eq_some_iff.mp h
        cases h
        exact List.forall_mem_cons.mpr ⟨hitem hx, sorted_of_readItems hitem hys⟩
      · cases h
        exact List.forall_mem_singleton.mpr (hitem hx)
      · cases h

theorem sorted_of_readMembers {item : List Char → Reading Json}
    (hitem : ∀ {cs x rest}, item cs = some (x, rest) → x.Sorted) :
    ∀ {n : Nat} {cs : List Char} {ms : List (String × Json)} {rest : List Char},
      readMembers item n cs = some (ms, rest) → ∀ m ∈ ms, m.2.Sorted
  | 0, _, _, _, h => by cases h
  | n + 1, cs, ms, rest, h => by
    rw [readMembers] at h
    split at h
    · cases h
    · split at h
      · split at h
        · cases h
        · next x _ hx =>
          split at h
          · obtain ⟨⟨ns, _⟩, hns, h⟩ := Option.map_eq_some_iff.mp h
            cases h
            exact List.forall_mem_cons.mpr ⟨hitem hx, sorted_of_readMembers hitem hns⟩
          · cases h
            exact List.forall_mem_singleton.mpr (hitem hx)
          · cases h
      · cases h

theorem sorted_of_readValue : ∀ {level : Nat} {cs : List Char} {x : Json} {rest : List Char},
    readValue level cs = some (x, rest) → x.Sorted := by
  intro level
  induction level with
  | zero =>
    intro cs x rest h
    unfold readValue at h
    split at h
    case h_5 => cases h
    case h_6 => cases h
    all_goals
      obtain ⟨_, -, h⟩ := Option.map_eq_some_iff.mp h
      cases h
      trivial
  | succ level ih =>
    intro cs x rest h
    unfold readValue at h
    split at h
    case h_5 => -- an array
      dsimp only at h
      split at h
      · cases h
        trivial
      · obtain ⟨⟨xs, _⟩, hxs, h⟩ := Option.map_eq_some_iff.mp h
        cases h
        exact sortedItems_iff.mpr (sorted_of_readItems ih hxs)
    case h_6 => -- an object, whose members are put in order
      dsimp only at h
      split at h
      · cases h
        exact ⟨List.Pairwise.nil, trivial⟩
      · obtain ⟨⟨ms, _⟩, hms, h⟩ := Option.map_eq_some_iff.mp h
        cases h
        exact sorted_ofMembers (sorted_of_readMembers ih hms)
    all_goals
      obtain ⟨_, -, h⟩ := Option.map_eq_some_iff.mp h
      cases h
      trivial

/-- **Whatever is read has its keys in order,** each key once in an object. -/
theorem sorted_of_read? {text : String} {x : Json} (h : read? text = some x) : x.Sorted := by
  unfold read? readChars? at h
  split at h
  · next y _ hy =>
    split_ifs at h
    cases h
    exact sorted_of_readValue hy
  · cases h

end Json

end DocumentProof
