import DocumentProof.Proofs.Json.Reading
import Mathlib.Data.Char
import Mathlib.Data.List.Lex

/-!
# Two orders of names

The members of an object can stand by their written names, with quotes and escapes, or by the UTF-16
code units of the names themselves. Both orders are decided at the first place where two names
differ: by what is written there (`quoted_lt_iff`), or by the code units there (`nameUnits_lt_iff`).
So two names stand in one order in both ways unless the first difference is one of four kinds
(`Misordered`, `quoted_lt_iff_nameUnits_lt`).
-/

namespace DocumentProof

namespace Json

/-! ## The first difference -/

/-- What stands at the first place where two texts differ: a character of each, or nothing where one
of them ends. -/
def firstDifference : List Char → List Char → Option (Option Char × Option Char)
  | [], [] => none
  | [], d :: _ => some (none, some d)
  | c :: _, [] => some (some c, none)
  | c :: cs, d :: ds => if c = d then firstDifference cs ds else some (some c, some d)

theorem firstDifference_self : ∀ cs : List Char, firstDifference cs cs = none
  | [] => rfl
  | c :: cs => by rw [firstDifference, if_pos rfl, firstDifference_self cs]

theorem firstDifference_of_ne : ∀ {cs ds : List Char}, cs ≠ ds →
    ∃ a b, firstDifference cs ds = some (a, b) ∧ firstDifference ds cs = some (b, a) ∧ a ≠ b
  | [], [], h => absurd rfl h
  | [], d :: ds, _ => ⟨none, some d, rfl, rfl, by simp⟩
  | c :: cs, [], _ => ⟨some c, none, rfl, rfl, by simp⟩
  | c :: cs, d :: ds, h => by
    unfold firstDifference
    by_cases hcd : c = d
    · rw [if_pos hcd, if_pos hcd.symm]
      exact firstDifference_of_ne fun hcs => h (by rw [hcd, hcs])
    · rw [if_neg hcd, if_neg (Ne.symm hcd)]
      exact ⟨some c, some d, rfl, rfl, by simpa using hcd⟩

section Codes

variable {α : Type} [LinearOrder α]

theorem append_lt_append_left_iff (x : List α) {y z : List α} : x ++ y < x ++ z ↔ y < z := by
  induction x with
  | nil => rfl
  | cons a x ih =>
    rw [List.cons_append, List.cons_append, List.cons_lt_cons_iff]
    simp [ih]

/-- What follows two lists does not matter for their order if neither begins with the other. -/
theorem append_lt_append_iff : ∀ {x y : List α}, ¬ x <+: y → ¬ y <+: x → ∀ r s,
    x ++ r < y ++ s ↔ x < y
  | [], y, h, _, _, _ => absurd List.nil_prefix h
  | a :: x, [], _, h, _, _ => absurd List.nil_prefix h
  | a :: x, b :: y, hxy, hyx, r, s => by
    rw [List.cons_append, List.cons_append, List.cons_lt_cons_iff, List.cons_lt_cons_iff]
    refine or_congr_right (and_congr_right fun hab => ?_)
    exact append_lt_append_iff (fun h => hxy (List.cons_prefix_cons.mpr ⟨hab, h⟩))
      (fun h => hyx (List.cons_prefix_cons.mpr ⟨hab.symm, h⟩)) r s

/-- What stands for a character, or for the end of the text. -/
def mark (code : Char → List α) (stop : List α) : Option Char → List α
  | none => stop
  | some c => code c

/-- No character's form begins with that of another, and whether a text ends before a character or
after it is told by the form of this character. -/
structure IsCode (code : Char → List α) (stop : List α) : Prop where
  free : ∀ {c d}, code c <+: code d → c = d
  stop_lt : ∀ d r, stop < code d ++ r ↔ stop < code d
  lt_stop : ∀ d r, code d ++ r < stop ↔ code d < stop

variable {code : Char → List α} {stop : List α}

/-- **The order of coded texts is decided at the first difference.** -/
theorem IsCode.lt_iff (h : IsCode code stop) : ∀ cs ds : List Char,
    cs.flatMap code ++ stop < ds.flatMap code ++ stop ↔
      ∃ a b, firstDifference cs ds = some (a, b) ∧ mark code stop a < mark code stop b
  | [], [] => by simp [firstDifference]
  | [], d :: ds => by
    rw [firstDifference, List.flatMap_cons, List.append_assoc, List.flatMap_nil, List.nil_append,
      h.stop_lt]
    simp [mark]
  | c :: cs, [] => by
    rw [firstDifference, List.flatMap_cons, List.append_assoc, List.flatMap_nil, List.nil_append,
      h.lt_stop]
    simp [mark]
  | c :: cs, d :: ds => by
    rw [firstDifference, List.flatMap_cons, List.flatMap_cons, List.append_assoc, List.append_assoc]
    by_cases hcd : c = d
    · rw [if_pos hcd, hcd, append_lt_append_left_iff, h.lt_iff cs ds]
    · have hcd' : ¬ code c <+: code d := fun hp => hcd (h.free hp)
      have hdc' : ¬ code d <+: code c := fun hp => hcd (h.free hp).symm
      rw [if_neg hcd, append_lt_append_iff hcd' hdc']
      simp [mark]

end Codes

/-! ## Written names -/

theorem eq_of_prefix_escape {c d : Char} (h : escape c <+: escape d) : c = d := by
  obtain ⟨t, ht⟩ := h
  have hread := readStringTail_escape d ['"']
  rw [← ht, List.append_assoc, readStringTail_escape c] at hread
  cases htail : readStringTail none (t ++ ['"']) with
  | none => simp [htail, readStringTail] at hread
  | some r =>
    simp only [htail, readStringTail, Option.map_some, Option.some.injEq, Prod.mk.injEq,
      List.cons.injEq] at hread
    exact hread.1.1

/-- A quote, a backslash or a character below the blank. -/
def IsEscaped (c : Char) : Prop := c.toNat < 32 ∨ c = '"' ∨ c = '\\'

instance : DecidablePred IsEscaped := fun c =>
  inferInstanceAs (Decidable (c.toNat < 32 ∨ c = '"' ∨ c = '\\'))

theorem lt_iff_toNat {c d : Char} : c < d ↔ c.toNat < d.toNat := Iff.rfl

theorem toNat_of_escaped {c : Char} (h : IsEscaped c) : c.toNat ≤ 92 := by
  rcases h with h | rfl | rfl
  · omega
  · decide
  · decide

theorem escape_of_not_escaped {c : Char} (h : ¬ IsEscaped c) : escape c = [c] := by
  unfold escape
  split
  case h_6 =>
    have hlow : ¬ c.toNat < 32 := fun hlt => h (Or.inl hlt)
    rw [if_neg (by omega), if_neg (by omega), if_neg hlow]
  all_goals exact absurd (by decide) h

theorem escape_of_escaped {c : Char} (h : IsEscaped c) : ∃ d ds, escape c = '\\' :: d :: ds := by
  unfold escape
  split
  case h_6 hquote hback _ _ _ =>
    have hlow : c.toNat < 32 := h.resolve_right (not_or.mpr ⟨hquote, hback⟩)
    split_ifs
    all_goals exact ⟨_, _, rfl⟩
  all_goals exact ⟨_, _, rfl⟩

/-- A text that goes on stands before one that ends if a blank or an exclamation mark follows. -/
theorem isCode_escape : IsCode escape ['"'] := by
  refine ⟨eq_of_prefix_escape, fun d r => ?_, fun d r => ?_⟩
  all_goals
    by_cases hd : IsEscaped d
    · obtain ⟨e, es, hesc⟩ := escape_of_escaped hd
      rw [hesc, List.cons_append, List.cons_lt_cons_iff, List.cons_lt_cons_iff]
      simp
    · have hne : d ≠ '"' := fun heq => hd (Or.inr (Or.inl heq))
      rw [escape_of_not_escaped hd, List.singleton_append, List.cons_lt_cons_iff,
        List.cons_lt_cons_iff]
      simp [hne, hne.symm]

/-- **Written names stand in the order of what is written at their first difference.** -/
theorem quoted_lt_iff {s t : String} : quoted s < quoted t ↔
    ∃ a b, firstDifference s.toList t.toList = some (a, b) ∧
      mark escape ['"'] a < mark escape ['"'] b := by
  rw [← isCode_escape.lt_iff]
  exact append_lt_append_left_iff ['"']

/-! ## Code units -/

/-- The UTF-16 code units of a character: itself, or two halves of a pair. -/
def units (c : Char) : List Nat :=
  if c.toNat < 0x10000 then [c.toNat]
  else [0xD800 + (c.toNat - 0x10000) / 0x400, 0xDC00 + (c.toNat - 0x10000) % 0x400]

/-- The UTF-16 code units of a name. -/
def nameUnits (s : String) : List Nat := s.toList.flatMap units

theorem toNat_bounds (c : Char) : c.toNat < 0xD800 ∨ 0xDFFF < c.toNat ∧ c.toNat < 0x110000 :=
  c.valid

theorem units_ne_nil (c : Char) : units c ≠ [] := by
  unfold units
  split_ifs <;> simp

theorem eq_of_prefix_units {c d : Char} (h : units c <+: units d) : c = d := by
  have hc := toNat_bounds c
  have hd := toNat_bounds d
  refine Char.toNat_inj.mp ?_
  unfold units at h
  split_ifs at h
  all_goals
    simp only [List.cons_prefix_cons, List.nil_prefix, and_true, List.prefix_nil, reduceCtorEq,
      and_false] at h
    try omega

theorem mark_units_inj : ∀ {a b : Option Char}, mark units [] a = mark units [] b → a = b
  | none, none, _ => rfl
  | none, some d, h => absurd h.symm (units_ne_nil d)
  | some c, none, h => absurd h (units_ne_nil c)
  | some c, some d, h => by
    have hcd : units c = units d := h
    have hp : units c <+: units d := hcd ▸ List.prefix_rfl
    rw [eq_of_prefix_units hp]

theorem isCode_units : IsCode units [] := by
  refine ⟨eq_of_prefix_units, fun d r => ?_, fun d r => ?_⟩
  · obtain ⟨n, ns, hunits⟩ := List.exists_cons_of_ne_nil (units_ne_nil d)
    rw [hunits]
    exact iff_of_true (List.nil_lt_cons _ _) (List.nil_lt_cons _ _)
  · exact iff_of_false (List.not_lt_nil _) (List.not_lt_nil _)

/-- **Code units of names stand in the order of those at their first difference.** -/
theorem nameUnits_lt_iff {s t : String} : nameUnits s < nameUnits t ↔
    ∃ a b, firstDifference s.toList t.toList = some (a, b) ∧ mark units [] a < mark units [] b := by
  rw [← isCode_units.lt_iff, List.append_nil, List.append_nil]
  rfl

/-- Code units stand in the order of the characters, but those of a pair stand before the last that
a single one gives. -/
theorem units_lt_iff {c d : Char} : units c < units d ↔
    c.toNat < d.toNat ∧ ¬ (0xE000 ≤ c.toNat ∧ c.toNat < 0x10000 ∧ 0x10000 ≤ d.toNat) ∨
      0x10000 ≤ c.toNat ∧ 0xE000 ≤ d.toNat ∧ d.toNat < 0x10000 := by
  have hc := toNat_bounds c
  have hd := toNat_bounds d
  unfold units
  split_ifs
  all_goals
    simp only [List.cons_lt_cons_iff, List.lt_irrefl, and_false, or_false, List.nil_lt_cons,
      and_true, List.not_lt_nil]
    omega

/-! ## Where the orders differ -/

/-- The first stands before the second by code units, but after it as written: the end of a name
and a blank or an exclamation mark after it; an escaped character and one below the backslash that
stands for itself; two escaped characters whose escapes are in the other order; a character that
takes two code units and one of the last that take one. -/
def Misordered : Option Char → Option Char → Prop
  | none, some d => d = ' ' ∨ d = '!'
  | some c, some d =>
    IsEscaped c ∧ ¬ IsEscaped d ∧ c < d ∧ d < '\\' ∨
      IsEscaped c ∧ IsEscaped d ∧ c < d ∧ escape d < escape c ∨
      0x10000 ≤ c.toNat ∧ 0xE000 ≤ d.toNat ∧ d.toNat < 0x10000
  | _, none => False

/-- An escape stands where the backslash does. -/
theorem escape_lt_escaped {c d : Char} (hc : ¬ IsEscaped c) (hd : IsEscaped d) :
    (escape c < escape d ↔ c.toNat < 92) ∧ (escape d < escape c ↔ 92 < c.toNat) := by
  have hback : '\\'.toNat = 92 := rfl
  have hne : c ≠ '\\' := fun heq => hc (Or.inr (Or.inr heq))
  obtain ⟨e, es, hesc⟩ := escape_of_escaped hd
  rw [escape_of_not_escaped hc, hesc, List.cons_lt_cons_iff, List.cons_lt_cons_iff, lt_iff_toNat,
    lt_iff_toNat, hback]
  simp [hne, hne.symm]

theorem escape_lt_quote {d : Char} : escape d < ['"'] ↔ d = ' ' ∨ d = '!' := by
  by_cases hd : IsEscaped d
  · obtain ⟨e, es, hesc⟩ := escape_of_escaped hd
    rw [hesc, List.cons_lt_cons_iff]
    refine iff_of_false (by simp) ?_
    rintro (rfl | rfl)
    all_goals exact absurd hd (by decide)
  · have hlow : 32 ≤ d.toNat := not_lt.mp fun h => hd (Or.inl h)
    have hquote : '"'.toNat = 34 := rfl
    have hblank : ' '.toNat = 32 := rfl
    have hmark : '!'.toNat = 33 := rfl
    rw [escape_of_not_escaped hd, List.cons_lt_cons_iff, lt_iff_toNat]
    simp only [List.lt_irrefl, and_false, or_false, ← Char.toNat_inj, hquote, hblank, hmark]
    omega

theorem misordered_iff {a b : Option Char} : Misordered a b ↔
    mark units [] a < mark units [] b ∧ mark escape ['"'] b < mark escape ['"'] a := by
  cases b with
  | none =>
    refine iff_of_false ?_ fun h => List.not_lt_nil _ h.1
    cases a <;> exact id
  | some d =>
    cases a with
    | none =>
      obtain ⟨n, ns, hunits⟩ := List.exists_cons_of_ne_nil (units_ne_nil d)
      simp only [Misordered, mark, hunits, List.nil_lt_cons, true_and, escape_lt_quote]
    | some c =>
      have hback : '\\'.toNat = 92 := rfl
      simp only [Misordered, mark, units_lt_iff]
      by_cases hc : IsEscaped c
      · have hc92 := toNat_of_escaped hc
        by_cases hd : IsEscaped d
        · have hd92 := toNat_of_escaped hd
          have hlast : ¬ 0xE000 ≤ c.toNat := by omega
          have hpair : ¬ 0x10000 ≤ c.toNat := by omega
          simp only [hc, hd, hlast, hpair, true_and, not_true_eq_false, not_false_eq_true,
            false_and, false_or, or_false, and_true, lt_iff_toNat]
        · simp only [hc, hd, true_and, not_false_eq_true, false_and, false_or, lt_iff_toNat, hback,
            (escape_lt_escaped hd hc).1]
          omega
      · have hc32 : 32 ≤ c.toNat := not_lt.mp fun h => hc (Or.inl h)
        by_cases hd : IsEscaped d
        · have hd92 := toNat_of_escaped hd
          simp only [hc, false_and, false_or, (escape_lt_escaped hc hd).2]
          omega
        · simp only [hc, false_and, false_or, escape_of_not_escaped hc, escape_of_not_escaped hd,
            List.cons_lt_cons_iff, List.lt_irrefl, and_false, or_false, lt_iff_toNat]
          omega

/-- Where two names first differ, the first stands before the second by code units, but after it as
written. -/
def Misplaced (s t : String) : Prop :=
  ∃ a b, firstDifference s.toList t.toList = some (a, b) ∧ Misordered a b

theorem misplaced_iff {s t : String} :
    Misplaced s t ↔ nameUnits s < nameUnits t ∧ quoted t < quoted s := by
  unfold Misplaced
  rw [nameUnits_lt_iff, quoted_lt_iff]
  by_cases hst : s.toList = t.toList
  · simp [hst, firstDifference_self]
  · obtain ⟨a, b, hab, hba, -⟩ := firstDifference_of_ne hst
    simp only [hab, hba, Option.some.injEq, Prod.mk.injEq, misordered_iff, and_assoc,
      exists_and_left, exists_eq_left']

theorem nameUnits_inj {s t : String} (h : nameUnits s = nameUnits t) : s = t := by
  by_contra hst
  obtain ⟨a, b, hab, hba, hne⟩ :=
    firstDifference_of_ne fun hlist => hst (String.toList_inj.mp hlist)
  rcases lt_or_gt_of_ne fun hmark => hne (mark_units_inj hmark) with hlt | hlt
  · exact (nameUnits_lt_iff.mpr ⟨a, b, hab, hlt⟩).ne h
  · exact (nameUnits_lt_iff.mpr ⟨b, a, hba, hlt⟩).ne h.symm

/-- **Names stand in one order in both ways** unless their first difference is misordered. -/
theorem quoted_lt_iff_nameUnits_lt {s t : String} :
    (quoted s < quoted t ↔ nameUnits s < nameUnits t) ↔
      ¬ Misplaced s t ∧ ¬ Misplaced t s := by
  rw [misplaced_iff, misplaced_iff]
  rcases eq_or_ne s t with rfl | hst
  · simp
  · have hquoted := lt_or_gt_of_ne fun h => hst (quoted_inj h)
    have hunits := lt_or_gt_of_ne fun h => hst (nameUnits_inj h)
    rcases hquoted with hq | hq
    all_goals rcases hunits with hu | hu
    all_goals simp [hq, hu, hq.not_gt, hu.not_gt]

end Json

end DocumentProof
