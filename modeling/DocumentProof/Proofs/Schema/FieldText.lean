import DocumentProof.Schema.FieldType

/-!
# The characters of type texts

A text that reads as a type is made of digits, brackets, plus signs and characters that no struct
name lacks, so it has no blank, no comma and no parenthesis (`plain_of_ofText?`). The struct that a
type refers to has none of the brackets either (`plain_of_structName?`). The types that documents
get are written so that they read back (`ofText?_toText_arrayOf`, `ofText?_toText_ofPrimitive`).
-/

namespace DocumentProof

namespace FieldType

/-- A character that takes no part in setting off the members of a struct's text. -/
def isPlain (c : Char) : Bool :=
  c != '(' && c != ')' && c != ',' && !Text.isBlank c

/-! ### Lengths in brackets -/

/-- A character of a length or of the brackets around it. -/
def IsSuffixChar (c : Char) : Prop := c = '[' ∨ c = ']' ∨ c = '+' ∨ c.isDigit = true

theorem ne_of_isDigit {c : Char} (h : c.isDigit = true) {d : Char} (hd : d.isDigit = false) :
    c ≠ d := by
  rintro rfl
  rw [h] at hd
  cases hd

theorem isPlain_of_isDigit {c : Char} (h : c.isDigit = true) : isPlain c = true := by
  have hb : Text.isBlank c = false := by
    obtain ⟨hlow, hhigh⟩ : 48 ≤ c.toNat ∧ c.toNat ≤ 57 := Char.isDigit_iff_toNat.mp h
    simp only [Text.isBlank, Bool.or_eq_false_iff, Bool.and_eq_false_iff, decide_eq_false_iff_not,
      beq_eq_false_iff_ne]
    omega
  simp [isPlain, hb, ne_of_isDigit h (d := '(') (by decide), ne_of_isDigit h (d := ')') (by decide),
    ne_of_isDigit h (d := ',') (by decide)]

theorem IsSuffixChar.isPlain {c : Char} (h : IsSuffixChar c) : isPlain c = true := by
  rcases h with rfl | rfl | rfl | h
  · decide
  · decide
  · decide
  · exact isPlain_of_isDigit h

theorem isDigit_of_decimal? {limit n : Nat} {ds : List Char} (h : decimal? limit ds = some n) :
    ∀ c ∈ ds, c.isDigit = true := by
  unfold decimal? at h
  split at h
  · next hd => exact fun c hc => List.all_eq_true.mp hd.2.1 c hc
  · simp at h

theorem isSuffixChar_of_length? {cs : List Char} {n : Option UInt64} (h : length? cs = some n) :
    ∀ c ∈ cs, IsSuffixChar c := by
  unfold length? at h
  split at h
  · simp
  · next ds =>
    obtain ⟨m, hm, -⟩ := Option.map_eq_some_iff.mp h
    intro c hc
    rcases List.mem_cons.mp hc with rfl | hc
    · exact Or.inr (Or.inr (Or.inl rfl))
    · exact Or.inr (Or.inr (Or.inr (isDigit_of_decimal? hm c hc)))
  · obtain ⟨m, hm, -⟩ := Option.map_eq_some_iff.mp h
    exact fun c hc => Or.inr (Or.inr (Or.inr (isDigit_of_decimal? hm c hc)))

/-- What is peeled off a type text are lengths in brackets. -/
theorem mem_of_peel {st : Option (List Char)} {cs : List Char} {ns : List (Option UInt64)}
    {base : List Char} (h : peel st cs = some (ns, base)) :
    ∀ c ∈ st.getD [] ++ cs, c ∈ base ∨ IsSuffixChar c := by
  fun_induction peel st cs generalizing ns base with
  | case1 cs ih =>
    intro c hc
    rcases List.mem_cons.mp hc with rfl | hc
    · exact Or.inr (Or.inr (Or.inl rfl))
    · exact ih h c hc
  | case2 cs =>
    obtain ⟨-, rfl⟩ := Prod.mk.inj (Option.some.inj h)
    exact fun c hc => Or.inl hc
  | case3 inside cs ih =>
    obtain ⟨n, hn, h⟩ := Option.bind_eq_some_iff.mp h
    obtain ⟨⟨ms, b⟩, hp, h⟩ := Option.bind_eq_some_iff.mp h
    obtain ⟨-, rfl⟩ := Prod.mk.inj (Option.some.inj h)
    intro c hc
    rcases List.mem_append.mp hc with hc | hc
    · exact Or.inr (isSuffixChar_of_length? hn c hc)
    · rcases List.mem_cons.mp hc with rfl | hc
      · exact Or.inr (Or.inl rfl)
      · exact ih hp c hc
  | case4 inside c' cs hne ih =>
    intro c hc
    refine ih h c ?_
    simp only [Option.getD_some, List.mem_append, List.mem_cons] at hc ⊢
    rcases hc with hc | rfl | hc
    · exact Or.inl (Or.inr hc)
    · exact Or.inl (Or.inl rfl)
    · exact Or.inr hc
  | case5 => simp at h

/-! ### The type without brackets -/

/-- A text that is a word and a number has the letters of the word and digits. -/
theorem mem_of_numberAfter? {word : String} {cs : List Char} {n : Nat}
    (h : numberAfter? word cs = some n) : ∀ c ∈ cs, c ∈ word.toList ∨ c.isDigit = true := by
  unfold numberAfter? at h
  split at h
  · next hp =>
    have hd := isDigit_of_decimal? h
    obtain ⟨ds, rfl⟩ := List.isPrefixOf_iff_prefix.mp hp
    rw [← String.length_toList, List.drop_left] at hd
    intro c hc
    rcases List.mem_append.mp hc with hc | hc
    · exact Or.inl hc
    · exact Or.inr (hd c hc)
  · simp at h

theorem isPlain_of_numberAfter? {word : String} {cs : List Char} {n : Nat}
    (hw : ∀ c ∈ word.toList, isPlain c = true) (h : numberAfter? word cs = some n) :
    ∀ c ∈ cs, isPlain c = true := by
  intro c hc
  rcases mem_of_numberAfter? h c hc with hc | hc
  · exact hw c hc
  · exact isPlain_of_isDigit hc

theorem isPlain_of_not_delimiter {c : Char} (h : (isDelimiter c || Text.isBlank c) = false) :
    isPlain c = true := by
  simp only [isDelimiter, Bool.or_eq_false_iff, beq_eq_false_iff_ne] at h
  simp [isPlain, h]

/-- **How a type without brackets reads:** as a type that refers to no struct, or as the struct
named by the whole text, which then has no delimiter and no blank. -/
theorem ofBase?_cases {cs : List Char} {t : FieldType} (h : ofBase? cs = some t) :
    (∀ c ∈ cs, isPlain c = true) ∧ (t.structName? = none ∨
      (t = struct (String.ofList cs) ∧
        ∀ c ∈ cs, (isDelimiter c || Text.isBlank c) = false)) := by
  unfold ofBase? at h
  split at h
  · next hc => subst hc; cases h; exact ⟨List.all_eq_true.mp (by decide), Or.inl rfl⟩
  split at h
  · next hc => subst hc; cases h; exact ⟨List.all_eq_true.mp (by decide), Or.inl rfl⟩
  split at h
  · next hc => subst hc; cases h; exact ⟨List.all_eq_true.mp (by decide), Or.inl rfl⟩
  split at h
  · next hc => subst hc; cases h; exact ⟨List.all_eq_true.mp (by decide), Or.inl rfl⟩
  split at h
  · next hn =>
    obtain ⟨w, -, rfl⟩ := Option.map_eq_some_iff.mp h
    exact ⟨isPlain_of_numberAfter? (List.all_eq_true.mp (by decide)) hn, Or.inl rfl⟩
  split at h
  · next hn =>
    obtain ⟨w, -, rfl⟩ := Option.map_eq_some_iff.mp h
    exact ⟨isPlain_of_numberAfter? (List.all_eq_true.mp (by decide)) hn, Or.inl rfl⟩
  split at h
  · next hn =>
    obtain ⟨w, -, rfl⟩ := Option.map_eq_some_iff.mp h
    exact ⟨isPlain_of_numberAfter? (List.all_eq_true.mp (by decide)) hn, Or.inl rfl⟩
  split at h
  · simp at h
  · next hs =>
    cases h
    have hall : ∀ c ∈ cs, (isDelimiter c || Text.isBlank c) = false := by
      rw [not_or, List.any_eq_true] at hs
      exact fun c hc => Bool.eq_false_iff.mpr fun hd => hs.2 ⟨c, hc, hd⟩
    exact ⟨fun c hc => isPlain_of_not_delimiter (hall c hc), Or.inr ⟨rfl, hall⟩⟩

/-! ### Whole types -/

theorem structName?_foldr (item : FieldType) (ns : List (Option UInt64)) :
    (ns.foldr (fun n t => array t n) item).structName? = item.structName? := by
  induction ns with
  | nil => rfl
  | cons n ns ih => rw [List.foldr_cons, structName?, ih]

theorem ofText?_eq_some {s : String} {t : FieldType} (h : ofText? s = some t) :
    ∃ ns base item, peel none s.toList.reverse = some (ns, base) ∧
      ofBase? base.reverse = some item ∧ t = ns.foldr (fun n t => array t n) item := by
  unfold ofText? ofChars? at h
  obtain ⟨⟨ns, base⟩, hp, h⟩ := Option.bind_eq_some_iff.mp h
  obtain ⟨item, hi, h⟩ := Option.bind_eq_some_iff.mp h
  exact ⟨ns, base, item, hp, hi, (Option.some.inj h).symm⟩

/-- **A type text has no blank, comma or parenthesis.** -/
theorem plain_of_ofText? {s : String} {t : FieldType} (h : ofText? s = some t) :
    ∀ c ∈ s.toList, isPlain c = true := by
  obtain ⟨ns, base, item, hp, hi, -⟩ := ofText?_eq_some h
  intro c hc
  rcases mem_of_peel hp c (by simpa using hc) with hb | hs
  · exact (ofBase?_cases hi).1 c (List.mem_reverse.mpr hb)
  · exact hs.isPlain

/-- **The name of a struct that a type refers to has no delimiter and no blank.** -/
theorem plain_of_structName? {s name : String} {t : FieldType} (h : ofText? s = some t)
    (hn : t.structName? = some name) :
    ∀ c ∈ name.toList, (isDelimiter c || Text.isBlank c) = false := by
  obtain ⟨ns, base, item, -, hi, rfl⟩ := ofText?_eq_some h
  rw [structName?_foldr] at hn
  rcases (ofBase?_cases hi).2 with hnone | ⟨rfl, hall⟩
  · rw [hnone] at hn
    cases hn
  · cases hn
    simpa using hall

/-! ### The types of documents -/

theorem toText_struct (name : String) : (struct name).toText = name := String.ofList_toList

theorem ofText?_toText_ofPrimitive (p : Primitive) :
    ofText? (ofPrimitive p).toText = some (ofPrimitive p) := by
  cases p <;> decide

theorem ofText?_toText_arrayOf (p : Primitive) : ofText? (arrayOf p).toText = some (arrayOf p) := by
  cases p <;> decide

end FieldType

end DocumentProof
