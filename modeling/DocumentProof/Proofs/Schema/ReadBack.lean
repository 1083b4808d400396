import DocumentProof.Proofs.Schema.Spelling

/-!
# Types read back

A type has a text of its own, and a text that reads as the type need not be this one: its numbers may
have zeros or a plus sign in front. Nevertheless the type is read back from its own text
(`ofText?_toText`). What matters is which structs a text can name. A name is a text that reads as no
other type (`IsStructName`), and the types that texts read as are those whose name, if they have one,
is such a text (`exists_ofText?_iff_readable`), whatever brackets stand around it.
-/

namespace DocumentProof

namespace FieldType

/-! ### Names of structs -/

/-- A text that names a struct: it has neither delimiters nor blanks, and it is no word that stands
for a type, alone or with a number after it that fits 32 bits. -/
structure IsStructName (cs : List Char) : Prop where
  ne_nil : cs ≠ []
  plain : ∀ c ∈ cs, (isDelimiter c || Text.isBlank c) = false
  not_word : cs ∉ ["bool".toList, "string".toList, "bytes".toList, "address".toList]
  not_numbered : ∀ e ∈ numbered, ∀ zeros, ∀ n < 0x100000000,
    cs ≠ e.1.toList ++ decimalAfter zeros n

theorem structName?_numbered {word : String} {step : Nat} {make : Fin 32 → FieldType}
    (h : (word, step, make) ∈ numbered) (w : Fin 32) : (make w).structName? = none := by
  simp only [numbered, List.mem_cons, Prod.mk.injEq, List.not_mem_nil, or_false] at h
  rcases h with ⟨-, -, rfl⟩ | ⟨-, -, rfl⟩ | ⟨-, -, rfl⟩
  all_goals rfl

theorem isStructName_of_ofBase? {cs : List Char} {name : String}
    (h : ofBase? cs = some (struct name)) : IsStructName cs := by
  have hother : ∀ {t}, ofBase? cs = some t → t.structName? ≠ none := by
    intro t ht hnone
    rw [h] at ht
    rw [← Option.some.inj ht] at hnone
    cases hnone
  rcases (ofBase?_cases h).2 with hnone | ⟨-, hplain⟩
  · cases hnone
  refine ⟨?_, hplain, fun hword => ?_, ?_⟩
  · rintro rfl
    cases h
  · simp only [List.mem_cons, List.not_mem_nil, or_false] at hword
    rcases hword with rfl | rfl | rfl | rfl
    · exact hother (t := bool) (by decide) rfl
    · exact hother (t := string) (by decide) rfl
    · exact hother (t := bytes) (by decide) rfl
    · exact hother (t := address) (by decide) rfl
  · rintro ⟨word, step, make⟩ hmem zeros n hn hcs
    have hnumber := ofBase?_of_numberAfter? hmem
      (numberAfter?_eq_some_iff.mpr ⟨⟨zeros, hcs⟩, hn⟩)
    rw [h] at hnumber
    obtain ⟨w, -, hw⟩ := Option.map_eq_some_iff.mp hnumber.symm
    exact hother h (hw ▸ structName?_numbered hmem w)

theorem ofBase?_of_isStructName {cs : List Char} (h : IsStructName cs) :
    ofBase? cs = some (struct (String.ofList cs)) := by
  have hnone : ∀ e ∈ numbered, numberAfter? e.1 cs = none := by
    intro e he
    rw [Option.eq_none_iff_forall_ne_some]
    intro n hn
    obtain ⟨⟨zeros, hcs⟩, hlt⟩ := numberAfter?_eq_some_iff.mp hn
    exact h.not_numbered e he zeros n hlt hcs
  have hname : ¬ (cs = [] ∨ (cs.any fun c => isDelimiter c || Text.isBlank c) = true) := by
    rw [not_or, List.any_eq_true]
    refine ⟨h.ne_nil, ?_⟩
    rintro ⟨c, hc, hbad⟩
    rw [h.plain c hc] at hbad
    cases hbad
  have hword := h.not_word
  simp only [List.mem_cons, List.not_mem_nil, or_false, not_or] at hword
  obtain ⟨hbool, hstring, hbytes, haddress⟩ := hword
  simp only [numbered, List.mem_cons, List.not_mem_nil, or_false, forall_eq_or_imp, forall_eq]
    at hnone
  unfold ofBase?
  simp only [if_neg hbool, if_neg hstring, if_neg hbytes, if_neg haddress, hnone.1, hnone.2.1,
    hnone.2.2, if_neg hname]

/-! ### Types that texts read as -/

/-- The struct that a type refers to, itself or as the items of an array, has a name. -/
def Readable (t : FieldType) : Prop := ∀ name, t.structName? = some name → IsStructName name.toList

theorem readable_of_ofText? {s : String} {t : FieldType} (h : ofText? s = some t) : t.Readable := by
  obtain ⟨ns, base, item, -, hitem, rfl⟩ := ofText?_eq_some h
  intro name hname
  rw [structName?_foldr] at hname
  rcases (ofBase?_cases hitem).2 with hnone | ⟨rfl, -⟩
  · rw [hnone] at hname
    cases hname
  · obtain rfl := Option.some.inj hname
    rw [String.toList_ofList]
    exact isStructName_of_ofBase? hitem

theorem ofChars?_numbered {word : String} {step : Nat} {make : Fin 32 → FieldType}
    (h : (word, step, make) ∈ numbered) (w : Fin 32) :
    ofChars? (make w).toChars = some (make w) := by
  have hfits : step * byteCount w < 0x100000000 := by
    have hcount : byteCount w ≤ 32 := w.isLt
    calc step * byteCount w ≤ 8 * 32 := Nat.mul_le_mul (step_le h) hcount
      _ < 0x100000000 := by decide
  rw [toChars_numbered h]
  change ofChars? (word.toList ++ decimalAfter 0 (step * byteCount w)) = some (make w)
  rw [ofChars?_eq_ofBase?_of_plain (plain_of_mem_numbered h 0 _),
    ofBase?_of_numberAfter? h (numberAfter?_eq_some_iff.mpr ⟨⟨0, rfl⟩, hfits⟩),
    (width?_eq_some_iff (step_pos h)).mpr rfl, Option.map_some]

theorem length?_toDigits (n : UInt64) : length? (Nat.toDigits 10 n.toNat) = some (some n) := by
  have hdecimal : decimal? 0x10000000000000000 (Nat.toDigits 10 n.toNat) = some n.toNat :=
    decimal?_eq_some_iff.mpr ⟨⟨0, rfl⟩, n.toNat_lt⟩
  unfold length?
  split
  · next hnil => exact absurd hnil Nat.toDigits_ne_nil
  · next ds hplus => exact absurd hplus (toDigits_ne_plus_cons _ _)
  · simp only [hdecimal, Option.map_some, UInt64.ofNat_toNat]

theorem length?_lengthChars : ∀ n : Option UInt64, length? (lengthChars n) = some n
  | none => rfl
  | some n => length?_toDigits n

/-- **A type is read back from its characters** if its struct has a name. -/
theorem ofChars?_toChars {t : FieldType} (h : t.Readable) : ofChars? t.toChars = some t := by
  induction t with
  | bool => decide
  | string => decide
  | bytes => decide
  | address => decide
  | uint w => exact ofChars?_numbered (show ("uint", 8, uint) ∈ numbered from .head _) w
  | int w => exact ofChars?_numbered (show ("int", 8, int) ∈ numbered from .tail _ (.head _)) w
  | fixedBytes w =>
    exact ofChars?_numbered
      (show ("bytes", 1, fixedBytes) ∈ numbered from .tail _ (.tail _ (.head _))) w
  | array item n ih =>
    have hopen := open_not_mem_of_plainLength (plainLength_lengthChars n)
    rw [toChars_array, ofChars?_array hopen, length?_lengthChars, ih h]
    rfl
  | struct name =>
    have hname : IsStructName name.toList := h name rfl
    have hbase := ofBase?_of_isStructName hname
    rw [String.ofList_toList] at hbase
    exact (ofChars?_eq_ofBase?_of_plain hname.plain).trans hbase

theorem ofText?_toText_of_readable {t : FieldType} (h : t.Readable) : ofText? t.toText = some t := by
  rw [ofText?, toText, String.toList_ofList, ofChars?_toChars h]

/-- **The types that texts read as** are those whose struct has a name. -/
theorem exists_ofText?_iff_readable {t : FieldType} : (∃ s, ofText? s = some t) ↔ t.Readable := by
  constructor
  · rintro ⟨s, h⟩
    exact readable_of_ofText? h
  · exact fun h => ⟨t.toText, ofText?_toText_of_readable h⟩

/-- **What a text reads as is read back from its own text.** -/
theorem ofText?_toText {s : String} {t : FieldType} (h : ofText? s = some t) :
    ofText? t.toText = some t := by
  have hreadable : t.Readable := exists_ofText?_iff_readable.mp ⟨s, h⟩
  exact ofText?_toText_of_readable hreadable

theorem ofText?_toText_nested :
    ofText? "uint007x[][+03]" = some (array (array (struct "uint007x") none) (some 3)) ∧
      ofText? (array (array (struct "uint007x") none) (some 3)).toText =
        some (array (array (struct "uint007x") none) (some 3)) := by
  have h : ofText? "uint007x[][+03]" = some (array (array (struct "uint007x") none) (some 3)) := by
    decide
  exact ⟨h, ofText?_toText h⟩

end FieldType

end DocumentProof
