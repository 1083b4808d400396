import DocumentProof.Proofs.TypedData.Evaluation
import DocumentProof.Proofs.TypedData.Notation
import DocumentProof.Proofs.TypedData.Walk

/-!
# What the encoder accepts

`Conforms` is a value's fit to a type, told without the encoder: by how booleans, texts, byte
strings, accounts and integers are written, by the length of an array and by the keys of an object,
which are exactly the names of the fields. Where the structs that a type refers to have no gaps
below them, a value has a word exactly if it conforms (`exists_value_iff`). So a struct's value has
its words exactly if the struct has a text and the value conforms, and they are then one for the
type and one for each field (`encodeData_exact`).
-/

namespace DocumentProof

namespace Encode

variable {types : TypeSchema} {name : String} {t : FieldType} {v : Json}

/-- The value fits the type. An object has all fields of the struct and nothing else, and what it
has for a field fits the type of the field. -/
inductive Conforms (types : TypeSchema) : FieldType → Json → Prop
  | bool (b : Bool) : Conforms types .bool (.bool b)
  | string (s : String) : Conforms types .string (.string s)
  | bytes {n : Nat} {s : String} (digits : IsBytes n s) : Conforms types .bytes (.string s)
  | fixedBytes {w : Fin 32} {n : Nat} {s : String} (digits : IsBytes n s)
      (fits : n ≤ FieldType.byteCount w) : Conforms types (.fixedBytes w) (.string s)
  | address {s : String} (digits : IsAccount s) : Conforms types .address (.string s)
  | uint {w : Fin 32} {v : Json} {n : Nat} (gives : GivesNatural v n)
      (fits : n < 2 ^ FieldType.bitCount w) : Conforms types (.uint w) v
  | int {w : Fin 32} {v : Json} {n : Int} (gives : GivesInteger v n)
      (lower : -2 ^ (FieldType.bitCount w - 1) ≤ n) (upper : n < 2 ^ (FieldType.bitCount w - 1)) :
      Conforms types (.int w) v
  | array {item : FieldType} {length : Option UInt64} {xs : List Json}
      (count : ∀ n, length = some n → xs.length = n.toNat)
      (items : ∀ x ∈ xs, Conforms types item x) : Conforms types (.array item length) (.array xs)
  | struct {name : String} {fields : List Field} {ms : List (String × Json)}
      (defined : types.get? name = some fields)
      (names : ∀ key, key ∈ ms.map (·.1) ↔ key ∈ fields.map (·.name))
      (typed : ∀ f ∈ fields, ∃ t, FieldType.ofText? f.typeName = some t)
      (members : ∀ f ∈ fields, ∀ x t, Keyed.get? ms f.name = some x →
        FieldType.ofText? f.typeName = some t → Conforms types t x) :
      Conforms types (.struct name) (.object ms)

/-! ### Atomic values -/

theorem exists_hexBytes_le_iff {m : Nat} : (∃ bs, hexBytes t v = .ok bs ∧ bs.length ≤ m) ↔
    ∃ s n, v = .string s ∧ IsBytes n s ∧ n ≤ m := by
  constructor
  · rintro ⟨bs, hbs, hle⟩
    obtain ⟨s, hs, hdigits⟩ := exists_hexBytes_iff.mp ⟨bs, hbs, rfl⟩
    exact ⟨s, _, hs, hdigits, hle⟩
  · rintro ⟨s, n, hs, hdigits, hle⟩
    obtain ⟨bs, hbs, rfl⟩ := exists_hexBytes_iff.mpr ⟨s, hs, hdigits⟩
    exact ⟨bs, hbs, hle⟩

theorem exists_bytes_iff : (∃ w, atom .bytes v = .ok w) ↔ Conforms types .bytes v := by
  have hread : (∃ w, atom .bytes v = .ok w) ↔ ∃ bs, hexBytes .bytes v = .ok bs := by
    simp only [atom, bind_eq_ok_iff, pure_eq_ok_iff]
    constructor
    · rintro ⟨w, bs, hbs, -⟩
      exact ⟨bs, hbs⟩
    · rintro ⟨bs, hbs⟩
      exact ⟨_, bs, hbs, rfl⟩
  rw [hread]
  constructor
  · rintro ⟨bs, hbs⟩
    obtain ⟨s, rfl, hdigits⟩ := exists_hexBytes_iff.mp ⟨bs, hbs, rfl⟩
    exact .bytes hdigits
  · intro h
    cases h with
    | bytes hdigits =>
      obtain ⟨bs, hbs, -⟩ := exists_hexBytes_iff.mpr ⟨_, rfl, hdigits⟩
      exact ⟨bs, hbs⟩

theorem exists_fixedBytes_iff {w : Fin 32} :
    (∃ word, atom (.fixedBytes w) v = .ok word) ↔ Conforms types (.fixedBytes w) v := by
  have hread : (∃ word, atom (.fixedBytes w) v = .ok word) ↔
      ∃ bs, hexBytes (.fixedBytes w) v = .ok bs ∧ bs.length ≤ FieldType.byteCount w := by
    simp only [atom, bind_eq_ok_iff]
    constructor
    · rintro ⟨_, bs, hbs, h⟩
      split_ifs at h with hle
      · exact ⟨bs, hbs, hle⟩
      · cases h
    · rintro ⟨bs, hbs, hle⟩
      exact ⟨_, bs, hbs, if_pos hle⟩
  rw [hread, exists_hexBytes_le_iff]
  constructor
  · rintro ⟨s, n, rfl, hdigits, hle⟩
    exact .fixedBytes hdigits hle
  · intro h
    cases h with
    | fixedBytes hdigits hle => exact ⟨_, _, rfl, hdigits, hle⟩

theorem exists_address_iff : (∃ w, atom .address v = .ok w) ↔ Conforms types .address v := by
  constructor
  · rintro ⟨w, h⟩
    cases v with
    | string s =>
      refine .address (exists_account_iff.mp ?_)
      rw [atom] at h
      split at h
      · next w' hw => exact ⟨w', hw⟩
      · cases h
    | _ => cases h
  · intro h
    cases h with
    | address hdigits =>
      obtain ⟨w, hw⟩ := exists_account_iff.mpr hdigits
      exact ⟨w, by rw [atom, hw]⟩

theorem exists_uint_iff {w : Fin 32} :
    (∃ word, atom (.uint w) v = .ok word) ↔ Conforms types (.uint w) v := by
  have hpow : Nat.pow 2 (FieldType.bitCount w) = 2 ^ FieldType.bitCount w := rfl
  constructor
  · rintro ⟨word, h⟩
    rw [atom] at h
    split at h
    · cases h
    · next n hn =>
      split_ifs at h with hlt
      · exact .uint (natural?_eq_some_iff.mp hn).1 hlt
      · cases h
  · intro h
    cases h with
    | uint hgives hlt =>
      have hword := lt_of_lt_of_le hlt (Nat.pow_le_pow_right (by omega) (TypedValue.bitCount_le w))
      rw [atom, natural?_eq_some_iff.mpr ⟨hgives, hword⟩]
      exact ⟨_, if_pos hlt⟩

theorem exists_int_iff {w : Fin 32} :
    (∃ word, atom (.int w) v = .ok word) ↔ Conforms types (.int w) v := by
  have hcast : ((Nat.pow 2 (FieldType.bitCount w - 1) : Nat) : Int) =
      2 ^ (FieldType.bitCount w - 1) := Nat.cast_pow 2 _
  constructor
  · rintro ⟨word, h⟩
    rw [atom] at h
    split at h
    · cases h
    · next n hn =>
      dsimp only at h
      split_ifs at h with hrange
      · rw [hcast] at hrange
        exact .int (integer?_eq_some_iff.mp hn).1 hrange.1 hrange.2
      · cases h
  · intro h
    cases h with
    | int hgives lower upper =>
      have hbound : (2 : Int) ^ (FieldType.bitCount w - 1) ≤ 2 ^ 255 :=
        pow_le_pow_right₀ (by omega) (by have := TypedValue.bitCount_le w; omega)
      rw [atom, integer?_eq_some_iff.mpr ⟨hgives, by omega⟩]
      dsimp only
      rw [hcast]
      exact ⟨_, if_pos ⟨lower, upper⟩⟩

theorem exists_bool_iff : (∃ w, atom .bool v = .ok w) ↔ Conforms types .bool v := by
  constructor
  · rintro ⟨w, h⟩
    cases v with
    | bool b => exact .bool b
    | _ => cases h
  · intro h
    cases h with
    | bool b => exact ⟨_, rfl⟩

theorem exists_string_iff : (∃ w, atom .string v = .ok w) ↔ Conforms types .string v := by
  constructor
  · rintro ⟨w, h⟩
    cases v with
    | string s => exact .string s
    | _ => cases h
  · intro h
    cases h with
    | string s => exact ⟨_, rfl⟩

/-! ### Arrays and structs -/

theorem lengthFault?_eq_none_iff {length : Option UInt64} {n : Nat} :
    lengthFault? length n = none ↔ ∀ k, length = some k → n = k.toNat := by
  cases length with
  | none => exact iff_of_true rfl nofun
  | some k => simp [lengthFault?]

/-- An array has a word exactly if its length is the one given and its items have words. -/
theorem exists_array_iff {item : FieldType} {length : Option UInt64} :
    (∃ w, value types v (.array item length) = .ok w) ↔
      ∃ xs, v = .array xs ∧ (∀ n, length = some n → xs.length = n.toNat) ∧
        ∀ x ∈ xs, ∃ w, value types x item = .ok w := by
  simp only [value_array_eq_ok_iff, lengthFault?_eq_none_iff, ← exists_forall₂_iff]
  constructor
  · rintro ⟨w, xs, ws, rfl, hcount, hws, -⟩
    exact ⟨xs, rfl, hcount, ws, hws⟩
  · rintro ⟨xs, rfl, hcount, ws, hws⟩
    exact ⟨_, xs, ws, rfl, hcount, hws, rfl⟩

/-- **The words of a struct.** They are found if the struct has a text, the value is an object with
no other keys than the names of the fields, and every field has a word. -/
theorem encodeData_eq_ok_iff {bs : Bytes} : types.encodeData name v = .ok bs ↔
    ∃ fields ms text words, types.get? name = some fields ∧ v = .object ms ∧
      (∀ key ∈ ms.map (·.1), key ∈ fields.map (·.name)) ∧ types.encodeType name = .ok text ∧
      List.Forall₂ (FieldHasWord types ms) fields words ∧
      bs = concat (keccak256 (Bytes.ofString text) :: words) := by
  unfold TypeSchema.encodeData
  simp only [bind_eq_ok_iff, pure_eq_ok_iff, ← undeclared?_eq_none_iff]
  constructor
  · rintro ⟨ws, h, rfl⟩
    cases v with
    | object ms =>
      obtain ⟨fields, text, words, hg, hu, ht, hwords, rfl⟩ := structWords_eq_ok_iff.mp h
      exact ⟨fields, ms, text, words, hg, rfl, hu, ht, hwords, rfl⟩
    | _ =>
      obtain ⟨fields, -, h⟩ := bind_eq_ok_iff.mp h
      cases h
  · rintro ⟨fields, ms, text, words, hg, rfl, hu, ht, hwords, rfl⟩
    exact ⟨_, structWords_eq_ok_iff.mpr ⟨fields, text, words, hg, hu, ht, hwords, rfl⟩, rfl⟩

/-- What is to be shown of a value: it has a word under a type exactly if it conforms to it. -/
def WordIffConforms (types : TypeSchema) (v : Json) : Prop :=
  ∀ t, (∀ used, t.structName? = some used → types.IsClosed used) →
    ((∃ w, value types v t = .ok w) ↔ Conforms types t v)

/-- The words of a struct are found exactly if it has a text and the value conforms to it, where
this holds of the members. -/
theorem exists_encodeData_iff_of_members
    (hmembers : ∀ ms, v = .object ms → ∀ m ∈ ms, WordIffConforms types m.2) :
    (∃ bs, types.encodeData name v = .ok bs) ↔
      (∃ text, types.encodeType name = .ok text) ∧ Conforms types (.struct name) v := by
  have hmember : types.IsClosed name → ∀ {fields f ms x t}, types.get? name = some fields →
      f ∈ fields → v = .object ms → Keyed.get? ms f.name = some x →
      FieldType.ofText? f.typeName = some t →
      ((∃ w, value types x t = .ok w) ↔ Conforms types t x) :=
    fun hclosed _ f ms x t hg hf hv hx ht => hmembers ms hv _ (Keyed.mem_of_get? hx) t
      fun used hs => hclosed.of_refers ⟨_, f, t, hg, hf, ht, hs⟩
  simp only [encodeData_eq_ok_iff]
  constructor
  · rintro ⟨bs, fields, ms, text, words, hg, rfl, hu, ht, hwords, -⟩
    have hclosed := TypeSchema.exists_encodeType_iff.mp ⟨text, ht⟩
    have hword := exists_forall₂_iff.mp ⟨words, hwords⟩
    refine ⟨⟨text, ht⟩, .struct hg (fun key => ⟨hu key, fun hkey => ?_⟩) (fun f hf => ?_)
      fun f hf x t hx ht => ?_⟩
    · obtain ⟨f, hf, rfl⟩ := List.mem_map.mp hkey
      obtain ⟨w, x, t, hx, -⟩ := hword f hf
      exact List.mem_map_of_mem (Keyed.mem_of_get? hx)
    · obtain ⟨w, x, t, -, ht, -⟩ := hword f hf
      exact ⟨t, ht⟩
    · obtain ⟨w, x', t', hx', ht', hw⟩ := hword f hf
      cases hx.symm.trans hx'
      cases ht.symm.trans ht'
      exact (hmember hclosed hg hf rfl hx ht).mp ⟨w, hw⟩
  · rintro ⟨⟨text, ht⟩, h⟩
    have hclosed := TypeSchema.exists_encodeType_iff.mp ⟨text, ht⟩
    cases h with
    | @struct _ fields ms hg hnames htyped hconforms =>
      have hword : ∀ f ∈ fields, ∃ w, FieldHasWord types ms f w := fun f hf => by
        obtain ⟨m, hm, hkey⟩ := List.mem_map.mp ((hnames f.name).mpr (List.mem_map_of_mem hf))
        obtain ⟨x, hx⟩ := Keyed.exists_get?_of_mem (hkey ▸ hm : (f.name, m.2) ∈ ms)
        obtain ⟨t, ht⟩ := htyped f hf
        obtain ⟨w, hw⟩ := (hmember hclosed hg hf rfl hx ht).mpr (hconforms f hf x t hx ht)
        exact ⟨w, x, t, hx, ht, hw⟩
      obtain ⟨words, hwords⟩ := exists_forall₂_iff.mpr hword
      exact ⟨_, fields, ms, text, words, hg, rfl, fun key => (hnames key).mp, ht, hwords, rfl⟩

theorem exists_struct_iff : (∃ w, value types v (.struct name) = .ok w) ↔
    ∃ bs, types.encodeData name v = .ok bs := by
  rw [← TypeSchema.hashStruct_eq_value, TypeSchema.hashStruct]
  simp only [bind_eq_ok_iff, pure_eq_ok_iff]
  constructor
  · rintro ⟨w, bs, h, -⟩
    exact ⟨bs, h⟩
  · rintro ⟨bs, h⟩
    exact ⟨_, bs, h, rfl⟩

theorem wordIffConforms_step
    (hitems : ∀ xs, v = .array xs → ∀ x ∈ xs, WordIffConforms types x)
    (hmembers : ∀ ms, v = .object ms → ∀ m ∈ ms, WordIffConforms types m.2) :
    WordIffConforms types v := by
  intro t hclosed
  cases t with
  | array item length =>
    rw [exists_array_iff]
    constructor
    · rintro ⟨xs, rfl, hcount, hwords⟩
      exact .array hcount fun x hx => (hitems xs rfl x hx item hclosed).mp (hwords x hx)
    · intro h
      cases h with
      | array hcount hconforms =>
        refine ⟨_, rfl, hcount, fun x hx => ?_⟩
        exact (hitems _ rfl x hx item hclosed).mpr (hconforms x hx)
  | struct name =>
    rw [exists_struct_iff, exists_encodeData_iff_of_members hmembers]
    exact and_iff_right (TypeSchema.exists_encodeType_iff.mpr (hclosed name rfl))
  | bool => simpa only [value] using exists_bool_iff
  | string => simpa only [value] using exists_string_iff
  | bytes => simpa only [value] using exists_bytes_iff
  | address => simpa only [value] using exists_address_iff
  | uint w => simpa only [value] using exists_uint_iff
  | int w => simpa only [value] using exists_int_iff
  | fixedBytes w => simpa only [value] using exists_fixedBytes_iff

/-- **A value has a word exactly if it conforms to its type,** where the structs that the type
refers to have no gaps below them. -/
theorem exists_value_iff (v : Json) {t : FieldType}
    (hclosed : ∀ used, t.structName? = some used → types.IsClosed used) :
    (∃ w, value types v t = .ok w) ↔ Conforms types t v :=
  Json.induction_of_step (fun _ => wordIffConforms_step) v t hclosed

/-- **The words of a struct are found exactly if it has a text and the value conforms to it.** -/
theorem exists_encodeData_iff : (∃ bs, types.encodeData name v = .ok bs) ↔
    (∃ text, types.encodeType name = .ok text) ∧ Conforms types (.struct name) v :=
  exists_encodeData_iff_of_members fun _ _ m _ _ => exists_value_iff m.2

/-! ### The words -/

theorem length_concat (ws : List Word) : (concat ws).length = 32 * ws.length := by
  induction ws with
  | nil => rfl
  | cons w ws ih =>
    rw [concat, List.flatMap_cons, List.length_append, Word.length_toBytes, List.length_cons]
    rw [concat] at ih
    omega

/-- **The encoder is total and strict.** For every schema, name and value the evaluation ends, with
the encoder's result. There is a result exactly if the struct has a text and the value conforms to
it. It is then the hash of this text and a word of 32 bytes for each field, in the order of the
fields. -/
theorem encodeData_exact (types : TypeSchema) (name : String) (v : Json) :
    (∀ r, EvaluatesData types name v r ↔ r = types.encodeData name v) ∧
    ((∃ bs, types.encodeData name v = .ok bs) ↔
      (∃ text, types.encodeType name = .ok text) ∧ Conforms types (.struct name) v) ∧
    ∀ bs, types.encodeData name v = .ok bs →
      ∃ fields ms text words, types.get? name = some fields ∧ v = .object ms ∧
        types.encodeType name = .ok text ∧ List.Forall₂ (FieldHasWord types ms) fields words ∧
        bs = (keccak256 (Bytes.ofString text)).toBytes ++ words.flatMap Word.toBytes ∧
        bs.length = 32 * (fields.length + 1) := by
  refine ⟨fun _ => evaluatesData_iff, exists_encodeData_iff, fun bs h => ?_⟩
  obtain ⟨fields, ms, text, words, hg, hv, -, ht, hwords, rfl⟩ := encodeData_eq_ok_iff.mp h
  refine ⟨fields, ms, text, words, hg, hv, ht, hwords, rfl, ?_⟩
  rw [length_concat, List.length_cons, hwords.length_eq]

end Encode

end DocumentProof
