import DocumentProof.Proofs.Proof.Wire
import DocumentProof.Proofs.TypedData.Conforms
import DocumentProof.Proofs.TypedData.Integer

/-!
# The hash of a domain as a struct

The separator of a domain is put together from its members directly. It is the hash of the struct
that the domain is in JSON, under the schema of its own type (`separator_eq_hashStruct`). Each
present member has a field, a value and a word that belong together (`Slot`), and the lists that
the separator and the schema are made of are the columns of one list of them (`fields_eq_map`,
`words_eq_map`, `present_eq_map`).
-/

namespace DocumentProof

namespace TypeSchema

variable {types : TypeSchema} {name : String} {fields : List Field}

/-- The field has a type that refers to no struct. -/
def IsPlainField (f : Field) : Prop :=
  ∃ t, FieldType.ofText? f.typeName = some t ∧ t.structName? = none

theorem foldlM_visit_of_plain {n : Nat} {found : NameSet} : ∀ {l : List Field},
    (∀ f ∈ l, IsPlainField f) → l.foldlM (visit types n) found = .ok found
  | [], _ => rfl
  | f :: fs, h => by
    obtain ⟨⟨t, ht, hs⟩, hfs⟩ := List.forall_mem_cons.mp h
    rw [List.foldlM_cons, visit_plain (typeOf_eq_ok_iff.mpr ht) hs]
    exact foldlM_visit_of_plain hfs

/-- **The text of a struct without references is that of its own fields.** -/
theorem encodeType_of_plain (hg : types.get? name = some fields)
    (hplain : ∀ f ∈ fields, IsPlainField f) :
    types.encodeType name = .ok (renderType name fields) := by
  have hfields := fieldsOf_eq_ok_iff.mpr hg
  have hnone : types.references name = .ok KeyMap.empty := by
    unfold references
    rw [collect_succ]
    exact bind_eq_ok_iff.mpr ⟨fields, hfields, foldlM_visit_of_plain hplain⟩
  refine bind_eq_ok_iff.mpr ⟨fields, hfields, bind_eq_ok_iff.mpr ⟨_, hnone,
    bind_eq_ok_iff.mpr ⟨[], rfl, pure_eq_ok_iff.mpr ?_⟩⟩⟩
  exact String.append_empty

end TypeSchema

namespace Domain

open Encode

open Json (map_present forall_present_cons)

/-! ### Members -/

/-- A member of a domain in the three forms that it takes. -/
structure Slot where
  field : Field
  value : Json
  word : Word

/-- The members that are present. -/
def slots (d : Domain) : List Slot :=
  [d.name.map fun s => ⟨⟨"name", "string"⟩, .string s, keccak256 (Bytes.ofString s)⟩,
    d.version.map fun s => ⟨⟨"version", "string"⟩, .string s, keccak256 (Bytes.ofString s)⟩,
    d.chainId.map fun n =>
      ⟨⟨"chainId", "uint256"⟩, Json.ofNat n.toNat, BitVec.ofNat 256 n.toNat⟩,
    d.verifyingContract.map fun a =>
      ⟨⟨"verifyingContract", "address"⟩, .string (addressText a), a.setWidth 256⟩,
    d.salt.map fun w => ⟨⟨"salt", "bytes32"⟩, .string (wordText w), w⟩].filterMap id

theorem fields_eq_map (d : Domain) : d.fields = d.slots.map (·.field) := by
  simp only [fields, slots, map_present, List.map_cons, List.map_nil, Option.map_map,
    Function.comp_def]

theorem words_eq_map (d : Domain) : d.words = d.slots.map (·.word) := by
  simp only [words, slots, map_present, List.map_cons, List.map_nil, Option.map_map,
    Function.comp_def, Option.map_id']

theorem present_eq_map (d : Domain) : d.present = d.slots.map fun s => (s.field.name, s.value) := by
  simp only [present, slots, map_present, List.map_cons, List.map_nil, Option.map_map,
    Function.comp_def]

/-- The value of a member has its word under the type of its field, which refers to no struct. -/
def Slot.Fits (s : Slot) : Prop :=
  ∃ t, FieldType.ofText? s.field.typeName = some t ∧ t.structName? = none ∧
    ∀ types, Encode.value types s.value t = .ok s.word

theorem Slot.fits_mk {name text : String} {x : Json} {w : Word} {t : FieldType}
    (ht : FieldType.ofText? text = some t) (hs : t.structName? = none)
    (hw : ∀ types, Encode.value types x t = .ok w) : Slot.Fits ⟨⟨name, text⟩, x, w⟩ :=
  ⟨t, ht, hs, hw⟩

theorem value_text (types : TypeSchema) (s : String) :
    Encode.value types (.string s) .string = .ok (keccak256 (Bytes.ofString s)) := by
  simp only [Encode.value, atom]

theorem value_chainId (types : TypeSchema) (n : UInt64) :
    Encode.value types (Json.ofNat n.toNat) (.uint 31) = .ok (BitVec.ofNat 256 n.toNat) := by
  obtain ⟨lower, upper, hn⟩ := ofNat_eq_whole n
  have hlt : n.toNat < 2 ^ 256 := lt_trans n.toNat_lt (by decide)
  rw [hn, value_uint_eq_ok_iff]
  exact ⟨n.toNat, .number n.toNat lower upper, hlt, BitVec.ofInt_natCast 256 n.toNat⟩

/-- The written form of an account gives its bytes. -/
theorem value_address (types : TypeSchema) (a : Address) :
    Encode.value types (.string (addressText a)) .address = .ok (a.setWidth 256) := by
  have hgives : GivesAccount (.string (addressText a)) (Bytes.ofNat 20 a.toNat) :=
    ⟨_, _, rfl, .inr (.inl String.toList_ofList), Hex.lower_encodeChars _, Bytes.length_ofNat 20 _⟩
  have hword : Word.ofBytes (Bytes.ofNat 20 a.toNat) = a.setWidth 256 := by
    apply BitVec.eq_of_toNat_eq
    rw [Word.toNat_ofBytes (by rw [Bytes.length_ofNat]; omega),
      Bytes.toNat_ofNat (lt_of_lt_of_le a.isLt (by decide)), BitVec.toNat_setWidth,
      Nat.mod_eq_of_lt (lt_trans a.isLt (by decide))]
  refine value_eq_ok_iff.mpr ⟨.account (Word.ofBytes (Bytes.ofNat 20 a.toNat)), ?_, hword⟩
  simp only [TypedValue.ofJson?]
  exact TypedValue.atom?_address_eq_some_iff.mpr ⟨_, hgives, rfl⟩

/-- The written form of a word gives its bytes, and they fill the word. -/
theorem value_salt (types : TypeSchema) (w : Word) :
    Encode.value types (.string (wordText w)) (.fixedBytes 31) = .ok w := by
  have hgives : GivesBytes (.string (wordText w)) w.toBytes :=
    ⟨_, _, rfl, String.toList_ofList, Hex.lower_encodeChars _⟩
  have hlength : w.toBytes.length = 32 := Word.length_toBytes w
  have hfull : Bytes.padRight 32 w.toBytes = w.toBytes := by
    rw [Bytes.padRight, hlength]
    exact List.append_nil _
  refine value_eq_ok_iff.mpr ⟨.fixed (Bytes.padRight 32 w.toBytes), ?_, ?_⟩
  · simp only [TypedValue.ofJson?]
    exact TypedValue.atom?_fixedBytes_eq_some_iff.mpr ⟨_, hgives, hlength.le, rfl⟩
  · rw [TypedValue.word, hfull, hfull, Word.ofBytes_toBytes]

/-- **Every member of a domain is encoded as the separator has it.** -/
theorem fits_of_mem_slots (d : Domain) : ∀ s ∈ d.slots, s.Fits := by
  have hstring : FieldType.ofText? "string" = some .string := by decide +kernel
  have huint : FieldType.ofText? "uint256" = some (.uint 31) := by decide +kernel
  have haddress : FieldType.ofText? "address" = some .address := by decide +kernel
  have hbytes : FieldType.ofText? "bytes32" = some (.fixedBytes 31) := by decide +kernel
  refine forall_present_cons (fun s => ?_) (forall_present_cons (fun s => ?_)
    (forall_present_cons (fun n => ?_) (forall_present_cons (fun a => ?_)
      (forall_present_cons (fun w => ?_) (List.forall_mem_nil _)))))
  · exact Slot.fits_mk hstring rfl fun types => value_text types s
  · exact Slot.fits_mk hstring rfl fun types => value_text types s
  · exact Slot.fits_mk huint rfl fun types => value_chainId types n
  · exact Slot.fits_mk haddress rfl fun types => value_address types a
  · exact Slot.fits_mk hbytes rfl fun types => value_salt types w

/-! ### The hash -/

/-- The schema of a domain's own type alone. -/
def schema (d : Domain) : TypeSchema := KeyMap.ofList [(typeName, d.fields)]

theorem get?_schema (d : Domain) : d.schema.get? typeName = some d.fields := rfl

theorem encodeType_schema (d : Domain) :
    d.schema.encodeType typeName = .ok (TypeSchema.renderType typeName d.fields) := by
  refine TypeSchema.encodeType_of_plain d.get?_schema fun f hf => ?_
  rw [fields_eq_map] at hf
  obtain ⟨s, hs, rfl⟩ := List.mem_map.mp hf
  obtain ⟨t, ht, hplain, -⟩ := d.fits_of_mem_slots s hs
  exact ⟨t, ht, hplain⟩

/-- What a domain has in JSON under the name of a field is the value of that member. -/
theorem fieldHasWord_of_mem_slots (d : Domain) {types : TypeSchema} {s : Slot} (hs : s ∈ d.slots) :
    FieldHasWord types (Keyed.ofList d.present) s.field s.word := by
  obtain ⟨t, ht, -, hword⟩ := d.fits_of_mem_slots s hs
  have hmem : (s.field.name, s.value) ∈ d.present := by
    rw [present_eq_map]
    exact List.mem_map_of_mem hs
  have hget : Keyed.get? (Keyed.ofList d.present) s.field.name = some s.value :=
    (Keyed.get?_ofList_eq_some_iff (Keyed.value_unique d.nodup_present _)).mpr hmem
  exact ⟨s.value, t, hget, ht, hword types⟩

/-- **The separator of a domain is the hash of the domain as a struct.** For any choice of members the
domain in JSON has a hash under the schema of its own type, and this is the separator. -/
theorem separator_eq_hashStruct (d : Domain) :
    d.schema.hashStruct typeName d.toJson = .ok d.separator := by
  have hwords : List.Forall₂ (FieldHasWord d.schema (Keyed.ofList d.present)) d.fields d.words := by
    rw [fields_eq_map, words_eq_map, List.forall₂_map_left_iff, List.forall₂_map_right_iff,
      List.forall₂_same]
    exact fun s hs => d.fieldHasWord_of_mem_slots hs
  have hkeys : ∀ key ∈ (Keyed.ofList d.present).map (·.1), key ∈ d.fields.map (·.name) := by
    intro key hkey
    obtain ⟨m, hm, rfl⟩ := List.mem_map.mp hkey
    have hmem := Keyed.mem_of_mem_ofList hm
    rw [present_eq_map] at hmem
    obtain ⟨s, hs, rfl⟩ := List.mem_map.mp hmem
    rw [fields_eq_map, List.map_map]
    exact List.mem_map_of_mem hs
  have hdata : d.schema.encodeData typeName d.toJson = .ok (concat (keccak256 (Bytes.ofString
      (TypeSchema.renderType typeName d.fields)) :: d.words)) :=
    encodeData_eq_ok_iff.mpr ⟨_, Keyed.ofList d.present, _, _, d.get?_schema, rfl, hkeys,
      d.encodeType_schema, hwords, rfl⟩
  exact bind_eq_ok_iff.mpr ⟨_, hdata, rfl⟩

end Domain

end DocumentProof
