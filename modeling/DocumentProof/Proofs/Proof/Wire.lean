import DocumentProof.Proof.Basic
import DocumentProof.Proofs.Json.Reading
import DocumentProof.Proofs.Json.Record
import DocumentProof.Proofs.Wallet.Text

/-!
# Proofs in JSON

Each part of a proof is read back from the JSON form that it is written in, and so is the whole
proof (`ofJson_toJson`). The members without a meaning of their own stand beside the others, so none of
them may have a key of these (`IsWire`). What is decoded has no such members (`isWire_of_ofJson`),
so it is read back as well, and the members that it does not know are written as they were
(`wire_round_trip`).
-/

namespace DocumentProof

open Json (keys_present_cons_sublist keys_some_cons_sublist)

/-! ## Fixed byte strings -/

namespace FixedHex

/-- The written form of bytes is their mark and digits. -/
theorem ofString_encodeMarked (bs : Bytes) : Bytes.ofString (Hex.encodeMarked bs) =
    0x30 :: 0x78 :: (Hex.encodeChars bs).map fun c => UInt8.ofNat c.toNat := by
  have ascii : ∀ c ∈ '0' :: 'x' :: Hex.encodeChars bs, c.toNat ≤ 127 := by
    have hdigits : ∀ c ∈ "0123456789abcdef".toList, c.toNat ≤ 127 :=
      List.all_iff_forall_prop.mp (by decide)
    intro c hc
    rcases List.mem_cons.mp hc with rfl | hc
    · decide
    rcases List.mem_cons.mp hc with rfl | hc
    · decide
    · exact hdigits c (Hex.mem_encodeChars hc)
  exact Bytes.ofString_ofList ascii

theorem ofText_encodeMarked (bs : Bytes) : ofText bs.length (Hex.encodeMarked bs) = .ok bs := by
  have hlen : ((Hex.encodeChars bs).map fun c => UInt8.ofNat c.toNat).length = 2 * bs.length := by
    rw [List.length_map, Hex.length_encodeChars]
  unfold ofText
  simp only [ofString_encodeMarked, afterMark, List.length_cons, hlen, Hex.decodePairs_encodeChars]
  rw [if_neg (by omega), if_neg (by omega)]

end FixedHex

/-! ## Domains -/

namespace Domain

theorem addressOfJson_addressText (a : Address) :
    addressOfJson (.string (addressText a)) = .ok a := by
  have hlen : (Bytes.ofNat 20 a.toNat).length = 20 := Bytes.length_ofNat 20 _
  have hread : FixedHex.ofJson 20 (.string (addressText a)) = .ok (Bytes.ofNat 20 a.toNat) := by
    have h := FixedHex.ofText_encodeMarked (Bytes.ofNat 20 a.toNat)
    rw [hlen] at h
    exact h
  have hvalue : BitVec.ofNat 160 (Bytes.toNat (Bytes.ofNat 20 a.toNat)) = a := by
    rw [Bytes.toNat_ofNat (by have := a.isLt; omega), BitVec.ofNat_toNat, BitVec.setWidth_eq]
  exact bind_eq_ok_iff.mpr ⟨_, hread, congrArg Except.ok hvalue⟩

theorem wordOfJson_wordText (w : Word) : wordOfJson (.string (wordText w)) = .ok w := by
  have hread : FixedHex.ofJson 32 (.string (wordText w)) = .ok w.toBytes := by
    have h := FixedHex.ofText_encodeMarked w.toBytes
    rw [Word.length_toBytes] at h
    exact h
  exact bind_eq_ok_iff.mpr ⟨_, hread, congrArg Except.ok (Word.ofBytes_toBytes w)⟩

theorem ofNat_eq_whole (n : UInt64) : ∃ lower upper,
    Json.ofNat n.toNat = .number (.whole n.toNat lower upper) := by
  have hlt := n.toNat_lt
  have hword : -0x8000000000000000 ≤ (n.toNat : Int) ∧ (n.toNat : Int) < 0x10000000000000000 := by
    omega
  refine ⟨hword.1, hword.2, ?_⟩
  unfold Json.ofNat Number.ofInt?
  rw [dif_pos hword]
  rfl

theorem chainIdOfJson_ofNat (n : UInt64) : chainIdOfJson (Json.ofNat n.toNat) = .ok n := by
  obtain ⟨lower, upper, hn⟩ := ofNat_eq_whole n
  have hnat : (Number.whole n.toNat lower upper).toNat? = some n.toNat := by
    simp [Number.toNat?]
  rw [hn]
  unfold chainIdOfJson
  simp only [hnat, UInt64.ofNat_toNat]

theorem ofNat_ne_null (n : UInt64) : Json.ofNat n.toNat ≠ .null := by
  obtain ⟨lower, upper, hn⟩ := ofNat_eq_whole n
  rw [hn]
  simp

/-- The members of a domain that are present. -/
def present (d : Domain) : List (String × Json) :=
  [d.name.map fun s => ("name", Json.string s), d.version.map fun s => ("version", .string s),
    d.chainId.map fun n => ("chainId", Json.ofNat n.toNat),
    d.verifyingContract.map fun a => ("verifyingContract", .string (addressText a)),
    d.salt.map fun w => ("salt", .string (wordText w))].filterMap id

theorem nodup_present (d : Domain) : (d.present.map (·.1)).Nodup := by
  have hsub : (d.present.map (·.1)).Sublist memberNames :=
    keys_present_cons_sublist _ _ _ (keys_present_cons_sublist _ _ _ (keys_present_cons_sublist _ _ _
      (keys_present_cons_sublist _ _ _ (keys_present_cons_sublist _ _ _ (List.Sublist.refl [])))))
  have hnames : memberNames.Nodup := by decide
  exact hnames.sublist hsub

theorem mem_present {d : Domain} {m : String × Json} (h : m ∈ d.present) :
    (∃ s, m = ("name", .string s)) ∨ (∃ s, m = ("version", .string s)) ∨
      (∃ n : UInt64, m = ("chainId", Json.ofNat n.toNat)) ∨
      (∃ a, m = ("verifyingContract", .string (addressText a))) ∨
      ∃ w, m = ("salt", .string (wordText w)) := by
  simp only [present, List.mem_filterMap, List.mem_cons, List.not_mem_nil, or_false, id,
    exists_eq_right] at h
  rcases h with h | h | h | h | h
  all_goals
    obtain ⟨x, -, rfl⟩ := Option.map_eq_some_iff.mp h.symm
  · exact Or.inl ⟨x, rfl⟩
  · exact Or.inr (Or.inl ⟨x, rfl⟩)
  · exact Or.inr (Or.inr (Or.inl ⟨x, rfl⟩))
  · exact Or.inr (Or.inr (Or.inr (Or.inl ⟨x, rfl⟩)))
  · exact Or.inr (Or.inr (Or.inr (Or.inr ⟨x, rfl⟩)))

theorem read_string (s : String) :
    Json.decodeOption Json.decodeString (.string s) = .ok (some s) := rfl

theorem read_chainId (n : UInt64) :
    Json.decodeOption chainIdOfJson (Json.ofNat n.toNat) = .ok (some n) :=
  Json.decodeOption_eq_ok (ofNat_ne_null n) (chainIdOfJson_ofNat n)

theorem read_address (a : Address) :
    Json.decodeOption addressOfJson (.string (addressText a)) = .ok (some a) :=
  Json.decodeOption_eq_ok (by simp) (addressOfJson_addressText a)

theorem read_word (w : Word) :
    Json.decodeOption wordOfJson (.string (wordText w)) = .ok (some w) :=
  Json.decodeOption_eq_ok (by simp) (wordOfJson_wordText w)

theorem checkMember_present {d : Domain} : ∀ m ∈ d.present, checkMember m.1 m.2 = .ok () := by
  intro m hm
  rcases mem_present hm with ⟨s, rfl⟩ | ⟨s, rfl⟩ | ⟨n, rfl⟩ | ⟨a, rfl⟩ | ⟨w, rfl⟩
  · exact Json.attempt_eq_ok (read_string s)
  · exact Json.attempt_eq_ok (read_string s)
  · have hread := read_chainId n
    generalize Json.ofNat n.toNat = x at hread ⊢
    exact Json.attempt_eq_ok hread
  · exact Json.attempt_eq_ok (read_address a)
  · exact Json.attempt_eq_ok (read_word w)

/-- **A domain is read back.** -/
theorem ofJson_toJson (d : Domain) : ofJson d.toJson = .ok d := by
  have hget : ∀ key, Keyed.get? (Keyed.ofList d.present) key = Keyed.get? d.present key :=
    Keyed.get?_ofList_of_nodup d.nodup_present
  have hcheck : Json.checkMembers checkMember (Keyed.ofList d.present) = .ok () :=
    Json.checkMembers_eq_ok fun m hm => checkMember_present m (Keyed.mem_of_mem_ofList hm)
  refine bind_eq_ok_iff.mpr ⟨(), hcheck,
    bind_eq_ok_iff.mpr ⟨d.name, Json.optional_eq_ok ?_ fun s _ => read_string s,
    bind_eq_ok_iff.mpr ⟨d.version, Json.optional_eq_ok ?_ fun s _ => read_string s,
    bind_eq_ok_iff.mpr ⟨d.chainId, Json.optional_eq_ok ?_ fun n _ => read_chainId n,
    bind_eq_ok_iff.mpr ⟨d.verifyingContract, Json.optional_eq_ok ?_ fun a _ => read_address a,
    bind_eq_ok_iff.mpr ⟨d.salt, Json.optional_eq_ok ?_ fun w _ => read_word w, rfl⟩⟩⟩⟩⟩⟩
  all_goals
    refine (hget _).trans ?_
    simp only [present, Json.get?_present_cons, List.filterMap_nil, Keyed.get?_nil, Option.or_none,
      String.reduceEq, reduceIte]

end Domain

/-! ## Schemas -/

namespace Field

theorem ofJson_toJson (f : Field) : ofJson f.toJson = .ok f := by
  have hnodup : ([("name", Json.string f.name), ("type", .string f.typeName)].map (·.1)).Nodup := by
    simp
  have hget := Keyed.get?_ofList_of_nodup hnodup
  have hname := hget "name"
  have htype := hget "type"
  simp only [Keyed.get?_cons, String.reduceEq, reduceIte] at hname htype
  refine bind_eq_ok_iff.mpr ⟨(), Json.checkMembers_eq_ok fun m hm => ?_, bind_eq_ok_iff.mpr
    ⟨f.name, Json.required_eq_ok hname rfl, bind_eq_ok_iff.mpr
      ⟨f.typeName, Json.required_eq_ok htype rfl, rfl⟩⟩⟩
  rcases List.mem_pair.mp (Keyed.mem_of_mem_ofList hm) with rfl | rfl
  · rfl
  · rfl

end Field

/-- **A schema is read back.** -/
theorem TypeSchema.ofJson_toJson (types : TypeSchema) : TypeSchema.ofJson types.toJson = .ok types :=
  Json.decodeMap_eq_ok (Json.decodeList_eq_ok Field.ofJson_toJson) types

theorem SchemaSource.ofJson_toJson (source : SchemaSource) :
    SchemaSource.ofJson source.toJson = .ok source := by
  unfold SchemaSource.ofJson SchemaSource.toJson
  cases source with
  | inline types => simp only [TypeSchema.ofJson_toJson]
  | remote uri => rfl

/-! ## Context -/

namespace EmbeddedDomain

/-- **The context of a signature is read back.** -/
theorem ofJson_toJson (e : EmbeddedDomain) : ofJson e.toJson = .ok e := by
  have hnodup : ([("domain", e.domain.toJson), ("messageSchema", e.schema.toJson),
      ("primaryType", Json.string e.primaryType)].map (·.1)).Nodup := by simp
  have hget := Keyed.get?_ofList_of_nodup hnodup
  have hdomain := hget "domain"
  have hschema := hget "messageSchema"
  have hname := hget "primaryType"
  simp only [Keyed.get?_cons, String.reduceEq, reduceIte] at hdomain hschema hname
  refine bind_eq_ok_iff.mpr ⟨(), Json.checkMembers_eq_ok fun m hm => ?_, bind_eq_ok_iff.mpr
    ⟨e.domain, Json.required_eq_ok hdomain e.domain.ofJson_toJson, bind_eq_ok_iff.mpr
      ⟨e.schema, Json.required_eq_ok hschema e.schema.ofJson_toJson, bind_eq_ok_iff.mpr
        ⟨e.primaryType, Json.required_eq_ok hname rfl, rfl⟩⟩⟩⟩
  have hmem := Keyed.mem_of_mem_ofList hm
  simp only [List.mem_cons, List.not_mem_nil, or_false] at hmem
  rcases hmem with rfl | rfl | rfl
  · exact Json.attempt_eq_ok e.domain.ofJson_toJson
  · exact Json.attempt_eq_ok e.schema.ofJson_toJson
  · rfl

end EmbeddedDomain

/-! ## Verification methods -/

namespace VerificationMethod

/-- An object with an identifier has it once. -/
def IsWire : VerificationMethod → Prop
  | named _ => True
  | described _ other => other.get? "id" = none

/-- **A verification method is read back.** -/
theorem ofJson_toJson {m : VerificationMethod} (h : m.IsWire) : ofJson m.toJson = .ok m := by
  cases m with
  | named id => rfl
  | described id other =>
    have hknown : ((id.map fun s => ("id", Json.string s)).toList.map (·.1)).Sublist ["id"] := by
      cases id with
      | none => exact List.nil_sublist _
      | some s => exact List.Sublist.refl _
    have hother : ∀ key ∈ ["id"], other.get? key = none := by
      intro key hkey
      rw [List.mem_singleton.mp hkey]
      exact h
    have hnames : ["id"].Nodup := List.nodup_singleton _
    have hid := Json.get?_beside hknown hnames hother "id"
    have hget : Keyed.get? (Keyed.ofList
        ((id.map fun s => ("id", Json.string s)).toList ++ other.entries)) "id" =
          id.map Json.string := by
      rw [hid, hother "id" List.mem_cons_self, Option.or_none]
      cases id with
      | none => rfl
      | some s => exact (Keyed.get?_cons "id" _ [] "id").trans (if_pos rfl)
    have hrest := Json.ofList_beside hknown hnames hother
    have hremove : ∀ ms : List (String × Json),
        Keyed.remove "id" ms = ms.filter fun m => !(["id"].contains m.1) := by
      intro ms
      refine List.filter_congr fun m _ => ?_
      simp
    have hoptional := Json.optional_eq_ok hget fun s _ =>
      (rfl : Json.decodeOption Json.decodeString (.string s) = .ok (some s))
    unfold toJson Json.ofMembers ofJson
    simp only [hoptional, hremove, hrest]

theorem toJson_ne_null (m : VerificationMethod) : m.toJson ≠ .null := by
  cases m <;> simp [toJson, Json.ofMembers]

/-- What is decoded has its identifier once. -/
theorem isWire_of_ofJson {j : Json} {m : VerificationMethod} (h : ofJson j = .ok m) : m.IsWire := by
  unfold ofJson at h
  split at h
  · cases h
    trivial
  · next ms =>
    split at h
    · cases h
      exact KeyMap.get?_ofList_filter (fun key => decide (key ≠ "id")) (by decide) ms
    · cases h
  · cases h

theorem isWire_of_decodeOption {x : Json} {m : VerificationMethod}
    (h : Json.decodeOption ofJson x = .ok (some m)) : m.IsWire := by
  unfold Json.decodeOption at h
  split at h
  · cases h
  · cases hread : ofJson x with
    | error e =>
      rw [hread] at h
      cases h
    | ok m' =>
      rw [hread] at h
      cases h
      exact isWire_of_ofJson hread

end VerificationMethod

/-! ## Proofs -/

namespace Proof

/-- A proof whose members without a meaning of their own have keys of their own. -/
structure IsWire (p : Proof) : Prop where
  extra : ∀ key ∈ knownKeys, p.extra.get? key = none
  method : ∀ m, p.method = some m → m.IsWire

/-- The known members that are present, by key. -/
theorem keys_knownMembers_sublist (p : Proof) : (p.knownMembers.map (·.1)).Sublist knownKeys :=
  keys_some_cons_sublist _ (keys_present_cons_sublist _ _ _ (keys_present_cons_sublist _ _ _
    (keys_present_cons_sublist _ _ _ (keys_present_cons_sublist _ _ _ (keys_present_cons_sublist _ _ _
      (List.Sublist.refl []))))))

theorem nodup_knownKeys : knownKeys.Nodup := by decide

theorem get?_toJson (p : Proof) (key : String) :
    p.toJson.get? key = (p.extra.get? key).or (Keyed.get? p.knownMembers key) :=
  Json.get?_over p.keys_knownMembers_sublist nodup_knownKeys p.extra key

theorem read_method {m : VerificationMethod} (h : m.IsWire) :
    Json.decodeOption VerificationMethod.ofJson m.toJson = .ok (some m) :=
  Json.decodeOption_eq_ok m.toJson_ne_null (VerificationMethod.ofJson_toJson h)

theorem read_embedded (e : EmbeddedDomain) :
    Json.decodeOption EmbeddedDomain.ofJson e.toJson = .ok (some e) :=
  Json.decodeOption_eq_ok (by simp [EmbeddedDomain.toJson, Json.ofMembers]) e.ofJson_toJson

theorem checkMember_extra {p : Proof} (h : p.IsWire) :
    ∀ m ∈ p.extra.entries, checkMember m.1 m.2 = .ok () := by
  intro m hm
  have hkey : m.1 ∉ knownKeys := by
    intro hknown
    have hget : p.extra.get? m.1 = some m.2 := (Keyed.mem_iff_get? p.extra.increasing).mp hm
    rw [h.extra m.1 hknown] at hget
    cases hget
  unfold checkMember
  split
  case _ heq => exact absurd (by simp [heq, knownKeys]) hkey
  case _ heq => exact absurd (by simp [heq, knownKeys]) hkey
  case _ heq => exact absurd (by simp [heq, knownKeys]) hkey
  case _ heq => exact absurd (by simp [heq, knownKeys]) hkey
  case _ heq => exact absurd (by simp [heq, knownKeys]) hkey
  case _ heq => exact absurd (by simp [heq, knownKeys]) hkey
  · rfl

theorem checkMember_knownMembers {p : Proof} (h : p.IsWire) :
    ∀ m ∈ p.knownMembers, checkMember m.1 m.2 = .ok () := by
  intro m hm
  simp only [knownMembers, List.mem_filterMap, List.mem_cons, List.not_mem_nil, or_false, id,
    exists_eq_right, Option.some.injEq] at hm
  rcases hm with rfl | hm | hm | hm | hm | hm
  · rfl
  · obtain ⟨s, -, rfl⟩ := Option.map_eq_some_iff.mp hm.symm
    rfl
  · obtain ⟨method, hmethod, rfl⟩ := Option.map_eq_some_iff.mp hm.symm
    exact Json.attempt_eq_ok (read_method (h.method method hmethod))
  · obtain ⟨s, -, rfl⟩ := Option.map_eq_some_iff.mp hm.symm
    rfl
  · obtain ⟨s, -, rfl⟩ := Option.map_eq_some_iff.mp hm.symm
    rfl
  · obtain ⟨e, -, rfl⟩ := Option.map_eq_some_iff.mp hm.symm
    exact Json.attempt_eq_ok (read_embedded e)

/-- **A proof is read back.** -/
theorem ofJson_toJson {p : Proof} (h : p.IsWire) : ofJson p.toJson = .ok p := by
  have hget : ∀ key ∈ knownKeys, Keyed.get? (Keyed.ofList (p.knownMembers ++ p.extra.entries)) key =
      Keyed.get? p.knownMembers key := by
    intro key hkey
    rw [Json.get?_beside p.keys_knownMembers_sublist nodup_knownKeys h.extra, h.extra key hkey,
      Option.or_none]
  have hcheck : Json.checkMembers checkMember (Keyed.ofList (p.knownMembers ++ p.extra.entries)) =
      .ok () := by
    refine Json.checkMembers_eq_ok fun m hm => ?_
    rcases List.mem_append.mp (Keyed.mem_of_mem_ofList hm) with hm | hm
    · exact checkMember_knownMembers h m hm
    · exact checkMember_extra h m hm
  have hstring : ∀ s, Json.decodeOption Json.decodeString (.string s) = .ok (some s) := fun _ => rfl
  refine bind_eq_ok_iff.mpr ⟨(), hcheck,
    bind_eq_ok_iff.mpr ⟨p.type, Json.required_eq_ok (x := .string p.type) ?_ rfl,
    bind_eq_ok_iff.mpr ⟨p.created, Json.optional_eq_ok ?_ fun s _ => hstring s,
    bind_eq_ok_iff.mpr ⟨p.method, Json.optional_eq_ok ?_ fun m hm => read_method (h.method m hm),
    bind_eq_ok_iff.mpr ⟨p.purpose, Json.optional_eq_ok ?_ fun s _ => hstring s,
    bind_eq_ok_iff.mpr ⟨p.value, Json.optional_eq_ok ?_ fun s _ => hstring s,
    bind_eq_ok_iff.mpr ⟨p.embedded, Json.optional_eq_ok ?_ fun e _ => read_embedded e,
      ?_⟩⟩⟩⟩⟩⟩⟩
  case refine_7 =>
    have hrest := Json.ofList_beside p.keys_knownMembers_sublist nodup_knownKeys h.extra
    rw [hrest]
    rfl
  all_goals
    refine (hget _ (by simp [knownKeys, valueKey])).trans ?_
    simp only [knownMembers, valueKey, Json.get?_some_cons, Json.get?_present_cons,
      List.filterMap_nil, Keyed.get?_nil, Option.or_none, String.reduceEq, reduceIte]

/-! ### What is decoded -/

variable {j : Json} {p : Proof} {key : String}

/-- A proof is decoded from an object, and keeps the members without a meaning of their own. -/
theorem extra_of_ofJson (h : ofJson j = .ok p) :
    ∃ ms, j = .object ms ∧ p.extra = KeyMap.ofList (ms.filter fun m => !knownKeys.contains m.1) ∧
      Json.optional (Json.decodeOption VerificationMethod.ofJson) none "verificationMethod" ms =
        .ok p.method := by
  cases j with
  | object ms =>
    obtain ⟨-, -, h⟩ := bind_eq_ok_iff.mp h
    obtain ⟨type, -, h⟩ := bind_eq_ok_iff.mp h
    obtain ⟨created, -, h⟩ := bind_eq_ok_iff.mp h
    obtain ⟨method, hmethod, h⟩ := bind_eq_ok_iff.mp h
    obtain ⟨purpose, -, h⟩ := bind_eq_ok_iff.mp h
    obtain ⟨value, -, h⟩ := bind_eq_ok_iff.mp h
    obtain ⟨embedded, -, h⟩ := bind_eq_ok_iff.mp h
    obtain rfl := pure_eq_ok_iff.mp h
    exact ⟨ms, rfl, rfl, hmethod⟩
  | _ => cases h

/-- **What is decoded can be written** so that it is read back. -/
theorem isWire_of_ofJson (h : ofJson j = .ok p) : p.IsWire := by
  obtain ⟨ms, -, hextra, hmethod⟩ := extra_of_ofJson h
  refine ⟨fun key hkey => ?_, fun m hm => ?_⟩
  · have hknown : (!knownKeys.contains key) = false := by simp [hkey]
    rw [hextra]
    exact KeyMap.get?_ofList_filter (fun key => !knownKeys.contains key) hknown ms
  · rw [hm, Json.optional] at hmethod
    split at hmethod
    · exact VerificationMethod.isWire_of_decodeOption hmethod
    · cases hmethod

/-- Under a key without a meaning of its own the written form has what stands beside the rest. -/
theorem get?_toJson_of_unknown (hkey : key ∉ knownKeys) :
    p.toJson.get? key = p.extra.get? key := by
  have hnone : Keyed.get? p.knownMembers key = none :=
    Keyed.get?_eq_none_iff.mpr fun hmem => hkey (p.keys_knownMembers_sublist.subset hmem)
  rw [get?_toJson, hnone, Option.or_none]

/-- **The members that a proof does not know are kept** through decoding and writing. -/
theorem get?_toJson_of_ofJson (hj : j.Sorted) (h : ofJson j = .ok p) (hkey : key ∉ knownKeys) :
    p.toJson.get? key = j.get? key := by
  rw [get?_toJson_of_unknown hkey]
  obtain ⟨ms, rfl, hextra, -⟩ := extra_of_ofJson h
  have hms : Keyed.Increasing (ms.filter fun m => !knownKeys.contains m.1) :=
    (Json.sorted_object hj).1.filter _
  rw [hextra]
  refine (Keyed.get?_ofList_of_nodup (Keyed.nodup_keys hms) key).trans ?_
  rw [Keyed.get?_filter fun k => !knownKeys.contains k, if_pos (by simp [hkey])]
  rfl

/-- **Proofs and their JSON forms.** A proof whose members have keys of their own is read back from
its JSON form, and from the text of this form where its numbers are integers and its depth is one
that can be read. And what a JSON value decodes to is written with each member of the value that is
not known as it was, and read back. -/
theorem wire_round_trip :
    (∀ p : Proof, p.IsWire → ofJson p.toJson = .ok p ∧
      (p.toJson.Sorted → p.toJson.IsWhole → p.toJson.depth ≤ Json.maxDepth →
        (Json.read? p.toJson.compact).map ofJson = some (.ok p))) ∧
    ∀ (d : Document) (p : Proof), ofJson d.json = .ok p →
      (∀ key, key ∉ knownKeys → p.toJson.get? key = d.json.get? key) ∧ ofJson p.toJson = .ok p := by
  constructor
  · intro p hp
    have hread := ofJson_toJson hp
    refine ⟨hread, fun hsorted hwhole hdepth => ?_⟩
    rw [Json.read?_compact hwhole hdepth, Json.arranged_of_sorted hsorted, Option.map_some, hread]
  · intro d p h
    exact ⟨fun key hkey => get?_toJson_of_ofJson d.sorted h hkey, ofJson_toJson (isWire_of_ofJson h)⟩

/-- A proof with a method that is an object, a context and a member that is not known. -/
def described : Proof where
  type := suiteType
  created := some "2024-05-01T00:00:00Z"
  method := some (.described (some "did:ethr:0x1")
    (KeyMap.ofList [("controller", .string "did:ethr:0x1")]))
  purpose := some "assertionMethod"
  value := some "0x"
  embedded := some {
    domain := { Domain.empty with name := some "App", chainId := some 1 }
    schema := .inline (KeyMap.ofList [("Mail", [⟨"contents", "string"⟩])])
    primaryType := "Mail" }
  extra := KeyMap.ofList [("challenge", .string "c")]

/-- An object with a chain identifier that is a text, a schema by reference and a member that is not
known. -/
def referring : Document where
  json := .object [("created", .null),
    ("eip712Domain", .object [("domain", .object [("chainId", .string "0x1")]),
      ("messageSchema", .string "urn:mail"), ("primaryType", .string "Mail")]),
    ("nonce", .ofNat 7), ("type", .string suiteType)]
  sorted := by decide +kernel

theorem wire_round_trip_sample :
    described.IsWire ∧ (Json.read? described.toJson.compact).map ofJson = some (.ok described) ∧
    ∃ p : Proof, ofJson referring.json = .ok p ∧ p.toJson.get? "nonce" = some (.ofNat 7) ∧
      ofJson p.toJson = .ok p := by
  have hwire : described.IsWire := by
    refine ⟨by decide, fun m hm => ?_⟩
    obtain rfl := Option.some.inj hm
    show (KeyMap.ofList [("controller", Json.string "did:ethr:0x1")]).get? "id" = none
    decide +kernel
  have hsorted : described.toJson.Sorted := by decide +kernel
  have hwhole : described.toJson.IsWhole := Json.firstDouble?_eq_none_iff.mp (by decide +kernel)
  have hread : ofJson referring.json = .ok ⟨suiteType, none, none, none, none,
      some ⟨{ Domain.empty with chainId := some 1 }, .remote "urn:mail", "Mail"⟩,
      KeyMap.ofList [("nonce", .ofNat 7)]⟩ := by decide +kernel
  obtain ⟨hkept, hagain⟩ := wire_round_trip.2 referring _ hread
  refine ⟨hwire, (wire_round_trip.1 described hwire).2 hsorted hwhole (by decide +kernel), _, hread,
    (hkept "nonce" (by decide)).trans (by decide +kernel), hagain⟩

end Proof

end DocumentProof
