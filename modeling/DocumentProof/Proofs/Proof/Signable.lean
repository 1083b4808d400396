import DocumentProof.Proofs.Json.Canonical
import DocumentProof.Proofs.Proof.RoundTrip
import DocumentProof.Proofs.Schema.Reserved

/-!
# Which documents can be signed

A suite that holds a wallet makes a proof of a document under its derived schema exactly when no
object in the document gets the reserved name of domains (`create_derived_iff`). Nothing else stands
in the way: the canonical texts exist since all numbers are integers (`exists_make`), and the hash
exists since the schema is the whole derived one. The derivation accepts an object of the reserved
name, but typed data drops its struct, so that the proof fails (`create_reserved_fails`).
-/

namespace DocumentProof

/-! ## Canonical texts -/

theorem Domain.whole_toJson (d : Domain) : d.toJson.IsWhole := by
  refine Json.whole_ofMembers fun m hm => ?_
  simp only [List.mem_filterMap, List.mem_cons, List.not_mem_nil, or_false, id,
    exists_eq_right] at hm
  rcases hm with hm | hm | hm | hm | hm
  all_goals
    obtain ⟨x, -, rfl⟩ := Option.map_eq_some_iff.mp hm.symm
    dsimp only
  · exact Json.whole_string x
  · exact Json.whole_string x
  · exact Json.whole_ofNat x.toNat
  · exact Json.whole_string _
  · exact Json.whole_string _

theorem Field.whole_toJson (f : Field) : f.toJson.IsWhole := by
  refine Json.whole_ofMembers fun m hm => ?_
  rcases List.mem_pair.mp hm with rfl | rfl
  · exact Json.whole_string f.name
  · exact Json.whole_string f.typeName

theorem TypeSchema.whole_toJson (types : TypeSchema) : types.toJson.IsWhole := by
  refine Json.whole_object_iff.mpr fun m hm => ?_
  obtain ⟨e, -, rfl⟩ := List.mem_map.mp hm
  refine Json.whole_array_iff.mpr fun x hx => ?_
  obtain ⟨f, -, rfl⟩ := List.mem_map.mp hx
  exact f.whole_toJson

/-- **Typed data has a canonical text if its message has one.** -/
theorem TypedData.whole_toJson {t : TypedData} (h : t.message.IsWhole) : t.toJson.IsWhole := by
  refine Json.whole_ofMembers fun m hm => ?_
  simp only [List.mem_cons, List.not_mem_nil, or_false] at hm
  rcases hm with rfl | rfl | rfl | rfl
  · exact t.domain.whole_toJson
  · exact t.types.whole_toJson
  · exact Json.whole_string t.primaryType
  · exact h

/-- **A proof without its context has a canonical text** if its method and its members without a
meaning of their own have one. -/
theorem Proof.whole_withoutContext {p : Proof} (hm : ∀ m, p.method = some m → m.toJson.IsWhole)
    (hx : ∀ e ∈ p.extra.entries, e.2.IsWhole) : p.withoutContext.toJson.IsWhole := by
  refine Json.whole_ofMembers fun m h => ?_
  rcases List.mem_append.mp h with h | h
  · simp only [Proof.knownMembers, Proof.withoutContext, List.mem_filterMap, List.mem_cons,
      List.not_mem_nil, or_false, id, exists_eq_right, Option.map_none, reduceCtorEq,
      Option.some.injEq] at h
    rcases h with rfl | h | h | h | h
    · exact Json.whole_string p.type
    · obtain ⟨s, -, rfl⟩ := Option.map_eq_some_iff.mp h.symm
      exact Json.whole_string s
    · obtain ⟨method, hmethod, rfl⟩ := Option.map_eq_some_iff.mp h.symm
      exact hm method hmethod
    · obtain ⟨s, -, rfl⟩ := Option.map_eq_some_iff.mp h.symm
      exact Json.whole_string s
    · obtain ⟨s, -, rfl⟩ := Option.map_eq_some_iff.mp h.symm
      exact Json.whole_string s
  · exact hx m h

namespace StandardPurpose

/-- A purpose marks a proof with texts. -/
theorem whole_extra_update (p : StandardPurpose) {proof : Proof}
    (h : ∀ e ∈ proof.extra.entries, e.2.IsWhole) :
    ∀ e ∈ (p.update proof).extra.entries, e.2.IsWhole := by
  have hput : ∀ (ms : List (String × String)) (extra : KeyMap Json),
      (∀ e ∈ extra.entries, e.2.IsWhole) →
      ∀ e ∈ (ms.foldl (fun extra m => extra.put m.1 (.string m.2)) extra).entries, e.2.IsWhole := by
    intro ms
    induction ms with
    | nil => exact fun _ hextra => hextra
    | cons m ms ih =>
      intro extra hextra
      refine ih _ fun e he => ?_
      rcases Keyed.mem_put he with rfl | he
      · exact Json.whole_string m.2
      · exact hextra e he
  exact hput p.members proof.extra h

end StandardPurpose

namespace Suite

variable {s : Suite} {now : Timestamp} {d : Json} {o : CreateOptions} {p : StandardPurpose}

/-! ## Before the signature -/

/-- A date and a method that can be read give a proof to sign. -/
theorem exists_unsigned (s : Suite) (now : Timestamp) (d : Json) (hp : o.purpose = p.toPurpose)
    (hdate : ∀ date, o.date = some date → ∃ t, date.timestamp = .ok t)
    (hmethod : ∀ text, o.method = some text → ∃ id, MethodId.ofText text = .ok id) :
    ∃ bare, s.unsigned now d o = .ok bare ∧ bare.withoutContext.toJson.IsWhole := by
  have hcreated : ∃ created, s.created now o.date = .ok created := by
    unfold created
    cases ho : o.date with
    | none => cases s.date <;> exact ⟨_, rfl⟩
    | some date =>
      obtain ⟨t, ht⟩ := hdate date ho
      exact ⟨t.toText, mapError_eq_ok_iff.mpr (bind_eq_ok_iff.mpr ⟨t, ht, rfl⟩)⟩
  have hfor : ∃ method, s.methodFor o.method = .ok method := by
    unfold methodFor
    cases ho : o.method with
    | none => exact ⟨_, rfl⟩
    | some text =>
      obtain ⟨id, hid⟩ := hmethod text ho
      simp only [hid]
      exact ⟨some id, rfl⟩
  obtain ⟨created, hcreated⟩ := hcreated
  obtain ⟨method, hfor⟩ := hfor
  refine ⟨_, bind_eq_ok_iff.mpr ⟨created, hcreated, bind_eq_ok_iff.mpr ⟨method, hfor, rfl⟩⟩, ?_⟩
  rw [hp]
  refine Proof.whole_withoutContext (fun m hm => ?_) (p.whole_extra_update (List.forall_mem_nil _))
  obtain ⟨id, -, rfl⟩ := Option.map_eq_some_iff.mp hm
  exact Json.whole_string id.text

/-- The data to sign exists if the document and the proof have canonical texts. -/
theorem exists_make {bare : Proof} (hbare : bare.withoutContext.toJson.IsWhole) (hd : d.IsWhole)
    (domain : Domain) (types : TypeSchema) (primaryType : String) :
    ∃ data, VerifyData.make d bare domain types primaryType = .ok data := by
  obtain ⟨proofText, hproof⟩ := Json.exists_canonicalWithout hbare Proof.valueKey
  have hwhole : (TypedData.make domain types primaryType d).toJson.IsWhole :=
    TypedData.whole_toJson hd
  obtain ⟨envelopeText, henvelope⟩ := Json.exists_canonical_iff.mpr hwhole
  exact ⟨_, bind_eq_ok_iff.mpr ⟨proofText, mapError_eq_ok_iff.mpr hproof, bind_eq_ok_iff.mpr
    ⟨envelopeText, mapError_eq_ok_iff.mpr henvelope, rfl⟩⟩⟩

/-- What can be signed under one proof can be signed under every proof with a canonical text. -/
theorem exists_make_of_make {bare other : Proof} {domain : Domain} {types : TypeSchema}
    {primaryType : String} {data : VerifyData} (hother : other.withoutContext.toJson.IsWhole)
    (h : VerifyData.make d bare domain types primaryType = .ok data) :
    ∃ data', VerifyData.make d other domain types primaryType = .ok data' ∧
      data'.typedData = data.typedData := by
  obtain ⟨_, -, h⟩ := bind_eq_ok_iff.mp h
  obtain ⟨envelopeText, henvelope, h⟩ := bind_eq_ok_iff.mp h
  obtain ⟨proofText, hproof⟩ := Json.exists_canonicalWithout hother Proof.valueKey
  cases h
  exact ⟨_, bind_eq_ok_iff.mpr ⟨proofText, mapError_eq_ok_iff.mpr hproof, bind_eq_ok_iff.mpr
    ⟨envelopeText, henvelope, rfl⟩⟩, rfl⟩

theorem typedData_of_make {bare : Proof} {domain : Domain} {types : TypeSchema}
    {primaryType : String} {data : VerifyData}
    (h : VerifyData.make d bare domain types primaryType = .ok data) :
    data.typedData = TypedData.make domain types primaryType d := by
  obtain ⟨_, -, h⟩ := bind_eq_ok_iff.mp h
  obtain ⟨_, -, h⟩ := bind_eq_ok_iff.mp h
  cases h
  rfl

theorem whole_of_unsigned_numbers (h : ∀ n ∈ d.numbers, Derive.IsUnsigned n) : d.IsWhole := by
  rintro n hn x rfl
  obtain ⟨k, hk⟩ := h _ hn
  cases hk

theorem structHash_make (domain : Domain) (types : TypeSchema) (primaryType : String) (d : Json) :
    (TypedData.make domain types primaryType d).structHash =
      TypeSchema.hashStruct (types.remove Domain.typeName) primaryType d := by
  have htwice : (types.remove Domain.typeName).remove Domain.typeName =
      types.remove Domain.typeName := by
    refine KeyMap.remove_of_get?_eq_none ?_
    rw [KeyMap.get?_remove, if_pos rfl]
  unfold TypedData.make TypedData.structHash TypedData.messageTypes
  rw [htwice]

/-! ## The signature -/

section Signing

variable [Ecdsa] {w : Wallet}

/-- A wallet whose curve signs every digest signs what has a hash. -/
theorem exists_sign_iff (hsign : ∀ digest, ∃ signature, Ecdsa.sign? w.key digest = some signature)
    {t : TypedData} : (∃ text, w.sign t = .ok text) ↔ ∃ hash, t.structHash = .ok hash := by
  unfold Wallet.sign TypedData.signingHash
  simp only [bind_eq_ok_iff, pure_eq_ok_iff]
  constructor
  · rintro ⟨-, -, ⟨hash, hhash, -⟩, -⟩
    exact ⟨hash, hhash⟩
  · rintro ⟨hash, hhash⟩
    obtain ⟨signature, hs⟩ := hsign (signingHashOf t.domain.separator hash)
    refine ⟨signature.toText, _, ⟨hash, hhash, rfl⟩, ?_⟩
    unfold Wallet.signHash
    rw [hs]

/-- Without a hash there is no proof. -/
theorem create_eq_error {bare : Proof} {types : TypeSchema} {data : VerifyData} {e : CryptoError}
    (hbare : s.unsigned now d o = .ok bare) (htypes : typesFor d o.types = .ok types)
    (hdata : VerifyData.make d bare (o.domain.getD Domain.empty) types
      (o.primaryType.getD Derive.rootType) = .ok data)
    (hsigner : s.signer = some w.signer) (hhash : data.typedData.structHash = .error e) :
    s.create now d o = .error (.crypto e) := by
  have hsign : w.signer.sign data.typedData = .error e := by
    show w.sign data.typedData = .error e
    unfold Wallet.sign TypedData.signingHash
    rw [hhash]
    rfl
  have hfails : s.sign data bare = .error (.crypto e) := by
    unfold sign
    rw [hsigner]
    simp only [hsign]
    rfl
  unfold create createWithData
  rw [hbare]
  simp only [htypes, hdata, hfails, bind, Except.bind]

/-- A proof under the derived schema is made exactly when no node has the reserved name of
domains. -/
theorem createWithData_derived_iff {d : Document} {types : TypeSchema}
    (htypes : deriveTypes d.json = .ok types)
    (hnumbers : ∀ n ∈ d.json.numbers, ∃ k : UInt64, n.toNat? = some k.toNat)
    (hsigner : s.signer = some w.signer)
    (hsign : ∀ digest, ∃ signature, Ecdsa.sign? w.key digest = some signature)
    (hp : o.purpose = p.toPurpose) (hot : o.types = none) (hop : o.primaryType = none)
    (hdate : ∀ date, o.date = some date → ∃ t, date.timestamp = .ok t)
    (hmethod : ∀ text, o.method = some text → ∃ id, MethodId.ofText text = .ok id) :
    (∃ proof data, s.createWithData now d.json o = .ok (proof, data)) ↔
      ∀ ms, (some Domain.typeName, ms) ∉ Derive.nodes d.json := by
  have htypesFor : typesFor d.json o.types = .ok types := by
    rw [hot]
    exact mapError_eq_ok_iff.mpr htypes
  have hprimary : o.primaryType.getD Derive.rootType = Derive.rootType := by
    rw [hop]
    rfl
  have hhash : ∀ data : VerifyData, data.typedData = TypedData.make (o.domain.getD Domain.empty) types
      Derive.rootType d.json → ((∃ text, w.sign data.typedData = .ok text) ↔
        ∀ ms, (some Domain.typeName, ms) ∉ Derive.nodes d.json) := by
    intro data hdata
    rw [exists_sign_iff hsign, hdata, structHash_make, Derive.exists_hash_remove_iff htypes]
    exact and_iff_left hnumbers
  simp only [createWithData_eq_ok_iff, hprimary]
  constructor
  · rintro ⟨proof, data, bare, types', signer, value, -, htypes', hdata, hsigner', hvalue, -⟩
    obtain rfl : types = types' := Except.ok.inj (htypesFor.symm.trans htypes')
    obtain rfl : w.signer = signer := Option.some.inj (hsigner.symm.trans hsigner')
    exact (hhash data (typedData_of_make hdata)).mp ⟨value, hvalue⟩
  · intro hnone
    obtain ⟨bare, hbare, hwhole⟩ := exists_unsigned s now d.json hp hdate hmethod
    obtain ⟨data, hdata⟩ := exists_make hwhole (whole_of_unsigned_numbers hnumbers)
      (o.domain.getD Domain.empty) types Derive.rootType
    obtain ⟨value, hvalue⟩ := (hhash data (typedData_of_make hdata)).mpr hnone
    exact ⟨_, data, bare, types, w.signer, value, hbare, htypesFor, hdata, hsigner, hvalue, rfl⟩

/-- **A document whose schema is derived can be signed** exactly when none of its nodes has the
reserved name of domains. This is for every suite with a wallet and for any domain, standard purpose
and date that can be read; numbers have to be words without a sign, and the curve to sign every
digest. -/
theorem create_derived_iff {d : Document} {types : TypeSchema}
    (htypes : deriveTypes d.json = .ok types)
    (hnumbers : ∀ n ∈ d.json.numbers, ∃ k : UInt64, n.toNat? = some k.toNat)
    (hsigner : s.signer = some w.signer)
    (hsign : ∀ digest, ∃ signature, Ecdsa.sign? w.key digest = some signature)
    (hp : o.purpose = p.toPurpose) (hot : o.types = none) (hop : o.primaryType = none)
    (hdate : ∀ date, o.date = some date → ∃ t, date.timestamp = .ok t)
    (hmethod : ∀ text, o.method = some text → ∃ id, MethodId.ofText text = .ok id) :
    (∃ proof, s.create now d.json o = .ok proof) ↔
      ∀ ms, (some Domain.typeName, ms) ∉ Derive.nodes d.json := by
  simp only [create_eq_ok_iff]
  exact createWithData_derived_iff htypes hnumbers hsigner hsign hp hot hop hdate hmethod

end Signing

theorem exists_sign_unit (digest : Word) :
    ∃ signature, @Ecdsa.sign? unitCurve unitWallet.key digest = some signature := ⟨_, rfl⟩

theorem notMem_nodes_sample (ms : Members) :
    (some Domain.typeName, ms) ∉ Derive.nodes (Derive.sample 2).json := by
  intro hms
  have hname : some Domain.typeName ∈ (Derive.nodes (Derive.sample 2).json).map (·.1) :=
    List.mem_map.mpr ⟨_, hms, rfl⟩
  exact absurd hname (by decide)

theorem create_derived_sample : ∃ proof,
    unitSuite.create ⟨0, by decide, by decide⟩ (Derive.sample 2).json unitOptions = .ok proof := by
  exact (@create_derived_iff unitSuite _ unitOptions _ unitCurve unitWallet (Derive.sample 2) _ rfl
    Derive.isUnsigned_of_mem_sample rfl exists_sign_unit rfl rfl rfl
    (fun _ h => by cases h) (fun _ h => by cases h)).mpr notMem_nodes_sample

/-- A document with an object under the reserved name of domains. -/
def reserved : Json := .object [("EIP712Domain", .object [("a", Json.ofNat 1)])]

/-- Its derived schema. -/
def reservedTypes : TypeSchema :=
  KeyMap.ofList [("Document", [⟨"EIP712Domain", "EIP712Domain"⟩]),
    ("EIP712Domain", [⟨"a", "uint256"⟩])]

theorem create_reserved_fails :
    deriveTypes reserved = .ok reservedTypes ∧
    (∀ n ∈ reserved.numbers, ∃ k : UInt64, n.toNat? = some k.toNat) ∧
    unitSuite.signer = some (@Wallet.signer unitCurve unitWallet) ∧
    (∀ digest, ∃ signature, @Ecdsa.sign? unitCurve unitWallet.key digest = some signature) ∧
    unitOptions.types = none ∧ unitOptions.primaryType = none ∧
    unitSuite.create ⟨0, by decide, by decide⟩ reserved unitOptions =
      .error (.crypto (.unknownType "EIP712Domain")) := by
  have htypes : deriveTypes reserved = .ok reservedTypes := by decide +kernel
  have hnumbers : ∀ n ∈ reserved.numbers, ∃ k : UInt64, n.toNat? = some k.toNat := by
    intro n hn
    rw [List.mem_singleton.mp hn]
    exact ⟨1, rfl⟩
  refine ⟨htypes, hnumbers, rfl, exists_sign_unit, rfl, rfl, ?_⟩
  obtain ⟨bare, hbare, hwhole⟩ := @exists_unsigned unitOptions _ unitSuite ⟨0, by decide, by decide⟩
    reserved rfl (fun _ h => by cases h) (fun _ h => by cases h)
  obtain ⟨data, hdata⟩ := exists_make hwhole (whole_of_unsigned_numbers hnumbers) Domain.empty
    reservedTypes Derive.rootType
  have hhash : TypeSchema.hashStruct (KeyMap.remove reservedTypes Domain.typeName) Derive.rootType
      reserved = .error (.unknownType "EIP712Domain") := by decide +kernel
  have htypesFor : typesFor reserved unitOptions.types = .ok reservedTypes :=
    (mapError_eq_ok_iff (g := SuiteError.schema)).mpr htypes
  refine @create_eq_error unitSuite _ _ unitOptions unitCurve unitWallet _ _ _ _ hbare htypesFor
    hdata rfl ?_
  rw [typedData_of_make hdata, structHash_make, hhash]

end Suite

end DocumentProof
