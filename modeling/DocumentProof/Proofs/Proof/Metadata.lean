import DocumentProof.Proofs.Proof.Verdict
import DocumentProof.Proofs.Proof.Wire

/-!
# What the signature does not cover

Time, purpose, challenge and method of a proof are not signed. Of a proof, a check needs the type,
the method, the signature and the context; from the rest it only asks that all numbers are integers
(`Proof.whole_iff`), and a purpose marks a proof with texts. So a proof that holds still holds under
another time and another purpose, once it bears the marks of that purpose (`Suite.verify_update`).
On the other side, two proofs of one document by one wallet bear one signature, whoever they name
and whatever they are for. Both together are `Suite.metadata_unsigned`.
-/

namespace DocumentProof

/-! ## The members of a proof -/

namespace Proof

variable {p : Proof}

/-- Beside the context and the signature, only the method is more than a text. -/
theorem knownMembers_cases {key : String} {x : Json}
    (h : Keyed.get? p.withoutValue.withoutContext.knownMembers key = some x) :
    (∃ s, x = .string s) ∨ key = "verificationMethod" ∧ ∃ m, p.method = some m ∧ x = m.toJson := by
  have hmem := Keyed.mem_of_get? h
  simp only [knownMembers, withoutValue, withoutContext, List.mem_filterMap, List.mem_cons,
    List.not_mem_nil, or_false, id, exists_eq_right, Option.map_none, reduceCtorEq,
    Option.some.injEq, Prod.mk.injEq] at hmem
  rcases hmem with ⟨-, rfl⟩ | hmem | hmem | hmem
  · exact .inl ⟨_, rfl⟩
  · obtain ⟨s, -, hs⟩ := Option.map_eq_some_iff.mp hmem.symm
    exact .inl ⟨s, (Prod.mk.inj hs).2.symm⟩
  · obtain ⟨m, hm, hkey⟩ := Option.map_eq_some_iff.mp hmem.symm
    obtain ⟨hkey, hx⟩ := Prod.mk.inj hkey
    exact .inr ⟨hkey.symm, m, hm, hx.symm⟩
  · obtain ⟨s, -, hs⟩ := Option.map_eq_some_iff.mp hmem.symm
    exact .inl ⟨s, (Prod.mk.inj hs).2.symm⟩

/-- **The numbers of a proof stand in its method and in the members without a meaning of their
own.** -/
theorem whole_iff : p.IsWhole ↔
    (∀ key x, p.extra.get? key = some x → key ≠ valueKey → x.IsWhole) ∧
    (p.extra.get? "verificationMethod" = none → ∀ m, p.method = some m → m.toJson.IsWhole) := by
  have hextra : p.withoutValue.withoutContext.extra = p.extra := rfl
  simp only [IsWhole, get?_toJson, hextra]
  constructor
  · intro h
    constructor
    · intro key x hx hkey
      exact h key x (by rw [hx, Option.some_or]) hkey
    · intro hnone m hm
      refine h "verificationMethod" _ ?_ (by decide)
      rw [hnone, Option.none_or]
      simp only [knownMembers, withoutValue, withoutContext, hm, Json.get?_some_cons,
        Json.get?_present_cons, Option.map_some, String.reduceEq, reduceIte]
  · rintro ⟨hother, hmethod⟩ key x hx hkey
    rcases Option.or_eq_some_iff.mp hx with hx | ⟨hnone, hx⟩
    · exact hother key x hx hkey
    · rcases knownMembers_cases hx with ⟨s, rfl⟩ | ⟨rfl, m, hm, rfl⟩
      · exact Json.whole_string s
      · exact hmethod hnone m hm

end Proof

/-! ## Other metadata -/

variable {proof : Proof} {document : Json}

/-- Under each key of a marked proof is a text, or what was there before. -/
theorem StandardPurpose.get?_update (q : StandardPurpose) (key : String) :
    (∃ s, (q.update proof).extra.get? key = some (.string s)) ∨
      (q.update proof).extra.get? key = proof.extra.get? key := by
  by_cases hkey : key ∈ q.members.map (·.1)
  · obtain ⟨m, hm, rfl⟩ := List.mem_map.mp hkey
    exact .inl ⟨m.2, get?_putAll q.nodup_members m hm⟩
  · exact .inr (get?_putAll_of_notMem hkey)

/-- **Numbers that are integers stay so** under the marks of another purpose and another time. -/
theorem Proof.IsWhole.update (h : proof.IsWhole) (q : StandardPurpose) (created : Option String) :
    Proof.IsWhole { q.update proof with created := created } := by
  obtain ⟨hother, hmethod⟩ := whole_iff.mp h
  refine whole_iff.mpr ⟨fun key x hx hkey => ?_, fun hnone => hmethod ?_⟩
  · change (q.update proof).extra.get? key = some x at hx
    rcases q.get?_update key with ⟨s, hs⟩ | hsame
    · obtain rfl : Json.string s = x := Option.some.inj (hs.symm.trans hx)
      exact Json.whole_string s
    · exact hother key x (hsame.symm.trans hx) hkey
  · change (q.update proof).extra.get? "verificationMethod" = none at hnone
    rcases q.get?_update "verificationMethod" with ⟨s, hs⟩ | hsame
    · exact absurd (hs.symm.trans hnone) (by simp)
    · exact hsame.symm.trans hnone

namespace Suite

variable {s : Suite} {v : VerifyOptions} {id : MethodId} {account : String}

/-- What is recovered does not depend on time and purpose. -/
theorem Recovers.update (h : s.Recovers proof document v id account) (q : StandardPurpose)
    (created : Option String) : s.Recovers { q.update proof with created := created } document
      { v with purpose := q.toPurpose } id account := by
  obtain ⟨signature, types, hvalue, htypes, hrecovered⟩ := h.recovers
  have hsame : VerifyOptions.ChoosesTypes { v with purpose := q.toPurpose }
      { q.update proof with created := created } document types := by
    rw [← resolveTypes_eq_ok_iff] at htypes ⊢
    exact htypes
  exact ⟨h.type, h.method, h.document_whole, h.proof_whole.update q created,
    signature, types, hvalue, hsame, hrecovered⟩

/-- **A proof that holds for one purpose holds for every standard one,** at any time, once it bears
its marks. -/
theorem verify_update (h : (s.verify proof document v).verified = true) (q : StandardPurpose)
    (created : Option String) :
    s.verify { q.update proof with created := created } document { v with purpose := q.toPurpose } =
      s.verify proof document v := by
  obtain ⟨account, hcheck⟩ := verified_iff.mp h
  obtain ⟨id, hrecovers, hnames, -⟩ := check_iff.mp hcheck
  -- the marks put on by the purpose are those that it looks for
  have hcheck' : s.check { q.update proof with created := created } document
      { v with purpose := q.toPurpose } = .ok account :=
    check_iff.mpr ⟨id, hrecovers.update q created, hnames, q.accepts_of_update proof rfl rfl⟩
  unfold verify
  rw [hcheck, hcheck']
  rfl

/-- **A wallet signs one document in one way,** for any suite, time, method and purpose. -/
theorem value_eq_of_create [Ecdsa] {w : Wallet} {s₁ s₂ : Suite} {now₁ now₂ : Timestamp}
    {o₁ o₂ : CreateOptions} {p₁ p₂ : Proof} (hs₁ : s₁.signer = some w.signer)
    (hs₂ : s₂.signer = some w.signer)
    (hdomain : o₁.domain.getD Domain.empty = o₂.domain.getD Domain.empty)
    (htypes : typesFor document o₁.types = typesFor document o₂.types)
    (hname : o₁.primaryType.getD Derive.rootType = o₂.primaryType.getD Derive.rootType)
    (h₁ : s₁.create now₁ document o₁ = .ok p₁) (h₂ : s₂.create now₂ document o₂ = .ok p₂) :
    ∃ value, p₁.value = some value ∧ p₂.value = some value := by
  obtain ⟨data₁, h₁⟩ := create_eq_ok_iff.mp h₁
  obtain ⟨data₂, h₂⟩ := create_eq_ok_iff.mp h₂
  obtain ⟨bare₁, types₁, signer₁, value₁, -, ht₁, hd₁, hsigner₁, hv₁, rfl⟩ :=
    createWithData_eq_ok_iff.mp h₁
  obtain ⟨bare₂, types₂, signer₂, value₂, -, ht₂, hd₂, hsigner₂, hv₂, rfl⟩ :=
    createWithData_eq_ok_iff.mp h₂
  obtain rfl : types₁ = types₂ := Except.ok.inj (ht₁.symm.trans (htypes.trans ht₂))
  obtain rfl : w.signer = signer₁ := Option.some.inj (hs₁.symm.trans hsigner₁)
  obtain rfl : w.signer = signer₂ := Option.some.inj (hs₂.symm.trans hsigner₂)
  have hdata : data₁.typedData = data₂.typedData := by
    rw [typedData_of_make hd₁, typedData_of_make hd₂, hdomain, hname]
  rw [hdata] at hv₁
  obtain rfl : value₁ = value₂ := Except.ok.inj (hv₁.symm.trans hv₂)
  exact ⟨value₁, rfl, rfl⟩

/-- **Time and purpose of a proof are not signed.** A proof that holds, for any suite and any
purpose, has the same outcome at any other time and for any standard purpose, once it bears the
marks of it. Two proofs by one wallet of one document, under one domain, schema and name of the
struct, bear the same signature, whatever their times, methods and purposes. -/
theorem metadata_unsigned (document : Json) :
    (∀ (s : Suite) (proof : Proof) (v : VerifyOptions) (q : StandardPurpose)
      (created : Option String), (s.verify proof document v).verified = true →
      s.verify { q.update proof with created := created } document
        { v with purpose := q.toPurpose } = s.verify proof document v) ∧
    ∀ [Ecdsa] (w : Wallet) (s₁ s₂ : Suite) (now₁ now₂ : Timestamp) (o₁ o₂ : CreateOptions)
      (p₁ p₂ : Proof), s₁.signer = some w.signer → s₂.signer = some w.signer →
      o₁.domain.getD Domain.empty = o₂.domain.getD Domain.empty →
      typesFor document o₁.types = typesFor document o₂.types →
      o₁.primaryType.getD Derive.rootType = o₂.primaryType.getD Derive.rootType →
      s₁.create now₁ document o₁ = .ok p₁ → s₂.create now₂ document o₂ = .ok p₂ →
      ∃ value, p₁.value = some value ∧ p₂.value = some value :=
  ⟨fun _ _ _ q created h => verify_update h q created,
    fun _ _ _ _ _ _ _ _ _ hs₁ hs₂ hdomain htypes hname h₁ h₂ =>
      value_eq_of_create hs₁ hs₂ hdomain htypes hname h₁ h₂⟩

/-- An assertion by another method. -/
def assertionOptions : CreateOptions where
  purpose := StandardPurpose.assertion.toPurpose
  method := some "did:example:signer"
  date := none
  domain := none
  types := none
  primaryType := none
  embed := false

theorem metadata_unsigned_sample : ∃ p₁ p₂ value,
    unitSuite.create ⟨0, by decide, by decide⟩ (Derive.sample 2).json unitOptions = .ok p₁ ∧
    unitSuite.create ⟨1, by decide, by decide⟩ (Derive.sample 2).json assertionOptions = .ok p₂ ∧
    p₁.value = some value ∧ p₂.value = some value ∧
    (unitSuite.verify p₁ (Derive.sample 2).json (unitOptions.checking none)).verified = true ∧
    (unitSuite.verify { StandardPurpose.assertion.update p₁ with created := none }
      (Derive.sample 2).json
      { unitOptions.checking none with purpose := StandardPurpose.assertion.toPurpose }).verified
        = true := by
  obtain ⟨w, hw⟩ := (@Derive.exists_hash_iff _ (Derive.sample 2) rfl).mpr
    Derive.isUnsigned_of_mem_sample
  obtain ⟨p₁, data, h₁, hid⟩ : ∃ proof data,
      unitSuite.createWithData ⟨0, by decide, by decide⟩ (Derive.sample 2).json unitOptions
        = .ok (proof, data) ∧ proof.methodId? = some unitWallet.key.address.toMethodId.text := by
    exact ⟨_, _, createWithData_eq_ok_iff.mpr ⟨_, _, _, _, rfl, rfl, rfl, rfl,
      bind_eq_ok_iff.mpr ⟨_, bind_eq_ok_iff.mpr ⟨w, hw, rfl⟩, rfl⟩, rfl⟩, rfl⟩
  obtain ⟨p₂, data₂, h₂⟩ := (@createWithData_derived_iff unitSuite ⟨1, by decide, by decide⟩
    assertionOptions _ unitCurve unitWallet (Derive.sample 2) _ rfl
    Derive.isUnsigned_of_mem_sample rfl exists_sign_unit rfl rfl rfl
    (fun _ h => by cases h) (fun _ h => by cases h; exact ⟨_, rfl⟩)).mpr notMem_nodes_sample
  have hverified : (unitSuite.verify p₁ (Derive.sample 2).json
      (unitOptions.checking none)).verified = true := verified_iff.mpr ⟨_, @check_created unitSuite _ _ _ unitCurve unitWallet unitSuite _
        unitOptions _ data none rfl rfl rfl h₁ hid (Address.names_toMethodId _)
        fun digest _ => recoversKey_unit digest⟩
  obtain ⟨hupdate, hsign⟩ := metadata_unsigned (Derive.sample 2).json
  obtain ⟨value, hv₁, hv₂⟩ := @hsign unitCurve unitWallet unitSuite unitSuite _ _ unitOptions
    assertionOptions p₁ p₂ rfl rfl rfl rfl rfl (create_eq_ok_iff.mpr ⟨data, h₁⟩)
    (create_eq_ok_iff.mpr ⟨data₂, h₂⟩)
  refine ⟨p₁, p₂, value, create_eq_ok_iff.mpr ⟨data, h₁⟩, create_eq_ok_iff.mpr ⟨data₂, h₂⟩,
    hv₁, hv₂, hverified, ?_⟩
  rw [hupdate unitSuite p₁ _ .assertion none hverified]
  exact hverified

end Suite

end DocumentProof
