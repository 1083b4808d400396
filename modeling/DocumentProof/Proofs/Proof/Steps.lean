import DocumentProof.Proof.Suite
import DocumentProof.Proofs.Outcome

/-!
# The steps of making and checking a proof

When a suite makes a proof, which one it is and which data is signed (`createWithData_eq_ok_iff`),
when a check gives an account (`check_eq_ok_iff`), and
what an outcome tells of the check.
-/

namespace DocumentProof

namespace MethodId

/-- An identifier is what its text is read as. -/
theorem ofText_text (id : MethodId) : ofText id.text = .ok id := dif_pos ((isValid_iff _).mpr id.valid)

theorem text_of_ofText {text : String} {id : MethodId} (h : ofText text = .ok id) : id.text = text := by
  unfold ofText at h
  split at h
  · cases h
    rfl
  · cases h

end MethodId

namespace Suite

variable {s : Suite} {now : Timestamp} {document : Json} {o : CreateOptions} {v : VerifyOptions}
  {proof : Proof} {data : VerifyData} {account : String}

/-! ## Making -/

/-- A proof `bare` with the signature, and with the context if it is to be embedded. -/
def completed (o : CreateOptions) (types : TypeSchema) (bare : Proof) (value : String) : Proof :=
  { bare with
    value := some value
    embedded := if o.embed then
        some ⟨o.domain.getD Domain.empty, .inline types, o.primaryType.getD Derive.rootType⟩
      else bare.embedded }

theorem value_completed (o : CreateOptions) (types : TypeSchema) (bare : Proof) (value : String) :
    (completed o types bare value).value = some value := rfl

theorem embedded_completed (o : CreateOptions) (types : TypeSchema) (bare : Proof)
    (value : String) : (completed o types bare value).embedded = if o.embed then
      some ⟨o.domain.getD Domain.empty, .inline types, o.primaryType.getD Derive.rootType⟩
    else bare.embedded := rfl

theorem sign_eq_ok_iff {bare : Proof} : s.sign data bare = .ok proof ↔
    ∃ signer value, s.signer = some signer ∧ signer.sign data.typedData = .ok value ∧
      { bare with value := some value } = proof := by
  unfold sign
  cases s.signer with
  | none => simp
  | some signer =>
    simp only [bind_eq_ok_iff, mapError_eq_ok_iff, pure_eq_ok_iff, Option.some.injEq,
      exists_and_left, exists_eq_left']

/-- **The steps of making a proof.** -/
theorem createWithData_eq_ok_iff : s.createWithData now document o = .ok (proof, data) ↔
    ∃ bare types signer value, s.unsigned now document o = .ok bare ∧
      typesFor document o.types = .ok types ∧
      VerifyData.make document bare (o.domain.getD Domain.empty) types
        (o.primaryType.getD Derive.rootType) = .ok data ∧
      s.signer = some signer ∧ signer.sign data.typedData = .ok value ∧
      completed o types bare value = proof := by
  simp only [createWithData, bind_eq_ok_iff, pure_eq_ok_iff, sign_eq_ok_iff, Prod.mk.injEq]
  constructor
  · rintro ⟨bare, hbare, types, htypes, data', hdata, _, ⟨signer, value, hs, hv, rfl⟩, hproof, rfl⟩
    refine ⟨bare, types, signer, value, hbare, htypes, hdata, hs, hv, ?_⟩
    rw [← hproof]
    unfold completed
    split <;> rfl
  · rintro ⟨bare, types, signer, value, hbare, htypes, hdata, hs, hv, rfl⟩
    refine ⟨bare, hbare, types, htypes, data, hdata, _, ⟨signer, value, hs, hv, rfl⟩, ?_, rfl⟩
    unfold completed
    split <;> rfl

theorem create_eq_ok_iff : s.create now document o = .ok proof ↔
    ∃ data, s.createWithData now document o = .ok (proof, data) := by
  simp only [create, bind_eq_ok_iff, pure_eq_ok_iff, Prod.exists]
  constructor
  · rintro ⟨_, data, h, rfl⟩
    exact ⟨data, h⟩
  · rintro ⟨data, h⟩
    exact ⟨proof, data, h, rfl⟩

/-! ## Checking -/

theorem verifySignature_eq_ok_iff {t : TypedData} {signature method : String} :
    s.verifySignature t signature method = .ok account ↔
      ∃ id, MethodId.ofText method = .ok id ∧ s.recoverer t signature = .ok account ∧
        accountsMatch account id.bareAddress = true := by
  simp only [verifySignature, bind_eq_ok_iff, mapError_eq_ok_iff]
  refine exists_congr fun id => and_congr_right fun _ => ?_
  constructor
  · rintro ⟨recovered, hrecovered, h⟩
    split at h
    · next hmatch =>
      cases h
      exact ⟨hrecovered, hmatch⟩
    · cases h
  · rintro ⟨hrecovered, hmatch⟩
    exact ⟨account, hrecovered, if_pos hmatch⟩

/-- **The steps of checking a proof.** -/
theorem check_eq_ok_iff : s.check proof document v = .ok account ↔
    proof.type = Proof.suiteType ∧ ∃ signature method data, proof.value = some signature ∧
      proof.methodId? = some method ∧ rebuild proof document v = .ok data ∧
      s.verifySignature data.typedData signature method = .ok account ∧
      v.purpose.accepts proof.withoutValue document = .ok () := by
  unfold check
  split_ifs with htype
  · exact ⟨nofun, fun h => absurd h.1 htype⟩
  rw [and_iff_right (not_not.mp htype)]
  rcases proof.value with _ | signature
  · exact ⟨nofun, fun ⟨_, _, _, h, _⟩ => (nomatch h)⟩
  rcases proof.methodId? with _ | method
  · exact ⟨nofun, fun ⟨_, _, _, _, h, _⟩ => (nomatch h)⟩
  simp only [bind_eq_ok_iff, pure_eq_ok_iff, Option.some.injEq]
  constructor
  · rintro ⟨data, hdata, recovered, hrecovered, _, haccepts, rfl⟩
    exact ⟨signature, method, data, rfl, rfl, hdata, hrecovered, haccepts⟩
  · rintro ⟨_, _, data, rfl, rfl, hdata, hrecovered, haccepts⟩
    exact ⟨data, hdata, account, hrecovered, (), haccepts, rfl⟩

/-! ## Outcomes -/

theorem verified_iff : (s.verify proof document v).verified = true ↔
    ∃ account, s.check proof document v = .ok account := by
  unfold verify
  cases s.check proof document v with
  | ok account => exact iff_of_true rfl ⟨account, rfl⟩
  | error e => cases e <;> simp [Verification.ofResult]

theorem error_eq_some_iff {e : SuiteError} :
    (s.verify proof document v).error = some e ↔ s.check proof document v = .error e := by
  unfold verify
  cases s.check proof document v with
  | ok account => simp [Verification.ofResult]
  | error e' => cases e' <;> simp [Verification.ofResult]

/-- An account is shown if the proof holds, or if it is not the one that the proof names. -/
theorem recovered_eq_some_iff : (s.verify proof document v).recovered = some account ↔
    s.check proof document v = .ok account ∨
      ∃ expected, s.check proof document v = .error (.signatureMismatch expected account) := by
  unfold verify
  cases s.check proof document v with
  | ok account => simp [Verification.ofResult]
  | error e => cases e <;> simp [Verification.ofResult]

end Suite

end DocumentProof
