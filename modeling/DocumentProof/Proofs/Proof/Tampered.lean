import DocumentProof.Proofs.Proof.Embedded
import DocumentProof.Proofs.Proof.Verdict
import DocumentProof.Proofs.Wallet.Spelling

/-!
# Proofs with another signature

Of a proof that holds, the text of its signature is replaced. What is checked stays the same, so the
proof holds exactly if the recoverer gives an account for the new text that the method names
(`check_value_iff`). Where the recoverer is the curve's, the text has to spell a signature by the
account that was recovered before: the one that the wallet made, in any case and with or without the
27 in its last byte, or another one (`verified_value_iff`). The curve has more than one signature of
a digest by one account, so all three do occur (`verified_respelled`).
-/

namespace DocumentProof

/-! ## Signatures by an account -/

section Accounts

variable [Ecdsa] {s : Signature} {w : Wallet} {digest : Word} {account text : String}

/-- The curve recovers the account from the signature of the digest. -/
def Signature.IsBy (s : Signature) (digest : Word) (account : String) : Prop :=
  ∃ key a, Ecdsa.recover? s digest = some key ∧ key.address? = some a ∧ Address.toText a = account

/-- **An account is recovered from the texts that spell a signature by it.** -/
theorem recoverHash_eq_ok_iff : recoverHash digest text = .ok account ↔
    ∃ s : Signature, s.SpelledBy text ∧ s.IsBy digest account := by
  unfold recoverHash Signature.IsBy
  rw [bind_eq_ok_iff]
  refine exists_congr fun s => and_congr Signature.ofText_eq_ok_iff ?_
  constructor
  · intro h
    split at h
    · next a ha =>
      obtain ⟨key, hkey, ha⟩ := Option.bind_eq_some_iff.mp ha
      exact ⟨key, a, hkey, ha, pure_eq_ok_iff.mp h⟩
    · cases h
  · rintro ⟨key, a, hkey, ha, rfl⟩
    rw [hkey, Option.bind_some, ha]
    rfl

theorem exists_signature_of_sign {t : TypedData} (h : w.sign t = .ok text) :
    ∃ s : Signature, s.toText = text := by
  obtain ⟨digest, -, h⟩ := bind_eq_ok_iff.mp h
  unfold Wallet.signHash at h
  split at h
  · next s _ => exact ⟨s, Except.ok.inj h⟩
  · cases h

end Accounts

/-- An identifier names one account. -/
theorem MethodId.Names.unique {id : MethodId} {a b : Address} (ha : id.Names a.toText)
    (hb : id.Names b.toText) : a = b := Address.eq_of_lower_eq (ha.2.trans hb.2.symm)

namespace Suite

variable {s checker : Suite} {now : Timestamp} {document : Json} {o : CreateOptions}
  {v : VerifyOptions} {proof : Proof} {account : String}

/-- **What a check asks of another signature** in a proof that holds: an account that the method
names. -/
theorem check_value_iff (h : checker.check proof document v = .ok account) :
    ∃ (id : MethodId) (data : VerifyData) (signature : String), proof.value = some signature ∧
      rebuild proof document v = .ok data ∧
      checker.recoverer data.typedData signature = .ok account ∧ id.Names account ∧
      ∀ t other, checker.check { proof with value := some t } document v = .ok other ↔
        checker.recoverer data.typedData t = .ok other ∧ id.Names other := by
  obtain ⟨id, hrecovers, hnames, haccepts⟩ := check_iff.mp h
  obtain ⟨htype, signature, data, hvalue, hmethod, hdata, hrecovered⟩ := recovers_iff.mp hrecovers
  refine ⟨id, data, signature, hvalue, hdata, hrecovered, hnames, fun t other => ?_⟩
  have hdata' : rebuild { proof with value := some t } document v = .ok data := hdata
  rw [check_iff]
  constructor
  · rintro ⟨id', hrecovers', hnames', -⟩
    obtain ⟨-, _, data', ⟨⟩, hmethod', hmade, hrecovered'⟩ := recovers_iff.mp hrecovers'
    obtain rfl : id = id' := MethodId.eq_of_text_eq (Option.some.inj (hmethod.symm.trans hmethod'))
    obtain rfl : data = data' := Except.ok.inj (hdata'.symm.trans hmade)
    exact ⟨hrecovered', hnames'⟩
  · rintro ⟨hrecovered', hnames'⟩
    have hrecovers' : checker.Recovers { proof with value := some t } document v id other :=
      recovers_iff.mpr ⟨htype, t, data, rfl, hmethod, hdata', hrecovered'⟩
    exact ⟨id, hrecovers', hnames', haccepts⟩

/-- What a wallet makes bears the text of a signature. -/
theorem exists_signature_of_create [Ecdsa] {w : Wallet} (hsigner : s.signer = some w.signer)
    (h : s.create now document o = .ok proof) :
    ∃ signature : Signature, proof.value = some signature.toText := by
  obtain ⟨made, hmade⟩ := create_eq_ok_iff.mp h
  obtain ⟨bare, types, signer, text, -, -, -, hsigner', htext, rfl⟩ :=
    createWithData_eq_ok_iff.mp hmade
  obtain rfl : w.signer = signer := Option.some.inj (hsigner.symm.trans hsigner')
  obtain ⟨signature, rfl⟩ := exists_signature_of_sign htext
  exact ⟨signature, rfl⟩

/-- **Which signatures a proof holds with.** Let a proof that a wallet made hold. With another text
for its signature it holds exactly if the text spells the same signature, or another one from which
the curve recovers the same account for the same digest. -/
theorem verified_value_iff [Ecdsa] {w : Wallet} (hsigner : s.signer = some w.signer)
    (hrecover : checker.recoverer = recoverSigner) (h : s.create now document o = .ok proof)
    (hverified : (checker.verify proof document v).verified = true) :
    ∃ (signature : Signature) (data : VerifyData) (digest : Word) (account : String),
      proof.value = some signature.toText ∧ rebuild proof document v = .ok data ∧
      data.typedData.signingHash = .ok digest ∧
      (checker.verify proof document v).recovered = some account ∧ signature.IsBy digest account ∧
      ∀ t, (checker.verify { proof with value := some t } document v).verified = true ↔
        signature.SpelledBy t ∨
          ∃ other, other ≠ signature ∧ other.SpelledBy t ∧ other.IsBy digest account := by
  obtain ⟨account, hcheck⟩ := verified_iff.mp hverified
  obtain ⟨id, data, value, hvalue, hdata, hrecovered, hnames, hiff⟩ := check_value_iff hcheck
  obtain ⟨signature, hmade⟩ := exists_signature_of_create hsigner h
  obtain rfl : signature.toText = value := Option.some.inj (hmade.symm.trans hvalue)
  rw [hrecover] at hrecovered hiff
  obtain ⟨digest, hdigest, hrecovered⟩ := bind_eq_ok_iff.mp hrecovered
  have hrecoverer : ∀ t other, recoverSigner data.typedData t = .ok other ↔
      recoverHash digest t = .ok other := fun t other => by
    unfold recoverSigner
    rw [hdigest]
    rfl
  -- the text of the wallet's signature is read as this signature only
  obtain ⟨read, hread, hby⟩ := recoverHash_eq_ok_iff.mp hrecovered
  obtain rfl : read = signature :=
    Signature.eq_of_ofText_toText (Signature.ofText_eq_ok_iff.mpr hread)
  refine ⟨read, data, digest, account, hvalue, hdata, hdigest,
    recovered_eq_some_iff.mpr (.inl hcheck), hby, fun t => ?_⟩
  simp only [verified_iff, hiff, hrecoverer, recoverHash_eq_ok_iff]
  constructor
  · rintro ⟨other, ⟨spelled, hspelled, key, a, hkey, ha, rfl⟩, hother⟩
    by_cases heq : spelled = read
    · exact .inl (heq ▸ hspelled)
    · -- two accounts that one method names are equal
      obtain ⟨key', b, hkey', hb, rfl⟩ := hby
      obtain rfl : a = b := hother.unique hnames
      exact .inr ⟨spelled, heq, hspelled, key, a, hkey, ha, rfl⟩
  · rintro (hspelled | ⟨other, -, hspelled, hother⟩)
    · exact ⟨account, ⟨read, hspelled, hby⟩, hnames⟩
    · exact ⟨account, ⟨other, hspelled, hother⟩, hnames⟩

/-! ### Other texts for one signature -/

/-- The suite of the smallest key with the curve itself. -/
def curveSuite : Suite :=
  ⟨some unitWallet.signer, recoverSigner, some unitWallet.key.address.toMethodId, none⟩

/-- The digest of the document with the number 1. -/
def singleDigest : Word := 0x04662278b7f1faa4e19e950e6b58699a57914f4bf85abad63a90ca5e2474053a

/-- The signature that the wallet makes of it. -/
def singleSignature : Signature where
  r := ⟨106334585747903253822110408396067313562276784021818714381812863550118387178138,
    by decide, by decide⟩
  s := ⟨53992851779146642567736493832910237886876348337981912063357024009675867233423,
    by decide, by decide⟩
  odd := false
  reduced := false

/-- Another signature of it, with the nonce 2. -/
def otherSignature : Signature where
  r := ⟨89565891926547004231252920425935692360644145829622209833684329913297188986597,
    by decide, by decide⟩
  s := ⟨12118244800943822852774616582627816585335935122995213991554001532102594055825,
    by decide, by decide⟩
  odd := true
  reduced := false

theorem signingHash_single : (singleData (Json.ofNat 1)).signingHash = .ok singleDigest := by
  refine TypedData.signingHash_eq_ok_iff.mpr ⟨_, single_said rfl, ?_⟩
  have hhead := hashed_eq_singleInputs (x := Json.ofNat 1) rfl
  rw [TypedData.hashed_eq (single_said rfl)] at hhead
  have hdigests := singleInputs_digests
  simp only [singleInputs, List.map_cons, List.cons.injEq] at hdigests hhead
  rw [hhead.1]
  exact hdigests.1

theorem sign_single : Ecdsa.sign? unitWallet.key singleDigest = some singleSignature := by
  decide +kernel

/-- The public key of the wallet is recovered from both. -/
theorem recover_single {s : Signature} (h : s = singleSignature ∨ s = otherSignature) :
    ∃ key q, s.recover? singleDigest = some key ∧ key.affine? = some q ∧
      unitWallet.key.publicKey.affine? = some q := by
  have hpublic : unitWallet.key.publicKey.affine? =
      some (Secp256k1.Point.generator.x, Secp256k1.Point.generator.y) := by
    decide +kernel
  have hboth : ∀ s ∈ [singleSignature, otherSignature],
      (s.recover? singleDigest).bind (·.affine?) =
        some (Secp256k1.Point.generator.x, Secp256k1.Point.generator.y) := by
    decide +kernel
  obtain ⟨key, hkey, hq⟩ := Option.bind_eq_some_iff.mp (hboth s (List.mem_pair.mpr h))
  exact ⟨key, _, hkey, hq, hpublic⟩

theorem recoversKey_single : Ecdsa.RecoversKey unitWallet.key singleDigest := by
  intro s hs
  obtain rfl : singleSignature = s := Option.some.inj (sign_single.symm.trans hs)
  exact ⟨by decide, recover_single (.inl rfl)⟩

theorem isBy_single {s : Signature} (h : s = singleSignature ∨ s = otherSignature) :
    s.IsBy singleDigest unitWallet.address := by
  obtain ⟨key, q, hkey, hq, hpublic⟩ := recover_single h
  have hsame : key.address? = unitWallet.key.publicKey.address? := by
    unfold Secp256k1.Point.address?
    rw [hq, hpublic]
  refine ⟨key, unitWallet.key.address, hkey, hsame.trans ?_, rfl⟩
  unfold PrivateKey.address Secp256k1.Point.address?
  rw [hpublic]
  rfl

/-- The suite makes a proof of the document, which holds. -/
theorem create_single : ∃ proof data,
    curveSuite.createWithData ⟨0, by decide, by decide⟩ (single (Json.ofNat 1)) unitOptions =
      .ok (proof, data) ∧
    data.typedData = singleData (Json.ofNat 1) ∧ proof.value = some singleSignature.toText ∧
    curveSuite.check proof (single (Json.ofNat 1)) (unitOptions.checking none) =
      .ok unitWallet.address := by
  obtain ⟨bare, hbare, hwhole⟩ := @exists_unsigned unitOptions _ curveSuite
    ⟨0, by decide, by decide⟩ (single (Json.ofNat 1)) rfl (fun _ h => by cases h)
    (fun _ h => by cases h)
  have hsingle : (single (Json.ofNat 1)).IsWhole :=
    Json.whole_object_iff.mpr (List.forall_mem_singleton.mpr (Json.whole_ofNat 1))
  obtain ⟨data, hdata⟩ := exists_make hwhole hsingle Domain.empty singleTypes Derive.rootType
  have htyped : data.typedData = singleData (Json.ofNat 1) := typedData_of_make hdata
  have hvalue : unitWallet.signer.sign data.typedData = .ok singleSignature.toText := by
    rw [htyped]
    refine bind_eq_ok_iff.mpr ⟨singleDigest, signingHash_single, ?_⟩
    unfold Wallet.signHash
    rw [sign_single]
  have htypes : typesFor (single (Json.ofNat 1)) unitOptions.types = .ok singleTypes := by
    show Except.mapError SuiteError.schema (deriveTypes (single (Json.ofNat 1))) = .ok singleTypes
    rw [deriveTypes_single]
    rfl
  have hmade : curveSuite.createWithData ⟨0, by decide, by decide⟩ (single (Json.ofNat 1))
      unitOptions = .ok (completed unitOptions singleTypes bare singleSignature.toText, data) :=
    createWithData_eq_ok_iff.mpr ⟨bare, singleTypes, unitWallet.signer, _, hbare,
      htypes, hdata, rfl, hvalue, rfl⟩
  have hid : bare.methodId? = some unitWallet.key.address.toMethodId.text := by
    cases hbare
    rfl
  refine ⟨_, data, hmade, htyped, rfl, ?_⟩
  refine check_created rfl rfl rfl hmade hid (Address.names_toMethodId _) fun digest hdigest => ?_
  rw [htyped, signingHash_single] at hdigest
  obtain rfl : singleDigest = digest := Except.ok.inj hdigest
  exact recoversKey_single

/-- The text of the signature in upper case, the same without the 27 in its last byte, and the text
of the other signature. -/
def respellings : List String :=
  [singleSignature.upperText, singleSignature.bareText, otherSignature.toText]

theorem respellings_spelled : ∀ t ∈ respellings, singleSignature.toText ≠ t ∧
    ∃ s : Signature, (s = singleSignature ∨ s = otherSignature) ∧ s.SpelledBy t := by
  intro t ht
  simp only [respellings, List.mem_cons, List.not_mem_nil, or_false] at ht
  rcases ht with rfl | rfl | rfl
  · refine ⟨fun h => ?_, _, .inl rfl, Signature.spelledBy_upperText rfl⟩
    have hcase : (Hex.encodeChars singleSignature.toBytes).map Char.toUpper ≠
        Hex.encodeChars singleSignature.toBytes := by
      decide +kernel
    exact hcase (List.cons.inj (List.cons.inj (String.ofList_injective h)).2).2.symm
  · refine ⟨fun h => ?_, _, .inl rfl, Signature.spelledBy_bareText rfl⟩
    have hlast := List.append_cancel_left (Hex.encodeMarked_inj h)
    exact absurd hlast (by decide)
  · refine ⟨fun h => ?_, _, .inr rfl, Signature.spelledBy_toText rfl⟩
    have hread : Signature.ofText otherSignature.toText = .ok otherSignature :=
      Signature.ofText_toText (by decide)
    rw [← h] at hread
    exact absurd (Signature.eq_of_ofText_toText hread) (by decide)

theorem verified_value_single : ∃ proof,
    curveSuite.create ⟨0, by decide, by decide⟩ (single (Json.ofNat 1)) unitOptions = .ok proof ∧
    proof.value = some singleSignature.toText ∧
    (∀ t, singleSignature.SpelledBy t → (curveSuite.verify { proof with value := some t }
      (single (Json.ofNat 1)) (unitOptions.checking none)).verified = true) ∧
    (curveSuite.verify { proof with value := some "" } (single (Json.ofNat 1))
      (unitOptions.checking none)).verified ≠ true := by
  obtain ⟨proof, data, hmade, -, hvalue, hcheck⟩ := create_single
  obtain ⟨signature, _, _, _, hvalue', -, -, -, -, hiff⟩ := verified_value_iff
    (s := curveSuite) (w := unitWallet) rfl rfl (create_eq_ok_iff.mpr ⟨data, hmade⟩)
    (verified_iff.mpr ⟨_, hcheck⟩)
  have hread : Signature.ofText signature.toText = .ok singleSignature := by
    rw [← Option.some.inj (hvalue.symm.trans hvalue')]
    exact Signature.ofText_toText (by decide)
  obtain rfl : singleSignature = signature := Signature.eq_of_ofText_toText hread
  refine ⟨proof, create_eq_ok_iff.mpr ⟨data, hmade⟩, hvalue, fun t ht => (hiff t).mpr (.inl ht), ?_⟩
  have hnone : ∀ s : Signature, ¬ s.SpelledBy "" := by
    rintro s ⟨-, digits, last, hdigits, -⟩
    cases hdigits
  rw [ne_eq, hiff]
  exact not_or.mpr ⟨hnone _, fun ⟨other, _, hother, _⟩ => hnone other hother⟩

theorem verified_respelled : ∃ proof,
    curveSuite.create ⟨0, by decide, by decide⟩ (single (Json.ofNat 1)) unitOptions = .ok proof ∧
    (curveSuite.verify proof (single (Json.ofNat 1)) (unitOptions.checking none)).verified = true ∧
    ∀ t ∈ respellings, proof.value ≠ some t ∧
      (curveSuite.verify { proof with value := some t } (single (Json.ofNat 1))
        (unitOptions.checking none)).verified = true := by
  obtain ⟨proof, data, hmade, htyped, hvalue, hcheck⟩ := create_single
  refine ⟨proof, create_eq_ok_iff.mpr ⟨data, hmade⟩, verified_iff.mpr ⟨_, hcheck⟩, fun t ht => ?_⟩
  obtain ⟨hne, s, hs, hspelled⟩ := respellings_spelled t ht
  refine ⟨fun h => hne (Option.some.inj (hvalue.symm.trans h)), ?_⟩
  obtain ⟨id, rebuilt, -, -, hrebuilt, -, hnames, hiff⟩ := check_value_iff hcheck
  obtain rfl : data = rebuilt := Except.ok.inj ((rebuild_created rfl hmade).symm.trans hrebuilt)
  have hrecovered : recoverSigner data.typedData t = .ok unitWallet.address := by
    rw [htyped]
    exact bind_eq_ok_iff.mpr ⟨singleDigest, signingHash_single,
      recoverHash_eq_ok_iff.mpr ⟨s, hspelled, isBy_single hs⟩⟩
  exact verified_iff.mpr ⟨_, (hiff t _).mpr ⟨hrecovered, hnames⟩⟩

end Suite

end DocumentProof
