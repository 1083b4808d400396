import DocumentProof.Command.Document
import DocumentProof.Proofs.Proof.Signable
import DocumentProof.Proofs.Proof.Wire

/-!
# Signed documents hold

A signed document is the document with its member `proof` put in (`detach_attach`). A check under the
same configuration takes it off again, reads the proof back and rebuilds the data that was signed, so
it gives the account of the wallet (`verify_signed`). The domain of the configuration stands above the
embedded one, but it is the one that was signed with. Without a method of its own the signer names the
account on the chain of the domain, and the account is read off this identifier
(`ofText_defaultMethod`).
-/

namespace DocumentProof

/-! ## The default method -/

namespace MethodId

variable {front account fragment : List Char}

/-- **The last segment of a DID names the account,** whatever fragment follows. -/
theorem bareChars_did (hfront : ∀ c ∈ front, c ≠ '#' ∧ c ≠ '?')
    (haccount : ∀ c ∈ account, c ≠ '#' ∧ c ≠ '?' ∧ c ≠ ':')
    (hdid : "did:".toList <+: front ++ ':' :: account) :
    bareChars (front ++ ':' :: account ++ '#' :: fragment) = account := by
  have hbase : ∀ c ∈ front ++ ':' :: account, c ≠ '#' ∧ c ≠ '?' := by
    intro c hc
    rcases List.mem_append.mp hc with hc | hc
    · exact hfront c hc
    rcases List.mem_cons.mp hc with rfl | hc
    · decide
    · exact ⟨(haccount c hc).1, (haccount c hc).2.1⟩
  have hparts := bareChars_append none (some fragment) hbase nofun
  rw [marked, marked, List.append_nil] at hparts
  rw [hparts, if_pos (List.isPrefixOf_iff_prefix.mpr hdid),
    afterLast_append fun c hc => (haccount c hc).2.2]

end MethodId

theorem toList_defaultMethod (chain : UInt64) (address : String) :
    (defaultMethod chain address).toList =
      ("did:pkh:eip155:".toList ++ Nat.toDigits 10 chain.toNat) ++ ':' :: address.toList ++
        '#' :: "blockchainAccountId".toList := by
  have hchain : (toString chain.toNat).toList = Nat.toDigits 10 chain.toNat := Nat.toList_repr
  unfold defaultMethod
  simp only [String.toList_append, hchain, List.append_assoc]
  rfl

/-- A digit is no mark and no blank. -/
theorem plain_of_isDigit {c : Char} (h : c.isDigit = true) :
    c ≠ '#' ∧ c ≠ '?' ∧ Text.isBlank c = false := by
  have hne : ∀ d : Char, d.isDigit = false → c ≠ d := by
    rintro d hd rfl
    rw [h] at hd
    cases hd
  have hplain := FieldType.isPlain_of_isDigit h
  simp only [FieldType.isPlain, Bool.and_eq_true, Bool.not_eq_true'] at hplain
  exact ⟨hne '#' (by decide), hne '?' (by decide), hplain.2⟩

theorem ne_colon_of_mem_toText {a : Address} {c : Char} (h : c ∈ a.toText.toList) : c ≠ ':' := by
  obtain ⟨cs, htext, hcs⟩ := Address.toList_toText a
  rw [htext] at h
  rcases List.mem_cons.mp h with rfl | h
  · decide
  rcases List.mem_cons.mp h with rfl | h
  · decide
  obtain ⟨d, hd, heq⟩ := hcs c h
  have hne : ∀ d ∈ "0123456789abcdef".toList, d ≠ ':' ∧ d.toUpper ≠ ':' :=
    List.all_iff_forall_prop.mp (by decide)
  rcases heq with rfl | rfl
  · exact (hne _ hd).1
  · exact (hne d hd).2

/-- No character before the account ends the identifier or a part of it. -/
theorem plain_of_mem_front {chain : UInt64} {c : Char}
    (h : c ∈ "did:pkh:eip155:".toList ++ Nat.toDigits 10 chain.toNat) :
    c ≠ '#' ∧ c ≠ '?' ∧ Text.isBlank c = false := by
  have hstart : ∀ c ∈ "did:pkh:eip155:".toList, c ≠ '#' ∧ c ≠ '?' ∧ Text.isBlank c = false :=
    List.all_iff_forall_prop.mp (by decide)
  rcases List.mem_append.mp h with h | h
  · exact hstart c h
  · exact plain_of_isDigit (Nat.isDigit_of_mem_toDigits (by decide) (by decide) h)

theorem isValid_defaultMethod (chain : UInt64) (a : Address) :
    MethodId.isValid (defaultMethod chain a.toText) = true := by
  have hend : ∀ c ∈ "blockchainAccountId".toList, Text.isBlank c = false :=
    List.all_iff_forall_prop.mp (by decide)
  refine (MethodId.isValid_iff _).mpr ⟨fun h => ?_, fun c hc => ?_⟩
  · have hlist := toList_defaultMethod chain a.toText
    rw [h] at hlist
    simp at hlist
  · rw [toList_defaultMethod] at hc
    rcases List.mem_append.mp hc with hc | hc
    · rcases List.mem_append.mp hc with hc | hc
      · exact (plain_of_mem_front hc).2.2
      rcases List.mem_cons.mp hc with rfl | hc
      · decide
      · exact (Address.isPlain_of_mem_toText hc).1
    · rcases List.mem_cons.mp hc with rfl | hc
      · decide
      · exact hend c hc

/-- **The default method names the account.** -/
theorem ofText_defaultMethod (chain : UInt64) (a : Address) :
    ∃ id, MethodId.ofText (defaultMethod chain a.toText) = .ok id ∧ id.bareAddress = a.toText := by
  have hvalid := isValid_defaultMethod chain a
  refine ⟨⟨_, (MethodId.isValid_iff _).mp hvalid⟩, dif_pos hvalid, ?_⟩
  unfold MethodId.bareAddress
  rw [toList_defaultMethod, MethodId.bareChars_did, String.ofList_toList]
  · intro c hc
    obtain ⟨hhash, hquery, -⟩ := plain_of_mem_front hc
    exact ⟨hhash, hquery⟩
  · intro c hc
    obtain ⟨-, hhash, hquery⟩ := Address.isPlain_of_mem_toText hc
    exact ⟨hhash, hquery, ne_colon_of_mem_toText hc⟩
  · exact ⟨_, rfl⟩

/-! ## The member -/

variable {document proof : Json}

/-- **The proof comes off as it was put on,** and leaves the rest of the document. -/
theorem detach_attach {ms : Members} (h : Keyed.Increasing ms) :
    detachProof (.object (Keyed.put proofKey proof ms)) =
      ((detachProof (.object ms)).1, some proof) := by
  unfold detachProof
  dsimp only
  rw [Keyed.remove_put proofKey proof h, Keyed.get?_put, if_pos rfl]

theorem attach_detach {ms : Members} (h : Keyed.Increasing ms) :
    attachProof proof (detachProof (.object ms)).1 = .object (Keyed.put proofKey proof ms) := by
  unfold detachProof attachProof
  dsimp only
  rw [Keyed.put_remove proofKey proof h]

/-! ## Proofs that are read back -/

namespace StandardPurpose

theorem notMem_members_of_known (p : StandardPurpose) :
    ∀ key ∈ Proof.knownKeys, key ∉ p.members.map (·.1) := by
  intro key hkey
  simp only [Proof.knownKeys, List.mem_cons, List.not_mem_nil, or_false] at hkey
  cases p with
  | assertion => exact List.not_mem_nil
  | authentication challenge domain =>
    rcases hkey with rfl | rfl | rfl | rfl | rfl | rfl <;> cases domain <;> simp [members]

/-- The marks of a purpose have keys of their own. -/
theorem isWire_update (p : StandardPurpose) {bare : Proof} (h : bare.IsWire) :
    (p.update bare).IsWire where
  extra key hkey := (get?_putAll_of_notMem (p.notMem_members_of_known key hkey)).trans (h.extra key hkey)
  method := h.method

end StandardPurpose

/-- A proof by the method, made at this time. -/
def Proof.stamped (now : Timestamp) (id : MethodId) : Proof :=
  { Proof.ofType Proof.suiteType with
    created := some now.toText
    method := some (.named id.text) }

theorem Proof.isWire_stamped (now : Timestamp) (id : MethodId) : (Proof.stamped now id).IsWire where
  extra _ _ := rfl
  method m hm := by
    obtain rfl : VerificationMethod.named id.text = m := Option.some.inj hm
    trivial

/-! ## The suite that signs -/

/-- The method that a document is signed by. -/
def methodText (config : Config) (address : String) (method : Option String) : String :=
  method.getD (defaultMethod (config.domain.chainId.getD 1) address)

/-- What a document is signed with. -/
def signOptions (config : Config) (purpose : StandardPurpose) (embed : Bool) : CreateOptions where
  purpose := purpose.toPurpose
  method := none
  date := none
  domain := some config.domain
  types := none
  primaryType := none
  embed := embed && config.embed

theorem Domain.eq_empty_of_isEmpty {domain : Domain} (h : domain.isEmpty = true) :
    domain = Domain.empty := by
  obtain ⟨name, version, chainId, contract, salt⟩ := domain
  simp only [isEmpty, fields, List.isEmpty_iff, List.filterMap_eq_nil_iff, List.forall_mem_cons, id,
    Option.map_eq_none_iff] at h
  obtain ⟨rfl, rfl, rfl, rfl, rfl, -⟩ := h
  rfl

/-- Only objects are signed. -/
theorem exists_members_of_deriveTypes {types : TypeSchema}
    (h : deriveTypes (detachProof document).1 = .ok types) : ∃ ms, document = .object ms := by
  cases document with
  | object ms => exact ⟨ms, rfl⟩
  | _ => cases h

/-- The method names the account of the wallet. -/
theorem account_of_methodText {w : Wallet} {config : Config} {method : Option String} {id : MethodId}
    (haddr : ∀ text id, method = some text → MethodId.ofText text = .ok id →
      id.bareAddress.toList.map Char.toLower = w.address.toList.map Char.toLower)
    (hid : MethodId.ofText (methodText config w.address method) = .ok id) :
    id.bareAddress.toList.map Char.toLower = w.address.toList.map Char.toLower := by
  cases method with
  | none =>
    obtain ⟨id', hid', hname⟩ := ofText_defaultMethod (config.domain.chainId.getD 1) w.key.address
    obtain rfl : id' = id := Except.ok.inj (hid'.symm.trans hid)
    rw [hname]
    rfl
  | some text => exact haddr text id rfl hid

section Suites

variable [Ecdsa]

/-- A suite that signs by one method. -/
def Suite.named (signer : Signer) (id : MethodId) : Suite :=
  ⟨some signer, recoverSigner, some id, none⟩

theorem Suite.make_eq_ok_iff {signer : Signer} {text : String} {suite : Suite} :
    Suite.make (some signer) (some text) none = .ok suite ↔
      ∃ id, MethodId.ofText text = .ok id ∧ Suite.named signer id = suite := by
  unfold Suite.make
  dsimp only
  cases MethodId.ofText text with
  | error e => exact ⟨nofun, fun ⟨_, h, _⟩ => nomatch h⟩
  | ok id =>
    simp only [Except.ok.injEq, exists_eq_left']
    exact pure_eq_ok_iff

/-- **The steps of signing a document.** -/
theorem signDocument_eq_ok_iff {now : Timestamp} {signer : Signer} {method : Option String}
    {embed : Bool} {config : Config} {s : SignedDocument} :
    signDocument now signer method embed config document = .ok s ↔
      ∃ purpose id, config.purpose.toStandard = .ok purpose ∧
        MethodId.ofText (methodText config signer.address method) = .ok id ∧
        (Suite.named signer id).createWithData now (detachProof document).1
          (signOptions config purpose embed) = .ok (s.proof, s.data) ∧
        s.document = attachProof s.proof.toJson (detachProof document).1 := by
  unfold signDocument
  simp only [bind_eq_ok_iff, mapError_eq_ok_iff, pure_eq_ok_iff, Suite.make_eq_ok_iff, Prod.exists]
  constructor
  · rintro ⟨purpose, hpurpose, _, ⟨id, hid, rfl⟩, proof, data, hcreate, rfl⟩
    exact ⟨purpose, id, hpurpose, hid, hcreate, rfl⟩
  · rintro ⟨purpose, id, hpurpose, hid, hcreate, hdocument⟩
    exact ⟨purpose, hpurpose, _, ⟨id, hid, rfl⟩, s.proof, s.data, hcreate, hdocument ▸ rfl⟩

/-! ## What the suite makes -/

namespace Suite

variable {signer : Signer} {w : Wallet} {id : MethodId} {now : Timestamp} {d : Json}
  {config : Config} {purpose : StandardPurpose} {embed : Bool} {made : Proof} {data : VerifyData}

/-- **What is made for a document:** a stamped proof, marked for its purpose, signed under the derived
schema and the domain of the configuration. -/
theorem createWithData_named_iff :
    (named signer id).createWithData now d (signOptions config purpose embed) = .ok (made, data) ↔
      ∃ types value, deriveTypes d = .ok types ∧
        VerifyData.make d (purpose.update (Proof.stamped now id)) config.domain types
          Derive.rootType = .ok data ∧
        signer.sign data.typedData = .ok value ∧
        completed (signOptions config purpose embed) types (purpose.update (Proof.stamped now id))
          value = made := by
  rw [createWithData_eq_ok_iff]
  constructor
  · rintro ⟨bare, types, signer', value, hbare, htypes, hdata, hsigner, hvalue, rfl⟩
    obtain rfl : purpose.update (Proof.stamped now id) = bare := Except.ok.inj hbare
    obtain rfl : signer = signer' := Option.some.inj hsigner
    exact ⟨types, value, mapError_eq_ok_iff.mp htypes, hdata, hvalue, rfl⟩
  · rintro ⟨types, value, htypes, hdata, hvalue, rfl⟩
    exact ⟨_, types, signer, value, rfl, mapError_eq_ok_iff.mpr htypes, hdata, rfl, hvalue, rfl⟩

/-- Such a proof is read back from the document. -/
theorem isWire_of_createWithData
    (h : (named signer id).createWithData now d (signOptions config purpose embed)
      = .ok (made, data)) : made.IsWire := by
  obtain ⟨types, value, -, -, -, rfl⟩ := createWithData_named_iff.mp h
  have hbare := purpose.isWire_update (Proof.isWire_stamped now id)
  exact ⟨hbare.extra, hbare.method⟩

/-- **A check under the same configuration rebuilds the data that was signed.** The configured domain
stands above the embedded one, but both are the one that was signed with; an empty one is what is
taken if there is none. -/
theorem rebuild_verifyOptions (documents : KeyMap Json)
    (h : (named signer id).createWithData now d (signOptions config purpose embed)
      = .ok (made, data)) :
    rebuild made d (verifyOptions config purpose documents) = .ok data := by
  have hchecking : rebuild made d ((signOptions config purpose embed).checking
      (some (Loader.ofMap documents))) = .ok data := rebuild_created rfl h
  obtain ⟨types, value, -, -, -, rfl⟩ := createWithData_named_iff.mp h
  have hempty : config.domain.isEmpty = true → Domain.empty = config.domain := fun he =>
    (Domain.eq_empty_of_isEmpty he).symm
  have hembedded : (completed (signOptions config purpose embed) types
      (purpose.update (Proof.stamped now id)) value).embedded =
        if embed && config.embed then some ⟨config.domain, .inline types, Derive.rootType⟩
        else none := embedded_completed _ _ _ _
  have hoptions : (signOptions config purpose embed).checking (some (Loader.ofMap documents)) =
      if embed && config.embed then
        ⟨purpose.toPurpose, none, none, none, some (Loader.ofMap documents)⟩
      else ⟨purpose.toPurpose, some config.domain, none, none, some (Loader.ofMap documents)⟩ := rfl
  rw [← hchecking, hoptions]
  unfold rebuild resolveTypes verifyOptions
  rw [hembedded]
  cases embed && config.embed with
  | true =>
    cases config.domain.isEmpty <;> rfl
  | false =>
    cases he : config.domain.isEmpty with
    | true =>
      rw [← hempty he]
      rfl
    | false => rfl

/-- **A check under the same configuration gives the account of the wallet.** -/
theorem verify_named (documents : KeyMap Json)
    (h : (named w.signer id).createWithData now d (signOptions config purpose embed)
      = .ok (made, data))
    (haddr : id.bareAddress.toList.map Char.toLower = w.address.toList.map Char.toLower)
    (hk : ∀ digest, data.typedData.signingHash = .ok digest → Ecdsa.RecoversKey w.key digest) :
    checker.verify made d (verifyOptions config purpose documents) =
      ⟨true, some id.text, some w.address, none⟩ := by
  have hrebuild := rebuild_verifyOptions documents h
  obtain ⟨types, value, -, -, hvalue, hmade⟩ := createWithData_named_iff.mp h
  have htype : made.type = Proof.suiteType := hmade ▸ rfl
  have hsigned : made.value = some value := hmade ▸ rfl
  have hmethod : made.methodId? = some id.text := hmade ▸ rfl
  have hrecovered : recoverSigner data.typedData value = .ok w.address :=
    recoverSigner_of_sign hk hvalue
  have hsignature : checker.verifySignature data.typedData value id.text = .ok w.address :=
    verifySignature_eq_ok_iff.mpr ⟨id, id.ofText_text, hrecovered, accountsMatch_toText haddr⟩
  have haccepts : purpose.accepts made.withoutValue = .ok () :=
    purpose.accepts_of_update (Proof.stamped now id) (hmade ▸ rfl) (hmade ▸ rfl)
  have hcheck : checker.check made d (verifyOptions config purpose documents) = .ok w.address :=
    check_eq_ok_iff.mpr ⟨htype, value, id.text, data, hsigned, hmethod, hrebuild, hsignature,
      haccepts⟩
  unfold verify
  rw [hcheck, hmethod]
  rfl

/-- **At any other time the same is signed and embedded.** -/
theorem exists_createWithData_at (now' : Timestamp)
    (h : (named signer id).createWithData now d (signOptions config purpose embed)
      = .ok (made, data)) :
    ∃ made' data', (named signer id).createWithData now' d (signOptions config purpose embed)
        = .ok (made', data') ∧ made'.value = made.value ∧ made'.embedded = made.embedded := by
  obtain ⟨types, value, htypes, hdata, hvalue, rfl⟩ := createWithData_named_iff.mp h
  obtain ⟨bare, hbare, hwhole⟩ := @exists_unsigned (signOptions config purpose embed) purpose
    (named signer id) now' d rfl (fun _ h => by cases h) (fun _ h => by cases h)
  obtain rfl : purpose.update (Proof.stamped now' id) = bare := Except.ok.inj hbare
  obtain ⟨data', hdata', htyped⟩ := exists_make_of_make hwhole hdata
  refine ⟨_, data', createWithData_named_iff.mpr
    ⟨types, value, htypes, hdata', htyped ▸ hvalue, rfl⟩, ?_, ?_⟩
  · rw [value_completed, value_completed]
  · have hnone : ∀ t, (purpose.update (Proof.stamped t id)).embedded = none := fun _ => rfl
    rw [embedded_completed, embedded_completed, hnone, hnone]

end Suite

/-! ## Signing and checking documents -/

variable {w : Wallet} {now : Timestamp} {config : Config} {documents : KeyMap Json}
  {method : Option String} {embed : Bool} {s : SignedDocument}

/-- What is checked is what comes off the document. -/
theorem verifyDocument_eq_ok {purpose : StandardPurpose} {bare : Json} {made : Proof}
    (hpurpose : config.purpose.toStandard = .ok purpose)
    (hdetach : detachProof document = (bare, some made.toJson)) (hmade : made.IsWire) :
    verifyDocument config documents document =
      .ok (Suite.checker.verify made bare (verifyOptions config purpose documents)) := by
  have hdecode : decodeProof (some made.toJson) = .ok made :=
    mapError_eq_ok_iff.mpr (Proof.ofJson_toJson hmade)
  unfold verifyDocument
  rw [hdetach]
  refine bind_eq_ok_iff.mpr ⟨purpose, mapError_eq_ok_iff.mpr hpurpose, ?_⟩
  dsimp only
  rw [hdecode]
  rfl

/-- **A signed document holds under the configuration it was signed with.** It is the document with
only the member `proof` put in, a check gives the account of the wallet, whichever documents stand
behind URIs, and signing it once more, at any time, gives the same signature and the same context. A
method that is given has to name the account of the wallet, and the curve to recover the key from
its signature of the data. -/
theorem verify_signed {document : Document}
    (h : signDocument now w.signer method embed config document.json = .ok s)
    (haddr : ∀ text id, method = some text → MethodId.ofText text = .ok id →
      id.bareAddress.toList.map Char.toLower = w.address.toList.map Char.toLower)
    (hk : ∀ digest, s.data.typedData.signingHash = .ok digest → Ecdsa.RecoversKey w.key digest) :
    ∃ ms, document.json = .object ms ∧
      s.document = .object (Keyed.put proofKey s.proof.toJson ms) ∧
      (∀ documents, verifyDocument config documents s.document =
        .ok ⟨true, some (methodText config w.address method), some w.address, none⟩) ∧
      ∀ now', ∃ s', signDocument now' w.signer method embed config s.document = .ok s' ∧
        s'.document = .object (Keyed.put proofKey s'.proof.toJson ms) ∧
        s'.proof.value = s.proof.value ∧ s'.proof.embedded = s.proof.embedded := by
  obtain ⟨purpose, id, hpurpose, hid, hcreate, hdocument⟩ := signDocument_eq_ok_iff.mp h
  obtain ⟨types, value, htypes, -⟩ := Suite.createWithData_named_iff.mp hcreate
  obtain ⟨ms, hms⟩ := exists_members_of_deriveTypes htypes
  obtain ⟨hi, -⟩ := Json.sorted_object (hms ▸ document.sorted)
  rw [hms] at hcreate hdocument
  rw [attach_detach hi] at hdocument
  have hdetach : detachProof s.document = ((detachProof (.object ms)).1, some s.proof.toJson) :=
    hdocument ▸ detach_attach hi
  refine ⟨ms, hms, hdocument, fun documents => ?_, fun now' => ?_⟩
  · rw [verifyDocument_eq_ok hpurpose hdetach (Suite.isWire_of_createWithData hcreate),
      Suite.verify_named documents hcreate (account_of_methodText haddr hid) hk,
      MethodId.text_of_ofText hid]
    rfl
  · obtain ⟨made, data, hmade, hvalue, hembedded⟩ := Suite.exists_createWithData_at now' hcreate
    refine ⟨⟨attachProof made.toJson (detachProof s.document).1, made, data⟩,
      signDocument_eq_ok_iff.mpr ⟨purpose, id, hpurpose, hid, ?_, rfl⟩, ?_,
      hvalue, hembedded⟩
    · rw [hdetach]
      exact hmade
    · rw [hdetach]
      exact attach_detach hi

end Suites

/-- A configuration that asks for an answer to a challenge. -/
def answerConfig : Config :=
  { Config.default with purpose := .authentication (some "nonce") (some "example.org") }

theorem verify_signed_sample : ∃ s,
    @signDocument Suite.unitCurve ⟨0, by decide, by decide⟩
        (@Wallet.signer Suite.unitCurve Suite.unitWallet) none true answerConfig
        (Derive.sample 2).json = .ok s ∧
    @verifyDocument Suite.unitCurve answerConfig KeyMap.empty s.document =
      .ok ⟨true, some (defaultMethod 1 Suite.unitWallet.address), some Suite.unitWallet.address,
        none⟩ := by
  obtain ⟨id, hid, -⟩ := ofText_defaultMethod 1 Suite.unitWallet.key.address
  obtain ⟨made, data, hcreate⟩ := (@Suite.createWithData_derived_iff
    (@Suite.named Suite.unitCurve (@Wallet.signer Suite.unitCurve Suite.unitWallet) id)
    ⟨0, by decide, by decide⟩
    (signOptions answerConfig (.authentication "nonce" (some "example.org")) true) _ Suite.unitCurve
    Suite.unitWallet (Derive.sample 2) _ rfl Derive.isUnsigned_of_mem_sample rfl
    Suite.exists_sign_unit rfl rfl rfl (fun _ h => by cases h)
    (fun _ h => by cases h)).mpr Suite.notMem_nodes_sample
  have hsign := (@signDocument_eq_ok_iff (Derive.sample 2).json Suite.unitCurve ⟨0, by decide, by decide⟩
    (@Wallet.signer Suite.unitCurve Suite.unitWallet) none true answerConfig
    ⟨attachProof made.toJson (Derive.sample 2).json, made, data⟩).mpr
      ⟨_, id, rfl, hid, hcreate, rfl⟩
  obtain ⟨ms, -, -, hverify, -⟩ := @verify_signed Suite.unitCurve Suite.unitWallet _ answerConfig none
    true _ (Derive.sample 2) hsign (fun _ _ h => by cases h)
    fun digest _ => Suite.recoversKey_unit digest
  have hmethod : ∀ address, methodText answerConfig address none = defaultMethod 1 address :=
    fun _ => rfl
  exact ⟨_, hsign, hmethod _ ▸ hverify KeyMap.empty⟩

end DocumentProof
