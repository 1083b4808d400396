import DocumentProof.Proofs.Keyed
import DocumentProof.Proofs.Proof.Steps
import DocumentProof.Proofs.Schema.DocumentHash
import DocumentProof.Proofs.Wallet.Text

/-!
# What is made is accepted

A check takes off what was put on after signing, and finds domain, schema and name of the struct
again where they were left: in the proof if it embeds them, else with the checker. So it rebuilds
the data that was signed (`rebuild_created`). If the curve recovers the key of the wallet from its
signature of this data, the check gives the wallet's account (`verify_created`).
-/

namespace DocumentProof

/-! ## Purposes -/

namespace StandardPurpose

variable {proof : Proof}

theorem checkMembers_eq_ok : ∀ {ms : List (String × String)},
    (∀ m ∈ ms, proof.extra.get? m.1 = some (.string m.2)) → checkMembers proof ms = .ok ()
  | [], _ => rfl
  | (key, expected) :: ms, h => by
    obtain ⟨hm, hms⟩ := List.forall_mem_cons.mp h
    rw [checkMembers, if_pos hm]
    exact checkMembers_eq_ok hms

theorem get?_putAll_of_notMem {key : String} : ∀ {ms : List (String × String)} {extra : KeyMap Json},
    key ∉ ms.map (·.1) →
      (ms.foldl (fun extra m => extra.put m.1 (.string m.2)) extra).get? key = extra.get? key
  | [], _, _ => rfl
  | m :: ms, extra, h => by
    obtain ⟨hm, hms⟩ := not_or.mp fun hor => h (List.mem_cons.mpr hor)
    rw [List.foldl_cons, get?_putAll_of_notMem hms, KeyMap.get?_put, if_neg hm]

/-- What is put under different keys is found there. -/
theorem get?_putAll : ∀ {ms : List (String × String)} {extra : KeyMap Json}, (ms.map (·.1)).Nodup →
    ∀ m ∈ ms, (ms.foldl (fun extra m => extra.put m.1 (.string m.2)) extra).get? m.1
      = some (.string m.2)
  | m :: ms, extra, hnodup, n, hn => by
    obtain ⟨hm, hms⟩ := List.nodup_cons.mp hnodup
    rw [List.foldl_cons]
    rcases List.mem_cons.mp hn with rfl | hn
    · rw [get?_putAll_of_notMem hm, KeyMap.get?_put, if_pos rfl]
    · exact get?_putAll hms n hn

theorem nodup_members (p : StandardPurpose) : (p.members.map (·.1)).Nodup := by
  have hne : "challenge" ≠ "domain" := by decide
  cases p with
  | assertion => exact List.nodup_nil
  | authentication challenge domain => cases domain <;> simp [members, hne]

/-- **A purpose accepts a proof with its marks,** whatever else the proof carries. -/
theorem accepts_of_update (p : StandardPurpose) (marked : Proof)
    (hpurpose : proof.purpose = (p.update marked).purpose)
    (hextra : proof.extra = (p.update marked).extra) : p.accepts proof = .ok () := by
  have hterm : checkTerm p.term proof = .ok () := by
    rw [checkTerm, hpurpose]
    exact if_pos rfl
  have hmembers : checkMembers proof p.members = .ok () := by
    refine checkMembers_eq_ok fun m hm => ?_
    rw [hextra]
    exact get?_putAll p.nodup_members m hm
  exact bind_eq_ok_iff.mpr ⟨(), hterm, hmembers⟩

end StandardPurpose

/-! ## Signing and recovering -/

section Recovering

variable [Ecdsa]

/-- The key that is recovered from a signature of this digest is the one that signed, and the
nonce's point was not reduced. -/
def Ecdsa.RecoversKey (key : PrivateKey) (digest : Word) : Prop :=
  ∀ s, Ecdsa.sign? key digest = some s → s.recoveryId ≤ 1 ∧
    ∃ p q, Ecdsa.recover? s digest = some p ∧ p.affine? = some q ∧ key.publicKey.affine? = some q

variable {w : Wallet} {digest : Word} {text : String}

theorem recoverHash_of_signHash (hk : Ecdsa.RecoversKey w.key digest)
    (h : w.signHash digest = .ok text) : recoverHash digest text = .ok w.address := by
  unfold Wallet.signHash at h
  cases hs : Ecdsa.sign? w.key digest with
  | none => simp [hs] at h
  | some s =>
    rw [hs] at h
    obtain rfl : s.toText = text := Except.ok.inj h
    obtain ⟨hid, p, q, hp, hpq, hq⟩ := hk s hs
    have haddr : p.address? = w.key.publicKey.address? := by
      unfold Secp256k1.Point.address?
      rw [hpq, hq]
    have hkey : w.key.publicKey.address? = some w.key.address := by
      unfold PrivateKey.address Secp256k1.Point.address?
      rw [hq]
      rfl
    refine bind_eq_ok_iff.mpr ⟨s, Signature.ofText_toText hid, ?_⟩
    rw [hp, Option.bind_some, haddr, hkey]
    rfl

theorem recoverSigner_of_sign {t : TypedData}
    (hk : ∀ digest, t.signingHash = .ok digest → Ecdsa.RecoversKey w.key digest)
    (h : w.sign t = .ok text) : recoverSigner t text = .ok w.address := by
  obtain ⟨digest, hdigest, hsign⟩ := bind_eq_ok_iff.mp h
  exact bind_eq_ok_iff.mpr ⟨digest, hdigest, recoverHash_of_signHash (hk digest hdigest) hsign⟩

end Recovering

/-- Texts of one account in any case are accepted as the same. -/
theorem accountsMatch_toText {a : Address} {other : String}
    (h : other.toList.map Char.toLower = a.toText.toList.map Char.toLower) :
    accountsMatch a.toText other = true := by
  obtain ⟨cs, htext, -⟩ := Address.toList_toText a
  have hne : a.toText.toList ≠ [] := by
    rw [htext]
    exact List.cons_ne_nil _ _
  unfold accountsMatch
  rw [decide_eq_true hne, h, Bool.true_and, beq_self_eq_true]

/-! ## Making and checking -/

/-- What someone who checks a proof with these options has to give: nothing but the purpose if the
proof embeds the rest. -/
def CreateOptions.checking (o : CreateOptions) (loader : Option Loader) : VerifyOptions :=
  if o.embed then ⟨o.purpose, none, none, none, loader⟩
  else ⟨o.purpose, o.domain, o.types.map .inline, o.primaryType, loader⟩

namespace Suite

variable {s : Suite} {now : Timestamp} {document : Json} {o : CreateOptions} {proof : Proof}
  {data : VerifyData} {loader : Option Loader}

/-- A proof that is marked for a purpose and not yet signed. -/
theorem unsigned_eq_ok {p : StandardPurpose} {bare : Proof} (hp : o.purpose = p.toPurpose)
    (h : s.unsigned now document o = .ok bare) : bare.type = Proof.suiteType ∧ bare.value = none ∧
      bare.embedded = none ∧ ∃ start : Proof, bare = p.update start := by
  simp only [unsigned, bind_eq_ok_iff, pure_eq_ok_iff] at h
  obtain ⟨created, -, method, -, h⟩ := h
  rw [hp] at h
  subst h
  exact ⟨rfl, rfl, rfl, _, rfl⟩

theorem resolveTypes_checking {types : TypeSchema} (h : typesFor document o.types = .ok types)
    (bare : Proof) (value : String) (hbare : bare.embedded = none) :
    resolveTypes document (completed o types bare value).embedded (o.checking loader) = .ok types := by
  unfold completed CreateOptions.checking resolveTypes
  cases o.embed with
  | true => rfl
  | false =>
    simp only [Bool.false_eq_true, if_false, hbare, Option.map_none, Option.or_none]
    cases htypes : o.types <;> rw [htypes] at h
    · exact h
    · exact h

/-- **A check rebuilds the data that was signed.** -/
theorem rebuild_created {p : StandardPurpose} (hp : o.purpose = p.toPurpose)
    (h : s.createWithData now document o = .ok (proof, data)) :
    rebuild proof document (o.checking loader) = .ok data := by
  obtain ⟨bare, types, signer, value, hbare, htypes, hdata, -, -, rfl⟩ :=
    createWithData_eq_ok_iff.mp h
  obtain ⟨-, hvalue, hembedded, -⟩ := unsigned_eq_ok hp hbare
  have hstrip : (completed o types bare value).withoutValue.withoutContext = bare.withoutContext := by
    unfold completed Proof.withoutValue Proof.withoutContext
    rw [← hvalue]
  have hmake : ∀ domain primaryType, VerifyData.make document
      (completed o types bare value).withoutValue domain types primaryType
        = VerifyData.make document bare domain types primaryType := fun domain primaryType => by
    unfold VerifyData.make
    rw [hstrip]
  refine bind_eq_ok_iff.mpr ⟨types, resolveTypes_checking htypes bare value hembedded, ?_⟩
  rw [hmake, ← hdata]
  unfold completed CreateOptions.checking
  cases o.embed with
  | true => rfl
  | false => simp only [Bool.false_eq_true, if_false, hembedded, Option.map_none, Option.or_none]

/-- **A proof that a suite makes with a wallet holds,** whatever choices it was made with: given
only the purpose if the proof embeds its context, and the same domain, schema and name of the struct
if not, a check rebuilds the data that was signed and gives the account of the wallet. The method
of the proof has to name this account, and the curve to recover the key from its signature of this
data. -/
theorem verify_created [Ecdsa] {w : Wallet} {p : StandardPurpose} {id : MethodId}
    (hsigner : s.signer = some w.signer) (hrecover : s.recoverer = recoverSigner)
    (hp : o.purpose = p.toPurpose) (h : s.create now document o = .ok proof)
    (hid : proof.methodId? = some id.text)
    (haddr : id.bareAddress.toList.map Char.toLower = w.address.toList.map Char.toLower)
    (hk : ∀ data digest, s.createWithData now document o = .ok (proof, data) →
      data.typedData.signingHash = .ok digest → Ecdsa.RecoversKey w.key digest) :
    ∃ data, s.createWithData now document o = .ok (proof, data) ∧
      rebuild proof document (o.checking loader) = .ok data ∧
      s.verify proof document (o.checking loader) = ⟨true, some id.text, some w.address, none⟩ := by
  obtain ⟨data, h⟩ := create_eq_ok_iff.mp h
  have hrebuild : rebuild proof document (o.checking loader) = .ok data := rebuild_created hp h
  refine ⟨data, h, hrebuild, ?_⟩
  obtain ⟨bare, types, signer, value, hbare, -, -, hs, hv, rfl⟩ := createWithData_eq_ok_iff.mp h
  obtain ⟨htype, -, -, start, hstart⟩ := unsigned_eq_ok hp hbare
  obtain rfl : w.signer = signer := Option.some.inj (hsigner.symm.trans hs)
  have hmethod : MethodId.ofText id.text = .ok id := dif_pos ((MethodId.isValid_iff _).mpr id.valid)
  have hrecovered : s.recoverer data.typedData value = .ok w.address := by
    rw [hrecover]
    exact recoverSigner_of_sign (fun digest hdigest => hk data digest h hdigest) hv
  have hsignature : s.verifySignature data.typedData value id.text = .ok w.address :=
    verifySignature_eq_ok_iff.mpr ⟨id, hmethod, hrecovered, accountsMatch_toText haddr⟩
  have haccepts : (o.checking loader).purpose.accepts
      (completed o types bare value).withoutValue document = .ok () := by
    have hpurpose : (o.checking loader).purpose = p.toPurpose := by
      unfold CreateOptions.checking
      split <;> exact hp
    rw [hpurpose]
    exact p.accepts_of_update start (hstart ▸ rfl) (hstart ▸ rfl)
  have hcheck : s.check (completed o types bare value) document (o.checking loader)
      = .ok w.address :=
    check_eq_ok_iff.mpr ⟨htype, value, id.text, data, rfl, hid, hrebuild, hsignature, haccepts⟩
  unfold verify
  rw [hcheck, hid]
  rfl

/-- The wallet of the smallest key. -/
def unitWallet : Wallet := ⟨⟨1, by decide, by decide⟩⟩

/-- What the curve answers for this key and the data of the sample below: the signature of the data,
and the point that is the public key. -/
abbrev unitCurve : Ecdsa where
  sign? _ _ := some {
    r := ⟨77289335353551626135776050945187546048136858014586529838691123371192452103877,
      by decide, by decide⟩
    s := ⟨24677966092642204014143518277690375185279913395862553747961576491166665621215,
      by decide, by decide⟩
    odd := false
    reduced := false }
  recover? _ _ := some Secp256k1.Point.generator

theorem recoversKey_unit (digest : Word) : @Ecdsa.RecoversKey unitCurve unitWallet.key digest := by
  intro s hs
  cases hs
  refine ⟨by decide, Secp256k1.Point.generator,
    (Secp256k1.Point.generator.x, Secp256k1.Point.generator.y), rfl, ?_, ?_⟩
  · decide +kernel
  · decide +kernel

/-- A suite that signs with the wallet and names its account. -/
def unitSuite : Suite :=
  ⟨some (@Wallet.signer unitCurve unitWallet), @recoverSigner unitCurve,
    some unitWallet.key.address.toMethodId, none⟩

/-- An answer to a challenge, with everything embedded that the check needs. -/
def unitOptions : CreateOptions where
  purpose := (StandardPurpose.authentication "nonce" (some "example.org")).toPurpose
  method := none
  date := none
  domain := none
  types := none
  primaryType := none
  embed := true

theorem verify_created_unit : ∃ proof data,
    unitSuite.createWithData ⟨0, by decide, by decide⟩ (Derive.sample 2).json unitOptions
        = .ok (proof, data) ∧
      rebuild proof (Derive.sample 2).json (unitOptions.checking none) = .ok data ∧
      unitSuite.verify proof (Derive.sample 2).json (unitOptions.checking none)
        = ⟨true, some unitWallet.address, some unitWallet.address, none⟩ := by
  obtain ⟨w, hw⟩ := (@Derive.exists_hash_iff _ (Derive.sample 2) rfl).mpr
    Derive.isUnsigned_of_mem_sample
  obtain ⟨proof, data, h, hid⟩ : ∃ proof data,
      unitSuite.createWithData ⟨0, by decide, by decide⟩ (Derive.sample 2).json unitOptions
        = .ok (proof, data) ∧ proof.methodId? = some unitWallet.key.address.toMethodId.text := by
    exact ⟨_, _, createWithData_eq_ok_iff.mpr ⟨_, _, _, _, rfl, rfl, rfl, rfl,
      bind_eq_ok_iff.mpr ⟨_, bind_eq_ok_iff.mpr ⟨w, hw, rfl⟩, rfl⟩, rfl⟩, rfl⟩
  obtain ⟨data, hdata⟩ := @verify_created unitSuite _ _ _ proof none unitCurve unitWallet _ _ rfl rfl
    rfl (create_eq_ok_iff.mpr ⟨data, h⟩) hid
    (by rw [Address.bareAddress_toMethodId]; rfl) fun _ digest _ _ => recoversKey_unit digest
  exact ⟨proof, data, hdata⟩

end Suite

end DocumentProof
