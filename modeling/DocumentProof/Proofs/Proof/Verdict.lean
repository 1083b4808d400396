import DocumentProof.Proofs.Proof.Signable

/-!
# When a proof holds

What each part of a check asks for, said without the order in which a check goes through it. The
domain, the schema and the name of the struct are each chosen on their own: what the checker gives,
else what the proof embeds, else a default (`VerifyOptions.ChoosesTypes` for the schema). Canonical
texts exist where all numbers are integers (`Suite.exists_make_iff`). A check gives an account
exactly when the recoverer gives it for this data, the method names it and the purpose accepts the
proof (`Suite.check_iff`). So a proof holds in these cases only, and every other outcome shows its
cause (`Suite.verified_exactly`).
-/

namespace DocumentProof

/-! ## The context of a check -/

/-- A source gives the schema that stands in it, or the one that the loader finds under its URI. -/
inductive SchemaSource.Gives (loader : Option Loader) : SchemaSource → TypeSchema → Prop
  | inline (types : TypeSchema) : Gives loader (.inline types) types
  | remote {uri : String} {load : Loader} {found : RemoteDocument} {types : TypeSchema}
      (hload : loader = some load) (hfound : load uri = .ok found)
      (htypes : TypeSchema.ofJson found.document = .ok types) : Gives loader (.remote uri) types

theorem SchemaSource.resolve_eq_ok_iff {loader : Option Loader} {source : SchemaSource}
    {types : TypeSchema} : source.resolve loader = .ok types ↔ source.Gives loader types := by
  cases source with
  | inline given =>
    constructor
    · rintro ⟨⟩
      exact .inline _
    · rintro ⟨⟩
      rfl
  | remote uri =>
    cases loader with
    | none =>
      constructor
      · intro h
        cases h
      · rintro (_ | ⟨hload, _, _⟩)
        cases hload
    | some load =>
      simp only [resolve, bind_eq_ok_iff, mapError_eq_ok_iff]
      constructor
      · rintro ⟨found, hfound, htypes⟩
        exact .remote rfl hfound htypes
      · rintro (_ | ⟨⟨⟩, hfound, htypes⟩)
        exact ⟨_, hfound, htypes⟩

namespace VerifyOptions

/-- The domain that is given, else the embedded one, else the empty one. -/
def chosenDomain (v : VerifyOptions) (proof : Proof) : Domain :=
  match v.domain, proof.embedded with
  | some domain, _ => domain
  | none, some context => context.domain
  | none, none => Domain.empty

/-- The name of the struct that is given, else the embedded one, else the one of whole documents. -/
def chosenName (v : VerifyOptions) (proof : Proof) : String :=
  match v.primaryType, proof.embedded with
  | some name, _ => name
  | none, some context => context.primaryType
  | none, none => Derive.rootType

/-- The schema is the one that is given, else the embedded one, else the one that is derived from
the document. -/
inductive ChoosesTypes (v : VerifyOptions) (proof : Proof) (document : Json) : TypeSchema → Prop
  | given {source : SchemaSource} {types : TypeSchema} (hgiven : v.types = some source)
      (hsource : source.Gives v.loader types) : ChoosesTypes v proof document types
  | embedded {context : EmbeddedDomain} {types : TypeSchema} (hgiven : v.types = none)
      (hproof : proof.embedded = some context) (hsource : context.schema.Gives v.loader types) :
      ChoosesTypes v proof document types
  | derived {types : TypeSchema} (hgiven : v.types = none) (hproof : proof.embedded = none)
      (htypes : deriveTypes document = .ok types) : ChoosesTypes v proof document types

end VerifyOptions

theorem Suite.resolveTypes_eq_ok_iff {v : VerifyOptions} {proof : Proof} {document : Json}
    {types : TypeSchema} : resolveTypes document proof.embedded v = .ok types ↔
      v.ChoosesTypes proof document types := by
  unfold resolveTypes
  constructor
  · intro h
    cases hgiven : v.types with
    | some source =>
      rw [hgiven] at h
      exact .given hgiven (SchemaSource.resolve_eq_ok_iff.mp h)
    | none =>
      cases hproof : proof.embedded with
      | some context =>
        rw [hgiven, hproof] at h
        exact .embedded hgiven hproof (SchemaSource.resolve_eq_ok_iff.mp h)
      | none =>
        rw [hgiven, hproof] at h
        exact .derived hgiven hproof (mapError_eq_ok_iff.mp h)
  · rintro (⟨hgiven, hsource⟩ | ⟨hgiven, hproof, hsource⟩ | ⟨hgiven, hproof, htypes⟩)
    · rw [hgiven]
      exact SchemaSource.resolve_eq_ok_iff.mpr hsource
    · rw [hgiven, hproof]
      exact SchemaSource.resolve_eq_ok_iff.mpr hsource
    · rw [hgiven, hproof]
      exact mapError_eq_ok_iff.mpr htypes

/-! ## Canonical texts -/

/-- **Typed data has a canonical text exactly if its message has one.** -/
theorem TypedData.whole_toJson_iff {t : TypedData} : t.toJson.IsWhole ↔ t.message.IsWhole := by
  refine ⟨fun h => ?_, TypedData.whole_toJson⟩
  have hnodup : ([("domain", t.domain.toJson), ("types", t.types.toJson),
      ("primaryType", Json.string t.primaryType), ("message", t.message)].map (·.1)).Nodup := by
    simp
  have hget := Keyed.get?_ofList_of_nodup hnodup "message"
  simp only [Keyed.get?_cons, String.reduceEq, reduceIte] at hget
  exact Json.whole_object_iff.mp h _ (Keyed.mem_of_get? hget)

/-- Every number in the proof is an integer, but for those under the key of the signature and in the
context. -/
def Proof.IsWhole (p : Proof) : Prop :=
  ∀ key x, p.withoutValue.withoutContext.toJson.get? key = some x → key ≠ valueKey → x.IsWhole

theorem Proof.exists_canonical_iff {p : Proof} :
    (∃ text, p.withoutValue.withoutContext.toJson.canonicalWithout valueKey = .ok text) ↔
      p.IsWhole := Json.exists_canonicalWithout_iff (Keyed.increasing_ofList _)

namespace Suite

variable {s : Suite} {proof : Proof} {document : Json} {v : VerifyOptions} {account : String}

/-- **The data of a check exists exactly if document and proof have canonical texts.** -/
theorem exists_make_iff {domain : Domain} {types : TypeSchema} {name : String} :
    (∃ data, VerifyData.make document proof.withoutValue domain types name = .ok data) ↔
      document.IsWhole ∧ proof.IsWhole := by
  have hmessage : (TypedData.make domain types name document).toJson.IsWhole ↔ document.IsWhole :=
    TypedData.whole_toJson_iff
  unfold VerifyData.make
  simp only [bind_eq_ok_iff, mapError_eq_ok_iff, pure_eq_ok_iff]
  rw [← hmessage, ← Json.exists_canonical_iff, ← Proof.exists_canonical_iff]
  constructor
  · rintro ⟨_, proofText, hproof, envelopeText, henvelope, -⟩
    exact ⟨⟨envelopeText, henvelope⟩, proofText, hproof⟩
  · rintro ⟨⟨envelopeText, henvelope⟩, proofText, hproof⟩
    exact ⟨_, proofText, hproof, envelopeText, henvelope, rfl⟩

theorem rebuild_eq_ok_iff {data : VerifyData} : rebuild proof document v = .ok data ↔
    ∃ types, v.ChoosesTypes proof document types ∧
      VerifyData.make document proof.withoutValue (v.chosenDomain proof) types (v.chosenName proof)
        = .ok data := by
  have hdomain : (v.domain.or (proof.embedded.map (·.domain))).getD Domain.empty =
      v.chosenDomain proof := by
    unfold VerifyOptions.chosenDomain
    cases v.domain <;> cases proof.embedded <;> rfl
  have hname : (v.primaryType.or (proof.embedded.map (·.primaryType))).getD Derive.rootType =
      v.chosenName proof := by
    unfold VerifyOptions.chosenName
    cases v.primaryType <;> cases proof.embedded <;> rfl
  unfold rebuild
  simp only [bind_eq_ok_iff, resolveTypes_eq_ok_iff, hdomain, hname]

/-! ## The outcome -/

/-- What a check has asked for when it compares accounts: a proof of the one type, whose method has
an identifier (a text that is not empty and has no blanks), canonical texts of the document and of
the proof, and a signature from which the recoverer gives the account for the document as typed data
in the chosen context. -/
structure Recovers (s : Suite) (proof : Proof) (document : Json) (v : VerifyOptions)
    (id : MethodId) (account : String) : Prop where
  type : proof.type = Proof.suiteType
  method : proof.methodId? = some id.text
  document_whole : document.IsWhole
  proof_whole : proof.IsWhole
  recovers : ∃ signature types, proof.value = some signature ∧
    v.ChoosesTypes proof document types ∧
    s.recoverer (TypedData.make (v.chosenDomain proof) types (v.chosenName proof) document)
      signature = .ok account

end Suite

/-- The identifier names the account, up to the case of ASCII letters. -/
def MethodId.Names (id : MethodId) (account : String) : Prop :=
  account ≠ "" ∧ account.toList.map Char.toLower = id.bareAddress.toList.map Char.toLower

theorem accountsMatch_iff {id : MethodId} {account : String} :
    accountsMatch account id.bareAddress = true ↔ id.Names account := by
  simp [accountsMatch, MethodId.Names]

/-- The text of an account names it. -/
theorem Address.names_toMethodId (a : Address) : a.toMethodId.Names a.toText :=
  accountsMatch_iff.mp (accountsMatch_toText (by rw [bareAddress_toMethodId]))

theorem MethodId.eq_of_text_eq {id id' : MethodId} (h : id.text = id'.text) : id = id' := by
  cases id
  cases id'
  cases h
  rfl

namespace Suite

variable {s : Suite} {proof : Proof} {document : Json} {v : VerifyOptions} {id : MethodId}
  {account : String}

/-- What a check has done when it compares accounts. -/
theorem recovers_iff : s.Recovers proof document v id account ↔
    proof.type = Proof.suiteType ∧ ∃ signature data, proof.value = some signature ∧
      proof.methodId? = some id.text ∧ rebuild proof document v = .ok data ∧
      s.recoverer data.typedData signature = .ok account := by
  constructor
  · rintro ⟨htype, hmethod, hdocument, hproof, signature, types, hvalue, htypes, hrecovered⟩
    obtain ⟨data, hdata⟩ := exists_make_iff.mpr ⟨hdocument, hproof⟩
    have hrebuild : rebuild proof document v = .ok data :=
      rebuild_eq_ok_iff.mpr ⟨types, htypes, hdata⟩
    rw [← typedData_of_make hdata] at hrecovered
    exact ⟨htype, signature, data, hvalue, hmethod, hrebuild, hrecovered⟩
  · rintro ⟨htype, signature, data, hvalue, hmethod, hdata, hrecovered⟩
    obtain ⟨types, htypes, hmake⟩ := rebuild_eq_ok_iff.mp hdata
    obtain ⟨hdocument, hproof⟩ := exists_make_iff.mp ⟨data, hmake⟩
    rw [typedData_of_make hmake] at hrecovered
    exact ⟨htype, hmethod, hdocument, hproof, signature, types, hvalue, htypes, hrecovered⟩

/-- There is at most one account to compare, and one identifier to compare it with. -/
theorem Recovers.unique {id' : MethodId} {other : String}
    (h : s.Recovers proof document v id account) (h' : s.Recovers proof document v id' other) :
    id = id' ∧ account = other := by
  obtain ⟨-, signature, data, hvalue, hmethod, hdata, hrecovered⟩ := recovers_iff.mp h
  obtain ⟨-, signature', data', hvalue', hmethod', hdata', hrecovered'⟩ := recovers_iff.mp h'
  obtain rfl : signature = signature' := Option.some.inj (hvalue.symm.trans hvalue')
  obtain rfl : data = data' := Except.ok.inj (hdata.symm.trans hdata')
  exact ⟨MethodId.eq_of_text_eq (Option.some.inj (hmethod.symm.trans hmethod')),
    Except.ok.inj (hrecovered.symm.trans hrecovered')⟩

/-- **A check gives the accounts that are recovered and named**, for proofs that the purpose
accepts. -/
theorem check_iff : s.check proof document v = .ok account ↔
    ∃ id, s.Recovers proof document v id account ∧ id.Names account ∧
      v.purpose.accepts proof.withoutValue document = .ok () := by
  simp only [check_eq_ok_iff, recovers_iff, verifySignature_eq_ok_iff, accountsMatch_iff]
  constructor
  · rintro ⟨htype, signature, method, data, hvalue, hmethod, hdata, ⟨id, hid, hrecovered, hnames⟩,
      haccepts⟩
    obtain rfl := MethodId.text_of_ofText hid
    exact ⟨id, ⟨htype, signature, data, hvalue, hmethod, hdata, hrecovered⟩, hnames, haccepts⟩
  · rintro ⟨id, ⟨htype, signature, data, hvalue, hmethod, hdata, hrecovered⟩, hnames, haccepts⟩
    exact ⟨htype, signature, id.text, data, hvalue, hmethod, hdata,
      ⟨id, id.ofText_text, hrecovered, hnames⟩, haccepts⟩

/-! ## What is made -/

/-- **A check of what a wallet has made gives its account,** if the method names it and the curve
recovers its key. -/
theorem check_created [Ecdsa] {w : Wallet} {maker : Suite} {now : Timestamp} {o : CreateOptions}
    {p : StandardPurpose} {data : VerifyData} {loader : Option Loader}
    (hsigner : maker.signer = some w.signer) (hrecover : s.recoverer = recoverSigner)
    (hp : o.purpose = p.toPurpose)
    (h : maker.createWithData now document o = .ok (proof, data))
    (hid : proof.methodId? = some id.text) (hnames : id.Names w.address)
    (hk : ∀ digest, data.typedData.signingHash = .ok digest → Ecdsa.RecoversKey w.key digest) :
    s.check proof document (o.checking loader) = .ok w.address := by
  have hrebuild : rebuild proof document (o.checking loader) = .ok data := rebuild_created hp h
  obtain ⟨bare, types, signer, value, hbare, -, -, hs, hvalue, rfl⟩ := createWithData_eq_ok_iff.mp h
  obtain ⟨htype, -, -, start, hstart⟩ := unsigned_eq_ok hp hbare
  obtain rfl : w.signer = signer := Option.some.inj (hsigner.symm.trans hs)
  have hrecovered : s.recoverer data.typedData value = .ok w.address := by
    rw [hrecover]
    exact recoverSigner_of_sign hk hvalue
  have hpurpose : (o.checking loader).purpose = p.toPurpose := by
    unfold CreateOptions.checking
    split <;> exact hp
  refine check_iff.mpr ⟨id, recovers_iff.mpr ⟨htype, value, data, rfl, hid, hrebuild, hrecovered⟩,
    hnames, ?_⟩
  rw [hpurpose]
  exact p.accepts_of_update start (hstart ▸ rfl) (hstart ▸ rfl)

/-! ## Mismatches -/

variable {expected : String}

/-- What is rebuilt is refused for other reasons than an account. -/
theorem rebuild_ne_mismatch :
    rebuild proof document v ≠ .error (.signatureMismatch expected account) := by
  intro h
  unfold rebuild at h
  -- its causes come from the loader, from decoding and derivation, and from the canonical texts
  rcases bind_eq_error_iff.mp h with h | ⟨types, -, h⟩
  · unfold resolveTypes at h
    split at h
    · next source _ =>
      unfold SchemaSource.resolve at h
      split at h
      · cases h
      · split at h
        · cases h
        · simp [bind_eq_error_iff, mapError_eq_error_iff] at h
    · simp [mapError_eq_error_iff] at h
  · simp [VerifyData.make, bind_eq_error_iff, mapError_eq_error_iff, pure, Except.pure] at h

theorem verifySignature_eq_mismatch_iff {t : TypedData} {signature method : String} :
    s.verifySignature t signature method = .error (.signatureMismatch expected account) ↔
      ∃ id, MethodId.ofText method = .ok id ∧ s.recoverer t signature = .ok account ∧
        ¬ id.Names account ∧ expected = id.bareAddress := by
  simp only [verifySignature, bind_eq_error_iff, mapError_eq_error_iff, mapError_eq_ok_iff,
    reduceCtorEq, and_false, exists_false, false_or, ← accountsMatch_iff]
  refine exists_congr fun id => and_congr_right fun _ => ?_
  constructor
  · rintro ⟨recovered, hrecovered, h⟩
    split at h
    · cases h
    · next hmatch =>
      cases h
      exact ⟨hrecovered, hmatch, rfl⟩
  · rintro ⟨hrecovered, hmatch, rfl⟩
    exact ⟨account, hrecovered, if_neg hmatch⟩

/-- **A check ends with a mismatch** if the recovered account is not the one named, or if the
purpose gives it as its reason. -/
theorem check_eq_mismatch_iff :
    s.check proof document v = .error (.signatureMismatch expected account) ↔
      (∃ id, s.Recovers proof document v id account ∧ ¬ id.Names account ∧
        expected = id.bareAddress) ∨
      ∃ id named, s.Recovers proof document v id named ∧ id.Names named ∧
        v.purpose.accepts proof.withoutValue document =
          .error (.signatureMismatch expected account) := by
  simp only [recovers_iff]
  unfold check
  -- a wrong type, no signature and no method have causes of their own
  split_ifs with htype
  · simp [htype]
  rcases proof.value with _ | signature
  · simp
  rcases proof.methodId? with _ | method
  · simp
  rw [not_not] at htype
  simp only [bind_eq_error_iff, rebuild_ne_mismatch, false_or, verifySignature_eq_mismatch_iff,
    verifySignature_eq_ok_iff, accountsMatch_iff, pure, Except.pure, reduceCtorEq, and_false,
    exists_false, or_false, Option.some.injEq, htype, true_and]
  constructor
  · rintro ⟨data, hdata, ⟨id, hid, hrecovered, hnames, rfl⟩ |
      ⟨named, ⟨id, hid, hrecovered, hnames⟩, hrefuses⟩⟩
    · obtain rfl := MethodId.text_of_ofText hid
      exact .inl ⟨id, ⟨signature, data, rfl, rfl, hdata, hrecovered⟩, hnames, rfl⟩
    · obtain rfl := MethodId.text_of_ofText hid
      exact .inr ⟨id, named, ⟨signature, data, rfl, rfl, hdata, hrecovered⟩, hnames, hrefuses⟩
  · rintro (⟨id, ⟨_, data, rfl, rfl, hdata, hrecovered⟩, hnames, rfl⟩ |
      ⟨id, named, ⟨_, data, rfl, rfl, hdata, hrecovered⟩, hnames, hrefuses⟩)
    · exact ⟨data, hdata, .inl ⟨id, id.ofText_text, hrecovered, hnames, rfl⟩⟩
    · exact ⟨data, hdata, .inr ⟨named, ⟨id, id.ofText_text, hrecovered, hnames⟩, hrefuses⟩⟩

/-! ## Outcomes -/

/-- **When a proof holds, and what a check shows.** This is for every recoverer, purpose and loader.
A proof holds exactly when an account is recovered that its method names and the purpose accepts the
proof without its signature. In all other cases there is a cause. An account is shown with a proof
that holds, and with a mismatch; a mismatch shows the account that was recovered and the one that is
named, unless the purpose gives it as its reason. -/
theorem verified_exactly (s : Suite) (proof : Proof) (document : Json) (v : VerifyOptions) :
    ((s.verify proof document v).verified = true ↔
      ∃ id account, s.Recovers proof document v id account ∧ id.Names account ∧
        v.purpose.accepts proof.withoutValue document = .ok ()) ∧
    ((s.verify proof document v).verified = false ↔
      ∃ e, (s.verify proof document v).error = some e) ∧
    (∀ account, (s.verify proof document v).recovered = some account ↔
      ((s.verify proof document v).verified = true ∧ ∃ id, s.Recovers proof document v id account) ∨
      ∃ expected, (s.verify proof document v).error = some (.signatureMismatch expected account)) ∧
    ∀ expected account,
      (s.verify proof document v).error = some (.signatureMismatch expected account) ↔
        (∃ id, s.Recovers proof document v id account ∧ ¬ id.Names account ∧
          expected = id.bareAddress) ∨
        ∃ id named, s.Recovers proof document v id named ∧ id.Names named ∧
          v.purpose.accepts proof.withoutValue document =
            .error (.signatureMismatch expected account) := by
  simp only [← Bool.not_eq_true, verified_iff, error_eq_some_iff, recovered_eq_some_iff]
  refine ⟨?_, ?_, fun account => or_congr_left ?_, fun expected account => check_eq_mismatch_iff⟩
  · rw [exists_comm]
    exact exists_congr fun account => check_iff
  · cases s.check proof document v <;> simp
  · constructor
    · intro h
      obtain ⟨id, hrecovers, -⟩ := check_iff.mp h
      exact ⟨⟨account, h⟩, id, hrecovers⟩
    · rintro ⟨⟨named, h⟩, id, hrecovers⟩
      obtain ⟨id', hnamed, hholds⟩ := check_iff.mp h
      obtain ⟨rfl, rfl⟩ := hrecovers.unique hnamed
      exact h

end Suite

end DocumentProof
