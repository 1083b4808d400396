import DocumentProof.Proofs.Proof.Signable
import DocumentProof.Proofs.Schema.Respelled
import DocumentProof.Proofs.TypedData.Envelope

/-!
# What a proof with its schema binds

A proof that embeds the derived schema of its document is checked under this schema, whatever
document it is checked with. It binds the document but for the spelling of its numbers, which the
schema leaves open: a document has the same hash exactly when it respells the one that was signed,
unless byte strings collide (`embedded_schema_binds`). So if the proof holds for another document,
the signature gives the named account for two digests.
-/

namespace DocumentProof

namespace TypedData

variable {t₁ t₂ : TypedData} {w w₁ w₂ : Word}

/-- Messages under one schema that have one signing hash say the same. -/
theorem said_eq_of_signingHash_eq (htypes : t₁.messageTypes = t₂.messageTypes)
    (hname : t₁.primaryType = t₂.primaryType) (h₁ : t₁.signingHash = .ok w)
    (h₂ : t₂.signingHash = .ok w) (hcol : ¬ Collides (t₁.hashed ++ t₂.hashed)) :
    t₁.said? = t₂.said? := by
  have hinj := injOn_of_not_collides hcol
  obtain ⟨a₁, ha₁, hw₁⟩ := signingHash_eq_ok_iff.mp h₁
  obtain ⟨a₂, ha₂, hw₂⟩ := signingHash_eq_ok_iff.mp h₂
  have hin₁ : ∀ b ∈ t₁.hashed, b ∈ {b | b ∈ t₁.hashed ++ t₂.hashed} :=
    fun b hb => List.mem_append_left _ hb
  have hin₂ : ∀ b ∈ t₂.hashed, b ∈ {b | b ∈ t₁.hashed ++ t₂.hashed} :=
    fun b hb => List.mem_append_right _ hb
  have hsigned := hinj (hin₁ _ (by rw [hashed_eq ha₁]; exact List.mem_cons_self))
    (hin₂ _ (by rw [hashed_eq ha₂]; exact List.mem_cons_self)) (hw₁.trans hw₂.symm)
  have hword := eq_of_signedBytes_eq hsigned
  have hagree : ∀ used, (FieldType.struct t₁.primaryType).structName? = some used →
      TypeSchema.Agree t₁.messageTypes t₂.messageTypes used := by
    intro used _ x _
    rw [htypes]
  have ha₂' : TypedValue.ofJson? t₂.messageTypes t₂.message (.struct t₁.primaryType) = some a₂ := by
    rw [hname]
    exact ha₂
  have hsame : a₁ = a₂ := TypedValue.eq_of_word_eq hinj hagree ha₁ ha₂'
    (fun b hb => hin₁ b (mem_hashed_of_said ha₁ hb)) (fun b hb => hin₂ b (mem_hashed_of_said ha₂ hb))
    hword
  rw [ha₁, ha₂, hsame]

/-- Messages that say the same under one domain have one signing hash. -/
theorem signingHash_eq_of_said_eq (hdomain : t₁.domain = t₂.domain) (hsaid : t₁.said? = t₂.said?)
    (h₁ : t₁.signingHash = .ok w₁) (h₂ : t₂.signingHash = .ok w₂) : w₁ = w₂ := by
  obtain ⟨a₁, ha₁, rfl⟩ := signingHash_eq_ok_iff.mp h₁
  obtain ⟨a₂, ha₂, rfl⟩ := signingHash_eq_ok_iff.mp h₂
  obtain rfl : a₁ = a₂ := Option.some.inj (ha₁.symm.trans (hsaid.trans ha₂))
  rw [hdomain]

end TypedData

namespace Derive

variable {types : TypeSchema} {d₁ d₂ : Document}

/-- Where the document has a signing hash, typed data keeps the whole derived schema. -/
theorem messageTypes_make {domain : Domain} {w : Word} (h : deriveTypes d₁.json = .ok types)
    (hw : (TypedData.make domain types rootType d₁.json).signingHash = .ok w) (d : Json) :
    (TypedData.make domain types rootType d).messageTypes = types := by
  obtain ⟨hash, hhash, -⟩ := bind_eq_ok_iff.mp hw
  rw [Suite.structHash_make] at hhash
  obtain ⟨hkey, -⟩ := (exists_hash_remove_iff h).mp ⟨hash, hhash⟩
  have hremove : types.remove Domain.typeName = types := remove_eq_of_forall_notMem h hkey
  unfold TypedData.make TypedData.messageTypes
  rw [hremove, hremove]

/-- **Under a derived schema the signing hash binds the document but for the spelling of its
numbers.** -/
theorem signingHash_eq_iff {domain : Domain} {w₁ w₂ : Word} (h : deriveTypes d₁.json = .ok types)
    (hw₁ : (TypedData.make domain types rootType d₁.json).signingHash = .ok w₁)
    (hw₂ : (TypedData.make domain types rootType d₂.json).signingHash = .ok w₂) :
    (w₁ = w₂ → Json.Respells d₁.json d₂.json ∨
      Collides ((TypedData.make domain types rootType d₁.json).hashed ++
        (TypedData.make domain types rootType d₂.json).hashed)) ∧
    (Json.Respells d₁.json d₂.json → w₁ = w₂) := by
  obtain ⟨hfit, -⟩ := fits_of_deriveTypes h
  have htypes := messageTypes_make h hw₁
  obtain ⟨a, ha, -⟩ := TypedData.signingHash_eq_ok_iff.mp hw₁
  have hsaid : TypedValue.ofJson? types d₁.json (.struct rootType) = some a := by
    rw [← htypes d₁.json]
    exact ha
  have hrespells : (TypedData.make domain types rootType d₂.json).said? = some a ↔
      Json.Respells d₁.json d₂.json := by
    rw [← same_said_iff d₁.sorted hfit hsaid d₂.json d₂.sorted]
    unfold TypedData.said?
    rw [htypes d₂.json]
    exact Iff.rfl
  constructor
  · rintro rfl
    rw [or_iff_not_imp_right]
    intro hcol
    have hsame := TypedData.said_eq_of_signingHash_eq ((htypes d₁.json).trans (htypes d₂.json).symm)
      rfl hw₁ hw₂ hcol
    exact hrespells.mp (hsame.symm.trans ha)
  · intro hr
    have hsame : (TypedData.make domain types rootType d₁.json).said? =
        (TypedData.make domain types rootType d₂.json).said? := ha.trans (hrespells.mpr hr).symm
    have hdomain : (TypedData.make domain types rootType d₁.json).domain =
        (TypedData.make domain types rootType d₂.json).domain := rfl
    exact TypedData.signingHash_eq_of_said_eq hdomain hsame hw₁ hw₂

end Derive

namespace Suite

variable {s : Suite} {now : Timestamp} {o : CreateOptions} {v : VerifyOptions} {proof : Proof}
  {d₁ d₂ : Json} {types : TypeSchema}

/-- The signature of the proof gives the account that the proof names for this digest, though it was
made for another one. -/
def SignsOther [Ecdsa] (proof : Proof) (made other : Word) : Prop :=
  made ≠ other ∧ ∃ (signature account : String) (id : MethodId), proof.value = some signature ∧
    proof.methodId? = some id.text ∧ recoverHash other signature = .ok account ∧
    accountsMatch account id.bareAddress = true

/-- A proof with its context embeds the derived schema, under which the document has a hash. -/
theorem embedded_of_create [Ecdsa] {w : Wallet} (hsigner : s.signer = some w.signer)
    (htypes : deriveTypes d₁ = .ok types) (hot : o.types = none) (hop : o.primaryType = none)
    (hembed : o.embed = true) (h : s.create now d₁ o = .ok proof) :
    proof.embedded = some ⟨o.domain.getD Domain.empty, .inline types, Derive.rootType⟩ ∧
      ∃ digest, (TypedData.make (o.domain.getD Domain.empty) types Derive.rootType d₁).signingHash
        = .ok digest := by
  obtain ⟨data, h⟩ := create_eq_ok_iff.mp h
  obtain ⟨bare, types', signer, value, -, htypes', hdata, hsigner', hvalue, rfl⟩ :=
    createWithData_eq_ok_iff.mp h
  obtain rfl : w.signer = signer := Option.some.inj (hsigner.symm.trans hsigner')
  rw [hot] at htypes'
  have hderived : deriveTypes d₁ = .ok types' := mapError_eq_ok_iff.mp htypes'
  obtain rfl : types = types' := Except.ok.inj (htypes.symm.trans hderived)
  rw [hop] at hdata
  constructor
  · unfold completed
    rw [hembed, hop]
    rfl
  · obtain ⟨digest, hdigest, -⟩ := bind_eq_ok_iff.mp hvalue
    rw [typedData_of_make hdata] at hdigest
    exact ⟨digest, hdigest⟩

/-- A check that is given no context takes the one in the proof. -/
theorem rebuild_embedded {domain : Domain} {name : String} {data : VerifyData}
    (hproof : proof.embedded = some ⟨domain, .inline types, name⟩) (hvd : v.domain = none)
    (hvt : v.types = none) (hvp : v.primaryType = none) (h : rebuild proof d₂ v = .ok data) :
    data.typedData = TypedData.make domain types name d₂ := by
  unfold rebuild resolveTypes at h
  rw [hproof, hvd, hvt, hvp] at h
  exact typedData_of_make h

/-- **A proof with its derived schema binds its document** but for the spelling of its numbers. Under
this schema the documents with the hash of the signed one are those that respell it, unless byte
strings collide. A proof that a wallet made with its context does not hold for any other document,
unless byte strings collide or the signature gives the account for a second digest. -/
theorem embedded_schema_binds (domain : Domain) {d₁ d₂ : Document}
    (h : deriveTypes d₁.json = .ok types) :
    (∀ w₁ w₂, (TypedData.make domain types Derive.rootType d₁.json).signingHash = .ok w₁ →
      (TypedData.make domain types Derive.rootType d₂.json).signingHash = .ok w₂ →
      (w₁ = w₂ → Json.Respells d₁.json d₂.json ∨
        Collides ((TypedData.make domain types Derive.rootType d₁.json).hashed ++
          (TypedData.make domain types Derive.rootType d₂.json).hashed)) ∧
      (Json.Respells d₁.json d₂.json → w₁ = w₂)) ∧
    ∀ [Ecdsa] (s checker : Suite) (w : Wallet) (now : Timestamp) (o : CreateOptions)
      (v : VerifyOptions) (proof : Proof), s.signer = some w.signer →
      checker.recoverer = recoverSigner → o.domain.getD Domain.empty = domain → o.types = none →
      o.primaryType = none → o.embed = true → v.domain = none → v.types = none →
      v.primaryType = none → s.create now d₁.json o = .ok proof →
      (checker.verify proof d₂.json v).verified = true →
      Json.Respells d₁.json d₂.json ∨
        Collides ((TypedData.make domain types Derive.rootType d₁.json).hashed ++
          (TypedData.make domain types Derive.rootType d₂.json).hashed) ∨
        ∃ w₁ w₂, (TypedData.make domain types Derive.rootType d₁.json).signingHash = .ok w₁ ∧
          (TypedData.make domain types Derive.rootType d₂.json).signingHash = .ok w₂ ∧
          SignsOther proof w₁ w₂ := by
  refine ⟨fun w₁ w₂ hw₁ hw₂ => Derive.signingHash_eq_iff h hw₁ hw₂, ?_⟩
  rintro _ s checker w now o v proof hsigner hrecover rfl hot hop hembed hvd hvt hvp hcreate hverify
  obtain ⟨hproof, w₁, hw₁⟩ := embedded_of_create hsigner h hot hop hembed hcreate
  obtain ⟨account, hcheck⟩ := verified_iff.mp hverify
  obtain ⟨-, signature, method, data, hvalue, hmethod, hdata, hsignature, -⟩ :=
    check_eq_ok_iff.mp hcheck
  obtain ⟨id, hid, hrecovered, hmatch⟩ := verifySignature_eq_ok_iff.mp hsignature
  rw [hrecover, rebuild_embedded hproof hvd hvt hvp hdata] at hrecovered
  obtain ⟨w₂, hw₂, haccount⟩ := bind_eq_ok_iff.mp hrecovered
  obtain ⟨hbinds, -⟩ := Derive.signingHash_eq_iff h hw₁ hw₂
  by_cases heq : w₁ = w₂
  · rcases hbinds heq with hr | hcol
    · exact Or.inl hr
    · exact Or.inr (Or.inl hcol)
  · have hname : id.text = method := MethodId.text_of_ofText hid
    exact Or.inr (Or.inr ⟨w₁, w₂, hw₁, hw₂, heq, signature, account, id, hvalue,
      hname ▸ hmethod, haccount, hmatch⟩)

/-! ### A number and its text -/

/-- A document with one member. -/
def single (x : Json) : Json := .object [("a", x)]

/-- The schema of such a document, if the member is a number. -/
def singleTypes : TypeSchema := KeyMap.ofList [("Document", [⟨"a", "uint256"⟩])]

def singleData (x : Json) : TypedData :=
  TypedData.make Domain.empty singleTypes Derive.rootType (single x)

theorem sorted_single {x : Json} (h : x.Sorted) : (single x).Sorted :=
  ⟨List.pairwise_singleton _ _, h, trivial⟩

theorem deriveTypes_single : deriveTypes (single (Json.ofNat 1)) = .ok singleTypes := by
  decide +kernel

theorem respells_single : Json.Respells (single (Json.ofNat 1)) (single (.string "1")) :=
  ⟨_, rfl, .string "1", [], rfl, Or.inr ⟨"1", 1, rfl, rfl, by decide⟩, rfl⟩

/-- The text of the struct. -/
def singleText : String := "Document(uint256 a)"

theorem single_said {x : Json} (h : TypedValue.atom? (.uint 31) x = some (.number 1)) :
    (singleData x).said? = some (.struct singleText [("a", .number 1)]) := by
  have htype : (singleData .null).messageTypes.encodeType Derive.rootType = .ok singleText := by
    decide +kernel
  unfold TypedData.said?
  rw [TypedValue.ofJson?_struct_eq_some_iff]
  refine ⟨_, _, _, _, rfl, rfl, rfl, rfl, htype, List.Forall₂.cons ?_ List.Forall₂.nil⟩
  refine ⟨rfl, x, .uint 31, rfl, by decide +kernel, ?_⟩
  simp only [TypedValue.ofJson?]
  exact h

theorem embedded_schema_binds_single : ∃ w,
    (singleData (Json.ofNat 1)).signingHash = .ok w ∧
      (singleData (.string "1")).signingHash = .ok w := by
  have h₁ := TypedData.signingHash_eq_ok_iff.mpr ⟨_, single_said (x := Json.ofNat 1) rfl, rfl⟩
  have h₂ := TypedData.signingHash_eq_ok_iff.mpr ⟨_, single_said (x := .string "1") rfl, rfl⟩
  let d₁ : Document := ⟨single (Json.ofNat 1), sorted_single trivial⟩
  let d₂ : Document := ⟨single (.string "1"), sorted_single trivial⟩
  have htypes : deriveTypes d₁.json = .ok singleTypes := deriveTypes_single
  have hsame := ((@embedded_schema_binds _ Domain.empty d₁ d₂ htypes).1 _ _ h₁ h₂).2 respells_single
  exact ⟨_, h₁, hsame ▸ h₂⟩

/-- The byte strings that are hashed for both. -/
def singleInputs : List Bytes :=
  [TypedData.signedBytes 0x6192106f129ce05c9075d319c1fa6ea9b3ae37cbd0c1ef92e2be7137bb07baa1
      0x8e3fa08a7b1a63380f2de990449c19f4317b70c03ac9c59a9c3ccd6a38bcd6b7,
    Encode.concat [0x20bcc3f8105eea47d067386e42e60246e89393cd61c512edd1e87688890fb914],
    Bytes.ofString "EIP712Domain()",
    Encode.concat [0x8cc076b47d3cb2297600c98e6cf3c8c77153c73e9a251876c2dd20cd898c6433, 1],
    Bytes.ofString singleText]

theorem singleInputs_digests : singleInputs.map keccak256 =
    [0x04662278b7f1faa4e19e950e6b58699a57914f4bf85abad63a90ca5e2474053a,
      0x6192106f129ce05c9075d319c1fa6ea9b3ae37cbd0c1ef92e2be7137bb07baa1,
      0x20bcc3f8105eea47d067386e42e60246e89393cd61c512edd1e87688890fb914,
      0x8e3fa08a7b1a63380f2de990449c19f4317b70c03ac9c59a9c3ccd6a38bcd6b7,
      0x8cc076b47d3cb2297600c98e6cf3c8c77153c73e9a251876c2dd20cd898c6433] := by
  rw [keccak256_eq_packed]
  decide +kernel

theorem hashed_eq_singleInputs {x : Json}
    (h : TypedValue.atom? (.uint 31) x = some (.number 1)) : (singleData x).hashed = singleInputs := by
  have hdigests := singleInputs_digests
  simp only [singleInputs, List.map_cons, List.map_nil, List.cons.injEq] at hdigests
  obtain ⟨-, -, -, hdata, htext, -⟩ := hdigests
  obtain ⟨hseparator, hdomainHashed⟩ := TypedData.separator_empty
  have hdomain : (singleData x).domain = Domain.empty := rfl
  have hwords : TypedValue.memberWords keccak256 [("a", .number 1)] = [1] := rfl
  have hnone : TypedValue.membersHashed keccak256 [("a", .number 1)] = [] := rfl
  rw [TypedData.hashed_eq (single_said h), hdomain, hseparator, hdomainHashed, TypedValue.word,
    TypedValue.hashed, hwords, hnone, htext, hdata]
  rfl

theorem embedded_schema_confuses_single :
    deriveTypes (single (Json.ofNat 1)) = .ok singleTypes ∧
    single (Json.ofNat 1) ≠ single (.string "1") ∧
    (∃ w, (singleData (Json.ofNat 1)).signingHash = .ok w ∧
      (singleData (.string "1")).signingHash = .ok w) ∧
    ¬ Collides ((singleData (Json.ofNat 1)).hashed ++ (singleData (.string "1")).hashed) := by
  refine ⟨deriveTypes_single, by decide, ?_, ?_⟩
  · exact ⟨_, TypedData.signingHash_eq_ok_iff.mpr ⟨_, single_said rfl, rfl⟩,
      TypedData.signingHash_eq_ok_iff.mpr ⟨_, single_said rfl, rfl⟩⟩
  · rw [hashed_eq_singleInputs (x := Json.ofNat 1) rfl, hashed_eq_singleInputs (x := .string "1") rfl]
    refine TypedData.not_collides_of_nodup ?_
    rw [singleInputs_digests]
    decide

end Suite

end DocumentProof
