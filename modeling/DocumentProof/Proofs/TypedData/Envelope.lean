import DocumentProof.Proofs.Hash.Packed
import DocumentProof.Proofs.TypedData.Binding

/-!
# What a signing hash binds

Two typed data with one signing hash have the same struct, the same definitions below it and
messages that say the same, unless two of the byte strings hashed for them have the same digest
(`signingHash_binds`). The names of fields must not hold the characters that set them off in the
text of a type, which nothing checks of a schema that comes from outside. Without this the law
fails: `splitLeft` and `splitRight` put the same text together from different fields.
-/

namespace DocumentProof

namespace TypeSchema

variable {types : TypeSchema} {key name : String}

/-! ### Schemas without one name -/

theorem refers_remove_iff {used : String} :
    Refers (types.remove key) name used ↔ name ≠ key ∧ Refers types name used := by
  unfold Refers
  simp only [KeyMap.get?_remove]
  by_cases h : name = key
  · simp [h]
  · simp [h]

theorem below_of_below_remove {x : String} (h : Below (types.remove key) name x) :
    Below types name x := by
  induction h with
  | refl => exact Relation.ReflTransGen.refl
  | tail _ hr ih => exact ih.tail (refers_remove_iff.mp hr).2

theorem get?_of_get?_remove {x : String} {fields : List Field}
    (h : (types.remove key).get? x = some fields) : x ≠ key ∧ types.get? x = some fields := by
  rw [KeyMap.get?_remove] at h
  split_ifs at h with hx
  exact ⟨hx, h⟩

theorem Separable.remove (h : Separable types name) (key : String) :
    Separable (types.remove key) name :=
  ⟨h.own, fun x fields hb hg => h.fields x fields (below_of_below_remove hb)
    (get?_of_get?_remove hg).2⟩

/-- Where the walk succeeds without a name, the name is not below the struct. -/
theorem ne_of_below_remove {found : NameSet} (hfound : references (types.remove key) name = .ok found)
    {x : String} (hx : Below (types.remove key) name x) : x ≠ key :=
  (get?_of_get?_remove (get?_of_below hfound hx)).1

theorem below_remove_iff {found : NameSet}
    (hfound : references (types.remove key) name = .ok found) {x : String} :
    Below (types.remove key) name x ↔ Below types name x := by
  refine ⟨below_of_below_remove, fun hx => ?_⟩
  induction hx with
  | refl => exact Relation.ReflTransGen.refl
  | tail _ hr ih => exact ih.tail (refers_remove_iff.mpr ⟨ne_of_below_remove hfound ih, hr⟩)

theorem get?_remove_of_below {found : NameSet}
    (hfound : references (types.remove key) name = .ok found) {x : String}
    (hx : Below types name x) : (types.remove key).get? x = types.get? x := by
  rw [KeyMap.get?_remove, if_neg (ne_of_below_remove hfound ((below_remove_iff hfound).mpr hx))]

end TypeSchema

/-- The text of a domain's type, as bytes. -/
def Domain.typeBytes (d : Domain) : Bytes :=
  Bytes.ofString (TypeSchema.renderType typeName d.fields)

/-- The byte strings that are hashed for the separator of a domain. -/
def Domain.hashed (d : Domain) : List Bytes :=
  Encode.concat (keccak256 d.typeBytes :: d.words) :: d.typeBytes ::
    [d.name.map Bytes.ofString, d.version.map Bytes.ofString].filterMap id

namespace TypedData

/-- What the message says. -/
def said? (t : TypedData) : Option TypedValue :=
  TypedValue.ofJson? t.messageTypes t.message (.struct t.primaryType)

/-- The bytes whose hash is signed, for the hashes of domain and message. -/
def signedBytes (separator message : Word) : Bytes :=
  0x19 :: 0x01 :: Encode.concat [separator, message]

/-- The byte strings that are hashed for the signing hash. -/
def hashed (t : TypedData) : List Bytes :=
  match t.said? with
  | some a =>
    signedBytes t.domain.separator (a.word keccak256) :: (t.domain.hashed ++ a.hashed keccak256)
  | none => []

/-- The same struct, with the same definitions below it, and messages that say the same. -/
structure SameContent (t₁ t₂ : TypedData) : Prop where
  primaryType : t₁.primaryType = t₂.primaryType
  below : ∀ x, t₁.types.Below t₁.primaryType x ↔ t₂.types.Below t₂.primaryType x
  definitions : ∀ x, t₁.types.Below t₁.primaryType x → t₁.types.get? x = t₂.types.get? x
  message : ∃ a, t₁.said? = some a ∧ t₂.said? = some a

theorem signingHash_eq_ok_iff {t : TypedData} {w : Word} :
    t.signingHash = .ok w ↔ ∃ a, t.said? = some a ∧
      keccak256 (signedBytes t.domain.separator (a.word keccak256)) = w := by
  unfold signingHash structHash
  simp only [bind_eq_ok_iff, pure_eq_ok_iff, TypeSchema.hashStruct_eq_ok_iff]
  constructor
  · rintro ⟨_, ⟨a, ha, rfl⟩, rfl⟩
    exact ⟨a, ha, rfl⟩
  · rintro ⟨a, ha, rfl⟩
    exact ⟨_, ⟨a, ha, rfl⟩, rfl⟩

/-- Where a message says something, the walk from the primary type succeeds. -/
theorem references_of_said {t : TypedData} {a : TypedValue} (h : t.said? = some a) :
    ∃ found, t.messageTypes.references t.primaryType = .ok found := by
  obtain ⟨-, -, type, -, -, -, -, -, ht, -⟩ := TypedValue.ofJson?_struct_eq_some_iff.mp h
  obtain ⟨found, hfound, -⟩ := TypeSchema.encodeType_eq_listing ht
  exact ⟨found, hfound⟩

theorem hashed_eq {t : TypedData} {a : TypedValue} (h : t.said? = some a) :
    t.hashed = signedBytes t.domain.separator (a.word keccak256) ::
      (t.domain.hashed ++ a.hashed keccak256) := by
  unfold hashed
  rw [h]

theorem mem_hashed_of_said {t : TypedData} {a : TypedValue} (h : t.said? = some a) {b : Bytes}
    (hb : b ∈ a.hashed keccak256) : b ∈ t.hashed := by
  rw [hashed_eq h]
  exact List.mem_cons_of_mem _ (List.mem_append_right _ hb)

/-- What the signed bytes hold besides the mark. -/
theorem eq_of_signedBytes_eq {s₁ s₂ m₁ m₂ : Word} (h : signedBytes s₁ m₁ = signedBytes s₂ m₂) :
    m₁ = m₂ := by
  have hlist := Encode.concat_inj (List.cons_eq_cons.mp (List.cons_eq_cons.mp h).2).2
  exact (List.cons_eq_cons.mp (List.cons_eq_cons.mp hlist).2).1

/-- **The signing hash binds the struct, its definitions and the message,** where no name holds a
character that sets off names in the text of a type. -/
theorem signingHash_binds {t₁ t₂ : TypedData} {w : Word}
    (s₁ : t₁.types.Separable t₁.primaryType) (s₂ : t₂.types.Separable t₂.primaryType)
    (h₁ : t₁.signingHash = .ok w) (h₂ : t₂.signingHash = .ok w) :
    SameContent t₁ t₂ ∨ Collides (t₁.hashed ++ t₂.hashed) := by
  by_cases hcol : Collides (t₁.hashed ++ t₂.hashed)
  · exact Or.inr hcol
  left
  have hinj := injOn_of_not_collides hcol
  obtain ⟨a₁, ha₁, hw₁⟩ := signingHash_eq_ok_iff.mp h₁
  obtain ⟨a₂, ha₂, hw₂⟩ := signingHash_eq_ok_iff.mp h₂
  have hin₁ : ∀ b ∈ t₁.hashed, b ∈ {b | b ∈ t₁.hashed ++ t₂.hashed} :=
    fun b hb => List.mem_append_left _ hb
  have hin₂ : ∀ b ∈ t₂.hashed, b ∈ {b | b ∈ t₁.hashed ++ t₂.hashed} :=
    fun b hb => List.mem_append_right _ hb
  -- The words of the two messages are equal, since the signed bytes are.
  have hsigned := hinj (hin₁ _ (by rw [hashed_eq ha₁]; exact List.mem_cons_self))
    (hin₂ _ (by rw [hashed_eq ha₂]; exact List.mem_cons_self)) (hw₁.trans hw₂.symm)
  have hword := eq_of_signedBytes_eq hsigned
  have hU₁ : ∀ b ∈ a₁.hashed keccak256, b ∈ {b | b ∈ t₁.hashed ++ t₂.hashed} :=
    fun b hb => hin₁ b (mem_hashed_of_said ha₁ hb)
  have hU₂ : ∀ b ∈ a₂.hashed keccak256, b ∈ {b | b ∈ t₁.hashed ++ t₂.hashed} :=
    fun b hb => hin₂ b (mem_hashed_of_said ha₂ hb)
  obtain ⟨hname, hagree, hsame⟩ := TypedValue.struct_binds hinj (s₁.remove Domain.typeName)
    (s₂.remove Domain.typeName) ha₁ ha₂ hU₁ hU₂ hword
  -- The definitions are those of the whole schemas, since nothing below has the reserved name.
  obtain ⟨found₁, hf₁⟩ := references_of_said ha₁
  obtain ⟨found₂, hf₂⟩ := references_of_said ha₂
  have hbelow : ∀ x, t₁.types.Below t₁.primaryType x ↔ t₂.types.Below t₂.primaryType x := by
    intro x
    rw [← TypeSchema.below_remove_iff hf₁, ← TypeSchema.below_remove_iff hf₂, ← hname]
    exact hagree.below_iff x
  refine ⟨hname, hbelow, fun x hx => ?_, a₁, ha₁, by rw [ha₂, hsame]⟩
  rw [← TypeSchema.get?_remove_of_below hf₁ hx,
    ← TypeSchema.get?_remove_of_below hf₂ ((hbelow x).mp hx)]
  exact hagree x ((TypeSchema.below_remove_iff hf₁).mpr hx)

/-! ### One number written in two ways -/

/-- A message with one number. -/
def numbered (x : Json) : TypedData :=
  ⟨Domain.empty, KeyMap.ofList [("A", [⟨"x", "uint8"⟩])], "A", Json.ofMembers [("x", x)]⟩

theorem numbered_said {x : Json} (h : TypedValue.atom? (.uint 0) x = some (.number 1)) :
    (numbered x).said? = some (.struct "A(uint8 x)" [("x", .number 1)]) := by
  have htype : (numbered .null).messageTypes.encodeType "A" = .ok "A(uint8 x)" := by decide +kernel
  unfold said?
  rw [TypedValue.ofJson?_struct_eq_some_iff]
  refine ⟨_, _, _, _, rfl, rfl, rfl, rfl, htype, List.Forall₂.cons ?_ List.Forall₂.nil⟩
  refine ⟨rfl, x, .uint 0, rfl, by decide +kernel, ?_⟩
  simp only [TypedValue.ofJson?]
  exact h

theorem signingHash_binds_numbered :
    ∃ w, (numbered (Json.ofNat 1)).signingHash = .ok w ∧
      (numbered (.string "0x01")).signingHash = .ok w ∧
      (SameContent (numbered (Json.ofNat 1)) (numbered (.string "0x01")) ∨
        Collides ((numbered (Json.ofNat 1)).hashed ++ (numbered (.string "0x01")).hashed)) := by
  have h₁ := signingHash_eq_ok_iff.mpr ⟨_, numbered_said (x := Json.ofNat 1) rfl, rfl⟩
  have h₂ := signingHash_eq_ok_iff.mpr ⟨_, numbered_said (x := .string "0x01") rfl, rfl⟩
  exact ⟨_, h₁, h₂, signingHash_binds
    (TypeSchema.separable_of_all (by decide) (by decide))
    (TypeSchema.separable_of_all (by decide) (by decide)) h₁ h₂⟩

/-! ### Names that hold a comma -/

/-- A struct whose first field has a comma in its name. -/
def splitLeft : TypedData :=
  ⟨Domain.empty, KeyMap.ofList [("A", [⟨"x,uint256 y", "uint256"⟩, ⟨"z", "uint256"⟩])], "A",
    Json.ofMembers [("x,uint256 y", Json.ofNat 1), ("z", Json.ofNat 2)]⟩

/-- A struct with the same text whose second field has a comma in its name. -/
def splitRight : TypedData :=
  ⟨Domain.empty, KeyMap.ofList [("A", [⟨"x", "uint256"⟩, ⟨"y,uint256 z", "uint256"⟩])], "A",
    Json.ofMembers [("x", Json.ofNat 1), ("y,uint256 z", Json.ofNat 2)]⟩

/-- The text of both structs. -/
def splitText : String := "A(uint256 x,uint256 y,uint256 z)"

theorem splitLeft_said : splitLeft.said? =
    some (.struct splitText [("x,uint256 y", .number 1), ("z", .number 2)]) := by
  unfold said?
  rw [TypedValue.ofJson?_struct_eq_some_iff]
  refine ⟨_, _, _, _, rfl, rfl, rfl, rfl, by decide +kernel, List.Forall₂.cons ?_
    (List.Forall₂.cons ?_ List.Forall₂.nil)⟩
  · exact ⟨rfl, Json.ofNat 1, .uint 31, rfl, by decide +kernel, rfl⟩
  · exact ⟨rfl, Json.ofNat 2, .uint 31, rfl, by decide +kernel, rfl⟩

theorem splitRight_said : splitRight.said? =
    some (.struct splitText [("x", .number 1), ("y,uint256 z", .number 2)]) := by
  unfold said?
  rw [TypedValue.ofJson?_struct_eq_some_iff]
  refine ⟨_, _, _, _, rfl, rfl, rfl, rfl, by decide +kernel, List.Forall₂.cons ?_
    (List.Forall₂.cons ?_ List.Forall₂.nil)⟩
  · exact ⟨rfl, Json.ofNat 1, .uint 31, rfl, by decide +kernel, rfl⟩
  · exact ⟨rfl, Json.ofNat 2, .uint 31, rfl, by decide +kernel, rfl⟩

/-- The byte strings that are hashed for both. -/
def splitInputs : List Bytes :=
  [signedBytes 0x6192106f129ce05c9075d319c1fa6ea9b3ae37cbd0c1ef92e2be7137bb07baa1
      0x81bea7650b5dfe613997dde0c99ecf9928e74da58e479c0579302821a5819e19,
    Encode.concat [0x20bcc3f8105eea47d067386e42e60246e89393cd61c512edd1e87688890fb914],
    Bytes.ofString "EIP712Domain()",
    Encode.concat [0x5b975fb920b74399274eebc221534d53e64fe222a72441f8d77ef4dea3bd3a2c, 1, 2],
    Bytes.ofString splitText]

theorem splitInputs_digests : splitInputs.map keccak256 =
    [0x40074f661178bb8112a915018815f01027bbe2c7dc26ace2e64cca88c6399f75,
      0x6192106f129ce05c9075d319c1fa6ea9b3ae37cbd0c1ef92e2be7137bb07baa1,
      0x20bcc3f8105eea47d067386e42e60246e89393cd61c512edd1e87688890fb914,
      0x81bea7650b5dfe613997dde0c99ecf9928e74da58e479c0579302821a5819e19,
      0x5b975fb920b74399274eebc221534d53e64fe222a72441f8d77ef4dea3bd3a2c] := by
  rw [keccak256_eq_packed]
  decide +kernel

theorem separator_empty : Domain.empty.separator =
      0x6192106f129ce05c9075d319c1fa6ea9b3ae37cbd0c1ef92e2be7137bb07baa1 ∧
    Domain.empty.hashed =
      [Encode.concat [0x20bcc3f8105eea47d067386e42e60246e89393cd61c512edd1e87688890fb914],
        Bytes.ofString "EIP712Domain()"] := by
  have hdigests := splitInputs_digests
  simp only [splitInputs, List.map_cons, List.map_nil, List.cons.injEq] at hdigests
  obtain ⟨-, hdomain, hdomainText, -, -, -⟩ := hdigests
  have htype : Domain.empty.typeBytes = Bytes.ofString "EIP712Domain()" := by decide +kernel
  have hwords : Domain.empty.words = [] := rfl
  constructor
  · show keccak256 (Encode.concat (keccak256 Domain.empty.typeBytes :: Domain.empty.words)) = _
    rw [htype, hwords, hdomainText, hdomain]
  · unfold Domain.hashed
    rw [htype, hwords, hdomainText]
    rfl

theorem hashed_eq_splitInputs {t : TypedData} {ms : List (String × TypedValue)}
    (hd : t.domain = Domain.empty) (hs : t.said? = some (.struct splitText ms))
    (hw : TypedValue.memberWords keccak256 ms = [1, 2])
    (hm : TypedValue.membersHashed keccak256 ms = []) : t.hashed = splitInputs := by
  have hdigests := splitInputs_digests
  simp only [splitInputs, List.map_cons, List.map_nil, List.cons.injEq] at hdigests
  obtain ⟨-, -, -, hdata, htext, -⟩ := hdigests
  obtain ⟨hseparator, hdomainHashed⟩ := separator_empty
  rw [hashed_eq hs, hd, hseparator, hdomainHashed, TypedValue.word, TypedValue.hashed, hw, hm,
    htext, hdata]
  rfl

/-- Where the digests of a list differ, none collide, also when the list is hashed twice. -/
theorem not_collides_of_nodup {inputs : List Bytes} (h : (inputs.map keccak256).Nodup) :
    ¬ Collides (inputs ++ inputs) := by
  rintro ⟨a, ha, b, hb, hne, hab⟩
  rw [List.mem_append, or_self] at ha hb
  exact hne (List.inj_on_of_nodup_map h ha hb hab)

theorem signingHash_confuses_split : ∃ w, splitLeft.signingHash = .ok w ∧
    splitRight.signingHash = .ok w ∧ splitLeft.domain = splitRight.domain ∧
      ¬ SameContent splitLeft splitRight ∧ ¬ Collides (splitLeft.hashed ++ splitRight.hashed) := by
  have hleft : splitLeft.hashed = splitInputs := hashed_eq_splitInputs rfl splitLeft_said rfl rfl
  have hright : splitRight.hashed = splitInputs :=
    hashed_eq_splitInputs rfl splitRight_said rfl rfl
  refine ⟨_, signingHash_eq_ok_iff.mpr ⟨_, splitLeft_said, rfl⟩,
    signingHash_eq_ok_iff.mpr ⟨_, splitRight_said, rfl⟩, rfl, fun h => ?_, ?_⟩
  · have hfields := h.definitions "A" Relation.ReflTransGen.refl
    exact absurd hfields (by decide)
  · rw [hleft, hright]
    refine not_collides_of_nodup ?_
    rw [splitInputs_digests]
    decide

end TypedData

end DocumentProof
