import DocumentProof.Proofs.TypedData.DomainHash
import DocumentProof.Proofs.TypedData.Envelope

/-!
# What the separator of a domain tells

The words of a domain are those of the members that are present, so they alone tell neither how many
there are nor which word is whose. The hash of the domain's type stands before them. Its text gives
the fields back, in one way (`renderType_inj`), and under the name of each field is the word of this
member (`get?_columns`). So domains with one separator have the same members, unless byte strings
collide (`eq_of_separator_eq`), and a signing hash belongs to one domain (`signingHash_separates`).
-/

namespace DocumentProof

/-- **Fields are read off the text of their struct.** -/
theorem TypeSchema.renderType_inj {name : String} {fs gs : List Field} (hf : ∀ f ∈ fs, f.IsCut)
    (hg : ∀ g ∈ gs, g.IsCut) (h : renderType name fs = renderType name gs) : fs = gs := by
  have hchars := congrArg String.toList h
  rw [toList_renderType (name, fs), toList_renderType (name, gs)] at hchars
  have hlist := (List.cons_eq_cons.mp (List.append_cancel_left hchars)).2
  have hclosed : Field.listChars fs ++ [] = Field.listChars gs ++ [] := congrArg (· ++ []) hlist
  exact (Field.listChars_inj hf hg hclosed).1

namespace Domain

/-! ### Names beside words -/

/-- The names of the fields, each with the word that belongs to it. -/
def columns (d : Domain) : List (String × Word) := (d.fields.map (·.name)).zip d.words

theorem columns_eq_map (d : Domain) : d.columns = d.slots.map fun s => (s.field.name, s.word) := by
  rw [columns, fields_eq_map, words_eq_map, List.map_map, List.zip_map']
  rfl

/-- **Under the name of a member is its word, if the member is present.** -/
theorem get?_columns (d : Domain) :
    Keyed.get? d.columns "name" = d.name.map (fun s => keccak256 (Bytes.ofString s)) ∧
    Keyed.get? d.columns "version" = d.version.map (fun s => keccak256 (Bytes.ofString s)) ∧
    Keyed.get? d.columns "chainId" = d.chainId.map (fun n => BitVec.ofNat 256 n.toNat) ∧
    Keyed.get? d.columns "verifyingContract" = d.verifyingContract.map (·.setWidth 256) ∧
    Keyed.get? d.columns "salt" = d.salt := by
  have hsalt := Json.get?_present_cons d.salt "salt" (fun w : Word => w) []
  simp only [columns_eq_map, slots, Json.map_present, List.map_cons, List.map_nil, Option.map_map,
    Function.comp_def, Json.get?_present_cons, hsalt, List.filterMap_nil, Keyed.get?_nil,
    Option.or_none, Option.map_id', String.reduceEq, reduceIte, and_self]

/-- The texts of the fields can be cut out of the text of the type. -/
theorem isCut_of_mem_fields (d : Domain) : ∀ f ∈ d.fields, f.IsCut := by
  have hcut : ∀ f : Field, f.typeName.toList.all FieldType.isPlain = true → f.IsSeparable →
      f.IsCut := fun f htype hname => ⟨List.all_eq_true.mp htype, hname⟩
  refine Json.forall_present_cons (fun _ => ?_) (Json.forall_present_cons (fun _ => ?_)
    (Json.forall_present_cons (fun _ => ?_) (Json.forall_present_cons (fun _ => ?_)
      (Json.forall_present_cons (fun _ => ?_) (List.forall_mem_nil _)))))
  all_goals exact hcut _ (by decide) (by decide)

/-! ### Words and members -/

/-- Members are equal where their words are and the word tells the member. -/
theorem eq_of_map_eq {α : Type} {o₁ o₂ : Option α} {word : α → Word}
    (hword : ∀ a b, o₁ = some a → o₂ = some b → word a = word b → a = b)
    (h : o₁.map word = o₂.map word) : o₁ = o₂ := by
  cases o₁ with
  | none => exact (Option.map_eq_none_iff.mp h.symm).symm
  | some a =>
    obtain ⟨b, hb, hab⟩ := Option.map_eq_some_iff.mp h.symm
    rw [hb, hword a b rfl hb hab.symm]

theorem chainId_eq_of_word_eq {m n : UInt64}
    (h : BitVec.ofNat 256 m.toNat = BitVec.ofNat 256 n.toNat) : m = n := by
  have hm := m.toNat_lt
  have hn := n.toNat_lt
  have hnat := congrArg BitVec.toNat h
  rw [BitVec.toNat_ofNat, BitVec.toNat_ofNat, Nat.mod_eq_of_lt (by omega),
    Nat.mod_eq_of_lt (by omega)] at hnat
  exact UInt64.toNat_inj.mp hnat

theorem address_eq_of_word_eq {a b : Address} (h : a.setWidth 256 = b.setWidth 256) : a = b := by
  have ha := a.isLt
  have hb := b.isLt
  have hnat := congrArg BitVec.toNat h
  rw [BitVec.toNat_setWidth, BitVec.toNat_setWidth, Nat.mod_eq_of_lt (by omega),
    Nat.mod_eq_of_lt (by omega)] at hnat
  exact BitVec.eq_of_toNat_eq hnat

/-! ### The separator -/

section Separator

variable {U : Set Bytes} {d d₁ d₂ : Domain}

theorem ofString_mem_hashed {s : String} (h : d.name = some s ∨ d.version = some s) :
    Bytes.ofString s ∈ d.hashed := by
  refine List.mem_cons_of_mem _ (List.mem_cons_of_mem _ (List.mem_filterMap.mpr ⟨_, ?_, rfl⟩))
  rcases h with h | h
  · rw [h]
    exact List.mem_cons_self
  · rw [h]
    exact List.mem_cons_of_mem _ List.mem_cons_self

/-- **Domains with one separator have the same members,** where the hash tells the byte strings apart
that are hashed for them. -/
theorem eq_of_separator_eq (hinj : Set.InjOn keccak256 U) (h₁ : ∀ b ∈ d₁.hashed, b ∈ U)
    (h₂ : ∀ b ∈ d₂.hashed, b ∈ U) (h : d₁.separator = d₂.separator) : d₁ = d₂ := by
  have hparts := Encode.concat_inj
    (hinj (h₁ _ List.mem_cons_self) (h₂ _ List.mem_cons_self) h)
  obtain ⟨htype, hwords⟩ := List.cons_eq_cons.mp hparts
  have htext := hinj (h₁ d₁.typeBytes (List.mem_cons_of_mem _ List.mem_cons_self))
    (h₂ d₂.typeBytes (List.mem_cons_of_mem _ List.mem_cons_self)) htype
  have hfields : d₁.fields = d₂.fields :=
    TypeSchema.renderType_inj d₁.isCut_of_mem_fields d₂.isCut_of_mem_fields
      (Bytes.ofString_inj.mp htext)
  -- With the fields, the words are those of the same members.
  have hcolumns : d₁.columns = d₂.columns := by rw [columns, columns, hfields, hwords]
  have hstring : ∀ s r, d₁.name = some s ∨ d₁.version = some s →
      d₂.name = some r ∨ d₂.version = some r →
      keccak256 (Bytes.ofString s) = keccak256 (Bytes.ofString r) → s = r := fun s r hs hr hw =>
    Bytes.ofString_inj.mp (hinj (h₁ _ (ofString_mem_hashed hs)) (h₂ _ (ofString_mem_hashed hr)) hw)
  obtain ⟨hname₁, hversion₁, hchain₁, hcontract₁, hsalt₁⟩ := d₁.get?_columns
  obtain ⟨hname₂, hversion₂, hchain₂, hcontract₂, hsalt₂⟩ := d₂.get?_columns
  rw [hcolumns] at hname₁ hversion₁ hchain₁ hcontract₁ hsalt₁
  have hname := eq_of_map_eq (fun s r hs hr => hstring s r (.inl hs) (.inl hr))
    (hname₁.symm.trans hname₂)
  have hversion := eq_of_map_eq (fun s r hs hr => hstring s r (.inr hs) (.inr hr))
    (hversion₁.symm.trans hversion₂)
  have hchain := eq_of_map_eq (fun _ _ _ _ => chainId_eq_of_word_eq) (hchain₁.symm.trans hchain₂)
  have hcontract := eq_of_map_eq (fun _ _ _ _ => address_eq_of_word_eq)
    (hcontract₁.symm.trans hcontract₂)
  have hsalt := hsalt₁.symm.trans hsalt₂
  cases d₁
  cases d₂
  simp only at hname hversion hchain hcontract hsalt
  rw [hname, hversion, hchain, hcontract, hsalt]

/-- A name alone and a version alone have different types. -/
example : ({ Domain.empty with name := some "1" } : Domain).typeBytes ≠
    ({ Domain.empty with version := some "1" } : Domain).typeBytes := by decide +kernel

end Separator

end Domain

namespace TypedData

variable {t t₁ t₂ : TypedData} {w : Word}

/-- The signed bytes begin, after their mark, with the separator. -/
theorem separator_eq_of_signedBytes_eq {s₁ s₂ m₁ m₂ : Word}
    (h : signedBytes s₁ m₁ = signedBytes s₂ m₂) : s₁ = s₂ := by
  have hlist := Encode.concat_inj (List.cons_eq_cons.mp (List.cons_eq_cons.mp h).2).2
  exact (List.cons_eq_cons.mp hlist).1

theorem structHash_of_said {a : TypedValue} (h : t.said? = some a) :
    t.structHash = .ok (a.word keccak256) :=
  TypeSchema.hashStruct_eq_ok_iff.mpr ⟨a, h, rfl⟩

theorem mem_hashed_of_domain {a : TypedValue} (h : t.said? = some a) {b : Bytes}
    (hb : b ∈ t.domain.hashed) : b ∈ t.hashed := by
  rw [hashed_eq h]
  exact List.mem_cons_of_mem _ (List.mem_append_left _ hb)

/-- **A signing hash belongs to one domain.** Two typed data with one signing hash have the same
domain, each member absent in both or equal in both, and messages with one hash, unless two of the
byte strings hashed for them have the same digest. -/
theorem signingHash_separates (h₁ : t₁.signingHash = .ok w) (h₂ : t₂.signingHash = .ok w) :
    (t₁.domain = t₂.domain ∧ ∃ m, t₁.structHash = .ok m ∧ t₂.structHash = .ok m) ∨
      Collides (t₁.hashed ++ t₂.hashed) := by
  by_cases hcol : Collides (t₁.hashed ++ t₂.hashed)
  · exact .inr hcol
  left
  have hinj := injOn_of_not_collides hcol
  obtain ⟨a₁, ha₁, hw₁⟩ := signingHash_eq_ok_iff.mp h₁
  obtain ⟨a₂, ha₂, hw₂⟩ := signingHash_eq_ok_iff.mp h₂
  have hin₁ : ∀ b ∈ t₁.hashed, b ∈ {b | b ∈ t₁.hashed ++ t₂.hashed} :=
    fun b hb => List.mem_append_left _ hb
  have hin₂ : ∀ b ∈ t₂.hashed, b ∈ {b | b ∈ t₁.hashed ++ t₂.hashed} :=
    fun b hb => List.mem_append_right _ hb
  have hsigned := hinj (hin₁ _ (by rw [hashed_eq ha₁]; exact List.mem_cons_self))
    (hin₂ _ (by rw [hashed_eq ha₂]; exact List.mem_cons_self)) (hw₁.trans hw₂.symm)
  have hdomain : t₁.domain = t₂.domain :=
    Domain.eq_of_separator_eq hinj (fun b hb => hin₁ b (mem_hashed_of_domain ha₁ hb))
      (fun b hb => hin₂ b (mem_hashed_of_domain ha₂ hb)) (separator_eq_of_signedBytes_eq hsigned)
  have hword : a₁.word keccak256 = a₂.word keccak256 := eq_of_signedBytes_eq hsigned
  refine ⟨hdomain, _, structHash_of_said ha₁, ?_⟩
  rw [hword]
  exact structHash_of_said ha₂

/-- A message with one number, under a domain with every member. -/
def numberedUnder (x : Json) : TypedData :=
  { numbered x with
    domain := ⟨some "App", some "1", some 1, some 0xde709f2102306220921060314715629080e2fb77,
      some 0x6192106f129ce05c9075d319c1fa6ea9b3ae37cbd0c1ef92e2be7137bb07baa1⟩ }

theorem signingHash_separates_numbered :
    ∃ w, (numberedUnder (Json.ofNat 1)).signingHash = .ok w ∧
      (numberedUnder (.string "0x01")).signingHash = .ok w ∧
      ((numberedUnder (Json.ofNat 1)).domain = (numberedUnder (.string "0x01")).domain ∧
          (∃ m, (numberedUnder (Json.ofNat 1)).structHash = .ok m ∧
            (numberedUnder (.string "0x01")).structHash = .ok m) ∨
        Collides ((numberedUnder (Json.ofNat 1)).hashed ++
          (numberedUnder (.string "0x01")).hashed)) := by
  have h₁ : (numberedUnder (Json.ofNat 1)).signingHash = .ok _ :=
    signingHash_eq_ok_iff.mpr ⟨_, numbered_said (x := Json.ofNat 1) rfl, rfl⟩
  have h₂ : (numberedUnder (.string "0x01")).signingHash = .ok _ :=
    signingHash_eq_ok_iff.mpr ⟨_, numbered_said (x := .string "0x01") rfl, rfl⟩
  exact ⟨_, h₁, h₂, signingHash_separates h₁ h₂⟩

end TypedData

end DocumentProof
