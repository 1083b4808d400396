import DocumentProof.Proofs.TypedData.Envelope
import DocumentProof.Proofs.TypedData.Evaluation
import DocumentProof.Proofs.TypedData.Walk

/-!
# Which definitions a hash depends on

Schemas that agree below a struct (`TypeSchema.Agree`) give it the same text, and its values the same
words and hashes, errors included (`encodings_eq_of_agree`). The walk that finds the structs of a text
has as many steps as the schema has structs, so the walks over two schemas are not compared step by
step: both are the walk without a bound, and this one only asks for definitions below its start
(`walks_of_agree`). The encoder asks for the definition and the text of each struct that it comes to,
and each is below the first (`value_eq_of_agree`).
-/

namespace DocumentProof

namespace TypeSchema

variable {types types₁ types₂ : TypeSchema} {name : String}

/-! ### Texts -/

theorem fieldsOf_eq_of_agree (h : Agree types₁ types₂ name) :
    types₁.fieldsOf name = types₂.fieldsOf name := by
  rw [fieldsOf, fieldsOf, h name Relation.ReflTransGen.refl]

/-- What a field of the struct uses is below the struct. -/
theorem agree_of_uses (h : Agree types₁ types₂ name) {fields : List Field}
    (hg : types₁.get? name = some fields) {f : Field} (hf : f ∈ fields) {used : String}
    (hu : Uses f used) : Agree types₁ types₂ used := by
  obtain ⟨t, ht, hs⟩ := hu
  exact h.of_refers ⟨fields, f, t, hg, hf, typeOf_eq_ok_iff.mp ht, hs⟩

/-- **A walk over fields is one over the other schema too,** where the schemas agree below each struct
that a field uses. -/
theorem walks_of_agree {fs : List Field} {found : NameSet} {r : Except CryptoError NameSet}
    (hw : Walks types₁ fs found r)
    (h : ∀ f ∈ fs, ∀ used, Uses f used → Agree types₁ types₂ used) : Walks types₂ fs found r := by
  induction hw with
  | done found => exact .done found
  | untyped fs found type => exact .untyped fs found type
  | plain type plain _ ih =>
    exact .plain type plain (ih fun g hg => h g (List.mem_cons_of_mem _ hg))
  | seen uses old _ ih => exact .seen uses old (ih fun g hg => h g (List.mem_cons_of_mem _ hg))
  | undefined fs uses new absent =>
    have hused := h _ List.mem_cons_self _ uses
    exact .undefined fs uses new ((hused _ Relation.ReflTransGen.refl).symm.trans absent)
  | failed fs uses new present _ ih =>
    have hused := h _ List.mem_cons_self _ uses
    exact .failed fs uses new ((hused _ Relation.ReflTransGen.refl).symm.trans present)
      (ih fun _ hg _ hu => agree_of_uses hused present hg hu)
  | entered uses new present _ _ ihbelow ihrest =>
    have hused := h _ List.mem_cons_self _ uses
    exact .entered uses new ((hused _ Relation.ReflTransGen.refl).symm.trans present)
      (ihbelow fun _ hg _ hu => agree_of_uses hused present hg hu)
      (ihrest fun g hg => h g (List.mem_cons_of_mem _ hg))

/-- **The walks from the struct end with the same result,** though they may take as many steps as the
schemas have structs. -/
theorem references_eq_of_agree (h : Agree types₁ types₂ name) :
    types₁.references name = types₂.references name := by
  cases hg : types₁.get? name with
  | none =>
    have hg' : types₂.get? name = none := (h name Relation.ReflTransGen.refl).symm.trans hg
    rw [references, references, collect_of_undefined _ hg, collect_of_undefined _ hg']
  | some fields =>
    have hg' : types₂.get? name = some fields := (h name Relation.ReflTransGen.refl).symm.trans hg
    have hwalk : Walks types₁ fields KeyMap.empty (types₁.references name) := (walks_iff hg _).mpr rfl
    exact (walks_iff hg' _).mp (walks_of_agree hwalk fun _ hf _ hu => agree_of_uses h hg hf hu)

theorem encodeType_eq_of_agree (h : Agree types₁ types₂ name) :
    types₁.encodeType name = types₂.encodeType name := by
  unfold encodeType
  rw [fieldsOf_eq_of_agree h, ← references_eq_of_agree h]
  refine bind_congr fun _ => bind_congr_of_ok fun found hfound => ?_
  have hrendered : ∀ x ∈ (found.remove name).keys,
      (do return renderType x (← types₁.fieldsOf x) : Except CryptoError String) =
        (do return renderType x (← types₂.fieldsOf x)) := by
    intro x hx
    have hbelow := ((mem_keys_remove_iff hfound x).mp hx).2.to_reflTransGen
    rw [fieldsOf, fieldsOf, h x hbelow]
  dsimp only
  rw [mapM_congr hrendered]

end TypeSchema

/-! ### Values -/

namespace Encode

variable {types types₁ types₂ : TypeSchema} {encode₁ encode₂ : FieldType → Json → Result}

theorem dataBy_eq_of_agree {name : String} {v : Json}
    (h : TypeSchema.Agree types₁ types₂ name)
    (hcalls : ∀ u x, Calls types₁ (.struct name) v u x → encode₁ u x = encode₂ u x) :
    dataBy types₁ encode₁ name v = dataBy types₂ encode₂ name v := by
  rw [dataBy_congr hcalls]
  unfold dataBy TypeSchema.typeHash
  rw [TypeSchema.fieldsOf_eq_of_agree h, TypeSchema.encodeType_eq_of_agree h]

theorem wordBy_eq_of_agree {t : FieldType} {v : Json}
    (h : ∀ used, t.structName? = some used → TypeSchema.Agree types₁ types₂ used)
    (hcalls : ∀ u x, Calls types₁ t v u x → encode₁ u x = encode₂ u x) :
    wordBy types₁ encode₁ t v = wordBy types₂ encode₂ t v := by
  rw [wordBy_congr hcalls]
  cases t with
  | struct name => rw [wordBy, wordBy, dataBy_eq_of_agree (h name rfl) fun _ _ _ => rfl]
  | _ => rfl

/-- What the encoder is asked for has a type with structs below the first. -/
theorem agree_of_calls {t u : FieldType} {v x : Json}
    (h : ∀ used, t.structName? = some used → TypeSchema.Agree types₁ types₂ used)
    (hcall : Calls types₁ t v u x) :
    ∀ used, u.structName? = some used → TypeSchema.Agree types₁ types₂ used := by
  cases hcall with
  | item _ => exact h
  | member hg hf _ ht =>
    intro used hs
    exact (h _ rfl).of_refers ⟨_, _, _, hg, hf, ht, hs⟩

/-- **A value has the same word or the same error under schemas that agree below its type.** -/
theorem value_eq_of_agree (v : Json) : ∀ t : FieldType,
    (∀ used, t.structName? = some used → TypeSchema.Agree types₁ types₂ used) →
      value types₁ v t = value types₂ v t := by
  induction v using Json.induction_of_step with
  | step v hitems hmembers =>
    intro t h
    rw [value_eq_wordBy, value_eq_wordBy]
    refine wordBy_eq_of_agree h fun u x hcall => ?_
    have hbelow := agree_of_calls h hcall
    cases hcall with
    | item hx => exact hitems _ rfl x hx u hbelow
    | member _ _ hx _ => exact hmembers _ rfl _ (Keyed.mem_of_get? hx) u hbelow

end Encode

namespace TypeSchema

variable {types types₁ types₂ : TypeSchema} {name key : String}

theorem encodeData_eq_of_agree (h : Agree types₁ types₂ name) (v : Json) :
    types₁.encodeData name v = types₂.encodeData name v := by
  rw [Encode.encodeData_eq_dataBy, Encode.encodeData_eq_dataBy]
  have hsome : ∀ used, (FieldType.struct name).structName? = some used →
      Agree types₁ types₂ used := fun used hu => Option.some.inj hu ▸ h
  exact Encode.dataBy_eq_of_agree h fun u x hcall =>
    Encode.value_eq_of_agree x u (Encode.agree_of_calls hsome hcall)

theorem hashStruct_eq_of_agree (h : Agree types₁ types₂ name) (v : Json) :
    types₁.hashStruct name v = types₂.hashStruct name v := by
  rw [hashStruct, hashStruct, encodeData_eq_of_agree h]

/-! ### Schemas that agree -/

/-- Schemas that agree below a struct do so without one of their names. -/
theorem Agree.remove (h : Agree types₁ types₂ name) (key : String) :
    Agree (types₁.remove key) (types₂.remove key) name := by
  intro x hx
  rw [KeyMap.get?_remove, KeyMap.get?_remove, h x (below_of_below_remove hx)]

/-- Schemas that agree below the struct of a message give it one signing hash. They agree also without
the reserved name, which a message is hashed without. -/
theorem signingHash_eq_of_agree (h : Agree types₁ types₂ name) (domain : Domain) (v : Json) :
    (TypedData.mk domain types₁ name v).signingHash =
      (TypedData.mk domain types₂ name v).signingHash := by
  have hstruct := hashStruct_eq_of_agree (h.remove Domain.typeName) v
  unfold TypedData.signingHash TypedData.structHash
  exact congrArg (· >>= fun m => pure (signingHashOf domain.separator m)) hstruct

/-- A definition that is put into a schema does not matter to the structs that do not reach it. -/
theorem agree_put (hkey : ¬ Below types name key) (fields : List Field) :
    Agree types (types.put key fields) name := by
  intro x hx
  have hne : x ≠ key := fun heq => hkey (heq ▸ hx)
  rw [KeyMap.get?_put, if_neg hne]

/-- Nor does a definition that is taken out. -/
theorem agree_remove (hkey : ¬ Below types name key) : Agree types (types.remove key) name := by
  intro x hx
  have hne : x ≠ key := fun heq => hkey (heq ▸ hx)
  rw [KeyMap.get?_remove, if_neg hne]

/-- **Only the definitions below a struct matter.** Schemas that define the struct and all that it
reaches in the same way, or not at all, give it one text, and give every value the same words and the
same hash, or the same error. So typed data under the one and under the other has one signing hash,
also where the reserved name of domains is taken out first. -/
theorem encodings_eq_of_agree (h : Agree types₁ types₂ name) (v : Json) :
    types₁.encodeType name = types₂.encodeType name ∧
    types₁.encodeData name v = types₂.encodeData name v ∧
    types₁.hashStruct name v = types₂.hashStruct name v ∧
    ∀ domain : Domain,
      (TypedData.mk domain types₁ name v).signingHash =
        (TypedData.mk domain types₂ name v).signingHash ∧
      (TypedData.make domain types₁ name v).signingHash =
        (TypedData.make domain types₂ name v).signingHash := by
  refine ⟨encodeType_eq_of_agree h, encodeData_eq_of_agree h v, hashStruct_eq_of_agree h v,
    fun domain => ⟨signingHash_eq_of_agree h domain v, ?_⟩⟩
  exact signingHash_eq_of_agree (h.remove Domain.typeName) domain v

/-- Two structs that refer to each other, and one that they do not reach. -/
def besideCycle : TypeSchema :=
  KeyMap.ofList [("A", [⟨"next", "B"⟩]), ("B", [⟨"back", "A[]"⟩]), ("C", [⟨"a", "A"⟩])]

theorem not_below_besideCycle : ¬ Below besideCycle "A" "C" := by
  have hfound : besideCycle.references "A" = .ok (KeyMap.ofList [("A", ()), ("B", ())]) := by
    decide +kernel
  intro h
  have hreaches := (Relation.reflTransGen_iff_eq_or_transGen.mp h).resolve_left (by decide)
  exact absurd ((contains_references hfound).mpr hreaches) (by decide +kernel)

/-- A value of the first struct. -/
def besideCycleValue : Json :=
  .object [("next", .object [("back", .array [])])]

theorem encodings_eq_besideCycle :
    Agree besideCycle (besideCycle.put "C" [⟨"b", "bytes33"⟩]) "A" ∧
    hashStruct besideCycle "A" besideCycleValue =
      hashStruct (besideCycle.put "C" [⟨"b", "bytes33"⟩]) "A" besideCycleValue ∧
    Agree besideCycle (besideCycle.remove "C") "A" ∧
    encodeType besideCycle "A" = encodeType (besideCycle.remove "C") "A" ∧
    (TypedData.make Domain.empty besideCycle "A" besideCycleValue).signingHash =
      (TypedData.make Domain.empty (besideCycle.remove "C") "A" besideCycleValue).signingHash := by
  have hput := agree_put not_below_besideCycle [⟨"b", "bytes33"⟩]
  have hremove := agree_remove not_below_besideCycle
  obtain ⟨-, -, hhash, -⟩ := encodings_eq_of_agree hput besideCycleValue
  obtain ⟨htext, -, -, hsigning⟩ := encodings_eq_of_agree hremove besideCycleValue
  exact ⟨hput, hhash, hremove, htext, (hsigning Domain.empty).2⟩

end TypeSchema

end DocumentProof
