import DocumentProof.Proofs.TypedData.Encoder

/-!
# The encoder ends

An array is encoded with the words of its items and a struct with those of its members, and these
are found in the same way. `wordBy` and `dataBy` are the encoder with these words left open, and
`Calls` tells for which values it asks. An evaluation ends where all the evaluations that it asks
for do (`Evaluates`), so it takes finitely many of them. Every value of every type has one, whatever
cycles the schema has, and it ends with the result of the encoder (`evaluates_iff`).
-/

namespace DocumentProof

namespace Encode

variable {types : TypeSchema} {name : String} {t : FieldType} {v : Json}

/-! ### The encoder with its calls left open -/

/-- The word of a field of an object, where `encode` gives the words of values. -/
def fieldBy (encode : FieldType → Json → Result) (name : String) (ms : List (String × Json))
    (f : Field) : Result :=
  match Keyed.get? ms f.name with
  | none => .error (.missingField name f.name)
  | some x => do encode (← TypeSchema.typeOf f) x

/-- The hash of a struct's type and the words of its fields as bytes, where `encode` gives the words
of values. -/
def dataBy (types : TypeSchema) (encode : FieldType → Json → Result) (name : String) (v : Json) :
    Except CryptoError Bytes := do
  let fields ← types.fieldsOf name
  match v with
  | .object ms =>
    match undeclared? fields ms with
    | some key => .error (.unexpectedField name key)
    | none =>
      let hash ← types.typeHash name
      return concat (hash :: (← fields.mapM (fieldBy encode name ms)))
  | _ => .error (.invalidValue name v "expected an object")

/-- The word of a value, where `encode` gives the words of items and members. -/
def wordBy (types : TypeSchema) (encode : FieldType → Json → Result) (t : FieldType) (v : Json) :
    Result :=
  match t with
  | .array item length =>
    match v with
    | .array xs =>
      match lengthFault? length xs.length with
      | some reason => invalid t v reason
      | none => do return keccak256 (concat (← xs.mapM (encode item)))
    | _ => invalid t v "expected an array"
  | .struct name => do return keccak256 (← dataBy types encode name v)
  | t => atom t v

/-- To encode the first value, the encoder may ask for the second. -/
inductive Calls (types : TypeSchema) : FieldType → Json → FieldType → Json → Prop
  | item {item : FieldType} {length : Option UInt64} {xs : List Json} {x : Json} (mem : x ∈ xs) :
      Calls types (.array item length) (.array xs) item x
  | member {name : String} {fields : List Field} {ms : List (String × Json)} {f : Field} {x : Json}
      {t : FieldType} (defined : types.get? name = some fields) (mem : f ∈ fields)
      (present : Keyed.get? ms f.name = some x) (type : FieldType.ofText? f.typeName = some t) :
      Calls types (.struct name) (.object ms) t x

/-- The evaluation of a value of a type ends with this result: what it asks for ends, with results
that `encode` collects, and these give the result. -/
inductive Evaluates (types : TypeSchema) : FieldType → Json → Result → Prop
  | intro {t : FieldType} {v : Json} (encode : FieldType → Json → Result)
      (calls : ∀ u x, Calls types t v u x → Evaluates types u x (encode u x)) :
      Evaluates types t v (wordBy types encode t v)

/-- The same for the words of a struct, as bytes. -/
def EvaluatesData (types : TypeSchema) (name : String) (v : Json) (r : Except CryptoError Bytes) :
    Prop :=
  ∃ encode : FieldType → Json → Result,
    (∀ u x, Calls types (.struct name) v u x → Evaluates types u x (encode u x)) ∧
      r = dataBy types encode name v

/-! ### Results depend on what is asked for -/

theorem fieldBy_congr {encode encode' : FieldType → Json → Result} {fields : List Field}
    {ms : List (String × Json)} (hg : types.get? name = some fields)
    (h : ∀ u x, Calls types (.struct name) (.object ms) u x → encode u x = encode' u x) {f : Field}
    (hf : f ∈ fields) : fieldBy encode name ms f = fieldBy encode' name ms f := by
  unfold fieldBy
  cases hx : Keyed.get? ms f.name with
  | none => rfl
  | some x =>
    cases ht : TypeSchema.typeOf f with
    | error e => rfl
    | ok t => exact h t x (.member hg hf hx (TypeSchema.typeOf_eq_ok_iff.mp ht))

theorem dataBy_congr {encode encode' : FieldType → Json → Result}
    (h : ∀ u x, Calls types (.struct name) v u x → encode u x = encode' u x) :
    dataBy types encode name v = dataBy types encode' name v := by
  unfold dataBy
  refine bind_congr_of_ok fun fields hfields => ?_
  cases v with
  | object ms =>
    have hg := TypeSchema.fieldsOf_eq_ok_iff.mp hfields
    have hwords : fields.mapM (fieldBy encode name ms) = fields.mapM (fieldBy encode' name ms) :=
      mapM_congr fun f hf => fieldBy_congr hg h hf
    simp only [hwords]
  | _ => rfl

/-- **The word of a value depends on the words that are asked for.** -/
theorem wordBy_congr {encode encode' : FieldType → Json → Result}
    (h : ∀ u x, Calls types t v u x → encode u x = encode' u x) :
    wordBy types encode t v = wordBy types encode' t v := by
  cases t with
  | array item length =>
    cases v with
    | array xs =>
      have hwords : xs.mapM (encode item) = xs.mapM (encode' item) :=
        mapM_congr fun x hx => h item x (.item hx)
      simp only [wordBy, hwords]
    | _ => rfl
  | struct name => rw [wordBy, wordBy, dataBy_congr h]
  | _ => rfl

/-! ### The encoder is such an encoding -/

theorem fieldWords_eq_mapM (ms : List (String × Json)) : ∀ fields : List Field,
    fieldWords name (memberEncoders types ms) fields =
      fields.mapM (fieldBy (fun u x => value types x u) name ms)
  | [] => rfl
  | f :: fs => by
    rw [fieldWords, lookup_memberEncoders, List.mapM_cons, fieldWords_eq_mapM ms fs, fieldBy]
    cases Keyed.get? ms f.name with
    | none => rfl
    | some x => rw [Option.map_some, bind_assoc]

theorem encodeData_eq_dataBy (types : TypeSchema) (name : String) (v : Json) :
    types.encodeData name v = dataBy types (fun u x => value types x u) name v := by
  unfold TypeSchema.encodeData structWords dataBy
  rw [bind_assoc]
  refine bind_congr fun fields => ?_
  cases v with
  | object ms =>
    simp only [← fieldWords_eq_mapM]
    cases undeclared? fields ms with
    | none => simp only [bind_assoc, pure_bind]
    | some key => rfl
  | _ => rfl

theorem value_eq_wordBy (t : FieldType) (v : Json) :
    value types v t = wordBy types (fun u x => value types x u) t v := by
  cases t with
  | array item length =>
    cases v with
    | array xs =>
      simp only [value, items_eq_mapM]
      rfl
    | _ => simp only [value, wordBy]
  | struct name =>
    rw [wordBy, ← encodeData_eq_dataBy]
    exact (TypeSchema.hashStruct_eq_value types name v).symm
  | _ => simp only [value, wordBy]

/-! ### Every value has an evaluation -/

theorem evaluates_value (types : TypeSchema) (v : Json) :
    ∀ t, Evaluates types t v (value types v t) := by
  induction v using Json.induction_of_step with
  | step v hitems hmembers =>
    intro t
    rw [value_eq_wordBy]
    refine .intro _ fun u x hcall => ?_
    cases hcall with
    | item hx => exact hitems _ rfl x hx u
    | member _ _ hx _ => exact hmembers _ rfl _ (Keyed.mem_of_get? hx) u

/-- **Every value of every type has an evaluation,** which ends with the result of the encoder. -/
theorem evaluates_iff {r : Result} : Evaluates types t v r ↔ r = value types v t := by
  constructor
  · intro h
    induction h with
    | intro encode _ ih => rw [value_eq_wordBy, wordBy_congr ih]
  · rintro rfl
    exact evaluates_value types v t

/-- The words of a struct have an evaluation, which ends with the result of the encoder. -/
theorem evaluatesData_iff {r : Except CryptoError Bytes} :
    EvaluatesData types name v r ↔ r = types.encodeData name v := by
  rw [encodeData_eq_dataBy]
  constructor
  · rintro ⟨encode, hcalls, rfl⟩
    exact dataBy_congr fun u x hcall => evaluates_iff.mp (hcalls u x hcall)
  · rintro rfl
    exact ⟨_, fun u x _ => evaluates_value types x u, rfl⟩

end Encode

end DocumentProof
