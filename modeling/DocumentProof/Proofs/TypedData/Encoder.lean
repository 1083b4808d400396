import DocumentProof.Proofs.Bytes
import DocumentProof.Proofs.Json.Structure
import DocumentProof.Proofs.TypedData.TypedValue

/-!
# What the encoder looks at

The encoder gives a value a word exactly when the value says something under the type, and the word
is that of what it says (`value_eq_ok_iff`). So the hash of a struct is a function of what the value
says (`hashStruct_eq_ok_iff`). The induction is on the value; a field of a struct has the word of
what it says when the members have (`fieldHasWord_iff`).
-/

namespace DocumentProof

namespace Encode

open TypedValue

variable {types : TypeSchema}

theorem atom_eq_ok_iff {t : FieldType} {v : Json} {w : Word} :
    atom t v = .ok w ↔ ∃ a, atom? t v = some a ∧ a.word keccak256 = w := by
  cases t with
  | bool => cases v <;> simp [atom, atom?, word, invalid]
  | string => cases v <;> simp [atom, atom?, word, invalid]
  | bytes =>
    rw [atom, atom?, bind_eq_ok_iff]
    simp only [pure_eq_ok_iff, Option.map_eq_some_iff, toOption_eq_some_iff]
    constructor
    · rintro ⟨bs, hbs, rfl⟩
      exact ⟨_, ⟨bs, hbs, rfl⟩, rfl⟩
    · rintro ⟨_, ⟨bs, hbs, rfl⟩, rfl⟩
      exact ⟨bs, hbs, rfl⟩
  | address =>
    cases v with
    | string s =>
      rw [atom, atom?]
      cases account? s <;> simp [invalid, word]
    | _ => simp [atom, atom?, invalid]
  | uint w =>
    rw [atom, atom?]
    cases natural? v with
    | none => simp [invalid]
    | some n =>
      rw [Option.bind_some]
      simp only [invalid]
      split_ifs <;> simp [word]
  | int w =>
    rw [atom, atom?]
    cases integer? v with
    | none => simp [invalid]
    | some n =>
      rw [Option.bind_some]
      simp only [invalid]
      split_ifs <;> simp [word]
  | fixedBytes w =>
    have hword : ∀ bs : Bytes, bs.length ≤ FieldType.byteCount w →
        (fixed (Bytes.padRight (FieldType.byteCount w) bs)).word keccak256 =
          Word.ofBytes (Bytes.padRight 32 bs) := fun bs hl => by
      have hw : FieldType.byteCount w ≤ 32 := w.isLt
      rw [word, Bytes.padRight_padRight hl hw]
    rw [atom, atom?, bind_eq_ok_iff]
    simp only [Option.bind_eq_some_iff, toOption_eq_some_iff]
    constructor
    · rintro ⟨bs, hbs, h⟩
      split_ifs at h with hl
      · exact ⟨_, ⟨bs, hbs, if_pos hl⟩, (hword bs hl).trans (pure_eq_ok_iff.mp h)⟩
      · cases h
    · rintro ⟨_, ⟨bs, hbs, h⟩, rfl⟩
      split_ifs at h with hl
      · cases h
        exact ⟨bs, hbs, by rw [if_pos hl, hword bs hl]; rfl⟩
  | array item length => simp [atom, atom?, invalid]
  | struct name => simp [atom, atom?, invalid]

theorem items_eq_mapM (t : FieldType) : ∀ xs : List Json,
    items types xs t = xs.mapM fun x => value types x t
  | [] => rfl
  | x :: xs => by rw [items, items_eq_mapM t xs, List.mapM_cons]

theorem memberEncoders_eq_map : ∀ ms : List (String × Json),
    memberEncoders types ms = ms.map fun m => (m.1, fun t => value types m.2 t)
  | [] => rfl
  | (k, x) :: ms => by rw [memberEncoders, memberEncoders_eq_map ms, List.map_cons]

theorem lookup_memberEncoders (ms : List (String × Json)) (key : String) :
    (memberEncoders types ms).lookup key =
      (Keyed.get? ms key).map fun x t => value types x t := by
  rw [memberEncoders_eq_map]
  exact Keyed.get?_map (fun _ x t => value types x t) key ms

/-- The field has a type and a value, and this is the word of the value. -/
def FieldHasWord (types : TypeSchema) (ms : List (String × Json)) (f : Field) (w : Word) : Prop :=
  ∃ x t, Keyed.get? ms f.name = some x ∧ FieldType.ofText? f.typeName = some t ∧
    value types x t = .ok w

theorem fieldWords_eq_ok_iff {name : String} {ms : List (String × Json)} :
    ∀ {l : List Field} {ws : List Word}, fieldWords name (memberEncoders types ms) l = .ok ws ↔
      List.Forall₂ (FieldHasWord types ms) l ws
  | [], ws => by
    rw [fieldWords, List.forall₂_nil_left_iff, Except.ok.injEq, eq_comm]
  | f :: fs, ws => by
    rw [fieldWords, lookup_memberEncoders]
    cases hx : Keyed.get? ms f.name with
    | none =>
      refine ⟨fun h => ?_, fun h => ?_⟩
      · cases h
      · cases h with
        | cons hw _ =>
          obtain ⟨x, t, hx', -⟩ := hw
          rw [hx] at hx'
          cases hx'
    | some x =>
      simp only [Option.map_some, bind_eq_ok_iff, pure_eq_ok_iff, TypeSchema.typeOf_eq_ok_iff,
        fieldWords_eq_ok_iff (l := fs)]
      constructor
      · rintro ⟨t, ht, w, hw, ws', hws, rfl⟩
        exact List.Forall₂.cons ⟨x, t, hx, ht, hw⟩ hws
      · intro h
        cases h with
        | cons hw hws =>
          obtain ⟨x', t, hx', ht, hw⟩ := hw
          obtain rfl : x = x' := Option.some.inj (hx.symm.trans hx')
          exact ⟨t, ht, _, hw, _, hws, rfl⟩

theorem undeclared?_eq_none_iff {fields : List Field} {ms : List (String × Json)} :
    undeclared? fields ms = none ↔ ∀ key ∈ ms.map (·.1), key ∈ fields.map (·.name) := by
  unfold undeclared?
  rw [List.find?_eq_none]
  refine forall₂_congr fun key _ => ?_
  simp only [Bool.not_eq_true', Bool.not_eq_false, List.any_eq_true, beq_iff_eq, List.mem_map]

theorem structWords_eq_ok_iff {name : String} {ms : List (String × Json)} {ws : List Word} :
    structWords types name (.object ms) (memberEncoders types ms) = .ok ws ↔
      ∃ fields type vs, types.get? name = some fields ∧ undeclared? fields ms = none ∧
        types.encodeType name = .ok type ∧ List.Forall₂ (FieldHasWord types ms) fields vs ∧
          ws = keccak256 (Bytes.ofString type) :: vs := by
  unfold structWords TypeSchema.typeHash
  simp only [bind_eq_ok_iff, TypeSchema.fieldsOf_eq_ok_iff]
  constructor
  · rintro ⟨fields, hg, h⟩
    split at h
    · cases h
    · next hu =>
      simp only [bind_eq_ok_iff, pure_eq_ok_iff, fieldWords_eq_ok_iff] at h
      obtain ⟨_, ⟨type, ht, rfl⟩, vs, hvs, rfl⟩ := h
      exact ⟨fields, type, vs, hg, hu, ht, hvs, rfl⟩
  · rintro ⟨fields, type, vs, hg, hu, ht, hvs, rfl⟩
    refine ⟨fields, hg, ?_⟩
    rw [hu]
    simp only [bind_eq_ok_iff, pure_eq_ok_iff, fieldWords_eq_ok_iff]
    exact ⟨_, ⟨type, ht, rfl⟩, vs, hvs, rfl⟩

/-! ### Words are those of typed values -/

/-- What is to be shown of a value: its words are those of what it says. -/
def WordsOfSaid (types : TypeSchema) (v : Json) : Prop :=
  ∀ t w, value types v t = .ok w ↔ ∃ a, ofJson? types v t = some a ∧ a.word keccak256 = w

theorem value_array_eq_ok_iff {v : Json} {item : FieldType} {length : Option UInt64} {w : Word} :
    value types v (.array item length) = .ok w ↔
      ∃ xs ws, v = .array xs ∧ lengthFault? length xs.length = none ∧
        List.Forall₂ (fun x w => value types x item = .ok w) xs ws ∧ w = keccak256 (concat ws) := by
  cases v with
  | array xs =>
    rw [value]
    cases hl : lengthFault? length xs.length with
    | some reason => simp [invalid, hl]
    | none =>
      simp only [bind_eq_ok_iff, pure_eq_ok_iff, items_eq_mapM, mapM_eq_ok_iff, Json.array.injEq]
      constructor
      · rintro ⟨ws, hws, rfl⟩
        exact ⟨xs, ws, rfl, hl, hws, rfl⟩
      · rintro ⟨_, ws, rfl, -, hws, rfl⟩
        exact ⟨ws, hws, rfl⟩
  | _ => simp [value, invalid]

theorem value_struct_eq_ok_iff {v : Json} {name : String} {w : Word} :
    value types v (.struct name) = .ok w ↔
      ∃ ms ws, v = .object ms ∧
        structWords types name (.object ms) (memberEncoders types ms) = .ok ws ∧
          w = keccak256 (concat ws) := by
  cases v with
  | object ms =>
    rw [value]
    simp only [bind_eq_ok_iff, pure_eq_ok_iff, Json.object.injEq]
    constructor
    · rintro ⟨ws, hws, rfl⟩
      exact ⟨ms, ws, rfl, hws, rfl⟩
    · rintro ⟨_, ws, rfl, hws, rfl⟩
      exact ⟨ws, hws, rfl⟩
  | _ =>
    simp only [value, structWords, bind_eq_ok_iff, reduceCtorEq, false_and, exists_false,
      and_false]

/-- A field has the word of what it says, where the members have. -/
theorem fieldHasWord_iff {ms : List (String × Json)} (hms : ∀ m ∈ ms, WordsOfSaid types m.2)
    {f : Field} {w : Word} : FieldHasWord types ms f w ↔
      ∃ m, FieldSays types ms f m ∧ m.2.word keccak256 = w := by
  constructor
  · rintro ⟨x, t, hx, ht, hw⟩
    obtain ⟨a, ha, rfl⟩ := (hms _ (Keyed.mem_of_get? hx) t w).mp hw
    exact ⟨(f.name, a), ⟨rfl, x, t, hx, ht, ha⟩, rfl⟩
  · rintro ⟨m, ⟨-, x, t, hx, ht, ha⟩, rfl⟩
    exact ⟨x, t, hx, ht, (hms _ (Keyed.mem_of_get? hx) t _).mpr ⟨_, ha, rfl⟩⟩

theorem wordsOfSaid_step {v : Json} (hitems : ∀ xs, v = .array xs → ∀ x ∈ xs, WordsOfSaid types x)
    (hmembers : ∀ ms, v = .object ms → ∀ m ∈ ms, WordsOfSaid types m.2) : WordsOfSaid types v := by
  intro t w
  cases t with
  | array item length =>
    rw [value_array_eq_ok_iff]
    simp only [ofJson?_array_eq_some_iff]
    constructor
    · rintro ⟨xs, ws, rfl, hl, hws, rfl⟩
      rw [forall₂_iff_exists_map fun x hx w => hitems xs rfl x hx item w] at hws
      obtain ⟨as, has, rfl⟩ := hws
      exact ⟨_, ⟨xs, as, rfl, rfl, hl, has⟩, by rw [word, itemWords_eq_map]⟩
    · rintro ⟨_, ⟨xs, as, rfl, rfl, hl, has⟩, rfl⟩
      refine ⟨xs, as.map (word keccak256), rfl, hl, ?_, by rw [word, itemWords_eq_map]⟩
      rw [forall₂_iff_exists_map fun x hx w => hitems xs rfl x hx item w]
      exact ⟨as, has, rfl⟩
  | struct name =>
    have hfield : ∀ ms, v = .object ms → ∀ f w, FieldHasWord types ms f w ↔
        ∃ m, FieldSays types ms f m ∧ m.2.word keccak256 = w :=
      fun ms hv _ _ => fieldHasWord_iff (hmembers ms hv)
    rw [value_struct_eq_ok_iff]
    simp only [ofJson?_struct_eq_some_iff, structWords_eq_ok_iff]
    constructor
    · rintro ⟨ms, _, rfl, ⟨fields, type, ws, hg, hu, ht, hws, rfl⟩, rfl⟩
      rw [forall₂_iff_exists_map fun f _ w => hfield ms rfl f w] at hws
      obtain ⟨as, has, rfl⟩ := hws
      exact ⟨_, ⟨ms, fields, type, as, rfl, rfl, hg, hu, ht, has⟩,
        by rw [word, memberWords_eq_map]⟩
    · rintro ⟨_, ⟨ms, fields, type, as, rfl, rfl, hg, hu, ht, has⟩, rfl⟩
      refine ⟨ms, _, rfl, ⟨fields, type, as.map fun m => m.2.word keccak256, hg, hu, ht, ?_, rfl⟩,
        by rw [word, memberWords_eq_map]⟩
      rw [forall₂_iff_exists_map fun f _ w => hfield ms rfl f w]
      exact ⟨as, has, rfl⟩
  | _ =>
    simp only [value, ofJson?]
    exact atom_eq_ok_iff

/-- **The encoder gives a value the word of what the value says,** and no word where it says
nothing under the type. -/
theorem value_eq_ok_iff {v : Json} {t : FieldType} {w : Word} :
    value types v t = .ok w ↔ ∃ a, ofJson? types v t = some a ∧ a.word keccak256 = w :=
  Json.induction_of_step (fun _ => wordsOfSaid_step) v t w

end Encode

namespace TypeSchema

/-- A struct's hash is its word as a value. -/
theorem hashStruct_eq_value (types : TypeSchema) (name : String) (v : Json) :
    types.hashStruct name v = Encode.value types v (.struct name) := by
  unfold hashStruct encodeData
  rw [bind_assoc]
  cases v <;> rfl

/-- **The hash of a struct is the word of what the value says.** -/
theorem hashStruct_eq_ok_iff {types : TypeSchema} {name : String} {v : Json} {w : Word} :
    types.hashStruct name v = .ok w ↔
      ∃ a, TypedValue.ofJson? types v (.struct name) = some a ∧ a.word keccak256 = w := by
  rw [hashStruct_eq_value, Encode.value_eq_ok_iff]

end TypeSchema

end DocumentProof
