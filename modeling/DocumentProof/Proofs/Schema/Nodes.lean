import DocumentProof.Proofs.Json.Order
import DocumentProof.Proofs.Outcome
import DocumentProof.Proofs.Schema.FieldText
import DocumentProof.Schema.Derive

/-!
# The objects of a document and their fields

The nodes of a document are the objects that are reached through members, each with the name of its
struct (`nodes`). A member of a node has a field if it is regular (`IsRegular`), and the texts of
types follow from the members alone (`fieldList?`).

`Adds` says that a schema binds what another one binds and some nodes besides. Nodes can be added in
any order and in several steps (`adds_congr`, `adds_append_iff`), and registering a struct adds one
(`register_eq_ok_iff`).
-/

namespace DocumentProof

/-! ## Part of a map -/

namespace KeyMap

variable {α : Type}

open Classical in
/-- The entries with a property. -/
noncomputable def restrict (m : KeyMap α) (p : String → α → Prop) : KeyMap α :=
  ⟨m.entries.filter fun e => p e.1 e.2, m.increasing.filter _⟩

theorem get?_restrict {m : KeyMap α} {p : String → α → Prop} {key : String} {v : α} :
    (m.restrict p).get? key = some v ↔ m.get? key = some v ∧ p key v := by
  unfold get?
  rw [← Keyed.mem_iff_get? (m.restrict p).increasing, ← Keyed.mem_iff_get? m.increasing]
  simp only [restrict, List.mem_filter, decide_eq_true_eq]

end KeyMap

namespace Derive

/-! ## Nodes -/

/-- An object with the name of its struct, if its key gives it one. -/
abbrev Node := Option String × Members

mutual

/-- The objects that are reached through members from a value that stands under this name. -/
def nodesUnder (name : Option String) : Json → List Node
  | .object ms => (name, ms) :: memberNodes ms
  | _ => []

def memberNodes : List (String × Json) → List Node
  | [] => []
  | (key, x) :: ms => nodesUnder (capitalize? key) x ++ memberNodes ms

end

/-- The objects of a document that are reached through members, the document itself included. -/
def nodes (d : Json) : List Node := nodesUnder (some rootType) d

theorem mem_memberNodes {n : Node} : ∀ {l : List (String × Json)},
    n ∈ memberNodes l ↔ ∃ m ∈ l, n ∈ nodesUnder (capitalize? m.1) m.2
  | [] => by simp [memberNodes]
  | (key, x) :: ms => by simp [memberNodes, mem_memberNodes (l := ms)]

/-! ## The fields of a node -/

/-- The text of the type of a single value. -/
def atomText? : Json → Option String
  | .bool _ => some "bool"
  | .number _ => some "uint256"
  | .string _ => some "string"
  | _ => none

/-- The text of the type of a list, whose items are single values of one type. -/
def arrayText? : List Json → Option String
  | [] => some "string[]"
  | x :: xs => (atomText? x).bind fun s =>
    if ∀ y ∈ xs, atomText? y = some s then some (s ++ "[]") else none

/-- The text of the type of the value under a key. -/
def typeText? (key : String) : Json → Option String
  | .array xs => arrayText? xs
  | .object _ => capitalize? key
  | x => atomText? x

/-- The field for a member. -/
def field? (m : String × Json) : Option Field := (typeText? m.1 m.2).map fun s => ⟨m.1, s⟩

/-- The fields for the members of a node. -/
def fieldList? (ms : List (String × Json)) : Option (List Field) := ms.mapM field?

/-- A value that a field can hold. -/
def IsTypable : Json → Prop
  | .null => False
  | .array xs =>
    (∀ x ∈ xs, ∃ b, x = .bool b) ∨ (∀ x ∈ xs, ∃ n, x = .number n) ∨ ∀ x ∈ xs, ∃ s, x = .string s
  | _ => True

/-- A key without a parenthesis, a comma or a blank. -/
def IsFieldName (key : String) : Prop :=
  ∀ c ∈ key.toList, c ≠ '(' ∧ c ≠ ')' ∧ c ≠ ',' ∧ Text.isBlank c = false

/-- A member that a field can be made for: its key can name a field, its value has a type, and if
this is a struct, the name of the struct reads back as this struct. -/
structure IsRegular (m : String × Json) : Prop where
  key : IsFieldName m.1
  kind : IsTypable m.2
  name : ∀ ns, m.2 = .object ns →
    ∃ name, capitalize? m.1 = some name ∧ FieldType.ofText? name = some (.struct name)

theorem fieldList?_cons {key : String} {x : Json} {ms : List (String × Json)} {fields : List Field} :
    fieldList? ((key, x) :: ms) = some fields ↔
      ∃ s gs, typeText? key x = some s ∧ fieldList? ms = some gs ∧ ⟨key, s⟩ :: gs = fields := by
  unfold fieldList? field?
  simp only [List.mapM_cons, Option.bind_eq_bind, Option.bind_eq_some_iff, Option.map_eq_some_iff,
    Option.pure_def, Option.some.injEq]
  constructor
  · rintro ⟨_, ⟨s, hs, rfl⟩, gs, hgs, rfl⟩
    exact ⟨s, gs, hs, hgs, rfl⟩
  · rintro ⟨s, gs, hs, hgs, rfl⟩
    exact ⟨_, ⟨s, hs, rfl⟩, gs, hgs, rfl⟩

/-- A field bears the key of its member. -/
theorem names_of_fieldList? : ∀ {ms : List (String × Json)} {fields : List Field},
    fieldList? ms = some fields → fields.map (·.name) = ms.map (·.1)
  | [], _, h => by
    cases h
    rfl
  | (key, x) :: ms, _, h => by
    obtain ⟨s, gs, -, hgs, rfl⟩ := fieldList?_cons.mp h
    rw [List.map_cons, List.map_cons, names_of_fieldList? hgs]

theorem mem_of_fieldList? : ∀ {ms : List (String × Json)} {fields : List Field},
    fieldList? ms = some fields → ∀ m ∈ ms, ∀ s, typeText? m.1 m.2 = some s → ⟨m.1, s⟩ ∈ fields
  | (key, x) :: ms, _, h, m, hm, s, hs => by
    obtain ⟨t, gs, ht, hgs, rfl⟩ := fieldList?_cons.mp h
    rcases List.mem_cons.mp hm with rfl | hm
    · obtain rfl : t = s := Option.some.inj (ht.symm.trans hs)
      exact List.mem_cons_self
    · exact List.mem_cons_of_mem _ (mem_of_fieldList? hgs m hm s hs)

/-- A field stands for a member. -/
theorem exists_of_mem_fieldList? : ∀ {ms : List (String × Json)} {fields : List Field},
    fieldList? ms = some fields → ∀ f ∈ fields, ∃ m ∈ ms, typeText? m.1 m.2 = some f.typeName
  | [], _, h, f, hf => by
    cases h
    cases hf
  | (key, x) :: ms, _, h, f, hf => by
    obtain ⟨s, gs, hs, hgs, rfl⟩ := fieldList?_cons.mp h
    rcases List.mem_cons.mp hf with rfl | hf
    · exact ⟨_, List.mem_cons_self, hs⟩
    · obtain ⟨m, hm, htype⟩ := exists_of_mem_fieldList? hgs f hf
      exact ⟨m, List.mem_cons_of_mem _ hm, htype⟩

/-! ## What one value gets -/

open FieldType (ofPrimitive arrayOf)

theorem atomText?_eq (x : Json) :
    atomText? x = (primitive? x).map fun p => (ofPrimitive p).toText := by
  have htext : "bool" = (ofPrimitive .bool).toText ∧ "uint256" = (ofPrimitive .uint256).toText ∧
      "string" = (ofPrimitive .string).toText := by decide
  obtain ⟨hbool, hnumber, hstring⟩ := htext
  cases x with
  | bool b => rw [atomText?, hbool, primitive?, Option.map_some]
  | number n => rw [atomText?, hnumber, primitive?, Option.map_some]
  | string s => rw [atomText?, hstring, primitive?, Option.map_some]
  | _ => rfl

theorem toText_ofPrimitive_inj : ∀ {p q : Primitive},
    (ofPrimitive p).toText = (ofPrimitive q).toText → p = q := by
  have h : ∀ p ∈ [Primitive.string, .uint256, .bool], ∀ q ∈ [Primitive.string, .uint256, .bool],
      (ofPrimitive p).toText = (ofPrimitive q).toText → p = q := by decide
  intro p q
  exact h p (by cases p <;> decide) q (by cases q <;> decide)

theorem atomText?_eq_some_iff {x : Json} {p : Primitive} :
    atomText? x = some (ofPrimitive p).toText ↔ primitive? x = some p := by
  rw [atomText?_eq, Option.map_eq_some_iff]
  constructor
  · rintro ⟨q, hq, htext⟩
    rw [hq, toText_ofPrimitive_inj htext]
  · intro hp
    exact ⟨p, hp, rfl⟩

theorem toText_arrayOf (p : Primitive) : (arrayOf p).toText = (ofPrimitive p).toText ++ "[]" := by
  cases p <;> decide

/-- After an item of one kind, all the others have to be of it. -/
theorem itemKind_some_eq_ok_iff {path : String} {p : Primitive} {kind : Option Primitive} :
    ∀ {xs : List Json},
      itemKind path (some p) xs = .ok kind ↔ kind = some p ∧ ∀ x ∈ xs, primitive? x = some p
  | [] => by
    rw [itemKind, Except.ok.injEq, eq_comm]
    exact (and_iff_left (List.forall_mem_nil _)).symm
  | x :: xs => by
    have ih : itemKind path (some p) xs = .ok kind ↔ kind = some p ∧ ∀ y ∈ xs, primitive? y = some p :=
      itemKind_some_eq_ok_iff
    rw [itemKind, List.forall_mem_cons]
    cases hx : primitive? x with
    | none => simp
    | some q =>
      by_cases hpq : p = q
      · subst hpq
        simp [ih]
      · simp [hpq, Ne.symm hpq]

/-- **What an array gets:** the type that the text of its items says. -/
theorem itemKind_none_eq_ok_iff {path s : String} {xs : List Json} :
    (∃ kind, itemKind path none xs = .ok kind ∧ (arrayOf (kind.getD .string)).toText = s) ↔
      arrayText? xs = some s := by
  cases xs with
  | nil =>
    have hempty : (arrayOf .string).toText = "string[]" := by decide
    simp [itemKind, arrayText?, hempty]
  | cons x xs =>
    rw [itemKind, arrayText?]
    cases hx : primitive? x with
    | none => simp [atomText?_eq, hx]
    | some p =>
      have hx' : atomText? x = some (ofPrimitive p).toText := atomText?_eq_some_iff.mpr hx
      simp [hx', itemKind_some_eq_ok_iff, atomText?_eq_some_iff, toText_arrayOf]

theorem structName_eq_ok_iff {key path name : String} :
    structName key path = .ok name ↔
      capitalize? key = some name ∧ FieldType.ofText? name = some (.struct name) := by
  unfold structName
  cases capitalize? key with
  | none => simp
  | some n =>
    by_cases hn : FieldType.ofText? n = some (.struct n)
    · simp only [if_pos hn, Except.ok.injEq, Option.some.injEq]
      exact ⟨fun h => ⟨h, h ▸ hn⟩, fun h => h.1⟩
    · simp only [if_neg hn, reduceCtorEq, Option.some.injEq, false_iff, not_and]
      rintro rfl
      exact hn

theorem any_isForbidden_eq_false_iff {key : String} :
    key.toList.any isForbidden = false ↔ IsFieldName key := by
  simp only [IsFieldName, List.any_eq_false, Bool.not_eq_true, isForbidden, Bool.or_eq_false_iff,
    beq_eq_false_iff_ne, and_assoc]

theorem isTypable_array_iff {xs : List Json} :
    IsTypable (.array xs) ↔ ∃ p, ∀ x ∈ xs, primitive? x = some p := by
  have hbool : ∀ x, primitive? x = some .bool ↔ ∃ b, x = .bool b := by
    intro x
    cases x <;> simp [primitive?]
  have hnumber : ∀ x, primitive? x = some .uint256 ↔ ∃ n, x = .number n := by
    intro x
    cases x <;> simp [primitive?]
  have hstring : ∀ x, primitive? x = some .string ↔ ∃ s, x = .string s := by
    intro x
    cases x <;> simp [primitive?]
  simp only [IsTypable, ← hbool, ← hnumber, ← hstring]
  constructor
  · rintro (h | h | h)
    · exact ⟨_, h⟩
    · exact ⟨_, h⟩
    · exact ⟨_, h⟩
  · rintro ⟨p, h⟩
    cases p with
    | bool => exact Or.inl h
    | uint256 => exact Or.inr (Or.inl h)
    | string => exact Or.inr (Or.inr h)

theorem exists_arrayText?_iff {xs : List Json} :
    (∃ s, arrayText? xs = some s) ↔ IsTypable (.array xs) := by
  rw [isTypable_array_iff]
  cases xs with
  | nil => exact iff_of_true ⟨_, rfl⟩ ⟨.string, List.forall_mem_nil _⟩
  | cons x xs =>
    simp only [arrayText?, List.forall_mem_cons]
    cases hx : primitive? x with
    | none => simp [atomText?_eq, hx]
    | some p =>
      have hx' : atomText? x = some (ofPrimitive p).toText := atomText?_eq_some_iff.mpr hx
      simp [hx', atomText?_eq_some_iff]

/-- A regular member has a type. -/
theorem IsRegular.exists_typeText? {m : String × Json} (h : IsRegular m) :
    ∃ s, typeText? m.1 m.2 = some s := by
  obtain ⟨key, x⟩ := m
  cases x with
  | null => exact h.kind.elim
  | array xs => exact exists_arrayText?_iff.mpr h.kind
  | object ns =>
    obtain ⟨name, hname, -⟩ := h.name ns rfl
    exact ⟨name, hname⟩
  | _ => exact ⟨_, rfl⟩

theorem exists_fieldList? : ∀ {ms : List (String × Json)}, (∀ m ∈ ms, IsRegular m) →
    ∃ fields, fieldList? ms = some fields
  | [], _ => ⟨[], rfl⟩
  | m :: ms, h => by
    obtain ⟨s, hs⟩ := (h m List.mem_cons_self).exists_typeText?
    obtain ⟨fields, hfields⟩ := exists_fieldList? fun n hn => h n (List.mem_cons_of_mem m hn)
    exact ⟨_, fieldList?_cons.mpr ⟨s, fields, hs, hfields, rfl⟩⟩

/-! ## What the walk registers -/

/-- The second schema binds what the first binds and these nodes, to their fields. -/
def Adds (types : TypeSchema) (ns : List Node) (types' : TypeSchema) : Prop :=
  ∀ name fields, types'.get? name = some fields ↔
    types.get? name = some fields ∨ ∃ ms, (some name, ms) ∈ ns ∧ fieldList? ms = some fields

variable {types types' : TypeSchema}

theorem Adds.unique {types'' : TypeSchema} {ns : List Node} (h : Adds types ns types')
    (h' : Adds types ns types'') : types' = types'' :=
  KeyMap.ext fun name => Option.ext fun fields => (h name fields).trans (h' name fields).symm

theorem adds_congr {ms ns : List Node} (h : ∀ n, n ∈ ms ↔ n ∈ ns) :
    Adds types ms types' ↔ Adds types ns types' := by
  unfold Adds
  simp only [h]

theorem adds_nil_iff : Adds types [] types' ↔ types = types' := by
  constructor
  · intro h
    have hrefl : Adds types [] types := fun name fields => by simp
    exact hrefl.unique h
  · rintro rfl name fields
    simp

/-- Nodes are added in two steps: the schema in between has those of the final one that stem from
before or from the first step. -/
theorem adds_append_iff {ms ns : List Node} :
    Adds types (ms ++ ns) types' ↔ ∃ mid, Adds types ms mid ∧ Adds mid ns types' := by
  constructor
  · intro h
    let fromFirst (name : String) (fields : List Field) : Prop :=
      types.get? name = some fields ∨ ∃ os, (some name, os) ∈ ms ∧ fieldList? os = some fields
    have hmid : Adds types ms (types'.restrict fromFirst) := by
      intro name fields
      rw [KeyMap.get?_restrict, h name fields]
      refine ⟨fun hboth => hboth.2, fun hfirst => ⟨?_, hfirst⟩⟩
      exact hfirst.imp_right fun ⟨os, hos, hfields⟩ => ⟨os, List.mem_append_left _ hos, hfields⟩
    refine ⟨_, hmid, fun name fields => ?_⟩
    rw [hmid name fields, h name fields, or_assoc]
    simp only [List.mem_append, or_and_right, exists_or]
  · rintro ⟨mid, hms, hns⟩ name fields
    rw [hns name fields, hms name fields, or_assoc]
    simp only [List.mem_append, or_and_right, exists_or]

/-- **Registering a struct adds its node,** and fails if its name is bound to other fields. -/
theorem register_eq_ok_iff {r r' : Registry} {name : String} {fields : List Field} {ms : Members}
    (hms : fieldList? ms = some fields) :
    r.register name fields = .ok r' ↔ Adds r.types [(some name, ms)] r'.types := by
  have hput : ∀ types', Adds r.types [(some name, ms)] types' ↔ ∀ x fs,
      types'.get? x = some fs ↔ r.types.get? x = some fs ∨ x = name ∧ fs = fields := by
    intro types'
    refine forall_congr' fun x => forall_congr' fun fs => iff_congr Iff.rfl (or_congr Iff.rfl ?_)
    simp only [List.mem_singleton, Prod.mk.injEq, Option.some.injEq]
    constructor
    · rintro ⟨_, ⟨rfl, rfl⟩, hfs⟩
      exact ⟨rfl, Option.some.inj (hfs.symm.trans hms)⟩
    · rintro ⟨rfl, rfl⟩
      exact ⟨ms, ⟨rfl, rfl⟩, hms⟩
  have hsame : ∀ {s : Registry}, Adds r.types [(some name, ms)] s.types →
      (s = r' ↔ Adds r.types [(some name, ms)] r'.types) := by
    intro s hs
    refine ⟨fun h => h ▸ hs, fun h => ?_⟩
    cases s
    cases r'
    exact congrArg Registry.mk (hs.unique h)
  unfold Registry.register
  cases hget : r.types.get? name with
  | none =>
    rw [Except.ok.injEq]
    refine hsame ((hput _).mpr fun x fs => ?_)
    rw [KeyMap.get?_put]
    by_cases hx : x = name
    · simp [hx, hget, eq_comm]
    · simp [hx]
  | some existing =>
    by_cases heq : existing = fields
    · simp only [if_pos heq, Except.ok.injEq]
      refine hsame ((hput _).mpr fun x fs => ⟨Or.inl, ?_⟩)
      rintro (h | ⟨rfl, rfl⟩)
      · exact h
      · rw [hget, heq]
    · simp only [if_neg heq, reduceCtorEq, false_iff]
      intro h
      have hold := ((hput _).mp h name existing).mpr (Or.inl hget)
      have hnew := ((hput _).mp h name fields).mpr (Or.inr ⟨rfl, rfl⟩)
      exact heq (Option.some.inj (hold.symm.trans hnew))

/-- Every member of every one of these objects is regular. -/
def AllRegular (ns : List Node) : Prop := ∀ n ∈ ns, ∀ m ∈ n.2, IsRegular m

theorem allRegular_nil : AllRegular [] := List.forall_mem_nil _

theorem allRegular_append {ms ns : List Node} :
    AllRegular (ms ++ ns) ↔ AllRegular ms ∧ AllRegular ns := List.forall_mem_append

theorem allRegular_cons {n : Node} {ns : List Node} :
    AllRegular (n :: ns) ↔ (∀ m ∈ n.2, IsRegular m) ∧ AllRegular ns := List.forall_mem_cons

end Derive

end DocumentProof
