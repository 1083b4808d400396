import DocumentProof.Proofs.Schema.Exact
import DocumentProof.Proofs.TypedData.References

/-!
# References of a derived schema

Nodes of one name have the same fields, so a derived struct refers to the structs of the objects
that stand in any one of its nodes (`refers_iff`). References follow the document down: below each
node of a struct there is a node of every struct that it reaches, and this one is less deep
(`exists_node_of_reaches`). A struct that reached itself would have nodes below nodes without end
(`not_reaches_self`). So a document with a schema has no object inside one of the same name
(`derived_schema_acyclic`).
-/

namespace DocumentProof

namespace Derive

open FieldType (ofText? ofPrimitive arrayOf)

open TypeSchema (Refers Reaches Below)

/-- A type that derived fields have: that of a single value, of an array of such, or a struct that
is defined. -/
def IsDerivedType (types : TypeSchema) (t : FieldType) : Prop :=
  (∃ p, t = ofPrimitive p) ∨ (∃ p, t = arrayOf p) ∨
    ∃ name, t = .struct name ∧ types.contains name = true

/-- The value has the object `ns` at some depth, under a key that gives it this name. -/
inductive Holds (name : String) (ns : Members) : Json → Prop
  | member {ms : Members} {key : String} (mem : (key, Json.object ns) ∈ ms)
      (named : capitalize? key = some name) : Holds name ns (.object ms)
  | inside {ms : Members} {key : String} {x : Json} (mem : (key, x) ∈ ms)
      (below : Holds name ns x) : Holds name ns (.object ms)
  | item {xs : List Json} {x : Json} (mem : x ∈ xs) (below : Holds name ns x) :
      Holds name ns (.array xs)

/-- The document has an object of this name. It is itself one of the name `Document`. -/
def HasObject (d : Json) (name : String) (ms : Members) : Prop :=
  name = rootType ∧ d = .object ms ∨ Holds name ms d

variable {d : Document} {types : TypeSchema} {name used : String} {ms ns : Members}

/-! ### Nodes below nodes -/

/-- The document itself is a node. -/
theorem mem_nodes_root {j : Json} (h : j = .object ms) : (some rootType, ms) ∈ nodes j := by
  rw [h]
  exact List.mem_cons_self

/-- The objects under the keys of a node are nodes. -/
theorem mem_nodesUnder_of_member {v : Json} : ∀ {start n : Option String} {key : String},
    (n, ms) ∈ nodesUnder start v → (key, Json.object ns) ∈ ms →
      (capitalize? key, ns) ∈ nodesUnder start v := by
  induction v using Json.induction with
  | object vs ih =>
    intro start n key hn hmem
    rcases List.mem_cons.mp hn with h | hn
    · cases h
      exact List.mem_cons_of_mem _ (mem_memberNodes.mpr ⟨_, hmem, List.mem_cons_self⟩)
    · obtain ⟨m, hm, hn⟩ := mem_memberNodes.mp hn
      exact List.mem_cons_of_mem _ (mem_memberNodes.mpr ⟨m, hm, ih m hm hn hmem⟩)
  | _ =>
    intro _ _ _ hn
    cases hn

/-- An object is less deep than the one that it stands in. -/
theorem depthMembers_lt_of_member {key : String} (hmem : (key, Json.object ns) ∈ ms) :
    Json.depthMembers ns < Json.depthMembers ms := by
  have hle : (Json.object ns).depth ≤ Json.depthMembers ms :=
    Json.depthMembers_le_iff.mp le_rfl _ hmem
  rw [Json.depth] at hle
  omega

/-! ### Types of fields -/

/-- The text of a member's type is that of a single value's type, of an array's or of the struct of
the object that stands there. -/
theorem ofText?_of_typeText? {m : String × Json} {s : String} (hm : IsRegular m)
    (hs : typeText? m.1 m.2 = some s) :
    (∃ p, ofText? s = some (ofPrimitive p)) ∨ (∃ p, ofText? s = some (arrayOf p)) ∨
      ∃ ns, m.2 = .object ns ∧ capitalize? m.1 = some s ∧ ofText? s = some (.struct s) := by
  have hatom : ∀ {x}, atomText? x = some s → ∃ p, ofText? s = some (ofPrimitive p) := fun h => by
    rw [atomText?_eq] at h
    obtain ⟨p, -, rfl⟩ := Option.map_eq_some_iff.mp h
    exact ⟨p, FieldType.ofText?_toText_ofPrimitive p⟩
  obtain ⟨key, x⟩ := m
  cases x with
  | array xs =>
    obtain ⟨kind, -, rfl⟩ : ∃ kind, itemKind "" none xs = .ok kind ∧
        (arrayOf (kind.getD .string)).toText = s := itemKind_none_eq_ok_iff.mpr hs
    exact .inr (.inl ⟨_, FieldType.ofText?_toText_arrayOf _⟩)
  | object ns =>
    obtain ⟨n, hn, hread⟩ := hm.name ns rfl
    obtain rfl : n = s := Option.some.inj (hn.symm.trans hs)
    exact .inr (.inr ⟨ns, rfl, hn, hread⟩)
  | null => cases hs
  | bool b => exact .inl (hatom (x := .bool b) hs)
  | number n => exact .inl (hatom (x := .number n) hs)
  | string r => exact .inl (hatom (x := .string r) hs)

theorem structName?_ofPrimitive (p : Primitive) : (ofPrimitive p).structName? = none := by
  cases p <;> rfl

theorem structName?_arrayOf (p : Primitive) : (arrayOf p).structName? = none := by
  cases p <;> rfl

section Derived

variable (h : deriveTypes d.json = .ok types)
include h

theorem exists_node (hd : types.contains name = true) : ∃ ms, (some name, ms) ∈ nodes d.json := by
  obtain ⟨fields, hg⟩ := KeyMap.contains_iff.mp hd
  obtain ⟨ms, hn, -⟩ := ((deriveTypes_eq_ok_iff.mp h).2.2 name fields).mp hg
  exact ⟨ms, hn⟩

theorem contains_of_node (hn : (some name, ms) ∈ nodes d.json) : types.contains name = true := by
  have hbound := bound_of_deriveTypes h
  obtain ⟨fields, hfields⟩ := exists_fieldList? (hbound.regular _ hn)
  exact KeyMap.contains_iff.mpr ⟨fields, (hbound.fields _ _ hn).trans hfields⟩

/-- **A field of a derived schema has a derived type.** -/
theorem isDerivedType_of_field {fields : List Field} {f : Field}
    (hg : types.get? name = some fields) (hf : f ∈ fields) :
    ∃ t, ofText? f.typeName = some t ∧ IsDerivedType types t := by
  obtain ⟨-, hregular, htypes⟩ := deriveTypes_eq_ok_iff.mp h
  obtain ⟨ms, hn, hfields⟩ := (htypes name fields).mp hg
  obtain ⟨m, hm, htype⟩ := exists_of_mem_fieldList? hfields f hf
  rcases ofText?_of_typeText? (hregular _ hn m hm) htype with ⟨p, ht⟩ | ⟨p, ht⟩ | ⟨ns, hx, hkey, ht⟩
  · exact ⟨_, ht, .inl ⟨p, rfl⟩⟩
  · exact ⟨_, ht, .inr (.inl ⟨p, rfl⟩)⟩
  · have hchild : (capitalize? m.1, ns) ∈ nodes d.json := mem_nodesUnder_of_member hn (hx ▸ hm)
    rw [hkey] at hchild
    exact ⟨_, ht, .inr (.inr ⟨_, rfl, contains_of_node h hchild⟩)⟩

/-! ### References follow the document down -/

/-- **A derived struct refers to the structs of the objects in any one of its nodes.** -/
theorem refers_iff (hn : (some name, ms) ∈ nodes d.json) : Refers types name used ↔
    ∃ key ns, (key, Json.object ns) ∈ ms ∧ capitalize? key = some used := by
  have hbound := bound_of_deriveTypes h
  have hregular := hbound.regular _ hn
  have hfields := hbound.fields _ _ hn
  constructor
  · rintro ⟨fields, f, t, hg, hf, ht, hused⟩
    obtain ⟨m, hm, htype⟩ := exists_of_mem_fieldList? (hfields.symm.trans hg) f hf
    rcases ofText?_of_typeText? (hregular m hm) htype with ⟨p, hp⟩ | ⟨p, hp⟩ | ⟨ns, hx, hkey, hs⟩
    · cases ht.symm.trans hp
      cases (structName?_ofPrimitive p).symm.trans hused
    · cases ht.symm.trans hp
      cases (structName?_arrayOf p).symm.trans hused
    · cases ht.symm.trans hs
      cases hused
      exact ⟨m.1, ns, hx ▸ hm, hkey⟩
  · rintro ⟨key, ns, hmem, hkey⟩
    obtain ⟨fields, hlist⟩ := exists_fieldList? hregular
    obtain ⟨s, hs, hread⟩ := (hregular _ hmem).name ns rfl
    obtain rfl : s = used := Option.some.inj (hs.symm.trans hkey)
    exact ⟨fields, ⟨key, s⟩, .struct s, hfields.trans hlist, mem_of_fieldList? hlist _ hmem s hkey,
      hread, rfl⟩

/-- One step down the document for one reference. -/
theorem exists_node_of_refers (hr : Refers types name used) (hn : (some name, ms) ∈ nodes d.json) :
    ∃ ns, (some used, ns) ∈ nodes d.json ∧ Json.depthMembers ns < Json.depthMembers ms := by
  obtain ⟨key, ns, hmem, hkey⟩ := (refers_iff h hn).mp hr
  exact ⟨ns, hkey ▸ mem_nodesUnder_of_member hn hmem, depthMembers_lt_of_member hmem⟩

/-- **Below each node of a struct is a node of every struct that it reaches.** -/
theorem exists_node_of_reaches (hr : Reaches types name used) (hn : (some name, ms) ∈ nodes d.json) :
    ∃ ns, (some used, ns) ∈ nodes d.json ∧ Json.depthMembers ns < Json.depthMembers ms := by
  induction hr with
  | single hr => exact exists_node_of_refers h hr hn
  | tail _ hr ih =>
    obtain ⟨ns, hns, hlt⟩ := ih
    obtain ⟨os, hos, hlt'⟩ := exists_node_of_refers h hr hns
    exact ⟨os, hos, hlt'.trans hlt⟩

omit h in
theorem contains_of_reaches (hr : Reaches types name used) : types.contains name = true := by
  obtain ⟨mid, ⟨fields, -, -, hg, -⟩, -⟩ := Relation.TransGen.head'_iff.mp hr
  exact KeyMap.contains_iff.mpr ⟨fields, hg⟩

/-- **No derived struct reaches itself.** The descent is along the depth of its nodes. -/
theorem not_reaches_self : ¬ Reaches types name name := by
  intro hr
  have hnone : ∀ n ms, (some name, ms) ∈ nodes d.json → Json.depthMembers ms ≠ n := by
    intro n
    induction n using Nat.strong_induction_on with
    | _ n ih =>
      rintro ms hn rfl
      obtain ⟨ns, hns, hlt⟩ := exists_node_of_reaches h hr hn
      exact ih _ hlt ns hns rfl
  obtain ⟨fields, hg⟩ := KeyMap.contains_iff.mp (contains_of_reaches hr)
  obtain ⟨ms, hn⟩ := exists_node h (contains_of_reaches hr)
  exact hnone _ ms hn rfl

/-! ### Down from the root -/

/-- An object under a key of a node is one of the struct that the key gives it. -/
theorem exists_name_of_member {key : String} (hn : (some name, ms) ∈ nodes d.json)
    (hmem : (key, Json.object ns) ∈ ms) :
    ∃ used, capitalize? key = some used ∧ Refers types name used ∧ (some used, ns) ∈ nodes d.json := by
  obtain ⟨used, hkey, -⟩ := ((bound_of_deriveTypes h).regular _ hn _ hmem).name ns rfl
  exact ⟨used, hkey, (refers_iff h hn).mpr ⟨key, ns, hmem, hkey⟩,
    hkey ▸ mem_nodesUnder_of_member hn hmem⟩

/-- The struct of a node leads to those of all nodes inside it. -/
theorem below_of_mem_nodesUnder {v : Json} : ∀ {start : String},
    (∀ ms, v = .object ms → (some start, ms) ∈ nodes d.json) →
    (some used, ns) ∈ nodesUnder (some start) v → Below types start used := by
  induction v using Json.induction with
  | object ms ih =>
    intro start hnode hn
    rcases List.mem_cons.mp hn with hself | hn
    · cases hself
      exact Relation.ReflTransGen.refl
    · obtain ⟨⟨key, x⟩, hm, hn⟩ := mem_memberNodes.mp hn
      cases x with
      | object os =>
        obtain ⟨mid, hkey, hr, hchild⟩ := exists_name_of_member h (hnode ms rfl) hm
        rw [hkey] at hn
        refine Relation.ReflTransGen.head hr (ih _ hm (fun _ hos => ?_) hn)
        cases hos
        exact hchild
      | _ => cases hn
  | _ =>
    intro _ _ hn
    cases hn

/-- **Every struct of a derived schema is found from the root.** -/
theorem below_rootType (hd : types.contains name = true) : Below types rootType name := by
  obtain ⟨ms, hn⟩ := exists_node h hd
  exact below_of_mem_nodesUnder h (fun ms hms => mem_nodes_root hms) hn

omit h in
/-- An array that a field can hold has no object inside. -/
theorem not_holds_array {xs : List Json} (ht : IsTypable (.array xs)) :
    ¬ Holds name ns (.array xs) := by
  intro hv
  cases hv with
  | @item _ x hx hbelow =>
    obtain ⟨p, hp⟩ := isTypable_array_iff.mp ht
    have hx' : primitive? x = some p := hp x hx
    cases x with
    | object os => cases hx'
    | array ys => cases hx'
    | _ => cases hbelow

/-- **An object inside a node is a node, and its struct is reached.** -/
theorem reaches_of_holds {v : Json} (hv : Holds used ns v) : ∀ {name : String} {ms : Members},
    v = .object ms → (some name, ms) ∈ nodes d.json →
      Reaches types name used ∧ (some used, ns) ∈ nodes d.json := by
  induction hv with
  | member hmem hkey =>
    intro name ms hv hn
    cases hv
    obtain ⟨mid, hmid, hr, hchild⟩ := exists_name_of_member h hn hmem
    obtain rfl : mid = used := Option.some.inj (hmid.symm.trans hkey)
    exact ⟨Relation.TransGen.single hr, hchild⟩
  | @inside _ key x hmem hbelow ih =>
    intro name ms hv hn
    cases hv
    cases x with
    | object os =>
      obtain ⟨mid, -, hr, hchild⟩ := exists_name_of_member h hn hmem
      obtain ⟨hreach, hnode⟩ := ih rfl hchild
      exact ⟨Relation.TransGen.head hr hreach, hnode⟩
    | array xs =>
      exact absurd hbelow (not_holds_array ((bound_of_deriveTypes h).regular _ hn _ hmem).kind)
    | _ => cases hbelow
  | item =>
    intro _ _ hv
    cases hv

/-- An object of the document is a node of its name. -/
theorem node_of_hasObject (ho : HasObject d.json name ms) : (some name, ms) ∈ nodes d.json := by
  rcases ho with ⟨rfl, hroot⟩ | hv
  · exact mem_nodes_root hroot
  · obtain ⟨⟨os, hroot⟩, -⟩ := deriveTypes_eq_ok_iff.mp h
    exact (reaches_of_holds h hv hroot (mem_nodes_root hroot)).2

end Derived

/-- **Derived schemas are closed, connected and acyclic.** The type of every field of a derived
schema can be read: it is `bool`, `string`, `uint256`, an array of one of these or a struct that the
schema defines. Every defined struct is found from `Document`, and none reaches itself. So a document
in which an object lies inside another of its name has no schema. -/
theorem derived_schema_acyclic (d : Document) :
    (∀ types, deriveTypes d.json = .ok types →
      (∀ name fields, types.get? name = some fields → ∀ f ∈ fields,
        ∃ t, ofText? f.typeName = some t ∧ IsDerivedType types t) ∧
      (∀ name, types.contains name = true → Below types rootType name) ∧
      ∀ name, ¬ Reaches types name name) ∧
    ∀ name ms ns, HasObject d.json name ms → Holds name ns (.object ms) →
      ∃ e, deriveTypes d.json = .error e := by
  refine ⟨fun types h => ⟨fun name fields hg f hf => isDerivedType_of_field h hg hf,
    fun name hd => below_rootType h hd, fun name => not_reaches_self h⟩,
    fun name ms ns ho hinside => ?_⟩
  cases h : deriveTypes d.json with
  | error e => exact ⟨e, rfl⟩
  | ok types =>
    have hreach := (reaches_of_holds h hinside rfl (node_of_hasObject h ho)).1
    exact absurd hreach (not_reaches_self h)

/-- A document with two keys of one name, one inside the other. -/
def nestedNames : Document :=
  ⟨.object [("a", .object [("b", .object [("A", .object [])])])], by decide +kernel⟩

theorem derived_schema_acyclic_nested : ∃ e, deriveTypes nestedNames.json = .error e := by
  have ha : capitalize? "a" = some "A" := by decide +kernel
  have hA : capitalize? "A" = some "A" := by decide +kernel
  exact (derived_schema_acyclic nestedNames).2 "A" _ []
    (.inr (.member List.mem_cons_self ha))
    (.inside List.mem_cons_self (.member List.mem_cons_self hA))

end Derive

end DocumentProof
