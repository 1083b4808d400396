import DocumentProof.Proofs.Schema.Nodes
import DocumentProof.Proofs.Schema.Walk

/-!
# Which documents have a schema

A document has a schema exactly when it is an object, every member of a node is regular, and nodes of
one name have the same fields (`HasSchema`). The schema then binds the names of the nodes to their
fields and binds nothing else (`deriveTypes_eq_ok_iff`).

The walk over a document registers one node after the other. What it does is an equivalence at every
step (`member_eq_ok_iff`, `members_eq_ok_iff`): it goes from one registry to another exactly when the
second adds the nodes below to the first. What is written with its members in any order has the schema
of the document that is read from it (`derived_schema_exact`).
-/

namespace DocumentProof

namespace Derive

open FieldType (ofPrimitive arrayOf)

/-! ## The walk -/

theorem registry_eq_iff {r r' : Registry} : r = r' ↔ Adds r.types [] r'.types := by
  rw [adds_nil_iff]
  cases r
  cases r'
  exact Registry.mk.injEq _ _ ▸ Iff.rfl

/-- A value in which nothing is registered. -/
theorem member_atom_iff {key path s text : String} {x : Json} {t : FieldType} {r r' : Registry}
    (hx : member key path r x = .ok (t, r)) (htext : t.toText = text)
    (htype : typeText? key x = some text) (hnodes : nodesUnder (capitalize? key) x = [])
    (hreg : IsRegular (key, x)) :
    (∃ t, member key path r x = .ok (t, r') ∧ t.toText = s) ↔
      typeText? key x = some s ∧ IsRegular (key, x) ∧
        AllRegular (nodesUnder (capitalize? key) x) ∧
          Adds r.types (nodesUnder (capitalize? key) x) r'.types := by
  rw [hx, hnodes, htype, ← registry_eq_iff]
  simp only [Except.ok.injEq, Prod.mk.injEq, Option.some.injEq]
  constructor
  · rintro ⟨_, ⟨rfl, rfl⟩, rfl⟩
    exact ⟨htext.symm, hreg, allRegular_nil, rfl⟩
  · rintro ⟨rfl, -, -, rfl⟩
    exact ⟨t, ⟨rfl, rfl⟩, htext⟩

mutual

/-- **The walk into a member** finds the type and goes to a registry exactly when the type is that of
the member, everything below is regular and the registry adds the nodes below. -/
theorem member_eq_ok_iff : ∀ (x : Json) {key path s : String} {r r' : Registry},
    x.Sorted → IsFieldName key →
    ((∃ t, member key path r x = .ok (t, r') ∧ t.toText = s) ↔
      typeText? key x = some s ∧ IsRegular (key, x) ∧
        AllRegular (nodesUnder (capitalize? key) x) ∧
          Adds r.types (nodesUnder (capitalize? key) x) r'.types)
  | .bool b, _, _, _, _, _, _, hkey =>
    member_atom_iff rfl (by decide) rfl rfl ⟨hkey, trivial, fun _ h => by cases h⟩
  | .number n, _, _, _, _, _, _, hkey =>
    member_atom_iff rfl (by decide) rfl rfl ⟨hkey, trivial, fun _ h => by cases h⟩
  | .string s, _, _, _, _, _, _, hkey =>
    member_atom_iff rfl (by decide) rfl rfl ⟨hkey, trivial, fun _ h => by cases h⟩
  | .null, _, _, _, _, _, _, _ => by
    simp [member, typeText?, atomText?]
  | .array xs, key, path, s, r, r', _, hkey => by
    have hnodes : nodesUnder (capitalize? key) (.array xs) = [] := rfl
    rw [typeText?, ← itemKind_none_eq_ok_iff, hnodes, ← registry_eq_iff]
    simp only [member, bind_eq_ok_iff, pure_eq_ok_iff, Prod.mk.injEq]
    constructor
    · rintro ⟨_, ⟨kind, hkind, rfl, rfl⟩, rfl⟩
      have htype := exists_arrayText?_iff.mp ⟨_, itemKind_none_eq_ok_iff.mp ⟨kind, hkind, rfl⟩⟩
      exact ⟨⟨kind, hkind, rfl⟩, ⟨hkey, htype, fun _ h => by cases h⟩, allRegular_nil, rfl⟩
    · rintro ⟨⟨kind, hkind, htext⟩, -, -, rfl⟩
      exact ⟨_, ⟨kind, hkind, rfl, rfl⟩, htext⟩
  | .object ms, key, path, s, r, r', hs, hkey => by
    have hlast : ∀ n, n ∈ memberNodes ms ++ [(capitalize? key, ms)] ↔
        n ∈ (capitalize? key, ms) :: memberNodes ms := fun n => by
      rw [List.mem_append, List.mem_singleton, List.mem_cons, or_comm]
    rw [typeText?, nodesUnder, allRegular_cons, ← adds_congr hlast, adds_append_iff]
    simp only [member_object_eq_ok_iff, structName_eq_ok_iff, members_eq_ok_iff ms hs]
    constructor
    · rintro ⟨_, ⟨name, fields, mid, ⟨hcap, hread⟩, ⟨hfields, hms, hbelow, hmid⟩, hreg, rfl⟩, rfl⟩
      rw [hcap, FieldType.toText_struct]
      refine ⟨rfl, ⟨hkey, trivial, fun _ _ => ⟨name, hcap, hread⟩⟩, ⟨hms, hbelow⟩, mid.types, hmid,
        ?_⟩
      exact (register_eq_ok_iff hfields).mp hreg
    · rintro ⟨hcap, hregular, ⟨hms, hbelow⟩, mid, hmid, hlast⟩
      obtain ⟨name, hname, hread⟩ := hregular.name ms rfl
      obtain rfl : name = s := Option.some.inj (hname.symm.trans hcap)
      obtain ⟨fields, hfields⟩ := exists_fieldList? hms
      rw [hcap] at hlast
      exact ⟨_, ⟨name, fields, ⟨mid⟩, ⟨hcap, hread⟩, ⟨hfields, hms, hbelow, hmid⟩,
        (register_eq_ok_iff hfields).mpr hlast, rfl⟩, FieldType.toText_struct name⟩

/-- **The walk over the members of an object** finds their fields and registers what is below. -/
theorem members_eq_ok_iff : ∀ (ms : List (String × Json)) {path : String} {r r' : Registry}
    {fields : List Field}, (Json.object ms).Sorted → (members path r ms = .ok (fields, r') ↔
      fieldList? ms = some fields ∧ (∀ m ∈ ms, IsRegular m) ∧ AllRegular (memberNodes ms) ∧
        Adds r.types (memberNodes ms) r'.types)
  | [], _, r, r', fields, _ => by
    rw [members_nil, memberNodes, ← registry_eq_iff, Except.ok.injEq, Prod.mk.injEq]
    have hnil : fieldList? [] = some fields ↔ [] = fields := by simp [fieldList?]
    rw [hnil]
    constructor
    · rintro ⟨hfields, hr⟩
      exact ⟨hfields, List.forall_mem_nil _, allRegular_nil, hr⟩
    · rintro ⟨hfields, -, -, hr⟩
      exact ⟨hfields, hr⟩
  | (key, x) :: ms, path, r, r', fields, hs => by
    obtain ⟨hx, hms⟩ := Json.sorted_object_cons hs
    rw [members_cons_eq_ok_iff hs.1, any_isForbidden_eq_false_iff, memberNodes, allRegular_append,
      adds_append_iff, List.forall_mem_cons, fieldList?_cons]
    simp only [members_eq_ok_iff ms hms]
    constructor
    · rintro ⟨hkey, t, mid, gs, ht, ⟨hgs, hregs, hbelow, hadds⟩, rfl⟩
      obtain ⟨htext, hreg, hunder, hmid⟩ := (member_eq_ok_iff x hx hkey).mp ⟨t, ht, rfl⟩
      exact ⟨⟨_, gs, htext, hgs, rfl⟩, ⟨hreg, hregs⟩, ⟨hunder, hbelow⟩, mid.types, hmid, hadds⟩
    · rintro ⟨⟨s, gs, htext, hgs, rfl⟩, ⟨hreg, hregs⟩, ⟨hunder, hbelow⟩, mid, hmid, hadds⟩
      have hmid' : Adds r.types (nodesUnder (capitalize? key) x) (Registry.mk mid).types := hmid
      obtain ⟨t, ht, rfl⟩ := (member_eq_ok_iff x hx hreg.key).mpr ⟨htext, hreg, hunder, hmid'⟩
      exact ⟨hreg.key, t, ⟨mid⟩, gs, ht, ⟨hgs, hregs, hbelow, hadds⟩, rfl⟩

end

/-! ## Whole documents -/

/-- **A document has this schema** exactly when it is an object, its members are regular and the
schema binds its nodes, each to its fields, and nothing else. -/
theorem deriveTypes_eq_ok_iff {d : Document} {types : TypeSchema} : deriveTypes d.json = .ok types ↔
    (∃ ms, d.json = .object ms) ∧ AllRegular (nodes d.json) ∧
      ∀ name fields, types.get? name = some fields ↔
        ∃ ms, (some name, ms) ∈ nodes d.json ∧ fieldList? ms = some fields := by
  obtain ⟨j, hj⟩ := d
  dsimp only
  have hempty : ∀ types, Adds KeyMap.empty (nodes j) types ↔
      ∀ name fields, types.get? name = some fields ↔
        ∃ ms, (some name, ms) ∈ nodes j ∧ fieldList? ms = some fields := by
    intro types
    have hnone : ∀ name (fields : List Field), KeyMap.empty.get? name ≠ some fields := by
      intro name fields h
      cases h
    simp only [Adds, hnone, false_or]
  rw [← hempty]
  cases j with
  | object ms =>
    have hlast : ∀ n, n ∈ memberNodes ms ++ [(some rootType, ms)] ↔
        n ∈ nodes (.object ms) := fun n => by
      rw [nodes, nodesUnder, List.mem_append, List.mem_singleton, List.mem_cons, or_comm]
    rw [← adds_congr hlast, adds_append_iff, nodes, nodesUnder, allRegular_cons]
    simp only [deriveTypes_object_eq_ok_iff, members_eq_ok_iff ms hj]
    constructor
    · rintro ⟨fields, mid, ⟨hfields, hms, hbelow, hmid⟩, hreg⟩
      exact ⟨⟨ms, rfl⟩, ⟨hms, hbelow⟩, mid.types, hmid, (register_eq_ok_iff hfields).mp hreg⟩
    · rintro ⟨-, ⟨hms, hbelow⟩, mid, hmid, hlast⟩
      obtain ⟨fields, hfields⟩ := exists_fieldList? hms
      exact ⟨fields, ⟨mid⟩, ⟨hfields, hms, hbelow, hmid⟩, (register_eq_ok_iff hfields).mpr hlast⟩
  | _ => simp [deriveTypes]

/-- Every one of these objects is regular, and its struct is bound to its fields. -/
structure IsBound (types : TypeSchema) (ns : List Node) : Prop where
  regular : AllRegular ns
  fields : ∀ name ms, (some name, ms) ∈ ns → types.get? name = fieldList? ms

theorem IsBound.mono {types : TypeSchema} {ms ns : List Node} (h : IsBound types ns)
    (hsub : ms ⊆ ns) : IsBound types ms :=
  ⟨fun n hn => h.regular n (hsub hn), fun name os hos => h.fields name os (hsub hos)⟩

theorem bound_of_deriveTypes {d : Document} {types : TypeSchema}
    (h : deriveTypes d.json = .ok types) : IsBound types (nodes d.json) := by
  obtain ⟨-, hregular, htypes⟩ := deriveTypes_eq_ok_iff.mp h
  refine ⟨hregular, fun name ms hms => ?_⟩
  obtain ⟨fields, hfields⟩ := exists_fieldList? (hregular _ hms)
  rw [hfields, (htypes name fields).mpr ⟨ms, hms, hfields⟩]

/-- What a document needs to have a schema. -/
structure HasSchema (d : Json) : Prop where
  object : ∃ ms, d = .object ms
  regular : ∀ n ∈ nodes d, ∀ m ∈ n.2, IsRegular m
  agree : ∀ name ms ns, (some name, ms) ∈ nodes d → (some name, ns) ∈ nodes d →
    fieldList? ms = fieldList? ns

/-- The names of nodes with their fields. -/
def bindings (ns : List Node) : List (String × List Field) :=
  ns.filterMap fun n => n.1.bind fun name => (fieldList? n.2).map (name, ·)

theorem mem_bindings {ns : List Node} {name : String} {fields : List Field} :
    (name, fields) ∈ bindings ns ↔ ∃ ms, (some name, ms) ∈ ns ∧ fieldList? ms = some fields := by
  simp only [bindings, List.mem_filterMap, Option.bind_eq_some_iff, Option.map_eq_some_iff,
    Prod.mk.injEq]
  constructor
  · rintro ⟨⟨_, ms⟩, hn, _, rfl, _, hfields, rfl, rfl⟩
    exact ⟨ms, hn, hfields⟩
  · rintro ⟨ms, hn, hfields⟩
    exact ⟨_, hn, name, rfl, fields, hfields, rfl, rfl⟩

theorem exists_deriveTypes_iff {d : Document} :
    (∃ types, deriveTypes d.json = .ok types) ↔ HasSchema d.json := by
  simp only [deriveTypes_eq_ok_iff]
  constructor
  · rintro ⟨types, hobject, hregular, htypes⟩
    have hbound : ∀ name ms, (some name, ms) ∈ nodes d.json → fieldList? ms = types.get? name := by
      intro name ms hms
      obtain ⟨fields, hfields⟩ := exists_fieldList? (hregular _ hms)
      rw [hfields, (htypes name fields).mpr ⟨ms, hms, hfields⟩]
    refine ⟨hobject, hregular, fun name ms ns hms hns => ?_⟩
    rw [hbound name ms hms, hbound name ns hns]
  · intro h
    have hunique : ∀ name fs gs, (name, fs) ∈ bindings (nodes d.json) →
        (name, gs) ∈ bindings (nodes d.json) → fs = gs := by
      intro name fs gs hfs hgs
      obtain ⟨ms, hms, hfs⟩ := mem_bindings.mp hfs
      obtain ⟨ns, hns, hgs⟩ := mem_bindings.mp hgs
      have hagree : fieldList? ms = fieldList? ns := h.agree name ms ns hms hns
      exact Option.some.inj (hfs.symm.trans (hagree.trans hgs))
    refine ⟨KeyMap.ofList (bindings (nodes d.json)), h.object, h.regular, fun name fields => ?_⟩
    rw [← mem_bindings]
    exact Keyed.get?_ofList_eq_some_iff (hunique name)

/-! ### The order of fields -/

theorem increasing_of_mem_nodesUnder {x : Json} : x.Sorted → ∀ {name : Option String} {n : Node},
    n ∈ nodesUnder name x → Keyed.Increasing n.2 := by
  induction x using Json.induction with
  | object ms ih =>
    intro hs name n hn
    obtain ⟨hi, hms⟩ := Json.sorted_object hs
    rcases List.mem_cons.mp hn with rfl | hn
    · exact hi
    · obtain ⟨m, hm, hn⟩ := mem_memberNodes.mp hn
      exact ih m hm (hms m hm) hn
  | _ =>
    intro _ _ _ hn
    cases hn

/-- **The fields of a struct stand by increasing name.** -/
theorem names_increasing {d : Document} {n : Node} (hn : n ∈ nodes d.json) {fields : List Field}
    (h : fieldList? n.2 = some fields) : (fields.map (·.name)).Pairwise (· < ·) := by
  rw [names_of_fieldList? h]
  exact List.pairwise_map.mpr (increasing_of_mem_nodesUnder d.sorted hn)

/-- **What the schema of a document says,** with the members of its objects written in any order. What
is written has a schema exactly when it is read as an object whose nodes are regular and agree. The
schema binds the names of the nodes to their fields, by increasing name, and nothing else. The same
with its members in another order has the same schema, or fails with the same error. -/
theorem derived_schema_exact (j : Json) :
    ((∃ types, deriveTypes j = .ok types) ↔ HasSchema j.arranged) ∧
    (∀ types, deriveTypes j = .ok types →
      (∀ name fields, types.get? name = some fields ↔
        ∃ ms, (some name, ms) ∈ nodes j.arranged ∧ fieldList? ms = some fields) ∧
      ∀ name fields, types.get? name = some fields →
        (fields.map (·.name)).Pairwise (· < ·)) ∧
    ∀ k, Json.Reordered j k → deriveTypes k = deriveTypes j := by
  let d : Document := ⟨j.arranged, j.sorted_arranged⟩
  have hread : deriveTypes d.json = deriveTypes j := deriveTypes_arranged j
  refine ⟨?_, fun types h => ?_, fun k hk => deriveTypes_of_reordered hk⟩
  · rw [← hread]
    exact exists_deriveTypes_iff
  · obtain ⟨-, -, htypes⟩ := deriveTypes_eq_ok_iff.mp (hread.trans h)
    refine ⟨htypes, fun name fields hget => ?_⟩
    obtain ⟨ms, hms, hfields⟩ := (htypes name fields).mp hget
    exact names_increasing (d := d) hms hfields

end Derive

end DocumentProof
