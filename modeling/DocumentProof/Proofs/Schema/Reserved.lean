import DocumentProof.Proofs.Schema.DocumentHash
import DocumentProof.Proofs.Schema.Exact
import DocumentProof.TypedData.Envelope

/-!
# Derived schemas without one struct

Typed data drops the struct of the reserved name from its schema. A document still has a hash under
what is left exactly when none of its nodes has this name (`exists_hash_remove_iff`): every node is
read under its own struct (`contains_of_said`), and a struct that no node has is not missed.
-/

namespace DocumentProof

theorem KeyMap.remove_of_get?_eq_none {α : Type} {m : KeyMap α} {key : String}
    (h : m.get? key = none) : m.remove key = m := by
  refine KeyMap.ext fun x => ?_
  rw [KeyMap.get?_remove]
  split_ifs with hx
  · rw [hx, h]
  · rfl

namespace Derive

open TypedValue (FieldSays)

variable {types sub : TypeSchema} {d : Document} {key : String}

/-- What an object says as a struct, the object under a key says as the struct of the key. -/
theorem said_of_mem {ms ns : Members} {fields : List Field} {as : List (String × TypedValue)}
    {name : String} (hi : Keyed.Increasing ms) (hfields : fieldList? ms = some fields)
    (has : List.Forall₂ (FieldSays sub ms) fields as) (hm : (key, .object ns) ∈ ms)
    (hname : capitalize? key = some name) (hread : FieldType.ofText? name = some (.struct name)) :
    ∃ a, TypedValue.ofJson? sub (.object ns) (.struct name) = some a := by
  have hf : (⟨key, name⟩ : Field) ∈ fields := mem_of_fieldList? hfields _ hm name hname
  obtain ⟨a, -, -, x, t, hx, ht, ha⟩ := exists_of_mem_left has hf
  obtain rfl : .object ns = x := Option.some.inj (((Keyed.mem_iff_get? hi).mp hm).symm.trans hx)
  obtain rfl : .struct name = t := Option.some.inj (hread.symm.trans ht)
  exact ⟨a.2, ha⟩

/-- **Every node of a value that says something has a struct,** also if the schema has less than the
derived one. -/
theorem contains_of_said (hsub : Extends sub types) {x : Json} : x.Sorted → ∀ {name a},
    IsBound types (nodesUnder (some name) x) → TypedValue.ofJson? sub x (.struct name) = some a →
      ∀ used ms, (some used, ms) ∈ nodesUnder (some name) x → sub.contains used = true := by
  induction x using Json.induction with
  | object ms ih =>
    intro hs name a hbound ha used ns hn
    obtain ⟨hi, hsorted⟩ := Json.sorted_object hs
    obtain ⟨_, fields, type, as, hobj, rfl, hg, -, -, has⟩ :=
      TypedValue.ofJson?_struct_eq_some_iff.mp ha
    cases hobj
    have hfields : fieldList? ms = some fields := by
      rw [← hbound.fields name ms List.mem_cons_self, hsub name fields hg]
    rcases List.mem_cons.mp hn with hroot | hn
    · cases hroot
      exact KeyMap.contains_iff.mpr ⟨fields, hg⟩
    · -- The node is in the object under a key, which is read as the struct of the key.
      obtain ⟨⟨key, x⟩, hm, hn⟩ := mem_memberNodes.mp hn
      cases x with
      | object os =>
        have hregular : IsRegular (key, .object os) :=
          hbound.regular _ List.mem_cons_self _ hm
        obtain ⟨child, hname, hread⟩ := hregular.name os rfl
        obtain ⟨b, hb⟩ := said_of_mem hi hfields has hm hname hread
        have hbelow : nodesUnder (some child) (.object os) ⊆ nodesUnder (some name) (.object ms) := by
          intro n hn
          refine List.mem_cons_of_mem _ (mem_memberNodes.mpr ⟨_, hm, ?_⟩)
          rw [hname]
          exact hn
        rw [hname] at hn
        exact ih _ hm (hsorted _ hm) (hbound.mono hbelow) hb used ns hn
      | _ => cases hn
  | _ =>
    intro _ _ _ _ _ _ _ hn
    cases hn

/-- A struct that no node has is not in the schema. -/
theorem remove_eq_of_forall_notMem (h : deriveTypes d.json = .ok types)
    (hkey : ∀ ms, (some key, ms) ∉ nodes d.json) : types.remove key = types := by
  obtain ⟨-, -, htypes⟩ := deriveTypes_eq_ok_iff.mp h
  refine KeyMap.remove_of_get?_eq_none (Option.eq_none_iff_forall_ne_some.mpr fun fields hg => ?_)
  obtain ⟨ms, hms, -⟩ := (htypes key fields).mp hg
  exact hkey ms hms

/-- **A document has a hash under its schema without one struct** exactly when none of its nodes has
this struct and every number in it is a word without a sign. -/
theorem exists_hash_remove_iff (h : deriveTypes d.json = .ok types) :
    (∃ w, TypeSchema.hashStruct (types.remove key) rootType d.json = .ok w) ↔
      (∀ ms, (some key, ms) ∉ nodes d.json) ∧ ∀ n ∈ d.json.numbers, IsUnsigned n := by
  have hnot : (∃ w, TypeSchema.hashStruct (types.remove key) rootType d.json = .ok w) →
      ∀ ms, (some key, ms) ∉ nodes d.json := by
    rintro ⟨w, hw⟩ ms hms
    obtain ⟨a, ha, -⟩ := TypeSchema.hashStruct_eq_ok_iff.mp hw
    have hsub : Extends (types.remove key) types := by
      intro name fields hg
      rw [KeyMap.get?_remove] at hg
      split_ifs at hg
      exact hg
    have hkey := contains_of_said hsub d.sorted (bound_of_deriveTypes h) ha key ms hms
    exact ((KeyMap.contains_remove types key key).mp hkey).1 rfl
  constructor
  · intro hw
    have hkey := hnot hw
    rw [remove_eq_of_forall_notMem h hkey, exists_hash_iff h] at hw
    exact ⟨hkey, hw⟩
  · rintro ⟨hkey, hnumbers⟩
    rw [remove_eq_of_forall_notMem h hkey]
    exact (exists_hash_iff h).mpr hnumbers

end Derive

end DocumentProof
