import DocumentProof.Proofs.Schema.DocumentHash

/-!
# Values that say the same under a derived schema

A type of unsigned integers takes a number, and also a text that writes it. So what says the same as
a fitting value is that value with some of its numbers written as texts (`Respells`), and nothing
else (`same_said_iff`). Arrays keep their items in order, and objects keep their keys: an object of a
struct has exactly the fields of the struct.
-/

namespace DocumentProof

namespace Json

mutual

/-- The second value is the first with some numbers written as texts, each in decimal digits or in
hexadecimal ones after `0x`. -/
def Respells : Json → Json → Prop
  | number n, y =>
    y = number n ∨
      ∃ s k, y = string s ∧ n.toNat? = some k ∧ Encode.naturalText? s.toList = some k
  | array xs, y => ∃ ys, y = array ys ∧ RespellsItems xs ys
  | object ms, y => ∃ ns, y = object ns ∧ RespellsMembers ms ns
  | x, y => y = x

def RespellsItems : List Json → List Json → Prop
  | [], ys => ys = []
  | x :: xs, ys => ∃ y zs, ys = y :: zs ∧ Respells x y ∧ RespellsItems xs zs

def RespellsMembers : List (String × Json) → List (String × Json) → Prop
  | [], ns => ns = []
  | (k, x) :: ms, ns => ∃ y os, ns = (k, y) :: os ∧ Respells x y ∧ RespellsMembers ms os

end

theorem respellsItems_iff : ∀ {xs ys : List Json},
    RespellsItems xs ys ↔ List.Forall₂ Respells xs ys
  | [], ys => by rw [RespellsItems, List.forall₂_nil_left_iff]
  | x :: xs, ys => by
    rw [RespellsItems, List.forall₂_cons_left_iff]
    constructor
    · rintro ⟨y, zs, rfl, hy, hzs⟩
      exact ⟨y, zs, hy, respellsItems_iff.mp hzs, rfl⟩
    · rintro ⟨y, zs, hy, hzs, rfl⟩
      exact ⟨y, zs, rfl, hy, respellsItems_iff.mpr hzs⟩

theorem respellsMembers_iff : ∀ {ms ns : List (String × Json)},
    RespellsMembers ms ns ↔ List.Forall₂ (fun m n => n.1 = m.1 ∧ Respells m.2 n.2) ms ns
  | [], ns => by rw [RespellsMembers, List.forall₂_nil_left_iff]
  | (k, x) :: ms, ns => by
    rw [RespellsMembers, List.forall₂_cons_left_iff]
    constructor
    · rintro ⟨y, os, rfl, hy, hos⟩
      exact ⟨(k, y), os, ⟨rfl, hy⟩, respellsMembers_iff.mp hos, rfl⟩
    · rintro ⟨⟨l, y⟩, os, ⟨hl, hy⟩, hos, rfl⟩
      obtain rfl : l = k := hl
      exact ⟨y, os, rfl, hy, respellsMembers_iff.mpr hos⟩

theorem keys_of_respellsMembers : ∀ {ms ns : List (String × Json)},
    RespellsMembers ms ns → ns.map (·.1) = ms.map (·.1)
  | [], ns, h => by
    rw [RespellsMembers] at h
    rw [h]
  | (k, x) :: ms, ns, h => by
    obtain ⟨y, os, rfl, -, hos⟩ := h
    rw [List.map_cons, List.map_cons, keys_of_respellsMembers hos]

end Json

namespace Derive

open FieldType (ofText? ofPrimitive arrayOf)
open TypedValue (FieldSays)

variable {types : TypeSchema}

/-! ### Numbers -/

theorem number_eq_of_toNat? {m n : Number} {k : Nat} (hm : m.toNat? = some k)
    (hn : n.toNat? = some k) : m = n := by
  cases m with
  | double x => cases hm
  | whole i hi hi' =>
    cases n with
    | double x => cases hn
    | whole j hj hj' =>
      simp only [Number.toNat?] at hm hn
      split_ifs at hm hn
      have hij : i = j := by
        have := Option.some.inj hm
        have := Option.some.inj hn
        omega
      subst hij
      rfl

theorem ofJson?_uint256 (y : Json) : TypedValue.ofJson? types y (ofPrimitive .uint256) =
    (Encode.natural? y).bind fun k =>
      if k < Nat.pow 2 (FieldType.bitCount 31) then some (TypedValue.number k) else none := by
  cases y <;> rfl

/-- What says a number is the number or a text that writes it. -/
theorem ofJson?_eq_number_iff {n : Number} {k : Nat} (hk : n.toNat? = some k) {y : Json} :
    TypedValue.ofJson? types y (ofPrimitive .uint256) = some (.number k) ↔
      Json.Respells (.number n) y := by
  have hbound : k < Nat.pow 2 (FieldType.bitCount 31) := by
    by_contra hge
    have hsays : TypedValue.ofJson? types (.number n) (ofPrimitive .uint256) = some (.number k) :=
      ofJson?_number hk
    rw [ofJson?_uint256, Encode.natural?, hk, Option.bind_some, if_neg hge] at hsays
    cases hsays
  have hnatural : TypedValue.ofJson? types y (ofPrimitive .uint256) = some (.number k) ↔
      Encode.natural? y = some k := by
    rw [ofJson?_uint256, Option.bind_eq_some_iff]
    constructor
    · rintro ⟨j, hj, h⟩
      split_ifs at h
      have hjk : (j : Int) = k := TypedValue.number.inj (Option.some.inj h)
      rw [hj, Int.ofNat.inj hjk]
    · intro h
      exact ⟨k, h, if_pos hbound⟩
  rw [hnatural, Json.Respells]
  cases y with
  | number m =>
    have hm : m.toNat? = some k ↔ m = n := ⟨fun h => number_eq_of_toNat? h hk, fun h => h ▸ hk⟩
    simp [Encode.natural?, hm]
  | string s => simp [Encode.natural?, hk]
  | _ => simp [Encode.natural?]

/-! ### Objects -/

theorem keys_eq_of_forall₂ {ms : List (String × Json)} {fields : List Field}
    (h : List.Forall₂ (FitsMember types) ms fields) : fields.map (·.name) = ms.map (·.1) := by
  induction h with
  | nil => rfl
  | cons hm _ ih =>
    obtain ⟨t, rfl, -⟩ := hm
    rw [List.map_cons, List.map_cons, ih]

/-- Objects with the same keys have their members side by side. -/
theorem forall₂_of_keys_eq {R : Json → Json → Prop} : ∀ {ms ns : List (String × Json)},
    Keyed.Increasing ns → ns.map (·.1) = ms.map (·.1) →
      (∀ m ∈ ms, ∃ y, (m.1, y) ∈ ns ∧ R m.2 y) →
        List.Forall₂ (fun m n => n.1 = m.1 ∧ R m.2 n.2) ms ns
  | [], [], _, _, _ => List.Forall₂.nil
  | [], n :: ns, _, hkeys, _ => by simp at hkeys
  | m :: ms, [], _, hkeys, _ => by simp at hkeys
  | m :: ms, n :: ns, hi, hkeys, h => by
    obtain ⟨hkey, hkeys'⟩ := List.cons_eq_cons.mp hkeys
    have hnodup := Keyed.nodup_keys hi
    obtain ⟨y, hy, hr⟩ := h m List.mem_cons_self
    have hn : (m.1, n.2) ∈ n :: ns := by
      rw [← show n.1 = m.1 from hkey]
      exact List.mem_cons_self
    have hhead : n.2 = y := Keyed.value_unique hnodup m.1 n.2 y hn hy
    refine List.Forall₂.cons ⟨hkey, hhead ▸ hr⟩ (forall₂_of_keys_eq (List.pairwise_cons.mp hi).2
      hkeys' fun o ho => ?_)
    -- Another key than the first is among the others.
    obtain ⟨z, hz, hr⟩ := h o (List.mem_cons_of_mem m ho)
    refine ⟨z, (List.mem_cons.mp hz).resolve_left fun heq => ?_, hr⟩
    have hnot := (List.nodup_cons.mp hnodup).1
    rw [hkeys', ← heq] at hnot
    exact hnot (List.mem_map.mpr ⟨o, ho, rfl⟩)

/-- An object that has all the fields of a struct and no others has their keys. -/
theorem keys_eq_of_fields {ms ns : List (String × Json)} {fields : List Field}
    (hi : Keyed.Increasing ms) (hi' : Keyed.Increasing ns)
    (hkeys : fields.map (·.name) = ms.map (·.1)) (hnone : Encode.undeclared? fields ns = none)
    (hall : ∀ f ∈ fields, ∃ y, (f.name, y) ∈ ns) : ns.map (·.1) = ms.map (·.1) := by
  have : Std.Irrefl fun a b : String => a < b := ⟨String.lt_irrefl⟩
  have : Std.Antisymm fun a b : String => a < b :=
    ⟨fun a b hab hba => absurd hab (String.lt_asymm hba)⟩
  refine List.Pairwise.eq_of_mem_iff (List.pairwise_map.mpr hi') (List.pairwise_map.mpr hi)
    fun key => ?_
  rw [← hkeys]
  constructor
  · exact Encode.undeclared?_eq_none_iff.mp hnone key
  · intro hkey
    obtain ⟨f, hf, rfl⟩ := List.mem_map.mp hkey
    obtain ⟨y, hy⟩ := hall f hf
    exact List.mem_map.mpr ⟨_, hy, rfl⟩

theorem undeclared?_congr {fields : List Field} {ms ns : List (String × Json)}
    (hkeys : ns.map (·.1) = ms.map (·.1)) :
    Encode.undeclared? fields ns = Encode.undeclared? fields ms := by
  unfold Encode.undeclared?
  rw [hkeys]

/-- A field that fits a member says the same in another object exactly when the member under its name
there respells this one. -/
theorem fieldSays_respelled_iff {ms ns : List (String × Json)} (hi : Keyed.Increasing ms)
    (hi' : Keyed.Increasing ns) (hsorted : ∀ n ∈ ns, n.2.Sorted) {m : String × Json} (hm : m ∈ ms)
    {f : Field} (hf : FitsMember types m f) {a : String × TypedValue}
    (ha : FieldSays types ms f a)
    (h : ∀ {t}, Fits types m.2 t → TypedValue.ofJson? types m.2 t = some a.2 →
      ∀ y : Json, y.Sorted → (TypedValue.ofJson? types y t = some a.2 ↔ Json.Respells m.2 y)) :
    FieldSays types ns f a ↔ ∃ y, (m.1, y) ∈ ns ∧ Json.Respells m.2 y := by
  obtain ⟨t, rfl, -, ht, hfit⟩ := hf
  obtain ⟨hname, x, t', hx, ht', hsays⟩ := ha
  obtain rfl : t = t' := Option.some.inj (ht.symm.trans ht')
  obtain rfl : m.2 = x := Option.some.inj (((Keyed.mem_iff_get? hi).mp hm).symm.trans hx)
  constructor
  · rintro ⟨-, y, t', hy, ht', hsays'⟩
    obtain rfl : t = t' := Option.some.inj (ht.symm.trans ht')
    have hmem : (m.1, y) ∈ ns := Keyed.mem_of_get? hy
    exact ⟨y, hmem, (h hfit hsays y (hsorted _ hmem)).mp hsays'⟩
  · rintro ⟨y, hy, hr⟩
    have hsays' := (h hfit hsays y (hsorted _ hy)).mpr hr
    exact ⟨hname, y, t, (Keyed.mem_iff_get? hi').mp hy, ht, hsays'⟩

/-- What an object says of the fields of a fitting one is the same exactly when its members respell
the members there, given that this holds of each member. -/
theorem fieldsSaid_iff {ms ns : List (String × Json)} {fields : List Field}
    {as : List (String × TypedValue)} (hi : Keyed.Increasing ms) (hi' : Keyed.Increasing ns)
    (hms : List.Forall₂ (FitsMember types) ms fields)
    (has : List.Forall₂ (FieldSays types ms) fields as) (hnone : Encode.undeclared? fields ms = none)
    (hfield : ∀ m ∈ ms, ∀ f a, FitsMember types m f → FieldSays types ms f a →
      (FieldSays types ns f a ↔ ∃ y, (m.1, y) ∈ ns ∧ Json.Respells m.2 y)) :
    Encode.undeclared? fields ns = none ∧ List.Forall₂ (FieldSays types ns) fields as ↔
      Json.RespellsMembers ms ns := by
  constructor
  · rintro ⟨hnone', has'⟩
    have hboth : List.Forall₂ (fun f a => FieldSays types ms f a ∧ FieldSays types ns f a) fields as :=
      List.Forall₂.mp (fun _ _ => And.intro) has has'
    have hmember : ∀ m ∈ ms, ∃ y, (m.1, y) ∈ ns ∧ Json.Respells m.2 y := by
      intro m hm
      obtain ⟨f, hf, hmf⟩ := exists_of_mem_left hms hm
      obtain ⟨a, -, hfa, hfa'⟩ := exists_of_mem_left hboth hf
      exact (hfield m hm f a hmf hfa).mp hfa'
    have hall : ∀ f ∈ fields, ∃ y, (f.name, y) ∈ ns := by
      intro f hf
      obtain ⟨a, -, -, x, t, hx, -⟩ := exists_of_mem_left has' hf
      exact ⟨x, Keyed.mem_of_get? hx⟩
    have hkeys : ns.map (·.1) = ms.map (·.1) :=
      keys_eq_of_fields hi hi' (keys_eq_of_forall₂ hms) hnone' hall
    exact Json.respellsMembers_iff.mpr (forall₂_of_keys_eq hi' hkeys hmember)
  · intro h
    refine ⟨(undeclared?_congr (Json.keys_of_respellsMembers h)).trans hnone, ?_⟩
    have hin := (List.forall₂_and_left fields as).mpr ⟨fun f hf => hf, has⟩
    refine hin.imp fun f a hfa => ?_
    obtain ⟨m, hm, hmf⟩ := exists_of_mem_right hms hfa.1
    obtain ⟨n, hn, hkey, hr⟩ := exists_of_mem_left (Json.respellsMembers_iff.mp h) hm
    exact (hfield m hm f a hmf hfa.2).mpr ⟨n.2, hkey ▸ hn, hr⟩

/-! ### Values -/

/-- **What says the same as a fitting value respells it,** and the other way round. -/
theorem same_said_iff {x : Json} : x.Sorted → ∀ {t a}, Fits types x t →
    TypedValue.ofJson? types x t = some a → ∀ y : Json, y.Sorted →
      (TypedValue.ofJson? types y t = some a ↔ Json.Respells x y) := by
  induction x using Json.induction with
  | null => exact fun _ _ _ h => h.elim
  | bool b =>
    rintro - t a rfl ha y -
    cases ha
    show _ ↔ y = .bool b
    cases y <;> simp [TypedValue.ofJson?, TypedValue.atom?]
  | string s =>
    rintro - t a rfl ha y -
    cases ha
    show _ ↔ y = .string s
    cases y <;> simp [TypedValue.ofJson?, TypedValue.atom?]
  | number n =>
    rintro - t a rfl ha y -
    obtain ⟨k, hk, rfl⟩ := toNat?_of_ofJson? ha
    exact ofJson?_eq_number_iff hk
  | array xs ih =>
    rintro hs t a ⟨p, rfl, hp⟩ ha y hy
    obtain ⟨_, as, hxs, rfl, -, has⟩ := TypedValue.ofJson?_array_eq_some_iff.mp ha
    cases hxs
    have hitems : ∀ ys : List Json, (∀ y ∈ ys, y.Sorted) →
        (List.Forall₂ (fun y a => TypedValue.ofJson? types y (ofPrimitive p) = some a) ys as ↔
          Json.RespellsItems xs ys) := by
      intro ys hys
      rw [Json.respellsItems_iff]
      refine forall₂_right_iff has fun x hx a hxa y hy => ?_
      exact ih x hx (Json.sortedItems_iff.mp hs x hx) (fits_of_primitive (hp x hx)) hxa y (hys y hy)
    rw [Json.Respells, arrayOf, TypedValue.ofJson?_array_eq_some_iff]
    constructor
    · rintro ⟨ys, as', rfl, heq, -, hys⟩
      obtain rfl : as = as' := TypedValue.array.inj heq
      exact ⟨ys, rfl, (hitems ys (Json.sortedItems_iff.mp hy)).mp hys⟩
    · rintro ⟨ys, rfl, hys⟩
      exact ⟨ys, as, rfl, rfl, rfl, (hitems ys (Json.sortedItems_iff.mp hy)).mpr hys⟩
  | object ms ih =>
    rintro hs t a ⟨name, fields, rfl, hg, hms⟩ ha y hy
    rw [fitsMembers_iff] at hms
    obtain ⟨hi, hsorted⟩ := Json.sorted_object hs
    obtain ⟨_, fields', type, as, hobj, rfl, hg', hnone, htype, has⟩ :=
      TypedValue.ofJson?_struct_eq_some_iff.mp ha
    cases hobj
    obtain rfl : fields = fields' := Option.some.inj (hg.symm.trans hg')
    have hmembers : ∀ {ns : List (String × Json)}, Keyed.Increasing ns → (∀ n ∈ ns, n.2.Sorted) →
        (Encode.undeclared? fields ns = none ∧ List.Forall₂ (FieldSays types ns) fields as ↔
          Json.RespellsMembers ms ns) := by
      intro ns hi' hsorted'
      refine fieldsSaid_iff hi hi' hms has hnone fun m hm f a hmf hfa => ?_
      exact fieldSays_respelled_iff hi hi' hsorted' hm hmf hfa fun ht => ih m hm (hsorted m hm) ht
    constructor
    · intro h
      obtain ⟨ns, fields', type', as', rfl, heq, hg', hnone', -, has'⟩ :=
        TypedValue.ofJson?_struct_eq_some_iff.mp h
      obtain ⟨rfl, rfl⟩ := TypedValue.struct.inj heq
      obtain rfl : fields = fields' := Option.some.inj (hg.symm.trans hg')
      obtain ⟨hi', hsorted'⟩ := Json.sorted_object hy
      exact ⟨ns, rfl, (hmembers hi' hsorted').mp ⟨hnone', has'⟩⟩
    · rintro ⟨ns, rfl, h⟩
      obtain ⟨hi', hsorted'⟩ := Json.sorted_object hy
      obtain ⟨hnone', has'⟩ := (hmembers hi' hsorted').mpr h
      exact TypedValue.ofJson?_struct_eq_some_iff.mpr
        ⟨ns, fields, type, as, rfl, rfl, hg, hnone', htype, has'⟩

end Derive

end DocumentProof
