import DocumentProof.Proofs.Json.Order
import DocumentProof.Proofs.Outcome
import DocumentProof.Schema.Derive

/-!
# The walk over a document

The members of an object are taken by increasing key. Where they stand in this order already, the walk
takes the first one first (`members_cons_eq_ok_iff`). Members in another order are put into this one,
in the document and in every object inside. So the order in which a document is written has no part in
its schema, nor in the reason why it has none (`deriveTypes_of_reordered`).
-/

namespace DocumentProof

namespace Derive

variable {key path : String} {r r' : Registry} {ms : List (String × Json)} {fields : List Field}

theorem memberWalks_eq_map : ∀ ms : List (String × Json),
    memberWalks ms = ms.map fun m => (m.1, fun path r => member m.1 path r m.2)
  | [] => rfl
  | (key, x) :: ms => by rw [memberWalks, memberWalks_eq_map ms, List.map_cons]

/-- The walks by increasing key are those into the members by increasing key. -/
theorem ofList_memberWalks (ms : List (String × Json)) :
    Keyed.ofList (memberWalks ms) = memberWalks (Keyed.ofList ms) := by
  rw [memberWalks_eq_map, memberWalks_eq_map,
    Keyed.ofList_map fun key x path r => member key path r x]

/-! ## Steps of the walk -/

/-- Members that stand in order are walked into in this order. -/
theorem members_of_increasing (h : Keyed.Increasing ms) :
    members path r ms = fieldsAlong path r (memberWalks ms) := by
  rw [members, ofList_memberWalks, Keyed.ofList_of_increasing h]

theorem members_nil : members path r [] = .ok ([], r) := rfl

/-- **The first of the members that stand in order** is walked into before the others. -/
theorem members_cons_eq_ok_iff {x : Json} (h : Keyed.Increasing ((key, x) :: ms)) :
    members path r ((key, x) :: ms) = .ok (fields, r') ↔
      key.toList.any isForbidden = false ∧ ∃ t mid gs,
        member key (joinPath path key) r x = .ok (t, mid) ∧ members path mid ms = .ok (gs, r') ∧
          ⟨key, t.toText⟩ :: gs = fields := by
  simp only [members_of_increasing h, members_of_increasing (List.pairwise_cons.mp h).2]
  rw [memberWalks, fieldsAlong]
  cases key.toList.any isForbidden with
  | true => simp
  | false =>
    simp only [Bool.false_eq_true, if_false, true_and, bind_eq_ok_iff, pure_eq_ok_iff, Prod.exists,
      Prod.mk.injEq]
    constructor
    · rintro ⟨t, mid, hx, gs, _, hms, hfields, rfl⟩
      exact ⟨t, mid, gs, hx, hms, hfields⟩
    · rintro ⟨t, mid, gs, hx, hms, hfields⟩
      exact ⟨t, mid, hx, gs, _, hms, hfields, rfl⟩

theorem member_object_eq_ok_iff {t : FieldType} :
    member key path r (.object ms) = .ok (t, r') ↔ ∃ name fields mid,
      structName key path = .ok name ∧ members path r ms = .ok (fields, mid) ∧
        mid.register name fields = .ok r' ∧ .struct name = t := by
  rw [member, ← members]
  simp only [bind_eq_ok_iff, pure_eq_ok_iff, Prod.exists, Prod.mk.injEq]
  constructor
  · rintro ⟨name, hname, fields, mid, hms, _, hreg, ht, rfl⟩
    exact ⟨name, fields, mid, hname, hms, hreg, ht⟩
  · rintro ⟨name, fields, mid, hname, hms, hreg, ht⟩
    exact ⟨name, hname, fields, mid, hms, _, hreg, ht, rfl⟩

theorem deriveTypes_object_eq_ok_iff {types : TypeSchema} :
    deriveTypes (.object ms) = .ok types ↔ ∃ fields mid,
      members "" Registry.empty ms = .ok (fields, mid) ∧
        mid.register rootType fields = .ok ⟨types⟩ := by
  simp only [deriveTypes, bind_eq_ok_iff, pure_eq_ok_iff, Prod.exists]
  constructor
  · rintro ⟨fields, mid, hms, r, hreg, rfl⟩
    exact ⟨fields, mid, hms, hreg⟩
  · rintro ⟨fields, mid, hms, hreg⟩
    exact ⟨fields, mid, hms, _, hreg, rfl⟩

/-! ## Members in any order -/

theorem primitive?_arranged (x : Json) : primitive? x.arranged = primitive? x := by
  cases x <;> rfl

theorem pluralName_arranged (x : Json) : pluralName x.arranged = pluralName x := by
  cases x <;> rfl

theorem itemKind_arranged : ∀ (known : Option Primitive) (xs : List Json),
    itemKind path known (Json.arrangedItems xs) = itemKind path known xs
  | _, [] => rfl
  | known, x :: xs => by
    rw [Json.arrangedItems, itemKind, itemKind, primitive?_arranged, pluralName_arranged]
    simp only [itemKind_arranged _ xs]

/-- Where the order inside the members has no part, their own order has none. -/
theorem walks_arranged
    (h : ∀ m ∈ ms, ∀ key path r, member key path r m.2.arranged = member key path r m.2) :
    Keyed.ofList (memberWalks (Keyed.ofList (Json.arrangedMembers ms))) =
      Keyed.ofList (memberWalks ms) := by
  have hwalks : memberWalks (Json.arrangedMembers ms) = memberWalks ms := by
    rw [memberWalks_eq_map, memberWalks_eq_map, Json.arrangedMembers_eq_map, List.map_map]
    refine List.map_congr_left fun m hm => Prod.ext rfl ?_
    exact funext fun path => funext fun r => h m hm m.1 path r
  rw [← ofList_memberWalks, hwalks, Keyed.ofList_of_increasing (Keyed.increasing_ofList _)]

/-- The walk into a value puts the members of each object in order. -/
theorem member_arranged (x : Json) :
    ∀ key path r, member key path r x.arranged = member key path r x := by
  induction x using Json.induction with
  | array xs ih =>
    intro key path r
    rw [Json.arranged, member, member, itemKind_arranged]
  | object ms ih =>
    intro key path r
    rw [Json.arranged, Json.ofMembers, member, member, walks_arranged ih]
  | _ => exact fun _ _ _ => rfl

/-- **A schema is derived from a document as it is read.** -/
theorem deriveTypes_arranged (j : Json) : deriveTypes j.arranged = deriveTypes j := by
  cases j with
  | object ms =>
    rw [Json.arranged, Json.ofMembers, deriveTypes, deriveTypes, members, members,
      walks_arranged fun m _ => member_arranged m.2]
  | _ => rfl

/-- **The order of the members has no part in the schema,** nor in the error if there is none. -/
theorem deriveTypes_of_reordered {j k : Json} (h : j.Reordered k) : deriveTypes k = deriveTypes j := by
  rw [← deriveTypes_arranged k, ← Json.arranged_eq_of_reordered k h, deriveTypes_arranged j]

end Derive

end DocumentProof
