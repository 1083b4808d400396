import DocumentProof.Proofs.Schema.Walk
import DocumentProof.Proofs.TypedData.TypeText

/-!
# What a derived schema says of its document

`Fits` says that a value has the kind that its type says, and that every object in it has exactly
the fields that its struct is bound to. A derived schema fits its document (`fits_of_deriveTypes`).
The walk keeps two things true: what is registered stays (`Extends`), and the fields of each struct
are those of some object that fits (`Grounded`). From the second follows that the schema has no gaps
and that its texts can be cut in one way.
-/

namespace DocumentProof

namespace Derive

open FieldType (ofText? ofPrimitive arrayOf)

mutual

/-- The value has the kind of the type, and every object in it has the fields of its struct. -/
def Fits (types : TypeSchema) : Json → FieldType → Prop
  | .bool _, t => t = .bool
  | .number _, t => t = ofPrimitive .uint256
  | .string _, t => t = .string
  | .array xs, t => ∃ p, t = arrayOf p ∧ ∀ x ∈ xs, primitive? x = some p
  | .object ms, t =>
    ∃ name fields, t = .struct name ∧ types.get? name = some fields ∧ FitsMembers types ms fields
  | .null, _ => False

def FitsMembers (types : TypeSchema) : List (String × Json) → List Field → Prop
  | [], fs => fs = []
  | (key, x) :: ms, fs =>
    ∃ t gs, fs = ⟨key, t.toText⟩ :: gs ∧ key.toList.any isForbidden = false ∧
      ofText? t.toText = some t ∧ Fits types x t ∧ FitsMembers types ms gs

end

/-- The member of an object fits the field at its place. -/
def FitsMember (types : TypeSchema) (m : String × Json) (f : Field) : Prop :=
  ∃ t, f = ⟨m.1, t.toText⟩ ∧ m.1.toList.any isForbidden = false ∧ ofText? t.toText = some t ∧
    Fits types m.2 t

variable {types types' : TypeSchema}

theorem fitsMembers_iff : ∀ {ms : List (String × Json)} {fs : List Field},
    FitsMembers types ms fs ↔ List.Forall₂ (FitsMember types) ms fs
  | [], fs => by rw [FitsMembers, List.forall₂_nil_left_iff]
  | (key, x) :: ms, fs => by
    rw [FitsMembers]
    constructor
    · rintro ⟨t, gs, rfl, hkey, ht, hx, hms⟩
      exact List.Forall₂.cons ⟨t, rfl, hkey, ht, hx⟩ (fitsMembers_iff.mp hms)
    · intro h
      cases h with
      | cons hm hms =>
        obtain ⟨t, rfl, hkey, ht, hx⟩ := hm
        exact ⟨t, _, rfl, hkey, ht, hx, fitsMembers_iff.mpr hms⟩

theorem fits_of_primitive {x : Json} {p : Primitive} (h : primitive? x = some p) :
    Fits types x (ofPrimitive p) := by
  cases x <;> simp only [primitive?, Option.some.injEq, reduceCtorEq] at h
  all_goals
    subst h
    simp [Fits, ofPrimitive]

/-! ### What is registered stays -/

/-- The second schema has all that the first has. -/
def Extends (types types' : TypeSchema) : Prop :=
  ∀ name fields, types.get? name = some fields → types'.get? name = some fields

theorem Extends.refl (types : TypeSchema) : Extends types types := fun _ _ h => h

theorem Extends.trans {types'' : TypeSchema} (h : Extends types types')
    (h' : Extends types' types'') : Extends types types'' :=
  fun name fields hg => h' name fields (h name fields hg)

theorem FitsMembers.imp {ms : List (String × Json)}
    (hms : ∀ m ∈ ms, ∀ t, Fits types m.2 t → Fits types' m.2 t) {fs : List Field}
    (h : FitsMembers types ms fs) : FitsMembers types' ms fs := by
  rw [fitsMembers_iff] at h ⊢
  have h' := (List.forall₂_and_left ms fs).mpr ⟨hms, h⟩
  refine h'.imp fun m f hmf => ?_
  obtain ⟨hmono, t, hf, hkey, ht, hx⟩ := hmf
  exact ⟨t, hf, hkey, ht, hmono t hx⟩

/-- **A value that fits goes on fitting** while the schema grows. -/
theorem Fits.mono (he : Extends types types') {v : Json} :
    ∀ t, Fits types v t → Fits types' v t := by
  induction v using Json.induction with
  | object ms ih =>
    rintro t ⟨name, fields, rfl, hg, hms⟩
    exact ⟨name, fields, rfl, he name fields hg, hms.imp ih⟩
  | _ => exact fun _ h => h

theorem FitsMembers.mono (he : Extends types types') {ms : List (String × Json)} {fs : List Field}
    (h : FitsMembers types ms fs) : FitsMembers types' ms fs := h.imp fun _ _ => Fits.mono he

/-! ### Registering -/

/-- The fields of each struct are those of some object that fits. -/
def Grounded (types : TypeSchema) : Prop :=
  ∀ name fields, types.get? name = some fields → ∃ ms, FitsMembers types ms fields

theorem register_spec {r r' : Registry} {name : String} {fields : List Field}
    (h : r.register name fields = .ok r') :
    Extends r.types r'.types ∧ r'.types.get? name = some fields ∧
      ∀ x fs, r'.types.get? x = some fs → r.types.get? x = some fs ∨ fs = fields := by
  unfold Registry.register at h
  split at h
  · next hnone =>
    cases h
    refine ⟨fun x fs hx => ?_, ?_, fun x fs hx => ?_⟩
    · rw [KeyMap.get?_put, if_neg, hx]
      rintro rfl
      rw [hnone] at hx
      cases hx
    · rw [KeyMap.get?_put, if_pos rfl]
    · rw [KeyMap.get?_put] at hx
      split_ifs at hx
      · exact Or.inr (Option.some.inj hx).symm
      · exact Or.inl hx
  · next existing hsome =>
    split at h
    · next heq =>
      cases h
      exact ⟨Extends.refl _, by rw [hsome, heq], fun x fs hx => Or.inl hx⟩
    · cases h

/-- Registering the fields of an object that fits leaves every struct with the fields of one. -/
theorem grounded_register {r r' : Registry} {name : String} {fields : List Field}
    {ms : List (String × Json)} (hr : Grounded r.types) (hms : FitsMembers r.types ms fields)
    (h : r.register name fields = .ok r') : Grounded r'.types := by
  obtain ⟨he, -, hnew⟩ := register_spec h
  intro x fs hx
  rcases hnew x fs hx with hold | rfl
  · obtain ⟨ns, hns⟩ := hr x fs hold
    exact ⟨ns, hns.mono he⟩
  · exact ⟨ms, hms.mono he⟩

/-! ### The walk -/

theorem itemKind_spec {path : String} : ∀ {xs : List Json} {known kind : Option Primitive},
    itemKind path known xs = .ok kind →
      (known = none ∨ kind = known) ∧ ∀ x ∈ xs, ∃ p, primitive? x = some p ∧ kind = some p
  | [], known, kind, h => by
    cases h
    exact ⟨Or.inr rfl, by simp⟩
  | x :: xs, known, kind, h => by
    rw [itemKind] at h
    split at h
    · cases h
    · next p hp =>
      split at h
      · next hknown =>
        obtain ⟨hkind, hxs⟩ := itemKind_spec h
        have hsome : kind = some p := hkind.resolve_left (by simp)
        refine ⟨hknown.imp id fun hk => by rw [hsome, hk], fun y hy => ?_⟩
        rcases List.mem_cons.mp hy with rfl | hy
        · exact ⟨p, hp, hsome⟩
        · exact hxs y hy
      · cases h

/-- What holds after the type of a value is found: it fits the value, and reads back. -/
structure MemberSpec (r r' : Registry) (x : Json) (t : FieldType) : Prop where
  ext : Extends r.types r'.types
  grounded : Grounded r'.types
  fits : Fits r'.types x t
  reads : ofText? t.toText = some t

theorem structName_spec {key path name : String} (h : structName key path = .ok name) :
    ofText? (FieldType.struct name).toText = some (.struct name) := by
  unfold structName at h
  split at h
  · cases h
  · next n hn =>
    split at h
    · next hread =>
      cases h
      rw [FieldType.toText_struct, hread]
    · cases h

mutual

theorem member_spec : ∀ (x : Json) {key path : String} {r r' : Registry} {t : FieldType},
    x.Sorted → Grounded r.types → member key path r x = .ok (t, r') → MemberSpec r r' x t
  | .bool _, _, _, _, _, _, _, hr, h => by
    cases h
    exact ⟨Extends.refl _, hr, rfl, FieldType.ofText?_toText_ofPrimitive .bool⟩
  | .number _, _, _, _, _, _, _, hr, h => by
    cases h
    exact ⟨Extends.refl _, hr, rfl, FieldType.ofText?_toText_ofPrimitive .uint256⟩
  | .string _, _, _, _, _, _, _, hr, h => by
    cases h
    exact ⟨Extends.refl _, hr, rfl, FieldType.ofText?_toText_ofPrimitive .string⟩
  | .null, _, _, _, _, _, _, _, h => by cases h
  | .array xs, _, _, _, _, _, _, hr, h => by
    obtain ⟨kind, hkind, h⟩ := bind_eq_ok_iff.mp h
    cases h
    refine ⟨Extends.refl _, hr, ⟨kind.getD .string, rfl, fun x hx => ?_⟩,
      FieldType.ofText?_toText_arrayOf _⟩
    obtain ⟨p, hp, rfl⟩ := (itemKind_spec hkind).2 x hx
    exact hp
  | .object ms, _, _, _, _, _, hs, hr, h => by
    obtain ⟨name, fields, mid, hname, hms, hreg, rfl⟩ := member_object_eq_ok_iff.mp h
    obtain ⟨he, hg, hfit⟩ := members_spec ms hs hr hms
    obtain ⟨he', hget, -⟩ := register_spec hreg
    exact ⟨he.trans he', grounded_register hg hfit hreg,
      ⟨name, fields, rfl, hget, hfit.mono he'⟩, structName_spec hname⟩

theorem members_spec : ∀ (ms : List (String × Json)) {path : String} {r r' : Registry}
    {fs : List Field}, (Json.object ms).Sorted → Grounded r.types →
      members path r ms = .ok (fs, r') →
        Extends r.types r'.types ∧ Grounded r'.types ∧ FitsMembers r'.types ms fs
  | [], _, _, _, _, _, hr, h => by
    cases h
    exact ⟨Extends.refl _, hr, rfl⟩
  | (key, x) :: ms, _, _, _, _, hs, hr, h => by
    obtain ⟨hsx, hsms⟩ := Json.sorted_object_cons hs
    obtain ⟨hkey, t, mid, gs, hx, hms, rfl⟩ := (members_cons_eq_ok_iff hs.1).mp h
    have hx' := member_spec x hsx hr hx
    obtain ⟨he, hg, hfit⟩ := members_spec ms hsms hx'.grounded hms
    exact ⟨hx'.ext.trans he, hg, t, gs, rfl, hkey, hx'.reads, Fits.mono he t hx'.fits, hfit⟩

end

theorem grounded_empty : Grounded Registry.empty.types := fun _ _ h => by cases h

/-- **A derived schema fits its document.** -/
theorem fits_of_deriveTypes {d : Document} {types : TypeSchema}
    (h : deriveTypes d.json = .ok types) :
    Fits types d.json (.struct rootType) ∧ Grounded types := by
  obtain ⟨j, hj⟩ := d
  cases j with
  | object ms =>
    obtain ⟨fields, mid, hms, hreg⟩ := deriveTypes_object_eq_ok_iff.mp h
    obtain ⟨-, hg, hfit⟩ := members_spec ms hj grounded_empty hms
    obtain ⟨he, hget, -⟩ := register_spec hreg
    exact ⟨⟨rootType, fields, rfl, hget, hfit.mono he⟩, grounded_register hg hfit hreg⟩
  | _ => cases h

/-! ### What follows for the schema -/

/-- A struct that fits is defined. -/
theorem contains_of_fits {v : Json} {t : FieldType} {name : String} (h : Fits types v t)
    (hn : t.structName? = some name) : types.contains name = true := by
  cases v with
  | object ms =>
    obtain ⟨name', fields, rfl, hg, -⟩ := h
    cases hn
    exact KeyMap.contains_iff.mpr ⟨fields, hg⟩
  | array xs =>
    obtain ⟨p, rfl, -⟩ := h
    cases p <;> cases hn
  | null => cases h
  | _ =>
    rw [Fits] at h
    subst h
    cases hn

/-- Every field of the schema is the field of a member that fits. -/
theorem Grounded.exists_fitsMember (h : Grounded types) {name : String} {fields : List Field}
    (hg : types.get? name = some fields) {f : Field} (hf : f ∈ fields) :
    ∃ m, FitsMember types m f := by
  obtain ⟨ms, hms⟩ := h name fields hg
  rw [fitsMembers_iff] at hms
  obtain ⟨m, -, hm⟩ := exists_of_mem_right hms hf
  exact ⟨m, hm⟩

/-- **A derived schema has no gaps.** -/
theorem Grounded.complete (h : Grounded types) : types.Complete := by
  intro name fields hg f hf
  obtain ⟨m, t, rfl, -, ht, hfit⟩ := h.exists_fitsMember hg hf
  exact ⟨t, ht, fun used hu => contains_of_fits hfit hu⟩

theorem isSeparable_of_fitsMember {m : String × Json} {f : Field} (h : FitsMember types m f) :
    f.IsSeparable := by
  obtain ⟨t, rfl, hkey, -, -⟩ := h
  intro c hc
  rw [List.any_eq_false] at hkey
  have hc' := hkey c hc
  constructor <;> rintro rfl <;> exact hc' (by decide)

/-- **The texts of a derived schema can be cut in one way.** -/
theorem Grounded.separable (h : Grounded types) : types.Separable rootType := by
  refine ⟨List.all_iff_forall_prop.mp (by decide), fun x fields _ hg f hf => ?_⟩
  obtain ⟨m, hm⟩ := h.exists_fitsMember hg hf
  exact isSeparable_of_fitsMember hm

end Derive

end DocumentProof
