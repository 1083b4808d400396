import DocumentProof.Proofs.Schema.Derived
import DocumentProof.Proofs.TypedData.Binding

/-!
# Hashing a document under its own schema

Under its derived schema a document has a hash exactly when its numbers are words without a sign
(`derived_hash_defined_iff`), and then the document can be read off what it says
(`document_eq`). So documents with one hash are equal, unless byte strings hashed for them
collide (`derived_hash_binds`).
-/

namespace DocumentProof

namespace TypedValue

/-! ### The document of a typed value -/

mutual

/-- The document that says this, if a document can say it under its own schema. -/
def document : TypedValue → Json
  | bool b => .bool b
  | number n => .ofInt n
  | text s => .string s
  | array xs => .array (itemDocuments xs)
  | struct _ ms => .object (memberDocuments ms)
  | _ => .null

def itemDocuments : List TypedValue → List Json
  | [] => []
  | x :: xs => x.document :: itemDocuments xs

def memberDocuments : List (String × TypedValue) → List (String × Json)
  | [] => []
  | (key, x) :: ms => (key, x.document) :: memberDocuments ms

end

theorem itemDocuments_eq {xs : List Json} {as : List TypedValue}
    (h : List.Forall₂ (fun x a => a.document = x) xs as) : itemDocuments as = xs := by
  induction h with
  | nil => rfl
  | cons hx _ ih => rw [itemDocuments, hx, ih]

theorem memberDocuments_eq {ms : List (String × Json)} {as : List (String × TypedValue)}
    (h : List.Forall₂ (fun m a => a.1 = m.1 ∧ a.2.document = m.2) ms as) :
    memberDocuments as = ms := by
  induction h with
  | nil => rfl
  | @cons m a _ _ hm _ ih =>
    rw [show a = (a.1, a.2) from rfl, memberDocuments, hm.1, hm.2, ih]

end TypedValue

namespace Derive

open FieldType (ofText? ofPrimitive arrayOf)
open TypedValue (FieldSays)

variable {types : TypeSchema}

/-! ### Single values -/

/-- A word without a sign. -/
def IsUnsigned (n : Number) : Prop := ∃ k : UInt64, n.toNat? = some k.toNat

theorem isUnsigned_iff {n : Number} : IsUnsigned n ↔ ∃ k, n.toNat? = some k := by
  refine ⟨fun ⟨k, hk⟩ => ⟨k.toNat, hk⟩, fun ⟨k, hk⟩ => ⟨UInt64.ofNat k, ?_⟩⟩
  cases n with
  | double x => cases hk
  | whole m lower upper =>
    have hk' := hk
    simp only [Number.toNat?] at hk'
    split_ifs at hk' with hm
    have hlt : k < 2 ^ 64 := by
      rw [← Option.some.inj hk']
      omega
    rw [hk, UInt64.toNat_ofNat', Nat.mod_eq_of_lt hlt]

theorem ofJson?_number {n : Number} {k : Nat} (h : n.toNat? = some k) :
    TypedValue.ofJson? types (.number n) (ofPrimitive .uint256) = some (.number k) := by
  have hlt : k < Nat.pow 2 (FieldType.bitCount 31) := by
    obtain ⟨u, hu⟩ := isUnsigned_iff.mpr ⟨k, h⟩
    have hk : k = u.toNat := Option.some.inj (h.symm.trans hu)
    have hu64 := u.toNat_lt
    have hpow : Nat.pow 2 (FieldType.bitCount 31) = 2 ^ 256 := rfl
    omega
  show (Encode.natural? (.number n)).bind _ = _
  rw [Encode.natural?, h, Option.bind_some, if_pos hlt]

theorem toNat?_of_ofJson? {n : Number} {a : TypedValue}
    (h : TypedValue.ofJson? types (.number n) (ofPrimitive .uint256) = some a) :
    ∃ k, n.toNat? = some k ∧ a = .number k := by
  obtain ⟨k, hk, h⟩ := Option.bind_eq_some_iff.mp
    (show (Encode.natural? (.number n)).bind _ = some a from h)
  split_ifs at h
  cases h
  exact ⟨k, hk, rfl⟩

/-! ### Members -/

/-- What the field of a fitting member says is what the member says under its type. -/
theorem fieldSays_iff {ms : List (String × Json)} (hi : Keyed.Increasing ms) {m : String × Json}
    (hm : m ∈ ms) {f : Field} (hf : FitsMember types m f) :
    ∃ t, Fits types m.2 t ∧ ∀ a, FieldSays types ms f a ↔
      a.1 = m.1 ∧ TypedValue.ofJson? types m.2 t = some a.2 := by
  obtain ⟨t, rfl, -, ht, hx⟩ := hf
  refine ⟨t, hx, fun a => ⟨?_, ?_⟩⟩
  · rintro ⟨hname, x, t', hg, ht', ha⟩
    obtain rfl : t = t' := Option.some.inj (ht.symm.trans ht')
    obtain rfl : m.2 = x := Option.some.inj (((Keyed.mem_iff_get? hi).mp hm).symm.trans hg)
    exact ⟨hname, ha⟩
  · rintro ⟨hname, ha⟩
    exact ⟨hname, m.2, t, (Keyed.mem_iff_get? hi).mp hm, ht, ha⟩

theorem undeclared?_eq_none {ms : List (String × Json)} {fields : List Field}
    (h : List.Forall₂ (FitsMember types) ms fields) : Encode.undeclared? fields ms = none := by
  refine Encode.undeclared?_eq_none_iff.mpr fun key hkey => ?_
  obtain ⟨m, hm, rfl⟩ := List.mem_map.mp hkey
  obtain ⟨f, hf, t, rfl, -⟩ := exists_of_mem_left h hm
  exact List.mem_map.mpr ⟨_, hf, rfl⟩

/-! ### When a document has a hash -/

/-- A list says something exactly when its items do. -/
theorem exists_ofJson?_array_iff {xs : List Json} {p : Primitive} :
    (∃ a, TypedValue.ofJson? types (.array xs) (arrayOf p) = some a) ↔
      ∀ x ∈ xs, ∃ a, TypedValue.ofJson? types x (ofPrimitive p) = some a := by
  rw [← exists_forall₂_iff]
  unfold arrayOf
  simp only [TypedValue.ofJson?_array_eq_some_iff]
  constructor
  · rintro ⟨_, _, as, harr, -, -, has⟩
    cases harr
    exact ⟨as, has⟩
  · rintro ⟨as, has⟩
    exact ⟨_, xs, as, rfl, rfl, rfl, has⟩

/-- A fitting object says something exactly when its members do. -/
theorem exists_ofJson?_object_iff (hc : types.Complete) {ms : List (String × Json)} {name : String}
    {fields : List Field} (hg : types.get? name = some fields)
    (hms : List.Forall₂ (FitsMember types) ms fields) :
    (∃ a, TypedValue.ofJson? types (.object ms) (.struct name) = some a) ↔
      ∀ f ∈ fields, ∃ a, FieldSays types ms f a := by
  obtain ⟨text, htext⟩ := TypeSchema.encodeType_of_complete hc (KeyMap.contains_iff.mpr ⟨_, hg⟩)
  rw [← exists_forall₂_iff]
  simp only [TypedValue.ofJson?_struct_eq_some_iff]
  constructor
  · rintro ⟨_, _, fields', _, as, hobj, -, hg', -, -, has⟩
    cases hobj
    obtain rfl : fields = fields' := Option.some.inj (hg.symm.trans hg')
    exact ⟨as, has⟩
  · rintro ⟨as, has⟩
    exact ⟨_, ms, fields, text, as, rfl, rfl, hg, undeclared?_eq_none hms, htext, has⟩

/-- **A fitting value says something exactly when every number in it is a word without a sign.** -/
theorem exists_ofJson?_iff (hc : types.Complete) {v : Json} : v.Sorted → ∀ t, Fits types v t →
    ((∃ a, TypedValue.ofJson? types v t = some a) ↔ ∀ n ∈ v.numbers, IsUnsigned n) := by
  induction v using Json.induction with
  | null => exact fun _ _ h => h.elim
  | bool b =>
    rintro - t rfl
    exact ⟨fun _ => List.forall_mem_nil _, fun _ => ⟨.bool b, rfl⟩⟩
  | string s =>
    rintro - t rfl
    exact ⟨fun _ => List.forall_mem_nil _, fun _ => ⟨.text s, rfl⟩⟩
  | number n =>
    rintro - t rfl
    rw [Json.numbers, List.forall_mem_singleton, isUnsigned_iff]
    constructor
    · rintro ⟨a, ha⟩
      obtain ⟨k, hk, -⟩ := toNat?_of_ofJson? ha
      exact ⟨k, hk⟩
    · rintro ⟨k, hk⟩
      exact ⟨_, ofJson?_number hk⟩
  | array xs ih =>
    rintro hs t ⟨p, rfl, hp⟩
    have hitem : ∀ x ∈ xs, (∃ a, TypedValue.ofJson? types x (ofPrimitive p) = some a) ↔
        ∀ n ∈ x.numbers, IsUnsigned n := fun x hx =>
      ih x hx (Json.sortedItems_iff.mp hs x hx) _ (fits_of_primitive (hp x hx))
    rw [exists_ofJson?_array_iff]
    constructor
    · intro h n hn
      obtain ⟨x, hx, hnx⟩ := Json.mem_numbersItems.mp hn
      exact (hitem x hx).mp (h x hx) n hnx
    · intro h x hx
      exact (hitem x hx).mpr fun n hn => h n (Json.mem_numbersItems.mpr ⟨x, hx, hn⟩)
  | object ms ih =>
    rintro hs t ⟨name, fields, rfl, hg, hms⟩
    rw [fitsMembers_iff] at hms
    obtain ⟨hi, hsorted⟩ := Json.sorted_object hs
    rw [exists_ofJson?_object_iff hc hg hms]
    constructor
    · intro h n hn
      obtain ⟨m, hm, hnm⟩ := Json.mem_numbersMembers.mp hn
      obtain ⟨f, hf, hmf⟩ := exists_of_mem_left hms hm
      obtain ⟨t, ht, hfield⟩ := fieldSays_iff hi hm hmf
      obtain ⟨a, ha⟩ := h f hf
      exact (ih m hm (hsorted m hm) t ht).mp ⟨a.2, ((hfield a).mp ha).2⟩ n hnm
    · intro h f hf
      obtain ⟨m, hm, hmf⟩ := exists_of_mem_right hms hf
      obtain ⟨t, ht, hfield⟩ := fieldSays_iff hi hm hmf
      obtain ⟨a, ha⟩ := (ih m hm (hsorted m hm) t ht).mpr
        fun n hn => h n (Json.mem_numbersMembers.mpr ⟨m, hm, hn⟩)
      exact ⟨(m.1, a), (hfield _).mpr ⟨rfl, ha⟩⟩

theorem exists_hash_iff {d : Document} (h : deriveTypes d.json = .ok types) :
    (∃ w, types.hashStruct rootType d.json = .ok w) ↔ ∀ n ∈ d.json.numbers, IsUnsigned n := by
  obtain ⟨hfit, hg⟩ := fits_of_deriveTypes h
  rw [← exists_ofJson?_iff hg.complete d.sorted _ hfit]
  simp only [TypeSchema.hashStruct_eq_ok_iff]
  constructor
  · rintro ⟨_, a, ha, -⟩
    exact ⟨a, ha⟩
  · rintro ⟨a, ha⟩
    exact ⟨_, a, ha, rfl⟩

/-- **A document has a hash under its own schema exactly when every number in it is a word without a
sign,** and is refused otherwise. -/
theorem derived_hash_defined_iff {d : Document} (h : deriveTypes d.json = .ok types) :
    ((∃ w, types.hashStruct rootType d.json = .ok w) ↔
      ∀ n ∈ d.json.numbers, ∃ k : UInt64, n.toNat? = some k.toNat) ∧
    ((∃ e, types.hashStruct rootType d.json = .error e) ↔
      ¬ ∀ n ∈ d.json.numbers, ∃ k : UInt64, n.toNat? = some k.toNat) := by
  have hok := exists_hash_iff h
  refine ⟨hok, Iff.trans ?_ (not_congr hok)⟩
  cases types.hashStruct rootType d.json <;> simp

/-- A document with a list of numbers under a key of a nested object. -/
def sample (n : Int) : Document where
  json := .object [("a", .object [("b", .array [Json.ofInt n, Json.ofNat 1])]), ("c", .string "d")]
  sorted := by
    have hlt : "a" < "c" := by decide
    have hn : (Json.ofInt n).Sorted := by
      unfold Json.ofInt
      cases Number.ofInt? n <;> trivial
    refine ⟨?_, ⟨List.pairwise_singleton _ _, ⟨hn, trivial, trivial⟩, trivial⟩, trivial, trivial⟩
    exact List.pairwise_cons.mpr ⟨List.forall_mem_singleton.mpr hlt, List.pairwise_singleton _ _⟩

theorem isUnsigned_of_mem_sample : ∀ n ∈ (sample 2).json.numbers, IsUnsigned n := by
  intro n hn
  rcases List.mem_cons.mp hn with rfl | hn
  · exact ⟨2, rfl⟩
  · rw [List.mem_singleton.mp hn]
    exact ⟨1, rfl⟩

theorem derived_hash_refused_sample : ∃ types, deriveTypes (sample (-1)).json = .ok types ∧
    ∃ e, types.hashStruct rootType (sample (-1)).json = .error e := by
  refine ⟨_, rfl, (derived_hash_defined_iff rfl).2.mpr fun h => ?_⟩
  obtain ⟨k, hk⟩ := h (.whole (-1) (by decide) (by decide)) List.mem_cons_self
  cases hk

/-! ### What the hash binds -/

/-- **A document can be read off what it says.** -/
theorem document_eq {v : Json} : v.Sorted → ∀ t a, Fits types v t →
    TypedValue.ofJson? types v t = some a → a.document = v := by
  induction v using Json.induction with
  | null => exact fun _ _ _ h => h.elim
  | bool b =>
    rintro - t a rfl ha
    cases ha
    rfl
  | string s =>
    rintro - t a rfl ha
    cases ha
    rfl
  | number n =>
    rintro - t a rfl ha
    obtain ⟨k, hk, rfl⟩ := toNat?_of_ofJson? ha
    cases n with
    | double x => cases hk
    | whole m lower upper =>
      simp only [Number.toNat?] at hk
      split_ifs at hk with hm
      have hkm : (k : Int) = m := by
        rw [← Option.some.inj hk]
        omega
      rw [TypedValue.document, Json.ofInt, hkm, Number.ofInt?, dif_pos ⟨lower, upper⟩]
      rfl
  | array xs ih =>
    rintro hs t a ⟨p, rfl, hp⟩ ha
    obtain ⟨_, as, hxs, rfl, -, has⟩ := TypedValue.ofJson?_array_eq_some_iff.mp ha
    cases hxs
    have hitem : ∀ x ∈ xs, ∀ a, TypedValue.ofJson? types x (ofPrimitive p) = some a →
        a.document = x := fun x hx a =>
      ih x hx (Json.sortedItems_iff.mp hs x hx) _ a (fits_of_primitive (hp x hx))
    have hdoc := ((List.forall₂_and_left xs as).mpr ⟨hitem, has⟩).imp fun x a h => h.1 a h.2
    rw [TypedValue.document, TypedValue.itemDocuments_eq hdoc]
  | object ms ih =>
    rintro hs t a ⟨name, fields, rfl, hg, hms⟩ ha
    rw [fitsMembers_iff] at hms
    obtain ⟨hi, hsorted⟩ := Json.sorted_object hs
    obtain ⟨_, fields', type, as, hobj, rfl, hg', -, -, has⟩ :=
      TypedValue.ofJson?_struct_eq_some_iff.mp ha
    cases hobj
    obtain rfl : fields = fields' := Option.some.inj (hg.symm.trans hg')
    have hpair : List.Forall₂ (fun m a => a.1 = m.1 ∧ a.2.document = m.2) ms as := by
      refine forall₂_comp (fun m hm f a hmf hfa => ?_) hms has
      obtain ⟨t, ht, hfield⟩ := fieldSays_iff hi hm hmf
      obtain ⟨hname, hval⟩ := (hfield a).mp hfa
      exact ⟨hname, ih m hm (hsorted m hm) t a.2 ht hval⟩
    rw [TypedValue.document, TypedValue.memberDocuments_eq hpair]

/-- **Documents with one hash, each under its own schema, are equal,** unless two of the byte
strings hashed for them have the same digest. -/
theorem derived_hash_binds {d₁ d₂ : Document} {types₁ types₂ : TypeSchema} {w : Word}
    (h₁ : deriveTypes d₁.json = .ok types₁) (h₂ : deriveTypes d₂.json = .ok types₂)
    (hw₁ : types₁.hashStruct rootType d₁.json = .ok w)
    (hw₂ : types₂.hashStruct rootType d₂.json = .ok w) :
    d₁ = d₂ ∨ Collides (types₁.hashed rootType d₁.json ++ types₂.hashed rootType d₂.json) := by
  by_cases hcol : Collides (types₁.hashed rootType d₁.json ++ types₂.hashed rootType d₂.json)
  · exact Or.inr hcol
  left
  have hinj := injOn_of_not_collides hcol
  obtain ⟨hfit₁, hg₁⟩ := fits_of_deriveTypes h₁
  obtain ⟨hfit₂, hg₂⟩ := fits_of_deriveTypes h₂
  obtain ⟨a₁, ha₁, hword₁⟩ := TypeSchema.hashStruct_eq_ok_iff.mp hw₁
  obtain ⟨a₂, ha₂, hword₂⟩ := TypeSchema.hashStruct_eq_ok_iff.mp hw₂
  rw [TypeSchema.hashed_eq ha₁, TypeSchema.hashed_eq ha₂] at hinj
  obtain ⟨-, -, hsame⟩ := TypedValue.struct_binds hinj hg₁.separable hg₂.separable ha₁ ha₂
    (fun b hb => List.mem_append_left _ hb) (fun b hb => List.mem_append_right _ hb)
    (hword₁.trans hword₂.symm)
  apply Document.ext
  calc d₁.json = a₁.document := (document_eq d₁.sorted _ a₁ hfit₁ ha₁).symm
    _ = a₂.document := by rw [hsame]
    _ = d₂.json := document_eq d₂.sorted _ a₂ hfit₂ ha₂

theorem derived_hash_binds_sample : ∃ types w, deriveTypes (sample 2).json = .ok types ∧
    types.hashStruct rootType (sample 2).json = .ok w ∧
      (sample 2 = sample 2 ∨
        Collides (types.hashed rootType (sample 2).json ++
          types.hashed rootType (sample 2).json)) := by
  obtain ⟨w, hw⟩ := (@exists_hash_iff _ (sample 2) rfl).mpr isUnsigned_of_mem_sample
  exact ⟨_, w, rfl, hw, derived_hash_binds rfl rfl hw hw⟩

end Derive

end DocumentProof
