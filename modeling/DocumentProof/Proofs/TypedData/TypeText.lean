import DocumentProof.Proofs.Schema.FieldText
import DocumentProof.Proofs.TypedData.References
import Mathlib.Data.Bool.AllAny

/-!
# What the text of a type determines

The text of a struct lists definitions: its own, and those of the structs it reaches by increasing
name. Where no name of a field holds a comma or a closing parenthesis and the first struct's name
holds no opening one, the text can be cut at these characters in one way only (`renderAll_inj`). So
two such schemas that give a struct the same text have the same definitions below it
(`agree_of_encodeType_eq`).
-/

namespace DocumentProof

/-! ### Cutting at a character -/

/-- The first character that stops a text is found in one way. -/
theorem eq_of_append_cons {p : Char → Prop} {a b : Char} {z w : List Char} (ha : p a) (hb : p b) :
    ∀ {x y : List Char}, (∀ c ∈ x, ¬ p c) → (∀ c ∈ y, ¬ p c) →
      x ++ a :: z = y ++ b :: w → x = y ∧ a = b ∧ z = w
  | [], [], _, _, h => by
    obtain ⟨hab, hzw⟩ := List.cons_eq_cons.mp h
    exact ⟨rfl, hab, hzw⟩
  | [], d :: y, _, hy, h => by
    obtain ⟨had, -⟩ := List.cons_eq_cons.mp h
    exact absurd (had ▸ ha) (hy d List.mem_cons_self)
  | c :: x, [], hx, _, h => by
    obtain ⟨hcb, -⟩ := List.cons_eq_cons.mp h
    exact absurd (hcb ▸ hb) (hx c List.mem_cons_self)
  | c :: x, d :: y, hx, hy, h => by
    obtain ⟨hcd, h⟩ := List.cons_eq_cons.mp h
    obtain ⟨hxy, hab, hzw⟩ := eq_of_append_cons ha hb
      (fun e he => hx e (List.mem_cons_of_mem _ he)) (fun e he => hy e (List.mem_cons_of_mem _ he)) h
    exact ⟨by rw [hcd, hxy], hab, hzw⟩

namespace Field

/-- The name has no character that ends a field in the text of a type. -/
def IsSeparable (f : Field) : Prop := ∀ c ∈ f.name.toList, c ≠ ',' ∧ c ≠ ')'

instance : DecidablePred IsSeparable := fun f =>
  List.decidableBAll (fun c => c ≠ ',' ∧ c ≠ ')') f.name.toList

/-- The text of a field can be cut out of the text of a type. -/
structure IsCut (f : Field) : Prop where
  type : ∀ c ∈ f.typeName.toList, FieldType.isPlain c = true
  name : f.IsSeparable

/-- A field in the text of a type. -/
def chars (f : Field) : List Char := f.typeName.toList ++ ' ' :: f.name.toList

theorem chars_ne_nil (f : Field) : f.chars ≠ [] := by simp [chars]

/-- A comma or a closing parenthesis. -/
def Ends (c : Char) : Prop := c = ',' ∨ c = ')'

theorem IsCut.not_ends {f : Field} (h : f.IsCut) : ∀ c ∈ f.chars, ¬ Ends c := by
  intro c hc
  rcases List.mem_append.mp hc with hc | hc
  · have hp := h.type c hc
    rintro (rfl | rfl) <;> simp [FieldType.isPlain] at hp
  · rcases List.mem_cons.mp hc with rfl | hc
    · unfold Ends
      decide
    · obtain ⟨h1, h2⟩ := h.name c hc
      exact fun he => he.elim h1 h2

theorem eq_of_chars_eq {f g : Field} (hf : f.IsCut) (hg : g.IsCut) (h : f.chars = g.chars) :
    f = g := by
  have hblank : ∀ {e : Field}, e.IsCut → ∀ c ∈ e.typeName.toList, ¬ c = ' ' := by
    rintro e he c hc rfl
    exact absurd (he.type ' ' hc) (by decide)
  obtain ⟨ht, -, hn⟩ := eq_of_append_cons (p := (· = ' ')) rfl rfl (hblank hf) (hblank hg) h
  cases f
  cases g
  simp only [String.toList_inj] at ht hn
  rw [ht, hn]

/-- The fields in the text of a type, with what closes them. -/
def listChars : List Field → List Char
  | [] => [')']
  | [f] => f.chars ++ [')']
  | f :: g :: fs => f.chars ++ ',' :: listChars (g :: fs)

/-- After its first field, the list is closed or goes on. -/
theorem listChars_cons (f : Field) (fs : List Field) (r : List Char) :
    ∃ a z, listChars (f :: fs) ++ r = f.chars ++ a :: z ∧ Ends a ∧
      (fs = [] ∧ a = ')' ∧ z = r ∨ fs ≠ [] ∧ a = ',' ∧ z = listChars fs ++ r) := by
  cases fs with
  | nil => exact ⟨')', r, by simp [listChars], Or.inr rfl, Or.inl ⟨rfl, rfl, rfl⟩⟩
  | cons g fs =>
    exact ⟨',', listChars (g :: fs) ++ r, by simp [listChars], Or.inl rfl,
      Or.inr ⟨by simp, rfl, rfl⟩⟩

/-- **A list of fields is read off the text that it starts.** -/
theorem listChars_inj : ∀ {fs gs : List Field} {r s : List Char}, (∀ f ∈ fs, f.IsCut) →
    (∀ g ∈ gs, g.IsCut) → listChars fs ++ r = listChars gs ++ s → fs = gs ∧ r = s
  | [], [], r, s, _, _, h => ⟨rfl, (List.cons_eq_cons.mp h).2⟩
  | [], g :: gs, r, s, _, hg, h => by
    obtain ⟨a, z, he, ha, -⟩ := listChars_cons g gs s
    have h' : [] ++ ')' :: r = g.chars ++ a :: z := h.trans he
    obtain ⟨hnil, -⟩ := eq_of_append_cons (Or.inr rfl) ha (by simp)
      (hg g List.mem_cons_self).not_ends h'
    exact absurd hnil.symm g.chars_ne_nil
  | f :: fs, [], r, s, hf, _, h => by
    obtain ⟨a, z, he, ha, -⟩ := listChars_cons f fs r
    have h' : f.chars ++ a :: z = [] ++ ')' :: s := he.symm.trans h
    obtain ⟨hnil, -⟩ := eq_of_append_cons ha (Or.inr rfl) (hf f List.mem_cons_self).not_ends
      (by simp) h'
    exact absurd hnil f.chars_ne_nil
  | f :: fs, g :: gs, r, s, hf, hg, h => by
    obtain ⟨a, z, he, ha, hz⟩ := listChars_cons f fs r
    obtain ⟨b, w, he', hb, hw⟩ := listChars_cons g gs s
    have hf0 := hf f List.mem_cons_self
    have hg0 := hg g List.mem_cons_self
    obtain ⟨hfg, hab, hzw⟩ := eq_of_append_cons ha hb hf0.not_ends hg0.not_ends
      (he.symm.trans (h.trans he'))
    obtain rfl := eq_of_chars_eq hf0 hg0 hfg
    rcases hz with ⟨rfl, ha', rfl⟩ | ⟨-, ha', rfl⟩ <;>
      rcases hw with ⟨rfl, hb', rfl⟩ | ⟨-, hb', rfl⟩
    · exact ⟨rfl, hzw⟩
    · exact absurd (ha'.symm.trans (hab.trans hb')) (by decide)
    · exact absurd (ha'.symm.trans (hab.trans hb')) (by decide)
    · obtain ⟨htail, hrs⟩ := listChars_inj (fun e he => hf e (List.mem_cons_of_mem _ he))
        (fun e he => hg e (List.mem_cons_of_mem _ he)) hzw
      exact ⟨by rw [htail], hrs⟩

end Field

namespace TypeSchema

/-! ### Lists of definitions -/

/-- A struct's name and fields. -/
abbrev Definition := String × List Field

/-- The text of definitions, one after the other. -/
def renderAll (ds : List Definition) : String := String.join (ds.map fun d => renderType d.1 d.2)

/-- The text of the definition can be cut out of the text of a type. -/
structure IsCut (d : Definition) : Prop where
  name : ∀ c ∈ d.1.toList, ¬ c = '('
  fields : ∀ f ∈ d.2, f.IsCut

theorem toList_intercalate_fields : ∀ fs : List Field,
    (String.intercalate "," (fs.map fun f => f.typeName ++ " " ++ f.name)).toList ++ [')'] =
      Field.listChars fs
  | [] => by simp [Field.listChars]
  | [f] => by simp [Field.listChars, Field.chars]
  | f :: g :: fs => by
    have ih := toList_intercalate_fields (g :: fs)
    rw [List.map_cons] at ih
    rw [List.map_cons, List.map_cons, String.intercalate_cons_cons, Field.listChars, ← ih]
    simp [Field.chars]

theorem toList_renderType (d : Definition) :
    (renderType d.1 d.2).toList = d.1.toList ++ '(' :: Field.listChars d.2 := by
  rw [← toList_intercalate_fields]
  simp [renderType]

theorem toList_renderAll_cons (d : Definition) (ds : List Definition) :
    (renderAll (d :: ds)).toList =
      d.1.toList ++ '(' :: (Field.listChars d.2 ++ (renderAll ds).toList) := by
  unfold renderAll
  rw [List.map_cons, String.join_cons, String.toList_append, toList_renderType]
  simp

/-- **The definitions are read off their text.** -/
theorem renderAll_inj : ∀ {ds es : List Definition}, (∀ d ∈ ds, IsCut d) → (∀ e ∈ es, IsCut e) →
    (renderAll ds).toList = (renderAll es).toList → ds = es
  | [], [], _, _, _ => rfl
  | [], e :: es, _, _, h => by
    rw [toList_renderAll_cons] at h
    simp [renderAll] at h
  | d :: ds, [], _, _, h => by
    rw [toList_renderAll_cons] at h
    simp [renderAll] at h
  | d :: ds, e :: es, hd, he, h => by
    have hd0 := hd d List.mem_cons_self
    have he0 := he e List.mem_cons_self
    rw [toList_renderAll_cons, toList_renderAll_cons] at h
    obtain ⟨hname, -, h⟩ := eq_of_append_cons (p := (· = '(')) rfl rfl hd0.name he0.name h
    obtain ⟨hfields, h⟩ := Field.listChars_inj hd0.fields he0.fields h
    rw [renderAll_inj (fun x hx => hd x (List.mem_cons_of_mem _ hx))
      (fun x hx => he x (List.mem_cons_of_mem _ hx)) h]
    rw [show d = e from Prod.ext (String.toList_inj.mp hname) hfields]

/-! ### The definitions in the text of a struct -/

variable {types types₁ types₂ : TypeSchema} {name name₁ name₂ text : String}

/-- The fields that a name is bound to. -/
def definition (types : TypeSchema) (name : String) : List Field := (types.get? name).getD []

/-- The struct and those of a set, with their fields. -/
def listing (types : TypeSchema) (name : String) (used : NameSet) : List Definition :=
  (name, types.definition name) :: used.keys.map fun x => (x, types.definition x)

theorem get?_eq_some_definition (h : types.contains name = true) :
    types.get? name = some (types.definition name) := by
  obtain ⟨fields, hf⟩ := KeyMap.contains_iff.mp h
  rw [definition, hf, Option.getD_some]

theorem mapM_render_eq {names : List String} {rendered : List String}
    (h : names.mapM (fun other => do return renderType other (← types.fieldsOf other)) =
      Except.ok rendered) :
    rendered = names.map fun x => renderType x (types.definition x) := by
  rw [mapM_eq_ok_iff] at h
  induction h with
  | nil => rfl
  | cons hx _ ih =>
    obtain ⟨fields, hf, hr⟩ := bind_eq_ok_iff.mp hx
    rw [fieldsOf_eq_ok_iff] at hf
    rw [List.map_cons, ← ih, ← pure_eq_ok_iff.mp hr, definition, hf, Option.getD_some]

/-- **The text of a struct lists its definition and those of the structs that it reaches.** -/
theorem encodeType_eq_listing (h : types.encodeType name = .ok text) :
    ∃ found : NameSet, types.references name = .ok found ∧
      text = renderAll (types.listing name (found.remove name)) := by
  unfold encodeType at h
  obtain ⟨fields, hg, h⟩ := bind_eq_ok_iff.mp h
  obtain ⟨found, hfound, h⟩ := bind_eq_ok_iff.mp h
  obtain ⟨rendered, hr, h⟩ := bind_eq_ok_iff.mp h
  rw [fieldsOf_eq_ok_iff] at hg
  have hdef : types.definition name = fields := by rw [definition, hg, Option.getD_some]
  refine ⟨found, hfound, ?_⟩
  rw [← pure_eq_ok_iff.mp h, mapM_render_eq hr, renderAll, listing, List.map_cons, String.join_cons,
    hdef, List.map_map]
  rfl

theorem exists_encodeType_of_references {found : NameSet}
    (hfound : types.references name = .ok found) : ∃ text, types.encodeType name = .ok text := by
  have hrender : ∀ x ∈ (found.remove name).keys,
      ∃ s, (do return renderType x (← types.fieldsOf x)) = Except.ok s := by
    intro x hx
    have hin := ((KeyMap.contains_remove found name x).mp (KeyMap.mem_keys.mp hx)).2
    have hg := get?_eq_some_definition (defined_of_references hfound hin)
    exact ⟨_, bind_eq_ok_iff.mpr ⟨_, fieldsOf_eq_ok_iff.mpr hg, rfl⟩⟩
  obtain ⟨rendered, hr⟩ := exists_mapM_eq_ok hrender
  have hg := get?_eq_some_definition (references_spec hfound).2.defined
  refine ⟨renderType name (types.definition name) ++ String.join rendered, ?_⟩
  unfold encodeType
  rw [bind_eq_ok_iff]
  refine ⟨_, fieldsOf_eq_ok_iff.mpr hg, ?_⟩
  rw [bind_eq_ok_iff]
  refine ⟨found, hfound, ?_⟩
  rw [bind_eq_ok_iff]
  exact ⟨rendered, hr, rfl⟩

/-- **A struct has a text exactly if there are no gaps below it.** -/
theorem exists_encodeType_iff :
    (∃ text, types.encodeType name = .ok text) ↔ IsClosed types name := by
  constructor
  · rintro ⟨text, h⟩
    obtain ⟨found, hfound, -⟩ := encodeType_eq_listing h
    exact isClosed_of_references hfound
  · intro hc
    obtain ⟨found, hfound⟩ := exists_references_iff.mpr hc
    exact exists_encodeType_of_references hfound

/-- In a schema without gaps every struct has a text. -/
theorem encodeType_of_complete (hc : types.Complete) (hname : types.contains name = true) :
    ∃ text, types.encodeType name = .ok text :=
  exists_encodeType_iff.mpr (hc.isClosed hname)

/-! ### Texts that are cut in one way -/

/-- The name of the struct has no opening parenthesis, and no field of it or of a struct that it
reaches has a comma or a closing parenthesis in its name. -/
structure Separable (types : TypeSchema) (name : String) : Prop where
  own : ∀ c ∈ name.toList, ¬ c = '('
  fields : ∀ x fields, Below types name x → types.get? x = some fields →
    ∀ f ∈ fields, f.IsSeparable

/-- A test for the names of all structs, reached or not. -/
theorem separable_of_all (hname : (name.toList.all (¬ · = '(')) = true)
    (h : (types.entries.all fun e => e.2.all fun f => decide f.IsSeparable) = true) :
    Separable types name := by
  refine ⟨List.all_iff_forall_prop.mp hname, fun x fields _ hg => ?_⟩
  exact List.all_iff_forall_prop.mp (List.all_eq_true.mp h _ (Keyed.mem_of_get? hg))

theorem isCut_of_explored {found : NameSet} {x : String} (he : Explored types found x)
    (hx : ∀ c ∈ x.toList, ¬ c = '(')
    (hs : ∀ fields, types.get? x = some fields → ∀ f ∈ fields, f.IsSeparable) :
    IsCut (x, types.definition x) := by
  obtain ⟨fields, hg, hcov⟩ := he
  have hdef : types.definition x = fields := by rw [definition, hg, Option.getD_some]
  refine ⟨hx, fun f hf => ?_⟩
  rw [show (x, types.definition x).2 = fields from hdef] at hf
  obtain ⟨t, ht, -⟩ := hcov f hf
  exact ⟨FieldType.plain_of_ofText? ht, hs fields hg f hf⟩

/-- The name of a struct that another refers to has no opening parenthesis. -/
theorem not_paren_of_reaches {x : String} (h : Reaches types name x) :
    ∀ c ∈ x.toList, ¬ c = '(' := by
  obtain ⟨y, -, fields, f, t, -, -, ht, hn⟩ := Relation.TransGen.tail'_iff.mp h
  rintro c hc rfl
  exact absurd (FieldType.plain_of_structName? ht hn '(' hc) (by decide)

theorem Separable.isCut (h : Separable types name) {found : NameSet}
    (hfound : types.references name = .ok found) :
    ∀ d ∈ types.listing name (found.remove name), IsCut d := by
  intro d hd
  rcases List.mem_cons.mp hd with rfl | hd
  · exact isCut_of_explored (references_spec hfound).2 h.own
      fun fields hg => h.fields name fields Relation.ReflTransGen.refl hg
  · obtain ⟨x, hx, rfl⟩ := List.mem_map.mp hd
    have hx' := ((KeyMap.contains_remove found name x).mp (KeyMap.mem_keys.mp hx)).2
    obtain ⟨hr, he⟩ := reaches_of_references hfound hx'
    exact isCut_of_explored he (not_paren_of_reaches hr)
      fun fields hg => h.fields x fields hr.to_reflTransGen hg

/-! ### Schemas that agree below a struct -/

/-- The schemas have the same definitions of the struct and of those that it reaches in the
first. -/
def Agree (types₁ types₂ : TypeSchema) (name : String) : Prop :=
  ∀ x, Below types₁ name x → types₁.get? x = types₂.get? x

theorem Agree.of_refers {used : String} (h : Agree types₁ types₂ name)
    (hr : Refers types₁ name used) : Agree types₁ types₂ used :=
  fun x hx => h x (Relation.ReflTransGen.head hr hx)

/-- **Schemas that agree below a struct give it the same structs to reach.** -/
theorem Agree.below_iff (h : Agree types₁ types₂ name) (x : String) :
    Below types₁ name x ↔ Below types₂ name x := by
  constructor
  · intro hx
    induction hx with
    | refl => exact Relation.ReflTransGen.refl
    | tail hab hr ih =>
      obtain ⟨fields, f, t, hg, hf, ht, hn⟩ := hr
      exact ih.tail ⟨fields, f, t, (h _ hab).symm.trans hg, hf, ht, hn⟩
  · intro hx
    induction hx with
    | refl => exact Relation.ReflTransGen.refl
    | tail _ hr ih =>
      obtain ⟨fields, f, t, hg, hf, ht, hn⟩ := hr
      exact ih.tail ⟨fields, f, t, (h _ ih).trans hg, hf, ht, hn⟩

/-- What the walk from a struct succeeds on is defined. -/
theorem get?_of_below {found : NameSet} (hfound : types.references name = .ok found) {x : String}
    (hx : Below types name x) : types.get? x = some (types.definition x) := by
  rcases Relation.reflTransGen_iff_eq_or_transGen.mp hx with rfl | hr
  · exact get?_eq_some_definition (references_spec hfound).2.defined
  · exact get?_eq_some_definition
      (defined_of_references hfound ((contains_references hfound).mpr hr))

theorem mem_keys_remove_iff {found : NameSet} (hfound : types.references name = .ok found)
    (x : String) : x ∈ (found.remove name).keys ↔ x ≠ name ∧ Reaches types name x := by
  rw [KeyMap.mem_keys, KeyMap.contains_remove, contains_references hfound]

/-- The definitions that the text of a struct lists are those of the structs below it. -/
theorem mem_listing_iff {found : NameSet} (hfound : types.references name = .ok found)
    (d : Definition) :
    d ∈ types.listing name (found.remove name) ↔
      Below types name d.1 ∧ d.2 = types.definition d.1 := by
  unfold listing
  simp only [List.mem_cons, List.mem_map, mem_keys_remove_iff hfound]
  constructor
  · rintro (rfl | ⟨x, ⟨-, hr⟩, rfl⟩)
    · exact ⟨Relation.ReflTransGen.refl, rfl⟩
    · exact ⟨hr.to_reflTransGen, rfl⟩
  · rintro ⟨hb, he⟩
    by_cases hd : d.1 = name
    · exact Or.inl (Prod.ext hd (by rw [he, hd]))
    · have hr := (Relation.reflTransGen_iff_eq_or_transGen.mp hb).resolve_left hd
      exact Or.inr ⟨d.1, ⟨hd, hr⟩, Prod.ext rfl he.symm⟩

/-- **The text of a struct determines its name and the definitions below it.** -/
theorem agree_of_encodeType_eq (s₁ : Separable types₁ name₁) (s₂ : Separable types₂ name₂)
    (h₁ : types₁.encodeType name₁ = .ok text) (h₂ : types₂.encodeType name₂ = .ok text) :
    name₁ = name₂ ∧ Agree types₁ types₂ name₁ := by
  obtain ⟨found₁, hf₁, ht₁⟩ := encodeType_eq_listing h₁
  obtain ⟨found₂, hf₂, ht₂⟩ := encodeType_eq_listing h₂
  have hlist := renderAll_inj (s₁.isCut hf₁) (s₂.isCut hf₂)
    (congrArg String.toList (ht₁.symm.trans ht₂))
  have hname : name₁ = name₂ := congrArg Prod.fst (List.cons_eq_cons.mp hlist).1
  refine ⟨hname, fun x hx => ?_⟩
  have hmem := (mem_listing_iff hf₁ (x, types₁.definition x)).mpr ⟨hx, rfl⟩
  rw [hlist, mem_listing_iff hf₂] at hmem
  rw [get?_of_below hf₁ hx, get?_of_below hf₂ hmem.1]
  exact congrArg some hmem.2

end TypeSchema

end DocumentProof
