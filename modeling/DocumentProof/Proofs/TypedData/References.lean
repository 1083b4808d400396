import DocumentProof.Proofs.Keyed
import DocumentProof.Proofs.Outcome
import DocumentProof.TypedData.EncodeType
import Mathlib.Data.List.Perm.Subperm
import Mathlib.Logic.Relation

/-!
# The structs that a struct refers to

`Refers` is the relation that one field sets up between two structs, and `Reaches` its transitive
closure. The walk over a schema finds exactly the names that a struct reaches
(`contains_references`), whatever cycles the schema has, and everything it finds is defined
(`defined_of_references`). It succeeds exactly if the struct and all that it reaches are defined and
the types of their fields can be read (`exists_references_iff`). The number of steps that the walk is
given never runs out: the names found are distinct and, but for the one that is being visited, all
defined (`size_le_of_defined`).
-/

namespace DocumentProof

namespace TypeSchema

variable {types : TypeSchema}

theorem fieldsOf_eq_ok_iff {name : String} {fields : List Field} :
    types.fieldsOf name = .ok fields ↔ types.get? name = some fields := by
  unfold fieldsOf
  cases types.get? name <;> simp

theorem typeOf_eq_ok_iff {f : Field} {t : FieldType} :
    typeOf f = .ok t ↔ FieldType.ofText? f.typeName = some t := by
  unfold typeOf Field.fieldType
  cases FieldType.ofText? f.typeName <;> simp

/-! ### References -/

/-- A field of one struct refers to another. -/
def Refers (types : TypeSchema) (name used : String) : Prop :=
  ∃ fields f t, types.get? name = some fields ∧ f ∈ fields ∧
    FieldType.ofText? f.typeName = some t ∧ t.structName? = some used

/-- One struct refers to another, directly or through others. -/
abbrev Reaches (types : TypeSchema) : String → String → Prop := Relation.TransGen (Refers types)

/-- The struct itself, or one that it reaches. -/
abbrev Below (types : TypeSchema) : String → String → Prop := Relation.ReflTransGen (Refers types)

/-- The field has a type, and the struct that the type refers to is in the set. -/
def Covers (found : NameSet) (f : Field) : Prop :=
  ∃ t, FieldType.ofText? f.typeName = some t ∧
    ∀ used, t.structName? = some used → found.contains used = true

/-- The struct is defined, and the set covers its fields. -/
def Explored (types : TypeSchema) (found : NameSet) (name : String) : Prop :=
  ∃ fields, types.get? name = some fields ∧ ∀ f ∈ fields, Covers found f

theorem Covers.mono {found found' : NameSet} {f : Field}
    (h : ∀ x, found.contains x = true → found'.contains x = true) (hf : Covers found f) :
    Covers found' f := by
  obtain ⟨t, ht, hu⟩ := hf
  exact ⟨t, ht, fun used hs => h used (hu used hs)⟩

theorem Explored.mono {found found' : NameSet} {name : String}
    (h : ∀ x, found.contains x = true → found'.contains x = true)
    (hn : Explored types found name) : Explored types found' name := by
  obtain ⟨fields, hg, hf⟩ := hn
  exact ⟨fields, hg, fun f hm => (hf f hm).mono h⟩

theorem Explored.defined {found : NameSet} {name : String} (h : Explored types found name) :
    types.contains name = true := by
  obtain ⟨fields, hg, -⟩ := h
  exact KeyMap.contains_iff.mpr ⟨fields, hg⟩

/-- A set that covers the fields of a struct has every name that the struct refers to. -/
theorem Explored.contains_of_refers {found : NameSet} {name used : String}
    (h : Explored types found name) (hr : Refers types name used) : found.contains used = true := by
  obtain ⟨fields, hg, hf⟩ := h
  obtain ⟨fields', f, t, hg', hm, ht, hu⟩ := hr
  obtain rfl : fields = fields' := Option.some.inj (hg.symm.trans hg')
  obtain ⟨t', ht', hc⟩ := hf f hm
  obtain rfl : t = t' := Option.some.inj (ht.symm.trans ht')
  exact hc used hu

/-! ### What the walk adds -/

/-- From `found` to `found'` only names that `start` reaches are added, and all of them are
explored. -/
structure Grows (types : TypeSchema) (start : String) (found found' : NameSet) : Prop where
  le : ∀ x, found.contains x = true → found'.contains x = true
  size_le : found.size ≤ found'.size
  new : ∀ x, found'.contains x = true →
    found.contains x = true ∨ Reaches types start x ∧ Explored types found' x

theorem Grows.refl (start : String) (found : NameSet) : Grows types start found found :=
  ⟨fun _ h => h, le_refl _, fun _ h => Or.inl h⟩

theorem Grows.trans {start : String} {a b c : NameSet} (hab : Grows types start a b)
    (hbc : Grows types start b c) : Grows types start a c := by
  refine ⟨fun x h => hbc.le x (hab.le x h), le_trans hab.size_le hbc.size_le, fun x h => ?_⟩
  rcases hbc.new x h with hb | hn
  · rcases hab.new x hb with ha | ⟨hr, he⟩
    · exact Or.inl ha
    · exact Or.inr ⟨hr, he.mono hbc.le⟩
  · exact Or.inr hn

theorem Grows.defined {start : String} {found found' : NameSet}
    (h : Grows types start found found')
    (hd : ∀ x, found.contains x = true → types.contains x = true) :
    ∀ x, found'.contains x = true → types.contains x = true := by
  intro x hx
  rcases h.new x hx with hf | ⟨-, he⟩
  · exact hd x hf
  · exact he.defined

/-- What is found from a struct that is new to the set counts for the struct that refers to it. -/
theorem Grows.of_put {start used : String} {found found' : NameSet}
    (hr : Refers types start used) (hn : found.contains used = false)
    (h : Grows types used (found.put used ()) found') (he : Explored types found' used) :
    Grows types start found found' := by
  have hput : ∀ x, (found.put used ()).contains x = true ↔ x = used ∨ found.contains x = true :=
    KeyMap.contains_put found used ()
  refine ⟨fun x hx => h.le x ((hput x).mpr (Or.inr hx)), ?_, fun x hx => ?_⟩
  · have h1 := KeyMap.size_put_of_new (v := ()) hn
    have h2 := h.size_le
    omega
  · rcases h.new x hx with hp | ⟨hreach, hx'⟩
    · rcases (hput x).mp hp with rfl | hf
      · exact Or.inr ⟨Relation.TransGen.single hr, he⟩
      · exact Or.inl hf
    · exact Or.inr ⟨Relation.TransGen.head hr hreach, hx'⟩

/-! ### The steps suffice -/

/-- Names that are all defined, but for one, are at most one more than the schema has. -/
theorem size_le_of_defined {found : NameSet} {name : String}
    (h : ∀ x, found.contains x = true → x = name ∨ types.contains x = true) :
    found.size ≤ types.size + 1 := by
  have hsub : found.keys ⊆ name :: types.keys := by
    intro x hx
    rcases h x (KeyMap.mem_keys.mp hx) with rfl | hd
    · exact List.mem_cons_self
    · exact List.mem_cons_of_mem _ (KeyMap.mem_keys.mpr hd)
  have hlen := (List.subperm_of_subset found.nodup_keys hsub).length_le
  rw [KeyMap.length_keys, List.length_cons, KeyMap.length_keys] at hlen
  exact hlen

/-- A new name makes up for the step that its visit takes. -/
theorem room_of_put {n : Nat} {found : NameSet} {used : String}
    (hnew : found.contains used = false) (h : types.size + 2 ≤ n + 1 + found.size) :
    types.size + 2 ≤ n + (found.put used ()).size := by
  rw [KeyMap.size_put_of_new hnew]
  omega

theorem defined_of_put {found : NameSet} {used : String}
    (hd : ∀ x, found.contains x = true → types.contains x = true) :
    ∀ x, (found.put used ()).contains x = true → x = used ∨ types.contains x = true :=
  fun x hx => ((KeyMap.contains_put found used () x).mp hx).imp id (hd x)

/-! ### The walk -/

/-- The walk's step for one field. -/
def visit (types : TypeSchema) (n : Nat) (found : NameSet) (f : Field) :
    Except CryptoError NameSet := do
  match (← typeOf f).structName? with
  | none => return found
  | some used =>
    if found.contains used then return found
    else collect types n used (found.put used ())

/-- The type of the field refers to this struct. -/
def Uses (f : Field) (used : String) : Prop := ∃ t, typeOf f = .ok t ∧ t.structName? = some used

section Visit

variable {n : Nat} {f : Field} {t : FieldType} {used : String} {found : NameSet}

theorem visit_untyped {e : CryptoError} (h : typeOf f = .error e) :
    visit types n found f = .error e := by
  rw [visit, h]
  rfl

theorem visit_typed (h : typeOf f = .ok t) : visit types n found f =
    match t.structName? with
    | none => .ok found
    | some used =>
      if found.contains used then .ok found else collect types n used (found.put used ()) := by
  rw [visit, h]
  rfl

theorem visit_plain (h : typeOf f = .ok t) (hs : t.structName? = none) :
    visit types n found f = .ok found := by
  rw [visit_typed h, hs]

theorem visit_seen (h : Uses f used) (hc : found.contains used = true) :
    visit types n found f = .ok found := by
  obtain ⟨t, ht, hs⟩ := h
  rw [visit_typed ht, hs]
  exact if_pos hc

theorem visit_new (h : Uses f used) (hc : found.contains used = false) :
    visit types n found f = collect types n used (found.put used ()) := by
  obtain ⟨t, ht, hs⟩ := h
  rw [visit_typed ht, hs]
  exact if_neg (Bool.not_eq_true _ ▸ hc)

end Visit

theorem collect_succ (n : Nat) (name : String) (found : NameSet) :
    collect types (n + 1) name found =
      (do (← types.fieldsOf name).foldlM (visit types n) found) := rfl

/-- What holds of a walk that starts at a name, with so many steps left. -/
def CollectSpec (types : TypeSchema) (n : Nat) : Prop :=
  ∀ name found found', types.size + 2 ≤ n + found.size →
    (∀ x, found.contains x = true → x = name ∨ types.contains x = true) →
    collect types n name found = .ok found' →
    Grows types name found found' ∧ Explored types found' name

theorem visit_spec {n : Nat} (ih : CollectSpec types n) {name : String} {fields : List Field}
    (hg : types.get? name = some fields) {f : Field} (hf : f ∈ fields) {found found' : NameSet}
    (hsize : types.size + 2 ≤ n + 1 + found.size)
    (hd : ∀ x, found.contains x = true → types.contains x = true)
    (h : visit types n found f = .ok found') :
    Grows types name found found' ∧ Covers found' f := by
  cases ht : typeOf f with
  | error e =>
    rw [visit_untyped ht] at h
    cases h
  | ok t =>
    have ht' := typeOf_eq_ok_iff.mp ht
    cases hs : t.structName? with
    | none =>
      rw [visit_plain ht hs] at h
      cases h
      exact ⟨Grows.refl name found, t, ht', fun used hu => by rw [hs] at hu; cases hu⟩
    | some used =>
      have hcovers : found'.contains used = true → Covers found' f := fun hin =>
        ⟨t, ht', fun used' hu => Option.some.inj (hs.symm.trans hu) ▸ hin⟩
      by_cases hc : found.contains used = true
      · rw [visit_seen ⟨t, ht, hs⟩ hc] at h
        cases h
        exact ⟨Grows.refl name found, hcovers hc⟩
      · have hnew : found.contains used = false := Bool.eq_false_iff.mpr hc
        rw [visit_new ⟨t, ht, hs⟩ hnew] at h
        obtain ⟨hgrow, he⟩ := ih used _ found' (room_of_put hnew hsize) (defined_of_put hd) h
        exact ⟨hgrow.of_put ⟨fields, f, t, hg, hf, ht', hs⟩ hnew he,
          hcovers (hgrow.le used ((KeyMap.contains_put found used () used).mpr (Or.inl rfl)))⟩

theorem foldlM_visit_spec {n : Nat} (ih : CollectSpec types n) {name : String}
    {fields : List Field} (hg : types.get? name = some fields) :
    ∀ (fs : List Field) (found found' : NameSet), (∀ f ∈ fs, f ∈ fields) →
      types.size + 2 ≤ n + 1 + found.size →
      (∀ x, found.contains x = true → types.contains x = true) →
      fs.foldlM (visit types n) found = .ok found' →
      Grows types name found found' ∧ ∀ f ∈ fs, Covers found' f
  | [], found, found', _, _, _, h => by
    obtain rfl := pure_eq_ok_iff.mp h
    exact ⟨Grows.refl name found, by simp⟩
  | f :: fs, found, found', hfs, hsize, hd, h => by
    rw [List.foldlM_cons] at h
    obtain ⟨mid, hmid, h⟩ := bind_eq_ok_iff.mp h
    obtain ⟨hgrow, hcov⟩ := visit_spec ih hg (hfs f List.mem_cons_self) hsize hd hmid
    have hsize' : types.size + 2 ≤ n + 1 + mid.size := le_trans hsize (by have := hgrow.size_le; omega)
    obtain ⟨hgrow', hcov'⟩ := foldlM_visit_spec ih hg fs mid found'
      (fun g hm => hfs g (List.mem_cons_of_mem _ hm)) hsize' (hgrow.defined hd) h
    refine ⟨hgrow.trans hgrow', fun g hm => ?_⟩
    rcases List.mem_cons.mp hm with rfl | hm
    · exact hcov.mono hgrow'.le
    · exact hcov' g hm

theorem collect_spec (types : TypeSchema) : ∀ n, CollectSpec types n
  | 0 => fun name found found' hsize hd _ => by
    have := size_le_of_defined hd
    omega
  | n + 1 => fun name found found' hsize hd h => by
    rw [collect_succ] at h
    obtain ⟨fields, hg, h⟩ := bind_eq_ok_iff.mp h
    rw [fieldsOf_eq_ok_iff] at hg
    have hname : types.contains name = true := KeyMap.contains_iff.mpr ⟨fields, hg⟩
    have hd' : ∀ x, found.contains x = true → types.contains x = true := by
      intro x hx
      rcases hd x hx with rfl | hx
      · exact hname
      · exact hx
    obtain ⟨hgrow, hcov⟩ := foldlM_visit_spec (collect_spec types n) hg fields found found'
      (fun _ hm => hm) hsize hd' h
    exact ⟨hgrow, fields, hg, hcov⟩

/-! ### What is found -/

theorem references_spec {name : String} {found : NameSet} (h : types.references name = .ok found) :
    Grows types name KeyMap.empty found ∧ Explored types found name :=
  collect_spec types _ name KeyMap.empty found (le_refl _) (fun x hx => by cases hx) h

theorem reaches_of_references {name x : String} {found : NameSet}
    (h : types.references name = .ok found) (hx : found.contains x = true) :
    Reaches types name x ∧ Explored types found x := by
  rcases (references_spec h).1.new x hx with he | hn
  · cases he
  · exact hn

/-- **The walk finds exactly the structs that a struct reaches.** -/
theorem contains_references {name x : String} {found : NameSet}
    (h : types.references name = .ok found) :
    found.contains x = true ↔ Reaches types name x := by
  refine ⟨fun hx => (reaches_of_references h hx).1, fun hr => ?_⟩
  induction hr with
  | single hr => exact (references_spec h).2.contains_of_refers hr
  | tail _ hr ih => exact (reaches_of_references h ih).2.contains_of_refers hr

/-- **Every struct that the walk finds is defined.** -/
theorem defined_of_references {name x : String} {found : NameSet}
    (h : types.references name = .ok found) (hx : found.contains x = true) :
    types.contains x = true := (reaches_of_references h hx).2.defined

/-! ### Where the walk succeeds -/

/-- The struct and all that it reaches are defined, and the types of their fields can be read. -/
def IsClosed (types : TypeSchema) (name : String) : Prop :=
  ∀ x, Below types name x → ∃ fields, types.get? x = some fields ∧
    ∀ f ∈ fields, ∃ t, FieldType.ofText? f.typeName = some t

theorem IsClosed.defined {name : String} (h : IsClosed types name) :
    types.contains name = true := by
  obtain ⟨fields, hg, -⟩ := h name Relation.ReflTransGen.refl
  exact KeyMap.contains_iff.mpr ⟨fields, hg⟩

theorem IsClosed.of_refers {name used : String} (h : IsClosed types name)
    (hr : Refers types name used) : IsClosed types used :=
  fun x hx => h x (Relation.ReflTransGen.head hr hx)

theorem IsClosed.typeOf {name : String} {fields : List Field} (h : IsClosed types name)
    (hg : types.get? name = some fields) {f : Field} (hf : f ∈ fields) :
    ∃ t, typeOf f = .ok t := by
  obtain ⟨fields', hg', ht⟩ := h name Relation.ReflTransGen.refl
  obtain rfl : fields = fields' := Option.some.inj (hg.symm.trans hg')
  obtain ⟨t, ht⟩ := ht f hf
  exact ⟨t, typeOf_eq_ok_iff.mpr ht⟩

/-- What the walk succeeds on has no gaps. -/
theorem isClosed_of_references {name : String} {found : NameSet}
    (h : types.references name = .ok found) : IsClosed types name := by
  intro x hx
  have he : Explored types found x := by
    rcases Relation.reflTransGen_iff_eq_or_transGen.mp hx with rfl | hr
    · exact (references_spec h).2
    · exact (reaches_of_references h ((contains_references h).mpr hr)).2
  obtain ⟨fields, hg, hf⟩ := he
  exact ⟨fields, hg, fun f hm => (hf f hm).imp fun t ht => ht.1⟩

theorem visit_of_closed {n : Nat} {fields : List Field} {name : String} (hc : IsClosed types name)
    (hg : types.get? name = some fields)
    (ih : ∀ used found, IsClosed types used → ∃ found', collect types n used found = .ok found')
    {f : Field} (hf : f ∈ fields) (found : NameSet) :
    ∃ found', visit types n found f = .ok found' := by
  obtain ⟨t, ht⟩ := hc.typeOf hg hf
  cases hs : t.structName? with
  | none => exact ⟨found, visit_plain ht hs⟩
  | some used =>
    by_cases hin : found.contains used = true
    · exact ⟨found, visit_seen ⟨t, ht, hs⟩ hin⟩
    · rw [visit_new ⟨t, ht, hs⟩ (Bool.eq_false_iff.mpr hin)]
      exact ih used _ (hc.of_refers ⟨fields, f, t, hg, hf, typeOf_eq_ok_iff.mp ht, hs⟩)

theorem foldlM_visit_of_closed {n : Nat} {fields : List Field} {name : String}
    (hc : IsClosed types name) (hg : types.get? name = some fields)
    (ih : ∀ used found, IsClosed types used → ∃ found', collect types n used found = .ok found') :
    ∀ (fs : List Field) (found : NameSet), (∀ f ∈ fs, f ∈ fields) →
      ∃ found', fs.foldlM (visit types n) found = .ok found'
  | [], found, _ => ⟨found, rfl⟩
  | f :: fs, found, hfs => by
    obtain ⟨mid, hmid⟩ := visit_of_closed hc hg ih (hfs f List.mem_cons_self) found
    obtain ⟨found', h⟩ := foldlM_visit_of_closed hc hg ih fs mid
      fun g hm => hfs g (List.mem_cons_of_mem _ hm)
    refine ⟨found', ?_⟩
    rw [List.foldlM_cons]
    exact bind_eq_ok_iff.mpr ⟨mid, hmid, h⟩

theorem collect_of_closed (types : TypeSchema) : ∀ n name found, IsClosed types name →
    ∃ found', collect types n name found = .ok found'
  | 0, _, found, _ => ⟨found, rfl⟩
  | n + 1, name, found, hc => by
    obtain ⟨fields, hg⟩ := KeyMap.contains_iff.mp hc.defined
    obtain ⟨found', h⟩ := foldlM_visit_of_closed hc hg (collect_of_closed types n) fields found
      fun _ hm => hm
    refine ⟨found', ?_⟩
    rw [collect_succ]
    exact bind_eq_ok_iff.mpr ⟨fields, fieldsOf_eq_ok_iff.mpr hg, h⟩

/-- **The walk succeeds exactly from the structs that have no gaps below them.** -/
theorem exists_references_iff {name : String} :
    (∃ found, types.references name = .ok found) ↔ IsClosed types name :=
  ⟨fun ⟨_, h⟩ => isClosed_of_references h, collect_of_closed types _ name _⟩

/-! ### Schemas without gaps -/

/-- Every field of the schema has a type, and every struct that one refers to is defined. -/
def Complete (types : TypeSchema) : Prop :=
  ∀ name fields, types.get? name = some fields → ∀ f ∈ fields, ∃ t,
    FieldType.ofText? f.typeName = some t ∧
      ∀ used, t.structName? = some used → types.contains used = true

theorem Complete.defined_of_below (hc : types.Complete) {name x : String}
    (hname : types.contains name = true) (hx : Below types name x) : types.contains x = true := by
  induction hx with
  | refl => exact hname
  | tail _ hr _ =>
    obtain ⟨fields, f, t, hg, hf, ht, hs⟩ := hr
    obtain ⟨t', ht', hu⟩ := hc _ fields hg f hf
    obtain rfl : t = t' := Option.some.inj (ht.symm.trans ht')
    exact hu _ hs

/-- In a schema without gaps there are none below any of its structs. -/
theorem Complete.isClosed (hc : types.Complete) {name : String}
    (hname : types.contains name = true) : IsClosed types name := by
  intro x hx
  obtain ⟨fields, hg⟩ := KeyMap.contains_iff.mp (hc.defined_of_below hname hx)
  exact ⟨fields, hg, fun f hf => (hc x fields hg f hf).imp fun t ht => ht.1⟩

end TypeSchema

end DocumentProof
