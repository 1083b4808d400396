import DocumentProof.Proofs.TypedData.TypeText

/-!
# The walk over a schema ends

`Walks` is the walk over the fields of a struct and of those that it refers to, with its errors and
with no bound on its steps. It has one result from every start, which the walk of a bounded number
of steps finds (`walks_iff`): the steps never run out. So whether a struct has a text is decided for
every schema, whatever its cycles. There is one exactly if the struct and all that it reaches have
definitions that can be read, and it is made of these definitions, each once (`encodeType_exact`).
-/

namespace DocumentProof

namespace TypeSchema

variable {types : TypeSchema}

/-! ### The walk without a bound -/

/-- From a set of names, the walk over these fields ends with this result. A struct that is new to
the set is added to it before its own fields are walked over. -/
inductive Walks (types : TypeSchema) :
    List Field → NameSet → Except CryptoError NameSet → Prop
  | done (found : NameSet) : Walks types [] found (.ok found)
  | untyped {f : Field} {e : CryptoError} (fs : List Field) (found : NameSet)
      (type : typeOf f = .error e) : Walks types (f :: fs) found (.error e)
  | plain {f : Field} {t : FieldType} {fs : List Field} {found : NameSet}
      {r : Except CryptoError NameSet} (type : typeOf f = .ok t) (plain : t.structName? = none)
      (rest : Walks types fs found r) : Walks types (f :: fs) found r
  | seen {f : Field} {used : String} {fs : List Field} {found : NameSet}
      {r : Except CryptoError NameSet} (uses : Uses f used) (old : found.contains used = true)
      (rest : Walks types fs found r) : Walks types (f :: fs) found r
  | undefined {f : Field} {used : String} {found : NameSet} (fs : List Field) (uses : Uses f used)
      (new : found.contains used = false) (absent : types.get? used = none) :
      Walks types (f :: fs) found (.error (.unknownType used))
  | failed {f : Field} {used : String} {inner : List Field} {found : NameSet} {e : CryptoError}
      (fs : List Field) (uses : Uses f used) (new : found.contains used = false)
      (present : types.get? used = some inner)
      (below : Walks types inner (found.put used ()) (.error e)) :
      Walks types (f :: fs) found (.error e)
  | entered {f : Field} {used : String} {inner fs : List Field} {found mid : NameSet}
      {r : Except CryptoError NameSet} (uses : Uses f used) (new : found.contains used = false)
      (present : types.get? used = some inner)
      (below : Walks types inner (found.put used ()) (.ok mid)) (rest : Walks types fs mid r) :
      Walks types (f :: fs) found r

theorem Uses.unique {f : Field} {used used' : String} (h : Uses f used) (h' : Uses f used') :
    used = used' := by
  obtain ⟨t, ht, hs⟩ := h
  obtain ⟨t', ht', hs'⟩ := h'
  cases ht.symm.trans ht'
  exact Option.some.inj (hs.symm.trans hs')

theorem Uses.not_error {f : Field} {used : String} {e : CryptoError} (h : Uses f used)
    (he : typeOf f = .error e) : False := by
  obtain ⟨t, ht, -⟩ := h
  cases ht.symm.trans he

theorem Uses.not_plain {f : Field} {used : String} {t : FieldType} (h : Uses f used)
    (ht : typeOf f = .ok t) (hs : t.structName? = none) : False := by
  obtain ⟨t', ht', hs'⟩ := h
  cases ht.symm.trans ht'
  cases hs.symm.trans hs'

/-- The walk has one result. -/
theorem Walks.unique {fs : List Field} {found : NameSet} {r r' : Except CryptoError NameSet}
    (h : Walks types fs found r) (h' : Walks types fs found r') : r = r' := by
  induction h generalizing r'
  -- each pair of rules that do not agree on the first field is excluded by one of these facts
  all_goals cases h'
  all_goals grind [Uses.unique, Uses.not_error, Uses.not_plain]

/-! ### The bound is not met -/

/-- What a walk that starts at a name finds with so many steps left is the result of the walk
without a bound. -/
def CollectWalks (types : TypeSchema) (n : Nat) : Prop :=
  ∀ name fields found, types.size + 2 ≤ n + found.size →
    (∀ x, found.contains x = true → x = name ∨ types.contains x = true) →
    types.get? name = some fields → Walks types fields found (collect types n name found)

theorem collect_of_undefined {n : Nat} {used : String} (found : NameSet)
    (h : types.get? used = none) :
    collect types (n + 1) used found = .error (.unknownType used) := by
  rw [collect_succ, fieldsOf, h]
  rfl

/-- The step for a field that refers to a struct that is new. -/
theorem walks_new {n : Nat} {f : Field} {used : String} {fs : List Field} {found : NameSet}
    (ih : CollectWalks types n) (hu : Uses f used) (hnew : found.contains used = false)
    (hsize : types.size + 2 ≤ n + 1 + found.size)
    (hd : ∀ x, found.contains x = true → types.contains x = true)
    (hrest : ∀ mid, visit types n found f = .ok mid →
      Walks types fs mid (fs.foldlM (visit types n) mid)) :
    Walks types (f :: fs) found ((f :: fs).foldlM (visit types n) found) := by
  have hsize' := room_of_put hnew hsize
  have hd' : ∀ x, (found.put used ()).contains x = true → x = used ∨ types.contains x = true :=
    defined_of_put hd
  rw [List.foldlM_cons]
  rw [visit_new hu hnew] at hrest ⊢
  cases hg : types.get? used with
  | none =>
    -- there is a step left to find this out
    obtain ⟨m, rfl⟩ : ∃ m, n = m + 1 := Nat.exists_eq_succ_of_ne_zero (by
      have := size_le_of_defined hd'
      omega)
    rw [collect_of_undefined _ hg]
    exact .undefined fs hu hnew hg
  | some inner =>
    have hbelow := ih used inner _ hsize' hd' hg
    cases hr : collect types n used (found.put used ()) with
    | error e => exact .failed fs hu hnew hg (hr ▸ hbelow)
    | ok mid => exact .entered hu hnew hg (hr ▸ hbelow) (hrest mid hr)

theorem walks_foldlM {n : Nat} (ih : CollectWalks types n) {name : String} {fields : List Field}
    (hg : types.get? name = some fields) : ∀ (fs : List Field) (found : NameSet),
      (∀ f ∈ fs, f ∈ fields) → types.size + 2 ≤ n + 1 + found.size →
      (∀ x, found.contains x = true → types.contains x = true) →
      Walks types fs found (fs.foldlM (visit types n) found)
  | [], found, _, _, _ => .done found
  | f :: fs, found, hfs, hsize, hd => by
    have hrest : ∀ mid, visit types n found f = .ok mid →
        Walks types fs mid (fs.foldlM (visit types n) mid) := fun mid hmid => by
      obtain ⟨hgrow, -⟩ :=
        visit_spec (collect_spec types n) hg (hfs f List.mem_cons_self) hsize hd hmid
      exact walks_foldlM ih hg fs mid (fun g hm => hfs g (List.mem_cons_of_mem _ hm))
        (le_trans hsize (by have := hgrow.size_le; omega)) (hgrow.defined hd)
    cases ht : typeOf f with
    | error e =>
      rw [List.foldlM_cons, visit_untyped ht]
      exact .untyped fs found ht
    | ok t =>
      cases hs : t.structName? with
      | none =>
        rw [List.foldlM_cons, visit_plain ht hs]
        exact .plain ht hs (hrest found (visit_plain ht hs))
      | some used =>
        have hu : Uses f used := ⟨t, ht, hs⟩
        by_cases hin : found.contains used = true
        · rw [List.foldlM_cons, visit_seen hu hin]
          exact .seen hu hin (hrest found (visit_seen hu hin))
        · exact walks_new ih hu (Bool.eq_false_iff.mpr hin) hsize hd hrest

theorem collectWalks (types : TypeSchema) : ∀ n, CollectWalks types n
  | 0 => fun name fields found hsize hd _ => by
    have := size_le_of_defined hd
    omega
  | n + 1 => fun name fields found hsize hd hg => by
    have hname : types.contains name = true := KeyMap.contains_iff.mpr ⟨fields, hg⟩
    have hd' : ∀ x, found.contains x = true → types.contains x = true := fun x hx =>
      (hd x hx).elim (fun he => he ▸ hname) id
    rw [collect_succ, fieldsOf_eq_ok_iff.mpr hg]
    exact walks_foldlM (collectWalks types n) hg fields found (fun _ hm => hm) hsize hd'

/-- **The walk from a struct ends, with what the bounded walk finds and with nothing else.** -/
theorem walks_iff {name : String} {fields : List Field} (hg : types.get? name = some fields)
    (r : Except CryptoError NameSet) :
    Walks types fields KeyMap.empty r ↔ r = types.references name := by
  have hwalk :=
    collectWalks types _ name fields KeyMap.empty (le_refl _) (fun x hx => by cases hx) hg
  exact ⟨fun h => h.unique hwalk, fun h => h ▸ hwalk⟩

/-! ### The text of a struct -/

variable {name text : String}

/-- The structs of a set other than this one, with their fields. -/
def others (types : TypeSchema) (name : String) (found : NameSet) : List Definition :=
  (found.remove name).keys.map fun x => (x, types.definition x)

theorem names_others (name : String) (found : NameSet) :
    (types.others name found).map (·.1) = (found.remove name).keys := by
  rw [others, List.map_map]
  exact List.map_id _

/-- Their names increase, so each is listed once. -/
theorem increasing_others (name : String) (found : NameSet) :
    ((types.others name found).map (·.1)).Pairwise (· < ·) := by
  rw [names_others]
  exact List.pairwise_map.mpr (found.remove name).increasing

theorem mem_others_iff {found : NameSet} (hfound : types.references name = .ok found)
    (d : Definition) : d ∈ types.others name found ↔
      d.1 ≠ name ∧ Reaches types name d.1 ∧ types.get? d.1 = some d.2 := by
  have hdef : ∀ x, Reaches types name x → types.get? x = some (types.definition x) :=
    fun x hr => get?_of_below hfound hr.to_reflTransGen
  rw [others, List.mem_map]
  constructor
  · rintro ⟨x, hx, rfl⟩
    obtain ⟨hne, hr⟩ := (mem_keys_remove_iff hfound x).mp hx
    exact ⟨hne, hr, hdef x hr⟩
  · rintro ⟨hne, hr, hd⟩
    refine ⟨d.1, (mem_keys_remove_iff hfound d.1).mpr ⟨hne, hr⟩, Prod.ext rfl ?_⟩
    exact Option.some.inj ((hdef d.1 hr).symm.trans hd)

/-- **The text of a struct is found for every schema, and is exact.** The walk for it ends, from
every struct. There is a text exactly if the struct and all that it reaches are defined and the
types of their fields can be read. Then it is the struct's definition and, by increasing name, those
of all other structs that it reaches. -/
theorem encodeType_exact (types : TypeSchema) (name : String) :
    (∀ fields, types.get? name = some fields →
      ∀ r, Walks types fields KeyMap.empty r ↔ r = types.references name) ∧
    ((∃ text, types.encodeType name = .ok text) ↔ IsClosed types name) ∧
    ∀ text, types.encodeType name = .ok text →
      ∃ fields others, types.get? name = some fields ∧
        (others.map (·.1)).Pairwise (· < ·) ∧
        (∀ d : Definition, d ∈ others ↔
          d.1 ≠ name ∧ Reaches types name d.1 ∧ types.get? d.1 = some d.2) ∧
        text = renderAll ((name, fields) :: others) := by
  refine ⟨fun fields hg r => walks_iff hg r, exists_encodeType_iff, fun text h => ?_⟩
  obtain ⟨found, hfound, htext⟩ := encodeType_eq_listing h
  exact ⟨types.definition name, types.others name found,
    get?_of_below hfound Relation.ReflTransGen.refl, increasing_others name found,
    mem_others_iff hfound, htext⟩

/-- A struct that refers to itself is walked over and listed once. -/
example :
    let types : TypeSchema := KeyMap.ofList [("Node", [⟨"children", "Node[]"⟩, ⟨"next", "Leaf"⟩]),
      ("Leaf", [⟨"root", "Node[][2]"⟩])]
    types.encodeType "Node" = .ok "Node(Node[] children,Leaf next)Leaf(Node[][2] root)" := by
  decide +kernel

end TypeSchema

end DocumentProof
