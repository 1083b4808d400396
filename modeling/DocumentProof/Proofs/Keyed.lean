import DocumentProof.Keyed
import Mathlib.Data.List.Sort

/-!
# What is under a key

`get?` after `put` and `remove`, and the two facts that make a list with increasing keys a map: an
entry is in it exactly when it is what `get?` gives (`mem_iff_get?`), and two such lists that give
the same under every key are equal (`ext`). So entries may be given in any order (`ofList_perm`).
-/

namespace DocumentProof

namespace Keyed

variable {α β : Type}

theorem get?_cons (k : String) (v : α) (es : List (String × α)) (key : String) :
    get? ((k, v) :: es) key = if key = k then some v else get? es key := by
  unfold get?
  rw [List.lookup_cons]
  by_cases h : key = k
  · rw [if_pos h, beq_iff_eq.mpr h]
  · rw [if_neg h, beq_eq_false_iff_ne.mpr h]

theorem get?_nil (key : String) : get? ([] : List (String × α)) key = none := rfl

theorem get?_put (k : String) (v : α) (key : String) : ∀ es : List (String × α),
    get? (put k v es) key = if key = k then some v else get? es key
  | [] => get?_cons k v [] key
  | (l, w) :: es => by
    have ih := get?_put k v key es
    unfold put
    split_ifs with h1 h2 h3 h3
    all_goals simp only [get?_cons, ih]
    all_goals grind

theorem get?_remove (k key : String) : ∀ es : List (String × α),
    get? (remove k es) key = if key = k then none else get? es key
  | [] => by simp [remove, get?_nil]
  | (l, w) :: es => by
    have ih := get?_remove k key es
    unfold remove at ih ⊢
    rw [List.filter_cons]
    split_ifs with h1 h2 h2
    all_goals simp only [get?_cons, ih]
    all_goals grind

/-- The entries whose keys have a property. -/
theorem get?_filter (p : String → Bool) (key : String) : ∀ es : List (String × α),
    get? (es.filter fun e => p e.1) key = if p key then get? es key else none
  | [] => by simp [get?_nil]
  | (l, w) :: es => by
    have ih := get?_filter p key es
    rw [List.filter_cons]
    split_ifs with h1 h2 h2
    all_goals simp only [get?_cons, ih]
    all_goals grind

theorem get?_map (f : String → α → β) (key : String) : ∀ es : List (String × α),
    get? (es.map fun e => (e.1, f e.1 e.2)) key = (get? es key).map (f key)
  | [] => rfl
  | (l, w) :: es => by
    rw [List.map_cons, get?_cons, get?_cons, get?_map f key es]
    by_cases h : key = l
    · rw [if_pos h, if_pos h, h, Option.map_some]
    · rw [if_neg h, if_neg h]

theorem mem_of_get? {es : List (String × α)} {key : String} {v : α} (h : get? es key = some v) :
    (key, v) ∈ es := by
  obtain ⟨l₁, l₂, rfl, -⟩ := List.lookup_eq_some_iff.mp h
  simp

theorem get?_eq_none_iff {es : List (String × α)} {key : String} :
    get? es key = none ↔ key ∉ es.map (·.1) := by
  simp only [get?, List.lookup_eq_none_iff, List.mem_map, bne_iff_ne, ne_eq, not_exists, not_and]
  exact ⟨fun h e he hk => h e he hk.symm, fun h e he hk => h e he hk.symm⟩

/-! ### Increasing keys -/

theorem nodup_keys {es : List (String × α)} (h : Increasing es) : (es.map (·.1)).Nodup := by
  refine List.pairwise_map.mpr (h.imp fun hlt heq => ?_)
  rw [heq] at hlt
  exact String.lt_irrefl _ hlt

/-- **With increasing keys, the entries are what `get?` gives.** -/
theorem mem_iff_get? {es : List (String × α)} (h : Increasing es) {key : String} {v : α} :
    (key, v) ∈ es ↔ get? es key = some v := by
  refine ⟨fun hm => ?_, mem_of_get?⟩
  induction es with
  | nil => simp at hm
  | cons e es ih =>
    obtain ⟨hlt, hes⟩ := List.pairwise_cons.mp h
    rw [show e = (e.1, e.2) from rfl, get?_cons]
    rcases List.mem_cons.mp hm with rfl | hm
    · rw [if_pos rfl]
    · have hne : key ≠ e.1 := fun heq => String.lt_irrefl e.1 (by simpa [heq] using hlt _ hm)
      rw [if_neg hne]
      exact ih hes hm

/-- **Lists with increasing keys that give the same under every key are equal.** -/
theorem ext {es fs : List (String × α)} (he : Increasing es) (hf : Increasing fs)
    (h : ∀ key, get? es key = get? fs key) : es = fs := by
  have : Std.Irrefl fun a b : String × α => a.1 < b.1 := ⟨fun a => String.lt_irrefl a.1⟩
  have : Std.Antisymm fun a b : String × α => a.1 < b.1 :=
    ⟨fun a b hab hba => absurd hab (String.lt_asymm hba)⟩
  refine List.Pairwise.eq_of_mem_iff he hf fun e => ?_
  rw [show e = (e.1, e.2) from rfl, mem_iff_get? he, mem_iff_get? hf, h]

/-- To take off what was put on is to take off what stood there before. -/
theorem remove_put (k : String) (v : α) {es : List (String × α)} (h : Increasing es) :
    remove k (put k v es) = remove k es := by
  refine ext (increasing_remove (increasing_put h)) (increasing_remove h) fun key => ?_
  rw [get?_remove, get?_remove, get?_put]
  split_ifs <;> rfl

/-- What is put on replaces what stands there. -/
theorem put_remove (k : String) (v : α) {es : List (String × α)} (h : Increasing es) :
    put k v (remove k es) = put k v es := by
  refine ext (increasing_put (increasing_remove h)) (increasing_put h) fun key => ?_
  rw [get?_put, get?_put, get?_remove]
  split_ifs <;> rfl

theorem length_put {k : String} {v : α} : ∀ {es : List (String × α)}, get? es k = none →
    (put k v es).length = es.length + 1
  | [], _ => rfl
  | (l, w) :: es, h => by
    rw [get?_cons] at h
    have hne : k ≠ l := fun heq => by rw [if_pos heq] at h; simp at h
    rw [if_neg hne] at h
    unfold put
    rw [if_neg hne]
    split_ifs with hlt
    · rfl
    · rw [List.length_cons, length_put h, List.length_cons]

/-! ### Entries in any order -/

theorem get?_append (es fs : List (String × α)) (key : String) :
    get? (es ++ fs) key = (get? es key).or (get? fs key) := List.lookup_append

theorem get?_foldl_put (key : String) : ∀ es acc : List (String × α),
    get? (es.foldl (fun acc e => put e.1 e.2 acc) acc) key = (get? es.reverse key).or (get? acc key)
  | [], acc => rfl
  | e :: es, acc => by
    rw [List.foldl_cons, get?_foldl_put key es, get?_put, List.reverse_cons, get?_append,
      Option.or_assoc, show [e] = [(e.1, e.2)] from rfl, get?_cons, get?_nil]
    split_ifs <;> rfl

/-- Of entries with one key the last one counts. -/
theorem get?_ofList (es : List (String × α)) (key : String) :
    get? (ofList es) key = get? es.reverse key := by
  unfold ofList
  rw [get?_foldl_put, get?_nil, Option.or_none]

theorem exists_get?_of_mem {es : List (String × α)} {key : String} {v : α} (h : (key, v) ∈ es) :
    ∃ w, get? es key = some w := by
  refine Option.ne_none_iff_exists'.mp fun hnone => ?_
  exact get?_eq_none_iff.mp hnone (List.mem_map.mpr ⟨_, h, rfl⟩)

/-- **Where the entries give each key one value, they are what `get?` gives.** -/
theorem get?_ofList_eq_some_iff {es : List (String × α)} {key : String}
    (h : ∀ v w, (key, v) ∈ es → (key, w) ∈ es → v = w) {v : α} :
    get? (ofList es) key = some v ↔ (key, v) ∈ es := by
  rw [get?_ofList]
  constructor
  · intro hv
    exact List.mem_reverse.mp (mem_of_get? hv)
  · intro hv
    obtain ⟨w, hw⟩ := exists_get?_of_mem (List.mem_reverse.mpr hv)
    rw [hw, h w v (List.mem_reverse.mp (mem_of_get? hw)) hv]

theorem mem_of_mem_ofList {es : List (String × α)} {e : String × α} (h : e ∈ ofList es) : e ∈ es := by
  have hget := (mem_iff_get? (increasing_ofList es)).mp (show (e.1, e.2) ∈ ofList es from h)
  rw [get?_ofList] at hget
  exact List.mem_reverse.mp (mem_of_get? hget)

theorem value_unique {es : List (String × α)} (h : (es.map (·.1)).Nodup) (key : String) (v w : α)
    (hv : (key, v) ∈ es) (hw : (key, w) ∈ es) : v = w :=
  (Prod.mk.inj (List.inj_on_of_nodup_map h hv hw rfl)).2

theorem get?_ofList_of_nodup {es : List (String × α)} (h : (es.map (·.1)).Nodup) (key : String) :
    get? (ofList es) key = get? es key := by
  cases hes : get? es key with
  | none =>
    rw [get?_ofList, get?_eq_none_iff, List.map_reverse, List.mem_reverse]
    exact get?_eq_none_iff.mp hes
  | some v =>
    exact (get?_ofList_eq_some_iff (value_unique h key)).mpr (mem_of_get? hes)

/-- Entries that stand by increasing key stay as they are. -/
theorem ofList_of_increasing {es : List (String × α)} (h : Increasing es) : ofList es = es :=
  ext (increasing_ofList es) h fun key => get?_ofList_of_nodup (nodup_keys h) key

/-- What is made of each entry can be made before or after. -/
theorem ofList_map (f : String → α → β) (es : List (String × α)) :
    ofList (es.map fun e => (e.1, f e.1 e.2)) = (ofList es).map fun e => (e.1, f e.1 e.2) := by
  have hmap : Increasing ((ofList es).map fun e => (e.1, f e.1 e.2)) :=
    List.pairwise_map.mpr (increasing_ofList es)
  refine ext (increasing_ofList _) hmap fun key => ?_
  rw [get?_ofList, ← List.map_reverse, get?_map, get?_map, get?_ofList]

/-- **The order in which entries with different keys are given does not matter.** -/
theorem ofList_perm {es fs : List (String × α)} (hp : es.Perm fs) (h : (es.map (·.1)).Nodup) :
    ofList es = ofList fs := by
  have h' : (fs.map (·.1)).Nodup := (hp.map _).nodup_iff.mp h
  refine ext (increasing_ofList es) (increasing_ofList fs) fun key => Option.ext fun v => ?_
  rw [get?_ofList_eq_some_iff (value_unique h key), get?_ofList_eq_some_iff (value_unique h' key)]
  exact hp.mem_iff

end Keyed

namespace KeyMap

variable {α : Type}

theorem get?_put (m : KeyMap α) (k : String) (v : α) (key : String) :
    (m.put k v).get? key = if key = k then some v else m.get? key := Keyed.get?_put k v key m.entries

theorem get?_remove (m : KeyMap α) (k key : String) :
    (m.remove k).get? key = if key = k then none else m.get? key :=
  Keyed.get?_remove k key m.entries

@[ext] theorem ext {m n : KeyMap α} (h : ∀ key, m.get? key = n.get? key) : m = n := by
  cases m with | mk es he =>
  cases n with | mk fs hf =>
  have : es = fs := Keyed.ext he hf h
  subst this
  rfl

theorem contains_iff {m : KeyMap α} {key : String} :
    m.contains key = true ↔ ∃ v, m.get? key = some v := Option.isSome_iff_exists

/-- Entries left out for their key are not in the map. -/
theorem get?_ofList_filter (p : String → Bool) {key : String} (h : p key = false)
    (es : List (String × α)) : (ofList (es.filter fun e => p e.1)).get? key = none := by
  refine (Keyed.get?_ofList _ _).trans (Keyed.get?_eq_none_iff.mpr fun hmem => ?_)
  obtain ⟨e, he, rfl⟩ := List.mem_map.mp hmem
  have hkept := (List.mem_filter.mp (List.mem_reverse.mp he)).2
  rw [h] at hkept
  cases hkept

theorem contains_put (m : KeyMap α) (k : String) (v : α) (key : String) :
    (m.put k v).contains key = true ↔ key = k ∨ m.contains key = true := by
  unfold contains
  rw [get?_put]
  by_cases h : key = k <;> simp [h]

theorem contains_remove (m : KeyMap α) (k key : String) :
    (m.remove k).contains key = true ↔ key ≠ k ∧ m.contains key = true := by
  unfold contains
  rw [get?_remove]
  by_cases h : key = k <;> simp [h]

theorem mem_keys {m : KeyMap α} {key : String} : key ∈ m.keys ↔ m.contains key = true := by
  unfold contains
  rw [Option.isSome_iff_ne_none, ne_eq, get?, Keyed.get?_eq_none_iff, not_not]
  rfl

theorem nodup_keys (m : KeyMap α) : m.keys.Nodup := Keyed.nodup_keys m.increasing

theorem length_keys (m : KeyMap α) : m.keys.length = m.size := List.length_map ..

theorem size_put_of_new {m : KeyMap α} {k : String} {v : α} (h : m.contains k = false) :
    (m.put k v).size = m.size + 1 :=
  Keyed.length_put (Option.isSome_eq_false_iff.mp h |> Option.isNone_iff_eq_none.mp)

end KeyMap

end DocumentProof
