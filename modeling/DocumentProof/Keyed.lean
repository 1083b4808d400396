/-!
# Entries by key

Lists of entries with increasing keys, so that two lists with the same entries are equal. `put` and
`remove` keep the order. `KeyMap` is such a list together with its order.

Keys are compared by their characters, which for UTF-8 is the order of their bytes.
-/

namespace DocumentProof

namespace Keyed

variable {α : Type}

/-- The value under a key. -/
def get? (es : List (String × α)) (key : String) : Option α := es.lookup key

def contains (es : List (String × α)) (key : String) : Bool := (get? es key).isSome

/-- The entries with `key` bound to `value`. -/
def put (key : String) (value : α) : List (String × α) → List (String × α)
  | [] => [(key, value)]
  | (k, v) :: es =>
    if key < k then (key, value) :: (k, v) :: es
    else if key = k then (key, value) :: es
    else (k, v) :: put key value es

/-- The entries without `key`. -/
def remove (key : String) (es : List (String × α)) : List (String × α) := es.filter (·.1 ≠ key)

/-- The entries given in any order; of two with one key the later one stands. -/
def ofList (es : List (String × α)) : List (String × α) :=
  es.foldl (fun acc e => put e.1 e.2 acc) []

/-- The keys increase. -/
def Increasing (es : List (String × α)) : Prop := es.Pairwise fun a b => a.1 < b.1

theorem increasing_nil : Increasing ([] : List (String × α)) := List.Pairwise.nil

theorem mem_put {key : String} {value : α} {es : List (String × α)} {e : String × α}
    (h : e ∈ put key value es) : e = (key, value) ∨ e ∈ es := by
  induction es with
  | nil => simpa [put] using h
  | cons a es ih =>
    simp only [put] at h
    split at h
    · simpa using h
    · split at h
      · rcases List.mem_cons.1 h with h | h
        · exact Or.inl h
        · exact Or.inr (List.mem_cons_of_mem _ h)
      · rcases List.mem_cons.1 h with h | h
        · exact Or.inr (h ▸ List.mem_cons_self)
        · rcases ih h with h | h
          · exact Or.inl h
          · exact Or.inr (List.mem_cons_of_mem _ h)

theorem increasing_put {key : String} {value : α} {es : List (String × α)} (h : Increasing es) :
    Increasing (put key value es) := by
  induction es with
  | nil => simp [put, Increasing]
  | cons a es ih =>
    obtain ⟨ha, hes⟩ := List.pairwise_cons.1 h
    simp only [put]
    split
    · rename_i hlt
      refine List.pairwise_cons.2 ⟨fun e he => ?_, h⟩
      rcases List.mem_cons.1 he with rfl | he
      · exact hlt
      · exact String.lt_trans hlt (ha e he)
    · split
      · rename_i heq
        exact List.pairwise_cons.2 ⟨fun e he => heq ▸ ha e he, hes⟩
      · rename_i hlt hne
        refine List.pairwise_cons.2 ⟨fun e he => ?_, ih hes⟩
        rcases mem_put he with rfl | he
        · exact by grind
        · exact ha e he

theorem increasing_remove {key : String} {es : List (String × α)} (h : Increasing es) :
    Increasing (remove key es) := h.filter _

theorem increasing_foldl_put {es acc : List (String × α)} (h : Increasing acc) :
    Increasing (es.foldl (fun acc e => put e.1 e.2 acc) acc) := by
  induction es generalizing acc with
  | nil => exact h
  | cons e es ih => exact ih (increasing_put h)

theorem increasing_ofList (es : List (String × α)) : Increasing (ofList es) :=
  increasing_foldl_put increasing_nil

end Keyed

/-- A finite map from texts. -/
structure KeyMap (α : Type) where
  entries : List (String × α)
  increasing : Keyed.Increasing entries

namespace KeyMap

variable {α : Type}

instance [DecidableEq α] : DecidableEq (KeyMap α) := fun a b =>
  if h : a.entries = b.entries then isTrue (by cases a; cases b; simp_all)
  else isFalse (by rintro rfl; exact h rfl)

def empty : KeyMap α := ⟨[], Keyed.increasing_nil⟩

instance : Inhabited (KeyMap α) := ⟨empty⟩

def get? (m : KeyMap α) (key : String) : Option α := Keyed.get? m.entries key

def contains (m : KeyMap α) (key : String) : Bool := (m.get? key).isSome

def put (m : KeyMap α) (key : String) (value : α) : KeyMap α :=
  ⟨Keyed.put key value m.entries, Keyed.increasing_put m.increasing⟩

def remove (m : KeyMap α) (key : String) : KeyMap α :=
  ⟨Keyed.remove key m.entries, Keyed.increasing_remove m.increasing⟩

def ofList (es : List (String × α)) : KeyMap α := ⟨Keyed.ofList es, Keyed.increasing_ofList es⟩

def size (m : KeyMap α) : Nat := m.entries.length

def keys (m : KeyMap α) : List String := m.entries.map (·.1)

end KeyMap

end DocumentProof
