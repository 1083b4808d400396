import DocumentProof.Json.Basic

/-!
# Going down into a value

Induction on JSON values, with the claim at hand for every item of an array and for what stands
under every key of an object, and what it means for a whole value that its keys increase, that it is
no deeper than a bound and that it holds a number.
-/

namespace DocumentProof

namespace Json

/-- **Induction through items and members.** -/
@[elab_as_elim] theorem induction {P : Json → Prop} (null : P .null) (bool : ∀ b, P (.bool b))
    (number : ∀ n, P (.number n)) (string : ∀ s, P (.string s))
    (array : ∀ xs, (∀ x ∈ xs, P x) → P (.array xs))
    (object : ∀ ms, (∀ m ∈ ms, P m.2) → P (.object ms)) (v : Json) : P v :=
  @Json.rec P (fun xs => ∀ x ∈ xs, P x) (fun ms => ∀ m ∈ ms, P m.2) (fun m => P m.2)
    null bool number string array object
    (List.forall_mem_nil _) (fun _ _ hx hxs => List.forall_mem_cons.mpr ⟨hx, hxs⟩)
    (List.forall_mem_nil _) (fun _ _ hm hms => List.forall_mem_cons.mpr ⟨hm, hms⟩)
    (fun _ _ hx => hx) v

/-- The same in one step: what holds of a value if it holds of all its items and members holds of
every value. -/
theorem induction_of_step {P : Json → Prop}
    (step : ∀ v, (∀ xs, v = .array xs → ∀ x ∈ xs, P x) →
      (∀ ms, v = .object ms → ∀ m ∈ ms, P m.2) → P v) (v : Json) : P v := by
  induction v using induction with
  | array xs ih => exact step _ (fun _ h => by cases h; exact ih) (fun _ h => by cases h)
  | object ms ih => exact step _ (fun _ h => by cases h) (fun _ h => by cases h; exact ih)
  | _ => exact step _ (fun _ h => by cases h) (fun _ h => by cases h)

/-! ### Order of keys -/

theorem sortedItems_iff : ∀ {l : List Json}, SortedItems l ↔ ∀ x ∈ l, x.Sorted
  | [] => by simp [SortedItems]
  | x :: xs => by simp [SortedItems, sortedItems_iff (l := xs)]

theorem sortedMembers_iff : ∀ {l : List (String × Json)}, SortedMembers l ↔ ∀ m ∈ l, m.2.Sorted
  | [] => by simp [SortedMembers]
  | (k, x) :: ms => by simp [SortedMembers, sortedMembers_iff (l := ms)]

theorem sorted_object {ms : List (String × Json)} (h : (object ms).Sorted) :
    Keyed.Increasing ms ∧ ∀ m ∈ ms, m.2.Sorted := ⟨h.1, sortedMembers_iff.mp h.2⟩

theorem sorted_object_cons {key : String} {x : Json} {ms : List (String × Json)}
    (h : (object ((key, x) :: ms)).Sorted) : x.Sorted ∧ (object ms).Sorted :=
  ⟨h.2.1, (List.pairwise_cons.mp h.1).2, h.2.2⟩

/-! ### Depth -/

theorem depthItems_le_iff {n : Nat} : ∀ {l : List Json},
    depthItems l ≤ n ↔ ∀ x ∈ l, x.depth ≤ n
  | [] => by simp [depthItems]
  | x :: xs => by rw [depthItems, Nat.max_le, depthItems_le_iff, List.forall_mem_cons]

theorem depthMembers_le_iff {n : Nat} : ∀ {l : List (String × Json)},
    depthMembers l ≤ n ↔ ∀ m ∈ l, m.2.depth ≤ n
  | [] => by simp [depthMembers]
  | (k, x) :: ms => by rw [depthMembers, Nat.max_le, depthMembers_le_iff, List.forall_mem_cons]

/-! ### Numbers -/

mutual

/-- The numbers in a value, at any depth. -/
def numbers : Json → List Number
  | number n => [n]
  | array xs => numbersItems xs
  | object ms => numbersMembers ms
  | _ => []

def numbersItems : List Json → List Number
  | [] => []
  | x :: xs => x.numbers ++ numbersItems xs

def numbersMembers : List (String × Json) → List Number
  | [] => []
  | (_, x) :: ms => x.numbers ++ numbersMembers ms

end

theorem mem_numbersItems {n : Number} : ∀ {l : List Json},
    n ∈ numbersItems l ↔ ∃ x ∈ l, n ∈ x.numbers
  | [] => by simp [numbersItems]
  | x :: xs => by simp [numbersItems, mem_numbersItems (l := xs)]

theorem mem_numbersMembers {n : Number} : ∀ {l : List (String × Json)},
    n ∈ numbersMembers l ↔ ∃ m ∈ l, n ∈ m.2.numbers
  | [] => by simp [numbersMembers]
  | (k, x) :: ms => by simp [numbersMembers, mem_numbersMembers (l := ms)]

end Json

end DocumentProof
