import DocumentProof.Json.Canonical
import DocumentProof.Proofs.Json.Structure
import DocumentProof.Proofs.Keyed

/-!
# Values with a canonical text

A value has a canonical text exactly when every number in it is an integer
(`exists_canonical_iff`). So has an object that lacks one of its members (`exists_canonicalWithout`,
`exists_canonicalWithout_iff`) and one that is put together from members (`whole_ofMembers`).
-/

namespace DocumentProof

namespace Number

/-- An integer of one word. -/
def IsWhole (n : Number) : Prop := ∀ x, n ≠ .double x

end Number

namespace Json

/-- Every number in the value is an integer. -/
def IsWhole (x : Json) : Prop := ∀ n ∈ x.numbers, n.IsWhole

/-! ### Parts -/

theorem whole_array_iff {xs : List Json} : (array xs).IsWhole ↔ ∀ x ∈ xs, x.IsWhole := by
  constructor
  · intro h x hx n hn
    exact h n (mem_numbersItems.mpr ⟨x, hx, hn⟩)
  · intro h n hn
    obtain ⟨x, hx, hn⟩ := mem_numbersItems.mp hn
    exact h x hx n hn

theorem whole_object_iff {ms : List (String × Json)} :
    (object ms).IsWhole ↔ ∀ m ∈ ms, m.2.IsWhole := by
  constructor
  · intro h m hm n hn
    exact h n (mem_numbersMembers.mpr ⟨m, hm, hn⟩)
  · intro h n hn
    obtain ⟨m, hm, hn⟩ := mem_numbersMembers.mp hn
    exact h m hm n hn

theorem whole_string (s : String) : (string s).IsWhole := List.forall_mem_nil _

theorem whole_ofNat (n : Nat) : (Json.ofNat n).IsWhole := by
  unfold Json.ofNat Number.ofInt?
  split
  · refine List.forall_mem_singleton.mpr fun x h => ?_
    cases h
  · exact List.forall_mem_nil _

theorem whole_ofMembers {ms : List (String × Json)} (h : ∀ m ∈ ms, m.2.IsWhole) :
    (ofMembers ms).IsWhole :=
  whole_object_iff.mpr fun m hm => h m (Keyed.mem_of_mem_ofList hm)

/-! ### The walk for other numbers -/

theorem firstDoubleItems?_eq_none_iff : ∀ {l : List Json},
    firstDoubleItems? l = none ↔ ∀ x ∈ l, x.firstDouble? = none
  | [] => by simp [firstDoubleItems?]
  | x :: xs => by simp [firstDoubleItems?, firstDoubleItems?_eq_none_iff (l := xs)]

theorem firstDoubleMembers?_eq_none_iff : ∀ {l : List (String × Json)},
    firstDoubleMembers? l = none ↔ ∀ m ∈ l, m.2.firstDouble? = none
  | [] => by simp [firstDoubleMembers?]
  | (k, x) :: ms => by simp [firstDoubleMembers?, firstDoubleMembers?_eq_none_iff (l := ms)]

theorem firstDouble?_eq_none_iff {x : Json} : x.firstDouble? = none ↔ x.IsWhole := by
  induction x using induction with
  | number n =>
    cases n with
    | whole m lower upper => simp [firstDouble?, IsWhole, numbers, Number.IsWhole]
    | double d => simp [firstDouble?, IsWhole, numbers, Number.IsWhole]
  | array xs ih =>
    rw [firstDouble?, firstDoubleItems?_eq_none_iff, whole_array_iff]
    exact forall₂_congr ih
  | object ms ih =>
    rw [firstDouble?, firstDoubleMembers?_eq_none_iff, whole_object_iff]
    exact forall₂_congr ih
  | _ => exact iff_of_true rfl (List.forall_mem_nil _)

/-- **A value has a canonical text exactly when all its numbers are integers.** -/
theorem exists_canonical_iff {x : Json} : (∃ text, x.canonical = .ok text) ↔ x.IsWhole := by
  rw [← firstDouble?_eq_none_iff]
  unfold canonical
  cases x.firstDouble? with
  | none => simp
  | some d => simp

theorem exists_canonicalWithout {x : Json} (h : x.IsWhole) (key : String) :
    ∃ text, x.canonicalWithout key = .ok text := by
  cases x with
  | object ms =>
    refine exists_canonical_iff.mpr (whole_object_iff.mpr fun m hm => ?_)
    exact whole_object_iff.mp h m (List.mem_of_mem_filter hm)
  | _ => exact exists_canonical_iff.mpr h

/-- **An object without one of its members has a canonical text** exactly when all numbers under the
other keys are integers. -/
theorem exists_canonicalWithout_iff {ms : List (String × Json)} (hi : Keyed.Increasing ms)
    {key : String} : (∃ text, (object ms).canonicalWithout key = .ok text) ↔
      ∀ k x, (object ms).get? k = some x → k ≠ key → x.IsWhole := by
  refine exists_canonical_iff.trans (whole_object_iff.trans ?_)
  constructor
  · intro h k x hx hk
    exact h (k, x) (List.mem_filter.mpr ⟨Keyed.mem_of_get? hx, decide_eq_true hk⟩)
  · rintro h ⟨k, x⟩ hm
    obtain ⟨hm, hk⟩ := List.mem_filter.mp hm
    exact h k x ((Keyed.mem_iff_get? hi).mp hm) (of_decide_eq_true hk)

end Json

end DocumentProof
