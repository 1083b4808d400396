import DocumentProof.Proofs.Json.Structure
import DocumentProof.Proofs.Keyed

/-!
# Members in any order

Whoever writes a document gives the members of its objects in any order; where it is read, each
object is put together from the members given (`arranged`). The value has its keys in order
(`sorted_arranged`), a value with keys in order is its own (`arranged_of_sorted`), and what is
written with members in another order is the same value (`arranged_eq_of_reordered`). A `Document` is
such a value together with its order.
-/

namespace DocumentProof

namespace Json

mutual

/-- The value of what is written with the members of each object in any order. -/
def arranged : Json → Json
  | array xs => array (arrangedItems xs)
  | object ms => ofMembers (arrangedMembers ms)
  | x => x

def arrangedItems : List Json → List Json
  | [] => []
  | x :: xs => x.arranged :: arrangedItems xs

def arrangedMembers : List (String × Json) → List (String × Json)
  | [] => []
  | (k, x) :: ms => (k, x.arranged) :: arrangedMembers ms

end

theorem arrangedItems_eq_map : ∀ xs : List Json, arrangedItems xs = xs.map arranged
  | [] => rfl
  | x :: xs => by rw [arrangedItems, arrangedItems_eq_map xs, List.map_cons]

theorem arrangedMembers_eq_map : ∀ ms : List (String × Json),
    arrangedMembers ms = ms.map fun m => (m.1, m.2.arranged)
  | [] => rfl
  | (k, x) :: ms => by rw [arrangedMembers, arrangedMembers_eq_map ms, List.map_cons]

theorem keys_arrangedMembers (ms : List (String × Json)) :
    (arrangedMembers ms).map (·.1) = ms.map (·.1) := by
  rw [arrangedMembers_eq_map, List.map_map]
  rfl

/-! ### Keys in order -/

theorem sorted_ofMembers {ms : List (String × Json)} (h : ∀ m ∈ ms, m.2.Sorted) :
    (ofMembers ms).Sorted :=
  ⟨Keyed.increasing_ofList ms,
    sortedMembers_iff.mpr fun m hm => h m (Keyed.mem_of_mem_ofList hm)⟩

/-- **What is read has its keys in order.** -/
theorem sorted_arranged (x : Json) : x.arranged.Sorted := by
  induction x using induction with
  | array xs ih =>
    rw [arranged, arrangedItems_eq_map]
    refine sortedItems_iff.mpr fun y hy => ?_
    obtain ⟨x, hx, rfl⟩ := List.mem_map.mp hy
    exact ih x hx
  | object ms ih =>
    rw [arranged, arrangedMembers_eq_map]
    refine sorted_ofMembers fun n hn => ?_
    obtain ⟨m, hm, rfl⟩ := List.mem_map.mp hn
    exact ih m hm
  | _ => trivial

/-- **A value with its keys in order is read as itself.** -/
theorem arranged_of_sorted {x : Json} : x.Sorted → x.arranged = x := by
  induction x using induction with
  | array xs ih =>
    intro h
    have hxs : xs.map arranged = xs :=
      (List.map_congr_left fun x hx => ih x hx (sortedItems_iff.mp h x hx)).trans (List.map_id xs)
    rw [arranged, arrangedItems_eq_map, hxs]
  | object ms ih =>
    intro h
    obtain ⟨hi, hms⟩ := sorted_object h
    have hsame : ∀ m ∈ ms, (m.1, m.2.arranged) = id m := fun m hm =>
      Prod.ext rfl (ih m hm (hms m hm))
    rw [arranged, arrangedMembers_eq_map, List.map_congr_left hsame, List.map_id, ofMembers,
      Keyed.ofList_of_increasing hi]
  | _ => exact fun _ => rfl

/-- Whether a value has its keys in order is told by reading it. -/
theorem sorted_iff_arranged_eq {x : Json} : x.Sorted ↔ x.arranged = x :=
  ⟨arranged_of_sorted, fun h => h ▸ sorted_arranged x⟩

instance (x : Json) : Decidable x.Sorted := decidable_of_iff _ sorted_iff_arranged_eq.symm

/-! ### Other orders -/

mutual

/-- The same, but for the order of the members of objects. Each object has its keys once. -/
def Reordered : Json → Json → Prop
  | array xs, y => ∃ ys, y = array ys ∧ ReorderedItems xs ys
  | object ms, y =>
    ∃ ns ns', y = object ns' ∧ ReorderedMembers ms ns ∧ ns.Perm ns' ∧ (ms.map (·.1)).Nodup
  | x, y => y = x

def ReorderedItems : List Json → List Json → Prop
  | [], ys => ys = []
  | x :: xs, ys => ∃ y zs, ys = y :: zs ∧ Reordered x y ∧ ReorderedItems xs zs

/-- Member for member, without a change of order at the top. -/
def ReorderedMembers : List (String × Json) → List (String × Json) → Prop
  | [], ns => ns = []
  | (k, x) :: ms, ns => ∃ y os, ns = (k, y) :: os ∧ Reordered x y ∧ ReorderedMembers ms os

end

theorem arrangedItems_eq : ∀ {xs ys : List Json},
    (∀ x ∈ xs, ∀ y, Reordered x y → x.arranged = y.arranged) → ReorderedItems xs ys →
      arrangedItems xs = arrangedItems ys
  | [], ys, _, h => by
    rw [ReorderedItems] at h
    rw [h]
  | x :: xs, ys, hxs, h => by
    obtain ⟨y, zs, rfl, hy, hzs⟩ := h
    rw [arrangedItems, arrangedItems, hxs x List.mem_cons_self y hy,
      arrangedItems_eq (fun z hz => hxs z (List.mem_cons_of_mem x hz)) hzs]

theorem arrangedMembers_eq : ∀ {ms ns : List (String × Json)},
    (∀ m ∈ ms, ∀ y, Reordered m.2 y → m.2.arranged = y.arranged) → ReorderedMembers ms ns →
      arrangedMembers ms = arrangedMembers ns
  | [], ns, _, h => by
    rw [ReorderedMembers] at h
    rw [h]
  | (k, x) :: ms, ns, hms, h => by
    obtain ⟨y, os, rfl, hy, hos⟩ := h
    rw [arrangedMembers, arrangedMembers, hms (k, x) List.mem_cons_self y hy,
      arrangedMembers_eq (fun m hm => hms m (List.mem_cons_of_mem _ hm)) hos]

/-- **What is written with members in another order is the same value.** -/
theorem arranged_eq_of_reordered {x : Json} : ∀ y, Reordered x y → x.arranged = y.arranged := by
  induction x using induction with
  | array xs ih =>
    rintro y ⟨ys, rfl, h⟩
    rw [arranged, arranged, arrangedItems_eq ih h]
  | object ms ih =>
    rintro y ⟨ns, ns', rfl, h, hperm, hnodup⟩
    have heq := arrangedMembers_eq ih h
    have hperm' : (arrangedMembers ns).Perm (arrangedMembers ns') := by
      rw [arrangedMembers_eq_map, arrangedMembers_eq_map]
      exact hperm.map _
    have hkeys : ((arrangedMembers ns).map (·.1)).Nodup := by
      rw [← heq, keys_arrangedMembers]
      exact hnodup
    rw [arranged, arranged, heq, ofMembers, ofMembers, Keyed.ofList_perm hperm' hkeys]
  | _ =>
    rintro y rfl
    rfl

end Json

/-! ### Documents -/

/-- A value with its keys in order, each key once in an object. -/
@[ext] structure Document where
  json : Json
  sorted : json.Sorted
deriving DecidableEq

end DocumentProof
