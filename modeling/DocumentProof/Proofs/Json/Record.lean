import DocumentProof.Json.Decode
import DocumentProof.Proofs.Keyed
import DocumentProof.Proofs.Outcome

/-!
# Records read back

A record is written as the list of its members, those of absent values left out, put in order by
key. What is under a key is what was listed with it (`get?_present_cons`, `get?_ofList_of_nodup`),
and a decoder that reads each value back reads the record back: the check of all members succeeds
(`checkMembers_eq_ok`), and so does the reading of each (`required_eq_ok`, `optional_eq_ok`).
-/

namespace DocumentProof

namespace Json

variable {α β : Type}

/-! ### Lists with absent members -/

theorem get?_present_cons (o : Option α) (k : String) (f : α → β)
    (rest : List (Option (String × β))) (key : String) :
    Keyed.get? (((o.map fun a => (k, f a)) :: rest).filterMap id) key =
      if key = k then (o.map f).or (Keyed.get? (rest.filterMap id) key)
      else Keyed.get? (rest.filterMap id) key := by
  cases o with
  | none => simp
  | some a =>
    have hcons : ((some (k, f a) :: rest).filterMap id) = (k, f a) :: rest.filterMap id := rfl
    rw [Option.map_some, hcons, Keyed.get?_cons]
    split_ifs
    · rfl
    · rfl

theorem map_present (g : α → β) (os : List (Option α)) :
    (os.filterMap id).map g = (os.map (Option.map g)).filterMap id := by
  rw [List.map_filterMap, List.filterMap_map]
  rfl

/-- What holds of a member that may be absent and of the rest holds of all that are there. -/
theorem forall_present_cons {P : β → Prop} {o : Option α} {f : α → β} {rest : List (Option β)}
    (ho : ∀ a, P (f a)) (hrest : ∀ b ∈ rest.filterMap id, P b) :
    ∀ b ∈ ((o.map f) :: rest).filterMap id, P b := by
  cases o with
  | none => exact hrest
  | some a => exact List.forall_mem_cons.mpr ⟨ho a, hrest⟩

theorem get?_some_cons (m : String × Json) (rest : List (Option (String × Json))) (key : String) :
    Keyed.get? ((some m :: rest).filterMap id) key =
      if key = m.1 then some m.2 else Keyed.get? (rest.filterMap id) key :=
  Keyed.get?_cons m.1 m.2 (rest.filterMap id) key

/-- The keys of the members that are there are among those of all members, in their order. -/
theorem keys_present_cons_sublist {names : List String} (o : Option α) (k : String) (f : α → Json)
    {rest : List (Option (String × Json))}
    (h : ((rest.filterMap id).map (·.1)).Sublist names) :
    ((((o.map fun a => (k, f a)) :: rest).filterMap id).map (·.1)).Sublist (k :: names) := by
  cases o with
  | none => exact h.cons k
  | some a => exact h.cons_cons k

theorem keys_some_cons_sublist {names : List String} (m : String × Json)
    {rest : List (Option (String × Json))} (h : ((rest.filterMap id).map (·.1)).Sublist names) :
    (((some m :: rest).filterMap id).map (·.1)).Sublist (m.1 :: names) := h.cons_cons m.1

/-! ### Members beside the known ones -/

section Beside

variable {known : List (String × Json)} {names : List String} {other : KeyMap Json}

/-- Under a key is what is known, else what stands beside it. -/
theorem get?_beside (hknown : (known.map (·.1)).Sublist names) (hnames : names.Nodup)
    (hother : ∀ key ∈ names, other.get? key = none) (key : String) :
    Keyed.get? (Keyed.ofList (known ++ other.entries)) key =
      (Keyed.get? known key).or (other.get? key) := by
  have hnodup : ((known ++ other.entries).map (·.1)).Nodup := by
    rw [List.map_append]
    refine (hnames.sublist hknown).append (Keyed.nodup_keys other.increasing) fun k hk hk' => ?_
    have hnone : Keyed.get? other.entries k = none := hother k (hknown.subset hk)
    exact Keyed.get?_eq_none_iff.mp hnone hk'
  rw [Keyed.get?_ofList_of_nodup hnodup]
  exact List.lookup_append

/-- Members beside the known ones stand before those, whatever their keys. -/
theorem get?_over (hknown : (known.map (·.1)).Sublist names) (hnames : names.Nodup)
    (other : KeyMap Json) (key : String) : Keyed.get? (Keyed.ofList (known ++ other.entries)) key =
      (other.get? key).or (Keyed.get? known key) := by
  have hlast : ∀ {es : List (String × Json)}, (es.map (·.1)).Nodup →
      Keyed.get? es.reverse key = Keyed.get? es key := fun h => by
    rw [← Keyed.get?_ofList, Keyed.get?_ofList_of_nodup h]
  have happ : Keyed.get? (other.entries.reverse ++ known.reverse) key =
      (Keyed.get? other.entries.reverse key).or (Keyed.get? known.reverse key) := List.lookup_append
  rw [Keyed.get?_ofList, List.reverse_append, happ, hlast (hnames.sublist hknown),
    hlast (Keyed.nodup_keys other.increasing)]
  rfl

/-- **What stands beside the known members is found again.** -/
theorem ofList_beside (hknown : (known.map (·.1)).Sublist names) (hnames : names.Nodup)
    (hother : ∀ key ∈ names, other.get? key = none) :
    KeyMap.ofList ((Keyed.ofList (known ++ other.entries)).filter fun m => !names.contains m.1) =
      other := by
  refine KeyMap.ext fun key => ?_
  have hi : Keyed.Increasing ((Keyed.ofList (known ++ other.entries)).filter
      fun m => !names.contains m.1) := (Keyed.increasing_ofList _).filter _
  have hget : (KeyMap.ofList ((Keyed.ofList (known ++ other.entries)).filter
      fun m => !names.contains m.1)).get? key = Keyed.get? ((Keyed.ofList
        (known ++ other.entries)).filter fun m => !names.contains m.1) key :=
    Keyed.get?_ofList_of_nodup (Keyed.nodup_keys hi) key
  rw [hget, Keyed.get?_filter (fun k => !names.contains k), get?_beside hknown hnames hother]
  by_cases hkey : key ∈ names
  · simp [hkey, hother key hkey]
  · have hnone : Keyed.get? known key = none :=
      Keyed.get?_eq_none_iff.mpr fun hmem => hkey (hknown.subset hmem)
    simp [hkey, hnone]

end Beside

/-! ### Reading -/

theorem checkMembers_eq_ok {check : String → Json → Except DecodeError Unit} :
    ∀ {ms : List (String × Json)}, (∀ m ∈ ms, check m.1 m.2 = .ok ()) →
      checkMembers check ms = .ok ()
  | [], _ => rfl
  | m :: ms, h => by
    obtain ⟨hm, hms⟩ := List.forall_mem_cons.mp h
    exact bind_eq_ok_iff.mpr ⟨(), hm, checkMembers_eq_ok hms⟩

theorem attempt_eq_ok {item : Decoder α} {x : Json} {a : α} (h : item x = .ok a) :
    attempt item x = .ok () := by
  unfold attempt
  rw [h]
  rfl

theorem required_eq_ok {item : Decoder α} {name : String} {ms : List (String × Json)} {x : Json}
    {a : α} (hget : Keyed.get? ms name = some x) (h : item x = .ok a) :
    required item name ms = .ok a := by
  unfold required
  rw [hget]
  exact h

theorem optional_eq_ok {item : Decoder (Option α)} {name : String} {ms : List (String × Json)}
    {o : Option α} {f : α → Json} (hget : Keyed.get? ms name = o.map f)
    (h : ∀ a, o = some a → item (f a) = .ok (some a)) : optional item none name ms = .ok o := by
  unfold optional
  rw [hget]
  cases o with
  | none => rfl
  | some a => exact h a rfl

theorem decodeOption_eq_ok {item : Decoder α} {x : Json} {a : α} (hnull : x ≠ .null)
    (h : item x = .ok a) : decodeOption item x = .ok (some a) := by
  unfold decodeOption
  split
  · exact absurd rfl hnull
  · rw [h]
    rfl

/-- A list is read back if its items are. -/
theorem decodeList_eq_ok {item : Decoder α} {f : α → Json} (h : ∀ a, item (f a) = .ok a)
    (as : List α) : decodeList item (.array (as.map f)) = .ok as := by
  refine mapM_eq_ok_iff.mpr (List.forall₂_map_left_iff.mpr (List.forall₂_same.mpr fun a _ => h a))

/-- A map is read back if its values are. -/
theorem decodeMap_eq_ok {item : Decoder α} {f : α → Json} (h : ∀ a, item (f a) = .ok a)
    (m : KeyMap α) :
    decodeMap item (.object (m.entries.map fun e => (e.1, f e.2))) = .ok m := by
  have hentries : (m.entries.map fun e => (e.1, f e.2)).mapM
      (fun e => do return (e.1, ← item e.2)) = .ok m.entries := by
    refine mapM_eq_ok_iff.mpr (List.forall₂_map_left_iff.mpr (List.forall₂_same.mpr fun e _ => ?_))
    exact bind_eq_ok_iff.mpr ⟨e.2, h e.2, rfl⟩
  refine bind_eq_ok_iff.mpr ⟨m.entries, hentries, pure_eq_ok_iff.mpr ?_⟩
  refine KeyMap.ext fun key => ?_
  exact Keyed.get?_ofList_of_nodup (Keyed.nodup_keys m.increasing) key

end Json

end DocumentProof
