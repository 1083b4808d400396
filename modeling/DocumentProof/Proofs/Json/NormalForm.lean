import DocumentProof.Proofs.Bytes
import DocumentProof.Proofs.Json.Reading
import Mathlib.Data.Char
import Mathlib.Data.List.Lex

/-!
# The canonical text as a normal form

The canonical text of a value is read as this value (`read?_canonical`), so values with one
canonical text are equal (`canonical_inj`), also where they are too deep for a reader that limits
the depth. What is written with its members in another order has the same text
(`canonical_of_reordered`): by written key there is one order only.
-/

namespace DocumentProof

namespace Json

/-! ## What another order keeps -/

theorem exists_of_mem_reorderedItems : ∀ {xs ys : List Json} {y : Json}, ReorderedItems xs ys →
    y ∈ ys → ∃ x ∈ xs, Reordered x y
  | [], ys, y, h, hy => by
    rw [ReorderedItems] at h
    rw [h] at hy
    cases hy
  | x :: xs, ys, y, h, hy => by
    obtain ⟨z, zs, rfl, hz, hzs⟩ := h
    rcases List.mem_cons.mp hy with rfl | hy
    · exact ⟨x, List.mem_cons_self, hz⟩
    · obtain ⟨w, hw, hwy⟩ := exists_of_mem_reorderedItems hzs hy
      exact ⟨w, List.mem_cons_of_mem x hw, hwy⟩

theorem exists_of_mem_reorderedMembers : ∀ {ms ns : List (String × Json)} {n : String × Json},
    ReorderedMembers ms ns → n ∈ ns → ∃ m ∈ ms, Reordered m.2 n.2
  | [], ns, n, h, hn => by
    rw [ReorderedMembers] at h
    rw [h] at hn
    cases hn
  | (k, x) :: ms, ns, n, h, hn => by
    obtain ⟨y, os, rfl, hy, hos⟩ := h
    rcases List.mem_cons.mp hn with rfl | hn
    · exact ⟨(k, x), List.mem_cons_self, hy⟩
    · obtain ⟨m, hm, hmn⟩ := exists_of_mem_reorderedMembers hos hn
      exact ⟨m, List.mem_cons_of_mem _ hm, hmn⟩

theorem whole_of_reordered {x : Json} : ∀ y, Reordered x y → x.IsWhole → y.IsWhole := by
  induction x using induction with
  | array xs ih =>
    rintro y ⟨ys, rfl, h⟩ hx
    refine whole_array_iff.mpr fun z hz => ?_
    obtain ⟨w, hw, hwz⟩ := exists_of_mem_reorderedItems h hz
    exact ih w hw z hwz (whole_array_iff.mp hx w hw)
  | object ms ih =>
    rintro y ⟨ns, ns', rfl, h, hperm, -⟩ hx
    refine whole_object_iff.mpr fun n hn => ?_
    obtain ⟨m, hm, hmn⟩ := exists_of_mem_reorderedMembers h (hperm.mem_iff.mpr hn)
    exact ih m hm n.2 hmn (whole_object_iff.mp hx m hm)
  | _ =>
    rintro y rfl hx
    exact hx

theorem depth_le_of_reordered {x : Json} : ∀ y, Reordered x y → y.depth ≤ x.depth := by
  induction x using induction with
  | array xs ih =>
    rintro y ⟨ys, rfl, h⟩
    refine Nat.succ_le_succ (depthItems_le_iff.mpr fun z hz => ?_)
    obtain ⟨w, hw, hwz⟩ := exists_of_mem_reorderedItems h hz
    exact Nat.le_trans (ih w hw z hwz) (depthItems_le_iff.mp le_rfl w hw)
  | object ms ih =>
    rintro y ⟨ns, ns', rfl, h, hperm, -⟩
    refine Nat.succ_le_succ (depthMembers_le_iff.mpr fun n hn => ?_)
    obtain ⟨m, hm, hmn⟩ := exists_of_mem_reorderedMembers h (hperm.mem_iff.mpr hn)
    exact Nat.le_trans (ih m hm n.2 hmn) (depthMembers_le_iff.mp le_rfl m hm)
  | _ =>
    rintro y rfl
    exact Nat.le_refl _

/-! ## The order by written key -/

/-- Written keys increase. -/
def WrittenIncreasing (ms : List (String × Json)) : Prop :=
  ms.Pairwise fun a b => quoted a.1 < quoted b.1

theorem insertByWrittenKey_perm (m : String × Json) : ∀ ns : List (String × Json),
    (insertByWrittenKey m ns).Perm (m :: ns)
  | [] => List.Perm.refl _
  | n :: ns => by
    unfold insertByWrittenKey
    split_ifs
    · exact List.Perm.refl _
    · exact ((insertByWrittenKey_perm m ns).cons n).trans (List.Perm.swap m n ns)

theorem increasing_insertByWrittenKey {m : String × Json} : ∀ {ns : List (String × Json)},
    WrittenIncreasing ns → m.1 ∉ ns.map (·.1) → WrittenIncreasing (insertByWrittenKey m ns)
  | [], _, _ => List.pairwise_singleton _ _
  | n :: ns, h, hm => by
    obtain ⟨hn, hns⟩ := List.pairwise_cons.mp h
    obtain ⟨hne, hm⟩ := not_or.mp fun hor => hm (List.mem_cons.mpr hor)
    unfold insertByWrittenKey
    split_ifs with hlt
    · refine List.pairwise_cons.mpr ⟨fun a ha => ?_, h⟩
      rcases List.mem_cons.mp ha with rfl | ha
      · exact hlt
      · exact List.lt_trans hlt (hn a ha)
    · have hgt : quoted n.1 < quoted m.1 :=
        ((lt_trichotomy _ _).resolve_left hlt).resolve_left fun heq => hne (quoted_inj heq)
      refine List.pairwise_cons.mpr ⟨fun a ha => ?_, increasing_insertByWrittenKey hns hm⟩
      rcases List.mem_cons.mp ((insertByWrittenKey_perm m ns).mem_iff.mp ha) with rfl | ha
      · exact hgt
      · exact hn a ha

theorem byWrittenKeyItems_eq_map : ∀ xs : List Json, byWrittenKeyItems xs = xs.map byWrittenKey
  | [] => rfl
  | x :: xs => by rw [byWrittenKeyItems, byWrittenKeyItems_eq_map xs, List.map_cons]

theorem byWrittenKeyMembers_perm : ∀ ms : List (String × Json),
    (byWrittenKeyMembers ms).Perm (ms.map fun m => (m.1, m.2.byWrittenKey))
  | [] => List.Perm.refl _
  | (k, x) :: ms =>
    (insertByWrittenKey_perm _ _).trans ((byWrittenKeyMembers_perm ms).cons (k, x.byWrittenKey))

theorem keys_byWrittenKeyMembers (ms : List (String × Json)) :
    ((byWrittenKeyMembers ms).map (·.1)).Perm (ms.map (·.1)) := by
  have h := (byWrittenKeyMembers_perm ms).map (·.1)
  rw [List.map_map] at h
  exact h

theorem increasing_byWrittenKeyMembers : ∀ {ms : List (String × Json)}, (ms.map (·.1)).Nodup →
    WrittenIncreasing (byWrittenKeyMembers ms)
  | [], _ => List.Pairwise.nil
  | (k, x) :: ms, h => by
    obtain ⟨hk, hms⟩ := List.nodup_cons.mp h
    refine increasing_insertByWrittenKey (increasing_byWrittenKeyMembers hms) fun hmem => hk ?_
    exact (keys_byWrittenKeyMembers ms).mem_iff.mp hmem

/-- **By written key members have one order.** -/
theorem byWrittenKeyMembers_eq_of_perm {ms ns : List (String × Json)} (hperm : ms.Perm ns)
    (hnodup : (ms.map (·.1)).Nodup) : byWrittenKeyMembers ms = byWrittenKeyMembers ns := by
  have hnodup' : (ns.map (·.1)).Nodup := (hperm.map _).nodup_iff.mp hnodup
  refine List.Perm.eq_of_pairwise (fun a b _ _ hab hba => ?_)
    (increasing_byWrittenKeyMembers hnodup) (increasing_byWrittenKeyMembers hnodup') ?_
  · exact absurd (List.lt_trans hab hba) (List.lt_irrefl _)
  · exact (byWrittenKeyMembers_perm ms).trans
      ((hperm.map _).trans (byWrittenKeyMembers_perm ns).symm)

/-! ### The value in this order -/

theorem reorderedItems_map {f : Json → Json} : ∀ {xs : List Json}, (∀ x ∈ xs, Reordered x (f x)) →
    ReorderedItems xs (xs.map f)
  | [], _ => rfl
  | x :: xs, h => by
    obtain ⟨hx, hxs⟩ := List.forall_mem_cons.mp h
    exact ⟨f x, xs.map f, rfl, hx, reorderedItems_map hxs⟩

theorem reorderedMembers_map {f : Json → Json} : ∀ {ms : List (String × Json)},
    (∀ m ∈ ms, Reordered m.2 (f m.2)) → ReorderedMembers ms (ms.map fun m => (m.1, f m.2))
  | [], _ => rfl
  | (k, x) :: ms, h => by
    obtain ⟨hx, hms⟩ := List.forall_mem_cons.mp h
    exact ⟨f x, ms.map fun m => (m.1, f m.2), rfl, hx, reorderedMembers_map hms⟩

/-- The members by written key are those of the value. -/
theorem reordered_byWrittenKey {x : Json} : x.Sorted → Reordered x x.byWrittenKey := by
  induction x using induction with
  | array xs ih =>
    intro h
    refine ⟨_, rfl, ?_⟩
    rw [byWrittenKeyItems_eq_map]
    exact reorderedItems_map fun y hy => ih y hy (sortedItems_iff.mp h y hy)
  | object ms ih =>
    intro h
    obtain ⟨hi, hms⟩ := sorted_object h
    exact ⟨_, _, rfl, reorderedMembers_map fun m hm => ih m hm (hms m hm),
      (byWrittenKeyMembers_perm ms).symm, Keyed.nodup_keys hi⟩
  | _ => exact fun _ => rfl

theorem byWrittenKeyItems_eq : ∀ {xs ys : List Json},
    (∀ x ∈ xs, ∀ y, Reordered x y → x.byWrittenKey = y.byWrittenKey) → ReorderedItems xs ys →
      byWrittenKeyItems xs = byWrittenKeyItems ys
  | [], ys, _, h => by
    rw [ReorderedItems] at h
    rw [h]
  | x :: xs, ys, hxs, h => by
    obtain ⟨y, zs, rfl, hy, hzs⟩ := h
    rw [byWrittenKeyItems, byWrittenKeyItems, hxs x List.mem_cons_self y hy,
      byWrittenKeyItems_eq (fun z hz => hxs z (List.mem_cons_of_mem x hz)) hzs]

theorem byWrittenKeyMembers_eq : ∀ {ms ns : List (String × Json)},
    (∀ m ∈ ms, ∀ y, Reordered m.2 y → m.2.byWrittenKey = y.byWrittenKey) → ReorderedMembers ms ns →
      byWrittenKeyMembers ms = byWrittenKeyMembers ns ∧ ms.map (·.1) = ns.map (·.1)
  | [], ns, _, h => by
    rw [ReorderedMembers] at h
    rw [h]
    exact ⟨rfl, rfl⟩
  | (k, x) :: ms, ns, hms, h => by
    obtain ⟨y, os, rfl, hy, hos⟩ := h
    obtain ⟨heq, hkeys⟩ :=
      byWrittenKeyMembers_eq (fun m hm => hms m (List.mem_cons_of_mem _ hm)) hos
    rw [byWrittenKeyMembers, byWrittenKeyMembers, hms (k, x) List.mem_cons_self y hy, heq,
      List.map_cons, List.map_cons, hkeys]
    exact ⟨rfl, rfl⟩

theorem byWrittenKey_eq_of_reordered {x : Json} :
    ∀ y, Reordered x y → x.byWrittenKey = y.byWrittenKey := by
  induction x using induction with
  | array xs ih =>
    rintro y ⟨ys, rfl, h⟩
    rw [byWrittenKey, byWrittenKey, byWrittenKeyItems_eq ih h]
  | object ms ih =>
    rintro y ⟨ns, ns', rfl, h, hperm, hnodup⟩
    obtain ⟨heq, hkeys⟩ := byWrittenKeyMembers_eq ih h
    rw [hkeys] at hnodup
    rw [byWrittenKey, byWrittenKey, heq, byWrittenKeyMembers_eq_of_perm hperm hnodup]
  | _ =>
    rintro y rfl
    rfl

/-! ## The text -/

variable {v w : Json} {a b : String}

theorem canonical_eq_ok_iff : v.canonical = .ok a ↔ v.IsWhole ∧ v.byWrittenKey.compact = a := by
  rw [← firstDouble?_eq_none_iff]
  unfold canonical
  cases v.firstDouble? with
  | none => simp
  | some d => simp

/-- **The order of members does not show in the text.** -/
theorem canonical_of_reordered {u : Json} (h : v.Reordered u) (hv : v.IsWhole) :
    u.canonical = v.canonical := by
  rw [canonical_eq_ok_iff.mpr ⟨hv, rfl⟩, canonical_eq_ok_iff, byWrittenKey_eq_of_reordered u h]
  exact ⟨whole_of_reordered u h hv, rfl⟩

/-- The members by written key, put in order by key. -/
theorem arranged_byWrittenKey (hv : v.Sorted) : v.byWrittenKey.arranged = v := by
  rw [← arranged_eq_of_reordered _ (reordered_byWrittenKey hv), arranged_of_sorted hv]

/-- A reader without a limit reads the canonical text as the value. -/
theorem readValue_canonical (hv : v.Sorted) (h : v.canonical = .ok a) {level : Nat}
    (hdepth : v.depth ≤ level) : readValue level a.toList = some (v, []) := by
  obtain ⟨hwhole, rfl⟩ := canonical_eq_ok_iff.mp h
  have hr := reordered_byWrittenKey hv
  have hread := readValue_compact (whole_of_reordered _ hr hwhole)
    (Nat.le_trans (depth_le_of_reordered _ hr) hdepth) [] endsNumber_nil
  rw [List.append_nil, arranged_byWrittenKey hv] at hread
  rw [compact, String.toList_ofList, hread]

/-- **Values with one canonical text are equal,** however deep they are. -/
theorem canonical_inj (hv : v.Sorted) (hw : w.Sorted) (ha : v.canonical = .ok a)
    (hb : w.canonical = .ok a) : v = w := by
  have hread := readValue_canonical hv ha (Nat.le_max_left v.depth w.depth)
  rw [readValue_canonical hw hb (Nat.le_max_right v.depth w.depth)] at hread
  exact (Prod.mk.inj (Option.some.inj hread)).1.symm

/-- **The canonical text is read as the value.** -/
theorem read?_canonical (hv : v.Sorted) (h : v.canonical = .ok a) (hdepth : v.depth ≤ maxDepth) :
    read? a = some v := by
  obtain ⟨hwhole, rfl⟩ := canonical_eq_ok_iff.mp h
  have hr := reordered_byWrittenKey hv
  rw [read?_compact (whole_of_reordered _ hr hwhole)
    (Nat.le_trans (depth_le_of_reordered _ hr) hdepth), arranged_byWrittenKey hv]

/-- **The canonical text stands for the value.** It exists exactly where all numbers are integers.
Two values have the same bytes exactly if they are equal; the order in which members are written
makes no difference. Where the depth allows for reading, the text is read as the value. -/
theorem canonical_faithful (d e : Document) :
    ((∃ a, d.json.canonical = .ok a) ↔ d.json.IsWhole) ∧
    (d.json.IsWhole → e.json.IsWhole → ∃ a b, d.json.canonical = .ok a ∧ e.json.canonical = .ok b ∧
      (Bytes.ofString a = Bytes.ofString b ↔ d = e)) ∧
    (d.json.IsWhole → ∀ u, d.json.Reordered u → u.canonical = d.json.canonical) ∧
    (d.json.IsWhole → d.json.depth ≤ maxDepth →
      ∃ a, d.json.canonical = .ok a ∧ read? a = some d.json) := by
  refine ⟨exists_canonical_iff, fun hd he => ?_, fun hd u hu => canonical_of_reordered hu hd,
    fun hd hdepth => ?_⟩
  · obtain ⟨a, ha⟩ := exists_canonical_iff.mpr hd
    obtain ⟨b, hb⟩ := exists_canonical_iff.mpr he
    refine ⟨a, b, ha, hb, fun heq => ?_, ?_⟩
    · obtain rfl : a = b := Bytes.ofString_inj.mp heq
      exact Document.ext (canonical_inj d.sorted e.sorted ha hb)
    · rintro rfl
      rw [Except.ok.inj (ha.symm.trans hb)]
  · obtain ⟨a, ha⟩ := exists_canonical_iff.mpr hd
    exact ⟨a, ha, read?_canonical d.sorted ha hdepth⟩

/-- A value with the first and the last integer of a word, escapes in a key and in a string, and two
keys of which the longer one is written first. -/
def escapes : Document where
  json := .object [("\x01", .string "\"\\\n\x7fé"),
    ("a", .array [.bool true, .ofNat 18446744073709551615]), ("a!", .ofInt (-9223372036854775808))]
  sorted := by decide +kernel

/-- Its canonical text. -/
def escapesText : String :=
  "\x7b\"\\u0001\":\"\\\"\\\\\\n\x7fé\",\"a!\":-9223372036854775808,\"a\":[true,18446744073709551615]\x7d"

theorem canonical_faithful_escapes :
    escapes.json.canonical = .ok escapesText ∧ read? escapesText = some escapes.json ∧
      ∃ b, (Json.object []).canonical = .ok b ∧ Bytes.ofString escapesText ≠ Bytes.ofString b := by
  have hwhole : escapes.json.IsWhole := firstDouble?_eq_none_iff.mp (by decide)
  have htext : escapes.json.canonical = .ok escapesText := by decide +kernel
  let empty : Document := ⟨.object [], List.Pairwise.nil, trivial⟩
  obtain ⟨-, hinj, -, hread⟩ := canonical_faithful escapes empty
  obtain ⟨a, ha, hback⟩ := hread hwhole (by decide)
  obtain ⟨a', b, ha', hb, hiff⟩ := hinj hwhole (List.forall_mem_nil _)
  obtain rfl : escapesText = a := Except.ok.inj (htext.symm.trans ha)
  obtain rfl : escapesText = a' := Except.ok.inj (htext.symm.trans ha')
  refine ⟨htext, hback, b, hb, fun heq => ?_⟩
  exact absurd (hiff.mp heq) (by decide)

end Json

end DocumentProof
