import DocumentProof.Proofs.Json.NameOrder
import DocumentProof.Proofs.Json.NormalForm
import Mathlib.Data.List.Pairwise

/-!
# The order of members in the canonical text

The text of a value without blanks tells the value and the order of its members (`compact_inj`), so
an order of names is a property of the text (`TextOrdered`). In the canonical text the names of each
object stand by their written form. They stand by their UTF-16 code units as well exactly where no
two names of an object are misplaced (`canonical_member_order`), which is not always so
(`canonical_not_by_units`).
-/

namespace DocumentProof

namespace Json

/-! ## Names by object -/

mutual

/-- The names of the members of each object in the value, in their order. -/
def nameLists : Json → List (List String)
  | array xs => nameListsItems xs
  | object ms => ms.map (·.1) :: nameListsMembers ms
  | _ => []

def nameListsItems : List Json → List (List String)
  | [] => []
  | x :: xs => x.nameLists ++ nameListsItems xs

def nameListsMembers : List (String × Json) → List (List String)
  | [] => []
  | (_, x) :: ms => x.nameLists ++ nameListsMembers ms

end

theorem mem_nameListsItems {names : List String} : ∀ {xs : List Json},
    names ∈ nameListsItems xs ↔ ∃ x ∈ xs, names ∈ x.nameLists
  | [] => by simp [nameListsItems]
  | x :: xs => by simp [nameListsItems, @mem_nameListsItems _ xs]

theorem mem_nameListsMembers {names : List String} : ∀ {ms : List (String × Json)},
    names ∈ nameListsMembers ms ↔ ∃ m ∈ ms, names ∈ m.2.nameLists
  | [] => by simp [nameListsMembers]
  | (k, x) :: ms => by simp [nameListsMembers, @mem_nameListsMembers _ ms]

variable {P Q : List String → Prop}

/-- Each object of the value has a list of names with a property. -/
def EachObject (P : List String → Prop) (x : Json) : Prop := ∀ names ∈ x.nameLists, P names

theorem eachObject_array_iff {xs : List Json} :
    EachObject P (array xs) ↔ ∀ x ∈ xs, EachObject P x := by
  unfold EachObject
  simp only [nameLists, mem_nameListsItems]
  exact ⟨fun h x hx names hn => h names ⟨x, hx, hn⟩, fun h names ⟨x, hx, hn⟩ => h x hx names hn⟩

theorem eachObject_object_iff {ms : List (String × Json)} :
    EachObject P (object ms) ↔ P (ms.map (·.1)) ∧ ∀ m ∈ ms, EachObject P m.2 := by
  unfold EachObject
  simp only [nameLists, List.forall_mem_cons, mem_nameListsMembers]
  refine and_congr_right fun _ => ?_
  exact ⟨fun h m hm names hn => h names ⟨m, hm, hn⟩, fun h names ⟨m, hm, hn⟩ => h m hm names hn⟩

/-! ## The text tells the order -/

/-- What is to be shown of a value: where its text stands, the text of no other value does. -/
def TextTells (x : Json) : Prop :=
  ∀ y r s, y.IsWhole → EndsNumber r → EndsNumber s →
    x.compactChars ++ r = y.compactChars ++ s → x = y ∧ r = s

theorem items_of_text {r s : List Char} : ∀ {xs ys : List Json},
    (∀ x ∈ xs, TextTells x) → (∀ y ∈ ys, y.IsWhole) →
    compactItems false xs ++ ']' :: r = compactItems false ys ++ ']' :: s → xs = ys
  | [], [], _, _, _ => rfl
  | [], y :: ys, _, _, h => by simp [compactItems] at h
  | x :: xs, [], _, _, h => by simp [compactItems] at h
  | x :: xs, y :: ys, hx, hy, h => by
    simp only [compactItems, Bool.false_eq_true, if_false, List.append_assoc, List.cons_append,
      List.nil_append, List.cons.injEq, true_and] at h
    obtain ⟨rfl, hrest⟩ := hx x List.mem_cons_self y _ _ (hy y List.mem_cons_self)
      (endsNumber_items r xs) (endsNumber_items s ys) h
    rw [items_of_text (List.forall_mem_cons.mp hx).2 (List.forall_mem_cons.mp hy).2 hrest]

theorem members_of_text {r s : List Char} : ∀ {ms ns : List (String × Json)},
    (∀ m ∈ ms, TextTells m.2) → (∀ n ∈ ns, n.2.IsWhole) →
    compactMembers false ms ++ '}' :: r = compactMembers false ns ++ '}' :: s → ms = ns
  | [], [], _, _, _ => rfl
  | [], (l, y) :: ns, _, _, h => by simp [compactMembers] at h
  | (k, x) :: ms, [], _, _, h => by simp [compactMembers] at h
  | (k, x) :: ms, (l, y) :: ns, hm, hn, h => by
    simp only [compactMembers, Bool.false_eq_true, if_false, List.append_assoc, List.cons_append,
      List.nil_append, List.cons.injEq, true_and] at h
    have hkey := readString_quoted k
      (':' :: (x.compactChars ++ (compactMembers false ms ++ '}' :: r)))
    rw [h, readString_quoted] at hkey
    simp only [Option.some.injEq, Prod.mk.injEq, List.cons.injEq, true_and] at hkey
    obtain ⟨rfl, htext⟩ := hkey
    obtain ⟨rfl, hrest⟩ := hm (l, x) List.mem_cons_self y _ _ (hn (l, y) List.mem_cons_self)
      (endsNumber_members r ms) (endsNumber_members s ns) htext.symm
    rw [members_of_text (List.forall_mem_cons.mp hm).2 (List.forall_mem_cons.mp hn).2 hrest]

theorem compactItems_eq {xs : List Json} (h : xs ≠ []) :
    compactItems false xs = ',' :: compactItems true xs := by
  cases xs with
  | nil => exact absurd rfl h
  | cons x xs => simp [compactItems]

theorem compactMembers_eq {ms : List (String × Json)} (h : ms ≠ []) :
    compactMembers false ms = ',' :: compactMembers true ms := by
  cases ms with
  | nil => exact absurd rfl h
  | cons m ms => simp [compactMembers]

/-- Texts that go on alike are those of values that are equal up to the order of members. -/
theorem arranged_eq_of_text {x y : Json} {r s : List Char} (hx : x.IsWhole) (hy : y.IsWhole)
    (hr : EndsNumber r) (hs : EndsNumber s) (h : x.compactChars ++ r = y.compactChars ++ s) :
    x.arranged = y.arranged ∧ r = s := by
  have hread := readValue_compact hx (Nat.le_max_left x.depth y.depth) r hr
  rw [h, readValue_compact hy (Nat.le_max_right x.depth y.depth) s hs] at hread
  obtain ⟨hxy, hrs⟩ := Prod.mk.inj (Option.some.inj hread)
  exact ⟨hxy.symm, hrs.symm⟩

theorem textTells_array {xs : List Json} (hwhole : (array xs).IsWhole)
    (hxs : ∀ x ∈ xs, TextTells x) : TextTells (array xs) := by
  intro y r s hy hr hs h
  obtain ⟨harr, rfl⟩ := arranged_eq_of_text hwhole hy hr hs h
  cases y with
  | array ys =>
    refine ⟨congrArg array ?_, rfl⟩
    rw [arranged, arranged, array.injEq, arrangedItems_eq_map, arrangedItems_eq_map] at harr
    have hlen := congrArg List.length harr
    rw [List.length_map, List.length_map] at hlen
    by_cases hne : xs = []
    · subst hne
      exact (List.eq_nil_of_length_eq_zero hlen.symm).symm
    · have hne' : ys ≠ [] := by
        rintro rfl
        exact hne (List.eq_nil_of_length_eq_zero hlen)
      refine items_of_text (r := r) (s := r) hxs (whole_array_iff.mp hy) ?_
      rw [compactItems_eq hne, compactItems_eq hne']
      simpa [compactChars] using h
  | _ => simp [arranged, ofMembers] at harr

theorem textTells_object {ms : List (String × Json)} (hwhole : (object ms).IsWhole)
    (hms : ∀ m ∈ ms, TextTells m.2) : TextTells (object ms) := by
  intro y r s hy hr hs h
  obtain ⟨harr, rfl⟩ := arranged_eq_of_text hwhole hy hr hs h
  cases y with
  | object ns =>
    refine ⟨congrArg object ?_, rfl⟩
    have htext : compactMembers true ms ++ '}' :: r = compactMembers true ns ++ '}' :: r := by
      simpa [compactChars] using h
    cases ms with
    | nil =>
      cases ns with
      | nil => rfl
      | cons n ns => simp [compactMembers, quoted] at htext
    | cons m ms =>
      cases ns with
      | nil => simp [compactMembers, quoted] at htext
      | cons n ns =>
        refine members_of_text (r := r) (s := r) hms (whole_object_iff.mp hy) ?_
        rw [compactMembers_eq (List.cons_ne_nil m ms), compactMembers_eq (List.cons_ne_nil n ns),
          List.cons_append, htext, List.cons_append]
  | _ => simp [arranged, ofMembers] at harr

theorem textTells {x : Json} : x.IsWhole → TextTells x := by
  induction x using induction with
  | array xs ih => exact fun h => textTells_array h fun x hx => ih x hx (whole_array_iff.mp h x hx)
  | object ms ih =>
    exact fun h => textTells_object h fun m hm => ih m hm (whole_object_iff.mp h m hm)
  | _ =>
    intro hx y r s hy hr hs h
    obtain ⟨harr, rfl⟩ := arranged_eq_of_text hx hy hr hs h
    cases y <;> simp_all [arranged, ofMembers]

/-- **The text of a value tells it,** with the order of its members. -/
theorem compact_inj {x y : Json} (hx : x.IsWhole) (hy : y.IsWhole) (h : x.compact = y.compact) :
    x = y := by
  have htext : x.compactChars ++ [] = y.compactChars ++ [] := by
    rw [List.append_nil, List.append_nil]
    exact String.ofList_injective h
  exact (textTells hx y [] [] hy endsNumber_nil endsNumber_nil htext).1

/-! ## The order by written name -/

theorem eachObject_byWrittenKey_iff (hP : ∀ {ns ms : List String}, ns.Perm ms → (P ns ↔ P ms))
    {v : Json} : EachObject P v.byWrittenKey ↔ EachObject P v := by
  induction v using induction with
  | array xs ih =>
    rw [byWrittenKey, byWrittenKeyItems_eq_map, eachObject_array_iff, eachObject_array_iff,
      List.forall_mem_map]
    exact forall₂_congr ih
  | object ms ih =>
    have hmem : (∀ m ∈ byWrittenKeyMembers ms, EachObject P m.2) ↔ ∀ m ∈ ms, EachObject P m.2 := by
      have hmap : (∀ m ∈ byWrittenKeyMembers ms, EachObject P m.2) ↔
          ∀ m ∈ ms.map fun m => (m.1, m.2.byWrittenKey), EachObject P m.2 :=
        forall_congr' fun m => imp_congr_left (byWrittenKeyMembers_perm ms).mem_iff
      rw [hmap, List.forall_mem_map]
      exact forall₂_congr ih
    rw [byWrittenKey, eachObject_object_iff, eachObject_object_iff, hmem,
      hP (keys_byWrittenKeyMembers ms)]
  | _ => rfl

theorem eachObject_written {v : Json} : v.Sorted →
    EachObject (List.Pairwise fun a b => quoted a < quoted b) v.byWrittenKey := by
  induction v using induction with
  | array xs ih =>
    intro h
    rw [byWrittenKey, byWrittenKeyItems_eq_map, eachObject_array_iff, List.forall_mem_map]
    exact fun x hx => ih x hx (sortedItems_iff.mp h x hx)
  | object ms ih =>
    intro h
    obtain ⟨hi, hms⟩ := sorted_object h
    have hnames := increasing_byWrittenKeyMembers (Keyed.nodup_keys hi)
    refine eachObject_object_iff.mpr ⟨List.pairwise_map.mpr hnames, fun m hm => ?_⟩
    obtain ⟨n, hn, rfl⟩ := List.mem_map.mp ((byWrittenKeyMembers_perm ms).mem_iff.mp hm)
    exact ih n hn (hms n hn)
  | _ => exact fun _ => List.forall_mem_nil _

/-! ## Orders of a text -/

/-- In every object of the text the names stand in this order. -/
def TextOrdered (lt : String → String → Prop) (text : String) : Prop :=
  ∀ u : Json, u.IsWhole → u.compact = text → u.EachObject (List.Pairwise lt)

theorem textOrdered_compact_iff {lt : String → String → Prop} {u : Json} (hu : u.IsWhole) :
    TextOrdered lt u.compact ↔ u.EachObject (List.Pairwise lt) := by
  refine ⟨fun h => h u hu rfl, fun h w hw htext => ?_⟩
  rw [compact_inj hw hu htext]
  exact h

/-- No two of the names stand in one order as written and in another by code units. -/
def NoneMisplaced (names : List String) : Prop := ∀ a ∈ names, ∀ b ∈ names, ¬ Misplaced a b

theorem noneMisplaced_perm {ns ms : List String} (h : ns.Perm ms) :
    NoneMisplaced ns ↔ NoneMisplaced ms := by
  unfold NoneMisplaced
  simp only [h.mem_iff]

/-- Names by written form stand by code units if none of them are misplaced. -/
theorem pairwise_nameUnits_iff {names : List String}
    (h : names.Pairwise fun a b => quoted a < quoted b) :
    (names.Pairwise fun a b => nameUnits a < nameUnits b) ↔ NoneMisplaced names := by
  constructor
  · intro hunits
    have hagree : names.Pairwise fun a b => ¬ Misplaced a b ∧ ¬ Misplaced b a := by
      refine (h.and hunits).imp fun ⟨hq, hu⟩ => quoted_lt_iff_nameUnits_lt.mp (iff_of_true hq hu)
    have hself : ∀ a ∈ names, ¬ Misplaced a a := fun a _ hm => lt_irrefl _ (misplaced_iff.mp hm).1
    exact List.Pairwise.forall_of_forall_of_flip hself (hagree.imp And.left) (hagree.imp And.right)
  · intro hnone
    refine h.imp_of_mem fun ha hb hq => ?_
    exact (quoted_lt_iff_nameUnits_lt.mpr ⟨hnone _ ha _ hb, hnone _ hb _ ha⟩).mp hq

/-- **Members stand by written name.** A value whose numbers are integers has a canonical text: that
of the value with its members in some order. In every object of this text the names increase as they
are written, with quotes and escapes. They increase by the UTF-16 code units of the names in every
object of the text exactly if no object of the value has two names that are misplaced. -/
theorem canonical_member_order {d : Document} (hwhole : d.json.IsWhole) :
    ∃ text, d.json.canonical = .ok text ∧
      (∃ u, u.IsWhole ∧ d.json.Reordered u ∧ u.compact = text) ∧
      TextOrdered (fun a b => quoted a < quoted b) text ∧
      (TextOrdered (fun a b => nameUnits a < nameUnits b) text ↔
        d.json.EachObject NoneMisplaced) := by
  have hr := reordered_byWrittenKey d.sorted
  have hu := whole_of_reordered _ hr hwhole
  have hwritten := eachObject_written d.sorted
  refine ⟨d.json.byWrittenKey.compact, canonical_eq_ok_iff.mpr ⟨hwhole, rfl⟩, ⟨_, hu, hr, rfl⟩,
    (textOrdered_compact_iff hu).mpr hwritten, ?_⟩
  rw [textOrdered_compact_iff hu, ← eachObject_byWrittenKey_iff noneMisplaced_perm]
  exact forall₂_congr fun names hn => pairwise_nameUnits_iff (hwritten names hn)

/-- A value with names in two objects of which one begins another, and a name that is no ASCII. -/
def nested : Document where
  json := .object [("1", .object [("", .bool true), ("a", .null)]), ("10", .ofNat 2),
    ("é", .string "é")]
  sorted := by decide +kernel

theorem canonical_member_order_nested :
    nested.json.IsWhole ∧ ∃ text, nested.json.canonical = .ok text ∧
      TextOrdered (fun a b => quoted a < quoted b) text ∧
      TextOrdered (fun a b => nameUnits a < nameUnits b) text := by
  have hwhole : nested.json.IsWhole := firstDouble?_eq_none_iff.mp (by decide)
  obtain ⟨text, htext, -, hwritten, hunits⟩ := canonical_member_order hwhole
  refine ⟨hwhole, text, htext, hwritten, hunits.mpr ?_⟩
  simp only [EachObject, NoneMisplaced, misplaced_iff]
  decide

/-- An object with two names of which the one goes on with an exclamation mark after the other. -/
def marked : Document where
  json := .object [("a", .ofNat 1), ("a!", .ofNat 2)]
  sorted := by decide +kernel

/-- **Not every canonical text has its names by code units:** `a!` is written before `a`. -/
theorem canonical_not_by_units :
    marked.json.canonical = .ok "\x7b\"a!\":2,\"a\":1\x7d" ∧
      ¬ ∀ d : Document, d.json.IsWhole → ∃ text, d.json.canonical = .ok text ∧
        TextOrdered (fun a b => nameUnits a < nameUnits b) text := by
  have htext : marked.json.canonical = .ok "\x7b\"a!\":2,\"a\":1\x7d" := by decide +kernel
  refine ⟨htext, fun h => ?_⟩
  have hwhole : marked.json.IsWhole := firstDouble?_eq_none_iff.mp (by decide)
  obtain ⟨text, hcanonical, hordered⟩ := h marked hwhole
  obtain rfl := Except.ok.inj (htext.symm.trans hcanonical)
  have hlist := hordered (.object [("a!", .ofNat 2), ("a", .ofNat 1)])
    (firstDouble?_eq_none_iff.mp (by decide)) (by decide +kernel) _ List.mem_cons_self
  exact absurd hlist (by decide)

end Json

end DocumentProof
