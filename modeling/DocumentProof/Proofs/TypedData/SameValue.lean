import DocumentProof.Proofs.TypedData.Atoms
import DocumentProof.Proofs.TypedData.Binding

/-!
# Values that say the same

One thing can be written in several ways: bytes and accounts with digits of either case, integers as
numbers or as texts to either base, a byte string of fixed length with or without the zeros at its
end. `SameValue` says of two JSON values, told without the encoder, that they differ in nothing but
this. Values that say something under a type say the same exactly if they are so related
(`ofJson?_eq_iff_sameValue`). So the hash of a struct loses these spellings and, short of two hashed
byte strings with one digest, nothing else (`TypeSchema.hashStruct_binds_value`).
-/

namespace DocumentProof

namespace Encode

/-- **Two values say the same under a type.** Booleans and texts are equal, and so are the bytes, the
accounts and the integers that are written. Byte strings of fixed length are equal with zeros up to
this length, arrays are equal item by item, and objects have the same keys and say the same for
every field. -/
inductive SameValue (types : TypeSchema) : FieldType → Json → Json → Prop
  | bool (b : Bool) : SameValue types .bool (.bool b) (.bool b)
  | string (s : String) : SameValue types .string (.string s) (.string s)
  | bytes {v w : Json} {bs : Bytes} (left : GivesBytes v bs) (right : GivesBytes w bs) :
      SameValue types .bytes v w
  | fixedBytes {size : Fin 32} {v w : Json} {bs cs : Bytes} (left : GivesBytes v bs)
      (right : GivesBytes w cs) (leftFits : bs.length ≤ FieldType.byteCount size)
      (rightFits : cs.length ≤ FieldType.byteCount size)
      (padded : Bytes.padRight (FieldType.byteCount size) bs =
        Bytes.padRight (FieldType.byteCount size) cs) : SameValue types (.fixedBytes size) v w
  | address {v w : Json} {bs : Bytes} (left : GivesAccount v bs) (right : GivesAccount w bs) :
      SameValue types .address v w
  | uint {width : Fin 32} {v w : Json} {n : Nat} (left : GivesNatural v n)
      (right : GivesNatural w n) : SameValue types (.uint width) v w
  | int {width : Fin 32} {v w : Json} {n : Int} (left : GivesInteger v n)
      (right : GivesInteger w n) : SameValue types (.int width) v w
  | array {item : FieldType} {length : Option UInt64} {xs ys : List Json}
      (count : xs.length = ys.length) (items : ∀ p ∈ xs.zip ys, SameValue types item p.1 p.2) :
      SameValue types (.array item length) (.array xs) (.array ys)
  | struct {name : String} {fields : List Field} {ms ns : List (String × Json)}
      (defined : types.get? name = some fields)
      (keys : ∀ key, key ∈ ms.map (·.1) ↔ key ∈ ns.map (·.1))
      (names : ∀ key, key ∈ ms.map (·.1) ↔ key ∈ fields.map (·.name))
      (typed : ∀ f ∈ fields, ∃ t, FieldType.ofText? f.typeName = some t)
      (members : ∀ f ∈ fields, ∀ x y t, Keyed.get? ms f.name = some x →
        Keyed.get? ns f.name = some y → FieldType.ofText? f.typeName = some t →
        SameValue types t x y) :
      SameValue types (.struct name) (.object ms) (.object ns)

end Encode

namespace TypedValue

open Encode

variable {types : TypeSchema} {v w : Json} {a b : TypedValue}

/-- **Atomic values say one thing exactly if they are the same up to spelling.** -/
theorem atom?_eq_iff_sameValue {t : FieldType} (hv : atom? t v = some a) (hw : atom? t w = some b) :
    a = b ↔ SameValue types t v w := by
  cases t with
  | bool =>
    obtain ⟨b, rfl, rfl⟩ := atom?_bool_eq_some_iff.mp hv
    obtain ⟨c, rfl, rfl⟩ := atom?_bool_eq_some_iff.mp hw
    constructor
    · intro h
      cases h
      exact .bool b
    · intro h
      cases h
      rfl
  | string =>
    obtain ⟨s, rfl, rfl⟩ := atom?_string_eq_some_iff.mp hv
    obtain ⟨r, rfl, rfl⟩ := atom?_string_eq_some_iff.mp hw
    constructor
    · intro h
      cases h
      exact .string s
    · intro h
      cases h
      rfl
  | bytes =>
    obtain ⟨bs, hbs, rfl⟩ := atom?_bytes_eq_some_iff.mp hv
    obtain ⟨cs, hcs, rfl⟩ := atom?_bytes_eq_some_iff.mp hw
    constructor
    · intro h
      cases h
      exact .bytes hbs hcs
    · intro h
      cases h with
      | bytes left right => rw [hbs.unique left, hcs.unique right]
  | address =>
    obtain ⟨bs, hbs, rfl⟩ := atom?_address_eq_some_iff.mp hv
    obtain ⟨cs, hcs, rfl⟩ := atom?_address_eq_some_iff.mp hw
    constructor
    · intro h
      obtain rfl : bs = cs := Word.eq_of_ofBytes_eq (hbs.length.trans hcs.length.symm)
        (by rw [hcs.length]; omega) (TypedValue.account.inj h)
      exact .address hbs hcs
    · intro h
      cases h with
      | address left right => rw [hbs.unique left, hcs.unique right]
  | uint width =>
    obtain ⟨m, hm, -, rfl⟩ := atom?_uint_eq_some_iff.mp hv
    obtain ⟨n, hn, -, rfl⟩ := atom?_uint_eq_some_iff.mp hw
    constructor
    · intro h
      obtain rfl : m = n := Int.ofNat.inj (TypedValue.number.inj h)
      exact .uint hm hn
    · intro h
      cases h with
      | uint left right => rw [hm.unique left, hn.unique right]
  | int width =>
    obtain ⟨m, hm, -, -, rfl⟩ := atom?_int_eq_some_iff.mp hv
    obtain ⟨n, hn, -, -, rfl⟩ := atom?_int_eq_some_iff.mp hw
    constructor
    · intro h
      cases h
      exact .int hm hn
    · intro h
      cases h with
      | int left right => rw [hm.unique left, hn.unique right]
  | fixedBytes size =>
    obtain ⟨bs, hbs, hle, rfl⟩ := atom?_fixedBytes_eq_some_iff.mp hv
    obtain ⟨cs, hcs, hle', rfl⟩ := atom?_fixedBytes_eq_some_iff.mp hw
    constructor
    · intro h
      exact .fixedBytes hbs hcs hle hle' (TypedValue.fixed.inj h)
    · intro h
      cases h with
      | fixedBytes left right _ _ padded =>
        rw [hbs.unique left, hcs.unique right, padded]
  | array item length => cases hv
  | struct name => cases hv

/-! ### Arrays and structs -/

/-- What is to be shown of a value: what says one thing with it is the same up to spelling. -/
def SpelledAs (types : TypeSchema) (v : Json) : Prop :=
  ∀ t w a b, ofJson? types v t = some a → ofJson? types w t = some b →
    (a = b ↔ SameValue types t v w)

/-- The keys of an object that says something as a struct are the names of the fields. -/
theorem mem_keys_iff {ms : List (String × Json)} {fields : List Field}
    {as : List (String × TypedValue)} (hundeclared : undeclared? fields ms = none)
    (hsaid : List.Forall₂ (FieldSays types ms) fields as) (key : String) :
    key ∈ ms.map (·.1) ↔ key ∈ fields.map (·.name) := by
  refine ⟨undeclared?_eq_none_iff.mp hundeclared key, fun hkey => ?_⟩
  obtain ⟨f, hf, rfl⟩ := List.mem_map.mp hkey
  obtain ⟨m, -, -, x, t, hx, -⟩ := exists_of_mem_left hsaid hf
  exact List.mem_map_of_mem (Keyed.mem_of_get? hx)

theorem FieldSays.unique {ms : List (String × Json)} {f : Field} {m n : String × TypedValue}
    (hm : FieldSays types ms f m) (hn : FieldSays types ms f n) : m = n := by
  obtain ⟨hmname, x, t, hx, ht, hm⟩ := hm
  obtain ⟨hnname, y, u, hy, hu, hn⟩ := hn
  obtain rfl : x = y := Option.some.inj (hx.symm.trans hy)
  obtain rfl : t = u := Option.some.inj (ht.symm.trans hu)
  exact Prod.ext (hmname.trans hnname.symm) (Option.some.inj (hm.symm.trans hn))

/-- Items say one list exactly if they are the same one by one. -/
theorem items_eq_iff {item : FieldType} {xs ys : List Json} {as bs : List TypedValue}
    (hspelled : ∀ x ∈ xs, SpelledAs types x)
    (hxs : List.Forall₂ (fun x a => ofJson? types x item = some a) xs as)
    (hys : List.Forall₂ (fun y b => ofJson? types y item = some b) ys bs) :
    as = bs ↔ List.Forall₂ (SameValue types item) xs ys := by
  have hread : as = bs ↔ List.Forall₂ (fun y a => ofJson? types y item = some a) ys as := by
    rw [← items?_eq_some_iff, items?_eq_some_iff.mpr hys, Option.some.injEq, eq_comm]
  rw [hread]
  refine forall₂_right_iff hxs fun x hx a ha y hy => ?_
  obtain ⟨b, -, hb⟩ := exists_of_mem_left hys hy
  rw [hb, Option.some.injEq, eq_comm]
  exact hspelled x hx item y a b ha hb

/-- Members say one list exactly if they are the same for each field. -/
theorem members_eq_iff {ms ns : List (String × Json)} {fields : List Field}
    {as bs : List (String × TypedValue)} (hspelled : ∀ m ∈ ms, SpelledAs types m.2)
    (hms : List.Forall₂ (FieldSays types ms) fields as)
    (hns : List.Forall₂ (FieldSays types ns) fields bs) :
    as = bs ↔ ∀ f ∈ fields, ∀ x y t, Keyed.get? ms f.name = some x →
      Keyed.get? ns f.name = some y → FieldType.ofText? f.typeName = some t →
      SameValue types t x y := by
  have hread : as = bs ↔ List.Forall₂ (FieldSays types ns) fields as := by
    rw [← fields?_eq_some_iff, fields?_eq_some_iff.mpr hns, Option.some.injEq, eq_comm]
  have hboth : List.Forall₂ (FieldSays types ns) fields as ↔
      List.Forall₂ (fun f g => ∃ m, FieldSays types ms f m ∧ FieldSays types ns g m)
        fields fields := by
    refine forall₂_right_iff hms fun f _ m hm g _ => ⟨fun h => ⟨m, hm, h⟩, ?_⟩
    rintro ⟨n, hn, h⟩
    rwa [hm.unique hn]
  rw [hread, hboth, List.forall₂_same]
  refine forall₂_congr fun f hf => ?_
  obtain ⟨m, -, hm⟩ := exists_of_mem_left hms hf
  obtain ⟨n, -, hn⟩ := exists_of_mem_left hns hf
  constructor
  · rintro ⟨k, ⟨-, x, t, hx, ht, ha⟩, -, y, u, hy, hu, hb⟩ x' y' t' hx' hy' ht'
    cases hx.symm.trans hx'
    cases hy.symm.trans hy'
    cases ht.symm.trans ht'
    cases ht.symm.trans hu
    exact (hspelled _ (Keyed.mem_of_get? hx) t y k.2 k.2 ha hb).mp rfl
  · intro hsame
    obtain ⟨hmname, x, t, hx, ht, ha⟩ := id hm
    obtain ⟨hnname, y, u, hy, hu, hb⟩ := id hn
    cases ht.symm.trans hu
    have hvalue := (hspelled _ (Keyed.mem_of_get? hx) t y m.2 n.2 ha hb).mpr
      (hsame x y t hx hy ht)
    obtain rfl : m = n := Prod.ext (hmname.trans hnname.symm) hvalue
    exact ⟨m, hm, hn⟩

theorem spelledAs_step (hitems : ∀ xs, v = .array xs → ∀ x ∈ xs, SpelledAs types x)
    (hmembers : ∀ ms, v = .object ms → ∀ m ∈ ms, SpelledAs types m.2) : SpelledAs types v := by
  intro t w a b hv hw
  cases t with
  | array item length =>
    obtain ⟨xs, as, rfl, rfl, -, hxs⟩ := ofJson?_array_eq_some_iff.mp hv
    obtain ⟨ys, bs, rfl, rfl, -, hys⟩ := ofJson?_array_eq_some_iff.mp hw
    rw [TypedValue.array.injEq, items_eq_iff (hitems xs rfl) hxs hys, List.forall₂_iff_zip]
    constructor
    · rintro ⟨hcount, hzip⟩
      exact .array hcount fun p hp => hzip hp
    · intro h
      cases h with
      | array hcount hzip => exact ⟨hcount, fun hp => hzip _ hp⟩
  | struct name =>
    obtain ⟨ms, fields, text, as, rfl, rfl, hg, hu, ht, hms⟩ := ofJson?_struct_eq_some_iff.mp hv
    obtain ⟨ns, fields', text', bs, rfl, rfl, hg', hu', ht', hns⟩ :=
      ofJson?_struct_eq_some_iff.mp hw
    obtain rfl : fields = fields' := Option.some.inj (hg.symm.trans hg')
    obtain rfl : text = text' := Except.ok.inj (ht.symm.trans ht')
    have hnames := mem_keys_iff hu hms
    rw [TypedValue.struct.injEq, and_iff_right rfl, members_eq_iff (hmembers ms rfl) hms hns]
    constructor
    · refine .struct hg (fun key => (hnames key).trans (mem_keys_iff hu' hns key).symm) hnames
        fun f hf => ?_
      obtain ⟨m, -, -, x, t, -, htype, -⟩ := exists_of_mem_left hms hf
      exact ⟨t, htype⟩
    · intro h
      cases h with
      | struct hg' _ _ _ hsame =>
        cases hg.symm.trans hg'
        exact hsame
  | _ =>
    simp only [ofJson?] at hv hw
    exact atom?_eq_iff_sameValue hv hw

/-- **Two values say one thing exactly if they are the same up to spelling.** -/
theorem ofJson?_eq_iff_sameValue {t : FieldType} (hv : ofJson? types v t = some a)
    (hw : ofJson? types w t = some b) : a = b ↔ SameValue types t v w :=
  Json.induction_of_step (fun _ => spelledAs_step) v t w a b hv hw

end TypedValue

/-! ### The hash of a struct -/

namespace TypeSchema

open Encode

/-- **The hash of a struct loses spellings and nothing else.** Two values that have a hash as one
struct have one hash if they say the same. Where they have one hash, they say the same, unless two
different byte strings that are hashed for them have one digest. -/
theorem hashStruct_binds_value {types : TypeSchema} {name : String} {v w : Json} {h k : Word}
    (hv : types.hashStruct name v = .ok h) (hw : types.hashStruct name w = .ok k) :
    (SameValue types (.struct name) v w → h = k) ∧
      (h = k → SameValue types (.struct name) v w ∨
        Collides (types.hashed name v ++ types.hashed name w)) := by
  obtain ⟨a, ha, rfl⟩ := hashStruct_eq_ok_iff.mp hv
  obtain ⟨b, hb, rfl⟩ := hashStruct_eq_ok_iff.mp hw
  have hsame := TypedValue.ofJson?_eq_iff_sameValue ha hb
  refine ⟨fun h => by rw [hsame.mpr h], fun hword => ?_⟩
  by_cases hcollides : Collides (types.hashed name v ++ types.hashed name w)
  · exact .inr hcollides
  · refine .inl (hsame.mp ?_)
    refine TypedValue.eq_of_word_eq (injOn_of_not_collides hcollides) (fun _ _ _ _ => rfl) ha hb
      (fun c hc => ?_) (fun c hc => ?_) hword
    · exact List.mem_append_left _ (hashed_eq ha ▸ hc)
    · exact List.mem_append_right _ (hashed_eq hb ▸ hc)

/-- A struct with an integer and two bytes. -/
def tagged : TypeSchema := KeyMap.ofList [("A", [⟨"n", "int8"⟩, ⟨"tag", "bytes2"⟩])]

/-- A value of it. -/
def taggedValue (n tag : Json) : Json := .object [("n", n), ("tag", tag)]

theorem tagged_said {n tag : Json} (hn : TypedValue.atom? (.int 0) n = some (.number (-1)))
    (htag : TypedValue.atom? (.fixedBytes 1) tag = some (.fixed [1, 0])) :
    TypedValue.ofJson? tagged (taggedValue n tag) (.struct "A") =
      some (.struct "A(int8 n,bytes2 tag)" [("n", .number (-1)), ("tag", .fixed [1, 0])]) := by
  have htext : tagged.encodeType "A" = .ok "A(int8 n,bytes2 tag)" := by decide +kernel
  rw [TypedValue.ofJson?_struct_eq_some_iff]
  refine ⟨_, _, _, _, rfl, rfl, rfl, rfl, htext, .cons ?_ (.cons ?_ .nil)⟩
  · exact ⟨rfl, n, .int 0, rfl, by decide +kernel, by simpa only [TypedValue.ofJson?] using hn⟩
  · exact ⟨rfl, tag, .fixedBytes 1, rfl, by decide +kernel,
      by simpa only [TypedValue.ofJson?] using htag⟩

theorem hashStruct_binds_value_tagged :
    ∃ h, tagged.hashStruct "A" (taggedValue (Json.ofInt (-1)) (.string "0x01")) = .ok h ∧
      tagged.hashStruct "A" (taggedValue (.string "-0x_1") (.string "0x0100")) = .ok h ∧
      (SameValue tagged (.struct "A") (taggedValue (Json.ofInt (-1)) (.string "0x01"))
          (taggedValue (.string "-0x_1") (.string "0x0100")) ∨
        Collides (tagged.hashed "A" (taggedValue (Json.ofInt (-1)) (.string "0x01")) ++
          tagged.hashed "A" (taggedValue (.string "-0x_1") (.string "0x0100")))) := by
  have hshort : TypedValue.atom? (.fixedBytes 1) (.string "0x01") = some (.fixed [1, 0]) :=
    TypedValue.atom?_fixedBytes_eq_some_iff.mpr
      ⟨[1], ⟨_, ['0', '1'], rfl, by decide, by decide⟩, by decide, rfl⟩
  have hpadded : TypedValue.atom? (.fixedBytes 1) (.string "0x0100") = some (.fixed [1, 0]) :=
    TypedValue.atom?_fixedBytes_eq_some_iff.mpr
      ⟨[1, 0], ⟨_, ['0', '1', '0', '0'], rfl, by decide, by decide⟩, by decide, rfl⟩
  have hv := hashStruct_eq_ok_iff.mpr ⟨_, tagged_said (n := Json.ofInt (-1)) rfl hshort, rfl⟩
  have hw := hashStruct_eq_ok_iff.mpr
    ⟨_, tagged_said (n := .string "-0x_1") (by rfl) hpadded, rfl⟩
  exact ⟨_, hv, hw, (hashStruct_binds_value hv hw).2 rfl⟩

end TypeSchema

end DocumentProof
