import DocumentProof.Proofs.TypedData.TypeText
import DocumentProof.TypedData.EncodeData

/-!
# Typed values

What a JSON value says under a type: a boolean, an integer, a text, bytes, or items and members that
are typed values again. Two JSON values may say the same, as `1` and `"0x01"` do under `uint8`, and
a byte string of fixed length is the same with and without zeros at its end.

`word` is the word that stands for a typed value. It takes the hash function as an argument, and
`hashed` lists the byte strings that it is applied to. `ofJson?` reads a JSON value under a type.
-/

namespace DocumentProof

/-- What a JSON value says under a type. The type of a struct is given by its text. -/
inductive TypedValue where
  | bool (b : Bool)
  | number (n : Int)
  | text (s : String)
  | bytes (bs : Bytes)
  | fixed (bs : Bytes)
  | account (w : Word)
  | array (items : List TypedValue)
  | struct (type : String) (members : List (String × TypedValue))

namespace TypedValue

/-! ### Words -/

section Words

variable (hash : Bytes → Word)

mutual

/-- The word of a typed value. -/
def word : TypedValue → Word
  | bool b => if b then 1 else 0
  | number n => BitVec.ofInt 256 n
  | text s => hash (Bytes.ofString s)
  | bytes bs => hash bs
  | fixed bs => Word.ofBytes (Bytes.padRight 32 bs)
  | account w => w
  | array xs => hash (Encode.concat (itemWords xs))
  | struct type ms => hash (Encode.concat (hash (Bytes.ofString type) :: memberWords ms))

def itemWords : List TypedValue → List Word
  | [] => []
  | x :: xs => x.word :: itemWords xs

def memberWords : List (String × TypedValue) → List Word
  | [] => []
  | (_, x) :: ms => x.word :: memberWords ms

end

mutual

/-- The byte strings that are hashed on the way to the word. -/
def hashed : TypedValue → List Bytes
  | text s => [Bytes.ofString s]
  | bytes bs => [bs]
  | array xs => Encode.concat (itemWords hash xs) :: itemsHashed xs
  | struct type ms =>
    Encode.concat (hash (Bytes.ofString type) :: memberWords hash ms) :: Bytes.ofString type ::
      membersHashed ms
  | _ => []

def itemsHashed : List TypedValue → List Bytes
  | [] => []
  | x :: xs => x.hashed ++ itemsHashed xs

def membersHashed : List (String × TypedValue) → List Bytes
  | [] => []
  | (_, x) :: ms => x.hashed ++ membersHashed ms

end

theorem itemWords_eq_map : ∀ xs : List TypedValue, itemWords hash xs = xs.map (word hash)
  | [] => rfl
  | x :: xs => by rw [itemWords, itemWords_eq_map xs, List.map_cons]

theorem memberWords_eq_map : ∀ ms : List (String × TypedValue),
    memberWords hash ms = ms.map fun m => m.2.word hash
  | [] => rfl
  | (k, x) :: ms => by rw [memberWords, memberWords_eq_map ms, List.map_cons]

variable {hash}

theorem mem_itemsHashed {b : Bytes} : ∀ {l : List TypedValue},
    b ∈ itemsHashed hash l ↔ ∃ x ∈ l, b ∈ x.hashed hash
  | [] => by simp [itemsHashed]
  | x :: xs => by simp [itemsHashed, mem_itemsHashed (l := xs)]

theorem mem_membersHashed {b : Bytes} : ∀ {l : List (String × TypedValue)},
    b ∈ membersHashed hash l ↔ ∃ m ∈ l, b ∈ m.2.hashed hash
  | [] => by simp [membersHashed]
  | (k, x) :: ms => by simp [membersHashed, mem_membersHashed (l := ms)]

end Words

/-! ### Reading -/

theorem bitCount_le (w : Fin 32) : FieldType.bitCount w ≤ 256 := by
  unfold FieldType.bitCount FieldType.byteCount
  omega

/-- What a value says under a type that is no array and no struct. -/
def atom? (t : FieldType) (v : Json) : Option TypedValue :=
  match t, v with
  | .bool, .bool b => some (bool b)
  | .string, .string s => some (text s)
  | .bytes, v => (Encode.hexBytes .bytes v).toOption.map bytes
  | .address, .string s => (Encode.account? s).map account
  | .uint w, v =>
    (Encode.natural? v).bind fun n =>
      if n < Nat.pow 2 (FieldType.bitCount w) then some (number n) else none
  | .int w, v =>
    (Encode.integer? v).bind fun n =>
      if -(Nat.pow 2 (FieldType.bitCount w - 1) : Int) ≤ n ∧
          n < (Nat.pow 2 (FieldType.bitCount w - 1) : Int) then
        some (number n)
      else none
  | .fixedBytes w, v =>
    (Encode.hexBytes (.fixedBytes w) v).toOption.bind fun bs =>
      if bs.length ≤ FieldType.byteCount w then
        some (fixed (Bytes.padRight (FieldType.byteCount w) bs))
      else none
  | _, _ => none

/-- What reads the value under a key, once its type is known. -/
abbrev Reader := FieldType → Option TypedValue

/-- What the fields of a struct say. -/
def fields? (readers : List (String × Reader)) :
    List Field → Option (List (String × TypedValue))
  | [] => some []
  | f :: fs => do
    let read ← readers.lookup f.name
    let a ← read (← FieldType.ofText? f.typeName)
    let as ← fields? readers fs
    return (f.name, a) :: as

/-- What an object says as a struct, which has to have exactly the struct's fields. -/
def struct? (types : TypeSchema) (name : String) (ms : List (String × Json))
    (readers : List (String × Reader)) : Option TypedValue := do
  let fields ← types.get? name
  if (Encode.undeclared? fields ms).isNone then
    let type ← (types.encodeType name).toOption
    return struct type (← fields? readers fields)
  else none

mutual

/-- What a value says under a type. -/
def ofJson? (types : TypeSchema) (v : Json) (t : FieldType) : Option TypedValue :=
  match t with
  | .array item length =>
    match v with
    | .array xs =>
      if (Encode.lengthFault? length xs.length).isNone then (items? types xs item).map array
      else none
    | _ => none
  | .struct name =>
    match v with
    | .object ms => struct? types name ms (readers types ms)
    | _ => none
  | t => atom? t v

def items? (types : TypeSchema) (xs : List Json) (t : FieldType) : Option (List TypedValue) :=
  match xs with
  | [] => some []
  | x :: xs => do
    let a ← ofJson? types x t
    let as ← items? types xs t
    return a :: as

def readers (types : TypeSchema) (ms : List (String × Json)) : List (String × Reader) :=
  match ms with
  | [] => []
  | (key, x) :: ms => (key, fun t => ofJson? types x t) :: readers types ms

end

variable {types : TypeSchema}

theorem items?_eq_some_iff {t : FieldType} : ∀ {l : List Json} {as : List TypedValue},
    items? types l t = some as ↔ List.Forall₂ (fun x a => ofJson? types x t = some a) l as
  | [], as => by
    rw [items?, List.forall₂_nil_left_iff, Option.some.injEq, eq_comm]
  | x :: xs, as => by
    simp only [items?, Option.bind_eq_bind, Option.bind_eq_some_iff, Option.pure_def,
      Option.some.injEq, items?_eq_some_iff (l := xs)]
    constructor
    · rintro ⟨a, ha, as', has, rfl⟩
      exact List.Forall₂.cons ha has
    · intro h
      cases h with
      | cons ha has => exact ⟨_, ha, _, has, rfl⟩

theorem readers_eq_map : ∀ ms : List (String × Json),
    readers types ms = ms.map fun m => (m.1, fun t => ofJson? types m.2 t)
  | [] => rfl
  | (k, x) :: ms => by rw [readers, readers_eq_map ms, List.map_cons]

theorem lookup_readers (ms : List (String × Json)) (key : String) :
    (readers types ms).lookup key = (Keyed.get? ms key).map fun x t => ofJson? types x t := by
  rw [readers_eq_map]
  exact Keyed.get?_map (fun _ x t => ofJson? types x t) key ms

/-- The field has a type and a value, and this is what the value says. -/
def FieldSays (types : TypeSchema) (ms : List (String × Json)) (f : Field)
    (m : String × TypedValue) : Prop :=
  m.1 = f.name ∧ ∃ x t, Keyed.get? ms f.name = some x ∧ FieldType.ofText? f.typeName = some t ∧
    ofJson? types x t = some m.2

theorem fields?_eq_some_iff {ms : List (String × Json)} :
    ∀ {l : List Field} {as : List (String × TypedValue)},
      fields? (readers types ms) l = some as ↔ List.Forall₂ (FieldSays types ms) l as
  | [], as => by
    rw [fields?, List.forall₂_nil_left_iff, Option.some.injEq, eq_comm]
  | f :: fs, as => by
    simp only [fields?, Option.bind_eq_bind, Option.bind_eq_some_iff, Option.pure_def,
      Option.some.injEq, lookup_readers, Option.map_eq_some_iff,
      fields?_eq_some_iff (l := fs)]
    constructor
    · rintro ⟨_, ⟨x, hx, rfl⟩, t, ht, a, ha, as', has, rfl⟩
      exact List.Forall₂.cons ⟨rfl, x, t, hx, ht, ha⟩ has
    · intro h
      cases h with
      | @cons _ m _ _ hm has =>
        obtain ⟨hname, x, t, hx, ht, ha⟩ := hm
        exact ⟨_, ⟨x, hx, rfl⟩, t, ht, _, ha, _, has, by rw [← hname]⟩

/-! ### Arrays and structs -/

/-- **What says something as an array** is an array, and every item says something. -/
theorem ofJson?_array_eq_some_iff {v : Json} {item : FieldType} {length : Option UInt64}
    {a : TypedValue} :
    ofJson? types v (.array item length) = some a ↔
      ∃ xs as, v = .array xs ∧ a = array as ∧ Encode.lengthFault? length xs.length = none ∧
        List.Forall₂ (fun x a => ofJson? types x item = some a) xs as := by
  constructor
  · intro h
    cases v with
    | array xs =>
      rw [ofJson?] at h
      split at h
      · next hl =>
        obtain ⟨as, has, rfl⟩ := Option.map_eq_some_iff.mp h
        exact ⟨xs, as, rfl, rfl, Option.isNone_iff_eq_none.mp hl, items?_eq_some_iff.mp has⟩
      · cases h
    | _ => simp [ofJson?] at h
  · rintro ⟨xs, as, rfl, rfl, hl, has⟩
    rw [ofJson?, hl, items?_eq_some_iff.mpr has]
    rfl

/-- **What says something as a struct** is an object with exactly its fields, and every field says
something. -/
theorem ofJson?_struct_eq_some_iff {v : Json} {name : String} {a : TypedValue} :
    ofJson? types v (.struct name) = some a ↔
      ∃ ms fields type as, v = .object ms ∧ a = struct type as ∧ types.get? name = some fields ∧
        Encode.undeclared? fields ms = none ∧ types.encodeType name = .ok type ∧
          List.Forall₂ (FieldSays types ms) fields as := by
  constructor
  · intro h
    cases v with
    | object ms =>
      rw [ofJson?, struct?] at h
      obtain ⟨fields, hg, h⟩ := Option.bind_eq_some_iff.mp h
      split at h
      · next hu =>
        obtain ⟨type, ht, h⟩ := Option.bind_eq_some_iff.mp h
        obtain ⟨as, has, h⟩ := Option.bind_eq_some_iff.mp h
        cases h
        exact ⟨ms, fields, type, as, rfl, rfl, hg, Option.isNone_iff_eq_none.mp hu,
          toOption_eq_some_iff.mp ht, fields?_eq_some_iff.mp has⟩
      · cases h
    | _ => simp [ofJson?] at h
  · rintro ⟨ms, fields, type, as, rfl, rfl, hg, hu, ht, has⟩
    rw [ofJson?, struct?, hg, Option.bind_eq_bind, Option.bind_some, hu, ht,
      fields?_eq_some_iff.mpr has]
    rfl

end TypedValue

end DocumentProof
