import DocumentProof.Proofs.TypedData.Encoder
import DocumentProof.TypedData.Envelope
import Mathlib.Algebra.Group.Int.Defs
import Mathlib.Data.Set.Function

/-!
# What a hash binds

Two values of one type with one word say the same, unless two of the byte strings hashed for them
have the same digest (`eq_of_word_eq`). The induction is on the first value. Below a struct it needs
that the two schemas agree on the structs that it reaches, which is what the equal texts of the
types give.
-/

namespace DocumentProof

/-- Two different byte strings of the list have the same digest. -/
def Collides (inputs : List Bytes) : Prop :=
  ∃ a ∈ inputs, ∃ b ∈ inputs, a ≠ b ∧ keccak256 a = keccak256 b

/-- Without a collision the digest tells the listed byte strings apart. -/
theorem injOn_of_not_collides {inputs : List Bytes} (h : ¬ Collides inputs) :
    Set.InjOn keccak256 {b | b ∈ inputs} := by
  intro a ha b hb hab
  by_contra hne
  exact h ⟨a, ha, b, hb, hne, hab⟩

namespace Encode

/-- **Words are read off the bytes that they stand in.** -/
theorem concat_inj : ∀ {ws vs : List Word}, concat ws = concat vs → ws = vs
  | [], [], _ => rfl
  | [], v :: vs, h => by
    have hlen := congrArg List.length h
    simp [concat, Word.length_toBytes] at hlen
    omega
  | w :: ws, [], h => by
    have hlen := congrArg List.length h
    simp [concat, Word.length_toBytes] at hlen
  | w :: ws, v :: vs, h => by
    have h' : w.toBytes ++ concat ws = v.toBytes ++ concat vs := h
    obtain ⟨hw, hws⟩ := List.append_inj h' (by rw [Word.length_toBytes, Word.length_toBytes])
    rw [Word.toBytes_inj hw, concat_inj hws]

end Encode

namespace TypedValue

variable {hash : Bytes → Word} {U : Set Bytes}

/-! ### Integers -/

theorem eq_of_ofInt_eq {m n : Int} (h : BitVec.ofInt 256 m = BitVec.ofInt 256 n)
    (hlo : -2 ^ 256 < m - n) (hhi : m - n < 2 ^ 256) : m = n := by
  have hmod : m % 2 ^ 256 = n % 2 ^ 256 := by
    have hm := congrArg BitVec.toNat h
    rw [BitVec.toNat_ofInt, BitVec.toNat_ofInt] at hm
    omega
  omega

/-- An unsigned integer takes at most one word. -/
theorem uint_of_atom? {w : Fin 32} {v : Json} {a : TypedValue} (h : atom? (.uint w) v = some a) :
    ∃ n : Nat, a = number n ∧ n < 2 ^ 256 := by
  obtain ⟨n, -, h⟩ := Option.bind_eq_some_iff.mp h
  split_ifs at h with hn
  cases h
  exact ⟨n, rfl, lt_of_lt_of_le hn (Nat.pow_le_pow_right (by omega) (bitCount_le w))⟩

/-- A signed integer takes at most one word. -/
theorem int_of_atom? {w : Fin 32} {v : Json} {a : TypedValue} (h : atom? (.int w) v = some a) :
    ∃ n : Int, a = number n ∧ -2 ^ 255 ≤ n ∧ n < 2 ^ 255 := by
  obtain ⟨n, -, h⟩ := Option.bind_eq_some_iff.mp h
  split_ifs at h with hn
  cases h
  have hpow : Nat.pow 2 (FieldType.bitCount w - 1) ≤ 2 ^ 255 :=
    Nat.pow_le_pow_right (by omega) (by have := bitCount_le w; omega)
  exact ⟨n, rfl, by omega, by omega⟩

/-! ### Atomic values -/

theorem fixed_of_atom? {w : Fin 32} {v : Json} {a : TypedValue}
    (h : atom? (.fixedBytes w) v = some a) :
    ∃ bs : Bytes, a = fixed bs ∧ bs.length = FieldType.byteCount w := by
  obtain ⟨bs, -, h⟩ := Option.bind_eq_some_iff.mp h
  split_ifs at h with hl
  cases h
  exact ⟨_, rfl, Bytes.length_padRight hl⟩

/-- **Atomic values of one type with one word say the same.** -/
theorem atom?_binds (hinj : Set.InjOn hash U) {t : FieldType} {v₁ v₂ : Json} {a₁ a₂ : TypedValue}
    (h₁ : atom? t v₁ = some a₁) (h₂ : atom? t v₂ = some a₂) (hU₁ : ∀ b ∈ a₁.hashed hash, b ∈ U)
    (hU₂ : ∀ b ∈ a₂.hashed hash, b ∈ U) (hw : a₁.word hash = a₂.word hash) : a₁ = a₂ := by
  cases t with
  | bool =>
    cases v₁ <;> cases v₂ <;> simp only [atom?, Option.some.injEq, reduceCtorEq] at h₁ h₂
    next b c =>
      subst h₁ h₂
      cases b <;> cases c <;> simp_all [word]
  | string =>
    cases v₁ <;> cases v₂ <;> simp only [atom?, Option.some.injEq, reduceCtorEq] at h₁ h₂
    next s r =>
      subst h₁ h₂
      have hs := hinj (hU₁ _ List.mem_cons_self) (hU₂ _ List.mem_cons_self) hw
      rw [Bytes.ofString_inj.mp hs]
  | bytes =>
    obtain ⟨bs, -, rfl⟩ := Option.map_eq_some_iff.mp h₁
    obtain ⟨cs, -, rfl⟩ := Option.map_eq_some_iff.mp h₂
    have hs := hinj (hU₁ _ List.mem_cons_self) (hU₂ _ List.mem_cons_self) hw
    rw [hs]
  | address =>
    cases v₁ <;> cases v₂ <;>
      simp only [atom?, Option.map_eq_some_iff, reduceCtorEq] at h₁ h₂
    next s r =>
      obtain ⟨w, -, rfl⟩ := h₁
      obtain ⟨u, -, rfl⟩ := h₂
      exact congrArg account hw
  | uint w =>
    obtain ⟨m, rfl, hm⟩ := uint_of_atom? h₁
    obtain ⟨n, rfl, hn⟩ := uint_of_atom? h₂
    rw [eq_of_ofInt_eq hw (by omega) (by omega)]
  | int w =>
    obtain ⟨m, rfl, hm⟩ := int_of_atom? h₁
    obtain ⟨n, rfl, hn⟩ := int_of_atom? h₂
    rw [eq_of_ofInt_eq hw (by omega) (by omega)]
  | fixedBytes w =>
    obtain ⟨bs, rfl, hb⟩ := fixed_of_atom? h₁
    obtain ⟨cs, rfl, hc⟩ := fixed_of_atom? h₂
    have hbound : FieldType.byteCount w ≤ 32 := w.isLt
    have hpad := Word.ofBytes_inj (Bytes.length_padRight (by omega))
      (Bytes.length_padRight (by omega)) hw
    rw [Bytes.eq_of_padRight_eq (hb.trans hc.symm) hpad]
  | array item length => simp [atom?] at h₁
  | struct name => simp [atom?] at h₁

/-! ### Arrays and structs -/

variable {types₁ types₂ : TypeSchema}

/-- What is to be shown of a value of the first schema: whatever has its word says the same. -/
def Binds (hash : Bytes → Word) (U : Set Bytes) (types₁ types₂ : TypeSchema) (v₁ : Json) : Prop :=
  ∀ t v₂ a₁ a₂, (∀ used, t.structName? = some used → TypeSchema.Agree types₁ types₂ used) →
    ofJson? types₁ v₁ t = some a₁ → ofJson? types₂ v₂ t = some a₂ →
    (∀ b ∈ a₁.hashed hash, b ∈ U) → (∀ b ∈ a₂.hashed hash, b ∈ U) →
    a₁.word hash = a₂.word hash → a₁ = a₂

theorem items_binds {item : FieldType}
    (hagree : ∀ used, item.structName? = some used → TypeSchema.Agree types₁ types₂ used) :
    ∀ {xs ys : List Json} {as bs : List TypedValue},
      (∀ x ∈ xs, Binds hash U types₁ types₂ x) →
      List.Forall₂ (fun x a => ofJson? types₁ x item = some a) xs as →
      List.Forall₂ (fun y b => ofJson? types₂ y item = some b) ys bs →
      (∀ a ∈ as, ∀ b ∈ a.hashed hash, b ∈ U) → (∀ a ∈ bs, ∀ b ∈ a.hashed hash, b ∈ U) →
      as.map (word hash) = bs.map (word hash) → as = bs
  | _, _, [], [], _, _, _, _, _, _ => rfl
  | _, _, [], _ :: _, _, _, _, _, _, hw => by simp at hw
  | _, _, _ :: _, [], _, _, _, _, _, hw => by simp at hw
  | x :: xs, y :: ys, a :: as, b :: bs, hx, .cons ha has, .cons hb hbs, hUa, hUb, hw => by
    obtain ⟨hword, hwords⟩ := List.cons_eq_cons.mp hw
    rw [hx x List.mem_cons_self item y a b hagree ha hb (hUa a List.mem_cons_self)
        (hUb b List.mem_cons_self) hword,
      items_binds hagree (fun z hz => hx z (List.mem_cons_of_mem _ hz)) has hbs
        (fun z hz => hUa z (List.mem_cons_of_mem _ hz))
        (fun z hz => hUb z (List.mem_cons_of_mem _ hz)) hwords]

theorem members_binds {ms₁ ms₂ : List (String × Json)}
    (hms : ∀ m ∈ ms₁, Binds hash U types₁ types₂ m.2) :
    ∀ {fs : List Field} {as bs : List (String × TypedValue)},
      (∀ f ∈ fs, ∀ t, FieldType.ofText? f.typeName = some t → ∀ used, t.structName? = some used →
        TypeSchema.Agree types₁ types₂ used) →
      List.Forall₂ (FieldSays types₁ ms₁) fs as → List.Forall₂ (FieldSays types₂ ms₂) fs bs →
      (∀ a ∈ as, ∀ b ∈ a.2.hashed hash, b ∈ U) → (∀ a ∈ bs, ∀ b ∈ a.2.hashed hash, b ∈ U) →
      as.map (fun m => m.2.word hash) = bs.map (fun m => m.2.word hash) → as = bs
  | [], _, _, _, .nil, .nil, _, _, _ => rfl
  | f :: fs, a :: as, b :: bs, hagree, .cons ha has, .cons hb hbs, hUa, hUb, hw => by
    obtain ⟨hword, hwords⟩ := List.cons_eq_cons.mp hw
    obtain ⟨hna, x, t, hx, ht, hax⟩ := ha
    obtain ⟨hnb, y, t', hy, ht', hby⟩ := hb
    obtain rfl : t = t' := Option.some.inj (ht.symm.trans ht')
    have hab := hms _ (Keyed.mem_of_get? hx) t y a.2 b.2 (hagree f List.mem_cons_self t ht) hax hby
      (hUa a List.mem_cons_self) (hUb b List.mem_cons_self) hword
    rw [show a = b from Prod.ext (hna.trans hnb.symm) hab,
      members_binds hms (fun g hg => hagree g (List.mem_cons_of_mem _ hg)) has hbs
        (fun z hz => hUa z (List.mem_cons_of_mem _ hz))
        (fun z hz => hUb z (List.mem_cons_of_mem _ hz)) hwords]

/-- Structs with one word have types with one text. -/
theorem type_eq_of_word_eq (hinj : Set.InjOn hash U) {type₁ type₂ : String}
    {as bs : List (String × TypedValue)} (hU₁ : ∀ b ∈ (struct type₁ as).hashed hash, b ∈ U)
    (hU₂ : ∀ b ∈ (struct type₂ bs).hashed hash, b ∈ U)
    (hw : (struct type₁ as).word hash = (struct type₂ bs).word hash) : type₁ = type₂ := by
  have hconcat := Encode.concat_inj
    (hinj (hU₁ _ List.mem_cons_self) (hU₂ _ List.mem_cons_self) hw)
  have htext := hinj (hU₁ _ (List.mem_cons_of_mem _ List.mem_cons_self))
    (hU₂ _ (List.mem_cons_of_mem _ List.mem_cons_self)) (List.cons_eq_cons.mp hconcat).1
  exact Bytes.ofString_inj.mp htext

theorem binds_step (hinj : Set.InjOn hash U) {v₁ : Json}
    (hitems : ∀ xs, v₁ = .array xs → ∀ x ∈ xs, Binds hash U types₁ types₂ x)
    (hmembers : ∀ ms, v₁ = .object ms → ∀ m ∈ ms, Binds hash U types₁ types₂ m.2) :
    Binds hash U types₁ types₂ v₁ := by
  intro t v₂ a₁ a₂ hagree h₁ h₂ hU₁ hU₂ hw
  cases t with
  | array item length =>
    obtain ⟨xs, as, rfl, rfl, -, has⟩ := ofJson?_array_eq_some_iff.mp h₁
    obtain ⟨ys, bs, rfl, rfl, -, hbs⟩ := ofJson?_array_eq_some_iff.mp h₂
    have hwords := Encode.concat_inj
      (hinj (hU₁ _ List.mem_cons_self) (hU₂ _ List.mem_cons_self) hw)
    rw [itemWords_eq_map, itemWords_eq_map] at hwords
    have hin : ∀ {cs : List TypedValue}, (∀ b ∈ (array cs).hashed hash, b ∈ U) →
        ∀ c ∈ cs, ∀ b ∈ c.hashed hash, b ∈ U := fun hU c hc b hb =>
      hU b (List.mem_cons_of_mem _ (mem_itemsHashed.mpr ⟨c, hc, hb⟩))
    have hitem : ∀ used, item.structName? = some used → TypeSchema.Agree types₁ types₂ used := hagree
    rw [items_binds hitem (hitems xs rfl) has hbs (hin hU₁) (hin hU₂) hwords]
  | struct name =>
    obtain ⟨ms, fields, type, as, rfl, rfl, hg, -, -, has⟩ := ofJson?_struct_eq_some_iff.mp h₁
    obtain ⟨ns, fields', type', bs, rfl, rfl, hg', -, -, hbs⟩ := ofJson?_struct_eq_some_iff.mp h₂
    have hname := hagree name rfl
    obtain rfl : fields = fields' := by
      have := hname name Relation.ReflTransGen.refl
      rw [hg, hg'] at this
      exact Option.some.inj this
    have hwords := (List.cons_eq_cons.mp (Encode.concat_inj
      (hinj (hU₁ _ List.mem_cons_self) (hU₂ _ List.mem_cons_self) hw))).2
    rw [memberWords_eq_map, memberWords_eq_map] at hwords
    have hin : ∀ {type : String} {cs : List (String × TypedValue)},
        (∀ b ∈ (struct type cs).hashed hash, b ∈ U) →
        ∀ c ∈ cs, ∀ b ∈ c.2.hashed hash, b ∈ U := fun hU c hc b hb =>
      hU b (List.mem_cons_of_mem _ (List.mem_cons_of_mem _ (mem_membersHashed.mpr ⟨c, hc, hb⟩)))
    have hbelow : ∀ f ∈ fields, ∀ t, FieldType.ofText? f.typeName = some t → ∀ used,
        t.structName? = some used → TypeSchema.Agree types₁ types₂ used :=
      fun f hf t ht used hu => hname.of_refers ⟨fields, f, t, hg, hf, ht, hu⟩
    rw [members_binds (hmembers ms rfl) hbelow has hbs (hin hU₁) (hin hU₂) hwords,
      type_eq_of_word_eq hinj hU₁ hU₂ hw]
  | _ =>
    simp only [ofJson?] at h₁ h₂
    exact atom?_binds hinj h₁ h₂ hU₁ hU₂ hw

/-- **Values of one type with one word say the same,** where the hash tells the byte strings apart
that are hashed for them. -/
theorem eq_of_word_eq (hinj : Set.InjOn hash U) {v₁ v₂ : Json} {t : FieldType}
    {a₁ a₂ : TypedValue}
    (hagree : ∀ used, t.structName? = some used → TypeSchema.Agree types₁ types₂ used)
    (h₁ : ofJson? types₁ v₁ t = some a₁) (h₂ : ofJson? types₂ v₂ t = some a₂)
    (hU₁ : ∀ b ∈ a₁.hashed hash, b ∈ U) (hU₂ : ∀ b ∈ a₂.hashed hash, b ∈ U)
    (hw : a₁.word hash = a₂.word hash) : a₁ = a₂ :=
  Json.induction_of_step (fun _ => binds_step hinj) v₁ t v₂ a₁ a₂ hagree h₁ h₂ hU₁ hU₂ hw

/-- **Structs with one word are one struct, defined in the same way, and say the same,** where the
texts of their types can be cut in one way. -/
theorem struct_binds (hinj : Set.InjOn hash U) {name₁ name₂ : String} {v₁ v₂ : Json}
    {a₁ a₂ : TypedValue} (s₁ : types₁.Separable name₁) (s₂ : types₂.Separable name₂)
    (h₁ : ofJson? types₁ v₁ (.struct name₁) = some a₁)
    (h₂ : ofJson? types₂ v₂ (.struct name₂) = some a₂)
    (hU₁ : ∀ b ∈ a₁.hashed hash, b ∈ U) (hU₂ : ∀ b ∈ a₂.hashed hash, b ∈ U)
    (hw : a₁.word hash = a₂.word hash) :
    name₁ = name₂ ∧ TypeSchema.Agree types₁ types₂ name₁ ∧ a₁ = a₂ := by
  obtain ⟨-, -, type₁, as, -, rfl, -, -, ht₁, -⟩ := ofJson?_struct_eq_some_iff.mp h₁
  obtain ⟨-, -, type₂, bs, -, rfl, -, -, ht₂, -⟩ := ofJson?_struct_eq_some_iff.mp h₂
  obtain rfl : type₁ = type₂ := type_eq_of_word_eq hinj hU₁ hU₂ hw
  obtain ⟨rfl, hagree⟩ := TypeSchema.agree_of_encodeType_eq s₁ s₂ ht₁ ht₂
  have hsome : ∀ used, (FieldType.struct name₁).structName? = some used →
      TypeSchema.Agree types₁ types₂ used := fun used hu => Option.some.inj hu ▸ hagree
  exact ⟨rfl, hagree, eq_of_word_eq hinj hsome h₁ h₂ hU₁ hU₂ hw⟩

end TypedValue

namespace TypeSchema

/-- The byte strings that are hashed for the hash of a struct. -/
def hashed (types : TypeSchema) (name : String) (v : Json) : List Bytes :=
  match TypedValue.ofJson? types v (.struct name) with
  | some a => a.hashed keccak256
  | none => []

theorem hashed_eq {types : TypeSchema} {name : String} {v : Json} {a : TypedValue}
    (h : TypedValue.ofJson? types v (.struct name) = some a) :
    types.hashed name v = a.hashed keccak256 := by
  unfold hashed
  rw [h]

end TypeSchema

end DocumentProof
