import Mathlib.Data.List.Forall2

/-!
# Computations that may fail

When a computation of `Except` gives a value or an error: after a bind (`bind_eq_ok_iff`,
`bind_eq_error_iff`), and when it is done for each item of a list (`mapM_eq_ok_iff`). A relation
between two lists item by item that goes through a third list is one with a list in between
(`forall₂_iff_exists_map`).
-/

namespace DocumentProof

variable {ε α β : Type}

theorem bind_eq_ok_iff {x : Except ε α} {f : α → Except ε β} {b : β} :
    (x >>= f) = .ok b ↔ ∃ a, x = .ok a ∧ f a = .ok b := by
  cases x with
  | error e =>
    refine ⟨fun h => ?_, ?_⟩
    · cases h
    · rintro ⟨a, h, -⟩
      cases h
  | ok a =>
    refine ⟨fun h => ⟨a, rfl, h⟩, ?_⟩
    rintro ⟨a', h, hf⟩
    cases h
    exact hf

theorem bind_eq_error_iff {x : Except ε α} {f : α → Except ε β} {e : ε} :
    (x >>= f) = .error e ↔ x = .error e ∨ ∃ a, x = .ok a ∧ f a = .error e := by
  cases x <;> simp [bind, Except.bind]

/-- What follows a computation matters only for the values that it gives. -/
theorem bind_congr_of_ok {x : Except ε α} {f g : α → Except ε β}
    (h : ∀ a, x = .ok a → f a = g a) : x >>= f = x >>= g := by
  cases x with
  | error e => rfl
  | ok a => exact h a rfl

theorem pure_eq_ok_iff {a b : α} : (pure a : Except ε α) = .ok b ↔ a = b := Except.ok.injEq a b ▸ Iff.rfl

theorem mapError_eq_ok_iff {ε' : Type} {g : ε → ε'} {x : Except ε α} {a : α} :
    x.mapError g = .ok a ↔ x = .ok a := by
  cases x <;> simp [Except.mapError]

theorem mapError_eq_error_iff {ε' : Type} {g : ε → ε'} {x : Except ε α} {e : ε'} :
    x.mapError g = .error e ↔ ∃ e', x = .error e' ∧ g e' = e := by
  cases x <;> simp [Except.mapError]

/-- **Doing the same for each item succeeds exactly when it does for every one.** -/
theorem mapM_eq_ok_iff {f : α → Except ε β} : ∀ {l : List α} {ys : List β},
    l.mapM f = .ok ys ↔ List.Forall₂ (fun x y => f x = .ok y) l ys
  | [], ys => by
    rw [List.mapM_nil, pure_eq_ok_iff, List.forall₂_nil_left_iff, eq_comm]
  | x :: xs, ys => by
    simp only [List.mapM_cons, bind_eq_ok_iff, pure_eq_ok_iff, mapM_eq_ok_iff (l := xs)]
    constructor
    · rintro ⟨y, hy, zs, hzs, rfl⟩
      exact List.Forall₂.cons hy hzs
    · intro h
      cases h with
      | cons hy hzs => exact ⟨_, hy, _, hzs, rfl⟩

theorem mapM_congr {f g : α → Except ε β} : ∀ {l : List α}, (∀ x ∈ l, f x = g x) →
    l.mapM f = l.mapM g
  | [], _ => rfl
  | x :: xs, h => by
    obtain ⟨hx, hxs⟩ := List.forall_mem_cons.mp h
    rw [List.mapM_cons, List.mapM_cons, hx, mapM_congr hxs]

theorem exists_mapM_eq_ok {f : α → Except ε β} : ∀ {xs : List α}, (∀ x ∈ xs, ∃ y, f x = .ok y) →
    ∃ ys, xs.mapM f = .ok ys
  | [], _ => ⟨[], rfl⟩
  | x :: xs, h => by
    obtain ⟨y, hy⟩ := h x List.mem_cons_self
    obtain ⟨ys, hys⟩ := exists_mapM_eq_ok fun z hz => h z (List.mem_cons_of_mem x hz)
    exact ⟨y :: ys, mapM_eq_ok_iff.mpr (List.Forall₂.cons hy (mapM_eq_ok_iff.mp hys))⟩

theorem toOption_eq_some_iff {x : Except ε α} {a : α} : x.toOption = some a ↔ x = .ok a := by
  cases x <;> simp [Except.toOption]

theorem exists_of_mem_right {R : α → β → Prop} {xs : List α} {ys : List β}
    (h : List.Forall₂ R xs ys) {y : β} (hy : y ∈ ys) : ∃ x ∈ xs, R x y := by
  induction h with
  | nil => cases hy
  | cons hr _ ih =>
    rcases List.mem_cons.mp hy with rfl | hy
    · exact ⟨_, List.mem_cons_self, hr⟩
    · obtain ⟨x, hx, hxy⟩ := ih hy
      exact ⟨x, List.mem_cons_of_mem _ hx, hxy⟩

theorem exists_of_mem_left {R : α → β → Prop} {xs : List α} {ys : List β}
    (h : List.Forall₂ R xs ys) {x : α} (hx : x ∈ xs) : ∃ y ∈ ys, R x y := by
  obtain ⟨y, hy, hr⟩ := exists_of_mem_right h.flip hx
  exact ⟨y, hy, hr⟩

theorem exists_forall₂_iff {R : α → β → Prop} : ∀ {xs : List α},
    (∃ ys, List.Forall₂ R xs ys) ↔ ∀ x ∈ xs, ∃ y, R x y
  | [] => by simp
  | x :: xs => by
    rw [List.forall_mem_cons, ← exists_forall₂_iff]
    constructor
    · rintro ⟨ys, h⟩
      cases h with
      | cons hy hys => exact ⟨⟨_, hy⟩, _, hys⟩
    · rintro ⟨⟨y, hy⟩, ys, hys⟩
      exact ⟨y :: ys, List.Forall₂.cons hy hys⟩

/-- Lists related item by item to one list are related to each other. -/
theorem forall₂_comp {γ : Type} {R : α → β → Prop} {S : β → γ → Prop} {T : α → γ → Prop} :
    ∀ {xs : List α} {ys : List β} {zs : List γ}, (∀ x ∈ xs, ∀ y z, R x y → S y z → T x z) →
      List.Forall₂ R xs ys → List.Forall₂ S ys zs → List.Forall₂ T xs zs
  | [], _, _, _, .nil, .nil => .nil
  | x :: _, _, _, h, .cons hr hrs, .cons hs hss =>
    .cons (h x List.mem_cons_self _ _ hr hs)
      (forall₂_comp (fun w hw => h w (List.mem_cons_of_mem x hw)) hrs hss)

/-- Where each item is related to another through one in between, so are the lists. -/
theorem forall₂_iff_exists_map {γ : Type} {R : α → β → Prop} {S : α → γ → Prop} {g : γ → β} :
    ∀ {xs : List α} {ys : List β}, (∀ x ∈ xs, ∀ y, R x y ↔ ∃ z, S x z ∧ g z = y) →
      (List.Forall₂ R xs ys ↔ ∃ zs, List.Forall₂ S xs zs ∧ zs.map g = ys)
  | [], ys, _ => by
    rw [List.forall₂_nil_left_iff]
    constructor
    · rintro rfl
      exact ⟨[], List.Forall₂.nil, rfl⟩
    · rintro ⟨zs, hzs, rfl⟩
      rw [List.forall₂_nil_left_iff.mp hzs, List.map_nil]
  | x :: xs, ys, h => by
    have ih : ∀ ys, List.Forall₂ R xs ys ↔ ∃ zs, List.Forall₂ S xs zs ∧ zs.map g = ys :=
      fun _ => forall₂_iff_exists_map fun z hz => h z (List.mem_cons_of_mem x hz)
    constructor
    · intro hr
      cases hr with
      | cons hy hys =>
        obtain ⟨z, hz, rfl⟩ := (h x List.mem_cons_self _).mp hy
        obtain ⟨zs, hzs, rfl⟩ := (ih _).mp hys
        exact ⟨z :: zs, List.Forall₂.cons hz hzs, rfl⟩
    · rintro ⟨zs, hzs, rfl⟩
      cases hzs with
      | cons hz hzs =>
        exact List.Forall₂.cons ((h x List.mem_cons_self _).mpr ⟨_, hz, rfl⟩)
          ((ih _).mpr ⟨_, hzs, rfl⟩)

/-- Two lists that are related item by item to a third: where each item of the one tells which items
are related to the same as it is, so do the lists. -/
theorem forall₂_right_iff {γ : Type} {R : α → β → Prop} {S : γ → β → Prop} {T : α → γ → Prop} :
    ∀ {xs : List α} {as : List β} {ys : List γ}, List.Forall₂ R xs as →
      (∀ x ∈ xs, ∀ a, R x a → ∀ y ∈ ys, (S y a ↔ T x y)) →
        (List.Forall₂ S ys as ↔ List.Forall₂ T xs ys)
  | [], _, ys, .nil, _ => by
    rw [List.forall₂_nil_right_iff, List.forall₂_nil_left_iff]
  | x :: xs, _, [], .cons _ _, _ => by
    constructor
    · intro h
      cases h
    · intro h
      cases h
  | x :: xs, _, y :: ys, .cons hr hrs, h => by
    rw [List.forall₂_cons, List.forall₂_cons, h x List.mem_cons_self _ hr y List.mem_cons_self,
      forall₂_right_iff hrs fun z hz a ha w hw =>
        h z (List.mem_cons_of_mem x hz) a ha w (List.mem_cons_of_mem y hw)]

end DocumentProof
