import DocumentProof.Proofs.Keyed
import DocumentProof.Schema.Registry
import Mathlib.Data.List.Perm.Basic

/-!
# Registering one after the other

A registry stays with its holder while types are registered in it, also when a registration is
refused (`next`). After any calls a name has the fields that it was first registered with
(`get?_after`), and all calls succeed exactly if they agree on the fields of each name
(`allSucceed_iff`), in whatever order they are made. A registry that is changed in place ends up the
same: what `enter` has changed before it fails stays changed, but it has changed nothing by then
(`enter_run`).
-/

namespace DocumentProof

namespace Registry

/-- A name and the fields to register under it. -/
abbrev Call := String × List Field

/-- What a call answers. -/
def answer (r : Registry) (c : Call) : Except SchemaError Unit :=
  (r.register c.1 c.2).map fun _ => ()

/-- The registry that its holder has after a call. -/
def next (r : Registry) (c : Call) : Registry :=
  match r.register c.1 c.2 with
  | .ok r' => r'
  | .error _ => r

/-- The registry after calls that start from an empty one. -/
def after (cs : List Call) : Registry := cs.foldl next empty

/-- No call is refused. -/
def AllSucceed (cs : List Call) : Prop :=
  ∀ front c, front ++ [c] <+: cs → answer (after front) c = .ok ()

/-- Calls with one name have the same fields. -/
def Consistent (cs : List Call) : Prop := ∀ c ∈ cs, ∀ d ∈ cs, c.1 = d.1 → c.2 = d.2

variable {r : Registry} {c : Call} {cs ds : List Call}

/-! ### One call -/

/-- What a call can do: bind a new name, find the fields that it brings, or be refused. -/
inductive Steps (r : Registry) (c : Call) : Prop
  | binds (hget : r.types.get? c.1 = none) (hanswer : answer r c = .ok ())
      (hnext : next r c = ⟨r.types.put c.1 c.2⟩)
  | finds (hget : r.types.get? c.1 = some c.2) (hanswer : answer r c = .ok ())
      (hnext : next r c = r)
  | refuses {fields : List Field} (hget : r.types.get? c.1 = some fields) (hne : fields ≠ c.2)
      (hanswer : answer r c = .error (.collision c.1 fields c.2)) (hnext : next r c = r)

theorem steps (r : Registry) (c : Call) : Steps r c := by
  cases hget : r.types.get? c.1 with
  | none =>
    have hregister : r.register c.1 c.2 = .ok ⟨r.types.put c.1 c.2⟩ := by
      rw [register, hget]
    exact .binds hget (by rw [answer, hregister]; rfl) (by rw [next, hregister])
  | some fields =>
    by_cases heq : fields = c.2
    · have hregister : r.register c.1 c.2 = .ok r := by
        simp only [register, hget, if_pos heq]
      exact .finds (heq ▸ hget) (by rw [answer, hregister]; rfl) (by rw [next, hregister])
    · have hregister : r.register c.1 c.2 = .error (.collision c.1 fields c.2) := by
        simp only [register, hget, if_neg heq]
      exact .refuses hget heq (by rw [answer, hregister]; rfl) (by rw [next, hregister])

/-- A call is refused exactly if its name has other fields. -/
theorem exists_error_iff : (∃ e, answer r c = .error e) ↔
    ∃ fields, r.types.get? c.1 = some fields ∧ fields ≠ c.2 := by
  rcases steps r c with ⟨hget, hanswer, -⟩ | ⟨hget, hanswer, -⟩ | ⟨hget, hne, hanswer, -⟩
  · simp [hget, hanswer]
  · simp [hget, hanswer]
  · exact iff_of_true ⟨_, hanswer⟩ ⟨_, hget, hne⟩

theorem next_of_error {e : SchemaError} (h : answer r c = .error e) : next r c = r := by
  rcases steps r c with ⟨-, hanswer, -⟩ | ⟨-, -, hnext⟩ | ⟨-, -, -, hnext⟩
  · rw [hanswer] at h
    cases h
  · exact hnext
  · exact hnext

/-- **A call binds its name if it has no fields yet,** and changes nothing else. -/
theorem get?_next (r : Registry) (c : Call) (name : String) : (next r c).types.get? name =
    (r.types.get? name).or (if name = c.1 then some c.2 else none) := by
  have hkept : r.types.get? c.1 ≠ none → r.types.get? name =
      (r.types.get? name).or (if name = c.1 then some c.2 else none) := by
    intro hbound
    by_cases hname : name = c.1
    · obtain ⟨fields, hfields⟩ := Option.ne_none_iff_exists'.mp hbound
      rw [hname, hfields, Option.some_or]
    · rw [if_neg hname, Option.or_none]
  rcases steps r c with ⟨hget, -, hnext⟩ | ⟨hget, -, hnext⟩ | ⟨hget, -, -, hnext⟩
  · rw [hnext, KeyMap.get?_put]
    by_cases hname : name = c.1
    · rw [if_pos hname, if_pos hname, hname, hget, Option.none_or]
    · rw [if_neg hname, if_neg hname, Option.or_none]
  · rw [hnext]
    exact hkept (by simp [hget])
  · rw [hnext]
    exact hkept (by simp [hget])

/-! ### Registration in place -/

/-- What a call does in place when its name has been looked up. -/
def settle (c : Call) : Option (List Field) → ExceptT SchemaError (StateM Registry) Unit
  | none => modify fun r => ⟨r.types.put c.1 c.2⟩
  | some existing => if existing = c.2 then pure () else throw (.collision c.1 existing c.2)

/-- Registration in place. -/
def enter (c : Call) : ExceptT SchemaError (StateM Registry) Unit := do
  settle c ((← get).types.get? c.1)

/-- **In place, a call answers the same and leaves the same registry.** -/
theorem enter_run (r : Registry) (c : Call) : (enter c).run.run r = (answer r c, next r c) := by
  have hsettle : (enter c).run.run r = (settle c (r.types.get? c.1)).run.run r := rfl
  rw [hsettle]
  rcases steps r c with ⟨hget, hanswer, hnext⟩ | ⟨hget, hanswer, hnext⟩ |
    ⟨hget, hne, hanswer, hnext⟩
  · rw [hget, hanswer, hnext]
    rfl
  · rw [hget, hanswer, hnext, settle, if_pos rfl]
    rfl
  · rw [hget, hanswer, hnext, settle, if_neg hne]
    rfl

/-! ### Calls in a row -/

theorem get?_foldl_next (name : String) : ∀ (cs : List Call) (r : Registry),
    (cs.foldl next r).types.get? name = (r.types.get? name).or (Keyed.get? cs name)
  | [], r => (Option.or_none).symm
  | c :: cs, r => by
    rw [List.foldl_cons, get?_foldl_next name cs, get?_next, Option.or_assoc,
      show c :: cs = (c.1, c.2) :: cs from rfl, Keyed.get?_cons]
    split_ifs <;> rfl

/-- **A name has the fields that it was first registered with.** -/
theorem get?_after (cs : List Call) (name : String) :
    (after cs).types.get? name = Keyed.get? cs name := by
  unfold after
  rw [get?_foldl_next]
  rfl

theorem after_concat (cs : List Call) (c : Call) : after (cs ++ [c]) = next (after cs) c := by
  unfold after
  rw [List.foldl_append]
  rfl

/-- Consistent calls give each name the fields of any call with it. -/
theorem Consistent.get?_eq_some_iff (h : Consistent cs) {name : String} {fields : List Field} :
    Keyed.get? cs name = some fields ↔ (name, fields) ∈ cs := by
  constructor
  · exact Keyed.mem_of_get?
  · intro hmem
    obtain ⟨first, hfirst⟩ := Keyed.exists_get?_of_mem hmem
    have heq : first = fields := h _ (Keyed.mem_of_get? hfirst) _ hmem rfl
    rw [hfirst, heq]

/-- A call that succeeds has the fields of its name. -/
theorem AllSucceed.get?_of_mem (h : AllSucceed cs) (hc : c ∈ cs) :
    Keyed.get? cs c.1 = some c.2 := by
  obtain ⟨front, back, rfl⟩ := List.append_of_mem hc
  have hok : answer (after front) c = .ok () := h front c ⟨back, by simp⟩
  have hcons : Keyed.get? (c :: back) c.1 = some c.2 := by
    rw [show c :: back = (c.1, c.2) :: back from rfl, Keyed.get?_cons, if_pos rfl]
  rw [Keyed.get?_append, hcons]
  cases hfront : Keyed.get? front c.1 with
  | none => rfl
  | some fields =>
    by_contra hne
    rw [Option.some_or, Option.some_inj] at hne
    rw [← get?_after] at hfront
    obtain ⟨e, he⟩ := exists_error_iff.mpr ⟨fields, hfront, hne⟩
    rw [he] at hok
    cases hok

/-- **All calls succeed exactly if they are consistent.** -/
theorem allSucceed_iff : AllSucceed cs ↔ Consistent cs := by
  constructor
  · intro h c hc d hd hname
    have hfields := h.get?_of_mem hc
    rw [hname, h.get?_of_mem hd] at hfields
    exact (Option.some.inj hfields).symm
  · intro h front c hbegin
    cases hanswer : answer (after front) c with
    | ok u => rfl
    | error e =>
      obtain ⟨fields, hget, hne⟩ := exists_error_iff.mp ⟨e, hanswer⟩
      rw [get?_after] at hget
      have hearlier : (c.1, fields) ∈ cs :=
        hbegin.subset (List.mem_append_left _ (Keyed.mem_of_get? hget))
      have hcall : c ∈ cs := hbegin.subset (List.mem_append_right _ List.mem_cons_self)
      exact absurd (h _ hearlier _ hcall rfl) hne

theorem Consistent.perm (h : Consistent cs) (hperm : cs.Perm ds) : Consistent ds :=
  fun c hc d hd => h c (hperm.mem_iff.mpr hc) d (hperm.mem_iff.mpr hd)

/-- **The order of consistent calls does not matter.** -/
theorem Consistent.after_perm (h : Consistent cs) (hperm : cs.Perm ds) : after ds = after cs := by
  have htypes : (after ds).types = (after cs).types := by
    ext name : 1
    rw [get?_after, get?_after]
    ext fields : 1
    rw [(h.perm hperm).get?_eq_some_iff, h.get?_eq_some_iff]
    exact hperm.mem_iff.symm
  exact congrArg Registry.mk htypes

/-- **Registration is atomic, and its order does not matter:** of calls from an empty registry, each
name has the fields of its first call and no other name has any; one more call is refused exactly if
its name has other fields, and then changes nothing, in place neither; all calls succeed exactly if
those with one name have the same fields, and then they do so in any order and give the same schema.
-/
theorem registration (cs : List Call) :
    (∀ name, (after cs).types.get? name = Keyed.get? cs name) ∧
    (∀ c, ((∃ e, answer (after cs) c = .error e) ↔
        ∃ fields, (after cs).types.get? c.1 = some fields ∧ fields ≠ c.2) ∧
      ((∃ e, answer (after cs) c = .error e) → after (cs ++ [c]) = after cs) ∧
      (enter c).run.run (after cs) = (answer (after cs) c, after (cs ++ [c]))) ∧
    (AllSucceed cs ↔ Consistent cs) ∧
    (AllSucceed cs → ∀ ds, cs.Perm ds →
      AllSucceed ds ∧ (after ds).toSchema = (after cs).toSchema) := by
  refine ⟨get?_after cs, fun c => ⟨exists_error_iff, ?_, ?_⟩, allSucceed_iff,
    fun h ds hperm => ?_⟩
  · rintro ⟨e, he⟩
    rw [after_concat, next_of_error he]
  · rw [enter_run, after_concat]
  · have hconsistent := allSucceed_iff.mp h
    exact ⟨allSucceed_iff.mpr (hconsistent.perm hperm),
      congrArg toSchema (hconsistent.after_perm hperm)⟩

/-- Calls of which two are the same. -/
def repeated : List Call := [("A", [⟨"x", "bool"⟩]), ("A", [⟨"x", "bool"⟩]), ("B", [])]

theorem registration_repeated : AllSucceed repeated ∧ AllSucceed repeated.reverse ∧
    (after repeated.reverse).toSchema = (after repeated).toSchema := by
  have hconsistent : Consistent repeated := by
    unfold Consistent repeated
    decide
  have hsucceed : AllSucceed repeated := (registration repeated).2.2.1.mpr hconsistent
  exact ⟨hsucceed, (registration repeated).2.2.2 hsucceed _ (List.reverse_perm _).symm⟩

end Registry

end DocumentProof
