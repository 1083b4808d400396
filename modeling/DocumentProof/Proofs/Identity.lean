import DocumentProof.Identity
import Mathlib.Data.Bool.AllAny
import Mathlib.Data.List.Basic
import Mathlib.Data.List.TakeWhile

/-!
# The account in an identifier

An identifier is put together from its parts: the segments of a DID, the account, a query and a
fragment (`Parts`). Fragment and query are taken off first and the segments last, and each part has
none of the marks that end what stands before it. So what is left is the account
(`bareChars_toChars`), whatever marks stand in the query and in the fragment.
-/

namespace DocumentProof

namespace MethodId

/-- A part with the mark that opens it, or nothing. -/
def marked (mark : Char) : Option (List Char) → List Char
  | none => []
  | some part => mark :: part

/-- The parts of an identifier. An account alone has no segments before it. -/
structure Parts where
  segments : Option (List (List Char))
  account : List Char
  query : Option (List Char)
  fragment : Option (List Char)
  segments_plain : ∀ ss ∈ segments, ∀ segment ∈ ss, ∀ c ∈ segment, c ≠ '?' ∧ c ≠ '#'
  account_plain : ∀ c ∈ account, c ≠ ':' ∧ c ≠ '?' ∧ c ≠ '#'
  query_plain : ∀ part ∈ query, ∀ c ∈ part, c ≠ '#'

namespace Parts

/-- What stands before the account: in a DID its segments, a colon after each. -/
def front (p : Parts) : List Char :=
  match p.segments with
  | none => []
  | some segments => ("did".toList :: segments).flatMap (· ++ [':'])

def toChars (p : Parts) : List Char :=
  p.front ++ p.account ++ marked '?' p.query ++ marked '#' p.fragment

end Parts

variable {mark : Char} {front back base : List Char}

/-! ### Marks -/

theorem before_append_marked (h : ∀ c ∈ front, c ≠ mark) (rest : Option (List Char)) :
    before mark (front ++ marked mark rest) = front := by
  unfold before
  rw [List.takeWhile_append_of_pos fun c hc => decide_eq_true (h c hc)]
  cases rest <;> simp [marked]

theorem afterLast_append (h : ∀ c ∈ back, c ≠ mark) :
    afterLast mark (front ++ mark :: back) = back := by
  unfold afterLast
  rw [List.reverse_append, List.reverse_cons, List.append_assoc,
    List.takeWhile_append_of_pos fun c hc => decide_eq_true (h c (List.mem_reverse.mp hc))]
  simp

/-- **Query and fragment are taken off,** whatever marks stand in them. -/
theorem bareChars_append (query fragment : Option (List Char))
    (hbase : ∀ c ∈ base, c ≠ '#' ∧ c ≠ '?') (hquery : ∀ part ∈ query, ∀ c ∈ part, c ≠ '#') :
    bareChars (base ++ marked '?' query ++ marked '#' fragment) =
      if "did:".toList.isPrefixOf base then afterLast ':' base else base := by
  have hplain : ∀ c ∈ base ++ marked '?' query, c ≠ '#' := by
    intro c hc
    rcases List.mem_append.mp hc with hc | hc
    · exact (hbase c hc).1
    · cases query with
      | none => cases hc
      | some part =>
        rcases List.mem_cons.mp hc with rfl | hc
        · decide
        · exact hquery part rfl c hc
  unfold bareChars
  rw [before_append_marked hplain, before_append_marked fun c hc => (hbase c hc).2]

/-! ### Segments -/

namespace Parts

variable {p : Parts} {segments : List (List Char)}

theorem front_eq (h : p.segments = some segments) :
    p.front = ("did".toList :: segments).flatMap (· ++ [':']) := by
  simp only [front, h]

theorem front_eq_nil (h : p.segments = none) : p.front = [] := by
  simp only [front, h]

/-- A DID has a colon before its account. -/
theorem exists_front_eq (h : p.segments = some segments) : ∃ cs, p.front = cs ++ [':'] := by
  rcases List.eq_nil_or_concat' ("did".toList :: segments) with hnil | ⟨ss, s, hss⟩
  · cases hnil
  · refine ⟨ss.flatMap (· ++ [':']) ++ s, ?_⟩
    rw [front_eq h, hss, List.flatMap_append, List.flatMap_singleton, List.append_assoc]

theorem did_prefix_front (h : p.segments = some segments) : "did:".toList <+: p.front := by
  rw [front_eq h, List.flatMap_cons]
  exact List.prefix_append _ _

theorem plain_of_mem_front {c : Char} (h : c ∈ p.front) : c ≠ '#' ∧ c ≠ '?' := by
  cases hsegments : p.segments with
  | none =>
    rw [front_eq_nil hsegments] at h
    cases h
  | some segments =>
    rw [front_eq hsegments] at h
    obtain ⟨segment, hsegment, hc⟩ := List.mem_flatMap.mp h
    rcases List.mem_append.mp hc with hc | hc
    · rcases List.mem_cons.mp hsegment with rfl | hsegment
      · have hdid : ∀ c ∈ "did".toList, c ≠ '#' ∧ c ≠ '?' :=
          List.all_iff_forall_prop.mp (by decide)
        exact hdid c hc
      · exact (p.segments_plain segments hsegments segment hsegment c hc).symm
    · rw [List.mem_singleton.mp hc]
      decide

end Parts

/-- **What is left of an identifier is its account.** -/
theorem bareChars_toChars (p : Parts) : bareChars p.toChars = p.account := by
  have hbase : ∀ c ∈ p.front ++ p.account, c ≠ '#' ∧ c ≠ '?' := by
    intro c hc
    rcases List.mem_append.mp hc with hc | hc
    · exact Parts.plain_of_mem_front hc
    · exact (p.account_plain c hc).2.symm
  have hcolon : ∀ c ∈ p.account, c ≠ ':' := fun c hc => (p.account_plain c hc).1
  unfold Parts.toChars
  rw [bareChars_append _ _ hbase p.query_plain]
  cases hsegments : p.segments with
  | none =>
    -- without a colon the account is no DID
    have hdid : ¬ "did:".toList <+: p.account := fun hstart =>
      hcolon ':' (hstart.subset (by decide)) rfl
    rw [Parts.front_eq_nil hsegments, List.nil_append,
      if_neg (List.isPrefixOf_iff_prefix.not.mpr hdid)]
  | some segments =>
    have hdid : "did:".toList <+: p.front ++ p.account :=
      (Parts.did_prefix_front hsegments).trans (List.prefix_append _ _)
    obtain ⟨cs, hcs⟩ := Parts.exists_front_eq hsegments
    rw [if_pos (List.isPrefixOf_iff_prefix.mpr hdid), hcs, List.append_assoc,
      List.singleton_append, afterLast_append hcolon]

end MethodId

end DocumentProof
