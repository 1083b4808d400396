import DocumentProof.Proofs.Json.NormalForm
import DocumentProof.Proofs.Proof.Verdict
import DocumentProof.Proofs.Proof.Wire

/-!
# What the canonical text of a proof tells

The data of a proof holds its canonical text without signature and context. This text is a function of
the proof without these two (`Proof.bare`, `Proof.canonicalWithout_eq`): neither they nor the document
and its context have a part in it. And it gives all the rest back. The text is that of the JSON form,
whose keys are in order, so it gives the JSON form back, and a proof is read back from this. So two
proofs have one text exactly if they differ in signature and context only
(`Proof.canonical_identifies`).
-/

namespace DocumentProof

/-- An object without a member that it lacks has the text of the object. -/
theorem Json.canonicalWithout_of_absent {ms : List (String × Json)} {key : String}
    (h : Keyed.get? ms key = none) :
    (object ms).canonicalWithout key = (object ms).canonical := by
  have hsame : Keyed.remove key ms = ms := by
    refine List.filter_eq_self.mpr fun m hm => decide_eq_true fun hkey => ?_
    exact Keyed.get?_eq_none_iff.mp h (List.mem_map.mpr ⟨m, hm, hkey⟩)
  rw [canonicalWithout, hsame]

namespace Proof

variable {p q : Proof} {a b : String}

/-- The proof without its signature and its context. -/
def bare (p : Proof) : Proof := p.withoutValue.withoutContext

theorem bare_eq_iff : p.bare = q.bare ↔ p.type = q.type ∧ p.created = q.created ∧
    p.method = q.method ∧ p.purpose = q.purpose ∧ p.extra = q.extra := by
  simp only [bare, withoutValue, withoutContext, Proof.mk.injEq, true_and]

theorem IsWire.bare (h : p.IsWire) : p.bare.IsWire := ⟨h.extra, h.method⟩

/-- Under every other key than that of the signature a proof is written as without it. -/
theorem get?_bare {key : String} (hkey : key ≠ valueKey) :
    p.withoutContext.toJson.get? key = p.bare.toJson.get? key := by
  have hknown : Keyed.get? p.withoutContext.knownMembers key =
      Keyed.get? p.bare.knownMembers key := by
    simp only [knownMembers, bare, withoutValue, withoutContext, Json.get?_some_cons,
      Json.get?_present_cons, if_neg hkey]
  rw [get?_toJson, get?_toJson, hknown]
  rfl

/-- **The signature has no part in the text without it.** -/
theorem canonicalWithout_eq (p : Proof) :
    p.withoutContext.toJson.canonicalWithout valueKey =
      p.bare.toJson.canonicalWithout valueKey := by
  have hmembers : ∀ key,
      Keyed.get? (Keyed.remove valueKey (Keyed.ofList
        (p.withoutContext.knownMembers ++ p.withoutContext.extra.entries))) key =
      Keyed.get? (Keyed.remove valueKey (Keyed.ofList
        (p.bare.knownMembers ++ p.bare.extra.entries))) key := by
    intro key
    rw [Keyed.get?_remove, Keyed.get?_remove]
    split_ifs with hkey
    · rfl
    · exact get?_bare hkey
  have hsame := Keyed.ext (Keyed.increasing_remove (Keyed.increasing_ofList _))
    (Keyed.increasing_remove (Keyed.increasing_ofList _)) hmembers
  exact congrArg (fun ms => Json.canonical (.object ms)) hsame

/-- Where members have keys of their own, there is no signature to leave out. -/
theorem canonicalWithout_bare (h : p.IsWire) :
    p.bare.toJson.canonicalWithout valueKey = p.bare.toJson.canonical := by
  refine Json.canonicalWithout_of_absent ?_
  have hextra : p.bare.extra.get? valueKey = none := h.extra valueKey (by decide)
  have hget : p.bare.toJson.get? valueKey = none := by
    rw [get?_toJson, hextra, Option.none_or]
    simp only [knownMembers, bare, withoutValue, withoutContext, valueKey, Json.get?_some_cons,
      Json.get?_present_cons, Option.map_none, String.reduceEq, reduceIte]
    rfl
  exact hget

/-- **The text gives back all but signature and context.** -/
theorem bare_eq_of_canonical (hp : p.IsWire) (hq : q.IsWire) (hsp : p.bare.toJson.Sorted)
    (hsq : q.bare.toJson.Sorted) (ha : p.bare.toJson.canonicalWithout valueKey = .ok a)
    (hb : q.bare.toJson.canonicalWithout valueKey = .ok a) : p.bare = q.bare := by
  rw [canonicalWithout_bare hp] at ha
  rw [canonicalWithout_bare hq] at hb
  have hjson := Json.canonical_inj hsp hsq ha hb
  have hread := ofJson_toJson hp.bare
  rw [hjson, ofJson_toJson hq.bare] at hread
  exact (Except.ok.inj hread).symm

/-- The text is the canonical one in all data that is made of the proof, and with a document whose
numbers are integers there is such data, whatever the domain, the schema and the name of the
struct. -/
structure HasCanonical (p : Proof) (text : String) : Prop where
  exists_make : ∀ document domain types name, document.IsWhole →
    ∃ data, VerifyData.make document p domain types name = .ok data
  canonical : ∀ document domain types name data,
    VerifyData.make document p domain types name = .ok data → data.canonicalProof = text

theorem canonicalProof_of_make {document : Json} {domain : Domain} {types : TypeSchema}
    {name : String} {data : VerifyData}
    (h : VerifyData.make document p domain types name = .ok data) :
    p.bare.toJson.canonicalWithout valueKey = .ok data.canonicalProof := by
  obtain ⟨text, htext, h⟩ := bind_eq_ok_iff.mp h
  obtain ⟨_, _, h⟩ := bind_eq_ok_iff.mp h
  obtain rfl := pure_eq_ok_iff.mp h
  rw [← canonicalWithout_eq]
  exact mapError_eq_ok_iff.mp htext

theorem hasCanonical_iff :
    p.HasCanonical a ↔ p.bare.toJson.canonicalWithout valueKey = .ok a := by
  constructor
  · intro h
    have hwhole : (Json.object []).IsWhole := Json.whole_object_iff.mpr (List.forall_mem_nil _)
    obtain ⟨data, hdata⟩ := h.exists_make _ Domain.empty KeyMap.empty "" hwhole
    rw [canonicalProof_of_make hdata, h.canonical _ _ _ _ data hdata]
  · intro h
    refine ⟨fun document domain types name hwhole => ?_, fun document domain types name data hdata => ?_⟩
    · obtain ⟨text, htext⟩ := Json.exists_canonical_iff.mpr
        ((TypedData.whole_toJson_iff (t := TypedData.make domain types name document)).mpr hwhole)
      rw [← canonicalWithout_eq] at h
      exact ⟨_, bind_eq_ok_iff.mpr ⟨a, mapError_eq_ok_iff.mpr h,
        bind_eq_ok_iff.mpr ⟨text, mapError_eq_ok_iff.mpr htext, rfl⟩⟩⟩
    · exact Except.ok.inj ((canonicalProof_of_make hdata).symm.trans h)

/-- **The canonical text of a proof identifies all but signature and context.** Of two proofs whose
members have keys of their own, and which, beside these two, have only integers as numbers and the
keys of all objects in order, the data holds one text exactly if they agree on type, time, method,
purpose and all members without a meaning of their own. And for any proofs at all, signature and
context have no part in the text, nor have the document, the domain, the schema and the name of the
struct. -/
theorem canonical_identifies :
    (∀ p q : Proof, p.IsWire → q.IsWire → p.IsWhole → q.IsWhole →
      p.bare.toJson.Sorted → q.bare.toJson.Sorted →
      ∃ a b, p.HasCanonical a ∧ q.HasCanonical b ∧
        (a = b ↔ p.type = q.type ∧ p.created = q.created ∧ p.method = q.method ∧
          p.purpose = q.purpose ∧ p.extra = q.extra)) ∧
    ∀ (p : Proof) (value : Option String) (embedded : Option EmbeddedDomain) (a : String),
      p.HasCanonical a → HasCanonical { p with value := value, embedded := embedded } a := by
  constructor
  · intro p q hp hq hwp hwq hsp hsq
    obtain ⟨a, ha⟩ := exists_canonical_iff.mpr hwp
    obtain ⟨b, hb⟩ := exists_canonical_iff.mpr hwq
    refine ⟨a, b, hasCanonical_iff.mpr ha, hasCanonical_iff.mpr hb, ?_⟩
    rw [← bare_eq_iff]
    constructor
    · rintro rfl
      exact bare_eq_of_canonical hp hq hsp hsq ha hb
    · intro hbare
      change p.bare.toJson.canonicalWithout valueKey = .ok a at ha
      rw [hbare] at ha
      exact Except.ok.inj (ha.symm.trans hb)
  · intro p value embedded a h
    have htext : p.bare.toJson.canonicalWithout valueKey = .ok a := hasCanonical_iff.mp h
    exact hasCanonical_iff.mpr htext

/-- The proof `described` with the identifier of its method alone. -/
def named : Proof := { described with method := some (.named "did:ethr:0x1") }

theorem isWhole_of_toJson (h : p.bare.toJson.firstDouble? = none) : p.IsWhole :=
  fun key x hx _ => Json.whole_object_iff.mp (Json.firstDouble?_eq_none_iff.mp h) (key, x)
    (Keyed.mem_of_get? hx)

theorem canonical_identifies_described : ∃ a b,
    described.HasCanonical a ∧ HasCanonical { described with value := none, embedded := none } a ∧
    named.HasCanonical b ∧ a ≠ b := by
  have hdescribed : described.IsWire := by
    refine ⟨by decide, fun m hm => ?_⟩
    obtain rfl := Option.some.inj hm
    show (KeyMap.ofList [("controller", Json.string "did:ethr:0x1")]).get? "id" = none
    decide +kernel
  have hnamed : named.IsWire := by
    refine ⟨by decide, fun m hm => ?_⟩
    obtain rfl := Option.some.inj hm
    trivial
  obtain ⟨hsame, hother⟩ := canonical_identifies
  obtain ⟨a, b, ha, hb, hiff⟩ := hsame described named hdescribed hnamed
    (isWhole_of_toJson (by decide +kernel)) (isWhole_of_toJson (by decide +kernel))
    (by decide +kernel) (by decide +kernel)
  refine ⟨a, b, ha, hother described none none a ha, hb, fun hab => ?_⟩
  obtain ⟨-, -, hmethod, -, -⟩ := hiff.mp hab
  exact absurd hmethod (by decide)

end Proof

end DocumentProof
