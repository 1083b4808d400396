import DocumentProof.Proof.Suite
import DocumentProof.Proofs.Proof.Wire

/-!
# Schemas by reference

The context of a signature holds its schema, or the URI that the schema is found under. Where the URI
leads to the JSON form of the schema, a check comes to the same data (`Suite.rebuild_reference`):
the schema is read back from this form, and the source of the schema is part of the context, which the
canonical text of the proof leaves out. What is left to see the source is the purpose. It is shown the
proof without its signature, so a check by reference is one of the schema itself by a purpose that is
shown the reference, and by the same purpose if that does not look at the source
(`Suite.verify_reference`). The standard purposes look at the members that they set
(`StandardPurpose.ignoresSource`). A purpose of the host may look at the context, and then it can take
the schema and refuse the reference (`Suite.verify_reference_watched`).
-/

namespace DocumentProof

/-- **A schema is found under a URI that leads to its JSON form.** -/
theorem SchemaSource.resolve_remote {types : TypeSchema} {uri : String} {documents : KeyMap Json}
    (h : documents.get? uri = some types.toJson) :
    (remote uri).resolve (some (Loader.ofMap documents)) = .ok types := by
  have hload : Loader.ofMap documents uri = .ok ⟨types.toJson, uri⟩ := by
    unfold Loader.ofMap
    rw [h]
  simp only [resolve, bind_eq_ok_iff, mapError_eq_ok_iff]
  exact ⟨_, hload, TypeSchema.ofJson_toJson types⟩

/-- The proof with its schema from another source. -/
def Proof.withSource (p : Proof) (source : SchemaSource) : Proof :=
  { p with embedded := p.embedded.map fun e => { e with schema := source } }

/-- The choices of a check with the documents of a loader. -/
def VerifyOptions.withDocuments (v : VerifyOptions) (documents : KeyMap Json) : VerifyOptions :=
  { v with loader := some (Loader.ofMap documents) }

/-! ## What purposes see -/

namespace Purpose

/-- The purpose that is shown each proof with its schema from the source. -/
def shown (purpose : Purpose) (source : SchemaSource) : Purpose :=
  { purpose with accepts := fun p document => purpose.accepts (p.withSource source) document }

/-- What is answered about a proof does not depend on where its schema is from. -/
def IgnoresSource (purpose : Purpose) : Prop :=
  ∀ (p : Proof) (source : SchemaSource) (document : Json),
    purpose.accepts (p.withSource source) document = purpose.accepts p document

theorem IgnoresSource.shown_eq {purpose : Purpose} (h : purpose.IgnoresSource)
    (source : SchemaSource) : purpose.shown source = purpose := by
  have haccepts : (fun p document => purpose.accepts (p.withSource source) document) =
      purpose.accepts := funext fun p => funext fun document => h p source document
  unfold shown
  rw [haccepts]

end Purpose

namespace StandardPurpose

/-- The members that are checked are among those without a meaning of their own. -/
theorem checkMembers_congr {p q : Proof} (h : p.extra = q.extra) :
    ∀ ms : List (String × String), checkMembers p ms = checkMembers q ms
  | [] => rfl
  | m :: ms => by
    unfold checkMembers
    rw [h, checkMembers_congr h ms]

/-- A standard purpose checks the term and the members that it sets. -/
theorem accepts_congr (purpose : StandardPurpose) {p q : Proof} (hterm : p.purpose = q.purpose)
    (hextra : p.extra = q.extra) : purpose.accepts p = purpose.accepts q := by
  unfold accepts checkTerm
  rw [hterm, checkMembers_congr hextra]

theorem ignoresSource (purpose : StandardPurpose) : purpose.toPurpose.IgnoresSource :=
  fun _ _ _ => purpose.accepts_congr rfl rfl

end StandardPurpose

/-! ## Checking by reference -/

namespace Suite

variable {s : Suite} {proof : Proof} {document : Json} {v : VerifyOptions}
  {context : EmbeddedDomain} {types : TypeSchema} {uri : String} {documents : KeyMap Json}

theorem resolveTypes_reference (hproof : proof.embedded = some context)
    (hinline : context.schema = .inline types) (hgiven : v.types = none)
    (hfound : documents.get? uri = some types.toJson) :
    resolveTypes document (proof.withSource (.remote uri)).embedded (v.withDocuments documents) =
      resolveTypes document proof.embedded v := by
  have hremote := SchemaSource.resolve_remote hfound
  have hembedded : resolveTypes document proof.embedded v = .ok types := by
    unfold resolveTypes
    rw [hgiven, hproof, Option.none_or, Option.map_some, hinline]
    rfl
  rw [hembedded]
  unfold resolveTypes Proof.withSource VerifyOptions.withDocuments
  rw [hgiven, hproof, Option.none_or, Option.map_some, Option.map_some]
  exact hremote

/-- **By reference a check comes to the same data, or fails in the same way.** -/
theorem rebuild_reference (hproof : proof.embedded = some context)
    (hinline : context.schema = .inline types) (hgiven : v.types = none)
    (hfound : documents.get? uri = some types.toJson) :
    rebuild (proof.withSource (.remote uri)) document (v.withDocuments documents) =
      rebuild proof document v := by
  have hdomain : (proof.withSource (.remote uri)).embedded.map (·.domain) =
      proof.embedded.map (·.domain) := Option.map_map ..
  have hname : (proof.withSource (.remote uri)).embedded.map (·.primaryType) =
      proof.embedded.map (·.primaryType) := Option.map_map ..
  unfold rebuild
  rw [resolveTypes_reference hproof hinline hgiven hfound, hdomain, hname]
  -- the data is made of the proof without its context, where the sources no longer differ
  rfl

/-- The purpose comes last in a check, and it alone is shown the source of the schema. -/
theorem check_reference (hproof : proof.embedded = some context)
    (hinline : context.schema = .inline types) (hgiven : v.types = none)
    (hfound : documents.get? uri = some types.toJson) :
    s.check (proof.withSource (.remote uri)) document (v.withDocuments documents) =
      s.check proof document { v with purpose := v.purpose.shown (.remote uri) } := by
  unfold check
  rw [rebuild_reference hproof hinline hgiven hfound]
  rfl

/-- **A schema by reference is checked like the schema itself.** The schema of a proof is replaced by
a URI that leads to its JSON form. With these documents the outcome, be it an account or an error, is
that for the proof as it was and a purpose that is shown the reference. So it is the outcome for the
proof as it was wherever the purpose does not look at the source of the schema, whatever else it is,
and whatever recovers the account. -/
theorem verify_reference (hproof : proof.embedded = some context)
    (hinline : context.schema = .inline types) (hgiven : v.types = none)
    (hfound : documents.get? uri = some types.toJson) :
    s.verify (proof.withSource (.remote uri)) document (v.withDocuments documents) =
      s.verify proof document { v with purpose := v.purpose.shown (.remote uri) } ∧
    (v.purpose.IgnoresSource →
      s.verify (proof.withSource (.remote uri)) document (v.withDocuments documents) =
        s.verify proof document v) := by
  have hshown : s.verify (proof.withSource (.remote uri)) document (v.withDocuments documents) =
      s.verify proof document { v with purpose := v.purpose.shown (.remote uri) } :=
    congrArg (Verification.ofResult proof.methodId?) (check_reference hproof hinline hgiven hfound)
  refine ⟨hshown, fun hpurpose => ?_⟩
  rw [hshown, hpurpose.shown_eq]

/-- The schema of the proof `described`. -/
def mailTypes : TypeSchema := KeyMap.ofList [("Mail", [⟨"contents", "string"⟩])]

/-- A suite that recovers the account of the proof `described` from every signature. -/
def mailSuite : Suite := ⟨none, fun _ _ => .ok "0x1", none, none⟩

/-- A check for a standard purpose in the context that the proof embeds. -/
def mailOptions (purpose : StandardPurpose) : VerifyOptions :=
  ⟨purpose.toPurpose, none, none, none, none⟩

/-- A document of this schema. -/
def mail : Json := .object [("contents", .string "hello")]

/-- The schema under a URI. -/
def mailDocuments : KeyMap Json := KeyMap.ofList [("urn:mail", mailTypes.toJson)]

theorem verify_reference_mail :
    mailSuite.verify (Proof.described.withSource (.remote "urn:mail")) mail
        ((mailOptions .assertion).withDocuments mailDocuments) =
      ⟨true, some "did:ethr:0x1", some "0x1", none⟩ ∧
    (mailSuite.verify (Proof.described.withSource (.remote "urn:mail")) mail
        ((mailOptions (.authentication "c" none)).withDocuments mailDocuments)).verified = false := by
  have hfound : mailDocuments.get? "urn:mail" = some mailTypes.toJson := by decide +kernel
  have hagree := fun purpose : StandardPurpose =>
    (@verify_reference mailSuite Proof.described mail (mailOptions purpose) _ _ _ _ rfl rfl rfl
      hfound).2 purpose.ignoresSource
  -- the proof asserts, so it is no answer to a challenge
  constructor
  · rw [hagree]
    decide +kernel
  · rw [hagree]
    decide +kernel

/-- Assertion under one schema, which proofs have to hold. -/
def assertionUnder (types : TypeSchema) : Purpose where
  term := StandardPurpose.assertion.term
  update p _ := StandardPurpose.assertion.update p
  accepts p _ :=
    if p.embedded.map EmbeddedDomain.schema = some (.inline types) then
      StandardPurpose.assertion.accepts p
    else .error (.purposeMismatch "schema does not match")

/-- A check for this purpose in the context that the proof embeds. -/
def mailOptionsUnder : VerifyOptions := ⟨assertionUnder mailTypes, none, none, none, none⟩

/-- **A purpose that looks at the context can tell the reference from the schema:** what holds with the
schema in the proof is refused by reference. -/
theorem verify_reference_watched :
    mailSuite.verify Proof.described mail mailOptionsUnder =
      ⟨true, some "did:ethr:0x1", some "0x1", none⟩ ∧
    mailSuite.verify (Proof.described.withSource (.remote "urn:mail")) mail
        (mailOptionsUnder.withDocuments mailDocuments) =
      ⟨false, some "did:ethr:0x1", none, some (.purposeMismatch "schema does not match")⟩ ∧
    ¬ ∀ (s : Suite) (proof : Proof) (document : Json) (v : VerifyOptions) (context : EmbeddedDomain)
        (types : TypeSchema) (uri : String) (documents : KeyMap Json),
        proof.embedded = some context → context.schema = .inline types → v.types = none →
        documents.get? uri = some types.toJson →
        s.verify (proof.withSource (.remote uri)) document (v.withDocuments documents) =
          s.verify proof document v := by
  have hfound : mailDocuments.get? "urn:mail" = some mailTypes.toJson := by decide +kernel
  have hinline : mailSuite.verify Proof.described mail mailOptionsUnder =
      ⟨true, some "did:ethr:0x1", some "0x1", none⟩ := by decide +kernel
  have hremote : mailSuite.verify (Proof.described.withSource (.remote "urn:mail")) mail
        (mailOptionsUnder.withDocuments mailDocuments) =
      ⟨false, some "did:ethr:0x1", none, some (.purposeMismatch "schema does not match")⟩ := by
    decide +kernel
  refine ⟨hinline, hremote, fun h => ?_⟩
  have hsame := h mailSuite Proof.described mail mailOptionsUnder _ _ _ _ rfl rfl rfl hfound
  rw [hinline, hremote] at hsame
  exact absurd hsame (by decide)

end Suite

end DocumentProof
