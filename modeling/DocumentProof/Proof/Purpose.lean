import DocumentProof.Proof.Basic
import DocumentProof.Proof.Error

/-!
# Purposes

A purpose marks a proof when it is made, and accepts or refuses a proof when it is checked. A signer
either asserts what a document claims, or answers a challenge.
-/

namespace DocumentProof

/-- How proofs of one purpose are marked and recognised. -/
structure Purpose where
  term : String
  update : Proof → Json → Proof
  accepts : Proof → Json → Except SuiteError Unit

/-- The purposes that every suite knows. -/
inductive StandardPurpose where
  | assertion
  | authentication (challenge : String) (domain : Option String)
deriving DecidableEq

namespace StandardPurpose

def term : StandardPurpose → String
  | assertion => "assertionMethod"
  | authentication _ _ => "authentication"

/-- The members that a purpose sets beside the term. -/
def members : StandardPurpose → List (String × String)
  | assertion => []
  | authentication challenge domain =>
    ("challenge", challenge) :: (domain.map fun d => ("domain", d)).toList

def update (p : StandardPurpose) (proof : Proof) : Proof :=
  { proof with
    purpose := some p.term
    extra := p.members.foldl (fun extra m => extra.put m.1 (.string m.2)) proof.extra }

/-- The proof carries the term. -/
def checkTerm (term : String) (proof : Proof) : Except SuiteError Unit :=
  match proof.purpose with
  | some found =>
    if found = term then .ok ()
    else .error (.purposeMismatch ("expected proofPurpose " ++ Text.quoted term ++ ", found "
      ++ Text.quoted found))
  | none =>
    .error (.purposeMismatch ("expected proofPurpose " ++ Text.quoted term ++ ", found none"))

/-- The proof carries each member. -/
def checkMembers (proof : Proof) : List (String × String) → Except SuiteError Unit
  | [] => .ok ()
  | (key, expected) :: rest =>
    if proof.extra.get? key = some (.string expected) then checkMembers proof rest
    else .error (.purposeMismatch (key ++ " does not match"))

def accepts (p : StandardPurpose) (proof : Proof) : Except SuiteError Unit := do
  checkTerm p.term proof
  checkMembers proof p.members

def toPurpose (p : StandardPurpose) : Purpose :=
  ⟨p.term, fun proof _ => p.update proof, fun proof _ => p.accepts proof⟩

end StandardPurpose

end DocumentProof
