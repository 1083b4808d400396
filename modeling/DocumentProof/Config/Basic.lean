import DocumentProof.Proof.Purpose

/-!
# Configuration

What signing and checking have in common: the domain, whether proofs embed what they were made with,
the purpose, and local files for the documents behind URIs.
-/

namespace DocumentProof

/-- The purpose as configured. A challenge may still be missing. -/
inductive PurposeChoice where
  | assertion
  | authentication (challenge domain : Option String)
deriving DecidableEq

structure Config where
  domain : Domain
  embed : Bool
  purpose : PurposeChoice
  documents : KeyMap String
deriving DecidableEq

/-- What is wrong with a configuration. -/
inductive ConfigFault where
  | noChallenge
  | emptyChallenge
  | emptyPath (uri : String)
  | chainId (raw : String) (fault : Domain.WordFault)
deriving DecidableEq

/-- The variable that replaces the chain of the domain. -/
def Config.chainIdVariable : String := "ETHSIG_CHAIN_ID"

def ConfigFault.message : ConfigFault → String
  | noChallenge => "authentication purpose requires a challenge"
  | emptyChallenge => "purpose \"authentication\" requires a non-empty challenge"
  | emptyPath uri => "document " ++ Text.quoted uri ++ " has an empty path"
  | chainId raw fault =>
    Config.chainIdVariable ++ " is not a chain id: " ++ Text.quoted raw ++ ": " ++ fault.message

namespace PurposeChoice

/-- The purpose, if its challenge is given. -/
def toStandard : PurposeChoice → Except ConfigFault StandardPurpose
  | assertion => .ok .assertion
  | authentication (some challenge) domain => .ok (.authentication challenge domain)
  | authentication none _ => .error .noChallenge

end PurposeChoice

namespace Config

def default : Config := ⟨Domain.empty, true, .assertion, KeyMap.empty⟩

/-- The configuration with the chain that the environment names. -/
def withEnvironment (c : Config) (lookup : String → Option String) : Except ConfigFault Config :=
  match lookup chainIdVariable with
  | none => .ok c
  | some raw =>
    match Domain.signedDigitsWord 10 (Text.trim raw.toList) with
    | .ok n => .ok { c with domain := { c.domain with chainId := some n } }
    | .error fault => .error (.chainId raw fault)

def checkChallenge : PurposeChoice → Except ConfigFault Unit
  | .assertion => .ok ()
  | .authentication challenge _ =>
    if challenge.getD "" = "" then .error .emptyChallenge else .ok ()

def checkPaths : List (String × String) → Except ConfigFault Unit
  | [] => .ok ()
  | (uri, path) :: rest => if path = "" then .error (.emptyPath uri) else checkPaths rest

/-- A challenge and all paths are given. -/
def validate (c : Config) : Except ConfigFault Unit := do
  checkChallenge c.purpose
  checkPaths c.documents.entries

end Config

end DocumentProof
