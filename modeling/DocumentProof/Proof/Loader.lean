import DocumentProof.Json.Basic

/-!
# Documents by URI

A loader takes a URI to a document and to the URL that it was found under.
-/

namespace DocumentProof

/-- A document together with the URL that it was found under. -/
structure RemoteDocument where
  document : Json
  url : String
deriving DecidableEq

/-- Why a URI gives no document. -/
inductive LoaderError where
  | notFound (uri : String)
  | invalidUri (uri reason : String)
  | unreadable (uri reason : String)
  | notJson (uri : String)
deriving DecidableEq

def LoaderError.message : LoaderError → String
  | .notFound uri => "document not found: " ++ uri
  | .invalidUri uri reason => "invalid document URI " ++ uri ++ ": " ++ reason
  | .unreadable uri reason => "failed to read " ++ uri ++ ": " ++ reason
  | .notJson uri => "invalid document at " ++ uri ++ ": <json error>"

abbrev Loader := String → Except LoaderError RemoteDocument

/-- The loader of a fixed set of documents. -/
def Loader.ofMap (documents : KeyMap Json) : Loader := fun uri =>
  match documents.get? uri with
  | some x => .ok ⟨x, uri⟩
  | none => .error (.notFound uri)

end DocumentProof
