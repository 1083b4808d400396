import DocumentProof.Json.Reader
import DocumentProof.Proof.Loader
import DocumentProof.Store.FileStore
import DocumentProof.Store.FileUrl

/-!
# Documents from files

The loader that takes file URLs to the JSON documents of a store.
-/

namespace DocumentProof

namespace FileStore

/-- The content of the file that a URL names. A path that is no text names no file. -/
def readUrl (s : FileStore) (path : List String) : Except FileFault String :=
  match Bytes.toString? (Url.pathBytes path) with
  | some path => s.readText path
  | none => .error .missing

/-- Loads documents by file URL; all other URLs have none. -/
def loader (s : FileStore) : Loader := fun uri =>
  match Url.ofText uri with
  | .error fault => .error (.invalidUri uri fault.message)
  | .ok .other => .error (.notFound uri)
  | .ok (.file (some _) _ _ _) => .error (.invalidUri uri "not a local file path")
  | .ok (.file none path query fragment) =>
    match s.readUrl path with
    | .error .missing => .error (.notFound uri)
    | .error fault => .error (.unreadable uri fault.message)
    | .ok text =>
      match Json.read? text with
      | some x => .ok ⟨x, (Url.file none path query fragment).toText⟩
      | none => .error (.notJson uri)

end FileStore

end DocumentProof
