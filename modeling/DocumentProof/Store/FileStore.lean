import DocumentProof.Bytes.Basic
import DocumentProof.Keyed
import DocumentProof.Store.Path

/-!
# Files and directories

A tree of files and directories, and the directory that relative paths start from. Every part of a
path but the last has to be a directory that exists.
-/

namespace DocumentProof

/-- Why a file cannot be used. -/
inductive FileFault where
  | missing
  | exists
  | notDirectory
  | isDirectory
  | nameTooLong
  | nulInPath
  | notUtf8
  | other (reason : String)
deriving DecidableEq

def FileFault.message : FileFault → String
  | .missing => "No such file or directory (os error 2)"
  | .exists => "File exists (os error 17)"
  | .notDirectory => "Not a directory (os error 20)"
  | .isDirectory => "Is a directory (os error 21)"
  | .nameTooLong => "File name too long (os error 36)"
  | .nulInPath => "file name contained an unexpected NUL byte"
  | .notUtf8 => "stream did not contain valid UTF-8"
  | .other reason => reason

/-- A file or a directory. -/
inductive FileTree where
  | file (content : Bytes)
  | directory (entries : List (String × FileTree))

instance : Inhabited FileTree := ⟨.directory []⟩

namespace FileTree

def isDirectory : FileTree → Bool
  | directory _ => true
  | file _ => false

/-- What is found by following names. -/
def find? : List String → FileTree → Option FileTree
  | [], t => some t
  | name :: names, directory es => (Keyed.get? es name).bind (find? names)
  | _ :: _, file _ => none

/-- The tree with `new` where the names lead. Directories on the way are made. -/
def place (new : FileTree) : List String → FileTree → FileTree
  | [], _ => new
  | name :: names, t =>
    let es := match t with
      | directory es => es
      | file _ => []
    directory (Keyed.put name (place new names ((Keyed.get? es name).getD (directory []))) es)

end FileTree

/-- A tree with the directory that relative paths start from. -/
structure FileStore where
  root : FileTree
  current : List String

namespace FileStore

/-- One step from a directory, whose names are given. -/
def step (s : FileStore) (names : List String) (part : String) : Except FileFault (List String) :=
  match s.root.find? names with
  | some (.directory es) =>
    if part = "" ∨ part = "." then .ok names
    else if part = ".." then .ok names.dropLast
    else if 255 < part.utf8ByteSize then .error .nameTooLong
    else if Keyed.contains es part then .ok (names ++ [part])
    else .error .missing
  | some (.file _) => .error .notDirectory
  | none => .error .missing

/-- Where a path starts from. -/
def start (s : FileStore) (path : String) : List String :=
  if Path.isAbsolute path then [] else s.current

/-- The names that the parts of a path lead to. -/
def follow (s : FileStore) (path : String) (parts : List String) :
    Except FileFault (List String) :=
  if path = "" then .error .missing
  else if path.toList.contains '\x00' then .error .nulInPath
  else parts.foldlM s.step (s.start path)

/-- What is found at a path. -/
def find (s : FileStore) (path : String) : Except FileFault FileTree := do
  match s.root.find? (← s.follow path (Path.parts path)) with
  | some t => return t
  | none => .error .missing

def contains (s : FileStore) (path : String) : Bool := (s.find path).isOk

/-- The content of a file. -/
def read (s : FileStore) (path : String) : Except FileFault Bytes := do
  match ← s.find path with
  | .file content => return content
  | .directory _ => .error .isDirectory

/-- The content of a file as text. -/
def readText (s : FileStore) (path : String) : Except FileFault String := do
  match Bytes.toString? (← s.read path) with
  | some text => return text
  | none => .error .notUtf8

/-! ### Changes -/

/-- The directory that a path names an entry of, and the name. -/
def entry (s : FileStore) (path : String) (parts : List String) :
    Except FileFault (List String × String) := do
  let name := parts.getLastD ""
  let above ← s.follow path parts.dropLast
  match s.root.find? above with
  | some (.directory _) =>
    if 255 < name.utf8ByteSize then .error .nameTooLong else return (above, name)
  | some (.file _) => .error .notDirectory
  | none => .error .missing

/-- A new directory in one that exists. -/
def makeDirectory (s : FileStore) (path : String) : Except FileFault FileStore := do
  let parts := ((Path.parts path).reverse.dropWhile (· = "")).reverse
  let (above, name) ← s.entry path (if parts = [] then [""] else parts)
  if name = "" ∨ name = "." ∨ name = ".." then .error .exists
  else if (s.root.find? (above ++ [name])).isSome then .error .exists
  else return { s with root := FileTree.place (.directory []) (above ++ [name]) s.root }

/-- A file with this content, new or in place of the one at hand. -/
def write (s : FileStore) (path : String) (content : Bytes) : Except FileFault FileStore := do
  let (above, name) ← s.entry path (Path.parts path)
  if name = "" ∨ name = "." ∨ name = ".." then .error .isDirectory
  else
    match s.root.find? (above ++ [name]) with
    | some (.directory _) => .error .isDirectory
    | _ => return { s with root := FileTree.place (.file content) (above ++ [name]) s.root }

end FileStore

end DocumentProof
