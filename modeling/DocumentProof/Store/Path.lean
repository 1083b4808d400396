/-!
# Paths as text

A path is a text with slashes between its parts. Joining and taking the parent work on the text; no
part is resolved.
-/

namespace DocumentProof

namespace Path

def isAbsolute (path : String) : Bool :=
  match path.toList with
  | '/' :: _ => true
  | _ => false

/-- The second path as seen from the first. An absolute path stays as it is. -/
def join (base path : String) : String :=
  if isAbsolute path ∨ base = "" then path
  else if base.toList.getLast? = some '/' then base ++ path
  else base ++ "/" ++ path

/-- The texts between the slashes. -/
def parts (path : String) : List String :=
  (path.toList.foldr (fun c acc =>
    if c = '/' then [] :: acc
    else
      match acc with
      | [] => [[c]]
      | part :: rest => (c :: part) :: rest) [[]]).map String.ofList

/-- Drops parts at the end that name nothing. A point that a path begins with stays. -/
def dropIdle (parts : List String) : List String :=
  let idle (p : String) : Bool := p == "" || p == "."
  match parts with
  | [] => []
  | first :: rest => first :: (rest.reverse.dropWhile idle).reverse

/-- The path without its last part, if it has one. -/
def parent? (path : String) : Option String :=
  match dropIdle (parts path) with
  | [] | [""] => none
  | ps =>
    let kept := dropIdle ps.dropLast
    some (if kept = [""] then "/" else String.intercalate "/" kept)

end Path

end DocumentProof
