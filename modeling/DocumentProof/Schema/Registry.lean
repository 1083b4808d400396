import DocumentProof.Schema.Basic

/-!
# Registration of types

Types are registered one by one. A name that is bound keeps its fields: registering the same ones
again changes nothing, and registering others is a collision.
-/

namespace DocumentProof

/-- The types registered so far. -/
structure Registry where
  types : TypeSchema
deriving DecidableEq

namespace Registry

def empty : Registry := ⟨KeyMap.empty⟩

def register (r : Registry) (name : String) (fields : List Field) : Except SchemaError Registry :=
  match r.types.get? name with
  | none => .ok ⟨r.types.put name fields⟩
  | some existing =>
    if existing = fields then .ok r else .error (.collision name existing fields)

def toSchema (r : Registry) : TypeSchema := r.types

end Registry

end DocumentProof
