import DocumentProof.Decimal.Binary64
import DocumentProof.Keyed

/-!
# JSON values

A number is an integer of one 64-bit word, signed or not, or a binary64 number. The members of an
object are a list with increasing keys, so that two objects with the same members are equal.
`Sorted` states this for a value and everything inside it.
-/

namespace DocumentProof

/-- A number as JSON text can give it. -/
inductive Number where
  | whole (n : Int) (lower : -0x8000000000000000 ≤ n) (upper : n < 0x10000000000000000)
  | double (x : Binary64)
deriving DecidableEq

/-- A JSON value. -/
inductive Json where
  | null
  | bool (b : Bool)
  | number (n : Number)
  | string (s : String)
  | array (items : List Json)
  | object (members : List (String × Json))

instance : Inhabited Number := ⟨.whole 0 (by decide) (by decide)⟩

instance : Inhabited Json := ⟨.null⟩

/-- The members of an object, by increasing key. -/
abbrev Members := List (String × Json)

namespace Number

/-- The integer `n` if one word holds it. -/
def ofInt? (n : Int) : Option Number :=
  if h : -0x8000000000000000 ≤ n ∧ n < 0x10000000000000000 then some (.whole n h.1 h.2) else none

/-- The value as an unsigned word. -/
def toNat? : Number → Option Nat
  | .whole n _ _ => if 0 ≤ n then some n.toNat else none
  | .double _ => none

/-- The value as a signed word. -/
def toInt64? : Number → Option Int
  | .whole n _ _ => if n < 0x8000000000000000 then some n else none
  | .double _ => none

end Number

namespace Json

/-- The natural number `n`, or null where no word holds it. -/
def ofNat (n : Nat) : Json := ((Number.ofInt? n).map number).getD null

def ofInt (n : Int) : Json := ((Number.ofInt? n).map number).getD null

/-- An object of the given members, in any order. -/
def ofMembers (ms : List (String × Json)) : Json := object (Keyed.ofList ms)

/-- The value under a key, if this is an object that has one. -/
def get? : Json → String → Option Json
  | object ms, key => Keyed.get? ms key
  | _, _ => none

def string? : Json → Option String
  | string s => some s
  | _ => none

def members? : Json → Option Members
  | object ms => some ms
  | _ => none

/-! ### Order of keys -/

mutual

/-- Keys increase in every object of the value. -/
def Sorted : Json → Prop
  | array xs => SortedItems xs
  | object ms => Keyed.Increasing ms ∧ SortedMembers ms
  | _ => True

def SortedItems : List Json → Prop
  | [] => True
  | x :: xs => Sorted x ∧ SortedItems xs

def SortedMembers : List (String × Json) → Prop
  | [] => True
  | (_, x) :: ms => Sorted x ∧ SortedMembers ms

end

/-! ### Depth -/

mutual

/-- The number of arrays and objects that lie inside each other. -/
def depth : Json → Nat
  | array xs => depthItems xs + 1
  | object ms => depthMembers ms + 1
  | _ => 0

def depthItems : List Json → Nat
  | [] => 0
  | x :: xs => max x.depth (depthItems xs)

def depthMembers : List (String × Json) → Nat
  | [] => 0
  | (_, x) :: ms => max x.depth (depthMembers ms)

end

/-! ### Equality -/

mutual

def decEq : (a b : Json) → Decidable (a = b)
  | null, null => isTrue rfl
  | bool a, bool b => if h : a = b then isTrue (by rw [h]) else isFalse (by simp [h])
  | number a, number b => if h : a = b then isTrue (by rw [h]) else isFalse (by simp [h])
  | string a, string b => if h : a = b then isTrue (by rw [h]) else isFalse (by simp [h])
  | array a, array b =>
    match decEqItems a b with
    | isTrue h => isTrue (by rw [h])
    | isFalse h => isFalse (by simp [h])
  | object a, object b =>
    match decEqMembers a b with
    | isTrue h => isTrue (by rw [h])
    | isFalse h => isFalse (by simp [h])
  | null, bool _ | null, number _ | null, string _ | null, array _ | null, object _
  | bool _, null | bool _, number _ | bool _, string _ | bool _, array _ | bool _, object _
  | number _, null | number _, bool _ | number _, string _ | number _, array _
  | number _, object _
  | string _, null | string _, bool _ | string _, number _ | string _, array _
  | string _, object _
  | array _, null | array _, bool _ | array _, number _ | array _, string _ | array _, object _
  | object _, null | object _, bool _ | object _, number _ | object _, string _
  | object _, array _ => isFalse (by simp)

def decEqItems : (a b : List Json) → Decidable (a = b)
  | [], [] => isTrue rfl
  | [], _ :: _ => isFalse (by simp)
  | _ :: _, [] => isFalse (by simp)
  | a :: as, b :: bs =>
    match decEq a b, decEqItems as bs with
    | isTrue h, isTrue h' => isTrue (by rw [h, h'])
    | isFalse h, _ => isFalse (by simp [h])
    | _, isFalse h => isFalse (by simp [h])

def decEqMembers : (a b : List (String × Json)) → Decidable (a = b)
  | [], [] => isTrue rfl
  | [], _ :: _ => isFalse (by simp)
  | _ :: _, [] => isFalse (by simp)
  | (k, a) :: as, (l, b) :: bs =>
    if hk : k = l then
      match decEq a b, decEqMembers as bs with
      | isTrue h, isTrue h' => isTrue (by rw [hk, h, h'])
      | isFalse h, _ => isFalse (by simp [h])
      | _, isFalse h => isFalse (by simp [h])
    else isFalse (by simp [hk])

end

instance : DecidableEq Json := decEq

end Json

end DocumentProof
