/-!
JSON values. A value that is only grammatical, such as a number beyond every double, has a
constructor of its own, so that a reader may still pass over it.
-/
set_option autoImplicit false

namespace RayScene

/-- A whole number keeps its digits. A single-precision number is only ever written. -/
inductive JsonNumber where
  | int (i : Int)
  | double (x : Float)
  | single (x : Float32)
  deriving Repr

inductive Json where
  | null
  | bool (b : Bool)
  | number (n : JsonNumber)
  | string (s : String)
  | array (items : List Json)
  | object (members : List (String × Json))
  | unreadable
  deriving Repr

namespace Json

def ofNat (n : Nat) : Json := .number (.int n)
def ofDouble (x : Float) : Json := .number (.double x)
def ofSingle (x : Float32) : Json := .number (.single x)

mutual

/-- The value with each repeated member reduced to its last occurrence. Fails on what cannot be
read, and where arrays and objects nest deeper than `depth`. -/
def settle : Nat → Json → Option Json
  | _, .unreadable => none
  | 0, .array _ => none
  | 0, .object _ => none
  | depth + 1, .array items => (settleItems depth items).map .array
  | depth + 1, .object members => (settleMembers depth members).map .object
  | _, .null => some .null
  | _, .bool b => some (.bool b)
  | _, .number n => some (.number n)
  | _, .string s => some (.string s)

def settleItems : Nat → List Json → Option (List Json)
  | _, [] => some []
  | depth, j :: js => do
    let j ← settle depth j
    let js ← settleItems depth js
    return j :: js

def settleMembers : Nat → List (String × Json) → Option (List (String × Json))
  | _, [] => some []
  | depth, (k, j) :: ms => do
    let j ← settle depth j
    let ms ← settleMembers depth ms
    return if (ms.lookup k).isSome then ms else (k, j) :: ms

end

end Json

end RayScene
