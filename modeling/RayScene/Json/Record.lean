import RayScene.Decimal.Precision
import RayScene.Json.Value
/-!
Records in JSON. A record is an object, or an array of its fields in order. Every reader here
answers nothing but success or failure.
-/
set_option autoImplicit false

namespace RayScene

namespace Json

def unrepeated (names : List String) (members : List (String × Json)) : Bool :=
  names.all fun n => (members.filter (·.1 == n)).length ≤ 1

/-- The fields of a record by name or by position, with nothing where a field is missing. Other
members of an object do not matter; an array has none. -/
def fields? (names : List String) : Json → Option (List (Option Json))
  | .object members =>
    if unrepeated names members then some (names.map fun n => members.lookup n) else none
  | .array items =>
    if items.length ≤ names.length then
      some (items.map some ++ List.replicate (names.length - items.length) none)
    else none
  | _ => none

def double? : Json → Option Float
  | .number (.int i) => some (Float.ofInt i)
  | .number (.double x) => some x
  | .number (.single x) => some (doubleOf x)
  | _ => none

def single? : Json → Option Float32
  | .number (.int i) => some (Float32.ofInt i)
  | .number (.double x) => some (singleOf x)
  | .number (.single x) => some x
  | _ => none

/-- Only a whole number fits a word, also when a fraction is zero. -/
def word? (bits : Nat) : Json → Option Nat
  | .number (.int i) => if 0 ≤ i ∧ i < Nat.pow 2 bits then some i.toNat else none
  | _ => none

def uint8? (j : Json) : Option UInt8 := (word? 8 j).map UInt8.ofNat
def uint32? (j : Json) : Option UInt32 := (word? 32 j).map UInt32.ofNat

def bool? : Json → Option Bool
  | .bool b => some b
  | _ => none

def string? : Json → Option String
  | .string s => some s
  | _ => none

def list? {α : Type} (read : Json → Option α) : Json → Option (List α)
  | .array items => items.mapM read
  | _ => none

/-- Null is nothing; all else has to be readable. -/
def option? {α : Type} (read : Json → Option α) : Json → Option (Option α)
  | .null => some none
  | j => (read j).map some

/-- One of some names. A name may also be the only key of an object, above null. Inside a tagged
record an empty object does as well as null. -/
def choice? {α : Type} (nested : Bool) (choices : List (String × α)) : Json → Option α
  | .string s => choices.lookup s
  | .object [(s, .null)] => choices.lookup s
  | .object [(s, .object [])] => if nested then choices.lookup s else none
  | _ => none

/-- A tag by its name, and by its position where the tagged record stands inside another one. -/
def tag? (nested : Bool) (tags : List String) : Json → Option String
  | .string s => if tags.contains s then some s else none
  | .number (.int i) => if nested ∧ 0 ≤ i then tags[i.toNat]? else none
  | _ => none

/-- A tagged record: the tag is the member `type` of an object or the first item of an array, and
the fields are what is left. -/
def tagged? (nested : Bool) (tags : List String) : Json → Option (String × Json)
  | .object members => do
    let t ← members.lookup "type"
    if !unrepeated ["type"] members then none
    let tag ← tag? nested tags t
    return (tag, .object (members.filter (·.1 != "type")))
  | .array (t :: items) => do
    let tag ← tag? nested tags t
    return (tag, .array items)
  | _ => none

end Json

def required {α : Type} (read : Json → Option α) (field : Option Json) : Option α :=
  field.bind read

/-- A field that takes a value of its own when it is missing, but not when it is null. -/
def defaulted {α : Type} (value : α) (read : Json → Option α) : Option Json → Option α
  | none => some value
  | some j => read j

end RayScene
