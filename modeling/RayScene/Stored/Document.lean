import RayScene.Scene.Document
import RayScene.Stored.Node
set_option autoImplicit false

namespace RayScene

open Json

def Slot.toJson (s : Slot) : Json :=
  .object [("value", optionJson Node.toJson s.node?), ("version", ofNat s.version)]

/-- A place is occupied exactly when its version is odd. -/
def Slot.ofVersion? (version : Nat) : Option Node → Option Slot
  | none => if version % 2 = 0 then some (.vacant (BitVec.ofNat 31 (version / 2))) else none
  | some n => if version % 2 = 1 then some (.occupied (BitVec.ofNat 31 (version / 2)) n) else none

def Slot.ofJson? (j : Json) : Option Slot := do
  let [value, version] ← j.fields? ["value", "version"] | none
  let node ← defaulted none (option? Node.ofJson?) value
  Slot.ofVersion? (← required (word? 32) version) node

/-- The free places after the first one, the highest on top. -/
def freePlaces (slots : List Slot) : List Nat :=
  (slots.zipIdx.filterMap fun (s, i) =>
    match s with
    | .vacant _ => if i = 0 then none else some i
    | .occupied _ _ => none).reverse

/-- The first place has to be free, and starts over. -/
def arena? : List Slot → Option (List Slot)
  | .vacant _ :: rest => some (.vacant 0 :: rest)
  | _ => none

def Document.toJson (d : Document) : Json :=
  .object [("nodes", .array (d.slots.toList.map Slot.toJson)),
    ("order", .array (d.order.map NodeId.toJson))]

def Document.ofJson? (j : Json) : Option Document := do
  let [nodes, order] ← j.fields? ["nodes", "order"] | none
  let slots ← arena? (← required (list? Slot.ofJson?) nodes)
  return ⟨slots.toArray, freePlaces slots, ← required (list? NodeId.ofJson?) order⟩

end RayScene
