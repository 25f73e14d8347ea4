import RayScene.Sketch.Segment
import RayScene.Stored.Geometry
set_option autoImplicit false

namespace RayScene

open Json

def nameIn {α : Type} [DecidableEq α] (choices : List (String × α)) (a : α) : Json :=
  .string (((choices.find? (·.2 = a)).map (·.1)).getD "")

def ArcOrientation.choices : List (String × ArcOrientation) :=
  [("CounterClockwise", .counterClockwise), ("Clockwise", .clockwise)]

def taggedRecord (tag : String) (members : List (String × Json)) : Json :=
  .object (("type", .string tag) :: members)

def Segment.toJson : Segment → Json
  | .point p => taggedRecord "Point" [("at", p.toJson)]
  | .line a b => taggedRecord "Line" [("start", a.toJson), ("end", b.toJson)]
  | .circle c r => taggedRecord "Circle" [("center", c.toJson), ("radius", ofDouble r)]
  | .arc a => taggedRecord "Arc" [("center", a.center.toJson), ("radius", ofDouble a.radius),
      ("start_angle", ofDouble a.startAngle), ("end_angle", ofDouble a.endAngle),
      ("orientation", nameIn ArcOrientation.choices a.orientation)]
  | .unsupported kind => taggedRecord "Unsupported" [("kind", .string kind)]

def Segment.tags : List String := ["Point", "Line", "Circle", "Arc", "Unsupported"]

def Segment.ofFields? (tag : String) (j : Json) : Option Segment :=
  match tag with
  | "Point" => do
    let [p] ← j.fields? ["at"] | none
    return .point (← required Vec2.ofJson? p)
  | "Line" => do
    let [a, b] ← j.fields? ["start", "end"] | none
    return .line (← required Vec2.ofJson? a) (← required Vec2.ofJson? b)
  | "Circle" => do
    let [c, r] ← j.fields? ["center", "radius"] | none
    return .circle (← required Vec2.ofJson? c) (← required double? r)
  | "Arc" => do
    let [c, r, a, b, o] ←
      j.fields? ["center", "radius", "start_angle", "end_angle", "orientation"] | none
    return .arc ⟨← required Vec2.ofJson? c, ← required double? r, ← required double? a,
      ← required double? b, ← required (choice? true ArcOrientation.choices) o⟩
  | "Unsupported" => do
    let [kind] ← j.fields? ["kind"] | none
    return .unsupported (← required string? kind)
  | _ => none

/-- A curve inside of another tagged record may have the position of its tag in place of the
name. -/
def Segment.ofJson? (nested : Bool) (j : Json) : Option Segment := do
  let (tag, rest) ← j.tagged? nested tags
  ofFields? tag rest

def SketchEntity.toJson (e : SketchEntity) : Json :=
  .object [("segment", e.segment.toJson), ("construction", .bool e.construction)]

def SketchEntity.ofJson? (nested : Bool) (j : Json) : Option SketchEntity := do
  let [segment, construction] ← j.fields? ["segment", "construction"] | none
  return ⟨← required (Segment.ofJson? nested) segment, ← defaulted false bool? construction⟩

def Sketch.members (s : Sketch) : List (String × Json) :=
  [("geometry", .array (s.geometry.map SketchEntity.toJson))]

def Sketch.ofJson? (nested : Bool) (j : Json) : Option Sketch := do
  let [geometry] ← j.fields? ["geometry"] | none
  return ⟨← required (list? (SketchEntity.ofJson? nested)) geometry⟩

end RayScene
