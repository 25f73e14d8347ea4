import RayScene.Geometry.Rotation
set_option autoImplicit false

namespace RayScene

inductive ArcOrientation where
  | counterClockwise
  | clockwise
  deriving DecidableEq, Repr, Inhabited

def ArcOrientation.flipped : ArcOrientation → ArcOrientation
  | .counterClockwise => .clockwise
  | .clockwise => .counterClockwise

/-- Angles are in radians from the X axis, counter-clockwise whatever the orientation is. -/
structure Arc where
  center : Vec2
  radius : Float
  startAngle : Float
  endAngle : Float
  orientation : ArcOrientation
  deriving BEq, Repr, Inhabited

inductive Segment where
  | point (position : Vec2)
  | line (start stop : Vec2)
  | circle (center : Vec2) (radius : Float)
  | arc (a : Arc)
  | unsupported (kind : String)
  deriving BEq, Repr, Inhabited

def Vec2.polar (center : Vec2) (radius angle : Float) : Vec2 :=
  ⟨center.x + radius * angle.cos, center.y + radius * angle.sin⟩

namespace Segment

def start? : Segment → Option Vec2
  | .line a _ => some a
  | .arc a => some (a.center.polar a.radius a.startAngle)
  | _ => none

def stop? : Segment → Option Vec2
  | .line _ b => some b
  | .arc a => some (a.center.polar a.radius a.endAngle)
  | _ => none

def reversed : Segment → Segment
  | .line a b => .line b a
  | .arc a => .arc { a with
      startAngle := a.endAngle
      endAngle := a.startAngle
      orientation := a.orientation.flipped }
  | s => s

def typeName : Segment → String
  | .point _ => "Point"
  | .line _ _ => "LineSegment"
  | .circle _ _ => "Circle"
  | .arc _ => "ArcOfCircle"
  | .unsupported kind => kind

end Segment

structure SketchEntity where
  segment : Segment
  construction : Bool
  deriving Repr, Inhabited

structure Sketch where
  geometry : List SketchEntity
  deriving Repr, Inhabited

namespace Sketch

def ofSegments (segments : List Segment) : Sketch := ⟨segments.map (⟨·, false⟩)⟩

def profileSegments (s : Sketch) : List Segment :=
  (s.geometry.filter (!·.construction)).map (·.segment)

/-- Whether every curve of the profile has an exact form. -/
def isSupported (s : Sketch) : Bool :=
  s.profileSegments.all fun
    | .unsupported _ => false
    | _ => true

end Sketch

end RayScene
