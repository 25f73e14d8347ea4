import RayScene.Sketch.Segment
set_option autoImplicit false

namespace RayScene.Sketch

def polygonSegments (points : List Vec2) : List Segment :=
  (points.zip (points.drop 1 ++ points.take 1)).map fun (a, b) => .line a b

def polygon (points : List Vec2) : Sketch := ofSegments (polygonSegments points)

def rectangle (x y w h : Float) : Sketch :=
  polygon [⟨x, y⟩, ⟨x + w, y⟩, ⟨x + w, y + h⟩, ⟨x, y + h⟩]

def circle (x y r : Float) : Sketch := ofSegments [.circle ⟨x, y⟩ r]

/-- A rectangle whose right side is a half circle. -/
def slot (w h : Float) : Sketch :=
  let r := h / 2
  ofSegments ((polygonSegments [⟨w, h⟩, ⟨0, h⟩, ⟨0, 0⟩, ⟨w, 0⟩]).dropLast ++
    [.arc ⟨⟨w, r⟩, r, -quarterTurn, quarterTurn, .counterClockwise⟩])

def withUnsupported (s : Sketch) (kind : String) : Sketch :=
  ⟨s.geometry ++ [⟨.unsupported kind, false⟩]⟩

end RayScene.Sketch
