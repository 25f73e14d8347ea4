import RayScene.Sketch.Outline
/-!
Profiles as cubic curves. Lines are straight cubics, a circle is four quarter arcs, and an arc is
split into pieces of at most a quarter turn.
-/
set_option autoImplicit false

namespace RayScene

inductive CurveKind where
  | line
  | circle
  | arc
  deriving DecidableEq, Repr

structure Cubic where
  start : Vec2
  control1 : Vec2
  control2 : Vec2
  stop : Vec2
  kind : CurveKind
  deriving BEq, Repr

def Cubic.points (c : Cubic) : List Vec2 := [c.start, c.control1, c.control2, c.stop]

def Cubic.rounded (kind : CurveKind) (a b c d : Vec2) : Cubic :=
  ⟨a.rounded, b.rounded, c.rounded, d.rounded, kind⟩

def circleCubics (center : Vec2) (radius : Float) : List Cubic :=
  let ⟨cx, cy⟩ := center.rounded
  let d := roundThree ((4.0 / 3.0) * (pi / 8.0).tan * radius)
  let top : Vec2 := ⟨cx, cy + radius⟩
  let right : Vec2 := ⟨cx + radius, cy⟩
  let bottom : Vec2 := ⟨cx, cy - radius⟩
  let left : Vec2 := ⟨cx - radius, cy⟩
  [.rounded .circle top ⟨cx + d, cy + radius⟩ ⟨cx + radius, cy + d⟩ right,
    .rounded .circle right ⟨cx + radius, cy - d⟩ ⟨cx + d, cy - radius⟩ bottom,
    .rounded .circle bottom ⟨cx - d, cy - radius⟩ ⟨cx - radius, cy - d⟩ left,
    .rounded .circle left ⟨cx - radius, cy + d⟩ ⟨cx - d, cy + radius⟩ top]

namespace Arc

/-- One for a counter-clockwise arc and minus one for a clockwise one. -/
def direction (a : Arc) : Float :=
  match a.orientation with
  | .counterClockwise => 1
  | .clockwise => -1

/-- The angle that the arc covers in its direction. An arc that ends where it starts is a full
turn. -/
def turn (a : Arc) : Float :=
  let t := remainderOf (a.direction * (a.endAngle - a.startAngle)) fullTurn
  if t < 1e-9 then fullTurn else t

/-- The number of quarter turns that cover the arc, and one where the arc has no angle. -/
def pieces (a : Arc) : Nat :=
  let n := (a.turn / quarterTurn - 1e-9).ceil
  if n.isNaN || n < 1 then 1 else n.toUInt64.toNat

/-- The piece with the given number. The control points follow the tangents at both ends. -/
def piece (a : Arc) (i : Nat) : Cubic :=
  let sign := a.direction
  let step := a.turn / Float.ofNat a.pieces
  let control := (4.0 / 3.0) * (pi / (2.0 * (fullTurn / step))).tan * a.radius
  let a0 := a.startAngle + sign * Float.ofNat i * step
  let a1 := a.startAngle + sign * Float.ofNat (i + 1) * step
  let start := (a.center.polar a.radius a0).rounded
  let stop := (a.center.polar a.radius a1).rounded
  let startControl : Vec2 :=
    ⟨start.x - sign * a0.sin * control, start.y + sign * a0.cos * control⟩
  let stopControl : Vec2 :=
    ⟨stop.x + sign * a1.sin * control, stop.y - sign * a1.cos * control⟩
  ⟨start, startControl.rounded, stopControl.rounded, stop, .arc⟩

def cubics (a : Arc) : List Cubic := (List.range a.pieces).map a.piece

end Arc

def Segment.cubics : Segment → List Cubic
  | .line a b => [.rounded .line a a b b]
  | .circle center radius => circleCubics center radius
  | .arc a => a.cubics
  | .point _ => []
  | .unsupported _ => []

/-- The curves of a profile that have an outline to give. Bare points have none; the first curve
without an exact form is the one that is reported. -/
def outlineSegments : List Segment → Except ProfileError (List Segment)
  | [] => .ok []
  | .point _ :: rest => outlineSegments rest
  | .unsupported kind :: _ => .error (.unsupportedGeometry kind)
  | s :: rest => (outlineSegments rest).map (s :: ·)

structure Profile where
  cubics : List Cubic
  deriving BEq, Repr

def Profile.pointCount (p : Profile) : Nat := p.cubics.length * 4

def Sketch.profile (s : Sketch) : Except ProfileError Profile :=
  match outlineSegments s.profileSegments with
  | .error e => .error e
  | .ok [] => .error .empty
  | .ok segments => (outlines segments).map fun loops => ⟨loops.flatten.flatMap Segment.cubics⟩

end RayScene
