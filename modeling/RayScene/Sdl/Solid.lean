import RayScene.Scene.Node
import RayScene.Sketch.Profile
import RayScene.Sdl.Number
/-!
Statements for primitives, lights and prisms. Each is left open, so that clauses can follow before
the closing brace. In all texts a brace is written by its number: `\x7b` opens and `\x7d` closes.
-/
set_option autoImplicit false

namespace RayScene.Sdl

/-- A rectangle with one corner at the origin:
`polygon { 5, <0, 0>, <2, 0>, <2, 3>, <0, 3>, <0, 0>`. -/
def polygon (length width : Float) : String :=
  let l := number length
  let w := number width
  "polygon \x7b 5, <0, 0>, <" ++ l ++ ", 0>, <" ++ l ++ ", " ++ w ++ ">, <0, " ++ w ++ ">, <0, 0>"

def imageFormat (file : String) : String :=
  let ending := ((Text.afterLast? '.' file.toList).getD []).map Char.toLower
  if ending = ['j', 'p', 'g'] then "jpeg"
  else if ending = ['t', 'i', 'f'] then "tiff"
  else String.ofList ending

/-- A rectangle about the origin with
`pigment { image_map { png "a.png" map_type 0 } scale <2, 3, 1> }`, a line for each part. -/
def imagePlane (file : String) (x y : Float) : String :=
  let map := "\npigment \x7b\n\timage_map \x7b\n\t\t" ++ imageFormat file ++ " \"" ++ file ++
    "\"\n\t\tmap_type 0\n\t\x7d\n\tscale <" ++ number x ++ ", " ++ number y ++ ", 1>\n\x7d\n"
  "\n" ++ polygon x y ++ indent map ++ "\ttranslate -<" ++ number (x / 2) ++ ", " ++
    number (y / 2) ++ ", 0>\n"

/-- The statement of a primitive, such as `box { <0,0,0>, <1, 2, 3>` or `sphere { <0, 0, 0> 2`.
Other kinds have none. -/
def primitive? : Kind → Option String
  | .box l w h => some ("\nbox \x7b <0,0,0>, " ++ triple ⟨l, w, h⟩)
  | .sphere r => some ("\nsphere \x7b <0, 0, 0> " ++ number r)
  | .ellipsoid r1 r2 r3 => some ("\nsphere \x7b <0, 0, 0> 1\n\tscale " ++ triple ⟨r2, r3, r1⟩)
  | .cone r1 r2 h =>
    some ("\ncone \x7b <0, 0, 0>, " ++ number r1 ++ "\n    <0, 0, " ++ number h ++ ">, " ++
      number r2)
  | .cylinder r h =>
    some ("\ncylinder \x7b <0, 0, 0>, <0, 0, " ++ number h ++ ">, " ++ number r)
  | .torus r1 r2 => some ("\ntorus \x7b " ++ number r1 ++ ", " ++ number r2)
  | .plane l w => some ("\n" ++ polygon l w)
  | .imagePlane file x y => some (imagePlane file x y)
  | _ => none

/-- `light_source { <0, 0, 0> color rgb<1, 1, 1>` with the lines of its own kind and, if it fades,
how. -/
def lightSource (l : Light) (lines : String) : String :=
  "\nlight_source \x7b <0, 0, 0>\n\tcolor rgb" ++ triple l.color ++ lines ++
    (if l.fadeDistance != 0 && l.fadePower != 0 then
      "\n\tfade_distance " ++ number l.fadeDistance ++ "\n\tfade_power " ++ number l.fadePower
    else "")

def areaLines (a : AreaLight) : String :=
  "\n\tarea_light\n\t<" ++ number a.length ++ ", 0, 0>, <0, " ++ number a.width ++ ", 0>\n\t" ++
    natural a.lengthLights.toNat ++ ", " ++ natural a.widthLights.toNat ++ "\n\tadaptive " ++
    natural a.adaptive.toNat ++ (if a.areaIllumination then "\n\tarea_illumination on" else "") ++
    (if a.jitter then "\n\tjitter" else "")

def spotLines (s : SpotLight) : String :=
  "\n\tspotlight\n\tpoint_at <0, -1, 0>\n\tradius " ++ number s.radius ++ "\n\tfalloff " ++
    number s.falloff ++ "\n\ttightness " ++ number s.tightness

def curveName : CurveKind → String
  | .line => "line"
  | .circle => "circle"
  | .arc => "arc"

def cubicLine (c : Cubic) : String :=
  String.intercalate ", " (c.points.map pair) ++ "//" ++ curveName c.kind ++ "\n"

def profileLines (p : Profile) : String := "\n" ++ String.join (p.cubics.map cubicLine)

end RayScene.Sdl

open RayScene.Sdl in
def RayScene.ProfileError.message : ProfileError → String
  | .empty => "profile has no usable geometry"
  | .openLoop position =>
    "profile loop does not close at (" ++ digits position.x ++ ", " ++ digits position.y ++ ")"
  | .unsupportedGeometry kind => "unsupported profile geometry: " ++ kind

namespace RayScene.Sdl

def extrusionSpan (e : Extrusion) : Float × Float :=
  let stop := if e.symmetric then e.lengthForward / 2 else e.lengthForward
  let start := (if e.symmetric then -stop else 0) - e.lengthReverse
  if e.reversed then (start, stop) else (-start, -stop)

/-- From where to where a pad or a pocket goes. A pocket starts a little outside of the solid and
goes the other way. -/
def featureSpan (f : Feature) (pocket : Bool) : Float × Float :=
  let stop := if f.midplane then f.length / 2 else f.length
  let start := if f.midplane then -stop else if pocket then -0.0001 else 0
  let (start, stop) := if f.reversed then (start, stop) else (-start, -stop)
  if pocket then (-start, -stop) else (start, stop)

/-- The two heights and the number of points that head a prism. -/
def prismHead (span : Float × Float) (p : Profile) : String :=
  number span.1 ++ ", " ++ number span.2 ++ ", " ++ natural p.pointCount

end RayScene.Sdl
