import RayScene.Export.Context
import RayScene.Sdl.Number
set_option autoImplicit false

namespace RayScene.Sdl

/-- Width and height of an orthographic view, whose own height spans the shorter side. -/
def orthoExtent (c : Context) : Float × Float :=
  let aspect := c.settings.aspect
  let height := c.camera.height
  if aspect ≥ 1 then (height * aspect, height) else (height, height / aspect)

/-- A camera without rotation looks down, that of the scene language looks ahead. -/
def cameraAngles (c : Context) : Vec3 :=
  let e := c.camera.orientation.eulerDegrees
  { e with x := e.x - 90 }

/-- From the eye to the image plane in units of the image height. -/
def focalDistance : Float := 1.2071067812

/-- The lines of a projection: those inside the camera before and after the common ones, and the two
vectors that span the image. -/
structure ProjectionLines where
  kind : String
  up : String
  right : String
  angle : String

def projectionLines (c : Context) : ProjectionLines :=
  match c.camera.projection with
  | .perspective =>
    let aspect := c.settings.aspect
    let angle := if aspect ≤ 1 then 45 else toDegrees (Float.atan2 (aspect / 2) focalDistance) * 2
    ⟨"", "<0, 0, 1>", "<" ++ fixed 2 aspect ++ ", 0, 0>", "\tangle " ++ fixed 2 angle ++ "\n"⟩
  | .orthographic =>
    let (right, up) := orthoExtent c
    ⟨"\torthographic\n", "< 0, 0, " ++ fixed 2 up ++ ">", "<" ++ fixed 2 right ++ ", 0, 0>", ""⟩

def cameraBlock (c : Context) : String :=
  let p := projectionLines c
  "#declare CamUp = " ++ p.up ++ ";\n#declare CamRight = " ++ p.right ++
    ";\n#declare CamRotation = " ++ triple (cameraAngles c) ++ ";\n#declare CamPosition = " ++
    triple c.camera.position ++ ";\n" ++ (if c.hasUserCamera then "/*" else "") ++
    "camera \x7b\n" ++ p.kind ++ "\tlocation <0, 0, 0>\n\tdirection <0, 1, 0>\n\tup CamUp\n" ++
    "\tright CamRight\n\trotate CamRotation\n\ttranslate CamPosition\n" ++ p.angle ++ "\x7d\n" ++
    (if c.hasUserCamera then "*/\n" else "")

def headlight : String := "light_source \x7b CamPosition color rgb <0.5, 0.5, 0.5> \x7d\n"

def packedColor (word : UInt32) : String := "color rgb" ++ color (Rgb.ofPacked word)

/-- The colors from one end of the gradient to the other at four stops, with the middle color
between them if it is in use. -/
def colorMap (v : Viewport) (first second third fourth : String) : String :=
  let stop (position : String) (word : UInt32) : String :=
    "\t\t\t[ " ++ position ++ "  " ++ packedColor word ++ " ]\n"
  "\t\tcolor_map \x7b\n" ++ stop first v.topColor ++ stop second v.topColor ++
    (if v.useMiddle then stop "0.50" v.middleColor else "") ++ stop third v.bottomColor ++
    stop fourth v.bottomColor ++ "\t\t\x7d\n"

def backdropDistance : Float := 100000

/-- A polygon that fills an orthographic view, where a sky would have one color only. -/
def backdrop (c : Context) : String :=
  let (right, up) := orthoExtent c
  let r := right / 2
  let u := up / 2
  let a := cameraAngles c
  "\npolygon \x7b\n\t5, " ++ pair ⟨-r, -u⟩ ++ ", " ++ pair ⟨-r, u⟩ ++ ", " ++ pair ⟨r, u⟩ ++ ", " ++
    pair ⟨r, -u⟩ ++ ", " ++ pair ⟨-r, -u⟩ ++ "\n\tpigment \x7b" ++
    (match c.settings.view.style with
    | .simple => " " ++ packedColor c.settings.view.plainColor ++ " \x7d\n"
    | .gradient =>
      "\n\t\tgradient y\n" ++ colorMap c.settings.view "0.00" "0.05" "0.95" "1.00" ++
        "\t\tscale <1," ++ number up ++ ",1>\n\t\ttranslate <0," ++ number (-u) ++
        ",0>\n\t\x7d\n") ++
    "\tfinish \x7b ambient 1 diffuse 0 \x7d\n\trotate " ++ triple { a with x := a.x + 90 } ++
    "\n\ttranslate " ++ triple c.camera.position ++ "\n\ttranslate " ++
    triple (c.camera.direction.map (· * backdropDistance)) ++ "\n\x7d\n"

def skySphere (c : Context) : String :=
  "sky_sphere \x7b\n\tpigment \x7b\n" ++
    (match c.settings.view.style with
    | .simple => "\t\t" ++ packedColor c.settings.view.plainColor ++ "\n"
    | .gradient =>
      "\t\tgradient z\n" ++ colorMap c.settings.view "0.00" "0.30" "0.70" "1.00" ++
        "\t\tscale 2\n\t\ttranslate -1\n\t\trotate" ++ triple (cameraAngles c) ++ "\n") ++
    "\t\x7d\n\x7d\n"

def imageSphere (e : Environment) : String :=
  if e.hdrPath.isEmpty then ""
  else
    "// HDRI Environment ----------------------------------\nsky_sphere \x7b\n\tpigment \x7b\n" ++
      "\t\timage_map \x7b hdr \"" ++ e.hdrPath ++
      "\"\n\t\t\tgamma 1.1\n\t\t\tmap_type 1 interpolate 2\n\t\t\x7d\n\t\x7d\n\trotate " ++
      triple e.rotation ++ "\n\ttranslate " ++ triple e.offset ++ "\n\x7d\n"

/-- The background, whether or not it is enabled. -/
def background (c : Context) : String :=
  match c.settings.environment.source with
  | .hdri => imageSphere c.settings.environment
  | .viewport =>
    (if c.camera.projection = .orthographic then backdrop c else "") ++ skySphere c

end RayScene.Sdl
