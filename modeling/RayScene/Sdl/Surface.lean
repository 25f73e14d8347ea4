import RayScene.Decimal.Precision
import RayScene.Export.Context
import RayScene.Scene.Node
import RayScene.Sdl.Identifier
import RayScene.Sdl.Number
set_option autoImplicit false

namespace RayScene.Sdl

def pigment (v : ViewStyle) (shapeColor : Rgb) : String :=
  let transmit :=
    if v.transparency = 0 then ""
    else " transmit " ++ number (Float.ofNat v.transparency.toNat / 100)
  if transmit.isEmpty && color v.color == color shapeColor then ""
  else "\tpigment \x7b color rgb " ++ color v.color ++ transmit ++ " \x7d\n"

def meanLight (c : Rgba) : Float := (doubleOf c.red + doubleOf c.green + doubleOf c.blue) / 3

/-- The colors that differ from those of a new surface; nothing when none does. -/
def finish (m : ShapeMaterial) : String :=
  let ambient :=
    if m.ambient == ShapeMaterial.plainAmbient then ""
    else "ambient rgb<" ++ components m.ambient.rgb ++ ">"
  let emission :=
    if m.emissive == Rgba.black then "" else "emission rgb<" ++ components m.emissive.rgb ++ ">"
  let phong :=
    if m.specular == Rgba.black then ""
    else "phong " ++ fixed 2 (meanLight m.specular) ++ " phong_size " ++
      number (m.shininess * 50) ++ " "
  if ambient.isEmpty && emission.isEmpty && phong.isEmpty then ""
  else "finish \x7b\n\t" ++ ambient ++ "\n\t" ++ emission ++ "\n\t" ++ phong ++ "\n\x7d\n"

/-- What the texture file declares for a label, from `material {A_material_hollow }` to
`pigment {A_pigment }` in the order in which it is asked. -/
def textureClause? (textures : Include) (label : String) : Option String :=
  if textures.declares (label ++ "_material_hollow") then
    some ("\nhollow\nmaterial \x7b" ++ label ++ "_material_hollow \x7d\n")
  else if textures.declares (label ++ "_material") then
    some ("\nmaterial \x7b" ++ label ++ "_material \x7d\n")
  else if textures.declares (label ++ "_texture") then
    some ("\ntexture \x7b" ++ label ++ "_texture \x7d\n")
  else if textures.declares (label ++ "_pigment") then
    some ("\npigment \x7b" ++ label ++ "_pigment \x7d\n")
  else none

/-- The material of a node: the user's, else that of the texture file, else its own colors. Empty
when the color of all shapes is right for it. -/
def material (c : Context) (n : Node) : String :=
  let label := sanitize n.label
  if c.user.declares (label ++ "_material") then "\nmaterial \x7b" ++ label ++ "_material \x7d\n"
  else match textureClause? c.textures label with
    | some clause => clause
    | none => pigment n.view (Rgb.ofPacked c.settings.view.shapeColor) ++ finish n.view.material

/-- Photons as far as the user's file declares them. A light is no target. -/
def photons (c : Context) (n : Node) : String :=
  let label := sanitize n.label
  let clause (name : String) : String :=
    let ident := label ++ "_photons_" ++ name
    if c.user.declares ident then "\n\t" ++ name ++ " " ++ ident else ""
  if c.user.declares (label ++ "_photons") then
    "\nphotons \x7b" ++ (if n.kind.isLight then "" else "\n\ttarget") ++ clause "reflection" ++
      clause "refraction" ++ clause "collect" ++ "\n\x7d\n"
  else ""

end RayScene.Sdl
