import RayScene.Geometry.TriMesh
import RayScene.Json.Record
set_option autoImplicit false

namespace RayScene

open Json

def Vec2.toJson (v : Vec2) : Json := .array [ofDouble v.x, ofDouble v.y]

def Vec2.ofJson? : Json → Option Vec2
  | .array [x, y] => do return ⟨← double? x, ← double? y⟩
  | _ => none

def Vec3.toJson (v : Vec3) : Json := .array [ofDouble v.x, ofDouble v.y, ofDouble v.z]

def Vec3.ofJson? : Json → Option Vec3
  | .array [x, y, z] => do return ⟨← double? x, ← double? y, ← double? z⟩
  | _ => none

def Rgb.toJson (c : Rgb) : Json := .array [ofSingle c.red, ofSingle c.green, ofSingle c.blue]

def Rgb.ofJson? : Json → Option Rgb
  | .array [r, g, b] => do return ⟨← single? r, ← single? g, ← single? b⟩
  | _ => none

def Rgba.toJson (c : Rgba) : Json :=
  .array [ofSingle c.red, ofSingle c.green, ofSingle c.blue, ofSingle c.alpha]

def Rgba.ofJson? : Json → Option Rgba
  | .array [r, g, b, a] => do return ⟨← single? r, ← single? g, ← single? b, ← single? a⟩
  | _ => none

def Rotation.toJson (r : Rotation) : Json :=
  .object [("q", .array [ofDouble r.x, ofDouble r.y, ofDouble r.z, ofDouble r.w])]

def Rotation.ofComponents? : Json → Option Rotation
  | .array [x, y, z, w] => do return ⟨← double? x, ← double? y, ← double? z, ← double? w⟩
  | _ => none

def Rotation.ofJson? (j : Json) : Option Rotation := do
  let [q] ← j.fields? ["q"] | none
  required ofComponents? q

def Placement.toJson (p : Placement) : Json :=
  .object [("base", p.base.toJson), ("rotation", p.rotation.toJson)]

def Placement.ofJson? (j : Json) : Option Placement := do
  let [base, rotation] ← j.fields? ["base", "rotation"] | none
  return ⟨← required Vec3.ofJson? base, ← required Rotation.ofJson? rotation⟩

def ofUInt32 (n : UInt32) : Json := Json.ofNat n.toNat

def Triangle.toJson (t : Triangle) : Json := .array [ofUInt32 t.a, ofUInt32 t.b, ofUInt32 t.c]

def Triangle.ofJson? : Json → Option Triangle
  | .array [a, b, c] => do return ⟨← uint32? a, ← uint32? b, ← uint32? c⟩
  | _ => none

def TriMesh.members (m : TriMesh) : List (String × Json) :=
  [("vertices", .array (m.vertices.map Vec3.toJson)),
    ("triangles", .array (m.triangles.map Triangle.toJson))]

def TriMesh.ofJson? (j : Json) : Option TriMesh := do
  let [vertices, triangles] ← j.fields? ["vertices", "triangles"] | none
  return ⟨← required (list? Vec3.ofJson?) vertices,
    ← required (list? Triangle.ofJson?) triangles⟩

end RayScene
