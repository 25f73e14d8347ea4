import RayScene.Scene.Document
import RayScene.Sdl.Number
set_option autoImplicit false

namespace RayScene.Sdl

def isTorus : Kind → Bool
  | .torus .. => true
  | _ => false

/-- A turn about X for shapes whose axis is another one in the scene language. A clone is turned
like its first source. -/
def axisTurn (d : Document) : Kind → Float
  | .torus .. => 90
  | .clone (s :: _) _ => if (d.get? s).any (isTorus ·.kind) then 90 else 0
  | .sketch _ => -90
  | _ => 0

def angles (d : Document) (n : Node) : Vec3 :=
  let e := n.placement.rotation.eulerDegrees
  { e with x := roundNine (e.x + axisTurn d n.kind) }

def displacement (n : Node) : String :=
  if n.placement.base.isNonzero then "translate " ++ triple n.placement.base else ""

def rotation (d : Document) (n : Node) : String :=
  let a := angles d n
  if a.isNonzero then "rotate " ++ triple a else ""

/-- The statements that undo the rotation, one for each axis, the last axis first. -/
def inverseRotation (d : Document) (n : Node) : List String :=
  let a := angles d n
  (if a.z != 0 then ["rotate <0, 0, " ++ number (-a.z) ++ ">"] else []) ++
    (if a.y != 0 then ["rotate <0, " ++ number (-a.y) ++ ", 0>"] else []) ++
      (if a.x != 0 then ["rotate <" ++ number (-a.x) ++ ", 0, 0>"] else [])

def clauseLine (lead clause : String) : String :=
  if clause.isEmpty then "" else lead ++ clause ++ "\n"

end RayScene.Sdl
