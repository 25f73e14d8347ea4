import RayScene.Export.Context
import RayScene.Scene.Document
set_option autoImplicit false

namespace RayScene

inductive SceneCamera where
  | perspective
  | orthographic
  | userDefined
  deriving DecidableEq, Repr

structure Summary where
  scenePath : String
  independent : Nat
  total : Nat
  unsupported : Nat
  camera : SceneCamera
  deriving DecidableEq, Repr

namespace Summary

/-- Counts the nodes that no other node depends on, all nodes, and the nodes without a rule. -/
def collect (d : Document) (c : Context) : Summary where
  scenePath := c.paths.path .scene
  independent := (d.entries.filter fun (id, _) => (d.inList id).isEmpty).length
  total := d.size
  unsupported := (d.entries.filter fun (_, n) => !n.kind.hasRule).length
  camera :=
    if c.hasUserCamera then .userDefined
    else match c.camera.projection with
      | .perspective => .perspective
      | .orthographic => .orthographic

def cameraLine : SceneCamera → String
  | .perspective => "Perspective Camera"
  | .orthographic => "Orthographic camera"
  | .userDefined =>
    "User defined camera found - FreeCAD camera will be commented out in *.pov file"

def text (s : Summary) : String :=
  "Path to *.pov File: " ++ s.scenePath ++ "\n" ++ toString s.independent ++
    " parent objects found in highest layer\ncontaining totally " ++ toString s.total ++
    " objects\n" ++
    (if s.unsupported = 0 then ""
    else "Your model contains " ++ toString s.unsupported ++
      " objects which aren't supported (will be represented as mesh).\n") ++
    cameraLine s.camera ++ "\n\n"

end Summary

end RayScene
