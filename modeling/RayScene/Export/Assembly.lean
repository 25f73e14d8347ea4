import RayScene.Export.Summary
import RayScene.Sdl.Compile
import RayScene.Sdl.View
set_option autoImplicit false

namespace RayScene

structure Artifacts where
  scene : String
  meshes : String
  summary : Summary
  deriving DecidableEq, Repr

open Sdl

def rule : String := "\n//------------------------------------------\n"

def radiosityBlock (r : Radiosity) : String :=
  "\n#include \"rad_def.inc\"\nglobal_settings \x7b\n\tradiosity \x7b\n\t\tRad_Settings(" ++
    r.preset ++ ", off, off)\n\t\x7d\n\x7d\n" ++
    (if r.ambientToZero then "#default \x7b finish\x7b ambient 0 \x7d \x7d\n" else "")

def includeLine (file : String) : String := "#include \"" ++ file ++ "\"\n"

/-- Everything before the objects. The mesh file is included only when there is one. -/
def sceneHead (c : Context) (withMeshes : Bool) : String :=
  "#version 3.7; // 3.6\nglobal_settings \x7b assumed_gamma 1.0 \x7d\n" ++
    "#default \x7b finish \x7b ambient 0.2 diffuse 0.9 \x7d \x7d\n#default \x7b pigment \x7b rgb "
    ++ color (Rgb.ofPacked c.settings.view.shapeColor) ++ " \x7d \x7d\n" ++ rule ++
    includeLine "colors.inc" ++ includeLine "textures.inc" ++
    (match c.settings.radiosity with
    | some r => radiosityBlock r
    | none => "") ++
    rule ++ includeLine (c.paths.name .textureInclude) ++
    (if withMeshes then includeLine (c.paths.name .meshInclude) else "") ++ rule ++
    "// Camera ----------------------------------\n" ++ cameraBlock c ++
    (if c.settings.exportLight then
      "\n// FreeCAD Light -------------------------------------\n" ++ headlight
    else "") ++
    (if c.settings.environment.enabled then
      "\n// Background ------------------------------\n" ++ background c
    else "") ++
    rule ++ "\n" ++ includeLine (c.paths.name .userInclude) ++
    "\n// Objects in Scene ------------------------\n"

def Context.repaired (c : Context) (d : Document) : Document :=
  if c.settings.repairRotation then d.normalizeRotations else d

def Sdl.Workshop.compileRoots (w : Workshop) : Compiling (List String) :=
  w.document.roots.mapM fun id => w.compile id Flags.all

/-- The artifacts of a document, and all requests made to the tessellator by then. The summary is
that of the document before its rotations are repaired. -/
def assemble (t : Tessellator) (earlier : List Request) (c : Context) (d : Document) :
    Except CompileError Artifacts × List Request :=
  let w : Workshop := ⟨⟨c.repaired d, c⟩, t⟩
  let (result, ledger) := w.compileRoots.run.run ⟨earlier, MeshFile.empty⟩
  (result.map fun codes =>
    ⟨sceneHead c (!ledger.meshes.isEmpty) ++ String.join codes, ledger.meshes.text,
      Summary.collect d c⟩, ledger.requests)

end RayScene
