import RayScene.Render.Session
import RayScene.Stored.Project
set_option autoImplicit false

namespace RayScene

structure Command where
  project : String
  settings : String
  render : Bool
  deriving DecidableEq, Repr

namespace Command

def usage : String := "usage: rayscene <project.json> <settings.json> [--no-render]"

/-- Two files and one option, in any order. -/
def ofArguments? (arguments : List String) : Option Command := do
  let (options, files) := arguments.partition (·.startsWith "--")
  if options.any (· ≠ "--no-render") then none
  let [project, settings] := files | none
  return ⟨project, settings, options.isEmpty⟩

end Command

/-- Exports a project, and renders it on demand. Shapes that need a modelling kernel are left
out. -/
def Rendering.project (program : Program) (p : Project) (settings : Settings) (render : Bool) :
    Rendering RenderOutcome := do
  let c ← prepare settings p.camera
  let _ ← export_ Tessellator.primitive c p.document none
  if render then
    let _ ← writeIni c
    launch program c
  else return .succeeded

def RenderOutcome.report? (log : String) : RenderOutcome → Option String
  | .succeeded => none
  | .detached => none
  | .failed text =>
    let line := "\n-----------------------------------------\n"
    some ("An error occurred while rendering:" ++ line ++ text ++ line ++
      "You can see the error message in " ++ log ++ " too.")

end RayScene
