import RayScene.Proofs.Rendering.Effects
/-!
What a session that waits for the renderer has to say about the render. The verdict is read from a
file which no step of the session writes or clears, so a log that an earlier render has left counts
against this one.
-/
set_option autoImplicit false

namespace RayScene

open FileStore

/-- The program runs, and the file reads as before when it is done. -/
def Program.Leaves (program : Program) (path : String) : Prop :=
  ∀ executable argument dir files, ∃ files', program executable argument dir files = some files' ∧
    FileStore.read files' path = FileStore.read files path

section Placing

variable {s s' : FileStore} {p : OutputPaths} {f : OutputFile} {l : Location}

end Placing

namespace Rendering

variable {program : Program} {settings : Settings} {camera : Camera} {t : Tessellator}
  {d : Document} {capture : Option Capture} {c : Context} {s s' : Site}

section Readying

end Readying

section Launching

variable {executable : Location}

end Launching

end Rendering

end RayScene
