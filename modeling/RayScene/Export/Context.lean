import RayScene.Export.Paths
import RayScene.Sdl.Include
set_option autoImplicit false

namespace RayScene

structure Context where
  settings : Settings
  camera : Camera
  user : Sdl.Include
  textures : Sdl.Include

namespace Context

def bare (settings : Settings) (camera : Camera) : Context :=
  ⟨settings, camera, Sdl.Include.empty, Sdl.Include.empty⟩

def paths (c : Context) : OutputPaths := c.settings.paths

def hasUserCamera (c : Context) : Bool := c.user.mentions "camera"

end Context

end RayScene
