import RayScene.Export.Settings
set_option autoImplicit false

namespace RayScene

/-- A file inside a directory. An absolute file name stands for itself, and no name is
simplified. -/
def joinPath (directory file : String) : String :=
  if file.toList.head? = some '/' || directory.isEmpty then file
  else if directory.toList.getLast? = some '/' then directory ++ file
  else directory ++ "/" ++ file

structure OutputPaths where
  directory : String
  projectName : String
  deriving DecidableEq, Repr

inductive OutputFile where
  | scene
  | ini
  | image
  | userInclude
  | textureInclude
  | meshInclude
  | errorLog
  | viewport
  deriving DecidableEq, Repr

def OutputFile.all : List OutputFile :=
  [.scene, .ini, .image, .userInclude, .textureInclude, .meshInclude, .errorLog, .viewport]

def OutputFile.ending : OutputFile → String
  | .scene => ".pov"
  | .ini => ".ini"
  | .image => ".png"
  | .userInclude => "_user.inc"
  | .textureInclude => "_textures.inc"
  | .meshInclude => "_mesh.inc"
  | .errorLog => "_error.txt"
  | .viewport => "_fcview.png"

namespace OutputPaths

def name (p : OutputPaths) (f : OutputFile) : String := p.projectName ++ f.ending

def path (p : OutputPaths) (f : OutputFile) : String := joinPath p.directory (p.name f)

end OutputPaths

def Settings.paths (s : Settings) : OutputPaths := ⟨s.directory, s.projectName⟩

end RayScene
