import RayScene.Export.Assembly
import RayScene.Render.FileStore
import RayScene.Text.Blank
set_option autoImplicit false

namespace RayScene

structure CaptureCall where
  path : String
  width : UInt32
  height : UInt32
  deriving DecidableEq, Repr

abbrev Capture := CaptureCall → FileStore → Option FileStore

abbrev Program := Location → String → Location → FileStore → Option FileStore

structure Site where
  files : FileStore
  captures : List CaptureCall

inductive RenderError where
  | noProjectName
  | outputOpen (path : String)
  | io (path : String)
  | rendererNotFound (path : String)
  | launch (path : String)
  | compile (cause : Sdl.CompileError)
  deriving DecidableEq, Repr

/-- Without what the operating system has to say about it. -/
def RenderError.message : RenderError → String
  | .noProjectName => "no project name set, nothing to export"
  | .outputOpen path => "can't open the pov file " ++ path
  | .io path => "i/o error on " ++ path
  | .rendererNotFound path => "POV-Ray executable not found: " ++ path
  | .launch path => "failed to start " ++ path
  | .compile cause => cause.message

inductive RenderOutcome where
  | succeeded
  | failed (log : String)
  | detached
  deriving DecidableEq, Repr

/-- What a step did to the files stays done when it fails later. -/
abbrev Rendering := ExceptT RenderError (StateM Site)

namespace Rendering

def change (error : RenderError) (f : FileStore → Except FileError FileStore) : Rendering Unit := do
  let s ← get
  match f s.files with
  | .ok files => set { s with files := files }
  | .error _ => throw error

def readOrCreate (path : String) : Rendering String := do
  change (.io path) (·.touch path)
  match (← get).files.read path with
  | .ok text => return text
  | .error _ => throw (.io path)

/-- Empties the scene file, makes and reads the include files, and empties the mesh file if that is
possible. -/
def prepare (settings : Settings) (camera : Camera) : Rendering Context := do
  if settings.projectName.toList.all Text.isBlank then throw .noProjectName
  let paths := settings.paths
  let scene := paths.path .scene
  change (.outputOpen scene) (·.write scene "")
  let user ← readOrCreate (paths.path .userInclude)
  let textures ← readOrCreate (paths.path .textureInclude)
  modify fun s =>
    match s.files.write (paths.path .meshInclude) "" with
    | .ok files => { s with files := files }
    | .error _ => s
  return ⟨settings, camera, Sdl.Include.load user, Sdl.Include.load textures⟩

/-- Saves a picture of the viewport. A picture that fails does no harm. -/
def captureView (c : Context) (capture : Option Capture) : Rendering Unit :=
  if c.settings.captureView then
    match capture with
    | none => pure ()
    | some capture =>
      let call : CaptureCall := ⟨c.paths.path .viewport, c.settings.width, c.settings.height⟩
      modify fun s => ⟨(capture call s.files).getD s.files, s.captures ++ [call]⟩
  else pure ()

/-- Writes the scene, and the mesh file when something was tessellated. -/
def export_ (t : Tessellator) (c : Context) (d : Document) (capture : Option Capture) :
    Rendering Artifacts := do
  captureView c capture
  match (assemble t [] c d).1 with
  | .error e => throw (.compile e)
  | .ok a =>
    let scene := c.paths.path .scene
    change (.io scene) (·.write scene a.scene)
    if !a.meshes.isEmpty then
      let meshes := c.paths.path .meshInclude
      change (.io meshes) (·.write meshes a.meshes)
    return a

def iniText (c : Context) : String :=
  "Input_File_Name=\"" ++ c.paths.name .scene ++ "\"\nOutput_File_Name=\"" ++ c.paths.name .image ++
    "\"\nWidth=" ++ toString c.settings.width.toNat ++ "\nHeight=" ++
    toString c.settings.height.toNat ++ "\nFatal_File=\"" ++ c.paths.name .errorLog ++
    "\"\n\n;User Options from FreeCAD Settings\n" ++ c.settings.renderer.parameters

def writeIni (c : Context) : Rendering String := do
  let path := c.paths.path .ini
  change (.io path) (·.write path (iniText c))
  return path

/-- Any content of the error log is a failure. An empty log is removed, a missing one is as good. -/
def checkErrorLog (path : String) : Rendering RenderOutcome := do
  let log ← match (← get).files.read path with
    | .ok log => pure log
    | .error .notFound => pure ""
    | .error _ => throw (.io path)
  if !log.isEmpty then return .failed log
  match (← get).files.remove path with
  | .ok files => modify fun s => { s with files := files }
  | .error .notFound => pure ()
  | .error _ => throw (.io path)
  return .succeeded

/-- An argument of a program has less than 131072 bytes. -/
def isArgument (text : String) : Bool := FileStore.isPlain text && text.utf8ByteSize < 131072

/-- Runs the renderer inside the output directory. Only when waiting for it is its log judged. -/
def launch (program : Program) (c : Context) : Rendering RenderOutcome := do
  let configured := c.settings.renderer.executable
  let s ← get
  match s.files.file? configured with
  | none => throw (.rendererNotFound configured)
  | some executable =>
    let started? : Option FileStore :=
      match s.files.directory c.paths.directory with
      | .error _ => none
      | .ok dir =>
        if isArgument (c.paths.name .ini) then program executable (c.paths.name .ini) dir s.files
        else none
    match started? with
    | none => throw (.launch configured)
    | some files =>
      modify fun s => { s with files := files }
      match c.settings.renderer.mode with
      | .wait => checkErrorLog (c.paths.path .errorLog)
      | .detach => return .detached

end Rendering

end RayScene
