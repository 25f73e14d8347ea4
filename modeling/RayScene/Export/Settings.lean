import RayScene.Geometry.Rotation
set_option autoImplicit false

namespace RayScene

structure Radiosity where
  preset : String
  ambientToZero : Bool
  deriving DecidableEq, Repr, Inhabited

inductive EnvironmentSource where
  | hdri
  | viewport
  deriving DecidableEq, Repr, Inhabited

structure Environment where
  enabled : Bool
  source : EnvironmentSource
  hdrPath : String
  rotation : Vec3
  offset : Vec3
  deriving BEq, Repr, Inhabited

inductive BackgroundStyle where
  | simple
  | gradient
  deriving DecidableEq, Repr, Inhabited

/-- Colors are packed as `0xRRGGBBAA`. -/
structure Viewport where
  shapeColor : UInt32
  style : BackgroundStyle
  plainColor : UInt32
  bottomColor : UInt32
  topColor : UInt32
  middleColor : UInt32
  useMiddle : Bool
  deriving DecidableEq, Repr, Inhabited

inductive RunMode where
  | wait
  | detach
  deriving DecidableEq, Repr, Inhabited

/-- The parameters are further lines for the renderer's own configuration. -/
structure Renderer where
  executable : String
  mode : RunMode
  parameters : String
  deriving DecidableEq, Repr, Inhabited

/-- What a user sets for an export. Directories, files and the executable of the renderer are texts.
A path that is no text is left out: it has no stored form, so settings with one cannot be saved. -/
structure Settings where
  projectName : String
  directory : String
  width : UInt32
  height : UInt32
  exportLight : Bool
  repairRotation : Bool
  captureView : Bool
  radiosity : Option Radiosity
  environment : Environment
  view : Viewport
  renderer : Renderer
  deriving BEq, Repr, Inhabited

def Environment.standard : Environment := ⟨false, .viewport, "", Vec3.zero, Vec3.zero⟩

def Viewport.standard : Viewport :=
  ⟨0xCCCCCC00, .gradient, 0x1414A3FF, 0x333365FF, 0x9797AAFF, 0x6F6F93FF, false⟩

def Renderer.standard : Renderer := ⟨"", .wait, ""⟩

namespace Settings

def standard : Settings :=
  ⟨"scene", ".", 800, 600, true, false, false, none, Environment.standard, Viewport.standard,
    Renderer.standard⟩

/-- Width over height. An image without height counts as square. -/
def aspect (s : Settings) : Float :=
  if s.height = 0 then 1 else Float.ofNat s.width.toNat / Float.ofNat s.height.toNat

end Settings

inductive Projection where
  | perspective
  | orthographic
  deriving DecidableEq, Repr, Inhabited

/-- The height is that of an orthographic view. -/
structure Camera where
  projection : Projection
  orientation : Rotation
  position : Vec3
  height : Float
  direction : Vec3
  deriving BEq, Repr, Inhabited

def Camera.standard : Camera :=
  ⟨.perspective, Rotation.identity, ⟨0, 0, 100⟩, 100, ⟨0, 0, -1⟩⟩

end RayScene
