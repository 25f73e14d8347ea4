import RayScene.Export.Settings
import RayScene.Json.Reader
import RayScene.Json.Writer
import RayScene.Stored.Node
/-!
The stored form of settings and cameras. A field that is missing takes its value from the standard
value of the record it belongs to.
-/
set_option autoImplicit false

namespace RayScene

open Json

def EnvironmentSource.choices : List (String × EnvironmentSource) :=
  [("Hdri", .hdri), ("FreeCadBackground", .viewport)]

def BackgroundStyle.choices : List (String × BackgroundStyle) :=
  [("Simple", .simple), ("Gradient", .gradient)]

def RunMode.choices : List (String × RunMode) := [("Wait", .wait), ("Detach", .detach)]

def Projection.choices : List (String × Projection) :=
  [("Perspective", .perspective), ("Orthographic", .orthographic)]

def Radiosity.toJson (r : Radiosity) : Json :=
  .object [("preset", .string r.preset), ("ambient_to_zero", .bool r.ambientToZero)]

/-- The preset has no standard value. -/
def Radiosity.ofJson? (j : Json) : Option Radiosity := do
  let [preset, ambient] ← j.fields? ["preset", "ambient_to_zero"] | none
  return ⟨← required string? preset, ← defaulted false bool? ambient⟩

def Environment.toJson (e : Environment) : Json :=
  .object [("enabled", .bool e.enabled), ("option", nameIn EnvironmentSource.choices e.source),
    ("hdr_path", .string e.hdrPath), ("rotation", e.rotation.toJson),
    ("translation", e.offset.toJson)]

def Environment.ofJson? (j : Json) : Option Environment := do
  let [enabled, source, hdrPath, rotation, offset] ←
    j.fields? ["enabled", "option", "hdr_path", "rotation", "translation"] | none
  return ⟨← defaulted standard.enabled bool? enabled,
    ← defaulted standard.source (choice? false EnvironmentSource.choices) source,
    ← defaulted standard.hdrPath string? hdrPath,
    ← defaulted standard.rotation Vec3.ofJson? rotation,
    ← defaulted standard.offset Vec3.ofJson? offset⟩

def Viewport.toJson (v : Viewport) : Json :=
  .object [("default_shape_color", ofUInt32 v.shapeColor),
    ("background_style", nameIn BackgroundStyle.choices v.style),
    ("background_color", ofUInt32 v.plainColor), ("background_color2", ofUInt32 v.bottomColor),
    ("background_color3", ofUInt32 v.topColor), ("background_color4", ofUInt32 v.middleColor),
    ("use_background_color_mid", .bool v.useMiddle)]

def Viewport.ofJson? (j : Json) : Option Viewport := do
  let [shapeColor, style, plainColor, bottomColor, topColor, middleColor, useMiddle] ←
    j.fields? ["default_shape_color", "background_style", "background_color",
      "background_color2", "background_color3", "background_color4",
      "use_background_color_mid"] | none
  return ⟨← defaulted standard.shapeColor uint32? shapeColor,
    ← defaulted standard.style (choice? false BackgroundStyle.choices) style,
    ← defaulted standard.plainColor uint32? plainColor,
    ← defaulted standard.bottomColor uint32? bottomColor,
    ← defaulted standard.topColor uint32? topColor,
    ← defaulted standard.middleColor uint32? middleColor,
    ← defaulted standard.useMiddle bool? useMiddle⟩

def Renderer.toJson (r : Renderer) : Json :=
  .object [("executable", .string r.executable), ("exec_mode", nameIn RunMode.choices r.mode),
    ("render_parameters", .string r.parameters)]

def Renderer.ofJson? (j : Json) : Option Renderer := do
  let [executable, mode, parameters] ←
    j.fields? ["executable", "exec_mode", "render_parameters"] | none
  return ⟨← defaulted standard.executable string? executable,
    ← defaulted standard.mode (choice? false RunMode.choices) mode,
    ← defaulted standard.parameters string? parameters⟩

def Settings.toJson (s : Settings) : Json :=
  .object [("project_name", .string s.projectName), ("directory", .string s.directory),
    ("width", ofUInt32 s.width), ("height", ofUInt32 s.height),
    ("export_light", .bool s.exportLight), ("repair_rotation", .bool s.repairRotation),
    ("export_fc_view", .bool s.captureView), ("radiosity", optionJson Radiosity.toJson s.radiosity),
    ("environment", s.environment.toJson), ("view", s.view.toJson),
    ("renderer", s.renderer.toJson)]

def Settings.ofJson? (j : Json) : Option Settings := do
  let [projectName, directory, width, height, exportLight, repairRotation, captureView, radiosity,
      environment, view, renderer] ←
    j.fields? ["project_name", "directory", "width", "height", "export_light", "repair_rotation",
      "export_fc_view", "radiosity", "environment", "view", "renderer"] | none
  return ⟨← defaulted standard.projectName string? projectName,
    ← defaulted standard.directory string? directory, ← defaulted standard.width uint32? width,
    ← defaulted standard.height uint32? height,
    ← defaulted standard.exportLight bool? exportLight,
    ← defaulted standard.repairRotation bool? repairRotation,
    ← defaulted standard.captureView bool? captureView,
    ← defaulted standard.radiosity (option? Radiosity.ofJson?) radiosity,
    ← defaulted standard.environment Environment.ofJson? environment,
    ← defaulted standard.view Viewport.ofJson? view,
    ← defaulted standard.renderer Renderer.ofJson? renderer⟩

namespace Settings

/-- Reads a settings file. Nothing but the fields of the settings has to be readable. -/
def load? (text : String) : Option Settings := (Json.readLoose text).bind ofJson?

/-- There is a text for all settings, because every path in them is a text. A path that is none
would have no stored form. -/
def save (s : Settings) : String := s.toJson.pretty

end Settings

def Camera.toJson (c : Camera) : Json :=
  .object [("kind", nameIn Projection.choices c.projection),
    ("orientation", c.orientation.toJson), ("position", c.position.toJson),
    ("height", ofDouble c.height), ("view_direction", c.direction.toJson)]

def Camera.ofJson? (j : Json) : Option Camera := do
  let [projection, orientation, position, height, direction] ←
    j.fields? ["kind", "orientation", "position", "height", "view_direction"] | none
  return ⟨← defaulted standard.projection (choice? false Projection.choices) projection,
    ← defaulted standard.orientation Rotation.ofJson? orientation,
    ← defaulted standard.position Vec3.ofJson? position,
    ← defaulted standard.height double? height,
    ← defaulted standard.direction Vec3.ofJson? direction⟩

end RayScene
