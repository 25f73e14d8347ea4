import RayScene.Scene.Node
import RayScene.Stored.Sketch
set_option autoImplicit false

namespace RayScene

open Json

def NodeId.toJson (id : NodeId) : Json :=
  .object [("idx", ofNat id.index), ("version", ofNat id.version)]

def NodeId.ofJson? (j : Json) : Option NodeId := do
  let [index, version] ← j.fields? ["idx", "version"] | none
  return NodeId.ofVersion (← required (word? 32) index) (← required (word? 32) version)

def optionJson {α : Type} (f : α → Json) : Option α → Json
  | none => .null
  | some a => f a

def BooleanOp.choices : List (String × BooleanOp) :=
  [("Cut", .cut), ("Fuse", .fuse), ("MultiFuse", .multiFuse), ("Compound", .compound),
    ("Common", .common), ("MultiCommon", .multiCommon)]

def DatumKind.choices : List (String × DatumKind) :=
  [("Origin", .origin), ("OriginLine", .originLine), ("OriginPlane", .originPlane),
    ("Point", .point), ("Line", .line), ("Plane", .plane)]

def ExtrusionDirection.choices : List (String × ExtrusionDirection) :=
  [("Normal", .normal), ("Custom", .custom), ("Edge", .edge)]

def LengthType.choices : List (String × LengthType) :=
  [("Length", .length), ("ThroughAll", .throughAll), ("UpToFirst", .upToFirst),
    ("UpToFace", .upToFace), ("TwoLengths", .twoLengths)]

def Extrusion.members (e : Extrusion) : List (String × Json) :=
  [("base", e.base.toJson), ("length_fwd", ofDouble e.lengthForward),
    ("length_rev", ofDouble e.lengthReverse), ("symmetric", .bool e.symmetric),
    ("reversed", .bool e.reversed), ("dir_mode", nameIn ExtrusionDirection.choices e.direction),
    ("taper_angle", ofDouble e.taper), ("taper_angle_rev", ofDouble e.taperReverse)]

def Extrusion.ofJson? (j : Json) : Option Extrusion := do
  let [base, forward, reverse, symmetric, reversed, direction, taper, taperReverse] ←
    j.fields? ["base", "length_fwd", "length_rev", "symmetric", "reversed", "dir_mode",
      "taper_angle", "taper_angle_rev"] | none
  return ⟨← required NodeId.ofJson? base, ← required double? forward,
    ← defaulted 0 double? reverse, ← defaulted false bool? symmetric,
    ← defaulted false bool? reversed,
    ← required (choice? true ExtrusionDirection.choices) direction,
    ← defaulted 0 double? taper, ← defaulted 0 double? taperReverse⟩

def Feature.members (f : Feature) : List (String × Json) :=
  [("profile", f.profile.toJson), ("length", ofDouble f.length), ("midplane", .bool f.midplane),
    ("reversed", .bool f.reversed), ("length_type", nameIn LengthType.choices f.lengthType),
    ("base_feature", optionJson NodeId.toJson f.baseFeature)]

def Feature.ofJson? (j : Json) : Option Feature := do
  let [profile, length, midplane, reversed, lengthType, base] ←
    j.fields? ["profile", "length", "midplane", "reversed", "length_type", "base_feature"] | none
  return ⟨← required NodeId.ofJson? profile, ← required double? length,
    ← defaulted false bool? midplane, ← defaulted false bool? reversed,
    ← required (choice? true LengthType.choices) lengthType,
    ← defaulted none (option? NodeId.ofJson?) base⟩

def ArrayLayout.toJson : ArrayLayout → Json
  | .polar p => taggedRecord "Polar" [("center", p.center.toJson), ("axis", p.axis.toJson),
      ("interval_axis", p.interval.toJson), ("count", ofUInt32 p.count),
      ("angle", ofDouble p.angle)]
  | .ortho o => taggedRecord "Ortho" [("interval_x", o.intervalX.toJson),
      ("interval_y", o.intervalY.toJson), ("interval_z", o.intervalZ.toJson),
      ("number_x", ofUInt32 o.numberX), ("number_y", ofUInt32 o.numberY),
      ("number_z", ofUInt32 o.numberZ)]
  | .other arrayType => taggedRecord "Other" [("array_type", .string arrayType)]

def ArrayLayout.tags : List String := ["Polar", "Ortho", "Other"]

def ArrayLayout.ofFields? (tag : String) (j : Json) : Option ArrayLayout :=
  match tag with
  | "Polar" => do
    let [center, axis, interval, count, angle] ←
      j.fields? ["center", "axis", "interval_axis", "count", "angle"] | none
    return .polar ⟨← required Vec3.ofJson? center, ← required Vec3.ofJson? axis,
      ← required Vec3.ofJson? interval, ← required uint32? count, ← required double? angle⟩
  | "Ortho" => do
    let [x, y, z, nx, ny, nz] ← j.fields? ["interval_x", "interval_y", "interval_z", "number_x",
      "number_y", "number_z"] | none
    return .ortho ⟨← required Vec3.ofJson? x, ← required Vec3.ofJson? y,
      ← required Vec3.ofJson? z, ← required uint32? nx, ← required uint32? ny,
      ← required uint32? nz⟩
  | "Other" => do
    let [arrayType] ← j.fields? ["array_type"] | none
    return .other (← required string? arrayType)
  | _ => none

def ArrayLayout.ofJson? (j : Json) : Option ArrayLayout := do
  let (tag, rest) ← j.tagged? true tags
  ofFields? tag rest

def NodeArray.members (a : NodeArray) : List (String × Json) :=
  [("base", a.base.toJson), ("layout", a.layout.toJson)]

def NodeArray.ofJson? (j : Json) : Option NodeArray := do
  let [base, layout] ← j.fields? ["base", "layout"] | none
  return ⟨← required NodeId.ofJson? base, ← required ArrayLayout.ofJson? layout⟩

def Light.members (l : Light) : List (String × Json) :=
  [("color", l.color.toJson), ("fade_distance", ofDouble l.fadeDistance),
    ("fade_power", ofDouble l.fadePower)]

def Light.ofJson? (j : Json) : Option Light := do
  let [color, distance, power] ← j.fields? ["color", "fade_distance", "fade_power"] | none
  return ⟨← required Vec3.ofJson? color, ← defaulted 0 double? distance,
    ← defaulted 0 double? power⟩

def AreaLight.members (a : AreaLight) : List (String × Json) :=
  [("light", .object a.light.members), ("length", ofDouble a.length), ("width", ofDouble a.width),
    ("length_lights", ofUInt32 a.lengthLights), ("width_lights", ofUInt32 a.widthLights),
    ("adaptive", ofUInt32 a.adaptive), ("area_illumination", .bool a.areaIllumination),
    ("jitter", .bool a.jitter)]

def AreaLight.ofJson? (j : Json) : Option AreaLight := do
  let [light, length, width, lengthLights, widthLights, adaptive, illumination, jitter] ←
    j.fields? ["light", "length", "width", "length_lights", "width_lights", "adaptive",
      "area_illumination", "jitter"] | none
  return ⟨← required Light.ofJson? light, ← required double? length, ← required double? width,
    ← required uint32? lengthLights, ← required uint32? widthLights, ← required uint32? adaptive,
    ← defaulted false bool? illumination, ← defaulted false bool? jitter⟩

def SpotLight.members (s : SpotLight) : List (String × Json) :=
  [("light", .object s.light.members), ("radius", ofDouble s.radius),
    ("falloff", ofDouble s.falloff), ("tightness", ofDouble s.tightness)]

def SpotLight.ofJson? (j : Json) : Option SpotLight := do
  let [light, radius, falloff, tightness] ←
    j.fields? ["light", "radius", "falloff", "tightness"] | none
  return ⟨← required Light.ofJson? light, ← required double? radius, ← required double? falloff,
    ← required double? tightness⟩

def Kind.toJson : Kind → Json
  | .box l w h =>
    taggedRecord "Box" [("length", ofDouble l), ("width", ofDouble w), ("height", ofDouble h)]
  | .sphere r => taggedRecord "Sphere" [("radius", ofDouble r)]
  | .ellipsoid a b c => taggedRecord "Ellipsoid"
      [("radius1", ofDouble a), ("radius2", ofDouble b), ("radius3", ofDouble c)]
  | .cone a b h => taggedRecord "Cone"
      [("radius1", ofDouble a), ("radius2", ofDouble b), ("height", ofDouble h)]
  | .cylinder r h => taggedRecord "Cylinder" [("radius", ofDouble r), ("height", ofDouble h)]
  | .torus a b => taggedRecord "Torus" [("radius1", ofDouble a), ("radius2", ofDouble b)]
  | .plane l w => taggedRecord "Plane" [("length", ofDouble l), ("width", ofDouble w)]
  | .imagePlane file x y => taggedRecord "ImagePlane"
      [("image_file", .string file), ("x_size", ofDouble x), ("y_size", ofDouble y)]
  | .boolean op => taggedRecord "Boolean" [("op", nameIn BooleanOp.choices op)]
  | .part => taggedRecord "Part" []
  | .group => taggedRecord "Group" []
  | .array a => taggedRecord "Array" a.members
  | .clone sources scale => taggedRecord "Clone"
      [("sources", .array (sources.map NodeId.toJson)), ("scale", scale.toJson)]
  | .extrusion e => taggedRecord "Extrusion" e.members
  | .sketch s => taggedRecord "Sketch" s.members
  | .pad f => taggedRecord "Pad" f.members
  | .pocket f => taggedRecord "Pocket" f.members
  | .body tip => taggedRecord "Body" [("tip", optionJson NodeId.toJson tip)]
  | .datum d => taggedRecord "Datum" [("datum", nameIn DatumKind.choices d)]
  | .pointLight l => taggedRecord "PointLight" l.members
  | .areaLight l => taggedRecord "AreaLight" l.members
  | .spotLight l => taggedRecord "SpotLight" l.members
  | .mesh m => taggedRecord "Mesh" m.members
  | .other typeId => taggedRecord "Other" [("type_id", .string typeId)]

def Kind.tags : List String :=
  ["Box", "Sphere", "Ellipsoid", "Cone", "Cylinder", "Torus", "Plane", "ImagePlane", "Boolean",
    "Part", "Group", "Array", "Clone", "Extrusion", "Sketch", "Pad", "Pocket", "Body", "Datum",
    "PointLight", "AreaLight", "SpotLight", "Mesh", "Other"]

/-- The tip of a body may be missing in an object, not in an array. -/
def tip? : Json → Option (Option NodeId)
  | .array items => do
    let [tip] := items | none
    option? NodeId.ofJson? tip
  | j => do
    let [tip] ← j.fields? ["tip"] | none
    defaulted none (option? NodeId.ofJson?) tip

def Kind.ofFields? (tag : String) (j : Json) : Option Kind :=
  match tag with
  | "Box" => do
    let [l, w, h] ← j.fields? ["length", "width", "height"] | none
    return .box (← required double? l) (← required double? w) (← required double? h)
  | "Sphere" => do
    let [r] ← j.fields? ["radius"] | none
    return .sphere (← required double? r)
  | "Ellipsoid" => do
    let [a, b, c] ← j.fields? ["radius1", "radius2", "radius3"] | none
    return .ellipsoid (← required double? a) (← required double? b) (← required double? c)
  | "Cone" => do
    let [a, b, h] ← j.fields? ["radius1", "radius2", "height"] | none
    return .cone (← required double? a) (← required double? b) (← required double? h)
  | "Cylinder" => do
    let [r, h] ← j.fields? ["radius", "height"] | none
    return .cylinder (← required double? r) (← required double? h)
  | "Torus" => do
    let [a, b] ← j.fields? ["radius1", "radius2"] | none
    return .torus (← required double? a) (← required double? b)
  | "Plane" => do
    let [l, w] ← j.fields? ["length", "width"] | none
    return .plane (← required double? l) (← required double? w)
  | "ImagePlane" => do
    let [file, x, y] ← j.fields? ["image_file", "x_size", "y_size"] | none
    return .imagePlane (← required string? file) (← required double? x) (← required double? y)
  | "Boolean" => do
    let [op] ← j.fields? ["op"] | none
    return .boolean (← required (choice? true BooleanOp.choices) op)
  | "Part" => do
    let [] ← j.fields? [] | none
    return .part
  | "Group" => do
    let [] ← j.fields? [] | none
    return .group
  | "Array" => (NodeArray.ofJson? j).map .array
  | "Clone" => do
    let [sources, scale] ← j.fields? ["sources", "scale"] | none
    return .clone (← required (list? NodeId.ofJson?) sources) (← required Vec3.ofJson? scale)
  | "Extrusion" => (Extrusion.ofJson? j).map .extrusion
  | "Sketch" => (Sketch.ofJson? true j).map .sketch
  | "Pad" => (Feature.ofJson? j).map .pad
  | "Pocket" => (Feature.ofJson? j).map .pocket
  | "Body" => (tip? j).map .body
  | "Datum" => do
    let [d] ← j.fields? ["datum"] | none
    return .datum (← required (choice? true DatumKind.choices) d)
  | "PointLight" => (Light.ofJson? j).map .pointLight
  | "AreaLight" => (AreaLight.ofJson? j).map .areaLight
  | "SpotLight" => (SpotLight.ofJson? j).map .spotLight
  | "Mesh" => (TriMesh.ofJson? j).map .mesh
  | "Other" => do
    let [typeId] ← j.fields? ["type_id"] | none
    return .other (← required string? typeId)
  | _ => none

def Kind.ofJson? (j : Json) : Option Kind := do
  let (tag, rest) ← j.tagged? false tags
  ofFields? tag rest

def ShapeMaterial.toJson (m : ShapeMaterial) : Json :=
  .object [("ambient_color", m.ambient.toJson), ("diffuse_color", m.diffuse.toJson),
    ("emissive_color", m.emissive.toJson), ("specular_color", m.specular.toJson),
    ("shininess", ofDouble m.shininess)]

def ShapeMaterial.ofJson? (j : Json) : Option ShapeMaterial := do
  let [ambient, diffuse, emissive, specular, shininess] ←
    j.fields? ["ambient_color", "diffuse_color", "emissive_color", "specular_color",
      "shininess"] | none
  return ⟨← defaulted plain.ambient Rgba.ofJson? ambient,
    ← defaulted plain.diffuse Rgba.ofJson? diffuse,
    ← defaulted plain.emissive Rgba.ofJson? emissive,
    ← defaulted plain.specular Rgba.ofJson? specular,
    ← defaulted plain.shininess double? shininess⟩

def ViewStyle.toJson (v : ViewStyle) : Json :=
  .object [("shape_color", v.color.toJson), ("transparency", ofNat v.transparency.toNat),
    ("shape_material", v.material.toJson), ("deviation", ofDouble v.deviation),
    ("angular_deflection", optionJson ofDouble v.angularDeflection)]

def ViewStyle.ofJson? (j : Json) : Option ViewStyle := do
  let [color, transparency, material, deviation, angular] ←
    j.fields? ["shape_color", "transparency", "shape_material", "deviation",
      "angular_deflection"] | none
  return ⟨← defaulted plain.color Rgb.ofJson? color,
    ← defaulted plain.transparency uint8? transparency,
    ← defaulted plain.material ShapeMaterial.ofJson? material,
    ← defaulted plain.deviation double? deviation,
    ← defaulted plain.angularDeflection (option? double?) angular⟩

def Node.toJson (n : Node) : Json :=
  .object [("name", .string n.name), ("label", .string n.label),
    ("placement", n.placement.toJson), ("visible", .bool n.visible),
    ("children", .array (n.children.map NodeId.toJson)), ("kind", n.kind.toJson),
    ("view", n.view.toJson)]

def Node.ofJson? (j : Json) : Option Node := do
  let [name, label, placement, visible, children, kind, view] ←
    j.fields? ["name", "label", "placement", "visible", "children", "kind", "view"] | none
  return ⟨← required string? name, ← required string? label,
    ← defaulted Placement.origin Placement.ofJson? placement, ← defaulted true bool? visible,
    ← defaulted [] (list? NodeId.ofJson?) children, ← required Kind.ofJson? kind,
    ← defaulted ViewStyle.plain ViewStyle.ofJson? view⟩

end RayScene
