import RayScene.Geometry.TriMesh
import RayScene.Sketch.Segment
set_option autoImplicit false

namespace RayScene

/-- A place in the document's arena and the generation of the node that lives there. A later node at
the same place has another generation. -/
structure NodeId where
  index : Nat
  generation : BitVec 31
  deriving DecidableEq, Repr, Inhabited

namespace NodeId

def version (id : NodeId) : Nat := 2 * id.generation.toNat + 1

/-- The id with a given version, whose last bit does not matter. The last index stands for no place
and has one id only. -/
def ofVersion (index version : Nat) : NodeId :=
  if index = Nat.pow 2 32 - 1 then ⟨index, 0⟩ else ⟨index, BitVec.ofNat 31 (version / 2)⟩

end NodeId

inductive BooleanOp where
  | cut
  | fuse
  | multiFuse
  | compound
  | common
  | multiCommon
  deriving DecidableEq, Repr, Inhabited

inductive DatumKind where
  | origin
  | originLine
  | originPlane
  | point
  | line
  | plane
  deriving DecidableEq, Repr, Inhabited

inductive ExtrusionDirection where
  | normal
  | custom
  | edge
  deriving DecidableEq, Repr, Inhabited

inductive LengthType where
  | length
  | throughAll
  | upToFirst
  | upToFace
  | twoLengths
  deriving DecidableEq, Repr, Inhabited

structure Extrusion where
  base : NodeId
  lengthForward : Float
  lengthReverse : Float
  symmetric : Bool
  reversed : Bool
  direction : ExtrusionDirection
  taper : Float
  taperReverse : Float
  deriving Repr, Inhabited

/-- A pad or a pocket. The base feature is the solid that it adds to or cuts from. -/
structure Feature where
  profile : NodeId
  length : Float
  midplane : Bool
  reversed : Bool
  lengthType : LengthType
  baseFeature : Option NodeId
  deriving Repr, Inhabited

/-- Copies around an axis; the interval moves each copy further along. -/
structure PolarLayout where
  center : Vec3
  axis : Vec3
  interval : Vec3
  count : UInt32
  angle : Float
  deriving Repr, Inhabited

structure OrthoLayout where
  intervalX : Vec3
  intervalY : Vec3
  intervalZ : Vec3
  numberX : UInt32
  numberY : UInt32
  numberZ : UInt32
  deriving Repr, Inhabited

inductive ArrayLayout where
  | polar (layout : PolarLayout)
  | ortho (layout : OrthoLayout)
  | other (arrayType : String)
  deriving Repr, Inhabited

structure NodeArray where
  base : NodeId
  layout : ArrayLayout
  deriving Repr, Inhabited

/-- A fade distance or power of zero means no fading. -/
structure Light where
  color : Vec3
  fadeDistance : Float
  fadePower : Float
  deriving Repr, Inhabited

structure AreaLight where
  light : Light
  length : Float
  width : Float
  lengthLights : UInt32
  widthLights : UInt32
  adaptive : UInt32
  areaIllumination : Bool
  jitter : Bool
  deriving Repr, Inhabited

structure SpotLight where
  light : Light
  radius : Float
  falloff : Float
  tightness : Float
  deriving Repr, Inhabited

inductive Kind where
  | box (length width height : Float)
  | sphere (radius : Float)
  | ellipsoid (radius1 radius2 radius3 : Float)
  | cone (radius1 radius2 height : Float)
  | cylinder (radius height : Float)
  | torus (radius1 radius2 : Float)
  | plane (length width : Float)
  | imagePlane (imageFile : String) (xSize ySize : Float)
  | boolean (op : BooleanOp)
  | part
  | group
  | array (params : NodeArray)
  | clone (sources : List NodeId) (scale : Vec3)
  | extrusion (params : Extrusion)
  | sketch (sketch : Sketch)
  | pad (params : Feature)
  | pocket (params : Feature)
  | body (tip : Option NodeId)
  | datum (datum : DatumKind)
  | pointLight (light : Light)
  | areaLight (light : AreaLight)
  | spotLight (light : SpotLight)
  | mesh (mesh : TriMesh)
  | other (typeId : String)
  deriving Repr, Inhabited

namespace Kind

def typeId : Kind → String
  | .box .. => "Part::Box"
  | .sphere .. => "Part::Sphere"
  | .ellipsoid .. => "Part::Ellipsoid"
  | .cone .. => "Part::Cone"
  | .cylinder .. => "Part::Cylinder"
  | .torus .. => "Part::Torus"
  | .plane .. => "Part::Plane"
  | .imagePlane .. => "Image::ImagePlane"
  | .boolean .cut => "Part::Cut"
  | .boolean .fuse => "Part::Fuse"
  | .boolean .multiFuse => "Part::MultiFuse"
  | .boolean .compound => "Part::Compound"
  | .boolean .common => "Part::Common"
  | .boolean .multiCommon => "Part::MultiCommon"
  | .part => "App::Part"
  | .group => "App::DocumentObjectGroup"
  | .array _ => "Part::FeaturePython"
  | .clone .. => "Part::FeaturePython"
  | .extrusion _ => "Part::Extrusion"
  | .sketch _ => "Sketcher::SketchObject"
  | .pad _ => "PartDesign::Pad"
  | .pocket _ => "PartDesign::Pocket"
  | .body _ => "PartDesign::Body"
  | .datum .origin => "App::Origin"
  | .datum .originLine => "App::Line"
  | .datum .originPlane => "App::Plane"
  | .datum .point => "PartDesign::Point"
  | .datum .line => "PartDesign::Line"
  | .datum .plane => "PartDesign::Plane"
  | .pointLight _ => "Part::FeaturePython"
  | .areaLight _ => "Part::FeaturePython"
  | .spotLight _ => "Part::FeaturePython"
  | .mesh _ => "Mesh::Feature"
  | .other typeId => typeId

def isLight : Kind → Bool
  | .pointLight _ => true
  | .areaLight _ => true
  | .spotLight _ => true
  | _ => false

/-- Whether children of this kind are part of it and no longer stand on their own. -/
def isOwner : Kind → Bool
  | .body _ => true
  | .part => true
  | _ => false

def isGroup : Kind → Bool
  | .group => true
  | _ => false

def references : Kind → List NodeId
  | .array a => [a.base]
  | .clone sources _ => sources
  | .extrusion e => [e.base]
  | .pad f => f.profile :: f.baseFeature.toList
  | .pocket f => f.profile :: f.baseFeature.toList
  | .body tip => tip.toList
  | _ => []

/-- Kinds that are always tessellated have no rule. -/
def hasRule : Kind → Bool
  | .datum _ => false
  | .mesh _ => false
  | .other _ => false
  | _ => true

end Kind

structure ShapeMaterial where
  ambient : Rgba
  diffuse : Rgba
  emissive : Rgba
  specular : Rgba
  shininess : Float
  deriving BEq, Repr, Inhabited

def ShapeMaterial.plainAmbient : Rgba := ⟨0.2, 0.2, 0.2, 0⟩

def ShapeMaterial.plain : ShapeMaterial :=
  ⟨plainAmbient, ⟨0.8, 0.8, 0.8, 0⟩, Rgba.black, Rgba.black, 0.2⟩

/-- How a node is shown. The transparency is in percent. -/
structure ViewStyle where
  color : Rgb
  transparency : UInt8
  material : ShapeMaterial
  deviation : Float
  angularDeflection : Option Float
  deriving BEq, Repr, Inhabited

def ViewStyle.plain : ViewStyle := ⟨⟨0.8, 0.8, 0.8⟩, 0, ShapeMaterial.plain, 0.5, none⟩

/-- A node has a name of its own and a label that it may share with others. -/
structure Node where
  name : String
  label : String
  placement : Placement
  visible : Bool
  children : List NodeId
  kind : Kind
  view : ViewStyle
  deriving Repr, Inhabited

def Node.ofKind (name : String) (kind : Kind) : Node :=
  ⟨name, name, Placement.origin, true, [], kind, ViewStyle.plain⟩

end RayScene
