import RayScene.Scene.Support
import RayScene.Sdl.Solid
import RayScene.Sdl.Surface
import RayScene.Sdl.Transform
/-!
How a node is written: by a mesh, or by a frame of text around the code of other nodes. The plan of
a node reads the document but compiles nothing.
-/
set_option autoImplicit false

namespace RayScene.Sdl

/-- The parts of a statement that can be left out. -/
structure Flags where
  placement : Bool
  pigment : Bool
  photons : Bool
  close : Bool
  label : Bool
  meshDef : Bool
  deriving DecidableEq, Repr, Inhabited

def Flags.all : Flags := ⟨true, true, true, true, true, true⟩

def Flags.none : Flags := ⟨false, false, false, false, false, false⟩

structure Step where
  node : NodeId
  flags : Flags
  deriving DecidableEq, Repr

/-- Text before and after the code of the steps, which may be indented. -/
structure Frame where
  before : String
  steps : List Step
  indented : Bool
  after : String
  deriving Repr

def Frame.code (f : Frame) (codes : List String) : String :=
  f.before ++ String.join (if f.indented then codes.map indent else codes) ++ f.after

inductive Plan where
  | nothing
  | tessellated
  | framed (frame : Frame)
  deriving Repr

def marker (n : Node) (f : Flags) : String :=
  if f.label then "\n//----- " ++ sanitize n.label ++ " -----" else ""

structure Surroundings where
  document : Document
  context : Context

namespace Surroundings

variable (s : Surroundings)

def trailing (n : Node) (f : Flags) : String :=
  (if f.pigment then clauseLine "" (indent (material s.context n)) else "") ++
    (if f.photons then clauseLine "" (indent (photons s.context n)) else "") ++
    (if f.placement then
      clauseLine "\t" (rotation s.document n) ++ clauseLine "\t" (displacement n)
    else "") ++
    (if f.close then "\x7d\n" else "")

def simple (n : Node) (f : Flags) (code : String) : Plan :=
  .framed ⟨code, [], true, "\n" ++ s.trailing n f⟩

def booleanKeyword : BooleanOp → String
  | .cut => "difference"
  | .fuse => "merge"
  | .multiFuse => "merge"
  | .compound => "merge"
  | .common => "intersection"
  | .multiCommon => "intersection"

/-- All operands that are still there, each with its label. -/
def boolean (n : Node) (f : Flags) (op : BooleanOp) : Plan :=
  let inner := { f with placement := true, close := true, label := true }
  .framed ⟨"\n" ++ booleanKeyword op ++ " \x7b\n",
    (n.children.filter s.document.contains).map (⟨·, inner⟩), true, "\n" ++ s.trailing n f⟩

/-- A union of the visible children. The children bring their own materials. -/
def container (n : Node) (f : Flags) : Plan :=
  let inner := { f with placement := true, close := true }
  .framed ⟨"\nunion \x7b\n",
    (n.children.filter fun c => (s.document.get? c).any (·.visible)).map (⟨·, inner⟩), true,
    "\n" ++ s.trailing n { f with pigment := false }⟩

def copyClauses (n : Node) (f : Flags) : String :=
  (if f.pigment then clauseLine "\t" (material s.context n) else "") ++
    (if f.photons then clauseLine "\t" (photons s.context n) else "")

def arrayIdentifier (base : Node) : String := sanitize (capitalize base.label ++ "_" ++ base.name)

/-- The loop of a polar array after the declaration of its base. The axis is scaled so that its
largest component is one. -/
def polarLoop (n : Node) (f : Flags) (ident : String) (p : PolarLayout) : String :=
  let largest := p.axis.largest
  let centered := p.center.isNonzero
  "\n#declare i = 0;\n#declare endNo = " ++ natural p.count.toNat ++ ";\n#declare axis = " ++
    triple (p.axis.map (· / largest)) ++ ";\n#declare arrAngle = " ++ number p.angle ++
    ";\n#while (i < endNo)\n\tobject \x7b " ++ ident ++ "\n" ++
    (if centered then "\t\ttranslate -" ++ triple p.center ++ "\n" else "") ++
    "\t\t#declare rotAngle = i * arrAngle / endNo;\n" ++
    "\t\t#local vX = vaxis_rotate(x, axis, rotAngle);\n" ++
    "\t\t#local vY = vaxis_rotate(y, axis, rotAngle);\n" ++
    "\t\t#local vZ = vaxis_rotate(z, axis, rotAngle);\n" ++
    "\t\ttransform \x7b\n" ++
    "\t\t\tmatrix <vX.x, vX.y, vX.z, vY.x, vY.y, vY.z, vZ.x, vZ.y, vZ.z, 0, 0, 0>\n" ++
    "\t\t\x7d\n" ++
    (if centered then "\t\ttranslate " ++ triple p.center ++ "\n" else "") ++
    (if f.placement then clauseLine "\t\t" (rotation s.document n) else "") ++
    (if p.interval.isNonzero then "\t\ttranslate " ++ triple p.interval ++ " * i\n" else "") ++
    (if f.placement then clauseLine "\t\t" (displacement n) else "") ++
    s.copyClauses n f ++ "\t\x7d\n\t#declare i = i + 1;\n#end\n"

/-- The three nested loops of an orthogonal array. A direction without copies still has one. -/
def orthoLoop (n : Node) (f : Flags) (ident : String) (o : OrthoLayout) : String :=
  "#declare intervalX = " ++ triple o.intervalX ++ ";\n#declare intervalY = " ++
    triple o.intervalY ++ ";\n#declare intervalZ = " ++ triple o.intervalZ ++
    ";\n\n#declare numX = " ++ natural (max o.numberX.toNat 1) ++
    ";\n#declare ix = 0;\n#while (ix < numX)\n\t#declare numY = " ++
    natural (max o.numberY.toNat 1) ++
    ";\n\t#declare iy = 0;\n\t#while (iy < numY)\n\t\t#declare numZ = " ++
    natural (max o.numberZ.toNat 1) ++
    ";\n\t\t#declare iz = 0;\n\t\t#while (iz < numZ)\n\t\t\tobject \x7b " ++ ident ++
    "\n\t\t\t\ttranslate intervalX * ix\n\t\t\t\ttranslate intervalY * iy\n" ++
    "\t\t\t\ttranslate intervalZ * iz\n" ++
    (if f.placement then
      clauseLine "\t\t\t\t" (rotation s.document n) ++ clauseLine "\t\t\t\t" (displacement n)
    else "") ++
    s.copyClauses n f ++
    "\t\t\t\x7d\n\t\t\t#declare iz = iz + 1;\n\t\t#end\n\t\t#declare iy = iy + 1;\n\t#end\n" ++
    "\t#declare ix = ix + 1;\n#end\n"

/-- An array declares its base and repeats it in loops. What belongs to the array is inside the
loops already, so only the closing brace is left. -/
def loops (n : Node) (f : Flags) (base : NodeId) (inner : Flags) (ident loop : String) : Plan :=
  let rest := { f with pigment := false, placement := false, photons := false }
  .framed ⟨"\nunion \x7b\n" ++ indent ("\n#declare " ++ ident ++ " = "), [⟨base, inner⟩], true,
    indent loop ++ "\n" ++ s.trailing n rest⟩

/-- Loops need a base, a layout that has loops, and for a polar layout an axis. -/
def array (n : Node) (f : Flags) (a : NodeArray) : Plan :=
  match s.document.get? a.base with
  | none => .tessellated
  | some base =>
    let ident := arrayIdentifier base
    match a.layout with
    | .polar p =>
      if p.axis.largest == 0 then .tessellated
      else
        s.loops n f a.base { f with placement := true, close := true } ident
          (s.polarLoop n f ident p)
    | .ortho o =>
      s.loops n f a.base { f with placement := true, close := true, meshDef := true } ident
        (s.orthoLoop n f ident o)
    | .other _ => .tessellated

/-- The sources are left open, so that the clauses of the clone apply to them. -/
def clone (n : Node) (f : Flags) (sources : List NodeId) (scale : Vec3) : Plan :=
  .framed ⟨"", (sources.filter s.document.contains).map (⟨·, { Flags.none with meshDef := true }⟩),
    false,
    (if scale.any (· != 1) then "\n\tscale " ++ triple scale else "") ++ "\n" ++ s.trailing n f⟩

def profile? (id : NodeId) : Option (Node × Profile) :=
  match s.document.get? id, s.document.sketch? id with
  | some n, some sketch => match sketch.profile with
    | .ok p => some (n, p)
    | .error _ => none
  | _, _ => none

/-- A prism that stands where its sketch stands. -/
def extrusion (n : Node) (f : Flags) (e : Extrusion) : Plan :=
  if s.document.supportsExtrusion e then
    match s.profile? e.base with
    | some (sketch, p) =>
      s.simple n f ("\nprism \x7b\n\tbezier_spline\n\t" ++ prismHead (extrusionSpan e) p ++
        indent (profileLines p) ++ "\n" ++ clauseLine "\t" (rotation s.document sketch) ++
        clauseLine "\t" (displacement sketch))
    | none => .tessellated
  else .tessellated

/-- A pad is the union of its base with a prism, a pocket is their difference. The clauses of the
node itself are not written; without placement the sketch stands upright. -/
def feature (f : Flags) (p : Feature) (pocket : Bool) : Plan :=
  if s.document.supportsFeature p then
    match s.profile? p.profile with
    | some (sketch, profile) =>
      .framed ⟨if pocket then "\ndifference \x7b\n" else "\nunion \x7b\n",
        p.baseFeature.toList.map (⟨·, Flags.all⟩), true,
        "\n\tprism \x7b\n\t\tbezier_spline\n\t\t" ++ prismHead (featureSpan p pocket) profile ++
          shift ['\t', '\t'] (profileLines profile) ++ "\n" ++
          (if f.placement then
            clauseLine "\t\t" (rotation s.document sketch) ++
              clauseLine "\t\t" (displacement sketch)
          else "\t\trotate <-90, 0, 0>") ++
          "\n\t\x7d\n" ++ (if f.close then "\n\x7d\n" else "")⟩
    | none => .tessellated
  else .tessellated

/-- A body is its tip. A body without a tip is nothing at all, and so is its label. -/
def body (id : NodeId) (n : Node) (f : Flags) (tip : Option NodeId) : Plan :=
  if s.document.supportsBody id then
    match tip with
    | none => .nothing
    | some tip => .framed ⟨"\nunion \x7b\n", [⟨tip, Flags.all⟩], true, "\n" ++ s.trailing n f⟩
  else .tessellated

/-- Lights and images have no material. -/
def plan (id : NodeId) (n : Node) (f : Flags) : Plan :=
  let bare := { f with pigment := false }
  match n.kind with
  | .imagePlane file x y => s.simple n bare (imagePlane file x y)
  | .boolean op => s.boolean n f op
  | .part => s.container n f
  | .group => s.container n f
  | .array a => s.array n f a
  | .clone sources scale => s.clone n f sources scale
  | .extrusion e => s.extrusion n f e
  | .pad p => s.feature f p false
  | .pocket p => s.feature f p true
  | .body tip => s.body id n f tip
  | .pointLight l => s.simple n bare (lightSource l "")
  | .areaLight l => s.simple n bare (lightSource l.light (areaLines l))
  | .spotLight l => s.simple n bare (lightSource l.light (spotLines l))
  | .sketch _ => .tessellated
  | .datum _ => .tessellated
  | .mesh _ => .tessellated
  | .other _ => .tessellated
  | k => s.simple n f ((primitive? k).getD "")

/-- `object { A_mesh` for the mesh of a node. The mesh is in its place already, so a node that must
not be placed has its placement undone. -/
def meshReference (n : Node) (f : Flags) : String :=
  "\nobject \x7b " ++ meshIdentifier n.label ++ "\n" ++
    (if f.placement then ""
    else (if (displacement n).isEmpty then "" else "\t" ++ displacement n ++ " * (-1)\n") ++
      String.join ((inverseRotation s.document n).map fun r => "\t" ++ r ++ "\n")) ++
    clauseLine "\t" (material s.context n) ++
    (if f.photons then clauseLine "\t" (photons s.context n) else "") ++
    (if f.close then "\x7d\n" else "")

end Surroundings

end RayScene.Sdl
