import RayScene.Scene.Document
set_option autoImplicit false

namespace RayScene

namespace Document

/-- The sketch is there and every curve of its profile has an exact form. -/
def hasSupportedSketch (d : Document) (id : NodeId) : Bool :=
  (d.sketch? id).any Sketch.isSupported

/-- Straight along the normal of a supported sketch. -/
def supportsExtrusion (d : Document) (e : Extrusion) : Bool :=
  e.direction = .normal && e.taper == 0 && e.taperReverse == 0 && d.hasSupportedSketch e.base

/-- Of a fixed length on a supported sketch. -/
def supportsFeature (d : Document) (f : Feature) : Bool :=
  f.lengthType = .length && d.hasSupportedSketch f.profile

/-- Everything that a body depends on is a datum, a supported sketch, or a pad or pocket of a fixed
length. -/
def supportsBody (d : Document) (id : NodeId) : Bool :=
  (d.outListRecursive id).all fun dep =>
    match d.get? dep with
    | none => false
    | some n => match n.kind with
      | .datum _ => true
      | .sketch s => s.isSupported
      | .pad f => f.lengthType = .length
      | .pocket f => f.lengthType = .length
      | _ => false

end Document

end RayScene
