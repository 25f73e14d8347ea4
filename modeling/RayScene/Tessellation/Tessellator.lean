import RayScene.Geometry.Revolution
import RayScene.Scene.Document
set_option autoImplicit false

namespace RayScene

structure Request where
  node : NodeId
  deviation : Float
  angular : Float
  deriving Repr

inductive TessellationError where
  | noShape (name : String)
  | nodeNotFound
  | failed (name reason : String)
  deriving DecidableEq, Repr

def TessellationError.message : TessellationError → String
  | .noShape name => "node has no shape to tessellate: " ++ name
  | .nodeNotFound => "node not found in document"
  | .failed name reason => "tessellation failed for " ++ name ++ ": " ++ reason

/-- An answer may depend on the requests before it. -/
abbrev Tessellator := List Request → Document → Request → Except TessellationError TriMesh

def defaultAngular : Float := 0.5

/-- The mesh of a body of revolution or a box, before it is placed. -/
def Kind.primitiveMesh? (k : Kind) (n : Nat) : Option TriMesh :=
  match k with
  | .box l w h => some (.box l w h)
  | .sphere r => some ((revolve (spherePoints n) n).scaled ⟨r, r, r⟩)
  | .ellipsoid r1 r2 r3 =>
    some ((revolve (spherePoints n) n).scaled ⟨r2, if r3 > 0 then r3 else r2, r1⟩)
  | .cylinder r h => some (revolve [⟨0, 0⟩, ⟨r, 0⟩, ⟨r, h⟩, ⟨0, h⟩] n)
  | .cone r1 r2 h => some (revolve [⟨0, 0⟩, ⟨r1, 0⟩, ⟨r2, h⟩, ⟨0, h⟩] n)
  | .torus r1 r2 => some (revolve (torusPoints r1 r2 n) n)
  | _ => none

namespace Tessellator

/-- Meshes the primitives by themselves. All other shapes need a modelling kernel. -/
def primitive : Tessellator := fun _ d r =>
  match d.get? r.node with
  | none => .error .nodeNotFound
  | some n =>
    match n.kind.primitiveMesh? (segmentsOf r.angular) with
    | none => .error (.noShape n.name)
    | some m => .ok (m.placed n.placement)

end Tessellator

structure ShapeBook where
  meshes : List (String × TriMesh)
  empty : List String
  failing : List String
  deriving Repr, Inhabited

namespace ShapeBook

/-- A shape that is not in the book is a box for boxes, missing for groups, and a tetrahedron for
all others. -/
def localMesh (b : ShapeBook) (n : Node) : Except TessellationError TriMesh :=
  match b.meshes.lookup n.name with
  | some m => .ok m
  | none => match n.kind with
    | .box l w h => .ok (.box l w h)
    | .group => .error (.noShape n.name)
    | _ => .ok .tetrahedron

def tessellator (b : ShapeBook) : Tessellator := fun _ d r =>
  match d.get? r.node with
  | none => .error .nodeNotFound
  | some n =>
    if n.name ∈ b.failing then .error (.failed n.name "configured to fail")
    else if n.name ∈ b.empty then .ok .empty
    else (b.localMesh n).map (·.placed n.placement)

end ShapeBook

end RayScene
