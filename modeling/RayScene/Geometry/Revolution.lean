import RayScene.Geometry.TriMesh
/-!
Solids of revolution. A profile of points in the half plane turns about the Z axis; a point on the
axis stays one vertex, any other becomes a ring.
-/
set_option autoImplicit false

namespace RayScene

structure ProfilePoint where
  radius : Float
  height : Float
  deriving BEq, Repr, Inhabited

namespace ProfilePoint

def onAxis (p : ProfilePoint) : Bool := p.radius.abs < 1e-12

def sweep (n : Nat) (p : ProfilePoint) : List Vec3 :=
  if p.onAxis then [⟨0, 0, p.height⟩]
  else (List.range n).map fun j =>
    let a := fullTurn * Float.ofNat j / Float.ofNat n
    ⟨p.radius * a.cos, p.radius * a.sin, p.height⟩

end ProfilePoint

/-- The vertices of one profile point: a pole or a ring, from its first vertex on. -/
structure Row where
  isPole : Bool
  start : Nat
  deriving DecidableEq, Repr

namespace Row

def vertex (n : Nat) (r : Row) (j : Nat) : Nat := if r.isPole then r.start else r.start + j % n

end Row

def Triangle.ofNat (a b c : Nat) : Triangle := ⟨UInt32.ofNat a, UInt32.ofNat b, UInt32.ofNat c⟩

def Triangle.isProper (t : Triangle) : Bool := t.a != t.b && t.b != t.c && t.a != t.c

def rowsFrom (n : Nat) : Nat → List ProfilePoint → List Row
  | _, [] => []
  | start, p :: ps =>
    ⟨p.onAxis, start⟩ :: rowsFrom n (start + if p.onAxis then 1 else n) ps

/-- The two triangles between step `j` and the next one, without the one that a pole flattens. -/
def facets (n : Nat) (lower upper : Row) (j : Nat) : List Triangle :=
  let a := lower.vertex n j
  let b := lower.vertex n (j + 1)
  let c := upper.vertex n (j + 1)
  let d := upper.vertex n j
  [Triangle.ofNat a b c, Triangle.ofNat a c d].filter Triangle.isProper

def bands (n : Nat) (rows : List Row) : List Triangle :=
  (rows.zip (rows.drop 1)).flatMap fun (lower, upper) =>
    (List.range n).flatMap (facets n lower upper)

def revolve (profile : List ProfilePoint) (n : Nat) : TriMesh :=
  ⟨profile.flatMap (ProfilePoint.sweep n), bands n (rowsFrom n 0 profile)⟩

def spherePoints (n : Nat) : List ProfilePoint :=
  let rows := max (n / 2) 2
  (List.range (rows + 1)).map fun j =>
    let phi := -quarterTurn + pi * Float.ofNat j / Float.ofNat rows
    ⟨if phi.cos < 0 then 0 else phi.cos, phi.sin⟩

def torusPoints (radius1 radius2 : Float) (n : Nat) : List ProfilePoint :=
  (List.range (n + 1)).map fun i =>
    let t := fullTurn * Float.ofNat i / Float.ofNat n
    ⟨radius1 + radius2 * t.cos, radius2 * t.sin⟩

def segmentsOf (angular : Float) : Nat :=
  if angular.isNaN || angular ≤ 0 then 8
  else min 256 (max 8 (fullTurn / angular).ceil.toUInt64.toNat)

end RayScene
