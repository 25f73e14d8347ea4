import RayScene.Geometry.Rotation
set_option autoImplicit false

namespace RayScene

structure Triangle where
  a : UInt32
  b : UInt32
  c : UInt32
  deriving DecidableEq, Repr, Inhabited

structure TriMesh where
  vertices : List Vec3
  triangles : List Triangle
  deriving BEq, Repr, Inhabited

namespace TriMesh

def empty : TriMesh := ⟨[], []⟩

def isEmpty (m : TriMesh) : Bool := m.vertices.isEmpty || m.triangles.isEmpty

def mapVertices (f : Vec3 → Vec3) (m : TriMesh) : TriMesh := { m with vertices := m.vertices.map f }

def moved (m : TriMesh) (offset : Vec3) : TriMesh := m.mapVertices (·.add offset)

def scaled (m : TriMesh) (factors : Vec3) : TriMesh :=
  m.mapVertices fun v => ⟨v.x * factors.x, v.y * factors.y, v.z * factors.z⟩

def placed (m : TriMesh) (p : Placement) : TriMesh := m.mapVertices p.apply

def box (l w h : Float) : TriMesh :=
  ⟨[⟨0, 0, 0⟩, ⟨l, 0, 0⟩, ⟨l, w, 0⟩, ⟨0, w, 0⟩, ⟨0, 0, h⟩, ⟨l, 0, h⟩, ⟨l, w, h⟩, ⟨0, w, h⟩],
    [⟨0, 2, 1⟩, ⟨0, 3, 2⟩, ⟨4, 5, 6⟩, ⟨4, 6, 7⟩, ⟨0, 1, 5⟩, ⟨0, 5, 4⟩, ⟨3, 7, 6⟩, ⟨3, 6, 2⟩,
      ⟨0, 4, 7⟩, ⟨0, 7, 3⟩, ⟨1, 2, 6⟩, ⟨1, 6, 5⟩]⟩

def tetrahedron : TriMesh :=
  ⟨[⟨0, 0, 0⟩, ⟨1, 0, 0⟩, ⟨0, 1, 0⟩, ⟨0, 0, 1⟩],
    [⟨0, 2, 1⟩, ⟨0, 1, 3⟩, ⟨0, 3, 2⟩, ⟨1, 2, 3⟩]⟩

end TriMesh

end RayScene
