import RayScene.Geometry.TriMesh
import RayScene.Scene.Node
import RayScene.Sdl.Number
/-!
The include file of meshes. It is a list of declarations; the last one of an identifier belongs to
the node that owns it.
-/
set_option autoImplicit false

namespace RayScene.Sdl

structure MeshBlock where
  ident : String
  owner : NodeId
  mesh : TriMesh
  deriving Repr

def vertexLine (v : Vec3) : String := ",\n\t\t" ++ triple v

def triangleLine (t : Triangle) : String :=
  ",\n\t\t<" ++ natural t.a.toNat ++ ", " ++ natural t.b.toNat ++ ", " ++ natural t.c.toNat ++ ">"

/-- `#declare A = mesh2 { vertex_vectors { 3, … } face_indices { 1, … } inside_vector <1, 1, 1> }`,
with the number of its items before each list. -/
def meshText (ident : String) (m : TriMesh) : String :=
  "#declare " ++ ident ++ " =\nmesh2 \x7b\n\tvertex_vectors \x7b\n\t\t" ++
    natural m.vertices.length ++ String.join (m.vertices.map vertexLine) ++
    "\n\t\x7d\n\n\tface_indices \x7b\n\t\t" ++ natural m.triangles.length ++
    String.join (m.triangles.map triangleLine) ++
    "\n\t\x7d\n\n\tinside_vector <1, 1, 1>\n\x7d\n\n"

def MeshBlock.text (b : MeshBlock) : String := meshText b.ident b.mesh

structure MeshFile where
  blocks : List MeshBlock
  deriving Repr

namespace MeshFile

def empty : MeshFile := ⟨[]⟩

def text (f : MeshFile) : String := String.join (f.blocks.map MeshBlock.text)

def isEmpty (f : MeshFile) : Bool := f.blocks.isEmpty

def owner? (f : MeshFile) (ident : String) : Option NodeId :=
  (f.blocks.reverse.find? fun b => b.ident = ident).map (·.owner)

def isDeclared (f : MeshFile) (ident : String) : Bool := (f.owner? ident).isSome

def size (f : MeshFile) : Nat := (f.blocks.map (·.ident)).eraseDups.length

/-- Declares a mesh, unless the identifier already belongs to this node. -/
def declare (f : MeshFile) (ident : String) (owner : NodeId) (mesh : TriMesh) : MeshFile :=
  if f.owner? ident = some owner then f else ⟨f.blocks ++ [⟨ident, owner, mesh⟩]⟩

end MeshFile

end RayScene.Sdl
