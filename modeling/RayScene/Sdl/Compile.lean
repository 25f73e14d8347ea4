import RayScene.Sdl.MeshFile
import RayScene.Sdl.Plan
import RayScene.Tessellation.Tessellator
/-!
Compiling nodes. The path from the first node to the current one must not repeat a node and must not
be longer than the limit; what is left of the limit bounds the recursion.
-/
set_option autoImplicit false

namespace RayScene.Sdl

inductive CompileError where
  | cycle (name : String)
  | tooDeep (name : String) (limit : Nat)
  deriving DecidableEq, Repr

def CompileError.message : CompileError → String
  | .cycle name => "scene graph cycle through " ++ name
  | .tooDeep name limit =>
    "scene graph nested deeper than " ++ toString limit ++ " levels at " ++ name

def maxDepth : Nat := 256

/-- What compiling leaves besides code: the requests made so far and the meshes declared so far. -/
structure Ledger where
  requests : List Request
  meshes : MeshFile

def Ledger.empty : Ledger := ⟨[], MeshFile.empty⟩

/-- The ledger is kept when compiling fails. -/
abbrev Compiling := ExceptT CompileError (StateM Ledger)

structure Workshop extends Surroundings where
  tessellator : Tessellator

namespace Workshop

variable (w : Workshop)

def request (id : NodeId) (n : Node) : Request :=
  ⟨id, n.view.deviation, n.view.angularDeflection.getD defaultAngular⟩

/-- The mesh of a node. A node that is a mesh needs no tessellator. -/
def meshOf? (id : NodeId) (n : Node) : StateM Ledger (Option TriMesh) :=
  match n.kind with
  | .mesh m => pure (some m)
  | _ => fun l =>
    let r := request id n
    ((w.tessellator l.requests w.document r).toOption, { l with requests := l.requests ++ [r] })

/-- A node as a reference to its mesh. A node without a mesh, or with an empty one, is nothing. -/
def tessellated (id : NodeId) (n : Node) (f : Flags) : StateM Ledger String := do
  if f.meshDef then
    match ← w.meshOf? id n with
    | none => return ""
    | some m =>
      if m.isEmpty then return ""
      modify fun l => { l with meshes := l.meshes.declare (meshIdentifier n.label) id m }
      return w.meshReference n f
  else return w.meshReference n f

def compileNode (inner : NodeId → Flags → Compiling String) (id : NodeId) (n : Node) (f : Flags) :
    Compiling String :=
  match w.plan id n f with
  | .nothing => pure ""
  | .tessellated => do
    let code ← (w.tessellated id n f : StateM Ledger String)
    return marker n f ++ code
  | .framed frame => do
    let codes ← frame.steps.mapM fun s => inner s.node s.flags
    return marker n f ++ frame.code codes

/-- The code of a node below a path. A node that is not there has no code. -/
def compileAt : Nat → List NodeId → NodeId → Flags → Compiling String
  | budget, path, id, f =>
    match w.document.get? id with
    | none => pure ""
    | some n =>
      if id ∈ path then throw (.cycle n.name)
      else match budget with
        | 0 => throw (.tooDeep n.name maxDepth)
        | budget + 1 => w.compileNode (compileAt budget (id :: path)) id n f

def compile (id : NodeId) (f : Flags) : Compiling String := w.compileAt maxDepth [] id f

end Workshop

end RayScene.Sdl
