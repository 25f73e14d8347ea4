import RayScene.Check.Report
import RayScene.Sketch.Shapes
import RayScene.Stored.Project
/-!
A workbench builds a document by names, and exports it with a tessellator by the book. What a
failing step has already done stays done.
-/
set_option autoImplicit false

namespace RayScene

structure RequestRecord where
  name : String
  deviation : Float
  angular : Float
  deriving Repr

def Request.record? (d : Document) (r : Request) : Option RequestRecord :=
  (d.get? r.node).map fun n => ⟨n.name, r.deviation, r.angular⟩

structure Bench where
  document : Document
  settings : Settings
  camera : Camera
  user : Sdl.Include
  textures : Sdl.Include
  book : ShapeBook
  names : List (String × NodeId)
  records : List RequestRecord

inductive BenchError where
  | nodeNotFound (name : String)
  | duplicateName (name : String)
  | compile (cause : Sdl.CompileError)
  | project (cause : LoadError)
  deriving DecidableEq, Repr

def BenchError.message : BenchError → String
  | .nodeNotFound name => "node not found: " ++ name
  | .duplicateName name => "duplicate name: " ++ name
  | .compile cause => "compile error: " ++ cause.message
  | .project cause => "project file error: " ++ cause.message

abbrev Building := ExceptT BenchError (StateM Bench)

namespace Bench

def empty : Bench :=
  ⟨Document.empty, Settings.standard, Camera.standard, Sdl.Include.empty, Sdl.Include.empty,
    ⟨[], [], []⟩, [], []⟩

def context (b : Bench) : Context := ⟨b.settings, b.camera, b.user, b.textures⟩

/-- A bench over a project file. Of two nodes with one name the later one has it. -/
def ofProject (text : String) : Except BenchError Bench :=
  match Project.load text with
  | .error e => .error (.project e)
  | .ok p => .ok { empty with
      document := p.document
      camera := p.camera
      names := (p.document.entries.map fun (id, n) => (n.name, id)).reverse }

end Bench

namespace Building

def id (name : String) : Building NodeId := do
  match (← get).names.lookup name with
  | some id => return id
  | none => throw (.nodeNotFound name)

def ids (names : List String) : Building (List NodeId) := names.mapM id

def node (name : String) : Building Node := do
  let id ← id name
  match (← get).document.get? id with
  | some n => return n
  | none => throw (.nodeNotFound name)

def hideAll (ids : List NodeId) : Building Unit :=
  modify fun b => { b with
    document := ids.foldl (fun d id => d.modify id fun n => { n with visible := false })
      b.document }

/-- The ids behind names, whose nodes are hidden once all of them are found. -/
def consume (names : List String) : Building (List NodeId) := do
  let ids ← ids names
  hideAll ids
  return ids

def addWithChildren (name : String) (kind : Kind) (children : List NodeId) :
    Building NodeId := do
  let b ← get
  if (b.names.lookup name).isSome then throw (.duplicateName name)
  let id := b.document.nextId
  set { b with
    document := b.document.add { Node.ofKind name kind with children := children }
    names := (name, id) :: b.names }
  return id

def add (name : String) (kind : Kind) : Building NodeId := addWithChildren name kind []

/-- The operands are hidden, also when the name turns out to be taken. -/
def boolean (name : String) (op : BooleanOp) (operands : List String) : Building NodeId := do
  addWithChildren name (.boolean op) (← consume operands)

def part (name : String) (members : List String) : Building NodeId := do
  addWithChildren name .part (← ids members)

def group (name : String) (members : List String) : Building NodeId := do
  addWithChildren name .group (← ids members)

def derived (name base : String) (kind : NodeId → Kind) : Building NodeId := do
  let id ← id base
  hideAll [id]
  add name (kind id)

def polarArray (name base : String) (count : UInt32) (angle : Float) : Building NodeId :=
  derived name base fun id =>
    .array ⟨id, .polar ⟨Vec3.zero, ⟨0, 0, 1⟩, Vec3.zero, count, angle⟩⟩

def orthoArray (name base : String) (x y z : UInt32) (spacing : Float) : Building NodeId :=
  derived name base fun id =>
    .array ⟨id, .ortho ⟨⟨spacing, 0, 0⟩, ⟨0, spacing, 0⟩, ⟨0, 0, spacing⟩, x, y, z⟩⟩

def otherArray (name base arrayType : String) : Building NodeId :=
  derived name base fun id => .array ⟨id, .other arrayType⟩

def clone (name : String) (sources : List String) (scale : Vec3) : Building NodeId := do
  add name (.clone (← ids sources) scale)

def extrude (name sketch : String) (length : Float) : Building NodeId :=
  derived name sketch fun id => .extrusion ⟨id, length, 0, false, false, .normal, 0, 0⟩

def fixedFeature (profile : NodeId) (length : Float) (base : Option NodeId) : Feature :=
  ⟨profile, length, false, false, .length, base⟩

def pad (name sketch : String) (length : Float) : Building NodeId :=
  derived name sketch fun id => .pad (fixedFeature id length none)

def pocket (name sketch : String) (length : Float) (into : Option String) : Building NodeId := do
  let profile ← id sketch
  hideAll [profile]
  let base ← into.mapM id
  add name (.pocket (fixedFeature profile length base))

def body (name : String) (features : List String) (tip : String) : Building NodeId := do
  let children ← ids features
  addWithChildren name (.body (some (← id tip))) children

def edit (name : String) (f : Node → Node) : Building Unit := do
  let id ← id name
  if (← get).document.contains id then
    modify fun b => { b with document := b.document.modify id f }
  else throw (.nodeNotFound name)

def place (name : String) (placement : Placement) : Building Unit :=
  edit name fun n => { n with placement := placement }

def hide (name : String) : Building Unit := edit name fun n => { n with visible := false }

def paint (name : String) (color : Rgb) : Building Unit :=
  edit name fun n => { n with view := { n.view with color := color } }

def relabel (name label : String) : Building Unit := edit name fun n => { n with label := label }

/-- Appends a child, even where that closes a cycle. -/
def link (parent child : String) : Building Unit := do
  let child ← id child
  edit parent fun n => { n with children := n.children ++ [child] }

def record (requests : List Request) : Building Unit :=
  modify fun b =>
    { b with records := b.records ++ requests.filterMap (·.record? b.document) }

def export_ : Building Artifacts := do
  let b ← get
  let (result, requests) := assemble b.book.tessellator [] b.context b.document
  record requests
  match result with
  | .ok a => return a
  | .error e => throw (.compile e)

/-- The code of a single node and the meshes that it needs. -/
def compileNode (name : String) : Building (String × Sdl.MeshFile) := do
  let id ← id name
  let b ← get
  let w : Sdl.Workshop := ⟨⟨b.document, b.context⟩, b.book.tessellator⟩
  let (result, ledger) := (w.compile id Sdl.Flags.all).run.run Sdl.Ledger.empty
  record ledger.requests
  match result with
  | .ok code => return (code, ledger.meshes)
  | .error e => throw (.compile e)

def check : Building (List Check.Verdict) := do
  let a ← export_
  return Check.all a.scene a.meshes

def report : Building Check.Report := do
  let a ← export_
  let b ← get
  return Check.Report.build b.document a b.records.length

def save (metadata : Metadata) : Building String := do
  let b ← get
  return (Project.mk b.document b.camera metadata).save

/-- Starts over with the project in a file. -/
def load (text : String) : Building Unit := do
  match Bench.ofProject text with
  | .ok b => set b
  | .error e => throw e

end Building

end RayScene
