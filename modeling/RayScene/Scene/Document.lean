import RayScene.Scene.Node
import RayScene.Scene.Walk
/-!
Documents: an arena of nodes and the order in which they are listed. A place of the arena can be
used again; the generation keeps apart the nodes that lived there.
-/
set_option autoImplicit false

namespace RayScene

/-- A place of the arena, with the generation of the node in it or of the next one. -/
inductive Slot where
  | vacant (generation : BitVec 31)
  | occupied (generation : BitVec 31) (node : Node)
  deriving Repr

namespace Slot

def generation : Slot → BitVec 31
  | .vacant g => g
  | .occupied g _ => g

def node? : Slot → Option Node
  | .vacant _ => none
  | .occupied _ n => some n

def version : Slot → Nat
  | .vacant g => 2 * g.toNat
  | .occupied g _ => 2 * g.toNat + 1

def vacated : Slot → Slot
  | .vacant g => .vacant g
  | .occupied g _ => .vacant (g + 1)

end Slot

/-- The first place is never used. Free places are a stack. -/
structure Document where
  slots : Array Slot
  free : List Nat
  order : List NodeId
  deriving Repr

namespace Document

def empty : Document := ⟨#[.vacant 0], [], []⟩

def get? (d : Document) (id : NodeId) : Option Node :=
  match d.slots[id.index]? with
  | some (.occupied g n) => if g = id.generation then some n else none
  | _ => none

def contains (d : Document) (id : NodeId) : Bool := (d.get? id).isSome

def nextId (d : Document) : NodeId :=
  match d.free with
  | i :: _ => ⟨i, ((d.slots[i]?).map Slot.generation).getD 0⟩
  | [] => ⟨d.slots.size, 0⟩

/-- Puts a node into the place that was freed last, or into a new one. -/
def add (d : Document) (n : Node) : Document :=
  match d.free with
  | i :: rest =>
    ⟨d.slots.setIfInBounds i (.occupied d.nextId.generation n), rest, d.order ++ [d.nextId]⟩
  | [] => ⟨d.slots.push (.occupied 0 n), [], d.order ++ [d.nextId]⟩

/-- Takes a node out. References to it stay where they are. -/
def remove (d : Document) (id : NodeId) : Document :=
  let order := d.order.filter (· ≠ id)
  if d.contains id then
    match d.slots[id.index]? with
    | some s => ⟨d.slots.setIfInBounds id.index s.vacated, id.index :: d.free, order⟩
    | none => { d with order }
  else { d with order }

def modify (d : Document) (id : NodeId) (f : Node → Node) : Document :=
  match d.get? id with
  | some n => { d with slots := d.slots.setIfInBounds id.index (.occupied id.generation (f n)) }
  | none => d

def size (d : Document) : Nat := (d.slots.toList.filterMap Slot.node?).length

/-- The listed nodes in their order. An id that is listed twice counts twice. -/
def entries (d : Document) : List (NodeId × Node) :=
  d.order.filterMap fun id => (d.get? id).map (id, ·)

def liveIds (d : Document) : List NodeId :=
  d.slots.toList.zipIdx.filterMap fun (s, i) => s.node?.map fun _ => ⟨i, s.generation⟩

def find? (d : Document) (name : String) : Option NodeId :=
  (d.entries.find? fun (_, n) => n.name = name).map (·.1)

/-- Brings the rotation of every node to unit length, listed or not. -/
def normalizeRotations (d : Document) : Document :=
  { d with slots := d.slots.map fun
      | .occupied g n => .occupied g { n with
          placement := { n.placement with rotation := n.placement.rotation.normalized } }
      | s => s }

/-- What a node depends on directly: its children, then what its parameters refer to and is not
there yet. -/
def outList (d : Document) (id : NodeId) : List NodeId :=
  match d.get? id with
  | none => []
  | some n => n.kind.references.foldl (fun out r => if r ∈ out then out else out ++ [r]) n.children

/-- Everything that a node depends on, without the node itself, in the order of a depth-first
search from left to right. -/
def outListRecursive (d : Document) (id : NodeId) : List NodeId :=
  walk d.outList d.liveIds (d.outList id) [id]

/-- The other listed nodes that depend on a node directly. -/
def inList (d : Document) (id : NodeId) : List NodeId :=
  (d.entries.map (·.1)).filter fun other => other ≠ id ∧ id ∈ d.outList other

def parents (d : Document) (id : NodeId) : List NodeId :=
  ((d.entries.filter fun (_, n) => id ∈ n.children).map (·.1)).eraseDups

/-- The nodes that contain a node at any depth. Only children count as contained. -/
def ancestors (d : Document) (id : NodeId) : List NodeId :=
  walk d.parents d.liveIds (d.parents id) []

def hasAncestor (d : Document) (id : NodeId) (p : Kind → Bool) : Bool :=
  (d.ancestors id).any fun a => (d.get? a).any fun n => p n.kind

def isOwned (d : Document) (id : NodeId) : Bool := d.hasAncestor id Kind.isOwner

/-- The listed nodes that stand on their own: visible, no folder, and not owned. -/
def roots (d : Document) : List NodeId :=
  ((d.entries.filter fun (_, n) => n.visible && !n.kind.isGroup).map (·.1)).filter
    fun id => !d.isOwned id

def sketch? (d : Document) (id : NodeId) : Option Sketch :=
  match d.get? id with
  | some n => match n.kind with
    | .sketch s => some s
    | _ => none
  | none => none

end Document

end RayScene
