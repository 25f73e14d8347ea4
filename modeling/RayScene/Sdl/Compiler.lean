import RayScene.Sdl.Compile
/-!
Compilers that take one step after the other. The path is part of the compiler, which goes into a
node and comes out again however the work inside ends.
-/
set_option autoImplicit false

namespace RayScene.Sdl

/-- The nodes that a compiler is inside of, innermost first, and what it has left so far. -/
structure Compiler where
  path : List NodeId
  ledger : Ledger

def Compiler.fresh : Compiler := ⟨[], Ledger.empty⟩

abbrev Working := ExceptT CompileError (StateM Compiler)

namespace Working

def onLedger {α : Type} (x : StateM Ledger α) : Working α := fun c =>
  let (a, l) := x.run c.ledger
  (.ok a, { c with ledger := l })

/-- Whatever happens inside, the node on top of the path is taken off at the end. -/
def inside (id : NodeId) (x : Working String) : Working String := ExceptT.mk do
  modify fun c => { c with path := id :: c.path }
  let result ← x.run
  modify fun c => { c with path := c.path.tail }
  return result

end Working

namespace Workshop

variable (w : Workshop)

def workOn (step : NodeId → Flags → Working String) (id : NodeId) (n : Node) (f : Flags) :
    Working String :=
  match w.plan id n f with
  | .nothing => pure ""
  | .tessellated => do
    let code ← Working.onLedger (w.tessellated id n f)
    return marker n f ++ code
  | .framed frame => do
    let codes ← frame.steps.mapM fun s => step s.node s.flags
    return marker n f ++ frame.code codes

/-- The depth bounds the recursion. It is not used up before the path is full. -/
def step : Nat → NodeId → Flags → Working String
  | depth, id, f =>
    match w.document.get? id with
    | none => pure ""
    | some n => do
      let path := (← get).path
      if id ∈ path then throw (.cycle n.name)
      else if maxDepth ≤ path.length then throw (.tooDeep n.name maxDepth)
      else match depth with
        | 0 => throw (.tooDeep n.name maxDepth)
        | depth + 1 => Working.inside id (w.workOn (step depth) id n f)

/-- A step of a compiler, from the code or the error that it ends with to the compiler after it. -/
def take (s : Step) (c : Compiler) : Except CompileError String × Compiler :=
  (w.step maxDepth s.node s.flags).run.run c

/-- The outcomes of some steps on one compiler, each with the compiler after it. -/
def session (c : Compiler) : List Step → List (Except CompileError String × Compiler)
  | [] => []
  | s :: steps => w.take s c :: session (w.take s c).2 steps

end Workshop

end RayScene.Sdl
