import RayScene.Check.Verdict
set_option autoImplicit false

namespace RayScene.Check

inductive Representation where
  | analytic
  | mesh
  | empty
  deriving DecidableEq, Repr

def Representation.name : Representation → String
  | .analytic => "analytic"
  | .mesh => "mesh"
  | .empty => "empty"

structure RootEntry where
  label : String
  typeId : String
  representation : Representation
  deriving DecidableEq, Repr

structure Report where
  roots : List RootEntry
  sceneBytes : Nat
  meshDeclarations : Nat
  requests : Nat
  verdicts : List Verdict
  deriving DecidableEq, Repr

/-- What follows the marker of a label decides what its node became. -/
def representation (scene label : String) : Representation :=
  match nodeSection? scene (Sdl.sanitize label) with
  | none => .empty
  | some code =>
    match Text.cut? ['\n'] code.toList with
    | none => .empty
    | some (_, after) =>
      let body := Text.skipBlanks after
      if body = [] then .empty
      else if ("object \x7b " ++ Sdl.meshIdentifier label).toList.isPrefixOf body then .mesh
      else .analytic

namespace Report

def build (d : Document) (a : Artifacts) (requests : Nat) : Report where
  roots := (d.roots.filterMap d.get?).map fun n =>
    ⟨n.label, n.kind.typeId, representation a.scene n.label⟩
  sceneBytes := a.scene.utf8ByteSize
  meshDeclarations := occurrences a.meshes "#declare "
  requests := requests
  verdicts := all a.scene a.meshes

def passed (r : Report) : Bool := r.verdicts.all (·.passed)

def count (r : Report) (rep : Representation) : Nat :=
  (r.roots.filter (·.representation = rep)).length

def rootLine (entry : RootEntry × Nat) : String :=
  "  [" ++ toString entry.2 ++ "] " ++ entry.1.label ++ " (" ++ entry.1.typeId ++ "): " ++
    entry.1.representation.name ++ "\n"

def verdictLine (v : Verdict) : String :=
  "  [" ++ (if v.passed then "PASS" else "FAIL") ++ "] " ++ v.check ++ ": " ++ v.detail ++ "\n"

def text (r : Report) : String :=
  "=== POV-Ray Export Report ===\n\nRoots (" ++ toString (r.count .analytic) ++ " analytic, " ++
    toString (r.count .mesh) ++ " mesh, " ++ toString (r.count .empty) ++ " empty):\n" ++
    String.join (r.roots.zipIdx.map rootLine) ++ "\nScene: " ++ toString r.sceneBytes ++
    " bytes, " ++ toString r.meshDeclarations ++ " mesh declarations, " ++ toString r.requests ++
    " tessellation calls\n\nOracles:\n" ++ String.join (r.verdicts.map verdictLine)

end Report

end RayScene.Check
