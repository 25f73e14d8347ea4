import RayScene.Check.Scan
import RayScene.Sdl.Identifier
import RayScene.Text.Quoted
set_option autoImplicit false

namespace RayScene.Check

/-- Why an expectation is not met. Positions are in bytes. -/
inductive Failure where
  | missing (needle text : String)
  | unexpected (needle : String) (position : Nat) (rest : String)
  | miscounted (needle : String) (expected found : Nat)
  | misplaced (needle : String) (position : Nat)
  | unwantedMeshes (meshes : String)
  deriving DecidableEq, Repr

/-- At most four hundred characters of a text. -/
def excerpt (text : String) : String := String.ofList (text.toList.take 400)

namespace Failure

def detail : Failure → String
  | missing needle text => "expected " ++ Text.quoted needle ++ " in:\n" ++ excerpt text
  | unexpected needle position rest =>
    "unexpected " ++ Text.quoted needle ++ " at byte " ++ toString position ++ " in:\n" ++
      excerpt rest
  | miscounted needle expected found =>
    "expected " ++ Text.quoted needle ++ " " ++ toString expected ++ " times, found " ++
      toString found
  | misplaced needle position =>
    Text.quoted needle ++ " missing after byte " ++ toString position
  | unwantedMeshes meshes => "expected no meshes, got:\n" ++ excerpt meshes

def message (f : Failure) (subject : String) : String :=
  "assertion failed: [" ++ subject ++ "] " ++ f.detail

end Failure

def expectContains (text needle : String) : Except Failure Unit :=
  if contains text needle then .ok () else .error (.missing needle text)

def expectAbsent (text needle : String) : Except Failure Unit :=
  match Text.cut? needle.toList text.toList with
  | none => .ok ()
  | some (before, after) =>
    .error (.unexpected needle (Text.byteLength before)
      (String.ofList (needle.toList ++ after)))

def expectOccurrences (text needle : String) (expected : Nat) : Except Failure Unit :=
  let found := occurrences text needle
  if found = expected then .ok () else .error (.miscounted needle expected found)

/-- Each needle is looked for behind the one before it, at the first place where it stands. -/
def expectOrder (position : Nat) (text : List Char) : List (List Char) → Except Failure Unit
  | [] => .ok ()
  | needle :: needles =>
    match Text.cut? needle text with
    | none => .error (.misplaced (String.ofList needle) position)
    | some (before, after) =>
      expectOrder (position + Text.byteLength before + Text.byteLength needle) after needles

def expectInOrder (text : String) (needles : List String) : Except Failure Unit :=
  expectOrder 0 text.toList (needles.map String.toList)

def reference (label : String) : String := "object \x7b " ++ Sdl.meshIdentifier label

def declaration (label : String) : String := "#declare " ++ Sdl.meshIdentifier label ++ " ="

def expectMeshed (scene meshes label : String) : Except Failure Unit := do
  expectContains scene (reference label)
  expectContains meshes (declaration label)

def expectNotMeshed (scene meshes label : String) : Except Failure Unit := do
  expectAbsent scene (reference label)
  expectAbsent meshes (declaration label)

def expectNoMeshes (scene meshes : String) : Except Failure Unit :=
  if meshes.isEmpty then expectAbsent scene "_mesh.inc\"" else .error (.unwantedMeshes meshes)

end RayScene.Check
