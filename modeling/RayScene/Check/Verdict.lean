import RayScene.Check.Scan
import RayScene.Export.Assembly
import RayScene.Text.Blank
import RayScene.Text.Quoted
/-!
Structural checks of a finished export. A check never fails to answer: it says whether it passed,
and in words what it saw.
-/
set_option autoImplicit false

namespace RayScene.Check

structure Verdict where
  check : String
  passed : Bool
  detail : String
  deriving DecidableEq, Repr

def codeOf (line : List Char) : List Char :=
  match Text.cut? ['/', '/'] line with
  | some (before, _) => before
  | none => line

/-- The number of braces that are open after a text, or nothing once a brace closes that was not
opened. -/
def openBraces (depth : Nat) : List Char → Option Nat
  | [] => some depth
  | c :: cs =>
    if c = '{' then openBraces (depth + 1) cs
    else if c = '}' then
      match depth with
      | 0 => none
      | depth + 1 => openBraces depth cs
    else openBraces depth cs

inductive BraceResult where
  | balanced
  | unmatched (line : Nat)
  | unclosed (count : Nat)
  deriving DecidableEq, Repr

/-- The braces of some lines, the first of which has the given number. -/
def braceResult (line depth : Nat) : List (List Char) → BraceResult
  | [] => if depth = 0 then .balanced else .unclosed depth
  | l :: ls =>
    match openBraces depth (codeOf l) with
    | none => .unmatched line
    | some depth => braceResult (line + 1) depth ls

def braces (text : String) : BraceResult := braceResult 1 0 (Text.lines text.toList)

/-- Every brace closes, and none before it was opened. Comments do not count. -/
def balancedBraces (text : String) : Verdict :=
  match braces text with
  | .balanced => ⟨"balanced_braces", true, "all braces matched"⟩
  | .unmatched line => ⟨"balanced_braces", false, "unmatched '\x7d' on line " ++ toString line⟩
  | .unclosed count => ⟨"balanced_braces", false, toString count ++ " unclosed '\x7b'"⟩

def loopDirectives (text : String) : Verdict :=
  let loops := occurrences text "#while"
  let ends := occurrences text "#end"
  if loops = ends then ⟨"loop_directives", true, toString loops ++ " loops closed"⟩
  else ⟨"loop_directives", false, toString loops ++ " #while against " ++ toString ends ++ " #end"⟩

def strangeNumbers (text : String) : List String :=
  ((Text.splitBy (fun c => !(c.isAlphanum || c = '.' || c = '-')) text.toList).map
    String.ofList).filter fun w => w = "NaN" || w = "-NaN" || w = "inf" || w = "-inf"

def finiteNumbers (text : String) : Verdict :=
  match strangeNumbers text with
  | [] => ⟨"finite_numbers", true, "no non-finite values"⟩
  | w :: ws => ⟨"finite_numbers", false,
      toString (ws.length + 1) ++ " non-finite values, first " ++ Text.quoted w⟩

/-- Every mesh that the scene refers to is declared, and the mesh file is included exactly when it
has content. -/
def meshesResolved (scene meshes : String) : Verdict :=
  let missing :=
    (meshReferences scene).filter fun ident => !contains meshes ("#declare " ++ ident ++ " =")
  if missing ≠ [] then
    ⟨"mesh_references", false, "undeclared meshes: " ++ String.intercalate ", " missing⟩
  else
    let included := contains scene "_mesh.inc\""
    let written := !meshes.isEmpty
    if included != written then
      ⟨"mesh_references", false, "mesh include present: " ++ toString included ++
        ", meshes written: " ++ toString written⟩
    else ⟨"mesh_references", true, "every mesh reference resolved"⟩

def declareWord : List Char := "#declare ".toList

def declaredIdentifiers (text : String) : List (List Char) :=
  ((Text.lines text.toList).filter (declareWord.isPrefixOf ·)).map fun line =>
    (Text.skipBlanks (line.drop declareWord.length)).takeWhile fun c => !Text.isBlank c

def firstRepeated? {α : Type} [DecidableEq α] (seen : List α) : List α → Option α
  | [] => none
  | a :: as => if a ∈ seen then some a else firstRepeated? (a :: seen) as

def uniqueMeshes (meshes : String) : Verdict :=
  let idents := declaredIdentifiers meshes
  match firstRepeated? [] idents with
  | some ident =>
    ⟨"unique_mesh_declarations", false, String.ofList ident ++ " declared twice"⟩
  | none =>
    ⟨"unique_mesh_declarations", true, toString idents.length ++ " declarations"⟩

def all (scene meshes : String) : List Verdict :=
  [balancedBraces scene, balancedBraces meshes, loopDirectives scene, finiteNumbers scene,
    finiteNumbers meshes, meshesResolved scene meshes, uniqueMeshes meshes]

end RayScene.Check
