import RayScene.Sdl.Identifier
import RayScene.Text.Lines
set_option autoImplicit false

namespace RayScene.Check

/-- The code of a node: from its marker up to the next marker behind the same lead, or to the end of
the text. -/
def nodeSection? (text : String) (label : String) : Option String :=
  let marker := ("//----- " ++ label ++ " -----").toList
  match Text.cut? marker text.toList with
  | none => none
  | some (before, after) =>
    let lead := (Text.afterLast? '\n' before).getD before
    let next := '\n' :: lead ++ "//----- ".toList
    some (String.ofList (marker ++ ((Text.cut? next after).map (·.1)).getD after))

def followers (needle text : List Char) : List (List Char) :=
  if _hn : needle = [] then []
  else match _h : Text.cut? needle text with
    | none => []
    | some (_, after) => after :: followers needle after
termination_by text.length
decreasing_by
  have := Text.length_lt_of_cut? _hn _h
  omega

def meshEnding : List Char := "_mesh".toList

/-- The identifiers of the objects that refer to a mesh, in the order of the text. -/
def meshReferences (text : String) : List String :=
  (((followers "object \x7b ".toList text.toList).map
    (·.takeWhile Sdl.isIdentifierChar)).filter fun ident =>
      meshEnding.isSuffixOf ident).map String.ofList

def occurrences (text needle : String) : Nat := Text.count needle.toList text.toList

end RayScene.Check
