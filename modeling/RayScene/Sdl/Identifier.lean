import RayScene.Text.CaseMap
set_option autoImplicit false

namespace RayScene.Sdl

def isIdentifierChar (c : Char) : Bool := c.isAlphanum || c = '_'

/-- A letter, digit or underscore stays, all else becomes an underscore, and an underscore comes in
front where nothing or a digit would be first. -/
def sanitizeChars (label : List Char) : List Char :=
  let cs := label.map fun c => if isIdentifierChar c then c else '_'
  match cs with
  | [] => ['_']
  | c :: _ => if c.isDigit then '_' :: cs else cs

def sanitize (label : String) : String := String.ofList (sanitizeChars label.toList)

def capitalize (label : String) : String :=
  match label.toList with
  | [] => ""
  | c :: cs => String.ofList (Text.upper c ++ cs.flatMap Text.lower)

def meshIdentifier (label : String) : String := sanitize label ++ "_mesh"

end RayScene.Sdl
