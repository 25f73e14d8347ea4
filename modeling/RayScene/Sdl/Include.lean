import RayScene.Text.Search
set_option autoImplicit false

namespace RayScene.Sdl

/-- A block comment without an end, and the byte at which it starts. -/
inductive IncludeError where
  | unterminatedComment (offset : Nat)
  deriving DecidableEq, Repr

def IncludeError.message : IncludeError → String
  | .unterminatedComment offset =>
    "unterminated block comment starting at byte " ++ toString offset

/-- Takes out one block comment after the other. What a comment leaves can be the start of another
one, so each search begins anew; the offset counts in the text as it is by then. -/
def stripBlocks (text : List Char) : Except IncludeError (List Char) :=
  match _ho : Text.cut? ['/', '*'] text with
  | none => .ok text
  | some (before, after) =>
    match _hc : Text.cut? ['*', '/'] after with
    | none => .error (.unterminatedComment (Text.byteLength before))
    | some (_, rest) => stripBlocks (before ++ rest)
termination_by text.length
decreasing_by
  have h1 := Text.length_lt_of_cut? (by simp) _ho
  have h2 := Text.length_lt_of_cut? (by simp) _hc
  simp
  omega

def stripLines (text : List Char) : List Char :=
  match _h : Text.cut? ['/', '/'] text with
  | none => text
  | some (before, after) => stripLines (before ++ after.dropWhile (· != '\n'))
termination_by text.length
decreasing_by
  have h1 := Text.length_lt_of_cut? (by simp) _h
  have h2 : (after.dropWhile (· != '\n')).length ≤ after.length :=
    (List.dropWhile_sublist _).length_le
  simp
  omega

def stripComments (source : String) : Except IncludeError String :=
  (stripBlocks source.toList).map fun cs => String.ofList (stripLines cs)

/-- An include file without its comments. A file with an unterminated comment has no content, and
every search in it fails. -/
structure Include where
  content : Option String
  deriving DecidableEq, Repr

namespace Include

def empty : Include := ⟨some ""⟩

def load (source : String) : Include :=
  match stripComments source with
  | .ok code => ⟨some code⟩
  | .error _ => ⟨none⟩

def isUsable (i : Include) : Bool := i.content.isSome

def mentions (i : Include) (text : String) : Bool := i.content.any (contains · text)

def declares (i : Include) (ident : String) : Bool := i.mentions ("#declare " ++ ident)

end Include

end RayScene.Sdl
