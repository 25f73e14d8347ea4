import RayScene.Json.Reader
set_option autoImplicit false

namespace RayScene

structure ProjectId where
  value : BitVec 128
  deriving DecidableEq, Repr

namespace ProjectId

def groups : List Nat := [8, 4, 4, 4, 12]

def hexDigits (id : ProjectId) : List Char :=
  (List.range 32).map fun i => Nat.digitChar (id.value.toNat / Nat.pow 16 (31 - i) % 16)

def hyphenate : List Nat → List Char → List Char
  | [], _ => []
  | [n], cs => cs.take n
  | n :: ns, cs => cs.take n ++ '-' :: hyphenate ns (cs.drop n)

def text (id : ProjectId) : String := String.ofList (hyphenate groups id.hexDigits)

/-- The characters of the groups, if hyphens stand exactly between them. -/
def ungroup? : List Nat → List Char → Option (List Char)
  | [], _ => none
  | [n], cs => if cs.length = n then some cs else none
  | n :: ns, cs =>
    match cs.drop n with
    | '-' :: rest => (ungroup? ns rest).map (cs.take n ++ ·)
    | _ => none

def ofHexDigits? (cs : List Char) : Option ProjectId := do
  let ds ← cs.mapM Json.hexDigit?
  if ds.length = 32 then some ⟨BitVec.ofNat 128 (ds.foldl (fun n d => 16 * n + d) 0)⟩ else none

/-- The part of a text that has the digits: what braces enclose or what follows the marks of a name,
which may be in capitals. -/
def unwrapped (cs : List Char) : List Char :=
  let mark := ['u', 'r', 'n', ':', 'u', 'u', 'i', 'd', ':']
  if cs.length = 38 ∧ cs.head? = some '{' ∧ cs.getLast? = some '}' then
    cs.tail.dropLast
  else if mark.isPrefixOf (cs.map Char.toLower) then cs.drop mark.length
  else cs

/-- Digits alone, or in groups with hyphens; only groups may be wrapped. -/
def ofText? (text : String) : Option ProjectId :=
  let cs := text.toList
  if cs.length = 32 then ofHexDigits? cs
  else (ungroup? groups (unwrapped cs)).bind ofHexDigits?

end ProjectId

end RayScene
