import RayScene.Json.Literal
set_option autoImplicit false

namespace RayScene

namespace Json

def isBlank (c : Char) : Bool := c = ' ' || c = '\n' || c = '\t' || c = '\r'

def skipBlanks (text : List Char) : List Char := text.dropWhile isBlank

/-- A character of a string, or one escaped unit of sixteen bits. -/
inductive Piece where
  | char (c : Char)
  | unit (n : Nat)

def hexDigit? (c : Char) : Option Nat :=
  if '0' ≤ c ∧ c ≤ '9' then some (c.toNat - '0'.toNat)
  else if 'a' ≤ c ∧ c ≤ 'f' then some (c.toNat - 'a'.toNat + 10)
  else if 'A' ≤ c ∧ c ≤ 'F' then some (c.toNat - 'A'.toNat + 10)
  else none

def escape? : Char → Option Char
  | '"' => some '"'
  | '\\' => some '\\'
  | '/' => some '/'
  | 'b' => some '\x08'
  | 'f' => some '\x0c'
  | 'n' => some '\n'
  | 'r' => some '\r'
  | 't' => some '\t'
  | _ => none

def scanString : List Char → Option (List Piece × List Char)
  | [] => none
  | '"' :: rest => some ([], rest)
  | '\\' :: 'u' :: a :: b :: c :: d :: rest => do
    let a ← hexDigit? a
    let b ← hexDigit? b
    let c ← hexDigit? c
    let d ← hexDigit? d
    let (ps, rest) ← scanString rest
    return (.unit (((a * 16 + b) * 16 + c) * 16 + d) :: ps, rest)
  | '\\' :: e :: rest => do
    let c ← escape? e
    let (ps, rest) ← scanString rest
    return (.char c :: ps, rest)
  | c :: rest =>
    if c.toNat < 0x20 then none
    else do
      let (ps, rest) ← scanString rest
      return (.char c :: ps, rest)

/-- Two units that form a pair are one character; a unit of a pair alone is none. -/
def joinPieces : List Piece → Option (List Char)
  | [] => some []
  | .char c :: ps => (joinPieces ps).map (c :: ·)
  | .unit h :: .unit l :: ps =>
    if 0xD800 ≤ h ∧ h < 0xDC00 then
      if 0xDC00 ≤ l ∧ l < 0xE000 then
        (joinPieces ps).map (Char.ofNat (0x10000 + (h - 0xD800) * 0x400 + (l - 0xDC00)) :: ·)
      else none
    else if 0xDC00 ≤ h ∧ h < 0xE000 then none
    else (joinPieces (.unit l :: ps)).map (Char.ofNat h :: ·)
  | .unit n :: ps =>
    if 0xD800 ≤ n ∧ n < 0xE000 then none else (joinPieces ps).map (Char.ofNat n :: ·)

def scanWord (word : List Char) (value : Json) (text : List Char) : Option (Json × List Char) :=
  if word.isPrefixOf text then some (value, text.drop word.length) else none

/-- An object with a key that is no text cannot be read. -/
def ofMembers (members : List (Option (List Char) × Json)) : Json :=
  if members.all (·.1.isSome) then
    .object (members.map fun (k, j) => (String.ofList (k.getD []), j))
  else .unreadable

mutual

/-- One value and what follows it. Every call consumes at least one character, so the length of the
text is fuel enough. -/
def scanValue : Nat → List Char → Option (Json × List Char)
  | 0, _ => none
  | fuel + 1, text =>
    match skipBlanks text with
    | [] => none
    | '"' :: rest => do
      let (ps, rest) ← scanString rest
      match joinPieces ps with
      | some cs => return (.string (String.ofList cs), rest)
      | none => return (.unreadable, rest)
    | '[' :: rest =>
      match skipBlanks rest with
      | ']' :: rest => some (.array [], rest)
      | rest => (scanItems fuel rest).map fun (js, rest) => (.array js, rest)
    | '{' :: rest =>
      match skipBlanks rest with
      | '}' :: rest => some (.object [], rest)
      | rest => (scanMembers fuel rest).map fun (ms, rest) => (ofMembers ms, rest)
    | 'n' :: rest => scanWord ['u', 'l', 'l'] .null rest
    | 't' :: rest => scanWord ['r', 'u', 'e'] (.bool true) rest
    | 'f' :: rest => scanWord ['a', 'l', 's', 'e'] (.bool false) rest
    | text => scanNumber text

def scanItems : Nat → List Char → Option (List Json × List Char)
  | 0, _ => none
  | fuel + 1, text => do
    let (j, rest) ← scanValue fuel text
    match skipBlanks rest with
    | ',' :: rest =>
      let (js, rest) ← scanItems fuel rest
      return (j :: js, rest)
    | ']' :: rest => return ([j], rest)
    | _ => none

def scanMembers : Nat → List Char → Option (List (Option (List Char) × Json) × List Char)
  | 0, _ => none
  | fuel + 1, text =>
    match skipBlanks text with
    | '"' :: rest => do
      let (ps, rest) ← scanString rest
      match skipBlanks rest with
      | ':' :: rest =>
        let (j, rest) ← scanValue fuel rest
        match skipBlanks rest with
        | ',' :: rest =>
          let (ms, rest) ← scanMembers fuel rest
          return ((joinPieces ps, j) :: ms, rest)
        | '}' :: rest => return ([(joinPieces ps, j)], rest)
        | _ => none
      | _ => none
    | _ => none

end

/-- The value that is the whole text, with repeated members and unreadable parts still in it. -/
def readLoose (text : String) : Option Json :=
  let cs := text.toList
  match scanValue (2 * cs.length + 2) cs with
  | some (j, rest) => if skipBlanks rest = [] then some j else none
  | none => none

def maxNesting : Nat := 127

/-- The value that is the whole text, every part of it readable and no member repeated. -/
def read (text : String) : Option Json := (readLoose text).bind (settle maxNesting)

end Json

end RayScene
