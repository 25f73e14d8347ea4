import RayScene.Decimal.Layout
import RayScene.Json.Value
set_option autoImplicit false

namespace RayScene

namespace Json

/-- Numbers stay out of exponents from `0.00001` up to sixteen digits before the point. -/
def doubleLayout : DecimalLayout := ⟨.even, fun e => -5 ≤ e ∧ e ≤ 15, true⟩

/-- Single precision starts exponents one place later below and three places earlier above. -/
def singleLayout : DecimalLayout := ⟨.even, fun e => -6 ≤ e ∧ e ≤ 12, true⟩

def nullText : List Char := ['n', 'u', 'l', 'l']

/-- What is not finite has no number in JSON and becomes null. -/
def wordText (layout : DecimalLayout) : BinaryWord → List Char
  | .finite b => layout.text b
  | .infinite _ => nullText
  | .nan => nullText

def numberText : JsonNumber → List Char
  | .int i => if i < 0 then '-' :: Nat.toDigits 10 i.natAbs else Nat.toDigits 10 i.natAbs
  | .double x => wordText doubleLayout (decodeDouble x)
  | .single x => wordText singleLayout (decodeSingle x)

/-- Characters without a short escape are written by their number below the blank, and as they
are from there on. -/
def escaped (c : Char) : List Char :=
  match c with
  | '"' => ['\\', '"']
  | '\\' => ['\\', '\\']
  | '\x08' => ['\\', 'b']
  | '\x0c' => ['\\', 'f']
  | '\n' => ['\\', 'n']
  | '\r' => ['\\', 'r']
  | '\t' => ['\\', 't']
  | c =>
    if c.toNat < 0x20 then
      ['\\', 'u', '0', '0', Nat.digitChar (c.toNat / 16), Nat.digitChar (c.toNat % 16)]
    else [c]

def stringText (s : String) : List Char := '"' :: s.toList.flatMap escaped ++ ['"']

def newline (level : Nat) : List Char := '\n' :: List.replicate (2 * level) ' '

mutual

def prettyText (level : Nat) : Json → List Char
  | .null => nullText
  | .unreadable => nullText
  | .bool true => ['t', 'r', 'u', 'e']
  | .bool false => ['f', 'a', 'l', 's', 'e']
  | .number n => numberText n
  | .string s => stringText s
  | .array [] => ['[', ']']
  | .array (j :: js) =>
    '[' :: newline (level + 1) ++ prettyText (level + 1) j ++ prettyItems level js ++
      newline level ++ [']']
  | .object [] => ['{', '}']
  | .object ((k, j) :: ms) =>
    '{' :: newline (level + 1) ++ stringText k ++ ':' :: ' ' :: prettyText (level + 1) j ++
      prettyMembers level ms ++ newline level ++ ['}']

def prettyItems (level : Nat) : List Json → List Char
  | [] => []
  | j :: js => ',' :: newline (level + 1) ++ prettyText (level + 1) j ++ prettyItems level js

def prettyMembers (level : Nat) : List (String × Json) → List Char
  | [] => []
  | (k, j) :: ms =>
    ',' :: newline (level + 1) ++ stringText k ++ ':' :: ' ' :: prettyText (level + 1) j ++
      prettyMembers level ms

end

def pretty (j : Json) : String := String.ofList (prettyText 0 j)

mutual

def compactText : Json → List Char
  | .null => nullText
  | .unreadable => nullText
  | .bool true => ['t', 'r', 'u', 'e']
  | .bool false => ['f', 'a', 'l', 's', 'e']
  | .number n => numberText n
  | .string s => stringText s
  | .array [] => ['[', ']']
  | .array (j :: js) => '[' :: compactText j ++ compactItems js ++ [']']
  | .object [] => ['{', '}']
  | .object ((k, j) :: ms) =>
    '{' :: stringText k ++ ':' :: compactText j ++ compactMembers ms ++ ['}']

def compactItems : List Json → List Char
  | [] => []
  | j :: js => ',' :: compactText j ++ compactItems js

def compactMembers : List (String × Json) → List Char
  | [] => []
  | (k, j) :: ms => ',' :: stringText k ++ ':' :: compactText j ++ compactMembers ms

end

def compact (j : Json) : String := String.ofList (compactText j)

end Json

end RayScene
