import RayScene.Json.Value
/-!
Number literals. Whole numbers keep their digits while these fit into sixty-four bits. Any other
literal is a double, which is made from as many of the digits as fit into sixty-four bits with one
rounded step to the power of ten. It need not be the double next to the literal.
-/
set_option autoImplicit false

namespace RayScene.Json

def span (p : Char → Bool) (text : List Char) : List Char × List Char :=
  (text.takeWhile p, text.dropWhile p)

def digitValue (c : Char) : Nat := c.toNat - '0'.toNat

def digitsValue (ds : List Char) : Nat := ds.foldl (fun n c => 10 * n + digitValue c) 0

/-- Appends digits to a number as long as it fits into sixty-four bits. The first digit that does
not fit is left with all that follow it. -/
def absorb (n : Nat) : List Char → Nat × List Char
  | [] => (n, [])
  | c :: cs =>
    let m := 10 * n + digitValue c
    if m < Nat.pow 2 64 then absorb m cs else (n, c :: cs)

def powerOfTen (n : Nat) : Float := Float.ofScientific 1 false n

/-- A number of sixty-four bits times a power of ten. A power too small for a double is reached over
`10 ^ -308`; below its square nothing is left. What exceeds every double is no value. -/
def scaled? (n : Nat) (e : Int) : Option Float :=
  let x := (UInt64.ofNat n).toFloat
  if n = 0 ∨ e < -616 then some 0
  else if e < -308 then some (x / powerOfTen 308 / powerOfTen (-e - 308).toNat)
  else if e < 0 then some (x / powerOfTen (-e).toNat)
  else if 308 < e then none
  else
    let y := x * powerOfTen e.toNat
    if y.isInf then none else some y

/-- Digits before the point that are left over raise the power of ten. Those after it do not
count. -/
def doubleValue? (whole fraction : List Char) (exponent : Int) : Option Float :=
  let (n, left) := absorb 0 whole
  let (m, unused) := absorb n fraction
  scaled? m (left.length - (fraction.length - unused.length) + exponent)

/-- A negative zero is not whole: it has a sign to keep. -/
def numberValue (negative : Bool) (whole : List Char) (fraction : Option (List Char))
    (exponent : Option Int) : Json :=
  let n := digitsValue whole
  let double :=
    match doubleValue? whole (fraction.getD []) (exponent.getD 0) with
    | some x => ofDouble (if negative then -x else x)
    | none => .unreadable
  match fraction, exponent with
  | none, none =>
    if negative then
      if 0 < n ∧ n ≤ Nat.pow 2 63 then .number (.int (-n)) else double
    else if n < Nat.pow 2 64 then .number (.int n) else double
  | _, _ => double

def scanWhole : List Char → Option (List Char × List Char)
  | '0' :: rest => if (rest.head?.map Char.isDigit).getD false then none else some (['0'], rest)
  | text =>
    match span Char.isDigit text with
    | ([], _) => none
    | whole => some whole

/-- The digits after a point, which are at least one; without a point there are none. -/
def scanFraction : List Char → Option (Option (List Char) × List Char)
  | '.' :: rest =>
    match span Char.isDigit rest with
    | ([], _) => none
    | (ds, rest) => some (some ds, rest)
  | text => some (none, text)

def scanExponentDigits (negative : Bool) (text : List Char) : Option (Option Int × List Char) :=
  match span Char.isDigit text with
  | ([], _) => none
  | (ds, rest) => some (some (if negative then -(digitsValue ds : Int) else digitsValue ds), rest)

def scanExponent : List Char → Option (Option Int × List Char)
  | c :: rest =>
    if c = 'e' ∨ c = 'E' then
      match rest with
      | '+' :: rest => scanExponentDigits false rest
      | '-' :: rest => scanExponentDigits true rest
      | _ => scanExponentDigits false rest
    else some (none, c :: rest)
  | [] => some (none, [])

def scanNumber (text : List Char) : Option (Json × List Char) := do
  let (negative, text) := match text with
    | '-' :: rest => (true, rest)
    | _ => (false, text)
  let (whole, text) ← scanWhole text
  let (fraction, text) ← scanFraction text
  let (exponent, text) ← scanExponent text
  return (numberValue negative whole fraction exponent, text)

end RayScene.Json
