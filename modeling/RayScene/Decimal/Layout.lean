import RayScene.Decimal.Shortest
/-!
Decimal digits as text. What a format decides (which exponents are written out, whether a whole
number keeps a point) is one record; the arrangement of the digits follows from it.
-/
set_option autoImplicit false

namespace RayScene

namespace Decimal

/-- The decimal exponent of the leading digit. -/
def magnitude (d : Decimal) : Int := ((Nat.toDigits 10 d.digits).length : Int) - 1 + d.exponent

def plain (d : Decimal) : List Char :=
  let ds := Nat.toDigits 10 d.digits
  if 0 ≤ d.exponent then ds ++ List.replicate d.exponent.toNat '0'
  else
    let places := (-d.exponent).toNat
    if places < ds.length then
      ds.take (ds.length - places) ++ '.' :: ds.drop (ds.length - places)
    else '0' :: '.' :: (List.replicate (places - ds.length) '0' ++ ds)

/-- One digit before the point, the other digits after it, and a signed exponent. -/
def scientific (d : Decimal) : List Char :=
  let ds := Nat.toDigits 10 d.digits
  let m := d.magnitude
  ds.take 1 ++ (if ds.length ≤ 1 then [] else '.' :: ds.drop 1) ++
    'e' :: (if m < 0 then '-' else '+') :: Nat.toDigits 10 m.natAbs

end Decimal

structure DecimalLayout where
  tie : Tie
  isPlain : Int → Bool
  wholeKeepsPoint : Bool

namespace DecimalLayout

def magnitudeText (l : DecimalLayout) (d : Decimal) : List Char :=
  if d.digits = 0 ∨ l.isPlain d.magnitude then
    d.plain ++ if l.wholeKeepsPoint ∧ 0 ≤ d.exponent then ['.', '0'] else []
  else d.scientific

/-- A zero keeps its sign. -/
def text (l : DecimalLayout) (b : BinaryNumber) : List Char :=
  (if b.negative then ['-'] else []) ++ l.magnitudeText (Decimal.shortest l.tie b)

end DecimalLayout

/-- The digits of `n / d` rounded to a whole number, half to even. -/
def roundHalfEven (n d : Nat) : Nat :=
  let q := n / d
  let r := 2 * (n % d)
  if r < d then q else if d < r then q + 1 else if q % 2 = 0 then q else q + 1

/-- Exactly `places` digits after the point. The sign stays on a value that rounds to zero. -/
def fixedPlaces (places : Nat) (b : BinaryNumber) : List Char :=
  let s := powerOfTwo b.exponent
  let ds := Nat.toDigits 10 (roundHalfEven (b.mantissa * s.up * Nat.pow 10 places) s.down)
  let padded := List.replicate (places + 1 - ds.length) '0' ++ ds
  (if b.negative then ['-'] else []) ++ padded.take (padded.length - places) ++
    (if places = 0 then [] else '.' :: padded.drop (padded.length - places))

/-- A word in some layout, with the usual spellings of what is not a number. -/
def BinaryWord.text (finite : BinaryNumber → List Char) : BinaryWord → List Char
  | .nan => ['N', 'a', 'N']
  | .infinite false => ['i', 'n', 'f']
  | .infinite true => ['-', 'i', 'n', 'f']
  | .finite b => finite b

end RayScene
