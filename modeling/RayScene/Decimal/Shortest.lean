import RayScene.Decimal.Binary
/-!
The fewest decimal digits that read back. The candidates on a decimal grid are the two neighbours of
the value; the coarsest grid with a neighbour inside the rounding interval gives the digits.
-/
set_option autoImplicit false

namespace RayScene

structure Decimal where
  digits : Nat
  exponent : Int
  deriving DecidableEq, Repr

inductive Tie where
  | up
  | even
  deriving DecidableEq, Repr

namespace Decimal

/-- The value and the ends of its rounding interval, all over one common denominator. The ends
belong to the interval exactly when the mantissa is even. -/
structure Interval where
  low : Nat
  value : Nat
  high : Nat
  denominator : Nat
  closed : Bool
  deriving DecidableEq, Repr

/-- Quarter units of the last place are fine enough for the narrower gap below a power of two. -/
def Interval.ofBinary (b : BinaryNumber) : Interval :=
  let s := powerOfTwo (b.exponent - 2)
  ⟨(4 * b.mantissa - if b.narrowBelow then 1 else 2) * s.up, 4 * b.mantissa * s.up,
    (4 * b.mantissa + 2) * s.up, s.down, b.mantissa % 2 == 0⟩

def Interval.holds (i : Interval) (n d : Nat) : Bool :=
  if i.closed then i.low * d ≤ n * i.denominator && n * i.denominator ≤ i.high * d
  else i.low * d < n * i.denominator && n * i.denominator < i.high * d

/-- The better neighbour of the value on the grid of multiples of `10 ^ k`, if one is inside. -/
def Interval.neighbour (i : Interval) (tie : Tie) (k : Int) : Option Nat :=
  let g := Nat.pow 10 k.toNat
  let d := Nat.pow 10 (-k).toNat
  let below := i.value * d / (i.denominator * g)
  let inBelow := i.holds (below * g) d
  let inAbove := i.holds ((below + 1) * g) d
  let twice := 2 * i.value * d
  let middle := (2 * below + 1) * (i.denominator * g)
  if inBelow && inAbove then
    if twice < middle then some below
    else if middle < twice then some (below + 1)
    else match tie with
      | .up => some (below + 1)
      | .even => some (if below % 2 = 0 then below else below + 1)
  else if inBelow then some below
  else if inAbove then some (below + 1)
  else none

/-- Grids from `10 ^ k` downwards, `fuel` of them. -/
def Interval.search (i : Interval) (tie : Tie) : Nat → Int → Decimal
  | 0, k => ⟨i.value * Nat.pow 10 (-k).toNat / (i.denominator * Nat.pow 10 k.toNat), k⟩
  | fuel + 1, k =>
    match i.neighbour tie k with
    | some n => ⟨n, k⟩
    | none => i.search tie fuel (k - 1)

/-- A power of ten that is not below the value, up to one. -/
def ceiling (b : BinaryNumber) : Int :=
  ((b.mantissa.log2 : Int) + 1 + b.exponent) * 30103 / 100000 + 1

/-- The shortest digits of a magnitude. A mantissa of at most 53 bits never needs more than
seventeen digits, so the search ends within its bound. -/
def shortest (tie : Tie) (b : BinaryNumber) : Decimal :=
  if b.mantissa = 0 then ⟨0, 0⟩
  else (Interval.ofBinary b).search tie 24 (ceiling b)

end Decimal

end RayScene
