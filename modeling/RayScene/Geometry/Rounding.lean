import RayScene.Decimal.Layout
set_option autoImplicit false

namespace RayScene

/-- A rounded zero has no sign. -/
def unsignedZero (x : Float) : Float := if x == 0 then 0 else x

/-- The nearest whole number, of two that are as near the one further from zero. Large doubles are
whole already. -/
def nearestWhole (x : Float) : Float :=
  match decodeDouble x with
  | .finite b =>
    if 0 ≤ b.exponent then x
    else
      let unit := Nat.pow 2 (-b.exponent).toNat
      let whole := (UInt64.ofNat ((2 * b.mantissa + unit) / (2 * unit))).toFloat
      if b.negative then -whole else whole
  | _ => x

def roundNine (x : Float) : Float :=
  if x.abs ≥ 1e9 then x else unsignedZero (nearestWhole (x * 1e9) / 1e9)

def roundThree (x : Float) : Float := unsignedZero (nearestWhole (x * 1000) / 1000)

/-- What is left of one magnitude after as many whole steps as fit, and the power of two it counts
in. Nothing is lost: both numbers are whole multiples of the smaller unit. -/
def BinaryNumber.remainder (a b : BinaryNumber) : Nat × Int :=
  let e := min a.exponent b.exponent
  ((a.mantissa * Nat.pow 2 (a.exponent - e).toNat) %
    (b.mantissa * Nat.pow 2 (b.exponent - e).toNat), e)

/-- The remainder of a division by a positive step, in `[0, step]`. A negative remainder so small
that the sum rounds to the step itself is the step, and a zero has the sign of the dividend. -/
def remainderOf (x step : Float) : Float :=
  match decodeDouble x, decodeDouble step with
  | .finite a, .finite b =>
    if b.mantissa = 0 then 0 / 0
    else
      let (r, e) := a.remainder b
      if r = 0 then (if a.negative then -0 else 0)
      else
        let size := (Float.ofNat r).scaleB e
        if a.negative then step - size else size
  | .finite _, .infinite _ => if x < 0 then x + step else x
  | _, _ => 0 / 0

end RayScene
