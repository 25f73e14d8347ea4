/-!
Binary floating-point words as exact numbers. A finite word is a sign, a natural mantissa and a
power of two; every printer and reader of this library works on these and not on the word.
-/
set_option autoImplicit false

namespace RayScene

structure BinaryFormat where
  fractionBits : Nat
  exponentBits : Nat
  deriving DecidableEq, Repr

namespace BinaryFormat

def double : BinaryFormat := ⟨52, 11⟩
def single : BinaryFormat := ⟨23, 8⟩

/-- The power of two that one unit in the last place of a subnormal word stands for. -/
def leastExponent (f : BinaryFormat) : Int :=
  2 - Nat.pow 2 (f.exponentBits - 1) - f.fractionBits

end BinaryFormat

/-- A finite word stands for `mantissa * 2 ^ exponent`. `narrowBelow` holds when the next smaller
word is only half as far away as the next larger one. -/
structure BinaryNumber where
  negative : Bool
  mantissa : Nat
  exponent : Int
  narrowBelow : Bool
  deriving DecidableEq, Repr

inductive BinaryWord where
  | nan
  | infinite (negative : Bool)
  | finite (number : BinaryNumber)
  deriving DecidableEq, Repr

/-- Splits a word into its fields. The hidden leading bit belongs to every word whose exponent
field is not zero, and only there can the gap below be narrower. -/
def BinaryFormat.decode (f : BinaryFormat) (word : Nat) : BinaryWord :=
  let fraction := word % Nat.pow 2 f.fractionBits
  let field := word / Nat.pow 2 f.fractionBits % Nat.pow 2 f.exponentBits
  let negative := decide (word / Nat.pow 2 (f.fractionBits + f.exponentBits) % 2 = 1)
  if field + 1 = Nat.pow 2 f.exponentBits then
    if fraction = 0 then .infinite negative else .nan
  else if field = 0 then
    .finite ⟨negative, fraction, f.leastExponent, false⟩
  else
    .finite ⟨negative, Nat.pow 2 f.fractionBits + fraction, f.leastExponent + (field - 1 : Nat),
      decide (fraction = 0 ∧ 1 < field)⟩

def decodeDouble (x : Float) : BinaryWord := BinaryFormat.double.decode x.toBits.toNat

def decodeSingle (x : Float32) : BinaryWord := BinaryFormat.single.decode x.toBits.toNat

/-- A power of two as a quotient, so that comparisons stay within the natural numbers. -/
structure PowerOfTwo where
  up : Nat
  down : Nat

def powerOfTwo (e : Int) : PowerOfTwo := ⟨Nat.pow 2 e.toNat, Nat.pow 2 (-e).toNat⟩

end RayScene
