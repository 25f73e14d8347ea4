import RayScene.Geometry.Vector
import RayScene.Text.Search
set_option autoImplicit false

namespace RayScene.Sdl

/-- Digits are written out, never with an exponent, and a whole number has no point. A value
half-way between two shortest candidates takes the upper one. -/
def layout : DecimalLayout := ⟨.up, fun _ => true, false⟩

def digits (x : Float) : String := String.ofList ((decodeDouble x).text layout.text)

/-- A number rounded to nine decimals. What is not finite is written as zero, so that the scene can
still be read. -/
def number (x : Float) : String := if x.isFinite then digits (roundNine x) else "0"

def natural (n : Nat) : String := String.ofList (Nat.toDigits 10 n)

def pair (v : Vec2) : String := "<" ++ number v.x ++ ", " ++ number v.y ++ ">"

def triple (v : Vec3) : String :=
  "<" ++ number v.x ++ ", " ++ number v.y ++ ", " ++ number v.z ++ ">"

def fixed (places : Nat) (x : Float) : String :=
  String.ofList ((decodeDouble x).text (fixedPlaces places))

def fixedSingle (places : Nat) (x : Float32) : String :=
  String.ofList ((decodeSingle x).text (fixedPlaces places))

def components (c : Rgb) : String :=
  fixedSingle 3 c.red ++ ", " ++ fixedSingle 3 c.green ++ ", " ++ fixedSingle 3 c.blue

def color (c : Rgb) : String := "<" ++ components c ++ ">"

def shift (lead : List Char) (code : String) : String :=
  String.ofList (Text.substitute '\n' ('\n' :: lead) code.toList)

def indent (code : String) : String := shift ['\t'] code

end RayScene.Sdl
