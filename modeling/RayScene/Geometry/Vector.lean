import RayScene.Geometry.Rounding
set_option autoImplicit false

namespace RayScene

structure Vec2 where
  x : Float
  y : Float
  deriving BEq, Repr, Inhabited

structure Vec3 where
  x : Float
  y : Float
  z : Float
  deriving BEq, Repr, Inhabited

def Vec2.map (f : Float → Float) (v : Vec2) : Vec2 := ⟨f v.x, f v.y⟩

def Vec2.rounded (v : Vec2) : Vec2 := v.map roundThree

namespace Vec3

def zero : Vec3 := ⟨0, 0, 0⟩

def map (f : Float → Float) (v : Vec3) : Vec3 := ⟨f v.x, f v.y, f v.z⟩

def add (v w : Vec3) : Vec3 := ⟨v.x + w.x, v.y + w.y, v.z + w.z⟩

def cross (v w : Vec3) : Vec3 :=
  ⟨v.y * w.z - v.z * w.y, v.z * w.x - v.x * w.z, v.x * w.y - v.y * w.x⟩

def any (p : Float → Bool) (v : Vec3) : Bool := p v.x || p v.y || p v.z

/-- A component that is not a number is not zero. -/
def isNonzero (v : Vec3) : Bool := v.any (· != 0)

/-- The largest magnitude of a component, not a number as soon as one component is none. -/
def largest (v : Vec3) : Float :=
  if v.any Float.isNaN then 0 / 0
  else
    let a := if v.x.abs < v.y.abs then v.y.abs else v.x.abs
    if a < v.z.abs then v.z.abs else a

end Vec3

structure Rgb where
  red : Float32
  green : Float32
  blue : Float32
  deriving BEq, Repr, Inhabited

structure Rgba where
  red : Float32
  green : Float32
  blue : Float32
  alpha : Float32
  deriving BEq, Repr, Inhabited

def Rgba.black : Rgba := ⟨0, 0, 0, 0⟩

def Rgba.rgb (c : Rgba) : Rgb := ⟨c.red, c.green, c.blue⟩

/-- The color packed into a word as `0xRRGGBBAA`, without its last byte. -/
def Rgb.ofPacked (word : UInt32) : Rgb :=
  let channel (shift : UInt32) : Float32 :=
    Float32.ofNat ((word >>> shift) &&& 0xFF).toNat / 255
  ⟨channel 24, channel 16, channel 8⟩

end RayScene
