set_option autoImplicit false

namespace RayScene

open Float.Model

/-- A number in another format, rounded where the format has no room for it. -/
def inFormat (f : Format) : UnpackedFloat → UnpackedFloat
  | .finite sign mantissa exponent _ => .round f sign mantissa exponent
  | u => u

def singleOf (x : Float) : Float32 :=
  .ofModel (.pack (inFormat .binary32 x.toModel.unpack))

def doubleOf (x : Float32) : Float :=
  .ofModel (.pack (inFormat .binary64 x.toModel.unpack))

end RayScene
