import RayScene.Geometry.Vector
set_option autoImplicit false

namespace RayScene

def pi : Float := 3.14159265358979311600

def fullTurn : Float := 6.28318530717958647692

def quarterTurn : Float := 1.57079632679489661923

def toRadians (degrees : Float) : Float := degrees * 0.017453292519943295

def toDegrees (radians : Float) : Float := radians * 57.2957795130823208767981548141051703

/-- A quaternion that need not have unit length. -/
structure Rotation where
  x : Float
  y : Float
  z : Float
  w : Float
  deriving BEq, Repr, Inhabited

namespace Rotation

def identity : Rotation := ⟨0, 0, 0, 1⟩

/-- An axis without length gives the identity. -/
def ofAxisAngle (axis : Vec3) (degrees : Float) : Rotation :=
  let length := (axis.x * axis.x + axis.y * axis.y + axis.z * axis.z).sqrt
  if length < 1e-12 then identity
  else
    let half := toRadians degrees / 2
    let s := half.sin / length
    ⟨axis.x * s, axis.y * s, axis.z * s, half.cos⟩

def isIdentity (r : Rotation) : Bool := r.x == 0 && r.y == 0 && r.z == 0

def scaledBy (r : Rotation) (length : Float) : Rotation :=
  ⟨r.x / length, r.y / length, r.z / length, r.w / length⟩

/-- The rotation with unit length; the identity where there is no length to speak of. -/
def normalized (r : Rotation) : Rotation :=
  let length := (r.x * r.x + r.y * r.y + r.z * r.z + r.w * r.w).sqrt
  if length < 1e-12 then identity else r.scaledBy length

/-- Roll about X, pitch about Y and yaw about Z in degrees, applied in this order. At a pitch of a
quarter turn the yaw is zero and all is in the roll. -/
def eulerDegrees (r : Rotation) : Vec3 :=
  let n := r.normalized
  let ⟨i, j, k, w⟩ := n.scaledBy ((n.x * n.x + n.z * n.z) + (n.y * n.y + n.w * n.w)).sqrt
  let ww := w * w
  let ii := i * i
  let jj := j * j
  let kk := k * k
  let ij := (i * j) * 2
  let wk := (w * k) * 2
  let wj := (w * j) * 2
  let ik := (i * k) * 2
  let jk := (j * k) * 2
  let wi := (w * i) * 2
  let sine := ik - wj
  let angles : Vec3 :=
    if sine.abs < 1 then
      let pitch := -sine.asin
      let c := pitch.cos
      ⟨Float.atan2 ((wi + jk) / c) ((ww - ii - jj + kk) / c), pitch,
        Float.atan2 ((wk + ij) / c) ((ww + ii - jj - kk) / c)⟩
    else if sine ≤ -1 then ⟨Float.atan2 (ij - wk) (wj + ik), quarterTurn, 0⟩
    else ⟨-Float.atan2 (ij - wk) (-(wj + ik)), -quarterTurn, 0⟩
  angles.map fun a => roundNine (toDegrees a)

def apply (r : Rotation) (v : Vec3) : Vec3 :=
  let q : Vec3 := ⟨r.x, r.y, r.z⟩
  let t := (q.cross v).map (2 * ·)
  let u := q.cross t
  ⟨v.x + r.w * t.x + u.x, v.y + r.w * t.y + u.y, v.z + r.w * t.z + u.z⟩

end Rotation

structure Placement where
  base : Vec3
  rotation : Rotation
  deriving BEq, Repr, Inhabited

namespace Placement

def origin : Placement := ⟨Vec3.zero, Rotation.identity⟩

def apply (p : Placement) (v : Vec3) : Vec3 := (p.rotation.apply v).add p.base

end Placement

end RayScene
