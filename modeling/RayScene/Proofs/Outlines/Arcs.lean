import RayScene.Proofs.Outlines.Profiles
set_option autoImplicit false

namespace RayScene

section Doubles

open Float.Model
open Float.Model.UnpackedFloat
  (Sign Accuracy packComponents roundWithAccuracy unpackSign_packComponents
  unpackExponent_packComponents unpackMantissa_packComponents unpack_packedNaN unpack_packedZero)

variable {spec : Format}

theorem neg_mul_neg_sign (s t : Sign) : -s * -t = s * t := by cases s <;> cases t <;> rfl

theorem neg_neg_sign (s : Sign) : - -s = s := by cases s <;> rfl

theorem apply_sub_apply (s t : Sign) (m n : Int) :
    t.apply n - s.apply m = -(s.apply m - t.apply n) :=
  (Int.neg_sub ..).symm

theorem unpack_packComponents_neg (s : Sign) (e : BitVec spec.exponentBits)
    (m : BitVec spec.mantissaBitsWithoutImplicit) :
    UnpackedFloat.unpack spec (packComponents spec (-s) e m) =
      (UnpackedFloat.unpack spec (packComponents spec s e m)).neg := by
  have hsign : Sign.ofBitVec (-s).toBitVec = -Sign.ofBitVec s.toBitVec := by cases s <;> rfl
  simp only [UnpackedFloat.unpack, unpackSign_packComponents, unpackExponent_packComponents,
    unpackMantissa_packComponents, hsign]
  split
  · split <;> rfl
  · split
    · split <;> rfl
    · rfl

theorem unpack_pack_neg (u : UnpackedFloat) :
    UnpackedFloat.unpack spec (UnpackedFloat.pack spec u.neg) =
    (UnpackedFloat.unpack spec (UnpackedFloat.pack spec u)).neg := by
  cases u with
  | notANumber => simp only [UnpackedFloat.neg, UnpackedFloat.pack, unpack_packedNaN]
  | infinity s => exact unpack_packComponents_neg ..
  | zero s => exact unpack_packComponents_neg ..
  | finite s m e hm =>
    simp only [UnpackedFloat.neg, UnpackedFloat.pack]
    split
    · exact unpack_packComponents_neg ..
    split
    · exact unpack_packComponents_neg ..
    · exact unpack_packComponents_neg ..

theorem roundWithAccuracy_neg (s : Sign) (m : Nat) (e : Int) (a : Accuracy) :
    roundWithAccuracy spec (-s) m e a = (roundWithAccuracy spec s m e a).neg := by
  unfold roundWithAccuracy
  dsimp only
  split <;> rfl

theorem round_neg (s : Sign) (m : Nat) (e : Int) :
    UnpackedFloat.round spec (-s) m e = (UnpackedFloat.round spec s m e).neg :=
  roundWithAccuracy_neg ..

theorem normalize_neg {m : Int} (hm : m ≠ 0) (e : Int) (s : Sign) :
    UnpackedFloat.normalize spec (-m) e s = (UnpackedFloat.normalize spec m e s).neg := by
  unfold UnpackedFloat.normalize
  rcases Int.lt_or_gt_of_ne hm with h | h
  · rw [Int.compare_eq_lt.mpr h, Int.compare_eq_gt.mpr (by omega)]
    exact round_neg .negative ..
  · rw [Int.compare_eq_gt.mpr h, Int.compare_eq_lt.mpr (by omega), Int.neg_neg]
    exact round_neg .positive ..

/-- Of two differences the one is the negative of the other, or both are zeros of any sign. -/
theorem sub_swap (u v : UnpackedFloat) :
    UnpackedFloat.sub spec v u = (UnpackedFloat.sub spec u v).neg ∨
    (∃ s, UnpackedFloat.sub spec u v = .zero s) ∧ ∃ s, UnpackedFloat.sub spec v u = .zero s := by
  cases u with
  | notANumber => cases v <;> exact .inl rfl
  | infinity s =>
    cases v with
    | infinity t =>
      left
      cases s <;> cases t <;> rfl
    | _ => exact .inl rfl
  | zero s =>
    cases v with
    | zero t =>
      right
      cases s <;> cases t <;> exact ⟨⟨_, rfl⟩, _, rfl⟩
    | infinity t => exact .inl (by simp [UnpackedFloat.sub, UnpackedFloat.neg, neg_neg_sign])
    | finite t => exact .inl (by simp [UnpackedFloat.sub, UnpackedFloat.neg, neg_neg_sign])
    | notANumber => exact .inl rfl
  | finite s m e hm =>
    cases v with
    | finite t n k hn =>
      simp only [UnpackedFloat.sub]
      rw [Int.min_comm k e, apply_sub_apply]
      by_cases hzero : s.apply (UnpackedFloat.decreaseExponent m e (min e k)).1 -
          t.apply (UnpackedFloat.decreaseExponent n k (min e k)).1 = 0
      · rw [hzero]
        exact .inr ⟨⟨_, rfl⟩, _, rfl⟩
      · exact .inl (normalize_neg hzero ..)
    | infinity t => exact .inl (by simp [UnpackedFloat.sub, UnpackedFloat.neg, neg_neg_sign])
    | _ => exact .inl rfl

theorem mul_neg_neg (u v : UnpackedFloat) :
    UnpackedFloat.mul spec u.neg v.neg = UnpackedFloat.mul spec u v := by
  cases u <;> cases v <;> simp only [UnpackedFloat.mul, UnpackedFloat.neg, neg_mul_neg_sign]

theorem unpack_sub (x y : Float) : (x - y).toModel.unpack = UnpackedFloat.unpack Format.binary64
    (UnpackedFloat.pack Format.binary64
      (UnpackedFloat.sub Format.binary64 x.toModel.unpack y.toModel.unpack)) := rfl

theorem mul_eq (x y : Float) : x * y = Float.ofModel (Float.Model.pack
    (UnpackedFloat.mul Format.binary64 x.toModel.unpack y.toModel.unpack)) := rfl

theorem unpack_one : (1 : Float).toModel.unpack = .finite .positive (2 ^ 52) (-52)
    (by decide) := rfl

theorem unpack_neg_one : (-1 : Float).toModel.unpack = (1 : Float).toModel.unpack.neg := rfl

theorem eq_zero_of_pack (s : Sign) :
    Float.ofModel (Float.Model.pack (.zero s)) = 0 ∨
      Float.ofModel (Float.Model.pack (.zero s)) = -0 := by
  cases s with
  | positive => exact .inl (by decide +kernel)
  | negative => exact .inr (by decide +kernel)

/-- Of two differences the one and minus the other are the same, except that they may be zeros of
different signs. -/
theorem one_mul_sub (x y : Float) : 1 * (x - y) = -1 * (y - x) ∨
    (1 * (x - y) = 0 ∨ 1 * (x - y) = -0) ∧ (-1 * (y - x) = 0 ∨ -1 * (y - x) = -0) := by
  obtain hneg | ⟨⟨s, hs⟩, t, ht⟩ := @sub_swap Format.binary64 x.toModel.unpack y.toModel.unpack
  · left
    rw [mul_eq, mul_eq, unpack_sub y, hneg, unpack_pack_neg, ← unpack_sub, unpack_neg_one,
      mul_neg_neg]
  · right
    have hx : (x - y).toModel.unpack = .zero s := by
      rw [unpack_sub, hs]
      exact unpack_packedZero
    have hy : (y - x).toModel.unpack = .zero t := by
      rw [unpack_sub, ht]
      exact unpack_packedZero
    rw [mul_eq, mul_eq, hx, hy, unpack_neg_one, unpack_one]
    exact ⟨eq_zero_of_pack _, eq_zero_of_pack _⟩

end Doubles

namespace Arc

def reversed (a : Arc) : Arc :=
  { a with
    startAngle := a.endAngle, endAngle := a.startAngle, orientation := a.orientation.flipped }

theorem turn_of_zero {t : Float} (h : t = 0 ∨ t = -0) : remainderOf t fullTurn < 1e-9 := by
  rcases h with rfl | rfl <;> decide +kernel

theorem turn_reversed (a : Arc) : a.reversed.turn = a.turn := by
  have hturn : ∀ x y : Float,
      (if remainderOf (1 * (x - y)) fullTurn < 1e-9 then fullTurn
        else remainderOf (1 * (x - y)) fullTurn) =
        if remainderOf (-1 * (y - x)) fullTurn < 1e-9 then fullTurn
            else remainderOf (-1 * (y - x)) fullTurn := by
    intro x y
    rcases one_mul_sub x y with h | ⟨hx, hy⟩
    · rw [h]
    · rw [if_pos (turn_of_zero hx), if_pos (turn_of_zero hy)]
  obtain ⟨center, radius, start, finish, orientation⟩ := a
  cases orientation with
  | counterClockwise => exact (hturn finish start).symm
  | clockwise => exact hturn start finish

theorem pieces_reversed (a : Arc) : a.reversed.pieces = a.pieces := by
  unfold pieces
  rw [turn_reversed]

end Arc

/-- A line has four points, a circle four times as many, and an arc four for each of its pieces.
Nothing else has any. -/
def Segment.pointCount : Segment → Nat
  | .line .. => 4
  | .circle .. => 16
  | .arc a => 4 * a.pieces
  | .point _ => 0
  | .unsupported _ => 0

namespace Segment

variable {s t : Segment} {segments result : List Segment}

theorem length_cubics (s : Segment) : 4 * s.cubics.length = s.pointCount := by
  cases s with
  | arc a => simp [cubics, Arc.cubics, pointCount]
  | _ => rfl

theorem pointCount_reversed (s : Segment) : s.reversed.pointCount = s.pointCount := by
  cases s with
  | arc a => exact congrArg (4 * ·) a.pieces_reversed
  | _ => rfl

theorem Turned.pointCount_eq (h : Turned s t) : t.pointCount = s.pointCount := by
  rcases h with rfl | rfl
  · rfl
  · exact pointCount_reversed s

theorem pointCount_of_not_isCurve (h : ¬s.isCurve = true) : s.pointCount = 0 := by
  cases s with
  | point => rfl
  | unsupported => rfl
  | _ => exact absurd rfl h

theorem length_flatMap_cubics (segments : List Segment) :
    4 * (segments.flatMap cubics).length = (segments.map pointCount).sum := by
  induction segments with
  | nil => rfl
  | cons s segments ih =>
    rw [List.flatMap_cons, List.length_append, Nat.mul_add, ih, length_cubics, List.map_cons,
      List.sum_cons]

theorem sum_pointCount_filter (segments : List Segment) :
    ((segments.filter isCurve).map pointCount).sum = (segments.map pointCount).sum := by
  induction segments with
  | nil => rfl
  | cons s segments ih =>
    rw [List.map_cons, List.sum_cons, ← ih]
    by_cases hs : s.isCurve = true
    · rw [List.filter_cons_of_pos hs, List.map_cons, List.sum_cons]
    · rw [List.filter_cons_of_neg hs, pointCount_of_not_isCurve hs, Nat.zero_add]

end Segment

theorem pointCount_of_turned {taken run : List Segment}
    (h : List.Forall₂ Segment.Turned taken run) :
    run.map Segment.pointCount = taken.map Segment.pointCount := by
  induction h with
  | nil => rfl
  | cons hst _ ih => rw [List.map_cons, List.map_cons, hst.pointCount_eq, ih]

theorem Rearranged.sum_pointCount {segments result : List Segment}
    (h : Rearranged segments result) :
    (result.map Segment.pointCount).sum = (segments.map Segment.pointCount).sum := by
  obtain ⟨order, hperm, hturned⟩ := h
  rw [pointCount_of_turned hturned, (hperm.map Segment.pointCount).sum_eq]

/-- Every curve of the sketch gives its points to the profile, in whatever direction it is taken. -/
theorem Sketch.pointCount_of_profile {s : Sketch} {p : Profile} (h : s.profile = .ok p) :
    p.pointCount = (s.profileSegments.map Segment.pointCount).sum := by
  obtain ⟨loops, houtlines, hcubics⟩ := outlines_of_profile h
  obtain ⟨hrearranged, _⟩ := outlines_spec isCurve_of_mem_filter houtlines
  rw [Profile.pointCount, hcubics, Nat.mul_comm, Segment.length_flatMap_cubics,
    hrearranged.sum_pointCount, Segment.sum_pointCount_filter]

end RayScene
