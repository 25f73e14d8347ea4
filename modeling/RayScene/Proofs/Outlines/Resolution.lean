import Mathlib
import RayScene.Sketch.Outline
/-!
Points at the resolution of a sketch. Rounding leaves a number a number, and no rounded coordinate
is a negative zero, so that points are the same exactly when they round to one point.

Mathlib is imported whole for `Float.nan` and the lemmas about it: of its modules only one on the
digits of π brings them along.
-/
set_option autoImplicit false

namespace RayScene

section Doubles

open Float.Model
open Float.Model.UnpackedFloat (Sign packComponents packedInfinity packedNaN roundWithAccuracy
  unpackExponent_packComponents unpackMantissa_packComponents)

theorem packComponents_inj {s s' : Sign} {e e' : BitVec Format.binary64.exponentBits}
    {m m' : BitVec Format.binary64.mantissaBitsWithoutImplicit}
    (h : packComponents Format.binary64 s e m = packComponents Format.binary64 s' e' m') :
    e = e' ∧ m = m' := by
  have he := congrArg UnpackedFloat.unpackExponent h
  have hm := congrArg UnpackedFloat.unpackMantissa h
  simp only [unpackExponent_packComponents, unpackMantissa_packComponents] at he hm
  exact ⟨he, hm⟩

theorem pack_ne_packedNaN {u : UnpackedFloat} (hu : u ≠ .notANumber) :
    UnpackedFloat.pack Format.binary64 u ≠ packedNaN Format.binary64 := by
  have hinfinite : ∀ s, packedInfinity Format.binary64 s ≠ packedNaN Format.binary64 :=
    fun s h => absurd (packComponents_inj h).2 (by decide)
  have hsmall : ∀ s m, packComponents Format.binary64 s (.ofNat _ 0) m ≠
      packedNaN Format.binary64 :=
    fun s m h => absurd (packComponents_inj h).1 (by decide)
  fun_cases UnpackedFloat.pack with
  | case1 => exact absurd rfl hu
  | case2 s => exact hinfinite s
  | case3 s => exact hsmall s _
  | case4 s m e hm biased h => exact hinfinite s
  | case5 s m e hm bits biased hfits hnormal =>
    intro h
    have he := congrArg BitVec.toNat (packComponents_inj h).1
    have hpow : 2 ^ Format.binary64.exponentBits = 2048 := rfl
    have hones : (-BitVec.ofNat Format.binary64.exponentBits 1).toNat = 2047 := by decide
    rw [BitVec.toNat_ofNat, hones, hpow, Nat.mod_eq_of_lt (by omega)] at he
    omega
  | case6 s m e hm bits biased hfits hsub => exact hsmall s _

theorem toBits_nan : Float.nan.toBits.toBitVec = packedNaN Format.binary64 := by decide +kernel

theorem ofModel_pack_ne_nan {u : UnpackedFloat} (hu : u ≠ .notANumber) :
    Float.ofModel (Float.Model.pack u) ≠ Float.nan := by
  intro h
  have hbits := congrArg (·.toBits.toBitVec) h
  exact pack_ne_packedNaN hu (hbits.trans toBits_nan)

theorem unpack_ne_notANumber {x : Float} (hx : x ≠ Float.nan) :
    x.toModel.unpack ≠ .notANumber := by
  intro hu
  apply hx
  have hbits := (UnpackedFloat.unpack_eq_notANumber_iff_of_valid x.toModel.valid).mp hu
  rw [← Float.toBits_inj, ← UInt64.toBitVec_inj, toBits_nan]
  exact hbits

theorem roundWithAccuracy_ne_notANumber {s : Sign} {m : Nat} {e : Int}
    {a : UnpackedFloat.Accuracy} :
    roundWithAccuracy Format.binary64 s m e a ≠ .notANumber := by
  unfold roundWithAccuracy
  dsimp only
  split <;> nofun

/-- What is computed from a number is a number unless one of its cases leads to something else. -/
theorem ofModel_pack_ne_nan_of_cases {x : Float} (hx : x ≠ Float.nan)
    {f : UnpackedFloat → UnpackedFloat} (hinfinity : ∀ s, f (.infinity s) ≠ .notANumber)
    (hzero : ∀ s, f (.zero s) ≠ .notANumber)
    (hfinite : ∀ s m e h, f (.finite s m e h) ≠ .notANumber) :
    Float.ofModel (Float.Model.pack (f x.toModel.unpack)) ≠ Float.nan := by
  apply ofModel_pack_ne_nan
  cases hu : x.toModel.unpack with
  | notANumber => exact absurd hu (unpack_ne_notANumber hx)
  | infinity s => exact hinfinity s
  | zero s => exact hzero s
  | finite s m e h => exact hfinite s m e h

def thousand : UnpackedFloat := .finite .positive (1000 * 2 ^ 43) (-43) (by decide)

theorem mul_thousand_ne_nan {x : Float} (hx : x ≠ Float.nan) : x * 1000 ≠ Float.nan :=
  ofModel_pack_ne_nan_of_cases (f := (UnpackedFloat.mul Format.binary64 · thousand)) hx
    (fun _ => nofun) (fun _ => nofun) fun _ _ _ _ => roundWithAccuracy_ne_notANumber

theorem div_thousand_ne_nan {x : Float} (hx : x ≠ Float.nan) : x / 1000 ≠ Float.nan :=
  ofModel_pack_ne_nan_of_cases (f := (UnpackedFloat.div Format.binary64 · thousand)) hx
    (fun _ => nofun) (fun _ => nofun) fun _ _ _ _ => roundWithAccuracy_ne_notANumber

theorem neg_ne_nan {x : Float} (hx : x ≠ Float.nan) : -x ≠ Float.nan :=
  ofModel_pack_ne_nan_of_cases (f := UnpackedFloat.neg) hx
    (fun _ => nofun) (fun _ => nofun) fun _ _ _ _ => nofun

theorem toFloat_ne_nan (n : UInt64) : n.toFloat ≠ Float.nan := by
  apply ofModel_pack_ne_nan
  unfold UnpackedFloat.ofUInt64 UnpackedFloat.ofNat UnpackedFloat.ofInt UnpackedFloat.normalize
  split
  · exact roundWithAccuracy_ne_notANumber
  · nofun
  · exact roundWithAccuracy_ne_notANumber

theorem nearestWhole_ne_nan {x : Float} (hx : x ≠ Float.nan) : nearestWhole x ≠ Float.nan := by
  unfold nearestWhole
  split
  · split
    · exact hx
    · dsimp only
      split
      · exact neg_ne_nan (toFloat_ne_nan _)
      · exact toFloat_ne_nan _
  · exact hx

theorem unsignedZero_ne_nan {x : Float} (hx : x ≠ Float.nan) : unsignedZero x ≠ Float.nan := by
  unfold unsignedZero
  split
  · decide +kernel
  · exact hx

theorem roundThree_eq_nan_iff {x : Float} : roundThree x = Float.nan ↔ x = Float.nan := by
  constructor
  · intro h
    by_contra hx
    have hwhole := nearestWhole_ne_nan (mul_thousand_ne_nan hx)
    exact unsignedZero_ne_nan (div_thousand_ne_nan hwhole) h
  · rintro rfl
    decide +kernel

theorem roundThree_ne_neg_zero (x : Float) : roundThree x ≠ -0 := by
  unfold roundThree unsignedZero
  split
  · decide +kernel
  · rename_i hzero
    intro h
    rw [h] at hzero
    exact hzero (by decide +kernel)

/-- Among rounded coordinates the comparison of doubles is equality, except that what is not a
number is not even equal to itself. -/
theorem roundThree_beq_iff {x y : Float} :
    (roundThree x == roundThree y) = true ↔ roundThree x = roundThree y ∧ x ≠ Float.nan := by
  rw [Float.beq_iff_ne_nan_and_eq, ne_eq, roundThree_eq_nan_iff]
  constructor
  · rintro ⟨hx, _, h | ⟨_, h⟩ | ⟨h, _⟩⟩
    · exact ⟨h, hx⟩
    · exact absurd h (roundThree_ne_neg_zero y)
    · exact absurd h (roundThree_ne_neg_zero x)
  · rintro ⟨h, hx⟩
    exact ⟨hx, by rwa [← h, ne_eq, roundThree_eq_nan_iff], .inl h⟩

end Doubles

def Vec2.IsPlace (p : Vec2) : Prop := p.x ≠ Float.nan ∧ p.y ≠ Float.nan

variable {a b c p : Vec2}

theorem samePoint_iff : samePoint a b = true ↔ a.rounded = b.rounded ∧ a.IsPlace := by
  unfold samePoint
  rw [Bool.and_eq_true, roundThree_beq_iff, roundThree_beq_iff]
  simp only [Vec2.rounded, Vec2.map, Vec2.mk.injEq, Vec2.IsPlace]
  tauto

theorem samePoint_self_iff : samePoint p p = true ↔ p.IsPlace := by simp [samePoint_iff]

theorem isPlace_of_rounded_eq (h : a.rounded = b.rounded) (ha : a.IsPlace) : b.IsPlace := by
  simp only [Vec2.rounded, Vec2.map, Vec2.mk.injEq] at h
  obtain ⟨hx, hy⟩ := ha
  rw [ne_eq, ← roundThree_eq_nan_iff] at hx hy
  exact ⟨by rwa [ne_eq, ← roundThree_eq_nan_iff, ← h.1],
    by rwa [ne_eq, ← roundThree_eq_nan_iff, ← h.2]⟩

theorem samePoint_symm (h : samePoint a b = true) : samePoint b a = true := by
  obtain ⟨hround, ha⟩ := samePoint_iff.mp h
  exact samePoint_iff.mpr ⟨hround.symm, isPlace_of_rounded_eq hround ha⟩

theorem samePoint_trans (hab : samePoint a b = true) (hbc : samePoint b c = true) :
    samePoint a c = true := by
  obtain ⟨hround, ha⟩ := samePoint_iff.mp hab
  obtain ⟨hround', _⟩ := samePoint_iff.mp hbc
  exact samePoint_iff.mpr ⟨hround.trans hround', ha⟩

theorem samePoint_congr (h : samePoint a b = true) (p : Vec2) : samePoint a p = samePoint b p := by
  rw [Bool.eq_iff_iff]
  exact ⟨samePoint_trans (samePoint_symm h), samePoint_trans h⟩

end RayScene
