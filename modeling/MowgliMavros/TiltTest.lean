import MowgliMavros.Lib.Inclination
import MowgliMavros.ObservedHistory

/-!
# The tilt test of an IMU message (`on_mavros_imu`)

The outcome that `Callback.mavrosImu` carries, from the orientation of the message. `tilted` is the source in
real arithmetic: the single roundings of the floating-point operations are left out. `tiltTest` decides it in
rational arithmetic, and both say that the inclination of the orientation reaches the threshold
(`tilted_iff`, `tiltTest_iff`).
-/

namespace MowgliMavros
namespace Bridge

/-- `geometry_msgs/Quaternion`. -/
structure Orientation where
  x : Rat
  y : Rat
  z : Rat
  w : Rat
deriving DecidableEq

namespace Orientation
variable (q : Orientation) (imuInclinationThreshold : Int)

noncomputable def norm : ℝ := √((q.x : ℝ) * q.x + q.y * q.y + q.z * q.z + q.w * q.w)

/-- The cosine of the inclination. -/
noncomputable def zAxisUp : ℝ :=
  max (-1) (min 1 (1 - 2 * (q.x / q.norm * (q.x / q.norm) + q.y / q.norm * (q.y / q.norm))))

/-- The threshold as a part of gravity. -/
def thresholdG : Rat := max 0 (min 1 (imuInclinationThreshold * (16 / 1000)))

/-- An orientation without a direction is not tilted. -/
def tilted : Prop :=
  q.norm > 1 / 1000000000 ∧ Real.arccos q.zAxisUp ≥ Real.arcsin (thresholdG imuInclinationThreshold)

def normSq : Rat := q.x * q.x + q.y * q.y + q.z * q.z + q.w * q.w

/-- The test without a root or an angle. -/
def tiltTest : Bool :=
  let zAxisUp := 1 - 2 * (q.x * q.x + q.y * q.y) / q.normSq
  q.normSq > 1 / 1000000000000000000 &&
    (zAxisUp ≤ 0 || zAxisUp * zAxisUp ≤ 1 - thresholdG imuInclinationThreshold * thresholdG imuInclinationThreshold)

/-- The rotation of the body. -/
def rotation : Quaternion ℝ := ⟨q.w, q.x, q.y, q.z⟩

end Orientation

open Classical in
/-- The callback of a message; `none` is an orientation whose norm is not finite. -/
noncomputable def imuCallback (imuInclinationThreshold : Int) (orientation : Option Orientation) : Callback :=
  .mavrosImu (decide (∃ q, orientation = some q ∧ q.tilted imuInclinationThreshold))

namespace Orientation
open Inclination
variable {q : Orientation} {imuInclinationThreshold : Int}

theorem normSq_rotation (q : Orientation) : Quaternion.normSq q.rotation = (q.normSq : ℝ) := by
  rw [Quaternion.normSq_def']
  simp [rotation, normSq]
  ring

theorem norm_eq (q : Orientation) : q.norm = √(q.normSq : ℝ) := by
  simp [norm, normSq]

theorem normSq_nonneg (q : Orientation) : (0 : ℝ) ≤ q.normSq := by
  rw [← normSq_rotation]
  exact Quaternion.normSq_nonneg

theorem norm_sq (q : Orientation) : q.norm * q.norm = q.normSq := by
  rw [norm_eq]
  exact Real.mul_self_sqrt (normSq_nonneg q)

theorem norm_rotation (q : Orientation) : ‖q.rotation‖ = q.norm := by
  have hsq := Quaternion.normSq_eq_norm_mul_self q.rotation
  rw [normSq_rotation, ← norm_sq] at hsq
  have hnorm : 0 ≤ q.norm := Real.sqrt_nonneg _
  exact ((mul_self_inj hnorm (norm_nonneg _)).1 hsq).symm

/-- The cosine before the clamp. -/
noncomputable def cosine (q : Orientation) : ℝ := 1 - 2 * (q.x * q.x + q.y * q.y) / q.normSq

theorem cosine_bounds (hpos : (0 : ℝ) < q.normSq) : -1 ≤ q.cosine ∧ q.cosine ≤ 1 := by
  have hpart : ((q.x : ℝ) * q.x + q.y * q.y) / q.normSq ≤ 1 := by
    rw [div_le_one hpos]
    simp only [normSq]
    push_cast
    nlinarith [mul_self_nonneg (q.z : ℝ), mul_self_nonneg (q.w : ℝ)]
  have hnonneg : 0 ≤ ((q.x : ℝ) * q.x + q.y * q.y) / q.normSq :=
    div_nonneg (add_nonneg (mul_self_nonneg _) (mul_self_nonneg _)) hpos.le
  unfold cosine
  rw [mul_div_assoc]
  constructor <;> linarith

/-- The clamp changes nothing. -/
theorem zAxisUp_eq (hpos : (0 : ℝ) < q.normSq) : q.zAxisUp = q.cosine := by
  have hsq := norm_sq q
  have hnorm : q.norm ≠ 0 := by
    rintro hzero
    rw [hzero, mul_zero] at hsq
    exact hpos.ne hsq
  have hraw : 1 - 2 * ((q.x : ℝ) / q.norm * (q.x / q.norm) + q.y / q.norm * (q.y / q.norm)) = q.cosine := by
    unfold cosine
    rw [← hsq]
    field_simp
  obtain ⟨hlow, hhigh⟩ := cosine_bounds hpos
  unfold zAxisUp
  rw [hraw, min_eq_right hhigh, max_eq_right hlow]

theorem thresholdG_nonneg (imuInclinationThreshold : Int) : (0 : ℝ) ≤ thresholdG imuInclinationThreshold := by
  unfold thresholdG
  exact_mod_cast le_max_left _ _

theorem normSq_pos_of_norm (h : q.norm > 1 / 1000000000) : (0 : ℝ) < q.normSq := by
  rw [← norm_sq]
  have : 0 < q.norm := by linarith
  positivity

/-- The norm is above its bound exactly when its square is above the square of the bound. -/
theorem norm_gt_iff (q : Orientation) : q.norm > 1 / 1000000000 ↔ q.normSq > 1 / 1000000000000000000 := by
  have hnorm : 0 ≤ q.norm := Real.sqrt_nonneg _
  have hcast : q.normSq > 1 / 1000000000000000000 ↔ (q.normSq : ℝ) > 1 / 1000000000000000000 := by
    constructor
    · intro h
      have := (Rat.cast_lt (K := ℝ)).2 h
      push_cast at this
      exact this
    · intro h
      refine (Rat.cast_lt (K := ℝ)).1 ?_
      push_cast
      exact h
  rw [hcast, ← norm_sq]
  constructor
  · intro h
    nlinarith
  · intro h
    by_contra hle
    nlinarith

/-- An orientation is tilted when it has a direction, and that inclines to the threshold. -/
theorem tilted_iff (q : Orientation) (imuInclinationThreshold : Int) : q.tilted imuInclinationThreshold ↔
    ‖q.rotation‖ > 1 / 1000000000 ∧
      inclination q.rotation ≥ Real.arcsin (thresholdG imuInclinationThreshold) := by
  rw [norm_rotation]
  refine and_congr_right fun hnorm => ?_
  have hpos := normSq_pos_of_norm hnorm
  have hne : q.rotation ≠ 0 := by
    rw [← norm_ne_zero_iff, norm_rotation]
    linarith
  rw [zAxisUp_eq hpos, inclination_eq hne, normSq_rotation]
  unfold cosine rotation
  rw [sq, sq]

theorem tiltTest_iff (q : Orientation) (imuInclinationThreshold : Int) :
    q.tiltTest imuInclinationThreshold = true ↔ q.tilted imuInclinationThreshold := by
  unfold tiltTest tilted
  rw [norm_gt_iff, Bool.and_eq_true, decide_eq_true_iff]
  refine and_congr_right fun hsq => ?_
  have hpos : (0 : ℝ) < q.normSq := normSq_pos_of_norm ((norm_gt_iff q).2 hsq)
  have hlow := thresholdG_nonneg imuInclinationThreshold
  obtain ⟨hz, hz'⟩ := cosine_bounds hpos
  rw [zAxisUp_eq hpos, ge_iff_le, arcsin_le_arccos_iff hlow hz hz', Bool.or_eq_true, decide_eq_true_iff,
    decide_eq_true_iff]
  have hcast : ((1 - 2 * (q.x * q.x + q.y * q.y) / q.normSq : Rat) : ℝ) = q.cosine := by
    unfold cosine
    push_cast
    rfl
  rw [← hcast]
  constructor
  · rintro (h | h)
    · exact .inl (by exact_mod_cast h)
    · exact .inr (by exact_mod_cast h)
  · rintro (h | h)
    · exact .inl (by exact_mod_cast h)
    · exact .inr (by exact_mod_cast h)

/-- A turn about the vertical, of the body or of the world, does not change the outcome. -/
theorem tilted_of_heading {q q' : Orientation} {p p' : Quaternion ℝ} (hp : Heading p) (hp' : Heading p')
    (hone : ‖p‖ = 1) (hone' : ‖p'‖ = 1) (hturned : q'.rotation = p * q.rotation * p') :
    q'.tilted imuInclinationThreshold ↔ q.tilted imuInclinationThreshold := by
  rw [tilted_iff, tilted_iff, hturned, norm_mul, norm_mul, hone, hone', one_mul, mul_one]
  refine and_congr_right fun hnorm => ?_
  have hne : q.rotation ≠ 0 := by
    rw [← norm_ne_zero_iff]
    linarith
  rw [inclination_mul_heading hp', inclination_heading_mul hp hne]

/-- An upright orientation, one on its side and one upside down. -/
example : tiltTest ⟨0, 0, 0, 1⟩ 56 = false ∧ tiltTest ⟨1, 0, 0, 1⟩ 56 = true ∧ tiltTest ⟨1, 0, 0, 0⟩ 56 = true := by
  decide +kernel

end Orientation

/-- The outcome of the test is a rational one, and it is what the angle of the orientation says. -/
theorem imuCallback_iff (imuInclinationThreshold : Int) (orientation : Option Orientation) :
    imuCallback imuInclinationThreshold orientation =
        .mavrosImu (orientation.any (·.tiltTest imuInclinationThreshold)) ∧
      (imuCallback imuInclinationThreshold orientation = .mavrosImu true ↔
        ∃ q, orientation = some q ∧ ‖q.rotation‖ > 1 / 1000000000 ∧
          Inclination.inclination q.rotation ≥ Real.arcsin (Orientation.thresholdG imuInclinationThreshold)) := by
  classical
  unfold imuCallback
  constructor
  · congr 1
    rw [Bool.eq_iff_iff, decide_eq_true_iff, Option.any_eq_true]
    simp only [Orientation.tiltTest_iff]
  · rw [Callback.mavrosImu.injEq, decide_eq_true_iff]
    simp only [Orientation.tilted_iff]

end Bridge
end MowgliMavros
