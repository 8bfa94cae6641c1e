import Mathlib.Analysis.Quaternion
import Mathlib.Geometry.Euclidean.Angle.Unoriented.Basic
import Mathlib.Tactic.FieldSimp
import Mathlib.Tactic.Linarith

/-!
# The inclination of an orientation

A non-zero real quaternion `q` rotates a vector `v` to `q * v * q⁻¹`. Its inclination is the angle between
the vertical and where it takes the vertical to. `inclination_eq` is the formula in the components; a turn about
the vertical, before or after, does not change the inclination.
-/

namespace Inclination

/-- The vertical. -/
def up : Quaternion ℝ := ⟨0, 0, 0, 1⟩

@[simp] theorem up_re : up.re = 0 := rfl

@[simp] theorem up_imI : up.imI = 0 := rfl

@[simp] theorem up_imJ : up.imJ = 0 := rfl

@[simp] theorem up_imK : up.imK = 1 := rfl

noncomputable def inclination (q : Quaternion ℝ) : ℝ := InnerProductGeometry.angle up (q * up * q⁻¹)

/-- A turn about the vertical. -/
def Heading (p : Quaternion ℝ) : Prop := p ≠ 0 ∧ p.imI = 0 ∧ p.imJ = 0

variable {p q : Quaternion ℝ}

theorem inner_up (v : Quaternion ℝ) : inner ℝ up v = v.imK := by
  rw [Quaternion.inner_def]
  simp

theorem norm_up : ‖up‖ = 1 := by
  have hnorm := Quaternion.normSq_eq_norm_mul_self up
  have hone : Quaternion.normSq up = 1 := by simp [Quaternion.normSq_def']
  nlinarith [norm_nonneg up]

theorem norm_rotated (hq : q ≠ 0) : ‖q * up * q⁻¹‖ = 1 := by
  rw [norm_mul, norm_mul, norm_inv, norm_up, mul_one]
  exact mul_inv_cancel₀ (norm_ne_zero_iff.2 hq)

theorem rotated_imK (q : Quaternion ℝ) :
    (q * up * q⁻¹).imK = (q.re ^ 2 + q.imK ^ 2 - q.imI ^ 2 - q.imJ ^ 2) / Quaternion.normSq q := by
  rw [Quaternion.inv_def]
  simp
  ring

theorem inclination_eq (hq : q ≠ 0) :
    inclination q = Real.arccos (1 - 2 * (q.imI ^ 2 + q.imJ ^ 2) / Quaternion.normSq q) := by
  have hpos : Quaternion.normSq q ≠ 0 := Quaternion.normSq_ne_zero.2 hq
  unfold inclination InnerProductGeometry.angle
  rw [inner_up, norm_up, norm_rotated hq, rotated_imK]
  congr 1
  field_simp
  rw [Quaternion.normSq_def']
  ring

theorem Heading.comm (hp : Heading p) : p * up = up * p := by
  obtain ⟨-, hi, hj⟩ := hp
  ext <;> simp [hi, hj]

/-- A turn about the vertical of the body. -/
theorem inclination_mul_heading (hp : Heading p) (q : Quaternion ℝ) : inclination (q * p) = inclination q := by
  have hturn : q * p * up * (q * p)⁻¹ = q * up * q⁻¹ := by
    rw [mul_inv_rev, mul_assoc q, hp.comm]
    simp only [mul_assoc]
    rw [mul_inv_cancel_left₀ hp.1]
  unfold inclination
  rw [hturn]

/-- A turn about the vertical of the world. -/
theorem inclination_heading_mul (hp : Heading p) (hq : q ≠ 0) : inclination (p * q) = inclination q := by
  have hpq : p * q ≠ 0 := mul_ne_zero hp.1 hq
  obtain ⟨hp0, hi, hj⟩ := hp
  have hnp : Quaternion.normSq p ≠ 0 := Quaternion.normSq_ne_zero.2 hp0
  have hnq : Quaternion.normSq q ≠ 0 := Quaternion.normSq_ne_zero.2 hq
  rw [inclination_eq hpq, inclination_eq hq, map_mul]
  have hsame : (p * q).imI ^ 2 + (p * q).imJ ^ 2 = Quaternion.normSq p * (q.imI ^ 2 + q.imJ ^ 2) := by
    simp [Quaternion.normSq_def', hi, hj]
    ring
  rw [hsame]
  congr 1
  field_simp

/-- An angle against the angle of a sine, without either of them. -/
theorem arcsin_le_arccos_iff {s z : ℝ} (hs : 0 ≤ s) (hz : -1 ≤ z) (hz' : z ≤ 1) :
    Real.arcsin s ≤ Real.arccos z ↔ z ≤ 0 ∨ z * z ≤ 1 - s * s := by
  have hroot : 0 ≤ √(1 - s ^ 2) := Real.sqrt_nonneg _
  have hroot' : √(1 - s ^ 2) ≤ 1 := by
    rw [Real.sqrt_le_one]
    nlinarith
  rw [Real.arcsin_eq_arccos hs, Real.strictAntiOn_arccos.le_iff_ge ⟨by linarith, hroot'⟩ ⟨hz, hz'⟩]
  rcases le_or_gt z 0 with hneg | hpos
  · exact iff_of_true (hneg.trans hroot) (.inl hneg)
  · rw [Real.le_sqrt' hpos, or_iff_right (not_le.2 hpos), sq, sq]

end Inclination
