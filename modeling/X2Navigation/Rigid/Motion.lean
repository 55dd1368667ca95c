import Mathlib.LinearAlgebra.Matrix.Adjugate
import Mathlib.LinearAlgebra.Matrix.NonsingularInverse
import Mathlib.Tactic.LinearCombination
import X2Navigation.Rigid.Isometry

/-! Rigid motions as a group. Where the matrix is a rotation, the inverse that is read off the
transpose is an inverse, and the cross product goes along with the rotation. -/

namespace X2Navigation.Rigid

open Matrix

variable {K : Type*} [CommRing K]

/-! ### Rotations -/

structure IsRotation (R : Matrix (Fin 3) (Fin 3) K) : Prop where
  transpose_mul : Rᵀ * R = 1
  det : R.det = 1

theorem isRotation_one : IsRotation (1 : Matrix (Fin 3) (Fin 3) K) :=
  ⟨by rw [transpose_one, one_mul], det_one⟩

/-- The cross product of images is the image of the cross product under the cofactors. -/
theorem mulVec_cross_mulVec (M : Matrix (Fin 3) (Fin 3) K) (v w : Fin 3 → K) :
    (M *ᵥ v) ⨯₃ (M *ᵥ w) = M.adjugateᵀ *ᵥ (v ⨯₃ w) := by
  rw [adjugate_fin_three, cross_apply, cross_apply]
  ext i
  fin_cases i <;> simp [mulVec, dotProduct, Fin.sum_univ_three] <;> ring

namespace IsRotation

variable {R S : Matrix (Fin 3) (Fin 3) K}

theorem mul_transpose (h : IsRotation R) : R * Rᵀ = 1 := mul_eq_one_comm.mp h.transpose_mul

theorem transpose (h : IsRotation R) : IsRotation Rᵀ :=
  ⟨by rw [transpose_transpose, h.mul_transpose], by rw [det_transpose, h.det]⟩

theorem mul (h : IsRotation R) (h' : IsRotation S) : IsRotation (R * S) := by
  constructor
  · calc (R * S)ᵀ * (R * S) = Sᵀ * (Rᵀ * R) * S := by
          rw [Matrix.transpose_mul]
          simp only [Matrix.mul_assoc]
      _ = 1 := by rw [h.transpose_mul, Matrix.mul_one, h'.transpose_mul]
  · rw [det_mul, h.det, h'.det, one_mul]

theorem adjugate_eq (h : IsRotation R) : R.adjugate = Rᵀ := by
  calc R.adjugate = R.adjugate * (R * Rᵀ) := by rw [h.mul_transpose, Matrix.mul_one]
    _ = R.det • Rᵀ := by
        rw [← Matrix.mul_assoc, adjugate_mul, Matrix.smul_mul, Matrix.one_mul]
    _ = Rᵀ := by rw [h.det, one_smul]

theorem mulVec_cross (h : IsRotation R) (v w : Fin 3 → K) :
    R *ᵥ (v ⨯₃ w) = (R *ᵥ v) ⨯₃ (R *ᵥ w) := by
  rw [mulVec_cross_mulVec, h.adjugate_eq, transpose_transpose]

theorem mul_skew (h : IsRotation R) (v : Fin 3 → K) : R * skew v = skew (R *ᵥ v) * R := by
  apply mulVec_injective
  funext w
  rw [← mulVec_mulVec, ← mulVec_mulVec, skew_mulVec, skew_mulVec, h.mulVec_cross]

/-- A rotation turns the axis of a cross product. -/
theorem mul_skew_mul_transpose (h : IsRotation R) (v : Fin 3 → K) :
    R * skew v * Rᵀ = skew (R *ᵥ v) := by
  rw [h.mul_skew, Matrix.mul_assoc, h.mul_transpose, Matrix.mul_one]

end IsRotation

/-- A quaternion of norm one stands for a rotation. -/
theorem isRotation_toRotationMatrix {q : Quaterniond K} (h : q.squaredNorm = 1) :
    IsRotation (toRotationMatrix q) := by
  unfold Quaterniond.squaredNorm at h
  constructor
  · ext i j
    fin_cases i <;> fin_cases j <;>
      simp [toRotationMatrix, Matrix.mul_apply, Fin.sum_univ_three]
    · linear_combination 4 * (q.y * q.y + q.z * q.z) * h
    · linear_combination -4 * (q.x * q.y) * h
    · linear_combination -4 * (q.x * q.z) * h
    · linear_combination -4 * (q.x * q.y) * h
    · linear_combination 4 * (q.x * q.x + q.z * q.z) * h
    · linear_combination -4 * (q.y * q.z) * h
    · linear_combination -4 * (q.x * q.z) * h
    · linear_combination -4 * (q.y * q.z) * h
    · linear_combination 4 * (q.x * q.x + q.y * q.y) * h
  · rw [det_fin_three]
    simp only [toRotationMatrix, of_apply, cons_val', cons_val_zero, cons_val_one, cons_val]
    linear_combination 4 * (q.x * q.x + q.y * q.y + q.z * q.z) * h

/-! ### Motions -/

namespace Isometry3

instance : Monoid (Isometry3 K) where
  mul_assoc a b c := by
    simp only [mul_def, Matrix.mul_assoc, mulVec_add, mulVec_mulVec, add_assoc]
  one_mul a := by simp only [mul_def, one_def, Matrix.one_mul, one_mulVec, add_zero]
  mul_one a := by simp only [mul_def, one_def, Matrix.mul_one, mulVec_zero, zero_add]

def IsRigid (a : Isometry3 K) : Prop := IsRotation a.linear

namespace IsRigid

variable {a b : Isometry3 K}

theorem mul (ha : a.IsRigid) (hb : b.IsRigid) : (a * b).IsRigid := IsRotation.mul ha hb

theorem inverse (ha : a.IsRigid) : a.inverse.IsRigid := IsRotation.transpose ha

theorem mul_inverse (ha : a.IsRigid) : a * a.inverse = 1 := by
  rw [mul_def, one_def, Isometry3.inverse, mulVec_neg, mulVec_mulVec, IsRotation.mul_transpose ha,
    one_mulVec, neg_add_cancel]

theorem inverse_mul (ha : a.IsRigid) : a.inverse * a = 1 := by
  rw [mul_def, one_def, Isometry3.inverse, IsRotation.transpose_mul ha, add_neg_cancel]

theorem inverse_inverse (ha : a.IsRigid) : a.inverse.inverse = a :=
  (left_inv_eq_right_inv ha.mul_inverse ha.inverse.mul_inverse).symm

/-- The inverse of a composition is the composition of the inverses. -/
theorem mul_inverse_rev (ha : a.IsRigid) (hb : b.IsRigid) :
    (a * b).inverse = b.inverse * a.inverse := by
  refine left_inv_eq_right_inv (ha.mul hb).inverse_mul ?_
  calc a * b * (b.inverse * a.inverse) = a * (b * b.inverse) * a.inverse := by
        simp only [mul_assoc]
    _ = 1 := by rw [hb.mul_inverse, mul_one, ha.mul_inverse]

end IsRigid

end Isometry3

end X2Navigation.Rigid
