import Mathlib.Analysis.Real.Sqrt
import X2Navigation.Odometry.Transform

/-! Does the published twist covariance belong to the published twist? The
velocity of the base is a linear image of the velocity of the sensor, and an
error of the sensor velocity is carried by the same map. The code writes that
map twice, once as a cross product and once as a block matrix, and the lever arm
enters the two with opposite signs. The covariance is right exactly where the
sign cannot be seen. -/

namespace X2Navigation

open Matrix Rigid

section Velocity
variable {K : Type*}

def twistVector (twist : Twist K) : Axes → K :=
  Sum.elim twist.linear.toFun twist.angular.toFun

def twistOfVector (v : Axes → K) : Twist K :=
  ⟨Vector3.ofFun fun i => v (.inl i), Vector3.ofFun fun i => v (.inr i)⟩

@[simp] theorem twistVector_twistOfVector (v : Axes → K) : twistVector (twistOfVector v) = v := by
  funext i
  cases i <;> simp [twistVector, twistOfVector]

end Velocity

section Shear
variable {K : Type*} [CommRing K]

/-- A rigid change of frame, with `T` for the lever arm. -/
def rigidMap (T R : Matrix (Fin 3) (Fin 3) K) : Matrix Axes Axes K := fromBlocks R (T * R) 0 R

theorem rigidMap_mulVec (t v w : Fin 3 → K) (R : Matrix (Fin 3) (Fin 3) K) :
    rigidMap (skew t) R *ᵥ Sum.elim v w = Sum.elim (R *ᵥ v - (R *ᵥ w) ⨯₃ t) (R *ᵥ w) := by
  rw [rigidMap, fromBlocks_mulVec, Sum.elim_comp_inl, Sum.elim_comp_inr, ← mulVec_mulVec,
    skew_mulVec, zero_mulVec, zero_add, ← cross_anticomm, sub_eq_add_neg]

theorem rigidMap_covariance (T R A B C D : Matrix (Fin 3) (Fin 3) K) :
    rigidMap T R * fromBlocks A B C D * (rigidMap T R).transpose =
      fromBlocks
        (R * A * Rᵀ + T * (R * C * Rᵀ) + (R * B * Rᵀ) * Tᵀ + T * (R * D * Rᵀ) * Tᵀ)
        (R * B * Rᵀ + T * (R * D * Rᵀ)) (R * C * Rᵀ + (R * D * Rᵀ) * Tᵀ) (R * D * Rᵀ) := by
  rw [rigidMap, fromBlocks_transpose, fromBlocks_multiply, fromBlocks_multiply]
  simp only [transpose_mul, transpose_zero, zero_mul, mul_zero, zero_add, add_mul, Matrix.mul_assoc]
  congr 1
  abel

end Shear

section Lever
variable {K : Type*} [Field K] [LinearOrder K] [IsStrictOrderedRing K]

/-- The covariance, in base axes, does not see the lever arm `t`: the angular
error is about the arm only, and the cross terms commute with it. -/
def LeverArmUncorrelated (t : Fin 3 → K) (R : Matrix (Fin 3) (Fin 3) K) (S : Matrix Axes Axes K) :
    Prop :=
  skew t * (R * S.toBlocks₂₂ * Rᵀ) = 0 ∧ (R * S.toBlocks₂₂ * Rᵀ) * skew t = 0 ∧
    skew t * (R * S.toBlocks₂₁ * Rᵀ) = (R * S.toBlocks₁₂ * Rᵀ) * skew t

theorem eq_neg_iff_eq_zero {m n : Type*} (M : Matrix m n K) : -M = M ↔ M = 0 := by
  constructor
  · intro h
    ext i j
    have hij : -M i j = M i j := by rw [← Matrix.neg_apply, h]
    rw [Matrix.zero_apply]
    linarith
  · rintro rfl
    exact neg_zero

/-- The two signs of the lever arm agree exactly where the arm is not seen. -/
theorem rigidMap_covariance_eq_iff (t : Fin 3 → K) (R : Matrix (Fin 3) (Fin 3) K)
    (S : Matrix Axes Axes K) :
    rigidMap (-skew t) R * S * (rigidMap (-skew t) R).transpose =
        rigidMap (skew t) R * S * (rigidMap (skew t) R).transpose ↔
      LeverArmUncorrelated t R S := by
  rw [← fromBlocks_toBlocks S, rigidMap_covariance, rigidMap_covariance, fromBlocks_inj]
  unfold LeverArmUncorrelated
  simp only [toBlocks_fromBlocks₁₂, toBlocks_fromBlocks₂₁, toBlocks_fromBlocks₂₂]
  generalize R * S.toBlocks₁₁ * Rᵀ = A
  generalize R * S.toBlocks₁₂ * Rᵀ = B
  generalize R * S.toBlocks₂₁ * Rᵀ = C
  generalize R * S.toBlocks₂₂ * Rᵀ = D
  have corner : B + -skew t * D = B + skew t * D ↔ skew t * D = 0 := by
    rw [add_right_inj, neg_mul, eq_neg_iff_eq_zero]
  have corner' : C + D * (-skew t)ᵀ = C + D * (skew t)ᵀ ↔ D * skew t = 0 := by
    rw [add_right_inj, transpose_neg, transpose_skew, neg_neg, mul_neg, eq_comm, eq_neg_iff_eq_zero]
  have block : A + -skew t * C + B * (-skew t)ᵀ + -skew t * D * (-skew t)ᵀ =
      A + skew t * C + B * (skew t)ᵀ + skew t * D * (skew t)ᵀ ↔ skew t * C = B * skew t := by
    have hD : -skew t * D * (-skew t)ᵀ = skew t * D * (skew t)ᵀ := by
      rw [transpose_neg, mul_neg, neg_mul, neg_mul, neg_neg]
    have hN : A + -skew t * C + B * (-skew t)ᵀ - (A + skew t * C + B * (skew t)ᵀ) =
        -(skew t * C - B * skew t) - (skew t * C - B * skew t) := by
      rw [transpose_neg, transpose_skew, neg_neg, mul_neg, neg_mul]
      abel
    rw [hD, add_left_inj, ← sub_eq_zero, hN, sub_eq_zero, eq_neg_iff_eq_zero, sub_eq_zero]
  rw [block, corner, corner']
  tauto

end Lever

section Published
variable {K : Type*} [Field K] [LinearOrder K]

/-- `J` carries the sensor velocity to the base velocity that is published. -/
def CarriesTwist (E : Eigen K) (mount : TransformStamped K) (J : Matrix Axes Axes K) : Prop :=
  ∀ input baseFrame, twistVector (transformFastLioOdometry E input mount baseFrame).twist.twist =
    J *ᵥ twistVector input.twist.twist

/-- The published covariance is the input covariance carried by the map that
carries the velocity. -/
def TwistCovarianceConsistent (E : Eigen K) (input : Odometry K) (mount : TransformStamped K)
    (baseFrame : String) : Prop :=
  ∃ J, CarriesTwist E mount J ∧
    covarianceMatrix (transformFastLioOdometry E input mount baseFrame).twist.covariance =
      J * covarianceMatrix input.twist.covariance * J.transpose

theorem carriesTwist_rigidMap (E : Eigen K) (mount : TransformStamped K) :
    CarriesTwist E mount (rigidMap (skew (baseFromTracking E mount.transform).translation)
      (baseFromTracking E mount.transform).linear) := by
  intro input baseFrame
  simp only [twistVector, rigidMap_mulVec, transformFastLioOdometry, Vector3.toFun_ofFun]

/-- The map is unique: every velocity is the velocity of some input. -/
theorem CarriesTwist.unique {E : Eigen K} {mount : TransformStamped K} {J J' : Matrix Axes Axes K}
    (input : Odometry K) (h : CarriesTwist E mount J) (h' : CarriesTwist E mount J') : J = J' := by
  apply Matrix.mulVec_injective
  funext v
  have hv := h { input with twist := ⟨twistOfVector v, input.twist.covariance⟩ } ""
  have hv' := h' { input with twist := ⟨twistOfVector v, input.twist.covariance⟩ } ""
  rw [twistVector_twistOfVector] at hv hv'
  exact hv.symm.trans hv'

theorem covariance_transformFastLioOdometry (E : Eigen K) (input : Odometry K)
    (mount : TransformStamped K) (baseFrame : String) :
    covarianceMatrix (transformFastLioOdometry E input mount baseFrame).twist.covariance =
      let M := baseFromTracking E mount.transform
      rigidMap (-skew M.translation) M.linear * covarianceMatrix input.twist.covariance *
        (rigidMap (-skew M.translation) M.linear).transpose := by
  simp only [transformFastLioOdometry, covarianceMatrix_covarianceArray, twistJacobian, rigidMap]

theorem twistCovariance_consistent_iff_eq (E : Eigen K) (input : Odometry K)
    (mount : TransformStamped K) (baseFrame : String) :
    TwistCovarianceConsistent E input mount baseFrame ↔
      let M := baseFromTracking E mount.transform
      let S := covarianceMatrix input.twist.covariance
      rigidMap (-skew M.translation) M.linear * S * (rigidMap (-skew M.translation) M.linear)ᵀ =
        rigidMap (skew M.translation) M.linear * S * (rigidMap (skew M.translation) M.linear)ᵀ := by
  have hJ := carriesTwist_rigidMap E mount
  simp only [TwistCovarianceConsistent, covariance_transformFastLioOdometry]
  constructor
  · rintro ⟨J, hC, h⟩
    rwa [hC.unique input hJ] at h
  · intro h
    exact ⟨_, hJ, h⟩

end Published

/-- The published twist covariance is the one of the published twist exactly
where the input covariance does not see the lever arm of the mount. -/
theorem twistCovariance_consistent_iff (E : Eigen ℝ) (input : Odometry ℝ)
    (mount : TransformStamped ℝ) (baseFrame : String) :
    TwistCovarianceConsistent E input mount baseFrame ↔
      LeverArmUncorrelated (baseFromTracking E mount.transform).translation
        (baseFromTracking E mount.transform).linear (covarianceMatrix input.twist.covariance) := by
  rw [twistCovariance_consistent_iff_eq]
  exact rigidMap_covariance_eq_iff _ _ _

/-! ### A sensor one metre ahead of the base -/

/-- A unit error along `x` and a variance of four about `z`, nothing correlated. -/
noncomputable def yawRateErrorInput : Odometry ℝ where
  header := ⟨⟨0, 0⟩, "odom"⟩
  childFrameId := "lidar_imu_chest_front"
  pose := ⟨⟨⟨5, 0, 0⟩, ⟨0, 0, 0, 1⟩⟩, fun _ => 0⟩
  twist := ⟨⟨⟨1, 0, 0⟩, ⟨0, 0, 2⟩⟩, fun k => if k = 0 then 1 else if k = 35 then 4 else 0⟩

noncomputable def forwardMount : TransformStamped ℝ where
  header := ⟨⟨0, 0⟩, "base_link"⟩
  childFrameId := "lidar_imu_chest_front"
  transform := ⟨⟨1, 0, 0⟩, ⟨0, 0, 0, 1⟩⟩

/-- The library on matrices without rotation. -/
noncomputable def unrotatedEigen : Eigen ℝ := ⟨Real.sqrt, fun _ => (0, 0), fun _ => ⟨0, 0, 0, 1⟩⟩

theorem not_consistent_forwardMount :
    ¬ TwistCovarianceConsistent unrotatedEigen yawRateErrorInput forwardMount "base_link" := by
  have hM : baseFromTracking unrotatedEigen forwardMount.transform = ⟨1, ![1, 0, 0]⟩ := by
    have hq := Eigen.normalized_one unrotatedEigen Real.sqrt_one
    simp [baseFromTracking, forwardMount, Vector3.toFun, hq]
  rw [twistCovariance_consistent_iff_eq, rigidMap_covariance_eq_iff, hM]
  rintro ⟨h, -, -⟩
  have h35 : covarianceIndex (.inr 2, .inr 2) = 35 := rfl
  have hD : (covarianceMatrix yawRateErrorInput.twist.covariance).toBlocks₂₂ 2 2 = 4 := by
    show covarianceMatrix yawRateErrorInput.twist.covariance (.inr 2) (.inr 2) = 4
    simp [covarianceMatrix, yawRateErrorInput, h35]
  -- the cross term between sideways velocity and yaw rate
  have h12 := congrFun (congrFun h 1) 2
  simp [skew, Matrix.mul_apply, Fin.sum_univ_three, hD] at h12

end X2Navigation
