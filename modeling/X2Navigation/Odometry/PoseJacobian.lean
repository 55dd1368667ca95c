import X2Navigation.Odometry.Transport

/-! The pose covariance to first order. An error of the sensor pose is a shift in odom axes and a
small turn in sensor axes; it moves the base by a shift and a small turn in odom axes. The matrix
that carries the covariance is the derivative of this map. -/

namespace X2Navigation

open Matrix Rigid

/-! ### Perturbations -/

/-- A pose off by a shift in fixed axes and a turn in its own. -/
noncomputable def perturbed (T : Isometry3 ℝ) (δ : Axes → ℝ) : Isometry3 ℝ :=
  ⟨T.linear * rotationExp (δ ∘ Sum.inr), T.translation + δ ∘ Sum.inl⟩

/-- The base pose that belongs to a sensor pose that is off by `δ`, for a sensor at `mount` on the
base: the position, and the turn in fixed axes from the base pose of the sensor pose itself. -/
noncomputable def basePerturbation (T mount : Isometry3 ℝ) (δ : Axes → ℝ) : Axes → ℝ :=
  Sum.elim (perturbed T δ * mount.inverse).translation
    (rotationVector ((perturbed T δ * mount.inverse).linear * (T * mount.inverse).linearᵀ))

theorem perturbed_zero (T : Isometry3 ℝ) : perturbed T 0 = T := by
  apply Isometry3.ext
  · show T.linear * rotationExp 0 = T.linear
    rw [rotationExp_zero, Matrix.mul_one]
  · exact add_zero T.translation

theorem continuous_length : Continuous length := by
  unfold length dotProduct
  fun_prop

/-- The mount does not enter the turn. -/
theorem basePerturbation_turn {T mount : Isometry3 ℝ} (hT : T.IsRigid) (hmount : mount.IsRigid)
    (δ : Axes → ℝ) :
    (perturbed T δ * mount.inverse).linear * (T * mount.inverse).linearᵀ =
      rotationExp (T.linear *ᵥ (δ ∘ Sum.inr)) := by
  have hcancel : mount.linearᵀ * mount.linear = 1 := IsRotation.transpose_mul hmount
  calc (perturbed T δ * mount.inverse).linear * (T * mount.inverse).linearᵀ
      = T.linear * rotationExp (δ ∘ Sum.inr) * mount.linearᵀ * (T.linear * mount.linearᵀ)ᵀ := rfl
    _ = T.linear * rotationExp (δ ∘ Sum.inr) * (mount.linearᵀ * mount.linear) * T.linearᵀ := by
        rw [transpose_mul, transpose_transpose]
        simp only [Matrix.mul_assoc]
    _ = rotationExp (T.linear *ᵥ (δ ∘ Sum.inr)) := by
        rw [hcancel, Matrix.mul_one, IsRotation.mul_rotationExp hT]

/-- Small turns are read back: near zero the turn of the base is the turn of the sensor, in fixed
axes. -/
theorem basePerturbation_eventually {T mount : Isometry3 ℝ} (hT : T.IsRigid)
    (hmount : mount.IsRigid) :
    ∀ᶠ δ in nhds (0 : Axes → ℝ), basePerturbation T mount δ =
      Sum.elim (perturbed T δ * mount.inverse).translation (T.linear *ᵥ (δ ∘ Sum.inr)) := by
  have hcontinuous : Continuous fun δ : Axes → ℝ => length (T.linear *ᵥ (δ ∘ Sum.inr)) :=
    continuous_length.comp (Continuous.matrix_mulVec continuous_const (by fun_prop))
  have hzero : length (T.linear *ᵥ ((0 : Axes → ℝ) ∘ Sum.inr)) < Real.pi := by
    have hcomp : (0 : Axes → ℝ) ∘ Sum.inr = (0 : Fin 3 → ℝ) := rfl
    rw [hcomp, mulVec_zero, length, zero_dotProduct, Real.sqrt_zero]
    exact Real.pi_pos
  filter_upwards [hcontinuous.continuousAt.eventually_lt_const hzero] with δ hδ
  rw [basePerturbation, basePerturbation_turn hT hmount, rotationVector_rotationExp hδ]

/-! ### The derivative -/

/-- A turn of the sensor moves the base about the sensor. -/
theorem lever_arm {T mount : Isometry3 ℝ} (hT : T.IsRigid) (v : Fin 3 → ℝ) :
    T.linear *ᵥ (skew v *ᵥ mount.inverse.translation) =
      (skew ((T * mount.inverse).linear *ᵥ mount.translation) * T.linear) *ᵥ v := by
  have harm : T.linear *ᵥ mount.inverse.translation =
      -((T * mount.inverse).linear *ᵥ mount.translation) := by
    show T.linear *ᵥ -(mount.linearᵀ *ᵥ mount.translation) =
      -((T.linear * mount.linearᵀ) *ᵥ mount.translation)
    rw [mulVec_neg, mulVec_mulVec]
  rw [← mulVec_mulVec, skew_mulVec, skew_mulVec, IsRotation.mulVec_cross hT, harm, map_neg,
    cross_anticomm]

theorem hasFDerivAt_translation {T mount : Isometry3 ℝ} (hT : T.IsRigid) :
    HasFDerivAt (fun δ => (perturbed T δ * mount.inverse).translation)
      (LinearMap.toContinuousLinearMap (LinearMap.funLeft ℝ ℝ Sum.inl +
        mulVecLin (skew ((T * mount.inverse).linear *ᵥ mount.translation) * T.linear) ∘ₗ
          LinearMap.funLeft ℝ ℝ Sum.inr)) (0 : Axes → ℝ) := by
  have hshift : HasFDerivAt (fun δ : Axes → ℝ => T.translation + δ ∘ Sum.inl)
      (LinearMap.toContinuousLinearMap (LinearMap.funLeft ℝ ℝ Sum.inl)) 0 :=
    (LinearMap.toContinuousLinearMap (LinearMap.funLeft ℝ ℝ Sum.inl)).hasFDerivAt.const_add _
  have hturn := (hasFDerivAt_rotationExp_mulVec T.linear mount.inverse.translation).comp
    (0 : Axes → ℝ) (LinearMap.toContinuousLinearMap (LinearMap.funLeft ℝ ℝ Sum.inr)).hasFDerivAt
  refine (hshift.add hturn).congr_fderiv ?_ |>.congr_of_eventuallyEq (Filter.Eventually.of_forall ?_)
  · ext1 δ
    exact congrArg (δ ∘ Sum.inl + ·) (lever_arm hT (δ ∘ Sum.inr))
  · intro δ
    show (T.linear * rotationExp (δ ∘ Sum.inr)) *ᵥ mount.inverse.translation +
      (T.translation + δ ∘ Sum.inl) = T.translation + δ ∘ Sum.inl +
        T.linear *ᵥ (rotationExp (δ ∘ Sum.inr) *ᵥ mount.inverse.translation)
    rw [mulVec_mulVec, add_comm]

/-- The base pose to first order. -/
theorem hasFDerivAt_basePerturbation {T mount : Isometry3 ℝ} (hT : T.IsRigid)
    (hmount : mount.IsRigid) :
    HasFDerivAt (basePerturbation T mount) (LinearMap.toContinuousLinearMap (mulVecLin
      (poseJacobian ((T * mount.inverse).linear *ᵥ mount.translation) T.linear))) 0 := by
  refine HasFDerivAt.congr_of_eventuallyEq ?_ (basePerturbation_eventually hT hmount)
  have hshift (δ : Axes → ℝ) : LinearMap.funLeft ℝ ℝ Sum.inl δ = δ ∘ Sum.inl := rfl
  have hturn (δ : Axes → ℝ) : LinearMap.funLeft ℝ ℝ Sum.inr δ = δ ∘ Sum.inr := rfl
  rw [hasFDerivAt_pi']
  rintro (i | i)
  · refine (hasFDerivAt_pi'.mp (hasFDerivAt_translation hT) i).congr_fderiv ?_
    ext1 δ
    simp [poseJacobian, fromBlocks_mulVec, hshift, hturn]
  · have hlinear := (LinearMap.toContinuousLinearMap
      (mulVecLin T.linear ∘ₗ LinearMap.funLeft ℝ ℝ Sum.inr)).hasFDerivAt (x := (0 : Axes → ℝ))
    refine (hasFDerivAt_pi'.mp hlinear i).congr_fderiv ?_
    ext1 δ
    simp [poseJacobian, fromBlocks_mulVec, hturn]

/-- The pose covariance that is published is the input covariance under the derivative of the base
pose, at the base pose that is published. -/
theorem poseCovariance_first_order (E : Eigen ℝ) (hroots : E.TakesRoots) (input : Odometry ℝ)
    (hunit : input.pose.pose.orientation.squaredNorm = 1) (mount : TransformStamped ℝ)
    (baseFrame : String) :
    let T := fromMsg input.pose.pose
    let M := baseFromTracking E mount.transform
    let J := poseJacobian ((T * M.inverse).linear *ᵥ M.translation) T.linear
    let output := transformFastLioOdometry E input mount baseFrame
    output.pose.pose = toMsg E (perturbed T 0 * M.inverse) ∧
      HasFDerivAt (basePerturbation T M) (LinearMap.toContinuousLinearMap (mulVecLin J)) 0 ∧
      covarianceMatrix output.pose.covariance =
        J * covarianceMatrix input.pose.covariance * Jᵀ := by
  intro T M J output
  refine ⟨?_, ?_, ?_⟩
  · rw [perturbed_zero]
    exact transform_pose E input mount baseFrame
  · exact hasFDerivAt_basePerturbation (isRigid_fromMsg hunit)
      (isRigid_baseFromTracking hroots mount.transform)
  · show covarianceMatrix (covarianceArray (J * covarianceMatrix input.pose.covariance * Jᵀ)) = _
    rw [covarianceMatrix_covarianceArray]

/-! ### An error of the roll, one metre ahead of the base -/

noncomputable def rollErrorInput : Odometry ℝ where
  header := ⟨⟨0, 0⟩, "odom"⟩
  childFrameId := "lidar_imu_chest_front"
  pose := ⟨⟨⟨5, 0, 0⟩, ⟨0, 0, 0, 1⟩⟩, fun k => if k.val = 21 then 4 else 0⟩
  twist := ⟨⟨⟨0, 0, 0⟩, ⟨0, 0, 0⟩⟩, fun _ => 0⟩

theorem poseCovariance_first_order_roll :
    let J := poseJacobian ![1, 0, 0] 1
    HasFDerivAt (basePerturbation ⟨1, ![5, 0, 0]⟩ ⟨1, ![1, 0, 0]⟩)
        (LinearMap.toContinuousLinearMap (mulVecLin J)) 0 ∧
      covarianceMatrix (transformFastLioOdometry Eigen.exact rollErrorInput forwardMount
        "base_link").pose.covariance = J * covarianceMatrix rollErrorInput.pose.covariance * Jᵀ := by
  intro J
  have hunit : rollErrorInput.pose.pose.orientation.squaredNorm = 1 := by
    simp [rollErrorInput, Quaterniond.squaredNorm]
  have hT : fromMsg rollErrorInput.pose.pose = ⟨1, ![5, 0, 0]⟩ := by
    simp [fromMsg, rollErrorInput, Vector3.toFun]
  have hM : baseFromTracking Eigen.exact forwardMount.transform = ⟨1, ![1, 0, 0]⟩ :=
    baseFromTracking_unrotated ⟨1, 0, 0⟩
  have hJ : poseJacobian (((⟨1, ![5, 0, 0]⟩ : Isometry3 ℝ) *
      Isometry3.inverse ⟨1, ![1, 0, 0]⟩).linear *ᵥ ![1, 0, 0]) 1 = J := by
    simp [J, Isometry3.mul_def, Isometry3.inverse]
  obtain ⟨-, hderiv, hcovariance⟩ := poseCovariance_first_order Eigen.exact Eigen.exact_takesRoots
    rollErrorInput hunit forwardMount "base_link"
  rw [hT, hM, hJ] at hderiv hcovariance
  exact ⟨hderiv, hcovariance⟩

end X2Navigation
