import X2Navigation.Odometry.TwistCovariance
import X2Navigation.Rigid.Conversions

/-! The base moves as the sensor does. A mount carries the pose of the sensor to the pose of the
base by an isometry product and its velocity by a rotation and a lever arm; both are the same
motion, seen at two places of one rigid body, and mounts compose. -/

namespace X2Navigation

open Matrix Rigid

/-! ### Velocities -/

/-- `twist` is the velocity of a moving frame at the time `s`, in its own axes. -/
structure HasBodyTwist (T : ℝ → Isometry3 ℝ) (twist : Twist ℝ) (s : ℝ) : Prop where
  translation : ∀ i, HasDerivAt (fun t => (T t).translation i)
    (((T s).linear *ᵥ twist.linear.toFun) i) s
  linear : ∀ i j, HasDerivAt (fun t => (T t).linear i j)
    (((T s).linear * skew twist.angular.toFun) i j) s

/-- Every differentiable rigid motion has a velocity: the derivative of a rotation, seen from the
rotated axes, is a cross product. -/
theorem exists_hasBodyTwist {T : ℝ → Isometry3 ℝ} {s : ℝ} (hrigid : ∀ t, (T t).IsRigid)
    (htranslation : ∀ i, DifferentiableAt ℝ (fun t => (T t).translation i) s)
    (hlinear : ∀ i j, DifferentiableAt ℝ (fun t => (T t).linear i j) s) :
    ∃ twist, HasBodyTwist T twist s := by
  let p : Fin 3 → ℝ := fun i => deriv (fun t => (T t).translation i) s
  let D : Matrix (Fin 3) (Fin 3) ℝ := Matrix.of fun i j => deriv (fun t => (T t).linear i j) s
  let S : Matrix (Fin 3) (Fin 3) ℝ := (T s).linearᵀ * D
  have hD (i j : Fin 3) : HasDerivAt (fun t => (T t).linear i j) (D i j) s :=
    (hlinear i j).hasDerivAt
  have hantisymmetric (i j : Fin 3) : S j i + S i j = 0 := by
    have hsum := HasDerivAt.fun_sum (u := Finset.univ) fun (k : Fin 3) _ =>
      (hD k i).mul (hD k j)
    have hconst : (fun t => ∑ k, ((fun t => (T t).linear k i) * fun t => (T t).linear k j) t) =
        fun _ => (1 : Matrix (Fin 3) (Fin 3) ℝ) i j := by
      funext t
      rw [← (hrigid t).transpose_mul]
      rfl
    rw [hconst] at hsum
    have hzero := hsum.unique (hasDerivAt_const s _)
    rw [Finset.sum_add_distrib] at hzero
    have hji : S j i = ∑ k, D k i * (T s).linear k j := by
      show ∑ k, (T s).linear k j * D k i = _
      simp only [mul_comm]
    rw [hji]
    exact hzero
  have hskew : skew ![S 2 1, S 0 2, S 1 0] = S := by
    have h00 := hantisymmetric 0 0
    have h11 := hantisymmetric 1 1
    have h22 := hantisymmetric 2 2
    have h01 := hantisymmetric 0 1
    have h02 := hantisymmetric 0 2
    have h12 := hantisymmetric 1 2
    ext i j
    fin_cases i <;> fin_cases j <;> simp [skew] <;> linarith
  have hundo : (T s).linear * S = D := by
    rw [← Matrix.mul_assoc, (hrigid s).mul_transpose, Matrix.one_mul]
  refine ⟨⟨Vector3.ofFun ((T s).linearᵀ *ᵥ p), Vector3.ofFun ![S 2 1, S 0 2, S 1 0]⟩, ?_, ?_⟩
  · intro i
    rw [Vector3.toFun_ofFun, mulVec_mulVec, (hrigid s).mul_transpose, one_mulVec]
    exact (htranslation i).hasDerivAt
  · intro i j
    rw [Vector3.toFun_ofFun, hskew, hundo]
    exact hD i j

/-- The velocity of a point that is fixed to a moving frame. -/
theorem HasBodyTwist.mulVec {T : ℝ → Isometry3 ℝ} {twist : Twist ℝ} {s : ℝ}
    (h : HasBodyTwist T twist s) (u : Fin 3 → ℝ) (i : Fin 3) :
    HasDerivAt (fun t => ((T t).linear *ᵥ u) i)
      (((T s).linear *ᵥ (twist.angular.toFun ⨯₃ u)) i) s := by
  have hsum := HasDerivAt.fun_sum (u := Finset.univ) fun (j : Fin 3) _ =>
    (h.linear i j).mul_const (u j)
  rw [← skew_mulVec, mulVec_mulVec]
  exact hsum

/-- A frame that is fixed to a moving one moves with the twist that the mount carries over. -/
theorem HasBodyTwist.mount {T : ℝ → Isometry3 ℝ} {twist : Twist ℝ} {s : ℝ}
    (h : HasBodyTwist T twist s) {mount : Isometry3 ℝ} (hmount : mount.IsRigid) :
    let angular := mount.linear *ᵥ twist.angular.toFun
    HasBodyTwist (fun t => T t * mount.inverse)
      ⟨Vector3.ofFun (mount.linear *ᵥ twist.linear.toFun - angular ⨯₃ mount.translation),
        Vector3.ofFun angular⟩ s := by
  intro angular
  have hback : IsRotation mount.linearᵀ := IsRotation.transpose hmount
  have hundo (v : Fin 3 → ℝ) : mount.linearᵀ *ᵥ (mount.linear *ᵥ v) = v := by
    rw [mulVec_mulVec, IsRotation.transpose_mul hmount, one_mulVec]
  constructor
  · intro i
    have hsum := (h.mulVec (-(mount.linearᵀ *ᵥ mount.translation)) i).add (h.translation i)
    have harm : (T s).linear *ᵥ (twist.angular.toFun ⨯₃ -(mount.linearᵀ *ᵥ mount.translation)) +
        (T s).linear *ᵥ twist.linear.toFun =
        ((T s).linear * mount.linearᵀ) *ᵥ
          (mount.linear *ᵥ twist.linear.toFun - angular ⨯₃ mount.translation) := by
      rw [← mulVec_mulVec, mulVec_sub, hback.mulVec_cross, hundo, hundo, map_neg, mulVec_neg,
        mulVec_sub]
      abel
    have hi := congrFun harm i
    rw [Pi.add_apply] at hi
    rw [hi] at hsum
    rw [Vector3.toFun_ofFun]
    exact hsum
  · intro i j
    have hsum := HasDerivAt.fun_sum (u := Finset.univ) fun (k : Fin 3) _ =>
      (h.linear i k).mul_const (mount.linearᵀ k j)
    have hskew : (T s).linear * skew twist.angular.toFun * mount.linearᵀ =
        (T s).linear * mount.linearᵀ * skew angular := by
      rw [Matrix.mul_assoc, Matrix.mul_assoc, hback.mul_skew, hundo]
    have hij := congrFun (congrFun hskew i) j
    rw [Matrix.mul_apply] at hij
    rw [hij] at hsum
    rw [Vector3.toFun_ofFun]
    exact hsum

/-! ### Twist matrices -/

section Matrices
variable {K : Type*} [CommRing K]

/-- A rigid motion as a matrix that acts on points. -/
def homogeneous (a : Isometry3 K) : Matrix (Fin 3 ⊕ Fin 1) (Fin 3 ⊕ Fin 1) K :=
  fromBlocks a.linear (replicateCol (Fin 1) a.translation) 0 1

/-- A velocity as the matrix that takes points to their velocities. -/
def twistMatrix (twist : Twist K) : Matrix (Fin 3 ⊕ Fin 1) (Fin 3 ⊕ Fin 1) K :=
  fromBlocks (skew twist.angular.toFun) (replicateCol (Fin 1) twist.linear.toFun) 0 0

theorem homogeneous_mul (a b : Isometry3 K) :
    homogeneous (a * b) = homogeneous a * homogeneous b := by
  rw [homogeneous, homogeneous, homogeneous, fromBlocks_multiply, Isometry3.mul_def]
  simp only [Matrix.mul_zero, Matrix.zero_mul, Matrix.mul_one, add_zero, zero_add,
    replicateCol_add, replicateCol_mulVec]

theorem homogeneous_one : homogeneous (1 : Isometry3 K) = 1 := by
  rw [homogeneous, Isometry3.one_def, replicateCol_zero, fromBlocks_one]

theorem homogeneous_inverse {a : Isometry3 K} (ha : a.IsRigid) :
    (homogeneous a)⁻¹ = homogeneous a.inverse := by
  apply inv_eq_right_inv
  rw [← homogeneous_mul, ha.mul_inverse, homogeneous_one]

/-- The mount carries a velocity over by conjugation. -/
theorem twistMatrix_mount (twist : Twist K) {mount : Isometry3 K} (hmount : mount.IsRigid) :
    let angular := mount.linear *ᵥ twist.angular.toFun
    twistMatrix ⟨Vector3.ofFun (mount.linear *ᵥ twist.linear.toFun - angular ⨯₃ mount.translation),
        Vector3.ofFun angular⟩ =
      homogeneous mount * twistMatrix twist * (homogeneous mount)⁻¹ := by
  intro angular
  rw [homogeneous_inverse hmount, homogeneous, twistMatrix, twistMatrix, homogeneous,
    fromBlocks_multiply, fromBlocks_multiply]
  simp only [Vector3.toFun_ofFun, Matrix.mul_zero, Matrix.zero_mul, Matrix.mul_one, add_zero,
    Isometry3.inverse, IsRotation.mul_skew_mul_transpose hmount]
  rw [fromBlocks_inj]
  refine ⟨rfl, ?_, rfl, rfl⟩
  have harm : mount.linear *ᵥ twist.linear.toFun - angular ⨯₃ mount.translation =
      (mount.linear * skew twist.angular.toFun) *ᵥ (-(mount.linearᵀ *ᵥ mount.translation)) +
        mount.linear *ᵥ twist.linear.toFun := by
    rw [mulVec_neg, mulVec_mulVec, IsRotation.mul_skew_mul_transpose hmount, skew_mulVec]
    abel
  rw [harm, replicateCol_add, replicateCol_mulVec, replicateCol_mulVec]

end Matrices

theorem twistMatrix_injective {twist twist' : Twist ℝ} (h : twistMatrix twist = twistMatrix twist') :
    twist = twist' := by
  obtain ⟨hangular, hlinear, -, -⟩ := fromBlocks_inj.mp h
  have hl := Vector3.toFun_injective (replicateCol_injective hlinear)
  have ha := Vector3.toFun_injective (skew_injective hangular)
  cases twist
  cases twist'
  exact congr (congrArg Twist.mk hl) ha

/-! ### The adapter -/

variable {E : Eigen ℝ} {mount : TransformStamped ℝ} {input : Odometry ℝ}

theorem isRigid_baseFromTracking (hroots : E.TakesRoots) (transform : Transform ℝ) :
    (baseFromTracking E transform).IsRigid := hroots.isRotation_normalized transform.rotation

/-- A pose message with a unit quaternion is rigid. -/
theorem isRigid_fromMsg {pose : Pose ℝ} (h : pose.orientation.squaredNorm = 1) :
    (fromMsg pose).IsRigid := isRotation_toRotationMatrix h

/-- A rigid pose is read back from its message. -/
theorem fromMsg_toMsg (hquaternion : E.ReadsQuaternion) {T : Isometry3 ℝ} (hT : T.IsRigid) :
    (toMsg E T).orientation.squaredNorm = 1 ∧ fromMsg (toMsg E T) = T := by
  obtain ⟨hnorm, hrotation⟩ := hquaternion T.linear hT
  refine ⟨hnorm, ?_⟩
  apply Isometry3.ext
  · exact hrotation
  · exact Vector3.toFun_ofFun T.translation

theorem transform_pose (E : Eigen ℝ) (input : Odometry ℝ) (mount : TransformStamped ℝ)
    (baseFrame : String) :
    (transformFastLioOdometry E input mount baseFrame).pose.pose =
      toMsg E (fromMsg input.pose.pose * (baseFromTracking E mount.transform).inverse) := rfl

theorem transform_twist (hroots : E.TakesRoots) (input : Odometry ℝ) (mount : TransformStamped ℝ)
    (baseFrame : String) :
    twistMatrix (transformFastLioOdometry E input mount baseFrame).twist.twist =
      homogeneous (baseFromTracking E mount.transform) * twistMatrix input.twist.twist *
        (homogeneous (baseFromTracking E mount.transform))⁻¹ :=
  twistMatrix_mount input.twist.twist (isRigid_baseFromTracking hroots mount.transform)

/-- The pose that is published is read as the pose of the base. -/
theorem fromMsg_transform (hroots : E.TakesRoots) (hquaternion : E.ReadsQuaternion)
    (hunit : input.pose.pose.orientation.squaredNorm = 1) (mount : TransformStamped ℝ)
    (baseFrame : String) :
    fromMsg (transformFastLioOdometry E input mount baseFrame).pose.pose =
      fromMsg input.pose.pose * (baseFromTracking E mount.transform).inverse :=
  (fromMsg_toMsg hquaternion ((isRigid_fromMsg hunit).mul
    (isRigid_baseFromTracking hroots mount.transform).inverse)).2

/-- One mount after another is their composition. -/
theorem transform_twice (hroots : E.TakesRoots) (hquaternion : E.ReadsQuaternion)
    (hunit : input.pose.pose.orientation.squaredNorm = 1) {next both : TransformStamped ℝ}
    (hboth : baseFromTracking E both.transform =
      baseFromTracking E next.transform * baseFromTracking E mount.transform)
    (baseFrame frame frame' : String) :
    let twice := transformFastLioOdometry E (transformFastLioOdometry E input mount baseFrame)
      next frame
    let once := transformFastLioOdometry E input both frame'
    twice.pose.pose = once.pose.pose ∧ twice.twist.twist = once.twist.twist := by
  have hM := isRigid_baseFromTracking hroots mount.transform
  have hnext := isRigid_baseFromTracking hroots next.transform
  constructor
  · rw [transform_pose E _ next, transform_pose E input both,
      fromMsg_transform hroots hquaternion hunit mount, hboth, hnext.mul_inverse_rev hM, mul_assoc]
  · apply twistMatrix_injective
    rw [transform_twist hroots _ next, transform_twist hroots input both,
      transform_twist hroots input mount, hboth, homogeneous_inverse hM, homogeneous_inverse hnext,
      homogeneous_inverse (hnext.mul hM), hnext.mul_inverse_rev hM, homogeneous_mul,
      homogeneous_mul]
    simp only [Matrix.mul_assoc]

/-- The inverse mount leads back. -/
theorem transform_back (hroots : E.TakesRoots) (hquaternion : E.ReadsQuaternion)
    (hunit : input.pose.pose.orientation.squaredNorm = 1) {back : TransformStamped ℝ}
    (hback : baseFromTracking E back.transform = (baseFromTracking E mount.transform).inverse)
    (baseFrame frame : String) :
    let returned := transformFastLioOdometry E (transformFastLioOdometry E input mount baseFrame)
      back frame
    fromMsg returned.pose.pose = fromMsg input.pose.pose ∧
      returned.twist.twist = input.twist.twist := by
  have hM := isRigid_baseFromTracking hroots mount.transform
  constructor
  · rw [transform_pose E _ back, fromMsg_transform hroots hquaternion hunit mount, hback,
      hM.inverse_inverse, mul_assoc, hM.inverse_mul, mul_one]
    exact (fromMsg_toMsg hquaternion (isRigid_fromMsg hunit)).2
  · apply twistMatrix_injective
    have hforth : homogeneous (baseFromTracking E mount.transform).inverse *
        homogeneous (baseFromTracking E mount.transform) = 1 := by
      rw [← homogeneous_mul, hM.inverse_mul, homogeneous_one]
    rw [transform_twist hroots _ back, transform_twist hroots input mount, hback,
      homogeneous_inverse hM, homogeneous_inverse hM.inverse, hM.inverse_inverse]
    generalize homogeneous (baseFromTracking E mount.transform).inverse = A at hforth ⊢
    generalize homogeneous (baseFromTracking E mount.transform) = B at hforth ⊢
    calc A * (B * twistMatrix input.twist.twist * A) * B
        = (A * B) * twistMatrix input.twist.twist * (A * B) := by simp only [Matrix.mul_assoc]
      _ = twistMatrix input.twist.twist := by rw [hforth, Matrix.one_mul, Matrix.mul_one]

/-- Pose and velocity of the base belong to one motion, and mounts compose. -/
theorem base_moves_rigidly (E : Eigen ℝ) (hroots : E.TakesRoots) (hquaternion : E.ReadsQuaternion)
    (input : Odometry ℝ) (hunit : input.pose.pose.orientation.squaredNorm = 1)
    (mount : TransformStamped ℝ) (baseFrame : String) :
    let M := baseFromTracking E mount.transform
    let output := transformFastLioOdometry E input mount baseFrame
    (∀ (T : ℝ → Isometry3 ℝ) (s : ℝ), fromMsg input.pose.pose = T s →
      HasBodyTwist T input.twist.twist s →
        fromMsg output.pose.pose = T s * M.inverse ∧
          HasBodyTwist (fun t => T t * M.inverse) output.twist.twist s) ∧
    twistMatrix output.twist.twist =
      homogeneous M * twistMatrix input.twist.twist * (homogeneous M)⁻¹ ∧
    (∀ (next both : TransformStamped ℝ) (frame frame' : String),
      baseFromTracking E both.transform = baseFromTracking E next.transform * M →
        let twice := transformFastLioOdometry E output next frame
        let once := transformFastLioOdometry E input both frame'
        twice.pose.pose = once.pose.pose ∧ twice.twist.twist = once.twist.twist) ∧
    ∀ (back : TransformStamped ℝ) (frame : String), baseFromTracking E back.transform = M.inverse →
      let returned := transformFastLioOdometry E output back frame
      fromMsg returned.pose.pose = fromMsg input.pose.pose ∧
        returned.twist.twist = input.twist.twist := by
  intro M output
  refine ⟨fun T s hs hbody => ⟨?_, hbody.mount (isRigid_baseFromTracking hroots mount.transform)⟩,
    transform_twist hroots input mount baseFrame, ?_, ?_⟩
  · rw [← hs]
    exact fromMsg_transform hroots hquaternion hunit mount baseFrame
  · intro next both frame frame' hboth
    exact transform_twice hroots hquaternion hunit hboth baseFrame frame frame'
  · intro back frame hback
    exact transform_back hroots hquaternion hunit hback baseFrame frame

/-! ### A sensor that turns one metre ahead of the base -/

noncomputable def turning (t : ℝ) : Isometry3 ℝ :=
  ⟨!![Real.cos t, -Real.sin t, 0; Real.sin t, Real.cos t, 0; 0, 0, 1], 0⟩

noncomputable def turningInput : Odometry ℝ where
  header := ⟨⟨0, 0⟩, "odom"⟩
  childFrameId := "lidar_imu_chest_front"
  pose := ⟨⟨⟨0, 0, 0⟩, ⟨0, 0, 0, 1⟩⟩, fun _ => 0⟩
  twist := ⟨⟨⟨0, 0, 0⟩, ⟨0, 0, 1⟩⟩, fun _ => 0⟩

theorem hasBodyTwist_turning : HasBodyTwist turning turningInput.twist.twist 0 := by
  have hcos := Real.hasDerivAt_cos 0
  have hsin := Real.hasDerivAt_sin 0
  rw [Real.sin_zero, neg_zero] at hcos
  rw [Real.cos_zero] at hsin
  constructor
  · intro i
    simpa [turning, turningInput, Vector3.toFun] using hasDerivAt_const (0 : ℝ) (0 : ℝ)
  · intro i j
    fin_cases i <;> fin_cases j <;>
      simp [turning, turningInput, Vector3.toFun, skew, Matrix.mul_apply, Fin.sum_univ_three]
    · exact hcos
    · exact hsin.neg
    · exact hasDerivAt_const _ _
    · exact hsin
    · exact hcos
    · exact hasDerivAt_const _ _
    · exact hasDerivAt_const _ _
    · exact hasDerivAt_const _ _
    · exact hasDerivAt_const _ _

noncomputable def backwardMount : TransformStamped ℝ where
  header := ⟨⟨0, 0⟩, "base_link"⟩
  childFrameId := "lidar_imu_chest_front"
  transform := ⟨⟨-1, 0, 0⟩, ⟨0, 0, 0, 1⟩⟩

theorem baseFromTracking_unrotated (translation : Vector3 ℝ) :
    baseFromTracking Eigen.exact ⟨translation, ⟨0, 0, 0, 1⟩⟩ = ⟨1, translation.toFun⟩ := by
  rw [baseFromTracking, Eigen.normalized_one Eigen.exact Real.sqrt_one, toRotationMatrix_one]

theorem base_moves_rigidly_turning :
    HasBodyTwist (fun t => turning t * (baseFromTracking Eigen.exact forwardMount.transform).inverse)
        (transformFastLioOdometry Eigen.exact turningInput forwardMount "base_link").twist.twist 0 ∧
      (transformFastLioOdometry Eigen.exact
        (transformFastLioOdometry Eigen.exact turningInput forwardMount "base_link")
        backwardMount "odom").twist.twist = turningInput.twist.twist := by
  have hstart : fromMsg turningInput.pose.pose = turning 0 := by
    have hone : (1 : Matrix (Fin 3) (Fin 3) ℝ) = !![1, 0, 0; 0, 1, 0; 0, 0, 1] := by
      ext i j
      fin_cases i <;> fin_cases j <;> rfl
    simp [fromMsg, turning, turningInput, Vector3.toFun, hone]
  have hunit : turningInput.pose.pose.orientation.squaredNorm = 1 := by
    simp [turningInput, Quaterniond.squaredNorm]
  have hback : baseFromTracking Eigen.exact backwardMount.transform =
      (baseFromTracking Eigen.exact forwardMount.transform).inverse := by
    rw [backwardMount, forwardMount, baseFromTracking_unrotated, baseFromTracking_unrotated]
    simp [Isometry3.inverse, Vector3.toFun]
  obtain ⟨hmotion, -, -, hreturned⟩ := base_moves_rigidly Eigen.exact Eigen.exact_takesRoots
    Eigen.exact_readsQuaternion turningInput hunit forwardMount "base_link"
  exact ⟨(hmotion turning 0 hstart hasBodyTwist_turning).2,
    (hreturned backwardMount "odom" hback).2⟩

end X2Navigation
