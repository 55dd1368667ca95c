import X2Navigation.Docking.Geometry

/-! Planar poses compose as motions of the plane. A target behind the initial pose
is then as far from the robot as the robot is from having moved back, and turned
away as far, whichever of the two is taken as the frame. -/

namespace X2Navigation

open Rigid Matrix

/-! ### Rotations about the vertical axis -/

theorem rotationZ_mul (a b : ℝ) :
    rotationZ Libm.real a * rotationZ Libm.real b = rotationZ Libm.real (a + b) := by
  ext i j
  fin_cases i <;> fin_cases j <;>
    simp [rotationZ, Libm.real, Matrix.mul_apply, Fin.sum_univ_three, Real.cos_add, Real.sin_add] <;>
    ring

theorem transpose_rotationZ (a : ℝ) :
    (rotationZ Libm.real a).transpose = rotationZ Libm.real (-a) := by
  ext i j
  fin_cases i <;> fin_cases j <;> simp [rotationZ, Libm.real]

theorem rotationZ_mulVec (a x y : ℝ) :
    rotationZ Libm.real a *ᵥ ![x, y, 0] =
      ![Real.cos a * x - Real.sin a * y, Real.sin a * x + Real.cos a * y, 0] := by
  funext i
  fin_cases i
  · simp [rotationZ, Libm.real, mulVec, dotProduct, Fin.sum_univ_three]
    ring
  · simp [rotationZ, Libm.real, mulVec, dotProduct, Fin.sum_univ_three]
  · simp [rotationZ, Libm.real, mulVec, dotProduct, Fin.sum_univ_three]

/-! ### Poses -/

namespace PlanarError

@[ext] theorem ext {a b : PlanarError ℝ} (hx : a.x = b.x) (hy : a.y = b.y) (hyaw : a.yaw = b.yaw) :
    a = b := by
  cases a
  cases b
  simp_all

/-- `b`, seen from where `a` is seen from. -/
noncomputable def compose (a b : PlanarError ℝ) : PlanarError ℝ :=
  ⟨Real.cos a.yaw * b.x - Real.sin a.yaw * b.y + a.x,
    Real.sin a.yaw * b.x + Real.cos a.yaw * b.y + a.y, a.yaw + b.yaw⟩

noncomputable def inverse (a : PlanarError ℝ) : PlanarError ℝ :=
  ⟨-(Real.cos a.yaw * a.x + Real.sin a.yaw * a.y),
    Real.sin a.yaw * a.x - Real.cos a.yaw * a.y, -a.yaw⟩

/-- The frames change places. -/
theorem compose_inverse (a b : PlanarError ℝ) :
    b.compose a.inverse = (a.compose b.inverse).inverse := by
  have ha := Real.sin_sq_add_cos_sq a.yaw
  have hb := Real.sin_sq_add_cos_sq b.yaw
  ext
  · simp only [compose, inverse, Real.cos_add, Real.sin_add, Real.cos_neg, Real.sin_neg]
    linear_combination
      -b.x * (Real.sin b.yaw ^ 2 + Real.cos b.yaw ^ 2) * ha - b.x * hb
  · simp only [compose, inverse, Real.cos_add, Real.sin_add, Real.cos_neg, Real.sin_neg]
    linear_combination
      -b.y * (Real.sin b.yaw ^ 2 + Real.cos b.yaw ^ 2) * ha - b.y * hb
  · simp only [compose, inverse]
    ring

end PlanarError

theorem planarPose_mul (a b : PlanarError ℝ) :
    planarPose Libm.real a * planarPose Libm.real b = planarPose Libm.real (a.compose b) := by
  rw [Isometry3.mul_def]
  apply Isometry3.ext
  · exact rotationZ_mul a.yaw b.yaw
  · show rotationZ Libm.real a.yaw *ᵥ ![b.x, b.y, 0] + ![a.x, a.y, 0] = _
    rw [rotationZ_mulVec]
    funext i
    fin_cases i <;> simp [planarPose, PlanarError.compose]

theorem planarPose_inverse (a : PlanarError ℝ) :
    (planarPose Libm.real a).inverse = planarPose Libm.real a.inverse := by
  apply Isometry3.ext
  · exact transpose_rotationZ a.yaw
  · show -((rotationZ Libm.real a.yaw).transpose *ᵥ ![a.x, a.y, 0]) = _
    rw [transpose_rotationZ, rotationZ_mulVec]
    funext i
    fin_cases i
    · simp [planarPose, PlanarError.inverse]
    · simp [planarPose, PlanarError.inverse]
      ring
    · simp [planarPose]

theorem one_inverse_mul (pose : Isometry3 ℝ) : (1 : Isometry3 ℝ).inverse * pose = pose := by
  rw [Isometry3.mul_def, Isometry3.one_def]
  apply Isometry3.ext
  · simp [Isometry3.inverse]
  · simp [Isometry3.inverse]

/-- The error of a pose is the pose itself, its yaw wrapped. -/
theorem planarError_planarPose (a : PlanarError ℝ) :
    planarError Libm.real 1 (planarPose Libm.real a) = ⟨a.x, a.y, wrapAngle Libm.real a.yaw⟩ := by
  have hyaw : wrapAngle Libm.real (Libm.real.atan2 (Real.sin a.yaw) (Real.cos a.yaw)) =
      wrapAngle Libm.real a.yaw := wrapAngle_real_atan2 _ _
  unfold planarError
  rw [one_inverse_mul, ← hyaw]
  rfl

/-- A move straight back. -/
theorem planarPose_back (distance : ℝ) :
    (⟨1, ![-distance, 0, 0]⟩ : Isometry3 ℝ) = planarPose Libm.real ⟨-distance, 0, 0⟩ := by
  apply Isometry3.ext
  · ext i j
    fin_cases i <;> fin_cases j <;> simp [planarPose, rotationZ, Libm.real]
  · rfl

/-! ### A target behind the initial pose -/

theorem tagRelativeUndockTarget_planar (initial current : PlanarError ℝ) (distance : ℝ) :
    tagRelativeUndockTarget (planarPose Libm.real initial) (planarPose Libm.real current) distance =
      planarPose Libm.real
        ((initial.compose current.inverse).inverse.compose ⟨-distance, 0, 0⟩) := by
  unfold tagRelativeUndockTarget
  rw [planarPose_back, planarPose_inverse, planarPose_mul, planarPose_mul,
    PlanarError.compose_inverse]

/-- What is left to drive is as far, and as much of a turn, as the robot's pose is from
the pose straight behind its initial one. -/
theorem undockTarget_error (initial current : PlanarError ℝ) (distance : ℝ) :
    let error := planarError Libm.real 1
      (tagRelativeUndockTarget (planarPose Libm.real initial) (planarPose Libm.real current) distance)
    let pose := planarError Libm.real 1
      (planarPose Libm.real initial * (planarPose Libm.real current).inverse)
    Libm.real.hypot error.x error.y = Libm.real.hypot (pose.x + distance) pose.y ∧
      |error.yaw| = |pose.yaw| := by
  dsimp only
  rw [tagRelativeUndockTarget_planar, planarError_planarPose, planarPose_inverse, planarPose_mul,
    planarError_planarPose]
  generalize initial.compose current.inverse = p
  constructor
  · have hsq := Real.sin_sq_add_cos_sq p.yaw
    simp only [Libm.real, PlanarError.compose, PlanarError.inverse, Real.cos_neg, Real.sin_neg]
    congr 1
    linear_combination ((p.x + distance) ^ 2 + p.y ^ 2) * hsq
  · simp only [PlanarError.compose, PlanarError.inverse, add_zero, wrapAngle_real,
      Real.Angle.coe_neg, Real.Angle.abs_toReal_neg]

end X2Navigation
