import X2Navigation.Docking.PlanarPose
import X2Navigation.Rigid.Motion

/-! The dock goes along with the tag. Seen from a robot that has moved in the plane, the projected
axes of a tag are as long as before and turned as the robot is, so the dock is the same place in
the room, wherever the profile puts it in front of the tag. -/

namespace X2Navigation

open Rigid Matrix

/-! ### Turned vectors of the plane -/

theorem hypot_turn (angle x y : ℝ) :
    Libm.real.hypot (Real.cos angle * x - Real.sin angle * y)
        (Real.sin angle * x + Real.cos angle * y) = Libm.real.hypot x y := by
  have hsq := Real.sin_sq_add_cos_sq angle
  simp only [Libm.real]
  congr 1
  linear_combination (x ^ 2 + y ^ 2) * hsq

theorem hypot_facing {x y : ℝ} (h : 0 < Libm.real.hypot x y) :
    Libm.real.hypot (-(x / Libm.real.hypot x y)) (-(y / Libm.real.hypot x y)) = 1 := by
  have hne : Libm.real.hypot x y ≠ 0 := h.ne'
  have hsq : x ^ 2 + y ^ 2 = Libm.real.hypot x y ^ 2 :=
    (Real.sq_sqrt (add_nonneg (sq_nonneg x) (sq_nonneg y))).symm
  generalize Libm.real.hypot x y = n at hne hsq
  apply Libm.real_hypot_eq_one
  field_simp
  linarith

/-- The rotation to the direction of a unit vector is made of its coordinates. -/
theorem rotationZ_atan2 {x y : ℝ} (h : Libm.real.hypot x y = 1) :
    rotationZ Libm.real (Libm.real.atan2 y x) = !![x, -y, 0; y, x, 0; 0, 0, 1] := by
  have hcos := Libm.real_hypot_mul_cos_atan2 x y
  have hsin := Libm.real_hypot_mul_sin_atan2 x y
  rw [h, one_mul] at hcos hsin
  have hcos' : Libm.real.cos (Libm.real.atan2 y x) = x := hcos
  have hsin' : Libm.real.sin (Libm.real.atan2 y x) = y := hsin
  rw [rotationZ, hcos', hsin']

/-- A turned vector has turned its direction. -/
theorem rotationZ_atan2_turn {x y : ℝ} (h : Libm.real.hypot x y = 1) (angle : ℝ) :
    rotationZ Libm.real (Libm.real.atan2 (Real.sin angle * x + Real.cos angle * y)
        (Real.cos angle * x - Real.sin angle * y)) =
      rotationZ Libm.real angle * rotationZ Libm.real (Libm.real.atan2 y x) := by
  rw [rotationZ_atan2 h, rotationZ_atan2 (by rw [hypot_turn, h])]
  ext i j
  fin_cases i <;> fin_cases j <;>
    simp [rotationZ, Libm.real, Matrix.mul_apply, Fin.sum_univ_three] <;> ring

/-! ### Planar motions -/

theorem isRigid_planarPose (motion : PlanarError ℝ) : (planarPose Libm.real motion).IsRigid := by
  constructor
  · have hinverse : (rotationZ Libm.real motion.yaw)ᵀ * rotationZ Libm.real motion.yaw = 1 := by
      rw [transpose_rotationZ, rotationZ_mul, neg_add_cancel]
      ext i j
      fin_cases i <;> fin_cases j <;> simp [rotationZ, Libm.real]
    exact hinverse
  · have hdet : (rotationZ Libm.real motion.yaw).det = 1 := by
      have hsq := Real.sin_sq_add_cos_sq motion.yaw
      rw [det_fin_three]
      simp only [rotationZ, Libm.real, of_apply, cons_val', cons_val_zero, cons_val_one, cons_val]
      linear_combination hsq
    exact hdet

/-- The dock of a moved tag is the moved dock, and a tag is refused from both places or from
neither. -/
theorem tableDockPose_moved (motion : PlanarError ℝ) (fixedToTag : Isometry3 ℝ)
    (standoff lateralOffset yawOffset : ℝ) :
    tableDockPose Libm.real (planarPose Libm.real motion * fixedToTag) standoff lateralOffset
        yawOffset =
      (tableDockPose Libm.real fixedToTag standoff lateralOffset yawOffset).map
        (planarPose Libm.real motion * ·) := by
  have hx (j : Fin 3) : (planarPose Libm.real motion * fixedToTag).linear 0 j =
      Real.cos motion.yaw * fixedToTag.linear 0 j - Real.sin motion.yaw * fixedToTag.linear 1 j := by
    rw [Isometry3.mul_def]
    simp [planarPose, rotationZ, Libm.real, Matrix.mul_apply, Fin.sum_univ_three]
    ring
  have hy (j : Fin 3) : (planarPose Libm.real motion * fixedToTag).linear 1 j =
      Real.sin motion.yaw * fixedToTag.linear 0 j + Real.cos motion.yaw * fixedToTag.linear 1 j := by
    rw [Isometry3.mul_def]
    simp [planarPose, rotationZ, Libm.real, Matrix.mul_apply, Fin.sum_univ_three]
  have htx : (planarPose Libm.real motion * fixedToTag).translation 0 =
      Real.cos motion.yaw * fixedToTag.translation 0 -
        Real.sin motion.yaw * fixedToTag.translation 1 + motion.x := by
    rw [Isometry3.mul_def]
    simp [planarPose, rotationZ, Libm.real, dotProduct, Fin.sum_univ_three]
    ring
  have hty : (planarPose Libm.real motion * fixedToTag).translation 1 =
      Real.sin motion.yaw * fixedToTag.translation 0 +
        Real.cos motion.yaw * fixedToTag.translation 1 + motion.y := by
    rw [Isometry3.mul_def]
    simp [planarPose, rotationZ, Libm.real, dotProduct, Fin.sum_univ_three]
  unfold tableDockPose
  simp only [hx, hy, htx, hty, hypot_turn]
  split
  · rfl
  next hupright =>
  rw [not_or, not_lt, not_lt] at hupright
  have hfacing := hypot_facing (lt_of_lt_of_le (by norm_num) hupright.1)
  have hturn := rotationZ_atan2_turn hfacing motion.yaw
  generalize Libm.real.hypot (fixedToTag.linear 0 2) (fixedToTag.linear 1 2) = outwardNorm at hturn ⊢
  generalize Libm.real.hypot (fixedToTag.linear 0 0) (fixedToTag.linear 1 0) = rightNorm
  rw [Option.map_some, Option.some_inj, Isometry3.mul_def]
  apply Isometry3.ext
  · -- the yaw offset is turned along, whatever it is
    dsimp only
    rw [← rotationZ_mul, ← rotationZ_mul, ← Matrix.mul_assoc]
    congr 1
    show _ = rotationZ Libm.real motion.yaw * _
    rw [← hturn]
    congr 2
    · ring
    · ring
  · dsimp only
    show _ = rotationZ Libm.real motion.yaw *ᵥ _ + ![motion.x, motion.y, 0]
    rw [rotationZ_mulVec]
    funext i
    fin_cases i
    · simp
      ring
    · simp
      ring
    · simp

/-- Undocking sees neither the offsets of the profile nor where the tag is: the target is straight
behind where the robot was, and the measured displacement is the robot's own motion. -/
theorem undock_ignores_profile (fixedToTag : Isometry3 ℝ)
    (motion : PlanarError ℝ) (standoff lateralOffset yawOffset : ℝ) (initial : Isometry3 ℝ)
    (h : tableDockPose Libm.real fixedToTag standoff lateralOffset yawOffset = some initial) :
    let moved := planarPose Libm.real motion
    ∃ current, tableDockPose Libm.real (moved.inverse * fixedToTag) standoff lateralOffset
        yawOffset = some current ∧
      current = moved.inverse * initial ∧
      (∀ distance, tagRelativeUndockTarget initial current distance =
        moved.inverse * ⟨1, ![-distance, 0, 0]⟩) ∧
      initial * current.inverse = moved := by
  intro moved
  have hinverse : moved.inverse = planarPose Libm.real motion.inverse := planarPose_inverse motion
  have hdock : initial.IsRigid := by
    unfold tableDockPose at h
    dsimp only at h
    split at h
    · cases h
    · obtain rfl := Option.some.inj h
      exact isRigid_planarPose ⟨0, 0, _⟩
  have hmoved : moved.IsRigid := isRigid_planarPose motion
  refine ⟨moved.inverse * initial, ?_, rfl, fun distance => ?_, ?_⟩
  · rw [hinverse, tableDockPose_moved, h, Option.map_some]
  · unfold tagRelativeUndockTarget
    rw [mul_assoc moved.inverse, hdock.mul_inverse, mul_one]
  · rw [hmoved.inverse.mul_inverse_rev hdock, hmoved.inverse_inverse, ← mul_assoc,
      hdock.mul_inverse, one_mul]

/-- A tag whose normal is the forward axis of the frame, seen before and after a turn. -/
theorem undock_ignores_profile_turning :
    let tag : Isometry3 ℝ := ⟨!![0, 0, 1; -1, 0, 0; 0, -1, 0], ![2, 0, 1]⟩
    let moved := planarPose Libm.real ⟨1 / 10, 0, 1 / 5⟩
    ∃ initial current, tableDockPose Libm.real tag (7 / 10) (1 / 10) (1 / 20) = some initial ∧
      tableDockPose Libm.real (moved.inverse * tag) (7 / 10) (1 / 10) (1 / 20) = some current ∧
      initial * current.inverse = moved := by
  intro tag moved
  have houtward : Libm.real.hypot (tag.linear 0 2) (tag.linear 1 2) = 1 :=
    Libm.real_hypot_eq_one (by simp [tag])
  have hright : Libm.real.hypot (tag.linear 0 0) (tag.linear 1 0) = 1 :=
    Libm.real_hypot_eq_one (by simp [tag])
  obtain ⟨initial, hinitial⟩ : ∃ initial,
      tableDockPose Libm.real tag (7 / 10) (1 / 10) (1 / 20) = some initial := by
    unfold tableDockPose
    dsimp only
    rw [houtward, hright, if_neg (by norm_num)]
    exact ⟨_, rfl⟩
  obtain ⟨current, hcurrent, -, -, hmotion⟩ := undock_ignores_profile tag ⟨1 / 10, 0, 1 / 5⟩ _ _ _
    initial hinitial
  exact ⟨initial, current, hinitial, hcurrent, hmotion⟩

end X2Navigation
