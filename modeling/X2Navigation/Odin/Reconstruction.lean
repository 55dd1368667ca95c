import X2Navigation.Odin.Transform
import X2Navigation.Rigid.Conversions

/-! The velocity between two base poses is the motion of the base. It is read off the earlier pose
seen from the later one, so that it leads from the one to the other, and it does not change with
the frame in which both are given or with the mounts that the poses were found through. -/

namespace X2Navigation

open Matrix Rigid

variable {E E' : Eigen ℝ} {A B A' B' : Isometry3 ℝ} {dt : ℝ} {twist twist' : Twist ℝ}

/-! ### The earlier pose, seen from the later one -/

theorem odinLocalTwist_isSome (E : Eigen ℝ) (A B : Isometry3 ℝ) (hdt : 0 < dt) :
    ∃ twist, odinLocalTwist E A B dt = some twist := by
  rw [odinLocalTwist, if_neg (not_le.mpr hdt)]
  exact ⟨_, rfl⟩

/-- The shift between the poses, in the axes of the later one. -/
theorem odinLocalTwist_linear (hdt : 0 < dt) (h : odinLocalTwist E A B dt = some twist) :
    dt • twist.linear.toFun = -(B.inverse * A).translation := by
  rw [odinLocalTwist, if_neg (not_le.mpr hdt), Option.some_inj] at h
  have hshift : -(B.inverse * A).translation = B.linearᵀ *ᵥ (B.translation - A.translation) := by
    show -(B.linearᵀ *ᵥ A.translation + -(B.linearᵀ *ᵥ B.translation)) = _
    rw [mulVec_sub, neg_add, neg_neg, add_comm, sub_eq_add_neg]
  rw [← h, Vector3.toFun_ofFun, hshift]
  funext i
  exact mul_div_cancel₀ _ hdt.ne'

/-- The turn between the poses, about the axis of its inverse the other way round. -/
theorem odinLocalTwist_angular (hdt : 0 < dt) (h : odinLocalTwist E A B dt = some twist) :
    dt • twist.angular.toFun = -((E.angleAxis (B.inverse * A).linear).2 •
      (E.angleAxis (B.inverse * A).linear).1) := by
  rw [odinLocalTwist, if_neg (not_le.mpr hdt), Option.some_inj] at h
  rw [← h, Vector3.toFun_ofFun]
  funext i
  show dt * (-(E.angleAxis (B.inverse * A).linear).1 i * (E.angleAxis (B.inverse * A).linear).2 /
    dt) = -((E.angleAxis (B.inverse * A).linear).2 * (E.angleAxis (B.inverse * A).linear).1 i)
  rw [mul_div_cancel₀ _ hdt.ne', neg_mul, mul_comm]

theorem rotationExp_angleAxis (hE : E.ReadsAngleAxis) {R : Matrix (Fin 3) (Fin 3) ℝ}
    (hR : IsRotation R) : rotationExp ((E.angleAxis R).2 • (E.angleAxis R).1) = R := by
  rw [rotationExp_smul (hE R hR).unit, (hE R hR).rotation]

/-! ### The motion of the base -/

/-- The base moves from the earlier pose to the later one. -/
theorem odinLocalTwist_reaches (hE : E.ReadsAngleAxis) (hA : A.IsRigid) (hB : B.IsRigid)
    (hdt : 0 < dt) (h : odinLocalTwist E A B dt = some twist) :
    A.translation + B.linear *ᵥ (dt • twist.linear.toFun) = B.translation ∧
      A.linear * rotationExp (dt • twist.angular.toFun) = B.linear := by
  have hBA : (B.inverse * A).IsRigid := hB.inverse.mul hA
  have hturned : B * (B.inverse * A) = A := by rw [← mul_assoc, hB.mul_inverse, one_mul]
  constructor
  · have htranslation : B.linear *ᵥ (B.inverse * A).translation + B.translation = A.translation :=
      congrArg Isometry3.translation hturned
    rw [odinLocalTwist_linear hdt h, mulVec_neg, ← htranslation]
    abel
  · have hlinear : B.linear * (B.inverse * A).linear = A.linear :=
      congrArg Isometry3.linear hturned
    rw [odinLocalTwist_angular hdt h, rotationExp_neg, rotationExp_angleAxis hE hBA, ← hlinear,
      Matrix.mul_assoc, IsRotation.mul_transpose hBA, Matrix.mul_one]

/-- The velocity is that of the relative pose, however the axis of the turn is found. At half a
turn the axis may point either way. -/
theorem odinLocalTwist_congr (hE : E.ReadsAngleAxis) (hE' : E'.ReadsAngleAxis) (hA : A.IsRigid)
    (hB : B.IsRigid) (hdt : 0 < dt) (hrelative : B'.inverse * A' = B.inverse * A)
    (h : odinLocalTwist E A B dt = some twist) (h' : odinLocalTwist E' A' B' dt = some twist') :
    twist'.linear = twist.linear ∧
      ((E.angleAxis (B.inverse * A).linear).2 < Real.pi → twist'.angular = twist.angular) := by
  have hBA : IsRotation (B.inverse * A).linear := hB.inverse.mul hA
  constructor
  · have hsame := odinLocalTwist_linear hdt h'
    rw [hrelative, ← odinLocalTwist_linear hdt h] at hsame
    exact Vector3.toFun_injective (smul_right_injective _ hdt.ne' hsame)
  · intro hpi
    have hread := hE _ hBA
    have hread' := hE' _ hBA
    have hvector : (E.angleAxis (B.inverse * A).linear).2 • (E.angleAxis (B.inverse * A).linear).1 =
        (E'.angleAxis (B.inverse * A).linear).2 • (E'.angleAxis (B.inverse * A).linear).1 := by
      apply rotationExp_injective
      · rwa [length_smul hread.unit hread.nonneg]
      · rw [length_smul hread'.unit hread'.nonneg]
        exact hread'.le_pi
      · rw [rotationExp_angleAxis hE hBA, rotationExp_angleAxis hE' hBA]
    have hsame := odinLocalTwist_angular hdt h'
    rw [hrelative, ← hvector, ← odinLocalTwist_angular hdt h] at hsame
    exact Vector3.toFun_injective (smul_right_injective _ hdt.ne' hsame)

theorem relative_correction {C : Isometry3 ℝ} (hC : C.IsRigid) (hB : B.IsRigid) :
    (C * B).inverse * (C * A) = B.inverse * A := by
  rw [hC.mul_inverse_rev hB, mul_assoc, ← mul_assoc C.inverse, hC.inverse_mul, one_mul]

/-- The base is found through any mount. -/
theorem odinBasePose_mount (base : Isometry3 ℝ) {mount : Isometry3 ℝ} (hmount : mount.IsRigid) :
    odinBasePose (base * mount) mount = base := by
  rw [odinBasePose, mul_assoc, hmount.mul_inverse, mul_one]

/-- The velocity leads from the earlier pose of the base to the later one, and neither a rigid
correction of the frame nor a mount that moves between the two enters it. -/
theorem odinLocalTwist_reconstructs (E : Eigen ℝ) (hE : E.ReadsAngleAxis) (A B : Isometry3 ℝ)
    (hA : A.IsRigid) (hB : B.IsRigid) (dt : ℝ) (hdt : 0 < dt) :
    ∃ twist, odinLocalTwist E A B dt = some twist ∧
      A.translation + B.linear *ᵥ (dt • twist.linear.toFun) = B.translation ∧
      A.linear * rotationExp (dt • twist.angular.toFun) = B.linear ∧
      ∀ (E' : Eigen ℝ), E'.ReadsAngleAxis →
        (∀ C : Isometry3 ℝ, C.IsRigid → ∃ corrected,
          odinLocalTwist E' (C * A) (C * B) dt = some corrected ∧
            corrected.linear = twist.linear ∧
            ((E.angleAxis (B.linearᵀ * A.linear)).2 < Real.pi →
              corrected.angular = twist.angular)) ∧
        ∀ mount mount' : Isometry3 ℝ, mount.IsRigid → mount'.IsRigid → ∃ mounted,
          odinLocalTwist E' (odinBasePose (A * mount) mount) (odinBasePose (B * mount') mount') dt =
              some mounted ∧
            mounted.linear = twist.linear ∧
            ((E.angleAxis (B.linearᵀ * A.linear)).2 < Real.pi →
              mounted.angular = twist.angular) := by
  obtain ⟨twist, htwist⟩ := odinLocalTwist_isSome E A B hdt
  obtain ⟨htranslation, hlinear⟩ := odinLocalTwist_reaches hE hA hB hdt htwist
  refine ⟨twist, htwist, htranslation, hlinear, fun E' hE' => ⟨?_, ?_⟩⟩
  · intro C hC
    obtain ⟨corrected, hcorrected⟩ := odinLocalTwist_isSome E' (C * A) (C * B) hdt
    exact ⟨corrected, hcorrected,
      odinLocalTwist_congr hE hE' hA hB hdt (relative_correction hC hB) htwist hcorrected⟩
  · intro mount mount' hmount hmount'
    rw [odinBasePose_mount A hmount, odinBasePose_mount B hmount']
    obtain ⟨mounted, hmounted⟩ := odinLocalTwist_isSome E' A B hdt
    exact ⟨mounted, hmounted, odinLocalTwist_congr hE hE' hA hB hdt rfl htwist hmounted⟩

/-- No turn is less than half a turn. -/
theorem angleAxis_one_lt_pi (hE : E.ReadsAngleAxis) : (E.angleAxis 1).2 < Real.pi := by
  have hread := hE 1 isRotation_one
  have htrace := trace_rotationExp ((E.angleAxis 1).2 • (E.angleAxis 1).1)
  rw [rotationExp_angleAxis hE isRotation_one, length_smul hread.unit hread.nonneg, trace_one,
    Fintype.card_fin] at htrace
  refine lt_of_le_of_ne hread.le_pi fun hpi => ?_
  rw [hpi, Real.cos_pi] at htrace
  norm_num at htrace

/-- Two metres straight ahead in half a second, under a torso that rises by a metre. -/
theorem odinLocalTwist_reconstructs_straight :
    ∃ twist, odinLocalTwist Eigen.exact
        (odinBasePose (⟨1, ![1, 0, 0]⟩ * ⟨1, ![0, 0, 1]⟩) ⟨1, ![0, 0, 1]⟩)
        (odinBasePose (⟨1, ![3, 0, 0]⟩ * ⟨1, ![0, 0, 2]⟩) ⟨1, ![0, 0, 2]⟩) (1 / 2) = some twist ∧
      twist.linear = ⟨4, 0, 0⟩ ∧
      (1 : Matrix _ _ ℝ) * rotationExp ((1 / 2 : ℝ) • twist.angular.toFun) = 1 := by
  have hrigid (translation : Fin 3 → ℝ) : (⟨1, translation⟩ : Isometry3 ℝ).IsRigid :=
    isRotation_one
  obtain ⟨twist, -, htranslation, hlinear, hunchanged⟩ := odinLocalTwist_reconstructs Eigen.exact
    Eigen.exact_readsAngleAxis ⟨1, ![1, 0, 0]⟩ ⟨1, ![3, 0, 0]⟩ (hrigid _) (hrigid _) (1 / 2)
    (by norm_num)
  obtain ⟨mounted, hmounted, hsame, hangular⟩ := (hunchanged Eigen.exact
    Eigen.exact_readsAngleAxis).2 ⟨1, ![0, 0, 1]⟩ ⟨1, ![0, 0, 2]⟩ (hrigid _) (hrigid _)
  have hpi : (Eigen.exact.angleAxis ((1 : Matrix (Fin 3) (Fin 3) ℝ)ᵀ * 1)).2 < Real.pi := by
    rw [Matrix.mul_one, transpose_one]
    exact angleAxis_one_lt_pi Eigen.exact_readsAngleAxis
  refine ⟨mounted, hmounted, ?_, ?_⟩
  · rw [hsame]
    rw [one_mulVec] at htranslation
    have h0 : 1 + 1 / 2 * twist.linear.x = 3 := congrFun htranslation 0
    have h1 : 0 + 1 / 2 * twist.linear.y = 0 := congrFun htranslation 1
    have h2 : 0 + 1 / 2 * twist.linear.z = 0 := congrFun htranslation 2
    apply Vector3.toFun_injective
    funext i
    fin_cases i
    · show twist.linear.x = 4
      linarith
    · show twist.linear.y = 0
      linarith
    · show twist.linear.z = 0
      linarith
  · rw [hangular hpi]
    exact hlinear

end X2Navigation
