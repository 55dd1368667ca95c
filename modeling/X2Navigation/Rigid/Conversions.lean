import X2Navigation.Numeric.Libm
import X2Navigation.Rigid.Exponential

/-! The conversions of a rotation matrix, as the library documents them and as it computes them,
in exact arithmetic. The products of the coefficients of a quaternion are read off the matrix;
the largest of the squares is the one to divide by. -/

namespace X2Navigation.Rigid

open Matrix

namespace Eigen

/-! ### What is documented -/

/-- The quaternion of a rotation has norm one and stands for the rotation. -/
def ReadsQuaternion (E : Eigen ℝ) : Prop :=
  ∀ R, IsRotation R → (E.quaternion R).squaredNorm = 1 ∧ toRotationMatrix (E.quaternion R) = R

/-- The axis of a rotation is a unit vector, its angle is from zero to half a turn, and they stand
for the rotation. -/
structure IsAngleAxis (angleAxis : (Fin 3 → ℝ) × ℝ) (R : Matrix (Fin 3) (Fin 3) ℝ) : Prop where
  unit : angleAxis.1 ⬝ᵥ angleAxis.1 = 1
  nonneg : 0 ≤ angleAxis.2
  le_pi : angleAxis.2 ≤ Real.pi
  rotation : angleAxisMatrix angleAxis.1 angleAxis.2 = R

def ReadsAngleAxis (E : Eigen ℝ) : Prop := ∀ R, IsRotation R → IsAngleAxis (E.angleAxis R) R

theorem IsAngleAxis.trace {angleAxis : (Fin 3 → ℝ) × ℝ} {R : Matrix (Fin 3) (Fin 3) ℝ}
    (h : IsAngleAxis angleAxis R) : R.trace = 1 + 2 * Real.cos angleAxis.2 := by
  rw [← h.rotation, ← rotationExp_smul h.unit, trace_rotationExp, length_smul h.unit h.nonneg]

/-- A rotation and its inverse turn by the same angle. -/
theorem ReadsAngleAxis.angle_transpose {E : Eigen ℝ} (hE : E.ReadsAngleAxis)
    {R : Matrix (Fin 3) (Fin 3) ℝ} (hR : IsRotation R) :
    (E.angleAxis Rᵀ).2 = (E.angleAxis R).2 := by
  have hread := hE R hR
  have hread' := hE Rᵀ hR.transpose
  apply Real.injOn_cos ⟨hread'.nonneg, hread'.le_pi⟩ ⟨hread.nonneg, hread.le_pi⟩
  have htrace := hread'.trace
  rw [trace_transpose, hread.trace] at htrace
  linarith

/-- `std::sqrt` of what is not negative. -/
def TakesRoots (E : Eigen ℝ) : Prop := ∀ x, 0 ≤ x → E.sqrt x = √x

/-- A normalized quaternion stands for a rotation, the zero one for none. -/
theorem TakesRoots.isRotation_normalized {E : Eigen ℝ} (hE : E.TakesRoots) (q : Quaterniond ℝ) :
    IsRotation (toRotationMatrix (E.normalized q)) := by
  have hx := mul_self_nonneg q.x
  have hy := mul_self_nonneg q.y
  have hz := mul_self_nonneg q.z
  have hw := mul_self_nonneg q.w
  have hnonneg : 0 ≤ q.squaredNorm := by
    unfold Quaterniond.squaredNorm
    linarith
  unfold normalized
  split
  · next hpos =>
    have hroot : E.quaternionNorm q * E.quaternionNorm q = q.squaredNorm := by
      rw [quaternionNorm, hE _ hnonneg, Real.mul_self_sqrt hnonneg]
    apply isRotation_toRotationMatrix
    have hne : E.quaternionNorm q ≠ 0 := by
      intro hzero
      rw [hzero, mul_zero] at hroot
      exact hpos.ne hroot
    generalize E.quaternionNorm q = n at hroot hne
    unfold Quaterniond.squaredNorm at hroot ⊢
    dsimp only
    field_simp
    linarith
  · next hzero =>
    have hsum : q.x * q.x + q.y * q.y + q.z * q.z + q.w * q.w = 0 :=
      le_antisymm (not_lt.mp hzero) hnonneg
    have hx0 : q.x = 0 := mul_self_eq_zero.mp (by linarith)
    have hy0 : q.y = 0 := mul_self_eq_zero.mp (by linarith)
    have hz0 : q.z = 0 := mul_self_eq_zero.mp (by linarith)
    have hone : toRotationMatrix q = 1 := by
      ext i j
      fin_cases i <;> fin_cases j <;> simp [toRotationMatrix, hx0, hy0, hz0]
    rw [hone]
    exact isRotation_one

/-! ### Quaternions -/

/-- Four times the products of the coefficients `x`, `y`, `z` and `w`. -/
def products (R : Matrix (Fin 3) (Fin 3) ℝ) : Matrix (Fin 4) (Fin 4) ℝ :=
  !![1 + R 0 0 - R 1 1 - R 2 2, R 0 1 + R 1 0, R 0 2 + R 2 0, R 2 1 - R 1 2;
     R 0 1 + R 1 0, 1 - R 0 0 + R 1 1 - R 2 2, R 1 2 + R 2 1, R 0 2 - R 2 0;
     R 0 2 + R 2 0, R 1 2 + R 2 1, 1 - R 0 0 - R 1 1 + R 2 2, R 1 0 - R 0 1;
     R 2 1 - R 1 2, R 0 2 - R 2 0, R 1 0 - R 0 1, 1 + R 0 0 + R 1 1 + R 2 2]

theorem row_of_isRotation {R : Matrix (Fin 3) (Fin 3) ℝ} (h : IsRotation R) (i : Fin 3) :
    R i 0 * R i 0 + R i 1 * R i 1 + R i 2 * R i 2 = 1 := by
  have hi := congrFun (congrFun h.mul_transpose i) i
  rwa [Matrix.mul_apply, Fin.sum_univ_three, one_apply_eq] at hi

theorem products_comm (R : Matrix (Fin 3) (Fin 3) ℝ) (a b : Fin 4) :
    products R a b = products R b a := by
  fin_cases a <;> fin_cases b <;> rfl

/-- The products of a rotation are those of one vector with itself. -/
theorem products_mul {R : Matrix (Fin 3) (Fin 3) ℝ} (h : IsRotation R) (a b c : Fin 4) :
    products R a a * products R b c = products R a b * products R a c := by
  have hrow0 := row_of_isRotation h 0
  have hrow1 := row_of_isRotation h 1
  have hrow2 := row_of_isRotation h 2
  have hcolumn0 := row_of_isRotation h.transpose 0
  have hcolumn1 := row_of_isRotation h.transpose 1
  have hcolumn2 := row_of_isRotation h.transpose 2
  have hcofactor (i j : Fin 3) : R.adjugate i j = R j i := by rw [h.adjugate_eq, transpose_apply]
  simp only [adjugate_fin_three] at hcofactor
  have h00 : R 1 1 * R 2 2 - R 1 2 * R 2 1 = R 0 0 := hcofactor 0 0
  have h01 : -(R 1 0 * R 2 2) + R 1 2 * R 2 0 = R 0 1 := hcofactor 1 0
  have h02 : R 1 0 * R 2 1 - R 1 1 * R 2 0 = R 0 2 := hcofactor 2 0
  have h10 : -(R 0 1 * R 2 2) + R 0 2 * R 2 1 = R 1 0 := hcofactor 0 1
  have h11 : R 0 0 * R 2 2 - R 0 2 * R 2 0 = R 1 1 := hcofactor 1 1
  have h12 : -(R 0 0 * R 2 1) + R 0 1 * R 2 0 = R 1 2 := hcofactor 2 1
  have h20 : R 0 1 * R 1 2 - R 0 2 * R 1 1 = R 2 0 := hcofactor 0 2
  have h21 : -(R 0 0 * R 1 2) + R 0 2 * R 1 0 = R 2 1 := hcofactor 1 2
  have h22 : R 0 0 * R 1 1 - R 0 1 * R 1 0 = R 2 2 := hcofactor 2 2
  clear hcofactor
  simp only [transpose_apply] at hcolumn0 hcolumn1 hcolumn2
  wlog hbc : b ≤ c generalizing b c
  · rw [products_comm R b c, mul_comm (products R a b)]
    exact this c b (le_of_not_ge hbc)
  obtain rfl | hab := eq_or_ne a b
  · rfl
  obtain rfl | hac := eq_or_ne a c
  · rw [products_comm R b a, mul_comm]
  fin_cases a <;> fin_cases b <;> fin_cases c <;>
    first
      | exact absurd rfl hab
      | exact absurd rfl hac
      | exact absurd hbc (by decide)
      | clear hab hac hbc
        simp [products]
        grind

/-- A quaternion with these products is one of the rotation. -/
theorem quaternion_of_products {R : Matrix (Fin 3) (Fin 3) ℝ} {q : Fin 4 → ℝ}
    (h : ∀ b c, 4 * (q b * q c) = products R b c) :
    (⟨q 0, q 1, q 2, q 3⟩ : Quaterniond ℝ).squaredNorm = 1 ∧
      toRotationMatrix ⟨q 0, q 1, q 2, q 3⟩ = R := by
  have hxx : 4 * (q 0 * q 0) = 1 + R 0 0 - R 1 1 - R 2 2 := h 0 0
  have hyy : 4 * (q 1 * q 1) = 1 - R 0 0 + R 1 1 - R 2 2 := h 1 1
  have hzz : 4 * (q 2 * q 2) = 1 - R 0 0 - R 1 1 + R 2 2 := h 2 2
  have hww : 4 * (q 3 * q 3) = 1 + R 0 0 + R 1 1 + R 2 2 := h 3 3
  have hxy : 4 * (q 0 * q 1) = R 0 1 + R 1 0 := h 0 1
  have hxz : 4 * (q 0 * q 2) = R 0 2 + R 2 0 := h 0 2
  have hyz : 4 * (q 1 * q 2) = R 1 2 + R 2 1 := h 1 2
  have hxw : 4 * (q 0 * q 3) = R 2 1 - R 1 2 := h 0 3
  have hyw : 4 * (q 1 * q 3) = R 0 2 - R 2 0 := h 1 3
  have hzw : 4 * (q 2 * q 3) = R 1 0 - R 0 1 := h 2 3
  constructor
  · unfold Quaterniond.squaredNorm
    linarith
  · ext i j
    fin_cases i <;> fin_cases j <;> simp [toRotationMatrix] <;> linarith

/-- The row to read the coefficients off: the last where the trace is positive, else the one of
the largest entry on the diagonal. -/
noncomputable def pivot (R : Matrix (Fin 3) (Fin 3) ℝ) : Fin 4 :=
  if 0 < R 0 0 + R 1 1 + R 2 2 then 3
  else if R 0 0 < R 1 1 then (if R 1 1 < R 2 2 then 2 else 1)
  else if R 0 0 < R 2 2 then 2 else 0

theorem products_pivot_pos (R : Matrix (Fin 3) (Fin 3) ℝ) :
    0 < products R (pivot R) (pivot R) := by
  unfold pivot
  split_ifs <;> simp [products] <;> linarith

noncomputable def exactQuaternion (R : Matrix (Fin 3) (Fin 3) ℝ) : Quaterniond ℝ :=
  let t := √(products R (pivot R) (pivot R))
  ⟨products R (pivot R) 0 / (2 * t), products R (pivot R) 1 / (2 * t),
    products R (pivot R) 2 / (2 * t), products R (pivot R) 3 / (2 * t)⟩

theorem exactQuaternion_of_rotation {R : Matrix (Fin 3) (Fin 3) ℝ} (h : IsRotation R) :
    (exactQuaternion R).squaredNorm = 1 ∧ toRotationMatrix (exactQuaternion R) = R := by
  have hpos := products_pivot_pos R
  have hsq := Real.mul_self_sqrt hpos.le
  have hne : √(products R (pivot R) (pivot R)) ≠ 0 := (Real.sqrt_pos.mpr hpos).ne'
  refine quaternion_of_products (q := fun b => products R (pivot R) b /
    (2 * √(products R (pivot R) (pivot R)))) fun b c => ?_
  have hmul := products_mul h (pivot R) b c
  generalize √(products R (pivot R) (pivot R)) = t at hsq hne
  rw [← hsq] at hmul
  field_simp
  linarith

/-! ### Axis and angle -/

theorem toRotationMatrix_eq (q : Quaterniond ℝ) :
    toRotationMatrix q = 1 + (2 * q.w) • skew ![q.x, q.y, q.z] +
      2 • (skew ![q.x, q.y, q.z] * skew ![q.x, q.y, q.z]) := by
  ext i j
  fin_cases i <;> fin_cases j <;>
    simp [toRotationMatrix, skew] <;> ring

/-- Twice the angle between the quaternion and the scalars, about its vector part. -/
noncomputable def exactAngleAxis (R : Matrix (Fin 3) (Fin 3) ℝ) : (Fin 3 → ℝ) × ℝ :=
  let q := exactQuaternion R
  let v := ![q.x, q.y, q.z]
  if length v = 0 then (![1, 0, 0], 0)
  else ((if q.w < 0 then -(length v)⁻¹ else (length v)⁻¹) • v, 2 * Libm.real.atan2 (length v) |q.w|)

/-- The half angle of a unit quaternion. -/
theorem half_angle {n w : ℝ} (hn : 0 ≤ n) (hnorm : n * n + w * w = 1) :
    0 ≤ Libm.real.atan2 n |w| ∧ Libm.real.atan2 n |w| ≤ Real.pi / 2 ∧
      Real.cos (Libm.real.atan2 n |w|) = |w| ∧ Real.sin (Libm.real.atan2 n |w|) = n := by
  have hlength : Libm.real.hypot |w| n = 1 := by
    apply Libm.real_hypot_eq_one
    rw [sq_abs]
    linarith
  have hcos := Libm.real_hypot_mul_cos_atan2 |w| n
  have hsin := Libm.real_hypot_mul_sin_atan2 |w| n
  rw [hlength, one_mul] at hcos hsin
  have hnonneg : 0 ≤ Libm.real.atan2 n |w| := Complex.arg_nonneg_iff.mpr hn
  have hacute : |(Libm.real.atan2 n |w|)| ≤ Real.pi / 2 :=
    Complex.abs_arg_le_pi_div_two_iff.mpr (abs_nonneg w)
  exact ⟨hnonneg, (abs_le.mp hacute).2, hcos, hsin⟩

theorem exactAngleAxis_of_rotation {R : Matrix (Fin 3) (Fin 3) ℝ} (h : IsRotation R) :
    IsAngleAxis (exactAngleAxis R) R := by
  obtain ⟨hnorm, hR⟩ := exactQuaternion_of_rotation h
  unfold exactAngleAxis
  dsimp only
  generalize exactQuaternion R = q at hnorm hR
  rw [toRotationMatrix_eq] at hR
  have hdot : ![q.x, q.y, q.z] ⬝ᵥ ![q.x, q.y, q.z] = q.x * q.x + q.y * q.y + q.z * q.z := by
    simp [dotProduct, Fin.sum_univ_three]
  generalize ![q.x, q.y, q.z] = v at hR hdot
  have hsq : length v * length v = v ⬝ᵥ v := Real.mul_self_sqrt (dotProduct_self_nonneg v)
  have hunit : length v * length v + q.w * q.w = 1 := by
    rw [hsq, hdot]
    exact hnorm
  obtain ⟨hnonneg, hacute, hcos, hsin⟩ := half_angle (length_nonneg v) hunit
  split
  · next hzero =>
    have hv : v = 0 := by
      rw [hzero, mul_zero] at hsq
      exact dotProduct_self_eq_zero.mp hsq.symm
    have haxis : (![1, 0, 0] : Fin 3 → ℝ) ⬝ᵥ ![1, 0, 0] = 1 := by
      simp [dotProduct, Fin.sum_univ_three]
    refine ⟨haxis, le_rfl, Real.pi_pos.le, ?_⟩
    dsimp only
    rw [← hR, hv, angleAxisMatrix_eq haxis]
    simp
  · next hne =>
    -- the axis has the sign of the scalar part, so that the angle stays within half a turn
    obtain ⟨scale, hscale, hscaled, hsign⟩ : ∃ scale : ℝ,
        (if q.w < 0 then -(length v)⁻¹ else (length v)⁻¹) = scale ∧
          scale * scale * (length v * length v) = 1 ∧ scale * length v * |q.w| = q.w := by
      split
      · next hneg =>
        refine ⟨_, rfl, by field_simp, ?_⟩
        rw [abs_of_neg hneg]
        field_simp
      · next hpos =>
        refine ⟨_, rfl, by field_simp, ?_⟩
        rw [abs_of_nonneg (not_lt.mp hpos)]
        field_simp
    rw [hscale]
    have haxis : (scale • v) ⬝ᵥ (scale • v) = 1 := by
      rw [smul_dotProduct, dotProduct_smul, ← hsq, smul_eq_mul, smul_eq_mul, ← mul_assoc, hscaled]
    refine ⟨haxis, by linarith, by linarith, ?_⟩
    have hturn : Real.sin (2 * Libm.real.atan2 (length v) |q.w|) * scale = 2 * q.w := by
      rw [Real.sin_two_mul, hcos, hsin]
      linear_combination 2 * hsign
    have hversine : (1 - Real.cos (2 * Libm.real.atan2 (length v) |q.w|)) * scale * scale = 2 := by
      rw [Real.cos_two_mul, hcos, sq_abs]
      linear_combination 2 * hscaled - 2 * scale * scale * hunit
    dsimp only
    rw [angleAxisMatrix_eq haxis, ← hR, skew_smul, smul_smul, hturn, Matrix.smul_mul,
      Matrix.mul_smul, smul_smul, smul_smul, hversine]
    norm_num [two_smul]

/-- The library, in exact arithmetic. -/
noncomputable def exact : Eigen ℝ := ⟨Real.sqrt, exactAngleAxis, exactQuaternion⟩

theorem exact_takesRoots : exact.TakesRoots := fun _ _ => rfl

theorem exact_readsQuaternion : exact.ReadsQuaternion := fun _ => exactQuaternion_of_rotation

theorem exact_readsAngleAxis : exact.ReadsAngleAxis := fun _ => exactAngleAxis_of_rotation

end Eigen

end X2Navigation.Rigid
