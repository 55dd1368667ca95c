import Mathlib.Analysis.Normed.Algebra.MatrixExponential
import Mathlib.Analysis.SpecialFunctions.Exponential
import Mathlib.Analysis.SpecialFunctions.Trigonometric.Sinc
import Mathlib.LinearAlgebra.Matrix.DotProduct
import X2Navigation.Rigid.Motion

/-! Rotations as exponentials of rotation vectors. The exponential turns with its vector, is the
rotation about an axis by an angle, has the cross product for its derivative at zero, and
determines its vector below half a turn. -/

namespace X2Navigation.Rigid

open Matrix

/-! ### Cross product matrices -/

theorem skew_add (v w : Fin 3 → ℝ) : skew (v + w) = skew v + skew w := by
  ext i j
  fin_cases i <;> fin_cases j <;> simp [skew] <;> ring

theorem skew_smul (c : ℝ) (v : Fin 3 → ℝ) : skew (c • v) = c • skew v := by
  ext i j
  fin_cases i <;> fin_cases j <;> simp [skew]

@[simp] theorem skew_zero : skew (0 : Fin 3 → ℝ) = 0 := by
  rw [← zero_smul ℝ (0 : Fin 3 → ℝ), skew_smul, zero_smul]

theorem skew_injective {v w : Fin 3 → ℝ} (h : skew v = skew w) : v = w := by
  have h21 := congrFun (congrFun h 2) 1
  have h02 := congrFun (congrFun h 0) 2
  have h10 := congrFun (congrFun h 1) 0
  simp only [skew, of_apply, cons_val', cons_val_zero, cons_val_one, cons_val] at h21 h02 h10
  ext i
  fin_cases i
  · exact h21
  · exact h02
  · exact h10

def skewLinear : (Fin 3 → ℝ) →ₗ[ℝ] Matrix (Fin 3) (Fin 3) ℝ where
  toFun := skew
  map_add' := skew_add
  map_smul' := skew_smul

theorem skew_mul_skew (v : Fin 3 → ℝ) : skew v * skew v = vecMulVec v v - (v ⬝ᵥ v) • 1 := by
  ext i j
  fin_cases i <;> fin_cases j <;>
    simp [skew, Matrix.mul_apply, vecMulVec_apply, dotProduct, Fin.sum_univ_three] <;> ring

theorem skew_mul_skew_mul_skew (v : Fin 3 → ℝ) :
    skew v * (skew v * skew v) = -((v ⬝ᵥ v) • skew v) := by
  have hself : skew v *ᵥ v = 0 := by rw [skew_mulVec, cross_self]
  rw [skew_mul_skew, Matrix.mul_sub, mul_vecMulVec, hself, zero_vecMulVec, Matrix.mul_smul,
    Matrix.mul_one, zero_sub]

/-! ### The exponential -/

noncomputable def rotationExp (v : Fin 3 → ℝ) : Matrix (Fin 3) (Fin 3) ℝ :=
  NormedSpace.exp (skew v)

@[simp] theorem rotationExp_zero : rotationExp 0 = 1 := by
  rw [rotationExp, skew_zero, NormedSpace.exp_zero]

theorem rotationExp_neg (v : Fin 3 → ℝ) : rotationExp (-v) = (rotationExp v)ᵀ := by
  have hneg : skew (-v) = (skew v)ᵀ := by
    rw [transpose_skew, ← neg_one_smul ℝ v, skew_smul, neg_one_smul]
  rw [rotationExp, hneg, exp_transpose, rotationExp]

/-- A rotation turns the vector of a rotation. -/
theorem IsRotation.mul_rotationExp {R : Matrix (Fin 3) (Fin 3) ℝ} (h : IsRotation R)
    (v : Fin 3 → ℝ) : R * rotationExp v * Rᵀ = rotationExp (R *ᵥ v) := by
  have hinv : R⁻¹ = Rᵀ := inv_eq_right_inv h.mul_transpose
  have hunit : IsUnit R := IsUnit.of_mul_eq_one Rᵀ h.mul_transpose
  rw [rotationExp, rotationExp, ← h.mul_skew_mul_transpose, ← hinv, exp_conj _ _ hunit]

open scoped Matrix.Norms.Operator in
/-- To first order, a small rotation adds a cross product. -/
theorem hasFDerivAt_rotationExp_mulVec (A : Matrix (Fin 3) (Fin 3) ℝ) (u : Fin 3 → ℝ) :
    HasFDerivAt (fun v => A *ᵥ (rotationExp v *ᵥ u))
      (LinearMap.toContinuousLinearMap
        ((mulVecLin A).comp (((mulVecBilin ℝ ℝ).flip u).comp skewLinear))) 0 := by
  have hexp : HasFDerivAt NormedSpace.exp
      (1 : Matrix (Fin 3) (Fin 3) ℝ →L[ℝ] Matrix (Fin 3) (Fin 3) ℝ) (skewLinear 0) := by
    rw [map_zero]
    exact hasFDerivAt_exp_zero
  have hrotation := hexp.comp (0 : Fin 3 → ℝ)
    (LinearMap.toContinuousLinearMap skewLinear).hasFDerivAt
  have happlied := (LinearMap.toContinuousLinearMap
    ((mulVecLin A).comp ((mulVecBilin ℝ ℝ).flip u))).hasFDerivAt.comp (0 : Fin 3 → ℝ) hrotation
  exact happlied

/-! ### Axis and angle -/

/-- The rotation by an angle about a unit axis. -/
noncomputable def angleAxisMatrix (axis : Fin 3 → ℝ) (angle : ℝ) : Matrix (Fin 3) (Fin 3) ℝ :=
  Real.cos angle • 1 + (1 - Real.cos angle) • vecMulVec axis axis + Real.sin angle • skew axis

theorem angleAxisMatrix_eq {axis : Fin 3 → ℝ} (h : axis ⬝ᵥ axis = 1) (angle : ℝ) :
    angleAxisMatrix axis angle =
      1 + Real.sin angle • skew axis + (1 - Real.cos angle) • (skew axis * skew axis) := by
  rw [angleAxisMatrix, skew_mul_skew, h, one_smul, smul_sub, sub_smul _ _ (1 : Matrix _ _ ℝ),
    one_smul]
  abel

open scoped Matrix.Norms.Operator in
/-- The closed form solves the equation of the exponential. -/
theorem rotationExp_smul {axis : Fin 3 → ℝ} (h : axis ⬝ᵥ axis = 1) (angle : ℝ) :
    rotationExp (angle • axis) = angleAxisMatrix axis angle := by
  let N := skew axis
  have hcube : N * (N * N) = -N := by rw [skew_mul_skew_mul_skew, h, one_smul]
  let g (t : ℝ) : Matrix (Fin 3) (Fin 3) ℝ :=
    1 + Real.sin t • N + (1 - Real.cos t) • (N * N)
  have hg (t : ℝ) : HasDerivAt g (Real.cos t • N + Real.sin t • (N * N)) t := by
    have hsin := (Real.hasDerivAt_sin t).smul_const N
    have hcos := ((Real.hasDerivAt_cos t).const_sub 1).smul_const (N * N)
    rw [neg_neg] at hcos
    exact (hsin.const_add 1).add hcos
  have hback (t : ℝ) : HasDerivAt (fun u : ℝ => NormedSpace.exp (u • -N))
      (NormedSpace.exp (t • -N) * -N) t := hasDerivAt_exp_smul_const (-N) t
  have hconst (t : ℝ) : HasDerivAt (fun u => NormedSpace.exp (u • -N) * g u) 0 t := by
    have hmul := (hback t).mul (hg t)
    have hzero : NormedSpace.exp (t • -N) * -N * g t +
        NormedSpace.exp (t • -N) * (Real.cos t • N + Real.sin t • (N * N)) = 0 := by
      rw [mul_assoc, ← mul_add]
      have hturned : N * g t = N + Real.sin t • (N * N) + (1 - Real.cos t) • -N := by
        simp only [g, mul_add, mul_one, mul_smul_comm, hcube]
      have hsum : -N * g t + (Real.cos t • N + Real.sin t • (N * N)) = 0 := by
        rw [neg_mul, hturned, sub_smul, one_smul, smul_neg]
        abel
      rw [hsum, mul_zero]
    rwa [hzero] at hmul
  have hdifferentiable : Differentiable ℝ (fun u => NormedSpace.exp (u • -N) * g u) := fun t =>
    (hconst t).differentiableAt
  have hone := is_const_of_deriv_eq_zero hdifferentiable (fun t => (hconst t).deriv) angle 0
  have hleft : NormedSpace.exp (angle • -N) * g angle = 1 := by
    rw [hone]
    simp [g]
  have hcancel : NormedSpace.exp (angle • N) * NormedSpace.exp (angle • -N) = 1 := by
    rw [← Matrix.exp_add_of_commute, smul_neg, add_neg_cancel, NormedSpace.exp_zero]
    exact (Commute.refl N).neg_right.smul_left angle |>.smul_right angle
  rw [rotationExp, skew_smul, angleAxisMatrix_eq h]
  calc NormedSpace.exp (angle • N)
      = NormedSpace.exp (angle • N) * (NormedSpace.exp (angle • -N) * g angle) := by
        rw [hleft, mul_one]
    _ = g angle := by rw [← mul_assoc, hcancel, one_mul]

/-! ### Rotation vectors -/

/-- The angle of a rotation vector. -/
noncomputable def length (v : Fin 3 → ℝ) : ℝ := √(v ⬝ᵥ v)

theorem dotProduct_self_nonneg (v : Fin 3 → ℝ) : 0 ≤ v ⬝ᵥ v :=
  Finset.sum_nonneg fun i _ => mul_self_nonneg (v i)

theorem length_nonneg (v : Fin 3 → ℝ) : 0 ≤ length v := Real.sqrt_nonneg _

theorem length_smul {axis : Fin 3 → ℝ} (h : axis ⬝ᵥ axis = 1) {angle : ℝ} (hangle : 0 ≤ angle) :
    length (angle • axis) = angle := by
  rw [length, smul_dotProduct, dotProduct_smul, h, smul_eq_mul, smul_eq_mul, mul_one]
  exact Real.sqrt_mul_self hangle

theorem length_neg (v : Fin 3 → ℝ) : length (-v) = length v := by
  rw [length, neg_dotProduct_neg, length]

theorem IsRotation.length_mulVec {R : Matrix (Fin 3) (Fin 3) ℝ} (h : IsRotation R)
    (v : Fin 3 → ℝ) : length (R *ᵥ v) = length v := by
  rw [length, dotProduct_mulVec, ← mulVec_transpose, mulVec_mulVec, h.transpose_mul, one_mulVec,
    length]

/-- Every vector is an angle about an axis, and turns by that angle about it. -/
theorem exists_axis (v : Fin 3 → ℝ) : ∃ axis : Fin 3 → ℝ, axis ⬝ᵥ axis = 1 ∧
    length v • axis = v ∧ rotationExp v = angleAxisMatrix axis (length v) := by
  suffices h : ∃ axis : Fin 3 → ℝ, axis ⬝ᵥ axis = 1 ∧ length v • axis = v by
    obtain ⟨axis, haxis, hv⟩ := h
    have hexp := rotationExp_smul haxis (length v)
    rw [hv] at hexp
    exact ⟨axis, haxis, hv, hexp⟩
  have hsq : length v * length v = v ⬝ᵥ v := Real.mul_self_sqrt (dotProduct_self_nonneg v)
  by_cases hzero : length v = 0
  · have hv : v = 0 := by
      rw [hzero, mul_zero] at hsq
      exact dotProduct_self_eq_zero.mp hsq.symm
    exact ⟨![1, 0, 0], by simp, by rw [hzero, zero_smul, hv]⟩
  · refine ⟨(length v)⁻¹ • v, ?_, ?_⟩
    · rw [smul_dotProduct, dotProduct_smul, ← hsq, smul_eq_mul, smul_eq_mul]
      field_simp
    · rw [smul_smul, mul_inv_cancel₀ hzero, one_smul]

theorem trace_rotationExp (v : Fin 3 → ℝ) :
    (rotationExp v).trace = 1 + 2 * Real.cos (length v) := by
  obtain ⟨axis, haxis, -, hexp⟩ := exists_axis v
  rw [hexp]
  simp [angleAxisMatrix, trace_fin_three, skew]
  linear_combination (1 - Real.cos (length v)) * haxis

/-- What is not symmetric in a rotation is its axis. -/
theorem rotationExp_sub_transpose (v : Fin 3 → ℝ) :
    rotationExp v - (rotationExp v)ᵀ = (2 * Real.sinc (length v)) • skew v := by
  obtain ⟨axis, haxis, hv, hexp⟩ := exists_axis v
  have hsin : Real.sinc (length v) * length v = Real.sin (length v) := by
    by_cases hzero : length v = 0
    · rw [hzero, mul_zero, Real.sin_zero]
    · rw [Real.sinc_of_ne_zero hzero, div_mul_cancel₀ _ hzero]
  have hskew : skew v = length v • skew axis := by
    rw [← skew_smul, hv]
  rw [hexp, hskew, smul_smul, mul_assoc, hsin, angleAxisMatrix, transpose_add, transpose_add,
    transpose_smul, transpose_smul, transpose_smul, transpose_one, transpose_vecMulVec,
    transpose_skew, mul_smul, two_smul, smul_neg]
  abel

theorem sinc_ne_zero {angle : ℝ} (h0 : 0 ≤ angle) (hpi : angle < Real.pi) :
    Real.sinc angle ≠ 0 := by
  rcases h0.eq_or_lt with rfl | hpos
  · rw [Real.sinc_zero]
    exact one_ne_zero
  · rw [Real.sinc_of_ne_zero hpos.ne']
    exact (div_pos (Real.sin_pos_of_pos_of_lt_pi hpos hpi) hpos).ne'

/-- Below half a turn a rotation has one rotation vector, and no other of half a turn. -/
theorem rotationExp_injective {v w : Fin 3 → ℝ} (hv : length v < Real.pi)
    (hw : length w ≤ Real.pi) (h : rotationExp v = rotationExp w) : v = w := by
  have hlength : length v = length w := by
    apply Real.injOn_cos ⟨length_nonneg v, hv.le⟩ ⟨length_nonneg w, hw⟩
    have htrace := trace_rotationExp v
    rw [h, trace_rotationExp] at htrace
    linarith
  have hskew := rotationExp_sub_transpose v
  rw [h, rotationExp_sub_transpose, ← hlength] at hskew
  have hne : 2 * Real.sinc (length v) ≠ 0 :=
    mul_ne_zero two_ne_zero (sinc_ne_zero (length_nonneg v) hv)
  exact (skew_injective (smul_right_injective _ hne hskew)).symm

open Classical in
/-- The rotation vector of a rotation by less than half a turn. -/
noncomputable def rotationVector (R : Matrix (Fin 3) (Fin 3) ℝ) : Fin 3 → ℝ :=
  if h : ∃ v, length v < Real.pi ∧ rotationExp v = R then h.choose else 0

theorem rotationVector_rotationExp {v : Fin 3 → ℝ} (hv : length v < Real.pi) :
    rotationVector (rotationExp v) = v := by
  have h : ∃ w, length w < Real.pi ∧ rotationExp w = rotationExp v := ⟨v, hv, rfl⟩
  rw [rotationVector, dif_pos h]
  exact rotationExp_injective h.choose_spec.1 hv.le h.choose_spec.2

end X2Navigation.Rigid
