import Mathlib.Analysis.SpecialFunctions.Complex.Arg

/-! The elementary functions of the C++ library as a parameter, so that what is
built on them can be run where they are known, and their real instance. -/

namespace X2Navigation

structure Libm (K : Type*) where
  sin : K → K
  cos : K → K
  atan2 : K → K → K
  hypot : K → K → K

namespace Libm

/-- Rational functions that agree with the real ones at the angle zero, and for the
hypotenuse along either axis. -/
def straight : Libm ℚ where
  sin _ := 0
  cos _ := 1
  atan2 _ _ := 0
  hypot x y := |x| + |y|

/-- Exact real functions. The argument of zero is zero, as `std::atan2` has it. -/
noncomputable def real : Libm ℝ where
  sin := Real.sin
  cos := Real.cos
  atan2 y x := Complex.arg ⟨x, y⟩
  hypot x y := √(x ^ 2 + y ^ 2)

theorem real_hypot_nonneg (x y : ℝ) : 0 ≤ real.hypot x y := Real.sqrt_nonneg _

theorem real_hypot_pos_iff (x y : ℝ) : 0 < real.hypot x y ↔ x ≠ 0 ∨ y ≠ 0 := by
  have hx := sq_nonneg x
  have hy := sq_nonneg y
  rw [real, Real.sqrt_pos]
  constructor
  · intro h
    by_contra hn
    push Not at hn
    simp [hn.1, hn.2] at h
  · rintro (h | h)
    · have := sq_pos_of_ne_zero h
      linarith
    · have := sq_pos_of_ne_zero h
      linarith

@[simp] theorem real_hypot_eq_zero_iff (x y : ℝ) : real.hypot x y = 0 ↔ x = 0 ∧ y = 0 := by
  have h := real_hypot_pos_iff x y
  have h0 := real_hypot_nonneg x y
  constructor
  · intro he
    by_contra hn
    have : 0 < real.hypot x y := h.mpr (by tauto)
    linarith
  · rintro ⟨rfl, rfl⟩
    simp [real]

theorem real_hypot_eq_norm (x y : ℝ) : real.hypot x y = ‖(⟨x, y⟩ : ℂ)‖ :=
  (Complex.norm_eq_sqrt_sq_add_sq ⟨x, y⟩).symm

/-- A vector is its length along its own direction. -/
theorem real_hypot_eq_one {x y : ℝ} (h : x ^ 2 + y ^ 2 = 1) : real.hypot x y = 1 := by
  show √(x ^ 2 + y ^ 2) = 1
  rw [h, Real.sqrt_one]

theorem real_hypot_mul_cos_atan2 (x y : ℝ) :
    real.hypot x y * Real.cos (real.atan2 y x) = x := by
  rw [real_hypot_eq_norm]
  exact Complex.norm_mul_cos_arg _

theorem real_hypot_mul_sin_atan2 (x y : ℝ) :
    real.hypot x y * Real.sin (real.atan2 y x) = y := by
  rw [real_hypot_eq_norm]
  exact Complex.norm_mul_sin_arg _

theorem real_hypot_polar {r : ℝ} (hr : 0 ≤ r) (angle : ℝ) :
    real.hypot (r * Real.cos angle) (r * Real.sin angle) = r := by
  have hsq : (r * Real.cos angle) ^ 2 + (r * Real.sin angle) ^ 2 = r ^ 2 := by
    have := Real.sin_sq_add_cos_sq angle
    linear_combination r ^ 2 * this
  show √((r * Real.cos angle) ^ 2 + (r * Real.sin angle) ^ 2) = r
  rw [hsq, Real.sqrt_sq hr]

/-- The direction of a vector does not depend on its length. -/
theorem real_atan2_mul {r : ℝ} (hr : 0 < r) (x y : ℝ) :
    real.atan2 (r * y) (r * x) = real.atan2 y x := by
  have hmul : (⟨r * x, r * y⟩ : ℂ) = r * ⟨x, y⟩ := by apply Complex.ext <;> simp
  show Complex.arg ⟨r * x, r * y⟩ = Complex.arg ⟨x, y⟩
  rw [hmul, Complex.arg_real_mul _ hr]

end Libm

variable {K : Type*}

/-- The angle modulo a full turn, in the range of `atan2`. -/
def wrapAngle (m : Libm K) (angle : K) : K := m.atan2 (m.sin angle) (m.cos angle)

theorem wrapAngle_real (angle : ℝ) : wrapAngle Libm.real angle = (angle : Real.Angle).toReal := by
  have h : (⟨Real.cos angle, Real.sin angle⟩ : ℂ) =
      Real.Angle.cos (angle : Real.Angle) + Real.Angle.sin (angle : Real.Angle) * Complex.I := by
    rw [Real.Angle.cos_coe, Real.Angle.sin_coe]
    exact Complex.mk_eq_add_mul_I _ _
  change Complex.arg ⟨Real.cos angle, Real.sin angle⟩ = _
  rw [h, ← Complex.arg_coe_angle_toReal_eq_arg, Complex.arg_cos_add_sin_mul_I_coe_angle]

/-- Small angles are left as they are. -/
theorem wrapAngle_real_eq_self {angle : ℝ} (h : |angle| < Real.pi) :
    wrapAngle Libm.real angle = angle := by
  rw [wrapAngle_real, Real.Angle.toReal_coe_eq_self_iff]
  exact ⟨(abs_lt.mp h).1, (abs_lt.mp h).2.le⟩

theorem wrapAngle_real_zero : wrapAngle Libm.real 0 = 0 := by
  apply wrapAngle_real_eq_self
  rw [abs_zero]
  exact Real.pi_pos

/-- A direction is in the range of `wrapAngle`. -/
theorem wrapAngle_real_atan2 (y x : ℝ) :
    wrapAngle Libm.real (Libm.real.atan2 y x) = Libm.real.atan2 y x := by
  rw [wrapAngle_real, Real.Angle.toReal_coe_eq_self_iff]
  exact Complex.arg_mem_Ioc _

/-- The difference of two wrapped angles is that of the angles. -/
theorem wrapAngle_real_sub (a b : ℝ) :
    wrapAngle Libm.real (wrapAngle Libm.real a - wrapAngle Libm.real b) =
      wrapAngle Libm.real (a - b) := by
  have h : ((wrapAngle Libm.real a - wrapAngle Libm.real b : ℝ) : Real.Angle) =
      ((a - b : ℝ) : Real.Angle) := by
    simp only [wrapAngle_real, Real.Angle.coe_sub, Real.Angle.coe_toReal]
  rw [wrapAngle_real, h, ← wrapAngle_real]

/-- Wrapping does not depend on the turns already taken. -/
theorem wrapAngle_real_wrapAngle_sub (a b c : ℝ) :
    wrapAngle Libm.real (wrapAngle Libm.real (a - b) - c) = wrapAngle Libm.real (a - (b + c)) := by
  have h : ((wrapAngle Libm.real (a - b) - c : ℝ) : Real.Angle) = ((a - (b + c) : ℝ) : Real.Angle) := by
    simp only [wrapAngle_real, Real.Angle.coe_sub, Real.Angle.coe_add, Real.Angle.coe_toReal]
    abel
  rw [wrapAngle_real, h, ← wrapAngle_real]

end X2Navigation
