import Mathlib.Data.Sign.Defs
import Mathlib.Tactic.FinCases
import X2Navigation.Numeric.Binary64

/-! Arithmetic on doubles. How an exact result is rounded is a parameter; infinities and
what is not a number go on as IEEE 754 has it, and a zero has no sign. A difference is not
a number exactly between equal infinities, and a distance exactly where a difference is not. -/

namespace X2Navigation

/-! ### Signs and comparisons -/

namespace Double

section Signs
variable {K : Type*}

/-- The infinity of a sign; zero times an infinity is not a number. -/
def infinity : SignType → Double K
  | .pos => .posInf
  | .neg => .negInf
  | .zero => .nan

/-- Two numbers with a difference: not the same infinity. -/
def Comparable (x y : Double K) : Prop := x ≠ .nan ∧ y ≠ .nan ∧ (x = y → x.isFinite = true)

instance [DecidableEq K] (x y : Double K) : Decidable (Comparable x y) :=
  inferInstanceAs (Decidable (_ ∧ _ ∧ (_ → _)))

variable [LinearOrder K]

/-- A number that is not above the bound is at most the bound. -/
theorem numGE_of_not_numLT {bound : K} {x : Double K} (hx : x ≠ .nan) (h : ¬ numLT bound x = true) :
    numGE bound x = true := by
  cases x with
  | finite x => simpa [numGE, numLT] using h
  | posInf => exact absurd rfl h
  | negInf => rfl
  | nan => exact absurd rfl hx

end Signs

variable {K : Type*} [Field K] [LinearOrder K]

def neg : Double K → Double K
  | .finite x => .finite (-x)
  | .posInf => .negInf
  | .negInf => .posInf
  | .nan => .nan

def sign : Double K → SignType
  | .finite x => SignType.sign x
  | .posInf => 1
  | .negInf => -1
  | .nan => 0

end Double

/-! ### Rounding -/

/-- How a result becomes a double: always a number, and on its own side of zero. -/
structure Rounding (K : Type*) [Field K] [LinearOrder K] where
  toDouble : K → Double K
  ne_nan : ∀ x, toDouble x ≠ .nan
  nonneg : ∀ x, 0 ≤ x → Double.numLE 0 (toDouble x) = true

variable {K : Type*} [Field K] [LinearOrder K]

omit [Field K] [LinearOrder K] in
theorem Double.finite_ne_nan (x : K) : Double.finite x ≠ .nan := nofun

theorem Double.finite_nonneg (x : K) (h : 0 ≤ x) : Double.numLE 0 (.finite x) = true :=
  decide_eq_true h

theorem Binary64.round_ne_nan [FloorRing K] (x : K) : Binary64.round x ≠ .nan := by
  unfold Binary64.round
  split_ifs <;> nofun

theorem Binary64.round_nonneg [FloorRing K] [IsStrictOrderedRing K] (x : K) (h : 0 ≤ x) :
    Double.numLE 0 (Binary64.round x) = true := by
  unfold Binary64.round
  rw [if_neg (not_lt.mpr h)]
  split
  · rfl
  · refine decide_eq_true ?_
    rcases h.eq_or_lt with rfl | hpos
    · simp
    · have hzero : ((0 : ℕ) : K) * 2 ^ (0 : ℤ) ≤ x := by simpa using h
      simpa using Binary64.double_le_magnitude (by norm_num) (by norm_num) hpos hzero

namespace Rounding

open Double

/-- Nothing is rounded, and nothing overflows. -/
def exact : Rounding K := ⟨.finite, finite_ne_nan, finite_nonneg⟩

/-- To the nearest double, of two equally near the even one. -/
def binary64 [FloorRing K] [IsStrictOrderedRing K] : Rounding K :=
  ⟨Binary64.round, Binary64.round_ne_nan, Binary64.round_nonneg⟩

variable (R : Rounding K)

/-! ### Operations -/

def add : Double K → Double K → Double K
  | .finite x, .finite y => R.toDouble (x + y)
  | .posInf, .posInf | .posInf, .finite _ | .finite _, .posInf => .posInf
  | .negInf, .negInf | .negInf, .finite _ | .finite _, .negInf => .negInf
  | _, _ => .nan

def sub (x y : Double K) : Double K := R.add x y.neg

def mul : Double K → Double K → Double K
  | .finite x, .finite y => R.toDouble (x * y)
  | x, y => infinity (x.sign * y.sign)

/-- By a positive number. -/
def div (x : Double K) (d : K) : Double K :=
  match x with
  | .finite x => R.toDouble (x / d)
  | other => other

/-- The root of a number below zero is not a number. -/
def sqrt (root : K → K) : Double K → Double K
  | .finite x => if x < 0 then .nan else R.toDouble (root x)
  | .posInf => .posInf
  | _ => .nan

/-- Three terms, in the order in which an unrolled reduction adds them. -/
def sum (v : Fin 3 → Double K) : Double K := R.add (v 0) (R.add (v 1) (v 2))

/-- The root of the sum of the squares of three differences. -/
def distance (root : K → K) (v w : Fin 3 → Double K) : Double K :=
  R.sqrt root (R.sum fun i => R.mul (R.sub (v i) (w i)) (R.sub (v i) (w i)))

/-! ### What is not a number -/

section NotANumber
variable {R} {x y : Double K} {v w : Fin 3 → Double K} {root : K → K}

theorem sub_eq_nan_iff : R.sub x y = .nan ↔ ¬ Comparable x y := by
  cases x <;> cases y <;> simp [sub, neg, add, Comparable, R.ne_nan, isFinite]

@[simp] theorem add_nan_left : R.add .nan x = .nan := by cases x <;> rfl

@[simp] theorem add_nan_right : R.add x .nan = .nan := by cases x <;> rfl

theorem mul_self_nan : R.mul (.nan : Double K) .nan = .nan := rfl

theorem sum_eq_nan {i : Fin 3} (h : v i = .nan) : R.sum v = .nan := by
  unfold sum
  fin_cases i
  · rw [show v 0 = .nan from h, add_nan_left]
  · rw [show v 1 = .nan from h, add_nan_left, add_nan_right]
  · rw [show v 2 = .nan from h, add_nan_right, add_nan_right]

theorem sqrt_ne_nan (hx : numLE 0 x = true) : R.sqrt root x ≠ .nan := by
  cases x with
  | finite x =>
    rw [sqrt, if_neg (not_lt.mpr (of_decide_eq_true hx))]
    exact R.ne_nan _
  | posInf => nofun
  | negInf => cases hx
  | nan => cases hx

variable [IsStrictOrderedRing K]

theorem numLE_mul_self (hx : x ≠ .nan) : numLE 0 (R.mul x x) = true := by
  cases x with
  | finite x => exact R.nonneg _ (mul_self_nonneg x)
  | posInf => rfl
  | negInf => rfl
  | nan => exact absurd rfl hx

theorem numLE_add (hx : numLE 0 x = true) (hy : numLE 0 y = true) : numLE 0 (R.add x y) = true := by
  cases x with
  | finite x =>
    cases y with
    | finite y => exact R.nonneg _ (add_nonneg (of_decide_eq_true hx) (of_decide_eq_true hy))
    | posInf => rfl
    | negInf => cases hy
    | nan => cases hy
  | posInf => cases y <;> first | rfl | cases hy
  | negInf => cases hx
  | nan => cases hx

/-- Overflow hides a distance only where two infinities meet. -/
theorem distance_eq_nan_iff : R.distance root v w = .nan ↔ ∃ i, ¬ Comparable (v i) (w i) := by
  constructor
  · contrapose!
    intro hall
    have hsquare : ∀ i, numLE 0 (R.mul (R.sub (v i) (w i)) (R.sub (v i) (w i))) = true :=
      fun i => numLE_mul_self fun hnan => sub_eq_nan_iff.mp hnan (hall i)
    exact sqrt_ne_nan (numLE_add (hsquare 0) (numLE_add (hsquare 1) (hsquare 2)))
  · rintro ⟨i, hi⟩
    have hterm : R.mul (R.sub (v i) (w i)) (R.sub (v i) (w i)) = .nan := by
      rw [sub_eq_nan_iff.mpr hi, mul_self_nan]
    rw [distance, sum_eq_nan hterm]
    rfl

end NotANumber

/-! ### Exact arithmetic -/

section Exact
variable {x y : K}

@[simp] theorem exact_add : (exact : Rounding K).add (.finite x) (.finite y) = .finite (x + y) := rfl

@[simp] theorem exact_sub : (exact : Rounding K).sub (.finite x) (.finite y) = .finite (x - y) := by
  rw [sub_eq_add_neg]
  rfl

@[simp] theorem exact_mul : (exact : Rounding K).mul (.finite x) (.finite y) = .finite (x * y) := rfl

@[simp] theorem exact_div : (exact : Rounding K).div (.finite x) y = .finite (x / y) := rfl

end Exact

end Rounding

end X2Navigation
