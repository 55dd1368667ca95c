import Mathlib.Algebra.Order.Field.Basic
import Mathlib.Data.Int.Cast.Lemmas
import Mathlib.Tactic.GCongr
import Mathlib.Tactic.Linarith
import Mathlib.Tactic.Positivity

/-! Numbers as the node reads them: a `double` that is finite is read exactly,
and the special values are kept apart because the code tests for them. Clock
readings are whole nanoseconds; a duration in seconds is their exact quotient. -/

namespace X2Navigation

/-! ### Literals

Named once, so that every module reads the source's constants through the same instance. -/

instance neZero_three : NeZero 3 := inferInstance

instance atLeastTwo_two : Nat.AtLeastTwo 2 := inferInstance

instance atLeastTwo_three : Nat.AtLeastTwo 3 := inferInstance

instance atLeastTwo_four : Nat.AtLeastTwo 4 := inferInstance

instance atLeastTwo_five : Nat.AtLeastTwo 5 := inferInstance

instance atLeastTwo_ten : Nat.AtLeastTwo 10 := inferInstance

instance atLeastTwo_hundred : Nat.AtLeastTwo 100 := inferInstance

instance atLeastTwo_tenBillion : Nat.AtLeastTwo 10000000000 := inferInstance

/-- The turn that stops the robot first, in units of `1e-10` rad. -/
instance atLeastTwo_maximumTurn : Nat.AtLeastTwo 15707963268 := inferInstance

/-! ### Doubles -/

inductive Double (K : Type*)
  | finite (x : K)
  | posInf
  | negInf
  | nan
  deriving DecidableEq

namespace Double

variable {K : Type*}

/-- `std::isfinite`. -/
def isFinite : Double K → Bool
  | .finite _ => true
  | _ => false

instance [Zero K] : Zero (Double K) := ⟨.finite 0⟩

/-- The number itself, read only after `isFinite`. -/
def value [Zero K] : Double K → K
  | .finite x => x
  | _ => 0

@[simp] theorem isFinite_finite (x : K) : (finite x).isFinite = true := rfl

@[simp] theorem isFinite_zero [Zero K] : (0 : Double K).isFinite = true := rfl

@[simp] theorem value_finite [Zero K] (x : K) : (finite x).value = x := rfl

/-- Comparisons of a number `x` with `y`; every comparison with `nan` is false. -/
def numLE [LE K] [DecidableLE K] (x : K) : Double K → Bool
  | .finite y => decide (x ≤ y)
  | .posInf => true
  | _ => false

def numGT [LT K] [DecidableLT K] (x : K) : Double K → Bool
  | .finite y => decide (y < x)
  | .negInf => true
  | _ => false

def numLT [LT K] [DecidableLT K] (x : K) : Double K → Bool
  | .finite y => decide (x < y)
  | .posInf => true
  | _ => false

def numGE [LE K] [DecidableLE K] (x : K) : Double K → Bool
  | .finite y => decide (y ≤ x)
  | .negInf => true
  | _ => false

theorem numLE_mono [Preorder K] [DecidableLE K] {x x' : K} (h : x ≤ x') {y : Double K}
    (hy : numLE x' y = true) : numLE x y = true := by
  cases y with
  | finite y =>
    have hle : x' ≤ y := of_decide_eq_true hy
    exact decide_eq_true (h.trans hle)
  | posInf => rfl
  | negInf => cases hy
  | nan => cases hy

theorem numGT_mono [Preorder K] [DecidableLT K] {x x' : K} (h : x ≤ x') {y : Double K}
    (hy : numGT x y = true) : numGT x' y = true := by
  cases y with
  | finite y =>
    have hlt : y < x := of_decide_eq_true hy
    exact decide_eq_true (hlt.trans_le h)
  | posInf => cases hy
  | negInf => rfl
  | nan => cases hy

theorem finite_value [Zero K] {x : Double K} (h : x.isFinite) : finite x.value = x := by
  cases x <;> simp_all [isFinite, value]

end Double

/-- A reading of the steady or the ROS clock, in nanoseconds. -/
abbrev TimePoint := ℤ

section Elapsed
variable {K : Type*} [Field K]

/-- `std::chrono::duration<double>(now - received).count()`. -/
def elapsed (now received : TimePoint) : K := ((now - received : ℤ) : K) / 10 ^ 9

variable [LinearOrder K]

/-- `a` is at most `T` before `b`. -/
def Within (T : K) (a b : TimePoint) : Prop := elapsed b a ≤ T

instance (T : K) : DecidableRel (Within T) := fun a b => inferInstanceAs (Decidable (elapsed b a ≤ T))

variable [IsStrictOrderedRing K]

theorem elapsed_le_elapsed {s t r : TimePoint} (h : s ≤ t) :
    (elapsed s r : K) ≤ elapsed t r := by
  unfold elapsed
  gcongr

theorem elapsed_le_elapsed_of_le {r r' : TimePoint} (h : r ≤ r') (t : TimePoint) :
    (elapsed t r' : K) ≤ elapsed t r := by
  unfold elapsed
  gcongr

theorem within_antitone {T : K} ⦃a b b' : TimePoint⦄ (h : b ≤ b') (h' : Within T a b') :
    Within T a b := (elapsed_le_elapsed h).trans h'

end Elapsed

end X2Navigation
