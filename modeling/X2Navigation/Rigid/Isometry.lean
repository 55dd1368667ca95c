import Mathlib.Algebra.Order.Field.Basic
import Mathlib.LinearAlgebra.CrossProduct
import Mathlib.Tactic.FinCases
import X2Navigation.Numeric.Double

/-! Rigid transforms of space as a linear algebra library computes them. A
transform is a matrix and a translation; its inverse is read off the transpose,
so it is an inverse only where the matrix is orthogonal. The roots and the two
conversions from a matrix are a parameter: what they compute is stated where a
result relies on it. -/

namespace X2Navigation.Rigid

open Matrix

/-- `Eigen::Isometry3d`. -/
@[ext]
structure Isometry3 (K : Type*) where
  linear : Matrix (Fin 3) (Fin 3) K
  translation : Fin 3 → K

/-- A quaternion, as messages carry it and `Eigen::Quaterniond` stores it. -/
structure Quaterniond (α : Type*) where
  x : α
  y : α
  z : α
  w : α
  deriving DecidableEq

section Transforms
variable {K : Type*} [CommRing K]

namespace Isometry3

instance : One (Isometry3 K) := ⟨⟨1, 0⟩⟩

instance : Mul (Isometry3 K) :=
  ⟨fun a b => ⟨a.linear * b.linear, a.linear *ᵥ b.translation + a.translation⟩⟩

def inverse (a : Isometry3 K) : Isometry3 K :=
  ⟨a.linear.transpose, -(a.linear.transpose *ᵥ a.translation)⟩

theorem mul_def (a b : Isometry3 K) :
    a * b = ⟨a.linear * b.linear, a.linear *ᵥ b.translation + a.translation⟩ := rfl

theorem one_def : (1 : Isometry3 K) = ⟨1, 0⟩ := rfl

end Isometry3

/-- The matrix of `v ×`. -/
def skew (v : Fin 3 → K) : Matrix (Fin 3) (Fin 3) K :=
  !![0, -v 2, v 1;
     v 2, 0, -v 0;
     -v 1, v 0, 0]

theorem skew_mulVec (v w : Fin 3 → K) : skew v *ᵥ w = v ⨯₃ w := by
  rw [cross_apply]
  ext i
  fin_cases i <;> simp [skew, mulVec, dotProduct, Fin.sum_univ_three] <;> ring

theorem transpose_skew (v : Fin 3 → K) : (skew v).transpose = -skew v := by
  ext i j
  fin_cases i <;> fin_cases j <;> simp [skew]

/-- The matrix of a quaternion; a rotation only where the quaternion has norm one. -/
def toRotationMatrix (q : Quaterniond K) : Matrix (Fin 3) (Fin 3) K :=
  let tx := 2 * q.x
  let ty := 2 * q.y
  let tz := 2 * q.z
  !![1 - (ty * q.y + tz * q.z), tx * q.y - tz * q.w, tx * q.z + ty * q.w;
     tx * q.y + tz * q.w, 1 - (tx * q.x + tz * q.z), ty * q.z - tx * q.w;
     tx * q.z - ty * q.w, ty * q.z + tx * q.w, 1 - (tx * q.x + ty * q.y)]

@[simp] theorem toRotationMatrix_one :
    toRotationMatrix (⟨0, 0, 0, 1⟩ : Quaterniond K) = 1 := by
  ext i j
  fin_cases i <;> fin_cases j <;> simp [toRotationMatrix]

def Quaterniond.squaredNorm (q : Quaterniond K) : K := q.x * q.x + q.y * q.y + q.z * q.z + q.w * q.w

end Transforms

/-- What the library computes beyond field operations: square roots, the axis and
angle of a rotation, and the quaternion of a rotation. -/
structure Eigen (K : Type*) where
  sqrt : K → K
  angleAxis : Matrix (Fin 3) (Fin 3) K → (Fin 3 → K) × K
  quaternion : Matrix (Fin 3) (Fin 3) K → Quaterniond K

namespace Eigen
variable {K : Type*} [Field K] (E : Eigen K)

def norm (v : Fin 3 → K) : K := E.sqrt (v ⬝ᵥ v)

def quaternionNorm (q : Quaterniond K) : K := E.sqrt q.squaredNorm

/-- The zero quaternion is left as it is. -/
def normalized [LT K] [DecidableLT K] (q : Quaterniond K) : Quaterniond K :=
  if 0 < q.squaredNorm then
    let n := E.quaternionNorm q
    ⟨q.x / n, q.y / n, q.z / n, q.w / n⟩
  else q

theorem normalized_one [LinearOrder K] [IsStrictOrderedRing K] (h : E.sqrt 1 = 1) :
    E.normalized ⟨0, 0, 0, 1⟩ = ⟨0, 0, 0, 1⟩ := by
  simp [normalized, quaternionNorm, Quaterniond.squaredNorm, h]

end Eigen

end X2Navigation.Rigid
