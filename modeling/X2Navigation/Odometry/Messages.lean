import X2Navigation.Command.Twist
import X2Navigation.Rigid.Isometry

/-! The messages that carry poses, and the values the code reads from them. -/

namespace X2Navigation

open Rigid

/-- `builtin_interfaces/Time`. -/
structure Time where
  sec : Int32
  nanosec : UInt32
  deriving DecidableEq

structure Header where
  stamp : Time
  frameId : String
  deriving DecidableEq

structure Pose (α : Type*) where
  position : Vector3 α
  orientation : Quaterniond α
  deriving DecidableEq

structure Transform (α : Type*) where
  translation : Vector3 α
  rotation : Quaterniond α
  deriving DecidableEq

structure TransformStamped (α : Type*) where
  header : Header
  childFrameId : String
  transform : Transform α
  deriving DecidableEq

structure PoseWithCovariance (α : Type*) where
  pose : Pose α
  covariance : Fin 36 → α

structure TwistWithCovariance (α : Type*) where
  twist : Twist α
  covariance : Fin 36 → α

structure Odometry (α : Type*) where
  header : Header
  childFrameId : String
  pose : PoseWithCovariance α
  twist : TwistWithCovariance α

section Conversions
variable {α : Type*}

def Vector3.toFun (v : Vector3 α) : Fin 3 → α := ![v.x, v.y, v.z]

def Vector3.ofFun (v : Fin 3 → α) : Vector3 α := ⟨v 0, v 1, v 2⟩

@[simp] theorem Vector3.toFun_ofFun (v : Fin 3 → α) : (Vector3.ofFun v).toFun = v := by
  ext i
  fin_cases i <;> rfl

theorem Vector3.toFun_injective {v w : Vector3 α} (h : v.toFun = w.toFun) : v = w := by
  cases v
  cases w
  simpa [Vector3.toFun] using h

/-- The six rows and columns of a covariance: three linear and three angular. -/
abbrev Axes := Fin 3 ⊕ Fin 3

/-- The array index of an entry, `row * 6 + column`. -/
def covarianceIndex : Axes × Axes ≃ Fin 36 :=
  (finSumFinEquiv.prodCongr finSumFinEquiv).trans (@finProdFinEquiv (3 + 3) (3 + 3))

def covarianceMatrix (covariance : Fin 36 → α) : Matrix Axes Axes α :=
  Matrix.of fun row column => covariance (covarianceIndex (row, column))

def covarianceArray (m : Matrix Axes Axes α) : Fin 36 → α :=
  fun k => m (covarianceIndex.symm k).1 (covarianceIndex.symm k).2

@[simp] theorem covarianceMatrix_covarianceArray (m : Matrix Axes Axes α) :
    covarianceMatrix (covarianceArray m) = m := by
  ext row column
  simp [covarianceMatrix, covarianceArray]

end Conversions

end X2Navigation
