import X2Navigation.Numeric.Double
import X2Navigation.Odometry.Messages
import X2Navigation.Rigid.Doubles

/-! What the Odin adapter computes from poses: validated transforms, the pose of
the base under a moving mount, and the velocity between two base poses. The last two
are written twice, over an exact field and on doubles, and are the same where nothing
is rounded. -/

namespace X2Navigation

open Matrix Rigid

variable {K : Type*} [Field K] [LinearOrder K]

/-- Special values are refused, and so is a rotation whose norm is off by more
than one percent. -/
def odinTransform (E : Eigen K) (x y z qx qy qz qw : Double K) : Option (Isometry3 K) :=
  let rotation : Quaterniond K := ⟨qx.value, qy.value, qz.value, qw.value⟩
  if !(x.isFinite && y.isFinite && z.isFinite) ||
      !(qx.isFinite && qy.isFinite && qz.isFinite && qw.isFinite) ||
      1 / 100 < |E.quaternionNorm rotation - 1| then none
  else some ⟨toRotationMatrix (E.normalized rotation), ![x.value, y.value, z.value]⟩

def Pose.odinTransform (E : Eigen K) (pose : Pose (Double K)) : Option (Isometry3 K) :=
  X2Navigation.odinTransform E pose.position.x pose.position.y pose.position.z pose.orientation.x
    pose.orientation.y pose.orientation.z pose.orientation.w

def Transform.odinTransform (E : Eigen K) (transform : Transform (Double K)) :
    Option (Isometry3 K) :=
  X2Navigation.odinTransform E transform.translation.x transform.translation.y
    transform.translation.z transform.rotation.x transform.rotation.y transform.rotation.z
    transform.rotation.w

def odinBasePose (odomFromImu baseFromImu : Isometry3 K) : Isometry3 K :=
  odomFromImu * baseFromImu.inverse

/-- Differentiate base poses in the continuous local frame, then express in
current base axes. -/
def odinLocalTwist (E : Eigen K) (previous current : Isometry3 K) (dt : K) : Option (Twist K) :=
  if dt ≤ 0 then none
  else
    let linear := current.linear.transpose *ᵥ (current.translation - previous.translation)
    let delta := E.angleAxis (current.linear.transpose * previous.linear)
    some
      { linear := Vector3.ofFun fun i => linear i / dt
        angular := Vector3.ofFun fun i => -delta.1 i * delta.2 / dt }

/-! ### On doubles -/

namespace Rigid.Isometry3d

def odinBasePose (E : Eigen3d K) (odomFromImu baseFromImu : Isometry3 K) : Isometry3d K :=
  mul E.rounding odomFromImu.toDouble (inverse E.rounding baseFromImu.toDouble)

def odinLocalTwist (E : Eigen3d K) (previous current : Isometry3d K) (dt : K) :
    Option (Twist (Double K)) :=
  let R := E.rounding
  if dt ≤ 0 then none
  else
    let step := fun i => R.sub (current.translation i) (previous.translation i)
    let linear := mulVec R current.linear.transpose step
    let delta := E.angleAxis (current.linear.transpose * previous.linear)
    some
      { linear := Vector3.ofFun fun i => R.div (linear i) dt
        angular := Vector3.ofFun fun i =>
          R.div (R.mul (.finite (-delta.1 i)) (.finite delta.2)) dt }

variable {E : Eigen3d K} (hexact : E.rounding = .exact)
include hexact

theorem odinBasePose_exact (a b : Isometry3 K) :
    odinBasePose E a b = (X2Navigation.odinBasePose a b).toDouble := by
  rw [odinBasePose, hexact, inverse_exact, mul_exact, X2Navigation.odinBasePose]

theorem odinLocalTwist_exact (a b : Isometry3 K) (dt : K) :
    odinLocalTwist E a.toDouble b.toDouble dt =
      (X2Navigation.odinLocalTwist E.toEigen a b dt).map Twist.finite := by
  unfold odinLocalTwist X2Navigation.odinLocalTwist
  dsimp only
  split
  · rfl
  · have hstep : (fun i => E.rounding.sub (b.toDouble.translation i) (a.toDouble.translation i)) =
        fun i => .finite ((b.translation - a.translation) i) := by
      ext i
      rw [hexact]
      exact Rounding.exact_sub
    rw [hstep, hexact]
    simp only [Isometry3.toDouble, mulVec_exact, Rounding.exact_div, Rounding.exact_mul]
    rfl

end Rigid.Isometry3d

end X2Navigation
