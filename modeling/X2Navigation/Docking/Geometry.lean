import X2Navigation.Numeric.Double
import X2Navigation.Numeric.Libm
import X2Navigation.Rigid.Isometry

/-! Planar poses relative to the robot: the dock derived from a tag, and the
error that is driven to zero. -/

namespace X2Navigation

open Rigid

structure PlanarError (α : Type*) where
  x : α
  y : α
  yaw : α
  deriving DecidableEq

namespace PlanarError
variable {K : Type*}

def isFinite (error : PlanarError (Double K)) : Bool :=
  error.x.isFinite && error.y.isFinite && error.yaw.isFinite

/-- The numbers, read only after `isFinite`. -/
def values [Zero K] (error : PlanarError (Double K)) : PlanarError K :=
  ⟨error.x.value, error.y.value, error.yaw.value⟩

def finite (error : PlanarError K) : PlanarError (Double K) :=
  ⟨.finite error.x, .finite error.y, .finite error.yaw⟩

@[simp] theorem isFinite_finite (error : PlanarError K) : error.finite.isFinite = true := rfl

@[simp] theorem values_finite [Zero K] (error : PlanarError K) : error.finite.values = error := rfl

end PlanarError

variable {K : Type*} [Field K]

/-- A rotation about the vertical axis. -/
def rotationZ (m : Libm K) (yaw : K) : Matrix (Fin 3) (Fin 3) K :=
  !![m.cos yaw, -m.sin yaw, 0;
     m.sin yaw, m.cos yaw, 0;
     0, 0, 1]

/-- The dock in front of a tag: off by the standoff along the tag's normal and by
the lateral offset along its horizontal axis, facing the tag. Refuses a tag that
is not upright. -/
def tableDockPose [LT K] [DecidableLT K] (m : Libm K) (fixedToTag : Isometry3 K)
    (standoff lateralOffset yawOffset : K) : Option (Isometry3 K) :=
  let outwardX := fixedToTag.linear 0 2
  let outwardY := fixedToTag.linear 1 2
  let rightX := fixedToTag.linear 0 0
  let rightY := fixedToTag.linear 1 0
  let outwardNorm := m.hypot outwardX outwardY
  let rightNorm := m.hypot rightX rightY
  if outwardNorm < 1 / 2 ∨ rightNorm < 1 / 2 then none
  else
    let x := fixedToTag.translation 0 + standoff * (outwardX / outwardNorm) +
      lateralOffset * (rightX / rightNorm)
    let y := fixedToTag.translation 1 + standoff * (outwardY / outwardNorm) +
      lateralOffset * (rightY / rightNorm)
    let yaw := m.atan2 (-(outwardY / outwardNorm)) (-(outwardX / outwardNorm)) + yawOffset
    some ⟨rotationZ m yaw, ![x, y, 0]⟩

def planarError (m : Libm K) (fixedToBase fixedToTarget : Isometry3 K) : PlanarError K :=
  let baseToTarget := fixedToBase.inverse * fixedToTarget
  { x := baseToTarget.translation 0
    y := baseToTarget.translation 1
    yaw := wrapAngle m (m.atan2 (baseToTarget.linear 1 0) (baseToTarget.linear 0 0)) }

def planarPose (m : Libm K) (error : PlanarError K) : Isometry3 K :=
  ⟨rotationZ m error.yaw, ![error.x, error.y, 0]⟩

/-- The initial pose relative to the dock, moved back by `distance`. -/
def tagRelativeUndockTarget (initialToDock currentToDock : Isometry3 K) (distance : K) :
    Isometry3 K :=
  currentToDock * initialToDock.inverse * ⟨1, ![-distance, 0, 0]⟩

end X2Navigation
