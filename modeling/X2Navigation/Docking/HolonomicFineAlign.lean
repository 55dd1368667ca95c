import X2Navigation.Command.VelocityCommand
import X2Navigation.Docking.Geometry

/-! The proportional law of the fine alignment: a velocity towards the target,
slower the more the robot is turned away from it, never below a minimum. -/

namespace X2Navigation

structure HolonomicFineAlignConfig (K : Type*) where
  translationGain : K
  yawGain : K
  translationSpeedMin : K
  translationSpeedMax : K
  angularSpeedMin : K
  angularSpeedMax : K
  translationYawStop : K
  xPositionTolerance : K
  yPositionTolerance : K
  yawTolerance : K
  allowReverseX : Bool

namespace HolonomicFineAlignConfig
variable {K : Type*}

def isFinite (config : HolonomicFineAlignConfig (Double K)) : Bool :=
  config.translationGain.isFinite && config.yawGain.isFinite &&
    config.translationSpeedMin.isFinite && config.translationSpeedMax.isFinite &&
    config.angularSpeedMin.isFinite && config.angularSpeedMax.isFinite &&
    config.translationYawStop.isFinite && config.xPositionTolerance.isFinite &&
    config.yPositionTolerance.isFinite && config.yawTolerance.isFinite

/-- The numbers, read only after `isFinite`. -/
def values [Zero K] (config : HolonomicFineAlignConfig (Double K)) : HolonomicFineAlignConfig K where
  translationGain := config.translationGain.value
  yawGain := config.yawGain.value
  translationSpeedMin := config.translationSpeedMin.value
  translationSpeedMax := config.translationSpeedMax.value
  angularSpeedMin := config.angularSpeedMin.value
  angularSpeedMax := config.angularSpeedMax.value
  translationYawStop := config.translationYawStop.value
  xPositionTolerance := config.xPositionTolerance.value
  yPositionTolerance := config.yPositionTolerance.value
  yawTolerance := config.yawTolerance.value
  allowReverseX := config.allowReverseX

end HolonomicFineAlignConfig

variable {K : Type*} [Field K] [LinearOrder K]

/-- The entries are finite by their type; what is left are the signs. -/
def validHolonomicFineAlignConfig (config : HolonomicFineAlignConfig K) : Bool :=
  decide (0 < config.translationGain ∧ 0 < config.yawGain ∧ 0 < config.translationSpeedMin ∧
    config.translationSpeedMin ≤ config.translationSpeedMax ∧ 0 < config.angularSpeedMin ∧
    config.angularSpeedMin ≤ config.angularSpeedMax ∧ 0 < config.translationYawStop ∧
    0 < config.xPositionTolerance ∧ 0 < config.yPositionTolerance ∧ 0 < config.yawTolerance)

def fineAlignAtGoal (error : PlanarError (Double K)) (config : HolonomicFineAlignConfig K) : Bool :=
  error.isFinite && decide (|error.values.x| ≤ config.xPositionTolerance) &&
    decide (|error.values.y| ≤ config.yPositionTolerance) &&
    decide (|error.values.yaw| ≤ config.yawTolerance)

def copysign (magnitude sign : K) : K := if sign < 0 then -|magnitude| else |magnitude|

/-- The error along one axis, zero within the tolerance. -/
def beyond (error tolerance : K) : K := if tolerance < |error| then error else 0

/-- The planar part of the command. -/
def holonomicLinear (m : Libm K) (error : PlanarError K) (config : HolonomicFineAlignConfig K) :
    Vector3 K :=
  let xError := beyond error.x config.xPositionTolerance
  let commandX := if config.allowReverseX then xError else max 0 xError
  let commandY := beyond error.y config.yPositionTolerance
  let commandDistance := m.hypot commandX commandY
  let yawError := |error.yaw|
  if 0 < commandDistance ∧ yawError < config.translationYawStop then
    let yawFraction := yawError / config.translationYawStop
    let yawLimitedMaximum := config.translationSpeedMin +
      (config.translationSpeedMax - config.translationSpeedMin) * (1 - yawFraction)
    let speed := clamp (config.translationGain * commandDistance) config.translationSpeedMin
      yawLimitedMaximum
    ⟨speed * commandX / commandDistance, speed * commandY / commandDistance, 0⟩
  else 0

/-- The turn of the command. -/
def holonomicAngular (error : PlanarError K) (config : HolonomicFineAlignConfig K) : Vector3 K :=
  if config.yawTolerance < |error.yaw| then
    ⟨0, 0, copysign (clamp (config.yawGain * |error.yaw|) config.angularSpeedMin
      config.angularSpeedMax) error.yaw⟩
  else 0

def holonomicFineAlignCommand (m : Libm K) (error : PlanarError (Double K))
    (config : HolonomicFineAlignConfig K) : Option (Twist K) :=
  if !validHolonomicFineAlignConfig config || !error.isFinite then none
  else some ⟨holonomicLinear m error.values config, holonomicAngular error.values config⟩

end X2Navigation
