import X2Navigation.Docking.HolonomicFineAlign

/-! The docking motion controller: hysteresis on every axis, a gate that holds
translation back while the robot is turned away, and a bounded rate of change of
the direction of travel. -/

namespace X2Navigation

structure DockingMotionConfig (K : Type*) where
  positionHysteresis : K
  yawHysteresis : K
  confirmationSamples : ℕ
  directionRate : K

variable {K : Type*} [Field K] [LinearOrder K]

/-- The configurations a constructed server gives to its controllers. -/
structure ControllerAccepted (controller : HolonomicFineAlignConfig K) (motion : DockingMotionConfig K) : Prop where
  valid : validHolonomicFineAlignConfig controller = true
  positionHysteresis : 0 ≤ motion.positionHysteresis
  yawHysteresis : 0 ≤ motion.yawHysteresis
  yawHysteresis_lt : motion.yawHysteresis < controller.translationYawStop
  directionRate : 0 < motion.directionRate
  confirmationSamples : 1 ≤ motion.confirmationSamples ∧ motion.confirmationSamples ≤ 20

/-- Keeps the entire hysteresis band inside the completion tolerance. -/
def dockingStopTolerance (tolerance hysteresis : K) : K := max (tolerance - hysteresis) (tolerance / 2)

/-- One axis: the direction of motion in force, and the requests for another. -/
structure ConfirmedAxis where
  active : ℤ
  pending : ℤ
  count : ℕ

namespace ConfirmedAxis

def new : ConfirmedAxis := ⟨0, 0, 0⟩

def requested (error tolerance hysteresis : K) : ℤ :=
  if |error| ≤ dockingStopTolerance tolerance hysteresis then 0 else if 0 < error then 1 else -1

/-- Stops before reversing. Every error outside completion can request motion. -/
def update (axis : ConfirmedAxis) (error tolerance hysteresis : K) (confirmations : ℕ) :
    ConfirmedAxis :=
  let requested := requested error tolerance hysteresis
  if requested = 0 then ⟨0, 0, 0⟩
  else if requested ≠ axis.active then
    if |error| ≤ tolerance then ⟨0, 0, 0⟩
    else
      let count := if requested = axis.pending then axis.count + 1 else 1
      ⟨if confirmations ≤ count then requested else 0, requested, count⟩
  else axis

end ConfirmedAxis

structure DockingMotionController (K : Type*) where
  x : ConfirmedAxis
  y : ConfirmedAxis
  yaw : ConfirmedAxis
  xActive : ℤ
  yActive : ℤ
  yawActive : ℤ
  translationEnabled : Bool
  translationConfirmations : ℕ
  directionReconfirmations : ℕ
  direction : Option K

namespace DockingMotionController

def new : DockingMotionController K :=
  ⟨.new, .new, .new, 0, 0, 0, false, 0, 0, none⟩

variable (controller : HolonomicFineAlignConfig K) (motion : DockingMotionConfig K)

/-- The gate on translation after a new observation. -/
def gateTranslation (yaw : K) (s : DockingMotionController K) : DockingMotionController K :=
  if controller.translationYawStop ≤ |yaw| then
    { s with translationEnabled := false, translationConfirmations := 0 }
  else if !s.translationEnabled then
    if |yaw| < controller.translationYawStop - motion.yawHysteresis then
      { s with
        translationConfirmations := s.translationConfirmations + 1
        translationEnabled := decide (motion.confirmationSamples ≤ s.translationConfirmations + 1) }
    else { s with translationConfirmations := 0 }
  else s

/-- A new observation updates every axis and the gate. -/
def confirm (error : PlanarError K) (s : DockingMotionController K) : DockingMotionController K :=
  let x := s.x.update (if controller.allowReverseX then error.x else max 0 error.x)
    controller.xPositionTolerance motion.positionHysteresis motion.confirmationSamples
  let y := s.y.update error.y controller.yPositionTolerance motion.positionHysteresis
    motion.confirmationSamples
  let yaw := s.yaw.update error.yaw controller.yawTolerance motion.yawHysteresis
    motion.confirmationSamples
  gateTranslation controller motion error.yaw
    { s with x := x, y := y, yaw := yaw, xActive := x.active, yActive := y.active,
             yawActive := yaw.active }

/-- The original yaw-based speed ceiling is kept even when yaw is in its deadband. -/
def movingConfig : HolonomicFineAlignConfig K :=
  { controller with
    xPositionTolerance := dockingStopTolerance controller.xPositionTolerance motion.positionHysteresis
    yPositionTolerance := dockingStopTolerance controller.yPositionTolerance motion.positionHysteresis
    yawTolerance := dockingStopTolerance controller.yawTolerance motion.yawHysteresis }

/-- The command of the active axes, before its direction is limited. -/
def requestedCommand (m : Libm K) (error : PlanarError K) (s : DockingMotionController K) :
    Option (Twist K) :=
  let selected : PlanarError K :=
    ⟨if s.xActive = 0 then 0 else error.x, if s.yActive = 0 then 0 else error.y, error.yaw⟩
  (holonomicFineAlignCommand m selected.finite (movingConfig controller motion)).map fun command =>
    { linear := if s.translationEnabled then command.linear else ⟨0, 0, command.linear.z⟩
      angular := if s.yawActive = 0 then ⟨command.angular.x, command.angular.y, 0⟩
        else command.angular }

/-- Limits the direction of a planar velocity of the given speed. Stops before a
large turn, rather than sweeping through an unsafe direction. -/
def steer (m : Libm K) (dt : K) (command : Twist K) (speed : K) (s : DockingMotionController K) :
    DockingMotionController K × Twist K :=
  let wanted := m.atan2 command.linear.y command.linear.x
  let go (direction : K) (s : DockingMotionController K) : DockingMotionController K × Twist K :=
    ({ s with direction := some direction },
      { command with
        linear := ⟨speed * m.cos direction, speed * m.sin direction, command.linear.z⟩ })
  match s.direction with
  | none => go wanted s
  | some direction =>
    let delta := wrapAngle m (wanted - direction)
    if 15707963268 / 10000000000 < |delta| then
      ({ s with direction := none, directionReconfirmations := 1 },
        { command with linear := ⟨0, 0, command.linear.z⟩ })
    else go (direction + clamp delta (-motion.directionRate * dt) (motion.directionRate * dt)) s

/-- The last stage: a stop before a large turn holds until it is reconfirmed. -/
def limitDirection (m : Libm K) (dt : K) (newObservation : Bool) (command : Twist K)
    (s : DockingMotionController K) : DockingMotionController K × Twist K :=
  let speed := m.hypot command.linear.x command.linear.y
  if 0 < speed then
    if 0 < s.directionReconfirmations then
      if !newObservation then (s, { command with linear := ⟨0, 0, command.linear.z⟩ })
      else if s.directionReconfirmations + 1 ≤ motion.confirmationSamples then
        ({ s with directionReconfirmations := s.directionReconfirmations + 1 },
          { command with linear := ⟨0, 0, command.linear.z⟩ })
      else steer motion m dt command speed { s with directionReconfirmations := 0 }
    else steer motion m dt command speed s
  else ({ s with direction := none, directionReconfirmations := 0 }, command)

def update (m : Libm K) (error : PlanarError (Double K)) (dt : K) (newObservation : Bool)
    (s : DockingMotionController K) : DockingMotionController K × Option (Twist K) :=
  if !error.isFinite then (s, none)
  else
    let s := if newObservation then confirm controller motion error.values s else s
    match requestedCommand controller motion m error.values s with
    | none => (s, none)
    | some command =>
      ((limitDirection motion m dt newObservation command s).1,
        some (limitDirection motion m dt newObservation command s).2)

end DockingMotionController

end X2Navigation
