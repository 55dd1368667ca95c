import X2Navigation.Command.Twist
import X2Navigation.Docking.Geometry

/-! The tag tracker: a filter over relative poses that follows the robot's own
motion and refuses jumps larger than that motion allows. -/

namespace X2Navigation

variable {K : Type*} [Field K]

/-- Predicts only to compare and filter a new observation. The robot is never
driven from a prediction alone. -/
def predictRelativeError (m : Libm K) (error : PlanarError K) (command : Twist K) (dt : K) :
    PlanarError K :=
  let angle := command.angular.z * dt
  let x := error.x - command.linear.x * dt
  let y := error.y - command.linear.y * dt
  ⟨m.cos angle * x + m.sin angle * y, -m.sin angle * x + m.cos angle * y,
    wrapAngle m (error.yaw - angle)⟩

structure TagTrackingConfig (K : Type*) where
  acquisitionSamples : ℕ
  timeout : K
  filterTimeConstant : K
  positionSlack : K
  angularSlack : K
  translationRate : K
  angularRate : K

structure RelativeTagTracker (K : Type*) where
  filtered : Option (PlanarError K)
  previousRaw : Option (PlanarError K)
  stamp : K
  count : ℕ

namespace RelativeTagTracker

def new : RelativeTagTracker K := ⟨none, none, 0, 0⟩

/-- The stamp stays, but is not read without a previous observation. -/
def reset (s : RelativeTagTracker K) : RelativeTagTracker K :=
  { s with filtered := none, previousRaw := none, count := 0 }

variable [LinearOrder K] (m : Libm K) (config : TagTrackingConfig K)

/-- Allows real robot motion, including rotation of the relative translation. -/
def jumps (previous raw : PlanarError K) (dt : K) : Bool :=
  let distance := m.hypot previous.x previous.y
  let positionLimit := config.positionSlack +
    (config.translationRate + config.angularRate * distance) * dt
  let angularLimit := config.angularSlack + config.angularRate * dt
  decide (positionLimit < m.hypot (raw.x - previous.x) (raw.y - previous.y) ∨
    angularLimit < |wrapAngle m (raw.yaw - previous.yaw)|)

def blend (predicted raw : PlanarError K) (dt : K) : PlanarError K :=
  let alpha := if config.filterTimeConstant = 0 then 1 else dt / (config.filterTimeConstant + dt)
  ⟨predicted.x + alpha * (raw.x - predicted.x), predicted.y + alpha * (raw.y - predicted.y),
    wrapAngle m (predicted.yaw + alpha * wrapAngle m (raw.yaw - predicted.yaw))⟩

/-- The state after an accepted observation. -/
def accept (raw : PlanarError K) (stamp : K) (filtered : PlanarError K) (s : RelativeTagTracker K) :
    RelativeTagTracker K :=
  ⟨some filtered, some raw, stamp, min (s.count + 1) config.acquisitionSamples⟩

/-- The filtered error of a tracker without one is not read by the source. -/
def error (s : RelativeTagTracker K) : PlanarError K := s.filtered.getD ⟨0, 0, 0⟩

/-- Rejects isolated jumps without moving the reference to the rejected pose. -/
def observe (raw : PlanarError (Double K)) (stamp : Double K) (command : Twist K)
    (s : RelativeTagTracker K) : RelativeTagTracker K × Bool :=
  if !raw.isFinite || !stamp.isFinite || (s.previousRaw.isSome && decide (stamp.value ≤ s.stamp)) then
    (s, false)
  else
    let s := if s.previousRaw.isSome && decide (config.timeout < stamp.value - s.stamp) then s.reset
      else s
    match s.previousRaw with
    | none => (s.accept config raw.values stamp.value raw.values, true)
    | some previous =>
      let dt := stamp.value - s.stamp
      if jumps m config previous raw.values dt then (s, false)
      else
        let predicted := predictRelativeError m s.error command dt
        (s.accept config raw.values stamp.value (blend m config predicted raw.values dt), true)

def ready (s : RelativeTagTracker K) : Bool :=
  s.filtered.isSome && decide (config.acquisitionSamples ≤ s.count)

end RelativeTagTracker

end X2Navigation
