import X2Navigation.Docking.Geometry
import X2Navigation.Odometry.Messages

/-! What the fine-align server exchanges: the states it is told, and the goals,
results and feedback of its three actions. -/

namespace X2Navigation

/-- `ManipulationState.state`. -/
inductive ManipulationState
  | unknown
  | empty
  | holding
  | other (state : UInt8)
  deriving DecidableEq

/-- How a tag-relative or a timed profile leaves the dock. -/
inductive UndockMode
  | tagRelative
  | timedReverse
  deriving DecidableEq

/-- How an action ends. -/
inductive Outcome
  | succeed
  | abort
  | canceled
  deriving DecidableEq

namespace FineAlign

inductive Code
  | success
  | busy
  | invalidState
  | navigationActive
  | noStableTag
  | outsideCaptureEnvelope
  | dockingFailed
  | collisionStopped
  | alignmentTimeout
  | safetyAbort
  | invalidProfile
  deriving DecidableEq

inductive Stage
  | validating
  | acquiring
  | controlling
  | reacquiring
  | settling
  deriving DecidableEq

structure Goal where
  execute : Bool
  profileId : String
  instanceId : String
  deriving DecidableEq

structure Result (K : Type) where
  success : Bool
  errorCode : Code
  message : String
  finalError : PlanarError (Double K)
  manipulationState : ManipulationState
  profileId : String
  instanceId : String
  deriving DecidableEq

structure Feedback (K : Type) where
  stage : Stage
  currentError : PlanarError (Double K)
  tagVisible : Bool
  progress : K
  profileId : String
  instanceId : String
  deriving DecidableEq

end FineAlign

namespace Undock

inductive Code
  | success
  | busy
  | invalidState
  | navigationActive
  | noStableTag
  | collisionStopped
  | undockTimeout
  | safetyAbort
  | canceled
  | invalidProfile
  deriving DecidableEq

inductive Stage
  | validating
  | moving
  | settling
  deriving DecidableEq

structure Goal where
  profileId : String
  deriving DecidableEq

/-- The mode is empty until a profile is resolved. -/
structure Result (K : Type) where
  success : Bool
  errorCode : Code
  message : String
  distanceTraveled : K
  manipulationState : ManipulationState
  profileId : String
  undockMode : Option UndockMode
  elapsedTime : K
  instanceId : String
  deriving DecidableEq

structure Feedback (K : Type) where
  stage : Stage
  distanceTraveled : K
  distanceRemaining : K
  commandedSpeed : K
  commandedLateralSpeed : K
  commandedYawSpeed : K
  progress : K
  profileId : String
  undockMode : Option UndockMode
  elapsedTime : K
  instanceId : String
  deriving DecidableEq

end Undock

namespace RotateInPlace

inductive Code
  | success
  | invalidGoal
  | invalidState
  | navigationActive
  | collisionStopped
  | canceled
  | safetyAbort
  deriving DecidableEq

structure Goal (K : Type) where
  angularSpeed : Double K
  duration : Double K
  deriving DecidableEq

structure Result (K : Type) where
  success : Bool
  errorCode : Code
  message : String
  elapsedTime : K
  deriving DecidableEq

structure Feedback (K : Type) where
  elapsedTime : K
  commandedSpeed : K
  progress : K
  deriving DecidableEq

end RotateInPlace

/-- A goal of one of the three actions. -/
inductive Goal (K : Type)
  | fineAlign (goal : FineAlign.Goal)
  | undock (goal : Undock.Goal)
  | rotate (goal : RotateInPlace.Goal K)
  deriving DecidableEq

/-- Only measures: the robot is not to be moved. -/
def Goal.measuresOnly {K : Type} : Goal K → Bool
  | .fineAlign goal => !goal.execute
  | _ => false

/-- A fine alignment that moves the robot. -/
def Goal.executes {K : Type} : Goal K → Bool
  | .fineAlign goal => goal.execute
  | _ => false

/-- The profile that is activated for a goal: the requested one, whether the robot is to
leave a dock, and the instance. -/
def Goal.activation? {K : Type} : Goal K → Option (String × Bool × String)
  | .fineAlign goal => some (goal.profileId, false, goal.instanceId)
  | .undock goal => some (goal.profileId, true, "")
  | .rotate _ => none

inductive Result (K : Type)
  | fineAlign (result : FineAlign.Result K)
  | undock (result : Undock.Result K)
  | rotate (result : RotateInPlace.Result K)

inductive Feedback (K : Type)
  | fineAlign (feedback : FineAlign.Feedback K)
  | undock (feedback : Undock.Feedback K)
  | rotate (feedback : RotateInPlace.Feedback K)

/-- `NAVIGATION_ACTIVE` of whichever action it is. -/
def Result.IsNavigationActive {K : Type} : Result K → Prop
  | .fineAlign result => result.errorCode = .navigationActive
  | .undock result => result.errorCode = .navigationActive
  | .rotate result => result.errorCode = .navigationActive

/-- An AprilTag seen in a picture. -/
structure AprilTagDetection (K : Type) where
  id : ℤ
  decisionMargin : Double K
  deriving DecidableEq

structure AprilTagDetectionArray (K : Type) where
  header : Header
  detections : List (AprilTagDetection K)
  deriving DecidableEq

/-- What is known of a box. -/
structure BoxState where
  header : Header
  instanceId : String
  tagFrame : String
  defaultDockingProfile : String
  dockingProfileIds : List String
  deriving DecidableEq

/-- `rclcpp::Time` of a message: a negative time cannot be stored and throws. -/
def Time.nanoseconds? (t : Time) : Option TimePoint :=
  if t.sec < 0 then none else some (t.sec.toInt * 10 ^ 9 + t.nanosec.toNat)

theorem Time.nanoseconds?_nonneg {t : Time} {stamp : TimePoint} (h : t.nanoseconds? = some stamp) :
    0 ≤ stamp := by
  unfold nanoseconds? at h
  split at h
  · cases h
  · rename_i hsec
    have hsec : 0 ≤ t.sec.toInt := by
      simpa using Int32.le_iff_toInt_le.mp (Int32.not_lt.mp hsec)
    obtain rfl := Option.some.inj h
    positivity

end X2Navigation
