import X2Navigation.Docking.Settling
import X2Navigation.Server.Interface
import X2Navigation.Server.Parameters

/-! The bodies of the three actions, as the operation threads execute them. Every
check is made where the source makes it, also where it is made twice. -/

namespace X2Navigation.FineAlignServer

open Rigid Interaction

variable {K : Type} [Field K] [LinearOrder K]

/-- `validState`. -/
def validState : ManipulationState → Bool
  | .empty | .holding => true
  | _ => false

/-- `now` is before `start` plus a timeout that was not validated. -/
def runningAt (start : TimePoint) (timeout : Double K) (now : TimePoint) : Bool :=
  Double.numLT (elapsed now start) timeout

/-- `time_since_epoch`, in seconds. -/
def seconds (t : TimePoint) : K := (t : K) / 10 ^ 9

structure AttemptFailure where
  code : FineAlign.Code
  message : String

def retryableFailure : FineAlign.Code → Bool
  | .noStableTag | .outsideCaptureEnvelope | .dockingFailed | .alignmentTimeout => true
  | _ => false

namespace Settings
variable (s : Settings K)

def maximumRetries : ℕ := s.parameters.maximumRetries.toNat
def undockDistance : K := s.parameters.undockDistance.value
def undockTimeout : K := s.parameters.undockTimeout.value

def settlingLimits : TagPoseSettling.Limits K where
  duration := s.parameters.settlingDuration.value
  positionSpread := s.parameters.settlingPositionSpread.value
  angularSpread := s.parameters.settlingAngularSpread.value

end Settings

section Geometry
variable (m : Libm K) (settings : Settings K)

def currentError (target : Isometry3 K) : PlanarError K := planarError m 1 target

def insideCaptureEnvelope (error : PlanarError K) : Bool :=
  let minimumX := if settings.controllerConfig.allowReverseX then
    -settings.parameters.reverseCaptureDistance.value else -settings.controllerConfig.xPositionTolerance
  decide (minimumX ≤ error.x) &&
    Double.numLE (m.hypot error.x error.y) settings.parameters.captureDistance &&
    Double.numLE |error.y| settings.parameters.captureLateral &&
    Double.numLE |error.yaw| settings.parameters.captureYaw

/-- One less the fraction of the capture distance that is left. `std::min` drops
a quotient that is no number, and a division by zero leaves nothing. -/
def captureProgress (distance : K) : Double K → K
  | .finite c => if c = 0 then 0 else 1 - min 1 (distance / c)
  | .nan => 0
  | _ => 1

end Geometry

/-! ### One control step -/

/-- The locals that both control loops carry from one pass to the next. -/
structure Control (K : Type) where
  motion : DockingMotionController K
  settling : TagPoseSettling K
  checkedSequence : ℕ
  previousControlTime : TimePoint

structure ControlOutput (K : Type) where
  command : Twist K
  settlingPose : Bool
  completed : Bool

namespace Control

def new (time : TimePoint) : Control K := ⟨.new, .new, 0, time⟩

/-- Steers by the filtered error and settles on the observed pose. -/
def step (m : Libm K) (settings : Settings K) (config : HolonomicFineAlignConfig K)
    (error rawError observed : PlanarError K) (sequence : ℕ) (controlTime : TimePoint)
    (c : Control K) : Option (Control K × ControlOutput K) :=
  let newObservation := decide (sequence ≠ c.checkedSequence)
  let dt := elapsed controlTime c.previousControlTime
  match DockingMotionController.update config settings.motionConfig m error.finite dt newObservation
      c.motion with
  | (_, none) => none
  | (motion, some command) =>
    let atGoal := fineAlignAtGoal error.finite config && fineAlignAtGoal rawError.finite config
    let commandStopped :=
      decide (command.linear.x = 0 ∧ command.linear.y = 0 ∧ command.angular.z = 0)
    let settlingPose := atGoal && commandStopped
    let settled := c.settling.update m settings.settlingLimits
      ⟨settlingPose, seconds controlTime, sequence, observed⟩
    some (⟨motion, settled.1, sequence, controlTime⟩, ⟨command, settlingPose, settled.2⟩)

end Control

/-! ### Endings -/

def stopAlignment : Operation K Unit := do
  setAlignmentActive false
  clearCommand
  publishZero

/-- `finish` of the fine alignment. -/
def finish (result : FineAlign.Result K) (code : FineAlign.Code) (message : String) :
    Operation K Unit := do
  stopAlignment
  terminate .abort (.fineAlign
    { result with success := false, errorCode := code, message := message })
  release

def finishCanceledOrFailed (result : FineAlign.Result K) (code : FineAlign.Code)
    (message : String) : Operation K Unit := do
  if ← isCanceling then
    stopAlignment
    terminate .canceled (.fineAlign
      { result with success := false, errorCode := code, message := "fine alignment canceled" })
    release
  else finish result code message

def finishUndock (result : Undock.Result K) (code : Undock.Code) (message : String) :
    Operation K Unit := do
  stopAlignment
  if ← isCanceling then
    terminate .canceled (.undock
      { result with success := false, errorCode := .canceled, message := "undocking canceled" })
    release
  else
    terminate .abort (.undock
      { result with success := false, errorCode := code, message := message })
    release

/-- The local `finish` of `executeRotate`. -/
def finishRotate (result : RotateInPlace.Result K) (code : RotateInPlace.Code) (message : String) :
    Operation K Unit := do
  stopAlignment
  let result := { result with errorCode := code, message := message, success := code = .success }
  terminate (if code = .canceled then .canceled else if code = .success then .succeed else .abort)
    (.rotate result)
  release

/-! ### Fine alignment -/

section FineAlignment
variable (m : Libm K) (settings : Settings K)

/-- One pass of the acquisition loop. -/
def acquisitionPass (start : TimePoint) (minimumSequence : ℕ) (stage : FineAlign.Stage)
    (running : Bool) (_ : Unit) :
    Operation K (Unit ⊕ Option (ManipulationState × Measurement K)) := do
  if !running then return .inr none
  let now ← steadyNow
  if !runningAt start settings.parameters.acquisitionTimeout now then return .inr none
  if ← isCanceling then return .inr none
  if ← navigationActive then return .inr none
  let (state, measurement) ← stableMeasurement
  let newer := measurement.filter fun x => minimumSequence < x.sequence
  if let some x := newer then return .inr (some (state, x))
  let (profile, instanceId) ← activeProfile
  publishFeedback (.fineAlign ⟨stage, ⟨0, 0, 0⟩, measurement.isSome, 0, profile.name, instanceId⟩)
  sleep .poll
  return .inl ()

def waitForMeasurement (minimumSequence : ℕ) (stage : FineAlign.Stage) :
    Operation K (Option (ManipulationState × Measurement K)) := do
  let start ← steadyNow
  .repeatWhile .ok (acquisitionPass settings start minimumSequence stage) ()

def retryPass (start : TimePoint) (running : Bool) (_ : Unit) : Operation K (Unit ⊕ Bool) := do
  if !running then return .inr (← ok)
  let now ← steadyNow
  if !runningAt start settings.parameters.retryDelay now then return .inr (← ok)
  if ← isCanceling then return .inr false
  if ← navigationActive then return .inr false
  sleep .poll
  return .inl ()

def waitForRetryDelay (result : FineAlign.Result K) : Operation K Bool := do
  publishFeedback (.fineAlign
    ⟨.reacquiring, result.finalError, false, 0, result.profileId, result.instanceId⟩)
  let start ← steadyNow
  .repeatWhile .ok (retryPass settings start) ()

/-- The result so far and the locals of the control loop. -/
abbrev Approach (K : Type) := FineAlign.Result K × Control K

/-- How an attempt ends: without a failure it has succeeded. -/
abbrev Attempted (K : Type) := FineAlign.Result K × Option AttemptFailure

def failed (result : FineAlign.Result K) (code : FineAlign.Code) (message : String) :
    Attempted K := (result, some ⟨code, message⟩)

/-- One pass of the control loop of an attempt. -/
def controlPass (start : TimePoint) (running : Bool) (a : Approach K) :
    Operation K (Approach K ⊕ Attempted K) := do
  let (result, control) := a
  if !running then
    return .inr (failed result .safetyAbort "ROS shutdown interrupted alignment")
  if ← isCanceling then
    return .inr (failed result .alignmentTimeout "fine alignment canceled")
  if ← navigationActive then
    return .inr (failed result .navigationActive "Nav2 became active")
  if ← collisionStopTimedOut then
    return .inr (failed result .collisionStopped "collision monitor stop persisted")
  let now ← steadyNow
  if Double.numGT (elapsed now start) settings.parameters.approachTimeout then
    return .inr (failed result .alignmentTimeout "fine alignment timed out")
  let (state, measurement) ← stableMeasurement
  let some x := measurement
    | return .inr (failed result .noStableTag "robot-relative tag target is unavailable or stale")
  let result := { result with manipulationState := state }
  if !validState state then
    return .inr (failed result .invalidState
      "manipulation state became invalid during fine alignment")
  let error := currentError m x.target
  let result := { result with finalError := error.finite }
  if !insideCaptureEnvelope m settings error || !insideCaptureEnvelope m settings x.rawError then
    return .inr (failed result .outsideCaptureEnvelope
      "refined target moved outside the configured capture envelope")
  let controlTime ← steadyNow
  let some (control, output) := control.step m settings settings.controllerConfig error x.rawError
      x.rawError x.sequence controlTime
    | return .inr (failed result .safetyAbort "holonomic controller rejected its input")
  writeCommand output.command none
  publishFeedback (.fineAlign
    ⟨if output.settlingPose then .settling else .controlling, error.finite, true,
      captureProgress (m.hypot error.x error.y) settings.parameters.captureDistance,
      result.profileId, result.instanceId⟩)
  if output.completed then return .inr (result, none)
  sleep .controllerPeriod
  return .inl (result, control)

/-- An attempt at a goal. -/
def runAttempt (goal : FineAlign.Goal) (result : FineAlign.Result K) (minimumSequence : ℕ)
    (stage : FineAlign.Stage) : Operation K (Attempted K) := do
  let measured ← waitForMeasurement settings minimumSequence stage
  let some (state, x) := measured
    | do
      if ← isCanceling then
        return failed result .alignmentTimeout "fine alignment canceled"
      if ← navigationActive then
        return failed result .navigationActive "Nav2 became active"
      if !(← ok) then
        return failed result .safetyAbort "ROS shutdown interrupted alignment"
      return failed result .noStableTag
        (if minimumSequence = 0 then "no stable 1 Hz tag pose" else "no newer stable 1 Hz tag pose")
  let result := { result with manipulationState := state }
  if !validState state then
    return failed result .invalidState "manipulation state is not EMPTY or HOLDING"
  let error := currentError m x.target
  let result := { result with finalError := error.finite }
  if !insideCaptureEnvelope m settings error then
    return failed result .outsideCaptureEnvelope
      "robot is outside the configured fine-align capture envelope"
  if !goal.execute then return (result, none)
  setAlignmentActive true
  let start ← steadyNow
  let previousControlTime ← steadyNow
  .repeatWhile .ok (controlPass m settings start) (result, Control.new previousControlTime)

/-- The delay before every attempt but the first. -/
def waitBeforeAttempt (attempt : ℕ) (result : FineAlign.Result K) : Operation K Bool :=
  if 1 < attempt then waitForRetryDelay settings result else return true

/-- The delay was interrupted. -/
def finishInterrupted (result : FineAlign.Result K) : Operation K Unit := do
  if ← navigationActive then
    finish result .navigationActive "Nav2 became active"
  else
    let running ← ok
    finishCanceledOrFailed result .alignmentTimeout
      (if running then "fine alignment canceled" else "ROS shutdown interrupted alignment")

/-- An attempt succeeded. -/
def finishAligned (goal : FineAlign.Goal) (attempt maximumAttempts : ℕ)
    (result : FineAlign.Result K) : Operation K Unit := do
  stopAlignment
  let result := { result with
    success := true, errorCode := .success,
    message := if goal.execute then
      s!"tag fine alignment succeeded on attempt {attempt} of {maximumAttempts}"
      else "fine-alignment inputs and capture pose are ready" }
  if goal.execute then
    recordDock result.profileId result.instanceId
    terminate .succeed (.fineAlign result)
    release
  else
    terminate .succeed (.fineAlign result)
    release

/-- The loop over the attempts, with the number of attempts that are left. -/
def attempts (goal : FineAlign.Goal) (maximumAttempts : ℕ) :
    ℕ → FineAlign.Result K → ℕ → Operation K Unit
  | 0, _, _ => pure ()
  | remaining + 1, result, minimumSequence => do
    let attempt := maximumAttempts - remaining
    if !(← waitBeforeAttempt settings attempt result) then finishInterrupted result
    else
      let (result, failure) ← runAttempt m settings goal result minimumSequence
        (if attempt = 1 then .acquiring else .reacquiring)
      match failure with
      | none => finishAligned goal attempt maximumAttempts result
      | some failure =>
        stopAlignment
        if ← isCanceling then
          finishCanceledOrFailed result failure.code failure.message
        else if !(retryableFailure failure.code && attempt < maximumAttempts) then
          finish result failure.code
            (if retryableFailure failure.code && 1 < maximumAttempts then
              failure.message ++ s!"; retries exhausted after {attempt} attempts"
            else failure.message)
        else
          let latest ← latestStableTargetSequence
          attempts goal maximumAttempts remaining result latest

def execute (goal : FineAlign.Goal) : Operation K Unit := do
  let result : FineAlign.Result K :=
    ⟨false, .success, "", ⟨.nan, .nan, .nan⟩, .unknown, "", ""⟩
  let resolved ← activateProfile goal.profileId false goal.instanceId
  let some profileId := resolved
    | finish result .invalidProfile
        ("invalid docking profile or box instance: " ++ goal.profileId)
  let result := { result with profileId := profileId }
  if ← navigationActive then
    finish result .navigationActive "Nav2 is active"
  else
    let (_, instanceId) ← activeProfile
    let maximumAttempts := if goal.execute then settings.maximumRetries + 1 else 1
    attempts m settings goal maximumAttempts maximumAttempts
      { result with instanceId := instanceId } 0

end FineAlignment

/-! ### Rotation in place -/

section Rotation
variable (settings : Settings K)

def invalidRotation (goal : RotateInPlace.Goal K) : Bool :=
  !goal.angularSpeed.isFinite || decide (goal.angularSpeed.value = 0) ||
    decide (settings.parameters.rotateMaxAngularSpeed.value < |goal.angularSpeed.value|) ||
    !goal.duration.isFinite || decide (goal.duration.value ≤ 0) ||
    decide (settings.parameters.rotateMaxDuration.value < goal.duration.value)

/-- The result so far, and when the rotation was first commanded. -/
abbrev Rotating (K : Type) := RotateInPlace.Result K × Option TimePoint

def rotationPass (goal : RotateInPlace.Goal K) (running : Bool) (r : Rotating K) :
    Operation K (Rotating K ⊕ Unit) := do
  let (result, start) := r
  if !running then
    finishRotate result .safetyAbort "ROS shutdown interrupted timed rotation"
    return .inr ()
  let now ← steadyNow
  let elapsedTime : K := match start with
    | some start => elapsed now start
    | none => 0
  let result := { result with elapsedTime := elapsedTime }
  let stopped ← collisionStopped
  if ← isCanceling then
    finishRotate result .canceled "timed rotation canceled"
    return .inr ()
  if ← navigationActive then
    finishRotate result .navigationActive "Nav2 is active"
    return .inr ()
  if !validState (← currentManipulationState) then
    finishRotate result .invalidState "rotation requires manipulation state EMPTY or HOLDING"
    return .inr ()
  if stopped then
    finishRotate result .collisionStopped "collision monitor stopped rotation"
    return .inr ()
  if start.isSome && goal.duration.value ≤ elapsedTime then
    finishRotate result .success "timed rotation completed; actual angle is not measured"
    return .inr ()
  writeRotation goal.angularSpeed.value now
  publishFeedback (.rotate
    ⟨elapsedTime, goal.angularSpeed.value, elapsedTime / goal.duration.value⟩)
  sleep .controllerPeriod
  return .inl (result, some (start.getD now))

def executeRotate (goal : RotateInPlace.Goal K) : Operation K Unit := do
  let result : RotateInPlace.Result K := ⟨false, .success, "", 0⟩
  if invalidRotation settings goal then
    finishRotate result .invalidGoal "speed or duration is invalid or exceeds rotation limits"
  else
    .repeatWhile .ok (rotationPass goal) (result, none)

end Rotation

/-! ### Undocking -/

section Undocking
variable (m : Libm K) (settings : Settings K)

/-- The result so far, and whether a motion was commanded. -/
abbrev Reversing (K : Type) := Undock.Result K × Bool

def currentlyInvalid : Operation K Bool := do
  return !validState (← currentManipulationState)

def timedPass (profile : DockingProfile K) (start : TimePoint) (running : Bool)
    (r : Reversing K) : Operation K (Reversing K ⊕ Unit) := do
  let (result, commandedMotion) := r
  if !running then
    finishUndock result .safetyAbort "ROS shutdown interrupted timed undocking"
    return .inr ()
  let controlTime ← steadyNow
  let elapsedTime := if commandedMotion then elapsed controlTime start else 0
  let distanceTraveled := profile.timedReverseSpeed * min elapsedTime profile.timedReverseDuration
  let state ← currentManipulationState
  let result := { result with
    elapsedTime := elapsedTime, distanceTraveled := distanceTraveled, manipulationState := state }
  let stopped ← collisionStopped
  let interrupted ← either isCanceling <| either navigationActive <|
    return stopped || !validState state
  if interrupted then
    -- the cause is read again
    let code ← choose isCanceling .canceled <| choose navigationActive .navigationActive <|
      return if stopped then .collisionStopped else .invalidState
    finishUndock result code
      "timed undocking interrupted by cancellation, navigation, collision stop, or state"
    return .inr ()
  if settings.undockTimeout < profile.timedReverseDuration ∧ settings.undockTimeout ≤ elapsedTime then
    finishUndock result .undockTimeout "timed undocking timed out"
    return .inr ()
  if profile.timedReverseDuration ≤ elapsedTime then
    stopAlignment
    terminate .succeed (.undock { result with
      success := true, errorCode := .success,
      message := "timed reverse completed; distance is a command-based estimate" })
    release
    return .inr ()
  let command : Twist K := ⟨⟨-profile.timedReverseSpeed, 0, 0⟩, 0⟩
  writeCommand command (some controlTime)
  let targetDistance := profile.timedReverseSpeed * profile.timedReverseDuration
  publishFeedback (.undock
    ⟨.moving, distanceTraveled, max 0 (targetDistance - distanceTraveled), command.linear.x, 0, 0,
      elapsedTime / profile.timedReverseDuration, profile.name, some profile.undockMode,
      elapsedTime, result.instanceId⟩)
  sleep .controllerPeriod
  return .inl (result, true)

def executeTimedUndock (result : Undock.Result K) (profile : DockingProfile K) :
    Operation K Unit := do
  let start ← steadyNow
  setAlignmentActive true
  .repeatWhile .ok (timedPass settings profile start) (result, false)

/-- One pass of the acquisition. It ends with a pose, or without one when the
middleware shuts down; `none` says that the operation has finished. -/
def undockAcquisitionPass (validating : Undock.Feedback K) (result : Undock.Result K)
    (acquisitionStart : TimePoint) (running : Bool) (_ : Unit) :
    Operation K (Unit ⊕ Option (Option (Isometry3 K))) := do
  if !running then return .inr (some none)
  let (_, measurement) ← stableMeasurement
  if let some x := measurement then return .inr (some (some x.target))
  let interrupted ← either isCanceling <| either navigationActive <|
    either collisionStopTimedOut currentlyInvalid
  if interrupted then
    -- the cause is read again
    let code ← choose isCanceling .canceled <| choose navigationActive .navigationActive <|
      choose currentlyInvalid .invalidState <| return .collisionStopped
    finishUndock result code "undock acquisition interrupted"
    return .inr none
  let now ← steadyNow
  if Double.numGE (elapsed now acquisitionStart) settings.parameters.acquisitionTimeout then
    finishUndock result .noStableTag "no fresh stable tag for undocking"
    return .inr none
  publishFeedback (.undock validating)
  sleep .controllerPeriod
  return .inl ()

/-- The result so far and the locals of the control loop. -/
abbrev Retreat (K : Type) := Undock.Result K × Control K

/-- The undock errors of the filtered and of the raw pose. -/
def undockError (initial current : Isometry3 K) : PlanarError K :=
  planarError m 1 (tagRelativeUndockTarget initial current settings.undockDistance)

/-- How far the robot moved back since the initial pose. -/
def distanceTraveled (initial : Isometry3 K) (raw : PlanarError K) : K :=
  max 0 (-(initial * (planarPose m raw).inverse).translation 0)

def undockPass (undockStart start : TimePoint) (initial : Isometry3 K) (running : Bool)
    (r : Retreat K) : Operation K (Retreat K ⊕ Unit) := do
  let (result, control) := r
  if !running then
    finishUndock result .safetyAbort "ROS shutdown interrupted undocking"
    return .inr ()
  let interrupted ← either isCanceling <| either navigationActive collisionStopTimedOut
  if interrupted then
    -- the cause is read again
    let code ← choose isCanceling .canceled <| choose navigationActive .navigationActive <|
      return .collisionStopped
    finishUndock result code
      "undocking interrupted by cancellation, navigation, or collision stop"
    return .inr ()
  let now ← steadyNow
  if settings.undockTimeout ≤ elapsed now start then
    finishUndock result .undockTimeout "undocking timed out"
    return .inr ()
  let (state, measurement) ← stableMeasurement
  let some x := measurement
    | do
      finishUndock result .noStableTag "tag became unavailable or stale during undocking"
      return .inr ()
  let result := { result with manipulationState := state }
  if !validState state then
    finishUndock result .invalidState "manipulation state became invalid during undocking"
    return .inr ()
  let error := undockError m settings initial x.target
  let rawError := undockError m settings initial (planarPose m x.rawError)
  let result := { result with distanceTraveled := distanceTraveled m initial x.rawError }
  let controlTime ← steadyNow
  let some (control, output) := control.step m settings settings.undockControllerConfig error
      rawError x.rawError x.sequence controlTime
    | do
      finishUndock result .safetyAbort "controller rejected tag-relative undocking error"
      return .inr ()
  writeCommand output.command (some controlTime)
  let remaining := max 0 (settings.undockDistance - result.distanceTraveled)
  let result := { result with elapsedTime := elapsed controlTime undockStart }
  publishFeedback (.undock
    ⟨if output.settlingPose then .settling else .moving, result.distanceTraveled, remaining,
      output.command.linear.x, output.command.linear.y, output.command.angular.z,
      min 1 (result.distanceTraveled / settings.undockDistance), result.profileId,
      result.undockMode, result.elapsedTime, result.instanceId⟩)
  if output.completed then
    stopAlignment
    terminate .succeed (.undock { result with
      success := true, errorCode := .success, message := "tag-relative undocking succeeded" })
    release
    return .inr ()
  sleep .controllerPeriod
  return .inl (result, control)

/-- The tag-relative part of `executeUndock`. Without a pose the middleware has
shut down, and the second check ends the operation before the pose is read. -/
def undockTagRelative (validating : Undock.Feedback K) (result : Undock.Result K) :
    Operation K Unit := do
  let undockStart ← steadyNow
  let acquisitionStart ← steadyNow
  let acquired ← .repeatWhile .ok (undockAcquisitionPass settings validating result acquisitionStart) ()
  let some initial := acquired | return ()
  if !(← ok) then
    finishUndock result .safetyAbort "ROS shutdown interrupted undock acquisition"
  else
    setAlignmentActive true
    let start ← steadyNow
    let previousControlTime ← steadyNow
    .repeatWhile .ok (undockPass m settings undockStart start (initial.getD 1))
      (result, Control.new previousControlTime)

def executeUndock (goal : Undock.Goal) : Operation K Unit := do
  let state ← currentManipulationState
  let result : Undock.Result K := ⟨false, .success, "", 0, state, "", none, 0, ""⟩
  let resolved ← activateProfile goal.profileId true ""
  let some profileId := resolved
    | finishUndock result .invalidProfile ("unknown docking profile: " ++ goal.profileId)
  let (profile, instanceId) ← activeProfile
  let result := { result with
    profileId := profileId, instanceId := instanceId, undockMode := some profile.undockMode }
  let remaining := match profile.undockMode with
    | .timedReverse => profile.timedReverseSpeed * profile.timedReverseDuration
    | .tagRelative => settings.undockDistance
  let validating : Undock.Feedback K :=
    ⟨.validating, 0, remaining, 0, 0, 0, 0, profileId, some profile.undockMode, 0, instanceId⟩
  publishFeedback (.undock validating)
  if ← navigationActive then
    finishUndock result .navigationActive "Nav2 is active"
  else if !validState state then
    finishUndock result .invalidState "manipulation state is not EMPTY or HOLDING"
  else
    match profile.undockMode with
    | .timedReverse => executeTimedUndock settings result profile
    | .tagRelative => undockTagRelative m settings validating result

end Undocking

/-- The body of an accepted goal. -/
def body (m : Libm K) (settings : Settings K) : Goal K → Operation K Unit
  | .fineAlign goal => execute m settings goal
  | .undock goal => executeUndock m settings goal
  | .rotate goal => executeRotate settings goal

end X2Navigation.FineAlignServer
