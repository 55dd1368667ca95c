import X2Navigation.Odin.Transform
import X2Navigation.Traced.Machine

/-! The localization adapter between the Odin sensor and the robot's frames. It
differentiates base poses, watches every stream it depends on and publishes its
readiness. The callbacks run one at a time; each reads both clocks once. What a
callback publishes, and what it decides on the way, is its trace. -/

namespace X2Navigation

open Rigid Traced

structure Clocks where
  ros : TimePoint
  steady : TimePoint

instance : Preorder Clocks where
  le a b := a.ros ≤ b.ros ∧ a.steady ≤ b.steady
  le_refl a := ⟨le_rfl, le_rfl⟩
  le_trans a b c h h' := ⟨h.1.trans h'.1, h.2.trans h'.2⟩

instance : DecidableLE Clocks := fun a b =>
  inferInstanceAs (Decidable (a.ros ≤ b.ros ∧ a.steady ≤ b.steady))

namespace OdinLocalizationAdapter

/-- The parameters, as the constructor leaves them after its checks. -/
structure Params (K : Type*) [Field K] [LinearOrder K] where
  nativeOdom : String
  nativeMap : String
  nativeImu : String
  base : String
  odom : String
  map : String
  /-- The sensor time offset as a duration in nanoseconds. -/
  offset : ℤ
  localTimeout : K
  correctionTimeout : K
  futureTolerance : K
  maxStep : K
  maxAngle : K
  maxPendingSamples : ℕ
  poseVariance : K
  twistVariance : K
  alignmentConfirmed : Bool
  alignment : Isometry3 K
  localTimeout_pos : 0 < localTimeout
  correctionTimeout_pos : 0 < correctionTimeout
  futureTolerance_pos : 0 < futureTolerance
  maxStep_pos : 0 < maxStep
  maxAngle_pos : 0 < maxAngle
  poseVariance_pos : 0 < poseVariance
  twistVariance_pos : 0 < twistVariance
  maxPendingSamples_mem : 1 ≤ maxPendingSamples ∧ maxPendingSamples ≤ 4096
  frames_ne : odom ≠ map ∧ odom ≠ base ∧ map ≠ base

inductive Reason
  | waitingForLocalOdometry
  | localTimeRegression
  | invalidLocalInput
  | localOdometryNotAdvancing
  | localOdometryDiscontinuity
  | invalidTransformedLocalPose
  | waitingForTimestampedRobotTf
  | mapAlignmentUnconfirmed
  | waitingForFreshRelocalization
  | waitingForVelocityBaseline
  | ready
  deriving DecidableEq

def Reason.text : Reason → String
  | .waitingForLocalOdometry => "waiting_for_local_odometry"
  | .localTimeRegression => "local_time_regression"
  | .invalidLocalInput => "invalid_local_input"
  | .localOdometryNotAdvancing => "local_odometry_not_advancing"
  | .localOdometryDiscontinuity => "local_odometry_discontinuity"
  | .invalidTransformedLocalPose => "invalid_transformed_local_pose"
  | .waitingForTimestampedRobotTf => "waiting_for_timestamped_robot_tf"
  | .mapAlignmentUnconfirmed => "map_alignment_unconfirmed"
  | .waitingForFreshRelocalization => "waiting_for_fresh_relocalization"
  | .waitingForVelocityBaseline => "waiting_for_velocity_baseline"
  | .ready => "ready"

theorem Reason.text_eq_ready {r : Reason} : r.text = "ready" ↔ r = .ready := by
  cases r <;> simp [text]

structure PendingOdometry (K : Type*) where
  message : Odometry (Double K)
  stamp : TimePoint
  received : TimePoint

/-- A local sample that became the baseline, with the steady time of that. -/
structure Sample (K : Type*) where
  stamp : TimePoint
  pose : Isometry3d K
  acceptedAt : TimePoint

/-- A native correction in force from `receivedAt`. -/
structure Correction (K : Type*) where
  stamp : TimePoint
  transform : Isometry3d K
  receivedAt : TimePoint

structure LocalOdometry (K : Type*) where
  stamp : TimePoint
  frameId : String
  childFrameId : String
  pose : PoseWithCovariance (Double K)
  twist : TwistWithCovariance (Double K)

/-- `dropped` reports a native correction that only moved the watermark. -/
inductive Occurrence (K : Type*)
  | invalidated (reason : Reason) (boundary : TimePoint)
  | accepted (sample : Sample K)
  | corrected (correction : Correction K)
  | dropped (stamp : TimePoint)
  | odometry (output : LocalOdometry K)
  | transform (pose : Isometry3d K) (parent child : String) (stamp : TimePoint)
  | status (text : String) (ready : Bool)

structure State (K : Type*) where
  pending : List (PendingOdometry K)
  localReason : Reason
  differentiated : Bool
  correction : Isometry3d K
  previousPose : Isometry3d K
  correctionStamp : Option TimePoint
  previousStamp : Option TimePoint
  publishedCorrectionStamp : Option TimePoint
  lastLocalStamp : Option TimePoint
  lastCorrectionStamp : Option TimePoint
  recoveryAfter : Option TimePoint
  localAcceptedAt : Option TimePoint
  correctionReceivedAt : Option TimePoint

variable {K : Type*} [Field K] [LinearOrder K]

def State.initial : State K :=
  ⟨[], .waitingForLocalOdometry, false, 1, 1, none, none, none, none, none, none, none, none⟩

abbrev Callback (K : Type*) := Reaction (State K) (Occurrence K)

def status (reason : Reason) : Occurrence K := .status reason.text (reason.text == "ready")

def invalidateLocal (c : Clocks) (reason : Reason) (s : State K) : Callback K :=
  let boundary := c.ros
  ({ s with
      recoveryAfter := some (s.recoveryAfter.elim boundary (max boundary))
      pending := []
      previousStamp := none
      localAcceptedAt := none
      correctionStamp := none
      correctionReceivedAt := none
      differentiated := false
      localReason := reason },
    [.invalidated reason boundary])

variable (p : Params K)

/-- Refuses a stamp before the epoch, an unset stamp and more than a second of
nanoseconds. -/
def shifted (stamp : Time) : Option TimePoint :=
  if stamp.sec < 0 ∨ 1000000000 ≤ stamp.nanosec ∨ stamp.sec = 0 ∧ stamp.nanosec = 0 then none
  else some (stamp.sec.toInt * 1000000000 + stamp.nanosec.toNat + p.offset)

def fresh (c : Clocks) (stamp : TimePoint) (timeout : K) : Bool :=
  decide (-p.futureTolerance ≤ elapsed c.ros stamp ∧ elapsed c.ros stamp ≤ timeout)

variable (E : Eigen3d K)

/-! ### Receiving -/

/-- One transform of a native TF message. -/
def receiveTransform (c : Clocks) (tf : TransformStamped (Double K)) (s : State K) : Callback K :=
  if tf.header.frameId ≠ p.nativeOdom ∨ tf.childFrameId ≠ p.nativeMap then (s, [])
  else
    match shifted p tf.header.stamp with
    | none => ({ s with correctionStamp := none }, [])
    | some stamp =>
      if !fresh p c stamp p.correctionTimeout || s.lastCorrectionStamp.any (stamp ≤ ·) then (s, [])
      else
        match tf.transform.odinTransform E.toEigen with
        | none => ({ s with correctionStamp := none }, [])
        | some mapFromOdom =>
          let correction := Isometry3d.mul E.rounding p.alignment.toDouble
            (.inverse E.rounding mapFromOdom.toDouble)
          let s := { s with lastCorrectionStamp := some stamp }
          if s.recoveryAfter.any (stamp ≤ ·) then (s, [.dropped stamp])
          else
            ({ s with
                correction := correction
                correctionStamp := some stamp
                correctionReceivedAt := some c.steady },
              [.corrected ⟨stamp, correction, c.steady⟩])

def receiveNativeTf (c : Clocks) (transforms : List (TransformStamped (Double K))) (s : State K) :
    Callback K :=
  transforms.foldl (fun r tf => r.andThen (receiveTransform p E c tf)) (s, [])

/-- A stamp that can be used: the frames, the time and the pose are valid. -/
def validated (c : Clocks) (input : Odometry (Double K)) : Option TimePoint :=
  match shifted p input.header.stamp with
  | none => none
  | some stamp =>
    if !fresh p c stamp p.localTimeout then none
    else if input.header.frameId ≠ p.nativeOdom ∨ input.childFrameId ≠ p.nativeImu then none
    else if (input.pose.pose.odinTransform E.toEigen).isNone then none
    else some stamp

def receiveOdometry (c : Clocks) (input : Odometry (Double K)) (s : State K) : Callback K :=
  match validated p E c input with
  | none => invalidateLocal c .invalidLocalInput s
  | some stamp =>
    if s.lastLocalStamp = some stamp then (s, [])
    else if s.lastLocalStamp.any (stamp < ·) then
      invalidateLocal c .localTimeRegression { s with lastLocalStamp := some stamp }
    else
      let pending := s.pending ++ [⟨input, stamp, c.steady⟩]
      ({ s with
          lastLocalStamp := some stamp
          pending := pending.drop (pending.length - p.maxPendingSamples) }, [])

/-! ### The timer -/

/-- What the robot's TF buffer answers during one tick: the time of the newest
transform of the chain, zero for a chain of static transforms, and the mount at
a time. A lookup that throws answers nothing. -/
structure RobotTf (K : Type*) where
  latest : Option TimePoint
  canTransform : TimePoint → Bool
  lookup : TimePoint → Option (Transform (Double K))

/-- Is the baseline too old, or was it taken too long ago? -/
def notAdvancing (c : Clocks) (s : State K) : Bool :=
  s.previousStamp.any fun previous => !fresh p c previous p.localTimeout ||
    s.localAcceptedAt.all fun acceptedAt => decide (p.localTimeout < elapsed c.steady acceptedAt)

def expired (c : Clocks) (pending : PendingOdometry K) : Bool :=
  !fresh p c pending.stamp p.localTimeout ||
    decide (p.localTimeout < elapsed c.steady pending.received)

/-- What becomes of one candidate. -/
inductive Attempt (K : Type*)
  | skip
  | invalid
  | discontinuity
  | accept (pose : Isometry3d K) (twist : Twist (Double K))

/-- The velocity against the baseline; zero where there is none. -/
def differentiate (s : State K) (stamp : TimePoint) (pose : Isometry3d K) : Attempt K :=
  match s.previousStamp with
  | none => .accept pose 0
  | some previous =>
    let dt : K := elapsed stamp previous
    let distance := E.distance pose.translation s.previousPose.translation
    let angle := (E.angleAxis (s.previousPose.linear.transpose * pose.linear)).2
    if dt ≤ 0 ∨ p.localTimeout < dt ∨ Double.numLT p.maxStep distance ∨ p.maxAngle < angle then
      .discontinuity
    else
      match Isometry3d.odinLocalTwist E s.previousPose pose dt with
      | none => .invalid
      | some twist => .accept pose twist

def attempt (tf : RobotTf K) (s : State K) (candidate : PendingOdometry K) : Attempt K :=
  if tf.latest.any fun latest => latest ≠ 0 && decide (latest < candidate.stamp) then .skip
  else if !tf.canTransform candidate.stamp then .skip
  else
    match tf.lookup candidate.stamp with
    | none => .skip
    | some mount =>
      match candidate.message.pose.pose.odinTransform E.toEigen, mount.odinTransform E.toEigen with
      | some odomFromImu, some baseFromImu =>
        differentiate p E s candidate.stamp (Isometry3d.odinBasePose E odomFromImu baseFromImu)
      | _, _ => .invalid

/-- The newest of the first `index` samples that is not skipped, with the samples
behind it. -/
def select (tf : RobotTf K) (s : State K) : ℕ → Option (ℕ × PendingOdometry K × Attempt K)
  | 0 => none
  | index + 1 =>
    match s.pending[index]? with
    | none => none
    | some candidate =>
      match attempt p E tf s candidate with
      | .skip => select tf s index
      | other => some (index + 1, candidate, other)

def diagonal (variance : K) : Fin 36 → Double K :=
  fun k => if k.val % 7 = 0 then .finite variance else 0

def accept (c : Clocks) (index : ℕ) (stamp : TimePoint) (pose : Isometry3d K)
    (twist : Twist (Double K)) (s : State K) : Callback K :=
  ({ s with
      differentiated := s.previousStamp.isSome
      previousPose := pose
      previousStamp := some stamp
      localAcceptedAt := some c.steady
      pending := s.pending.drop index },
    [.accepted ⟨stamp, pose, c.steady⟩,
     .odometry
      { stamp := stamp
        frameId := p.odom
        childFrameId := p.base
        pose := ⟨⟨Vector3.ofFun pose.translation, (E.quaternion pose.linear).finite⟩,
          diagonal p.poseVariance⟩
        twist := ⟨twist, diagonal p.twistVariance⟩ },
     .transform pose p.odom p.base stamp])

/-- What is still missing for readiness, in the order in which it is reported. -/
def readiness (c : Clocks) (s : State K) : Reason :=
  if s.previousStamp.isNone then
    if s.pending.isEmpty then s.localReason else .waitingForTimestampedRobotTf
  else if !p.alignmentConfirmed then .mapAlignmentUnconfirmed
  else if s.correctionStamp.all (fun stamp => !fresh p c stamp p.correctionTimeout) ||
      s.correctionReceivedAt.all (fun received =>
        decide (p.correctionTimeout < elapsed c.steady received)) then
    .waitingForFreshRelocalization
  else if !s.differentiated then .waitingForVelocityBaseline
  else .ready

/-- The end of a tick. A correction is published once, before the first status
that relies on it. -/
def report (c : Clocks) (s : State K) : Callback K :=
  let reason := readiness p c s
  if reason = .ready ∧ s.publishedCorrectionStamp ≠ s.correctionStamp then
    match s.correctionStamp with
    | some stamp =>
      ({ s with publishedCorrectionStamp := some stamp },
        [.transform s.correction p.map p.odom stamp, status reason])
    | none => (s, [status reason])
  else (s, [status reason])

/-- Drop what does not advance: the baseline, then the oldest samples. -/
def expire (c : Clocks) (s : State K) : Callback K :=
  let r := if notAdvancing p c s then invalidateLocal c .localOdometryNotAdvancing s else (s, [])
  r.andThen fun s => ({ s with pending := s.pending.dropWhile (expired p c) }, [])

def process (c : Clocks) (tf : RobotTf K) (s : State K) : Callback K :=
  (expire p c s).andThen fun s =>
    match if tf.latest.isSome then select p E tf s s.pending.length else none with
    | some (_, _, .discontinuity) =>
      (invalidateLocal c .localOdometryDiscontinuity s).andThen fun s => (s, [status s.localReason])
    | some (_, _, .invalid) =>
      (invalidateLocal c .invalidTransformedLocalPose s).andThen (report p c)
    | some (index, candidate, .accept pose twist) =>
      (accept p E c index candidate.stamp pose twist s).andThen (report p c)
    | _ => report p c s

/-! ### Runs -/

inductive Input (K : Type*)
  | odometry (message : Odometry (Double K))
  | nativeTf (transforms : List (TransformStamped (Double K)))
  | tick (tf : RobotTf K)

/-- A callback: what it was called with, and what both clocks read. -/
structure Event (K : Type*) where
  clocks : Clocks
  input : Input K

def step (e : Event K) : State K → Callback K :=
  match e.input with
  | .odometry message => receiveOdometry p E e.clocks message
  | .nativeTf transforms => receiveNativeTf p E e.clocks transforms
  | .tick tf => process p E e.clocks tf

def run (events : List (Event K)) : Callback K := Traced.run (step p E) .initial events

end OdinLocalizationAdapter

end X2Navigation
