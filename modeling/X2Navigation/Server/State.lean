import X2Navigation.Command.NavigationCommandGate
import X2Navigation.Docking.Tracker
import X2Navigation.Server.Interface
import X2Navigation.Server.Operations

/-! The state of the fine-align server that its threads share: the command
multiplexer, the acquisition of the docking target, and what the middleware told
the server. Every function here is one block under its mutex; the clocks stand
still during a block. -/

namespace X2Navigation.FineAlignServer

open Rigid

/-- What a constructed node runs with. -/
structure Node (K : Type) [Field K] [LinearOrder K] where
  m : Libm K
  settings : Settings K
  profiles : DockingProfiles K
  defaultProfile : String
  initialProfile : DockingProfile K
  resolved : profiles.resolve "" defaultProfile "" = some initialProfile
  monitorRaw : Bool
  bypassCollisionMonitor : Bool

/-- A node with the default parameters. -/
def Node.declared : Node ℚ where
  m := .straight
  settings := .declared
  profiles := [.declared]
  defaultProfile := "default"
  initialProfile := .declared
  resolved := by decide +kernel
  monitorRaw := false
  bypassCollisionMonitor := false

variable {K : Type} [Field K] [LinearOrder K]

namespace Node
variable (node : Node K)

def commandTimeout : Double K := node.settings.parameters.commandTimeout

def maximumPoseAge : K := node.settings.parameters.maximumPoseAge.value

/-- How old a tag pose may be. -/
def ageLimit : K := min node.settings.parameters.trackingTimeout.value node.maximumPoseAge

def trackingConfig : TagTrackingConfig K where
  acquisitionSamples := (max 1 node.settings.parameters.stableSampleCount).toNat
  timeout := node.ageLimit
  filterTimeConstant := node.settings.parameters.tagFilterTimeConstant.value
  positionSlack := node.settings.parameters.maximumPositionSpread.value
  angularSlack := node.settings.parameters.maximumAngularSpread.value
  translationRate := max node.settings.controllerConfig.translationSpeedMax
    node.settings.undockControllerConfig.translationSpeedMax
  angularRate := max node.settings.controllerConfig.angularSpeedMax
    node.settings.undockControllerConfig.angularSpeedMax

/-- `find_if` of a tick: the tag of the profile, seen clearly enough. -/
def usable (profile : DockingProfile K) (detection : AprilTagDetection K) : Bool :=
  decide (detection.id = profile.tagId) && detection.decisionMargin.isFinite &&
    Double.numGE detection.decisionMargin.value node.settings.parameters.minimumDecisionMargin

end Node

/-! ### The command multiplexer -/

/-- `operation_active_`, `alignment_active_` and the data behind `command_mutex_`. -/
structure Mux (K : Type) where
  operationActive : Bool
  alignmentActive : Bool
  alignmentCommand : Twist K
  alignmentCommandTime : Option TimePoint
  gate : NavigationCommandGate K

/-- What a tick publishes. While an operation owns the flag the navigation status
is read too. -/
inductive Selection (K : Type)
  | operation (navigationActive : Bool) (command : Twist (Double K))
  | navigation (command : Twist (Double K))

def Selection.command : Selection K → Twist (Double K)
  | .operation _ command => command
  | .navigation command => command

namespace Mux
variable (node : Node K)

def initial : Mux K := ⟨false, false, 0, none, .new node.monitorRaw⟩

/-- The alignment command may be published: it is active and recent enough. -/
def current (now : TimePoint) (mux : Mux K) : Bool :=
  mux.alignmentActive && match mux.alignmentCommandTime with
    | some time => Double.numLE (elapsed now time) node.commandTimeout
    | none => false

/-- The locked block of `publishSelectedCommand`. -/
def select (navigationActive : Bool) (now : TimePoint) (mux : Mux K) : Selection K × Mux K :=
  if mux.operationActive then
    (.operation navigationActive
      (if !navigationActive && mux.current node now then mux.alignmentCommand.finite else 0), mux)
  else
    let (gate, command) := mux.gate.commandAt now node.commandTimeout
    (.navigation command, { mux with gate := gate })

/-- A tick does not touch what an operation owns. -/
theorem select_owned {navigationActive : Bool} {now : TimePoint} {mux : Mux K}
    (h : mux.operationActive = true) : mux.select node navigationActive now =
      (.operation navigationActive
        (if !navigationActive && mux.current node now then mux.alignmentCommand.finite else 0), mux) :=
  if_pos h

theorem select_free {navigationActive : Bool} {now : TimePoint} {mux : Mux K}
    (h : mux.operationActive = false) : mux.select node navigationActive now =
      (.navigation (mux.gate.commandAt now node.commandTimeout).2,
        { mux with gate := (mux.gate.commandAt now node.commandTimeout).1 }) := by
  rw [select, if_neg (by rw [h]; exact Bool.false_ne_true)]

/-- The two navigation callbacks; an operation shuts them off. -/
def update (command : Twist (Double K)) (now : TimePoint) (mux : Mux K) : Mux K :=
  if mux.operationActive then mux
  else { mux with gate := mux.gate.update command now node.commandTimeout }

def updateRaw (command : Twist (Double K)) (now : TimePoint) (mux : Mux K) : Mux K :=
  if mux.operationActive then mux
  else { mux with gate := mux.gate.updateRaw command now node.commandTimeout }

/-- What an operation thread does to the multiplexer. -/
def operate (now : TimePoint) (mux : Mux K) : Op K → Mux K
  | .setAlignmentActive active => { mux with alignmentActive := active }
  | .writeCommand command time =>
    { mux with alignmentCommand := command, alignmentCommandTime := some (time.getD now) }
  | .writeRotation angularSpeed time =>
    { mux with
      alignmentCommand := ⟨0, ⟨0, 0, angularSpeed⟩⟩, alignmentCommandTime := some time,
      alignmentActive := true }
  | .clearCommand =>
    { mux with alignmentCommand := 0, alignmentCommandTime := none, gate := mux.gate.reset }
  | .release => { mux with operationActive := false }
  | _ => mux

end Mux

/-! ### Acquisition -/

/-- The data behind `measurement_mutex_` and `pending_detection_mutex_`. The two
counters are not bounded. -/
structure Acquisition (K : Type) where
  activeProfile : DockingProfile K
  activeInstanceId : String
  profileGeneration : ℕ
  activationStamp : TimePoint
  pendingDetection : Option (AprilTagDetectionArray K)
  tracker : RelativeTagTracker K
  stableTarget : Option (Isometry3 K)
  rawError : PlanarError K
  lastSampleStamp : TimePoint
  stableTargetStamp : TimePoint
  stableTargetSequence : ℕ
  manipulationState : ManipulationState
  boxStates : String → Option BoxState
  lastDockedProfile : String
  lastDockedTarget : Option (DockingProfile K)
  lastDockedInstance : String

namespace Acquisition
variable (node : Node K)

def initial : Acquisition K where
  activeProfile := node.initialProfile
  activeInstanceId := ""
  profileGeneration := 0
  activationStamp := 0
  pendingDetection := none
  tracker := .new
  stableTarget := none
  rawError := ⟨0, 0, 0⟩
  lastSampleStamp := 0
  stableTargetStamp := 0
  stableTargetSequence := 0
  manipulationState := .unknown
  boxStates _ := none
  lastDockedProfile := ""
  lastDockedTarget := none
  lastDockedInstance := ""

/-- What is selected, and the box it was selected for. The outer `none` is a stamp
that throws past `activateProfile`; the inner one is a refusal. -/
def selectProfile (rosNow : TimePoint) (requested : String) (undocking : Bool) (instanceId : String)
    (a : Acquisition K) : Option (Option (String × Option BoxState)) :=
  if undocking || instanceId.isEmpty then some (some (requested, none))
  else match a.boxStates instanceId with
    | none => some none
    | some box =>
      match box.header.stamp.nanoseconds? with
      | none => none
      | some stamp =>
        let age : K := elapsed rosNow stamp
        if age < 0 ∨ node.maximumPoseAge < age then some none
        else
          let selection := if requested.isEmpty then box.defaultDockingProfile else requested
          if selection.isEmpty || !box.dockingProfileIds.contains selection then some none
          else some (some (selection, some box))

/-- The target of a resolved profile, and its instance. -/
def bindTarget (profile : DockingProfile K) (undocking : Bool) (instanceId : String)
    (box : Option BoxState) (a : Acquisition K) : Option (DockingProfile K × String) :=
  match profile.targetSource with
  | .tag => if instanceId.isEmpty then some (profile, "") else none
  | .box =>
    if !undocking then
      match box with
      | none => none
      | some box =>
        if box.tagFrame.isEmpty then none
        else (bindBoxDockingProfile profile instanceId box.tagFrame).map (·, instanceId)
    else match a.lastDockedTarget.filter (·.name = profile.name) with
      | some target => some (target, a.lastDockedInstance)
      | none => if profile.undockMode = .timedReverse then some (profile, "") else none

/-- A new generation forgets what was observed for the old one. -/
def activate (rosNow : TimePoint) (target : DockingProfile K) (instanceId : String)
    (a : Acquisition K) : Acquisition K :=
  { a with
    activeProfile := target
    activeInstanceId := instanceId
    profileGeneration := a.profileGeneration + 1
    activationStamp := rosNow
    pendingDetection := none
    tracker := a.tracker.reset
    stableTarget := none
    rawError := ⟨0, 0, 0⟩
    lastSampleStamp := 0
    stableTargetStamp := 0 }

/-- A profile that resolves is stored before its target is bound, also when that
fails. `none` is an exception that is not caught. -/
def activateProfile (rosNow : TimePoint) (requested : String) (undocking : Bool)
    (instanceId : String) (a : Acquisition K) : Option (Option String × Acquisition K) :=
  match a.selectProfile node rosNow requested undocking instanceId with
  | none => none
  | some none => some (none, a)
  | some (some (selection, box)) =>
    match node.profiles.resolve selection node.defaultProfile
        (if undocking then a.lastDockedProfile else "") with
    | none => some (none, a)
    | some profile =>
      let a := { a with activeProfile := profile, activeInstanceId := "" }
      match a.bindTarget profile undocking instanceId box with
      | none => some (none, a)
      | some (target, boundInstance) => some (some target.name, a.activate rosNow target boundInstance)

def stableMeasurement (rosNow : TimePoint) (a : Acquisition K) : Option (Measurement K) :=
  match a.stableTarget with
  | none => none
  | some target =>
    let age : K := elapsed rosNow a.stableTargetStamp
    if a.stableTargetStamp = 0 ∨ age < 0 ∨ node.ageLimit < age then none
    else some ⟨target, a.stableTargetSequence, a.rawError⟩

def recordDock (profileId instanceId : String) (a : Acquisition K) : Acquisition K :=
  { a with
    lastDockedProfile := profileId
    lastDockedTarget := some a.activeProfile
    lastDockedInstance := instanceId }

/-- Only the topic of the active profile is kept. -/
def detect (topic : String) (message : AprilTagDetectionArray K) (a : Acquisition K) :
    Acquisition K :=
  if topic = a.activeProfile.detectionsTopic then { a with pendingDetection := some message } else a

def storeBoxes (boxes : List BoxState) (a : Acquisition K) : Acquisition K :=
  { a with
    boxStates := boxes.foldl (fun known box => Function.update known box.instanceId (some box))
      a.boxStates }

/-- The sample belongs to the generation and is newer than the last one. -/
def sampleIsNew (generation : ℕ) (stamp : TimePoint) (a : Acquisition K) : Bool :=
  decide (generation = a.profileGeneration ∧ ¬ (a.lastSampleStamp ≠ 0 ∧ stamp ≤ a.lastSampleStamp))

/-- The last block of a tick that has a raw error. Answers with the sequence number
of the target it made stable. -/
def commit (generation : ℕ) (stamp : TimePoint) (raw : PlanarError K) (command : Twist K)
    (a : Acquisition K) : Option ℕ × Acquisition K :=
  if !a.sampleIsNew generation stamp then (none, a)
  else
    let (tracker, observed) :=
      a.tracker.observe node.m node.trackingConfig raw.finite (.finite (seconds stamp)) command
    let a := { a with lastSampleStamp := stamp, tracker := tracker }
    if !observed then (none, a)
    else if !tracker.ready node.trackingConfig then (none, { a with stableTarget := none })
    else
      (some (a.stableTargetSequence + 1), { a with
        stableTarget := some (planarPose node.m tracker.error)
        rawError := raw
        stableTargetStamp := stamp
        stableTargetSequence := a.stableTargetSequence + 1 })

/-- The last block of a tick whose measurement threw. -/
def reject (generation : ℕ) (stamp : TimePoint) (a : Acquisition K) : Acquisition K :=
  if generation ≠ a.profileGeneration then a
  else { a with tracker := a.tracker.reset, stableTarget := none, lastSampleStamp := stamp }

end Acquisition

/-! ### Everything shared -/

structure Shared (K : Type) where
  mux : Mux K
  acquisition : Acquisition K
  navActiveMask : UInt32
  collisionStopped : Bool
  collisionStopSince : Option TimePoint
  ok : Bool

namespace Shared
variable (node : Node K)

def initial : Shared K := ⟨.initial node, .initial node, 0, false, none, true⟩

def navigationActive (s : Shared K) : Bool := decide (s.navActiveMask ≠ 0)

def collisionStopTimedOut (now : TimePoint) (s : Shared K) : Bool :=
  s.collisionStopped && match s.collisionStopSince with
    | some since => Double.numGT (elapsed now since) node.settings.parameters.collisionStopTimeout
    | none => false

end Shared

end X2Navigation.FineAlignServer
