import X2Navigation.Cloud.VoxelFilter
import X2Navigation.Traced.Machine

/-! The cloud throttle: a subscription keeps the newest cloud, and a timer filters
it, unless it has been dealt with. The two run in callback groups of their own, so
a cloud can arrive between the snapshot a tick takes under the mutex, the filtering,
and the update of the sequence number at the end. Ticks do not overlap. -/

namespace X2Navigation.LidarCloudThrottle

open Traced PointCloudVoxelFilter

structure Params (K : Type*) where
  targetFrame : String
  timestampOffset : Int64
  filterConfig : Config K

/-- What processing a cloud comes to. -/
inductive Outcome
  | overflow
  | noFrame
  | noTransform
  | malformed
  | published (cloud : PointCloud2)
  deriving DecidableEq

/-- How far the timer callback is. `down` is after an exception has left it. -/
inductive Phase
  | idle
  | taken (message : PointCloud2) (sequence : UInt64)
  | processed (sequence : UInt64) (outcome : Outcome)
  | down
  deriving DecidableEq

structure State (K : Type*) where
  latestCloud : Option PointCloud2
  latestCloudSequence : UInt64
  lastPublishedSequence : UInt64
  voxelFilter : Workspace K
  phase : Phase

def State.initial {K : Type*} : State K := ⟨none, 0, 0, .new, .idle⟩

inductive Occurrence
  | arrived (cloud : PointCloud2)
  | took (cloud : PointCloud2) (sequence : UInt64)
  | published (sequence : UInt64) (cloud : PointCloud2)
  | threw (exception : StdException)
  deriving DecidableEq

variable {K : Type*}

abbrev Callback (K : Type*) := Reaction (State K) Occurrence

/-- `lookupTransform`; `none` is a `tf2::TransformException`. -/
abbrev Lookup (K : Type*) :=
  (target source : String) → TimePoint → Option (TransformStamped (Double K))

def cloudCallback (message : PointCloud2) (s : State K) : Callback K :=
  ({ s with latestCloud := some message, latestCloudSequence := s.latestCloudSequence + 1 },
    [.arrived message])

/-- The newest cloud with its number, unless it has been dealt with. -/
def pending (s : State K) : Option (PointCloud2 × UInt64) :=
  match s.latestCloud with
  | none => none
  | some message =>
    if s.latestCloudSequence = s.lastPublishedSequence then none
    else some (message, s.latestCloudSequence)

/-- The block under the mutex. -/
def takeSnapshot (s : State K) : Callback K :=
  match pending s with
  | none => (s, [])
  | some (message, sequence) => ({ s with phase := .taken message sequence }, [.took message sequence])

variable [Field K] [LinearOrder K] [FloorRing K] (P : Platform K) (p : Params K)

/-- From the snapshot to the filtered cloud. Of the additions to the stamp only the
overflow is caught. -/
def process (lookupTransform : Lookup K) (message : PointCloud2) (voxelFilter : Workspace K) :
    Except StdException (Outcome × Workspace K) :=
  match message.header.stamp.rclcpp with
  | .error exception => .error exception
  | .ok stamp =>
    match stamp.plus p.timestampOffset with
    | .error .overflowError => .ok (.overflow, voxelFilter)
    | .error exception => .error exception
    | .ok timestamp =>
      if message.header.frameId = "" then .ok (.noFrame, voxelFilter)
      else
        match lookupTransform p.targetFrame message.header.frameId timestamp with
        | none => .ok (.noTransform, voxelFilter)
        | some targetFromSource =>
          let outputHeader : Header := ⟨timestamp.toMessage, p.targetFrame⟩
          match filter P ⟨message, targetFromSource, outputHeader, p.filterConfig⟩ voxelFilter with
          | (none, voxelFilter) => .ok (.malformed, voxelFilter)
          | (some output, voxelFilter) => .ok (.published output.cloud, voxelFilter)

def processTaken (lookupTransform : Lookup K) (message : PointCloud2) (sequence : UInt64)
    (s : State K) : Callback K :=
  match process P p lookupTransform message s.voxelFilter with
  | .error exception => ({ s with phase := .down }, [.threw exception])
  | .ok (outcome, voxelFilter) =>
    ({ s with phase := .processed sequence outcome, voxelFilter := voxelFilter }, [])

/-- The end of the callback: only a cloud that is published or malformed is dealt with. -/
def finish (sequence : UInt64) (outcome : Outcome) (s : State K) : Callback K :=
  let s := { s with phase := .idle }
  match outcome with
  | .malformed => ({ s with lastPublishedSequence := sequence }, [])
  | .published cloud => ({ s with lastPublishedSequence := sequence }, [.published sequence cloud])
  | _ => (s, [])

/-- `tick` is the next part of the timer callback. -/
inductive Event (K : Type*)
  | cloudCallback (message : PointCloud2)
  | tick (lookupTransform : Lookup K)

def tick (lookupTransform : Lookup K) (s : State K) : Callback K :=
  match s.phase with
  | .idle => takeSnapshot s
  | .taken message sequence => processTaken P p lookupTransform message sequence s
  | .processed sequence outcome => finish sequence outcome s
  | .down => (s, [])

def step : Event K → State K → Callback K
  | .cloudCallback message => cloudCallback message
  | .tick lookupTransform => tick P p lookupTransform

/-- `processLatestCloud` with nothing in between: its parts one after another. -/
def processLatestCloud (lookupTransform : Lookup K) (s : State K) : Callback K :=
  match pending s with
  | none => (s, [])
  | some _ => ((takeSnapshot s).andThen (tick P p lookupTransform)).andThen (tick P p lookupTransform)

def serve (events : List (Event K)) : Callback K := run (step P p) .initial events

end X2Navigation.LidarCloudThrottle
