import X2Navigation.Cloud.Messages
import X2Navigation.Traced.Machine

/-! The obstacle layer of the costmaps. Clouds wait in one queue for each source
until the TF buffer can place them, and are given up when they are too old. Every
call runs under the layer's lock, except that the TF buffer and the clock move on
while the clouds are looked at. -/

namespace X2Navigation.PointCloudObstacleLayer

open Traced

/-- What the layer reads of its configuration. `onInitialize` refuses a timeout
that is not finite or negative. -/
structure Params (K : Type*) [Field K] [LinearOrder K] where
  globalFrame : String
  waitTimeout : K
  waitTimeout_nonneg : 0 ≤ waitTimeout

structure PendingCloud where
  cloud : PointCloud2
  received : TimePoint
  deriving DecidableEq

structure Source where
  sensorFrame : String
  pending : List PendingCloud

structure State where
  sources : List Source
  active : Bool

/-- The layer after `onInitialize`: one empty queue for each sensor frame. -/
def State.initial (sensorFrames : List String) : State := ⟨sensorFrames.map (⟨·, []⟩), false⟩

/-- `arrived` is a cloud put in a queue, `buffered` one handed to the observation
buffer of its source after the clock has shown `now`. -/
inductive Occurrence
  | arrived (source : ℕ) (pending : PendingCloud)
  | buffered (source : ℕ) (pending : PendingCloud) (now : TimePoint)
  | threw (exception : StdException)
  deriving DecidableEq

abbrev Callback := Reaction State Occurrence

/-- What the clock and the TF buffer answer while one cloud is looked at. The
buffer is asked for the frame of the cloud, then for the frame of the sensor. -/
structure Look where
  now : TimePoint
  canTransformCloud : (target source : String) → TimePoint → Bool
  canTransformOrigin : (target source : String) → TimePoint → Bool

def activate (s : State) : Callback := ({ s with active := true }, [])

def clearPending (sources : List Source) : List Source := sources.map ({ · with pending := [] })

def deactivate (s : State) : Callback := (⟨clearPending s.sources, false⟩, [])

def reset (s : State) : Callback := ({ s with sources := clearPending s.sources }, [])

def maxPendingClouds : ℕ := 50

/-- The lookup of the source throws before anything has changed. -/
def enqueue (source : ℕ) (cloud : PointCloud2) (now : TimePoint) (s : State) : Callback :=
  if cloud.header.frameId = "" ∨ cloud.header.stamp.sec = 0 ∧ cloud.header.stamp.nanosec = 0 then
    (s, [])
  else if !s.active then (s, [])
  else
    match s.sources[source]? with
    | none => (s, [.threw .outOfRange])
    | some state =>
      let queue :=
        if maxPendingClouds ≤ state.pending.length then state.pending.tail else state.pending
      let queue := queue ++ [⟨cloud, now⟩]
      ({ s with sources := s.sources.set source { state with pending := queue } },
        [.arrived source ⟨cloud, now⟩])

variable {K : Type*} [Field K] [LinearOrder K] (p : Params K)

/-- Has the cloud waited too long? Without a timeout the clock is not read. -/
def expired (look : Look) (pending : PendingCloud) : Bool :=
  decide (0 < p.waitTimeout) && decide (p.waitTimeout ≤ elapsed look.now pending.received)

def ready (look : Look) (sensorFrame : String) (cloud : PointCloud2) (stamp : TimePoint) : Bool :=
  let origin := if sensorFrame = "" then cloud.header.frameId else sensorFrame
  look.canTransformCloud p.globalFrame cloud.header.frameId stamp &&
    look.canTransformOrigin p.globalFrame origin stamp

/-- The clouds left, what happened, and how many looks the pass has taken so far,
unless an exception has ended it. -/
structure Scan where
  pending : List PendingCloud
  trace : List Occurrence
  looks : Option ℕ

variable (look : ℕ → Look)

/-- The loop over one queue, of which the clouds in `waiting` have been passed. A
cloud that is used takes them with it. -/
def scan (source : ℕ) (sensorFrame : String) (k : ℕ) (waiting : List PendingCloud) :
    List PendingCloud → Scan
  | [] => ⟨waiting, [], some k⟩
  | pending :: rest =>
    if expired p (look k) pending then scan source sensorFrame (k + 1) waiting rest
    else
      match pending.cloud.header.stamp.rclcpp with
      | .error exception => ⟨waiting ++ pending :: rest, [.threw exception], none⟩
      | .ok stamp =>
        if ready p (look k) sensorFrame pending.cloud stamp then
          let r := scan source sensorFrame (k + 1) [] rest
          { r with trace := .buffered source pending (look k).now :: r.trace }
        else if p.waitTimeout ≤ 0 then scan source sensorFrame (k + 1) waiting rest
        else scan source sensorFrame (k + 1) (waiting ++ [pending]) rest

/-- The loop over the sources, from number `i` on. -/
def scanSources (k i : ℕ) : List Source → List Source × List Occurrence
  | [] => ([], [])
  | source :: rest =>
    let r := scan p look i source.sensorFrame k [] source.pending
    match r.looks with
    | none => ({ source with pending := r.pending } :: rest, r.trace)
    | some k =>
      let later := scanSources k (i + 1) rest
      ({ source with pending := r.pending } :: later.1, r.trace ++ later.2)

def processPending (s : State) : Callback :=
  if !s.active then (s, [])
  else
    let r := scanSources p look 0 0 s.sources
    ({ s with sources := r.1 }, r.2)

/-! ### Runs -/

inductive Call
  | activate
  | deactivate
  | reset
  | enqueue (source : ℕ) (cloud : PointCloud2) (now : TimePoint)
  | processPending (look : ℕ → Look)

def step : Call → State → Callback
  | .activate => activate
  | .deactivate => deactivate
  | .reset => reset
  | .enqueue source cloud now => enqueue source cloud now
  | .processPending look => processPending p look

def run (sensorFrames : List String) (calls : List Call) : Callback :=
  Traced.run (step p) (.initial sensorFrames) calls

end X2Navigation.PointCloudObstacleLayer
