import X2Navigation.Interaction.World
import X2Navigation.Server.Tick
import X2Navigation.Traced.Machine

/-! The server as a whole. An input lets one thing happen: a message arrives, a
goal or a cancellation is handled, an operation thread or the timer callback
performs its next operation. Threads and callbacks interleave freely; the timer
callback does not overlap itself. An exception that nothing catches ends the
process. What happens is recorded in a trace. -/

namespace X2Navigation.FineAlignServer

open Interaction Program Traced

/-- What the two clocks read. -/
structure Instant where
  steady : TimePoint
  ros : TimePoint

/-- `GoalStatus.status` of a navigation goal. -/
inductive GoalStatus
  | unknown
  | accepted
  | executing
  | canceling
  | succeeded
  | canceled
  | aborted
  deriving DecidableEq

/-- The topics of the server with what arrives on them. `navStatus` is one of the
two status topics of navigation. -/
inductive Message (K : Type)
  | navCommand (command : Twist (Double K))
  | navRawCommand (command : Twist (Double K))
  | navStatus (topic : Fin 2) (statuses : List GoalStatus)
  | detections (topic : String) (message : AprilTagDetectionArray K)
  | boxStates (boxes : List BoxState)
  | manipulationState (state : ManipulationState)
  | collisionState (stop : Bool)

/-- A tick is given the answer of a transform lookup, should it come to one. -/
inductive Input (K : Type)
  | message (message : Message K)
  | goal (goal : Goal K)
  | cancel (id : ℕ)
  | operation (id : ℕ)
  | tick (lookup : Lookup K)
  | shutdown

structure Stimulus (K : Type) where
  now : Instant
  input : Input K

/-- Operations are named by the order in which their goals were accepted. -/
inductive Occurrence (K : Type)
  | received (message : Message K)
  | rejected (goal : Goal K)
  | accepted (id : ℕ) (goal : Goal K)
  | canceled (id : ℕ)
  | operated (id : ℕ) (event : OpEvent K)
  | ticked (event : TickEvent K)

structure Entry (K : Type) where
  now : Instant
  occurrence : Occurrence K

/-- The states of a goal handle, from the start of its execution. -/
inductive HandleState
  | executing
  | canceling
  | ended (outcome : Outcome)
  deriving DecidableEq

/-- A terminal call throws on a handle that has ended, and `canceled` on one that is
not canceling. -/
def HandleState.terminate (outcome : Outcome) : HandleState → Option HandleState
  | .executing => if outcome = .canceled then none else some (.ended outcome)
  | .canceling => some (.ended outcome)
  | .ended _ => none

structure Thread (K : Type) where
  goal : Goal K
  handle : HandleState
  program : Operation K Unit

/-- An idle timer has a tick that is over. -/
structure Server (K : Type) where
  shared : Shared K
  threads : List (Thread K)
  tick : Tick K Unit
  terminated : Bool

variable {K : Type} [Field K] [LinearOrder K] (node : Node K)

/-! ### Messages -/

namespace GoalStatus

def isActive : GoalStatus → Bool
  | .accepted | .executing | .canceling => true
  | _ => false

end GoalStatus

def Node.subscribes : Message K → Bool
  | .navRawCommand _ => node.monitorRaw
  | .collisionState _ => !node.bypassCollisionMonitor
  | _ => true

namespace Shared

def receive (now : Instant) (s : Shared K) : Message K → Shared K
  | .navCommand command => { s with mux := s.mux.update node command now.steady }
  | .navRawCommand command => { s with mux := s.mux.updateRaw node command now.steady }
  | .navStatus topic statuses =>
    let mask : UInt32 := 1 <<< UInt32.ofNat topic
    { s with navActiveMask :=
        if statuses.any GoalStatus.isActive then s.navActiveMask ||| mask
        else s.navActiveMask &&& ~~~mask }
  | .detections topic message => { s with acquisition := s.acquisition.detect topic message }
  | .boxStates boxes => { s with acquisition := s.acquisition.storeBoxes boxes }
  | .manipulationState state =>
    { s with acquisition := { s.acquisition with manipulationState := state } }
  | .collisionState stop =>
    if stop then
      { s with
        collisionStopSince := if s.collisionStopped then s.collisionStopSince else some now.steady
        collisionStopped := true }
    else { s with collisionStopped := false, collisionStopSince := none }

end Shared

/-! ### Operations and ticks -/

/-- How an operation thread is answered, given the handle of its goal. -/
def operate (now : Instant) : World (interface K) (Shared K × HandleState) := fun (s, h) o =>
  match o with
  | .ok => some (s.ok, s, h)
  | .isCanceling => some (decide (h = .canceling), s, h)
  | .navigationActive => some (s.navigationActive, s, h)
  | .steadyNow => some (now.steady, s, h)
  | .activateProfile requested undocking instanceId =>
    (s.acquisition.activateProfile node now.ros requested undocking instanceId).map
      fun (resolved, acquisition) => (resolved, { s with acquisition := acquisition }, h)
  | .activeProfile => some ((s.acquisition.activeProfile, s.acquisition.activeInstanceId), s, h)
  | .stableMeasurement =>
    some ((s.acquisition.manipulationState, s.acquisition.stableMeasurement node now.ros), s, h)
  | .latestStableTargetSequence => some (s.acquisition.stableTargetSequence, s, h)
  | .currentManipulationState => some (s.acquisition.manipulationState, s, h)
  | .collisionStopped => some (s.collisionStopped, s, h)
  | .collisionStopTimedOut => some (s.collisionStopTimedOut node now.steady, s, h)
  | .recordDock profileId instanceId =>
    some ((), { s with acquisition := s.acquisition.recordDock profileId instanceId }, h)
  | .terminate outcome _ => (h.terminate outcome).map fun h => ((), s, h)
  | .publishZero | .publishFeedback _ | .sleep _ => some ((), s, h)
  | .setAlignmentActive active =>
    some ((), { s with mux := s.mux.operate now.steady (.setAlignmentActive active) }, h)
  | .writeCommand command time =>
    some ((), { s with mux := s.mux.operate now.steady (.writeCommand command time) }, h)
  | .writeRotation angularSpeed time =>
    some ((), { s with mux := s.mux.operate now.steady (.writeRotation angularSpeed time) }, h)
  | .clearCommand => some ((), { s with mux := s.mux.operate now.steady .clearCommand }, h)
  | .release => some ((), { s with mux := s.mux.operate now.steady .release }, h)

/-- How the timer callback is answered. -/
def answerTick (now : Instant) (lookup : Lookup K) : World (tickInterface K) (Shared K) := fun s o =>
  match o with
  | .profileSnapshot =>
    some (⟨s.acquisition.activeProfile, s.acquisition.profileGeneration,
      s.acquisition.activationStamp⟩, s)
  | .pendingDetection => some (s.acquisition.pendingDetection, s)
  | .rosNow => some (now.ros, s)
  | .sampleIsNew generation stamp => some (s.acquisition.sampleIsNew generation stamp, s)
  | .lookupTransform _ _ => some (lookup, s)
  | .alignmentCommand => some (if s.mux.alignmentActive then s.mux.alignmentCommand else 0, s)
  | .collisionStopped => some (s.collisionStopped, s)
  | .commit generation stamp raw command =>
    let (published, acquisition) := s.acquisition.commit node generation stamp raw command
    some (published, { s with acquisition := acquisition })
  | .reject generation stamp =>
    some ((), { s with acquisition := s.acquisition.reject generation stamp })
  | .steadyNow => some (now.steady, s)
  | .selectCommand time =>
    let (selection, mux) := s.mux.select node s.navigationActive time
    some (selection, { s with mux := mux })
  | .escape => none

namespace Server

def initial : Server K := ⟨.initial node, [], .pure (), false⟩

/-- What the timer callback executes next. -/
def currentTick (s : Server K) : Tick K Unit :=
  if s.tick.result?.isSome then publishSelectedCommand node else s.tick

/-- A goal handler takes the flag or rejects the goal. -/
def acceptGoal (now : Instant) (goal : Goal K) (s : Server K) : Reaction (Server K) (Entry K) :=
  if s.shared.mux.operationActive then (s, [⟨now, .rejected goal⟩])
  else
    ({ s with
        shared := { s.shared with mux := { s.shared.mux with operationActive := true } }
        threads := s.threads ++ [⟨goal, .executing, body node.m node.settings goal⟩] },
      [⟨now, .accepted s.threads.length goal⟩])

/-- Every cancellation of a goal that is executing is accepted. -/
def cancelGoal (now : Instant) (id : ℕ) (s : Server K) : Reaction (Server K) (Entry K) :=
  match s.threads[id]? with
  | none => (s, [])
  | some thread =>
    if thread.handle = .executing then
      ({ s with threads := s.threads.set id { thread with handle := .canceling } },
        [⟨now, .canceled id⟩])
    else (s, [])

def runOperation (now : Instant) (id : ℕ) (s : Server K) : Reaction (Server K) (Entry K) :=
  match s.threads[id]? with
  | none => (s, [])
  | some thread =>
    match move (operate node now) (s.shared, thread.handle) thread.program with
    | none => ({ s with terminated := thread.program.result?.isNone }, [])
    | some (event, program, shared, handle) =>
      ({ s with
          shared := shared
          threads := s.threads.set id { thread with handle := handle, program := program } },
        [⟨now, .operated id event⟩])

def runTick (now : Instant) (lookup : Lookup K) (s : Server K) : Reaction (Server K) (Entry K) :=
  match move (answerTick node now lookup) s.shared (s.currentTick node) with
  | none => ({ s with terminated := true }, [])
  | some (event, program, shared) =>
    ({ s with shared := shared, tick := program }, [⟨now, .ticked event⟩])

end Server

def step (x : Stimulus K) (s : Server K) : Reaction (Server K) (Entry K) :=
  if s.terminated then (s, [])
  else match x.input with
    | .message message =>
      if node.subscribes message then
        ({ s with shared := s.shared.receive node x.now message }, [⟨x.now, .received message⟩])
      else (s, [])
    | .goal goal => s.acceptGoal node x.now goal
    | .cancel id => s.cancelGoal x.now id
    | .operation id => s.runOperation node x.now id
    | .tick lookup => s.runTick node x.now lookup
    | .shutdown => ({ s with shared := { s.shared with ok := false } }, [])

/-- The state and the trace after some inputs. -/
def serve (inputs : List (Stimulus K)) : Reaction (Server K) (Entry K) :=
  run (step node) (.initial node) inputs

/-- Inputs a millisecond apart, on both clocks. -/
def everyMillisecond (inputs : List (Input K)) : List (Stimulus K) :=
  inputs.mapIdx fun i input => ⟨⟨10 ^ 6 * i, 10 ^ 6 * i⟩, input⟩

/-! ### What a step can do -/

/-- Every way in which a state can go over to another, with the entries it adds. -/
inductive Moves (now : Instant) (s : Server K) : Server K → List (Entry K) → Prop
  | idle (ok terminated : Bool) :
      Moves now s { s with shared := { s.shared with ok := ok }, terminated := terminated } []
  | received (message : Message K) :
      Moves now s { s with shared := s.shared.receive node now message } [⟨now, .received message⟩]
  | rejected (goal : Goal K) (h : s.shared.mux.operationActive = true) :
      Moves now s s [⟨now, .rejected goal⟩]
  | accepted (goal : Goal K) (h : s.shared.mux.operationActive = false) :
      Moves now s
        { s with
          shared := { s.shared with mux := { s.shared.mux with operationActive := true } }
          threads := s.threads ++ [⟨goal, .executing, body node.m node.settings goal⟩] }
        [⟨now, .accepted s.threads.length goal⟩]
  | canceled (id : ℕ) (thread : Thread K) (h : s.threads[id]? = some thread)
      (hexecuting : thread.handle = .executing) :
      Moves now s { s with threads := s.threads.set id { thread with handle := .canceling } }
        [⟨now, .canceled id⟩]
  | operated (id : ℕ) (thread : Thread K) (event : OpEvent K) (program : Operation K Unit)
      (shared : Shared K) (handle : HandleState) (h : s.threads[id]? = some thread)
      (hn : Next thread.program event program)
      (hw : operate node now (s.shared, thread.handle) event.1 = some (event.2, shared, handle)) :
      Moves now s
        { s with
          shared := shared
          threads := s.threads.set id { thread with handle := handle, program := program } }
        [⟨now, .operated id event⟩]
  | ticked (event : TickEvent K) (program : Tick K Unit) (shared : Shared K) (lookup : Lookup K)
      (hn : Next (s.currentTick node) event program)
      (hw : answerTick node now lookup s.shared event.1 = some (event.2, shared)) :
      Moves now s { s with shared := shared, tick := program } [⟨now, .ticked event⟩]

theorem step_moves (x : Stimulus K) (s : Server K) :
    Moves node x.now s (step node x s).1 (step node x s).2 := by
  unfold step
  split
  · exact .idle s.shared.ok s.terminated
  split
  · split
    · exact .received _
    · exact .idle s.shared.ok s.terminated
  · unfold Server.acceptGoal
    split
    · exact .rejected _ ‹_›
    · exact .accepted _ (Bool.not_eq_true _ ▸ ‹_›)
  · unfold Server.cancelGoal
    split
    · exact .idle s.shared.ok s.terminated
    · split
      · exact .canceled _ _ ‹_› ‹_›
      · exact .idle s.shared.ok s.terminated
  · unfold Server.runOperation
    split
    · exact .idle s.shared.ok s.terminated
    · split
      · exact .idle s.shared.ok _
      · rename_i hmove
        obtain ⟨hn, hw⟩ := move_eq_some hmove
        exact .operated _ _ _ _ _ _ ‹_› hn hw
  · unfold Server.runTick
    split
    · exact .idle s.shared.ok true
    · rename_i hmove
      obtain ⟨hn, hw⟩ := move_eq_some hmove
      exact .ticked _ _ _ _ hn hw
  · exact .idle false s.terminated

end X2Navigation.FineAlignServer
