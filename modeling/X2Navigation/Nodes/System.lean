import X2Navigation.Command.VelocityBridge
import X2Navigation.Odin.Adapter
import X2Navigation.Server.System
import X2Navigation.Startup.LocalizationGate
import X2Navigation.Traced.Bus

/-! The nodes of the Odin backend as `navigation.launch.py` starts them: the
localization adapter, the startup gate, the fine-align server and the velocity
bridge. The adapter's heartbeat has two subscriptions, and each gets a message of its
own. With direct alignment the server publishes what the bridge subscribes to; without
it the collision monitor stands between them, and the bridge's commands come from
outside. -/

namespace X2Navigation

open Traced

namespace Nav2ZmqVelocityBridge

variable {K : Type*} [Field K] [LinearOrder K]

/-- What a tick submits is its trace. -/
def react (e : Event K) (b : Nav2ZmqVelocityBridge K) :
    Reaction (Nav2ZmqVelocityBridge K) (VelocityCommand K) :=
  (b.apply e, match e with
    | .tick readyAt now => [(b.publishCommand readyAt now).2]
    | _ => [])

theorem run_react (b : Nav2ZmqVelocityBridge K) (events : List (Event K)) :
    (Traced.run react b events).1 = b.run events := by
  induction events using List.reverseRecOn with
  | nil => rfl
  | append_singleton events e ih =>
    rw [run_snoc, Reaction.andThen_fst, ih]
    simp [run, react]

end Nav2ZmqVelocityBridge

namespace Nodes

variable {K : Type} [Field K] [LinearOrder K]

structure Setup (K : Type) [Field K] [LinearOrder K] where
  adapter : OdinLocalizationAdapter.Params K
  eigen : Rigid.Eigen3d K
  gate : Startup.Params K
  server : FineAlignServer.Node K
  timeouts : BridgeTimeouts K

/-- `direct_alignment`, which the launch file passes on to the server. -/
def Setup.directAlignment (setup : Setup K) : Bool := setup.server.bypassCollisionMonitor

structure System (K : Type) [Field K] [LinearOrder K] where
  adapter : OdinLocalizationAdapter.State K
  gate : Startup.Gate K
  server : FineAlignServer.Server K
  bridge : Nav2ZmqVelocityBridge K

/-- The gate tells time by a float of its own; `instant` is the steady clock then. -/
inductive Event (K : Type)
  | adapter (event : OdinLocalizationAdapter.Event K)
  | gate (instant : TimePoint) (event : Startup.Event K)
  | server (stimulus : FineAlignServer.Stimulus K)
  | bridge (event : Nav2ZmqVelocityBridge.Event K)

inductive Occurrence (K : Type)
  | adapter (occurrence : OdinLocalizationAdapter.Occurrence K)
  | gate (occurrence : Startup.Occurrence K)
  | server (entry : FineAlignServer.Entry K)
  | submitted (command : VelocityCommand K)

namespace Event

def adapter? : Event K → Option (OdinLocalizationAdapter.Event K)
  | .adapter event => some event
  | _ => none

def gate? : Event K → Option (Startup.Event K)
  | .gate _ event => some event
  | _ => none

def server? : Event K → Option (FineAlignServer.Stimulus K)
  | .server stimulus => some stimulus
  | _ => none

def bridge? : Event K → Option (Nav2ZmqVelocityBridge.Event K)
  | .bridge event => some event
  | _ => none

/-- The last reading of the steady clock in the callback. -/
def steady : Event K → TimePoint
  | .adapter event => event.clocks.steady
  | .gate instant _ => instant
  | .server stimulus => stimulus.now.steady
  | .bridge (.readiness _ stamp) => stamp
  | .bridge (.command _ _ now) => now
  | .bridge (.tick _ now) => now

end Event

namespace Occurrence

def adapter? : Occurrence K → Option (OdinLocalizationAdapter.Occurrence K)
  | .adapter occurrence => some occurrence
  | _ => none

def gate? : Occurrence K → Option (Startup.Occurrence K)
  | .gate occurrence => some occurrence
  | _ => none

def server? : Occurrence K → Option (FineAlignServer.Entry K)
  | .server entry => some entry
  | _ => none

def submitted? : Occurrence K → Option (VelocityCommand K)
  | .submitted command => some command
  | _ => none

end Occurrence

variable (setup : Setup K)

/-- The launch file has the bridge require the localization. -/
def System.initial : System K where
  adapter := .initial
  gate := .init setup.gate
  server := .initial setup.server
  bridge := .new true setup.timeouts

def step (e : Event K) (s : System K) : Reaction (System K) (Occurrence K) :=
  match e with
  | .adapter event =>
    let r := OdinLocalizationAdapter.step setup.adapter setup.eigen event s.adapter
    ({ s with adapter := r.1 }, r.2.map .adapter)
  | .gate _ event =>
    let r := Startup.step setup.gate event s.gate
    ({ s with gate := r.1 }, r.2.map .gate)
  | .server stimulus =>
    let r := FineAlignServer.step setup.server stimulus s.server
    ({ s with server := r.1 }, r.2.map .server)
  | .bridge event =>
    let r := Nav2ZmqVelocityBridge.react event s.bridge
    ({ s with bridge := r.1 }, r.2.map .submitted)

/-! ### Topics -/

/-- A message to one subscription. -/
inductive Message (K : Type)
  | gateReady (data : Bool)
  | bridgeReady (data : Bool)
  | velocity (command : Twist (Double K))
  deriving DecidableEq

end Nodes

/-- What the server publishes: the selection of a tick, or zero for a stop. -/
def FineAlignServer.Occurrence.published? {K : Type} [Zero K] :
    FineAlignServer.Occurrence K → Option (Twist (Double K))
  | .ticked ⟨.selectCommand _, selection⟩ => some selection.command
  | .operated _ ⟨.publishZero, _⟩ => some 0
  | _ => none

namespace Nodes

variable {K : Type} [Field K] [LinearOrder K] (setup : Setup K)

def wiring : Wiring (Event K) (Occurrence K) (Message K) where
  posts
    | .adapter (.status _ ready) => [.gateReady ready, .bridgeReady ready]
    | .server entry =>
      if setup.directAlignment then entry.occurrence.published?.toList.map .velocity else []
    | _ => []
  takes
    | .gate _ (.onReady data _) => some (.gateReady data)
    | .bridge (.readiness data _) => some (.bridgeReady data)
    | .bridge (.command message _ _) => if setup.directAlignment then some (.velocity message) else none
    | _ => none

/-- A message is taken after it was posted, and at most `D` later. -/
def Prompt (D : K) (sender taker : Event K) : Prop :=
  sender.steady ≤ taker.steady ∧ Within D sender.steady taker.steady

instance (D : K) (sender taker : Event K) : Decidable (Prompt D sender taker) :=
  inferInstanceAs (Decidable (_ ∧ _))

def run (events : List (Event K)) : Reaction (System K) (Occurrence K) :=
  Traced.run (step setup) (.initial setup) events

/-- A run in which no message travels longer than `D`. -/
def Runs (D : K) (events : List (Event K)) : Prop :=
  ∃ flight, Travels (step setup) (.initial setup) (wiring setup) (Prompt D) events flight

/-! ### The nodes as parts -/

section Parts

theorem adapter_part : Part (step setup)
    (OdinLocalizationAdapter.step setup.adapter setup.eigen) System.adapter Event.adapter?
    Occurrence.adapter? where
  called e s e' he := by
    cases e with
    | adapter event =>
      obtain rfl := Option.some.inj he
      simp [step, Function.comp_def, Occurrence.adapter?]
    | _ => cases he
  idle e s he := by
    cases e with
    | adapter event => cases he
    | _ => simp [step, Function.comp_def, Occurrence.adapter?]

theorem gate_part : Part (step setup) (Startup.step setup.gate) System.gate Event.gate?
    Occurrence.gate? where
  called e s e' he := by
    cases e with
    | gate instant event =>
      obtain rfl := Option.some.inj he
      simp [step, Function.comp_def, Occurrence.gate?]
    | _ => cases he
  idle e s he := by
    cases e with
    | gate instant event => cases he
    | _ => simp [step, Function.comp_def, Occurrence.gate?]

theorem server_part : Part (step setup) (FineAlignServer.step setup.server) System.server
    Event.server? Occurrence.server? where
  called e s e' he := by
    cases e with
    | server stimulus =>
      obtain rfl := Option.some.inj he
      simp [step, Function.comp_def, Occurrence.server?]
    | _ => cases he
  idle e s he := by
    cases e with
    | server stimulus => cases he
    | _ => simp [step, Function.comp_def, Occurrence.server?]

theorem bridge_part : Part (step setup) Nav2ZmqVelocityBridge.react System.bridge Event.bridge?
    Occurrence.submitted? where
  called e s e' he := by
    cases e with
    | bridge event =>
      obtain rfl := Option.some.inj he
      simp [step, Function.comp_def, Occurrence.submitted?]
    | _ => cases he
  idle e s he := by
    cases e with
    | bridge event => cases he
    | _ => simp [step, Function.comp_def, Occurrence.submitted?]

variable (events : List (Event K))

theorem run_adapter :
    OdinLocalizationAdapter.run setup.adapter setup.eigen (events.filterMap Event.adapter?) =
      ((run setup events).1.adapter, (run setup events).2.filterMap Occurrence.adapter?) :=
  (adapter_part setup).follows (.initial setup) events

theorem run_gate :
    Traced.run (Startup.step setup.gate) (.init setup.gate) (events.filterMap Event.gate?) =
      ((run setup events).1.gate, (run setup events).2.filterMap Occurrence.gate?) :=
  (gate_part setup).follows (.initial setup) events

theorem run_server : FineAlignServer.serve setup.server (events.filterMap Event.server?) =
    ((run setup events).1.server, (run setup events).2.filterMap Occurrence.server?) :=
  (server_part setup).follows (.initial setup) events

theorem run_bridge : (Nav2ZmqVelocityBridge.new true setup.timeouts).run
    (events.filterMap Event.bridge?) = (run setup events).1.bridge := by
  rw [← Nav2ZmqVelocityBridge.run_react]
  exact congrArg Prod.fst ((bridge_part setup).follows (.initial setup) events)

end Parts

end Nodes

end X2Navigation
