import X2Navigation.Docking.Motion
import X2Navigation.Interaction.Program
import X2Navigation.Server.Profiles

/-! What an operation thread does to the rest of the server. Each operation is one
step of the thread: a block under a mutex, an access to an atomic, or a call of
the middleware. Reads that only fill log texts are not among them. -/

namespace X2Navigation.FineAlignServer

open Rigid Interaction

/-- What `stableMeasurement` hands out. -/
structure Measurement (K : Type) where
  target : Isometry3 K
  sequence : ℕ
  rawError : PlanarError K

/-- The two lengths of a thread's sleep: 100 ms, or the controller's period. -/
inductive Pause
  | poll
  | controllerPeriod
  deriving DecidableEq

/-- A command is written with the time given, or with the clock's reading in the
same block; a rotation is written and made active in one block. `clearCommand` is
the block of `stopAlignment`, which also resets the navigation gate. -/
inductive Op (K : Type)
  | ok
  | isCanceling
  | navigationActive
  | steadyNow
  | activateProfile (requested : String) (undocking : Bool) (instanceId : String)
  | activeProfile
  | stableMeasurement
  | latestStableTargetSequence
  | currentManipulationState
  | collisionStopped
  | collisionStopTimedOut
  | setAlignmentActive (active : Bool)
  | writeCommand (command : Twist K) (time : Option TimePoint)
  | writeRotation (angularSpeed : K) (time : TimePoint)
  | clearCommand
  | publishZero
  | recordDock (profileId instanceId : String)
  | publishFeedback (feedback : Feedback K)
  | sleep (pause : Pause)
  | terminate (outcome : Outcome) (result : Result K)
  | release

variable {K : Type}

/-- `activateProfile` answers with the name of the profile it resolved. -/
abbrev Op.Answer : Op K → Type
  | .ok | .isCanceling | .navigationActive | .collisionStopped | .collisionStopTimedOut => Bool
  | .steadyNow => TimePoint
  | .activateProfile _ _ _ => Option String
  | .activeProfile => DockingProfile K × String
  | .stableMeasurement => ManipulationState × Option (Measurement K)
  | .latestStableTargetSequence => ℕ
  | .currentManipulationState => ManipulationState
  | _ => Unit

abbrev interface (K : Type) : Signature := ⟨Op K, Op.Answer⟩

/-- What a thread executes. -/
abbrev Operation (K : Type) (α : Type) := Program (interface K) α

abbrev OpEvent (K : Type) := Event (interface K)

namespace Op

def Activates : Op K → Bool
  | .activateProfile _ _ _ => true
  | _ => false

def Records : Op K → Bool
  | .recordDock _ _ => true
  | _ => false

/-- The terminal call of a success. -/
def Succeeds : Op K → Bool
  | .terminate .succeed _ => true
  | _ => false

/-- Commands a motion, or lets commands through. -/
def Arms : Op K → Bool
  | .setAlignmentActive active => active
  | .writeCommand _ _ | .writeRotation _ _ => true
  | _ => false

end Op

section Primitives

/-- One operation of a thread. -/
abbrev call (o : Op K) : Operation K o.Answer := @Program.act (interface K) o

abbrev ok : Operation K Bool := call .ok
abbrev isCanceling : Operation K Bool := call .isCanceling
abbrev navigationActive : Operation K Bool := call .navigationActive
abbrev steadyNow : Operation K TimePoint := call .steadyNow
abbrev activateProfile (requested : String) (undocking : Bool) (instanceId : String) :
    Operation K (Option String) := call (.activateProfile requested undocking instanceId)
abbrev activeProfile : Operation K (DockingProfile K × String) := call .activeProfile
abbrev stableMeasurement : Operation K (ManipulationState × Option (Measurement K)) :=
  call .stableMeasurement
abbrev latestStableTargetSequence : Operation K ℕ := call .latestStableTargetSequence
abbrev currentManipulationState : Operation K ManipulationState := call .currentManipulationState
abbrev collisionStopped : Operation K Bool := call .collisionStopped
abbrev collisionStopTimedOut : Operation K Bool := call .collisionStopTimedOut
abbrev setAlignmentActive (active : Bool) : Operation K Unit := call (.setAlignmentActive active)
abbrev writeCommand (command : Twist K) (time : Option TimePoint) : Operation K Unit :=
  call (.writeCommand command time)
abbrev writeRotation (angularSpeed : K) (time : TimePoint) : Operation K Unit :=
  call (.writeRotation angularSpeed time)
abbrev clearCommand : Operation K Unit := call .clearCommand
abbrev publishZero : Operation K Unit := call .publishZero
abbrev recordDock (profileId instanceId : String) : Operation K Unit :=
  call (.recordDock profileId instanceId)
abbrev publishFeedback (feedback : Feedback K) : Operation K Unit := call (.publishFeedback feedback)
abbrev sleep (pause : Pause) : Operation K Unit := call (.sleep pause)
abbrev terminate (outcome : Outcome) (result : Result K) : Operation K Unit :=
  call (.terminate outcome result)
abbrev release : Operation K Unit := call .release

/-- `||`: the second condition is read only if the first does not hold. -/
def either (first second : Operation K Bool) : Operation K Bool := do
  if ← first then return true else second

/-- `condition ? x : otherwise`. -/
def choose {α : Type} (condition : Operation K Bool) (x : α) (otherwise : Operation K α) :
    Operation K α := do
  if ← condition then return x else otherwise

end Primitives

/-! ### Runs -/

section Runs
variable {α : Type} {tr : List (OpEvent K)} {b : α}

theorem runs_call_bind {o : Op K} {k : o.Answer → Operation K α} :
    Program.Runs (call o >>= k) tr b ↔ ∃ a tr', tr = ⟨o, a⟩ :: tr' ∧ Program.Runs (k a) tr' b :=
  Program.runs_perform

theorem runs_return {a : α} : Program.Runs (pure a : Operation K α) tr b ↔ tr = [] ∧ b = a :=
  Program.runs_pure

/-- A condition that was read. -/
theorem runs_ite {c : Bool} {p q : Operation K α} (h : Program.Runs (if c = true then p else q) tr b) :
    (c = true ∧ Program.Runs p tr b) ∨ (c = false ∧ Program.Runs q tr b) := by
  cases c with
  | true => exact .inl ⟨rfl, h⟩
  | false => exact .inr ⟨rfl, h⟩

end Runs

end X2Navigation.FineAlignServer
