import X2Navigation.Command.Twist
import X2Navigation.Guarded.History

/-! The cache between the navigation stack and the command multiplexer. A
smoothed command is usable only while the original controller stream keeps
arriving. The gate is a guarded cache whose reads also clear it. -/

namespace X2Navigation

variable {K : Type*} [Field K] [LinearOrder K]

structure NavigationCommandGate (K : Type*) where
  monitorRaw : Bool
  command : Twist (Double K)
  receivedAt : Option TimePoint
  rawReceivedAt : Option TimePoint

namespace NavigationCommandGate

def new (monitorRaw : Bool) : NavigationCommandGate K := ⟨monitorRaw, 0, none, none⟩

def fresh (received : Option TimePoint) (now : TimePoint) (timeout : Double K) : Bool :=
  match timeout, received with
  | .finite T, some r => decide (0 < T ∧ r ≤ now ∧ elapsed now r ≤ T)
  | _, _ => false

def clear (g : NavigationCommandGate K) : NavigationCommandGate K := new g.monitorRaw

def reset (g : NavigationCommandGate K) : NavigationCommandGate K := g.clear

def updateRaw (g : NavigationCommandGate K) (command : Twist (Double K)) (now : TimePoint)
    (timeout : Double K) : NavigationCommandGate K :=
  if !hasFiniteComponents command || command = 0 then g.clear
  else
    let g := if fresh g.rawReceivedAt now timeout then g else g.clear
    { g with rawReceivedAt := some now }

def update (g : NavigationCommandGate K) (command : Twist (Double K)) (now : TimePoint)
    (timeout : Double K) : NavigationCommandGate K :=
  if !hasFiniteComponents command || (g.monitorRaw && !fresh g.rawReceivedAt now timeout) then g.clear
  else { g with command := command, receivedAt := some now }

/-- Reading the gate clears what it finds to be too old. -/
def commandAt (g : NavigationCommandGate K) (now : TimePoint) (timeout : Double K) :
    NavigationCommandGate K × Twist (Double K) :=
  if g.monitorRaw && !fresh g.rawReceivedAt now timeout then (g.clear, 0)
  else if !fresh g.receivedAt now timeout then ({ g with command := 0, receivedAt := none }, 0)
  else (g, g.command)

/-! ### Runs of the gate -/

/-- The four entry points, with the clock reading of the call. -/
inductive Call (K : Type*)
  | reset
  | updateRaw (command : Twist (Double K)) (now : TimePoint)
  | update (command : Twist (Double K)) (now : TimePoint)
  | commandAt (now : TimePoint)

namespace Call

def time? : Call K → Option TimePoint
  | .reset => none
  | .updateRaw _ now => some now
  | .update _ now => some now
  | .commandAt now => some now

def isPoll : Call K → Bool
  | .commandAt _ => true
  | _ => false

end Call

def apply (timeout : Double K) (g : NavigationCommandGate K) : Call K → NavigationCommandGate K
  | .reset => g.reset
  | .updateRaw command now => g.updateRaw command now timeout
  | .update command now => g.update command now timeout
  | .commandAt now => (g.commandAt now timeout).1

def run (timeout : Double K) (g : NavigationCommandGate K) (calls : List (Call K)) :
    NavigationCommandGate K := calls.foldl (apply timeout) g

/-- The clock readings of the calls do not decrease, up to a final reading `t`. -/
def Nondecreasing (calls : List (Call K)) (t : TimePoint) : Prop :=
  (calls.filterMap Call.time? ++ [t]).Pairwise (· ≤ ·)

end NavigationCommandGate

end X2Navigation
