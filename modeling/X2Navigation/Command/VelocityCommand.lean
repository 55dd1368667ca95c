import X2Navigation.Command.Twist

/-! The last stage before the robot: the bounds put on a navigation command, the
watchdog that forgets it, and the localization heartbeat that gates it. -/

namespace X2Navigation

variable {K : Type*} [Field K] [LinearOrder K]

structure VelocityCommand (K : Type*) where
  linearX : K
  linearY : K
  linearZ : K
  angularX : K
  angularY : K
  angularZ : K
  deriving DecidableEq

def zeroVelocityCommand : VelocityCommand K := ⟨0, 0, 0, 0, 0, 0⟩

/-- `std::clamp`. -/
def clamp (x lo hi : K) : K := if x < lo then lo else if hi < x then hi else x

omit [Field K] in
theorem clamp_eq {x lo hi : K} (h : lo ≤ hi) : clamp x lo hi = max lo (min x hi) := by
  unfold clamp
  split_ifs with h1 h2
  · exact (max_eq_left ((min_le_left x hi).trans h1.le)).symm
  · rw [min_eq_right h2.le, max_eq_right h]
  · rw [min_eq_left (not_lt.mp h2), max_eq_right (not_lt.mp h1)]

def navigationVelocityCommand (twist : Twist (Double K)) : Option (VelocityCommand K) :=
  if !hasFiniteComponents twist then none
  else some
    { linearX := clamp twist.linear.x.value (-1 / 2) 1
      linearY := clamp twist.linear.y.value (-1) 1
      linearZ := 0
      angularX := 0
      angularY := 0
      angularZ := clamp twist.angular.z.value (-1) 1 }

theorem navigationVelocityCommand_eq_some [IsStrictOrderedRing K] {twist : Twist (Double K)}
    {c : VelocityCommand K} :
    navigationVelocityCommand twist = some c ↔ hasFiniteComponents twist = true ∧
      c = ⟨max (-1 / 2) (min twist.linear.x.value 1), max (-1) (min twist.linear.y.value 1), 0, 0, 0,
        max (-1) (min twist.angular.z.value 1)⟩ := by
  have h1 : (-1 / 2 : K) ≤ 1 := by linarith [show (0 : K) < 1 from one_pos]
  have h2 : (-1 : K) ≤ 1 := by linarith [show (0 : K) < 1 from one_pos]
  unfold navigationVelocityCommand
  rw [clamp_eq h1, clamp_eq h2, clamp_eq h2]
  cases hasFiniteComponents twist <;> simp [eq_comm]

/-! ### The watchdog -/

structure VelocityCommandWatchdog (K : Type*) where
  command : Option (VelocityCommand K)
  receivedAt : Option TimePoint

namespace VelocityCommandWatchdog

def new : VelocityCommandWatchdog K := ⟨none, none⟩

def clear (_ : VelocityCommandWatchdog K) : VelocityCommandWatchdog K := ⟨none, none⟩

def update (w : VelocityCommandWatchdog K) (twist : Twist (Double K)) (now : TimePoint) :
    VelocityCommandWatchdog K × Bool :=
  match navigationVelocityCommand twist with
  | none => (w.clear, false)
  | some command => (⟨some command, some now⟩, true)

def commandAt (w : VelocityCommandWatchdog K) (now : TimePoint) (timeout : Double K) :
    VelocityCommand K :=
  match w.command, w.receivedAt with
  | some command, some received =>
    if !timeout.isFinite || decide (timeout.value ≤ 0) || timeout.numGT (elapsed now received)
    then zeroVelocityCommand else command
  | _, _ => zeroVelocityCommand

end VelocityCommandWatchdog

/-! ### The localization gate -/

structure LocalizationGate where
  isReady : Bool
  received : Option TimePoint

namespace LocalizationGate

def new : LocalizationGate := ⟨false, none⟩

def update (_ : LocalizationGate) (ready : Bool) (now : TimePoint) : LocalizationGate :=
  ⟨ready, some now⟩

def ready (g : LocalizationGate) (now : TimePoint) (timeout : Double K) : Bool :=
  match g.received with
  | some received => g.isReady && decide (received ≤ now) && timeout.numLE (elapsed now received)
  | none => false

end LocalizationGate

end X2Navigation
