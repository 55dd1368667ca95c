import X2Navigation.Numeric.Double

/-! Velocity messages, and the command the velocity bridge is allowed to send. -/

namespace X2Navigation

structure Vector3 (α : Type*) where
  x : α
  y : α
  z : α
  deriving DecidableEq

structure Twist (α : Type*) where
  linear : Vector3 α
  angular : Vector3 α
  deriving DecidableEq

instance {α : Type*} [Zero α] : Zero (Vector3 α) := ⟨⟨0, 0, 0⟩⟩

instance {α : Type*} [Zero α] : Zero (Twist α) := ⟨⟨0, 0⟩⟩

variable {K : Type*}

/-- The numbers of a command as a message. -/
def Twist.finite (twist : Twist K) : Twist (Double K) :=
  ⟨⟨.finite twist.linear.x, .finite twist.linear.y, .finite twist.linear.z⟩,
    ⟨.finite twist.angular.x, .finite twist.angular.y, .finite twist.angular.z⟩⟩

def hasFiniteComponents (twist : Twist (Double K)) : Bool :=
  twist.linear.x.isFinite && twist.linear.y.isFinite && twist.linear.z.isFinite &&
    twist.angular.x.isFinite && twist.angular.y.isFinite && twist.angular.z.isFinite

@[simp] theorem hasFiniteComponents_zero [Zero K] : hasFiniteComponents (0 : Twist (Double K)) = true :=
  rfl

end X2Navigation
