import X2Navigation.Command.VelocityCommand
import X2Navigation.Text.GeneralFormat
import X2Navigation.Text.Json

/-! The text of a command on its way to the robot. Seventeen significant digits are enough:
what reads the text as JSON and rounds each number gets the six components of the command
back, with the signs of zeros. -/

namespace X2Navigation

open Text

/-- A component as the stream writes it. -/
def component (x : Finite64) : String := String.ofList (general x).print

def velocityCommandJson (command : VelocityCommand Finite64) : String :=
  "\x7b\"linear\":\x7b\"x\":" ++ component command.linearX ++
  ",\"y\":" ++ component command.linearY ++
  ",\"z\":" ++ component command.linearZ ++
  "\x7d,\"angular\":\x7b\"x\":" ++ component command.angularX ++
  ",\"y\":" ++ component command.angularY ++
  ",\"z\":" ++ component command.angularZ ++ "\x7d\x7d"

/-! ### The value that is written -/

def vectorJson (x y z : Finite64) : Json :=
  .object [(['x'], .number (general x)), (['y'], .number (general y)),
    (['z'], .number (general z))]

def commandJson (command : VelocityCommand Finite64) : Json :=
  .object
    [("linear".toList, vectorJson command.linearX command.linearY command.linearZ),
      ("angular".toList, vectorJson command.angularX command.angularY command.angularZ)]

theorem vectorJson_wellFormed (x y z : Finite64) : (vectorJson x y z).WellFormed := by
  simp [vectorJson, Json.WellFormed, Json.MembersWellFormed, general_wellFormed, isPlain]

theorem commandJson_wellFormed (command : VelocityCommand Finite64) :
    (commandJson command).WellFormed := by
  simp [commandJson, Json.WellFormed, Json.MembersWellFormed, vectorJson_wellFormed, isPlain]

theorem velocityCommandJson_toList (command : VelocityCommand Finite64) :
    (velocityCommandJson command).toList = (commandJson command).print := by
  unfold velocityCommandJson component commandJson vectorJson
  simp only [String.toList_append, String.toList_ofList, Json.print, Json.printMembers]
  simp [printKey]

/-! ### Reading it -/

/-- The member of an object under a key. -/
def member (key : String) : Json → Option Json
  | .object members => members.lookup key.toList
  | .number _ => none

/-- The double next to a number, with its sign. -/
def readComponent : Json → Option (Bool × Double ℚ)
  | .number n => some (n.negative, Binary64.round n.value)
  | .object _ => none

def readVelocity (text : String) : Option (VelocityCommand (Bool × Double ℚ)) := do
  let command ← Json.parse text.toList
  let linear ← member "linear" command
  let angular ← member "angular" command
  return {
    linearX := ← member "x" linear >>= readComponent
    linearY := ← member "y" linear >>= readComponent
    linearZ := ← member "z" linear >>= readComponent
    angularX := ← member "x" angular >>= readComponent
    angularY := ← member "y" angular >>= readComponent
    angularZ := ← member "z" angular >>= readComponent }

/-- The sign of a double, and its magnitude as a double. -/
def Finite64.parts (x : Finite64) : Bool × Double ℚ := (x.negative, .finite x.magnitude)

theorem readComponent_general (x : Finite64) :
    readComponent (.number (general x)) = some x.parts := by
  rw [readComponent, general_negative, round_general]
  rfl

/-- No component is changed by writing it. -/
theorem readVelocity_velocityCommandJson (c : VelocityCommand Finite64) :
    readVelocity (velocityCommandJson c) =
      some ⟨c.linearX.parts, c.linearY.parts, c.linearZ.parts, c.angularX.parts,
        c.angularY.parts, c.angularZ.parts⟩ := by
  rw [readVelocity, velocityCommandJson_toList, Json.parse_print _ (commandJson_wellFormed c)]
  simp [commandJson, vectorJson, member, List.lookup_cons, readComponent_general]

end X2Navigation
