import X2Navigation.Interaction.Discipline
import X2Navigation.Server.State

/-! The timer callback: it processes the pending detection and then publishes the
selected command. Its blocks are separate operations, so that anything may happen
between two of them. A transform can be found or not, and the conversion of one
can throw. -/

namespace X2Navigation.FineAlignServer

open Rigid Interaction

/-- What `processPendingDetection` copies first. -/
structure Snapshot (K : Type) where
  profile : DockingProfile K
  generation : ℕ
  activationStamp : TimePoint

/-- `failed` is an exception that is not a `tf2::TransformException`. -/
inductive Lookup (K : Type)
  | found (transform : Isometry3 K)
  | unavailable
  | failed

/-- `escape` is an exception that leaves the callback: nothing answers it. -/
inductive TickOp (K : Type)
  | profileSnapshot
  | pendingDetection
  | rosNow
  | sampleIsNew (generation : ℕ) (stamp : TimePoint)
  | lookupTransform (frame : String) (stamp : TimePoint)
  | alignmentCommand
  | collisionStopped
  | commit (generation : ℕ) (stamp : TimePoint) (raw : PlanarError K) (command : Twist K)
  | reject (generation : ℕ) (stamp : TimePoint)
  | steadyNow
  | selectCommand (now : TimePoint)
  | escape

abbrev TickOp.Answer {K : Type} : TickOp K → Type
  | .profileSnapshot => Snapshot K
  | .pendingDetection => Option (AprilTagDetectionArray K)
  | .rosNow | .steadyNow => TimePoint
  | .sampleIsNew _ _ | .collisionStopped => Bool
  | .lookupTransform _ _ => Lookup K
  | .alignmentCommand => Twist K
  | .commit _ _ _ _ => Option ℕ
  | .reject _ _ => Unit
  | .selectCommand _ => Selection K
  | .escape => Empty

abbrev tickInterface (K : Type) : Signature := ⟨TickOp K, TickOp.Answer⟩

abbrev Tick (K : Type) (α : Type) := Program (tickInterface K) α

abbrev TickEvent (K : Type) := Event (tickInterface K)

variable {K : Type}

abbrev tickCall (o : TickOp K) : Tick K o.Answer := @Program.act (tickInterface K) o

variable [Field K] [LinearOrder K] (node : Node K)

def processPendingDetection : Tick K Unit := do
  let snapshot ← tickCall .profileSnapshot
  let profile := snapshot.profile
  let generation := snapshot.generation
  let pending ← tickCall .pendingDetection
  let some message := pending | return ()
  let found := message.detections.any (node.usable profile)
  let some stamp := message.header.stamp.nanoseconds? | do
    let nothing ← tickCall .escape
    nothing.elim
  if !found || decide (stamp = 0) || decide (stamp < snapshot.activationStamp) then return ()
  let now ← tickCall .rosNow
  let age : K := elapsed now stamp
  if age < 0 ∨ node.ageLimit < age then return ()
  let new ← tickCall (.sampleIsNew generation stamp)
  if !new then return ()
  match ← tickCall (.lookupTransform profile.tagFrame stamp) with
  | .unavailable => return ()
  | .failed => tickCall (.reject generation stamp)
  | .found transform =>
    match tableDockPose node.m transform profile.standoff profile.lateralOffset profile.yawOffset with
    | none => tickCall (.reject generation stamp)
    | some target =>
      let raw := planarError node.m 1 target
      let command ← tickCall .alignmentCommand
      let stopped ← tickCall .collisionStopped
      let _ ← tickCall (.commit generation stamp raw (if stopped then 0 else command))
      return ()

def publishSelectedCommand : Tick K Unit := do
  processPendingDetection node
  let now ← tickCall .steadyNow
  let _ ← tickCall (.selectCommand now)
  return ()

/-! ### What a tick knows -/

/-- What a tick has read since its snapshot; `sampled` is the sample it found new. -/
structure View (K : Type) where
  snapshot : Option (Snapshot K)
  message : Option (AprilTagDetectionArray K)
  transform : Option (String × TimePoint × Isometry3 K)
  sampled : Option (ℕ × TimePoint)

namespace View

def blank : View K := ⟨none, none, none, none⟩

/-- A raw error with a given stamp is made of a message that shows the tag of the
profile and of the transform of that tag at the stamp. -/
structure Derives (profile : DockingProfile K) (activationStamp : TimePoint)
    (message : AprilTagDetectionArray K) (transform : Isometry3 K) (stamp : TimePoint)
    (raw : PlanarError K) : Prop where
  stamped : message.header.stamp.nanoseconds? = some stamp
  nonzero : stamp ≠ 0
  activated : activationStamp ≤ stamp
  usable : ∃ d ∈ message.detections, node.usable profile d = true
  dock : ∃ target, tableDockPose node.m transform profile.standoff profile.lateralOffset
    profile.yawOffset = some target ∧ raw = planarError node.m 1 target

/-- What a tick may commit. -/
def Supports (v : View K) (generation : ℕ) (stamp : TimePoint) (raw : PlanarError K) : Prop :=
  v.sampled = some (generation, stamp) ∧
    ∃ snapshot message transform, v.snapshot = some snapshot ∧ snapshot.generation = generation ∧
      v.message = some message ∧ v.transform = some (snapshot.profile.tagFrame, stamp, transform) ∧
      Derives node snapshot.profile snapshot.activationStamp message transform stamp raw

def allows (v : View K) : TickOp K → Prop
  | .commit generation stamp raw _ => v.Supports node generation stamp raw
  | .reject generation stamp => v.sampled = some (generation, stamp) ∧ 0 < stamp
  | _ => True

omit [Field K] [LinearOrder K] in
def next (v : View K) : (o : TickOp K) → o.Answer → View K
  | .profileSnapshot, snapshot => ⟨some snapshot, none, none, none⟩
  | .pendingDetection, message => { v with message := message }
  | .sampleIsNew generation stamp, new =>
    { v with sampled := if new then some (generation, stamp) else none }
  | .lookupTransform frame stamp, .found transform => { v with transform := some (frame, stamp, transform) }
  | .commit _ _ _ _, _ | .reject _ _, _ => { v with sampled := none }
  | _, _ => v

end View

abbrev sighted : Discipline (tickInterface K) := ⟨View K, View.allows node, View.next⟩

variable {node}

theorem safe_tickCall {o : TickOp K} {v : View K} {α : Type} {k : o.Answer → Tick K α}
    {Q : α → View K → Prop} (hal : v.allows node o)
    (hk : ∀ a, (sighted node).Safe (v.next o a) (k a) Q) :
    (sighted node).Safe v (tickCall o >>= k) Q :=
  Discipline.safe_act_bind.mpr ⟨fun _ => hal, hk⟩

theorem safe_tick_done {v : View K} : (sighted node).Safe v (pure ()) fun _ _ => True :=
  Discipline.safe_pure.mpr trivial

theorem safe_tick_last {o : TickOp K} {v : View K} (hal : v.allows node o) :
    (sighted node).Safe v (tickCall o) fun _ _ => True :=
  Discipline.safe_perform.mpr ⟨fun _ => hal, fun _ => Discipline.safe_pure.mpr trivial⟩

/-- A tick commits only what its snapshot, its message and its transform support. -/
theorem safe_processPendingDetection :
    (sighted node).Safe .blank (processPendingDetection node) fun _ _ => True := by
  refine safe_tickCall trivial fun snapshot => safe_tickCall trivial fun pending => ?_
  cases pending with
  | none => exact safe_tick_done
  | some message =>
  cases hstamp : message.header.stamp.nanoseconds? with
  | none =>
    simp only [hstamp]
    exact safe_tickCall (o := .escape) trivial nofun
  | some stamp =>
  simp only [hstamp]
  split
  · exact safe_tick_done
  rename_i hchecks
  refine safe_tickCall trivial fun now => ?_
  split
  · exact safe_tick_done
  refine safe_tickCall trivial fun new => ?_
  cases new with
  | false => exact safe_tick_done
  | true =>
  simp only [Bool.or_eq_true, Bool.not_eq_true', decide_eq_true_eq, not_or, Bool.not_eq_false,
    not_lt] at hchecks
  obtain ⟨⟨hfound, hzero⟩, hactivated⟩ := hchecks
  have hpos : 0 < stamp := lt_of_le_of_ne (Time.nanoseconds?_nonneg hstamp) (Ne.symm hzero)
  refine safe_tickCall trivial fun lookup => ?_
  cases lookup with
  | unavailable => exact safe_tick_done
  | failed => exact safe_tick_last (o := .reject _ _) ⟨rfl, hpos⟩
  | found transform =>
  cases hdock : tableDockPose node.m transform snapshot.profile.standoff
      snapshot.profile.lateralOffset snapshot.profile.yawOffset with
  | none =>
    simp only [hdock]
    exact safe_tick_last (o := .reject _ _) ⟨rfl, hpos⟩
  | some target =>
  simp only [hdock]
  have hderives : View.Derives node snapshot.profile snapshot.activationStamp message transform
      stamp (planarError node.m 1 target) :=
    ⟨hstamp, hzero, hactivated, List.any_eq_true.mp hfound, target, hdock, rfl⟩
  refine safe_tickCall trivial fun command => safe_tickCall trivial fun stopped =>
    safe_tickCall (o := .commit _ _ _ _) ?_ fun _ => safe_tick_done
  exact ⟨rfl, snapshot, message, transform, rfl, rfl, rfl, rfl, hderives⟩

theorem safe_publishSelectedCommand :
    (sighted node).Safe .blank (publishSelectedCommand node) fun _ _ => True :=
  Discipline.Safe.bind safe_processPendingDetection fun _ _ _ =>
    safe_tickCall trivial fun _ => safe_tickCall trivial fun _ => safe_tick_done

end X2Navigation.FineAlignServer
