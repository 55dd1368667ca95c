import X2Navigation.Interaction.Memory
import X2Navigation.Server.Completion

/-! What an operation can rest its result on. When it has found its end it only makes
checks any more: it reads flags and the state, and brings the robot to rest. What it did
before and what these checks found is its evidence: a cause that was found, the last
measurement, or a span of time that began with a reading of the clock and ended with the
last one, and in which nothing but the expected was done. -/

namespace X2Navigation.FineAlignServer

open Rigid Interaction

variable {K : Type}

/-- Reads a flag or the state, or brings the robot to rest. -/
def Op.Closes : Op K → Bool
  | .ok | .isCanceling | .navigationActive | .collisionStopped | .collisionStopTimedOut
  | .currentManipulationState | .clearCommand | .publishZero => true
  | .setAlignmentActive active => !active
  | _ => false

/-- Changes what the robot is told to do. -/
def Op.Steers : Op K → Bool
  | .setAlignmentActive _ | .writeCommand _ _ | .writeRotation _ _ | .clearCommand
  | .publishZero => true
  | _ => false

/-- Nothing but checks since. -/
abbrev OnlyChecks (past past' : List (OpEvent K)) : Prop :=
  Finishing (S := interface K) Op.Closes past past'

/-! ### What was seen -/

section Sightings
variable (past : List (OpEvent K))

/-- The last checks came upon this. -/
def Found (e : OpEvent K) : Prop := e ∈ checks (S := interface K) Op.Closes past

/-- The last thing that was done before them. -/
def LastDid (e : OpEvent K) : Prop := (work (S := interface K) Op.Closes past).getLast? = some e

/-- The middleware was down, and up again. -/
def Flickered : Prop := [⟨.ok, false⟩, ⟨.ok, true⟩].Sublist past

/-- The last checks came upon one thing, and later upon the other. -/
def Followed (first second : OpEvent K) : Prop :=
  [first, second].Sublist (checks (S := interface K) Op.Closes past)

/-- A cause to end was found, and when it was read again it was gone. -/
def Vanished : Prop :=
  Followed past ⟨.isCanceling, true⟩ ⟨.isCanceling, false⟩ ∨
  Followed past ⟨.navigationActive, true⟩ ⟨.navigationActive, false⟩ ∨
  ∃ state state', validState state = false ∧ validState state' = true ∧
    Followed past ⟨.currentManipulationState, state⟩ ⟨.currentManipulationState, state'⟩

/-- The last measurement came with a state that is neither empty nor holding. -/
def MeasuredInvalid : Prop :=
  ∃ state x, validState state = false ∧ LastDid past ⟨.stableMeasurement, (state, some x)⟩

def FoundInvalid : Prop :=
  ∃ state, validState state = false ∧ Found past ⟨.currentManipulationState, state⟩

/-- The state was read first, and the robot has not been moved since. -/
def RefusedInvalid : Prop :=
  ∃ state, validState state = false ∧ past.head? = some ⟨.currentManipulationState, state⟩ ∧
    ∀ e ∈ past, e.1.Arms = false

/-- The last measurement had no target. -/
def LostTarget : Prop := ∃ state, LastDid past ⟨.stableMeasurement, (state, none)⟩

/-- After `opening` only the expected was done, until the clock was read for the last time. -/
def Lasted (opening : List (OpEvent K)) (expected : OpEvent K → Prop) (during : List (OpEvent K))
    (now : TimePoint) : Prop :=
  opening ++ during ++ [⟨.steadyNow, now⟩] <:+ work (S := interface K) Op.Closes past ∧
    ∀ e ∈ during, expected e

end Sightings

/-- Changes the command only as it may. -/
def Steered (may : Op K → Prop) (e : OpEvent K) : Prop := e.1.Steers = true → may e.1

def Commanding : Op K → Prop := fun o => ∃ command time, o = .writeCommand command time

/-- Leaves the command alone, and no measurement is a new one. -/
def Waits (old : Measurement K → Prop) (e : OpEvent K) : Prop :=
  e.1.Steers = false ∧ ∀ state x, e = ⟨.stableMeasurement, (state, some x)⟩ → old x

/-- The two ways to begin a motion: the clock is read after the alignment is made active,
or before. -/
def opening (start : TimePoint) : List (OpEvent K) :=
  [⟨.setAlignmentActive true, ()⟩, ⟨.steadyNow, start⟩]

def timedOpening (start : TimePoint) : List (OpEvent K) :=
  [⟨.steadyNow, start⟩, ⟨.setAlignmentActive true, ()⟩]

/-! ### Successes -/

section Successes
variable [Field K] [LinearOrder K] (m : Libm K) (settings : Settings K) (past : List (OpEvent K))

/-- The last measurement is inside the capture envelope, and it is the one reported. -/
def InPlace (r : FineAlign.Result K) : Prop :=
  ∃ state x, LastDid past ⟨.stableMeasurement, (state, some x)⟩ ∧ validState state = true ∧
    r.manipulationState = state ∧ r.finalError = (currentError m x.target).finite ∧
    insideCaptureEnvelope m settings (currentError m x.target) = true

/-- What is executed ends settled, with the dock recorded that is reported. -/
def Aligned (request : FineAlign.Goal) (r : FineAlign.Result K) : Prop :=
  (request.execute = true → EndsSettled m settings (dockGauge m settings) past
    (stopCalls ++ [⟨.recordDock r.profileId r.instanceId, ()⟩])) ∧
  (request.execute = false → InPlace m settings past r)

/-- The command of a timed reverse. -/
def reverseCommand (profile : DockingProfile K) : Twist K :=
  ⟨⟨-profile.timedReverseSpeed, 0, 0⟩, 0⟩

/-- Reversal as the profile says. -/
def Reversal (profile : DockingProfile K) : Op K → Prop :=
  fun o => ∃ time, o = .writeCommand (reverseCommand profile) (some time)

/-- For as long as the active profile asks for, the robot was told to reverse and nothing
else. -/
def Reversed : Prop :=
  ∃ profile instanceId start during now,
    ⟨.activeProfile, (profile, instanceId)⟩ ∈ past ∧ profile.undockMode = .timedReverse ∧
    Lasted past (timedOpening start) (Steered (Reversal profile)) during now ∧
    (0 < profile.timedReverseDuration →
      (∃ time, ⟨.writeCommand (reverseCommand profile) (some time), ()⟩ ∈ during) ∧
        profile.timedReverseDuration ≤ elapsed now start)

/-- The robot has settled at the undock target of a pose that was measured before it was
moved. -/
def Retreated : Prop :=
  ∃ before profile instanceId state x since,
    past = before ++ ⟨.stableMeasurement, (state, some x)⟩ :: since ∧
    ⟨.activeProfile, (profile, instanceId)⟩ ∈ before ∧ profile.undockMode = .tagRelative ∧
    (∀ e ∈ before, e.1.Arms = false) ∧
    EndsSettled m settings (undockGauge m settings x.target) since stopCalls

def Undocked : Prop := Reversed past ∨ Retreated m settings past

/-- Turning as the goal says. -/
def Turning (request : RotateInPlace.Goal K) : Op K → Prop :=
  fun o => ∃ time, o = .writeRotation request.angularSpeed.value time

/-- Since its first rotation command the robot was told to rotate and nothing else, for as
long as the goal asks for. -/
def Rotated (request : RotateInPlace.Goal K) : Prop :=
  ∃ start during now,
    Lasted past [⟨.steadyNow, start⟩] (Steered (Turning request)) during now ∧
    ⟨.writeRotation request.angularSpeed.value start, ()⟩ ∈ during ∧
    request.duration.value ≤ elapsed now start

end Successes

/-! ### Evidence stays -/

section Growth
variable {past past' : List (OpEvent K)} {e : OpEvent K}

theorem OnlyChecks.stop (past : List (OpEvent K)) : OnlyChecks past (past ++ stopCalls) :=
  ⟨stopCalls, rfl, by simp [stopCalls, Op.Closes]⟩

theorem OnlyChecks.last (past : List (OpEvent K)) (he : e.1.Closes = true) : OnlyChecks past (past ++ [e]) :=
  (Finishing.refl past).snoc he

theorem Op.not_arms_of_closes {o : Op K} (h : o.Closes = true) : o.Arms = false := by
  cases o with
  | setAlignmentActive active => simpa [Op.Closes, Op.Arms] using h
  | _ => first | rfl | cases h

theorem Op.not_arms_of_not_steers {o : Op K} (h : o.Steers = false) : o.Arms = false := by
  cases o with
  | setAlignmentActive active => cases h
  | _ => first | rfl | cases h

theorem Found.mem (h : Found past e) : e ∈ past := mem_of_mem_checks h

theorem found_last (he : e.1.Closes = true) : Found (past ++ [e]) e := by
  rw [Found, checks_snoc he]
  exact List.mem_append_right _ (List.mem_singleton_self e)

theorem lastDid_last (he : e.1.Closes = false) : LastDid (past ++ [e]) e := by
  rw [LastDid, work_snoc he]
  exact List.getLast?_concat

theorem Found.mono (h : Found past e) (hp : OnlyChecks past past') : Found past' e :=
  hp.parts.2.subset h

theorem LastDid.mono (h : LastDid past e) (hp : OnlyChecks past past') : LastDid past' e := by
  rw [LastDid, hp.parts.1]
  exact h

theorem Followed.mono {first second : OpEvent K} (h : Followed past first second)
    (hp : OnlyChecks past past') : Followed past' first second := h.trans hp.parts.2.sublist

/-- What was found is read again. -/
theorem Found.followed (h : Found past e) (e' : OpEvent K) (he : e'.1.Closes = true) :
    Followed (past ++ [e']) e e' := by
  rw [Followed, checks_snoc he]
  exact (List.singleton_sublist.mpr h).append (List.Sublist.refl [e'])

theorem Flickered.append (h : Flickered past) (later : List (OpEvent K)) : Flickered (past ++ later) :=
  h.trans (List.sublist_append_left _ _)

theorem flickered_last (h : ⟨.ok, false⟩ ∈ past) : Flickered (past ++ [⟨.ok, true⟩]) :=
  (List.singleton_sublist.mpr h).append (List.Sublist.refl _)

theorem Vanished.mono (h : Vanished past) (hp : OnlyChecks past past') : Vanished past' := by
  rcases h with h | h | ⟨state, state', hi, hv, h⟩
  · exact .inl (h.mono hp)
  · exact .inr (.inl (h.mono hp))
  · exact .inr (.inr ⟨state, state', hi, hv, h.mono hp⟩)

theorem MeasuredInvalid.mono (h : MeasuredInvalid past) (hp : OnlyChecks past past') :
    MeasuredInvalid past' := by
  obtain ⟨state, x, hstate, h⟩ := h
  exact ⟨state, x, hstate, h.mono hp⟩

theorem FoundInvalid.mono (h : FoundInvalid past) (hp : OnlyChecks past past') : FoundInvalid past' := by
  obtain ⟨state, hstate, h⟩ := h
  exact ⟨state, hstate, h.mono hp⟩

theorem RefusedInvalid.mono (h : RefusedInvalid past) (hp : OnlyChecks past past') :
    RefusedInvalid past' := by
  obtain ⟨state, hstate, hhead, harms⟩ := h
  obtain ⟨rest, rfl, hrest⟩ := hp
  refine ⟨state, hstate, by simp [hhead], fun e he => ?_⟩
  exact (List.mem_append.mp he).elim (harms e) fun he => Op.not_arms_of_closes (hrest e he)

theorem LostTarget.mono (h : LostTarget past) (hp : OnlyChecks past past') : LostTarget past' := by
  obtain ⟨state, h⟩ := h
  exact ⟨state, h.mono hp⟩

variable {opened during : List (OpEvent K)} {expected : OpEvent K → Prop} {now : TimePoint}

theorem Lasted.mono (h : Lasted past opened expected during now) (hp : OnlyChecks past past') :
    Lasted past' opened expected during now := by
  rw [Lasted, hp.parts.1]
  exact h

theorem Lasted.imp {may may' : Op K → Prop} (h : Lasted past opened (Steered may) during now)
    (hmay : ∀ o, may o → may' o) : Lasted past opened (Steered may') during now :=
  ⟨h.1, fun e he hsteers => hmay e.1 (h.2 e he hsteers)⟩

/-- The clock is read. -/
theorem lasted_last (before : List (OpEvent K))
    (hpast : past = before ++ opened ++ during ++ [⟨.steadyNow, now⟩])
    (h : ∀ e ∈ during, expected e) : Lasted past opened expected during now := by
  refine ⟨?_, h⟩
  rw [hpast, work_snoc (by rfl)]
  exact ⟨before, by simp⟩

variable [Field K] [LinearOrder K] {m : Libm K} {settings : Settings K}

theorem EndsSettled.ending {gauge : Gauge K} (h : EndsSettled m settings gauge past [])
    (ending : List (OpEvent K)) : EndsSettled m settings gauge (past ++ ending) ending := by
  obtain ⟨before, first, middle, last, rfl, hsettles⟩ := h
  exact ⟨before, first, middle, last, by simp, hsettles⟩

theorem InPlace.mono {r : FineAlign.Result K} (h : InPlace m settings past r)
    (hp : OnlyChecks past past') : InPlace m settings past' r := by
  obtain ⟨state, x, h, hrest⟩ := h
  exact ⟨state, x, h.mono hp, hrest⟩

theorem Reversed.mono (h : Reversed past) (hp : OnlyChecks past past') : Reversed past' := by
  obtain ⟨profile, instanceId, start, during, now, hprofile, hmode, hlasted, hlong⟩ := h
  exact ⟨profile, instanceId, start, during, now, hp.subset hprofile, hmode, hlasted.mono hp, hlong⟩

theorem Rotated.mono {request : RotateInPlace.Goal K} (h : Rotated past request)
    (hp : OnlyChecks past past') : Rotated past' request := by
  obtain ⟨start, during, now, hlasted, hrest⟩ := h
  exact ⟨start, during, now, hlasted.mono hp, hrest⟩

end Growth

end X2Navigation.FineAlignServer
