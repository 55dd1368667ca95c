import X2Navigation.Server.Evidence

/-! What the result of an operation says has happened. Whatever a thread is answered, a
success has its evidence, and the code of a failure names something that the thread has
come upon. Only where a cause was found and is gone when it is read again, another one may
be named in its place. -/

namespace X2Navigation.FineAlignServer

open Interaction

variable {K : Type}

/-! ### What a code stands for -/

section Reasons
variable [Field K] [LinearOrder K] (m : Libm K) (settings : Settings K) (past : List (OpEvent K))

/-- The last measurement is not inside the capture envelope, by the filtered pose, of which
the error is given, or by the raw one. -/
def MeasuredOutside (finalError : PlanarError (Double K)) : Prop :=
  ∃ state x, LastDid past ⟨.stableMeasurement, (state, some x)⟩ ∧
    finalError = (currentError m x.target).finite ∧
    (insideCaptureEnvelope m settings (currentError m x.target) = false ∨
      insideCaptureEnvelope m settings x.rawError = false)

/-- For as long as an acquisition may take there was no target newer than one known before. -/
def NeverAcquired : Prop :=
  ∃ minimum start during now, (minimum = 0 ∨ ⟨.latestStableTargetSequence, minimum⟩ ∈ past) ∧
    Lasted past [⟨.steadyNow, start⟩] (Waits (·.sequence ≤ minimum)) during now ∧
    Double.numLT (elapsed now start) settings.parameters.acquisitionTimeout = false

/-- An approach took longer than it may. -/
def ApproachOverdue : Prop :=
  ∃ start during now, Lasted past (opening start) (Steered Commanding) during now ∧
    Double.numGT (elapsed now start) settings.parameters.approachTimeout = true

/-- What a failure of a fine alignment stands for. -/
def alignmentReason (request : FineAlign.Goal) (finalError : PlanarError (Double K)) :
    FineAlign.Code → Prop
  | .success | .busy | .dockingFailed => False
  | .invalidState => MeasuredInvalid past
  | .navigationActive => Found past ⟨.navigationActive, true⟩
  | .noStableTag => LostTarget past ∨ NeverAcquired settings past ∨ Vanished past
  | .outsideCaptureEnvelope => MeasuredOutside m settings past finalError
  | .collisionStopped => Found past ⟨.collisionStopTimedOut, true⟩
  | .alignmentTimeout => Found past ⟨.isCanceling, true⟩ ∨ Found past ⟨.ok, false⟩ ∨
      ApproachOverdue settings past ∨ Vanished past
  | .safetyAbort => Found past ⟨.ok, false⟩
  | .invalidProfile => LastDid past ⟨.activateProfile request.profileId false request.instanceId, none⟩

/-- For as long as an acquisition may take there was no target at all. -/
def NeverSeen : Prop :=
  ∃ start during now, Lasted past [⟨.steadyNow, start⟩] (Waits fun _ => False) during now ∧
    Double.numGE (elapsed now start) settings.parameters.acquisitionTimeout = true

/-- An undocking of either mode took as long as it may. -/
def UndockOverdue : Prop :=
  ∃ start during now, (Lasted past (opening start) (Steered Commanding) during now ∨
      Lasted past (timedOpening start) (Steered Commanding) during now) ∧
    settings.undockTimeout ≤ elapsed now start

/-- What a failure of an undocking stands for. -/
def undockReason (request : Undock.Goal) : Undock.Code → Prop
  | .success | .busy => False
  | .invalidState => RefusedInvalid past ∨ FoundInvalid past ∨ MeasuredInvalid past ∨ Vanished past
  | .navigationActive => Found past ⟨.navigationActive, true⟩
  | .noStableTag => LostTarget past ∨ NeverSeen settings past
  | .collisionStopped => Found past ⟨.collisionStopped, true⟩ ∨
      Found past ⟨.collisionStopTimedOut, true⟩ ∨ Vanished past
  | .undockTimeout => UndockOverdue settings past
  | .safetyAbort => Found past ⟨.ok, false⟩
  | .canceled => Found past ⟨.isCanceling, true⟩
  | .invalidProfile => LastDid past ⟨.activateProfile request.profileId true "", none⟩

/-- What a failure of a rotation stands for. -/
def rotationReason (request : RotateInPlace.Goal K) : RotateInPlace.Code → Prop
  | .success => False
  | .invalidGoal => invalidRotation settings request = true
  | .invalidState => FoundInvalid past
  | .navigationActive => Found past ⟨.navigationActive, true⟩
  | .collisionStopped => Found past ⟨.collisionStopped, true⟩
  | .canceled => Found past ⟨.isCanceling, true⟩
  | .safetyAbort => Found past ⟨.ok, false⟩

/-- The outcome of an operation and the flag of its result agree; a success has its
evidence, and a failure its reason. -/
def Consistent (outcome : Outcome) (success : Bool) (evidence reason : Prop) : Prop :=
  match outcome with
  | .succeed => success = true ∧ evidence
  | .abort => success = false ∧ reason
  | .canceled => success = false ∧ reason ∧ Found past ⟨.isCanceling, true⟩

/-- The result of a goal is one of its kind, and accounts for what was seen. -/
def Justified (goal : Goal K) (outcome : Outcome) : Result K → Prop
  | .fineAlign r => ∃ request, goal = .fineAlign request ∧
      Consistent past outcome r.success
        (r.errorCode = .success ∧ Aligned m settings past request r)
        (alignmentReason m settings past request r.finalError r.errorCode)
  | .undock r => ∃ request, goal = .undock request ∧
      Consistent past outcome r.success
        (r.errorCode = .success ∧ Undocked m settings past)
        (undockReason settings past request r.errorCode)
  | .rotate r => ∃ request, goal = .rotate request ∧
      Consistent past outcome r.success
        (r.errorCode = .success ∧ Rotated past request)
        (rotationReason settings past request r.errorCode)

end Reasons

/-! ### Reasons stay -/

section Growth
variable [Field K] [LinearOrder K] {m : Libm K} {settings : Settings K} {past past' : List (OpEvent K)}

theorem NeverAcquired.mono (h : NeverAcquired settings past) (hp : OnlyChecks past past') :
    NeverAcquired settings past' := by
  obtain ⟨minimum, start, during, now, hminimum, hlasted, hlong⟩ := h
  exact ⟨minimum, start, during, now, hminimum.imp_right (hp.subset ·), hlasted.mono hp, hlong⟩

theorem ApproachOverdue.mono (h : ApproachOverdue settings past) (hp : OnlyChecks past past') :
    ApproachOverdue settings past' := by
  obtain ⟨start, during, now, hlasted, hlong⟩ := h
  exact ⟨start, during, now, hlasted.mono hp, hlong⟩

theorem alignmentReason.mono {request : FineAlign.Goal} {error : PlanarError (Double K)}
    {code : FineAlign.Code} (h : alignmentReason m settings past request error code)
    (hp : OnlyChecks past past') : alignmentReason m settings past' request error code := by
  cases code with
  | success | busy | dockingFailed => exact h
  | invalidState => exact MeasuredInvalid.mono h hp
  | navigationActive | safetyAbort | collisionStopped => exact Found.mono h hp
  | noStableTag => exact h.imp (·.mono hp) (.imp (·.mono hp) (·.mono hp))
  | outsideCaptureEnvelope =>
    obtain ⟨state, x, h, hrest⟩ := h
    exact ⟨state, x, h.mono hp, hrest⟩
  | alignmentTimeout => exact h.imp (·.mono hp) (.imp (·.mono hp) (.imp (·.mono hp) (·.mono hp)))
  | invalidProfile => exact LastDid.mono h hp

theorem NeverSeen.mono (h : NeverSeen settings past) (hp : OnlyChecks past past') :
    NeverSeen settings past' := by
  obtain ⟨start, during, now, hlasted, hlong⟩ := h
  exact ⟨start, during, now, hlasted.mono hp, hlong⟩

theorem UndockOverdue.mono (h : UndockOverdue settings past) (hp : OnlyChecks past past') :
    UndockOverdue settings past' := by
  obtain ⟨start, during, now, hlasted, hlong⟩ := h
  exact ⟨start, during, now, hlasted.imp (·.mono hp) (·.mono hp), hlong⟩

theorem undockReason.mono {request : Undock.Goal} {code : Undock.Code}
    (h : undockReason settings past request code) (hp : OnlyChecks past past') :
    undockReason settings past' request code := by
  cases code with
  | success | busy => exact h
  | invalidState => exact h.imp (·.mono hp) (.imp (·.mono hp) (.imp (·.mono hp) (·.mono hp)))
  | navigationActive | safetyAbort | canceled => exact Found.mono h hp
  | noStableTag => exact h.imp (·.mono hp) (·.mono hp)
  | collisionStopped => exact h.imp (·.mono hp) (.imp (·.mono hp) (·.mono hp))
  | undockTimeout => exact UndockOverdue.mono h hp
  | invalidProfile => exact LastDid.mono h hp

theorem rotationReason.mono {request : RotateInPlace.Goal K} {code : RotateInPlace.Code}
    (h : rotationReason settings past request code) (hp : OnlyChecks past past') :
    rotationReason settings past' request code := by
  cases code with
  | success | invalidGoal => exact h
  | invalidState => exact FoundInvalid.mono h hp
  | navigationActive | safetyAbort | canceled | collisionStopped => exact Found.mono h hp

end Growth

/-! ### Every body accounts for its end -/

def Op.terminates : Op K → Bool
  | .terminate _ _ => true
  | _ => false

section Discipline
variable [Field K] [LinearOrder K] (m : Libm K) (settings : Settings K) (goal : Goal K)

/-- Only the end has to be justified for, unless the middleware has come up again. -/
def justified (past : List (OpEvent K)) : Op K → Prop
  | .terminate outcome result => Flickered past ∨ Justified m settings past goal outcome result
  | _ => True

abbrev justifying : Discipline (interface K) := .ofPast (justified m settings goal)

variable {m settings goal} {past : List (OpEvent K)} {α β σ : Type}

theorem justified_of_not_terminates {o : Op K} (ho : o.terminates = false) :
    justified m settings goal past o := by
  cases o with
  | terminate outcome result => cases ho
  | _ => trivial

/-- Whatever is not the end may be done, and is seen. -/
theorem justify_see {o : Op K} {k : o.Answer → Operation K α} {Q : α → List (OpEvent K) → Prop}
    (ho : o.terminates = false)
    (hk : ∀ a, (justifying m settings goal).Safe (past ++ [⟨o, a⟩]) (k a) Q) :
    (justifying m settings goal).Safe past (call o >>= k) Q :=
  Discipline.safe_act_bind.mpr ⟨fun _ => justified_of_not_terminates ho, hk⟩

theorem justify_see_last {o : Op K} (ho : o.terminates = false) :
    (justifying m settings goal).Safe past (call o) fun _ _ => True :=
  Discipline.safe_perform.mpr
    ⟨fun _ => justified_of_not_terminates ho, fun _ => Discipline.safe_pure.mpr trivial⟩

theorem justify_return {a : α} {Q : α → List (OpEvent K) → Prop} (h : Q a past) :
    (justifying m settings goal).Safe past (pure a) Q := Discipline.safe_pure.mpr h

theorem justify_bind {p : Operation K β} {k : β → Operation K α} {R : β → List (OpEvent K) → Prop}
    {Q : α → List (OpEvent K) → Prop} (hp : (justifying m settings goal).Safe past p R)
    (hk : ∀ b tr, Program.Runs p tr b → R b (past ++ tr) →
      (justifying m settings goal).Safe (past ++ tr) (k b) Q) :
    (justifying m settings goal).Safe past (p >>= k) Q := hp.bind_runs hk

/-- A loop, every pass of which knows the passes before. -/
theorem justify_whileOk {body : Bool → σ → Operation K (σ ⊕ β)}
    {Q : β → List (OpEvent K) → Prop} (I : σ → List (OpEvent K) → Prop) {x : σ}
    (hbody : ∀ y tr running, @Program.Passes (interface K) _ _ .ok body x tr y → I y (past ++ tr) →
      (justifying m settings goal).Safe (past ++ tr ++ [⟨.ok, running⟩]) (body running y)
        fun r past' => Sum.elim (I · past') (Q · past') r) (h : I x past) :
    (justifying m settings goal).Safe past (.repeatWhile .ok body x) Q :=
  Discipline.safe_repeatWhile_passes I (fun _ => trivial) hbody h

theorem justify_stop {k : Unit → Operation K α} {Q : α → List (OpEvent K) → Prop}
    (hk : (justifying m settings goal).Safe (past ++ stopCalls) (k ()) Q) :
    (justifying m settings goal).Safe past (stopAlignment >>= k) Q := by
  rw [stopAlignment_bind]
  refine justify_see rfl fun _ => ?_
  refine justify_see rfl fun _ => ?_
  refine justify_see rfl fun _ => ?_
  rw [List.append_assoc, List.append_assoc]
  exact hk

theorem justify_terminate {outcome : Outcome} {result : Result K}
    (h : Flickered past ∨ Justified m settings past goal outcome result) :
    (justifying m settings goal).Safe past (terminate outcome result >>= fun _ => release)
      fun _ _ => True :=
  Discipline.safe_act_bind.mpr ⟨fun _ => h, fun _ => justify_see_last rfl⟩

end Discipline

end X2Navigation.FineAlignServer
