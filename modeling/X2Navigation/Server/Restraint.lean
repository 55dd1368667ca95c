import X2Navigation.Interaction.Discipline
import X2Navigation.Server.Operations

/-! What the bodies leave alone. A body activates a profile once, and a body that
only measures never writes a command. -/

namespace X2Navigation.FineAlignServer

open Interaction Program

variable {K : Type}

namespace Op

/-- The command that is written. -/
def command? [Zero K] : Op K → Option (Twist K)
  | .writeCommand command _ => some command
  | .writeRotation angularSpeed _ => some ⟨0, ⟨0, 0, angularSpeed⟩⟩
  | _ => none

/-- Neither writes a command nor activates a profile. -/
def Quiet [Zero K] (o : Op K) : Prop := o.command? = none ∧ o.Activates = false

/-- Neither activates a profile nor records a dock. -/
def Later (o : Op K) : Prop := o.Activates = false ∧ o.Records = false

/-- Does not report a success either. -/
def Modest (o : Op K) : Prop := o.Later ∧ o.Succeeds = false

/-- Does not write a command either. -/
def Silent [Zero K] (o : Op K) : Prop := o.command? = none ∧ o.Modest

/-- Neither arms anything, nor activates a profile, records a dock or reports a success. -/
def IsStill : Op K → Bool
  | .activateProfile _ _ _ | .recordDock _ _ | .writeCommand _ _ | .writeRotation _ _
  | .terminate .succeed _ => false
  | .setAlignmentActive active => !active
  | _ => true

theorem unarmed_of_isStill {o : Op K} (h : o.IsStill = true) : o.Arms = false := by
  cases o with
  | setAlignmentActive active => simpa [IsStill, Arms] using h
  | writeCommand | writeRotation => cases h
  | _ => rfl

theorem modest_of_isStill {o : Op K} (h : o.IsStill = true) : o.Modest := by
  cases o with
  | activateProfile | recordDock => cases h
  | terminate outcome result =>
    cases outcome with
    | succeed => cases h
    | abort => exact ⟨⟨rfl, rfl⟩, rfl⟩
    | canceled => exact ⟨⟨rfl, rfl⟩, rfl⟩
  | _ => exact ⟨⟨rfl, rfl⟩, rfl⟩

theorem silent_of_isStill [Zero K] {o : Op K} (h : o.IsStill = true) : o.Silent := by
  refine ⟨?_, modest_of_isStill h⟩
  cases o with
  | writeCommand | writeRotation => cases h
  | _ => rfl

theorem Silent.quiet [Zero K] {o : Op K} (h : o.Silent) : o.Quiet := ⟨h.1, h.2.1.1⟩

end Op

section Rules
variable {α : Type} {P : Op K → Prop}

theorem all_ite {c : Prop} [Decidable c] {p q : Operation K α} (hp : c → All P p)
    (hq : ¬ c → All P q) : All P (if c then p else q) := by
  split
  · exact hp ‹_›
  · exact hq ‹_›

theorem all_call_bind {o : Op K} {k : o.Answer → Operation K α} (ho : P o) (hk : ∀ a, All P (k a)) :
    All P (call o >>= k) := ⟨ho, hk⟩

theorem quiet_call_bind [Zero K] {o : Op K} {k : o.Answer → Operation K α} (ho : o.Quiet)
    (hk : ∀ a, All Op.Quiet (k a)) : All Op.Quiet (call o >>= k) := ⟨ho, hk⟩

theorem quiet_call [Zero K] {o : Op K} (ho : o.Quiet) : All Op.Quiet (call o) :=
  ⟨ho, fun _ => trivial⟩

theorem still_call_bind {o : Op K} {k : o.Answer → Operation K α} (ho : o.IsStill = true)
    (hk : ∀ a, All (Op.IsStill · = true) (k a)) : All (Op.IsStill · = true) (call o >>= k) := ⟨ho, hk⟩

theorem still_call {o : Op K} (ho : o.IsStill = true) : All (Op.IsStill · = true) (call o) :=
  ⟨ho, fun _ => trivial⟩

theorem modest_call_bind {o : Op K} {k : o.Answer → Operation K α} (ho : o.Modest)
    (hk : ∀ a, All Op.Modest (k a)) : All Op.Modest (call o >>= k) := ⟨ho, hk⟩

theorem later_call_bind {o : Op K} {k : o.Answer → Operation K α} (ho : o.Later)
    (hk : ∀ a, All Op.Later (k a)) : All Op.Later (call o >>= k) := ⟨ho, hk⟩

theorem later_call {o : Op K} (ho : o.Later) : All Op.Later (call o) := ⟨ho, fun _ => trivial⟩

theorem all_either {p q : Operation K Bool} (hp : All P p) (hq : All P q) : All P (either p q) :=
  hp.bind fun _ => all_ite (fun _ => trivial) fun _ => hq

theorem all_choose {c : Operation K Bool} {x : α} {p : Operation K α} (hc : All P c)
    (hp : All P p) : All P (choose c x p) :=
  hc.bind fun _ => all_ite (fun _ => trivial) fun _ => hp

theorem silent_of_still [Zero K] {p : Operation K α} (h : All (Op.IsStill · = true) p) :
    All Op.Silent p := h.mono fun _ ho => Op.silent_of_isStill ho

theorem quiet_of_still [Zero K] {p : Operation K α} (h : All (Op.IsStill · = true) p) :
    All Op.Quiet p := (silent_of_still h).mono fun _ ho => ho.quiet

theorem modest_of_still {p : Operation K α} (h : All (Op.IsStill · = true) p) : All Op.Modest p :=
  h.mono fun _ ho => Op.modest_of_isStill ho

theorem later_of_still {p : Operation K α} (h : All (Op.IsStill · = true) p) : All Op.Later p :=
  h.mono fun _ ho => (Op.modest_of_isStill ho).1

end Rules

/-! ### Endings -/

section Endings

theorem still_stopAlignment : All (Op.IsStill · = true) (stopAlignment : Operation K Unit) :=
  still_call_bind rfl fun _ => still_call_bind rfl fun _ => still_call rfl

theorem still_finish (result : FineAlign.Result K) (code : FineAlign.Code) (message : String) :
    All (Op.IsStill · = true) (finish result code message) :=
  still_stopAlignment.bind fun _ => still_call_bind rfl fun _ => still_call rfl

theorem still_finishCanceledOrFailed (result : FineAlign.Result K) (code : FineAlign.Code)
    (message : String) : All (Op.IsStill · = true) (finishCanceledOrFailed result code message) := by
  refine still_call_bind rfl fun canceling => all_ite (fun _ => ?_) fun _ =>
    still_finish _ _ _
  exact still_stopAlignment.bind fun _ => still_call_bind rfl fun _ => still_call rfl

theorem still_finishUndock (result : Undock.Result K) (code : Undock.Code) (message : String) :
    All (Op.IsStill · = true) (finishUndock result code message) := by
  refine still_stopAlignment.bind fun _ => still_call_bind rfl fun canceling => all_ite ?_ ?_
  · exact fun _ => still_call_bind rfl fun _ => still_call rfl
  · exact fun _ => still_call_bind rfl fun _ => still_call rfl

theorem later_finishRotate (result : RotateInPlace.Result K) (code : RotateInPlace.Code)
    (message : String) : All Op.Later (finishRotate result code message) :=
  (later_of_still still_stopAlignment).bind fun _ => later_call_bind ⟨rfl, rfl⟩ fun _ =>
    later_call ⟨rfl, rfl⟩

theorem still_finishInterrupted (result : FineAlign.Result K) :
    All (Op.IsStill · = true) (finishInterrupted result) := by
  refine still_call_bind rfl fun navigation => all_ite (fun _ =>
    still_finish _ _ _) fun _ => ?_
  exact still_call_bind rfl fun running => still_finishCanceledOrFailed _ _ _

theorem quiet_finishAligned [Zero K] (goal : FineAlign.Goal) (attempt maximumAttempts : ℕ)
    (result : FineAlign.Result K) :
    All Op.Quiet (finishAligned goal attempt maximumAttempts result) := by
  refine (quiet_of_still still_stopAlignment).bind fun _ => all_ite (fun _ => ?_) fun _ => ?_
  · exact quiet_call_bind ⟨rfl, rfl⟩ fun _ => quiet_call_bind ⟨rfl, rfl⟩ fun _ =>
      quiet_call ⟨rfl, rfl⟩
  · exact quiet_call_bind ⟨rfl, rfl⟩ fun _ => quiet_call ⟨rfl, rfl⟩

end Endings

/-! ### Activation -/

/-- Once a profile was activated, or if none is, nothing else is activated. -/
abbrev activation (K : Type) : Discipline (interface K) :=
  ⟨Bool, fun activated o => o.Activates = true → activated = false,
    fun activated o _ => activated || o.Activates⟩

theorem safe_of_later {α : Type} {p : Operation K α} (h : All (Op.Activates · = false) p)
    (activated : Bool) : (activation K).Safe activated p fun _ _ => True := by
  refine All.safe h (I := fun _ => True) (fun g o ho _ => ⟨fun ha => ?_, fun _ => trivial⟩) trivial
  rw [ho] at ha
  cases ha

theorem unactivated_of_later {α : Type} {p : Operation K α} (h : All Op.Later p) :
    All (Op.Activates · = false) p := h.mono fun _ ho => ho.1

section Bodies
variable [Field K] [LinearOrder K] {m : Libm K} {settings : Settings K}

/-! ### Fine alignment -/

theorem still_waitForMeasurement (minimumSequence : ℕ) (stage : FineAlign.Stage) :
    All (Op.IsStill · = true) (waitForMeasurement settings minimumSequence stage) := by
  refine still_call_bind rfl fun start =>
    (all_repeatWhile _ _ _).mpr ⟨rfl, fun running _ => ?_⟩
  refine all_ite (fun _ => trivial) fun _ => still_call_bind rfl fun now => ?_
  refine all_ite (fun _ => trivial) fun _ => still_call_bind rfl fun canceling => ?_
  refine all_ite (fun _ => trivial) fun _ => still_call_bind rfl fun navigation => ?_
  refine all_ite (fun _ => trivial) fun _ =>
    still_call_bind rfl fun (state, measurement) => ?_
  dsimp only
  split
  · trivial
  · exact still_call_bind rfl fun _ => still_call_bind rfl fun _ =>
      still_call_bind rfl fun _ => trivial

theorem still_waitForRetryDelay (result : FineAlign.Result K) :
    All (Op.IsStill · = true) (waitForRetryDelay settings result) := by
  refine still_call_bind rfl fun _ => still_call_bind rfl fun start =>
    (all_repeatWhile _ _ _).mpr ⟨rfl, fun running _ => ?_⟩
  refine all_ite (fun _ => still_call_bind rfl fun _ => trivial) fun _ =>
    still_call_bind rfl fun now => ?_
  refine all_ite (fun _ => still_call_bind rfl fun _ => trivial) fun _ =>
    still_call_bind rfl fun _ => ?_
  refine all_ite (fun _ => trivial) fun _ => still_call_bind rfl fun navigation => ?_
  exact all_ite (fun _ => trivial) fun _ => still_call_bind rfl fun _ => trivial

theorem modest_controlPass (start : TimePoint) (running : Bool) (a : Approach K) :
    All Op.Modest (controlPass m settings start running a) := by
  obtain ⟨result, control⟩ := a
  refine all_ite (fun _ => trivial) fun _ => modest_call_bind ⟨⟨rfl, rfl⟩, rfl⟩ fun canceling => ?_
  refine all_ite (fun _ => trivial) fun _ => modest_call_bind ⟨⟨rfl, rfl⟩, rfl⟩ fun navigation => ?_
  refine all_ite (fun _ => trivial) fun _ => modest_call_bind ⟨⟨rfl, rfl⟩, rfl⟩ fun stopped => ?_
  refine all_ite (fun _ => trivial) fun _ => modest_call_bind ⟨⟨rfl, rfl⟩, rfl⟩ fun now => ?_
  refine all_ite (fun _ => trivial) fun _ => modest_call_bind ⟨⟨rfl, rfl⟩, rfl⟩ fun (state, measurement) => ?_
  cases measurement with
  | none => trivial
  | some x =>
  refine all_ite (fun _ => trivial) fun _ => all_ite (fun _ => trivial) fun _ => ?_
  refine modest_call_bind ⟨⟨rfl, rfl⟩, rfl⟩ fun controlTime => ?_
  dsimp only
  split
  · refine modest_call_bind ⟨⟨rfl, rfl⟩, rfl⟩ fun _ => modest_call_bind ⟨⟨rfl, rfl⟩, rfl⟩ fun _ => all_ite (fun _ =>
      trivial) fun _ => ?_
    exact modest_call_bind ⟨⟨rfl, rfl⟩, rfl⟩ fun _ => trivial
  · trivial

theorem still_runAttempt_measuring {goal : FineAlign.Goal} (hgoal : goal.execute = false)
    (result : FineAlign.Result K) (minimumSequence : ℕ) (stage : FineAlign.Stage) :
    All (Op.IsStill · = true) (runAttempt m settings goal result minimumSequence stage) := by
  refine (still_waitForMeasurement _ _).bind fun measured => ?_
  cases measured with
  | none =>
    refine still_call_bind rfl fun canceling => all_ite (fun _ => trivial) fun _ => ?_
    refine still_call_bind rfl fun navigation => all_ite (fun _ => trivial) fun _ => ?_
    exact still_call_bind rfl fun running => all_ite (fun _ => trivial) fun _ => trivial
  | some x =>
    obtain ⟨state, x⟩ := x
    refine all_ite (fun _ => trivial) fun _ => all_ite (fun _ => trivial) fun _ => ?_
    simp only [hgoal, Bool.not_false, if_true]
    trivial

theorem modest_runAttempt (goal : FineAlign.Goal) (result : FineAlign.Result K)
    (minimumSequence : ℕ) (stage : FineAlign.Stage) :
    All Op.Modest (runAttempt m settings goal result minimumSequence stage) := by
  refine (modest_of_still (still_waitForMeasurement _ _)).bind fun measured => ?_
  cases measured with
  | none =>
    refine modest_call_bind ⟨⟨rfl, rfl⟩, rfl⟩ fun canceling => all_ite (fun _ => trivial) fun _ => ?_
    refine modest_call_bind ⟨⟨rfl, rfl⟩, rfl⟩ fun navigation => all_ite (fun _ => trivial) fun _ => ?_
    exact modest_call_bind ⟨⟨rfl, rfl⟩, rfl⟩ fun running => all_ite (fun _ => trivial) fun _ => trivial
  | some x =>
    obtain ⟨state, x⟩ := x
    refine all_ite (fun _ => trivial) fun _ => all_ite (fun _ => trivial) fun _ => ?_
    refine all_ite (fun _ => trivial) fun _ => modest_call_bind ⟨⟨rfl, rfl⟩, rfl⟩ fun _ =>
      modest_call_bind ⟨⟨rfl, rfl⟩, rfl⟩ fun start => ?_
    refine modest_call_bind ⟨⟨rfl, rfl⟩, rfl⟩ fun previousControlTime => (all_repeatWhile _ _ _).mpr ⟨⟨⟨rfl, rfl⟩, rfl⟩, ?_⟩
    exact fun running a => modest_controlPass start running a

/-- The loop over the attempts does what they do, and what is quiet. -/
theorem all_attempts {P : Op K → Prop} (hquiet : ∀ o, o.Quiet → P o) {goal : FineAlign.Goal}
    (hattempt : ∀ result minimumSequence stage,
      All P (runAttempt m settings goal result minimumSequence stage))
    (maximumAttempts remaining : ℕ) (result : FineAlign.Result K) (minimumSequence : ℕ) :
    All P (attempts m settings goal maximumAttempts remaining result minimumSequence) := by
  have quiet : ∀ {α : Type} {p : Operation K α}, All (Op.IsStill · = true) p → All P p :=
    fun h => (quiet_of_still h).mono hquiet
  induction remaining generalizing result minimumSequence with
  | zero => trivial
  | succ remaining ih =>
    have hdelay : All P (waitBeforeAttempt settings (maximumAttempts - remaining) result) :=
      quiet (all_ite (fun _ => still_waitForRetryDelay _) fun _ => trivial)
    refine hdelay.bind fun go => all_ite (fun _ => quiet (still_finishInterrupted _)) fun _ => ?_
    refine (hattempt _ _ _).bind fun (result, failure) => ?_
    cases failure with
    | none => exact (quiet_finishAligned _ _ _ _).mono hquiet
    | some failure =>
      refine (quiet still_stopAlignment).bind fun _ =>
        all_call_bind (hquiet _ ⟨rfl, rfl⟩) fun _ => ?_
      refine all_ite (fun _ => quiet (still_finishCanceledOrFailed _ _ _)) fun _ => ?_
      refine all_ite (fun _ => quiet (still_finish _ _ _)) fun _ => ?_
      exact all_call_bind (hquiet _ ⟨rfl, rfl⟩) fun latest => ih _ _

/-! ### Rotation and undocking -/

theorem later_executeRotate (goal : RotateInPlace.Goal K) :
    All Op.Later (executeRotate settings goal) := by
  have ended : ∀ {result : RotateInPlace.Result K} {code message},
      All Op.Later (finishRotate result code message) :=
    later_finishRotate _ _ _
  have leave : ∀ {result : RotateInPlace.Result K} {code message},
      All Op.Later
        (do finishRotate result code message; return (.inr () : Rotating K ⊕ Unit)) :=
    ended.bind fun _ => trivial
  refine all_ite (fun _ => ended) fun _ => (all_repeatWhile _ _ _).mpr ⟨⟨rfl, rfl⟩, fun running r => ?_⟩
  obtain ⟨result, start⟩ := r
  refine all_ite (fun _ => leave) fun _ => later_call_bind ⟨rfl, rfl⟩ fun now =>
    later_call_bind ⟨rfl, rfl⟩ fun stopped => ?_
  refine later_call_bind ⟨rfl, rfl⟩ fun canceling => all_ite (fun _ => leave) fun _ => ?_
  refine later_call_bind ⟨rfl, rfl⟩ fun navigation => all_ite (fun _ => leave) fun _ => ?_
  refine later_call_bind ⟨rfl, rfl⟩ fun state => all_ite (fun _ => leave) fun _ => ?_
  refine all_ite (fun _ => leave) fun _ => all_ite (fun _ => leave) fun _ => ?_
  exact later_call_bind ⟨rfl, rfl⟩ fun _ => later_call_bind ⟨rfl, rfl⟩ fun _ => later_call_bind ⟨rfl, rfl⟩ fun _ =>
    trivial

theorem later_executeTimedUndock (result : Undock.Result K) (profile : DockingProfile K) :
    All Op.Later (executeTimedUndock settings result profile) := by
  have leave : ∀ {result : Undock.Result K} {code message},
      All Op.Later
        (do finishUndock result code message; return (.inr () : Reversing K ⊕ Unit)) :=
    (later_of_still (still_finishUndock _ _ _)).bind fun _ => trivial
  refine later_call_bind ⟨rfl, rfl⟩ fun start => later_call_bind ⟨rfl, rfl⟩ fun _ =>
    (all_repeatWhile _ _ _).mpr ⟨⟨rfl, rfl⟩, fun running r => ?_⟩
  obtain ⟨result, commandedMotion⟩ := r
  refine all_ite (fun _ => leave) fun _ => later_call_bind ⟨rfl, rfl⟩ fun controlTime => ?_
  refine later_call_bind ⟨rfl, rfl⟩ fun state => later_call_bind ⟨rfl, rfl⟩ fun stopped => ?_
  refine (all_either (later_call ⟨rfl, rfl⟩) (all_either (later_call ⟨rfl, rfl⟩) (all_pure _))).bind
    fun interrupted => all_ite (fun _ => ?_) fun _ => all_ite (fun _ => leave) fun _ => ?_
  · exact (all_choose (later_call ⟨rfl, rfl⟩) (all_choose (later_call ⟨rfl, rfl⟩) (all_pure _))).bind
      fun code => leave
  refine all_ite (fun _ => ?_) fun _ => ?_
  · exact (later_of_still still_stopAlignment).bind fun _ =>
      later_call_bind ⟨rfl, rfl⟩ fun _ => later_call_bind ⟨rfl, rfl⟩ fun _ => trivial
  · exact later_call_bind ⟨rfl, rfl⟩ fun _ => later_call_bind ⟨rfl, rfl⟩ fun _ => later_call_bind ⟨rfl, rfl⟩ fun _ =>
      trivial

theorem later_undockTagRelative (validating : Undock.Feedback K) (result : Undock.Result K) :
    All Op.Later (undockTagRelative m settings validating result) := by
  have ended : ∀ {result : Undock.Result K} {code message},
      All Op.Later (finishUndock result code message) :=
    later_of_still (still_finishUndock _ _ _)
  have invalid : All Op.Later (currentlyInvalid : Operation K Bool) :=
    later_call_bind ⟨rfl, rfl⟩ fun _ => trivial
  refine later_call_bind ⟨rfl, rfl⟩ fun undockStart => later_call_bind ⟨rfl, rfl⟩ fun acquisitionStart => ?_
  refine All.bind ((all_repeatWhile _ _ _).mpr ⟨⟨rfl, rfl⟩, fun running u => ?_⟩) fun acquired => ?_
  · -- a pass of the acquisition
    refine all_ite (fun _ => trivial) fun _ => later_call_bind ⟨rfl, rfl⟩ fun (state, measurement) => ?_
    cases measurement with
    | some x => trivial
    | none =>
    refine (all_either (later_call ⟨rfl, rfl⟩) (all_either (later_call ⟨rfl, rfl⟩)
      (all_either (later_call ⟨rfl, rfl⟩) invalid))).bind fun interrupted => all_ite (fun _ => ?_)
      fun _ => later_call_bind ⟨rfl, rfl⟩ fun now => all_ite (fun _ => ended.bind fun _ =>
        trivial) fun _ => ?_
    · exact (all_choose (later_call ⟨rfl, rfl⟩) (all_choose (later_call ⟨rfl, rfl⟩)
        (all_choose invalid (all_pure _)))).bind fun code => ended.bind fun _ => trivial
    · exact later_call_bind ⟨rfl, rfl⟩ fun _ => later_call_bind ⟨rfl, rfl⟩ fun _ => trivial
  cases acquired with
  | none => trivial
  | some initial =>
  refine later_call_bind ⟨rfl, rfl⟩ fun running => all_ite (fun _ => ended) fun _ =>
    later_call_bind ⟨rfl, rfl⟩ fun _ => ?_
  refine later_call_bind ⟨rfl, rfl⟩ fun start => later_call_bind ⟨rfl, rfl⟩ fun previousControlTime =>
    (all_repeatWhile _ _ _).mpr ⟨⟨rfl, rfl⟩, fun running r => ?_⟩
  -- a pass of the control loop
  obtain ⟨result, control⟩ := r
  refine all_ite (fun _ => ended.bind fun _ => trivial) fun _ => ?_
  refine (all_either (later_call ⟨rfl, rfl⟩) (all_either (later_call ⟨rfl, rfl⟩)
    (later_call ⟨rfl, rfl⟩))).bind fun interrupted => all_ite (fun _ => ?_) fun _ => ?_
  · exact (all_choose (later_call ⟨rfl, rfl⟩) (all_choose (later_call ⟨rfl, rfl⟩) (all_pure _))).bind
      fun code => ended.bind fun _ => trivial
  refine later_call_bind ⟨rfl, rfl⟩ fun now => all_ite (fun _ => ended.bind fun _ => trivial) fun _ => ?_
  refine later_call_bind ⟨rfl, rfl⟩ fun (state, measurement) => ?_
  cases measurement with
  | none => exact ended.bind fun _ => trivial
  | some x =>
  refine all_ite (fun _ => ended.bind fun _ => trivial) fun _ =>
    later_call_bind ⟨rfl, rfl⟩ fun controlTime => ?_
  dsimp only
  split
  · refine later_call_bind ⟨rfl, rfl⟩ fun _ => later_call_bind ⟨rfl, rfl⟩ fun _ => all_ite (fun _ =>
      ?_) fun _ => ?_
    · exact (later_of_still still_stopAlignment).bind fun _ =>
        later_call_bind ⟨rfl, rfl⟩ fun _ => later_call_bind ⟨rfl, rfl⟩ fun _ => trivial
    · exact later_call_bind ⟨rfl, rfl⟩ fun _ => trivial
  · exact ended.bind fun _ => trivial

/-! ### Bodies -/

/-- A body that only measures writes no command. -/
theorem all_body_of_measuresOnly (m : Libm K) (settings : Settings K) {goal : Goal K}
    (h : goal.measuresOnly = true) :
    All (fun o : Op K => o.command? = none) (body m settings goal) := by
  cases goal with
  | undock goal => cases h
  | rotate goal => cases h
  | fineAlign goal =>
    have hgoal : goal.execute = false := by simpa [Goal.measuresOnly] using h
    have quiet : ∀ {p : Operation K Unit}, All (Op.IsStill · = true) p →
        All (fun o : Op K => o.command? = none) p :=
      fun hp => (silent_of_still hp).mono fun _ ho => ho.1
    refine all_call_bind rfl fun resolved => ?_
    cases resolved with
    | none => exact quiet (still_finish _ _ _)
    | some profileId =>
      refine all_call_bind rfl fun navigation => all_ite (fun _ => quiet (still_finish _ _ _)) ?_
      refine fun _ => all_call_bind rfl fun profile => all_attempts (fun o ho => ho.1) ?_ _ _ _ _
      exact fun _ _ _ => (silent_of_still (still_runAttempt_measuring hgoal _ _ _)).mono fun _ ho => ho.1

theorem safe_activation (goal : Goal K) :
    (activation K).Safe false (body m settings goal) fun _ _ => True := by
  cases goal with
  | rotate goal => exact safe_of_later (unactivated_of_later (later_executeRotate goal)) false
  | fineAlign goal =>
    refine Discipline.safe_act_bind.mpr ⟨fun _ _ => rfl, fun resolved => safe_of_later ?_ _⟩
    cases resolved with
    | none => exact unactivated_of_later (later_of_still (still_finish _ _ _))
    | some profileId =>
      refine all_call_bind rfl fun navigation => all_ite ?_ fun _ => all_call_bind rfl fun profile => ?_
      · exact fun _ => unactivated_of_later (later_of_still (still_finish _ _ _))
      · exact all_attempts (fun o ho => ho.2)
          (fun _ _ _ => (modest_runAttempt goal _ _ _).mono fun _ ho => ho.1.1) _ _ _ _
  | undock goal =>
    refine Discipline.safe_act_bind.mpr ⟨fun _ => nofun, fun state => ?_⟩
    refine Discipline.safe_act_bind.mpr ⟨fun _ _ => rfl, fun resolved => safe_of_later ?_ _⟩
    refine unactivated_of_later ?_
    cases resolved with
    | none => exact later_of_still (still_finishUndock _ _ _)
    | some profileId =>
      refine later_call_bind ⟨rfl, rfl⟩ fun (profile, instanceId) => later_call_bind ⟨rfl, rfl⟩ fun _ => ?_
      refine later_call_bind ⟨rfl, rfl⟩ fun navigation => all_ite ?_ fun _ => all_ite ?_ fun _ => ?_
      · exact fun _ => later_of_still (still_finishUndock _ _ _)
      · exact fun _ => later_of_still (still_finishUndock _ _ _)
      · split
        · exact later_executeTimedUndock _ _
        · exact later_undockTagRelative _ _

/-- A body activates a profile at most once. -/
theorem activates_once {goal : Goal K} {tr : List (OpEvent K)} {e : OpEvent K}
    {p : Operation K Unit} (h : Steps (body m settings goal) (tr ++ [e]) p)
    (he : e.1.Activates = true) : ∀ x ∈ tr, x.1.Activates = false := by
  have hobeys := (safe_activation goal _ _ h).1
  have hfirst := (Discipline.obeys_snoc.mp hobeys).2 he
  clear h hobeys he
  induction tr using List.reverseRecOn with
  | nil => simp
  | append_singleton tr x ih =>
    rw [Discipline.after_append] at hfirst
    have hor := Bool.or_eq_false_iff.mp hfirst
    intro y hy
    obtain hy | hy := List.mem_append.mp hy
    · exact ih hor.1 y hy
    · obtain rfl := List.mem_singleton.mp hy
      exact hor.2

end Bodies

end X2Navigation.FineAlignServer
