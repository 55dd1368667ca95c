import X2Navigation.Server.Restraint

/-! What an operation checks before it moves the robot. In the pass that writes a
command it has found the middleware running, the goal not canceled, navigation idle,
no collision stop and a manipulation state that allows motion; no command is written
on the checks of an earlier pass. -/

namespace X2Navigation

/-- An operation that may wait a collision stop out; a rotation ends at once. -/
def Goal.isPatient {K : Type} : Goal K → Bool
  | .rotate _ => false
  | _ => true

namespace FineAlignServer

open Interaction Program

variable {K : Type}

/-- What was found in order since the last sleep and the last command. -/
structure Checks where
  running : Bool
  wanted : Bool
  alone : Bool
  clear : Bool
  fit : Bool

namespace Checks

/-- Nothing was looked at. -/
def unread : Checks := ⟨false, false, false, false, false⟩

/-- Everything was found in order. -/
structure Passed (c : Checks) : Prop where
  running : c.running = true
  wanted : c.wanted = true
  alone : c.alone = true
  clear : c.clear = true
  fit : c.fit = true

/-- For a patient operation a collision stop that has not lasted too long is in order. -/
def next (patient : Bool) (c : Checks) : (o : Op K) → o.Answer → Checks
  | .ok, a => { c with running := a }
  | .isCanceling, a => { c with wanted := !a }
  | .navigationActive, a => { c with alone := !a }
  | .collisionStopped, a => { c with clear := !a }
  | .collisionStopTimedOut, a => { c with clear := patient && !a }
  | .currentManipulationState, state => { c with fit := validState state }
  | .stableMeasurement, (state, measurement) =>
    { c with fit := validState state && measurement.isSome }
  | .writeCommand _ _, _ | .writeRotation _ _, _ | .sleep _, _ => unread
  | _, _ => c

end Checks

/-- A command is written on passed checks. -/
abbrev checking (K : Type) [Zero K] (patient : Bool) : Discipline (interface K) :=
  ⟨Checks, fun c o => o.command?.isSome = true → c.Passed, Checks.next patient⟩

section Rules
variable [Zero K] {patient : Bool} {c : Checks} {α : Type} {Q : α → Checks → Prop}

/-- What writes no command needs no check. -/
theorem check_silent {p : Operation K α} (hp : All (Op.IsStill · = true) p) :
    (checking K patient).Safe c p fun _ _ => True := by
  refine (silent_of_still hp).safe (I := fun _ => True) (fun c o ho _ => ⟨fun hwrites => ?_,
    fun _ => trivial⟩) trivial
  rw [ho.1] at hwrites
  cases hwrites

theorem check_call_bind {o : Op K} {k : o.Answer → Operation K α} (ho : o.command? = none)
    (hk : ∀ a, (checking K patient).Safe (c.next patient o a) (k a) Q) :
    (checking K patient).Safe c (call o >>= k) Q := by
  refine Discipline.safe_act_bind.mpr ⟨fun _ hwrites => ?_, hk⟩
  rw [ho] at hwrites
  cases hwrites

theorem check_call {o : Op K} {Q : o.Answer → Checks → Prop} (ho : o.command? = none)
    (hq : ∀ a, Q a (c.next patient o a)) : (checking K patient).Safe c (call o) Q := by
  refine Discipline.safe_perform.mpr ⟨fun _ hwrites => ?_, fun a => Discipline.safe_pure.mpr (hq a)⟩
  rw [ho] at hwrites
  cases hwrites

theorem check_return {a : α} (h : Q a c) : (checking K patient).Safe c (.pure a) Q :=
  Discipline.safe_pure.mpr h

/-- Left after the operation has been ended. -/
theorem check_leave {p : Operation K Unit} {a : α} (hp : All (Op.IsStill · = true) p)
    (hq : ∀ c, Q a c) : (checking K patient).Safe c (do p; return a) Q :=
  (check_silent hp).bind fun _ c _ => check_return (hq c)

theorem check_write_bind {o : Op K} {k : o.Answer → Operation K α} (h : c.Passed)
    (hk : ∀ a, (checking K patient).Safe (c.next patient o a) (k a) Q) :
    (checking K patient).Safe c (call o >>= k) Q :=
  Discipline.safe_act_bind.mpr ⟨fun _ _ => h, hk⟩

/-- A loop whose passes rely on nothing but their own checks. -/
theorem check_whileOk {σ : Type} {body : Bool → σ → Operation K (σ ⊕ α)} {x : σ}
    (hbody : ∀ c running x, c.running = running →
      (checking K patient).Safe c (body running x) fun _ _ => True) :
    (checking K patient).Safe c (.repeatWhile .ok body x) fun _ _ => True := by
  refine Discipline.safe_repeatWhile (fun _ _ => True) (fun _ _ _ hwrites => ?_)
    (fun x c running _ => (hbody _ running x rfl).mono fun r _ _ => ?_) trivial
  · cases hwrites
  · cases r <;> trivial

/-- Neither of the two causes to stop was found. -/
theorem check_interruption {more : Operation K Bool} {R : Checks → Prop}
    (hmore : (checking K patient).Safe { c with wanted := true, alone := true } more
      fun interrupted c' => interrupted = false → R c') :
    (checking K patient).Safe c (either isCanceling <| either navigationActive more)
      fun interrupted c' => interrupted = false → R c' := by
  refine check_call_bind rfl fun canceling => ?_
  cases canceling with
  | true => exact check_return nofun
  | false =>
    refine check_call_bind rfl fun active => ?_
    cases active with
    | true => exact check_return nofun
    | false => exact hmore

end Rules

section Bodies
variable [Field K] [LinearOrder K] {m : Libm K} {settings : Settings K} {patient : Bool} {c : Checks}

/-! ### Fine alignment -/

theorem check_controlPass {start : TimePoint} {running : Bool} (a : Approach K)
    (hrunning : c.running = running) :
    (checking K true).Safe c (controlPass m settings start running a) fun _ _ => True := by
  obtain ⟨result, control⟩ := a
  cases running with
  | false => exact check_return trivial
  | true =>
  refine check_call_bind rfl fun canceling => Discipline.safe_ite (fun _ => check_return trivial)
    fun hcanceling => ?_
  refine check_call_bind rfl fun active => Discipline.safe_ite (fun _ => check_return trivial)
    fun hactive => ?_
  refine check_call_bind rfl fun stopped => Discipline.safe_ite (fun _ => check_return trivial)
    fun hstopped => ?_
  refine check_call_bind rfl fun now => Discipline.safe_ite (fun _ => check_return trivial) fun _ => ?_
  refine check_call_bind rfl fun measured => ?_
  obtain ⟨state, measurement⟩ := measured
  cases measurement with
  | none => exact check_return trivial
  | some x =>
    refine Discipline.safe_ite (fun _ => check_return trivial) fun hstate => ?_
    refine Discipline.safe_ite (fun _ => check_return trivial) fun _ => ?_
    refine check_call_bind rfl fun controlTime => ?_
    dsimp only
    split
    · have hwanted : (!canceling) = true := by simpa using hcanceling
      have halone : (!active) = true := by simpa using hactive
      have hclear : (!stopped) = true := by simpa using hstopped
      have hfit : (validState state && true) = true := by simpa using hstate
      refine check_write_bind ⟨hrunning, hwanted, halone, hclear, hfit⟩ fun _ => ?_
      refine check_call_bind rfl fun _ => Discipline.safe_ite (fun _ => check_return trivial)
        fun _ => ?_
      exact check_call_bind rfl fun _ => check_return trivial
    · exact check_return trivial

theorem check_runAttempt (goal : FineAlign.Goal) (result : FineAlign.Result K)
    (minimumSequence : ℕ) (stage : FineAlign.Stage) :
    (checking K true).Safe c (runAttempt m settings goal result minimumSequence stage)
      fun _ _ => True := by
  refine (check_silent (still_waitForMeasurement _ _)).bind fun measured c _ => ?_
  cases measured with
  | none =>
    refine check_call_bind rfl fun _ => Discipline.safe_ite (fun _ => check_return trivial) fun _ => ?_
    refine check_call_bind rfl fun _ => Discipline.safe_ite (fun _ => check_return trivial) fun _ => ?_
    refine check_call_bind rfl fun _ => ?_
    exact Discipline.safe_ite (fun _ => check_return trivial) fun _ => check_return trivial
  | some x =>
    obtain ⟨state, x⟩ := x
    refine Discipline.safe_ite (fun _ => check_return trivial) fun _ => ?_
    refine Discipline.safe_ite (fun _ => check_return trivial) fun _ => ?_
    refine Discipline.safe_ite (fun _ => check_return trivial) fun _ => ?_
    refine check_call_bind rfl fun _ => ?_
    refine check_call_bind rfl fun start => ?_
    refine check_call_bind rfl fun _ => ?_
    exact check_whileOk fun c running a hrunning => check_controlPass a hrunning

theorem check_attempts (goal : FineAlign.Goal) (maximumAttempts remaining : ℕ)
    (result : FineAlign.Result K) (minimumSequence : ℕ) :
    (checking K true).Safe c
      (attempts m settings goal maximumAttempts remaining result minimumSequence) fun _ _ => True := by
  induction remaining generalizing c result minimumSequence with
  | zero => exact check_return trivial
  | succ remaining ih =>
    have hdelay : All (Op.IsStill · = true)
        (waitBeforeAttempt settings (maximumAttempts - remaining) result) :=
      all_ite (fun _ => still_waitForRetryDelay _) fun _ => trivial
    refine (check_silent hdelay).bind fun waited c _ => ?_
    refine Discipline.safe_ite (fun _ => check_silent (still_finishInterrupted _)) fun _ => ?_
    refine (check_runAttempt goal result minimumSequence _).bind fun attempted c _ => ?_
    obtain ⟨result, failure⟩ := attempted
    cases failure with
    | none =>
      refine (quiet_finishAligned goal _ maximumAttempts result).safe (I := fun _ => True)
        (fun c o ho _ => ⟨fun hwrites => ?_, fun _ => trivial⟩) trivial
      rw [ho.1] at hwrites
      cases hwrites
    | some failure =>
      refine (check_silent still_stopAlignment).bind fun _ c _ => ?_
      refine check_call_bind rfl fun canceling => ?_
      refine Discipline.safe_ite (fun _ => check_silent (still_finishCanceledOrFailed _ _ _)) fun _ => ?_
      refine Discipline.safe_ite (fun _ => check_silent (still_finish _ _ _)) fun _ => ?_
      exact check_call_bind rfl fun latest => ih result latest

theorem check_execute (goal : FineAlign.Goal) :
    (checking K true).Safe c (execute m settings goal) fun _ _ => True := by
  refine check_call_bind rfl fun resolved => ?_
  cases resolved with
  | none => exact check_silent (still_finish _ _ _)
  | some profileId =>
    refine check_call_bind rfl fun active => ?_
    refine Discipline.safe_ite (fun _ => check_silent (still_finish _ _ _)) fun _ => ?_
    exact check_call_bind rfl fun profile => check_attempts goal _ _ _ 0

/-! ### Rotation in place -/

omit [LinearOrder K] in
theorem check_finishRotate (result : RotateInPlace.Result K) (code : RotateInPlace.Code)
    (message : String) :
    (checking K patient).Safe c (finishRotate result code message) fun _ _ => True := by
  refine (check_silent still_stopAlignment).bind fun _ c _ => ?_
  exact check_call_bind rfl fun _ => check_silent (still_call rfl)

theorem check_rotationPass {goal : RotateInPlace.Goal K} {running : Bool} (r : Rotating K)
    (hrunning : c.running = running) :
    (checking K patient).Safe c (rotationPass goal running r) fun _ _ => True := by
  obtain ⟨result, start⟩ := r
  have leave : ∀ {c : Checks} {result : RotateInPlace.Result K} {code : RotateInPlace.Code}
      {message : String}, (checking K patient).Safe c
        (do finishRotate result code message; return (.inr () : Rotating K ⊕ Unit)) fun _ _ => True :=
    (check_finishRotate _ _ _).bind fun _ _ _ => check_return trivial
  cases running with
  | false => exact leave
  | true =>
  refine check_call_bind rfl fun now => ?_
  refine check_call_bind rfl fun stopped => ?_
  refine check_call_bind rfl fun canceling => Discipline.safe_ite (fun _ => leave) fun hcanceling => ?_
  refine check_call_bind rfl fun active => Discipline.safe_ite (fun _ => leave) fun hactive => ?_
  refine check_call_bind rfl fun state => Discipline.safe_ite (fun _ => leave) fun hstate => ?_
  refine Discipline.safe_ite (fun _ => leave) fun hstopped => ?_
  refine Discipline.safe_ite (fun _ => leave) fun _ => ?_
  have hwanted : (!canceling) = true := by simpa using hcanceling
  have halone : (!active) = true := by simpa using hactive
  have hclear : (!stopped) = true := by simpa using hstopped
  have hfit : validState state = true := by simpa using hstate
  refine check_write_bind ⟨hrunning, hwanted, halone, hclear, hfit⟩ fun _ => ?_
  refine check_call_bind rfl fun _ => ?_
  exact check_call_bind rfl fun _ => check_return trivial

theorem check_executeRotate (goal : RotateInPlace.Goal K) :
    (checking K patient).Safe c (executeRotate settings goal) fun _ _ => True :=
  Discipline.safe_ite (fun _ => check_finishRotate _ _ _) fun _ =>
    check_whileOk fun _ _ r hrunning => check_rotationPass r hrunning

/-! ### Undocking -/

theorem check_timedPass {profile : DockingProfile K} {start : TimePoint} {running : Bool}
    (r : Reversing K) (hrunning : c.running = running) :
    (checking K patient).Safe c (timedPass settings profile start running r) fun _ _ => True := by
  obtain ⟨result, commanded⟩ := r
  cases running with
  | false => exact check_leave (still_finishUndock _ _ _) fun _ => trivial
  | true =>
  refine check_call_bind rfl fun now => ?_
  refine check_call_bind rfl fun state => ?_
  refine check_call_bind rfl fun stopped => ?_
  refine (check_interruption (R := Checks.Passed) (check_return fun hquiet => ?_)).bind
    fun interrupted c hpassed => ?_
  · rw [Bool.or_eq_false_iff, Bool.not_eq_false'] at hquiet
    have hclear : (!stopped) = true := by rw [hquiet.1]; rfl
    exact ⟨hrunning, rfl, rfl, hclear, hquiet.2⟩
  refine Discipline.safe_ite (fun _ => ?_) fun hquiet => ?_
  · refine (check_silent (all_choose (still_call rfl) (all_choose (still_call rfl)
      (all_pure _)))).bind fun code _ _ => ?_
    exact check_leave (still_finishUndock _ _ _) fun _ => trivial
  refine Discipline.safe_ite (fun _ => check_leave (still_finishUndock _ _ _) fun _ => trivial)
    fun _ => ?_
  refine Discipline.safe_ite (fun _ => ?_) fun _ => ?_
  · refine (check_silent still_stopAlignment).bind fun _ c _ => ?_
    refine check_call_bind rfl fun _ => ?_
    exact check_call_bind rfl fun _ => check_return trivial
  refine check_write_bind (hpassed (by simpa using hquiet)) fun _ => ?_
  refine check_call_bind rfl fun _ => ?_
  exact check_call_bind rfl fun _ => check_return trivial

theorem check_undockPass {undockStart start : TimePoint} {initial : Rigid.Isometry3 K}
    {running : Bool} (r : Retreat K) (hrunning : c.running = running) :
    (checking K true).Safe c (undockPass m settings undockStart start initial running r)
      fun _ _ => True := by
  obtain ⟨result, control⟩ := r
  cases running with
  | false => exact check_leave (still_finishUndock _ _ _) fun _ => trivial
  | true =>
  refine (check_interruption (R := fun c => c.running = true ∧ c.wanted = true ∧
    c.alone = true ∧ c.clear = true) (check_call rfl fun stopped hquiet => ?_)).bind fun interrupted c hfound => ?_
  · have hclear : (!stopped) = true := by rw [hquiet]; rfl
    exact ⟨hrunning, rfl, rfl, hclear⟩
  refine Discipline.safe_ite (fun _ => ?_) fun hquiet => ?_
  · refine (check_silent (all_choose (still_call rfl) (all_choose (still_call rfl)
      (all_pure _)))).bind fun code _ _ => ?_
    exact check_leave (still_finishUndock _ _ _) fun _ => trivial
  obtain ⟨hrun, hwanted, halone, hclear⟩ := hfound (by simpa using hquiet)
  refine check_call_bind rfl fun now => ?_
  refine Discipline.safe_ite (fun _ => check_leave (still_finishUndock _ _ _) fun _ => trivial)
    fun _ => ?_
  refine check_call_bind rfl fun measured => ?_
  obtain ⟨state, measurement⟩ := measured
  cases measurement with
  | none => exact check_leave (still_finishUndock _ _ _) fun _ => trivial
  | some x =>
    refine Discipline.safe_ite (fun _ => check_leave (still_finishUndock _ _ _) fun _ => trivial)
      fun hstate => ?_
    refine check_call_bind rfl fun controlTime => ?_
    dsimp only
    split
    · have hfit : (validState state && true) = true := by simpa using hstate
      refine check_write_bind ⟨hrun, hwanted, halone, hclear, hfit⟩ fun _ => ?_
      refine check_call_bind rfl fun _ => Discipline.safe_ite (fun _ => ?_) fun _ => ?_
      · refine (check_silent still_stopAlignment).bind fun _ c _ => ?_
        refine check_call_bind rfl fun _ => ?_
        exact check_call_bind rfl fun _ => check_return trivial
      · exact check_call_bind rfl fun _ => check_return trivial
    · exact check_leave (still_finishUndock _ _ _) fun _ => trivial

theorem still_undockAcquisitionPass {validating : Undock.Feedback K} {result : Undock.Result K}
    {start : TimePoint} (running : Bool) (x : Unit) :
    All (Op.IsStill · = true)
      (undockAcquisitionPass settings validating result start running x) := by
  have hinvalid : All (Op.IsStill · = true) (currentlyInvalid : Operation K Bool) :=
    still_call_bind rfl fun _ => trivial
  refine all_ite (fun _ => trivial) fun _ => still_call_bind rfl fun (state, measurement) => ?_
  cases measurement with
  | some x => trivial
  | none =>
    refine (all_either (still_call rfl) (all_either (still_call rfl)
      (all_either (still_call rfl) hinvalid))).bind fun interrupted => all_ite (fun _ => ?_) fun _ => ?_
    · exact (all_choose (still_call rfl) (all_choose (still_call rfl)
        (all_choose hinvalid (all_pure _)))).bind fun code =>
          (still_finishUndock _ _ _).bind fun _ => trivial
    · refine still_call_bind rfl fun now => all_ite (fun _ =>
        (still_finishUndock _ _ _).bind fun _ => trivial) fun _ => ?_
      exact still_call_bind rfl fun _ => still_call_bind rfl fun _ => trivial

theorem check_undockTagRelative (validating : Undock.Feedback K) (result : Undock.Result K) :
    (checking K true).Safe c (undockTagRelative m settings validating result) fun _ _ => True := by
  refine check_call_bind rfl fun undockStart => ?_
  refine check_call_bind rfl fun start => ?_
  refine (check_silent ((all_repeatWhile _ _ _).mpr ⟨rfl, still_undockAcquisitionPass⟩)).bind
    fun acquired c _ => ?_
  cases acquired with
  | none => exact check_return trivial
  | some initial =>
    refine check_call_bind rfl fun running => ?_
    refine Discipline.safe_ite (fun _ => check_silent (still_finishUndock _ _ _)) fun _ => ?_
    refine check_call_bind rfl fun _ => ?_
    refine check_call_bind rfl fun start => ?_
    refine check_call_bind rfl fun _ => ?_
    exact check_whileOk fun c running r hrunning => check_undockPass r hrunning

theorem check_executeUndock (goal : Undock.Goal) :
    (checking K true).Safe c (executeUndock m settings goal) fun _ _ => True := by
  refine check_call_bind rfl fun state => ?_
  refine check_call_bind rfl fun resolved => ?_
  cases resolved with
  | none => exact check_silent (still_finishUndock _ _ _)
  | some profileId =>
    refine check_call_bind rfl fun active => ?_
    obtain ⟨profile, instanceId⟩ := active
    refine check_call_bind rfl fun _ => ?_
    refine check_call_bind rfl fun _ => ?_
    refine Discipline.safe_ite (fun _ => check_silent (still_finishUndock _ _ _)) fun _ => ?_
    refine Discipline.safe_ite (fun _ => check_silent (still_finishUndock _ _ _)) fun _ => ?_
    cases profile.undockMode with
    | timedReverse =>
      refine check_call_bind rfl fun start => ?_
      refine check_call_bind rfl fun _ => ?_
      exact check_whileOk fun c running r hrunning => check_timedPass r hrunning
    | tagRelative => exact check_undockTagRelative _ _

/-- No body writes a command but on passed checks. -/
theorem check_body (goal : Goal K) :
    (checking K goal.isPatient).Safe c (body m settings goal) fun _ _ => True := by
  cases goal with
  | fineAlign goal => exact check_execute goal
  | undock goal => exact check_executeUndock goal
  | rotate goal => exact check_executeRotate goal

end Bodies

end FineAlignServer

end X2Navigation
