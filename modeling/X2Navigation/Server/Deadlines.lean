import X2Navigation.Interaction.Termination
import X2Navigation.Server.Operations
import X2Navigation.Server.Periods

/-! Every body halts. Each loop compares the steady clock with a deadline and sleeps
before the next pass, so the number of its passes is bounded by the deadline and the
length of the sleep. The constructor checks neither the timeouts of an attempt nor
that the controller's period is a nanosecond: those are assumed here. -/

namespace X2Navigation.FineAlignServer

open Interaction Program Environment

variable {K : Type} [Field K] [LinearOrder K] [FloorRing K]

/-! ### The clock -/

/-- How long a thread sleeps at least, in nanoseconds. -/
def Settings.pause (s : Settings K) : Pause → ℤ
  | .poll => 10 ^ 8
  | .controllerPeriod => s.controllerPeriod

/-- A thread reads the steady clock, which does not go back, and it sleeps for as long as
it is told to, or longer. The ghost state is the earliest reading to come. -/
abbrev clock (s : Settings K) : Environment (interface K) where
  Ghost := TimePoint
  admits earliest
    | .steadyNow, now => earliest ≤ now
    | _, _ => True
  next earliest
    | .steadyNow, now => now
    | .sleep pause, _ => earliest + s.pause pause
    | _, _ => earliest

/-- Two timeouts are numbers, and a controller period is not over at once. -/
structure Settings.Timed (s : Settings K) : Prop where
  acquisition : s.parameters.acquisitionTimeout.isFinite = true
  approach : s.parameters.approachTimeout.isFinite = true
  period : 0 < s.controllerPeriod

/-- The whole nanoseconds of a timeout. -/
def wholeNanoseconds (timeout : K) : ℕ := ⌊timeout * 10 ^ 9⌋.toNat

/-- How often a loop can go on that sleeps before every pass but the first, and one more. -/
def passes (timeout : K) (pause : ℤ) : ℕ := (wholeNanoseconds timeout / pause).toNat + 2

/-- The passes that are left before `finish`, when the clock reads `earliest`. -/
def remaining (finish pause earliest : ℤ) : ℕ := ((finish + pause - earliest) / pause).toNat

section Passes
variable {pause finish earliest earliest' now : ℤ}

/-- A pass that goes on and sleeps leaves fewer passes. -/
theorem remaining_lt (hpause : 0 < pause) (hread : earliest ≤ now) (hgoes : now ≤ finish)
    (hslept : now + pause ≤ earliest') :
    remaining finish pause earliest' < remaining finish pause earliest := by
  have hlater : (finish + pause - earliest') / pause ≤ (finish - now) / pause :=
    Int.ediv_le_ediv hpause (by omega)
  have hearlier : (finish - now + 1 * pause) / pause ≤ (finish + pause - earliest) / pause :=
    Int.ediv_le_ediv hpause (by omega)
  rw [Int.add_mul_ediv_right _ _ hpause.ne'] at hearlier
  have hnonneg : 0 ≤ (finish - now) / pause := Int.ediv_nonneg (by omega) hpause.le
  unfold remaining
  omega

theorem remaining_lt_passes {timeout : K} {start : ℤ} (hpause : 0 < pause) (hstart : start ≤ earliest) :
    remaining (start + wholeNanoseconds timeout) pause earliest < passes timeout pause := by
  have hle : (start + wholeNanoseconds timeout + pause - earliest) / pause ≤
      (wholeNanoseconds timeout + 1 * pause) / pause := Int.ediv_le_ediv hpause (by omega)
  rw [Int.add_mul_ediv_right _ _ hpause.ne'] at hle
  have hnonneg : 0 ≤ (wholeNanoseconds timeout : ℤ) / pause :=
    Int.ediv_nonneg (Int.natCast_nonneg _) hpause.le
  unfold remaining passes
  omega

/-- After the first pass of a loop has slept. -/
theorem remaining_le {limit : ℕ} {start : ℤ} (hpause : 0 < pause) (hslept : start + pause ≤ earliest) :
    remaining (start + limit) pause earliest ≤ (limit / pause).toNat :=
  Int.toNat_le_toNat (Int.ediv_le_ediv hpause (by omega))

variable [IsStrictOrderedRing K]

/-- A deadline in seconds is one in nanoseconds. -/
theorem le_of_elapsed_le {timeout : K} {start : TimePoint} (h : elapsed now start ≤ timeout) :
    now ≤ start + wholeNanoseconds timeout := by
  have hscaled : ((now - start : ℤ) : K) ≤ timeout * 10 ^ 9 := (div_le_iff₀ (by positivity)).mp h
  have hfloor : now - start ≤ ⌊timeout * 10 ^ 9⌋ := Int.le_floor.mpr hscaled
  unfold wholeNanoseconds
  omega

end Passes

/-! ### The ends of a body -/

variable {s : Settings K} {g : TimePoint} {n : ℕ} {α : Type}

theorem halts_call_bind {o : Op K} {k : o.Answer → Operation K α} {Q : α → TimePoint → Prop}
    (h : ∀ a, (clock s).admits g o a → (clock s).Halts ((clock s).next g o a) n (k a) Q) :
    (clock s).Halts g (n + 1) (call o >>= k) Q := halts_act_bind h

theorem halts_call {o : Op K} {Q : o.Answer → TimePoint → Prop}
    (h : ∀ a, (clock s).admits g o a → Q a ((clock s).next g o a)) :
    (clock s).Halts g 1 (call o) Q := halts_perform fun a ha => halts_pure (h a ha)

/-- What does not look at the clock. -/
theorem halts_read {o : Op K} (h : ∀ a, (clock s).next g o a = g) :
    (clock s).Halts g 1 (call o) fun _ g' => g' = g := halts_call fun a _ => h a

/-- Three operations. -/
theorem halts_stopAlignment : (clock s).Halts g 3 stopAlignment fun _ _ => True := by
  refine halts_call_bind fun _ _ => ?_
  refine halts_call_bind fun _ _ => ?_
  exact halts_call fun _ _ => trivial

theorem halts_finish (result : FineAlign.Result K) (code : FineAlign.Code) (message : String) :
    (clock s).Halts g 5 (finish result code message) fun _ _ => True := by
  refine halts_stopAlignment.bind fun _ _ _ => ?_
  refine halts_call_bind fun _ _ => ?_
  exact halts_call fun _ _ => trivial

theorem halts_finishCanceledOrFailed (result : FineAlign.Result K) (code : FineAlign.Code)
    (message : String) :
    (clock s).Halts g 6 (finishCanceledOrFailed result code message) fun _ _ => True := by
  refine halts_call_bind fun canceling _ => ?_
  refine halts_ite (fun _ => ?_) fun _ => halts_finish _ _ _
  refine halts_stopAlignment.bind fun _ _ _ => ?_
  refine halts_call_bind fun _ _ => ?_
  exact halts_call fun _ _ => trivial

theorem halts_finishUndock (result : Undock.Result K) (code : Undock.Code) (message : String) :
    (clock s).Halts g 6 (finishUndock result code message) fun _ _ => True := by
  refine halts_stopAlignment.bind fun _ _ _ => ?_
  refine halts_call_bind fun canceling _ => ?_
  refine halts_ite (fun _ => ?_) fun _ => ?_
  all_goals
    refine halts_call_bind fun _ _ => ?_
    exact halts_call fun _ _ => trivial

theorem halts_finishRotate (result : RotateInPlace.Result K) (code : RotateInPlace.Code)
    (message : String) :
    (clock s).Halts g 5 (finishRotate result code message) fun _ _ => True := by
  refine halts_stopAlignment.bind fun _ _ _ => ?_
  refine halts_call_bind fun _ _ => ?_
  exact halts_call fun _ _ => trivial

theorem halts_finishInterrupted (result : FineAlign.Result K) :
    (clock s).Halts g 8 (finishInterrupted result) fun _ _ => True := by
  refine halts_call_bind fun _ _ => ?_
  refine halts_ite (fun _ => (halts_finish _ _ _).mono (by norm_num) fun _ _ h => h) fun _ => ?_
  exact halts_call_bind fun _ _ => halts_finishCanceledOrFailed _ _ _

theorem halts_finishAligned (goal : FineAlign.Goal) (attempt maximumAttempts : ℕ)
    (result : FineAlign.Result K) :
    (clock s).Halts g 6 (finishAligned goal attempt maximumAttempts result) fun _ _ => True := by
  refine halts_stopAlignment.bind fun _ _ _ => ?_
  refine halts_ite (fun _ => ?_) fun _ => ?_
  · refine halts_call_bind fun _ _ => ?_
    refine halts_call_bind fun _ _ => ?_
    exact halts_call fun _ _ => trivial
  · refine halts_call_bind (n := 2) fun _ _ => ?_
    exact (halts_call fun _ _ => trivial).mono (by norm_num) fun _ _ h => h

/-- What is returned after the operation has been ended. -/
theorem halts_leave {p : Operation K Unit} {k : ℕ} {x : α} {Q : α → TimePoint → Prop}
    (h : (clock s).Halts g k p fun _ _ => True) (hk : k ≤ n) (hq : ∀ g, Q x g) :
    (clock s).Halts g n (do p; return x) Q := by
  have hleft := h.bind (m := 0) (f := fun _ => return x) fun _ g _ => halts_pure (hq g)
  exact hleft.mono (by omega) fun _ _ h => h

/-- Two conditions, the second of which is read where the first does not hold. -/
theorem halts_either {p q : Operation K Bool} (hp : (clock s).Halts g n p fun _ g' => g' = g)
    {m : ℕ} (hq : (clock s).Halts g m q fun _ g' => g' = g) :
    (clock s).Halts g (m + n) (either p q) fun _ g' => g' = g := by
  refine hp.bind fun first g' h => ?_
  subst h
  exact halts_ite (fun _ => halts_pure rfl) fun _ => hq

theorem halts_choose {β : Type} {p : Operation K Bool} {x : β} {q : Operation K β}
    (hp : (clock s).Halts g n p fun _ _ => True) {m : ℕ}
    (hq : ∀ g, (clock s).Halts g m q fun _ _ => True) :
    (clock s).Halts g (m + n) (choose p x q) fun _ _ => True :=
  hp.bind fun _ g _ => halts_ite (fun _ => halts_pure trivial) fun _ => hq g

theorem halts_interruption {more : Operation K Bool} {k : ℕ}
    (h : (clock s).Halts g k more fun _ g' => g' = g) :
    (clock s).Halts g (k + 1 + 1) (either isCanceling <| either navigationActive more)
      fun _ g' => g' = g :=
  halts_either (halts_read fun _ => rfl) (halts_either (halts_read fun _ => rfl) h)

theorem halts_cause {more : Operation K Undock.Code} {k : ℕ}
    (h : ∀ g, (clock s).Halts g k more fun _ _ => True) :
    (clock s).Halts g (k + 1 + 1)
      (choose isCanceling .canceled <| choose navigationActive .navigationActive more)
      fun _ _ => True :=
  halts_choose (halts_call fun _ _ => trivial) fun _ =>
    halts_choose (halts_call fun _ _ => trivial) h

theorem halts_currentlyInvalid :
    (clock s).Halts g 1 (currentlyInvalid (K := K)) fun _ g' => g' = g :=
  halts_call_bind fun _ _ => halts_pure rfl

/-! ### Fine alignment -/

section FineAlignment
variable [IsStrictOrderedRing K] {m : Libm K}

/-- The loop goes on before a deadline that is a number. -/
theorem le_of_runningAt {start now : TimePoint} {timeout : Double K} (hfinite : timeout.isFinite = true)
    (h : runningAt start timeout now = true) : now ≤ start + wholeNanoseconds timeout.value := by
  cases timeout with
  | finite x => exact le_of_elapsed_le (le_of_lt (of_decide_eq_true h))
  | _ => cases hfinite

theorem halts_acquisitionPass (hs : s.Timed) {start : TimePoint} {minimumSequence : ℕ}
    {stage : FineAlign.Stage} {running : Bool} (x : Unit) :
    (clock s).Halts g 7 (acquisitionPass s start minimumSequence stage running x) fun r g' =>
      Sum.elim (fun _ => True ∧ remaining
        (start + wholeNanoseconds s.parameters.acquisitionTimeout.value) (10 ^ 8) g' < remaining
          (start + wholeNanoseconds s.parameters.acquisitionTimeout.value) (10 ^ 8) g)
        (fun _ => True) r := by
  refine halts_ite (fun _ => halts_pure trivial) fun _ => ?_
  refine halts_call_bind fun now hread => ?_
  refine halts_ite (fun _ => halts_pure trivial) fun hrunning => ?_
  rw [Bool.not_eq_true', Bool.not_eq_false] at hrunning
  have hgoes := le_of_runningAt hs.acquisition hrunning
  refine halts_call_bind fun _ _ => ?_
  refine halts_ite (fun _ => halts_pure trivial) fun _ => ?_
  refine halts_call_bind fun _ _ => ?_
  refine halts_ite (fun _ => halts_pure trivial) fun _ => ?_
  refine halts_call_bind fun measured _ => ?_
  obtain ⟨state, measurement⟩ := measured
  dsimp only
  split
  · exact halts_pure trivial
  refine halts_call_bind fun profile _ => ?_
  obtain ⟨profile, instanceId⟩ := profile
  refine halts_call_bind fun _ _ => ?_
  refine halts_call_bind fun _ _ => ?_
  exact halts_pure ⟨trivial, remaining_lt (by norm_num) hread hgoes le_rfl⟩

theorem halts_waitForMeasurement (hs : s.Timed) (minimumSequence : ℕ) (stage : FineAlign.Stage) :
    (clock s).Halts g (passes s.parameters.acquisitionTimeout.value (10 ^ 8) * 8 + 1)
      (waitForMeasurement s minimumSequence stage) fun _ _ => True := by
  refine halts_call_bind fun start _ => ?_
  exact halts_repeatWhile (fun _ _ => True) (fun _ => remaining
    (start + wholeNanoseconds s.parameters.acquisitionTimeout.value) (10 ^ 8))
    (fun x g running _ _ => halts_acquisitionPass hs x) trivial
    (remaining_lt_passes (by norm_num) le_rfl)

theorem halts_retryPass {start : TimePoint} {running : Bool} (x : Unit)
    (hfinite : s.parameters.retryDelay.isFinite = true) :
    (clock s).Halts g 4 (retryPass s start running x) fun r g' =>
      Sum.elim (fun _ => True ∧ remaining (start + wholeNanoseconds s.parameters.retryDelay.value)
        (10 ^ 8) g' < remaining (start + wholeNanoseconds s.parameters.retryDelay.value) (10 ^ 8) g)
        (fun _ => True) r := by
  refine halts_ite (fun _ => halts_call_bind fun _ _ => halts_pure trivial) fun _ => ?_
  refine halts_call_bind fun now hread => ?_
  refine halts_ite (fun _ => halts_call_bind fun _ _ => halts_pure trivial) fun hrunning => ?_
  rw [Bool.not_eq_true', Bool.not_eq_false] at hrunning
  have hgoes := le_of_runningAt hfinite hrunning
  refine halts_call_bind fun _ _ => ?_
  refine halts_ite (fun _ => halts_pure trivial) fun _ => ?_
  refine halts_call_bind fun _ _ => ?_
  refine halts_ite (fun _ => halts_pure trivial) fun _ => ?_
  refine halts_call_bind fun _ _ => ?_
  exact halts_pure ⟨trivial, remaining_lt (by norm_num) hread hgoes le_rfl⟩

omit [FloorRing K] [IsStrictOrderedRing K] in
theorem Settings.finite_retryDelay (s : Settings K) : s.parameters.retryDelay.isFinite = true := by
  have h := s.accepted
  simp only [Parameters.rejected, Bool.or_eq_false_iff, negative, Bool.not_eq_false'] at h
  tauto

/-- The operations before an attempt. -/
def Settings.delayLimit (s : Settings K) : ℕ := passes s.parameters.retryDelay.value (10 ^ 8) * 5 + 2

theorem halts_waitBeforeAttempt (attempt : ℕ) (result : FineAlign.Result K) :
    (clock s).Halts g s.delayLimit (waitBeforeAttempt s attempt result) fun _ _ => True := by
  refine halts_ite (fun _ => ?_) fun _ => halts_pure trivial
  refine halts_call_bind fun _ _ => ?_
  refine halts_call_bind fun start _ => ?_
  exact halts_repeatWhile (fun _ _ => True) (fun _ => remaining
    (start + wholeNanoseconds s.parameters.retryDelay.value) (10 ^ 8))
    (fun x g running _ _ => halts_retryPass x s.finite_retryDelay) trivial
    (remaining_lt_passes (by norm_num) le_rfl)

theorem halts_controlPass (hs : s.Timed) {start : TimePoint} {running : Bool} (a : Approach K) :
    (clock s).Halts g 9 (controlPass m s start running a) fun r g' =>
      Sum.elim (fun _ => True ∧ remaining (start + wholeNanoseconds s.parameters.approachTimeout.value)
        s.controllerPeriod g' < remaining
          (start + wholeNanoseconds s.parameters.approachTimeout.value) s.controllerPeriod g)
        (fun _ => True) r := by
  obtain ⟨result, control⟩ := a
  refine halts_ite (fun _ => halts_pure trivial) fun _ => ?_
  refine halts_call_bind fun _ _ => ?_
  refine halts_ite (fun _ => halts_pure trivial) fun _ => ?_
  refine halts_call_bind fun _ _ => ?_
  refine halts_ite (fun _ => halts_pure trivial) fun _ => ?_
  refine halts_call_bind fun _ _ => ?_
  refine halts_ite (fun _ => halts_pure trivial) fun _ => ?_
  refine halts_call_bind fun now hread => ?_
  refine halts_ite (fun _ => halts_pure trivial) fun hintime => ?_
  have hgoes : now ≤ start + wholeNanoseconds s.parameters.approachTimeout.value := by
    cases htimeout : s.parameters.approachTimeout with
    | finite x =>
      rw [htimeout] at hintime
      exact le_of_elapsed_le (not_lt.mp fun h => hintime (decide_eq_true h))
    | _ =>
      have hfinite := hs.approach
      rw [htimeout] at hfinite
      cases hfinite
  refine halts_call_bind fun measured _ => ?_
  obtain ⟨state, measurement⟩ := measured
  cases measurement with
  | none => exact halts_pure trivial
  | some x =>
    refine halts_ite (fun _ => halts_pure trivial) fun _ => ?_
    refine halts_ite (fun _ => halts_pure trivial) fun _ => ?_
    refine halts_call_bind fun controlTime hcontrol => ?_
    dsimp only
    split
    · refine halts_call_bind fun _ _ => ?_
      refine halts_call_bind fun _ _ => ?_
      refine halts_ite (fun _ => halts_pure trivial) fun _ => ?_
      refine halts_call_bind fun _ _ => ?_
      exact halts_pure ⟨trivial, remaining_lt hs.period hread hgoes (by exact add_le_add_left hcontrol _)⟩
    · exact halts_pure trivial

/-- The operations of an attempt. -/
def Settings.attemptLimit (s : Settings K) : ℕ :=
  passes s.parameters.approachTimeout.value s.controllerPeriod * 10 + 3 +
    (passes s.parameters.acquisitionTimeout.value (10 ^ 8) * 8 + 1)

theorem halts_runAttempt (hs : s.Timed) (goal : FineAlign.Goal) (result : FineAlign.Result K)
    (minimumSequence : ℕ) (stage : FineAlign.Stage) :
    (clock s).Halts g s.attemptLimit (runAttempt m s goal result minimumSequence stage)
      fun _ _ => True := by
  refine (halts_waitForMeasurement hs minimumSequence stage).bind fun measured g _ => ?_
  cases measured with
  | none =>
    have hcause : (clock s).Halts g 3 (do
        if ← isCanceling then
          return failed result .alignmentTimeout "fine alignment canceled"
        if ← navigationActive then
          return failed result .navigationActive "Nav2 became active"
        if !(← ok) then
          return failed result .safetyAbort "ROS shutdown interrupted alignment"
        return failed result .noStableTag
          (if minimumSequence = 0 then "no stable 1 Hz tag pose"
            else "no newer stable 1 Hz tag pose")) fun _ _ => True := by
      refine halts_call_bind fun _ _ => ?_
      refine halts_ite (fun _ => halts_pure trivial) fun _ => ?_
      refine halts_call_bind fun _ _ => ?_
      refine halts_ite (fun _ => halts_pure trivial) fun _ => ?_
      refine halts_call_bind fun _ _ => ?_
      exact halts_ite (fun _ => halts_pure trivial) fun _ => halts_pure trivial
    exact hcause.mono (Nat.le_add_left _ _) fun _ _ h => h
  | some x =>
    obtain ⟨state, x⟩ := x
    refine halts_ite (fun _ => halts_pure trivial) fun _ => ?_
    refine halts_ite (fun _ => halts_pure trivial) fun _ => ?_
    refine halts_ite (fun _ => halts_pure trivial) fun _ => ?_
    refine halts_call_bind fun _ _ => ?_
    refine halts_call_bind fun start _ => ?_
    refine halts_call_bind fun previous hprevious => ?_
    exact halts_repeatWhile (fun _ _ => True) (fun _ => remaining
      (start + wholeNanoseconds s.parameters.approachTimeout.value) s.controllerPeriod)
      (fun a g running _ _ => halts_controlPass hs a) trivial
      (remaining_lt_passes hs.period hprevious)

/-- Every attempt adds its own operations and those around it. -/
theorem halts_attempts (hs : s.Timed) (goal : FineAlign.Goal) (maximumAttempts remaining : ℕ)
    (result : FineAlign.Result K) (minimumSequence : ℕ) :
    (clock s).Halts g (remaining * (10 + s.attemptLimit + s.delayLimit))
      (attempts m s goal maximumAttempts remaining result minimumSequence) fun _ _ => True := by
  induction remaining generalizing g result minimumSequence with
  | zero => exact halts_pure trivial
  | succ remaining ih =>
    rw [Nat.succ_mul, ← Nat.add_assoc, ← Nat.add_assoc]
    refine (halts_waitBeforeAttempt _ result).bind fun waited g _ => ?_
    refine halts_ite (fun _ => ?_) fun _ => ?_
    · exact (halts_finishInterrupted result).mono (by omega) fun _ _ h => h
    refine (halts_runAttempt hs goal result minimumSequence _).bind fun attempted g _ => ?_
    obtain ⟨result, failure⟩ := attempted
    cases failure with
    | none =>
      exact (halts_finishAligned goal _ maximumAttempts result).mono (by omega) fun _ _ h => h
    | some failure =>
      refine (halts_stopAlignment.bind fun _ g _ => ?_ : (clock s).Halts g
        (remaining * (10 + s.attemptLimit + s.delayLimit) + 7 + 3) _ _)
      refine halts_call_bind fun canceling _ => ?_
      refine halts_ite (fun _ => ?_) fun _ => ?_
      · exact (halts_finishCanceledOrFailed _ _ _).mono (by omega) fun _ _ h => h
      refine halts_ite (fun _ => ?_) fun _ => ?_
      · exact (halts_finish _ _ _).mono (by omega) fun _ _ h => h
      · refine (halts_call_bind fun latest _ => ih result latest).mono (by omega) fun _ _ h => h

theorem halts_execute (hs : s.Timed) (goal : FineAlign.Goal) :
    (clock s).Halts g
      ((s.maximumRetries + 1) * (10 + s.attemptLimit + s.delayLimit) + 3)
      (execute m s goal) fun _ _ => True := by
  refine halts_call_bind fun resolved _ => ?_
  cases resolved with
  | none => exact (halts_finish _ _ _).mono (by rw [Nat.succ_mul]; omega) fun _ _ h => h
  | some profileId =>
    refine halts_call_bind fun _ _ => ?_
    refine halts_ite (fun _ => ?_) fun _ => ?_
    · exact (halts_finish _ _ _).mono (by rw [Nat.succ_mul]; omega) fun _ _ h => h
    refine halts_call_bind fun active _ => ?_
    refine (halts_attempts hs goal _ _ _ 0).mono (Nat.mul_le_mul_right _ ?_) fun _ _ h => h
    split
    · exact le_rfl
    · exact Nat.le_add_left 1 _

end FineAlignment

/-! ### Rotation in place -/

section Rotation
variable [IsStrictOrderedRing K]

/-- The passes that are left before the duration is over, once the rotation has started. -/
def rotationLeft (s : Settings K) (duration : K) (r : Rotating K) (earliest : TimePoint) : ℕ :=
  match r.2 with
  | none => (wholeNanoseconds duration / s.controllerPeriod).toNat + 1
  | some start => remaining (start + wholeNanoseconds duration) s.controllerPeriod earliest

theorem halts_rotationPass (hs : s.Timed) {goal : RotateInPlace.Goal K} {running : Bool}
    (r : Rotating K) :
    (clock s).Halts g 10 (rotationPass goal running r) fun r' g' =>
      Sum.elim (fun r' => True ∧ rotationLeft s goal.duration.value r' g' <
        rotationLeft s goal.duration.value r g) (fun _ => True) r' := by
  obtain ⟨result, start⟩ := r
  refine halts_ite (fun _ => halts_leave (halts_finishRotate _ _ _) (by norm_num) fun _ => trivial) fun _ => ?_
  refine halts_call_bind fun now hread => ?_
  refine halts_call_bind fun stopped _ => ?_
  refine halts_call_bind fun _ _ => ?_
  refine halts_ite (fun _ => halts_leave (halts_finishRotate _ _ _) (by norm_num) fun _ => trivial) fun _ => ?_
  refine halts_call_bind fun _ _ => ?_
  refine halts_ite (fun _ => halts_leave (halts_finishRotate _ _ _) (by norm_num) fun _ => trivial) fun _ => ?_
  refine halts_call_bind fun _ _ => ?_
  refine halts_ite (fun _ => halts_leave (halts_finishRotate _ _ _) (by norm_num) fun _ => trivial) fun _ => ?_
  refine halts_ite (fun _ => halts_leave (halts_finishRotate _ _ _) (by norm_num) fun _ => trivial) fun _ => ?_
  refine halts_ite (fun _ => halts_leave (halts_finishRotate _ _ _) (by norm_num) fun _ => trivial) fun hintime => ?_
  refine halts_call_bind (n := 4) fun _ _ => ?_
  refine halts_call_bind fun _ _ => ?_
  refine halts_call_bind fun _ _ => ?_
  refine halts_pure ⟨trivial, ?_⟩
  cases start with
  | none =>
    exact Nat.lt_succ_of_le (remaining_le hs.period le_rfl)
  | some start =>
    have hgoes : now ≤ start + wholeNanoseconds goal.duration.value := by
      refine le_of_elapsed_le (not_le.mp fun hover => hintime ?_).le
      exact Bool.and_eq_true_iff.mpr ⟨rfl, decide_eq_true hover⟩
    exact remaining_lt hs.period hread hgoes le_rfl

theorem halts_executeRotate (hs : s.Timed) (goal : RotateInPlace.Goal K) :
    (clock s).Halts g (passes goal.duration.value s.controllerPeriod * 11 + 5)
      (executeRotate s goal) fun _ _ => True := by
  refine halts_ite (fun _ => ?_) fun _ => ?_
  · exact (halts_finishRotate _ _ _).mono (Nat.le_add_left 5 _) fun _ _ h => h
  have hstart : rotationLeft s goal.duration.value (⟨false, .success, "", 0⟩, none) g <
      passes goal.duration.value s.controllerPeriod := Nat.lt_succ_self _
  have hloop : (clock s).Halts g (passes goal.duration.value s.controllerPeriod * (10 + 1))
      (.repeatWhile .ok (rotationPass goal) (⟨false, .success, "", 0⟩, none)) fun _ _ => True :=
    halts_repeatWhile (fun _ _ => True) (rotationLeft s goal.duration.value)
      (fun r g running _ _ => halts_rotationPass hs r) trivial hstart
  exact hloop.mono (Nat.le_add_right _ 5) fun _ _ h => h

end Rotation

/-! ### Undocking -/

section Undocking
variable [IsStrictOrderedRing K] {m : Libm K}

/-- The passes that are left of a timed retreat, which commands before it looks at the time. -/
def reverseLeft (s : Settings K) (start : TimePoint) (r : Reversing K) (earliest : TimePoint) : ℕ :=
  if r.2 then remaining (start + wholeNanoseconds s.undockTimeout) s.controllerPeriod earliest
  else (wholeNanoseconds s.undockTimeout / s.controllerPeriod).toNat + 1

theorem halts_timedPass (hs : s.Timed) {profile : DockingProfile K} {start : TimePoint}
    {running : Bool} (r : Reversing K) (hstart : start ≤ g) :
    (clock s).Halts g 13 (timedPass s profile start running r) fun r' g' =>
      Sum.elim (fun r' => start ≤ g' ∧ reverseLeft s start r' g' < reverseLeft s start r g)
        (fun _ => True) r' := by
  obtain ⟨result, commanded⟩ := r
  refine halts_ite (fun _ => halts_leave (halts_finishUndock _ _ _) (by norm_num) fun _ => trivial)
    fun _ => ?_
  refine halts_call_bind fun now hread => ?_
  refine halts_call_bind fun state _ => ?_
  refine halts_call_bind fun stopped _ => ?_
  refine (halts_interruption (k := 0) (halts_pure rfl)).bind fun interrupted time htime => ?_
  subst htime
  refine halts_ite (fun _ => ?_) fun _ => ?_
  · exact (halts_cause (k := 0) fun _ => halts_pure trivial).bind fun code _ _ =>
      halts_leave (halts_finishUndock _ _ _) le_rfl fun _ => trivial
  refine halts_ite (fun _ => halts_leave (halts_finishUndock _ _ _) (by norm_num) fun _ => trivial)
    fun htimeout => ?_
  refine halts_ite (fun _ => ?_) fun hduration => ?_
  · refine halts_stopAlignment.bind (m := 5) fun _ _ _ => ?_
    refine halts_call_bind fun _ _ => ?_
    refine halts_call_bind fun _ _ => ?_
    exact halts_pure trivial
  refine halts_call_bind fun _ _ => ?_
  refine halts_call_bind fun _ _ => ?_
  refine halts_call_bind fun _ _ => ?_
  have hslept : start + s.controllerPeriod ≤ time + s.controllerPeriod :=
    add_le_add_left (hstart.trans hread) _
  refine halts_pure ⟨by exact (le_add_of_nonneg_right hs.period.le).trans hslept, ?_⟩
  cases commanded with
  | false => exact Nat.lt_succ_of_le (remaining_le hs.period hslept)
  | true =>
    have hgoes : time ≤ start + wholeNanoseconds s.undockTimeout := by
      refine le_of_elapsed_le (not_lt.mp fun hover => ?_)
      -- the earlier of the two deadlines has passed
      rcases lt_or_ge s.undockTimeout profile.timedReverseDuration with hlt | hge
      · exact htimeout ⟨hlt, hover.le⟩
      · exact hduration (hge.trans hover.le)
    exact remaining_lt hs.period hread hgoes le_rfl

theorem halts_executeTimedUndock (hs : s.Timed) (result : Undock.Result K)
    (profile : DockingProfile K) :
    (clock s).Halts g (passes s.undockTimeout s.controllerPeriod * 14 + 2)
      (executeTimedUndock s result profile) fun _ _ => True := by
  refine halts_call_bind fun start _ => ?_
  refine halts_call_bind fun _ _ => ?_
  exact halts_repeatWhile (fun _ earliest => start ≤ earliest) (reverseLeft s start)
    (fun r g running h _ => halts_timedPass hs r h) (by exact le_rfl) (Nat.lt_succ_self _)

theorem halts_undockAcquisitionPass (hs : s.Timed) {validating : Undock.Feedback K}
    {result : Undock.Result K} {start : TimePoint} {running : Bool} (x : Unit) :
    (clock s).Halts g 14 (undockAcquisitionPass s validating result start running x) fun r g' =>
      Sum.elim (fun _ => True ∧ remaining
        (start + wholeNanoseconds s.parameters.acquisitionTimeout.value) s.controllerPeriod g' <
          remaining (start + wholeNanoseconds s.parameters.acquisitionTimeout.value)
            s.controllerPeriod g) (fun _ => True) r := by
  refine halts_ite (fun _ => halts_pure trivial) fun _ => ?_
  refine halts_call_bind fun measured _ => ?_
  obtain ⟨state, measurement⟩ := measured
  cases measurement with
  | some x => exact halts_pure trivial
  | none =>
    have hothers : (clock s).Halts g 2 (either collisionStopTimedOut currentlyInvalid)
        fun _ g' => g' = g :=
      halts_either (halts_read (o := .collisionStopTimedOut) fun _ => rfl) halts_currentlyInvalid
    refine (halts_interruption hothers).bind fun interrupted time htime => ?_
    subst htime
    refine halts_ite (fun _ => ?_) fun _ => ?_
    · have hcode : ∀ g, (clock s).Halts g 1 (choose currentlyInvalid Undock.Code.invalidState
          (return .collisionStopped)) fun _ _ => True := fun g =>
        halts_choose (halts_currentlyInvalid.mono le_rfl fun _ _ _ => trivial)
          fun _ => halts_pure (n := 0) trivial
      exact (halts_cause hcode).bind fun code _ _ =>
        halts_leave (halts_finishUndock _ _ _) le_rfl fun _ => trivial
    refine halts_call_bind fun now hread => ?_
    refine halts_ite (fun _ => halts_leave (halts_finishUndock _ _ _) (by norm_num) fun _ => trivial)
      fun hintime => ?_
    have hgoes : now ≤ start + wholeNanoseconds s.parameters.acquisitionTimeout.value := by
      cases htimeout : s.parameters.acquisitionTimeout with
      | finite x =>
        rw [htimeout] at hintime
        exact le_of_elapsed_le (not_le.mp fun h => hintime (decide_eq_true h)).le
      | _ =>
        have hfinite := hs.acquisition
        rw [htimeout] at hfinite
        cases hfinite
    refine halts_call_bind fun _ _ => ?_
    refine halts_call_bind fun _ _ => ?_
    exact halts_pure ⟨trivial, remaining_lt hs.period hread hgoes le_rfl⟩

theorem halts_undockPass (hs : s.Timed) {undockStart start : TimePoint}
    {initial : Rigid.Isometry3 K} {running : Bool} (r : Retreat K) :
    (clock s).Halts g 13 (undockPass m s undockStart start initial running r) fun r' g' =>
      Sum.elim (fun _ => True ∧ remaining (start + wholeNanoseconds s.undockTimeout)
        s.controllerPeriod g' < remaining (start + wholeNanoseconds s.undockTimeout)
          s.controllerPeriod g) (fun _ => True) r' := by
  obtain ⟨result, control⟩ := r
  refine halts_ite (fun _ => halts_leave (halts_finishUndock _ _ _) (by norm_num) fun _ => trivial)
    fun _ => ?_
  have hstopped : (clock s).Halts g 1 (collisionStopTimedOut (K := K)) fun _ g' => g' = g :=
    halts_read fun _ => rfl
  refine (halts_interruption hstopped).bind fun interrupted time htime => ?_
  subst htime
  refine halts_ite (fun _ => ?_) fun _ => ?_
  · refine Halts.mono (n := 6 + 2) ?_ (by norm_num) fun _ _ h => h
    exact (halts_cause (k := 0) fun _ => halts_pure trivial).bind fun code _ _ =>
      halts_leave (halts_finishUndock _ _ _) le_rfl fun _ => trivial
  refine halts_call_bind fun now hread => ?_
  refine halts_ite (fun _ => halts_leave (halts_finishUndock _ _ _) (by norm_num) fun _ => trivial)
    fun hintime => ?_
  have hgoes := le_of_elapsed_le (not_le.mp hintime).le
  refine halts_call_bind fun measured _ => ?_
  obtain ⟨state, measurement⟩ := measured
  cases measurement with
  | none => exact halts_leave (halts_finishUndock _ _ _) (by norm_num) fun _ => trivial
  | some x =>
    refine halts_ite (fun _ => halts_leave (halts_finishUndock _ _ _) (by norm_num) fun _ => trivial)
      fun _ => ?_
    refine halts_call_bind fun controlTime hcontrol => ?_
    dsimp only
    split
    · refine halts_call_bind fun _ _ => ?_
      refine halts_call_bind fun _ _ => ?_
      refine halts_ite (fun _ => ?_) fun _ => ?_
      · refine halts_stopAlignment.bind (m := 2) fun _ _ _ => ?_
        refine halts_call_bind fun _ _ => ?_
        refine halts_call_bind fun _ _ => ?_
        exact halts_pure trivial
      · refine halts_call_bind fun _ _ => ?_
        exact halts_pure ⟨trivial,
          remaining_lt hs.period hread hgoes (by exact add_le_add_left hcontrol _)⟩
    · exact halts_leave (halts_finishUndock _ _ _) (by norm_num) fun _ => trivial

/-- The operations of undocking by the tag. -/
def Settings.retreatLimit (s : Settings K) : ℕ :=
  passes s.undockTimeout s.controllerPeriod * 14 + 7 +
    passes s.parameters.acquisitionTimeout.value s.controllerPeriod * 15 + 2

theorem halts_undockTagRelative (hs : s.Timed) (validating : Undock.Feedback K)
    (result : Undock.Result K) :
    (clock s).Halts g s.retreatLimit (undockTagRelative m s validating result) fun _ _ => True := by
  unfold Settings.retreatLimit
  generalize hmotion : passes s.undockTimeout s.controllerPeriod = motion
  refine halts_call_bind fun undockStart _ => ?_
  refine halts_call_bind fun start _ => ?_
  have hacquisition : (clock s).Halts start
      (passes s.parameters.acquisitionTimeout.value s.controllerPeriod * (14 + 1))
      (.repeatWhile .ok (undockAcquisitionPass s validating result start) ()) fun _ _ => True :=
    halts_repeatWhile (fun _ _ => True)
      (fun _ => remaining (start + wholeNanoseconds s.parameters.acquisitionTimeout.value)
        s.controllerPeriod) (fun x g running _ _ => halts_undockAcquisitionPass hs x) trivial
      (remaining_lt_passes hs.period le_rfl)
  refine hacquisition.bind fun acquired g _ => ?_
  cases acquired with
  | none => exact halts_pure trivial
  | some initial =>
    refine halts_call_bind fun _ _ => ?_
    refine halts_ite (fun _ => ?_) fun _ => ?_
    · exact (halts_finishUndock _ _ _).mono (Nat.le_add_left _ _) fun _ _ h => h
    refine Halts.mono (n := motion * 14 + 3) ?_ (by omega) fun _ _ h => h
    refine halts_call_bind fun _ _ => ?_
    refine halts_call_bind fun start _ => ?_
    refine halts_call_bind fun previous hprevious => ?_
    exact halts_repeatWhile (fun _ _ => True) (fun _ => remaining
      (start + wholeNanoseconds s.undockTimeout) s.controllerPeriod)
      (fun r g running _ _ => halts_undockPass hs r) trivial
      (hmotion ▸ remaining_lt_passes hs.period hprevious)

theorem halts_executeUndock (hs : s.Timed) (goal : Undock.Goal) :
    (clock s).Halts g (s.retreatLimit + 5) (executeUndock m s goal) fun _ _ => True := by
  have htimed : passes s.undockTimeout s.controllerPeriod * 14 + 2 ≤ s.retreatLimit := by
    unfold Settings.retreatLimit
    omega
  have hseven : 7 ≤ s.retreatLimit := by
    unfold Settings.retreatLimit
    omega
  refine halts_call_bind fun state _ => ?_
  refine halts_call_bind fun resolved _ => ?_
  cases resolved with
  | none => exact (halts_finishUndock _ _ _).mono (by omega) fun _ _ h => h
  | some profileId =>
    refine halts_call_bind fun active _ => ?_
    obtain ⟨profile, instanceId⟩ := active
    refine halts_call_bind fun _ _ => ?_
    refine halts_call_bind fun _ _ => ?_
    refine halts_ite (fun _ => ?_) fun _ => ?_
    · exact (halts_finishUndock _ _ _).mono (by omega) fun _ _ h => h
    refine halts_ite (fun _ => ?_) fun _ => ?_
    · exact (halts_finishUndock _ _ _).mono (by omega) fun _ _ h => h
    cases profile.undockMode with
    | timedReverse => exact (halts_executeTimedUndock hs _ profile).mono htimed fun _ _ h => h
    | tagRelative => exact halts_undockTagRelative hs _ _

end Undocking

/-! ### Every body -/

/-- The number of operations after which the body of a goal has ended. -/
def Settings.limit (s : Settings K) : Goal K → ℕ
  | .fineAlign _ => (s.maximumRetries + 1) * (10 + s.attemptLimit + s.delayLimit) + 3
  | .undock _ => s.retreatLimit + 5
  | .rotate goal => passes goal.duration.value s.controllerPeriod * 11 + 5

theorem halts_body [IsStrictOrderedRing K] (m : Libm K) (hs : s.Timed) (goal : Goal K) :
    (clock s).Halts g (s.limit goal) (body m s goal) fun _ _ => True := by
  cases goal with
  | fineAlign goal => exact halts_execute hs goal
  | undock goal => exact halts_executeUndock hs goal
  | rotate goal => exact halts_executeRotate hs goal

end X2Navigation.FineAlignServer
