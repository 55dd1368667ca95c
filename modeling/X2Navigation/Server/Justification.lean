import X2Navigation.Docking.Steering
import X2Navigation.Server.Reasons

/-! Every body accounts for its end: one statement for each part of it. -/

namespace X2Navigation.FineAlignServer

open Rigid Interaction

variable {K : Type} [Field K] [LinearOrder K] {m : Libm K} {settings : Settings K}
  {past : List (OpEvent K)}

/-! ### The controller -/

/-- An accepted configuration never lets the controller reject a finite error. -/
theorem control_step_isSome [IsStrictOrderedRing K] {config : HolonomicFineAlignConfig K}
    (hconfig : ControllerAccepted config settings.motionConfig) (error rawError observed : PlanarError K)
    (sequence : ℕ) (controlTime : TimePoint) (c : Control K) :
    (c.step m settings config error rawError observed sequence controlTime).isSome := by
  have hvalid : validHolonomicFineAlignConfig
      (DockingMotionController.movingConfig config settings.motionConfig) = true := by
    have hv := hconfig.valid
    simp only [validHolonomicFineAlignConfig, decide_eq_true_eq] at hv ⊢
    obtain ⟨h1, h2, h3, h4, h5, h6, h7, h8, h9, h10⟩ := hv
    exact ⟨h1, h2, h3, h4, h5, h6, h7, ConfirmedAxis.dockingStopTolerance_pos h8 _,
      ConfirmedAxis.dockingStopTolerance_pos h9 _, ConfirmedAxis.dockingStopTolerance_pos h10 _⟩
  have hrequested : ∀ s : DockingMotionController K,
      DockingMotionController.requestedCommand config settings.motionConfig m error s ≠ none := by
    intro s
    simp [DockingMotionController.requestedCommand, holonomicFineAlignCommand, hvalid]
  have hupdate : ∀ (dt : K) (newObservation : Bool) (s : DockingMotionController K),
      (DockingMotionController.update config settings.motionConfig m error.finite dt newObservation
        s).2 ≠ none := by
    intro dt newObservation s
    unfold DockingMotionController.update
    simp only [PlanarError.isFinite_finite, PlanarError.values_finite, Bool.not_true,
      Bool.false_eq_true, if_false]
    split
    · next hnone => exact absurd hnone (hrequested _)
    · exact Option.some_ne_none _
  unfold Control.step
  dsimp only
  split
  · next hnone => exact absurd (congrArg Prod.snd hnone) (hupdate _ _ _)
  · rfl

omit [LinearOrder K] in
theorem steered_passed (it : Iteration K) : ∀ e ∈ it.passed, Steered Commanding e := by
  simp [Iteration.passed, Iteration.events, Steered, Op.Steers, Commanding]

/-- The passes of a control loop do nothing but command. -/
theorem steered_of_passes {gauge : Gauge K} {ρ β : Type}
    {pass : Bool → ρ × Control K → Operation K ((ρ × Control K) ⊕ β)} {x y : ρ × Control K}
    {tr : List (OpEvent K)} (hpass : GoesOn m settings gauge pass) (hx : x.2.settling = .new)
    (h : @Program.Passes (interface K) _ _ Op.ok pass x tr y) : ∀ e ∈ tr, Steered Commanding e := by
  obtain ⟨its, rfl, -, -⟩ := passes_iterations hpass hx h
  rintro e he
  obtain ⟨it, -, he⟩ := List.mem_flatMap.mp he
  exact steered_passed it e he

/-! ### Fine alignment -/

section FineAlignment
variable {request : FineAlign.Goal} {result : FineAlign.Result K} {code : FineAlign.Code}
  {message : String}

theorem justify_finish
    (h : Flickered past ∨ alignmentReason m settings past request result.finalError code) :
    (justifying m settings (.fineAlign request)).Safe past (finish result code message)
      fun _ _ => True := by
  refine justify_stop (justify_terminate ?_)
  exact h.imp (·.append _) fun h => ⟨request, rfl, rfl, h.mono (.stop past)⟩

theorem justify_finishCanceledOrFailed
    (h : Flickered past ∨ alignmentReason m settings past request result.finalError code) :
    (justifying m settings (.fineAlign request)).Safe past (finishCanceledOrFailed result code message)
      fun _ _ => True := by
  refine justify_see rfl fun canceling => ?_
  have hread : OnlyChecks past (past ++ [⟨.isCanceling, canceling⟩]) := .last past rfl
  cases canceling with
  | false => exact justify_finish (h.imp (·.append _) (·.mono hread))
  | true =>
    refine justify_stop (justify_terminate ?_)
    refine h.imp (fun h => (h.append _).append _) fun h =>
      ⟨request, rfl, rfl, h.mono (hread.trans (OnlyChecks.stop _)), ?_⟩
    exact (found_last rfl).mono (OnlyChecks.stop _)

/-- The last checks came upon a cause to end. -/
def Interrupted (past : List (OpEvent K)) : Prop :=
  Found past ⟨.ok, false⟩ ∨ Found past ⟨.isCanceling, true⟩ ∨ Found past ⟨.navigationActive, true⟩

/-- How a wait for a measurement can end. -/
def Acquired (settings : Settings K) (minimumSequence : ℕ) (past : List (OpEvent K)) :
    Option (ManipulationState × Measurement K) → Prop
  | some (state, x) => LastDid past ⟨.stableMeasurement, (state, some x)⟩
  | none => Interrupted past ∨ ∃ start during now,
      Lasted past [⟨.steadyNow, start⟩] (Waits (·.sequence ≤ minimumSequence)) during now ∧
        Double.numLT (elapsed now start) settings.parameters.acquisitionTimeout = false

section Acquisition
variable {goal : Goal K} {minimumSequence : ℕ} {stage : FineAlign.Stage}

/-- Since `start` the operation has waited. -/
def WaitedSince (past : List (OpEvent K)) (start : TimePoint) (old : Measurement K → Prop)
    (past' : List (OpEvent K)) : Prop :=
  ∃ during, past' = past ++ [⟨.steadyNow, start⟩] ++ during ∧ ∀ e ∈ during, Waits old e

theorem justify_acquisitionPass {past' : List (OpEvent K)} {start : TimePoint} {running : Bool}
    (h : WaitedSince past start (·.sequence ≤ minimumSequence) past') :
    (justifying m settings goal).Safe (past' ++ [⟨.ok, running⟩])
      (acquisitionPass settings start minimumSequence stage running ()) fun r past'' =>
        Sum.elim (fun _ => WaitedSince past start (·.sequence ≤ minimumSequence) past'')
          (Acquired settings minimumSequence past'') r := by
  obtain ⟨during, rfl, hduring⟩ := h
  unfold acquisitionPass
  cases running with
  | false => exact justify_return (.inl (.inl (found_last rfl)))
  | true =>
  refine justify_see rfl fun now => ?_
  refine Discipline.safe_ite (fun hexpired => ?_) fun _ => ?_
  · refine justify_return (.inr ⟨start, during ++ [⟨.ok, true⟩], now, lasted_last past (by simp) ?_, ?_⟩)
    · exact List.forall_mem_append.mpr ⟨hduring, by simp [Waits, Op.Steers]⟩
    · simpa [runningAt] using hexpired
  refine justify_see rfl fun canceling => ?_
  cases canceling with
  | true => exact justify_return (.inl (.inr (.inl (found_last rfl))))
  | false =>
  refine justify_see rfl fun navigation => ?_
  cases navigation with
  | true => exact justify_return (.inl (.inr (.inr (found_last rfl))))
  | false =>
  refine justify_see rfl fun (state, measurement) => ?_
  dsimp only
  split
  · next x hnewer =>
    obtain ⟨rfl, -⟩ := Option.filter_eq_some_iff.mp hnewer
    exact justify_return (lastDid_last rfl)
  · next hnone =>
    have hold : ∀ x, measurement = some x → x.sequence ≤ minimumSequence := by
      rintro x rfl
      by_contra hnewer
      exact hnone x (Option.filter_eq_some_iff.mpr ⟨rfl, by simpa using hnewer⟩)
    refine justify_see rfl fun _ => ?_
    refine justify_see rfl fun _ => ?_
    refine justify_see rfl fun _ => justify_return ?_
    simp only [List.append_assoc]
    refine ⟨_, (List.append_assoc _ _ _).symm, List.forall_mem_append.mpr ⟨hduring, ?_⟩⟩
    simpa [Waits, Op.Steers] using fun (_ : ManipulationState) x (_ : state = _) => hold x

theorem justify_waitForMeasurement :
    (justifying m settings goal).Safe past (waitForMeasurement settings minimumSequence stage)
      fun r past' => Acquired settings minimumSequence past' r := by
  refine justify_see rfl fun start => ?_
  refine justify_whileOk (fun _ => WaitedSince past start (·.sequence ≤ minimumSequence))
    (fun _ _ _ _ h => justify_acquisitionPass h) ⟨[], by simp, by simp⟩

theorem justify_retryPass {start : TimePoint} {running : Bool} :
    (justifying m settings goal).Safe (past ++ [⟨.ok, running⟩]) (retryPass settings start running ())
      fun r past' => Sum.elim (fun _ => True) (fun b => b = false → Interrupted past') r := by
  unfold retryPass
  cases running with
  | false =>
    refine justify_see rfl fun running => justify_return fun _ => ?_
    exact .inl ((found_last rfl).mono (.last _ rfl))
  | true =>
  refine justify_see rfl fun now => ?_
  refine Discipline.safe_ite (fun _ => ?_) fun _ => ?_
  · refine justify_see rfl fun running => justify_return ?_
    rintro rfl
    exact .inl (found_last rfl)
  refine justify_see rfl fun canceling => ?_
  cases canceling with
  | true => exact justify_return fun _ => .inr (.inl (found_last rfl))
  | false =>
  refine justify_see rfl fun navigation => ?_
  cases navigation with
  | true => exact justify_return fun _ => .inr (.inr (found_last rfl))
  | false => exact justify_see rfl fun _ => justify_return trivial

theorem justify_waitBeforeAttempt {attempt : ℕ} :
    (justifying m settings goal).Safe past (waitBeforeAttempt settings attempt result)
      fun b past' => b = false → Interrupted past' := by
  refine Discipline.safe_ite (fun _ => ?_) fun _ => justify_return nofun
  refine justify_see rfl fun _ => ?_
  refine justify_see rfl fun start => ?_
  exact justify_whileOk (fun _ _ => True) (fun _ _ _ _ _ => justify_retryPass) trivial

end Acquisition

/-- An attempt gives the reason for its failure; one that is not executed succeeds in place. -/
def Explained (m : Libm K) (settings : Settings K) (request : FineAlign.Goal)
    (past : List (OpEvent K)) : Attempted K → Prop
  | (result, some failure) =>
    Flickered past ∨ alignmentReason m settings past request result.finalError failure.code
  | (result, none) => request.execute = false → InPlace m settings past result

theorem justify_controlPass [IsStrictOrderedRing K] {before during past : List (OpEvent K)}
    {start : TimePoint} {running : Bool} {a : Approach K} (hexecute : request.execute = true)
    (hpast : past = before ++ opening start ++ during) (hduring : ∀ e ∈ during, Steered Commanding e) :
    (justifying m settings (.fineAlign request)).Safe (past ++ [⟨.ok, running⟩])
      (controlPass m settings start running a) fun r past' =>
        Sum.elim (fun _ => True) (Explained m settings request past') r := by
  obtain ⟨result, control⟩ := a
  subst hpast
  unfold controlPass
  cases running with
  | false => exact justify_return (.inr (found_last rfl))
  | true =>
  refine justify_see rfl fun canceling => ?_
  cases canceling with
  | true => exact justify_return (.inr (.inl (found_last rfl)))
  | false =>
  refine justify_see rfl fun navigation => ?_
  cases navigation with
  | true => exact justify_return (.inr (found_last rfl))
  | false =>
  refine justify_see rfl fun stopped => ?_
  cases stopped with
  | true => exact justify_return (.inr (found_last rfl))
  | false =>
  refine justify_see rfl fun now => ?_
  refine Discipline.safe_ite (fun hexpired => ?_) fun _ => ?_
  · refine justify_return (.inr (.inr (.inr (.inl ⟨start, during ++ [⟨.ok, true⟩,
      ⟨.isCanceling, false⟩, ⟨.navigationActive, false⟩, ⟨.collisionStopTimedOut, false⟩], now,
      lasted_last before (by simp) ?_, hexpired⟩))))
    exact List.forall_mem_append.mpr ⟨hduring, by simp [Steered, Op.Steers]⟩
  refine justify_see rfl fun (state, measurement) => ?_
  cases measurement with
  | none => exact justify_return (.inr (.inl ⟨state, lastDid_last rfl⟩))
  | some x =>
  refine Discipline.safe_ite (fun hinvalid => ?_) fun _ => ?_
  · exact justify_return (.inr ⟨state, x, by simpa using hinvalid, lastDid_last rfl⟩)
  refine Discipline.safe_ite (fun houtside => ?_) fun _ => ?_
  · exact justify_return (.inr ⟨state, x, lastDid_last rfl, rfl, by simpa using houtside⟩)
  refine justify_see rfl fun controlTime => ?_
  dsimp only
  split
  · refine justify_see rfl fun _ => ?_
    refine justify_see rfl fun _ => ?_
    refine Discipline.safe_ite (fun _ => justify_return ?_) fun _ => ?_
    · exact fun hnot => absurd (hexecute.symm.trans hnot) (by decide)
    · exact justify_see rfl fun _ => justify_return trivial
  · next hrejected =>
    have hsome := control_step_isSome (m := m) settings.controllerAccepted.1
      (currentError m x.target) x.rawError x.rawError x.sequence controlTime control
    obtain ⟨y, hy⟩ := Option.isSome_iff_exists.mp hsome
    exact (hrejected _ _ hy).elim

omit [Field K] [LinearOrder K] in
/-- What was come upon is gone. -/
theorem Interrupted.vanished (h : Interrupted past) :
    Flickered (past ++ [⟨.isCanceling, false⟩] ++ [⟨.navigationActive, false⟩] ++ [⟨.ok, true⟩]) ∨
      Vanished (past ++ [⟨.isCanceling, false⟩] ++ [⟨.navigationActive, false⟩] ++ [⟨.ok, true⟩]) := by
  have hcanceling : OnlyChecks past (past ++ [⟨.isCanceling, false⟩]) := .last _ rfl
  have hnavigation : OnlyChecks (past ++ [⟨.isCanceling, false⟩])
      (past ++ [⟨.isCanceling, false⟩] ++ [⟨.navigationActive, false⟩]) := .last _ rfl
  rcases h with h | h | h
  · exact .inl (flickered_last (by simp [h.mem]))
  · have hgone := h.followed ⟨.isCanceling, false⟩ rfl
    exact .inr (.inl (hgone.mono (hnavigation.snoc rfl)))
  · have hgone := (h.mono hcanceling).followed ⟨.navigationActive, false⟩ rfl
    exact .inr (.inr (.inl (hgone.mono (.last _ rfl))))

theorem justify_runAttempt [IsStrictOrderedRing K] {minimumSequence : ℕ} {stage : FineAlign.Stage}
    (hminimum : minimumSequence = 0 ∨ ⟨.latestStableTargetSequence, minimumSequence⟩ ∈ past) :
    (justifying m settings (.fineAlign request)).Safe past
      (runAttempt m settings request result minimumSequence stage)
      fun a past' => Explained m settings request past' a := by
  refine justify_bind justify_waitForMeasurement fun measured tr _ hmeasured => ?_
  replace hminimum : minimumSequence = 0 ∨
      ⟨.latestStableTargetSequence, minimumSequence⟩ ∈ past ++ tr :=
    hminimum.imp_right (List.mem_append_left tr)
  generalize past ++ tr = past at hmeasured hminimum ⊢
  cases measured with
  | none =>
    -- the cause is read again
    refine justify_see rfl fun canceling => ?_
    cases canceling with
    | true => exact justify_return (.inr (.inl (found_last rfl)))
    | false =>
    refine justify_see rfl fun navigation => ?_
    cases navigation with
    | true => exact justify_return (.inr (found_last rfl))
    | false =>
    refine justify_see rfl fun running => ?_
    cases running with
    | false => exact justify_return (.inr (found_last rfl))
    | true =>
    refine justify_return ?_
    rcases hmeasured with h | ⟨start, during, now, hlasted, hlong⟩
    · exact h.vanished.imp_right fun h => .inr (.inr h)
    · have hacquired : NeverAcquired settings past :=
        ⟨minimumSequence, start, during, now, hminimum, hlasted, hlong⟩
      exact .inr (.inr (.inl (hacquired.mono (((OnlyChecks.last _ rfl).snoc rfl).snoc rfl))))
  | some measured =>
    obtain ⟨state, x⟩ := measured
    refine Discipline.safe_ite (fun hinvalid => ?_) fun hvalid => ?_
    · exact justify_return (.inr ⟨state, x, by simpa using hinvalid, hmeasured⟩)
    refine Discipline.safe_ite (fun houtside => ?_) fun hinside => ?_
    · exact justify_return (.inr ⟨state, x, hmeasured, rfl, .inl (by simpa using houtside)⟩)
    refine Discipline.safe_ite (fun _ => justify_return fun _ => ?_) fun hexecute => ?_
    · exact ⟨state, x, hmeasured, by simpa using hvalid, rfl, rfl, by simpa using hinside⟩
    refine justify_see rfl fun _ => ?_
    refine justify_see rfl fun start => ?_
    refine justify_see rfl fun time => ?_
    refine justify_whileOk (fun _ _ => True) (fun a during running hpasses _ => ?_) trivial
    have hduring : ∀ e ∈ during, Steered Commanding e :=
      steered_of_passes (controlPass_goesOn m settings start) rfl hpasses
    have hopened : past ++ [⟨.setAlignmentActive true, ()⟩] ++ [⟨.steadyNow, start⟩] ++
        [⟨.steadyNow, time⟩] ++ during = past ++ opening start ++ (⟨.steadyNow, time⟩ :: during) := by
      simp [opening]
    refine justify_controlPass (by simpa using hexecute) hopened ?_
    exact List.forall_mem_cons.mpr ⟨nofun, hduring⟩

theorem justify_finishInterrupted (h : Interrupted past) :
    (justifying m settings (.fineAlign request)).Safe past (finishInterrupted result)
      fun _ _ => True := by
  refine justify_see rfl fun navigation => ?_
  cases navigation with
  | true => exact justify_finish (.inr (found_last rfl))
  | false =>
  refine justify_see rfl fun running => justify_finishCanceledOrFailed (.inr ?_)
  have hread : OnlyChecks past (past ++ [⟨.navigationActive, false⟩] ++ [⟨.ok, running⟩]) :=
    (OnlyChecks.last _ rfl).snoc rfl
  rcases h with h | h | h
  · exact .inr (.inl (h.mono hread))
  · exact .inl (h.mono hread)
  · have hgone := h.followed ⟨.navigationActive, false⟩ rfl
    exact .inr (.inr (.inr (.inr (.inl (hgone.mono (.last _ rfl))))))

theorem justify_finishAligned {attempt maximumAttempts : ℕ}
    (hsettled : request.execute = true → EndsSettled m settings (dockGauge m settings) past [])
    (hplace : request.execute = false → InPlace m settings past result) :
    (justifying m settings (.fineAlign request)).Safe past
      (finishAligned request attempt maximumAttempts result) fun _ _ => True := by
  refine justify_stop ?_
  refine Discipline.safe_ite (fun hexecute => ?_) fun hexecute => ?_
  · refine justify_see rfl fun _ => justify_terminate (.inr ⟨request, rfl, rfl, rfl, fun _ => ?_, ?_⟩)
    · rw [List.append_assoc]
      exact (hsettled hexecute).ending _
    · exact fun hnot => absurd hexecute (by simp [hnot])
  · refine justify_terminate (.inr ⟨request, rfl, rfl, rfl, fun h => absurd h hexecute, fun hnot => ?_⟩)
    exact (hplace hnot).mono (.stop past)

theorem justify_attempts [IsStrictOrderedRing K] {maximumAttempts remaining minimumSequence : ℕ}
    (hminimum : minimumSequence = 0 ∨ ⟨.latestStableTargetSequence, minimumSequence⟩ ∈ past) :
    (justifying m settings (.fineAlign request)).Safe past
      (attempts m settings request maximumAttempts remaining result minimumSequence)
      fun _ _ => True := by
  induction remaining generalizing past result minimumSequence with
  | zero => exact justify_return trivial
  | succ remaining ih =>
    refine justify_bind justify_waitBeforeAttempt fun waited tr _ hwaited => ?_
    cases waited with
    | false => exact justify_finishInterrupted (hwaited rfl)
    | true =>
    refine justify_bind (justify_runAttempt (hminimum.imp_right (List.mem_append_left tr)))
      fun (result, failure) tr' hrun hexplained => ?_
    cases failure with
    | none =>
      refine justify_finishAligned (fun hexecute => ?_) hexplained
      exact (runAttempt_endsSettled m settings hexecute hrun).append _
    | some failure =>
    refine justify_stop ?_
    refine justify_see rfl fun canceling => ?_
    have hread : OnlyChecks (past ++ tr ++ tr')
        (past ++ tr ++ tr' ++ stopCalls ++ [⟨.isCanceling, canceling⟩]) :=
      (OnlyChecks.stop _).trans (OnlyChecks.last _ rfl)
    have hreason := hexplained.imp (fun h => (h.append stopCalls).append [⟨.isCanceling, canceling⟩])
      fun h => h.mono hread
    refine Discipline.safe_ite (fun _ => justify_finishCanceledOrFailed hreason) fun _ => ?_
    refine Discipline.safe_ite (fun _ => justify_finish hreason) fun _ => ?_
    exact justify_see rfl fun latest => ih (.inr (by simp))

theorem justify_execute [IsStrictOrderedRing K] :
    (justifying m settings (.fineAlign request)).Safe past (execute m settings request)
      fun _ _ => True := by
  refine justify_see rfl fun resolved => ?_
  cases resolved with
  | none => exact justify_finish (.inr (lastDid_last rfl))
  | some profileId =>
  refine justify_see rfl fun navigation => ?_
  cases navigation with
  | true => exact justify_finish (.inr (found_last rfl))
  | false => exact justify_see rfl fun (profile, instanceId) => justify_attempts (.inl rfl)

end FineAlignment

/-- A pass that ends the operation leaves its loop. -/
theorem justify_left {goal : Goal K} {σ β : Type} {I : σ → List (OpEvent K) → Prop}
    {Q : β → List (OpEvent K) → Prop} {b : β} {p : Operation K Unit}
    (h : (justifying m settings goal).Safe past p fun _ _ => True) (hb : ∀ past', Q b past') :
    (justifying m settings goal).Safe past (p >>= fun _ => (pure (.inr b) : Operation K (σ ⊕ β)))
      fun r past' => Sum.elim (I · past') (Q · past') r :=
  justify_bind h fun _ _ _ _ => justify_return (hb _)

/-! ### Rotation -/

section Rotation
variable {request : RotateInPlace.Goal K} {result : RotateInPlace.Result K}
  {code : RotateInPlace.Code} {message : String}

theorem justify_finishRotate (h : rotationReason settings past request code) :
    (justifying m settings (.rotate request)).Safe past (finishRotate result code message)
      fun _ _ => True := by
  refine justify_stop (justify_terminate (.inr ⟨request, rfl, ?_⟩))
  have h' := h.mono (.stop past)
  cases code with
  | success => exact h.elim
  | canceled => exact ⟨rfl, h', h'⟩
  | _ => exact ⟨rfl, h'⟩

theorem justify_rotated (h : Rotated past request) :
    (justifying m settings (.rotate request)).Safe past (finishRotate result .success message)
      fun _ _ => True :=
  justify_stop (justify_terminate (.inr ⟨request, rfl, rfl, rfl, h.mono (.stop past)⟩))

/-- Since its first command the operation has only rotated the robot. -/
def Rotating.Started (request : RotateInPlace.Goal K) (r : Rotating K) (past : List (OpEvent K)) : Prop :=
  ∀ start ∈ r.2, ∃ before during, past = before ++ [⟨.steadyNow, start⟩] ++ during ∧
    (∀ e ∈ during, Steered (Turning request) e) ∧
    ⟨.writeRotation request.angularSpeed.value start, ()⟩ ∈ during

theorem justify_rotationPass {running : Bool} {r : Rotating K} (h : r.Started request past) :
    (justifying m settings (.rotate request)).Safe (past ++ [⟨.ok, running⟩])
      (rotationPass request running r) fun r past' =>
        Sum.elim (Rotating.Started request · past') (fun _ => True) r := by
  obtain ⟨result, start⟩ := r
  unfold rotationPass
  cases running with
  | false => exact justify_left (justify_finishRotate (found_last rfl)) fun _ => trivial
  | true =>
  refine justify_see rfl fun now => ?_
  refine justify_see rfl fun stopped => ?_
  refine justify_see rfl fun canceling => ?_
  cases canceling with
  | true => exact justify_left (justify_finishRotate (found_last rfl)) fun _ => trivial
  | false =>
  refine justify_see rfl fun navigation => ?_
  cases navigation with
  | true => exact justify_left (justify_finishRotate (found_last rfl)) fun _ => trivial
  | false =>
  refine justify_see rfl fun state => ?_
  -- after the clock there were only checks
  have hread : OnlyChecks (past ++ [⟨.ok, true⟩] ++ [⟨.steadyNow, now⟩])
      (past ++ [⟨.ok, true⟩] ++ [⟨.steadyNow, now⟩] ++ [⟨.collisionStopped, stopped⟩] ++
        [⟨.isCanceling, false⟩] ++ [⟨.navigationActive, false⟩] ++ [⟨.currentManipulationState, state⟩]) :=
    (((OnlyChecks.last _ rfl).snoc rfl).snoc rfl).snoc rfl
  refine Discipline.safe_ite (fun hinvalid => ?_) fun _ => ?_
  · exact justify_left (justify_finishRotate ⟨state, by simpa using hinvalid, found_last rfl⟩)
      fun _ => trivial
  refine Discipline.safe_ite (fun hstopped => ?_) fun _ => ?_
  · subst hstopped
    refine justify_left (justify_finishRotate ?_) fun _ => trivial
    have hfound : Found (past ++ [⟨.ok, true⟩] ++ [⟨.steadyNow, now⟩] ++ [⟨.collisionStopped, true⟩])
      ⟨.collisionStopped, true⟩ := found_last rfl
    exact hfound.mono (((OnlyChecks.last _ rfl).snoc rfl).snoc rfl)
  refine Discipline.safe_ite (fun hdone => ?_) fun _ => ?_
  · cases start with
    | none => simp at hdone
    | some start =>
      obtain ⟨before, during, rfl, hduring, hcommanded⟩ := h start rfl
      refine justify_left (justify_rotated (Rotated.mono ?_ hread)) fun _ => trivial
      refine ⟨start, during ++ [⟨.ok, true⟩], now, lasted_last before (by simp) ?_, ?_, ?_⟩
      · exact List.forall_mem_append.mpr ⟨hduring, by simp [Steered, Op.Steers]⟩
      · exact List.mem_append_left _ hcommanded
      · simpa using hdone
  refine justify_see rfl fun _ => ?_
  refine justify_see rfl fun _ => ?_
  refine justify_see rfl fun _ => justify_return ?_
  rintro first hfirst
  cases start with
  | none =>
    obtain rfl : now = first := by simpa using hfirst
    simp only [List.append_assoc past, List.append_assoc [_]]
    refine ⟨past ++ [⟨.ok, true⟩], _, (List.append_assoc _ _ _).symm.trans (List.append_assoc _ _ _).symm,
      ?_, ?_⟩
    · simp [Steered, Op.Steers, Turning]
    · simp
  | some start =>
    obtain rfl : start = first := by simpa using hfirst
    obtain ⟨before, during, rfl, hduring, hcommanded⟩ := h start rfl
    simp only [List.append_assoc]
    refine ⟨before, _, rfl, List.forall_mem_append.mpr ⟨hduring, ?_⟩, ?_⟩
    · simp [Steered, Op.Steers, Turning]
    · exact List.mem_append_left _ hcommanded

theorem justify_executeRotate :
    (justifying m settings (.rotate request)).Safe past (executeRotate settings request)
      fun _ _ => True := by
  refine Discipline.safe_ite (fun hinvalid => justify_finishRotate hinvalid) fun _ => ?_
  exact justify_whileOk (Rotating.Started request) (fun r _ running _ h => justify_rotationPass h) nofun

end Rotation

/-! ### Undocking -/

section Undocking
variable {request : Undock.Goal} {result : Undock.Result K} {code : Undock.Code} {message : String}

theorem justify_finishUndock (h : undockReason settings past request code) :
    (justifying m settings (.undock request)).Safe past (finishUndock result code message)
      fun _ _ => True := by
  refine justify_stop (justify_see rfl fun canceling => ?_)
  cases canceling with
  | false =>
    refine justify_terminate (.inr ⟨request, rfl, rfl, ?_⟩)
    exact h.mono ((OnlyChecks.stop past).trans (OnlyChecks.last _ rfl))
  | true => exact justify_terminate (.inr ⟨request, rfl, rfl, found_last rfl, found_last rfl⟩)

theorem justify_undocked {β : Type} {I : β → List (OpEvent K) → Prop}
    (hresult : result.success = true ∧ result.errorCode = .success)
    (h : Flickered past ∨ Undocked m settings (past ++ stopCalls)) :
    (justifying m settings (.undock request)).Safe past (stopAlignment >>= fun _ =>
      terminate .succeed (.undock result) >>= fun _ => release >>= fun _ =>
        (pure (.inr ()) : Operation K (β ⊕ Unit)))
      fun r past' => Sum.elim (I · past') (fun _ => True) r := by
  refine justify_stop (Discipline.safe_act_bind.mpr ⟨fun _ => ?_, fun _ => ?_⟩)
  · exact h.imp (·.append _) fun h => ⟨request, rfl, hresult.1, hresult.2, h⟩
  · exact justify_see rfl fun _ => justify_return trivial

theorem justify_either {goal : Goal K} {α : Type} {first second : Operation K Bool}
    {k : Bool → Operation K α} {Q : α → List (OpEvent K) → Prop}
    (h : (justifying m settings goal).Safe past
      (first >>= fun b => if b = true then k true else second >>= k) Q) :
    (justifying m settings goal).Safe past (either first second >>= k) Q := by
  rw [either_bind]
  exact h

theorem justify_currentlyInvalid {goal : Goal K} {α : Type} {k : Bool → Operation K α}
    {Q : α → List (OpEvent K) → Prop}
    (h : (justifying m settings goal).Safe past
      (call .currentManipulationState >>= fun state => k (!validState state)) Q) :
    (justifying m settings goal).Safe past (currentlyInvalid >>= k) Q := h

/-- The cause is read again. What is named then is there, or what was found has vanished. -/
theorem justify_cause {R : Prop} {otherwise : Operation K Undock.Code}
    (h : Found past ⟨.isCanceling, true⟩ ∨ Found past ⟨.navigationActive, true⟩ ∨ R)
    (hotherwise : R ∨ Vanished (past ++ [⟨.isCanceling, false⟩] ++ [⟨.navigationActive, false⟩]) →
      (justifying m settings (.undock request)).Safe
        (past ++ [⟨.isCanceling, false⟩] ++ [⟨.navigationActive, false⟩]) otherwise
        fun code past' => undockReason settings past' request code) :
    (justifying m settings (.undock request)).Safe past
      (choose isCanceling .canceled (choose navigationActive .navigationActive otherwise))
      fun code past' => undockReason settings past' request code := by
  refine justify_see rfl fun canceling => ?_
  cases canceling with
  | true => exact justify_return (found_last rfl)
  | false =>
  refine justify_see rfl fun navigation => ?_
  cases navigation with
  | true => exact justify_return (found_last rfl)
  | false =>
  refine hotherwise ?_
  have hread : OnlyChecks past (past ++ [⟨.isCanceling, false⟩]) := .last _ rfl
  rcases h with h | h | h
  · exact .inr (.inl ((h.followed ⟨.isCanceling, false⟩ rfl).mono (.last _ rfl)))
  · exact .inr (.inr (.inl ((h.mono hread).followed ⟨.navigationActive, false⟩ rfl)))
  · exact .inl h

/-- The operation names the cause, and ends. -/
theorem justify_blamed {σ β : Type} {I : σ → List (OpEvent K) → Prop} {Q : β → List (OpEvent K) → Prop}
    {b : β} {R : Prop} {otherwise : Operation K Undock.Code}
    (h : Found past ⟨.isCanceling, true⟩ ∨ Found past ⟨.navigationActive, true⟩ ∨ R)
    (hotherwise : R ∨ Vanished (past ++ [⟨.isCanceling, false⟩] ++ [⟨.navigationActive, false⟩]) →
      (justifying m settings (.undock request)).Safe
        (past ++ [⟨.isCanceling, false⟩] ++ [⟨.navigationActive, false⟩]) otherwise
        fun code past' => undockReason settings past' request code) (hb : ∀ past', Q b past') :
    (justifying m settings (.undock request)).Safe past
      (choose isCanceling .canceled (choose navigationActive .navigationActive otherwise) >>= fun code =>
        finishUndock result code message >>= fun _ => (pure (.inr b) : Operation K (σ ⊕ β)))
      fun r past' => Sum.elim (I · past') (Q · past') r :=
  justify_bind (justify_cause h hotherwise) fun _ _ _ hcode => justify_left (justify_finishUndock hcode) hb

/-- Since `start` the operation has only reversed the robot. -/
def Reversing.Started (before : List (OpEvent K)) (profile : DockingProfile K) (start : TimePoint)
    (r : Reversing K) (past : List (OpEvent K)) : Prop :=
  ∃ during, past = before ++ timedOpening start ++ during ∧
    (∀ e ∈ during, Steered (Reversal profile) e) ∧
    (r.2 = true → ∃ time, ⟨.writeCommand (reverseCommand profile) (some time), ()⟩ ∈ during)

theorem undockTimeout_pos (settings : Settings K) : 0 < settings.undockTimeout := by
  have h := settings.accepted
  simp only [Parameters.rejected, Bool.or_eq_false_iff] at h
  exact Settings.not_notPositive (by tauto)

/-- A timed undocking is interrupted. -/
theorem justify_timedInterrupted {σ : Type} {I : σ → List (OpEvent K) → Prop}
    {state : ManipulationState} {stopped : Bool}
    (hstate : Found past ⟨.currentManipulationState, state⟩)
    (hstopped : Found past ⟨.collisionStopped, stopped⟩)
    (h : Found past ⟨.isCanceling, true⟩ ∨ Found past ⟨.navigationActive, true⟩ ∨
      stopped = true ∨ validState state = false) :
    (justifying m settings (.undock request)).Safe past
      (choose isCanceling .canceled (choose navigationActive .navigationActive
        (return if stopped then .collisionStopped else .invalidState)) >>= fun code =>
          finishUndock result code message >>= fun _ => (pure (.inr ()) : Operation K (σ ⊕ Unit)))
      fun r past' => Sum.elim (I · past') (fun _ => True) r := by
  refine justify_blamed h (fun hor => justify_return ?_) fun _ => trivial
  have hread : OnlyChecks past (past ++ [⟨.isCanceling, false⟩] ++ [⟨.navigationActive, false⟩]) :=
    (OnlyChecks.last _ rfl).snoc rfl
  cases stopped with
  | true => exact .inl (hstopped.mono hread)
  | false =>
    rcases hor with (hfalse | hinvalid) | hvanished
    · cases hfalse
    · exact .inr (.inl ⟨state, hinvalid, hstate.mono hread⟩)
    · exact .inr (.inr (.inr hvanished))

theorem justify_timedPass {before : List (OpEvent K)} {profile : DockingProfile K}
    (instanceId : String) {start : TimePoint} {running : Bool} {r : Reversing K}
    (hprofile : ⟨.activeProfile, (profile, instanceId)⟩ ∈ before)
    (hmode : profile.undockMode = .timedReverse) (h : r.Started before profile start past) :
    (justifying m settings (.undock request)).Safe (past ++ [⟨.ok, running⟩])
      (timedPass settings profile start running r) fun r past' =>
        Sum.elim (Reversing.Started before profile start · past') (fun _ => True) r := by
  obtain ⟨result, commandedMotion⟩ := r
  obtain ⟨during, rfl, hduring, hcommanded⟩ := h
  unfold timedPass
  cases running with
  | false => exact justify_left (justify_finishUndock (found_last rfl)) fun _ => trivial
  | true =>
  refine justify_see rfl fun controlTime => ?_
  refine justify_see rfl fun state => ?_
  refine justify_see rfl fun stopped => ?_
  -- after the clock there were only checks
  generalize hpast : before ++ timedOpening start ++ during ++ [⟨.ok, true⟩] ++
    [⟨.steadyNow, controlTime⟩] = clocked
  have hstate : Found (clocked ++ [⟨.currentManipulationState, state⟩] ++ [⟨.collisionStopped, stopped⟩])
      ⟨.currentManipulationState, state⟩ := (found_last rfl).mono (.last _ rfl)
  have hstopped : Found (clocked ++ [⟨.currentManipulationState, state⟩] ++ [⟨.collisionStopped, stopped⟩])
      ⟨.collisionStopped, stopped⟩ := found_last rfl
  have hread : OnlyChecks clocked
      (clocked ++ [⟨.currentManipulationState, state⟩] ++ [⟨.collisionStopped, stopped⟩]) :=
    (OnlyChecks.last _ rfl).snoc rfl
  have hduring' : ∀ e ∈ during ++ [⟨.ok, true⟩], Steered (Reversal profile) e :=
    List.forall_mem_append.mpr ⟨hduring, by simp [Steered, Op.Steers]⟩
  have hlasted : Lasted clocked (timedOpening start) (Steered (Reversal profile))
      (during ++ [⟨.ok, true⟩]) controlTime := lasted_last before (by simp [← hpast]) hduring'
  generalize hread' : clocked ++ [⟨.currentManipulationState, state⟩] ++
    [⟨.collisionStopped, stopped⟩] = past at hstate hstopped hread ⊢
  refine justify_either (justify_see rfl fun canceling => ?_)
  cases canceling with
  | true =>
    exact justify_timedInterrupted (hstate.mono (.last _ rfl)) (hstopped.mono (.last _ rfl))
      (.inl (found_last rfl))
  | false =>
  refine justify_either (justify_see rfl fun navigation => ?_)
  have hmore : OnlyChecks past (past ++ [⟨.isCanceling, false⟩] ++ [⟨.navigationActive, navigation⟩]) :=
    (OnlyChecks.last _ rfl).snoc rfl
  cases navigation with
  | true =>
    exact justify_timedInterrupted (hstate.mono hmore) (hstopped.mono hmore)
      (.inr (.inl (found_last rfl)))
  | false =>
  show (justifying m settings (.undock request)).Safe _ (if (stopped || !validState state) = true then _ else _) _
  refine Discipline.safe_ite (fun hinterrupted => ?_) fun _ => ?_
  · exact justify_timedInterrupted (hstate.mono hmore) (hstopped.mono hmore)
      (.inr (.inr (by simpa using hinterrupted)))
  refine Discipline.safe_ite (fun hexpired => ?_) fun _ => ?_
  · refine justify_left (justify_finishUndock ?_) fun _ => trivial
    cases commandedMotion with
    | false => exact absurd hexpired.2 (not_le.mpr (undockTimeout_pos settings))
    | true =>
      have hoverdue : UndockOverdue settings clocked := by
        refine ⟨start, during ++ [⟨.ok, true⟩], controlTime, .inr (hlasted.imp fun o hreverses => ?_),
          hexpired.2⟩
        obtain ⟨time, rfl⟩ := hreverses
        exact ⟨_, _, rfl⟩
      exact hoverdue.mono (hread.trans hmore)
  refine Discipline.safe_ite (fun hdone => ?_) fun _ => ?_
  · refine justify_undocked ⟨rfl, rfl⟩ (.inr (.inl ?_))
    have hreversed : Reversed clocked := by
      refine ⟨profile, instanceId, start, during ++ [⟨.ok, true⟩], controlTime, ?_, hmode, hlasted,
        fun hpos => ?_⟩
      · rw [← hpast]
        simp [hprofile]
      · cases commandedMotion with
        | false => exact absurd hdone (not_le.mpr hpos)
        | true =>
          obtain ⟨time, htime⟩ := hcommanded rfl
          exact ⟨⟨time, List.mem_append_left _ htime⟩, hdone⟩
    exact hreversed.mono ((hread.trans hmore).trans (OnlyChecks.stop _))
  refine justify_see rfl fun _ => ?_
  refine justify_see rfl fun _ => ?_
  refine justify_see rfl fun _ => justify_return ?_
  subst hread' hpast
  unfold Reversing.Started
  simp only [List.append_assoc]
  refine ⟨_, rfl, List.forall_mem_append.mpr ⟨hduring, ?_⟩, fun _ => ⟨controlTime, ?_⟩⟩
  · simp [Steered, Op.Steers, Reversal, reverseCommand]
  · simp [reverseCommand]

theorem justify_executeTimedUndock {profile : DockingProfile K} (instanceId : String)
    (hprofile : ⟨.activeProfile, (profile, instanceId)⟩ ∈ past)
    (hmode : profile.undockMode = .timedReverse) :
    (justifying m settings (.undock request)).Safe past (executeTimedUndock settings result profile)
      fun _ _ => True := by
  refine justify_see rfl fun start => ?_
  refine justify_see rfl fun _ => ?_
  refine justify_whileOk (Reversing.Started past profile start)
    (fun _ _ _ _ h => justify_timedPass instanceId hprofile hmode h) ⟨[], ?_, by simp, nofun⟩
  simp [timedOpening]

/-- How the acquisition of an undocking can end. -/
def Sighted (front past : List (OpEvent K)) : Option (Option (Isometry3 K)) → Prop
  | none => True
  | some none => ⟨.ok, false⟩ ∈ past
  | some (some initial) => ∃ during state x,
      past = front ++ during ++ [⟨.stableMeasurement, (state, some x)⟩] ∧ x.target = initial ∧
        ∀ e ∈ during, e.1.Arms = false

/-- The acquisition is interrupted. -/
theorem justify_acquisitionInterrupted {σ : Type} {I : σ → List (OpEvent K) → Prop}
    {front : List (OpEvent K)}
    (h : Found past ⟨.isCanceling, true⟩ ∨ Found past ⟨.navigationActive, true⟩ ∨
      Found past ⟨.collisionStopTimedOut, true⟩ ∨ FoundInvalid past) :
    (justifying m settings (.undock request)).Safe past
      (choose isCanceling .canceled (choose navigationActive .navigationActive
        (choose currentlyInvalid .invalidState (return .collisionStopped))) >>= fun code =>
          finishUndock result code message >>= fun _ =>
            (pure (.inr none) : Operation K (σ ⊕ Option (Option (Isometry3 K)))))
      fun r past' => Sum.elim (I · past') (fun a => Sighted front past' a) r := by
  refine justify_blamed h (fun hor => ?_) fun _ => trivial
  refine justify_currentlyInvalid (justify_see rfl fun state => ?_)
  have hread : OnlyChecks past (past ++ [⟨.isCanceling, false⟩] ++ [⟨.navigationActive, false⟩]) :=
    (OnlyChecks.last _ rfl).snoc rfl
  refine Discipline.safe_ite (fun hinvalid => justify_return ?_) fun hvalid => justify_return ?_
  · exact .inr (.inl ⟨state, by simpa using hinvalid, found_last rfl⟩)
  · rcases hor with (hcollision | ⟨before, hbefore, hfound⟩) | hvanished
    · exact .inr (.inl (hcollision.mono (hread.trans (OnlyChecks.last _ rfl))))
    · have hgone := (hfound.mono hread).followed ⟨.currentManipulationState, state⟩ rfl
      exact .inr (.inr (.inr (.inr ⟨before, state, hbefore, by simpa using hvalid, hgone⟩)))
    · exact .inr (.inr (hvanished.mono (.last _ rfl)))

theorem justify_undockAcquisitionPass {front : List (OpEvent K)} {validating : Undock.Feedback K}
    {start : TimePoint} {running : Bool} (h : WaitedSince front start (fun _ => False) past) :
    (justifying m settings (.undock request)).Safe (past ++ [⟨.ok, running⟩])
      (undockAcquisitionPass settings validating result start running ()) fun r past' =>
        Sum.elim (fun _ => WaitedSince front start (fun _ => False) past') (fun a => Sighted front past' a) r := by
  obtain ⟨during, rfl, hduring⟩ := h
  unfold undockAcquisitionPass
  cases running with
  | false => exact justify_return (found_last rfl).mem
  | true =>
  refine justify_see rfl fun (state, measurement) => ?_
  cases measurement with
  | some x =>
    refine justify_return ⟨⟨.steadyNow, start⟩ :: (during ++ [⟨.ok, true⟩]), state, x, by simp, rfl, ?_⟩
    refine List.forall_mem_cons.mpr ⟨rfl, List.forall_mem_append.mpr ⟨fun e he => ?_, by simp [Op.Arms]⟩⟩
    exact Op.not_arms_of_not_steers (hduring e he).1
  | none =>
  refine justify_either (justify_see rfl fun canceling => ?_)
  cases canceling with
  | true => exact justify_acquisitionInterrupted (.inl (found_last rfl))
  | false =>
  refine justify_either (justify_see rfl fun navigation => ?_)
  cases navigation with
  | true => exact justify_acquisitionInterrupted (.inr (.inl (found_last rfl)))
  | false =>
  refine justify_either (justify_see rfl fun stopped => ?_)
  cases stopped with
  | true => exact justify_acquisitionInterrupted (.inr (.inr (.inl (found_last rfl))))
  | false =>
  refine justify_currentlyInvalid (justify_see rfl fun state' => ?_)
  refine Discipline.safe_ite (fun hinvalid => ?_) fun _ => ?_
  · exact justify_acquisitionInterrupted
      (.inr (.inr (.inr ⟨state', by simpa using hinvalid, found_last rfl⟩)))
  refine justify_see rfl fun now => ?_
  refine Discipline.safe_ite (fun hexpired => ?_) fun _ => ?_
  · refine justify_left (justify_finishUndock (.inr ⟨start, during ++ [⟨.ok, true⟩,
      ⟨.stableMeasurement, (state, none)⟩, ⟨.isCanceling, false⟩, ⟨.navigationActive, false⟩,
      ⟨.collisionStopTimedOut, false⟩, ⟨.currentManipulationState, state'⟩], now,
      lasted_last front (by simp) ?_, hexpired⟩)) fun _ => trivial
    exact List.forall_mem_append.mpr ⟨hduring, by simp [Waits, Op.Steers]⟩
  refine justify_see rfl fun _ => ?_
  refine justify_see rfl fun _ => justify_return ?_
  simp only [List.append_assoc]
  refine ⟨_, (List.append_assoc _ _ _).symm, List.forall_mem_append.mpr ⟨hduring, ?_⟩⟩
  simp [Waits, Op.Steers]

/-- The initial pose was measured for a tag-relative profile, before the robot was moved. -/
def Acquainted (initial : Isometry3 K) (past : List (OpEvent K)) : Prop :=
  ∃ before profile instanceId state x since,
    past = before ++ ⟨.stableMeasurement, (state, some x)⟩ :: since ∧
    ⟨.activeProfile, (profile, instanceId)⟩ ∈ before ∧ profile.undockMode = .tagRelative ∧
    (∀ e ∈ before, e.1.Arms = false) ∧ x.target = initial

theorem Acquainted.retreated {initial : Isometry3 K} {later : List (OpEvent K)}
    (h : Acquainted initial past)
    (hsettled : EndsSettled m settings (undockGauge m settings initial) later stopCalls) :
    Retreated m settings (past ++ later) := by
  obtain ⟨before, profile, instanceId, state, x, since, rfl, hprofile, hmode, harms, rfl⟩ := h
  exact ⟨before, profile, instanceId, state, x, since ++ later, by simp, hprofile, hmode, harms,
    hsettled.append since⟩

/-- The loop is interrupted. -/
theorem justify_retreatInterrupted
    (h : Found past ⟨.isCanceling, true⟩ ∨ Found past ⟨.navigationActive, true⟩ ∨
      Found past ⟨.collisionStopTimedOut, true⟩) :
    (justifying m settings (.undock request)).Safe past
      (choose isCanceling .canceled (choose navigationActive .navigationActive
        (return .collisionStopped)) >>= fun code =>
          finishUndock result code message >>= fun _ => (pure (.inr ()) : Operation K (Retreat K ⊕ Unit)))
      fun r _ => Sum.elim (fun _ => True) (fun _ => True) r := by
  refine justify_blamed h (fun hor => justify_return ?_) fun _ => trivial
  have hread : OnlyChecks past (past ++ [⟨.isCanceling, false⟩] ++ [⟨.navigationActive, false⟩]) :=
    (OnlyChecks.last _ rfl).snoc rfl
  exact .inr (hor.imp_left fun h => h.mono hread)

theorem justify_undockPass [IsStrictOrderedRing K] (front : List (OpEvent K)) {tr : List (OpEvent K)}
    {undockStart start time : TimePoint} {initial : Isometry3 K} {running : Bool}
    {result : Undock.Result K} {r : Retreat K} (hacquainted : Flickered past ∨ Acquainted initial past)
    (hopened : past = front ++ opening start ++ [⟨.steadyNow, time⟩])
    (hpasses : @Program.Passes (interface K) _ _ Op.ok
      (undockPass m settings undockStart start initial) (result, Control.new time) tr r) :
    (justifying m settings (.undock request)).Safe (past ++ tr ++ [⟨.ok, running⟩])
      (undockPass m settings undockStart start initial running r) fun r _ =>
        Sum.elim (fun _ => True) (fun _ => True) r := by
  have hsteered : ∀ e ∈ tr, Steered Commanding e :=
    steered_of_passes (undockPass_goesOn m settings undockStart start initial) rfl hpasses
  obtain ⟨result, control⟩ := r
  unfold undockPass
  cases running with
  | false => exact justify_left (justify_finishUndock (found_last rfl)) fun _ => trivial
  | true =>
  refine justify_either (justify_see rfl fun canceling => ?_)
  cases canceling with
  | true => exact justify_retreatInterrupted (.inl (found_last rfl))
  | false =>
  refine justify_either (justify_see rfl fun navigation => ?_)
  cases navigation with
  | true => exact justify_retreatInterrupted (.inr (.inl (found_last rfl)))
  | false =>
  refine justify_see rfl fun stopped => ?_
  cases stopped with
  | true => exact justify_retreatInterrupted (.inr (.inr (found_last rfl)))
  | false =>
  simp only [Bool.false_eq_true, if_false]
  refine justify_see rfl fun now => ?_
  refine Discipline.safe_ite (fun hexpired => ?_) fun _ => ?_
  · refine justify_left (justify_finishUndock ⟨start, ⟨.steadyNow, time⟩ :: (tr ++ [⟨.ok, true⟩,
      ⟨.isCanceling, false⟩, ⟨.navigationActive, false⟩, ⟨.collisionStopTimedOut, false⟩]), now,
      .inl (lasted_last front (by simp [hopened]) ?_), hexpired⟩) fun _ => trivial
    refine List.forall_mem_cons.mpr ⟨nofun, List.forall_mem_append.mpr ⟨hsteered, ?_⟩⟩
    simp [Steered, Op.Steers]
  refine justify_see rfl fun (state, measurement) => ?_
  cases measurement with
  | none => exact justify_left (justify_finishUndock (.inl ⟨state, lastDid_last rfl⟩)) fun _ => trivial
  | some x =>
  refine Discipline.safe_ite (fun hinvalid => ?_) fun hvalid => ?_
  · exact justify_left (justify_finishUndock
      (.inr (.inr (.inl ⟨state, x, by simpa using hinvalid, lastDid_last rfl⟩)))) fun _ => trivial
  refine justify_see rfl fun controlTime => ?_
  dsimp only
  split
  · next control' output hstep =>
    refine justify_see rfl fun _ => ?_
    refine justify_see rfl fun _ => ?_
    refine Discipline.safe_ite (fun hcompleted => ?_) fun _ => ?_
    · have hcontrols (feedback : Feedback K) : Controls m settings (undockGauge m settings initial)
          ⟨now, state, x, controlTime, output.command, some controlTime, feedback⟩ control control'
          true := hcompleted ▸ controls_of_step (by simpa using hvalid) hstep rfl
      refine justify_undocked ⟨rfl, rfl⟩ ?_
      simp only [List.append_assoc]
      refine hacquainted.imp (·.append _) fun h => .inr (h.retreated ?_)
      exact endsSettled_of_passes (undockPass_goesOn m settings undockStart start initial) rfl
        hpasses (hcontrols _) stopCalls
    · exact justify_see rfl fun _ => justify_return trivial
  · next hrejected =>
    have hsome := control_step_isSome (m := m) settings.controllerAccepted.2
      (undockError m settings initial x.target)
      (undockError m settings initial (planarPose m x.rawError)) x.rawError x.sequence controlTime
      control
    obtain ⟨y, hy⟩ := Option.isSome_iff_exists.mp hsome
    exact (hrejected _ _ hy).elim

theorem justify_undockTagRelative [IsStrictOrderedRing K] {profile : DockingProfile K}
    (instanceId : String) {validating : Undock.Feedback K}
    (hprofile : ⟨.activeProfile, (profile, instanceId)⟩ ∈ past)
    (hmode : profile.undockMode = .tagRelative) (harms : ∀ e ∈ past, e.1.Arms = false) :
    (justifying m settings (.undock request)).Safe past
      (undockTagRelative m settings validating result) fun _ _ => True := by
  refine justify_see rfl fun undockStart => ?_
  refine justify_see rfl fun acquisitionStart => ?_
  refine justify_bind (justify_whileOk
    (fun _ => WaitedSince (past ++ [⟨.steadyNow, undockStart⟩]) acquisitionStart fun _ => False)
    (fun _ _ _ _ h => justify_undockAcquisitionPass h) ⟨[], by simp, by simp⟩)
    fun acquired tr _ hsighted => ?_
  generalize past ++ [⟨.steadyNow, undockStart⟩] ++ [⟨.steadyNow, acquisitionStart⟩] ++ tr = past'
    at hsighted ⊢
  cases acquired with
  | none => exact justify_return trivial
  | some initial =>
  refine justify_see rfl fun running => ?_
  cases running with
  | false => exact justify_finishUndock (found_last rfl)
  | true =>
  refine justify_see rfl fun _ => ?_
  refine justify_see rfl fun start => ?_
  refine justify_see rfl fun time => ?_
  refine justify_whileOk (fun _ _ => True) (fun r tr' running hpasses _ => ?_) trivial
  refine justify_undockPass (past' ++ [⟨.ok, true⟩]) ?_ (by simp [opening]) hpasses
  cases initial with
  | none =>
    have hflickered : Flickered (past' ++ [⟨.ok, true⟩]) := flickered_last hsighted
    exact .inl (((hflickered.append _).append _).append _)
  | some initial =>
    obtain ⟨during, state, x, rfl, rfl, hduring⟩ := hsighted
    refine .inr ⟨past ++ [⟨.steadyNow, undockStart⟩] ++ during, profile, instanceId, state, x,
      ⟨.ok, true⟩ :: (opening start ++ [⟨.steadyNow, time⟩]), by simp [opening], by simp [hprofile],
      hmode, ?_, rfl⟩
    simpa [or_imp, forall_and, Op.Arms] using ⟨harms, hduring⟩

theorem justify_executeUndock [IsStrictOrderedRing K] :
    (justifying m settings (.undock request)).Safe [] (executeUndock m settings request)
      fun _ _ => True := by
  refine justify_see rfl fun state => ?_
  refine justify_see rfl fun resolved => ?_
  cases resolved with
  | none => exact justify_finishUndock (lastDid_last rfl)
  | some profileId =>
  refine justify_see rfl fun target => ?_
  obtain ⟨profile, instanceId⟩ := target
  refine justify_see rfl fun _ => ?_
  refine justify_see rfl fun navigation => ?_
  cases navigation with
  | true => exact justify_finishUndock (found_last rfl)
  | false =>
  simp only [Bool.false_eq_true, if_false]
  refine Discipline.safe_ite (fun hinvalid => ?_) fun _ => ?_
  · refine justify_finishUndock (.inl ⟨state, by simpa using hinvalid, rfl, ?_⟩)
    simp [Op.Arms]
  split
  · next hmode => exact justify_executeTimedUndock instanceId (by simp) hmode
  · next hmode => exact justify_undockTagRelative instanceId (by simp) hmode (by simp [Op.Arms])

end Undocking

theorem justify_body [IsStrictOrderedRing K] (goal : Goal K) :
    (justifying m settings goal).Safe [] (body m settings goal) fun _ _ => True := by
  cases goal with
  | fineAlign goal => exact justify_execute
  | undock goal => exact justify_executeUndock
  | rotate goal => exact justify_executeRotate

end X2Navigation.FineAlignServer
