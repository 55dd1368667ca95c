import X2Navigation.Docking.PlanarPose
import X2Navigation.Docking.Steering
import X2Navigation.Server.Completion

/-! What a tag-relative undocking that succeeds has seen last: by the raw pose of its
last measurement the robot stands behind its initial pose, and the distance that is
reported is read off that pose. -/

namespace X2Navigation.FineAlignServer

open Rigid Interaction

/-! ### What the last measurement says -/

section Witness
variable {K : Type} [Field K] [LinearOrder K] (m : Libm K) (settings : Settings K)
  (initial : Isometry3 K)

/-- The result of a success, by the last measurement. -/
structure Witnessed (x : Measurement K) (result : Undock.Result K) : Prop where
  atGoal : fineAlignAtGoal (undockError m settings initial (planarPose m x.rawError)).finite
    settings.undockControllerConfig = true
  distance : result.distanceTraveled = distanceTraveled m initial x.rawError

/-- Only what the last measurement witnesses is reported as a success. -/
def allowsWitnessed (last : Option (Measurement K)) : Op K → Prop
  | .terminate .succeed (.undock result) => ∃ x, last = some x ∧ Witnessed m settings initial x result
  | _ => True

omit [Field K] [LinearOrder K] in
def lastMeasurement (last : Option (Measurement K)) : (o : Op K) → o.Answer → Option (Measurement K)
  | .stableMeasurement, (_, measurement) => measurement
  | _, _ => last

abbrev witnessed : Discipline (interface K) :=
  ⟨Option (Measurement K), allowsWitnessed m settings initial, lastMeasurement⟩

variable {m settings initial} {last : Option (Measurement K)} {α : Type}

theorem allowsWitnessed_of_not_succeeds {o : Op K} (h : o.Succeeds = false) :
    allowsWitnessed m settings initial last o := by
  cases o with
  | terminate outcome result =>
    cases outcome with
    | succeed => cases h
    | _ => trivial
  | _ => trivial

/-- A program that reports no success. -/
theorem safe_quiet {p : Operation K α} (h : Program.All (fun o => Op.Succeeds o = false) p) :
    (witnessed m settings initial).Safe last p fun _ _ => True :=
  h.safe (D := witnessed m settings initial) (I := fun _ => True)
    (fun _ _ ho _ => ⟨allowsWitnessed_of_not_succeeds ho, fun _ => trivial⟩) trivial

/-- An operation that reports no success. -/
theorem safe_witnessed_call {o : Op K} {k : o.Answer → Operation K α}
    {Q : α → Option (Measurement K) → Prop} (h : o.Succeeds = false)
    (hk : ∀ a, (witnessed m settings initial).Safe (lastMeasurement last o a) (k a) Q) :
    (witnessed m settings initial).Safe last (call o >>= k) Q :=
  Discipline.safe_act_bind.mpr ⟨fun _ => allowsWitnessed_of_not_succeeds h, hk⟩

/-- The pose settles only where it is at the goal. -/
theorem atGoal_of_completed {error rawError observed : PlanarError K} {sequence : ℕ}
    {controlTime : TimePoint} {config : HolonomicFineAlignConfig K} {control control' : Control K}
    {output : ControlOutput K}
    (h : control.step m settings config error rawError observed sequence controlTime =
      some (control', output)) (hc : output.completed = true) :
    fineAlignAtGoal rawError.finite config = true := by
  unfold Control.step at h
  dsimp only at h
  split at h
  · cases h
  · obtain ⟨rfl, rfl⟩ := Prod.mk.inj (Option.some.inj h)
    have hvalid := TagPoseSettling.valid_of_completed hc
    simp only [Bool.and_eq_true] at hvalid
    exact hvalid.1.2

/-- The end of a pass without a success. -/
theorem safe_finished {β : Type} {result : Undock.Result K} {code : Undock.Code} {message : String} {b : β} :
    (witnessed m settings initial).Safe last
      (finishUndock result code message >>= fun _ => (pure b : Operation K β)) fun _ _ => True :=
  safe_quiet (all_finishUndock.bind fun _ => trivial)

/-- One pass of the tag-relative loop. -/
theorem safe_witnessed_undockPass {undockStart start : TimePoint} {running : Bool} {r : Retreat K} :
    (witnessed m settings initial).Safe last (undockPass m settings undockStart start initial running r)
      fun _ _ => True := by
  have interrupted (result : Undock.Result K) (message : String) (last : Option (Measurement K)) :
      (witnessed m settings initial).Safe last
        ((choose isCanceling .canceled <| choose navigationActive .navigationActive <|
          (return .collisionStopped)) >>= fun code => finishUndock result code message >>= fun _ =>
            (pure (.inr ()) : Operation K (Retreat K ⊕ Unit))) fun _ _ => True := by
    refine safe_quiet (Program.All.bind ⟨rfl, fun canceling => ?_⟩ fun code =>
      all_finishUndock.bind fun _ => trivial)
    cases canceling with
    | true => trivial
    | false =>
      refine ⟨rfl, fun navigation => ?_⟩
      cases navigation <;> trivial
  obtain ⟨result, control⟩ := r
  unfold undockPass
  dsimp only
  split
  · exact safe_finished
  rw [either_bind]
  refine safe_witnessed_call rfl fun canceling => ?_
  split
  · exact interrupted _ _ _
  rw [either_bind]
  refine safe_witnessed_call rfl fun navigation => ?_
  split
  · exact interrupted _ _ _
  refine safe_witnessed_call rfl fun stopped => ?_
  split
  · exact interrupted _ _ _
  refine safe_witnessed_call rfl fun now => ?_
  split
  · exact safe_finished
  refine safe_witnessed_call rfl fun answer => ?_
  obtain ⟨state, measurement⟩ := answer
  cases measurement with
  | none => exact safe_finished
  | some x =>
  dsimp only
  split
  · exact safe_finished
  refine safe_witnessed_call rfl fun controlTime => ?_
  split
  · rename_i control' output hstep
    refine safe_witnessed_call rfl fun _ => ?_
    refine safe_witnessed_call rfl fun _ => ?_
    refine Discipline.safe_ite (fun hcompleted => ?_) fun _ => ?_
    · rw [stopAlignment_bind]
      refine safe_witnessed_call rfl fun _ => ?_
      refine safe_witnessed_call rfl fun _ => ?_
      refine safe_witnessed_call rfl fun _ => ?_
      -- the measurement of this pass is still the last one
      refine Discipline.safe_act_bind.mpr ⟨fun _ => ⟨x, rfl, ?_⟩, fun _ => ?_⟩
      · exact ⟨atGoal_of_completed hstep hcompleted, rfl⟩
      · exact safe_quiet ⟨rfl, fun _ => trivial⟩
    · exact safe_quiet ⟨rfl, fun _ => trivial⟩
  · exact safe_finished

/-- The whole loop. -/
theorem safe_witnessed_undock {undockStart start : TimePoint} {r : Retreat K} :
    (witnessed m settings initial).Safe last
      (.repeatWhile .ok (undockPass m settings undockStart start initial) r : Operation K Unit)
      fun _ _ => True := by
  refine Discipline.safe_repeatWhile (fun _ _ => True) (fun _ _ _ => trivial) ?_ trivial
  intro r last running _
  refine safe_witnessed_undockPass.mono fun r _ _ => ?_
  cases r <;> trivial

omit [Field K] [LinearOrder K] in
/-- The last measurement of a run has been answered, and none since. -/
theorem lastMeasurement_eq_some {tr : List (OpEvent K)} {x : Measurement K}
    (h : (tr.foldl (fun last e => lastMeasurement last e.1 e.2) none) = some x) :
    ∃ earlier state later, tr = earlier ++ ⟨.stableMeasurement, (state, some x)⟩ :: later ∧
      ∀ e ∈ later, e.1 ≠ .stableMeasurement := by
  induction tr using List.reverseRecOn with
  | nil => cases h
  | append_singleton tr e ih =>
    rw [List.foldl_append, List.foldl_cons, List.foldl_nil] at h
    obtain ⟨o, answer⟩ := e
    by_cases ho : o = .stableMeasurement
    · subst ho
      obtain ⟨state, measurement⟩ := answer
      obtain rfl : measurement = some x := h
      exact ⟨tr, state, [], rfl, by simp⟩
    · have hkeep : lastMeasurement (tr.foldl (fun last e => lastMeasurement last e.1 e.2) none) o
          answer = tr.foldl (fun last e => lastMeasurement last e.1 e.2) none := by
        cases o with
        | stableMeasurement => exact absurd rfl ho
        | _ => rfl
      rw [hkeep] at h
      obtain ⟨earlier, state, later, rfl, hlater⟩ := ih h
      refine ⟨earlier, state, later ++ [⟨o, answer⟩], by simp, ?_⟩
      intro e he
      obtain he | he := List.mem_append.mp he
      · exact hlater e he
      · obtain rfl := List.mem_singleton.mp he
        exact ho

end Witness

/-! ### The pose of the robot -/

/-- Where the robot stands, relative to its initial pose, by a raw error. -/
def robotFromInitial {K : Type} [Field K] (m : Libm K) (initial : Isometry3 K) (raw : PlanarError K) :
    PlanarError K := planarError m 1 (initial * (planarPose m raw).inverse)

/-- Behind its initial pose, within the tolerances. -/
structure BehindInitial (settings : Settings ℝ) (initial : Isometry3 ℝ) (raw : PlanarError ℝ) : Prop where
  position : Libm.real.hypot
      ((robotFromInitial Libm.real initial raw).x + settings.undockDistance)
      (robotFromInitial Libm.real initial raw).y ≤
    Libm.real.hypot settings.undockControllerConfig.xPositionTolerance
      settings.undockControllerConfig.yPositionTolerance
  heading : |(robotFromInitial Libm.real initial raw).yaw| ≤ settings.undockControllerConfig.yawTolerance

theorem real_hypot_le_hypot {x y a b : ℝ} (hx : |x| ≤ a) (hy : |y| ≤ b) :
    Libm.real.hypot x y ≤ Libm.real.hypot a b := by
  have ha := sq_le_sq' (abs_le.mp hx).1 (abs_le.mp hx).2
  have hb := sq_le_sq' (abs_le.mp hy).1 (abs_le.mp hy).2
  exact Real.sqrt_le_sqrt (by linarith)

theorem abs_le_real_hypot (x y : ℝ) : |x| ≤ Libm.real.hypot x y := by
  refine Real.abs_le_sqrt ?_
  have := sq_nonneg y
  linarith

section Pose
variable {settings : Settings ℝ} {initial raw : PlanarError ℝ}

theorem behindInitial_of_atGoal
    (h : fineAlignAtGoal (undockError Libm.real settings (planarPose Libm.real initial)
      (planarPose Libm.real raw)).finite settings.undockControllerConfig = true) :
    BehindInitial settings (planarPose Libm.real initial) raw := by
  obtain ⟨hposition, hheading⟩ := undockTarget_error initial raw settings.undockDistance
  simp only [fineAlignAtGoal, PlanarError.values_finite, PlanarError.isFinite_finite, Bool.true_and,
    Bool.and_eq_true] at h
  obtain ⟨⟨hx, hy⟩, hyaw⟩ := h
  constructor
  · exact hposition.symm.le.trans (real_hypot_le_hypot (of_decide_eq_true hx) (of_decide_eq_true hy))
  · exact hheading.symm.le.trans (of_decide_eq_true hyaw)

/-- The distance is that of the pose, cut off at zero. -/
theorem distanceTraveled_eq :
    distanceTraveled Libm.real (planarPose Libm.real initial) raw =
      max 0 (-(robotFromInitial Libm.real (planarPose Libm.real initial) raw).x) := by
  unfold distanceTraveled robotFromInitial
  rw [planarPose_inverse, planarPose_mul, planarError_planarPose]
  rfl

theorem BehindInitial.distance (h : BehindInitial settings (planarPose Libm.real initial) raw) :
    settings.undockDistance - Libm.real.hypot settings.undockControllerConfig.xPositionTolerance
        settings.undockControllerConfig.yPositionTolerance ≤
      distanceTraveled Libm.real (planarPose Libm.real initial) raw := by
  have hx := (abs_le_real_hypot _ _).trans h.position
  rw [abs_le] at hx
  rw [distanceTraveled_eq]
  refine le_max_of_le_right ?_
  linarith [hx.2]

end Pose

/-- Whatever the loop measures, a success is reported only behind the initial pose, by
the raw pose of the last measurement and with the distance of that pose. -/
theorem undock_retreated (settings : Settings ℝ) (initial : PlanarError ℝ)
    {undockStart start time : TimePoint} {result reported : Undock.Result ℝ}
    {before after : List (OpEvent ℝ)} {p : Operation ℝ Unit}
    (h : Program.Steps (.repeatWhile .ok
        (undockPass Libm.real settings undockStart start (planarPose Libm.real initial))
        (result, Control.new time) : Operation ℝ Unit)
      (before ++ ⟨.terminate .succeed (.undock reported), ()⟩ :: after) p) :
    ∃ earlier state x later, before = earlier ++ ⟨.stableMeasurement, (state, some x)⟩ :: later ∧
      (∀ e ∈ later, e.1 ≠ .stableMeasurement) ∧
      settings.undockDistance - Libm.real.hypot settings.undockControllerConfig.xPositionTolerance
        settings.undockControllerConfig.yPositionTolerance ≤ reported.distanceTraveled ∧
      BehindInitial settings (planarPose Libm.real initial) x.rawError := by
  have hsafe : (witnessed Libm.real settings (planarPose Libm.real initial)).Safe none
      (.repeatWhile .ok (undockPass Libm.real settings undockStart start (planarPose Libm.real initial))
        (result, Control.new time) : Operation ℝ Unit) fun _ _ => True := safe_witnessed_undock
  have hobeys := (hsafe _ _ h).1
  obtain ⟨x, hlast, hwitnessed⟩ := hobeys.allows
  obtain ⟨earlier, state, later, hbefore, hlater⟩ := lastMeasurement_eq_some hlast
  have hbehind := behindInitial_of_atGoal hwitnessed.atGoal
  refine ⟨earlier, state, x, later, hbefore, hlater, ?_, hbehind⟩
  rw [hwitnessed.distance]
  exact hbehind.distance

/-! ### A run -/

section Pass
variable {K : Type} [Field K] [LinearOrder K] {m : Libm K} {settings : Settings K}

/-- A run that ends as `Q` says, perhaps reporting a success. -/
def MayEnd {α : Type} (p : Operation K α) (Q : α → Prop) (succeeds : Bool) : Prop :=
  ∃ tr a, Program.Runs p tr a ∧ Q a ∧
    (succeeds = true → ∃ reported, ⟨.terminate .succeed (.undock reported), ()⟩ ∈ tr)

omit [Field K] [LinearOrder K] in
theorem MayEnd.answered {α : Type} {o : Op K} {k : o.Answer → Operation K α} {Q : α → Prop}
    {succeeds : Bool} (a : o.Answer) (h : MayEnd (k a) Q succeeds) : MayEnd (call o >>= k) Q succeeds := by
  obtain ⟨tr, b, hr, hq, hs⟩ := h
  refine ⟨⟨o, a⟩ :: tr, b, runs_call_bind.mpr ⟨a, tr, rfl, hr⟩, hq, fun h => ?_⟩
  obtain ⟨reported, hmem⟩ := hs h
  exact ⟨reported, List.mem_cons_of_mem _ hmem⟩

omit [Field K] [LinearOrder K] in
theorem MayEnd.done {α : Type} {Q : α → Prop} {a : α} (h : Q a) :
    MayEnd (pure a : Operation K α) Q false := ⟨[], a, runs_return.mpr ⟨rfl, rfl⟩, h, nofun⟩

omit [Field K] [LinearOrder K] in
theorem MayEnd.succeeded {α : Type} {k : Unit → Operation K α} {Q : α → Prop} {reported : Undock.Result K}
    (h : MayEnd (k ()) Q false) :
    MayEnd (call (.terminate .succeed (.undock reported)) >>= k) Q true := by
  obtain ⟨tr, b, hr, hq, -⟩ := h
  exact ⟨_, b, runs_call_bind.mpr ⟨(), tr, rfl, hr⟩, hq, fun _ => ⟨reported, by simp⟩⟩

/-- A pass that nothing interrupts. -/
theorem mayEnd_undockPass {undockStart start initial} (now controlTime : TimePoint)
    {result : Undock.Result K} {control control' : Control K} (x : Measurement K)
    (output : ControlOutput K) (hnow : elapsed now start < settings.undockTimeout)
    (hstep : control.step m settings settings.undockControllerConfig
      (undockError m settings initial x.target) (undockError m settings initial (planarPose m x.rawError))
      x.rawError x.sequence controlTime = some (control', output)) :
    MayEnd (undockPass m settings undockStart start initial true (result, control))
      (fun r => r.elim (fun r => r.2 = control' ∧ output.completed = false) fun _ => output.completed = true)
      output.completed := by
  unfold undockPass
  simp only [Bool.not_true, Bool.false_eq_true, if_false, either_bind]
  refine MayEnd.answered (o := .isCanceling) false ?_
  refine MayEnd.answered (o := .navigationActive) false ?_
  refine MayEnd.answered (o := .collisionStopTimedOut) false ?_
  refine MayEnd.answered (o := .steadyNow) now ?_
  simp only [if_false, not_le.mpr hnow]
  refine MayEnd.answered (o := .stableMeasurement) (.empty, some x) ?_
  refine MayEnd.answered (o := .steadyNow) controlTime ?_
  simp only [hstep]
  refine MayEnd.answered (o := .writeCommand _ _) () ?_
  refine MayEnd.answered (o := .publishFeedback _) () ?_
  cases hc : output.completed with
  | true =>
    refine MayEnd.answered (o := .setAlignmentActive false) () ?_
    refine MayEnd.answered (o := .clearCommand) () ?_
    refine MayEnd.answered (o := .publishZero) () ?_
    exact MayEnd.succeeded (MayEnd.answered (o := .release) () (MayEnd.done rfl))
  | false => exact MayEnd.answered (o := .sleep _) () (MayEnd.done ⟨rfl, rfl⟩)

end Pass

/-- A control step without an error, of a valid configuration. -/
theorem step_of_no_error (settings : Settings ℝ) (observed : PlanarError ℝ) (sequence : ℕ)
    (controlTime : TimePoint) (control : Control ℝ) :
    ∃ motion, control.step Libm.real settings settings.undockControllerConfig ⟨0, 0, 0⟩ ⟨0, 0, 0⟩
        observed sequence controlTime =
      some (⟨motion, (control.settling.update Libm.real settings.settlingLimits
          ⟨true, seconds controlTime, sequence, observed⟩).1, sequence, controlTime⟩,
        ⟨0, true, (control.settling.update Libm.real settings.settlingLimits
          ⟨true, seconds controlTime, sequence, observed⟩).2⟩) := by
  obtain ⟨hv, -⟩ := settings.controllerAccepted.2
  have hcall := DockingMotionController.call_of_no_error hv settings.motionConfig
    (c := ⟨⟨.finite 0, .finite 0, .finite 0⟩, elapsed controlTime control.previousControlTime,
      decide (sequence ≠ control.checkedSequence)⟩) rfl control.motion
  have hgoal : fineAlignAtGoal (⟨0, 0, 0⟩ : PlanarError ℝ).finite settings.undockControllerConfig = true := by
    simp only [validHolonomicFineAlignConfig, decide_eq_true_eq] at hv
    obtain ⟨-, -, -, -, -, -, -, hx, hy, hyaw⟩ := hv
    simp [fineAlignAtGoal, hx.le, hy.le, hyaw.le]
  have hstopped : decide ((0 : Twist ℝ).linear.x = 0 ∧ (0 : Twist ℝ).linear.y = 0 ∧
      (0 : Twist ℝ).angular.z = 0) = true := decide_eq_true ⟨rfl, rfl, rfl⟩
  generalize hupdate : DockingMotionController.call settings.undockControllerConfig settings.motionConfig
    control.motion _ = updated at hcall
  obtain ⟨motion, command⟩ := updated
  obtain rfl : command = some 0 := hcall
  refine ⟨motion, ?_⟩
  unfold DockingMotionController.call at hupdate
  unfold Control.step
  dsimp only at hupdate ⊢
  rw [show (⟨0, 0, 0⟩ : PlanarError ℝ).finite = ⟨.finite 0, .finite 0, .finite 0⟩ from rfl] at *
  rw [hupdate]
  simp only [hgoal, hstopped, Bool.and_self]

theorem declared_accepted_real : (Parameters.declared : Parameters ℝ).rejected = false := by
  norm_num [Parameters.rejected, Parameters.declared, notPositive, negative, invalidConfig,
    Parameters.undockController, HolonomicFineAlignConfig.isFinite, HolonomicFineAlignConfig.values,
    validHolonomicFineAlignConfig, Double.value, Double.isFinite]

noncomputable def Settings.declaredReal : Settings ℝ := ⟨.declared, declared_accepted_real⟩

/-- The robot has moved back by the distance of the parameters. -/
noncomputable def movedBack (sequence : ℕ) : Measurement ℝ :=
  ⟨planarPose Libm.real ⟨3 / 10, 0, 0⟩, sequence, ⟨3 / 10, 0, 0⟩⟩

theorem undockError_movedBack :
    undockError Libm.real .declaredReal (planarPose Libm.real ⟨0, 0, 0⟩)
      (planarPose Libm.real ⟨3 / 10, 0, 0⟩) = ⟨0, 0, 0⟩ := by
  have hdistance : Settings.declaredReal.undockDistance = 3 / 10 := rfl
  have hzero : wrapAngle Libm.real 0 = 0 := wrapAngle_real_eq_self (by simpa using Real.pi_pos)
  unfold undockError
  rw [tagRelativeUndockTarget_planar, planarError_planarPose, hdistance]
  simp [PlanarError.compose, PlanarError.inverse, hzero]

noncomputable def settledBack (sequence : ℕ) (time : TimePoint) (s : TagPoseSettling ℝ) :
    TagPoseSettling ℝ × Bool :=
  s.update Libm.real Settings.declaredReal.settlingLimits
    ⟨true, seconds time, sequence, ⟨3 / 10, 0, 0⟩⟩

/-- A pass that sees the robot where it is to be. -/
theorem mayEnd_movedBack (sequence : ℕ) (result : Undock.Result ℝ) (control : Control ℝ)
    (time : TimePoint) (hnow : (elapsed time 0 : ℝ) < 10) :
    ∃ motion, MayEnd (undockPass Libm.real .declaredReal 0 0 (planarPose Libm.real ⟨0, 0, 0⟩) true
          (result, control))
        (fun r => r.elim
          (fun r => r.2 = ⟨motion, (settledBack sequence time control.settling).1, sequence, time⟩ ∧
            (settledBack sequence time control.settling).2 = false)
          fun _ => (settledBack sequence time control.settling).2 = true)
        (settledBack sequence time control.settling).2 := by
  obtain ⟨motion, hstep⟩ := step_of_no_error .declaredReal ⟨3 / 10, 0, 0⟩ sequence
    time control
  refine ⟨motion, mayEnd_undockPass time time (movedBack sequence)
    ⟨0, true, (settledBack sequence time control.settling).2⟩ ?_ ?_⟩
  · exact hnow
  · show Control.step _ _ _ (undockError Libm.real .declaredReal _ (planarPose Libm.real ⟨3 / 10, 0, 0⟩))
      (undockError Libm.real .declaredReal _ (planarPose Libm.real ⟨3 / 10, 0, 0⟩)) _ _ _ _ = _
    rw [undockError_movedBack]
    exact hstep

/-- Two passes that see the robot where it is to be, a second apart. -/
theorem undock_retreated_movedBack : ∃ before after reported,
    Program.Steps (.repeatWhile .ok
        (undockPass Libm.real .declaredReal 0 0 (planarPose Libm.real ⟨0, 0, 0⟩))
        (⟨false, .success, "", 0, .empty, "default", some .tagRelative, 0, ""⟩, Control.new 0) :
          Operation ℝ Unit)
      (before ++ ⟨.terminate .succeed (.undock reported), ()⟩ :: after) (.pure ()) ∧
    ∃ earlier state x later, before = earlier ++ ⟨.stableMeasurement, (state, some x)⟩ :: later ∧
      (∀ e ∈ later, e.1 ≠ .stableMeasurement) ∧
      Settings.declaredReal.undockDistance -
          Libm.real.hypot Settings.declaredReal.undockControllerConfig.xPositionTolerance
            Settings.declaredReal.undockControllerConfig.yPositionTolerance ≤
        reported.distanceTraveled ∧
      BehindInitial .declaredReal (planarPose Libm.real ⟨0, 0, 0⟩) x.rawError := by
  obtain ⟨motion, tr, r, hr, hgoes, -⟩ := mayEnd_movedBack 1
    ⟨false, .success, "", 0, .empty, "default", some .tagRelative, 0, ""⟩ (Control.new 0)
    0 (by norm_num [elapsed])
  cases r with
  | inr _ => cases hgoes
  | inl y =>
  obtain ⟨result, control⟩ := y
  obtain ⟨rfl, -⟩ : control = _ ∧ _ := hgoes
  -- the second pass, a second later, completes the dwell
  obtain ⟨motion', tr', r', hr', hleaves, hreports⟩ := mayEnd_movedBack 2 result
    ⟨motion, .start ⟨true, seconds 0, 1, ⟨3 / 10, 0, 0⟩⟩, 1, 0⟩ (10 ^ 9)
    (by norm_num [elapsed])
  have hsettled :
      (settledBack 2 (10 ^ 9) (.start ⟨true, seconds 0, 1, ⟨3 / 10, 0, 0⟩⟩)).2 = true := by
    have hhypot : Libm.real.hypot 0 0 = 0 := (Libm.real_hypot_eq_zero_iff 0 0).mpr ⟨rfl, rfl⟩
    have hzero : wrapAngle Libm.real 0 = 0 := wrapAngle_real_eq_self (by simpa using Real.pi_pos)
    norm_num [settledBack, TagPoseSettling.start, TagPoseSettling.update, TagPoseSettling.strayed, seconds, hhypot,
      hzero, Settings.settlingLimits, Settings.declaredReal, Parameters.declared, Double.value]
  cases r' with
  | inl y => exact absurd hsettled (Bool.not_eq_true _ ▸ hleaves.2)
  | inr u =>
  obtain ⟨reported, hmem⟩ := hreports hsettled
  obtain ⟨before, after, rfl⟩ := List.append_of_mem hmem
  have hrun : Program.Runs (.repeatWhile .ok
      (undockPass Libm.real .declaredReal 0 0 (planarPose Libm.real ⟨0, 0, 0⟩)) _ : Operation ℝ Unit) _ () :=
    Program.Runs.loop_again (a := true) hr (Program.Runs.loop_leave (a := true) hr')
  have hsplit : (⟨.ok, true⟩ :: (tr ++ ⟨.ok, true⟩ ::
      (before ++ ⟨.terminate .succeed (.undock reported), ()⟩ :: after)) : List (OpEvent ℝ)) =
      ⟨.ok, true⟩ :: (tr ++ ⟨.ok, true⟩ :: before) ++
        ⟨.terminate .succeed (.undock reported), ()⟩ :: after := by simp
  rw [hsplit] at hrun
  exact ⟨_, after, reported, hrun, undock_retreated .declaredReal ⟨0, 0, 0⟩ hrun⟩

end X2Navigation.FineAlignServer
