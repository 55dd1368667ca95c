import Mathlib.Analysis.Real.Pi.Bounds
import X2Navigation.Docking.Motion
import X2Navigation.Traced.Machine

/-! What a call of the docking controller can do, said once. The confirmed axes
and the gate select a command; the last stage then leaves it still, holds it back,
stops it before a large turn, or sends it along a direction of its own. -/

namespace X2Navigation

namespace ConfirmedAxis
variable {K : Type*} [Field K] [LinearOrder K] [IsStrictOrderedRing K] {tolerance hysteresis : K}

theorem dockingStopTolerance_le (ht : 0 < tolerance) (hh : 0 ≤ hysteresis) :
    dockingStopTolerance tolerance hysteresis ≤ tolerance :=
  max_le (by linarith) (by linarith)

theorem dockingStopTolerance_pos (ht : 0 < tolerance) (hysteresis : K) :
    0 < dockingStopTolerance tolerance hysteresis :=
  lt_max_of_lt_right (by linarith)

end ConfirmedAxis

namespace DockingMotionController

variable {controller : HolonomicFineAlignConfig ℝ} {motion : DockingMotionConfig ℝ}

/-- The configurations that the constructor accepts, less what only concerns the
confirmation of observations. -/
structure ControllerValid (controller : HolonomicFineAlignConfig ℝ) (motion : DockingMotionConfig ℝ) :
    Prop where
  valid : validHolonomicFineAlignConfig controller = true
  positionHysteresis : 0 ≤ motion.positionHysteresis
  yawHysteresis : 0 ≤ motion.yawHysteresis
  directionRate : 0 < motion.directionRate

theorem ControllerValid.of_accepted (ha : ControllerAccepted controller motion) :
    ControllerValid controller motion :=
  ⟨ha.valid, ha.positionHysteresis, ha.yawHysteresis, ha.directionRate⟩

/-! ### The command before its direction -/

theorem clamp_pos {x lo hi : ℝ} (hlo : 0 < lo) (h : lo ≤ hi) : 0 < clamp x lo hi := by
  rw [clamp_eq h]
  exact lt_max_of_lt_left hlo

theorem holonomicLinear_z (e : PlanarError ℝ) (config : HolonomicFineAlignConfig ℝ) :
    (holonomicLinear Libm.real e config).z = 0 := by
  unfold holonomicLinear
  dsimp only
  split_ifs <;> rfl

theorem holonomicAngular_xy (e : PlanarError ℝ) (config : HolonomicFineAlignConfig ℝ) :
    (holonomicAngular e config).x = 0 ∧ (holonomicAngular e config).y = 0 := by
  unfold holonomicAngular
  split <;> exact ⟨rfl, rfl⟩

/-- The error along `x` as the axis sees it. -/
noncomputable def xError (controller : HolonomicFineAlignConfig ℝ) (error : PlanarError ℝ) : ℝ :=
  if controller.allowReverseX then error.x else max 0 error.x

theorem valid_movingConfig (hv : validHolonomicFineAlignConfig controller = true)
    (motion : DockingMotionConfig ℝ) :
    validHolonomicFineAlignConfig (movingConfig controller motion) = true := by
  simp only [validHolonomicFineAlignConfig, decide_eq_true_eq] at hv ⊢
  obtain ⟨h1, h2, h3, h4, h5, h6, h7, h8, h9, h10⟩ := hv
  exact ⟨h1, h2, h3, h4, h5, h6, h7, ConfirmedAxis.dockingStopTolerance_pos h8 _,
    ConfirmedAxis.dockingStopTolerance_pos h9 _, ConfirmedAxis.dockingStopTolerance_pos h10 _⟩

/-- The command of accepted configurations, written out. -/
theorem requestedCommand_eq (hv : validHolonomicFineAlignConfig controller = true)
    (motion : DockingMotionConfig ℝ) (error : PlanarError ℝ) (s : DockingMotionController ℝ) :
    let selected : PlanarError ℝ :=
      ⟨if s.xActive = 0 then 0 else error.x, if s.yActive = 0 then 0 else error.y, error.yaw⟩
    let linear := holonomicLinear Libm.real selected (movingConfig controller motion)
    let angular := holonomicAngular selected (movingConfig controller motion)
    requestedCommand controller motion Libm.real error s = some
      ⟨if s.translationEnabled then linear else ⟨0, 0, linear.z⟩,
        if s.yawActive = 0 then ⟨angular.x, angular.y, 0⟩ else angular⟩ := by
  simp [requestedCommand, holonomicFineAlignCommand, valid_movingConfig hv motion]

/-- Every axis and the gate after a new observation. -/
theorem confirm_frame (controller : HolonomicFineAlignConfig ℝ) (motion : DockingMotionConfig ℝ)
    (error : PlanarError ℝ) (s : DockingMotionController ℝ) :
    (confirm controller motion error s).x = s.x.update (xError controller error)
        controller.xPositionTolerance motion.positionHysteresis motion.confirmationSamples ∧
    (confirm controller motion error s).y = s.y.update error.y controller.yPositionTolerance
        motion.positionHysteresis motion.confirmationSamples ∧
    (confirm controller motion error s).yaw = s.yaw.update error.yaw controller.yawTolerance
        motion.yawHysteresis motion.confirmationSamples ∧
    (confirm controller motion error s).xActive = (confirm controller motion error s).x.active ∧
    (confirm controller motion error s).yActive = (confirm controller motion error s).y.active ∧
    (confirm controller motion error s).yawActive = (confirm controller motion error s).yaw.active ∧
    (confirm controller motion error s).direction = s.direction ∧
    (confirm controller motion error s).directionReconfirmations = s.directionReconfirmations := by
  unfold confirm gateTranslation xError
  dsimp only
  split_ifs <;> exact ⟨rfl, rfl, rfl, rfl, rfl, rfl, rfl, rfl⟩

/-! ### The direction of travel -/

theorem abs_sub_clamp_le (delta : ℝ) {bound : ℝ} (hb : 0 ≤ bound) :
    |delta - clamp delta (-bound) bound| ≤ |delta| := by
  rw [clamp_eq (by linarith)]
  obtain h | h := le_total delta bound
  · rw [min_eq_left h]
    obtain h' | h' := le_total (-bound) delta
    · rw [max_eq_right h', sub_self, abs_zero]
      exact abs_nonneg delta
    · rw [max_eq_left h', abs_le, abs_of_nonpos (by linarith)]
      constructor <;> linarith
  · rw [min_eq_right h, max_eq_right (by linarith), abs_of_nonneg (by linarith),
      abs_of_nonneg (by linarith)]
    linarith

theorem abs_clamp_le (x : ℝ) {bound : ℝ} (hb : 0 ≤ bound) :
    |clamp x (-bound) bound| ≤ bound ∧ |clamp x (-bound) bound| ≤ |x| := by
  rw [clamp_eq (by linarith)]
  have hlow : -bound ≤ max (-bound) (min x bound) := le_max_left _ _
  have hhigh : max (-bound) (min x bound) ≤ bound := max_le (by linarith) (min_le_right _ _)
  refine ⟨abs_le.mpr ⟨hlow, hhigh⟩, ?_⟩
  obtain hx | hx := le_total 0 x
  · have h0 : 0 ≤ min x bound := le_min hx hb
    rw [max_eq_right (by linarith), abs_of_nonneg h0, abs_of_nonneg hx]
    exact min_le_left _ _
  · have h0 : min x bound = x := min_eq_left (by linarith)
    have hle : max (-bound) x ≤ 0 := max_le (by linarith) hx
    rw [h0, abs_of_nonpos hle, abs_of_nonpos hx, neg_le_neg_iff]
    exact le_max_right _ _

/-- The planar velocity of a command is not zero. -/
def Travels (command : Twist ℝ) : Prop := command.linear.x ≠ 0 ∨ command.linear.y ≠ 0

theorem Travels.ne_zero {command : Twist ℝ} (h : Travels command) : command ≠ 0 := by
  rintro rfl
  exact h.elim (fun h => h rfl) (fun h => h rfl)

/-- A large turn, beyond which the robot stops first. -/
noncomputable def maximumTurn : ℝ := 15707963268 / 10000000000

theorem maximumTurn_lt_pi : maximumTurn < Real.pi := by
  have := Real.two_le_pi
  unfold maximumTurn
  linarith

theorem travels_of_speed {speed direction z : ℝ} {angular : Vector3 ℝ} (h : 0 < speed) :
    Travels ⟨⟨speed * Libm.real.cos direction, speed * Libm.real.sin direction, z⟩, angular⟩ := by
  by_contra hn
  simp only [Travels, Libm.real, not_or, not_not, mul_eq_zero] at hn
  have hsq := Real.sin_sq_add_cos_sq direction
  have hc := hn.1.resolve_left h.ne'
  have hs := hn.2.resolve_left h.ne'
  rw [hc, hs] at hsq
  norm_num at hsq

/-- Only the direction is touched. -/
theorem limitDirection_frame {dt : ℝ} {new : Bool} {command : Twist ℝ}
    {s : DockingMotionController ℝ} :
    ∃ direction count, (limitDirection motion Libm.real dt new command s).1 =
      { s with direction := direction, directionReconfirmations := count } := by
  have hsteer : ∀ (speed : ℝ) (s : DockingMotionController ℝ), ∃ direction count,
      (steer motion Libm.real dt command speed s).1 =
        { s with direction := direction, directionReconfirmations := count } := by
    intro speed s
    unfold steer
    dsimp only
    split
    · exact ⟨_, s.directionReconfirmations, rfl⟩
    · split
      · exact ⟨_, _, rfl⟩
      · exact ⟨_, s.directionReconfirmations, rfl⟩
  unfold limitDirection
  dsimp only
  split
  · split
    · split
      · exact ⟨s.direction, s.directionReconfirmations, rfl⟩
      · split
        · exact ⟨s.direction, _, rfl⟩
        · exact hsteer _ _
    · exact hsteer _ _
  · exact ⟨_, _, rfl⟩

/-! ### The last stage -/

noncomputable def planarSpeed (command : Twist ℝ) : ℝ :=
  Libm.real.hypot command.linear.x command.linear.y

/-- The direction of travel of a command. -/
noncomputable def heading (command : Twist ℝ) : ℝ :=
  Libm.real.atan2 command.linear.y command.linear.x

theorem planarSpeed_pos {command : Twist ℝ} : 0 < planarSpeed command ↔ Travels command :=
  Libm.real_hypot_pos_iff _ _

theorem planarSpeed_eq_zero {command : Twist ℝ} : planarSpeed command = 0 ↔ ¬ Travels command := by
  rw [← planarSpeed_pos, not_lt]
  exact ⟨le_of_eq, fun h => h.antisymm (Libm.real_hypot_nonneg _ _)⟩

/-- The command without its planar velocity. -/
def halted (command : Twist ℝ) : Twist ℝ := { command with linear := ⟨0, 0, command.linear.z⟩ }

theorem not_travels_halted (command : Twist ℝ) : ¬ Travels (halted command) := by
  simp [Travels, halted]

/-- The command at its own speed along another direction. -/
noncomputable def sentAlong (command : Twist ℝ) (direction : ℝ) : Twist ℝ :=
  { command with
    linear := ⟨planarSpeed command * Real.cos direction, planarSpeed command * Real.sin direction,
      command.linear.z⟩ }

theorem planarSpeed_sentAlong (command : Twist ℝ) (direction : ℝ) :
    planarSpeed (sentAlong command direction) = planarSpeed command :=
  Libm.real_hypot_polar (Libm.real_hypot_nonneg _ _) direction

theorem heading_sentAlong {command : Twist ℝ} (h : Travels command) (direction : ℝ) :
    heading (sentAlong command direction) = wrapAngle Libm.real direction :=
  Libm.real_atan2_mul (planarSpeed_pos.mpr h) _ _

/-- A command sent along its own direction is not changed. -/
theorem sentAlong_heading (command : Twist ℝ) : sentAlong command (heading command) = command := by
  obtain ⟨⟨x, y, z⟩, angular⟩ := command
  have hx := Libm.real_hypot_mul_cos_atan2 x y
  have hy := Libm.real_hypot_mul_sin_atan2 x y
  simp [sentAlong, planarSpeed, heading, hx, hy]

/-- Not held back after a stop, or released by this observation. -/
def Free (motion : DockingMotionConfig ℝ) (new : Bool) (s : DockingMotionController ℝ) : Prop :=
  s.directionReconfirmations = 0 ∨
    new = true ∧ motion.confirmationSamples < s.directionReconfirmations + 1

/-- The turn from the direction in force to the one a command asks for. -/
noncomputable def turn (command : Twist ℝ) (direction : ℝ) : ℝ :=
  wrapAngle Libm.real (heading command - direction)

/-- What the last stage can do with a command, and what it remembers. -/
inductive Limited (motion : DockingMotionConfig ℝ) (dt : ℝ) (new : Bool) (command : Twist ℝ)
    (s : DockingMotionController ℝ) : DockingMotionController ℝ → Twist ℝ → Prop
  | still (h : ¬ Travels command) :
      Limited motion dt new command s
        { s with direction := none, directionReconfirmations := 0 } command
  | waits (h : Travels command) (hheld : 0 < s.directionReconfirmations) (hold : new = false) :
      Limited motion dt new command s s (halted command)
  | counts (h : Travels command) (hheld : 0 < s.directionReconfirmations) (hnew : new = true)
      (hle : s.directionReconfirmations + 1 ≤ motion.confirmationSamples) :
      Limited motion dt new command s
        { s with directionReconfirmations := s.directionReconfirmations + 1 } (halted command)
  | stops (h : Travels command) (hfree : Free motion new s) (direction : ℝ)
      (hd : s.direction = some direction) (hbig : maximumTurn < |turn command direction|) :
      Limited motion dt new command s
        { s with direction := none, directionReconfirmations := 1 } (halted command)
  | sets (h : Travels command) (hfree : Free motion new s) (hd : s.direction = none) :
      Limited motion dt new command s
        { s with direction := some (heading command), directionReconfirmations := 0 } command
  | turns (h : Travels command) (hfree : Free motion new s) (direction : ℝ)
      (hd : s.direction = some direction) (hsmall : |turn command direction| ≤ maximumTurn) :
      Limited motion dt new command s
        { s with
          direction := some (direction + clamp (turn command direction)
            (-(motion.directionRate * dt)) (motion.directionRate * dt))
          directionReconfirmations := 0 }
        (sentAlong command (direction + clamp (turn command direction)
          (-(motion.directionRate * dt)) (motion.directionRate * dt)))

theorem limited_steer {dt : ℝ} {new : Bool} {command : Twist ℝ} {s : DockingMotionController ℝ}
    (h : Travels command) (hfree : Free motion new s) :
    Limited motion dt new command s
      (steer motion Libm.real dt command (planarSpeed command)
        { s with directionReconfirmations := 0 }).1
      (steer motion Libm.real dt command (planarSpeed command)
        { s with directionReconfirmations := 0 }).2 := by
  unfold steer
  dsimp only
  cases hd : s.direction with
  | none =>
    show Limited motion dt new command s
      { s with direction := some (heading command), directionReconfirmations := 0 }
      (sentAlong command (heading command))
    rw [sentAlong_heading]
    exact .sets h hfree hd
  | some direction =>
    dsimp only
    split
    · next hbig => exact .stops h hfree direction hd hbig
    · next hsmall =>
      rw [neg_mul]
      exact .turns h hfree direction hd (not_lt.mp hsmall)

theorem limited_limitDirection (motion : DockingMotionConfig ℝ) (dt : ℝ) (new : Bool)
    (command : Twist ℝ) (s : DockingMotionController ℝ) :
    Limited motion dt new command s (limitDirection motion Libm.real dt new command s).1
      (limitDirection motion Libm.real dt new command s).2 := by
  unfold limitDirection
  dsimp only
  split
  · next hspeed =>
    have h : Travels command := planarSpeed_pos.mp hspeed
    split
    · next hheld =>
      cases new with
      | false => exact .waits h hheld rfl
      | true =>
        simp only [Bool.not_true, Bool.false_eq_true, if_false]
        split
        · next hle => exact .counts h hheld rfl hle
        · next hgt => exact limited_steer h (.inr ⟨rfl, by omega⟩)
    · next hfree =>
      have hzero : s.directionReconfirmations = 0 := by omega
      have hs : { s with directionReconfirmations := 0 } = s := by
        rw [← hzero]
      have hsteer : Limited motion dt new command s _ _ := limited_steer h (.inl hzero)
      rwa [hs] at hsteer
  · next hspeed => exact .still (planarSpeed_pos.not.mp hspeed)

/-! ### Runs -/

/-- One call of `update`. -/
structure Cycle where
  error : PlanarError (Double ℝ)
  dt : ℝ
  newObservation : Bool

/-- The axes and the gate as this call sees them. -/
noncomputable def confirmed (controller : HolonomicFineAlignConfig ℝ)
    (motion : DockingMotionConfig ℝ) (c : Cycle) (s : DockingMotionController ℝ) :
    DockingMotionController ℝ :=
  if c.newObservation then confirm controller motion c.error.values s else s

/-- The state and the command after one call. -/
noncomputable def call (controller : HolonomicFineAlignConfig ℝ) (motion : DockingMotionConfig ℝ)
    (s : DockingMotionController ℝ) (c : Cycle) : DockingMotionController ℝ × Option (Twist ℝ) :=
  update controller motion Libm.real c.error c.dt c.newObservation s

/-- The state of a controller after its first calls. -/
noncomputable def after (controller : HolonomicFineAlignConfig ℝ) (motion : DockingMotionConfig ℝ)
    (s : DockingMotionController ℝ) (cycles : List Cycle) : DockingMotionController ℝ :=
  cycles.foldl (fun s c => (call controller motion s c).1) s

@[simp] theorem after_nil (s : DockingMotionController ℝ) : after controller motion s [] = s := rfl

@[simp] theorem after_snoc (s : DockingMotionController ℝ) (cycles : List Cycle) (c : Cycle) :
    after controller motion s (cycles ++ [c]) =
      (call controller motion (after controller motion s cycles) c).1 := by
  simp [after]

theorem after_append (s : DockingMotionController ℝ) (cycles cycles' : List Cycle) :
    after controller motion s (cycles ++ cycles') =
      after controller motion (after controller motion s cycles) cycles' := by
  simp [after]

/-- `P` holds at every call of a run, in the state the call is made in. -/
def AtEvery (controller : HolonomicFineAlignConfig ℝ) (motion : DockingMotionConfig ℝ)
    (P : DockingMotionController ℝ → Cycle → Prop) (s : DockingMotionController ℝ)
    (cycles : List Cycle) : Prop :=
  ∀ before c behind, cycles = before ++ c :: behind → P (after controller motion s before) c

theorem atEvery_nil {P : DockingMotionController ℝ → Cycle → Prop} {s : DockingMotionController ℝ} :
    AtEvery controller motion P s [] := by
  intro before c behind heq
  simp at heq

theorem atEvery_snoc {P : DockingMotionController ℝ → Cycle → Prop}
    {s : DockingMotionController ℝ} (cycles : List Cycle) (c : Cycle) :
    AtEvery controller motion P s (cycles ++ [c]) ↔
      AtEvery controller motion P s cycles ∧ P (after controller motion s cycles) c := by
  constructor
  · intro h
    exact ⟨fun before x behind heq => h before x (behind ++ [c]) (by simp [heq]), h cycles c [] rfl⟩
  · rintro ⟨h, hc⟩ before x behind heq
    induction behind using List.reverseRecOn with
    | nil =>
      obtain ⟨rfl, hx⟩ := List.append_inj' heq rfl
      obtain rfl := List.cons.inj hx |>.1
      exact hc
    | append_singleton behind y _ =>
      rw [← List.cons_append, ← List.append_assoc] at heq
      exact h before x behind (List.append_inj' heq rfl).1

/-- The command of the active axes and the gate, before the last stage. -/
noncomputable def wanted (controller : HolonomicFineAlignConfig ℝ) (motion : DockingMotionConfig ℝ)
    (c : Cycle) (s : DockingMotionController ℝ) : Twist ℝ :=
  let s := confirmed controller motion c s
  let error := c.error.values
  let selected : PlanarError ℝ :=
    ⟨if s.xActive = 0 then 0 else error.x, if s.yActive = 0 then 0 else error.y, error.yaw⟩
  let linear := holonomicLinear Libm.real selected (movingConfig controller motion)
  let angular := holonomicAngular selected (movingConfig controller motion)
  ⟨if s.translationEnabled then linear else ⟨0, 0, linear.z⟩,
    if s.yawActive = 0 then ⟨angular.x, angular.y, 0⟩ else angular⟩

theorem confirmed_direction (controller : HolonomicFineAlignConfig ℝ)
    (motion : DockingMotionConfig ℝ) (c : Cycle) (s : DockingMotionController ℝ) :
    (confirmed controller motion c s).direction = s.direction := by
  unfold confirmed
  split
  · exact (confirm_frame controller motion c.error.values s).2.2.2.2.2.2.1
  · rfl

theorem confirmed_directionReconfirmations (controller : HolonomicFineAlignConfig ℝ)
    (motion : DockingMotionConfig ℝ) (c : Cycle) (s : DockingMotionController ℝ) :
    (confirmed controller motion c s).directionReconfirmations = s.directionReconfirmations := by
  unfold confirmed
  split
  · exact (confirm_frame controller motion c.error.values s).2.2.2.2.2.2.2
  · rfl

theorem call_of_not_finite {c : Cycle} (h : c.error.isFinite = false)
    (s : DockingMotionController ℝ) : call controller motion s c = (s, none) := by
  simp [call, update, h]

/-- A call with a finite error limits the direction of the wanted command. -/
theorem call_of_finite (hv : validHolonomicFineAlignConfig controller = true) {c : Cycle}
    (h : c.error.isFinite = true) (s : DockingMotionController ℝ) :
    call controller motion s c =
      ((limitDirection motion Libm.real c.dt c.newObservation (wanted controller motion c s)
          (confirmed controller motion c s)).1,
        some (limitDirection motion Libm.real c.dt c.newObservation (wanted controller motion c s)
          (confirmed controller motion c s)).2) := by
  have hwanted : requestedCommand controller motion Libm.real c.error.values
      (confirmed controller motion c s) = some (wanted controller motion c s) :=
    requestedCommand_eq hv _ _ _
  unfold confirmed at hwanted
  simp [call, update, h, hwanted, confirmed]

theorem call_returns (hv : validHolonomicFineAlignConfig controller = true) {c : Cycle}
    (h : c.error.isFinite = true) (motion : DockingMotionConfig ℝ) (s : DockingMotionController ℝ) :
    ∃ command, (call controller motion s c).2 = some command := by
  rw [call_of_finite hv h]
  exact ⟨_, rfl⟩

/-- What such a call returns and remembers. -/
theorem call_limited (hv : validHolonomicFineAlignConfig controller = true) {c : Cycle}
    (h : c.error.isFinite = true) {s : DockingMotionController ℝ} {command : Twist ℝ}
    (hcommand : (call controller motion s c).2 = some command) :
    Limited motion c.dt c.newObservation (wanted controller motion c s)
      (confirmed controller motion c s) (call controller motion s c).1 command := by
  rw [call_of_finite hv h] at hcommand ⊢
  obtain rfl := Option.some.inj hcommand
  exact limited_limitDirection _ _ _ _ _

/-- Without an error no motion is asked for. -/
theorem call_of_no_error (hv : validHolonomicFineAlignConfig controller = true)
    (motion : DockingMotionConfig ℝ) {c : Cycle}
    (h : c.error = ⟨.finite 0, .finite 0, .finite 0⟩) (s : DockingMotionController ℝ) :
    (call controller motion s c).2 = some 0 := by
  have hfinite : c.error.isFinite = true := by rw [h]; rfl
  have hwanted : wanted controller motion c s = 0 := by
    have htolerance : 0 < (movingConfig controller motion).yawTolerance := by
      have := valid_movingConfig hv motion
      simp only [validHolonomicFineAlignConfig, decide_eq_true_eq] at this
      tauto
    have hnone : holonomicLinear Libm.real ⟨0, 0, 0⟩ (movingConfig controller motion) = 0 := by
      have hhypot : Libm.real.hypot 0 0 = 0 := (Libm.real_hypot_eq_zero_iff 0 0).mpr ⟨rfl, rfl⟩
      simp [holonomicLinear, beyond, hhypot]
    have hstill : holonomicAngular ⟨0, 0, 0⟩ (movingConfig controller motion) = 0 := by
      simp [holonomicAngular, htolerance.le]
    unfold wanted
    simp only [h, PlanarError.values, Double.value, ite_self, hnone, hstill]
    split_ifs <;> rfl
  obtain ⟨command, hcommand⟩ := call_returns hv hfinite motion s
  have hl := call_limited hv hfinite hcommand
  have hnot : ¬ Travels (wanted controller motion c s) := by
    rw [hwanted]
    exact fun ht => ht.ne_zero rfl
  rw [hcommand]
  generalize (call controller motion s c).1 = s' at hl
  cases hl with
  | still => rw [hwanted]
  | waits ht => exact absurd ht hnot
  | counts ht => exact absurd ht hnot
  | stops ht => exact absurd ht hnot
  | sets ht => exact absurd ht hnot
  | turns ht => exact absurd ht hnot

theorem turn_heading (command : Twist ℝ) : turn command (heading command) = 0 := by
  unfold turn
  rw [sub_self, wrapAngle_real, Real.Angle.coe_zero, Real.Angle.toReal_zero]

/-- A call that asks for the direction in force, or for the first one, is not limited. -/
theorem call_straight (hv : validHolonomicFineAlignConfig controller = true)
    (motion : DockingMotionConfig ℝ) {c : Cycle} (h : c.error.isFinite = true) (hrate : 0 ≤ motion.directionRate * c.dt)
    {s : DockingMotionController ℝ} (ht : Travels (wanted controller motion c s))
    (hd : ∀ direction, s.direction = some direction →
      direction = heading (wanted controller motion c s))
    (h0 : s.directionReconfirmations = 0) :
    call controller motion s c =
      ({ confirmed controller motion c s with
          direction := some (heading (wanted controller motion c s)), directionReconfirmations := 0 },
        some (wanted controller motion c s)) := by
  have hfree := confirmed_directionReconfirmations controller motion c s
  have hdirection := confirmed_direction controller motion c s
  obtain ⟨command, hcommand⟩ := call_returns hv h motion s
  have hl := call_limited hv h hcommand
  rw [← Prod.mk.eta (p := call controller motion s c), hcommand]
  generalize hs' : (call controller motion s c).1 = s' at hl ⊢
  cases hl with
  | still hn => exact absurd ht hn
  | waits _ hheld => omega
  | counts _ hheld => omega
  | stops _ _ direction hsome hbig =>
    rw [hd direction (hdirection.symm.trans hsome), turn_heading, abs_zero] at hbig
    unfold maximumTurn at hbig
    norm_num at hbig
  | sets => rfl
  | turns _ _ direction hsome =>
    have hclamp := abs_clamp_le (0 : ℝ) hrate
    rw [abs_zero, abs_nonpos_iff] at hclamp
    rw [hd direction (hdirection.symm.trans hsome), turn_heading, hclamp.2, add_zero,
      sentAlong_heading]

/-! ### A controller whose parameters are all one -/

def unitController (allowReverseX : Bool) : HolonomicFineAlignConfig ℝ :=
  ⟨1, 1, 1, 1, 1, 1, 1, 1, 1, 1, allowReverseX⟩

def unitMotion : DockingMotionConfig ℝ := ⟨0, 0, 1, 1⟩

theorem unit_accepted (allowReverseX : Bool) :
    ControllerAccepted (unitController allowReverseX) unitMotion := by
  constructor <;> simp [unitController, unitMotion, validHolonomicFineAlignConfig]

/-- An observation of a target in the plane, straight ahead. -/
def observation (x y dt : ℝ) : Cycle := ⟨⟨.finite x, .finite y, .finite 0⟩, dt, true⟩

theorem finite_observation (x y dt : ℝ) : (observation x y dt).error.isFinite = true := rfl

/-- Under way to a target straight ahead. -/
def underway : DockingMotionController ℝ :=
  ⟨⟨1, 1, 1⟩, .new, .new, 1, 0, 0, true, 1, 0, some 0⟩

/-- A velocity of one, straight ahead. -/
def ahead : Twist ℝ := ⟨⟨1, 0, 0⟩, 0⟩

theorem heading_ahead : heading ahead = 0 := by
  simp [heading, ahead, Libm.real, Complex.arg_eq_zero_iff]

theorem travels_ahead : Travels ahead := .inl one_ne_zero

theorem requested_one : ConfirmedAxis.requested (2 : ℝ) 1 0 = 1 ∧
    ConfirmedAxis.requested (0 : ℝ) 1 0 = 0 := by
  norm_num [ConfirmedAxis.requested, dockingStopTolerance]

theorem movingConfig_unit (allowReverseX : Bool) :
    movingConfig (unitController allowReverseX) unitMotion = unitController allowReverseX := by
  norm_num [movingConfig, unitController, unitMotion, dockingStopTolerance]

section Ahead
variable (allowReverseX : Bool) {s : DockingMotionController ℝ}

theorem confirmed_ahead (dt : ℝ) (hs : s = new ∨ s = underway) :
    confirmed (unitController allowReverseX) unitMotion (observation 2 0 dt) s =
      { underway with direction := s.direction } := by
  obtain ⟨h2, h0⟩ := requested_one
  obtain rfl | rfl := hs <;>
    norm_num [confirmed, confirm, gateTranslation, observation, unitController, unitMotion, new,
      underway, ConfirmedAxis.new, ConfirmedAxis.update, h2, h0, PlanarError.values, Double.value]

theorem wanted_ahead (dt : ℝ) (hs : s = new ∨ s = underway) :
    wanted (unitController allowReverseX) unitMotion (observation 2 0 dt) s = ahead := by
  have hhypot : Libm.real.hypot 2 0 = 2 := by
    simpa using Libm.real_hypot_polar (r := 2) (by norm_num) 0
  have hnone : (⟨(0 : Vector3 ℝ).x, (0 : Vector3 ℝ).y, 0⟩ : Vector3 ℝ) = 0 := rfl
  unfold wanted
  rw [confirmed_ahead allowReverseX dt hs, movingConfig_unit]
  norm_num [underway, observation, PlanarError.values, Double.value, holonomicLinear, beyond,
    unitController, holonomicAngular, ahead, clamp, hhypot, hnone]

/-- The first two observations of a target two metres ahead. -/
theorem call_ahead {dt : ℝ} (hdt : 0 ≤ dt) (hs : s = new ∨ s = underway) :
    call (unitController allowReverseX) unitMotion s (observation 2 0 dt) =
      (underway, some ahead) := by
  have hstraight := call_straight (unit_accepted allowReverseX).valid unitMotion
    (finite_observation 2 0 dt) (s := s)
  rw [wanted_ahead allowReverseX dt hs, heading_ahead, confirmed_ahead allowReverseX dt hs] at hstraight
  refine hstraight ?_ travels_ahead ?_ ?_
  · simpa [unitMotion, observation] using hdt
  · obtain rfl | rfl := hs <;> simp [new, underway]
  · obtain rfl | rfl := hs <;> rfl

end Ahead

/-- A velocity of one, to the left. -/
def aside : Twist ℝ := ⟨⟨0, 1, 0⟩, 0⟩

theorem travels_aside : Travels aside := .inr one_ne_zero

theorem turn_aside : turn aside 0 = Real.pi / 2 := by
  have hheading : heading aside = Real.pi / 2 := Complex.arg_I
  have hlt : |Real.pi / 2| < Real.pi := by
    rw [abs_of_pos (by positivity)]
    linarith [Real.pi_pos]
  rw [turn, hheading, sub_zero, wrapAngle_real_eq_self hlt]

theorem pi_div_two_le_maximumTurn : Real.pi / 2 ≤ maximumTurn := by
  have := Real.pi_lt_d20
  unfold maximumTurn
  norm_num at this ⊢
  linarith

section Aside
variable (allowReverseX : Bool) {x : ℝ} (hx : if allowReverseX then x = 0 else x ≤ 0) (dt : ℝ)
include hx

/-- A target two metres to the left, level with the robot or not to be backed up to. -/
theorem confirmed_aside :
    confirmed (unitController allowReverseX) unitMotion (observation x 2 dt) underway =
      { underway with x := ⟨0, 0, 0⟩, y := ⟨1, 1, 1⟩, xActive := 0, yActive := 1 } := by
  obtain ⟨h2, h0⟩ := requested_one
  cases allowReverseX with
  | false =>
    have hnone : max 0 x = 0 := max_eq_left hx
    simp [confirmed, confirm, gateTranslation, observation, unitController, unitMotion, hnone,
      underway, ConfirmedAxis.new, ConfirmedAxis.update, h2, h0, PlanarError.values, Double.value]
  | true =>
    have hnone : x = 0 := hx
    simp [confirmed, confirm, gateTranslation, observation, unitController, unitMotion, hnone,
      underway, ConfirmedAxis.new, ConfirmedAxis.update, h2, h0, PlanarError.values, Double.value]

theorem wanted_aside :
    wanted (unitController allowReverseX) unitMotion (observation x 2 dt) underway = aside := by
  have hhypot : Libm.real.hypot 0 2 = 2 := by
    simpa using Libm.real_hypot_polar (r := 2) (by norm_num) (Real.pi / 2)
  have hnone : (⟨(0 : Vector3 ℝ).x, (0 : Vector3 ℝ).y, 0⟩ : Vector3 ℝ) = 0 := rfl
  unfold wanted
  rw [confirmed_aside allowReverseX hx, movingConfig_unit]
  norm_num [underway, observation, PlanarError.values, Double.value, holonomicLinear, beyond,
    unitController, holonomicAngular, aside, clamp, hhypot, hnone]

/-- The robot turns its direction of travel by what the rate allows. -/
theorem call_aside {dt : ℝ} (h0 : 0 ≤ dt) (h1 : dt ≤ 1) :
    (call (unitController allowReverseX) unitMotion underway (observation x 2 dt)).2 =
      some ⟨⟨Real.cos dt, Real.sin dt, 0⟩, 0⟩ := by
  obtain ⟨command, hcommand⟩ := call_returns (unit_accepted allowReverseX).valid
    (finite_observation x 2 dt) unitMotion underway
  have hl := call_limited (unit_accepted allowReverseX).valid (finite_observation x 2 dt) hcommand
  rw [hcommand, Option.some.injEq]
  rw [wanted_aside allowReverseX hx, confirmed_aside allowReverseX hx] at hl
  generalize (call (unitController allowReverseX) unitMotion underway (observation x 2 dt)).1 = s' at hl
  have hrate : unitMotion.directionRate * (observation x 2 dt).dt = dt := one_mul dt
  cases hl with
  | still hstill => exact absurd travels_aside hstill
  | waits _ hheld => exact absurd hheld (lt_irrefl 0)
  | counts _ hheld => exact absurd hheld (lt_irrefl 0)
  | stops _ _ direction hd hbig =>
    obtain rfl : (0 : ℝ) = direction := Option.some.inj hd
    rw [turn_aside, abs_of_pos (by positivity)] at hbig
    exact absurd hbig (not_lt.mpr pi_div_two_le_maximumTurn)
  | sets _ _ hd => cases hd
  | turns _ _ direction hd =>
    obtain rfl : (0 : ℝ) = direction := Option.some.inj hd
    have hpi := Real.pi_gt_three
    have hclamp : clamp (Real.pi / 2) (-dt) dt = dt := by
      rw [clamp, if_neg (by linarith), if_pos (by linarith)]
    have hspeed : planarSpeed aside = 1 := by
      simpa [planarSpeed, aside] using Libm.real_hypot_polar zero_le_one (Real.pi / 2)
    rw [turn_aside, hrate, hclamp, zero_add, sentAlong, hspeed, one_mul, one_mul]
    rfl

end Aside

end DockingMotionController

end X2Navigation
