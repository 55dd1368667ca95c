import X2Navigation.Docking.Steering
import X2Navigation.Server.Parameters

/-! Is there an error at which the docking controller stands still for good? An
axis outside its completion tolerance moves after enough confirmed observations,
whatever its counters held before, and a stop before a large turn ends after as
many again. What remains is the gate on translation: it opens only below the stop
angle less the yaw hysteresis, while a turn is only requested above the yaw
tolerance. Between the two the robot waits. -/

namespace X2Navigation

namespace ConfirmedAxis
variable {K : Type*} [Field K] [LinearOrder K] {error tolerance hysteresis : K}

section
variable [IsStrictOrderedRing K]

theorem requested_ne_zero (ht : 0 < tolerance) (hh : 0 ≤ hysteresis) (he : tolerance < |error|) :
    requested error tolerance hysteresis ≠ 0 := by
  have hstop := (dockingStopTolerance_le ht hh).trans_lt he
  unfold requested
  rw [if_neg (not_le.mpr hstop)]
  split <;> decide

end

/-- What `n` confirmed observations of one error have made of an axis: it moves
as requested, it rests within the tolerance, or it is still counting. -/
def Progress (error tolerance hysteresis : K) (confirmations n : ℕ) (axis : ConfirmedAxis) : Prop :=
  axis.active = requested error tolerance hysteresis ∨
  (|error| ≤ tolerance ∧ axis.active = 0 ∧ n ≠ 0) ∨
  n < confirmations ∧
    (n = 0 ∨ axis.pending = requested error tolerance hysteresis ∧ n ≤ axis.count)

variable {confirmations n : ℕ} {axis : ConfirmedAxis}

theorem progress_zero (h : 1 ≤ confirmations) :
    Progress error tolerance hysteresis confirmations 0 axis := .inr (.inr ⟨h, .inl rfl⟩)

theorem Progress.update (h : Progress error tolerance hysteresis confirmations n axis) :
    Progress error tolerance hysteresis confirmations (n + 1)
      (axis.update error tolerance hysteresis confirmations) := by
  unfold ConfirmedAxis.update
  dsimp only
  split
  · next h0 => exact .inl h0.symm
  split
  · next hne =>
    split
    · next hle => exact .inr (.inl ⟨hle, rfl, by omega⟩)
    · next hgt =>
      obtain ⟨hn, hcount⟩ := (h.resolve_left (Ne.symm hne)).resolve_left fun h => hgt h.1
      generalize hk : (if requested error tolerance hysteresis = axis.pending then axis.count + 1
        else 1) = count
      have hcount : n + 1 ≤ count := by
        obtain rfl | ⟨hp, hle⟩ := hcount
        · split at hk <;> omega
        · rw [if_pos hp.symm] at hk
          omega
      by_cases hc : confirmations ≤ count
      · exact .inl (by simp [hc])
      · exact .inr (.inr ⟨by omega, .inr ⟨rfl, hcount⟩⟩)
  · next heq => exact .inl (not_not.mp heq).symm

/-- After enough observations an axis does not change any more. -/
theorem Progress.active_update (h : Progress error tolerance hysteresis confirmations n axis)
    (hn : confirmations ≤ n) :
    (axis.update error tolerance hysteresis confirmations).active = axis.active := by
  unfold ConfirmedAxis.update
  dsimp only
  obtain hact | ⟨hle, hact, -⟩ | ⟨hlt, -⟩ := h
  · split
    · next h0 => rw [hact, h0]
    · simp [hact]
  · split
    · rw [hact]
    · next h0 => rw [if_pos (by rwa [hact]), hact]
  · omega

theorem Progress.active_eq (h : Progress error tolerance hysteresis confirmations n axis)
    (hn : confirmations ≤ n) (he : tolerance < |error|) :
    axis.active = requested error tolerance hysteresis := by
  obtain hact | ⟨hle, -⟩ | ⟨hlt, -⟩ := h
  · exact hact
  · exact absurd hle (not_le.mpr he)
  · omega

end ConfirmedAxis

namespace DockingMotionController

variable {controller : HolonomicFineAlignConfig ℝ} {motion : DockingMotionConfig ℝ}

/-! ### The direction of travel -/

/-- Under way, in a direction that the wanted one is not a large turn from. -/
def Aligned (wanted : ℝ) (s : DockingMotionController ℝ) : Prop :=
  s.directionReconfirmations = 0 ∧
    ∃ d, s.direction = some d ∧ |wrapAngle Libm.real (wanted - d)| ≤ maximumTurn

/-- Turning by part of the difference leaves less than the difference. -/
theorem aligned_turn {wanted d bound : ℝ} (hb : 0 ≤ bound)
    (h : |wrapAngle Libm.real (wanted - d)| ≤ maximumTurn) :
    |wrapAngle Libm.real (wanted - (d + clamp (wrapAngle Libm.real (wanted - d)) (-bound) bound))| ≤
      maximumTurn := by
  have hle := (abs_sub_clamp_le (wrapAngle Libm.real (wanted - d)) hb).trans h
  rw [← wrapAngle_real_wrapAngle_sub, wrapAngle_real_eq_self (hle.trans_lt maximumTurn_lt_pi)]
  exact hle

/-- Steering either goes on, or stops once before a large turn. -/
theorem steer_cases {dt speed : ℝ} (command : Twist ℝ) {s : DockingMotionController ℝ}
    (hrate : 0 ≤ motion.directionRate * dt) (hspeed : 0 < speed)
    (hs : s.directionReconfirmations = 0) :
    (Aligned (Libm.real.atan2 command.linear.y command.linear.x)
        (steer motion Libm.real dt command speed s).1 ∧
      Travels (steer motion Libm.real dt command speed s).2) ∨
    ((∀ d, s.direction = some d →
        maximumTurn < |wrapAngle Libm.real (Libm.real.atan2 command.linear.y command.linear.x - d)|) ∧
      s.direction.isSome ∧
      (steer motion Libm.real dt command speed s).1 =
        { s with direction := none, directionReconfirmations := 1 }) := by
  unfold steer
  dsimp only
  cases hd : s.direction with
  | none =>
    refine .inl ⟨⟨hs, _, rfl, ?_⟩, travels_of_speed hspeed⟩
    rw [sub_self, wrapAngle_real_eq_self (by simpa using Real.pi_pos), abs_zero]
    norm_num [maximumTurn]
  | some d =>
    dsimp only
    split
    · next hbig => exact .inr ⟨fun d' h => by obtain rfl := Option.some.inj h; exact hbig, rfl, rfl⟩
    · next hsmall =>
      refine .inl ⟨⟨hs, _, rfl, ?_⟩, travels_of_speed hspeed⟩
      rw [neg_mul]
      exact aligned_turn hrate (not_lt.mp hsmall)

/-- Held after such a stop, with `n` observations since the motion was ready. -/
def Held (confirmations n : ℕ) (s : DockingMotionController ℝ) : Prop :=
  s.direction = none ∧ n + 1 ≤ confirmations + s.directionReconfirmations ∧
    0 < s.directionReconfirmations ∧ s.directionReconfirmations ≤ confirmations

/-- While the robot is held it has no direction. -/
def Consistent (confirmations : ℕ) (s : DockingMotionController ℝ) : Prop :=
  0 < s.directionReconfirmations →
    s.direction = none ∧ s.directionReconfirmations ≤ confirmations

theorem steer_consistent {dt speed : ℝ} {command : Twist ℝ} {s : DockingMotionController ℝ}
    (hc : 1 ≤ motion.confirmationSamples) (hs : s.directionReconfirmations = 0) :
    Consistent motion.confirmationSamples (steer motion Libm.real dt command speed s).1 := by
  unfold steer
  dsimp only
  split
  · exact fun h => absurd h (by simp [hs])
  · split
    · exact fun _ => ⟨rfl, hc⟩
    · exact fun h => absurd h (by simp [hs])

theorem limitDirection_consistent {dt : ℝ} {new : Bool} {command : Twist ℝ}
    {s : DockingMotionController ℝ} (hc : 1 ≤ motion.confirmationSamples)
    (h : Consistent motion.confirmationSamples s) :
    Consistent motion.confirmationSamples (limitDirection motion Libm.real dt new command s).1 := by
  unfold limitDirection
  dsimp only
  split
  · split
    · next hr =>
      split
      · exact h
      · split
        · next hle => exact fun _ => ⟨(h hr).1, hle⟩
        · exact steer_consistent hc rfl
    · next hr => exact steer_consistent hc (by omega)
  · exact fun h => absurd h (by simp)

/-- A robot under way stays under way as long as the command does not change. -/
theorem limitDirection_of_aligned {dt : ℝ} {new : Bool} {command : Twist ℝ}
    {s : DockingMotionController ℝ} (hrate : 0 ≤ motion.directionRate * dt)
    (hspeed : Travels command)
    (h : Aligned (Libm.real.atan2 command.linear.y command.linear.x) s) :
    Aligned (Libm.real.atan2 command.linear.y command.linear.x)
        (limitDirection motion Libm.real dt new command s).1 ∧
      Travels (limitDirection motion Libm.real dt new command s).2 := by
  have hpos := (Libm.real_hypot_pos_iff _ _).mpr hspeed
  obtain ⟨hr, d, hd, hsmall⟩ := h
  have hlim : limitDirection motion Libm.real dt new command s =
      steer motion Libm.real dt command (Libm.real.hypot command.linear.x command.linear.y) s := by
    simp [limitDirection, hpos, hr]
  rw [hlim]
  obtain hgo | ⟨hbig, -, -⟩ := steer_cases command hrate hpos hr
  · exact hgo
  · exact absurd (hbig d hd) (not_lt.mpr hsmall)

/-- A held robot goes on, or counts the observation. -/
theorem limitDirection_of_held {dt : ℝ} (new : Bool) {command : Twist ℝ} {n : ℕ}
    {s : DockingMotionController ℝ} (hrate : 0 ≤ motion.directionRate * dt)
    (hspeed : Travels command) (h : Held motion.confirmationSamples n s) :
    (Aligned (Libm.real.atan2 command.linear.y command.linear.x)
        (limitDirection motion Libm.real dt new command s).1 ∧
      Travels (limitDirection motion Libm.real dt new command s).2) ∨
    Held motion.confirmationSamples (if new then n + 1 else n)
      (limitDirection motion Libm.real dt new command s).1 := by
  have hpos := (Libm.real_hypot_pos_iff _ _).mpr hspeed
  obtain ⟨hd, hn, hr, hle⟩ := h
  unfold limitDirection
  simp only [hpos, hr, if_true]
  cases new with
  | false => exact .inr ⟨hd, hn, hr, hle⟩
  | true =>
    simp only [Bool.not_true, Bool.false_eq_true, if_false, if_true]
    split
    · next hc => exact .inr ⟨hd, by dsimp only; omega, by dsimp only; omega, hc⟩
    · obtain hgo | ⟨-, hsome, -⟩ := @steer_cases motion _ _ command
        { s with directionReconfirmations := 0 } hrate hpos rfl
      · exact .inl hgo
      · simp [hd] at hsome

/-- The first call with a ready motion, from whatever the direction was before. -/
theorem limitDirection_of_consistent {dt : ℝ} {command : Twist ℝ} {s : DockingMotionController ℝ}
    (hrate : 0 ≤ motion.directionRate * dt) (hc : 1 ≤ motion.confirmationSamples)
    (hspeed : Travels command) (h : Consistent motion.confirmationSamples s) :
    (Aligned (Libm.real.atan2 command.linear.y command.linear.x)
        (limitDirection motion Libm.real dt true command s).1 ∧
      Travels (limitDirection motion Libm.real dt true command s).2) ∨
    Held motion.confirmationSamples motion.confirmationSamples
      (limitDirection motion Libm.real dt true command s).1 := by
  have hpos := (Libm.real_hypot_pos_iff _ _).mpr hspeed
  by_cases hr : 0 < s.directionReconfirmations
  · obtain ⟨hd, hle⟩ := h hr
    have hheld : Held motion.confirmationSamples (motion.confirmationSamples - 1) s :=
      ⟨hd, by omega, hr, hle⟩
    have hnext := limitDirection_of_held true hrate hspeed hheld
    rwa [if_pos rfl, Nat.sub_add_cancel hc] at hnext
  · have hlim : limitDirection motion Libm.real dt true command s =
        steer motion Libm.real dt command (Libm.real.hypot command.linear.x command.linear.y) s := by
      simp [limitDirection, hpos, hr]
    rw [hlim]
    refine (steer_cases command hrate hpos (by omega)).imp_right ?_
    rintro ⟨-, -, hstop⟩
    rw [hstop]
    exact ⟨rfl, le_rfl, Nat.one_pos, hc⟩

/-! ### The command before its direction -/

theorem holonomicLinear_travels {error : PlanarError ℝ} {config : HolonomicFineAlignConfig ℝ}
    {angular : Vector3 ℝ} (hv : validHolonomicFineAlignConfig config = true)
    (hyaw : |error.yaw| < config.translationYawStop)
    (h : (if config.allowReverseX then beyond error.x config.xPositionTolerance
        else max 0 (beyond error.x config.xPositionTolerance)) ≠ 0 ∨
      beyond error.y config.yPositionTolerance ≠ 0) :
    Travels ⟨holonomicLinear Libm.real error config, angular⟩ := by
  simp only [validHolonomicFineAlignConfig, decide_eq_true_eq] at hv
  obtain ⟨-, -, hmin, hmax, -, -, hstop, -⟩ := hv
  have hdist := (Libm.real_hypot_pos_iff _ _).mpr h
  have hfrac : |error.yaw| / config.translationYawStop ≤ 1 := by
    rw [div_le_one hstop]
    exact hyaw.le
  have hspeed : ∀ x, 0 < clamp x config.translationSpeedMin (config.translationSpeedMin +
      (config.translationSpeedMax - config.translationSpeedMin) *
        (1 - |error.yaw| / config.translationYawStop)) := by
    intro x
    apply clamp_pos hmin
    have : 0 ≤ (config.translationSpeedMax - config.translationSpeedMin) *
        (1 - |error.yaw| / config.translationYawStop) :=
      mul_nonneg (by linarith) (by linarith)
    linarith
  unfold holonomicLinear
  dsimp only
  rw [if_pos ⟨hdist, hyaw⟩]
  refine h.imp (fun hx => ?_) (fun hy => ?_)
  · exact div_ne_zero (mul_ne_zero (hspeed _).ne' hx) hdist.ne'
  · exact div_ne_zero (mul_ne_zero (hspeed _).ne' hy) hdist.ne'

variable {error : PlanarError ℝ}

theorem beyond_ne_zero {e tolerance : ℝ} (ht : 0 < tolerance) (h : tolerance < |e|) :
    beyond e tolerance ≠ 0 := by
  unfold beyond
  rw [if_pos h]
  rintro rfl
  simp only [abs_zero] at h
  linarith

/-- An axis in motion outside its tolerance, and the gate open. -/
theorem requestedCommand_travels (ha : ControllerAccepted controller motion)
    {s : DockingMotionController ℝ} (hen : s.translationEnabled = true)
    (hyaw : |error.yaw| < controller.translationYawStop)
    (h : s.xActive ≠ 0 ∧ controller.xPositionTolerance < |xError controller error| ∨
      s.yActive ≠ 0 ∧ controller.yPositionTolerance < |error.y|) :
    ∃ command, requestedCommand controller motion Libm.real error s = some command ∧
      Travels command := by
  refine ⟨_, requestedCommand_eq ha.valid motion error s, ?_⟩
  simp only [hen, if_true]
  have hv := ha.valid
  simp only [validHolonomicFineAlignConfig, decide_eq_true_eq] at hv
  obtain ⟨-, -, -, -, -, -, -, hx0, hy0, -⟩ := hv
  refine holonomicLinear_travels (valid_movingConfig ha.valid motion) hyaw (h.imp ?_ ?_)
  · rintro ⟨hact, hx⟩
    have hstop := ConfirmedAxis.dockingStopTolerance_le hx0 ha.positionHysteresis
    have hpos := ConfirmedAxis.dockingStopTolerance_pos hx0 motion.positionHysteresis
    simp only [movingConfig, if_neg hact]
    unfold xError at hx
    split at hx
    · next hrev => simpa [hrev] using beyond_ne_zero hpos (hstop.trans_lt hx)
    · next hrev =>
      have hx' : controller.xPositionTolerance < error.x := by
        obtain hneg | hneg := le_total error.x 0
        · rw [max_eq_left hneg, abs_zero] at hx
          linarith
        · rwa [max_eq_right hneg, abs_of_nonneg hneg] at hx
      have habs : dockingStopTolerance controller.xPositionTolerance motion.positionHysteresis <
          |error.x| := (hstop.trans_lt hx').trans_le (le_abs_self _)
      simp only [hrev, Bool.false_eq_true, if_false, beyond, habs, if_true]
      exact (lt_max_of_lt_right (hx0.trans hx')).ne'
  · rintro ⟨hact, hy⟩
    have hstop := ConfirmedAxis.dockingStopTolerance_le hy0 ha.positionHysteresis
    have hpos := ConfirmedAxis.dockingStopTolerance_pos hy0 motion.positionHysteresis
    simp only [movingConfig, if_neg hact]
    exact beyond_ne_zero hpos (hstop.trans_lt hy)

/-! ### Calls with one error -/

/-- A call of `update`: the time step, and whether the observation is new. -/
abbrev Call := ℝ × Bool

noncomputable def run (controller : HolonomicFineAlignConfig ℝ) (motion : DockingMotionConfig ℝ)
    (error : PlanarError ℝ) (calls : List Call) (s : DockingMotionController ℝ) :
    DockingMotionController ℝ :=
  calls.foldl (fun s call => (update controller motion Libm.real error.finite call.1 call.2 s).1) s

/-- The states of a controller that was called in any way at all. -/
inductive Reachable (controller : HolonomicFineAlignConfig ℝ) (motion : DockingMotionConfig ℝ) :
    DockingMotionController ℝ → Prop
  | new : Reachable controller motion new
  | update {s : DockingMotionController ℝ} (error : PlanarError (Double ℝ)) (dt : ℝ)
      (newObservation : Bool) (hdt : 0 ≤ dt) (h : Reachable controller motion s) :
      Reachable controller motion (update controller motion Libm.real error dt newObservation s).1

theorem consistent_update (ha : ControllerAccepted controller motion) {s : DockingMotionController ℝ}
    (e : PlanarError (Double ℝ)) (dt : ℝ) (newObservation : Bool)
    (h : Consistent motion.confirmationSamples s) :
    Consistent motion.confirmationSamples
      (update controller motion Libm.real e dt newObservation s).1 := by
  have hconf : Consistent motion.confirmationSamples
      (if newObservation then confirm controller motion e.values s else s) := by
    split
    · obtain ⟨-, -, -, -, -, -, hd, hr⟩ :=
        confirm_frame controller motion e.values s
      unfold Consistent
      rwa [hd, hr]
    · exact h
  unfold update
  split
  · exact h
  · dsimp only
    split
    · exact hconf
    · exact limitDirection_consistent ha.confirmationSamples.1 hconf

theorem Reachable.consistent (ha : ControllerAccepted controller motion)
    {s : DockingMotionController ℝ} (h : Reachable controller motion s) :
    Consistent motion.confirmationSamples s := by
  induction h with
  | new => exact fun h => absurd h (by simp [DockingMotionController.new])
  | update e dt newObservation _ _ ih => exact consistent_update ha e dt newObservation ih

/-- What `n` new observations of one error have made of the axes and the gate. -/
structure Counted (controller : HolonomicFineAlignConfig ℝ) (motion : DockingMotionConfig ℝ)
    (error : PlanarError ℝ) (n : ℕ) (s : DockingMotionController ℝ) : Prop where
  x : s.x.Progress (xError controller error) controller.xPositionTolerance
    motion.positionHysteresis motion.confirmationSamples n
  y : s.y.Progress error.y controller.yPositionTolerance motion.positionHysteresis
    motion.confirmationSamples n
  gate : s.translationEnabled = true ∨
    n < motion.confirmationSamples ∧ n ≤ s.translationConfirmations
  xActive : n ≠ 0 → s.xActive = s.x.active
  yActive : n ≠ 0 → s.yActive = s.y.active

/-- Once the axes are decided, the robot is under way or held. -/
def Steered (controller : HolonomicFineAlignConfig ℝ) (motion : DockingMotionConfig ℝ)
    (error : PlanarError ℝ) (n : ℕ) (s : DockingMotionController ℝ) : Prop :=
  motion.confirmationSamples ≤ n → ∃ command,
    requestedCommand controller motion Libm.real error s = some command ∧
    (Aligned (Libm.real.atan2 command.linear.y command.linear.x) s ∨
      Held motion.confirmationSamples n s)

structure Toward (controller : HolonomicFineAlignConfig ℝ) (motion : DockingMotionConfig ℝ)
    (error : PlanarError ℝ) (n : ℕ) (s : DockingMotionController ℝ) : Prop where
  counted : Counted controller motion error n s
  consistent : Consistent motion.confirmationSamples s
  steered : Steered controller motion error n s

theorem gate_confirm {n : ℕ} {s : DockingMotionController ℝ} (ha : ControllerAccepted controller motion)
    (hyaw : |error.yaw| < controller.translationYawStop - motion.yawHysteresis)
    (h : s.translationEnabled = true ∨
      n < motion.confirmationSamples ∧ n ≤ s.translationConfirmations) :
    (confirm controller motion error s).translationEnabled = true ∨
      n + 1 < motion.confirmationSamples ∧
        n + 1 ≤ (confirm controller motion error s).translationConfirmations := by
  have hstop : ¬ controller.translationYawStop ≤ |error.yaw| := by
    have := ha.yawHysteresis
    linarith
  unfold confirm gateTranslation
  simp only [hstop, if_false, hyaw, if_true]
  split
  · next hoff =>
    have hoff : s.translationEnabled = false := by simpa using hoff
    obtain hon | ⟨hn, hcount⟩ := h
    · simp [hoff] at hon
    · by_cases hc : motion.confirmationSamples ≤ s.translationConfirmations + 1
      · exact .inl (by simpa using hc)
      · exact .inr ⟨by omega, by dsimp only; omega⟩
  · next hon => exact .inl (by simpa using hon)

/-- The planar part of the command depends on which axes are active. -/
theorem requestedCommand_linear_congr (ha : ControllerAccepted controller motion)
    {s s' : DockingMotionController ℝ} {command command' : Twist ℝ}
    (hx : s'.xActive = s.xActive) (hy : s'.yActive = s.yActive)
    (hen : s'.translationEnabled = s.translationEnabled)
    (h : requestedCommand controller motion Libm.real error s = some command)
    (h' : requestedCommand controller motion Libm.real error s' = some command') :
    command'.linear = command.linear := by
  have heq := requestedCommand_eq ha.valid motion error s
  have heq' := requestedCommand_eq ha.valid motion error s'
  simp only [h, h', hx, hy, hen, Option.some.injEq] at heq heq'
  rw [heq, heq']

theorem update_of_requested {dt : ℝ} {newObservation : Bool} {s : DockingMotionController ℝ}
    {command : Twist ℝ} (h : requestedCommand controller motion Libm.real error
      (if newObservation then confirm controller motion error s else s) = some command) :
    update controller motion Libm.real error.finite dt newObservation s =
      ((limitDirection motion Libm.real dt newObservation command
          (if newObservation then confirm controller motion error s else s)).1,
        some (limitDirection motion Libm.real dt newObservation command
          (if newObservation then confirm controller motion error s else s)).2) := by
  simp [update, h]

/-- An error the robot should move at: beyond a position tolerance, with the
robot turned so little that the gate opens. -/
structure Approachable (controller : HolonomicFineAlignConfig ℝ) (motion : DockingMotionConfig ℝ)
    (error : PlanarError ℝ) : Prop where
  yaw : |error.yaw| < controller.translationYawStop - motion.yawHysteresis
  position : controller.xPositionTolerance < |xError controller error| ∨
    controller.yPositionTolerance < |error.y|

variable {n : ℕ} {s : DockingMotionController ℝ}

theorem Counted.confirm (ha : ControllerAccepted controller motion)
    (he : Approachable controller motion error) (h : Counted controller motion error n s) :
    Counted controller motion error (n + 1) (confirm controller motion error s) := by
  obtain ⟨hx, hy, -, hxa, hya, -⟩ := confirm_frame controller motion error s
  refine ⟨?_, ?_, gate_confirm ha he.yaw h.gate, fun _ => hxa, fun _ => hya⟩
  · rw [hx]; exact h.x.update
  · rw [hy]; exact h.y.update

/-- With every axis decided, a further observation does not change the motion. -/
theorem Counted.confirm_eq (ha : ControllerAccepted controller motion)
    (he : Approachable controller motion error) (h : Counted controller motion error n s)
    (hn : motion.confirmationSamples ≤ n) :
    (DockingMotionController.confirm controller motion error s).xActive = s.xActive ∧
    (DockingMotionController.confirm controller motion error s).yActive = s.yActive ∧
    (DockingMotionController.confirm controller motion error s).translationEnabled =
      s.translationEnabled := by
  have hc := ha.confirmationSamples.1
  obtain ⟨hx, hy, -, hxa, hya, -⟩ := confirm_frame controller motion error s
  have hgate := (h.confirm ha he).gate.resolve_right (by omega)
  have hgate' := h.gate.resolve_right (by omega)
  refine ⟨?_, ?_, by rw [hgate, hgate']⟩
  · rw [hxa, hx, h.x.active_update hn, h.xActive (by omega)]
  · rw [hya, hy, h.y.active_update hn, h.yActive (by omega)]

/-- With every axis decided, the controller asks for motion. -/
theorem Counted.requested (ha : ControllerAccepted controller motion)
    (he : Approachable controller motion error) (h : Counted controller motion error n s)
    (hn : motion.confirmationSamples ≤ n) {command : Twist ℝ}
    (hcmd : requestedCommand controller motion Libm.real error s = some command) :
    Travels command := by
  have hv := ha.valid
  simp only [validHolonomicFineAlignConfig, decide_eq_true_eq] at hv
  obtain ⟨-, -, -, -, -, -, -, hx0, hy0, -⟩ := hv
  have hc := ha.confirmationSamples.1
  have hyaw : |error.yaw| < controller.translationYawStop := by
    have := ha.yawHysteresis
    linarith [he.yaw]
  have hen := h.gate.resolve_right (by omega)
  obtain ⟨command', hcmd', ht⟩ := requestedCommand_travels ha hen hyaw (he.position.imp
    (fun hx => (⟨by
      rw [h.xActive (by omega), h.x.active_eq hn hx]
      exact ConfirmedAxis.requested_ne_zero hx0 ha.positionHysteresis hx, hx⟩ : _ ∧ _))
    (fun hy => (⟨by
      rw [h.yActive (by omega), h.y.active_eq hn hy]
      exact ConfirmedAxis.requested_ne_zero hy0 ha.positionHysteresis hy, hy⟩ : _ ∧ _)))
  obtain rfl := Option.some.inj (hcmd.symm.trans hcmd')
  exact ht

theorem Aligned.confirm {wanted : ℝ} (h : Aligned wanted s) :
    Aligned wanted (confirm controller motion error s) := by
  obtain ⟨-, -, -, -, -, -, hd, hr⟩ := confirm_frame controller motion error s
  unfold Aligned
  rwa [hd, hr]

theorem Held.confirm (h : Held motion.confirmationSamples n s) :
    Held motion.confirmationSamples n (confirm controller motion error s) := by
  obtain ⟨-, -, -, -, -, -, hd, hr⟩ := confirm_frame controller motion error s
  unfold Held
  rwa [hd, hr]

theorem Consistent.confirm (h : Consistent motion.confirmationSamples s) :
    Consistent motion.confirmationSamples (confirm controller motion error s) := by
  obtain ⟨-, -, -, -, -, -, hd, hr⟩ := confirm_frame controller motion error s
  unfold Consistent
  rwa [hd, hr]

/-- The last stage of a call, once the axes are decided. -/
theorem Toward.limitDirection {dt : ℝ} {new : Bool} {command : Twist ℝ}
    (ha : ControllerAccepted controller motion) (he : Approachable controller motion error)
    (hdt : 0 ≤ dt) (h : Toward controller motion error n s)
    (hn : motion.confirmationSamples ≤ if new then n + 1 else n)
    (hcmd : requestedCommand controller motion Libm.real error
      (if new then confirm controller motion error s else s) = some command)
    (ht : Travels command) :
    (Aligned (Libm.real.atan2 command.linear.y command.linear.x)
        (DockingMotionController.limitDirection motion Libm.real dt new command
          (if new then confirm controller motion error s else s)).1 ∧
      Travels (DockingMotionController.limitDirection motion Libm.real dt new command
          (if new then confirm controller motion error s else s)).2) ∨
    Held motion.confirmationSamples (if new then n + 1 else n)
      (DockingMotionController.limitDirection motion Libm.real dt new command
        (if new then confirm controller motion error s else s)).1 := by
  have hrate : 0 ≤ motion.directionRate * dt := mul_nonneg ha.directionRate.le hdt
  by_cases hlate : motion.confirmationSamples ≤ n
  · obtain ⟨before, hbefore, hstate⟩ := h.steered hlate
    cases new with
    | false =>
      obtain rfl := Option.some.inj (hbefore.symm.trans hcmd)
      exact hstate.elim (fun hal => .inl (limitDirection_of_aligned hrate ht hal))
        (limitDirection_of_held false hrate ht)
    | true =>
      obtain ⟨hx, hy, hen⟩ := h.counted.confirm_eq ha he hlate
      have hlin : command.linear = before.linear :=
        requestedCommand_linear_congr ha hx hy hen hbefore hcmd
      rw [← hlin] at hstate
      exact hstate.elim (fun hal => .inl (limitDirection_of_aligned hrate ht hal.confirm))
        (fun hheld => limitDirection_of_held true hrate ht hheld.confirm)
  · cases new with
    | false => exact absurd hn hlate
    | true =>
      have hlast : n + 1 = motion.confirmationSamples := by
        simp only [if_true] at hn
        omega
      simp only [if_true, hlast]
      exact limitDirection_of_consistent hrate ha.confirmationSamples.1 ht h.consistent.confirm

/-- One call, with a new observation or without. From the second round of
confirmations on the command is not zero. -/
theorem Toward.update {dt : ℝ} (new : Bool) (ha : ControllerAccepted controller motion)
    (he : Approachable controller motion error) (hdt : 0 ≤ dt)
    (h : Toward controller motion error n s) :
    Toward controller motion error (if new then n + 1 else n)
      (update controller motion Libm.real error.finite dt new s).1 ∧
    (2 * motion.confirmationSamples ≤ (if new then n + 1 else n) → ∃ command,
      (DockingMotionController.update controller motion Libm.real error.finite dt new s).2 =
        some command ∧ Travels command) := by
  have hcounted : Counted controller motion error (if new then n + 1 else n)
      (if new then DockingMotionController.confirm controller motion error s else s) := by
    split
    · exact h.counted.confirm ha he
    · exact h.counted
  have hcons := consistent_update ha error.finite dt new h.consistent
  obtain ⟨command, hcmd⟩ : ∃ command, requestedCommand controller motion Libm.real error
      (if new then DockingMotionController.confirm controller motion error s else s) =
        some command := ⟨_, requestedCommand_eq ha.valid motion error _⟩
  have hlimit := fun hn => h.limitDirection ha he hdt hn hcmd (hcounted.requested ha he hn hcmd)
  have hup := @update_of_requested controller motion error dt new s command hcmd
  obtain ⟨direction, count, hframe⟩ := @limitDirection_frame motion dt new command
    (if new then DockingMotionController.confirm controller motion error s else s)
  rw [hup] at hcons ⊢
  dsimp only at hcons ⊢
  rw [hframe] at hcons hlimit ⊢
  refine ⟨⟨⟨hcounted.x, hcounted.y, hcounted.gate, hcounted.xActive, hcounted.yActive⟩, hcons,
    fun hn => ⟨command, hcmd, (hlimit hn).imp_left And.left⟩⟩, fun hn => ⟨_, rfl, ?_⟩⟩
  -- a held robot has been held for too few observations
  obtain hgo | hheld := hlimit (by omega)
  · exact hgo.2
  · obtain ⟨-, hlow, -, hhigh⟩ := hheld
    dsimp only at hlow hhigh
    omega

/-- What every call keeps, a whole sequence of calls keeps, counting the new
observations. -/
theorem run_counts {P : ℕ → DockingMotionController ℝ → Prop}
    (hstep : ∀ n s dt new, 0 ≤ dt → P n s → P (if new then n + 1 else n)
      (DockingMotionController.update controller motion Libm.real error.finite dt new s).1)
    (calls : List Call) (hdt : ∀ call ∈ calls, 0 ≤ call.1) (h : P n s) :
    P (n + calls.countP Prod.snd) (run controller motion error calls s) := by
  induction calls generalizing n s with
  | nil => exact h
  | cons call calls ih =>
    have hnext := ih (fun c hc => hdt c (List.mem_cons_of_mem _ hc))
      (hstep n s call.1 call.2 (hdt call List.mem_cons_self) h)
    have hn : n + (calls.countP Prod.snd + if call.2 = true then 1 else 0) =
        (if call.2 = true then n + 1 else n) + calls.countP Prod.snd := by
      split <;> omega
    rw [List.countP_cons, hn]
    exact hnext

/-! ### Turning -/

theorem limitDirection_angular {dt : ℝ} {new : Bool} {command : Twist ℝ} :
    (DockingMotionController.limitDirection motion Libm.real dt new command s).2.angular =
      command.angular := by
  have hsteer : ∀ (speed : ℝ) (s : DockingMotionController ℝ),
      (steer motion Libm.real dt command speed s).2.angular = command.angular := by
    intro speed s
    unfold steer
    dsimp only
    split
    · rfl
    · split <;> rfl
  unfold DockingMotionController.limitDirection
  dsimp only
  split
  · split
    · split
      · rfl
      · split
        · rfl
        · exact hsteer _ _
    · exact hsteer _ _
  · rfl

theorem update_yaw {dt : ℝ} (new : Bool) (ha : ControllerAccepted controller motion) :
    (DockingMotionController.update controller motion Libm.real error.finite dt new s).1.yaw =
      if new then s.yaw.update error.yaw controller.yawTolerance motion.yawHysteresis
        motion.confirmationSamples else s.yaw := by
  have hcmd := requestedCommand_eq ha.valid motion error (if new then confirm controller motion error s else s)
  rw [update_of_requested hcmd]
  obtain ⟨direction, count, hframe⟩ := @limitDirection_frame motion dt new _
    (if new then confirm controller motion error s else s)
  rw [hframe]
  cases new with
  | false => rfl
  | true => exact (confirm_frame controller motion error s).2.2.1

/-- Beyond the yaw tolerance the robot turns after one round of confirmations. -/
theorem update_turns {dt : ℝ} (ha : ControllerAccepted controller motion)
    (he : controller.yawTolerance < |error.yaw|)
    (h : s.yaw.Progress error.yaw controller.yawTolerance motion.yawHysteresis
      motion.confirmationSamples n) (hn : motion.confirmationSamples ≤ n + 1) :
    ∃ command, (DockingMotionController.update controller motion Libm.real error.finite dt true s).2 =
      some command ∧ command ≠ 0 := by
  have hv := ha.valid
  simp only [validHolonomicFineAlignConfig, decide_eq_true_eq] at hv
  obtain ⟨-, -, -, -, hmin, hmax, -, -, -, hyaw0⟩ := hv
  have hcmd := requestedCommand_eq ha.valid motion error (if true then confirm controller motion error s else s)
  rw [update_of_requested hcmd]
  refine ⟨_, rfl, fun hzero => ?_⟩
  have hang := congrArg (fun command : Twist ℝ => command.angular.z) hzero
  rw [limitDirection_angular] at hang
  obtain ⟨-, -, hyaw, -, -, hact, -, -⟩ := confirm_frame controller motion error s
  have hactive : (confirm controller motion error s).yawActive ≠ 0 := by
    rw [hact, hyaw, h.update.active_eq hn he]
    exact ConfirmedAxis.requested_ne_zero hyaw0 ha.yawHysteresis he
  have hstop := (ConfirmedAxis.dockingStopTolerance_le hyaw0 ha.yawHysteresis).trans_lt he
  have hspeed : 0 < clamp (controller.yawGain * |error.yaw|) controller.angularSpeedMin
    controller.angularSpeedMax := clamp_pos hmin hmax
  simp only [if_true, if_neg hactive, holonomicAngular, movingConfig, hstop, copysign] at hang
  rw [abs_of_pos hspeed] at hang
  change (if error.yaw < 0 then _ else _) = (0 : ℝ) at hang
  split at hang <;> linarith

/-! ### The band -/

/-- Away from completion, and not behind a target it must not reverse to, the
robot moves after two rounds of confirmations, in whatever state it started. -/
def NoStoppedWaitingBand (controller : HolonomicFineAlignConfig ℝ)
    (motion : DockingMotionConfig ℝ) : Prop :=
  ∀ s, Reachable controller motion s → ∀ error : PlanarError ℝ,
    fineAlignAtGoal error.finite controller = false →
    (controller.allowReverseX = false → -controller.xPositionTolerance ≤ error.x) →
    ∀ calls : List Call, (∀ call ∈ calls, 0 ≤ call.1) → ∀ dt : ℝ, 0 ≤ dt →
      2 * motion.confirmationSamples ≤ calls.countP Prod.snd + 1 →
      ∃ command, (DockingMotionController.update controller motion Libm.real error.finite dt true
        (run controller motion error calls s)).2 = some command ∧ command ≠ 0

theorem not_fineAlignAtGoal (h : fineAlignAtGoal error.finite controller = false) :
    controller.xPositionTolerance < |error.x| ∨ controller.yPositionTolerance < |error.y| ∨
      controller.yawTolerance < |error.yaw| := by
  by_contra hn
  simp only [not_or, not_lt] at hn
  simp [fineAlignAtGoal, hn] at h

theorem approachable_of_not_atGoal (hband : controller.yawTolerance <
      controller.translationYawStop - motion.yawHysteresis)
    (hgoal : fineAlignAtGoal error.finite controller = false)
    (hrev : controller.allowReverseX = false → -controller.xPositionTolerance ≤ error.x)
    (hyaw : |error.yaw| ≤ controller.yawTolerance) : Approachable controller motion error := by
  refine ⟨hyaw.trans_lt hband, ?_⟩
  obtain hx | hy | hyaw' := not_fineAlignAtGoal hgoal
  · left
    unfold xError
    split
    · exact hx
    · next hno =>
      have hlow := hrev (by simpa using hno)
      have hpos : controller.xPositionTolerance < error.x := by
        obtain hneg | hpos := abs_cases error.x <;> linarith
      exact hpos.trans_le ((le_max_right 0 error.x).trans (le_abs_self _))
  · exact .inr hy
  · exact absurd hyaw (not_le.mpr hyaw')

theorem noStoppedWaitingBand_of_lt (ha : ControllerAccepted controller motion)
    (hband : controller.yawTolerance < controller.translationYawStop - motion.yawHysteresis) :
    NoStoppedWaitingBand controller motion := by
  intro s hs error hgoal hrev calls hcalls dt hdt hcount
  have hc := ha.confirmationSamples.1
  by_cases hyaw : controller.yawTolerance < |error.yaw|
  · have hprog : s.yaw.Progress error.yaw controller.yawTolerance motion.yawHysteresis
        motion.confirmationSamples 0 := ConfirmedAxis.progress_zero hc
    have hrun := @run_counts controller motion error 0 s
      (fun n s => s.yaw.Progress error.yaw controller.yawTolerance motion.yawHysteresis
        motion.confirmationSamples n)
      (fun n s dt new _ h => by
        rw [update_yaw new ha]
        cases new with
        | false => exact h
        | true => exact h.update) calls hcalls hprog
    exact update_turns ha hyaw hrun (by omega)
  · have happ := approachable_of_not_atGoal hband hgoal hrev (not_lt.mp hyaw)
    have hzero : Toward controller motion error 0 s :=
      ⟨⟨ConfirmedAxis.progress_zero hc, ConfirmedAxis.progress_zero hc, .inr ⟨hc, Nat.zero_le _⟩,
        fun h => absurd rfl h, fun h => absurd rfl h⟩, hs.consistent ha,
        fun h => absurd h (by omega)⟩
    have hrun := @run_counts controller motion error 0 s (Toward controller motion error)
      (fun n s dt new hdt h => (Toward.update new ha happ hdt h).1) calls hcalls hzero
    obtain ⟨command, hcmd, ht⟩ := (hrun.update true ha happ hdt).2 (by simp only [if_true]; omega)
    exact ⟨command, hcmd, ht.ne_zero⟩

/-- The gate is closed and the robot is not turning. -/
structure Waiting (s : DockingMotionController ℝ) : Prop where
  yaw : s.yaw.active = 0
  yawActive : s.yawActive = 0
  gate : s.translationEnabled = false

theorem yaw_update_of_le {axis : ConfirmedAxis} (hyaw : |error.yaw| ≤ controller.yawTolerance)
    (h : axis.active = 0) :
    (axis.update error.yaw controller.yawTolerance motion.yawHysteresis
      motion.confirmationSamples).active = 0 := by
  unfold ConfirmedAxis.update
  dsimp only
  split
  · rfl
  · split
    · rfl
    · exact h

theorem Waiting.confirm (hyaw : |error.yaw| ≤ controller.yawTolerance)
    (hgate : controller.translationYawStop - motion.yawHysteresis ≤ |error.yaw|) (h : Waiting s) :
    Waiting (confirm controller motion error s) := by
  obtain ⟨-, -, hupd, -, -, hact, -, -⟩ := confirm_frame controller motion error s
  have hzero : (DockingMotionController.confirm controller motion error s).yaw.active = 0 := by
    rw [hupd]
    exact yaw_update_of_le hyaw h.yaw
  refine ⟨hzero, hact.trans hzero, ?_⟩
  have hoff := h.gate
  unfold DockingMotionController.confirm gateTranslation
  dsimp only
  split
  · rfl
  · simp [hoff, not_lt.mpr hgate]

theorem requestedCommand_of_waiting (ha : ControllerAccepted controller motion) (h : Waiting s) :
    requestedCommand controller motion Libm.real error s = some 0 := by
  rw [requestedCommand_eq ha.valid motion error s]
  simp only [h.gate, h.yawActive, holonomicLinear_z, (holonomicAngular_xy _ _).1,
    (holonomicAngular_xy _ _).2, Bool.false_eq_true, if_false, if_true]
  rfl

theorem limitDirection_zero {dt : ℝ} {new : Bool} :
    DockingMotionController.limitDirection motion Libm.real dt new 0 s =
      ({ s with direction := none, directionReconfirmations := 0 }, 0) := by
  have h0 : Libm.real.hypot (0 : Twist ℝ).linear.x (0 : Twist ℝ).linear.y = 0 :=
    (Libm.real_hypot_eq_zero_iff _ _).mpr ⟨rfl, rfl⟩
  simp [DockingMotionController.limitDirection, h0]

/-- Between the two thresholds a waiting robot goes on waiting. -/
theorem Waiting.update {dt : ℝ} (new : Bool) (ha : ControllerAccepted controller motion)
    (hyaw : |error.yaw| ≤ controller.yawTolerance)
    (hgate : controller.translationYawStop - motion.yawHysteresis ≤ |error.yaw|) (h : Waiting s) :
    Waiting (DockingMotionController.update controller motion Libm.real error.finite dt new s).1 ∧
      (DockingMotionController.update controller motion Libm.real error.finite dt new s).2 =
        some 0 := by
  have hwait : Waiting (if new then DockingMotionController.confirm controller motion error s
      else s) := by
    split
    · exact h.confirm hyaw hgate
    · exact h
  rw [update_of_requested (requestedCommand_of_waiting ha hwait), limitDirection_zero]
  exact ⟨⟨hwait.yaw, hwait.yawActive, hwait.gate⟩, rfl⟩

theorem waiting_new : Waiting new := ⟨rfl, rfl, rfl⟩

/-- A new controller waits at any such error that is not a completed one. -/
theorem not_noStoppedWaitingBand (ha : ControllerAccepted controller motion)
    (hyaw : |error.yaw| ≤ controller.yawTolerance)
    (hgate : controller.translationYawStop - motion.yawHysteresis ≤ |error.yaw|)
    (hx : controller.xPositionTolerance < error.x) : ¬ NoStoppedWaitingBand controller motion := by
  intro hband
  have hv := ha.valid
  simp only [validHolonomicFineAlignConfig, decide_eq_true_eq] at hv
  have hgoal : fineAlignAtGoal error.finite controller = false := by
    have : ¬ |error.x| ≤ controller.xPositionTolerance :=
      not_le.mpr (hx.trans_le (le_abs_self _))
    simp [fineAlignAtGoal, this]
  have hrun := @run_counts controller motion error 0 new (fun _ s => Waiting s)
    (fun _ s dt b _ h => (h.update b ha hyaw hgate).1)
    (List.replicate (2 * motion.confirmationSamples) (0, true))
    (by simp [List.mem_replicate]) waiting_new
  obtain ⟨command, hcmd, hne⟩ := hband new .new error hgoal (fun _ => by linarith)
    (List.replicate (2 * motion.confirmationSamples) (0, true)) (by simp [List.mem_replicate]) 0 le_rfl
    (by simp [List.countP_replicate])
  rw [(hrun.update true ha hyaw hgate).2] at hcmd
  exact hne (Option.some.inj hcmd).symm

theorem noStoppedWaitingBand_iff_lt (ha : ControllerAccepted controller motion) :
    NoStoppedWaitingBand controller motion ↔
      controller.yawTolerance < controller.translationYawStop - motion.yawHysteresis := by
  refine ⟨fun hband => ?_, noStoppedWaitingBand_of_lt ha⟩
  by_contra hlt
  have hpos : 0 < controller.translationYawStop - motion.yawHysteresis := by
    linarith [ha.yawHysteresis_lt]
  -- the robot is turned exactly as far as the gate still refuses
  refine @not_noStoppedWaitingBand controller motion ⟨controller.xPositionTolerance + 1, 0,
    controller.translationYawStop - motion.yawHysteresis⟩ ha ?_ ?_ ?_ hband
  · rw [abs_of_pos hpos]
    exact not_lt.mp hlt
  · exact le_abs_self _
  · exact lt_add_one _

/-- For each of its two controllers, a constructed server has no stopped waiting
band exactly where the yaw tolerance is below the angle at which the gate opens. -/
theorem noStoppedWaitingBand_iff (settings : FineAlignServer.Settings ℝ) :
    (NoStoppedWaitingBand settings.controllerConfig settings.motionConfig ↔
      settings.controllerConfig.yawTolerance <
        settings.controllerConfig.translationYawStop - settings.motionConfig.yawHysteresis) ∧
    (NoStoppedWaitingBand settings.undockControllerConfig settings.motionConfig ↔
      settings.undockControllerConfig.yawTolerance <
        settings.undockControllerConfig.translationYawStop - settings.motionConfig.yawHysteresis) :=
  ⟨noStoppedWaitingBand_iff_lt settings.controllerAccepted.1,
    noStoppedWaitingBand_iff_lt settings.controllerAccepted.2⟩

/-- The default parameters but for a yaw tolerance of 0.4 rad, which is above the
stop angle of 0.349 rad less the hysteresis. -/
noncomputable def wideYawParameters : FineAlignServer.Parameters ℝ :=
  { FineAlignServer.Parameters.declared with
    controller :=
      { FineAlignServer.Parameters.declared.controller with yawTolerance := .finite (2 / 5) } }

theorem wideYawParameters_accepted : wideYawParameters.rejected = false := by
  norm_num [FineAlignServer.Parameters.rejected, FineAlignServer.notPositive,
    FineAlignServer.negative, FineAlignServer.invalidConfig, wideYawParameters,
    HolonomicFineAlignConfig.isFinite, HolonomicFineAlignConfig.values,
    validHolonomicFineAlignConfig, FineAlignServer.Parameters.undockController,
    FineAlignServer.Parameters.declared]

noncomputable def wideYawSettings : FineAlignServer.Settings ℝ :=
  ⟨wideYawParameters, wideYawParameters_accepted⟩

/-- Turned by 0.36 rad and 0.3 m short, a new controller waits for good. -/
theorem not_noStoppedWaitingBand_wideYaw :
    ¬ NoStoppedWaitingBand wideYawSettings.controllerConfig wideYawSettings.motionConfig := by
  refine @not_noStoppedWaitingBand _ _ ⟨3 / 10, 0, 9 / 25⟩ wideYawSettings.controllerAccepted.1
    ?_ ?_ ?_
  all_goals norm_num [wideYawSettings, wideYawParameters, FineAlignServer.Parameters.declared,
    FineAlignServer.Settings.controllerConfig,
    FineAlignServer.Settings.motionConfig, HolonomicFineAlignConfig.values, abs_of_pos]

end DockingMotionController

end X2Navigation
