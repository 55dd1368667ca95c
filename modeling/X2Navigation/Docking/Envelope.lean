import X2Navigation.Docking.Steering

/-! The speeds a docking controller asks for. The proportional law keeps both
speeds between their minimum and their maximum, or asks for none; what comes after
it takes a velocity away or turns it, and so keeps its speed. -/

namespace X2Navigation

/-! ### The proportional law -/

section Law
variable {config : HolonomicFineAlignConfig ℝ}

theorem clamp_mem {lo hi : ℝ} (x : ℝ) (h : lo ≤ hi) :
    lo ≤ clamp x lo hi ∧ clamp x lo hi ≤ hi := by
  rw [clamp_eq h]
  exact ⟨le_max_left _ _, max_le h (min_le_right _ _)⟩

/-- The ceiling comes down to the minimum as the robot turns away. -/
noncomputable def yawLimitedMaximum (config : HolonomicFineAlignConfig ℝ) (yaw : ℝ) : ℝ :=
  config.translationSpeedMin + (config.translationSpeedMax - config.translationSpeedMin) *
    (1 - |yaw| / config.translationYawStop)

theorem yawLimitedMaximum_mem (hv : validHolonomicFineAlignConfig config = true) {yaw : ℝ}
    (hyaw : |yaw| < config.translationYawStop) :
    config.translationSpeedMin ≤ yawLimitedMaximum config yaw ∧
      yawLimitedMaximum config yaw ≤ config.translationSpeedMax := by
  simp only [validHolonomicFineAlignConfig, decide_eq_true_eq] at hv
  obtain ⟨-, -, -, hmax, -, -, hstop, -⟩ := hv
  have hfrac0 : 0 ≤ |yaw| / config.translationYawStop := div_nonneg (abs_nonneg _) hstop.le
  have hfrac1 : |yaw| / config.translationYawStop ≤ 1 := by
    rw [div_le_one hstop]
    exact hyaw.le
  have hrange : 0 ≤ config.translationSpeedMax - config.translationSpeedMin := by linarith
  have hlow := mul_nonneg hrange (sub_nonneg.mpr hfrac1)
  have hhigh := mul_nonneg hrange hfrac0
  unfold yawLimitedMaximum
  constructor <;> linarith

/-- The law asks for no translation, or for one in the range of speeds. -/
theorem holonomicLinear_speed (hv : validHolonomicFineAlignConfig config = true)
    (error : PlanarError ℝ) :
    holonomicLinear Libm.real error config = 0 ∨
      |error.yaw| < config.translationYawStop ∧
      config.translationSpeedMin ≤ Libm.real.hypot (holonomicLinear Libm.real error config).x
        (holonomicLinear Libm.real error config).y ∧
      Libm.real.hypot (holonomicLinear Libm.real error config).x
        (holonomicLinear Libm.real error config).y ≤ config.translationSpeedMax := by
  unfold holonomicLinear
  dsimp only
  generalize (if config.allowReverseX then beyond error.x config.xPositionTolerance
    else max 0 (beyond error.x config.xPositionTolerance)) = x
  generalize beyond error.y config.yPositionTolerance = y
  split
  · next h =>
    obtain ⟨hdist, hyaw⟩ := h
    obtain ⟨hlow, hhigh⟩ := yawLimitedMaximum_mem hv hyaw
    have hclamp := clamp_mem (config.translationGain * Libm.real.hypot x y) hlow
    simp only [yawLimitedMaximum] at hclamp hhigh
    generalize clamp (config.translationGain * Libm.real.hypot x y) config.translationSpeedMin
      (config.translationSpeedMin + (config.translationSpeedMax - config.translationSpeedMin) *
        (1 - |error.yaw| / config.translationYawStop)) = speed at hclamp
    -- the direction of the error, at the clamped speed
    have hspeed : Libm.real.hypot (speed * x / Libm.real.hypot x y)
        (speed * y / Libm.real.hypot x y) = speed := by
      have hpos : 0 < speed := by
        simp only [validHolonomicFineAlignConfig, decide_eq_true_eq] at hv
        exact hv.2.2.1.trans_le hclamp.1
      have hcos := Libm.real_hypot_mul_cos_atan2 x y
      have hsin := Libm.real_hypot_mul_sin_atan2 x y
      have hx' : speed * x / Libm.real.hypot x y = speed * Real.cos (Libm.real.atan2 y x) := by
        rw [div_eq_iff hdist.ne']
        linear_combination -speed * hcos
      have hy' : speed * y / Libm.real.hypot x y = speed * Real.sin (Libm.real.atan2 y x) := by
        rw [div_eq_iff hdist.ne']
        linear_combination -speed * hsin
      rw [hx', hy', Libm.real_hypot_polar hpos.le]
    refine .inr ⟨hyaw, ?_⟩
    rw [hspeed]
    exact ⟨hclamp.1, hclamp.2.trans hhigh⟩
  · exact .inl rfl

theorem sign_copysign {magnitude : ℝ} (hm : 0 < magnitude) {sign : ℝ} (hs : sign ≠ 0) :
    |copysign magnitude sign| = magnitude ∧
      SignType.sign (copysign magnitude sign) = SignType.sign sign := by
  unfold copysign
  rw [abs_of_pos hm]
  obtain hneg | hpos := hs.lt_or_gt
  · rw [if_pos hneg, abs_neg, abs_of_pos hm, sign_neg hneg, sign_neg (neg_lt_zero.mpr hm)]
    exact ⟨rfl, rfl⟩
  · rw [if_neg hpos.not_gt, abs_of_pos hm, sign_pos hpos, sign_pos hm]
    exact ⟨rfl, rfl⟩

/-- The law asks for no turn, or for one towards the error in the range of speeds. -/
theorem holonomicAngular_turn (hv : validHolonomicFineAlignConfig config = true)
    (error : PlanarError ℝ) :
    (holonomicAngular error config).z = 0 ∨
      config.angularSpeedMin ≤ |(holonomicAngular error config).z| ∧
      |(holonomicAngular error config).z| ≤ config.angularSpeedMax ∧
      SignType.sign (holonomicAngular error config).z = SignType.sign error.yaw := by
  simp only [validHolonomicFineAlignConfig, decide_eq_true_eq] at hv
  obtain ⟨-, -, -, -, hmin, hmax, -, -, -, htolerance⟩ := hv
  unfold holonomicAngular
  split
  · next h =>
    have hyaw : error.yaw ≠ 0 := by
      rintro h0
      rw [h0, abs_zero] at h
      linarith
    have hclamp := clamp_mem (config.yawGain * |error.yaw|) hmax
    obtain ⟨habs, hsign⟩ := sign_copysign (hmin.trans_le hclamp.1) hyaw
    refine .inr ⟨?_, ?_, hsign⟩
    · rw [habs]
      exact hclamp.1
    · rw [habs]
      exact hclamp.2
  · exact .inl rfl

end Law

namespace DockingMotionController

variable {controller : HolonomicFineAlignConfig ℝ} {motion : DockingMotionConfig ℝ}

/-! ### Commands -/

/-- What a command may ask of the robot at an error. -/
structure WithinEnvelope (controller : HolonomicFineAlignConfig ℝ) (error : PlanarError ℝ)
    (command : Twist ℝ) : Prop where
  planar : command.linear.z = 0 ∧ command.angular.x = 0 ∧ command.angular.y = 0
  speed : planarSpeed command = 0 ∨
    controller.translationSpeedMin ≤ planarSpeed command ∧
      planarSpeed command ≤ controller.translationSpeedMax
  turn : command.angular.z = 0 ∨
    controller.angularSpeedMin ≤ |command.angular.z| ∧
      |command.angular.z| ≤ controller.angularSpeedMax ∧
      SignType.sign command.angular.z = SignType.sign error.yaw
  gate : controller.translationYawStop ≤ |error.yaw| → planarSpeed command = 0

theorem withinEnvelope_wanted (hv : validHolonomicFineAlignConfig controller = true)
    (motion : DockingMotionConfig ℝ) (c : Cycle)
    (s : DockingMotionController ℝ) :
    WithinEnvelope controller c.error.values (wanted controller motion c s) := by
  have hmoving := valid_movingConfig hv motion
  have hzero : Libm.real.hypot (0 : ℝ) 0 = 0 := (Libm.real_hypot_eq_zero_iff _ _).mpr ⟨rfl, rfl⟩
  unfold wanted
  generalize confirmed controller motion c s = s
  dsimp only
  generalize hselected : (⟨if s.xActive = 0 then 0 else c.error.values.x,
    if s.yActive = 0 then 0 else c.error.values.y, c.error.values.yaw⟩ : PlanarError ℝ) = selected
  have hyaw : selected.yaw = c.error.values.yaw := by rw [← hselected]
  have hspeed := holonomicLinear_speed hmoving selected
  have hturn := holonomicAngular_turn hmoving selected
  obtain ⟨hroll, hpitch⟩ := holonomicAngular_xy selected (movingConfig controller motion)
  have hz := holonomicLinear_z selected (movingConfig controller motion)
  rw [hyaw] at hspeed hturn
  constructor
  · refine ⟨?_, ?_, ?_⟩
    · dsimp only
      split
      · exact hz
      · exact hz
    · dsimp only
      split
      · exact hroll
      · exact hroll
    · dsimp only
      split
      · exact hpitch
      · exact hpitch
  · unfold planarSpeed
    dsimp only
    split
    · obtain h0 | ⟨-, hrange⟩ := hspeed
      · rw [h0]
        exact .inl hzero
      · exact .inr hrange
    · exact .inl hzero
  · dsimp only
    split
    · exact .inl rfl
    · exact hturn
  · intro hgate
    unfold planarSpeed
    dsimp only
    split
    · obtain h0 | ⟨hlt, -⟩ := hspeed
      · rw [h0]
        exact hzero
      · exact absurd hgate (not_le.mpr hlt)
    · exact hzero

theorem WithinEnvelope.halted {error : PlanarError ℝ} {command : Twist ℝ}
    (h : WithinEnvelope controller error command) :
    WithinEnvelope controller error (halted command) := by
  have hzero : planarSpeed (DockingMotionController.halted command) = 0 :=
    planarSpeed_eq_zero.mpr (not_travels_halted command)
  exact ⟨h.planar, .inl hzero, h.turn, fun _ => hzero⟩

theorem WithinEnvelope.sentAlong {error : PlanarError ℝ} {command : Twist ℝ}
    (h : WithinEnvelope controller error command) (direction : ℝ) :
    WithinEnvelope controller error (sentAlong command direction) := by
  have hspeed := planarSpeed_sentAlong command direction
  refine ⟨h.planar, ?_, h.turn, ?_⟩
  · rw [hspeed]
    exact h.speed
  · rw [hspeed]
    exact h.gate

/-- The last stage keeps a command in the envelope. -/
theorem WithinEnvelope.limited {error : PlanarError ℝ} {dt : ℝ} {new : Bool}
    {command command' : Twist ℝ} {s s' : DockingMotionController ℝ}
    (h : WithinEnvelope controller error command) (hl : Limited motion dt new command s s' command') :
    WithinEnvelope controller error command' := by
  cases hl with
  | still => exact h
  | waits => exact h.halted
  | counts => exact h.halted
  | stops => exact h.halted
  | sets => exact h
  | turns => exact h.sentAlong _

/-! ### The checked controller

`std::clamp` is undefined where its bounds are the wrong way round. The controller is given a
second time, with a clamp that answers only where they are not, and what it answers is what the
controller goes on with. -/

end DockingMotionController

section Checked
variable {K : Type*} [Field K] [LinearOrder K]

def clamp? (value lo hi : K) : Option K := if lo ≤ hi then some (clamp value lo hi) else none

omit [Field K] in
theorem clamp_checked {value lo hi : K} (h : lo ≤ hi) : clamp? value lo hi = some (clamp value lo hi) :=
  if_pos h

def holonomicLinear? (m : Libm K) (error : PlanarError K) (config : HolonomicFineAlignConfig K) :
    Option (Vector3 K) :=
  let xError := beyond error.x config.xPositionTolerance
  let commandX := if config.allowReverseX then xError else max 0 xError
  let commandY := beyond error.y config.yPositionTolerance
  let commandDistance := m.hypot commandX commandY
  let yawError := |error.yaw|
  if 0 < commandDistance ∧ yawError < config.translationYawStop then
    let yawFraction := yawError / config.translationYawStop
    let yawLimitedMaximum := config.translationSpeedMin +
      (config.translationSpeedMax - config.translationSpeedMin) * (1 - yawFraction)
    (clamp? (config.translationGain * commandDistance) config.translationSpeedMin
      yawLimitedMaximum).map fun speed =>
        ⟨speed * commandX / commandDistance, speed * commandY / commandDistance, 0⟩
  else some 0

def holonomicAngular? (error : PlanarError K) (config : HolonomicFineAlignConfig K) :
    Option (Vector3 K) :=
  if config.yawTolerance < |error.yaw| then
    (clamp? (config.yawGain * |error.yaw|) config.angularSpeedMin config.angularSpeedMax).map
      fun speed => ⟨0, 0, copysign speed error.yaw⟩
  else some 0

/-- The outer `none` is a clamp whose bounds are the wrong way round. -/
def holonomicFineAlignCommand? (m : Libm K) (error : PlanarError (Double K))
    (config : HolonomicFineAlignConfig K) : Option (Option (Twist K)) :=
  if !validHolonomicFineAlignConfig config || !error.isFinite then some none
  else
    (holonomicLinear? m error.values config).bind fun linear =>
    (holonomicAngular? error.values config).map fun angular => some ⟨linear, angular⟩

end Checked

namespace DockingMotionController

section Checked
variable {K : Type*} [Field K] [LinearOrder K] (controller : HolonomicFineAlignConfig K)
  (motion : DockingMotionConfig K)

def requestedCommand? (m : Libm K) (error : PlanarError K) (s : DockingMotionController K) :
    Option (Option (Twist K)) :=
  let selected : PlanarError K :=
    ⟨if s.xActive = 0 then 0 else error.x, if s.yActive = 0 then 0 else error.y, error.yaw⟩
  (holonomicFineAlignCommand? m selected.finite (movingConfig controller motion)).map fun command =>
    command.map fun command =>
      { linear := if s.translationEnabled then command.linear else ⟨0, 0, command.linear.z⟩
        angular := if s.yawActive = 0 then ⟨command.angular.x, command.angular.y, 0⟩
          else command.angular }

def steer? (m : Libm K) (dt : K) (command : Twist K) (speed : K) (s : DockingMotionController K) :
    Option (DockingMotionController K × Twist K) :=
  let wanted := m.atan2 command.linear.y command.linear.x
  let go (direction : K) (s : DockingMotionController K) : DockingMotionController K × Twist K :=
    ({ s with direction := some direction },
      { command with
        linear := ⟨speed * m.cos direction, speed * m.sin direction, command.linear.z⟩ })
  match s.direction with
  | none => some (go wanted s)
  | some direction =>
    let delta := wrapAngle m (wanted - direction)
    if 15707963268 / 10000000000 < |delta| then
      some ({ s with direction := none, directionReconfirmations := 1 },
        { command with linear := ⟨0, 0, command.linear.z⟩ })
    else
      (clamp? delta (-motion.directionRate * dt) (motion.directionRate * dt)).map fun change =>
        go (direction + change) s

def limitDirection? (m : Libm K) (dt : K) (newObservation : Bool) (command : Twist K)
    (s : DockingMotionController K) : Option (DockingMotionController K × Twist K) :=
  let speed := m.hypot command.linear.x command.linear.y
  if 0 < speed then
    if 0 < s.directionReconfirmations then
      if !newObservation then some (s, { command with linear := ⟨0, 0, command.linear.z⟩ })
      else if s.directionReconfirmations + 1 ≤ motion.confirmationSamples then
        some ({ s with directionReconfirmations := s.directionReconfirmations + 1 },
          { command with linear := ⟨0, 0, command.linear.z⟩ })
      else steer? motion m dt command speed { s with directionReconfirmations := 0 }
    else steer? motion m dt command speed s
  else some ({ s with direction := none, directionReconfirmations := 0 }, command)

def update? (m : Libm K) (error : PlanarError (Double K)) (dt : K) (newObservation : Bool)
    (s : DockingMotionController K) : Option (DockingMotionController K × Option (Twist K)) :=
  if !error.isFinite then some (s, none)
  else
    let s := if newObservation then confirm controller motion error.values s else s
    (requestedCommand? controller motion m error.values s).bind fun
    | none => some (s, none)
    | some command =>
      (limitDirection? motion m dt newObservation command s).map fun r => (r.1, some r.2)

end Checked

variable {controller : HolonomicFineAlignConfig ℝ} {motion : DockingMotionConfig ℝ}

theorem holonomicFineAlignCommand_checked {config : HolonomicFineAlignConfig ℝ}
    (error : PlanarError (Double ℝ)) :
    holonomicFineAlignCommand? Libm.real error config =
      some (holonomicFineAlignCommand Libm.real error config) := by
  unfold holonomicFineAlignCommand? holonomicFineAlignCommand
  split
  · rfl
  next haccepted =>
  have hv : validHolonomicFineAlignConfig config = true := by
    cases hv : validHolonomicFineAlignConfig config with
    | false => simp [hv] at haccepted
    | true => rfl
  have hlinear : holonomicLinear? Libm.real error.values config =
      some (holonomicLinear Libm.real error.values config) := by
    unfold holonomicLinear? holonomicLinear
    dsimp only
    generalize (if config.allowReverseX then beyond error.values.x config.xPositionTolerance
      else max 0 (beyond error.values.x config.xPositionTolerance)) = commandX
    split
    · next hmoves =>
      have hbounds := (yawLimitedMaximum_mem hv hmoves.2).1
      unfold yawLimitedMaximum at hbounds
      rw [clamp_checked hbounds, Option.map_some]
    · rfl
  have hangular : holonomicAngular? error.values config =
      some (holonomicAngular error.values config) := by
    simp only [validHolonomicFineAlignConfig, decide_eq_true_eq] at hv
    obtain ⟨-, -, -, -, -, hbounds, -⟩ := hv
    unfold holonomicAngular? holonomicAngular
    split
    · rw [clamp_checked hbounds, Option.map_some]
    · rfl
  rw [hlinear, hangular, Option.bind_some, Option.map_some]

theorem requestedCommand_checked (controller : HolonomicFineAlignConfig ℝ)
    (motion : DockingMotionConfig ℝ) (error : PlanarError ℝ) (s : DockingMotionController ℝ) :
    requestedCommand? controller motion Libm.real error s =
      some (requestedCommand controller motion Libm.real error s) := by
  unfold requestedCommand? requestedCommand
  dsimp only
  rw [holonomicFineAlignCommand_checked, Option.map_some]

theorem limitDirection_checked {dt : ℝ} (hrate : 0 ≤ motion.directionRate * dt)
    (newObservation : Bool) (command : Twist ℝ) (s : DockingMotionController ℝ) :
    limitDirection? motion Libm.real dt newObservation command s =
      some (limitDirection motion Libm.real dt newObservation command s) := by
  have hsteer : ∀ speed s, steer? motion Libm.real dt command speed s =
      some (steer motion Libm.real dt command speed s) := by
    intro speed s
    unfold steer? steer
    cases s.direction with
    | none => rfl
    | some direction =>
      dsimp only
      split
      · rfl
      · rw [clamp_checked (by linarith), Option.map_some]
  unfold limitDirection? limitDirection
  dsimp only
  split
  · split
    · split
      · rfl
      · split
        · rfl
        · exact hsteer _ _
    · exact hsteer _ _
  · rfl

/-- No clamp is reached with its bounds the wrong way round. -/
theorem update_checked (h : ControllerValid controller motion) {c : Cycle} (hdt : 0 ≤ c.dt)
    (s : DockingMotionController ℝ) :
    update? controller motion Libm.real c.error c.dt c.newObservation s =
      some (call controller motion s c) := by
  have hrate : 0 ≤ motion.directionRate * c.dt := mul_nonneg h.directionRate.le hdt
  unfold update? call update
  split
  · rfl
  dsimp only
  rw [requestedCommand_checked, Option.bind_some]
  cases requestedCommand controller motion Libm.real c.error.values
      (if c.newObservation then confirm controller motion c.error.values s else s) with
  | none => rfl
  | some command =>
    dsimp only
    rw [limitDirection_checked hrate, Option.map_some]

/-- Every call of every run answers a finite error, and only that, with a command in the
envelope, and reaches no clamp with its bounds the wrong way round. -/
theorem call_withinEnvelope (h : ControllerValid controller motion) (cycles : List Cycle) (c : Cycle)
    (hdt : ∀ c' ∈ cycles ++ [c], 0 ≤ c'.dt) :
    ((call controller motion (after controller motion new cycles) c).2 = none ↔
        c.error.isFinite = false) ∧
      (∀ command, (call controller motion (after controller motion new cycles) c).2 = some command →
        WithinEnvelope controller c.error.values command) ∧
      update? controller motion Libm.real c.error c.dt c.newObservation
          (after controller motion new cycles) =
        some (call controller motion (after controller motion new cycles) c) := by
  generalize after controller motion new cycles = s
  have hc : 0 ≤ c.dt := hdt c (by simp)
  refine ⟨?_, ?_, update_checked h hc s⟩
  · cases hfinite : c.error.isFinite with
    | false => simp [call_of_not_finite hfinite]
    | true => simp [call_of_finite h.valid hfinite]
  · intro command hcommand
    cases hfinite : c.error.isFinite with
    | false => simp [call_of_not_finite hfinite] at hcommand
    | true =>
      have hwanted := withinEnvelope_wanted h.valid motion c s
      exact hwanted.limited (call_limited h.valid hfinite hcommand)

theorem ahead_withinEnvelope : WithinEnvelope (unitController false) ⟨2, 0, 0⟩ ahead := by
  have hcall : (call (unitController false) unitMotion
      (after (unitController false) unitMotion new [observation 2 0 1]) (observation 2 0 1)).2 =
        some ahead := by
    show (call (unitController false) unitMotion (call (unitController false) unitMotion new
      (observation 2 0 1)).1 (observation 2 0 1)).2 = some ahead
    rw [call_ahead false zero_le_one (.inl rfl), call_ahead false zero_le_one (.inr rfl)]
  exact (call_withinEnvelope (.of_accepted (unit_accepted false)) [observation 2 0 1]
    (observation 2 0 1) (by simp [observation])).2.1 ahead hcall

end DockingMotionController

end X2Navigation
