import X2Navigation.Docking.Steering

/-! The direction of travel over a run of calls. Two velocities in a row differ by
what the rate allows and by no large turn; after a stop before a large turn the
robot waits for as many observations as confirm an axis; and where the robot may
not reverse, no direction it turns through points backwards. -/

namespace X2Navigation.DockingMotionController

variable {controller : HolonomicFineAlignConfig ℝ} {motion : DockingMotionConfig ℝ}

section Limited
variable {dt : ℝ} {new : Bool} {command command' : Twist ℝ} {s s' : DockingMotionController ℝ}

/-- A velocity that was sent is remembered by its direction. -/
theorem Limited.remembers (h : Limited motion dt new command s s' command')
    (ht : Travels command') :
    ∃ direction, s'.direction = some direction ∧ heading command' = wrapAngle Libm.real direction := by
  cases h with
  | still hstill => exact absurd ht hstill
  | waits => exact absurd ht (not_travels_halted command)
  | counts => exact absurd ht (not_travels_halted command)
  | stops => exact absurd ht (not_travels_halted command)
  | sets => exact ⟨heading command, rfl, (wrapAngle_real_atan2 _ _).symm⟩
  | turns htravels => exact ⟨_, rfl, heading_sentAlong htravels _⟩

/-- From a remembered direction the next velocity turns by no more than the rate allows. -/
theorem Limited.turn_le (h : Limited motion dt new command s s' command') (ht : Travels command')
    (hrate : 0 ≤ motion.directionRate * dt) {direction : ℝ} (hd : s.direction = some direction) :
    |wrapAngle Libm.real (heading command' - wrapAngle Libm.real direction)| ≤
        motion.directionRate * dt ∧
      |wrapAngle Libm.real (heading command' - wrapAngle Libm.real direction)| ≤ maximumTurn := by
  cases h with
  | still hstill => exact absurd ht hstill
  | waits => exact absurd ht (not_travels_halted command)
  | counts => exact absurd ht (not_travels_halted command)
  | stops => exact absurd ht (not_travels_halted command)
  | sets _ _ hnone => cases hd.symm.trans hnone
  | turns htravels _ d hsome hsmall =>
    obtain rfl : direction = d := Option.some.inj (hd.symm.trans hsome)
    obtain ⟨hbound, hle⟩ := abs_clamp_le (turn command direction) hrate
    have hlt := (hle.trans hsmall).trans_lt maximumTurn_lt_pi
    rw [heading_sentAlong htravels, wrapAngle_real_sub, add_sub_cancel_left,
      wrapAngle_real_eq_self hlt]
    exact ⟨hbound, hle.trans hsmall⟩

end Limited

/-! ### Continuity -/

/-- Two velocities in a row. -/
theorem turn_of_consecutive (h : ControllerValid controller motion) {s : DockingMotionController ℝ}
    {c c' : Cycle} (hc : c.error.isFinite = true) (hc' : c'.error.isFinite = true) (hdt : 0 ≤ c'.dt)
    {u v : Twist ℝ} (hu : (call controller motion s c).2 = some u)
    (hv : (call controller motion (call controller motion s c).1 c').2 = some v)
    (htu : Travels u) (htv : Travels v) :
    |wrapAngle Libm.real (heading v - heading u)| ≤ motion.directionRate * c'.dt ∧
      |wrapAngle Libm.real (heading v - heading u)| ≤ maximumTurn := by
  have hrate : 0 ≤ motion.directionRate * c'.dt := mul_nonneg h.directionRate.le hdt
  obtain ⟨direction, hd, hheading⟩ := (call_limited h.valid hc hu).remembers htu
  rw [hheading]
  refine (call_limited h.valid hc' hv).turn_le htv hrate ?_
  rw [confirmed_direction]
  exact hd

/-! ### Stops before large turns -/

/-- A call that stops the robot because it would have to turn too far. -/
def StopsForTurn (controller : HolonomicFineAlignConfig ℝ) (motion : DockingMotionConfig ℝ)
    (s : DockingMotionController ℝ) (c : Cycle) : Prop :=
  Travels (wanted controller motion c s) ∧ Free motion c.newObservation s ∧
    ∃ direction, s.direction = some direction ∧
      maximumTurn < |turn (wanted controller motion c s) direction|

def observations (cycles : List Cycle) : ℕ := cycles.countP (·.newObservation)

@[simp] theorem observations_snoc (cycles : List Cycle) (c : Cycle) :
    observations (cycles ++ [c]) = observations cycles + if c.newObservation then 1 else 0 := by
  simp [observations, List.countP_append, List.countP_cons]

/-- Stopped, with `n` observations since. -/
def Stopped (n : ℕ) (s : DockingMotionController ℝ) : Prop :=
  s.direction = none ∧ s.directionReconfirmations = n + 1

theorem StopsForTurn.stopped (hv : validHolonomicFineAlignConfig controller = true)
    {s : DockingMotionController ℝ} {c : Cycle} (hc : c.error.isFinite = true)
    (hstop : StopsForTurn controller motion s c) :
    Stopped 0 (call controller motion s c).1 := by
  obtain ⟨htravels, hfree, direction, hd, hbig⟩ := hstop
  obtain ⟨command, hcommand⟩ := call_returns hv hc motion s
  have hl := call_limited hv hc hcommand
  have hd' : (confirmed controller motion c s).direction = some direction := by
    rw [confirmed_direction]
    exact hd
  have hr := confirmed_directionReconfirmations controller motion c s
  generalize (call controller motion s c).1 = s' at hl
  cases hl with
  | still hstill => exact absurd htravels hstill
  | waits _ hheld hold =>
    obtain hzero | ⟨hnew, -⟩ := hfree
    · omega
    · rw [hold] at hnew
      cases hnew
  | counts _ hheld _ hle =>
    obtain hzero | ⟨-, hlt⟩ := hfree
    · omega
    · omega
  | stops => exact ⟨rfl, rfl⟩
  | sets _ _ hnone => cases hd'.symm.trans hnone
  | turns _ _ d hsome hsmall =>
    obtain rfl : direction = d := Option.some.inj (hd'.symm.trans hsome)
    exact absurd hbig (not_lt.mpr hsmall)

/-- A stopped robot that would travel stays stopped until enough observations came. -/
theorem Stopped.call (hv : validHolonomicFineAlignConfig controller = true)
    {s : DockingMotionController ℝ} {c : Cycle} (hc : c.error.isFinite = true) {n : ℕ}
    (h : Stopped n s) (hn : n + (if c.newObservation then 1 else 0) < motion.confirmationSamples)
    {command : Twist ℝ} (hcommand : (call controller motion s c).2 = some command) :
    ¬ Travels command ∧ (Travels (wanted controller motion c s) →
      Stopped (n + if c.newObservation then 1 else 0) (DockingMotionController.call controller motion s c).1) := by
  have hl := call_limited hv hc hcommand
  have hd : (confirmed controller motion c s).direction = none := by
    rw [confirmed_direction]
    exact h.1
  have hr : (confirmed controller motion c s).directionReconfirmations = n + 1 := by
    rw [confirmed_directionReconfirmations]
    exact h.2
  have hheld : ¬ Free motion c.newObservation (confirmed controller motion c s) := by
    rintro (hzero | ⟨hnew, hlt⟩)
    · omega
    · rw [if_pos hnew] at hn
      omega
  generalize (DockingMotionController.call controller motion s c).1 = s' at hl
  cases hl with
  | still hstill => exact ⟨hstill, fun ht => absurd ht hstill⟩
  | waits _ _ hold =>
    refine ⟨not_travels_halted _, fun _ => ?_⟩
    rw [hold, if_neg Bool.false_ne_true]
    exact ⟨hd, hr⟩
  | counts _ _ hnew =>
    refine ⟨not_travels_halted _, fun _ => ?_⟩
    rw [hnew, if_pos rfl]
    exact ⟨hd, congrArg (· + 1) hr⟩
  | stops _ hfree => exact absurd hfree hheld
  | sets _ hfree => exact absurd hfree hheld
  | turns _ hfree => exact absurd hfree hheld

/-- Every call of a run would travel if the last stage let it. -/
def AllTravel (controller : HolonomicFineAlignConfig ℝ) (motion : DockingMotionConfig ℝ)
    (s : DockingMotionController ℝ) (cycles : List Cycle) : Prop :=
  AtEvery controller motion (fun s c => Travels (wanted controller motion c s)) s cycles

theorem stopped_after (hv : validHolonomicFineAlignConfig controller = true)
    {s : DockingMotionController ℝ} (h : Stopped 0 s) (cycles : List Cycle)
    (hfinite : ∀ c ∈ cycles, c.error.isFinite = true)
    (htravel : AllTravel controller motion s cycles)
    (hn : observations cycles < motion.confirmationSamples) :
    Stopped (observations cycles) (after controller motion s cycles) := by
  induction cycles using List.reverseRecOn with
  | nil => exact h
  | append_singleton cycles c ih =>
    rw [observations_snoc] at hn ⊢
    obtain ⟨hcycles, hlast⟩ := (atEvery_snoc _ _).mp htravel
    have hbefore : Stopped (observations cycles) (after controller motion s cycles) :=
      ih (fun x hx => hfinite x (by simp [hx])) hcycles (by omega)
    have hc : c.error.isFinite = true := hfinite c (by simp)
    obtain ⟨command, hcommand⟩ := call_returns hv hc motion
      (after controller motion s cycles)
    rw [after_snoc]
    exact (hbefore.call hv hc hn hcommand).2 hlast

/-- Two velocities in a row of any run differ by no more than the rate allows, and by no
large turn. So velocities that differ by more have a call between them, and after a stop
before a large turn no call travels before enough observations came, as long as every
call between would travel. -/
theorem heading_continuous (h : ControllerValid controller motion) (cycles : List Cycle) (c : Cycle)
    (mid : List Cycle) (c' : Cycle)
    (hall : ∀ x ∈ cycles ++ [c] ++ mid ++ [c'], x.error.isFinite = true ∧ 0 ≤ x.dt) {u v : Twist ℝ}
    (hu : (call controller motion (after controller motion new cycles) c).2 = some u)
    (hv : (call controller motion (after controller motion new (cycles ++ [c] ++ mid)) c').2 = some v)
    (htv : Travels v) :
    (Travels u → mid = [] →
      |wrapAngle Libm.real (heading v - heading u)| ≤ motion.directionRate * c'.dt ∧
        |wrapAngle Libm.real (heading v - heading u)| ≤ maximumTurn) ∧
    (Travels u → min (motion.directionRate * c'.dt) maximumTurn <
        |wrapAngle Libm.real (heading v - heading u)| → mid ≠ []) ∧
    (StopsForTurn controller motion (after controller motion new cycles) c →
      AllTravel controller motion (after controller motion new (cycles ++ [c])) mid →
      motion.confirmationSamples ≤ observations (mid ++ [c'])) := by
  have hc := hall c (by simp)
  have hc' := hall c' (by simp)
  have hturn : Travels u → mid = [] →
      |wrapAngle Libm.real (heading v - heading u)| ≤ motion.directionRate * c'.dt ∧
        |wrapAngle Libm.real (heading v - heading u)| ≤ maximumTurn := by
    intro htu hmid
    rw [hmid, List.append_nil, after_snoc] at hv
    exact turn_of_consecutive h hc.1 hc'.1 hc'.2 hu hv htu htv
  refine ⟨hturn, ?_, ?_⟩
  · intro htu hlt hmid
    obtain ⟨hrate, hmax⟩ := hturn htu hmid
    exact absurd hlt (not_lt.mpr (le_min hrate hmax))
  · intro hstop htravel
    by_contra hlt
    rw [not_le, observations_snoc] at hlt
    have hstopped := hstop.stopped h.valid hc.1
    rw [← after_snoc] at hstopped
    have hmid := stopped_after h.valid hstopped mid (fun x hx => (hall x (by simp [hx])).1) htravel
      (by omega)
    rw [← after_append] at hmid
    exact (hmid.call h.valid hc'.1 hlt hv).1 htv

/-- A target straight ahead and then one to the left. -/
theorem heading_continuous_aside :
    |wrapAngle Libm.real (heading ⟨⟨Real.cos 1, Real.sin 1, 0⟩, 0⟩ - heading ahead)| ≤
        unitMotion.directionRate * 1 ∧
      |wrapAngle Libm.real (heading ⟨⟨Real.cos 1, Real.sin 1, 0⟩, 0⟩ - heading ahead)| ≤ maximumTurn := by
  have hfirst := call_ahead true zero_le_one (.inl rfl)
  have hsecond := call_aside true (x := 0) rfl zero_le_one le_rfl
  have hsin : Real.sin 1 ≠ 0 := (Real.sin_pos_of_pos_of_lt_pi one_pos (by linarith [Real.pi_gt_three])).ne'
  have hrun : after (unitController true) unitMotion new [observation 2 0 1] = underway := by
    show (call (unitController true) unitMotion new (observation 2 0 1)).1 = underway
    rw [hfirst]
  refine (heading_continuous (.of_accepted (unit_accepted true)) [] (observation 2 0 1) []
    (observation 0 2 1) ?_ ?_ ?_ (.inr hsin)).1 travels_ahead rfl
  · intro x hx
    obtain rfl | rfl : x = observation 2 0 1 ∨ x = observation 0 2 1 := by simpa using hx
    · exact ⟨rfl, zero_le_one⟩
    · exact ⟨rfl, zero_le_one⟩
  · rw [after_nil, hfirst]
  · show (call (unitController true) unitMotion
      (after (unitController true) unitMotion new [observation 2 0 1]) (observation 0 2 1)).2 = _
    rw [hrun, hsecond]

/-! ### Without reverse -/

/-- The law asks for no reverse where it may not. -/
theorem holonomicLinear_forward {config : HolonomicFineAlignConfig ℝ}
    (hv : validHolonomicFineAlignConfig config = true) (hforward : config.allowReverseX = false)
    (error : PlanarError ℝ) : 0 ≤ (holonomicLinear Libm.real error config).x := by
  unfold holonomicLinear
  dsimp only
  rw [hforward]
  simp only [Bool.false_eq_true, if_false]
  split
  · next hreached =>
    obtain ⟨hdist, hyaw⟩ := hreached
    simp only [validHolonomicFineAlignConfig, decide_eq_true_eq] at hv
    obtain ⟨-, -, hmin, hmax, -, -, hstop, -⟩ := hv
    have hfrac : |error.yaw| / config.translationYawStop ≤ 1 := by
      rw [div_le_one hstop]
      exact hyaw.le
    have hlow : 0 ≤ (config.translationSpeedMax - config.translationSpeedMin) *
        (1 - |error.yaw| / config.translationYawStop) :=
      mul_nonneg (by linarith) (by linarith)
    have hspeed := clamp_pos (x := config.translationGain *
      Libm.real.hypot (max 0 (beyond error.x config.xPositionTolerance))
        (beyond error.y config.yPositionTolerance)) hmin (le_add_of_nonneg_right hlow)
    exact div_nonneg (mul_nonneg hspeed.le (le_max_left _ _)) hdist.le
  · exact le_rfl

theorem wanted_forward (hv : validHolonomicFineAlignConfig controller = true)
    (hforward : controller.allowReverseX = false) (motion : DockingMotionConfig ℝ) (c : Cycle) (s : DockingMotionController ℝ) :
    0 ≤ (wanted controller motion c s).linear.x := by
  unfold wanted
  dsimp only
  split
  · exact holonomicLinear_forward (valid_movingConfig hv motion) hforward _
  · exact le_rfl

/-- A velocity that does not point backwards has a direction in the front half-plane. -/
theorem abs_heading_le {command : Twist ℝ} (h : 0 ≤ command.linear.x) :
    |heading command| ≤ Real.pi / 2 :=
  Complex.abs_arg_le_pi_div_two_iff.mpr h

/-- The remembered direction, if any, does not point backwards. -/
def Forward (s : DockingMotionController ℝ) : Prop :=
  ∀ direction, s.direction = some direction → |direction| ≤ Real.pi / 2

/-- From a direction in the front half-plane to another, by less than a large turn, the
short way stays in it. -/
theorem abs_turned_le {command : Twist ℝ} (h : 0 ≤ command.linear.x) {direction bound : ℝ}
    (hb : 0 ≤ bound) (hd : |direction| ≤ Real.pi / 2) (hsmall : |turn command direction| ≤ maximumTurn) :
    |direction + clamp (turn command direction) (-bound) bound| ≤ Real.pi / 2 := by
  have hheading := abs_heading_le h
  rw [abs_le] at hheading hd
  have hdiff : |heading command - direction| ≤ Real.pi := by
    rw [abs_le]
    constructor <;> linarith
  -- half a turn would be a large one
  have hlt : |heading command - direction| < Real.pi := by
    refine lt_of_le_of_ne hdiff fun heq => ?_
    have hpi : |turn command direction| = Real.pi := by
      obtain hpos | hneg := abs_choice (heading command - direction)
      · have hval : heading command - direction = Real.pi := hpos.symm.trans heq
        rw [turn, hval, wrapAngle_real, Real.Angle.toReal_pi, abs_of_pos Real.pi_pos]
      · have hval : heading command - direction = -Real.pi := by linarith
        rw [turn, hval, wrapAngle_real, Real.Angle.coe_neg, Real.Angle.neg_coe_pi,
          Real.Angle.toReal_pi, abs_of_pos Real.pi_pos]
    exact absurd (hpi ▸ hsmall) (not_le.mpr maximumTurn_lt_pi)
  have hturn : turn command direction = heading command - direction := wrapAngle_real_eq_self hlt
  obtain ⟨-, hle⟩ := abs_clamp_le (turn command direction) hb
  rw [hturn] at hle ⊢
  rw [clamp_eq (by linarith)]
  rw [abs_le]
  obtain hcase | hcase := le_total 0 (heading command - direction)
  · have hlow : 0 ≤ max (-bound) (min (heading command - direction) bound) :=
      le_max_of_le_right (le_min hcase hb)
    have hhigh : max (-bound) (min (heading command - direction) bound) ≤
        heading command - direction := max_le (by linarith) (min_le_left _ _)
    constructor <;> linarith
  · have hmin : min (heading command - direction) bound = heading command - direction :=
      min_eq_left (by linarith)
    have hlow : heading command - direction ≤ max (-bound) (heading command - direction) :=
      le_max_right _ _
    have hhigh : max (-bound) (heading command - direction) ≤ 0 := max_le (by linarith) hcase
    rw [hmin]
    constructor <;> linarith

/-- The last stage keeps to the front half-plane. -/
theorem Limited.forward {dt : ℝ} {new : Bool} {command command' : Twist ℝ}
    {s s' : DockingMotionController ℝ} (hl : Limited motion dt new command s s' command')
    (hrate : 0 ≤ motion.directionRate * dt) (hcommand : 0 ≤ command.linear.x) (h : Forward s) :
    Forward s' ∧ 0 ≤ command'.linear.x := by
  have hnone : ∀ {x : DockingMotionController ℝ}, x.direction = none → Forward x := by
    intro x hx direction hsome
    cases hx.symm.trans hsome
  cases hl with
  | still => exact ⟨hnone rfl, hcommand⟩
  | waits => exact ⟨h, le_rfl⟩
  | counts => exact ⟨h, le_rfl⟩
  | stops => exact ⟨hnone rfl, le_rfl⟩
  | sets =>
    refine ⟨fun direction hsome => ?_, hcommand⟩
    obtain rfl := Option.some.inj hsome
    exact abs_heading_le hcommand
  | turns _ _ direction hd hsmall =>
    have hle := abs_turned_le hcommand hrate (h direction hd) hsmall
    refine ⟨fun direction' hsome => ?_, ?_⟩
    · obtain rfl := Option.some.inj hsome
      exact hle
    · rw [abs_le] at hle
      exact mul_nonneg (Libm.real_hypot_nonneg _ _) (Real.cos_nonneg_of_neg_pi_div_two_le_of_le hle.1 hle.2)

theorem forward_call (h : ControllerValid controller motion)
    (hforward : controller.allowReverseX = false) {c : Cycle} (hdt : 0 ≤ c.dt)
    {s : DockingMotionController ℝ} (hs : Forward s) :
    Forward (call controller motion s c).1 ∧
      ∀ command, (call controller motion s c).2 = some command → 0 ≤ command.linear.x := by
  have hrate : 0 ≤ motion.directionRate * c.dt := mul_nonneg h.directionRate.le hdt
  cases hfinite : c.error.isFinite with
  | false =>
    rw [call_of_not_finite hfinite]
    exact ⟨hs, fun command hcommand => by cases hcommand⟩
  | true =>
    have hconfirmed : Forward (confirmed controller motion c s) := by
      intro direction hsome
      rw [confirmed_direction] at hsome
      exact hs direction hsome
    have hwanted := wanted_forward h.valid hforward motion c s
    obtain ⟨command, hcommand⟩ := call_returns h.valid hfinite motion s
    have hl := (call_limited h.valid hfinite hcommand).forward hrate hwanted hconfirmed
    refine ⟨hl.1, fun command' hcommand' => ?_⟩
    obtain rfl : command = command' := Option.some.inj (hcommand.symm.trans hcommand')
    exact hl.2

theorem forward_after (h : ControllerValid controller motion)
    (hforward : controller.allowReverseX = false) (cycles : List Cycle)
    (hdt : ∀ x ∈ cycles, 0 ≤ x.dt) : Forward (after controller motion new cycles) := by
  induction cycles using List.reverseRecOn with
  | nil => exact fun direction hsome => by cases hsome
  | append_singleton cycles x ih =>
    rw [after_snoc]
    have hs := ih fun y hy => hdt y (List.mem_append_left _ hy)
    exact (forward_call h hforward (hdt x (by simp)) hs).1

/-- Where the robot may not reverse, no command of any run points backwards. -/
theorem forward_only (h : ControllerValid controller motion)
    (hforward : controller.allowReverseX = false) (cycles : List Cycle) (c : Cycle)
    (hdt : ∀ x ∈ cycles ++ [c], 0 ≤ x.dt) (command : Twist ℝ)
    (hcommand : (call controller motion (after controller motion new cycles) c).2 = some command) :
    0 ≤ command.linear.x := by
  have hs := forward_after h hforward cycles fun x hx => hdt x (List.mem_append_left _ hx)
  exact (forward_call h hforward (hdt c (by simp)) hs).2 command hcommand

/-- Under way ahead, the robot finds its target behind it and to the left. -/
theorem forward_only_aside : 0 ≤ Real.cos 1 := by
  have hx : if false then (-2 : ℝ) = 0 else (-2 : ℝ) ≤ 0 := by norm_num
  refine forward_only (.of_accepted (unit_accepted false)) rfl [observation 2 0 1] (observation (-2) 2 1) ?_
    ⟨⟨Real.cos 1, Real.sin 1, 0⟩, 0⟩ ?_
  · simp [observation]
  · show (call (unitController false) unitMotion
      (call (unitController false) unitMotion new (observation 2 0 1)).1 (observation (-2) 2 1)).2 = _
    rw [call_ahead false zero_le_one (.inl rfl), call_aside false hx zero_le_one le_rfl]

end X2Navigation.DockingMotionController
