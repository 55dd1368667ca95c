import X2Navigation.Docking.Envelope
import X2Navigation.Docking.Heading

/-! Stopped axes and reversals over a run of calls. The axes decide in `x`, `y` and
yaw; the last stage then keeps the direction of travel from changing too fast, and
so may go on commanding an axis that was just stopped. It does so exactly when it
shortens a turn while one of the two axes stands. Apart from that, and from a single
confirmation that reverses an axis at once, a stopped axis stays still and every
reversal stops first. -/

namespace X2Navigation

/-! ### One axis -/

namespace ConfirmedAxis
variable {error tolerance hysteresis : ℝ} {confirmations : ℕ} {axis : ConfirmedAxis}

/-- The axis stands or moves as this error asks it to. -/
def Agrees (axis : ConfirmedAxis) (error tolerance hysteresis : ℝ) : Prop :=
  axis.active = 0 ∨ axis.active = requested error tolerance hysteresis

/-- An axis in motion remembers what it was asked for. -/
def Remembers (axis : ConfirmedAxis) : Prop := axis.active ≠ 0 → axis.pending = axis.active

/-- An axis in motion is asked for the other direction, by an error beyond its tolerance. -/
def Reverses (axis : ConfirmedAxis) (error tolerance hysteresis : ℝ) : Prop :=
  axis.active ≠ 0 ∧ requested error tolerance hysteresis = -axis.active ∧ tolerance < |error|

theorem agrees_update (axis : ConfirmedAxis) :
    (axis.update error tolerance hysteresis confirmations).Agrees error tolerance hysteresis := by
  unfold update Agrees
  dsimp only
  generalize (if requested error tolerance hysteresis = axis.pending then axis.count + 1 else 1) =
    count
  split
  · exact .inl rfl
  · split
    · split
      · exact .inl rfl
      · dsimp only
        split
        · exact .inr rfl
        · exact .inl rfl
    · next h => exact .inr (not_not.mp h).symm

theorem Remembers.update (h : axis.Remembers) :
    (axis.update error tolerance hysteresis confirmations).Remembers := by
  unfold ConfirmedAxis.update Remembers
  dsimp only
  generalize (if requested error tolerance hysteresis = axis.pending then axis.count + 1 else 1) =
    count
  split
  · exact fun h0 => absurd rfl h0
  · split
    · split
      · exact fun h0 => absurd rfl h0
      · dsimp only
        split
        · exact fun _ => rfl
        · exact fun h0 => absurd rfl h0
    · exact h

theorem requested_cases (error tolerance hysteresis : ℝ) :
    requested error tolerance hysteresis = 0 ∨ requested error tolerance hysteresis = 1 ∧ 0 < error ∨
      requested error tolerance hysteresis = -1 ∧ error ≤ 0 := by
  unfold requested
  split
  · exact .inl rfl
  · split
    · next h => exact .inr (.inl ⟨rfl, h⟩)
    · next h => exact .inr (.inr ⟨rfl, not_lt.mp h⟩)

theorem Agrees.active_cases (h : axis.Agrees error tolerance hysteresis) :
    axis.active = 0 ∨ axis.active = 1 ∨ axis.active = -1 := by
  obtain h0 | hrequested := h
  · exact .inl h0
  · have hcases := requested_cases error tolerance hysteresis
    omega

/-- An observation stops an axis, finds it standing, or leaves its direction; only a
single confirmation can reverse it. -/
theorem active_update (hm : axis.Remembers) (hc : 1 ≤ confirmations)
    (h : confirmations = 1 → ¬ axis.Reverses error tolerance hysteresis)
    (ha : axis.active = 0 ∨ axis.active = 1 ∨ axis.active = -1) :
    (axis.update error tolerance hysteresis confirmations).active = 0 ∨ axis.active = 0 ∨
      (axis.update error tolerance hysteresis confirmations).active = axis.active := by
  by_cases h0 : axis.active = 0
  · exact .inr (.inl h0)
  have hpending := hm h0
  have hr := requested_cases error tolerance hysteresis
  unfold update
  dsimp only
  split
  · exact .inl rfl
  · next hne =>
    split
    · next hother =>
      split
      · exact .inl rfl
      · next hbeyond =>
        -- the request is opposite, so it counts as the first one
        have hnot : requested error tolerance hysteresis ≠ axis.pending := by
          rw [hpending]
          exact hother
        have hopposite : requested error tolerance hysteresis = -axis.active := by omega
        rw [if_neg hnot]
        split
        · next hle =>
          have hone : confirmations = 1 := by omega
          exact absurd ⟨h0, hopposite, not_le.mp hbeyond⟩ (h hone)
        · exact .inl rfl
    · exact .inr (.inr rfl)

end ConfirmedAxis

namespace DockingMotionController

variable {controller : HolonomicFineAlignConfig ℝ} {motion : DockingMotionConfig ℝ}

/-! ### The claim, and when it holds -/

/-- The error changes only with a new observation. -/
def Observed (cycles : List Cycle) : Prop :=
  cycles.IsChain fun c c' => c'.newObservation = false → c'.error = c.error

/-- A command that leaves every stopped axis alone. -/
structure Still (s : DockingMotionController ℝ) (command : Twist ℝ) : Prop where
  x : s.xActive = 0 → command.linear.x = 0
  y : s.yActive = 0 → command.linear.y = 0
  yaw : s.yawActive = 0 → command.angular.z = 0

/-- No component of one command is opposite to that of the other. -/
structure Unopposed (u v : Twist ℝ) : Prop where
  x : 0 ≤ u.linear.x * v.linear.x
  y : 0 ≤ u.linear.y * v.linear.y
  yaw : 0 ≤ u.angular.z * v.angular.z

/-- Over a run, stopped axes stay still and reversals stop first. -/
structure StopsFirst (controller : HolonomicFineAlignConfig ℝ) (motion : DockingMotionConfig ℝ)
    (cycles : List Cycle) : Prop where
  still : AtEvery controller motion (fun s c => ∀ command,
    (call controller motion s c).2 = some command → Still (call controller motion s c).1 command)
    new cycles
  unopposed : ∀ before c c' behind u v, cycles = before ++ c :: c' :: behind →
    (call controller motion (after controller motion new before) c).2 = some u →
    (call controller motion (after controller motion new (before ++ [c])) c').2 = some v →
    Unopposed u v

/-- No axis in motion is reversed at once, which a single confirmation would do. -/
def NoReversal (controller : HolonomicFineAlignConfig ℝ) (motion : DockingMotionConfig ℝ)
    (s : DockingMotionController ℝ) (c : Cycle) : Prop :=
  c.newObservation = true → motion.confirmationSamples = 1 →
    ¬ s.x.Reverses (xError controller c.error.values) controller.xPositionTolerance
        motion.positionHysteresis ∧
    ¬ s.y.Reverses c.error.values.y controller.yPositionTolerance motion.positionHysteresis ∧
    ¬ s.yaw.Reverses c.error.values.yaw controller.yawTolerance motion.yawHysteresis

/-- A turn is shortened only while both axes move. -/
def Unhindered (controller : HolonomicFineAlignConfig ℝ) (motion : DockingMotionConfig ℝ)
    (s : DockingMotionController ℝ) (c : Cycle) : Prop :=
  ∀ direction, s.direction = some direction → Travels (wanted controller motion c s) →
    Free motion c.newObservation s → |turn (wanted controller motion c s) direction| ≤ maximumTurn →
    motion.directionRate * c.dt < |turn (wanted controller motion c s) direction| →
    (confirmed controller motion c s).xActive ≠ 0 ∧ (confirmed controller motion c s).yActive ≠ 0

/-! ### The axes -/

/-- What a call with this error has left of the axes. -/
structure Tracks (controller : HolonomicFineAlignConfig ℝ) (motion : DockingMotionConfig ℝ)
    (error : PlanarError ℝ) (s : DockingMotionController ℝ) : Prop where
  copies : s.xActive = s.x.active ∧ s.yActive = s.y.active ∧ s.yawActive = s.yaw.active
  remembers : s.x.Remembers ∧ s.y.Remembers ∧ s.yaw.Remembers
  x : s.x.Agrees (xError controller error) controller.xPositionTolerance motion.positionHysteresis
  y : s.y.Agrees error.y controller.yPositionTolerance motion.positionHysteresis
  yaw : s.yaw.Agrees error.yaw controller.yawTolerance motion.yawHysteresis

theorem tracks_new (error : PlanarError ℝ) : Tracks controller motion error new :=
  ⟨⟨rfl, rfl, rfl⟩, ⟨fun h => absurd rfl h, fun h => absurd rfl h, fun h => absurd rfl h⟩,
    .inl rfl, .inl rfl, .inl rfl⟩

theorem Tracks.confirm {error : PlanarError ℝ} {s : DockingMotionController ℝ}
    (h : Tracks controller motion error s) (error' : PlanarError ℝ) :
    Tracks controller motion error' (confirm controller motion error' s) := by
  obtain ⟨hx, hy, hyaw, hxActive, hyActive, hyawActive, -, -⟩ :=
    confirm_frame controller motion error' s
  obtain ⟨hrx, hry, hryaw⟩ := h.remembers
  constructor
  · exact ⟨hxActive, hyActive, hyawActive⟩
  · rw [hx, hy, hyaw]
    exact ⟨hrx.update, hry.update, hryaw.update⟩
  · rw [hx]
    exact ConfirmedAxis.agrees_update _
  · rw [hy]
    exact ConfirmedAxis.agrees_update _
  · rw [hyaw]
    exact ConfirmedAxis.agrees_update _

/-- The last stage does not touch the axes. -/
theorem Limited.tracks {error : PlanarError ℝ} {dt : ℝ} {new : Bool} {command command' : Twist ℝ}
    {s s' : DockingMotionController ℝ} (hl : Limited motion dt new command s s' command')
    (h : Tracks controller motion error s) : Tracks controller motion error s' := by
  obtain ⟨hcopies, hremembers, hx, hy, hyaw⟩ := h
  cases hl with
  | still => exact ⟨hcopies, hremembers, hx, hy, hyaw⟩
  | waits => exact ⟨hcopies, hremembers, hx, hy, hyaw⟩
  | counts => exact ⟨hcopies, hremembers, hx, hy, hyaw⟩
  | stops => exact ⟨hcopies, hremembers, hx, hy, hyaw⟩
  | sets => exact ⟨hcopies, hremembers, hx, hy, hyaw⟩
  | turns => exact ⟨hcopies, hremembers, hx, hy, hyaw⟩

/-- As a call sees the axes, they agree with its error. -/
theorem tracks_confirmed (hv : validHolonomicFineAlignConfig controller = true)
    (motion : DockingMotionConfig ℝ) (cycles : List Cycle) (c : Cycle) (hfinite : ∀ x ∈ cycles, x.error.isFinite = true)
    (hobserved : Observed (cycles ++ [c])) :
    Tracks controller motion c.error.values
      (confirmed controller motion c (after controller motion new cycles)) := by
  induction cycles using List.reverseRecOn generalizing c with
  | nil =>
    unfold confirmed
    split
    · exact (tracks_new c.error.values).confirm _
    · exact tracks_new _
  | append_singleton cycles b ih =>
    have hb : b.error.isFinite = true := hfinite b (by simp)
    rw [Observed, List.append_assoc] at hobserved
    obtain ⟨hchain, hlast, -⟩ := List.isChain_append_cons_cons.mp hobserved
    have hs := ih b (fun x hx => hfinite x (by simp [hx])) hchain
    obtain ⟨command, hcommand⟩ := call_returns hv hb motion
      (after controller motion new cycles)
    have hafter := (call_limited hv hb hcommand).tracks hs
    rw [← after_snoc] at hafter
    unfold confirmed
    split
    · exact hafter.confirm _
    · next hold =>
      rw [hlast (by simpa using hold)]
      exact hafter

/-! ### Directions -/

/-- A planar vector with nothing along a stopped axis, and nothing against a moving one. -/
structure Heads (s : DockingMotionController ℝ) (x y : ℝ) : Prop where
  x_zero : s.xActive = 0 → x = 0
  x_sign : 0 ≤ x * s.xActive
  y_zero : s.yActive = 0 → y = 0
  y_sign : 0 ≤ y * s.yActive

section Heads
variable {s : DockingMotionController ℝ} {x y x' y' : ℝ}

theorem heads_zero (s : DockingMotionController ℝ) : Heads s 0 0 :=
  ⟨fun _ => rfl, by rw [zero_mul], fun _ => rfl, by rw [zero_mul]⟩

theorem Heads.smul (h : Heads s x y) {r : ℝ} (hr : 0 ≤ r) : Heads s (r * x) (r * y) := by
  constructor
  · intro h0
    rw [h.x_zero h0, mul_zero]
  · rw [mul_assoc]
    exact mul_nonneg hr h.x_sign
  · intro h0
    rw [h.y_zero h0, mul_zero]
  · rw [mul_assoc]
    exact mul_nonneg hr h.y_sign

theorem Heads.add (h : Heads s x y) (h' : Heads s x' y') : Heads s (x + x') (y + y') := by
  constructor
  · intro h0
    rw [h.x_zero h0, h'.x_zero h0, add_zero]
  · rw [add_mul]
    exact add_nonneg h.x_sign h'.x_sign
  · intro h0
    rw [h.y_zero h0, h'.y_zero h0, add_zero]
  · rw [add_mul]
    exact add_nonneg h.y_sign h'.y_sign

/-- Where both axes move and neither was reversed, a vector heads where it did. -/
theorem Heads.of_moving (h : Heads s x y) {s' : DockingMotionController ℝ}
    (hx : s'.xActive = 0 ∨ s.xActive = 0 ∨ s'.xActive = s.xActive)
    (hy : s'.yActive = 0 ∨ s.yActive = 0 ∨ s'.yActive = s.yActive)
    (hmoves : s'.xActive ≠ 0 ∧ s'.yActive ≠ 0) : Heads s' x y := by
  refine ⟨fun h0 => absurd h0 hmoves.1, ?_, fun h0 => absurd h0 hmoves.2, ?_⟩
  · obtain h0 | h0 | heq := hx
    · exact absurd h0 hmoves.1
    · rw [h.x_zero h0, zero_mul]
    · rw [heq]
      exact h.x_sign
  · obtain h0 | h0 | heq := hy
    · exact absurd h0 hmoves.2
    · rw [h.y_zero h0, zero_mul]
    · rw [heq]
      exact h.y_sign

end Heads

/-- The direction in force heads where the axes do. -/
def Directed (s : DockingMotionController ℝ) : Prop :=
  ∀ direction, s.direction = some direction → Heads s (Real.cos direction) (Real.sin direction)

theorem coe_turn (command : Twist ℝ) (direction : ℝ) :
    ((direction + turn command direction : ℝ) : Real.Angle) = (heading command : ℝ) := by
  simp [turn, wrapAngle_real, Real.Angle.coe_toReal]

theorem cos_add_turn (command : Twist ℝ) (direction : ℝ) :
    Real.cos (direction + turn command direction) = Real.cos (heading command) := by
  rw [← Real.Angle.cos_coe, coe_turn, Real.Angle.cos_coe]

theorem sin_add_turn (command : Twist ℝ) (direction : ℝ) :
    Real.sin (direction + turn command direction) = Real.sin (heading command) := by
  rw [← Real.Angle.sin_coe, coe_turn, Real.Angle.sin_coe]

/-- Part of a turn by less than half a circle lies between its two ends. -/
theorem between_of_clamp {δ bound : ℝ} (hb : 0 ≤ bound) (hδ : |δ| < Real.pi) (d : ℝ) :
    ∃ p q : ℝ, 0 ≤ p ∧ 0 ≤ q ∧
      Real.cos (d + clamp δ (-bound) bound) = p * Real.cos d + q * Real.cos (d + δ) ∧
      Real.sin (d + clamp δ (-bound) bound) = p * Real.sin d + q * Real.sin (d + δ) := by
  rw [abs_lt] at hδ
  obtain ⟨hc0, hc1⟩ : (0 ≤ δ → 0 ≤ clamp δ (-bound) bound ∧ clamp δ (-bound) bound ≤ δ) ∧
      (δ ≤ 0 → δ ≤ clamp δ (-bound) bound ∧ clamp δ (-bound) bound ≤ 0) := by
    rw [clamp_eq (by linarith)]
    refine ⟨fun h => ⟨le_max_of_le_right (le_min h hb), max_le (by linarith) (min_le_left _ _)⟩,
      fun h => ?_⟩
    rw [min_eq_left (by linarith)]
    exact ⟨le_max_right _ _, max_le (by linarith) h⟩
  generalize clamp δ (-bound) bound = c at hc0 hc1 ⊢
  have hcos : Real.sin δ * Real.cos (d + c) =
      Real.sin (δ - c) * Real.cos d + Real.sin c * Real.cos (d + δ) := by
    rw [Real.cos_add, Real.cos_add, Real.sin_sub]
    ring
  have hsin : Real.sin δ * Real.sin (d + c) =
      Real.sin (δ - c) * Real.sin d + Real.sin c * Real.sin (d + δ) := by
    rw [Real.sin_add, Real.sin_add, Real.sin_sub]
    ring
  have combine (hne : Real.sin δ ≠ 0) (hp : 0 ≤ Real.sin (δ - c) / Real.sin δ)
      (hq : 0 ≤ Real.sin c / Real.sin δ) : ∃ p q : ℝ, 0 ≤ p ∧ 0 ≤ q ∧
        Real.cos (d + c) = p * Real.cos d + q * Real.cos (d + δ) ∧
        Real.sin (d + c) = p * Real.sin d + q * Real.sin (d + δ) := by
    refine ⟨_, _, hp, hq, ?_, ?_⟩
    · rw [div_mul_eq_mul_div, div_mul_eq_mul_div, ← add_div, eq_div_iff hne, mul_comm]
      exact hcos
    · rw [div_mul_eq_mul_div, div_mul_eq_mul_div, ← add_div, eq_div_iff hne, mul_comm]
      exact hsin
  obtain hneg | hzero | hpos := lt_trichotomy δ 0
  · obtain ⟨hlow, hhigh⟩ := hc1 hneg.le
    have hδ : Real.sin δ < 0 := Real.sin_neg_of_neg_of_neg_pi_lt hneg hδ.1
    have hp : Real.sin (δ - c) ≤ 0 :=
      Real.sin_nonpos_of_nonpos_of_neg_pi_le (by linarith) (by linarith)
    have hq : Real.sin c ≤ 0 := Real.sin_nonpos_of_nonpos_of_neg_pi_le hhigh (by linarith)
    exact combine hδ.ne (div_nonneg_of_nonpos hp hδ.le) (div_nonneg_of_nonpos hq hδ.le)
  · obtain ⟨hlow, hhigh⟩ := hc0 hzero.ge
    have hc : c = 0 := le_antisymm (hhigh.trans hzero.le) hlow
    refine ⟨1, 0, zero_le_one, le_rfl, ?_, ?_⟩
    · rw [hc, add_zero, one_mul, zero_mul, add_zero]
    · rw [hc, add_zero, one_mul, zero_mul, add_zero]
  · obtain ⟨hlow, hhigh⟩ := hc0 hpos.le
    have hδ : 0 < Real.sin δ := Real.sin_pos_of_pos_of_lt_pi hpos hδ.2
    have hp : 0 ≤ Real.sin (δ - c) :=
      Real.sin_nonneg_of_nonneg_of_le_pi (by linarith) (by linarith)
    have hq : 0 ≤ Real.sin c := Real.sin_nonneg_of_nonneg_of_le_pi hlow (by linarith)
    exact combine hδ.ne' (div_nonneg hp hδ.le) (div_nonneg hq hδ.le)

/-! ### Commands -/

/-- What has the sign of its error has the sign of an axis. -/
theorem sign_of_agrees {axis : ConfirmedAxis} {error tolerance hysteresis v : ℝ}
    (h : axis.Agrees error tolerance hysteresis) (hpos : 0 < error → 0 ≤ v)
    (hneg : error ≤ 0 → v ≤ 0) : 0 ≤ v * axis.active := by
  obtain h0 | hrequested := h
  · rw [h0, Int.cast_zero, mul_zero]
  · rw [hrequested]
    obtain h0 | ⟨h1, he⟩ | ⟨h1, he⟩ := ConfirmedAxis.requested_cases error tolerance hysteresis
    · rw [h0, Int.cast_zero, mul_zero]
    · rw [h1, Int.cast_one, mul_one]
      exact hpos he
    · rw [h1, Int.cast_neg, Int.cast_one, mul_neg, mul_one]
      exact neg_nonneg.mpr (hneg he)

theorem sign_of_component {axis : ConfirmedAxis} {error tolerance hysteresis v : ℝ}
    (h : axis.Agrees error tolerance hysteresis) (hv : v = 0 ∨ v = error) :
    0 ≤ v * axis.active := by
  refine sign_of_agrees h (fun he => ?_) (fun he => ?_)
  · obtain rfl | rfl := hv
    · exact le_rfl
    · exact he.le
  · obtain rfl | rfl := hv
    · exact le_rfl
    · exact he

theorem sign_of_sign_eq {axis : ConfirmedAxis} {error tolerance hysteresis v : ℝ}
    (h : axis.Agrees error tolerance hysteresis) (hv : SignType.sign v = SignType.sign error) :
    0 ≤ v * axis.active := by
  refine sign_of_agrees h (fun he => ?_) (fun he => ?_)
  · rw [sign_pos he, sign_eq_one_iff] at hv
    exact hv.le
  · obtain hlt | rfl := he.lt_or_eq
    · rw [sign_neg hlt, sign_eq_neg_one_iff] at hv
      exact hv.le
    · rw [sign_zero, sign_eq_zero_iff] at hv
      exact hv.le

theorem beyond_cases (error tolerance : ℝ) :
    beyond error tolerance = 0 ∨ beyond error tolerance = error := by
  unfold beyond
  split
  · exact .inr rfl
  · exact .inl rfl

theorem beyond_zero (tolerance : ℝ) : beyond 0 tolerance = 0 :=
  (beyond_cases 0 tolerance).elim id id

/-- The law keeps the direction of the components that it steers by. -/
theorem Heads.holonomicLinear {config : HolonomicFineAlignConfig ℝ} {error : PlanarError ℝ}
    {s : DockingMotionController ℝ}
    (h : Heads s (if config.allowReverseX then beyond error.x config.xPositionTolerance
        else max 0 (beyond error.x config.xPositionTolerance))
      (beyond error.y config.yPositionTolerance))
    (hv : validHolonomicFineAlignConfig config = true) :
    Heads s (holonomicLinear Libm.real error config).x
      (holonomicLinear Libm.real error config).y := by
  unfold X2Navigation.holonomicLinear
  dsimp only
  generalize (if config.allowReverseX then beyond error.x config.xPositionTolerance
    else max 0 (beyond error.x config.xPositionTolerance)) = x at h
  generalize beyond error.y config.yPositionTolerance = y at h
  split
  · next hreached =>
    obtain ⟨hdist, hyaw⟩ := hreached
    have hlow := (yawLimitedMaximum_mem hv hyaw).1
    simp only [validHolonomicFineAlignConfig, decide_eq_true_eq] at hv
    rw [yawLimitedMaximum] at hlow
    have hspeed := clamp_pos (x := config.translationGain * Libm.real.hypot x y) hv.2.2.1 hlow
    rw [← div_mul_eq_mul_div, ← div_mul_eq_mul_div]
    exact h.smul (div_nonneg hspeed.le hdist.le)
  · exact heads_zero s

/-- The wanted velocity has nothing along a stopped axis, and nothing against a moving one. -/
theorem heads_wanted (hv : validHolonomicFineAlignConfig controller = true) {c : Cycle}
    {s : DockingMotionController ℝ}
    (ht : Tracks controller motion c.error.values (confirmed controller motion c s)) :
    Heads (confirmed controller motion c s) (wanted controller motion c s).linear.x
      (wanted controller motion c s).linear.y := by
  have hmoving := valid_movingConfig hv motion
  unfold wanted
  generalize confirmed controller motion c s = s at ht
  obtain ⟨⟨hxActive, hyActive, -⟩, -, hx, hy, -⟩ := ht
  generalize c.error.values = error at hx hy
  dsimp only
  split
  · have hheads : Heads s
        (if (movingConfig controller motion).allowReverseX then
            beyond (if s.xActive = 0 then 0 else error.x) (movingConfig controller motion).xPositionTolerance
          else max 0 (beyond (if s.xActive = 0 then 0 else error.x)
            (movingConfig controller motion).xPositionTolerance))
        (beyond (if s.yActive = 0 then 0 else error.y)
          (movingConfig controller motion).yPositionTolerance) := by
      unfold xError at hx
      constructor
      · intro h0
        rw [if_pos h0, beyond_zero, max_self, ite_self]
      · rw [hxActive]
        refine sign_of_component hx ?_
        show (if controller.allowReverseX then _ else _) = 0 ∨
          (if controller.allowReverseX then _ else _) = _
        split
        · split
          · exact .inl (beyond_zero _)
          · exact beyond_cases _ _
        · split
          · rw [beyond_zero, max_self]
            exact .inl rfl
          · obtain h0 | herror := beyond_cases error.x (movingConfig controller motion).xPositionTolerance
            · rw [h0, max_self]
              exact .inl rfl
            · rw [herror]
              exact .inr rfl
      · intro h0
        rw [if_pos h0, beyond_zero]
      · rw [hyActive]
        refine sign_of_component hy ?_
        split
        · exact .inl (beyond_zero _)
        · exact beyond_cases _ _
    exact hheads.holonomicLinear hmoving
  · exact heads_zero s

/-- A command with nothing along a stopped axis, and nothing against a moving one. -/
structure Follows (s : DockingMotionController ℝ) (command : Twist ℝ) : Prop where
  planar : Heads s command.linear.x command.linear.y
  yaw_zero : s.yawActive = 0 → command.angular.z = 0
  yaw_sign : 0 ≤ command.angular.z * s.yawActive

theorem Follows.still {s : DockingMotionController ℝ} {command : Twist ℝ} (h : Follows s command) :
    Still s command :=
  ⟨h.planar.x_zero, h.planar.y_zero, h.yaw_zero⟩

theorem follows_wanted (hv : validHolonomicFineAlignConfig controller = true) {c : Cycle}
    {s : DockingMotionController ℝ}
    (ht : Tracks controller motion c.error.values (confirmed controller motion c s)) :
    Follows (confirmed controller motion c s) (wanted controller motion c s) := by
  refine ⟨heads_wanted hv ht, ?_, ?_⟩
  · intro h0
    unfold wanted
    dsimp only
    rw [if_pos h0]
  · have hturn := (withinEnvelope_wanted hv motion c s).turn
    obtain h0 | ⟨-, -, hsign⟩ := hturn
    · rw [h0, zero_mul]
    · rw [ht.copies.2.2]
      exact sign_of_sign_eq ht.yaw hsign

/-! ### One call -/

/-- A robot that is held back has no direction. -/
def HeldStill (s : DockingMotionController ℝ) : Prop :=
  0 < s.directionReconfirmations → s.direction = none

/-- The directions in which a velocity was sent still agree with the axes. -/
theorem heads_heading {command : Twist ℝ} {s : DockingMotionController ℝ}
    (h : Heads s command.linear.x command.linear.y) (ht : Travels command) :
    Heads s (Real.cos (heading command)) (Real.sin (heading command)) := by
  have hspeed := planarSpeed_pos.mpr ht
  have hunit := h.smul (inv_nonneg.mpr hspeed.le)
  have hx := Libm.real_hypot_mul_cos_atan2 command.linear.x command.linear.y
  have hy := Libm.real_hypot_mul_sin_atan2 command.linear.x command.linear.y
  have hcos : (planarSpeed command)⁻¹ * command.linear.x = Real.cos (heading command) := by
    rw [inv_mul_eq_iff_eq_mul₀ hspeed.ne']
    exact hx.symm
  have hsin : (planarSpeed command)⁻¹ * command.linear.y = Real.sin (heading command) := by
    rw [inv_mul_eq_iff_eq_mul₀ hspeed.ne']
    exact hy.symm
  rwa [hcos, hsin] at hunit

/-- The direction that a turn leads to. Unless it is shortened while an axis stands, it
agrees with the axes. -/
theorem heads_turned {command : Twist ℝ} {s s' : DockingMotionController ℝ} {direction bound : ℝ}
    (hb : 0 ≤ bound) (ht : Travels command) (hcommand : Heads s' command.linear.x command.linear.y)
    (hd : Heads s (Real.cos direction) (Real.sin direction))
    (hx : s'.xActive = 0 ∨ s.xActive = 0 ∨ s'.xActive = s.xActive)
    (hy : s'.yActive = 0 ∨ s.yActive = 0 ∨ s'.yActive = s.yActive)
    (hsmall : |turn command direction| ≤ maximumTurn)
    (hunhindered : bound < |turn command direction| → s'.xActive ≠ 0 ∧ s'.yActive ≠ 0) :
    Heads s' (Real.cos (direction + clamp (turn command direction) (-bound) bound))
      (Real.sin (direction + clamp (turn command direction) (-bound) bound)) := by
  have hheading := heads_heading hcommand ht
  by_cases hlt : bound < |turn command direction|
  · obtain ⟨p, q, hp, hq, hcos, hsin⟩ :=
      between_of_clamp hb (hsmall.trans_lt maximumTurn_lt_pi) direction
    rw [hcos, hsin, cos_add_turn, sin_add_turn]
    exact ((hd.of_moving hx hy (hunhindered hlt)).smul hp).add (hheading.smul hq)
  · have hle := abs_le.mp (not_lt.mp hlt)
    have hwhole : clamp (turn command direction) (-bound) bound = turn command direction := by
      rw [clamp_eq (by linarith), min_eq_left hle.2, max_eq_right hle.1]
    rw [hwhole, cos_add_turn, sin_add_turn]
    exact hheading

/-- What one call keeps, and what it returns. -/
theorem follows_call (h : ControllerValid controller motion) {c : Cycle}
    (hfinite : c.error.isFinite = true) (hdt : 0 ≤ c.dt) {s : DockingMotionController ℝ}
    (ht : Tracks controller motion c.error.values (confirmed controller motion c s))
    (hx : (confirmed controller motion c s).xActive = 0 ∨ s.xActive = 0 ∨
      (confirmed controller motion c s).xActive = s.xActive)
    (hy : (confirmed controller motion c s).yActive = 0 ∨ s.yActive = 0 ∨
      (confirmed controller motion c s).yActive = s.yActive)
    (hu : Unhindered controller motion s c) (hheld : HeldStill s) (hs : Directed s)
    {command : Twist ℝ} (hcommand : (call controller motion s c).2 = some command) :
    Follows (call controller motion s c).1 command ∧ Directed (call controller motion s c).1 ∧
      HeldStill (call controller motion s c).1 := by
  have hrate : 0 ≤ motion.directionRate * c.dt := mul_nonneg h.directionRate.le hdt
  have hl := call_limited h.valid hfinite hcommand
  obtain ⟨hplanar, hyaw, hsign⟩ := follows_wanted h.valid ht
  have hd := confirmed_direction controller motion c s
  have hr := confirmed_directionReconfirmations controller motion c s
  have hnone : ∀ {x : DockingMotionController ℝ}, x.direction = none → Directed x := by
    intro x hx direction hsome
    cases hx.symm.trans hsome
  generalize (call controller motion s c).1 = s' at hl
  unfold Unhindered at hu
  generalize wanted controller motion c s = w at hl hplanar hyaw hsign hu
  generalize confirmed controller motion c s = s₀ at hl hplanar hyaw hsign hu hx hy hd hr
  have hhalted : ∀ {x : DockingMotionController ℝ}, x.xActive = s₀.xActive → x.yActive = s₀.yActive →
      x.yawActive = s₀.yawActive → Follows x (halted w) := by
    intro x _ _ h3
    refine ⟨heads_zero x, ?_, ?_⟩
    · rw [h3]
      exact hyaw
    · rw [h3]
      exact hsign
  have hundirected : 0 < s₀.directionReconfirmations → s₀.direction = none := by
    rw [hr, hd]
    exact hheld
  cases hl with
  | still hstill =>
    refine ⟨⟨⟨hplanar.x_zero, hplanar.x_sign, hplanar.y_zero, hplanar.y_sign⟩, hyaw, hsign⟩,
      hnone rfl, fun hpos => absurd hpos (lt_irrefl 0)⟩
  | waits _ hpos =>
    exact ⟨hhalted rfl rfl rfl, hnone (hundirected hpos), fun _ => hundirected hpos⟩
  | counts _ hpos =>
    exact ⟨hhalted rfl rfl rfl, hnone (hundirected hpos), fun _ => hundirected hpos⟩
  | stops => exact ⟨hhalted rfl rfl rfl, hnone rfl, fun _ => rfl⟩
  | sets htravels =>
    have hheading := heads_heading hplanar htravels
    refine ⟨⟨⟨hplanar.x_zero, hplanar.x_sign, hplanar.y_zero, hplanar.y_sign⟩, hyaw, hsign⟩, ?_,
      fun hpos => absurd hpos (lt_irrefl 0)⟩
    intro direction hsome
    obtain rfl := Option.some.inj hsome
    exact ⟨hheading.x_zero, hheading.x_sign, hheading.y_zero, hheading.y_sign⟩
  | turns htravels hfree direction hsome hsmall =>
    have hdirection : s.direction = some direction := hd.symm.trans hsome
    have hfree' : Free motion c.newObservation s := by
      unfold Free at hfree ⊢
      rwa [hr] at hfree
    have hturned := heads_turned hrate htravels hplanar (hs direction hdirection) hx hy hsmall
      (hu direction hdirection htravels hfree' hsmall)
    have hspeed := hturned.smul (planarSpeed_pos.mpr htravels).le
    refine ⟨⟨⟨hspeed.x_zero, hspeed.x_sign, hspeed.y_zero, hspeed.y_sign⟩, hyaw, hsign⟩, ?_,
      fun hpos => absurd hpos (lt_irrefl 0)⟩
    intro direction' hsome'
    obtain rfl := Option.some.inj hsome'
    exact ⟨hturned.x_zero, hturned.x_sign, hturned.y_zero, hturned.y_sign⟩

/-- A turn that is shortened leaves neither nothing nor half a circle. -/
theorem sin_sub_clamp_ne_zero {angle bound : ℝ} (hb : 0 ≤ bound) (hsmall : |angle| ≤ maximumTurn)
    (hlt : bound < |angle|) : Real.sin (angle - clamp angle (-bound) bound) ≠ 0 := by
  have hrest := abs_sub_clamp_le angle hb
  have hclamp := (abs_clamp_le angle hb).1
  intro h0
  have hpi := (hrest.trans hsmall).trans_lt maximumTurn_lt_pi
  rw [abs_lt] at hpi
  have hzero := (Real.sin_eq_zero_iff_of_lt_of_lt hpi.1 hpi.2).mp h0
  rw [← sub_eq_zero.mp hzero] at hclamp
  exact hclamp.not_gt hlt

/-- A direction along one axis that is turned, but not by half a circle, is no longer along it. -/
theorem Heads.off_axis {s : DockingMotionController ℝ} {θ δ : ℝ}
    (h : Heads s (Real.cos θ) (Real.sin θ)) (hne : Real.sin δ ≠ 0) :
    (s.xActive = 0 → Real.cos θ * Real.cos δ + Real.sin θ * Real.sin δ ≠ 0) ∧
      (s.yActive = 0 → Real.sin θ * Real.cos δ - Real.cos θ * Real.sin δ ≠ 0) := by
  have hunit := Real.sin_sq_add_cos_sq θ
  constructor
  · intro hx h0
    rw [h.x_zero hx] at hunit h0
    rw [zero_mul, zero_add] at h0
    have hsin0 := (mul_eq_zero.mp h0).resolve_right hne
    rw [hsin0] at hunit
    norm_num at hunit
  · intro hy h0
    rw [h.y_zero hy] at hunit h0
    rw [zero_mul, zero_sub, neg_eq_zero] at h0
    have hcos0 := (mul_eq_zero.mp h0).resolve_right hne
    rw [hcos0] at hunit
    norm_num at hunit

/-- A turn that is shortened while an axis stands goes on commanding that axis. -/
theorem not_still_of_hindered (h : ControllerValid controller motion) {c : Cycle}
    (hfinite : c.error.isFinite = true) (hdt : 0 ≤ c.dt) {s : DockingMotionController ℝ}
    (ht : Tracks controller motion c.error.values (confirmed controller motion c s))
    (hu : ¬ Unhindered controller motion s c) {command : Twist ℝ}
    (hcommand : (call controller motion s c).2 = some command) :
    ¬ Still (call controller motion s c).1 command := by
  have hrate : 0 ≤ motion.directionRate * c.dt := mul_nonneg h.directionRate.le hdt
  have hl := call_limited h.valid hfinite hcommand
  have hheads := heads_wanted h.valid ht
  unfold Unhindered at hu
  push Not at hu
  obtain ⟨direction, hsome, htravels, hfree, hsmall, hlt, hstands⟩ := hu
  have hd := confirmed_direction controller motion c s
  have hr := confirmed_directionReconfirmations controller motion c s
  generalize (call controller motion s c).1 = s' at hl
  generalize wanted controller motion c s = w at hl hheads htravels hsmall hlt
  generalize confirmed controller motion c s = s₀ at hl hheads hstands hd hr
  cases hl with
  | still hstill => exact absurd htravels hstill
  | waits _ hheld hold =>
    obtain h0 | ⟨hnew, -⟩ := hfree
    · omega
    · rw [hold] at hnew
      cases hnew
  | counts _ hheld _ hle =>
    obtain h0 | ⟨-, hgt⟩ := hfree
    · omega
    · omega
  | stops _ _ d hd' hbig =>
    obtain rfl : direction = d := Option.some.inj (hsome.symm.trans (hd.symm.trans hd'))
    exact absurd hbig (not_lt.mpr hsmall)
  | sets _ _ hnone => cases hnone.symm.trans (hd.trans hsome)
  | turns _ _ d hd' =>
    obtain rfl : direction = d := Option.some.inj (hsome.symm.trans (hd.symm.trans hd'))
    have hspeed := planarSpeed_pos.mpr htravels
    have hheading := heads_heading hheads htravels
    have hne := sin_sub_clamp_ne_zero hrate hsmall hlt
    generalize clamp (turn w direction) (-(motion.directionRate * c.dt))
      (motion.directionRate * c.dt) = part at hne
    have hcos : Real.cos (direction + part) = Real.cos (heading w) *
        Real.cos (turn w direction - part) + Real.sin (heading w) *
          Real.sin (turn w direction - part) := by
      rw [← cos_add_turn w direction, ← sin_add_turn w direction, ← Real.cos_sub]
      congr 1
      ring
    have hsin : Real.sin (direction + part) = Real.sin (heading w) *
        Real.cos (turn w direction - part) - Real.cos (heading w) *
          Real.sin (turn w direction - part) := by
      rw [← cos_add_turn w direction, ← sin_add_turn w direction, ← Real.sin_sub]
      congr 1
      ring
    obtain ⟨hoffx, hoffy⟩ := hheading.off_axis hne
    intro hstill
    by_cases hx : s₀.xActive = 0
    · have hx0 := (mul_eq_zero.mp (hstill.x hx)).resolve_left hspeed.ne'
      exact hoffx hx (hcos.symm.trans hx0)
    · have hy := hstands hx
      have hy0 := (mul_eq_zero.mp (hstill.y hy)).resolve_left hspeed.ne'
      exact hoffy hy (hsin.symm.trans hy0)

/-! ### Runs -/

theorem Limited.axes {dt : ℝ} {new : Bool} {command command' : Twist ℝ}
    {s s' : DockingMotionController ℝ} (hl : Limited motion dt new command s s' command') :
    s'.xActive = s.xActive ∧ s'.yActive = s.yActive ∧ s'.yawActive = s.yawActive := by
  cases hl with
  | still => exact ⟨rfl, rfl, rfl⟩
  | waits => exact ⟨rfl, rfl, rfl⟩
  | counts => exact ⟨rfl, rfl, rfl⟩
  | stops => exact ⟨rfl, rfl, rfl⟩
  | sets => exact ⟨rfl, rfl, rfl⟩
  | turns => exact ⟨rfl, rfl, rfl⟩

/-- No axis goes from one direction to the other within a call. -/
theorem actives_confirmed (ha : ControllerAccepted controller motion) {error : PlanarError ℝ}
    {s : DockingMotionController ℝ} (ht : Tracks controller motion error s) {c : Cycle}
    (hr : NoReversal controller motion s c) :
    ((confirmed controller motion c s).xActive = 0 ∨ s.xActive = 0 ∨
      (confirmed controller motion c s).xActive = s.xActive) ∧
    ((confirmed controller motion c s).yActive = 0 ∨ s.yActive = 0 ∨
      (confirmed controller motion c s).yActive = s.yActive) ∧
    ((confirmed controller motion c s).yawActive = 0 ∨ s.yawActive = 0 ∨
      (confirmed controller motion c s).yawActive = s.yawActive) := by
  unfold confirmed
  split
  · next hnew =>
    obtain ⟨hx, hy, hyaw, hxActive, hyActive, hyawActive, -, -⟩ :=
      confirm_frame controller motion c.error.values s
    obtain ⟨hxCopy, hyCopy, hyawCopy⟩ := ht.copies
    obtain ⟨hxMem, hyMem, hyawMem⟩ := ht.remembers
    have hone := ha.confirmationSamples.1
    rw [hxActive, hyActive, hyawActive, hx, hy, hyaw, hxCopy, hyCopy, hyawCopy]
    exact ⟨ConfirmedAxis.active_update hxMem hone (fun h1 => (hr hnew h1).1) ht.x.active_cases,
      ConfirmedAxis.active_update hyMem hone (fun h1 => (hr hnew h1).2.1) ht.y.active_cases,
      ConfirmedAxis.active_update hyawMem hone (fun h1 => (hr hnew h1).2.2) ht.yaw.active_cases⟩
  · exact ⟨.inr (.inr rfl), .inr (.inr rfl), .inr (.inr rfl)⟩

/-- The axes after a run agree with the error of its last call. -/
theorem tracks_after (hv : validHolonomicFineAlignConfig controller = true)
    (motion : DockingMotionConfig ℝ) (cycles : List Cycle)
    (hfinite : ∀ x ∈ cycles, x.error.isFinite = true) (hobserved : Observed cycles) :
    ∃ error, Tracks controller motion error (after controller motion new cycles) := by
  induction cycles using List.reverseRecOn with
  | nil => exact ⟨⟨0, 0, 0⟩, tracks_new _⟩
  | append_singleton cycles c _ =>
    have hc : c.error.isFinite = true := hfinite c (by simp)
    have ht := tracks_confirmed hv motion cycles c
      (fun x hx => hfinite x (by simp [hx])) hobserved
    obtain ⟨command, hcommand⟩ := call_returns hv hc motion
      (after controller motion new cycles)
    rw [after_snoc]
    exact ⟨_, (call_limited hv hc hcommand).tracks ht⟩

/-- The direction in force after a run in which no turn was shortened while an axis stood. -/
theorem directed_after (ha : ControllerAccepted controller motion) (cycles : List Cycle)
    (hall : ∀ c ∈ cycles, c.error.isFinite = true ∧ 0 ≤ c.dt) (hobserved : Observed cycles)
    (hr : AtEvery controller motion (NoReversal controller motion) new cycles)
    (hu : AtEvery controller motion (Unhindered controller motion) new cycles) :
    Directed (after controller motion new cycles) ∧ HeldStill (after controller motion new cycles) := by
  induction cycles using List.reverseRecOn with
  | nil => exact ⟨fun direction hsome => (by cases hsome), fun _ => rfl⟩
  | append_singleton cycles c ih =>
    obtain ⟨hr, hrc⟩ := (atEvery_snoc _ _).mp hr
    obtain ⟨hu, huc⟩ := (atEvery_snoc _ _).mp hu
    have hbefore : ∀ x ∈ cycles, x.error.isFinite = true ∧ 0 ≤ x.dt :=
      fun x hx => hall x (List.mem_append_left _ hx)
    have hfinite : ∀ x ∈ cycles, x.error.isFinite = true := fun x hx => (hbefore x hx).1
    have hchain : Observed cycles := (List.isChain_append.mp hobserved).1
    obtain ⟨hdirected, hheld⟩ := ih hbefore hchain hr hu
    obtain ⟨hc, hdt⟩ := hall c (by simp)
    obtain ⟨error, hs⟩ := tracks_after ha.valid motion cycles hfinite hchain
    obtain ⟨hx, hy, -⟩ := actives_confirmed ha hs hrc
    have ht := tracks_confirmed ha.valid motion cycles c hfinite hobserved
    obtain ⟨command, hcommand⟩ := call_returns ha.valid hc motion
      (after controller motion new cycles)
    rw [after_snoc]
    exact (follows_call (.of_accepted ha) hc hdt ht hx hy huc hheld hdirected hcommand).2

/-- Two components along an axis that was not reversed between them. -/
theorem unopposed_axis {a a' : ℤ} {x x' : ℝ} (h0 : a = 0 → x = 0) (hx : 0 ≤ x * a)
    (h0' : a' = 0 → x' = 0) (hx' : 0 ≤ x' * a') (h : a' = 0 ∨ a = 0 ∨ a' = a) : 0 ≤ x * x' := by
  obtain hz | hz | rfl := h
  · rw [h0' hz, mul_zero]
  · rw [h0 hz, zero_mul]
  · by_cases hz : a' = 0
    · rw [h0 hz, zero_mul]
    · have hsq : (0 : ℝ) < a' * a' := by
        have hcast : (a' : ℝ) ≠ 0 := Int.cast_ne_zero.mpr hz
        exact mul_self_pos.mpr hcast
      have hprod : 0 ≤ x * x' * (a' * a') := by
        have := mul_nonneg hx hx'
        linarith
      exact nonneg_of_mul_nonneg_left hprod hsq

/-- A run in which no axis is reversed at once stops its axes and its reversals first,
exactly if no turn is shortened while an axis stands. -/
theorem stopsFirst_iff (ha : ControllerAccepted controller motion) (cycles : List Cycle)
    (hall : ∀ c ∈ cycles, c.error.isFinite = true ∧ 0 ≤ c.dt) (hobserved : Observed cycles)
    (hreversal : AtEvery controller motion (NoReversal controller motion) new cycles) :
    StopsFirst controller motion cycles ↔
      AtEvery controller motion (Unhindered controller motion) new cycles := by
  -- what holds before each call
  have hbefore : ∀ before c behind, cycles = before ++ c :: behind →
      (∀ x ∈ before ++ [c], x.error.isFinite = true ∧ 0 ≤ x.dt) ∧ Observed (before ++ [c]) := by
    rintro before c behind rfl
    refine ⟨fun x hx => hall x ?_, (List.isChain_split.mp hobserved).1⟩
    obtain hx | hx := List.mem_append.mp hx
    · exact List.mem_append_left _ hx
    · exact List.mem_append_right _ (by simp_all)
  constructor
  · intro hstops before c behind heq
    obtain ⟨hb, hchain⟩ := hbefore before c behind heq
    obtain ⟨hc, hdt⟩ := hb c (by simp)
    have ht := tracks_confirmed ha.valid motion before c
      (fun x hx => (hb x (List.mem_append_left _ hx)).1) hchain
    obtain ⟨command, hcommand⟩ := call_returns ha.valid hc motion
      (after controller motion new before)
    by_contra hu
    exact not_still_of_hindered (.of_accepted ha) hc hdt ht hu hcommand
      (hstops.still before c behind heq command hcommand)
  · intro hu
    have hfollows : ∀ before c behind command, cycles = before ++ c :: behind →
        (call controller motion (after controller motion new before) c).2 = some command →
        Follows (call controller motion (after controller motion new before) c).1 command := by
      intro before c behind command heq hcommand
      obtain ⟨hb, hchain⟩ := hbefore before c behind heq
      obtain ⟨hc, hdt⟩ := hb c (by simp)
      have hb' : ∀ x ∈ before, x.error.isFinite = true ∧ 0 ≤ x.dt :=
        fun x hx => hb x (List.mem_append_left _ hx)
      have hchain' : Observed before := (List.isChain_append.mp hchain).1
      obtain ⟨error, hs⟩ := tracks_after ha.valid motion before
        (fun x hx => (hb' x hx).1) hchain'
      obtain ⟨hx, hy, -⟩ := actives_confirmed ha hs (hreversal before c behind heq)
      have ht := tracks_confirmed ha.valid motion before c
        (fun x hx => (hb' x hx).1) hchain
      obtain ⟨hdirected, hheld⟩ := directed_after ha before hb' hchain'
        (fun b x t h => hreversal b x (t ++ c :: behind) (by simp [heq, h]))
        (fun b x t h => hu b x (t ++ c :: behind) (by simp [heq, h]))
      exact (follows_call (.of_accepted ha) hc hdt ht hx hy (hu before c behind heq) hheld hdirected
        hcommand).1
    constructor
    · intro before c behind heq command hcommand
      exact (hfollows before c behind command heq hcommand).still
    · intro before c c' behind u v heq hcommand hcommand'
      have hu' := hfollows before c (c' :: behind) u heq hcommand
      have hv' := hfollows (before ++ [c]) c' behind v (by simp [heq]) hcommand'
      rw [after_snoc] at hv' hcommand'
      obtain ⟨hb, hchain⟩ := hbefore (before ++ [c]) c' behind (by simp [heq])
      have hfinite : ∀ x ∈ before ++ [c], x.error.isFinite = true :=
        fun x hx => (hb x (List.mem_append_left _ hx)).1
      obtain ⟨error, hs⟩ := tracks_after ha.valid motion (before ++ [c]) hfinite
        (List.isChain_append.mp hchain).1
      obtain ⟨hx, hy, hyaw⟩ := actives_confirmed ha hs
        (hreversal (before ++ [c]) c' behind (by simp [heq]))
      rw [after_snoc] at hx hy hyaw
      obtain ⟨hxa, hya, hyawa⟩ := (call_limited ha.valid (hb c' (by simp)).1 hcommand').axes
      rw [← hxa] at hx
      rw [← hya] at hy
      rw [← hyawa] at hyaw
      exact ⟨unopposed_axis hu'.planar.x_zero hu'.planar.x_sign hv'.planar.x_zero hv'.planar.x_sign hx,
        unopposed_axis hu'.planar.y_zero hu'.planar.y_sign hv'.planar.y_zero hv'.planar.y_sign hy,
        unopposed_axis hu'.yaw_zero hu'.yaw_sign hv'.yaw_zero hv'.yaw_sign hyaw⟩

theorem stopsFirst_ahead : StopsFirst (unitController true) unitMotion
    [observation 2 0 (1 / 2), observation 2 0 (1 / 2)] := by
  have hdt : (0 : ℝ) ≤ 1 / 2 := by norm_num
  have hafter : after (unitController true) unitMotion new [observation 2 0 (1 / 2)] = underway := by
    show (call (unitController true) unitMotion new (observation 2 0 (1 / 2))).1 = underway
    rw [call_ahead true hdt (.inl rfl)]
  refine (stopsFirst_iff (unit_accepted true) _ ?_ ?_ ?_).mpr ?_
  · intro c hc
    obtain rfl : c = observation 2 0 (1 / 2) := by simpa using hc
    exact ⟨rfl, hdt⟩
  · simp [Observed, observation]
  · refine (atEvery_snoc [observation 2 0 (1 / 2)] _).mpr
      ⟨(atEvery_snoc [] _).mpr ⟨atEvery_nil, fun _ _ => ?_⟩, fun _ _ => ?_⟩
    · exact ⟨fun h => h.1 rfl, fun h => h.1 rfl, fun h => h.1 rfl⟩
    · rw [hafter]
      refine ⟨fun h => ?_, fun h => h.1 rfl, fun h => h.1 rfl⟩
      have hopposite : ConfirmedAxis.requested (2 : ℝ) 1 0 = -1 := h.2.1
      rw [requested_one.1] at hopposite
      omega
  · refine (atEvery_snoc [observation 2 0 (1 / 2)] _).mpr
      ⟨(atEvery_snoc [] _).mpr ⟨atEvery_nil, ?_⟩, ?_⟩
    · intro direction hnone
      cases hnone
    rw [hafter]
    intro direction hsome _ _ _ hlt
    obtain rfl : (0 : ℝ) = direction := Option.some.inj hsome
    have hturn := turn_heading ahead
    rw [heading_ahead] at hturn
    rw [wanted_ahead true (1 / 2) (.inr rfl), hturn, abs_zero] at hlt
    norm_num [unitMotion, observation] at hlt

/-- The robot has come level with a target two metres to its left. -/
theorem hindered_aside : ¬ Unhindered (unitController true) unitMotion underway
    (observation 0 2 (1 / 2)) := by
  intro hu
  have hpi := Real.pi_gt_three
  have hboth := hu 0 rfl
  rw [wanted_aside true rfl, turn_aside, confirmed_aside true rfl, abs_of_pos (by positivity)] at hboth
  refine (hboth travels_aside (.inl rfl) pi_div_two_le_maximumTurn ?_).1 rfl
  norm_num [unitMotion, observation]
  linarith

theorem not_stopsFirst_aside :
    ControllerAccepted (unitController true) unitMotion ∧
    (∀ c ∈ [observation 2 0 (1 / 2), observation 0 2 (1 / 2)], c.error.isFinite = true ∧ 0 ≤ c.dt) ∧
    Observed [observation 2 0 (1 / 2), observation 0 2 (1 / 2)] ∧
    ¬ StopsFirst (unitController true) unitMotion [observation 2 0 (1 / 2), observation 0 2 (1 / 2)] := by
  have hdt : (0 : ℝ) ≤ 1 / 2 := by norm_num
  have hobserved : Observed [observation 2 0 (1 / 2), observation 0 2 (1 / 2)] := by
    simp [Observed, observation]
  refine ⟨unit_accepted true, ?_, hobserved, ?_⟩
  · intro c hc
    obtain rfl | rfl : c = observation 2 0 (1 / 2) ∨ c = observation 0 2 (1 / 2) := by simpa using hc
    · exact ⟨rfl, hdt⟩
    · exact ⟨rfl, hdt⟩
  · intro hstops
    have hafter : after (unitController true) unitMotion new [observation 2 0 (1 / 2)] = underway := by
      show (call (unitController true) unitMotion new (observation 2 0 (1 / 2))).1 = underway
      rw [call_ahead true hdt (.inl rfl)]
    have htracks := tracks_confirmed (unit_accepted true).valid unitMotion
      [observation 2 0 (1 / 2)] (observation 0 2 (1 / 2)) (by simp [finite_observation]) hobserved
    rw [hafter] at htracks
    obtain ⟨command, hcommand⟩ := call_returns (unit_accepted true).valid
      (finite_observation 0 2 (1 / 2)) unitMotion underway
    have hstill := hstops.still [observation 2 0 (1 / 2)] (observation 0 2 (1 / 2)) [] rfl
    rw [hafter] at hstill
    exact not_still_of_hindered (.of_accepted (unit_accepted true)) (finite_observation _ _ _) hdt
      htracks hindered_aside hcommand (hstill command hcommand)

end DockingMotionController

end X2Navigation
