import X2Navigation.Docking.ExactTracking

/-! The filter of the tag tracker as a contraction: every accepted observation leaves a fixed
share of what separated it from the prediction. The yaw is wrapped in the prediction, in the
innovation and in the result, and the share is taken of the shorter arc whichever of the wraps
cut. -/

namespace X2Navigation

/-! ### Arcs -/

theorem wrapAngle_mem (angle : ℝ) : -Real.pi < wrapAngle Libm.real angle ∧
    wrapAngle Libm.real angle ≤ Real.pi := by
  rw [wrapAngle_real]
  exact ⟨Real.Angle.neg_pi_lt_toReal _, Real.Angle.toReal_le_pi _⟩

/-- A share of an arc is an arc of its own. -/
theorem wrapAngle_mul_wrapAngle {share : ℝ} (h0 : 0 ≤ share) (h1 : share ≤ 1) (angle : ℝ) :
    wrapAngle Libm.real (share * wrapAngle Libm.real angle) = share * wrapAngle Libm.real angle := by
  obtain ⟨hlt, hle⟩ := wrapAngle_mem angle
  have hpi := Real.pi_pos
  rw [wrapAngle_real, Real.Angle.toReal_coe_eq_self_iff]
  constructor
  · rcases h0.eq_or_lt with rfl | hpos
    · linarith
    · calc -Real.pi ≤ share * -Real.pi := by nlinarith
        _ < share * wrapAngle Libm.real angle := mul_lt_mul_of_pos_left hlt hpos
  · calc share * wrapAngle Libm.real angle ≤ share * Real.pi := mul_le_mul_of_nonneg_left hle h0
      _ ≤ 1 * Real.pi := mul_le_mul_of_nonneg_right h1 hpi.le
      _ = Real.pi := one_mul _

/-- From the end of a share of the arc, the rest of it is left. -/
theorem wrapAngle_sub_share {share : ℝ} (h0 : 0 ≤ share) (h1 : share ≤ 1) (a b : ℝ) :
    wrapAngle Libm.real (a - wrapAngle Libm.real (b + share * wrapAngle Libm.real (a - b))) =
      (1 - share) * wrapAngle Libm.real (a - b) := by
  have hangle : ((a - wrapAngle Libm.real (b + share * wrapAngle Libm.real (a - b)) : ℝ) :
      Real.Angle) = (((1 - share) * wrapAngle Libm.real (a - b) : ℝ) : Real.Angle) := by
    have harc : ((wrapAngle Libm.real (a - b) : ℝ) : Real.Angle) = ((a - b : ℝ) : Real.Angle) := by
      rw [wrapAngle_real, Real.Angle.coe_toReal]
    have hwrapped : ((wrapAngle Libm.real (b + share * wrapAngle Libm.real (a - b)) : ℝ) :
        Real.Angle) = ((b + share * wrapAngle Libm.real (a - b) : ℝ) : Real.Angle) := by
      rw [wrapAngle_real (b + _), Real.Angle.coe_toReal]
    rw [sub_mul, one_mul, Real.Angle.coe_sub, hwrapped, Real.Angle.coe_sub, harc,
      Real.Angle.coe_sub, Real.Angle.coe_add]
    abel
  rw [wrapAngle_real, hangle, ← wrapAngle_real]
  exact wrapAngle_mul_wrapAngle (by linarith) (by linarith) _

/-- The share of the arc is what has been turned. -/
theorem wrapAngle_share_sub {share : ℝ} (h0 : 0 ≤ share) (h1 : share ≤ 1) (a b : ℝ) :
    wrapAngle Libm.real (wrapAngle Libm.real (b + share * wrapAngle Libm.real (a - b)) - b) =
      share * wrapAngle Libm.real (a - b) := by
  have hangle : ((wrapAngle Libm.real (b + share * wrapAngle Libm.real (a - b)) - b : ℝ) :
      Real.Angle) = ((share * wrapAngle Libm.real (a - b) : ℝ) : Real.Angle) := by
    have hwrapped : ((wrapAngle Libm.real (b + share * wrapAngle Libm.real (a - b)) : ℝ) :
        Real.Angle) = ((b + share * wrapAngle Libm.real (a - b) : ℝ) : Real.Angle) := by
      rw [wrapAngle_real (b + _), Real.Angle.coe_toReal]
    rw [Real.Angle.coe_sub, hwrapped, Real.Angle.coe_add]
    abel
  rw [wrapAngle_real, hangle, ← wrapAngle_real]
  exact wrapAngle_mul_wrapAngle h0 h1 _

/-! ### The filter -/

/-- The weight of an observation that comes `dt` after the last one. -/
noncomputable def TagTrackingConfig.alpha (config : TagTrackingConfig ℝ) (dt : ℝ) : ℝ :=
  if config.filterTimeConstant = 0 then 1 else dt / (config.filterTimeConstant + dt)

variable {config : TagTrackingConfig ℝ} {dt : ℝ}

theorem alpha_mem (h : 0 ≤ config.filterTimeConstant) (hdt : 0 < dt) :
    0 < config.alpha dt ∧ config.alpha dt ≤ 1 := by
  unfold TagTrackingConfig.alpha
  split
  · exact ⟨one_pos, le_rfl⟩
  · have hsum : 0 < config.filterTimeConstant + dt := by linarith
    exact ⟨div_pos hdt hsum, (div_le_one hsum).mpr (by linarith)⟩

namespace RelativeTagTracker

variable {s : RelativeTagTracker ℝ}

/-- `error` is what is left between `raw` and the prediction after a share `alpha` has been taken
of it, in each coordinate and along the shorter arc. -/
structure Contracts (alpha : ℝ) (predicted raw error : PlanarError ℝ) : Prop where
  x : raw.x - error.x = (1 - alpha) * (raw.x - predicted.x)
  y : raw.y - error.y = (1 - alpha) * (raw.y - predicted.y)
  yaw : wrapAngle Libm.real (raw.yaw - error.yaw) =
    (1 - alpha) * wrapAngle Libm.real (raw.yaw - predicted.yaw)
  /-- The yaw has moved along the shorter arc, and not beyond its end. -/
  turned : wrapAngle Libm.real (error.yaw - predicted.yaw) =
    alpha * wrapAngle Libm.real (raw.yaw - predicted.yaw)
  range : -Real.pi < error.yaw ∧ error.yaw ≤ Real.pi

theorem blend_contracts (h : 0 ≤ config.filterTimeConstant) (hdt : 0 < dt)
    (predicted raw : PlanarError ℝ) :
    Contracts (config.alpha dt) predicted raw (blend Libm.real config predicted raw dt) := by
  obtain ⟨hpos, hle⟩ := alpha_mem h hdt
  have hblend : blend Libm.real config predicted raw dt =
      ⟨predicted.x + config.alpha dt * (raw.x - predicted.x),
        predicted.y + config.alpha dt * (raw.y - predicted.y),
        wrapAngle Libm.real
          (predicted.yaw + config.alpha dt * wrapAngle Libm.real (raw.yaw - predicted.yaw))⟩ := rfl
  rw [hblend]
  constructor
  · ring
  · ring
  · exact wrapAngle_sub_share hpos.le hle _ _
  · exact wrapAngle_share_sub hpos.le hle _ _
  · exact wrapAngle_mem _

/-- An accepted observation that is not the first is blended into the prediction. -/
theorem observe_blends {raw : PlanarError (Double ℝ)} {stamp : Double ℝ} {command : Twist ℝ}
    (haccepted : (s.observe Libm.real config raw stamp command).2 = true)
    (hprevious : s.previousRaw.isSome = true) (htimely : stamp.value - s.stamp ≤ config.timeout) :
    0 < stamp.value - s.stamp ∧
      (s.observe Libm.real config raw stamp command).1.error =
        blend Libm.real config
          (predictRelativeError Libm.real s.error command (stamp.value - s.stamp)) raw.values
          (stamp.value - s.stamp) := by
  obtain ⟨previous, hsome⟩ := Option.isSome_iff_exists.mp hprevious
  unfold observe at haccepted ⊢
  split at haccepted
  · cases haccepted
  next hfresh =>
  simp only [hsome, Option.isSome_some, Bool.true_and, Bool.or_eq_true, decide_eq_true_eq, not_or,
    not_le] at hfresh
  rw [if_neg (by simpa [hsome] using hfresh)]
  simp only [hsome, Option.isSome_some, Bool.true_and, not_lt.mpr htimely, decide_false,
    Bool.false_eq_true, if_false] at haccepted ⊢
  split at haccepted
  · cases haccepted
  · next hgate =>
    rw [if_neg hgate]
    exact ⟨sub_pos.mpr hfresh.2, rfl⟩

/-- An accepted observation that is compared with an earlier one, no more than the timeout ago,
leaves `1 - alpha` of its distance from the prediction. -/
theorem filter_contracts (config : TagTrackingConfig ℝ) (hconfig : 0 ≤ config.filterTimeConstant)
    (s : RelativeTagTracker ℝ) (raw : PlanarError (Double ℝ)) (stamp : Double ℝ)
    (command : Twist ℝ) (haccepted : (s.observe Libm.real config raw stamp command).2 = true)
    (hprevious : s.previousRaw.isSome = true) (htimely : stamp.value - s.stamp ≤ config.timeout) :
    let dt := stamp.value - s.stamp
    (0 < config.alpha dt ∧ config.alpha dt ≤ 1) ∧
      Contracts (config.alpha dt) (predictRelativeError Libm.real s.error command dt) raw.values
        (s.observe Libm.real config raw stamp command).1.error := by
  obtain ⟨hdt, herror⟩ := observe_blends haccepted hprevious htimely
  rw [herror]
  exact ⟨alpha_mem hconfig hdt, blend_contracts hconfig hdt _ _⟩

/-- Across the cut, with two fifths of the way taken. -/
theorem filter_contracts_across :
    let config : TagTrackingConfig ℝ := ⟨1, 1 / 2, 3 / 20, 1 / 50, 4, 1 / 10, 1 / 10⟩
    let s : RelativeTagTracker ℝ := new.accept config ⟨3 / 2, 0, 3⟩ 1 ⟨3 / 2, 0, 3⟩
    let raw : PlanarError ℝ := ⟨3 / 2, 0, -3⟩
    Contracts (2 / 5) (predictRelativeError Libm.real ⟨3 / 2, 0, 3⟩ 0 (1 / 10)) raw
      (s.observe Libm.real config raw.finite (.finite (1 + 1 / 10)) 0).1.error := by
  intro config s raw
  have hgate : jumps Libm.real config ⟨3 / 2, 0, 3⟩ raw (1 / 10) = false := by
    have hpi := Real.pi_le_four
    obtain ⟨hlt, hle⟩ := wrapAngle_mem (-3 - 3)
    have hturn : |wrapAngle Libm.real (-3 - 3)| ≤ 4 := abs_le.mpr ⟨by linarith, by linarith⟩
    have hlength : Libm.real.hypot (3 / 2) 0 = 3 / 2 := by
      have h := Libm.real_hypot_polar (r := 3 / 2) (by norm_num) 0
      simpa using h
    have hstill : Libm.real.hypot (3 / 2 - 3 / 2) (0 - 0) = 0 := by simp
    simp only [jumps, raw, config, hlength, hstill, decide_eq_false_iff_not, not_or, not_lt]
    constructor
    · norm_num
    · exact hturn.trans (by norm_num)
  have haccepted := congrArg Prod.snd (observe_timely (s := s) (0 : Twist ℝ) rfl (by norm_num)
    (by norm_num [config]) hgate)
  have hdt : (Double.finite (1 + 1 / 10 : ℝ)).value - s.stamp = 1 / 10 := by
    norm_num [s, RelativeTagTracker.accept]
  have halpha : config.alpha (1 / 10) = 2 / 5 := by
    norm_num [TagTrackingConfig.alpha, config]
  have h := filter_contracts config (by norm_num [config]) s raw.finite (.finite (1 + 1 / 10)) 0
    haccepted rfl (by rw [hdt]; norm_num [config])
  dsimp only at h
  rw [hdt, halpha] at h
  exact h.2

end RelativeTagTracker

end X2Navigation
