import Mathlib.Analysis.SpecialFunctions.Trigonometric.Bounds
import X2Navigation.Docking.PlanarPose
import X2Navigation.Docking.Tracker

/-! The tag tracker over the exact reals. A robot within its rates moves the relative pose of a
tag by no more than the gate allows, whatever its distance; and when the twist is what the robot
did, the prediction is the new pose, so that the filter has nothing left to smooth. -/

namespace X2Navigation

open Rigid

/-! ### Turned vectors -/

/-- A chord is no longer than its arc. -/
theorem hypot_turn_sub_le (x y dx dy angle : ℝ) :
    Libm.real.hypot (Real.cos angle * (x - dx) + Real.sin angle * (y - dy) - x)
        (-Real.sin angle * (x - dx) + Real.cos angle * (y - dy) - y) ≤
      Libm.real.hypot dx dy + |angle| * Libm.real.hypot x y := by
  let p : ℂ := ⟨x, y⟩
  let d : ℂ := ⟨dx, dy⟩
  let e : ℂ := Complex.exp (Complex.I * ((-angle : ℝ) : ℂ))
  have hre : e.re = Real.cos angle := by simp [e, Complex.exp_re]
  have him : e.im = -Real.sin angle := by simp [e, Complex.exp_im]
  have hnorm : ‖e‖ = 1 := Complex.norm_exp_I_mul_ofReal _
  have hchord : ‖e - 1‖ ≤ |angle| := by
    have h := Real.norm_exp_I_mul_ofReal_sub_one_le (x := -angle)
    rwa [Real.norm_eq_abs, abs_neg] at h
  have hturned : (⟨Real.cos angle * (x - dx) + Real.sin angle * (y - dy) - x,
      -Real.sin angle * (x - dx) + Real.cos angle * (y - dy) - y⟩ : ℂ) = e * (p - d) - p := by
    apply Complex.ext
    · simp only [Complex.sub_re, Complex.mul_re, Complex.sub_im, hre, him, p, d]
      ring
    · simp only [Complex.sub_im, Complex.mul_im, Complex.sub_re, hre, him, p, d]
      ring
  rw [Libm.real_hypot_eq_norm, Libm.real_hypot_eq_norm, Libm.real_hypot_eq_norm, hturned]
  calc ‖e * (p - d) - p‖ = ‖(e - 1) * p - e * d‖ := by
        congr 1
        ring
    _ ≤ ‖(e - 1) * p‖ + ‖e * d‖ := norm_sub_le _ _
    _ = ‖e - 1‖ * ‖p‖ + ‖d‖ := by rw [norm_mul, norm_mul, hnorm, one_mul]
    _ ≤ |angle| * ‖p‖ + ‖d‖ := by gcongr
    _ = ‖d‖ + |angle| * ‖p‖ := add_comm _ _

/-- Wrapping brings an angle no further from zero. -/
theorem abs_wrapAngle_le (angle : ℝ) : |wrapAngle Libm.real angle| ≤ |angle| := by
  rcases lt_or_ge |angle| Real.pi with h | h
  · rw [wrapAngle_real_eq_self h]
  · rw [wrapAngle_real]
    exact (Real.Angle.abs_toReal_le_pi _).trans h

/-! ### Moved poses -/

/-- The pose after the robot has moved by `motion`, as an error. -/
theorem planarError_moved (motion p : PlanarError ℝ) :
    planarError Libm.real (planarPose Libm.real motion) (planarPose Libm.real p) =
      ⟨Real.cos motion.yaw * (p.x - motion.x) + Real.sin motion.yaw * (p.y - motion.y),
        -Real.sin motion.yaw * (p.x - motion.x) + Real.cos motion.yaw * (p.y - motion.y),
        wrapAngle Libm.real (p.yaw - motion.yaw)⟩ := by
  have hrelative : planarError Libm.real (planarPose Libm.real motion) (planarPose Libm.real p) =
      planarError Libm.real 1 (planarPose Libm.real (motion.inverse.compose p)) := by
    rw [← planarPose_mul, ← planarPose_inverse]
    unfold planarError
    rw [one_inverse_mul]
  rw [hrelative, planarError_planarPose]
  simp only [PlanarError.compose, PlanarError.inverse, Real.cos_neg, Real.sin_neg,
    PlanarError.mk.injEq]
  refine ⟨by ring, by ring, ?_⟩
  congr 1
  ring

/-! ### Motions of the robot -/

/-- Slacks and a timeout that are positive, rates and a time constant that are not negative. -/
structure TagTrackingConfig.Sound (config : TagTrackingConfig ℝ) : Prop where
  timeout : 0 < config.timeout
  filterTimeConstant : 0 ≤ config.filterTimeConstant
  positionSlack : 0 < config.positionSlack
  angularSlack : 0 < config.angularSlack
  translationRate : 0 ≤ config.translationRate
  angularRate : 0 ≤ config.angularRate

/-- The robot has moved, within its rates, since the last observation. -/
structure Feasible (config : TagTrackingConfig ℝ) (motion : PlanarError ℝ) (dt : ℝ) : Prop where
  pos : 0 < dt
  timely : dt ≤ config.timeout
  translation : Libm.real.hypot motion.x motion.y ≤ config.translationRate * dt
  rotation : |motion.yaw| ≤ config.angularRate * dt

/-- What the robot sees after it has moved. -/
noncomputable def seenAfter (motion p : PlanarError ℝ) : PlanarError ℝ :=
  planarError Libm.real (planarPose Libm.real motion) (planarPose Libm.real p)

/-- A twist held for some time: moving by `v * dt`, then turning by `omega * dt`. -/
def held (command : Twist ℝ) (dt : ℝ) : PlanarError ℝ :=
  ⟨command.linear.x * dt, command.linear.y * dt, command.angular.z * dt⟩

/-- The prediction is the relative pose after the motion that was commanded. -/
theorem predictRelativeError_held (p : PlanarError ℝ) (command : Twist ℝ) (dt : ℝ) :
    predictRelativeError Libm.real p command dt = seenAfter (held command dt) p :=
  (planarError_moved (held command dt) p).symm

namespace RelativeTagTracker
variable {config : TagTrackingConfig ℝ} {s : RelativeTagTracker ℝ} {motion p : PlanarError ℝ}
  {dt : ℝ}

/-- The gate lets real motion pass. -/
theorem not_jumps (hsound : config.Sound) (h : Feasible config motion dt) :
    jumps Libm.real config p (seenAfter motion p) dt = false := by
  have hdistance : 0 ≤ Libm.real.hypot p.x p.y := Libm.real_hypot_nonneg _ _
  have hmoved := hypot_turn_sub_le p.x p.y motion.x motion.y motion.yaw
  have hturned : |motion.yaw| * Libm.real.hypot p.x p.y ≤
      config.angularRate * dt * Libm.real.hypot p.x p.y :=
    mul_le_mul_of_nonneg_right h.rotation hdistance
  have hyaw : wrapAngle Libm.real (wrapAngle Libm.real (p.yaw - motion.yaw) - p.yaw) =
      wrapAngle Libm.real (-motion.yaw) := by
    rw [wrapAngle_real_wrapAngle_sub]
    congr 1
    ring
  have hwrapped := abs_wrapAngle_le (-motion.yaw)
  rw [abs_neg] at hwrapped
  have htranslation := h.translation
  have hrotation := h.rotation
  have hposition := hsound.positionSlack
  have hangular := hsound.angularSlack
  unfold jumps seenAfter
  dsimp only
  rw [planarError_moved]
  dsimp only
  rw [hyaw, decide_eq_false_iff_not, not_or, not_lt, not_lt]
  constructor
  · linarith
  · linarith

/-- An observation that is later, but not too late. -/
theorem observe_timely {raw : PlanarError ℝ} (command : Twist ℝ)
    (hprevious : s.previousRaw = some p) (hpos : 0 < dt) (htimely : dt ≤ config.timeout)
    (hgate : jumps Libm.real config p raw dt = false) :
    s.observe Libm.real config raw.finite (.finite (s.stamp + dt)) command =
      (s.accept config raw (s.stamp + dt)
        (blend Libm.real config (predictRelativeError Libm.real s.error command dt) raw dt), true) := by
  have hlater : ¬s.stamp + dt ≤ s.stamp := by linarith
  have hgap : s.stamp + dt - s.stamp = dt := by ring
  unfold observe
  simp only [PlanarError.isFinite_finite, PlanarError.values_finite, Double.isFinite_finite,
    Double.value_finite, hprevious, Option.isSome_some, hlater, hgap, not_lt.mpr htimely,
    Bool.not_true, decide_false, Bool.and_false, Bool.or_false, Bool.false_eq_true, if_false, hgate]

theorem observe_first {raw : PlanarError ℝ} {stamp : ℝ} {command : Twist ℝ}
    (h : s.previousRaw = none) :
    s.observe Libm.real config raw.finite (.finite stamp) command =
      (s.accept config raw stamp raw, true) := by
  unfold observe
  simp only [PlanarError.isFinite_finite, PlanarError.values_finite, Double.isFinite_finite,
    Double.value_finite, h, Option.isSome_none, Bool.not_true, Bool.false_and, Bool.or_false,
    Bool.false_eq_true, if_false]

/-- Where the prediction is what is seen, there is nothing to smooth. -/
theorem blend_self {raw : PlanarError ℝ} (h : wrapAngle Libm.real raw.yaw = raw.yaw) :
    blend Libm.real config raw raw dt = raw := by
  unfold blend
  simp only [sub_self, mul_zero, add_zero, wrapAngle_real_zero, h]

end RelativeTagTracker

/-! ### Runs -/

/-- A twist that the robot follows until the next observation. -/
structure Leg where
  command : Twist ℝ
  dt : ℝ

structure Observation where
  raw : PlanarError ℝ
  stamp : ℝ
  command : Twist ℝ

/-- The observations after the one of `p` at `stamp`. -/
noncomputable def observations (p : PlanarError ℝ) (stamp : ℝ) : List Leg → List Observation
  | [] => []
  | leg :: legs =>
    let raw := seenAfter (held leg.command leg.dt) p
    ⟨raw, stamp + leg.dt, leg.command⟩ :: observations raw (stamp + leg.dt) legs

namespace RelativeTagTracker

/-- Whether each observation is accepted, and the error after it. -/
noncomputable def replies (config : TagTrackingConfig ℝ) :
    RelativeTagTracker ℝ → List Observation → List (Bool × PlanarError ℝ)
  | _, [] => []
  | s, o :: os =>
    let reply := s.observe Libm.real config o.raw.finite (.finite o.stamp) o.command
    (reply.2, reply.1.error) :: replies config reply.1 os

variable {config : TagTrackingConfig ℝ}

theorem wrapAngle_seenAfter (motion p : PlanarError ℝ) :
    wrapAngle Libm.real (seenAfter motion p).yaw = (seenAfter motion p).yaw := by
  rw [seenAfter, planarError]
  rw [wrapAngle_real_atan2, wrapAngle_real_atan2]

/-- The induction is on the legs: the filtered error is the latest raw pose. -/
theorem replies_observations (hsound : config.Sound) (legs : List Leg)
    (hlegs : ∀ leg ∈ legs, Feasible config (held leg.command leg.dt) leg.dt) (p : PlanarError ℝ)
    (s : RelativeTagTracker ℝ) (hprevious : s.previousRaw = some p) (herror : s.error = p) :
    s.replies config (observations p s.stamp legs) =
      (observations p s.stamp legs).map fun o => (true, o.raw) := by
  induction legs generalizing p s with
  | nil => rfl
  | cons leg legs ih =>
    obtain ⟨hleg, hrest⟩ := List.forall_mem_cons.mp hlegs
    have hobserve := observe_timely leg.command hprevious hleg.pos hleg.timely
      (not_jumps hsound hleg)
    rw [herror, predictRelativeError_held, blend_self (wrapAngle_seenAfter _ _)] at hobserve
    rw [observations, replies, List.map_cons]
    dsimp only
    rw [hobserve]
    exact congrArg _ (ih hrest _ (s.accept config _ (s.stamp + leg.dt) _) rfl rfl)

/-- No real motion is refused, and motion as commanded is followed without a lag. -/
theorem tracks_exactly (config : TagTrackingConfig ℝ) (hsound : config.Sound) :
    (∀ (s : RelativeTagTracker ℝ) (p motion : PlanarError ℝ) (dt : ℝ) (command : Twist ℝ),
      s.previousRaw = some p → Feasible config motion dt →
        (s.observe Libm.real config (seenAfter motion p).finite (.finite (s.stamp + dt)) command).2 =
          true) ∧
    ∀ (s : RelativeTagTracker ℝ) (first : Observation) (legs : List Leg), s.previousRaw = none →
      (∀ leg ∈ legs, Feasible config (held leg.command leg.dt) leg.dt) →
        s.replies config (first :: observations first.raw first.stamp legs) =
          (first :: observations first.raw first.stamp legs).map fun o => (true, o.raw) := by
  constructor
  · intro s p motion dt command hprevious h
    rw [observe_timely command hprevious h.pos h.timely (not_jumps hsound h)]
  · intro s first legs hnone hlegs
    rw [replies, List.map_cons, observe_first hnone]
    exact congrArg _ (replies_observations hsound legs hlegs first.raw
      (s.accept config first.raw first.stamp first.raw) rfl rfl)

/-- Turning on the spot in front of a tag. -/
theorem tracks_exactly_turning :
    let config : TagTrackingConfig ℝ := ⟨1, 1 / 2, 3 / 20, 1 / 50, 1 / 20, 1 / 10, 1 / 10⟩
    let first : Observation := ⟨⟨3 / 2, 1 / 5, 3 / 10⟩, 1, 0⟩
    let legs : List Leg := [⟨⟨⟨0, 0, 0⟩, ⟨0, 0, 1 / 10⟩⟩, 1 / 10⟩]
    (new.replies config (first :: observations first.raw first.stamp legs) =
      (first :: observations first.raw first.stamp legs).map fun o => (true, o.raw)) ∧
    ((new.accept config first.raw 1 first.raw).observe Libm.real config
      (seenAfter ⟨1 / 100, 0, 0⟩ first.raw).finite (.finite (1 + 1 / 10)) 0).2 = true := by
  intro config first legs
  have hsound : config.Sound := by constructor <;> norm_num [config]
  have hlegs : ∀ leg ∈ legs, Feasible config (held leg.command leg.dt) leg.dt := by
    intro leg hleg
    obtain rfl := List.mem_singleton.mp hleg
    constructor <;> norm_num [held, Libm.real, config, abs_of_pos]
  have hlength : Libm.real.hypot (1 / 100) 0 = 1 / 100 := by
    show √((1 / 100) ^ 2 + 0 ^ 2) = 1 / 100
    rw [zero_pow two_ne_zero, add_zero]
    exact Real.sqrt_sq (by norm_num)
  have hmotion : Feasible config ⟨1 / 100, 0, 0⟩ (1 / 10) := by
    constructor <;> norm_num [hlength, config]
  obtain ⟨hgate, hrun⟩ := tracks_exactly config hsound
  exact ⟨hrun new first legs rfl hlegs,
    hgate (new.accept config first.raw 1 first.raw) first.raw _ _ 0 rfl hmotion⟩

end RelativeTagTracker

end X2Navigation
