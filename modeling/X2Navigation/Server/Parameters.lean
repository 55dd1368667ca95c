import X2Navigation.Docking.Motion

/-! The numeric parameters of the fine-align server and what its constructor
makes of them. Some are validated and then read as numbers; those that are not
validated keep their special values. -/

namespace X2Navigation.FineAlignServer

/-- The parameters as they are declared. `controller` holds the parameters of the
alignment; undocking has speeds of its own. -/
structure Parameters (K : Type*) where
  rotateMaxAngularSpeed : Double K
  rotateMaxDuration : Double K
  minimumDecisionMargin : Double K
  maximumPoseAge : Double K
  stableSampleCount : ℤ
  maximumPositionSpread : Double K
  maximumAngularSpread : Double K
  captureDistance : Double K
  captureLateral : Double K
  captureYaw : Double K
  reverseCaptureDistance : Double K
  acquisitionTimeout : Double K
  approachTimeout : Double K
  maximumRetries : ℤ
  retryDelay : Double K
  commandTimeout : Double K
  collisionStopTimeout : Double K
  settledSampleCount : ℤ
  settlingDuration : Double K
  settlingPositionSpread : Double K
  settlingAngularSpread : Double K
  trackingTimeout : Double K
  tagFilterTimeConstant : Double K
  positionHysteresis : Double K
  yawHysteresis : Double K
  motionConfirmationSamples : ℤ
  directionChangeRate : Double K
  controllerFrequency : Double K
  progressLogInterval : Double K
  undockDistance : Double K
  undockTimeout : Double K
  controller : HolonomicFineAlignConfig (Double K)
  undockTranslationSpeedMin : Double K
  undockTranslationSpeedMax : Double K
  undockAngularSpeedMin : Double K
  undockAngularSpeedMax : Double K

variable {K : Type*} [Field K] [LinearOrder K]

/-- `!std::isfinite(x) || x <= 0.0`. -/
def notPositive (x : Double K) : Bool := !x.isFinite || decide (x.value ≤ 0)

/-- `!std::isfinite(x) || x < 0.0`. -/
def negative (x : Double K) : Bool := !x.isFinite || decide (x.value < 0)

def invalidConfig (config : HolonomicFineAlignConfig (Double K)) : Bool :=
  !(config.isFinite && validHolonomicFineAlignConfig config.values)

def Parameters.undockController (p : Parameters K) : HolonomicFineAlignConfig (Double K) :=
  { p.controller with
    translationSpeedMin := p.undockTranslationSpeedMin
    translationSpeedMax := p.undockTranslationSpeedMax
    angularSpeedMin := p.undockAngularSpeedMin
    angularSpeedMax := p.undockAngularSpeedMax
    allowReverseX := true }

/-- The constructor throws. -/
def Parameters.rejected (p : Parameters K) : Bool :=
  notPositive p.rotateMaxAngularSpeed || notPositive p.rotateMaxDuration ||
  decide (p.maximumRetries < 0 ∨ 10 < p.maximumRetries) || decide (p.settledSampleCount < 1) ||
  decide (p.motionConfirmationSamples < 1 ∨ 20 < p.motionConfirmationSamples) ||
  invalidConfig p.controller || invalidConfig p.undockController ||
  notPositive p.controllerFrequency || notPositive p.maximumPoseAge ||
  notPositive p.reverseCaptureDistance || negative p.retryDelay ||
  notPositive p.progressLogInterval || notPositive p.undockDistance ||
  decide (1 / 2 < p.undockTranslationSpeedMax.value) ||
  decide (1 < p.undockAngularSpeedMax.value) || notPositive p.undockTimeout ||
  notPositive p.settlingPositionSpread || notPositive p.settlingAngularSpread ||
  notPositive p.settlingDuration || notPositive p.trackingTimeout ||
  negative p.tagFilterTimeConstant || notPositive p.maximumPositionSpread ||
  notPositive p.maximumAngularSpread || negative p.positionHysteresis || negative p.yawHysteresis ||
  decide (p.controller.translationYawStop.value ≤ p.yawHysteresis.value) ||
  notPositive p.directionChangeRate

/-- The default values of the declarations. -/
def Parameters.declared : Parameters K where
  rotateMaxAngularSpeed := .finite (1 / 2)
  rotateMaxDuration := .finite 60
  minimumDecisionMargin := .finite 20
  maximumPoseAge := .finite (5 / 2)
  stableSampleCount := 3
  maximumPositionSpread := .finite (1 / 50)
  maximumAngularSpread := .finite (523598776 / 10000000000)
  captureDistance := .finite (3 / 2)
  captureLateral := .finite (3 / 10)
  captureYaw := .finite (5235987756 / 10000000000)
  reverseCaptureDistance := .finite (3 / 20)
  acquisitionTimeout := .finite 6
  approachTimeout := .finite 45
  maximumRetries := 2
  retryDelay := .finite 1
  commandTimeout := .finite (1 / 5)
  collisionStopTimeout := .finite 1
  settledSampleCount := 3
  settlingDuration := .finite (1 / 2)
  settlingPositionSpread := .finite (1 / 50)
  settlingAngularSpread := .finite (34906585 / 1000000000)
  trackingTimeout := .finite (6 / 5)
  tagFilterTimeConstant := .finite (3 / 20)
  positionHysteresis := .finite (1 / 50)
  yawHysteresis := .finite (34906585 / 1000000000)
  motionConfirmationSamples := 2
  directionChangeRate := .finite 1
  controllerFrequency := .finite 20
  progressLogInterval := .finite 1
  undockDistance := .finite (3 / 10)
  undockTimeout := .finite 10
  controller :=
    { translationGain := .finite (1 / 2)
      yawGain := .finite 1
      translationSpeedMin := .finite (11 / 100)
      translationSpeedMax := .finite (3 / 20)
      angularSpeedMin := .finite (11 / 100)
      angularSpeedMax := .finite (1 / 4)
      translationYawStop := .finite (3490658504 / 10000000000)
      xPositionTolerance := .finite (1 / 20)
      yPositionTolerance := .finite (1 / 20)
      yawTolerance := .finite (872664626 / 10000000000)
      allowReverseX := false }
  undockTranslationSpeedMin := .finite (1 / 10)
  undockTranslationSpeedMax := .finite (1 / 10)
  undockAngularSpeedMin := .finite (1 / 10)
  undockAngularSpeedMax := .finite (1 / 10)

/-- The defaults pass the constructor's checks. -/
theorem declared_accepted : (Parameters.declared : Parameters ℚ).rejected = false := by
  decide +kernel

/-- What a server that was constructed runs with. -/
structure Settings (K : Type*) [Field K] [LinearOrder K] where
  parameters : Parameters K
  accepted : parameters.rejected = false

/-- The constructor, as far as it checks numbers. -/
def configure (p : Parameters K) : Option (Settings K) :=
  if h : p.rejected = false then some ⟨p, h⟩ else none

namespace Settings

def declared : Settings ℚ := ⟨.declared, declared_accepted⟩

variable (s : Settings K)

def controllerConfig : HolonomicFineAlignConfig K := s.parameters.controller.values

def undockControllerConfig : HolonomicFineAlignConfig K := s.parameters.undockController.values

def motionConfig : DockingMotionConfig K where
  positionHysteresis := s.parameters.positionHysteresis.value
  yawHysteresis := s.parameters.yawHysteresis.value
  confirmationSamples := s.parameters.motionConfirmationSamples.toNat
  directionRate := s.parameters.directionChangeRate.value

theorem not_notPositive {x : Double K} (h : notPositive x = false) : 0 < x.value := by
  simp only [notPositive, Bool.or_eq_false_iff, decide_eq_false_iff_not, not_le] at h
  exact h.2

theorem not_negative {x : Double K} (h : negative x = false) : 0 ≤ x.value := by
  simp only [negative, Bool.or_eq_false_iff, decide_eq_false_iff_not, not_lt] at h
  exact h.2

theorem controllerAccepted :
    ControllerAccepted s.controllerConfig s.motionConfig ∧
      ControllerAccepted s.undockControllerConfig s.motionConfig := by
  have h := s.accepted
  simp only [Parameters.rejected, Bool.or_eq_false_iff, decide_eq_false_iff_not, invalidConfig,
    Bool.not_eq_false', Bool.and_eq_true, not_or, not_le, not_lt] at h
  have hc : 1 ≤ s.motionConfig.confirmationSamples ∧ s.motionConfig.confirmationSamples ≤ 20 := by
    simp only [motionConfig]
    omega
  have common : 0 ≤ s.motionConfig.positionHysteresis ∧ 0 ≤ s.motionConfig.yawHysteresis ∧
      s.motionConfig.yawHysteresis < s.controllerConfig.translationYawStop ∧
      0 < s.motionConfig.directionRate := by
    refine ⟨not_negative ?_, not_negative ?_, ?_, not_notPositive ?_⟩
    all_goals tauto
  obtain ⟨hp, hy, hlt, hr⟩ := common
  refine ⟨⟨?_, hp, hy, hlt, hr, hc⟩, ⟨?_, hp, hy, hlt, hr, hc⟩⟩
  · exact (by tauto : s.parameters.controller.isFinite = true ∧ _).2
  · exact (by tauto : s.parameters.undockController.isFinite = true ∧ _).2

end Settings

end X2Navigation.FineAlignServer
