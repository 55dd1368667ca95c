import X2Navigation.Server.Parameters
import X2Navigation.Timing.Periods

/-! The two periods the fine-align server takes from its parameters. The constructor
asks of the frequency and of the interval only that they are finite and positive, and
casts them as they are: proved is for which of them the casts are in order. -/

namespace X2Navigation.FineAlignServer

variable {K : Type*} [Field K] [LinearOrder K]

theorem notPositive_eq_false {x : Double K} :
    notPositive x = false ↔ x.isFinite = true ∧ 0 < x.value := by
  simp [notPositive]

namespace Settings

section Rates
variable (s : Settings K)

def controllerFrequency : K := s.parameters.controllerFrequency.value

def progressLogInterval : K := s.parameters.progressLogInterval.value

theorem rates_accepted : notPositive s.parameters.controllerFrequency = false ∧
    notPositive s.parameters.progressLogInterval = false := by
  have h := s.accepted
  simp only [Parameters.rejected, Bool.or_eq_false_iff] at h
  tauto

theorem controllerFrequency_pos : 0 < s.controllerFrequency := not_notPositive s.rates_accepted.1

theorem progressLogInterval_pos : 0 < s.progressLogInterval := not_notPositive s.rates_accepted.2

theorem finite_controllerFrequency :
    s.parameters.controllerFrequency = .finite s.controllerFrequency :=
  (Double.finite_value (notPositive_eq_false.mp s.rates_accepted.1).1).symm

variable [FloorRing K]

/-- `controller_period_`. -/
def controllerPeriod : ℤ := durationCast (1 / s.controllerFrequency)

/-- What an attempt, and undocking, casts the logging interval to. -/
def progressLogCast : ℤ := durationCast s.progressLogInterval

/-- An attempt does not log more often than its loop runs. -/
def progressLogPeriod : ℤ := max s.controllerPeriod s.progressLogCast

structure CastsInOrder : Prop where
  controllerRepresentable : Representable s.controllerPeriod
  controllerPositive : 0 < s.controllerPeriod
  progressLogRepresentable : Representable s.progressLogCast

/-- The frequency is also one from which `timing.hpp` makes a period. -/
structure PeriodsGuarded : Prop where
  casts : s.CastsInOrder
  rateConvertible : (periodFromRateHz s.parameters.controllerFrequency).isSome = true

/-- The greater of the two casts is as good as they are. -/
theorem CastsInOrder.progressLogPeriod {s : Settings K} (h : s.CastsInOrder) :
    Representable s.progressLogPeriod ∧ 0 < s.progressLogPeriod := by
  have hpos : 0 < s.progressLogPeriod := lt_max_of_lt_left h.controllerPositive
  rcases max_choice s.controllerPeriod s.progressLogCast with hmax | hmax
  · exact ⟨(congrArg Representable hmax).mpr h.controllerRepresentable, hpos⟩
  · exact ⟨(congrArg Representable hmax).mpr h.progressLogRepresentable, hpos⟩

variable [IsStrictOrderedRing K]

theorem representable_controllerPeriod :
    Representable s.controllerPeriod ↔ 10 ^ 9 / 2 ^ 63 < s.controllerFrequency := by
  have hpos := s.controllerFrequency_pos
  have hflip : (2 ^ 63 / 10 ^ 9 : K) = 1 / (10 ^ 9 / 2 ^ 63) := (one_div_div _ _).symm
  rw [controllerPeriod, representable_durationCast_of_pos (one_div_pos.mpr hpos), hflip]
  exact one_div_lt_one_div hpos (by positivity)

theorem controllerPeriod_pos : 0 < s.controllerPeriod ↔ s.controllerFrequency ≤ 10 ^ 9 :=
  durationCast_one_div_pos s.controllerFrequency_pos

theorem representable_progressLogCast :
    Representable s.progressLogCast ↔ s.progressLogInterval < 2 ^ 63 / 10 ^ 9 :=
  representable_durationCast_of_pos s.progressLogInterval_pos

theorem castsInOrder_iff : s.CastsInOrder ↔
    10 ^ 9 / 2 ^ 63 < s.controllerFrequency ∧ s.controllerFrequency ≤ 10 ^ 9 ∧
      s.progressLogInterval < 2 ^ 63 / 10 ^ 9 := by
  rw [← representable_controllerPeriod, ← controllerPeriod_pos, ← representable_progressLogCast]
  exact ⟨fun ⟨hrange, hpos, hlog⟩ => ⟨hrange, hpos, hlog⟩,
    fun ⟨hrange, hpos, hlog⟩ => ⟨hrange, hpos, hlog⟩⟩

/-- Where the check of the other two nodes passes, it hands out the period that is used. -/
theorem periodFromRateHz_controllerFrequency {period : ℤ} :
    periodFromRateHz s.parameters.controllerFrequency = some period ↔
      10 ^ 9 / (2 ^ 63 - 1 - 10 ^ 9) ≤ s.controllerFrequency ∧ s.controllerFrequency ≤ 10 ^ 9 ∧
        period = s.controllerPeriod := by
  rw [finite_controllerFrequency]
  exact periodFromRateHz_finite s.controllerFrequency_pos

theorem rateConvertible_iff : (periodFromRateHz s.parameters.controllerFrequency).isSome = true ↔
    10 ^ 9 / (2 ^ 63 - 1 - 10 ^ 9) ≤ s.controllerFrequency ∧ s.controllerFrequency ≤ 10 ^ 9 := by
  rw [Option.isSome_iff_exists]
  constructor
  · rintro ⟨period, hperiod⟩
    obtain ⟨hslow, hfast, -⟩ := s.periodFromRateHz_controllerFrequency.mp hperiod
    exact ⟨hslow, hfast⟩
  · rintro ⟨hslow, hfast⟩
    exact ⟨_, s.periodFromRateHz_controllerFrequency.mpr ⟨hslow, hfast, rfl⟩⟩

/-- Of what the constructor accepts, nothing beyond these bounds is guarded. -/
theorem periodsGuarded_iff : s.PeriodsGuarded ↔
    10 ^ 9 / (2 ^ 63 - 1 - 10 ^ 9) ≤ s.controllerFrequency ∧ s.controllerFrequency ≤ 10 ^ 9 ∧
      s.progressLogInterval < 2 ^ 63 / 10 ^ 9 := by
  have hheadroom : (10 ^ 9 / 2 ^ 63 : K) < 10 ^ 9 / (2 ^ 63 - 1 - 10 ^ 9) := by norm_num
  constructor
  · rintro ⟨hcasts, hrate⟩
    obtain ⟨hslow, hfast⟩ := s.rateConvertible_iff.mp hrate
    obtain ⟨-, -, hlog⟩ := s.castsInOrder_iff.mp hcasts
    exact ⟨hslow, hfast, hlog⟩
  · rintro ⟨hslow, hfast, hlog⟩
    exact ⟨s.castsInOrder_iff.mpr ⟨hheadroom.trans_le hslow, hfast, hlog⟩,
      s.rateConvertible_iff.mpr ⟨hslow, hfast⟩⟩

end Rates

theorem declared_periodsGuarded : declared.PeriodsGuarded := by
  refine declared.periodsGuarded_iff.mpr ?_
  have hfrequency : declared.controllerFrequency = 20 := rfl
  have hinterval : declared.progressLogInterval = 1 := rfl
  rw [hfrequency, hinterval]
  norm_num

end Settings

/-! ### Rates that no period fits -/

/-- The defaults with another frequency and another interval. -/
def paced (frequency interval : ℚ) : Parameters ℚ :=
  { Parameters.declared with
    controllerFrequency := .finite frequency
    progressLogInterval := .finite interval }

/-- The constructor has nothing against any of them. -/
theorem paced_accepted {frequency interval : ℚ} (hfrequency : 0 < frequency)
    (hinterval : 0 < interval) : (paced frequency interval).rejected = false := by
  have h := declared_accepted
  have hundock : (paced frequency interval).undockController =
      (Parameters.declared : Parameters ℚ).undockController := rfl
  have hrates : notPositive (Double.finite frequency) = false ∧
      notPositive (Double.finite interval) = false :=
    ⟨notPositive_eq_false.mpr ⟨rfl, hfrequency⟩, notPositive_eq_false.mpr ⟨rfl, hinterval⟩⟩
  simp only [Parameters.rejected, Bool.or_eq_false_iff, hundock] at h ⊢
  simp only [paced]
  tauto

def pacedSettings (frequency interval : ℚ) (hfrequency : 0 < frequency) (hinterval : 0 < interval) :
    Settings ℚ := ⟨paced frequency interval, paced_accepted hfrequency hinterval⟩

theorem configure_paced {frequency interval : ℚ} (hfrequency : 0 < frequency)
    (hinterval : 0 < interval) : configure (paced frequency interval) =
      some (pacedSettings frequency interval hfrequency hinterval) :=
  dif_pos (paced_accepted hfrequency hinterval)

/-- Two in a nanosecond make the period nothing; once in five centuries, and a log every
three, leave the range. -/
theorem paced_unguarded :
    (∃ s, configure (paced 2000000000 1) = some s ∧ s.controllerPeriod = 0 ∧ ¬ s.PeriodsGuarded) ∧
    (∃ s, configure (paced (1 / 17179869184) 1) = some s ∧
      nanosecondsMax < s.controllerPeriod ∧ ¬ s.PeriodsGuarded) ∧
    (∃ s, configure (paced 20 10000000000) = some s ∧
      nanosecondsMax < s.progressLogCast ∧ ¬ s.PeriodsGuarded) := by
  refine ⟨⟨_, configure_paced (by norm_num) (by norm_num), ?_⟩,
    ⟨_, configure_paced (by norm_num) (by norm_num), ?_⟩,
    ⟨_, configure_paced (by norm_num) (by norm_num), ?_⟩⟩
  · have hzero : (pacedSettings 2000000000 1 (by norm_num) (by norm_num)).controllerPeriod = 0 := by
      decide +kernel
    exact ⟨hzero, fun h => h.casts.controllerPositive.ne' hzero⟩
  · have hmax : nanosecondsMax <
        (pacedSettings (1 / 17179869184) 1 (by norm_num) (by norm_num)).controllerPeriod := by
      decide +kernel
    exact ⟨hmax, fun h => h.casts.controllerRepresentable.2.not_gt hmax⟩
  · have hmax : nanosecondsMax <
        (pacedSettings 20 10000000000 (by norm_num) (by norm_num)).progressLogCast := by
      decide +kernel
    exact ⟨hmax, fun h => h.casts.progressLogRepresentable.2.not_gt hmax⟩

end X2Navigation.FineAlignServer
