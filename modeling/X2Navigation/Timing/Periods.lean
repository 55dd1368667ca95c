import X2Navigation.Numeric.Double
import X2Navigation.Numeric.Truncation
import Mathlib.Tactic.NormNum

/-! From seconds and rates to nanoseconds of 64 bits. The conversion keeps one second
away from the ends of the range; a rate has a period only if that is a whole
nanosecond at least. Two nodes refuse to start without one. -/

namespace X2Navigation

open Truncation

/-! ### Nanoseconds -/

/-- `std::chrono::nanoseconds::min()`. -/
def nanosecondsMin : ℤ := -2 ^ 63

/-- `std::chrono::nanoseconds::max()`. -/
def nanosecondsMax : ℤ := 2 ^ 63 - 1

/-- A count of nanoseconds that 64 bits hold. -/
def Representable (count : ℤ) : Prop := nanosecondsMin ≤ count ∧ count ≤ nanosecondsMax

instance : DecidablePred Representable := fun _ => inferInstanceAs (Decidable (_ ∧ _))

theorem representable_iff {count : ℤ} : Representable count ↔ ∃ n : Int64, n.toInt = count := by
  constructor
  · rintro ⟨hmin, hmax⟩
    exact ⟨Int64.ofInt count, Int64.toInt_ofInt_of_le hmin (Int.lt_add_one_of_le hmax)⟩
  · rintro ⟨n, rfl⟩
    exact ⟨n.le_toInt, Int.le_of_lt_add_one n.toInt_lt⟩

variable {K : Type*} [Field K]

/-- `std::chrono::duration<double>` of a number of nanoseconds. -/
def inSeconds (count : ℤ) : K := (count : K) / 10 ^ 9

variable [LinearOrder K] [FloorRing K]

/-- `duration_cast<nanoseconds>`, whose result the source can only use if it is representable. -/
def durationCast (seconds : K) : ℤ := truncate (seconds * 10 ^ 9)

def nanosecondsFromSeconds (seconds : Double K) : Option ℤ :=
  if !seconds.isFinite then none
  else
    let minimum : K := inSeconds (nanosecondsMin + 10 ^ 9)
    let maximum : K := inSeconds (nanosecondsMax - 10 ^ 9)
    if seconds.value < minimum ∨ maximum < seconds.value then none
    else some (durationCast seconds.value)

def periodFromRateHz (rateHz : Double K) : Option ℤ :=
  if !rateHz.isFinite || decide (rateHz.value ≤ 0) then none
  else
    match nanosecondsFromSeconds (.finite (1 / rateHz.value)) with
    | none => none
    | some period => if period ≤ 0 then none else some period

section Casts
variable [IsStrictOrderedRing K] {seconds rate : K}

theorem durationCast_pos : 0 < durationCast seconds ↔ 1 / 10 ^ 9 ≤ seconds := by
  rw [durationCast, truncate_pos, div_le_iff₀ (by positivity)]

/-- The period of a rate is at least a nanosecond. -/
theorem durationCast_one_div_pos (hrate : 0 < rate) :
    0 < durationCast (1 / rate) ↔ rate ≤ 10 ^ 9 := by
  rw [durationCast_pos]
  exact one_div_le_one_div (by positivity) hrate

theorem durationCast_le_max : durationCast seconds ≤ nanosecondsMax ↔ seconds < 2 ^ 63 / 10 ^ 9 := by
  have hcast : ((nanosecondsMax : ℤ) : K) + 1 = 2 ^ 63 := by
    norm_num [nanosecondsMax]
  rw [durationCast, truncate_le (by decide), hcast, lt_div_iff₀ (by positivity)]

theorem min_le_durationCast :
    nanosecondsMin ≤ durationCast seconds ↔ (-2 ^ 63 - 1) / 10 ^ 9 < seconds := by
  have hcast : ((nanosecondsMin : ℤ) : K) = -2 ^ 63 := by
    norm_num [nanosecondsMin]
  rw [durationCast, le_truncate (by decide), hcast, div_lt_iff₀ (by positivity)]

theorem representable_durationCast : Representable (durationCast seconds) ↔
    (-2 ^ 63 - 1) / 10 ^ 9 < seconds ∧ seconds < 2 ^ 63 / 10 ^ 9 :=
  and_congr min_le_durationCast durationCast_le_max

/-- Nothing positive is cast below the range. -/
theorem representable_durationCast_of_pos (h : 0 < seconds) :
    Representable (durationCast seconds) ↔ seconds < 2 ^ 63 / 10 ^ 9 := by
  have hmin : ((-2 ^ 63 - 1) / 10 ^ 9 : K) < seconds := by
    calc ((-2 ^ 63 - 1) / 10 ^ 9 : K) < 0 := div_neg_of_neg_of_pos (by norm_num) (by positivity)
      _ < seconds := h
  rw [representable_durationCast, and_iff_right hmin]

end Casts

/-! ### The conversions -/

theorem nanosecondsFromSeconds_eq_some {seconds : Double K} {count : ℤ} :
    nanosecondsFromSeconds seconds = some count ↔
      seconds.isFinite = true ∧ inSeconds (nanosecondsMin + 10 ^ 9) ≤ seconds.value ∧
        seconds.value ≤ inSeconds (nanosecondsMax - 10 ^ 9) ∧ count = durationCast seconds.value := by
  simp only [nanosecondsFromSeconds]
  split_ifs with hfinite hrange
  · refine iff_of_false (by simp) ?_
    rintro ⟨hfinite', -⟩
    simp [hfinite'] at hfinite
  · refine iff_of_false (by simp) ?_
    rintro ⟨-, hmin, hmax, -⟩
    exact hrange.elim hmin.not_gt hmax.not_gt
  · obtain ⟨hmin, hmax⟩ := not_or.mp hrange
    constructor
    · intro h
      exact ⟨by simpa using hfinite, not_lt.mp hmin, not_lt.mp hmax, (Option.some.inj h).symm⟩
    · rintro ⟨-, -, -, rfl⟩
      rfl

theorem periodFromRateHz_eq_some {rateHz : Double K} {period : ℤ} :
    periodFromRateHz rateHz = some period ↔
      rateHz.isFinite = true ∧ 0 < rateHz.value ∧
        nanosecondsFromSeconds (.finite (1 / rateHz.value)) = some period ∧ 0 < period := by
  rw [periodFromRateHz]
  split_ifs with hrate
  · refine iff_of_false (by simp) ?_
    rintro ⟨hfinite, hpos, -⟩
    simp [hfinite, hpos.not_ge] at hrate
  · have hrate' : rateHz.isFinite = true ∧ 0 < rateHz.value := by simpa using hrate
    rw [and_iff_right hrate'.1, and_iff_right hrate'.2]
    cases nanosecondsFromSeconds (Double.finite (1 / rateHz.value)) with
    | none => simp
    | some count =>
      show (if count ≤ 0 then none else some count) = some period ↔
        some count = some period ∧ 0 < period
      rcases le_or_gt count 0 with hcount | hcount
      · rw [if_pos hcount]
        refine iff_of_false (by simp) ?_
        rintro ⟨hsome, hpos⟩
        cases hsome
        exact hpos.not_ge hcount
      · rw [if_neg hcount.not_ge]
        refine ⟨fun h => ⟨h, ?_⟩, And.left⟩
        cases h
        exact hcount

variable [IsStrictOrderedRing K]

/-- The second of headroom is more than truncation needs. -/
theorem representable_of_nanosecondsFromSeconds {seconds : Double K} {count : ℤ}
    (h : nanosecondsFromSeconds seconds = some count) : Representable count := by
  obtain ⟨-, hmin, hmax, rfl⟩ := nanosecondsFromSeconds_eq_some.mp h
  have hlower : (-2 ^ 63 - 1) / 10 ^ 9 < (inSeconds (nanosecondsMin + 10 ^ 9) : K) := by
    norm_num [inSeconds, nanosecondsMin]
  have hupper : (inSeconds (nanosecondsMax - 10 ^ 9) : K) < 2 ^ 63 / 10 ^ 9 := by
    norm_num [inSeconds, nanosecondsMax]
  exact representable_durationCast.mpr ⟨hlower.trans_le hmin, hmax.trans_lt hupper⟩

theorem positive_and_representable {rateHz : Double K} {period : ℤ}
    (h : periodFromRateHz rateHz = some period) : 0 < period ∧ Representable period := by
  obtain ⟨-, -, hcount, hpos⟩ := periodFromRateHz_eq_some.mp h
  exact ⟨hpos, representable_of_nanosecondsFromSeconds hcount⟩

/-- The rates with a period go from one in some 292 years to one in every nanosecond. -/
theorem periodFromRateHz_finite {rate : K} (hrate : 0 < rate) {period : ℤ} :
    periodFromRateHz (.finite rate) = some period ↔
      10 ^ 9 / (2 ^ 63 - 1 - 10 ^ 9) ≤ rate ∧ rate ≤ 10 ^ 9 ∧ period = durationCast (1 / rate) := by
  have hslow : 1 / rate ≤ (inSeconds (nanosecondsMax - 10 ^ 9) : K) ↔
      10 ^ 9 / (2 ^ 63 - 1 - 10 ^ 9) ≤ rate := by
    have hmax : (inSeconds (nanosecondsMax - 10 ^ 9) : K) = 1 / (10 ^ 9 / (2 ^ 63 - 1 - 10 ^ 9)) := by
      norm_num [inSeconds, nanosecondsMax]
    rw [hmax]
    exact one_div_le_one_div hrate (by norm_num)
  have hmin : (inSeconds (nanosecondsMin + 10 ^ 9) : K) ≤ 1 / rate := by
    calc (inSeconds (nanosecondsMin + 10 ^ 9) : K) ≤ 0 := by norm_num [inSeconds, nanosecondsMin]
      _ ≤ 1 / rate := by positivity
  rw [periodFromRateHz_eq_some, nanosecondsFromSeconds_eq_some]
  constructor
  · rintro ⟨-, -, ⟨-, -, hmax, rfl⟩, hpos⟩
    exact ⟨hslow.mp hmax, (durationCast_one_div_pos hrate).mp hpos, rfl⟩
  · rintro ⟨hlow, hhigh, rfl⟩
    exact ⟨rfl, hrate, ⟨rfl, hmin, hslow.mpr hlow, rfl⟩, (durationCast_one_div_pos hrate).mpr hhigh⟩

/-! ### Two nodes that ask for them

An `error` is the text their constructors throw. -/

def requirePeriod (parameter : String) (rateHz : Double K) : Except String ℤ :=
  match periodFromRateHz rateHz with
  | some period => .ok period
  | none => .error (parameter ++ " must produce a positive, representable nanosecond period")

def Nav2ZmqVelocityBridge.publishPeriod (publishRateHz : Double K) : Except String ℤ :=
  requirePeriod "publish_rate_hz" publishRateHz

def LidarCloudThrottle.minimumPeriod (maxRateHz : Double K) : Except String ℤ :=
  requirePeriod "max_rate_hz" maxRateHz

def LidarCloudThrottle.timestampOffset (timestampOffsetSec : Double K) : Except String ℤ :=
  match nanosecondsFromSeconds timestampOffsetSec with
  | some offset => .ok offset
  | none => .error "timestamp_offset_sec must be finite and representable in nanoseconds"

theorem requirePeriod_guarded {parameter : String} {rateHz : Double K} {period : ℤ}
    (h : requirePeriod parameter rateHz = .ok period) : 0 < period ∧ Representable period := by
  rw [requirePeriod] at h
  cases hperiod : periodFromRateHz rateHz with
  | none =>
    rw [hperiod] at h
    cases h
  | some count =>
    rw [hperiod] at h
    cases h
    exact positive_and_representable hperiod

/-- An offset that is not refused fits the 64 bits it is kept in. -/
theorem LidarCloudThrottle.timestampOffset_ok {timestampOffsetSec : Double K} {offset : ℤ}
    (h : timestampOffset timestampOffsetSec = .ok offset) : ∃ n : Int64, n.toInt = offset := by
  rw [timestampOffset] at h
  cases hoffset : nanosecondsFromSeconds timestampOffsetSec with
  | none =>
    rw [hoffset] at h
    cases h
  | some count =>
    rw [hoffset] at h
    cases h
    exact representable_iff.mp (representable_of_nanosecondsFromSeconds hoffset)

end X2Navigation
