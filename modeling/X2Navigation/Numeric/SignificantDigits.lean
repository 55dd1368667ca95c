import Mathlib.Data.Rat.Floor
import X2Navigation.Numeric.Binary64

/-! Seventeen significant digits. The nearest decimal number of that many digits is closer
to a double than half the way to the next one, also just below a power of two, so that
rounding it to double precision gives the double back. -/

namespace X2Navigation

section Nearest
variable {K : Type*} [Field K] [LinearOrder K] [FloorRing K] [IsStrictOrderedRing K] {m : K} {n : ℤ}

theorem roundHalfEven_eq (h : |m - n| < 1 / 2) : roundHalfEven m = n := by
  obtain ⟨hlow, hhigh⟩ := abs_lt.mp h
  exact le_antisymm (roundHalfEven_le (Or.inl (by linarith)))
    (le_roundHalfEven (Or.inl (by linarith)))

theorem abs_roundHalfEven_sub_le (m : K) : |roundHalfEven m - m| ≤ 1 / 2 := by
  have hfloor := Int.floor_le m
  have hlt := Int.lt_floor_add_one m
  unfold roundHalfEven
  split_ifs with hlow hhigh heven
  · rw [abs_le]
    constructor <;> linarith
  · push_cast
    rw [abs_le]
    constructor <;> linarith
  · rw [abs_le]
    constructor <;> linarith
  · push_cast
    rw [abs_le]
    constructor <;> linarith

end Nearest

namespace Binary64

variable {K : Type*} [Field K] [LinearOrder K] [FloorRing K] [IsStrictOrderedRing K] {d : K}

/-- No number has more than 53 digits before its last place. -/
theorem lt_lastPlace (d : K) : d < 2 ^ 53 * 2 ^ lastPlace d := by
  have h2 : ((2 : ℕ) : K) = 2 := Nat.cast_ofNat
  have hlog := Int.lt_zpow_succ_log_self (b := 2) one_lt_two d
  rw [h2] at hlog
  have hle : Int.log 2 d + 1 ≤ 53 + lastPlace d := by
    unfold lastPlace
    omega
  calc d < 2 ^ (Int.log 2 d + 1) := hlog
    _ ≤ 2 ^ (53 + lastPlace d) := zpow_le_zpow_right₀ one_le_two hle
    _ = 2 ^ 53 * 2 ^ lastPlace d := by rw [zpow_add₀ two_ne_zero]; norm_cast

/-- A number that differs from a double by less than one part in `2 * 10 ^ 16` rounds to it. -/
theorem magnitude_of_near {k : ℕ} {j : ℤ} (hpos : 0 < k) (hk : k < 2 ^ 53) (hj : -1074 ≤ j)
    (h : |d - k * 2 ^ j| ≤ k * 2 ^ j / (2 * 10 ^ 16)) : magnitude d = k * 2 ^ j := by
  have hu := two_zpow_pos (K := K) (lastPlace d)
  have hv := two_zpow_pos (K := K) j
  have hcast : (0 : K) < k := by exact_mod_cast hpos
  have hm : 0 < (k : K) * 2 ^ j := mul_pos hcast hv
  obtain ⟨hlow, hhigh⟩ := abs_le.mp h
  have hd : 0 < d := by linarith
  by_cases hplace : lastPlace d ≤ j
  · obtain ⟨n, hn⟩ := multiple_of_le (K := K) (k := k) hplace
    have hlt := lt_lastPlace d
    have hnear : |d / 2 ^ lastPlace d - n| < 1 / 2 := by
      have hsplit : d / 2 ^ lastPlace d - n = (d - k * 2 ^ j) / 2 ^ lastPlace d := by
        rw [hn, sub_div, mul_div_cancel_right₀ _ hu.ne']
      rw [hsplit, abs_div, abs_of_pos hu, div_lt_iff₀ hu]
      refine h.trans_lt ?_
      linarith
    rw [magnitude, roundHalfEven_eq hnear, ← hn]
  · -- the next power of two would lie between them
    have hge := le_of_lastPlace hd (by omega)
    have hstep : (2 : K) * 2 ^ j ≤ 2 ^ lastPlace d := by
      rw [← zpow_one_add₀ two_ne_zero]
      exact zpow_le_zpow_right₀ one_le_two (by omega)
    have hsucc : (k : K) + 1 ≤ 2 ^ 53 := by exact_mod_cast hk
    have hbelow : ((k : K) + 1) * 2 ^ j ≤ 2 ^ 53 * 2 ^ j := mul_le_mul_of_nonneg_right hsucc hv.le
    linarith

end Binary64

/-! ### Digits -/

/-- The digits and the exponent of a positive number in scientific notation with 17
digits, of which the first stands before the point. -/
def scientific (m : ℚ) : ℕ × ℤ :=
  let exponent := Int.log 10 m
  let digits := (roundHalfEven (m / 10 ^ (exponent - 16))).toNat
  if digits = 10 ^ 17 then (10 ^ 16, exponent + 1) else (digits, exponent)

/-- The exponent is right: 17 digits stand before the point of what is rounded. -/
theorem scaled_mem {m : ℚ} (hm : 0 < m) :
    10 ^ 16 ≤ m / 10 ^ (Int.log 10 m - 16) ∧ m / 10 ^ (Int.log 10 m - 16) < 10 ^ 17 := by
  have h10 : ((10 : ℕ) : ℚ) = 10 := by norm_num
  have hpos : (0 : ℚ) < 10 ^ (Int.log 10 m - 16) := zpow_pos (by norm_num) _
  have hself := Int.zpow_log_le_self (b := 10) (by norm_num) hm
  have hsucc := Int.lt_zpow_succ_log_self (b := 10) (by norm_num) m
  rw [h10] at hself hsucc
  constructor
  · rw [le_div_iff₀ hpos, ← zpow_natCast, ← zpow_add₀ (by norm_num)]
    simpa using hself
  · rw [div_lt_iff₀ hpos, ← zpow_natCast, ← zpow_add₀ (by norm_num)]
    have hexponent : ((17 : ℕ) : ℤ) + (Int.log 10 m - 16) = Int.log 10 m + 1 := by
      push_cast
      ring
    rwa [hexponent]

/-- Rounding at the last of the 17 digits changes a number by one part in `2 * 10 ^ 16` at most. -/
theorem abs_rounded_sub_le {m : ℚ} (hm : 0 < m) :
    |roundHalfEven (m / 10 ^ (Int.log 10 m - 16)) * 10 ^ (Int.log 10 m - 16) - m| ≤
      m / (2 * 10 ^ 16) := by
  have hpos : (0 : ℚ) < 10 ^ (Int.log 10 m - 16) := zpow_pos (by norm_num) _
  obtain ⟨hlow, -⟩ := scaled_mem hm
  rw [le_div_iff₀ hpos] at hlow
  have hnear := abs_roundHalfEven_sub_le (m / 10 ^ (Int.log 10 m - 16))
  generalize (10 : ℚ) ^ (Int.log 10 m - 16) = u at hpos hlow hnear ⊢
  have hsplit : (roundHalfEven (m / u) : ℚ) * u - m = (roundHalfEven (m / u) - m / u) * u := by
    rw [sub_mul, div_mul_cancel₀ m hpos.ne']
  rw [hsplit, abs_mul, abs_of_pos hpos]
  calc |(roundHalfEven (m / u) : ℚ) - m / u| * u ≤ 1 / 2 * u := by gcongr
    _ ≤ m / (2 * 10 ^ 16) := by linarith

theorem scientific_spec {m : ℚ} (hm : 0 < m) :
    10 ^ 16 ≤ (scientific m).1 ∧ (scientific m).1 < 10 ^ 17 ∧
      |(scientific m).1 * 10 ^ ((scientific m).2 - 16) - m| ≤ m / (2 * 10 ^ 16) := by
  obtain ⟨hlow, hhigh⟩ := scaled_mem hm
  have herror := abs_rounded_sub_le hm
  have hdef : scientific m =
      if (roundHalfEven (m / 10 ^ (Int.log 10 m - 16))).toNat = 10 ^ 17 then
        (10 ^ 16, Int.log 10 m + 1)
      else ((roundHalfEven (m / 10 ^ (Int.log 10 m - 16))).toNat, Int.log 10 m) := rfl
  rw [hdef]
  generalize Int.log 10 m = e at *
  have hge : ((10 ^ 16 : ℤ)) ≤ roundHalfEven (m / 10 ^ (e - 16)) := by
    refine le_roundHalfEven (Or.inl ?_)
    push_cast
    linarith
  have hle : roundHalfEven (m / 10 ^ (e - 16)) ≤ ((10 ^ 17 : ℤ)) := by
    refine roundHalfEven_le (Or.inl ?_)
    push_cast
    linarith
  generalize roundHalfEven (m / 10 ^ (e - 16)) = n at *
  have hnat : ((n.toNat : ℕ) : ℤ) = n := Int.toNat_of_nonneg (by omega)
  split
  · next hcarry =>
    refine ⟨le_rfl, by norm_num, ?_⟩
    have hexact : (n : ℚ) = 10 ^ 17 := by
      rw [← hnat, hcarry]
      norm_cast
    have hsame : ((10 ^ 16 : ℕ) : ℚ) * 10 ^ (e + 1 - 16) = n * 10 ^ (e - 16) := by
      rw [hexact, show e + 1 - 16 = e - 16 + 1 by ring, zpow_add_one₀ (by norm_num)]
      push_cast
      ring
    rwa [hsame]
  · next hcarry =>
    refine ⟨by omega, by omega, ?_⟩
    have hsame : ((n.toNat : ℕ) : ℚ) = n := by exact_mod_cast hnat
    rwa [hsame]

/-! ### Doubles -/

/-- A finite `double`, with the sign of a zero. -/
structure Finite64 where
  negative : Bool
  significand : ℕ
  exponent : ℤ
  significand_lt : significand < 2 ^ 53
  exponent_mem : -1074 ≤ exponent ∧ exponent ≤ 971
  deriving DecidableEq

namespace Finite64

def magnitude (x : Finite64) : ℚ := x.significand * 2 ^ x.exponent

theorem magnitude_pos (x : Finite64) (h : x.significand ≠ 0) : 0 < x.magnitude := by
  have hcast : (0 : ℚ) < x.significand := by exact_mod_cast Nat.pos_of_ne_zero h
  exact mul_pos hcast (zpow_pos two_pos _)

/-- The 17 digits of a double read as a number and rounded give its magnitude again. -/
theorem magnitude_scientific (x : Finite64) (h : x.significand ≠ 0) :
    Binary64.round (((scientific x.magnitude).1 : ℚ) * 10 ^ ((scientific x.magnitude).2 - 16)) =
      .finite x.magnitude := by
  have hpos : 0 < x.significand := Nat.pos_of_ne_zero h
  have hm := x.magnitude_pos h
  obtain ⟨hlow, hhigh, hnear⟩ := scientific_spec hm
  have hround := Binary64.magnitude_of_near hpos x.significand_lt x.exponent_mem.1 hnear
  have hnonneg : ¬ ((scientific x.magnitude).1 : ℚ) * 10 ^ ((scientific x.magnitude).2 - 16) < 0 := by
    have hscale : (0 : ℚ) < 10 ^ ((scientific x.magnitude).2 - 16) := zpow_pos (by norm_num) _
    exact not_lt.mpr (by positivity)
  have hrange : ¬ (2 : ℚ) ^ 1024 ≤ x.significand * 2 ^ x.exponent := by
    have hcast : (x.significand : ℚ) < 2 ^ 53 := by exact_mod_cast x.significand_lt
    have hexp : (2 : ℚ) ^ x.exponent ≤ 2 ^ (971 : ℤ) :=
      zpow_le_zpow_right₀ one_le_two x.exponent_mem.2
    have htop : (2 : ℚ) ^ 1024 = 2 ^ 53 * 2 ^ (971 : ℤ) := by
      have hsum : ((1024 : ℕ) : ℤ) = ((53 : ℕ) : ℤ) + 971 := by norm_num
      rw [← zpow_natCast, ← zpow_natCast, hsum, zpow_add₀ two_ne_zero]
    rw [htop, not_le]
    calc (x.significand : ℚ) * 2 ^ x.exponent < 2 ^ 53 * 2 ^ x.exponent := by
          exact mul_lt_mul_of_pos_right hcast (zpow_pos two_pos _)
      _ ≤ 2 ^ 53 * 2 ^ (971 : ℤ) := by gcongr
  rw [Binary64.round, if_neg hnonneg, hround, if_neg hrange]
  rfl

end Finite64

end X2Navigation
