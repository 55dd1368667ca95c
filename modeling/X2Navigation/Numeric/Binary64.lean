import Mathlib.Algebra.Order.Floor.Ring
import Mathlib.Algebra.Ring.CharZero
import Mathlib.Data.Int.Log
import Mathlib.Tactic.Linarith
import Mathlib.Tactic.Positivity
import Mathlib.Tactic.Ring
import Mathlib.Tactic.NormNum
import X2Navigation.Numeric.Double

/-! Rounding to double precision. The nearest multiple of the last place of a number is taken, of
two equally near the even one; what reaches the end of the range is infinite. Rounding stays on
its side of every number of double precision, and at a half way between two it goes to the even
one. -/

namespace X2Navigation

variable {K : Type*} [Field K] [LinearOrder K] [FloorRing K]

/-! ### To an integer -/

def roundHalfEven (m : K) : ℤ :=
  if m - ⌊m⌋ < 1 / 2 then ⌊m⌋
  else if 1 / 2 < m - ⌊m⌋ then ⌊m⌋ + 1
  else if Even ⌊m⌋ then ⌊m⌋ else ⌊m⌋ + 1

section Integers
variable [IsStrictOrderedRing K] {m : K} {n : ℤ}

/-- Up to a half above an even integer, and to less than a half above an odd one. -/
theorem roundHalfEven_le (h : m < n + 1 / 2 ∨ m ≤ n + 1 / 2 ∧ Even n) : roundHalfEven m ≤ n := by
  have hm : m ≤ n + 1 / 2 := h.elim le_of_lt And.left
  have hfloor := Int.floor_le m
  have hlt : ⌊m⌋ < n + 1 := by
    have hcast : (⌊m⌋ : K) < ((n + 1 : ℤ) : K) := by
      push_cast
      linarith
    exact_mod_cast hcast
  by_cases hbelow : ⌊m⌋ < n
  · unfold roundHalfEven
    split_ifs <;> omega
  · have hsame : ⌊m⌋ = n := by omega
    unfold roundHalfEven
    rw [hsame]
    rcases h with hless | ⟨hle, heven⟩
    · rw [if_pos (by linarith)]
    · have hhalf : ¬ 1 / 2 < m - n := by linarith
      rw [if_neg hhalf, if_pos heven, ite_self]

/-- Down to a half below an even integer, and to less than a half below an odd one. -/
theorem le_roundHalfEven (h : n - 1 / 2 < m ∨ n - 1 / 2 ≤ m ∧ Even n) : n ≤ roundHalfEven m := by
  have hm : n - 1 / 2 ≤ m := h.elim le_of_lt And.left
  have hfloor := Int.lt_floor_add_one m
  have hlt : n - 1 < ⌊m⌋ + 1 := by
    have hcast : ((n - 1 : ℤ) : K) < ((⌊m⌋ + 1 : ℤ) : K) := by
      push_cast
      linarith
    exact_mod_cast hcast
  by_cases habove : n ≤ ⌊m⌋
  · unfold roundHalfEven
    split_ifs <;> omega
  · have hsame : ⌊m⌋ = n - 1 := by omega
    have hcast : (⌊m⌋ : K) = n - 1 := by
      rw [hsame]
      push_cast
      ring
    have hodd : Even n → ¬ Even ⌊m⌋ := by
      intro heven
      rw [hsame]
      exact Int.not_even_iff_odd.mpr (heven.sub_odd odd_one)
    unfold roundHalfEven
    rw [if_neg (by rw [hcast]; linarith)]
    rcases h with hless | ⟨-, heven⟩
    · rw [if_pos (by rw [hcast]; linarith)]
      omega
    · rw [if_neg (hodd heven)]
      split_ifs <;> omega

end Integers

/-! ### To double precision -/

namespace Binary64

/-- The place of the last of 53 binary digits, not below the smallest double. -/
def lastPlace (x : K) : ℤ := max (Int.log 2 x - 52) (-1074)

/-- Of a number that is not negative, in an unbounded range. -/
def magnitude (x : K) : K := roundHalfEven (x / 2 ^ lastPlace x) * 2 ^ lastPlace x

def round (x : K) : Double K :=
  if x < 0 then
    if 2 ^ 1024 ≤ magnitude (-x) then .negInf else .finite (-magnitude (-x))
  else if 2 ^ 1024 ≤ magnitude x then .posInf else .finite (magnitude x)

variable [IsStrictOrderedRing K] {x : K} {n : ℤ}

theorem two_zpow_pos (e : ℤ) : (0 : K) < 2 ^ e := zpow_pos two_pos e

theorem magnitude_le (h : x < (n + 1 / 2) * 2 ^ lastPlace x ∨
    x ≤ (n + 1 / 2) * 2 ^ lastPlace x ∧ Even n) : magnitude x ≤ n * 2 ^ lastPlace x := by
  have hpos := two_zpow_pos (K := K) (lastPlace x)
  have hle : roundHalfEven (x / 2 ^ lastPlace x) ≤ n := by
    apply roundHalfEven_le
    rwa [div_lt_iff₀ hpos, div_le_iff₀ hpos]
  have hcast : (roundHalfEven (x / 2 ^ lastPlace x) : K) ≤ n := by exact_mod_cast hle
  exact mul_le_mul_of_nonneg_right hcast hpos.le

theorem le_magnitude (h : (n - 1 / 2) * 2 ^ lastPlace x < x ∨
    (n - 1 / 2) * 2 ^ lastPlace x ≤ x ∧ Even n) : n * 2 ^ lastPlace x ≤ magnitude x := by
  have hpos := two_zpow_pos (K := K) (lastPlace x)
  have hle : n ≤ roundHalfEven (x / 2 ^ lastPlace x) := by
    apply le_roundHalfEven
    rwa [lt_div_iff₀ hpos, le_div_iff₀ hpos]
  have hcast : (n : K) ≤ roundHalfEven (x / 2 ^ lastPlace x) := by exact_mod_cast hle
  exact mul_le_mul_of_nonneg_right hcast hpos.le

/-- In the binade of a number. -/
theorem lastPlace_of_mem {p : ℤ} (hp : -1022 ≤ p) (hlow : 2 ^ p ≤ x) (hhigh : x < 2 ^ (p + 1)) :
    lastPlace x = p - 52 := by
  have hpos : 0 < x := (two_zpow_pos p).trans_le hlow
  have h2 : ((2 : ℕ) : K) = 2 := Nat.cast_ofNat
  have hle : p ≤ Int.log 2 x := by
    rw [← Int.zpow_le_iff_le_log one_lt_two hpos, h2]
    exact hlow
  have hlt : Int.log 2 x < p + 1 := by
    rw [← Int.lt_zpow_iff_log_lt one_lt_two hpos, h2]
    exact hhigh
  unfold lastPlace
  omega

/-- What is above the smallest doubles is at least `2 ^ 52` in its last place. -/
theorem le_of_lastPlace (hx : 0 < x) (h : -1074 < lastPlace x) : 2 ^ 52 * 2 ^ lastPlace x ≤ x := by
  have hlog : lastPlace x = Int.log 2 x - 52 := by
    unfold lastPlace at h ⊢
    omega
  have h2 : ((2 : ℕ) : K) = 2 := Nat.cast_ofNat
  have hself := Int.zpow_log_le_self (b := 2) one_lt_two hx
  rw [h2] at hself
  have hsplit : (2 : K) ^ Int.log 2 x = 2 ^ 52 * 2 ^ lastPlace x := by
    rw [hlog, ← zpow_natCast, ← zpow_add₀ two_ne_zero]
    congr 1
    push_cast
    ring
  rwa [← hsplit]

omit [IsStrictOrderedRing K] in
/-- A number of double precision is a multiple of every smaller power of two. -/
theorem multiple_of_le {j e : ℤ} {k : ℕ} (h : e ≤ j) :
    ∃ n : ℤ, (k : K) * 2 ^ j = n * 2 ^ e := by
  refine ⟨k * 2 ^ (j - e).toNat, ?_⟩
  have hsplit : (2 : K) ^ j = 2 ^ (j - e).toNat * 2 ^ e := by
    rw [← zpow_natCast, ← zpow_add₀ two_ne_zero, Int.toNat_of_nonneg (by omega)]
    congr 1
    ring
  rw [hsplit]
  push_cast
  ring

theorem double_le_of_lt {j : ℤ} {k : ℕ} (hk : k ≤ 2 ^ 53) (h : j < lastPlace x) :
    (k : K) * 2 ^ j ≤ 2 ^ 52 * 2 ^ lastPlace x := by
  have hcast : (k : K) ≤ 2 ^ 53 := by exact_mod_cast hk
  calc (k : K) * 2 ^ j ≤ 2 ^ 53 * 2 ^ j := by
        exact mul_le_mul_of_nonneg_right hcast (two_zpow_pos j).le
    _ = 2 ^ 52 * 2 ^ (j + 1) := by rw [zpow_add_one₀ two_ne_zero]; ring
    _ ≤ 2 ^ 52 * 2 ^ lastPlace x := by
        have hmono : (2 : K) ^ (j + 1) ≤ 2 ^ lastPlace x :=
          zpow_le_zpow_right₀ one_le_two (by omega)
        exact mul_le_mul_of_nonneg_left hmono (by positivity)

/-- Rounding does not pass a number of double precision on the way up. -/
theorem magnitude_le_double {j : ℤ} {k : ℕ} (hk : k ≤ 2 ^ 53) (hj : -1074 ≤ j) (hx : 0 < x)
    (h : x ≤ k * 2 ^ j) : magnitude x ≤ k * 2 ^ j := by
  have hpos := two_zpow_pos (K := K) (lastPlace x)
  by_cases hplace : lastPlace x ≤ j
  · obtain ⟨n, hn⟩ := multiple_of_le (K := K) (k := k) hplace
    rw [hn] at h ⊢
    apply magnitude_le
    left
    nlinarith
  · have hge := le_of_lastPlace hx (by omega)
    have hle := double_le_of_lt (x := x) hk (not_le.mp hplace)
    have hsame : x = 2 ^ 52 * 2 ^ lastPlace x := le_antisymm (h.trans hle) hge
    have hround : magnitude x ≤ ((2 ^ 52 : ℤ) : K) * 2 ^ lastPlace x := by
      apply magnitude_le
      left
      push_cast
      nlinarith
    push_cast at hround
    linarith

/-- Nor on the way down. -/
theorem double_le_magnitude {j : ℤ} {k : ℕ} (hk : k ≤ 2 ^ 53) (hj : -1074 ≤ j) (hx : 0 < x)
    (h : k * 2 ^ j ≤ x) : k * 2 ^ j ≤ magnitude x := by
  have hpos := two_zpow_pos (K := K) (lastPlace x)
  by_cases hplace : lastPlace x ≤ j
  · obtain ⟨n, hn⟩ := multiple_of_le (K := K) (k := k) hplace
    rw [hn] at h ⊢
    apply le_magnitude
    left
    nlinarith
  · have hge := le_of_lastPlace hx (by omega)
    have hle := double_le_of_lt (x := x) hk (not_le.mp hplace)
    have hround : ((2 ^ 52 : ℤ) : K) * 2 ^ lastPlace x ≤ magnitude x := by
      apply le_magnitude
      left
      push_cast
      nlinarith
    push_cast at hround
    linarith

@[simp] theorem magnitude_zero : magnitude (0 : K) = 0 := by
  simp [magnitude, roundHalfEven]

/-! ### Around a power of two

Above it, the numbers of double precision are twice as far apart as below it. -/

section TwoPow
variable {p : ℤ}

omit [IsStrictOrderedRing K] in
theorem two_zpow_eq (p : ℤ) (n : ℕ) : (2 : K) ^ (p - 54 + n) = 2 ^ n * 2 ^ (p - 54) := by
  rw [zpow_add₀ two_ne_zero, zpow_natCast, mul_comm]

omit [IsStrictOrderedRing K] in
theorem two_zpow_eqs (p : ℤ) : (2 : K) ^ (p - 53) = 2 * 2 ^ (p - 54) ∧
    (2 : K) ^ (p - 52) = 4 * 2 ^ (p - 54) ∧ (2 : K) ^ (p - 1) = 2 ^ 53 * 2 ^ (p - 54) ∧
    (2 : K) ^ p = 2 ^ 54 * 2 ^ (p - 54) ∧ (2 : K) ^ (p + 1) = 2 ^ 55 * 2 ^ (p - 54) := by
  have h1 := two_zpow_eq (K := K) p 1
  have h2 := two_zpow_eq (K := K) p 2
  have h53 := two_zpow_eq (K := K) p 53
  have h54 := two_zpow_eq (K := K) p 54
  have h55 := two_zpow_eq (K := K) p 55
  refine ⟨?_, ?_, ?_, ?_, ?_⟩
  · rw [show p - 53 = p - 54 + (1 : ℕ) by push_cast; ring, h1, pow_one]
  · rw [show p - 52 = p - 54 + (2 : ℕ) by push_cast; ring, h2]
    norm_num
  · rw [show p - 1 = p - 54 + (53 : ℕ) by push_cast; ring, h53]
  · rw [← h54]
    congr 1
    push_cast
    ring
  · rw [← h55]
    congr 1
    push_cast
    ring

/-- Up to half a place above, rounding comes down to it. -/
theorem magnitude_le_two_zpow (hp : -1021 ≤ p) (hx : 0 < x) (h : x ≤ 2 ^ p + 2 ^ (p - 53)) :
    magnitude x ≤ 2 ^ p := by
  obtain ⟨e53, e52, -, e0, e1⟩ := two_zpow_eqs (K := K) p
  have hu := two_zpow_pos (K := K) (p - 54)
  by_cases hle : x ≤ 2 ^ p
  · have hone : x ≤ ((1 : ℕ) : K) * 2 ^ p := by rwa [Nat.cast_one, one_mul]
    have hround := magnitude_le_double (by norm_num) (by omega) hx hone
    rwa [Nat.cast_one, one_mul] at hround
  · have hplace : lastPlace x = p - 52 :=
      lastPlace_of_mem (by omega) (not_le.mp hle).le (by rw [e53, e0] at h; rw [e1]; linarith)
    have hround : magnitude x ≤ ((2 ^ 52 : ℤ) : K) * 2 ^ lastPlace x := by
      apply magnitude_le
      right
      refine ⟨?_, by decide⟩
      rw [hplace, e52]
      rw [e53, e0] at h
      push_cast
      linarith
    rw [hplace, e52] at hround
    push_cast at hround
    rw [e0]
    linarith

/-- Beyond that, rounding stays a place above. -/
theorem le_magnitude_of_two_zpow_lt (hp : -1021 ≤ p) (h : 2 ^ p + 2 ^ (p - 53) < x) :
    2 ^ p + 2 ^ (p - 52) ≤ magnitude x := by
  obtain ⟨e53, e52, -, e0, e1⟩ := two_zpow_eqs (K := K) p
  have hu := two_zpow_pos (K := K) (p - 54)
  rw [e53, e0] at h
  rw [e52, e0]
  have hx : 0 < x := by linarith
  by_cases hle : 2 ^ 54 * 2 ^ (p - 54) + 4 * 2 ^ (p - 54) ≤ x
  · have hdouble : ((2 ^ 52 + 1 : ℕ) : K) * 2 ^ (p - 52) ≤ x := by
      rw [e52]
      push_cast
      linarith
    have hround := double_le_magnitude (by norm_num) (by omega) hx hdouble
    rw [e52] at hround
    push_cast at hround
    linarith
  · have hplace : lastPlace x = p - 52 :=
      lastPlace_of_mem (by omega) (by rw [e0]; linarith) (by rw [e1]; linarith)
    have hround : ((2 ^ 52 + 1 : ℤ) : K) * 2 ^ lastPlace x ≤ magnitude x := by
      apply le_magnitude
      left
      rw [hplace, e52]
      push_cast
      linarith
    rw [hplace, e52] at hround
    push_cast at hround
    linarith

/-- From a quarter of a place below, rounding comes up to it. -/
theorem two_zpow_le_magnitude (hp : -1021 ≤ p) (h : 2 ^ p - 2 ^ (p - 54) ≤ x) :
    2 ^ p ≤ magnitude x := by
  obtain ⟨e53, e52, em, e0, e1⟩ := two_zpow_eqs (K := K) p
  have hu := two_zpow_pos (K := K) (p - 54)
  rw [e0] at h
  have hx : 0 < x := by linarith
  by_cases hle : 2 ^ p ≤ x
  · have hone : ((1 : ℕ) : K) * 2 ^ p ≤ x := by rwa [Nat.cast_one, one_mul]
    have hround := double_le_magnitude (by norm_num) (by omega) hx hone
    rwa [Nat.cast_one, one_mul] at hround
  · rw [e0] at hle
    have hplace : lastPlace x = p - 1 - 52 := by
      refine lastPlace_of_mem (by omega) (by rw [em]; linarith) ?_
      rw [sub_add_cancel, e0]
      exact not_le.mp hle
    have hplace' : lastPlace x = p - 53 := by omega
    have hround : ((2 ^ 53 : ℤ) : K) * 2 ^ lastPlace x ≤ magnitude x := by
      apply le_magnitude
      right
      refine ⟨?_, by decide⟩
      rw [hplace', e53]
      push_cast
      linarith
    rw [hplace', e53] at hround
    push_cast at hround
    rw [e0]
    linarith

/-- Before that, rounding stays half a place below. -/
theorem magnitude_le_of_lt_two_zpow (hp : -1021 ≤ p) (hx : 0 < x) (h : x < 2 ^ p - 2 ^ (p - 54)) :
    magnitude x ≤ 2 ^ p - 2 ^ (p - 53) := by
  obtain ⟨e53, e52, em, e0, e1⟩ := two_zpow_eqs (K := K) p
  have hu := two_zpow_pos (K := K) (p - 54)
  rw [e0] at h
  rw [e53, e0]
  by_cases hle : x ≤ 2 ^ 54 * 2 ^ (p - 54) - 2 * 2 ^ (p - 54)
  · have hdouble : x ≤ ((2 ^ 53 - 1 : ℕ) : K) * 2 ^ (p - 53) := by
      rw [e53]
      push_cast
      linarith
    have hround := magnitude_le_double (by norm_num) (by omega) hx hdouble
    rw [e53] at hround
    push_cast at hround
    linarith
  · have hplace : lastPlace x = p - 1 - 52 := by
      refine lastPlace_of_mem (by omega) (by rw [em]; linarith) ?_
      rw [sub_add_cancel, e0]
      linarith
    have hplace' : lastPlace x = p - 53 := by omega
    have hround : magnitude x ≤ ((2 ^ 53 - 1 : ℤ) : K) * 2 ^ lastPlace x := by
      apply magnitude_le
      left
      rw [hplace', e53]
      push_cast
      linarith
    rw [hplace', e53] at hround
    push_cast at hround
    linarith

end TwoPow

end Binary64

end X2Navigation
