import Mathlib.Algebra.Order.Floor.Ring
import Mathlib.Tactic.Linarith

/-! Numbers cut to integers toward zero. Cutting is odd, so what holds above zero
is carried below it; a cut number lies between two bounds around zero exactly if
the number itself is less than one beyond them. -/

namespace X2Navigation.Truncation

variable {K : Type*} [Field K] [LinearOrder K] [FloorRing K] {x : K} {n : ℤ}

def truncate (x : K) : ℤ := if 0 ≤ x then ⌊x⌋ else ⌈x⌉

theorem truncate_of_nonneg (hx : 0 ≤ x) : truncate x = ⌊x⌋ := if_pos hx

theorem truncate_of_neg (hx : x < 0) : truncate x = ⌈x⌉ := if_neg hx.not_ge

theorem ceil_nonpos (hx : x < 0) : ⌈x⌉ ≤ 0 := Int.ceil_le.mpr (by simpa using hx.le)

theorem truncate_pos : 0 < truncate x ↔ 1 ≤ x := by
  rcases lt_or_ge x 0 with hx | hx
  · rw [truncate_of_neg hx]
    exact iff_of_false (ceil_nonpos hx).not_gt (hx.trans one_pos).not_ge
  · rw [truncate_of_nonneg hx, Int.floor_pos]

variable [IsStrictOrderedRing K]

theorem truncate_neg (x : K) : truncate (-x) = -truncate x := by
  rcases lt_trichotomy x 0 with hx | rfl | hx
  · rw [truncate_of_neg hx, truncate_of_nonneg (neg_nonneg.mpr hx.le), Int.floor_neg]
  · rw [neg_zero, truncate_of_nonneg le_rfl, Int.floor_zero, neg_zero]
  · rw [truncate_of_nonneg hx.le, truncate_of_neg (neg_lt_zero.mpr hx), Int.ceil_neg]

theorem truncate_le (hn : 0 ≤ n) : truncate x ≤ n ↔ x < n + 1 := by
  rcases lt_or_ge x 0 with hx | hx
  · have hlt : x < (n : K) + 1 := by
      calc x < 0 := hx
        _ < (n : K) + 1 := by exact_mod_cast Int.lt_add_one_of_le hn
    rw [truncate_of_neg hx]
    exact iff_of_true ((ceil_nonpos hx).trans hn) hlt
  · rw [truncate_of_nonneg hx, ← Int.lt_add_one_iff, Int.floor_lt]
    push_cast
    rfl

theorem le_truncate (hn : n ≤ 0) : n ≤ truncate x ↔ (n : K) - 1 < x := by
  have h : truncate (-x) ≤ -n ↔ -x < ((-n : ℤ) : K) + 1 := truncate_le (neg_nonneg.mpr hn)
  rw [truncate_neg, neg_le_neg_iff, Int.cast_neg] at h
  rw [h]
  constructor <;> intro <;> linarith

end X2Navigation.Truncation
