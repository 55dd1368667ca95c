import Mathlib.Algebra.Order.Group.Nat
import Mathlib.Data.Nat.Basic
import Mathlib.Order.Monotone.Basic

/-! Whole numbers spread evenly. The numbers from zero to `span` are met in `count` steps,
each of the quotient or one more; the remainders that were left over say which. -/

namespace X2Navigation.EvenSpread

/-- Where the steps have got to after `k` of `count`. -/
def spread (span count k : ℕ) : ℕ := k * span / count

/-- What is left over there. -/
def leftover (span count k : ℕ) : ℕ := k * span % count

variable {span count : ℕ}

@[simp] theorem spread_zero (span count : ℕ) : spread span count 0 = 0 := by simp [spread]

@[simp] theorem leftover_zero (span count : ℕ) : leftover span count 0 = 0 := by simp [leftover]

theorem spread_last (hcount : 0 < count) : spread span count count = span :=
  Nat.mul_div_cancel_left span hcount

theorem leftover_lt (span : ℕ) (hcount : 0 < count) (k : ℕ) : leftover span count k < count :=
  Nat.mod_lt _ hcount

/-- A step is one longer when the leftovers make up another one. -/
theorem spread_succ (hcount : 0 < count) (k : ℕ) : spread span count (k + 1) =
    spread span count k + span / count +
      if count ≤ leftover span count k + span % count then 1 else 0 := by
  rw [spread, Nat.add_mul, Nat.one_mul, Nat.add_div hcount]
  rfl

theorem leftover_succ (hcount : 0 < count) (k : ℕ) : leftover span count (k + 1) =
    if count ≤ leftover span count k + span % count then
      leftover span count k + span % count - count
    else leftover span count k + span % count := by
  have hk := leftover_lt span hcount k
  have hspan := Nat.mod_lt span hcount
  rw [leftover, Nat.add_mul, Nat.one_mul, Nat.add_mod]
  change (leftover span count k + span % count) % count = _
  split
  · rw [Nat.mod_eq_sub_mod ‹_›, Nat.mod_eq_of_lt (by omega)]
  · exact Nat.mod_eq_of_lt (by omega)

/-- The leftovers of a step stay below the span. -/
theorem leftover_add_lt (hcount : 0 < count) (hle : count ≤ span) (k : ℕ) :
    leftover span count k + span % count < span := by
  have hk := leftover_lt span hcount k
  have hquotient : 1 ≤ span / count := (Nat.one_le_div_iff hcount).mpr hle
  have hspan := Nat.div_add_mod span count
  have hmul : count * 1 ≤ count * (span / count) := Nat.mul_le_mul_left _ hquotient
  omega

theorem spread_mono (span count : ℕ) : Monotone (spread span count) := by
  intro k l h
  exact Nat.div_le_div_right (Nat.mul_le_mul_right span h)

theorem spread_le (hcount : 0 < count) {k : ℕ} (h : k ≤ count) : spread span count k ≤ span := by
  have hmono := spread_mono span count h
  rwa [spread_last hcount] at hmono

/-- Over a span that is long enough no two steps end in the same place. -/
theorem spread_strictMono (hcount : 0 < count) (hle : count ≤ span) :
    StrictMono (spread span count) := by
  apply strictMono_nat_of_lt_succ
  intro k
  have hquotient : 1 ≤ span / count := (Nat.one_le_div_iff hcount).mpr hle
  rw [spread_succ hcount]
  omega

/-- Any two steps differ by one at most. -/
theorem spread_gap (hcount : 0 < count) (k l : ℕ) :
    spread span count (k + 1) - spread span count k ≤
      spread span count (l + 1) - spread span count l + 1 := by
  rw [spread_succ hcount, spread_succ hcount]
  split <;> split <;> omega

/-- As many steps as there are numbers meet every one of them. -/
theorem spread_self (hcount : 0 < count) (k : ℕ) : spread count count k = k :=
  Nat.mul_div_cancel k hcount

end X2Navigation.EvenSpread
