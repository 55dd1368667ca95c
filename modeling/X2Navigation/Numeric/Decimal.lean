import Mathlib.Data.List.Induction
import Mathlib.Tactic.Common

/-! Decimal numerals. A number has one numeral without superfluous zeros, the one it is printed
as. -/

namespace X2Navigation

/-- The digits of a number, without superfluous zeros in front. -/
structure IsDecimal (digits : List Char) (n : ℕ) : Prop where
  ne_nil : digits ≠ []
  isDigit : ∀ c ∈ digits, c.isDigit = true
  canonical : digits.head? = some '0' → digits = ['0']
  value : Nat.ofDigitChars 10 digits 0 = n

theorem exists_digitChar {c : Char} (h : c.isDigit = true) :
    ∃ d, d < 10 ∧ Nat.digitChar d = c := by
  obtain ⟨hlow, hhigh⟩ := Char.isDigit_iff_toNat.mp h
  have h0 : '0'.toNat = 48 := rfl
  have h9 : '9'.toNat = 57 := rfl
  have hlt : c.toNat - 48 < 10 := by omega
  refine ⟨c.toNat - 48, hlt, ?_⟩
  apply Char.toNat_inj.mp
  rw [Nat.toNat_digitChar_of_lt_ten hlt]
  omega

namespace IsDecimal

/-- A numeral is what is printed. -/
theorem eq_toDigits {digits : List Char} {n : ℕ} (h : IsDecimal digits n) :
    digits = Nat.toDigits 10 n := by
  induction digits using List.reverseRecOn generalizing n with
  | nil => exact absurd rfl h.ne_nil
  | append_singleton digits c ih =>
    obtain ⟨d, hd, rfl⟩ := exists_digitChar (h.isDigit c (by simp))
    have hvalue := h.value
    rw [Nat.ofDigitChars_append, Nat.ofDigitChars_cons_digitChar_of_lt_ten hd,
      Nat.ofDigitChars_nil] at hvalue
    by_cases hnil : digits = []
    · subst hnil
      rw [Nat.ofDigitChars_nil, Nat.mul_zero, Nat.zero_add] at hvalue
      rw [← hvalue, Nat.toDigits_of_lt_base hd, List.nil_append]
    · have hhead : digits.head? ≠ some '0' := by
        intro hzero
        have hone := h.canonical (by rw [List.head?_append, hzero, Option.some_or])
        cases digits with
        | nil => exact hnil rfl
        | cons a digits => simp at hone
      have hfront : digits = Nat.toDigits 10 (Nat.ofDigitChars 10 digits 0) :=
        ih ⟨hnil, fun c hc => h.isDigit c (List.mem_append_left _ hc), fun hzero =>
          absurd hzero hhead, rfl⟩
      have hpos : 0 < Nat.ofDigitChars 10 digits 0 := by
        rcases Nat.eq_zero_or_pos (Nat.ofDigitChars 10 digits 0) with hzero | hpos
        · rw [hzero, Nat.toDigits_zero] at hfront
          exact absurd (congrArg List.head? hfront) hhead
        · exact hpos
      rw [← hvalue, ← Nat.toDigits_append_toDigits (by omega) hpos hd, ← hfront,
        Nat.toDigits_of_lt_base hd]

end IsDecimal

theorem toDigits_canonical (n : ℕ) (h : (Nat.toDigits 10 n).head? = some '0') :
    Nat.toDigits 10 n = ['0'] := by
  induction n using Nat.strongRecOn with
  | ind n ih =>
    by_cases hlt : n < 10
    · rw [Nat.toDigits_of_lt_base hlt, List.head?_cons, Option.some_inj] at h
      rw [Nat.toDigits_of_lt_base hlt, h]
    · obtain ⟨c, front, hfront⟩ := List.exists_cons_of_ne_nil (@Nat.toDigits_ne_nil (n / 10) 10)
      rw [Nat.toDigits_of_base_le (by omega) (by omega), hfront] at h
      have hhead : (Nat.toDigits 10 (n / 10)).head? = some '0' := by
        rw [hfront]
        exact h
      have hzero : Nat.ofDigitChars 10 (Nat.toDigits 10 (n / 10)) 0 = 0 := by
        rw [ih (n / 10) (by omega) hhead]
        rfl
      rw [Nat.ofDigitChars_ten_toDigits] at hzero
      omega

theorem isDecimal_toDigits (n : ℕ) : IsDecimal (Nat.toDigits 10 n) n where
  ne_nil := Nat.toDigits_ne_nil
  isDigit _ hc := Nat.isDigit_of_mem_toDigits (by omega) (by omega) hc
  canonical := toDigits_canonical n
  value := Nat.ofDigitChars_ten_toDigits

/-- Every number has one numeral. -/
theorem isDecimal_iff {digits : List Char} {n : ℕ} :
    IsDecimal digits n ↔ digits = (toString n).toList := by
  rw [Nat.toString_eq_repr, Nat.toList_repr]
  constructor
  · exact IsDecimal.eq_toDigits
  · rintro rfl
    exact isDecimal_toDigits n

end X2Navigation
