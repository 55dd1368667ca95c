import Mathlib.Data.List.DropRight
import X2Navigation.Numeric.SignificantDigits
import X2Navigation.Text.Numeral

/-! How a stream writes a `double` with a precision of 17: `%.17g`. The numeral has the
seventeen significant digits, less the zeros at its end, so reading it and rounding gives
the double back. -/

namespace X2Navigation.Text

/-- Without the zeros at the end. -/
def trim (digits : List Char) : List Char := digits.rdropWhile (· == '0')

theorem exists_trim (digits : List Char) : ∃ k, digits = trim digits ++ List.replicate k '0' := by
  induction digits using List.reverseRecOn with
  | nil => exact ⟨0, rfl⟩
  | append_singleton digits c ih =>
    by_cases hc : c = '0'
    · obtain ⟨k, hk⟩ := ih
      refine ⟨k + 1, ?_⟩
      rw [trim, List.rdropWhile_concat_pos _ _ _ (by simpa using hc), List.replicate_succ',
        ← List.append_assoc, ← trim, ← hk, hc]
    · refine ⟨0, ?_⟩
      rw [trim, List.rdropWhile_concat_neg _ _ _ (by simpa using hc)]
      simp

theorem mem_of_mem_trim {digits : List Char} {c : Char} (h : c ∈ trim digits) : c ∈ digits := by
  obtain ⟨k, hk⟩ := exists_trim digits
  rw [hk]
  exact List.mem_append_left _ h

/-- Zeros at the end of a fraction do not count. -/
theorem value_trim (negative : Bool) (whole fraction : List Char) (exponent : Option ℤ) :
    Numeral.value ⟨negative, whole, trim fraction, exponent⟩ =
      Numeral.value ⟨negative, whole, fraction, exponent⟩ := by
  obtain ⟨k, hk⟩ := exists_trim fraction
  have hlength : (fraction.length : ℤ) = (trim fraction).length + k := by
    have hcongr := congrArg List.length hk
    rw [List.length_append, List.length_replicate] at hcongr
    exact_mod_cast hcongr
  have hdigits : Nat.ofDigitChars 10 (whole ++ fraction) 0 =
      10 ^ k * Nat.ofDigitChars 10 (whole ++ trim fraction) 0 := by
    conv_lhs => rw [hk]
    rw [← List.append_assoc, Nat.ofDigitChars_append, Nat.ofDigitChars_replicate_zero]
  simp only [Numeral.value]
  rw [hdigits, hlength, ← sub_sub, zpow_sub₀ (by norm_num : (10 : ℚ) ≠ 0) _ (k : ℤ), zpow_natCast]
  push_cast
  field_simp

/-- Seventeen digits with their exponent: scientific notation only below `1e-4` and from
`1e17` on. -/
def layout (negative : Bool) (digits : ℕ) (exponent : ℤ) : Numeral :=
  let text := Nat.toDigits 10 digits
  if -4 ≤ exponent ∧ exponent < 17 then
    if 0 ≤ exponent then
      ⟨negative, text.take (exponent + 1).toNat, trim (text.drop (exponent + 1).toNat), none⟩
    else ⟨negative, ['0'], trim (List.replicate (-exponent - 1).toNat '0' ++ text), none⟩
  else ⟨negative, text.take 1, trim (text.drop 1), some exponent⟩

/-- `%.17g`. -/
def general (x : Finite64) : Numeral :=
  if x.significand = 0 then ⟨x.negative, ['0'], [], none⟩
  else layout x.negative (scientific x.magnitude).1 (scientific x.magnitude).2

section Digits
variable {digits : ℕ}

theorem length_digits (hlow : 10 ^ 16 ≤ digits) (hhigh : digits < 10 ^ 17) :
    (Nat.toDigits 10 digits).length = 17 := by
  have hle := (Nat.length_toDigits_le_iff (b := 10) (k := 17) (by omega) (by omega)).mpr hhigh
  have hge := mt (Nat.length_toDigits_le_iff (b := 10) (k := 16) (by omega) (by omega)).mp
    (not_lt.mpr hlow)
  omega

/-- The front of a numeral is one. -/
theorem isDecimal_take (hpos : 0 < digits) {n : ℕ} (hn : 0 < n) :
    ∃ k, IsDecimal ((Nat.toDigits 10 digits).take n) k := by
  have hdecimal := isDecimal_toDigits digits
  obtain ⟨c, rest, htext⟩ := List.exists_cons_of_ne_nil hdecimal.ne_nil
  obtain ⟨n, rfl⟩ := Nat.exists_eq_succ_of_ne_zero hn.ne'
  refine ⟨_, ⟨?_, fun d hd => hdecimal.isDigit d (List.mem_of_mem_take hd), ?_, rfl⟩⟩
  · simp [htext]
  · intro hzero
    have hhead : (Nat.toDigits 10 digits).head? = some '0' := by
      rw [htext] at hzero ⊢
      simpa using hzero
    have hvalue := hdecimal.value
    rw [hdecimal.canonical hhead] at hvalue
    exact absurd hvalue hpos.ne

theorem layout_wellFormed (negative : Bool) (hpos : 0 < digits) (exponent : ℤ) :
    (layout negative digits exponent).WellFormed := by
  have hdigits := (isDecimal_toDigits digits).isDigit
  unfold layout
  dsimp only
  split_ifs with hfixed hwhole
  · exact ⟨isDecimal_take hpos (by omega),
      fun c hc => hdigits c (List.mem_of_mem_drop (mem_of_mem_trim hc))⟩
  · refine ⟨⟨0, isDecimal_toDigits 0⟩, fun c hc => ?_⟩
    rcases List.mem_append.mp (mem_of_mem_trim hc) with hzero | htext
    · rw [List.eq_of_mem_replicate hzero]
      decide
    · exact hdigits c htext
  · exact ⟨isDecimal_take hpos one_pos,
      fun c hc => hdigits c (List.mem_of_mem_drop (mem_of_mem_trim hc))⟩

/-- The point and the exponent are where they belong, in each of the three layouts. -/
theorem layout_value (negative : Bool) (hlow : 10 ^ 16 ≤ digits) (hhigh : digits < 10 ^ 17)
    (exponent : ℤ) : (layout negative digits exponent).value = digits * 10 ^ (exponent - 16) := by
  have hlength := length_digits hlow hhigh
  have hvalue := (isDecimal_toDigits digits).value
  unfold layout
  dsimp only
  split_ifs with hfixed hwhole
  · rw [value_trim, Numeral.value, List.take_append_drop, hvalue, List.length_drop, hlength]
    congr 2
    simp only [Option.getD_none]
    omega
  · rw [value_trim, Numeral.value, List.singleton_append, Nat.ofDigitChars_cons,
      Nat.ofDigitChars_append, Nat.ofDigitChars_replicate_zero, List.length_append,
      List.length_replicate, hlength]
    have hzeros : Nat.ofDigitChars 10 (Nat.toDigits 10 digits)
        (10 ^ (-exponent - 1).toNat * (10 * 0 + ('0'.toNat - '0'.toNat))) = digits := by
      simp [hvalue]
    rw [hzeros]
    congr 2
    simp only [Option.getD_none]
    omega
  · rw [value_trim, Numeral.value, List.take_append_drop, hvalue, List.length_drop, hlength]
    congr 2

end Digits

theorem general_negative (x : Finite64) : (general x).negative = x.negative := by
  unfold general layout
  dsimp only
  split_ifs <;> rfl

theorem general_wellFormed (x : Finite64) : (general x).WellFormed := by
  unfold general
  split_ifs with hzero
  · exact ⟨⟨0, isDecimal_toDigits 0⟩, by simp⟩
  · obtain ⟨hlow, -⟩ := scientific_spec (x.magnitude_pos hzero)
    exact layout_wellFormed _ (by omega) _

/-- What is written denotes a number that rounds to the magnitude of the double. -/
theorem round_general (x : Finite64) :
    Binary64.round (general x).value = .finite x.magnitude := by
  unfold general
  split_ifs with hzero
  · have hdigit : Nat.ofDigitChars 10 ['0'] 0 = 0 := by decide
    have hvalue : Numeral.value ⟨x.negative, ['0'], [], none⟩ = 0 := by
      simp [Numeral.value, hdigit]
    rw [hvalue, Finite64.magnitude, hzero, Nat.cast_zero, zero_mul]
    simp [Binary64.round]
  · obtain ⟨hlow, hhigh, -⟩ := scientific_spec (x.magnitude_pos hzero)
    rw [layout_value _ hlow hhigh]
    exact x.magnitude_scientific hzero

end X2Navigation.Text
