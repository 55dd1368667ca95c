import Mathlib.Data.List.TakeWhile
import Mathlib.Data.Rat.Defs
import Mathlib.Tactic.Ring
import X2Navigation.Numeric.Decimal

/-! Numerals with a sign, a fraction and an exponent, as JSON has them. A numeral is read
from the front of a text; what was printed is read to its end, whatever follows it, as
long as that cannot belong to a numeral. -/

namespace X2Navigation.Text

/-- The digits before and after the point, and the exponent, where it is written. -/
structure Numeral where
  negative : Bool
  whole : List Char
  fraction : List Char
  exponent : Option ℤ
  deriving DecidableEq

/-- What a numeral may go on with. -/
def isNumeric (c : Char) : Bool := c.isDigit || c = '.' || c = 'e' || c = 'E'

/-- The text after a numeral. -/
def Delimited (rest : List Char) : Prop := ∀ c ∈ rest.head?, isNumeric c = false

/-- The text does not go on with a digit. -/
def EndsDigits (rest : List Char) : Prop := ∀ c ∈ rest.head?, c.isDigit = false

theorem EndsDigits.cons {c : Char} (h : c.isDigit = false) (text : List Char) :
    EndsDigits (c :: text) := by
  intro d hd
  obtain rfl := Option.some.inj hd
  exact h

theorem Delimited.endsDigits {rest : List Char} (h : Delimited rest) : EndsDigits rest := by
  intro c hc
  have hnumeric := h c hc
  simp only [isNumeric, Bool.or_eq_false_iff] at hnumeric
  exact hnumeric.1.1.1

namespace Numeral

/-- At least one digit stands before the point, and no zero before another digit. -/
structure WellFormed (n : Numeral) : Prop where
  whole : ∃ k, IsDecimal n.whole k
  fraction : ∀ c ∈ n.fraction, c.isDigit = true

/-- The magnitude that is denoted. -/
def value (n : Numeral) : ℚ :=
  Nat.ofDigitChars 10 (n.whole ++ n.fraction) 0 * 10 ^ (n.exponent.getD 0 - n.fraction.length)

/-! ### Printing -/

/-- A fraction with its point, unless it is empty. -/
def printFraction : List Char → List Char
  | [] => []
  | fraction => '.' :: fraction

/-- The sign of an exponent is always written, and two digits at least. -/
def printExponent : Option ℤ → List Char
  | none => []
  | some e => 'e' :: (if e < 0 then '-' else '+') ::
      (if e.natAbs < 10 then '0' :: Nat.toDigits 10 e.natAbs else Nat.toDigits 10 e.natAbs)

def print (n : Numeral) : List Char :=
  (if n.negative then ['-'] else []) ++
    (n.whole ++ (printFraction n.fraction ++ printExponent n.exponent))

/-! ### Reading -/

def readSign : List Char → Bool × List Char
  | '-' :: text => (true, text)
  | text => (false, text)

/-- Refuses a numeral without digits and one with a zero before other digits. -/
def readWhole (text : List Char) : Option (List Char × List Char) :=
  let digits := text.takeWhile Char.isDigit
  if digits = [] ∨ digits.head? = some '0' ∧ digits ≠ ['0'] then none
  else some (digits, text.dropWhile Char.isDigit)

def readFraction : List Char → Option (List Char × List Char)
  | '.' :: text =>
    let digits := text.takeWhile Char.isDigit
    if digits = [] then none else some (digits, text.dropWhile Char.isDigit)
  | text => some ([], text)

/-- The digits of an exponent. -/
def readPower (negative : Bool) (text : List Char) : Option (Option ℤ × List Char) :=
  let digits := text.takeWhile Char.isDigit
  if digits = [] then none
  else
    let power : ℤ := Nat.ofDigitChars 10 digits 0
    some (some (if negative then -power else power), text.dropWhile Char.isDigit)

def readExponent : List Char → Option (Option ℤ × List Char)
  | 'e' :: '-' :: text | 'E' :: '-' :: text => readPower true text
  | 'e' :: '+' :: text | 'E' :: '+' :: text => readPower false text
  | 'e' :: text | 'E' :: text => readPower false text
  | text => some (none, text)

/-- The numeral in front of a text, with what follows it. -/
def read (text : List Char) : Option (Numeral × List Char) := do
  let (negative, text) := readSign text
  let (whole, text) ← readWhole text
  let (fraction, text) ← readFraction text
  let (exponent, text) ← readExponent text
  return (⟨negative, whole, fraction, exponent⟩, text)

/-! ### What is printed is read -/

variable {digits rest : List Char}

/-- Digits are taken to their end. -/
theorem span_digits (h : ∀ c ∈ digits, c.isDigit = true) (hrest : EndsDigits rest) :
    (digits ++ rest).takeWhile Char.isDigit = digits ∧
      (digits ++ rest).dropWhile Char.isDigit = rest := by
  rw [List.takeWhile_append_of_pos h, List.dropWhile_append_of_pos h]
  cases rest with
  | nil => simp
  | cons c rest =>
    have hc : c.isDigit = false := hrest c rfl
    simp [hc]

theorem readWhole_append {k : ℕ} (h : IsDecimal digits k) (hrest : EndsDigits rest) :
    readWhole (digits ++ rest) = some (digits, rest) := by
  obtain ⟨htake, hdrop⟩ := span_digits h.isDigit hrest
  unfold readWhole
  rw [htake, hdrop]
  have hcanonical : ¬ (digits = [] ∨ digits.head? = some '0' ∧ digits ≠ ['0']) := by
    rintro (hnil | ⟨hhead, hne⟩)
    · exact h.ne_nil hnil
    · exact hne (h.canonical hhead)
  exact if_neg hcanonical

theorem readFraction_append {fraction : List Char} (h : ∀ c ∈ fraction, c.isDigit = true)
    (hrest : EndsDigits rest) (hpoint : rest.head? ≠ some '.') :
    readFraction (printFraction fraction ++ rest) = some (fraction, rest) := by
  cases fraction with
  | nil =>
    cases rest with
    | nil => rfl
    | cons c rest =>
      have hc : c ≠ '.' := by simpa using hpoint
      simp [printFraction, readFraction, hc]
  | cons c fraction =>
    obtain ⟨htake, hdrop⟩ := span_digits h hrest
    show readFraction ('.' :: (c :: fraction ++ rest)) = _
    rw [readFraction, htake, hdrop]
    rfl

theorem readPower_append (negative : Bool) {k : ℕ} (h : ∀ c ∈ digits, c.isDigit = true)
    (hne : digits ≠ []) (hvalue : Nat.ofDigitChars 10 digits 0 = k) (hrest : EndsDigits rest) :
    readPower negative (digits ++ rest) = some (some (if negative then -(k : ℤ) else k), rest) := by
  obtain ⟨htake, hdrop⟩ := span_digits h hrest
  unfold readPower
  rw [htake, hdrop]
  simp [hne, hvalue]

/-- The digits of a printed exponent. -/
theorem power_digits (k : ℕ) :
    ∃ digits, (if k < 10 then '0' :: Nat.toDigits 10 k else Nat.toDigits 10 k) = digits ∧
      (∀ c ∈ digits, c.isDigit = true) ∧ digits ≠ [] ∧ Nat.ofDigitChars 10 digits 0 = k := by
  have hdecimal := isDecimal_toDigits k
  by_cases hk : k < 10
  · refine ⟨_, if_pos hk, ?_, List.cons_ne_nil _ _, ?_⟩
    · intro c hc
      rcases List.mem_cons.mp hc with rfl | hc
      · decide
      · exact hdecimal.isDigit c hc
    · rw [Nat.ofDigitChars_cons]
      exact hdecimal.value
  · exact ⟨_, if_neg hk, hdecimal.isDigit, hdecimal.ne_nil, hdecimal.value⟩

theorem readExponent_append (exponent : Option ℤ) (hrest : Delimited rest) :
    readExponent (printExponent exponent ++ rest) = some (exponent, rest) := by
  have hends := hrest.endsDigits
  cases exponent with
  | none =>
    cases rest with
    | nil => rfl
    | cons c rest =>
      have hc := hrest c rfl
      have hne : c ≠ 'e' ∧ c ≠ 'E' := by
        constructor <;> rintro rfl <;> simp [isNumeric] at hc
      simp [printExponent, readExponent, hne.1, hne.2]
  | some e =>
    obtain ⟨digits, hprint, hdigits, hne, hvalue⟩ := power_digits e.natAbs
    have hread := fun negative => readPower_append negative hdigits hne hvalue hends
    by_cases he : e < 0
    · have habs : -(e.natAbs : ℤ) = e := by omega
      have htext : printExponent (some e) ++ rest = 'e' :: '-' :: (digits ++ rest) := by
        simp [printExponent, he, hprint]
      rw [htext, readExponent, hread true, if_pos rfl, habs]
    · have habs : (e.natAbs : ℤ) = e := by omega
      have htext : printExponent (some e) ++ rest = 'e' :: '+' :: (digits ++ rest) := by
        simp [printExponent, he, hprint]
      rw [htext, readExponent, hread false, if_neg Bool.false_ne_true, habs]

/-- Neither a digit nor a point comes after the fraction. -/
theorem printExponent_head (exponent : Option ℤ) (hrest : Delimited rest) :
    EndsDigits (printExponent exponent ++ rest) ∧
      (printExponent exponent ++ rest).head? ≠ some '.' := by
  cases exponent with
  | none =>
    refine ⟨hrest.endsDigits, fun hpoint => ?_⟩
    have hnumeric := hrest '.' hpoint
    simp [isNumeric] at hnumeric
  | some e => exact ⟨EndsDigits.cons (by decide) _, by simp [printExponent]⟩

theorem printFraction_head (fraction : List Char) (hrest : EndsDigits rest) :
    EndsDigits (printFraction fraction ++ rest) := by
  cases fraction with
  | nil => exact hrest
  | cons c fraction => exact EndsDigits.cons (by decide) _

theorem readSign_print (negative : Bool) (hdigits : ∀ c ∈ digits, c.isDigit = true)
    (hne : digits ≠ []) :
    readSign ((if negative then ['-'] else []) ++ (digits ++ rest)) = (negative, digits ++ rest) := by
  cases negative with
  | true => rfl
  | false =>
    obtain ⟨c, digits, rfl⟩ := List.exists_cons_of_ne_nil hne
    have hc : c ≠ '-' := by
      rintro rfl
      have hdigit := hdigits '-' (by simp)
      revert hdigit
      decide
    simp [readSign, hc]

/-- What was printed is read, whatever follows it. -/
theorem read_print (n : Numeral) (h : n.WellFormed) (hrest : Delimited rest) :
    read (n.print ++ rest) = some (n, rest) := by
  obtain ⟨k, hwhole⟩ := h.whole
  obtain ⟨hends, hpoint⟩ := printExponent_head n.exponent hrest
  have hafter := printFraction_head n.fraction hends
  have htext : n.print ++ rest = (if n.negative then ['-'] else []) ++
      (n.whole ++ (printFraction n.fraction ++ (printExponent n.exponent ++ rest))) := by
    simp [print]
  rw [htext, read, readSign_print n.negative hwhole.isDigit hwhole.ne_nil]
  dsimp only
  rw [readWhole_append hwhole hafter]
  dsimp only [Option.bind_eq_bind, Option.bind_some]
  rw [readFraction_append h.fraction hends hpoint]
  dsimp only [Option.bind_some]
  rw [readExponent_append n.exponent hrest]
  rfl

end Numeral

end X2Navigation.Text
