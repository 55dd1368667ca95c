import Mathlib.Data.UInt

/-! Machine arithmetic that says when it is in order. Every operation answers with what the
machine computes, but only if nothing wraps, no divisor is zero and no pointer leaves its
buffer; a computation that answers has been in order throughout. -/

namespace X2Navigation.Checked

/-! ### Arithmetic of 64 bits -/

section Words
variable {a b : UInt64}

def add? (a b : UInt64) : Option UInt64 := if a.toNat + b.toNat < 2 ^ 64 then some (a + b) else none

def sub? (a b : UInt64) : Option UInt64 := if b ≤ a then some (a - b) else none

def mul? (a b : UInt64) : Option UInt64 := if a.toNat * b.toNat < 2 ^ 64 then some (a * b) else none

def div? (a b : UInt64) : Option UInt64 := if b ≠ 0 then some (a / b) else none

def mod? (a b : UInt64) : Option UInt64 := if b ≠ 0 then some (a % b) else none

theorem toNat_add (h : a.toNat + b.toNat < 2 ^ 64) : (a + b).toNat = a.toNat + b.toNat :=
  BitVec.toNat_add_of_lt h

theorem toNat_mul (h : a.toNat * b.toNat < 2 ^ 64) : (a * b).toNat = a.toNat * b.toNat :=
  BitVec.toNat_mul_of_lt h

theorem add_eq (h : a.toNat + b.toNat < 2 ^ 64) : add? a b = some (a + b) := if_pos h

theorem sub_eq (h : b ≤ a) : sub? a b = some (a - b) := if_pos h

theorem mul_eq (h : a.toNat * b.toNat < 2 ^ 64) : mul? a b = some (a * b) := if_pos h

theorem div_eq (h : b ≠ 0) : div? a b = some (a / b) := if_pos h

theorem mod_eq (h : b ≠ 0) : mod? a b = some (a % b) := if_pos h

theorem pos_of_ne_zero (h : a ≠ 0) : 0 < a.toNat :=
  Nat.pos_of_ne_zero fun hzero => h (UInt64.toNat_inj.mp hzero)

theorem toNat_sub_one (h : a ≠ 0) : (a - 1).toNat = a.toNat - 1 :=
  UInt64.toNat_sub_of_le a 1 (UInt64.le_iff_toNat_le.mpr (pos_of_ne_zero h))

end Words

/-! ### Arithmetic of 32 bits -/

section HalfWords
variable {a b : UInt32}

def mul32? (a b : UInt32) : Option UInt32 :=
  if a.toNat * b.toNat < 2 ^ 32 then some (a * b) else none

def add32? (a b : UInt32) : Option UInt32 :=
  if a.toNat + b.toNat < 2 ^ 32 then some (a + b) else none

def div32? (a b : UInt32) : Option UInt32 := if b ≠ 0 then some (a / b) else none

theorem toNat_mul32 (h : a.toNat * b.toNat < 2 ^ 32) : (a * b).toNat = a.toNat * b.toNat :=
  BitVec.toNat_mul_of_lt h

theorem add32_eq (h : a.toNat + b.toNat < 2 ^ 32) : add32? a b = some (a + b) := if_pos h

theorem mul32_eq (h : a.toNat * b.toNat < 2 ^ 32) : mul32? a b = some (a * b) := if_pos h

theorem div32_eq (h : b ≠ 0) : div32? a b = some (a / b) := if_pos h

theorem pos32_of_ne_zero (h : a ≠ 0) : 0 < a.toNat :=
  Nat.pos_of_ne_zero fun hzero => h (UInt32.toNat_inj.mp hzero)

/-- Two sizes of 32 bits have a product of 64. -/
theorem product_lt (a b : UInt32) : a.toUInt64.toNat * b.toUInt64.toNat < 2 ^ 64 := by
  have ha := a.toNat_lt
  have hb := b.toNat_lt
  rw [UInt32.toNat_toUInt64, UInt32.toNat_toUInt64]
  calc a.toNat * b.toNat ≤ (2 ^ 32 - 1) * (2 ^ 32 - 1) := Nat.mul_le_mul (by omega) (by omega)
    _ < 2 ^ 64 := by decide

/-- The usual check that a product fits. -/
theorem mul_lt_of_le_div (h : a ≤ 4294967295 / b) : a.toNat * b.toNat < 2 ^ 32 := by
  rw [UInt32.le_iff_toNat_le, UInt32.toNat_div] at h
  have hmul := Nat.mul_le_of_le_div _ _ _ h
  have hmax : (4294967295 : UInt32).toNat = 4294967295 := rfl
  omega

end HalfWords

/-! ### Buffers -/

/-- A pointer into a buffer is moved on; it may come to stand behind the last byte. -/
def move? (size : ℕ) (position distance : UInt64) : Option UInt64 :=
  if position.toNat + distance.toNat ≤ size then add? position distance else none

/-- So many bytes are read from there. -/
def readable? (size : ℕ) (position : UInt64) (count : ℕ) : Option Unit :=
  if position.toNat + count ≤ size then some () else none

theorem move_eq {size : ℕ} {position distance : UInt64}
    (hlt : position.toNat + distance.toNat < 2 ^ 64)
    (hle : position.toNat + distance.toNat ≤ size) :
    move? size position distance = some (position + distance) := by
  rw [move?, if_pos hle, add_eq hlt]

theorem readable_eq {size count : ℕ} {position : UInt64} (h : position.toNat + count ≤ size) :
    readable? size position count = some () := if_pos h

/-- A cell of a table ends inside its row, and the row inside the table. -/
theorem cell_le {width height size stride row column : ℕ} (hrow : row < height)
    (hcolumn : column < width) (hfits : width * size ≤ stride) :
    row * stride + column * size + size ≤ height * stride := by
  calc row * stride + column * size + size = row * stride + (column + 1) * size := by
        rw [Nat.add_one_mul, Nat.add_assoc]
    _ ≤ row * stride + width * size := Nat.add_le_add_left (Nat.mul_le_mul_right _ hcolumn) _
    _ ≤ row * stride + stride := Nat.add_le_add_left hfits _
    _ = (row + 1) * stride := (Nat.add_one_mul _ _).symm
    _ ≤ height * stride := Nat.mul_le_mul_right _ hrow

/-! ### Loops -/

/-- A checked loop is in order if an invariant makes every iteration so. -/
theorem foldlM_range {α : Type*} {f : α → ℕ → α} {f? : α → ℕ → Option α} (I : ℕ → α → Prop) (n : ℕ)
    (hstep : ∀ k < n, ∀ a, I k a → f? a k = some (f a k) ∧ I (k + 1) (f a k)) {a : α} (h : I 0 a) :
    (List.range n).foldlM f? a = some ((List.range n).foldl f a) ∧
      I n ((List.range n).foldl f a) := by
  induction n with
  | zero => exact ⟨rfl, h⟩
  | succ n ih =>
    obtain ⟨hloop, hinv⟩ := ih fun k hk => hstep k (by omega)
    obtain ⟨hlast, hinv'⟩ := hstep n (by omega) _ hinv
    rw [List.range_succ, List.foldlM_append, List.foldl_append, hloop]
    refine ⟨?_, hinv'⟩
    rw [Option.bind_eq_bind, Option.bind_some, List.foldlM_cons, hlast]
    rfl

end X2Navigation.Checked
