import X2Navigation.Numeric.Double

/-! Single-precision numbers in a byte buffer. Reading one is exact: every pattern
of 32 bits is a number or a special value, and the two zeros are one number. -/

namespace X2Navigation

/-- The value of the bits of a `float`. -/
def binary32 {K : Type*} [Field K] (bits : UInt32) : Double K :=
  let negative := bits >>> 31 = 1
  let exponent := bits >>> 23 &&& 255
  let fraction := bits &&& 8388607
  if exponent = 255 then
    if fraction ≠ 0 then .nan else if negative then .negInf else .posInf
  else
    let magnitude : K :=
      if exponent = 0 then (fraction.toNat : K) / (2 ^ 149 : ℕ)
      else ((8388608 + fraction.toNat) * 2 ^ exponent.toNat : ℕ) / (2 ^ 150 : ℕ)
    .finite (if negative then -magnitude else magnitude)

/-- The bits of four bytes in the order of a little-endian machine. -/
def littleEndian (b₀ b₁ b₂ b₃ : UInt8) : UInt32 :=
  b₀.toUInt32 ||| b₁.toUInt32 <<< 8 ||| b₂.toUInt32 <<< 16 ||| b₃.toUInt32 <<< 24

/-- The four bytes of `bits` in memory. -/
def bytes (bits : UInt32) : List UInt8 :=
  [bits.toUInt8, (bits >>> 8).toUInt8, (bits >>> 16).toUInt8, (bits >>> 24).toUInt8]

@[simp] theorem length_bytes (bits : UInt32) : (bytes bits).length = 4 := rfl

/-- What is written is read back. -/
theorem littleEndian_bytes (bits : UInt32) :
    littleEndian bits.toUInt8 (bits >>> 8).toUInt8 (bits >>> 16).toUInt8 (bits >>> 24).toUInt8 =
      bits := by
  have h8 : ((8 : UInt32).toBitVec % 32).toNat = 8 := by decide
  have h16 : ((16 : UInt32).toBitVec % 32).toNat = 16 := by decide
  have h24 : ((24 : UInt32).toBitVec % 32).toNat = 24 := by decide
  apply UInt32.toBitVec_inj.mp
  apply BitVec.eq_of_getLsbD_eq
  intro i hi
  simp only [littleEndian, UInt32.toBitVec_or, UInt32.toBitVec_shiftLeft,
    UInt32.toBitVec_shiftRight, UInt8.toBitVec_toUInt32, UInt32.toBitVec_toUInt8,
    BitVec.shiftLeft_eq', BitVec.ushiftRight_eq', BitVec.getLsbD_or, BitVec.getLsbD_shiftLeft,
    BitVec.getLsbD_setWidth, BitVec.getLsbD_ushiftRight, h8, h16, h24]
  -- bit `i` comes from the byte `i / 8`
  grind

/-- One and a half, and a quarter below zero. -/
example : (binary32 0x3FC00000 : Double ℚ) = .finite (3 / 2) ∧
    (binary32 0xBE800000 : Double ℚ) = .finite (-1 / 4) := by decide +kernel

end X2Navigation
