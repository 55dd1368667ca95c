import Mathlib.Data.Rat.Floor
import X2Navigation.Cloud.VoxelFilter
import X2Navigation.Numeric.Binary64

/-! Which voxel keys are representable. The guard in front of the casts compares with the largest
64-bit integer as a `double`, and that is one more than the integer. A quotient that rounds to it
passes the guard, and its cast is undefined. -/

namespace X2Navigation.PointCloudVoxelFilter

variable {K : Type*} [Field K] [LinearOrder K] [FloorRing K]

/-- Quotients and bounds in double precision. -/
structure Platform.Ieee (P : Platform K) : Prop where
  quotient : ∀ x y, y ≠ 0 → P.quotient x y = Binary64.round (x / y)
  ofInt64 : ∀ n : Int64, .finite (P.ofInt64 n) = Binary64.round (n.toInt : K)

/-- The cast of `q` is defined, with the result `n`. -/
def CastsTo (q : Double K) (n : Int64) : Prop :=
  ∃ m : ℤ, q = .finite (m : K) ∧ -2 ^ 63 ≤ m ∧ m ≤ 2 ^ 63 - 1 ∧ n.toInt = m

def Representable (q : Double K) : Prop :=
  ∃ m : ℤ, q = .finite (m : K) ∧ -2 ^ 63 ≤ m ∧ m ≤ 2 ^ 63 - 1

/-- A key is made of defined casts, and only where all three quotients are in range. -/
def KeysRepresentable (P : Platform K) (point : Vector3 K) (voxelSize : K) : Prop :=
  (∀ key, makeVoxelKey P point voxelSize = some key →
    CastsTo (floor (P.quotient point.x voxelSize)) key.x ∧
      CastsTo (floor (P.quotient point.y voxelSize)) key.y ∧
      CastsTo (floor (P.quotient point.z voxelSize)) key.z) ∧
  (¬ (Representable (floor (P.quotient point.x voxelSize)) ∧
      Representable (floor (P.quotient point.y voxelSize)) ∧
      Representable (floor (P.quotient point.z voxelSize))) →
    makeVoxelKey P point voxelSize = none)

/-! ### One quotient -/

/-- Within half a place of the range between the bounds as doubles. -/
def Passes (v : K) : Prop := -2 ^ 63 - 1024 ≤ v ∧ v ≤ 2 ^ 63 + 1024

/-- At most a quarter of a place short of the upper bound. -/
def AtLimit (v : K) : Prop := 2 ^ 63 - 512 ≤ v

variable [IsStrictOrderedRing K] {v : K}

omit [LinearOrder K] [FloorRing K] [IsStrictOrderedRing K] in
theorem two_zpow_63 : (2 : K) ^ (63 : ℤ) = 2 ^ 63 ∧ (2 : K) ^ ((63 : ℤ) - 54) = 512 ∧
    (2 : K) ^ ((63 : ℤ) - 53) = 1024 ∧ (2 : K) ^ ((63 : ℤ) - 52) = 2048 := by
  refine ⟨?_, ?_, ?_, ?_⟩ <;> norm_num

omit [FloorRing K] in
theorem limit_lt_range : (2 : K) ^ 63 < 2 ^ 1024 := pow_lt_pow_right₀ one_lt_two (by norm_num)

/-- The size of a number that passes. -/
theorem magnitude_le_limit (h0 : 0 ≤ v) (h : v ≤ 2 ^ 63 + 1024) :
    0 ≤ Binary64.magnitude v ∧ Binary64.magnitude v ≤ 2 ^ 63 := by
  obtain ⟨e63, -, e10, -⟩ := two_zpow_63 (K := K)
  rcases h0.eq_or_lt with rfl | hpos
  · rw [Binary64.magnitude_zero]
    exact ⟨le_rfl, by positivity⟩
  · constructor
    · have hzero := Binary64.double_le_magnitude (k := 0) (j := 0) (by norm_num) (by norm_num) hpos
        (by simpa using hpos.le)
      simpa using hzero
    · rw [← e63]
      exact Binary64.magnitude_le_two_zpow (by norm_num) hpos (by rw [e63, e10]; exact h)

theorem limit_lt_magnitude (h : 2 ^ 63 + 1024 < v) : 2 ^ 63 + 2048 ≤ Binary64.magnitude v := by
  obtain ⟨e63, -, e10, e11⟩ := two_zpow_63 (K := K)
  rw [← e63, ← e11]
  exact Binary64.le_magnitude_of_two_zpow_lt (by norm_num) (by rw [e63, e10]; exact h)

theorem limit_le_magnitude (h : AtLimit v) : 2 ^ 63 ≤ Binary64.magnitude v := by
  obtain ⟨e63, e9, -, -⟩ := two_zpow_63 (K := K)
  rw [← e63]
  exact Binary64.two_zpow_le_magnitude (by norm_num) (by rw [e63, e9]; exact h)

theorem magnitude_lt_limit (h0 : 0 ≤ v) (h : ¬ AtLimit v) :
    Binary64.magnitude v ≤ 2 ^ 63 - 1024 := by
  obtain ⟨e63, e9, e10, -⟩ := two_zpow_63 (K := K)
  rcases h0.eq_or_lt with rfl | hpos
  · rw [Binary64.magnitude_zero]
    norm_num
  · rw [← e63, ← e10]
    exact Binary64.magnitude_le_of_lt_two_zpow (by norm_num) hpos
      (by rw [e63, e9]; exact not_le.mp h)

/-- A quotient that passes is a double between the bounds, and below the upper one unless it is at
the limit. -/
theorem round_of_passes (h : Passes v) : ∃ r, Binary64.round v = .finite r ∧ -2 ^ 63 ≤ r ∧
    r ≤ 2 ^ 63 ∧ (AtLimit v → r = 2 ^ 63) ∧ (¬ AtLimit v → r ≤ 2 ^ 63 - 1024) := by
  obtain ⟨hlow, hhigh⟩ := h
  unfold Binary64.round
  split
  · next hneg =>
    obtain ⟨hnonneg, hle⟩ := magnitude_le_limit (v := -v) (by linarith) (by linarith)
    have hsmall : ¬ 2 ^ 1024 ≤ Binary64.magnitude (-v) :=
      not_le.mpr (hle.trans_lt limit_lt_range)
    rw [if_neg hsmall]
    refine ⟨_, rfl, by linarith, by linarith, ?_, fun _ => by linarith⟩
    intro hlimit
    unfold AtLimit at hlimit
    linarith
  · next hnonneg =>
    obtain ⟨hpos, hle⟩ := magnitude_le_limit (not_lt.mp hnonneg) hhigh
    have hsmall : ¬ 2 ^ 1024 ≤ Binary64.magnitude v := not_le.mpr (hle.trans_lt limit_lt_range)
    rw [if_neg hsmall]
    exact ⟨_, rfl, by linarith, hle, fun hlimit => le_antisymm hle (limit_le_magnitude hlimit),
      magnitude_lt_limit (not_lt.mp hnonneg)⟩

/-- The guard refuses every other quotient. -/
theorem round_of_not_passes (h : ¬ Passes v) :
    Double.numGT (-2 ^ 63) (floor (Binary64.round v)) = true ∨
      Double.numLT (2 ^ 63) (floor (Binary64.round v)) = true := by
  have hfloor {m : K} (hm : 2 ^ 63 + 2048 ≤ m) : (2 : K) ^ 63 < (⌊m⌋ : K) ∧ (⌊-m⌋ : K) < -2 ^ 63 := by
    have habove := Int.lt_floor_add_one m
    have hbelow := Int.floor_le (-m)
    constructor <;> linarith
  unfold Binary64.round
  split
  · next hneg =>
    left
    have hlarge : 2 ^ 63 + 1024 < -v := by
      by_contra hle
      exact h ⟨by linarith, by linarith [show (0 : K) ≤ 2 ^ 63 by positivity]⟩
    split
    · rfl
    · exact decide_eq_true (hfloor (limit_lt_magnitude hlarge)).2
  · next hnonneg =>
    right
    have hlarge : 2 ^ 63 + 1024 < v := by
      by_contra hle
      exact h ⟨by linarith [show (0 : K) ≤ 2 ^ 63 by positivity], by linarith⟩
    split
    · rfl
    · exact decide_eq_true (hfloor (limit_lt_magnitude hlarge)).1

theorem le_floor_of_le {r : K} (h : -2 ^ 63 ≤ r) : (-2 ^ 63 : ℤ) ≤ ⌊r⌋ := by
  rw [Int.le_floor]
  push_cast
  linarith

/-- The guard lets a quotient that passes through. -/
theorem guard_of_passes (h : Passes v) :
    Double.numGT (-2 ^ 63) (floor (Binary64.round v)) = false ∧
      Double.numLT (2 ^ 63) (floor (Binary64.round v)) = false := by
  obtain ⟨r, hr, hlow, hhigh, -, -⟩ := round_of_passes h
  rw [hr]
  have hle := le_floor_of_le hlow
  have hcast : (-2 ^ 63 : K) ≤ ⌊r⌋ := by exact_mod_cast hle
  exact ⟨decide_eq_false (not_lt.mpr hcast),
    decide_eq_false (not_lt.mpr ((Int.floor_le r).trans hhigh))⟩

/-- Short of the limit, the cast of a quotient that passes is defined. -/
theorem castsTo_of_passes (h : Passes v) (hlimit : ¬ AtLimit v) :
    CastsTo (floor (Binary64.round v)) (toInt64 (floor (Binary64.round v))) := by
  obtain ⟨r, hr, hlow, -, -, hless⟩ := round_of_passes h
  rw [hr]
  have hle := le_floor_of_le hlow
  have hlt : ⌊r⌋ < 2 ^ 63 := by
    rw [Int.floor_lt]
    push_cast
    linarith [hless hlimit]
  refine ⟨⌊r⌋, rfl, hle, by omega, ?_⟩
  show (Int64.ofInt ⌊((⌊r⌋ : ℤ) : K)⌋).toInt = ⌊r⌋
  rw [Int.floor_intCast]
  exact Int64.toInt_ofInt_of_le hle hlt

/-- At the limit it is not. -/
theorem not_representable_of_atLimit (h : Passes v) (hlimit : AtLimit v) :
    ¬ Representable (floor (Binary64.round v)) := by
  obtain ⟨r, hr, -, -, hsame, -⟩ := round_of_passes h
  rw [hr, hsame hlimit]
  rintro ⟨m, hm, -, hle⟩
  have hfloor : ⌊(2 : K) ^ 63⌋ = 2 ^ 63 := by
    have hcast : ((2 ^ 63 : ℤ) : K) = 2 ^ 63 := by norm_num
    rw [← hcast, Int.floor_intCast]
  have hm' : ((⌊(2 : K) ^ 63⌋ : ℤ) : K) = m := by
    simpa [floor] using hm
  rw [hfloor] at hm'
  have heq : (2 ^ 63 : ℤ) = m := by exact_mod_cast hm'
  omega

/-! ### The key -/

variable {P : Platform K} {point : Vector3 K} {voxelSize : K}

omit [LinearOrder K] [FloorRing K] [IsStrictOrderedRing K] in
theorem CastsTo.representable {q : Double K} {n : Int64} (h : CastsTo q n) : Representable q := by
  obtain ⟨m, hq, hlow, hhigh, -⟩ := h
  exact ⟨m, hq, hlow, hhigh⟩

/-- The bounds of the guard: the upper one is not in range. -/
theorem Platform.Ieee.bounds (hP : P.Ieee) :
    P.ofInt64 Int64.minValue = -2 ^ 63 ∧ P.ofInt64 Int64.maxValue = 2 ^ 63 := by
  constructor
  · have hmin := hP.ofInt64 Int64.minValue
    have hcast : ((Int64.minValue.toInt : ℤ) : K) = -2 ^ 63 := by
      rw [Int64.toInt_minValue]
      norm_num
    have hmagnitude : Binary64.magnitude ((2 : K) ^ 63) = 2 ^ 63 :=
      le_antisymm (magnitude_le_limit (by positivity) (by linarith)).2
        (limit_le_magnitude (by unfold AtLimit; linarith))
    have hneg : (-2 ^ 63 : K) < 0 := by norm_num
    rw [hcast, Binary64.round, if_pos hneg, neg_neg, hmagnitude,
      if_neg (not_le.mpr limit_lt_range)] at hmin
    exact Double.finite.inj hmin
  · have hmax := hP.ofInt64 Int64.maxValue
    have hcast : ((Int64.maxValue.toInt : ℤ) : K) = 2 ^ 63 - 1 := by
      rw [Int64.toInt_maxValue]
      norm_num
    have hpasses : Passes ((2 : K) ^ 63 - 1) := by
      constructor
      · norm_num
      · linarith
    have hlimit : AtLimit ((2 : K) ^ 63 - 1) := by
      unfold AtLimit
      linarith
    obtain ⟨r, hr, -, -, hsame, -⟩ := round_of_passes hpasses
    rw [hcast, hr, hsame hlimit] at hmax
    exact Double.finite.inj hmax

/-- The key in terms of the exact quotients. -/
theorem makeVoxelKey_eq (hP : P.Ieee) (point : Vector3 K) (hsize : 0 < voxelSize) :
    (Passes (point.x / voxelSize) ∧ Passes (point.y / voxelSize) ∧
        Passes (point.z / voxelSize) →
      makeVoxelKey P point voxelSize = some
        ⟨toInt64 (floor (Binary64.round (point.x / voxelSize))),
          toInt64 (floor (Binary64.round (point.y / voxelSize))),
          toInt64 (floor (Binary64.round (point.z / voxelSize)))⟩) ∧
    (¬ (Passes (point.x / voxelSize) ∧ Passes (point.y / voxelSize) ∧
        Passes (point.z / voxelSize)) → makeVoxelKey P point voxelSize = none) := by
  obtain ⟨hmin, hmax⟩ := hP.bounds
  rw [makeVoxelKey, hmin, hmax, hP.quotient _ _ hsize.ne', hP.quotient _ _ hsize.ne',
    hP.quotient _ _ hsize.ne']
  constructor
  · rintro ⟨hx, hy, hz⟩
    obtain ⟨hx, hx'⟩ := guard_of_passes hx
    obtain ⟨hy, hy'⟩ := guard_of_passes hy
    obtain ⟨hz, hz'⟩ := guard_of_passes hz
    rw [hx, hx', hy, hy', hz, hz']
    rfl
  · intro hrefused
    rw [if_pos]
    by_cases hx : Passes (point.x / voxelSize)
    · by_cases hy : Passes (point.y / voxelSize)
      · have hz : ¬ Passes (point.z / voxelSize) := fun hz => hrefused ⟨hx, hy, hz⟩
        rcases round_of_not_passes hz with h | h <;> simp [h]
      · rcases round_of_not_passes hy with h | h <;> simp [h]
    · rcases round_of_not_passes hx with h | h <;> simp [h]

/-- Where the guard lets a quotient at the limit through. -/
def PassesAtLimit (point : Vector3 K) (voxelSize : K) : Prop :=
  (Passes (point.x / voxelSize) ∧ Passes (point.y / voxelSize) ∧ Passes (point.z / voxelSize)) ∧
    (AtLimit (point.x / voxelSize) ∨ AtLimit (point.y / voxelSize) ∨ AtLimit (point.z / voxelSize))

theorem not_keysRepresentable (hP : P.Ieee) (hsize : 0 < voxelSize)
    (h : PassesAtLimit point voxelSize) : ¬ KeysRepresentable P point voxelSize := by
  obtain ⟨hpasses, hlimit⟩ := h
  rintro ⟨hcasts, -⟩
  obtain ⟨hx, hy, hz⟩ := hcasts _ ((makeVoxelKey_eq hP point hsize).1 hpasses)
  rw [hP.quotient _ _ hsize.ne'] at hx hy hz
  obtain ⟨hpx, hpy, hpz⟩ := hpasses
  rcases hlimit with hlimit | hlimit | hlimit
  · exact not_representable_of_atLimit hpx hlimit hx.representable
  · exact not_representable_of_atLimit hpy hlimit hy.representable
  · exact not_representable_of_atLimit hpz hlimit hz.representable

theorem keysRepresentable_of_not (hP : P.Ieee) (hsize : 0 < voxelSize)
    (h : ¬ PassesAtLimit point voxelSize) : KeysRepresentable P point voxelSize := by
  obtain ⟨hsome, hnone⟩ := makeVoxelKey_eq hP point hsize
  by_cases hpasses : Passes (point.x / voxelSize) ∧ Passes (point.y / voxelSize) ∧
      Passes (point.z / voxelSize)
  · have hshort : ¬ (AtLimit (point.x / voxelSize) ∨ AtLimit (point.y / voxelSize) ∨
        AtLimit (point.z / voxelSize)) := fun hlimit => h ⟨hpasses, hlimit⟩
    rw [not_or, not_or] at hshort
    have hx := castsTo_of_passes hpasses.1 hshort.1
    have hy := castsTo_of_passes hpasses.2.1 hshort.2.1
    have hz := castsTo_of_passes hpasses.2.2 hshort.2.2
    rw [KeysRepresentable, hP.quotient _ _ hsize.ne', hP.quotient _ _ hsize.ne',
      hP.quotient _ _ hsize.ne']
    constructor
    · intro key hkey
      obtain rfl := Option.some.inj ((hsome hpasses).symm.trans hkey)
      exact ⟨hx, hy, hz⟩
    · intro hout
      exact absurd ⟨hx.representable, hy.representable, hz.representable⟩ hout
  · refine ⟨fun key hkey => ?_, fun _ => hnone hpasses⟩
    rw [hnone hpasses] at hkey
    cases hkey

/-- Keys are representable, unless the guard lets a quotient at the limit through. -/
theorem keysRepresentable_iff (P : Platform K) (hP : P.Ieee) (point : Vector3 K) (voxelSize : K)
    (hsize : 0 < voxelSize) :
    KeysRepresentable P point voxelSize ↔ ¬ PassesAtLimit point voxelSize := by
  constructor
  · intro hkeys hlimit
    exact not_keysRepresentable hP hsize hlimit hkeys
  · exact keysRepresentable_of_not hP hsize

/-- Double precision, over the rational numbers. -/
def ieeePlatform : Platform ℚ where
  transformPoint _ v := ⟨.finite v.x, .finite v.y, .finite v.z⟩
  quotient x y := Binary64.round (x / y)
  ofInt64 n := (Binary64.round (n.toInt : ℚ)).value
  narrow _ := 0

theorem ieeePlatform_ieee : ieeePlatform.Ieee where
  quotient _ _ _ := rfl
  ofInt64 n := by
    have hlow := Int64.le_toInt n
    have hhigh := Int64.toInt_lt n
    have hpasses : Passes (n.toInt : ℚ) := by
      have hlow' : ((-2 ^ 63 : ℤ) : ℚ) ≤ n.toInt := by exact_mod_cast hlow
      have hhigh' : (n.toInt : ℚ) < ((2 ^ 63 : ℤ) : ℚ) := by exact_mod_cast hhigh
      push_cast at hlow' hhigh'
      constructor <;> linarith
    obtain ⟨r, hr, -⟩ := round_of_passes hpasses
    show Double.finite (Binary64.round (n.toInt : ℚ)).value = Binary64.round (n.toInt : ℚ)
    rw [hr]
    rfl

/-- The point `2 ^ 63`, in voxels of one metre, has a key, and no cast to make it of. -/
theorem voxelKey_at_limit :
    ieeePlatform.Ieee ∧ floor (ieeePlatform.quotient (2 ^ 63) 1) = .finite (2 ^ 63) ∧
      (makeVoxelKey ieeePlatform ⟨2 ^ 63, 0, 0⟩ 1).isSome = true ∧
      ¬ KeysRepresentable ieeePlatform ⟨2 ^ 63, 0, 0⟩ 1 := by
  refine ⟨ieeePlatform_ieee, by decide +kernel, by decide +kernel, ?_⟩
  apply not_keysRepresentable ieeePlatform_ieee one_pos
  unfold PassesAtLimit Passes AtLimit
  norm_num

theorem keysRepresentable_iff_near : KeysRepresentable ieeePlatform ⟨1, -2, 3 / 2⟩ (1 / 20) := by
  refine (keysRepresentable_iff ieeePlatform ieeePlatform_ieee ⟨1, -2, 3 / 2⟩ (1 / 20)
    (by norm_num)).mpr ?_
  unfold PassesAtLimit AtLimit
  norm_num

end X2Navigation.PointCloudVoxelFilter
