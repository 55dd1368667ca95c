import X2Navigation.Cloud.UniformSampling

/-! The voxel filter reads untrusted clouds in bounds. The filter is given a second time,
with every operation on sizes and every access to the data checked as it is made; what is
behind a short circuit is not evaluated. No check ever fails. -/

namespace X2Navigation.PointCloudVoxelFilter

open Checked

/-! ### The checked filter -/

def hasValidLayout? (cloud : PointCloud2) : Option Bool :=
  if cloud.isBigendian then some false
  else if cloud.height = 0 ∨ cloud.width = 0 then some true
  else if cloud.pointStep = 0 then some false
  else do
    let widest ← div32? 4294967295 cloud.pointStep
    if widest < cloud.width then some false
    else do
      let rowSize ← mul32? cloud.width cloud.pointStep
      if cloud.rowStep < rowSize then some false
      else do
        let highest ← div? 18446744073709551615 cloud.rowStep.toUInt64
        if highest < cloud.height.toUInt64 then some false
        else do
          let requiredSize ← mul? cloud.height.toUInt64 cloud.rowStep.toUInt64
          some (decide (requiredSize.toNat ≤ cloud.data.length))

/-- The outer `none` is a check that fails. -/
def findFloat32Field? (cloud : PointCloud2) (name : String) : Option (Option UInt32) :=
  match cloud.fields.find? (·.name = name) with
  | none => some none
  | some field =>
    if field.datatype ≠ PointField.FLOAT32 ∨ field.count ≠ 1 then some none
    else do
      let last ← sub? cloud.pointStep.toUInt64 4
      if last < field.offset.toUInt64 then some none else some (some field.offset)

def getPointFieldOffsets? (cloud : PointCloud2) : Option (Option PointFieldOffsets) :=
  if cloud.pointStep.toUInt64 < 12 then some none
  else do
    let some x ← findFloat32Field? cloud "x" | some none
    let some y ← findFloat32Field? cloud "y" | some none
    let some z ← findFloat32Field? cloud "z" | some none
    some (some ⟨x, y, z⟩)

def Sampling.start? (inputPointCount sampledPointCount : UInt64) : Option Sampling := do
  let nextSampleIndex ←
    (if sampledPointCount = 1 then (sub? inputPointCount 1).bind (div? · 2) else some 0)
  let sampleIntervalCount ← (if 1 < sampledPointCount then sub? sampledPointCount 1 else some 1)
  let sampleSpan ← sub? inputPointCount 1
  let baseSampleInterval ← div? sampleSpan sampleIntervalCount
  let sampleIntervalRemainder ← mod? sampleSpan sampleIntervalCount
  some ⟨sampledPointCount, sampleIntervalCount, baseSampleInterval, sampleIntervalRemainder, 0,
    nextSampleIndex, 0⟩

def Sampling.advance? (s : Sampling) : Option Sampling := do
  let visited ← add? s.samplesVisited 1
  if visited < s.sampledPointCount then do
    let next ← add? s.nextSampleIndex s.baseSampleInterval
    let error ← add? s.sampleIntervalError s.sampleIntervalRemainder
    if s.sampleIntervalCount ≤ error then do
      let next ← add? next 1
      let error ← sub? error s.sampleIntervalCount
      some { s with
        nextSampleIndex := next, sampleIntervalError := error, samplesVisited := visited }
    else
      some { s with
        nextSampleIndex := next, sampleIntervalError := error, samplesVisited := visited }
  else some { s with samplesVisited := visited }

/-- The pointer to the record of a point. -/
def pointPosition? (input : PointCloud2) (inputIndex : UInt64) : Option UInt64 := do
  let row ← div? inputIndex input.width.toUInt64
  let column ← mod? inputIndex input.width.toUInt64
  let rowOffset ← mul? row input.rowStep.toUInt64
  let columnOffset ← mul? column input.pointStep.toUInt64
  let rowStart ← move? input.data.length 0 rowOffset
  move? input.data.length rowStart columnOffset

variable {K : Type*} [Field K] [LinearOrder K] [FloorRing K]

/-- `memcpy` of a `float`, byte by byte. -/
def loadFloat? (data : List UInt8) (position : UInt64) : Option (Double K) :=
  data[position.toNat]?.bind fun b0 =>
  data[position.toNat + 1]?.bind fun b1 =>
  data[position.toNat + 2]?.bind fun b2 =>
  data[position.toNat + 3]?.bind fun b3 =>
  some (binary32 (littleEndian b0 b1 b2 b3))

def readFloat? (data : List UInt8) (pointData : UInt64) (offset : UInt32) : Option (Double K) :=
  (move? data.length pointData offset.toUInt64).bind fun position => loadFloat? data position

def readPoint? (input : PointCloud2) (offsets : PointFieldOffsets) (inputIndex : UInt64) :
    Option (Vector3 (Double K)) :=
  (pointPosition? input inputIndex).bind fun pointData =>
  (readFloat? input.data pointData offsets.x).bind fun x =>
  (readFloat? input.data pointData offsets.y).bind fun y =>
  (readFloat? input.data pointData offsets.z).bind fun z =>
  some ⟨x, y, z⟩

variable (P : Platform K)

/-- The loop. What is done with the point that has been read needs no sizes. -/
def sampleLoop? (r : Request K) (offsets : PointFieldOffsets) :
    ℕ → Sampling → Workspace K → Option (Workspace K)
  | 0, _, w => some w
  | n + 1, s, w =>
    s.advance?.bind fun next =>
    (readPoint? r.input offsets s.nextSampleIndex).bind fun source =>
    sampleLoop? r offsets n next (visitPoint P r w source)

def publish? (outputHeader : Header) (inputPointCount sampledPointCount : UInt64)
    (voxels : List (VoxelAccumulator K)) : Option Result :=
  (mul32? (UInt32.ofNat voxels.length) (makeEmptyCloud outputHeader).pointStep).map
    (publishRow P outputHeader inputPointCount sampledPointCount voxels)

def filter? (r : Request K) (w : Workspace K) : Option (Option Result × Workspace K) :=
  if !r.config.valid then some (none, w)
  else
    (hasValidLayout? r.input).bind fun validLayout =>
    if !validLayout then some (none, w)
    else
      (getPointFieldOffsets? r.input).bind fun
      | none => some (none, w)
      | some offsets =>
        (mul? r.input.width.toUInt64 r.input.height.toUInt64).bind fun inputPointCount =>
        if inputPointCount = 0 then some (some ⟨makeEmptyCloud r.outputHeader, 0, 0, 0⟩, w)
        else
          let sampledPointCount := sampleCount inputPointCount r.config.maxInputPoints
          let w := { w with voxelIndices := [], voxels := [], initialCapacityReserved := true }
          (Sampling.start? inputPointCount sampledPointCount).bind fun s =>
          (sampleLoop? P r offsets sampledPointCount.toNat s w).bind fun w =>
          if 4294967295 / 12 < w.voxels.length then some (none, w)
          else
            (publish? P r.outputHeader inputPointCount sampledPointCount w.voxels).map fun result =>
              (some result, w)

/-! ### Layouts -/

/-- A cloud with points that has passed the checks. -/
structure Accepted (cloud : PointCloud2) : Prop where
  pointStep : cloud.pointStep ≠ 0
  width : cloud.width ≠ 0
  height : cloud.height ≠ 0
  rowStep : cloud.rowStep ≠ 0
  row : cloud.width.toNat * cloud.pointStep.toNat ≤ cloud.rowStep.toNat
  fits : cloud.height.toNat * cloud.rowStep.toNat < 2 ^ 64
  data : cloud.height.toNat * cloud.rowStep.toNat ≤ cloud.data.length

section Layout
variable {cloud : PointCloud2}

theorem row_fits (hwidth : cloud.width ≠ 0) (hpointStep : cloud.pointStep ≠ 0)
    (hproduct : ¬4294967295 / cloud.pointStep < cloud.width)
    (hrow : ¬cloud.rowStep < cloud.width * cloud.pointStep) :
    cloud.width.toNat * cloud.pointStep.toNat ≤ cloud.rowStep.toNat ∧ cloud.rowStep ≠ 0 := by
  have hlt := mul_lt_of_le_div (UInt32.not_lt.mp hproduct)
  have hle := UInt32.le_iff_toNat_le.mp (UInt32.not_lt.mp hrow)
  rw [toNat_mul32 hlt] at hle
  refine ⟨hle, ?_⟩
  intro hzero
  have hpos := Nat.mul_pos (pos32_of_ne_zero hwidth) (pos32_of_ne_zero hpointStep)
  rw [hzero] at hle
  exact absurd hle (Nat.not_le.mpr hpos)

theorem toUInt64_ne_zero {a : UInt32} (h : a ≠ 0) : a.toUInt64 ≠ 0 := by
  intro hzero
  have hpos := pos32_of_ne_zero h
  have heq := congrArg UInt64.toNat hzero
  rw [UInt32.toNat_toUInt64] at heq
  exact absurd heq hpos.ne'

theorem hasValidLayout_eq (cloud : PointCloud2) :
    hasValidLayout? cloud = some (hasValidLayout cloud) := by
  unfold hasValidLayout? hasValidLayout
  split
  · rfl
  split
  · rfl
  next hpoints =>
  rw [not_or] at hpoints
  split
  · rfl
  next hpointStep =>
  rw [div32_eq hpointStep]
  dsimp only [Option.bind_eq_bind, Option.bind_some]
  split
  · next hproduct => rw [if_pos (Or.inl hproduct)]
  next hproduct =>
  rw [mul32_eq (mul_lt_of_le_div (UInt32.not_lt.mp hproduct)), Option.bind_some]
  split
  · next hrow => rw [if_pos (Or.inr (Or.inl hrow))]
  next hrow =>
  have hrowStep := (row_fits hpoints.2 hpointStep hproduct hrow).2
  rw [div_eq (toUInt64_ne_zero hrowStep), Option.bind_some]
  split
  · next hheight => rw [if_pos (Or.inr (Or.inr hheight))]
  next hheight =>
  rw [if_neg (by simp only [hproduct, hrow, hheight, or_self, not_false_eq_true])]
  rw [mul_eq (product_lt _ _), Option.bind_some]

theorem accepted (h : hasValidLayout cloud = true) (hheight : cloud.height ≠ 0)
    (hwidth : cloud.width ≠ 0) : Accepted cloud := by
  unfold hasValidLayout at h
  split at h
  · cases h
  rw [if_neg (not_or.mpr ⟨hheight, hwidth⟩)] at h
  split at h
  · cases h
  next hpointStep =>
  split at h
  · cases h
  next hchecks =>
  simp only [not_or] at hchecks
  obtain ⟨hrow, hrowStep⟩ := row_fits hwidth hpointStep hchecks.1 hchecks.2.1
  have hfits := product_lt cloud.height cloud.rowStep
  have hdata : (cloud.height.toUInt64 * cloud.rowStep.toUInt64).toNat ≤ cloud.data.length :=
    of_decide_eq_true h
  rw [toNat_mul hfits] at hdata
  rw [UInt32.toNat_toUInt64, UInt32.toNat_toUInt64] at hfits hdata
  exact ⟨hpointStep, hwidth, hheight, hrowStep, hrow, hfits, hdata⟩

/-! ### Fields -/

theorem le_pointStep (h : ¬cloud.pointStep.toUInt64 < 12) : 4 ≤ cloud.pointStep.toUInt64 := by
  rw [UInt64.not_lt, UInt64.le_iff_toNat_le] at h
  rw [UInt64.le_iff_toNat_le]
  exact Nat.le_trans (by decide) h

theorem findFloat32Field_eq (name : String) (h : ¬cloud.pointStep.toUInt64 < 12) :
    findFloat32Field? cloud name = some (findFloat32Field cloud name) := by
  unfold findFloat32Field? findFloat32Field
  cases cloud.fields.find? (·.name = name) with
  | none => rfl
  | some field =>
    dsimp only
    split
    · next htype => rw [if_pos (by tauto)]
    next htype =>
    rw [not_or] at htype
    rw [sub_eq (le_pointStep h), Option.bind_eq_bind, Option.bind_some]
    split
    · next hlast => rw [if_pos (Or.inr (Or.inr hlast))]
    · next hlast => rw [if_neg (by tauto)]

theorem getPointFieldOffsets_eq (cloud : PointCloud2) :
    getPointFieldOffsets? cloud = some (getPointFieldOffsets cloud) := by
  unfold getPointFieldOffsets? getPointFieldOffsets
  split
  · rfl
  next hstep =>
  rw [findFloat32Field_eq "x" hstep, findFloat32Field_eq "y" hstep, findFloat32Field_eq "z" hstep]
  cases findFloat32Field cloud "x" with
  | none => rfl
  | some x =>
    cases findFloat32Field cloud "y" with
    | none => rfl
    | some y =>
      cases findFloat32Field cloud "z" with
      | none => rfl
      | some z => rfl

/-- A field that has been found lies in the record. -/
theorem findFloat32Field_fits {name : String} {offset : UInt32}
    (h : ¬cloud.pointStep.toUInt64 < 12) (hfound : findFloat32Field cloud name = some offset) :
    offset.toNat + 4 ≤ cloud.pointStep.toNat := by
  have hle := le_pointStep h
  unfold findFloat32Field at hfound
  split at hfound
  · cases hfound
  split at hfound
  · cases hfound
  next hchecks =>
  obtain rfl := Option.some.inj hfound
  simp only [not_or] at hchecks
  have hlast := UInt64.le_iff_toNat_le.mp (UInt64.not_lt.mp hchecks.2.2)
  rw [UInt64.toNat_sub_of_le _ _ hle] at hlast
  rw [UInt64.le_iff_toNat_le] at hle
  rw [UInt32.toNat_toUInt64] at hlast hle
  have hfour : (4 : UInt64).toNat = 4 := rfl
  rw [UInt32.toNat_toUInt64] at hlast
  omega

structure PointFieldOffsets.Fit (offsets : PointFieldOffsets) (pointStep : ℕ) : Prop where
  x : offsets.x.toNat + 4 ≤ pointStep
  y : offsets.y.toNat + 4 ≤ pointStep
  z : offsets.z.toNat + 4 ≤ pointStep

theorem getPointFieldOffsets_fit {offsets : PointFieldOffsets}
    (h : getPointFieldOffsets cloud = some offsets) : offsets.Fit cloud.pointStep.toNat := by
  unfold getPointFieldOffsets at h
  split at h
  · cases h
  next hstep =>
  split at h
  · next x y z hx hy hz =>
    obtain rfl := Option.some.inj h
    exact ⟨findFloat32Field_fits hstep hx, findFloat32Field_fits hstep hy,
      findFloat32Field_fits hstep hz⟩
  · cases h

/-! ### Sizes that are accepted -/

theorem hasValidLayout_of (hendian : cloud.isBigendian = false) (hpointStep : cloud.pointStep ≠ 0)
    (hproduct : cloud.width.toNat * cloud.pointStep.toNat < 2 ^ 32)
    (hrow : cloud.width.toNat * cloud.pointStep.toNat ≤ cloud.rowStep.toNat)
    (hdata : cloud.height.toNat * cloud.rowStep.toNat ≤ cloud.data.length) :
    hasValidLayout cloud = true := by
  unfold hasValidLayout
  rw [if_neg (by rw [hendian]; decide)]
  split
  · rfl
  next hpoints =>
  rw [not_or] at hpoints
  have hstep := pos32_of_ne_zero hpointStep
  have hfirst : ¬4294967295 / cloud.pointStep < cloud.width := by
    rw [UInt32.not_lt, UInt32.le_iff_toNat_le, UInt32.toNat_div, Nat.le_div_iff_mul_le hstep]
    exact Nat.le_of_lt_succ hproduct
  have hsecond : ¬cloud.rowStep < cloud.width * cloud.pointStep := by
    rw [UInt32.not_lt, UInt32.le_iff_toNat_le, toNat_mul32 hproduct]
    exact hrow
  have hpos : 0 < cloud.rowStep.toNat :=
    pos32_of_ne_zero (row_fits hpoints.2 hpointStep hfirst hsecond).2
  have hthird : ¬18446744073709551615 / cloud.rowStep.toUInt64 < cloud.height.toUInt64 := by
    have hfits := product_lt cloud.height cloud.rowStep
    rw [UInt32.toNat_toUInt64, UInt32.toNat_toUInt64] at hfits
    rw [UInt64.not_lt, UInt64.le_iff_toNat_le, UInt64.toNat_div, UInt32.toNat_toUInt64,
      UInt32.toNat_toUInt64, Nat.le_div_iff_mul_le hpos]
    exact Nat.le_of_lt_succ hfits
  rw [if_neg (by simp only [hfirst, hsecond, hthird, or_self, not_false_eq_true])]
  dsimp only
  rw [decide_eq_true_eq, toNat_mul (product_lt _ _), UInt32.toNat_toUInt64, UInt32.toNat_toUInt64]
  exact hdata

end Layout

/-! ### Sampling -/

theorem Sampling.start_eq {n m : UInt64} (hn : n ≠ 0) : start? n m = some (start n m) := by
  have hle : 1 ≤ n := UInt64.le_iff_toNat_le.mpr (pos_of_ne_zero hn)
  have hfirst : (if m = 1 then (sub? n 1).bind (div? · 2) else some 0) =
      some (if m = 1 then (n - 1) / 2 else 0) := by
    split
    · rw [sub_eq hle, Option.bind_some, div_eq (by decide)]
    · rfl
  have hcount : (if 1 < m then sub? m 1 else some 1) = some (if 1 < m then m - 1 else 1) := by
    split
    · next hlt => rw [sub_eq (UInt64.le_of_lt hlt)]
    · rfl
  have hne : (if 1 < m then m - 1 else 1) ≠ 0 := by
    split
    · next hlt =>
      intro hzero
      have heq := congrArg UInt64.toNat hzero
      rw [UInt64.toNat_sub_of_le _ _ (UInt64.le_of_lt hlt)] at heq
      rw [UInt64.lt_iff_toNat_lt] at hlt
      simp only [UInt64.toNat_zero] at heq
      omega
    · decide
  unfold Sampling.start? Sampling.start
  rw [hfirst, hcount]
  simp only [Option.bind_eq_bind, Option.bind_some, sub_eq hle, div_eq hne, mod_eq hne]

theorem Sampling.Exact.advance_eq {s : Sampling} (h : s.Exact) : s.advance? = some s.advance := by
  have hvisited : add? s.samplesVisited 1 = some (s.samplesVisited + 1) := add_eq h.visited
  unfold Sampling.advance? Sampling.advance
  rw [hvisited]
  dsimp only [Option.bind_eq_bind, Option.bind_some]
  split
  · next hmore =>
    have hindex := h.index hmore
    rw [add_eq (by omega), Option.bind_some, add_eq (h.error hmore), Option.bind_some]
    split
    · next hmake =>
      have hlt : (s.nextSampleIndex + s.baseSampleInterval).toNat + (1 : UInt64).toNat < 2 ^ 64 := by
        rw [toNat_add (by omega)]
        exact hindex
      rw [add_eq hlt, Option.bind_some, sub_eq hmake, Option.bind_some]
    · rfl
  · rfl

/-! ### Reading -/

section Reading
variable {input : PointCloud2} {offsets : PointFieldOffsets} {i : UInt64}

/-- The record of a point ends inside its row, and the row inside the buffer. -/
theorem record_le {width height pointStep rowStep i : ℕ} (hi : i < width * height)
    (hrow : width * pointStep ≤ rowStep) :
    i / width * rowStep + i % width * pointStep + pointStep ≤ height * rowStep := by
  have hwidth : 0 < width := Nat.pos_of_mul_pos_right (Nat.zero_lt_of_lt hi)
  exact cell_le (Nat.div_lt_of_lt_mul hi) (Nat.mod_lt _ hwidth) hrow

theorem pointPosition_eq (h : Accepted input)
    (hi : i.toNat < input.width.toNat * input.height.toNat) :
    pointPosition? input i = some (pointPosition input i) ∧
      (pointPosition input i).toNat + input.pointStep.toNat ≤
        input.height.toNat * input.rowStep.toNat := by
  have hrecord := record_le hi h.row
  have hfits := h.fits
  have hdata := h.data
  have hwidth := toUInt64_ne_zero h.width
  have hline : (i / input.width.toUInt64).toNat * input.rowStep.toUInt64.toNat =
      i.toNat / input.width.toNat * input.rowStep.toNat := by
    rw [UInt64.toNat_div, UInt32.toNat_toUInt64, UInt32.toNat_toUInt64]
  have hcolumn : (i % input.width.toUInt64).toNat * input.pointStep.toUInt64.toNat =
      i.toNat % input.width.toNat * input.pointStep.toNat := by
    rw [UInt64.toNat_mod, UInt32.toNat_toUInt64, UInt32.toNat_toUInt64]
  have hrow : (i / input.width.toUInt64 * input.rowStep.toUInt64).toNat =
      i.toNat / input.width.toNat * input.rowStep.toNat := by
    rw [toNat_mul (by omega), hline]
  have hoffset : (i % input.width.toUInt64 * input.pointStep.toUInt64).toNat =
      i.toNat % input.width.toNat * input.pointStep.toNat := by
    rw [toNat_mul (by omega), hcolumn]
  constructor
  · unfold pointPosition? pointPosition
    rw [div_eq hwidth, mod_eq hwidth]
    dsimp only [Option.bind_eq_bind, Option.bind_some]
    rw [mul_eq (by omega), Option.bind_some, mul_eq (by omega), Option.bind_some]
    rw [move_eq (by simp only [UInt64.toNat_zero]; omega) (by simp only [UInt64.toNat_zero]; omega)]
    rw [Option.bind_some, UInt64.zero_add, move_eq (by omega) (by omega)]
  · unfold pointPosition
    dsimp only
    rw [toNat_add (by omega), hrow, hoffset]
    exact hrecord

omit [LinearOrder K] [FloorRing K] in
theorem loadFloat_eq {data : List UInt8} {position : UInt64} (h : position.toNat + 4 ≤ data.length) :
    loadFloat? (K := K) data position = some (readFloat data position) := by
  have hbyte : ∀ i < 4, data[position.toNat + i]? = some (data.getD (position.toNat + i) 0) := by
    intro i hi
    rw [List.getD_eq_getElem?_getD, List.getElem?_eq_getElem (by omega), Option.getD_some]
  have h0 := hbyte 0 (by decide)
  rw [Nat.add_zero] at h0
  unfold loadFloat? readFloat
  rw [h0, hbyte 1 (by decide), hbyte 2 (by decide), hbyte 3 (by decide)]
  rfl

omit [LinearOrder K] [FloorRing K] in
theorem readFloat_eq {data : List UInt8} {pointData : UInt64} {offset : UInt32} {pointStep : ℕ}
    (hfits : pointData.toNat + pointStep < 2 ^ 64)
    (hdata : pointData.toNat + pointStep ≤ data.length) (hoffset : offset.toNat + 4 ≤ pointStep) :
    readFloat? (K := K) data pointData offset =
      some (readFloat data (pointData + offset.toUInt64)) := by
  have hlt : pointData.toNat + offset.toUInt64.toNat < 2 ^ 64 := by
    rw [UInt32.toNat_toUInt64]
    omega
  have hposition := toNat_add hlt
  rw [UInt32.toNat_toUInt64] at hlt hposition
  unfold readFloat?
  rw [move_eq (by rw [UInt32.toNat_toUInt64]; omega) (by rw [UInt32.toNat_toUInt64]; omega)]
  rw [Option.bind_some, loadFloat_eq (by omega)]

omit [LinearOrder K] [FloorRing K] in
theorem readPoint_eq (h : Accepted input) (hoffsets : offsets.Fit input.pointStep.toNat)
    (hi : i.toNat < input.width.toNat * input.height.toNat) :
    readPoint? (K := K) input offsets i = some (readPoint input offsets i) := by
  obtain ⟨hposition, hend⟩ := pointPosition_eq h hi
  have hfits := Nat.lt_of_le_of_lt hend h.fits
  have hdata := Nat.le_trans hend h.data
  unfold readPoint? readPoint
  rw [hposition, Option.bind_some, readFloat_eq hfits hdata hoffsets.x, Option.bind_some]
  rw [readFloat_eq hfits hdata hoffsets.y, Option.bind_some]
  rw [readFloat_eq hfits hdata hoffsets.z, Option.bind_some]

end Reading

/-! ### The filter -/

theorem Uniform.lt {n m : ℕ} {indices : List ℕ} (h : Uniform n m indices) (hm : 0 < m)
    (hle : m ≤ n) : ∀ i ∈ indices, i < n := by
  intro i hi
  by_cases hone : m = 1
  · rw [h.middle hone, List.mem_singleton] at hi
    omega
  · rw [h.closed (by omega)] at hi
    obtain ⟨k, hk, rfl⟩ := List.mem_map.mp hi
    rw [List.mem_range] at hk
    have hbound : k * (n - 1) / (m - 1) ≤ n - 1 := by
      apply Nat.div_le_of_le_mul
      exact Nat.mul_le_mul_right _ (by omega)
    omega

theorem sampleLoop_eq {r : Request K} {offsets : PointFieldOffsets} (h : Accepted r.input)
    (hoffsets : offsets.Fit r.input.pointStep.toNat) (n : ℕ) (s : Sampling) (w : Workspace K)
    (hexact : ∀ s' ∈ s.states n, s'.Exact)
    (hindices : ∀ i ∈ s.indices n, i.toNat < r.input.width.toNat * r.input.height.toNat) :
    sampleLoop? P r offsets n s w = some (sampleLoop P r offsets n s w) := by
  induction n generalizing s w with
  | zero => rfl
  | succ n ih =>
    rw [Sampling.states, List.forall_mem_cons] at hexact
    rw [Sampling.indices, List.forall_mem_cons] at hindices
    rw [sampleLoop?, hexact.1.advance_eq, Option.bind_some]
    rw [readPoint_eq h hoffsets hindices.1, Option.bind_some]
    exact ih s.advance _ hexact.2 hindices.2

/-- The loop as it is started for a cloud with points. -/
theorem startedLoop_eq {r : Request K} {offsets : PointFieldOffsets} (w : Workspace K)
    (hlayout : hasValidLayout r.input = true)
    (hoffsets : getPointFieldOffsets r.input = some offsets)
    (hpoints : r.input.width.toUInt64 * r.input.height.toUInt64 ≠ 0)
    (hmax : r.config.maxInputPoints ≠ 0) :
    let n := r.input.width.toUInt64 * r.input.height.toUInt64
    let m := sampleCount n r.config.maxInputPoints
    sampleLoop? P r offsets m.toNat (.start n m) w =
      some (sampleLoop P r offsets m.toNat (.start n m) w) := by
  intro n m
  have hn : n.toNat = r.input.width.toNat * r.input.height.toNat := by
    have hcount := toNat_mul (product_lt r.input.width r.input.height)
    rwa [UInt32.toNat_toUInt64, UInt32.toNat_toUInt64] at hcount
  have hpos := pos_of_ne_zero hpoints
  have hwidth : r.input.width ≠ 0 := by
    intro hzero
    rw [hn, hzero, UInt32.toNat_zero, Nat.zero_mul] at hpos
    exact absurd hpos (Nat.lt_irrefl 0)
  have hheight : r.input.height ≠ 0 := by
    intro hzero
    rw [hn, hzero, UInt32.toNat_zero, Nat.mul_zero] at hpos
    exact absurd hpos (Nat.lt_irrefl 0)
  have hm : m.toNat = min n.toNat r.config.maxInputPoints.toNat := toNat_sampleCount _ _
  have hmaxpos := pos_of_ne_zero hmax
  have hnpos : 0 < n.toNat := hpos
  have hne : m ≠ 0 := by
    intro hzero
    rw [hzero, UInt64.toNat_zero] at hm
    omega
  obtain ⟨hexact, huniform⟩ := Sampling.uniform_start (n := n) hne (by omega)
  have haccepted := accepted hlayout hheight hwidth
  apply sampleLoop_eq P haccepted (getPointFieldOffsets_fit hoffsets) _ _ _ hexact
  intro i hi
  rw [← hn]
  exact huniform.lt (pos_of_ne_zero hne) (by omega) i.toNat (List.mem_map_of_mem hi)

omit [LinearOrder K] [FloorRing K] in
theorem publish_checked (outputHeader : Header) (n m : UInt64) {voxels : List (VoxelAccumulator K)}
    (h : voxels.length ≤ 4294967295 / 12) :
    publish? P outputHeader n m voxels = some (publish P outputHeader n m voxels) := by
  have hwidth : (UInt32.ofNat voxels.length).toNat = voxels.length :=
    UInt32.toNat_ofNat_of_lt' (by simp only [UInt32.size]; omega)
  have htwelve : (makeEmptyCloud outputHeader).pointStep.toNat = 12 := rfl
  unfold publish?
  rw [mul32_eq (by rw [hwidth, htwelve]; omega), Option.map_some, publish]

omit [FloorRing K] in
theorem Config.valid_maxInputPoints {config : Config K} (h : config.valid = true) :
    config.maxInputPoints ≠ 0 := by
  simp only [Config.valid, Bool.and_eq_true, decide_eq_true_eq] at h
  exact h.2

theorem filter_eq (r : Request K) (w : Workspace K) : filter? P r w = some (filter P r w) := by
  unfold filter? filter
  cases hconfig : r.config.valid with
  | false => rfl
  | true =>
    rw [hasValidLayout_eq]
    cases hlayout : hasValidLayout r.input with
    | false => rfl
    | true =>
      rw [getPointFieldOffsets_eq]
      cases hoffsets : getPointFieldOffsets r.input with
      | none => rfl
      | some offsets =>
        have haccepted : ¬(!true) = true := by decide
        have haccepted' : ¬(!true || !true) = true := by decide
        dsimp only [Option.bind_some]
        rw [if_neg haccepted, if_neg haccepted, if_neg haccepted', mul_eq (product_lt _ _),
          Option.bind_some]
        split
        · rfl
        next hpoints =>
        have hloop := startedLoop_eq P w.cleared hlayout hoffsets hpoints
          (Config.valid_maxInputPoints hconfig)
        unfold Workspace.cleared at hloop
        rw [Sampling.start_eq hpoints, Option.bind_some, hloop, Option.bind_some]
        split
        · rfl
        next hfits => rw [publish_checked P _ _ _ (Nat.not_lt.mp hfits), Option.map_some]

/-! ### The output -/

theorem hasValidLayout_makeEmptyCloud (header : Header) :
    hasValidLayout (makeEmptyCloud header) = true := rfl

omit [LinearOrder K] [FloorRing K] in
theorem hasValidLayout_publish (header : Header) (n m : UInt64) {voxels : List (VoxelAccumulator K)}
    (h : voxels.length ≤ 4294967295 / 12) :
    hasValidLayout (publish P header n m voxels).cloud = true := by
  obtain ⟨hwidth, hrow, -, hcloud⟩ := publish_eq P header n m voxels h
  have htwelve : (12 : UInt32).toNat = 12 := rfl
  have hdata : (publish P header n m voxels).cloud.data.length = 12 * voxels.length := by
    rw [hcloud]
    exact (length_records P _).trans (by rw [List.length_map])
  have hproduct : (publish P header n m voxels).cloud.width.toNat *
      (publish P header n m voxels).cloud.pointStep.toNat = 12 * voxels.length := by
    rw [hwidth, Nat.mul_comm]
    rfl
  apply hasValidLayout_of
  · rfl
  · exact (by decide : (12 : UInt32) ≠ 0)
  · rw [hproduct]
    omega
  · rw [hproduct, hrow]
  · rw [hrow, hdata]
    exact Nat.le_of_eq (Nat.one_mul _)

/-- The fields of every cloud that is published. -/
theorem getPointFieldOffsets_output {cloud : PointCloud2} (header : Header)
    (hfields : cloud.fields = (makeEmptyCloud header).fields) (hstep : cloud.pointStep = 12) :
    getPointFieldOffsets cloud = some ⟨0, 4, 8⟩ := by
  have hfits : ∀ offset : UInt32, offset ≤ 8 → ¬cloud.pointStep.toUInt64 - 4 < offset.toUInt64 := by
    intro offset hle
    rw [UInt32.le_iff_toNat_le] at hle
    rw [hstep, UInt64.not_lt, UInt64.le_iff_toNat_le, UInt32.toNat_toUInt64]
    exact hle
  have hx := hfits 0 (by decide)
  have hy := hfits 4 (by decide)
  have hz := hfits 8 (by decide)
  have hwide : ¬cloud.pointStep.toUInt64 < 12 := by
    rw [hstep]
    decide
  simp only [getPointFieldOffsets, if_neg hwide, findFloat32Field, hfields, makeEmptyCloud,
    makeField, List.find?, decide_true, String.reduceEq, decide_false, hx, hy, hz, ne_eq,
    not_true_eq_false, or_self, if_false]

theorem filter_readable {r : Request K} {w : Workspace K} {result : Result}
    (h : (filter P r w).1 = some result) :
    hasValidLayout result.cloud = true ∧ (getPointFieldOffsets result.cloud).isSome = true := by
  obtain ⟨-, -, offsets, -, ⟨-, rfl⟩ | ⟨-, hfits, rfl⟩⟩ := filter_cases h
  · refine ⟨hasValidLayout_makeEmptyCloud r.outputHeader, ?_⟩
    exact Option.isSome_of_eq_some (getPointFieldOffsets_output r.outputHeader rfl rfl)
  · refine ⟨hasValidLayout_publish P _ _ _ hfits, ?_⟩
    exact Option.isSome_of_eq_some (getPointFieldOffsets_output r.outputHeader rfl rfl)

/-- No check fails, for any cloud and any configuration, and what is published passes the
checks of the input. -/
theorem filter_inBounds (r : Request K) (w : Workspace K) :
    filter? P r w = some (filter P r w) ∧ ∀ result, (filter P r w).1 = some result →
      hasValidLayout result.cloud = true ∧ (getPointFieldOffsets result.cloud).isSome = true :=
  ⟨filter_eq P r w, fun _ => filter_readable P⟩

theorem filter_inBounds_sample : ∃ result,
    filter? samplePlatform sampleRequest .new =
        some (some result, (filter samplePlatform sampleRequest .new).2) ∧
      hasValidLayout result.cloud = true ∧ (getPointFieldOffsets result.cloud).isSome = true := by
  obtain ⟨hchecked, hreadable⟩ := filter_inBounds samplePlatform sampleRequest .new
  obtain ⟨result, h⟩ : ∃ result, (filter samplePlatform sampleRequest .new).1 = some result :=
    Option.isSome_iff_exists.mp (by decide +kernel)
  refine ⟨result, ?_, hreadable result h⟩
  rw [hchecked, ← h]

end X2Navigation.PointCloudVoxelFilter
