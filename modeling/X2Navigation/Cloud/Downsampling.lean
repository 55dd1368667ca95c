import Mathlib.Algebra.Order.Floor.Ring
import Mathlib.Data.Rat.Floor
import Mathlib.Tactic.FieldSimp
import Mathlib.Tactic.Ring
import X2Navigation.Cloud.VoxelFilter

/-! What the voxel filter publishes, in exact arithmetic. The kept points of a
cloud are grouped by the voxel they lie in, and every group is replaced by its
mean. Neither the index map nor what earlier calls left in it shows. -/

namespace X2Navigation.PointCloudVoxelFilter

open Grouping

variable {K : Type*} [Field K] [LinearOrder K] [FloorRing K]

/-- Quotients and bounds that are not rounded. -/
def Platform.exact (transformPoint : Transform (Double K) → Vector3 K → Vector3 (Double K))
    (narrow : K → UInt32) : Platform K where
  transformPoint := transformPoint
  quotient x y := .finite (x / y)
  ofInt64 n := n.toInt
  narrow := narrow

/-! ### The specification -/

/-- The indices visited in `n` iterations. -/
def Sampling.indices : ℕ → Sampling → List UInt64
  | 0, _ => []
  | n + 1, s => s.nextSampleIndex :: Sampling.indices n s.advance

/-- The points of the input that are looked at. -/
def sampledPoints (r : Request K) (offsets : PointFieldOffsets) : List (Vector3 (Double K)) :=
  let inputPointCount := r.input.width.toUInt64 * r.input.height.toUInt64
  let sampledPointCount := sampleCount inputPointCount r.config.maxInputPoints
  ((Sampling.start inputPointCount sampledPointCount).indices sampledPointCount.toNat).map
    (readPoint r.input offsets)

variable (P : Platform K)

/-- A sample in the target frame, unless it is left out. -/
def keep (r : Request K) (source : Vector3 (Double K)) : Option (Vector3 K) :=
  let transformed := P.transformPoint r.targetFromSource.transform (value source)
  if allFinite source ∧ allFinite transformed ∧
      r.config.minHeight.value ≤ (value transformed).z ∧
      (value transformed).z ≤ r.config.maxHeight.value ∧
      (makeVoxelKey P (value transformed) r.config.voxelSize.value).isSome then
    some (value transformed)
  else none

def keptPoints (r : Request K) (offsets : PointFieldOffsets) : List (Vector3 K) :=
  (sampledPoints r offsets).filterMap (keep P r)

/-- The voxel a point lies in. -/
def voxelOf (voxelSize : K) (point : Vector3 K) : ℤ × ℤ × ℤ :=
  (⌊point.x / voxelSize⌋, ⌊point.y / voxelSize⌋, ⌊point.z / voxelSize⌋)

def mean (points : List (Vector3 K)) : Vector3 K :=
  ⟨(points.map Vector3.x).sum / points.length, (points.map Vector3.y).sum / points.length,
    (points.map Vector3.z).sum / points.length⟩

/-- The kept points of each occupied voxel, in order of first appearance. -/
def voxelGroups (r : Request K) (offsets : PointFieldOffsets) : List (List (Vector3 K)) :=
  groups (voxelOf r.config.voxelSize.value) (keptPoints P r offsets)

def outputPoints (r : Request K) (offsets : PointFieldOffsets) : List (Vector3 K) :=
  (voxelGroups P r offsets).map mean

/-- A result that is what the kept points call for. -/
structure Downsampled (r : Request K) (offsets : PointFieldOffsets) (result : Result) : Prop where
  /-- The cloud holds one point for each group, and nothing else. -/
  cloud : result.cloud =
    { makeEmptyCloud r.outputHeader with
      width := result.cloud.width
      rowStep := result.cloud.rowStep
      data := (outputPoints P r offsets).flatMap (pointRecord P) }
  width : result.cloud.width.toNat = (outputPoints P r offsets).length
  rowStep : result.cloud.rowStep.toNat = 12 * (outputPoints P r offsets).length
  dataSize : result.cloud.data.length = result.cloud.rowStep.toNat
  retained : result.retainedPointCount.toNat = (outputPoints P r offsets).length
  /-- Every output point lies in the voxel of its group, and no two in the same one. -/
  voxels : (outputPoints P r offsets).map (voxelOf r.config.voxelSize.value) =
    keys (voxelOf r.config.voxelSize.value) (keptPoints P r offsets)
  distinct : ((outputPoints P r offsets).map (voxelOf r.config.voxelSize.value)).Nodup
  band : ∀ point ∈ outputPoints P r offsets,
    r.config.minHeight.value ≤ point.z ∧ point.z ≤ r.config.maxHeight.value
  sizes : ((voxelGroups P r offsets).map List.length).sum = (keptPoints P r offsets).length

/-! ### The pass -/

theorem sampleLoop_eq_foldl (r : Request K) (offsets : PointFieldOffsets) (n : ℕ) (s : Sampling)
    (w : Workspace K) :
    sampleLoop P r offsets n s w = (s.indices n).foldl (visit P r offsets) w := by
  induction n generalizing s w with
  | zero => rfl
  | succ n ih => exact ih _ _

/-- The key that a point has, whether or not it is accepted. -/
def voxelKey (voxelSize : K) (point : Vector3 K) : VoxelKey :=
  ⟨toInt64 (floor (P.quotient point.x voxelSize)), toInt64 (floor (P.quotient point.y voxelSize)),
    toInt64 (floor (P.quotient point.z voxelSize))⟩

variable {P}

theorem eq_voxelKey {voxelSize : K} {point : Vector3 K} {key : VoxelKey}
    (h : makeVoxelKey P point voxelSize = some key) : key = voxelKey P voxelSize point := by
  unfold makeVoxelKey at h
  dsimp only at h
  split at h
  · simp at h
  · exact (Option.some.inj h).symm

section
variable {r : Request K} {offsets : PointFieldOffsets} {w : Workspace K} {i : UInt64}

theorem visit_of_none (h : keep P r (readPoint r.input offsets i) = none) :
    visit P r offsets w i = w := by
  unfold keep at h
  unfold visit visitPoint
  dsimp only at h ⊢
  split
  · rfl
  next hsource =>
  split
  · rfl
  next hpoint =>
  split
  · rfl
  next key hkey =>
  -- every test has been passed
  simp only [Bool.not_eq_true', Bool.not_eq_false, Bool.or_eq_true, decide_eq_true_eq, not_or,
    not_lt] at hsource hpoint
  rw [if_pos ⟨hsource, hpoint.1.1, hpoint.1.2, hpoint.2, by rw [hkey]; rfl⟩] at h
  cases h

theorem visit_of_some {point : Vector3 K} (h : keep P r (readPoint r.input offsets i) = some point) :
    visit P r offsets w i = accumulate w (voxelKey P r.config.voxelSize.value point) point := by
  unfold keep at h
  dsimp only at h
  split at h
  · next htests =>
    obtain ⟨hsource, htransformed, hmin, hmax, hkey⟩ := htests
    obtain ⟨key, hkey⟩ := Option.isSome_iff_exists.mp hkey
    obtain rfl := Option.some.inj h
    rw [← eq_voxelKey hkey]
    unfold visit visitPoint
    dsimp only
    rw [if_neg (by simp [hsource]), if_neg (by simp [htransformed, hmin, hmax]), hkey]
  · cases h

end

/-- Points that are left out leave no trace. -/
theorem foldl_visit (r : Request K) (offsets : PointFieldOffsets) (indices : List UInt64)
    (w : Workspace K) :
    indices.foldl (visit P r offsets) w =
      ((indices.map (readPoint r.input offsets)).filterMap (keep P r)).foldl
        (fun w point => accumulate w (voxelKey P r.config.voxelSize.value point) point) w := by
  induction indices generalizing w with
  | nil => rfl
  | cons i indices ih =>
    rw [List.foldl_cons, List.map_cons, List.filterMap_cons]
    cases h : keep P r (readPoint r.input offsets i) with
    | none => rw [visit_of_none h, ih]
    | some point => rw [visit_of_some h, ih, List.foldl_cons]

/-- The part of the workspace that the loop works on. -/
def Workspace.contents (w : Workspace K) : Slots VoxelKey (VoxelAccumulator K) :=
  ⟨w.voxelIndices, w.voxels⟩

omit [LinearOrder K] [FloorRing K] in
theorem contents_foldl (key : Vector3 K → VoxelKey) (points : List (Vector3 K)) (w : Workspace K) :
    (points.foldl (fun w point => accumulate w (key point) point) w).contents =
      points.foldl (collect key .empty .add) w.contents := by
  induction points generalizing w with
  | nil => rfl
  | cons point points ih =>
    rw [List.foldl_cons, List.foldl_cons, ih]
    rfl

/-- After the loop every group of keys has its accumulator. -/
theorem voxels_sampleLoop (r : Request K) (offsets : PointFieldOffsets) (w : Workspace K)
    (hw : w.contents = ⟨[], []⟩) :
    (sampleLoop P r offsets
        (sampleCount (r.input.width.toUInt64 * r.input.height.toUInt64) r.config.maxInputPoints).toNat
        (.start (r.input.width.toUInt64 * r.input.height.toUInt64)
          (sampleCount (r.input.width.toUInt64 * r.input.height.toUInt64)
            r.config.maxInputPoints)) w).voxels =
      (groups (voxelKey P r.config.voxelSize.value) (keptPoints P r offsets)).map
        (List.foldl .add .empty) := by
  have h := contents_foldl (voxelKey P r.config.voxelSize.value) (keptPoints P r offsets) w
  rw [hw, foldl_collect] at h
  rw [sampleLoop_eq_foldl, foldl_visit]
  exact congrArg Slots.slots h

/-! ### Voxels as whole numbers -/

/-- The numbers in a key. -/
def VoxelKey.toInts (key : VoxelKey) : ℤ × ℤ × ℤ := (key.x.toInt, key.y.toInt, key.z.toInt)

theorem toInts_injective : Function.Injective VoxelKey.toInts := by
  rintro ⟨x, y, z⟩ ⟨x', y', z'⟩ h
  simp only [VoxelKey.toInts, Prod.mk.injEq] at h
  obtain ⟨hx, hy, hz⟩ := h
  rw [Int64.toInt_inj.mp hx, Int64.toInt_inj.mp hy, Int64.toInt_inj.mp hz]

section Exact
variable [IsStrictOrderedRing K] {transformPoint : Transform (Double K) → Vector3 K → Vector3 (Double K)}
  {narrow : K → UInt32}

/-- A whole number between the bounds of the type survives the cast. -/
theorem toInt_toInt64 {x : K}
    (hmin : Double.numGT ((Int64.minValue.toInt : ℤ) : K) (floor (.finite x)) = false)
    (hmax : Double.numLT ((Int64.maxValue.toInt : ℤ) : K) (floor (.finite x)) = false) :
    (toInt64 (floor (.finite x))).toInt = ⌊x⌋ := by
  simp only [floor, Double.numGT, Double.numLT, decide_eq_false_iff_not, not_lt, Int.cast_le]
    at hmin hmax
  have hlow : -2 ^ 63 ≤ ⌊x⌋ := hmin
  have hhigh : ⌊x⌋ < 2 ^ 63 := Int.lt_add_one_of_le hmax
  rw [toInt64, floor, Double.value_finite, Int.floor_intCast]
  exact Int64.toInt_ofInt_of_le hlow hhigh

/-- The key of an accepted point says which voxel the point lies in. -/
theorem toInts_voxelKey {voxelSize : K} {point : Vector3 K}
    (h : (makeVoxelKey (.exact transformPoint narrow) point voxelSize).isSome = true) :
    (voxelKey (.exact transformPoint narrow) voxelSize point).toInts = voxelOf voxelSize point := by
  unfold makeVoxelKey at h
  dsimp only at h
  split at h
  · cases h
  next hrange =>
  simp only [Bool.or_eq_true, not_or, Bool.not_eq_true] at hrange
  obtain ⟨⟨⟨⟨⟨hx, hx'⟩, hy⟩, hy'⟩, hz⟩, hz'⟩ := hrange
  simp only [VoxelKey.toInts, voxelKey, voxelOf, Prod.mk.injEq]
  exact ⟨toInt_toInt64 hx hx', toInt_toInt64 hy hy', toInt_toInt64 hz hz'⟩

omit [IsStrictOrderedRing K] in
theorem mem_keptPoints {P : Platform K} {r : Request K} {offsets : PointFieldOffsets}
    {point : Vector3 K} (h : point ∈ keptPoints P r offsets) :
    r.config.minHeight.value ≤ point.z ∧ point.z ≤ r.config.maxHeight.value ∧
      (makeVoxelKey P point r.config.voxelSize.value).isSome = true := by
  obtain ⟨source, -, hkeep⟩ := List.mem_filterMap.mp h
  unfold keep at hkeep
  dsimp only at hkeep
  split at hkeep
  · next htests =>
    obtain rfl := Option.some.inj hkeep
    exact htests.2.2
  · cases hkeep

/-- Grouping by keys is grouping by voxels. -/
theorem groups_voxelKey (r : Request K) (offsets : PointFieldOffsets) :
    groups (voxelKey (.exact transformPoint narrow) r.config.voxelSize.value)
        (keptPoints (.exact transformPoint narrow) r offsets) =
      voxelGroups (.exact transformPoint narrow) r offsets := by
  rw [← groups_comp _ toInts_injective]
  exact groups_congr _ fun point hpoint => toInts_voxelKey (mem_keptPoints hpoint).2.2

end Exact

/-! ### Means -/

omit [LinearOrder K] [FloorRing K] in
theorem foldl_add (points : List (Vector3 K)) (voxel : VoxelAccumulator K) :
    points.foldl .add voxel =
      ⟨voxel.x + (points.map Vector3.x).sum, voxel.y + (points.map Vector3.y).sum,
        voxel.z + (points.map Vector3.z).sum, voxel.count + points.length⟩ := by
  induction points generalizing voxel with
  | nil => simp
  | cons point points ih =>
    rw [List.foldl_cons, ih]
    simp only [VoxelAccumulator.add, List.map_cons, List.sum_cons, List.length_cons, add_assoc,
      Nat.add_comm 1]

omit [LinearOrder K] [FloorRing K] in
theorem centre_foldl_add (points : List (Vector3 K)) :
    (points.foldl VoxelAccumulator.add .empty).centre = mean points := by
  rw [foldl_add]
  simp only [VoxelAccumulator.centre, VoxelAccumulator.empty, mean, zero_add, mul_one_div]

section Mean
variable [IsStrictOrderedRing K] {points : List (Vector3 K)} {f : Vector3 K → K} {a b : K}

omit [FloorRing K] in
theorem le_mean (hne : points ≠ []) (h : ∀ point ∈ points, a ≤ f point) :
    a ≤ (points.map f).sum / points.length := by
  have hpos : (0 : K) < points.length := by exact_mod_cast List.length_pos_iff.mpr hne
  have hsum := List.card_nsmul_le_sum (points.map f) a (by simpa using h)
  rw [List.length_map, nsmul_eq_mul] at hsum
  rw [le_div_iff₀ hpos]
  linarith

omit [FloorRing K] in
theorem mean_le (hne : points ≠ []) (h : ∀ point ∈ points, f point ≤ b) :
    (points.map f).sum / points.length ≤ b := by
  have hpos : (0 : K) < points.length := by exact_mod_cast List.length_pos_iff.mpr hne
  have hsum := List.sum_le_card_nsmul (points.map f) b (by simpa using h)
  rw [List.length_map, nsmul_eq_mul] at hsum
  rw [div_le_iff₀ hpos]
  linarith

omit [FloorRing K] in
theorem mean_lt (hne : points ≠ []) (h : ∀ point ∈ points, f point < b) :
    (points.map f).sum / points.length < b := by
  have hpos : (0 : K) < points.length := by exact_mod_cast List.length_pos_iff.mpr hne
  have hsum : (points.map f).sum < (points.map fun _ => b).sum :=
    List.sum_lt_sum_of_ne_nil hne f _ h
  rw [List.map_const', List.sum_replicate, nsmul_eq_mul] at hsum
  rw [div_lt_iff₀ hpos]
  linarith

/-- A cell is half open and convex. -/
theorem floor_mean {size : K} (hsize : 0 < size) {k : ℤ} (hne : points ≠ [])
    (h : ∀ point ∈ points, ⌊f point / size⌋ = k) :
    ⌊(points.map f).sum / points.length / size⌋ = k := by
  have hcell : ∀ point ∈ points, k * size ≤ f point ∧ f point < (k + 1) * size := by
    intro point hpoint
    obtain ⟨hlow, hhigh⟩ := Int.floor_eq_iff.mp (h point hpoint)
    exact ⟨(le_div_iff₀ hsize).mp hlow, (div_lt_iff₀ hsize).mp hhigh⟩
  rw [Int.floor_eq_iff, le_div_iff₀ hsize, div_lt_iff₀ hsize]
  exact ⟨le_mean hne fun point hpoint => (hcell point hpoint).1,
    mean_lt hne fun point hpoint => (hcell point hpoint).2⟩

theorem voxelOf_mean {size : K} (hsize : 0 < size) {k : ℤ × ℤ × ℤ} (hne : points ≠ [])
    (h : ∀ point ∈ points, voxelOf size point = k) : voxelOf size (mean points) = k := by
  obtain ⟨kx, ky, kz⟩ := k
  simp only [voxelOf, Prod.mk.injEq] at h ⊢
  exact ⟨floor_mean hsize hne fun point hp => (h point hp).1,
    floor_mean hsize hne fun point hp => (h point hp).2.1,
    floor_mean hsize hne fun point hp => (h point hp).2.2⟩

end Mean

/-! ### The output bytes -/

omit [Field K] [LinearOrder K] [FloorRing K] in
@[simp] theorem length_pointRecord (P : Platform K) (point : Vector3 K) :
    (pointRecord P point).length = 12 := rfl

omit [Field K] [LinearOrder K] [FloorRing K] in
theorem length_records (P : Platform K) (points : List (Vector3 K)) :
    (points.flatMap (pointRecord P)).length = 12 * points.length := by
  rw [List.length_flatMap]
  simp [Nat.mul_comm]

omit [LinearOrder K] [FloorRing K] in
/-- The records fill the buffer from left to right. -/
theorem writeVoxels_eq (P : Platform K) (index : ℕ) (data : List UInt8)
    (voxels : List (VoxelAccumulator K)) (h : data.length = 12 * (index + voxels.length)) :
    writeVoxels P 12 index data voxels = data.take (12 * index) ++
      (voxels.map VoxelAccumulator.centre).flatMap (pointRecord P) := by
  induction voxels generalizing index data with
  | nil =>
    have hall : data.take (12 * index) = data := List.take_of_length_le (by simp at h; omega)
    simp [writeVoxels, hall]
  | cons voxel voxels ih =>
    rw [List.length_cons] at h
    have hstep : index * (12 : UInt32).toNat = 12 * index := Nat.mul_comm _ _
    have hlen : (data.take (12 * index)).length = 12 * index := by
      rw [List.length_take]
      omega
    have hwritten : (writeAt data (12 * index) (pointRecord P voxel.centre)).length = data.length := by
      simp only [writeAt, List.length_append, List.length_drop, length_pointRecord, hlen]
      omega
    rw [writeVoxels, hstep]
    rw [ih (index + 1) _ (by rw [hwritten]; omega), List.map_cons, List.flatMap_cons]
    have htake : (writeAt data (12 * index) (pointRecord P voxel.centre)).take (12 * (index + 1)) =
        data.take (12 * index) ++ pointRecord P voxel.centre := by
      refine List.take_left' ?_
      rw [List.length_append, hlen, length_pointRecord]
      omega
    rw [htake, List.append_assoc]

omit [LinearOrder K] [FloorRing K] in
theorem publish_eq (P : Platform K) (header : Header) (n m : UInt64)
    (voxels : List (VoxelAccumulator K)) (h : voxels.length ≤ 4294967295 / 12) :
    (publish P header n m voxels).cloud.width.toNat = voxels.length ∧
    (publish P header n m voxels).cloud.rowStep.toNat = 12 * voxels.length ∧
    (publish P header n m voxels).retainedPointCount.toNat = voxels.length ∧
    (publish P header n m voxels).cloud =
      { makeEmptyCloud header with
        width := (publish P header n m voxels).cloud.width
        rowStep := (publish P header n m voxels).cloud.rowStep
        data := (voxels.map VoxelAccumulator.centre).flatMap (pointRecord P) } := by
  have hwidth : (UInt32.ofNat voxels.length).toNat = voxels.length :=
    UInt32.toNat_ofNat_of_lt' (by simp [UInt32.size]; omega)
  have hrow : (UInt32.ofNat voxels.length * 12).toNat = 12 * voxels.length := by
    rw [UInt32.toNat_mul, hwidth, show (12 : UInt32).toNat = 12 from rfl]
    omega
  refine ⟨hwidth, hrow, UInt64.toNat_ofNat_of_lt' (by simp [UInt64.size]; omega), ?_⟩
  have hdata := writeVoxels_eq P 0
    (List.replicate (UInt32.ofNat voxels.length * 12).toNat 0) voxels (by simp [hrow])
  rw [Nat.mul_zero, List.take_zero, List.nil_append] at hdata
  rw [← hdata]
  rfl

/-! ### The filter meets its specification -/

/-- The workspace in which the loop starts. -/
def Workspace.cleared (w : Workspace K) : Workspace K :=
  { w with voxelIndices := [], voxels := [], initialCapacityReserved := true }

/-- What a request with a result has passed, and where the result comes from. -/
theorem filter_cases {P : Platform K} {r : Request K} {w : Workspace K} {result : Result}
    (h : (filter P r w).1 = some result) :
    r.config.valid = true ∧ hasValidLayout r.input = true ∧ ∃ offsets,
      getPointFieldOffsets r.input = some offsets ∧
      let n := r.input.width.toUInt64 * r.input.height.toUInt64
      let m := sampleCount n r.config.maxInputPoints
      let voxels := (sampleLoop P r offsets m.toNat (.start n m) w.cleared).voxels
      (n = 0 ∧ result = ⟨makeEmptyCloud r.outputHeader, 0, 0, 0⟩ ∨
        n ≠ 0 ∧ voxels.length ≤ 4294967295 / 12 ∧
          result = publish P r.outputHeader n m voxels) := by
  unfold filter at h
  split at h
  · cases h
  next hrequest =>
  simp only [Bool.or_eq_true, not_or, Bool.not_eq_true', Bool.not_eq_false] at hrequest
  refine ⟨hrequest.1, hrequest.2, ?_⟩
  split at h
  · cases h
  next offsets hoffsets =>
  refine ⟨offsets, hoffsets, ?_⟩
  dsimp only at h
  split at h
  · next hempty => exact Or.inl ⟨hempty, (Option.some.inj h).symm⟩
  next hpoints =>
  split at h
  · cases h
  next hfits => exact Or.inr ⟨hpoints, not_lt.mp hfits, (Option.some.inj h).symm⟩

/-- What earlier calls have left behind does not matter. -/
theorem filter_workspace (P : Platform K) (r : Request K) (w w' : Workspace K) :
    (filter P r w).1 = (filter P r w').1 := by
  unfold filter
  split
  · rfl
  split
  · rfl
  dsimp only
  split
  · rfl
  split
  · rfl
  · rfl

/-- The workspace after some calls, accepted or not. -/
def after (P : Platform K) (calls : List (Request K)) : Workspace K :=
  calls.foldl (fun w r => (filter P r w).2) .new

section Exact
variable [IsStrictOrderedRing K] {transformPoint : Transform (Double K) → Vector3 K → Vector3 (Double K)}
  {narrow : K → UInt32} {r : Request K} {offsets : PointFieldOffsets}

omit [FloorRing K] [IsStrictOrderedRing K] in
theorem config_valid (h : r.config.valid = true) : 0 < r.config.voxelSize.value := by
  simp only [Config.valid, Bool.and_eq_true, decide_eq_true_eq] at h
  exact h.1.1.1.1.2

variable (P : Platform K) in
theorem map_voxelOf_outputPoints (h : r.config.valid = true) :
    (outputPoints P r offsets).map (voxelOf r.config.voxelSize.value) =
      keys (voxelOf r.config.voxelSize.value) (keptPoints P r offsets) := by
  unfold outputPoints voxelGroups groups
  rw [List.map_map, List.map_map]
  conv_rhs => rw [← List.map_id (keys _ _)]
  refine List.map_congr_left fun k hk => ?_
  obtain ⟨point, hpoint, rfl⟩ := (mem_keys _).mp hk
  refine voxelOf_mean (config_valid h) ?_ fun q hq => ?_
  · exact List.ne_nil_of_mem (List.mem_filter.mpr ⟨hpoint, by simp⟩)
  · simpa using (List.mem_filter.mp hq).2

variable (P : Platform K) in
theorem outputPoints_band : ∀ point ∈ outputPoints P r offsets,
    r.config.minHeight.value ≤ point.z ∧ point.z ≤ r.config.maxHeight.value := by
  intro point hpoint
  obtain ⟨g, hg, rfl⟩ := List.mem_map.mp hpoint
  obtain ⟨hne, k, -, hmem⟩ := mem_groups _ hg
  exact ⟨le_mean hne fun q hq => (mem_keptPoints (hmem q hq).1).1,
    mean_le hne fun q hq => (mem_keptPoints (hmem q hq).1).2.1⟩

variable (P : Platform K) in
/-- Any result whose cloud holds the output points has all their properties. -/
theorem downsampled_of_cloud {result : Result} (h : r.config.valid = true)
    (hcloud : result.cloud =
      { makeEmptyCloud r.outputHeader with
        width := result.cloud.width
        rowStep := result.cloud.rowStep
        data := (outputPoints P r offsets).flatMap (pointRecord P) })
    (hwidth : result.cloud.width.toNat = (outputPoints P r offsets).length)
    (hrow : result.cloud.rowStep.toNat = 12 * (outputPoints P r offsets).length)
    (hretained : result.retainedPointCount.toNat = (outputPoints P r offsets).length) :
    Downsampled P r offsets result where
  cloud := hcloud
  width := hwidth
  rowStep := hrow
  dataSize := by
    rw [hcloud, hrow]
    exact length_records P _
  retained := hretained
  voxels := map_voxelOf_outputPoints P h
  distinct := by
    rw [map_voxelOf_outputPoints P h]
    exact nodup_keys _ _
  band := outputPoints_band P
  sizes := sum_length_groups _ _

theorem filter_eq_some {w : Workspace K} {result : Result}
    (h : (filter (.exact transformPoint narrow) r w).1 = some result) :
    ∃ offsets, getPointFieldOffsets r.input = some offsets ∧
      Downsampled (.exact transformPoint narrow) r offsets result := by
  obtain ⟨hconfig, -, offsets, hoffsets, ⟨hempty, rfl⟩ | ⟨-, hfits, rfl⟩⟩ := filter_cases h
  · -- no points, no samples, no groups
    have hnone : outputPoints (.exact transformPoint narrow) r offsets = [] := by
      have hzero : sampleCount 0 r.config.maxInputPoints = 0 := by
        unfold sampleCount
        rw [if_neg (by simp)]
      have hsampled : sampledPoints r offsets = [] := by
        unfold sampledPoints
        simp only [hempty, hzero]
        rfl
      unfold outputPoints voxelGroups keptPoints
      rw [hsampled]
      rfl
    refine ⟨offsets, hoffsets, downsampled_of_cloud _ hconfig ?_ ?_ ?_ ?_⟩
    · rw [hnone]; rfl
    · rw [hnone]; rfl
    · rw [hnone]; rfl
    · rw [hnone]; rfl
  · refine ⟨offsets, hoffsets, ?_⟩
    have hvoxels := voxels_sampleLoop (P := .exact transformPoint narrow) r offsets w.cleared rfl
    rw [groups_voxelKey] at hvoxels
    have hcentres : ((voxelGroups (.exact transformPoint narrow) r offsets).map
        (List.foldl VoxelAccumulator.add .empty)).map VoxelAccumulator.centre =
        outputPoints (.exact transformPoint narrow) r offsets := by
      rw [List.map_map]
      exact List.map_congr_left fun g _ => centre_foldl_add g
    have hlen : ((voxelGroups (.exact transformPoint narrow) r offsets).map
        (List.foldl VoxelAccumulator.add .empty)).length =
        (outputPoints (.exact transformPoint narrow) r offsets).length := by
      rw [outputPoints, List.length_map, List.length_map]
    rw [hvoxels] at hfits ⊢
    obtain ⟨hwidth, hrow, hretained, hcloud⟩ := publish_eq (.exact transformPoint narrow)
      r.outputHeader (r.input.width.toUInt64 * r.input.height.toUInt64)
      (sampleCount (r.input.width.toUInt64 * r.input.height.toUInt64) r.config.maxInputPoints)
      _ hfits
    rw [hcentres] at hcloud
    rw [hlen] at hwidth hrow hretained
    exact downsampled_of_cloud _ hconfig hcloud hwidth hrow hretained

end Exact

/-- After any calls, a result is what the kept points call for, and what a new
workspace would have given. -/
theorem filter_downsamples [IsStrictOrderedRing K]
    (transformPoint : Transform (Double K) → Vector3 K → Vector3 (Double K)) (narrow : K → UInt32)
    (calls : List (Request K)) (r : Request K) (result : Result)
    (h : (filter (.exact transformPoint narrow) r (after (.exact transformPoint narrow) calls)).1 =
      some result) :
    filterPointCloudToVoxels (.exact transformPoint narrow) r = some result ∧
      ∃ offsets, getPointFieldOffsets r.input = some offsets ∧
        Downsampled (.exact transformPoint narrow) r offsets result := by
  refine ⟨?_, filter_eq_some h⟩
  rw [← h]
  exact filter_workspace _ _ _ _

/-! ### Five points -/

/-- The identity, and the four numbers that are published below. -/
def samplePlatform : Platform ℚ :=
  .exact (fun _ v => ⟨.finite v.x, .finite v.y, .finite v.z⟩) fun x =>
    if x = 3 / 8 then 0x3EC00000 else if x = 1 / 2 then 0x3F000000
    else if x = 3 / 2 then 0x3FC00000 else 0

/-- Two points in one voxel, one in another, one too high and one that is no number. -/
def sampleInput : PointCloud2 :=
  { makeEmptyCloud ⟨⟨1, 0⟩, "lidar"⟩ with
    width := 5
    rowStep := 60
    data := [0x3E800000, 0, 0x3F000000, 0x3F000000, 0, 0x3F000000, 0x3FC00000, 0, 0x3F000000,
      0x3E800000, 0, 0x3FC00000, 0x7FC00000, 0, 0].flatMap bytes }

def sampleRequest : Request ℚ :=
  ⟨sampleInput, ⟨⟨⟨1, 0⟩, "base_link"⟩, "lidar", ⟨0, ⟨0, 0, 0, .finite 1⟩⟩⟩, ⟨⟨1, 0⟩, "base_link"⟩,
    ⟨.finite 1, .finite (-1), .finite 1, 40000⟩⟩

theorem filter_downsamples_sample : ∃ result,
    (filter samplePlatform sampleRequest (after samplePlatform [sampleRequest])).1 = some result ∧
      filterPointCloudToVoxels samplePlatform sampleRequest = some result ∧
      ∃ offsets, getPointFieldOffsets sampleRequest.input = some offsets ∧
        Downsampled samplePlatform sampleRequest offsets result := by
  obtain ⟨result, h⟩ : ∃ result, (filter samplePlatform sampleRequest
      (after samplePlatform [sampleRequest])).1 = some result :=
    Option.isSome_iff_exists.mp (by decide +kernel)
  exact ⟨result, h, filter_downsamples _ _ [sampleRequest] sampleRequest result h⟩

/-- Two points are published, the mean of the first two and the third. -/
example : ((filter samplePlatform sampleRequest .new).1.map fun result => result.cloud.data) =
    some ([0x3EC00000, 0, 0x3F000000, 0x3FC00000, 0, 0x3F000000].flatMap bytes) := by decide +kernel

end X2Navigation.PointCloudVoxelFilter
