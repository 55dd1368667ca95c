import Mathlib.Tactic.IntervalCases
import X2Navigation.Cloud.InBounds

/-! The voxel filter is idempotent. Its output has one point in a voxel, in the band of
heights; read back and left where it is, every one is sampled, kept and alone in its group. -/

namespace X2Navigation.PointCloudVoxelFilter

open Checked Grouping

variable {K : Type*} [Field K]

/-! ### Reading the records back -/

/-- The coordinates survive as numbers of 32 bits. -/
structure Unrounded (narrow : K → UInt32) (point : Vector3 K) : Prop where
  x : binary32 (narrow point.x) = .finite point.x
  y : binary32 (narrow point.y) = .finite point.y
  z : binary32 (narrow point.z) = .finite point.z

def finite (point : Vector3 K) : Vector3 (Double K) :=
  ⟨.finite point.x, .finite point.y, .finite point.z⟩

@[simp] theorem value_finite (point : Vector3 K) : value (finite point) = point := rfl

omit [Field K] in
@[simp] theorem allFinite_finite (point : Vector3 K) : allFinite (finite point) = true := rfl

omit [Field K] in
theorem getElem?_records (P : Platform K) {points : List (Vector3 K)} {i : ℕ} {point : Vector3 K}
    (h : points[i]? = some point) {j : ℕ} (hj : j < 12) :
    (points.flatMap (pointRecord P))[12 * i + j]? = (pointRecord P point)[j]? := by
  induction points generalizing i with
  | nil => cases h
  | cons first points ih =>
    rw [List.flatMap_cons]
    cases i with
    | zero =>
      have hlen := length_pointRecord P first
      obtain rfl := Option.some.inj h
      rw [Nat.mul_zero, Nat.zero_add]
      exact List.getElem?_append_left (by omega)
    | succ i =>
      have hlen := length_pointRecord P first
      rw [List.getElem?_append_right (by omega), hlen, ← ih h]
      congr 1
      omega

/-- The records of a cloud of one row. -/
theorem toNat_pointPosition {cloud : PointCloud2} {i : UInt64} (hstep : cloud.pointStep = 12)
    (hi : i.toNat < cloud.width.toNat) : (pointPosition cloud i).toNat = 12 * i.toNat := by
  have hwidth := cloud.width.toNat_lt
  have hrow : i / cloud.width.toUInt64 = 0 := by
    apply UInt64.toNat_inj.mp
    rw [UInt64.toNat_div, UInt32.toNat_toUInt64, Nat.div_eq_of_lt hi, UInt64.toNat_zero]
  have hcolumn : i % cloud.width.toUInt64 = i := by
    apply UInt64.toNat_inj.mp
    rw [UInt64.toNat_mod, UInt32.toNat_toUInt64, Nat.mod_eq_of_lt hi]
  have htwelve : (12 : UInt32).toUInt64.toNat = 12 := rfl
  unfold pointPosition
  dsimp only
  rw [hrow, hcolumn, hstep, UInt64.zero_mul, UInt64.zero_add]
  rw [toNat_mul (by rw [htwelve]; omega), htwelve, Nat.mul_comm]

theorem readPoint_records (P : Platform K) {cloud : PointCloud2} {points : List (Vector3 K)}
    {point : Vector3 K} {i : UInt64} (hstep : cloud.pointStep = 12)
    (hdata : cloud.data = points.flatMap (pointRecord P))
    (hi : i.toNat < cloud.width.toNat) (hpoint : points[i.toNat]? = some point)
    (hexact : Unrounded P.narrow point) : readPoint cloud ⟨0, 4, 8⟩ i = finite point := by
  have hposition := toNat_pointPosition hstep hi
  have hwidth := cloud.width.toNat_lt
  have hfield : ∀ (offset : UInt32) (bits : UInt32), offset.toNat ≤ 8 →
      (∀ j < 4, (pointRecord P point)[offset.toNat + j]? = (bytes bits)[j]?) →
      readFloat (K := K) cloud.data (pointPosition cloud i + offset.toUInt64) = binary32 bits := by
    intro offset bits hoffset hbytes
    rw [← readFloat_bytes]
    apply readFloat_congr
    intro j hj
    have hsum : (pointPosition cloud i + offset.toUInt64).toNat = 12 * i.toNat + offset.toNat := by
      rw [toNat_add (by rw [hposition, UInt32.toNat_toUInt64]; omega), hposition,
        UInt32.toNat_toUInt64]
    rw [hsum, hdata, Nat.add_assoc, getElem?_records P hpoint (by omega), hbytes j hj,
      UInt64.toNat_zero, Nat.zero_add]
  have hx := hfield 0 (P.narrow point.x) (by decide) fun j hj => by interval_cases j <;> rfl
  have hy := hfield 4 (P.narrow point.y) (by decide) fun j hj => by interval_cases j <;> rfl
  have hz := hfield 8 (P.narrow point.z) (by decide) fun j hj => by interval_cases j <;> rfl
  unfold readPoint
  dsimp only
  rw [hx, hy, hz, hexact.x, hexact.y, hexact.z]
  rfl

/-! ### The second pass -/

/-- Under the limit every point is sampled, in order. -/
theorem Sampling.indices_all {n maxInputPoints : UInt64} (h : n.toNat ≤ maxInputPoints.toNat) :
    ((start n (sampleCount n maxInputPoints)).indices (sampleCount n maxInputPoints).toNat).map
      UInt64.toNat = List.range n.toNat := by
  have hcount : sampleCount n maxInputPoints = n := by
    apply UInt64.toNat_inj.mp
    rw [toNat_sampleCount]
    exact Nat.min_eq_left h
  rw [hcount]
  by_cases hzero : n = 0
  · subst hzero
    rfl
  · exact (uniform_start hzero le_rfl).2.every rfl

theorem map_eq_of_indices {α : Type*} {f : UInt64 → α} {indices : List UInt64} {items : List α}
    (hindices : indices.map UInt64.toNat = List.range items.length)
    (h : ∀ i item, items[i.toNat]? = some item → f i = item) : indices.map f = items := by
  have hlen : indices.length = items.length := by
    rw [← List.length_map UInt64.toNat, hindices, List.length_range]
  apply List.ext_getElem
  · rw [List.length_map, hlen]
  intro k hk hk'
  rw [List.length_map] at hk
  have hindex : indices[k].toNat = k := by
    have hget := congrArg (·[k]?) hindices
    rw [List.getElem?_map, List.getElem?_eq_getElem hk, List.getElem?_range hk'] at hget
    exact Option.some.inj hget
  rw [List.getElem_map]
  apply h
  rw [hindex]
  exact List.getElem?_eq_getElem hk'

section Exact
variable [LinearOrder K] [FloorRing K]
  {transformPoint : Transform (Double K) → Vector3 K → Vector3 (Double K)} {narrow : K → UInt32}
  {r r' : Request K} {offsets : PointFieldOffsets} {result : Result}

theorem sampledPoints_output {P : Platform K} (h : Downsampled P r offsets result)
    (hinput : r'.input = result.cloud)
    (hmax : result.cloud.width.toNat ≤ r'.config.maxInputPoints.toNat)
    (hexact : ∀ point ∈ outputPoints P r offsets, Unrounded P.narrow point) :
    sampledPoints r' ⟨0, 4, 8⟩ = (outputPoints P r offsets).map finite := by
  have hheight : result.cloud.height = 1 := congrArg PointCloud2.height h.cloud
  have hstep : result.cloud.pointStep = 12 := congrArg PointCloud2.pointStep h.cloud
  have hdata : result.cloud.data = (outputPoints P r offsets).flatMap (pointRecord P) :=
    congrArg PointCloud2.data h.cloud
  have hcount : (result.cloud.width.toUInt64 * result.cloud.height.toUInt64).toNat =
      result.cloud.width.toNat := by
    rw [toNat_mul (product_lt _ _), hheight, UInt32.toNat_toUInt64, UInt32.toNat_toUInt64]
    exact Nat.mul_one _
  have hall := Sampling.indices_all (hcount.trans_le hmax)
  rw [hcount] at hall
  unfold sampledPoints
  dsimp only
  rw [hinput]
  rw [h.width] at hall
  apply map_eq_of_indices (hall.trans (by rw [List.length_map]))
  intro i read hread
  rw [List.getElem?_map, Option.map_eq_some_iff] at hread
  obtain ⟨point, hpoint, rfl⟩ := hread
  apply readPoint_records P hstep hdata
  · rw [h.width]
    exact (List.getElem?_eq_some_iff.mp hpoint).1
  · exact hpoint
  · exact hexact _ (List.mem_of_getElem? hpoint)

/-- Whether a point has a key depends on its voxel only. -/
theorem isSome_makeVoxelKey {p q : Vector3 K} {size : K} (h : voxelOf size p = voxelOf size q) :
    (makeVoxelKey (.exact transformPoint narrow) p size).isSome =
      (makeVoxelKey (.exact transformPoint narrow) q size).isSome := by
  simp only [voxelOf, Prod.mk.injEq] at h
  obtain ⟨hx, hy, hz⟩ := h
  have hfloor : ∀ x y : K, ⌊x / size⌋ = ⌊y / size⌋ →
      floor ((Platform.exact transformPoint narrow).quotient x size) =
        floor ((Platform.exact transformPoint narrow).quotient y size) :=
    fun x y hxy => congrArg (fun k : ℤ => Double.finite (k : K)) hxy
  unfold makeVoxelKey
  dsimp only
  rw [hfloor _ _ hx, hfloor _ _ hy, hfloor _ _ hz]

theorem keep_finite {point : Vector3 K}
    (htransform : transformPoint r.targetFromSource.transform point = finite point)
    (hmin : r.config.minHeight.value ≤ point.z) (hmax : point.z ≤ r.config.maxHeight.value)
    (hkey : (makeVoxelKey (.exact transformPoint narrow) point r.config.voxelSize.value).isSome) :
    keep (.exact transformPoint narrow) r (finite point) = some point := by
  have htransformed : (Platform.exact transformPoint narrow).transformPoint
      r.targetFromSource.transform (value (finite point)) = finite point := htransform
  unfold keep
  dsimp only
  rw [htransformed]
  exact if_pos ⟨allFinite_finite point, allFinite_finite point, hmin, hmax, hkey⟩

variable [IsStrictOrderedRing K]

/-- An output point has a key, since the points of its voxel have one. -/
theorem isSome_outputPoints (hvalid : r.config.valid = true) {point : Vector3 K}
    (h : point ∈ outputPoints (.exact transformPoint narrow) r offsets) :
    (makeVoxelKey (.exact transformPoint narrow) point r.config.voxelSize.value).isSome := by
  have hmem := List.mem_map_of_mem (f := voxelOf r.config.voxelSize.value) h
  rw [map_voxelOf_outputPoints _ hvalid] at hmem
  obtain ⟨kept, hkept, heq⟩ := (mem_keys _).mp hmem
  rw [← isSome_makeVoxelKey heq]
  exact (mem_keptPoints hkept).2.2

theorem outputPoints_output (r' : Request K)
    (h : Downsampled (.exact transformPoint narrow) r offsets result)
    (hvalid : r.config.valid = true) (hinput : r'.input = result.cloud)
    (hconfig : r'.config = r.config)
    (hidentity : ∀ v, transformPoint r'.targetFromSource.transform v = finite v)
    (hmax : result.cloud.width.toNat ≤ r.config.maxInputPoints.toNat)
    (hexact : ∀ point ∈ outputPoints (.exact transformPoint narrow) r offsets,
      Unrounded narrow point) :
    outputPoints (.exact transformPoint narrow) r' ⟨0, 4, 8⟩ =
      outputPoints (.exact transformPoint narrow) r offsets := by
  have hkept : keptPoints (.exact transformPoint narrow) r' ⟨0, 4, 8⟩ =
      outputPoints (.exact transformPoint narrow) r offsets := by
    unfold keptPoints
    rw [sampledPoints_output h hinput (by rw [hconfig]; exact hmax) hexact, List.filterMap_map]
    conv_rhs => rw [← List.filterMap_some (l := outputPoints _ r offsets)]
    apply List.filterMap_congr
    intro point hpoint
    obtain ⟨hmin, hmax⟩ := h.band point hpoint
    apply keep_finite (hidentity point)
    · rw [hconfig]
      exact hmin
    · rw [hconfig]
      exact hmax
    · rw [hconfig]
      exact isSome_outputPoints hvalid hpoint
  have hgroups : voxelGroups (.exact transformPoint narrow) r' ⟨0, 4, 8⟩ =
      (outputPoints (.exact transformPoint narrow) r offsets).map fun point => [point] := by
    unfold voxelGroups
    rw [hkept, hconfig]
    exact groups_of_nodup _ h.distinct
  conv_lhs => rw [outputPoints, hgroups, List.map_map]
  conv_rhs => rw [← List.map_id (outputPoints _ r offsets)]
  apply List.map_congr_left
  intro point _
  simp [mean]

/-- With few enough voxels nothing stands in the way of a result. -/
theorem filter_isSome {w : Workspace K} (hvalid : r.config.valid = true)
    (hlayout : hasValidLayout r.input = true)
    (hoffsets : getPointFieldOffsets r.input = some offsets)
    (hfits : (outputPoints (.exact transformPoint narrow) r offsets).length ≤ 4294967295 / 12) :
    ∃ result, (filter (.exact transformPoint narrow) r w).1 = some result := by
  have haccepted : ¬(!r.config.valid || !hasValidLayout r.input) = true := by
    rw [hvalid, hlayout]
    decide
  unfold filter
  rw [if_neg haccepted, hoffsets]
  dsimp only
  split
  · exact ⟨_, rfl⟩
  rw [if_neg]
  · exact ⟨_, rfl⟩
  have hvoxels := voxels_sampleLoop (P := .exact transformPoint narrow) r offsets w.cleared rfl
  unfold Workspace.cleared at hvoxels
  rw [groups_voxelKey] at hvoxels
  rw [hvoxels, List.length_map]
  rw [outputPoints, List.length_map] at hfits
  exact Nat.not_lt.mpr hfits

end Exact

/-! ### Idempotence -/

/-- The identity, as a message. -/
def identity : Transform (Double K) := ⟨0, ⟨0, 0, 0, .finite 1⟩⟩

/-- The request to filter a result again, as it stands. -/
def again (r : Request K) (result : Result) (outputHeader : Header) : Request K :=
  ⟨result.cloud, ⟨result.cloud.header, outputHeader.frameId, identity⟩, outputHeader, r.config⟩

/-- A result that is filtered again comes back as it was, under the new header. -/
theorem filter_idempotent [LinearOrder K] [FloorRing K] [IsStrictOrderedRing K]
    (transformPoint : Transform (Double K) → Vector3 K → Vector3 (Double K)) (narrow : K → UInt32)
    (htransform : ∀ v, transformPoint identity v = finite v) (r : Request K) (w w' : Workspace K)
    (offsets : PointFieldOffsets) (hoffsets : getPointFieldOffsets r.input = some offsets)
    (hexact : ∀ point ∈ outputPoints (.exact transformPoint narrow) r offsets,
      Unrounded narrow point)
    (result : Result) (h : (filter (.exact transformPoint narrow) r w).1 = some result)
    (hmax : result.cloud.width.toNat ≤ r.config.maxInputPoints.toNat) (outputHeader : Header) :
    ∃ result', (filter (.exact transformPoint narrow) (again r result outputHeader) w').1 =
        some result' ∧
      result'.cloud = { result.cloud with header := outputHeader } ∧
      outputPoints (.exact transformPoint narrow) (again r result outputHeader) ⟨0, 4, 8⟩ =
        outputPoints (.exact transformPoint narrow) r offsets := by
  have hvalid := (filter_cases h).1
  obtain ⟨offsets', hoffsets', hdown⟩ := filter_eq_some h
  obtain rfl : offsets' = offsets := Option.some.inj (hoffsets'.symm.trans hoffsets)
  have hpoints := outputPoints_output (again r result outputHeader) hdown hvalid rfl rfl
    htransform hmax hexact
  have hfields := congrArg PointCloud2.fields hdown.cloud
  have hstep : result.cloud.pointStep = 12 := congrArg PointCloud2.pointStep hdown.cloud
  have hread := getPointFieldOffsets_output r.outputHeader hfields hstep
  have hfits : (outputPoints (.exact transformPoint narrow) r offsets').length ≤ 4294967295 / 12 := by
    have hrow := hdown.rowStep
    have hlt := result.cloud.rowStep.toNat_lt
    omega
  obtain ⟨result', h'⟩ := filter_isSome (r := again r result outputHeader) (w := w') hvalid
    (filter_readable _ h).1 hread (by rw [hpoints]; exact hfits)
  obtain ⟨offsets'', hread', hdown'⟩ := filter_eq_some h'
  obtain rfl : offsets'' = ⟨0, 4, 8⟩ := Option.some.inj (hread'.symm.trans hread)
  refine ⟨result', h', ?_, hpoints⟩
  -- both clouds are what the same points call for
  have hwidth : result'.cloud.width = result.cloud.width := by
    apply UInt32.toNat_inj.mp
    rw [hdown'.width, hdown.width, hpoints]
  have hrow : result'.cloud.rowStep = result.cloud.rowStep := by
    apply UInt32.toNat_inj.mp
    rw [hdown'.rowStep, hdown.rowStep, hpoints]
  rw [hdown'.cloud, hpoints, hwidth, hrow]
  conv_rhs => rw [hdown.cloud]
  rfl

theorem outputPoints_sample : outputPoints samplePlatform sampleRequest ⟨0, 4, 8⟩ =
    [⟨3 / 8, 0, 1 / 2⟩, ⟨3 / 2, 0, 1 / 2⟩] := by decide +kernel

theorem filter_idempotent_sample : ∃ result result',
    (filter samplePlatform sampleRequest .new).1 = some result ∧
      (filter samplePlatform (again sampleRequest result sampleRequest.outputHeader) .new).1 =
        some result' ∧
      result'.cloud = result.cloud := by
  obtain ⟨result, h⟩ : ∃ result, (filter samplePlatform sampleRequest .new).1 = some result :=
    Option.isSome_iff_exists.mp (by decide +kernel)
  have hexact : ∀ point ∈ outputPoints samplePlatform sampleRequest ⟨0, 4, 8⟩,
      Unrounded samplePlatform.narrow point := by
    rw [outputPoints_sample]
    intro point hpoint
    simp only [List.mem_cons, List.not_mem_nil, or_false] at hpoint
    obtain rfl | rfl := hpoint
    · exact ⟨by decide +kernel, by decide +kernel, by decide +kernel⟩
    · exact ⟨by decide +kernel, by decide +kernel, by decide +kernel⟩
  have hwidth : result.cloud.width.toNat ≤ sampleRequest.config.maxInputPoints.toNat := by
    have hsome : (filter samplePlatform sampleRequest .new).1.map (·.cloud.width) = some 2 := by
      decide +kernel
    rw [h] at hsome
    have htwo : result.cloud.width = 2 := Option.some.inj hsome
    rw [htwo]
    decide
  obtain ⟨result', h', hcloud, -⟩ := filter_idempotent _ samplePlatform.narrow (fun _ => rfl)
    sampleRequest .new .new ⟨0, 4, 8⟩ (getPointFieldOffsets_output sampleInput.header rfl rfl)
    hexact result h hwidth sampleRequest.outputHeader
  refine ⟨result, result', h, h', hcloud.trans ?_⟩
  have hheader : (filter samplePlatform sampleRequest .new).1.map (·.cloud.header) =
      some sampleRequest.outputHeader := by decide +kernel
  rw [h] at hheader
  rw [← Option.some.inj hheader]

end X2Navigation.PointCloudVoxelFilter
