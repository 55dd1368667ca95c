import Mathlib.Algebra.Order.Floor.Defs
import X2Navigation.Cloud.Messages
import X2Navigation.Grouping.FirstAppearance
import X2Navigation.Numeric.Binary32

/-! The voxel filter: sample a cloud evenly, move the samples into the target
frame, crop them to a band of heights and publish the centre of every occupied
voxel. The index map and the accumulators are kept between calls. -/

namespace X2Navigation.PointCloudVoxelFilter

open Grouping

/-- What lies below the node: the transform as tf2 applies it, and the rounding of
the arithmetic, in a quotient, in the conversion of an integer and in narrowing a
`double` to the bits of a `float`. -/
structure Platform (K : Type*) where
  transformPoint : Transform (Double K) → Vector3 K → Vector3 (Double K)
  quotient : K → K → Double K
  ofInt64 : Int64 → K
  narrow : K → UInt32

structure Config (K : Type*) where
  voxelSize : Double K
  minHeight : Double K
  maxHeight : Double K
  maxInputPoints : UInt64

structure Request (K : Type*) where
  input : PointCloud2
  targetFromSource : TransformStamped (Double K)
  outputHeader : Header
  config : Config K

structure Result where
  cloud : PointCloud2
  inputPointCount : UInt64
  sampledPointCount : UInt64
  retainedPointCount : UInt64
  deriving DecidableEq

structure PointFieldOffsets where
  x : UInt32
  y : UInt32
  z : UInt32

structure VoxelKey where
  x : Int64
  y : Int64
  z : Int64
  deriving DecidableEq

structure VoxelAccumulator (K : Type*) where
  x : K
  y : K
  z : K
  count : ℕ

structure Workspace (K : Type*) where
  voxelIndices : Index VoxelKey
  voxels : List (VoxelAccumulator K)
  initialCapacityReserved : Bool

def Workspace.new {K : Type*} : Workspace K := ⟨[], [], false⟩

/-! ### The layout -/

/-- The first field of that name decides. -/
def findFloat32Field (cloud : PointCloud2) (name : String) : Option UInt32 :=
  match cloud.fields.find? (·.name = name) with
  | none => none
  | some field =>
    if field.datatype ≠ PointField.FLOAT32 ∨ field.count ≠ 1 ∨
        cloud.pointStep.toUInt64 - 4 < field.offset.toUInt64 then none
    else some field.offset

def getPointFieldOffsets (cloud : PointCloud2) : Option PointFieldOffsets :=
  if cloud.pointStep.toUInt64 < 12 then none
  else
    match findFloat32Field cloud "x", findFloat32Field cloud "y", findFloat32Field cloud "z" with
    | some x, some y, some z => some ⟨x, y, z⟩
    | _, _, _ => none

def hasValidLayout (cloud : PointCloud2) : Bool :=
  if cloud.isBigendian then false
  else if cloud.height = 0 ∨ cloud.width = 0 then true
  else if cloud.pointStep = 0 then false
  else if 4294967295 / cloud.pointStep < cloud.width ∨
      cloud.rowStep < cloud.width * cloud.pointStep ∨
      18446744073709551615 / cloud.rowStep.toUInt64 < cloud.height.toUInt64 then false
  else
    let requiredSize := cloud.height.toUInt64 * cloud.rowStep.toUInt64
    decide (requiredSize.toNat ≤ cloud.data.length)

variable {K : Type*} [Field K] [LinearOrder K] [FloorRing K]

/-- `memcpy` of a `float`; a byte outside the buffer would be zero. -/
def readFloat (data : List UInt8) (position : UInt64) : Double K :=
  let byte (i : ℕ) := data.getD (position.toNat + i) 0
  binary32 (littleEndian (byte 0) (byte 1) (byte 2) (byte 3))

omit [LinearOrder K] [FloorRing K] in
/-- Only four bytes matter. -/
theorem readFloat_congr {data data' : List UInt8} {position position' : UInt64}
    (h : ∀ j < 4, data[position.toNat + j]? = data'[position'.toNat + j]?) :
    readFloat (K := K) data position = readFloat data' position' := by
  unfold readFloat
  simp only [List.getD_eq_getElem?_getD]
  rw [h 0 (by decide), h 1 (by decide), h 2 (by decide), h 3 (by decide)]

omit [LinearOrder K] [FloorRing K] in
theorem readFloat_bytes (bits : UInt32) : readFloat (K := K) (bytes bits) 0 = binary32 bits :=
  congrArg binary32 (littleEndian_bytes bits)

/-- Where the record of a point starts. -/
def pointPosition (input : PointCloud2) (inputIndex : UInt64) : UInt64 :=
  let row := inputIndex / input.width.toUInt64
  let column := inputIndex % input.width.toUInt64
  row * input.rowStep.toUInt64 + column * input.pointStep.toUInt64

def readPoint (input : PointCloud2) (offsets : PointFieldOffsets) (inputIndex : UInt64) :
    Vector3 (Double K) :=
  let pointData := pointPosition input inputIndex
  ⟨readFloat input.data (pointData + offsets.x.toUInt64),
    readFloat input.data (pointData + offsets.y.toUInt64),
    readFloat input.data (pointData + offsets.z.toUInt64)⟩

/-! ### Voxels -/

/-- `std::floor`. -/
def floor : Double K → Double K
  | .finite x => .finite ⌊x⌋
  | special => special

/-- The cast of a whole number. It is undefined outside the range of the type. -/
def toInt64 (x : Double K) : Int64 := Int64.ofInt ⌊x.value⌋

variable (P : Platform K)

def makeVoxelKey (point : Vector3 K) (voxelSize : K) : Option VoxelKey :=
  let scaledX := floor (P.quotient point.x voxelSize)
  let scaledY := floor (P.quotient point.y voxelSize)
  let scaledZ := floor (P.quotient point.z voxelSize)
  let minimum := P.ofInt64 Int64.minValue
  let maximum := P.ofInt64 Int64.maxValue
  if Double.numGT minimum scaledX || Double.numLT maximum scaledX ||
      Double.numGT minimum scaledY || Double.numLT maximum scaledY ||
      Double.numGT minimum scaledZ || Double.numLT maximum scaledZ then none
  else some ⟨toInt64 scaledX, toInt64 scaledY, toInt64 scaledZ⟩

def allFinite (v : Vector3 (Double K)) : Bool := v.x.isFinite && v.y.isFinite && v.z.isFinite

def value (v : Vector3 (Double K)) : Vector3 K := ⟨v.x.value, v.y.value, v.z.value⟩

def VoxelAccumulator.empty : VoxelAccumulator K := ⟨0, 0, 0, 0⟩

def VoxelAccumulator.add (accumulator : VoxelAccumulator K) (point : Vector3 K) :
    VoxelAccumulator K :=
  ⟨accumulator.x + point.x, accumulator.y + point.y, accumulator.z + point.z, accumulator.count + 1⟩

/-- The end of the loop body, for a point that is kept. -/
def accumulate (w : Workspace K) (key : VoxelKey) (point : Vector3 K) : Workspace K :=
  let (voxelIndices, index, inserted) := w.voxelIndices.emplace key w.voxels.length
  let voxels := if inserted then w.voxels ++ [.empty] else w.voxels
  { w with voxelIndices := voxelIndices, voxels := voxels.modify index (·.add point) }

/-- What is done with a point that has been read: one that fails a test is left out. -/
def visitPoint (r : Request K) (w : Workspace K) (source : Vector3 (Double K)) : Workspace K :=
  if !allFinite source then w
  else
    let transformed := P.transformPoint r.targetFromSource.transform (value source)
    let point := value transformed
    if !allFinite transformed || decide (point.z < r.config.minHeight.value) ||
        decide (r.config.maxHeight.value < point.z) then w
    else
      match makeVoxelKey P point r.config.voxelSize.value with
      | none => w
      | some key => accumulate w key point

/-- The loop body behind the sampling. -/
def visit (r : Request K) (offsets : PointFieldOffsets) (w : Workspace K) (inputIndex : UInt64) :
    Workspace K :=
  visitPoint P r w (readPoint r.input offsets inputIndex)

/-! ### Sampling -/

/-- `std::min`. -/
def sampleCount (inputPointCount maxInputPoints : UInt64) : UInt64 :=
  if maxInputPoints < inputPointCount then maxInputPoints else inputPointCount

/-- The constants and the state of the sampling, which spreads the remainder of
the division over the steps. -/
structure Sampling where
  sampledPointCount : UInt64
  sampleIntervalCount : UInt64
  baseSampleInterval : UInt64
  sampleIntervalRemainder : UInt64
  samplesVisited : UInt64
  nextSampleIndex : UInt64
  sampleIntervalError : UInt64

def Sampling.start (inputPointCount sampledPointCount : UInt64) : Sampling :=
  let sampleIntervalCount := if 1 < sampledPointCount then sampledPointCount - 1 else 1
  let sampleSpan := inputPointCount - 1
  { sampledPointCount := sampledPointCount
    sampleIntervalCount := sampleIntervalCount
    baseSampleInterval := sampleSpan / sampleIntervalCount
    sampleIntervalRemainder := sampleSpan % sampleIntervalCount
    samplesVisited := 0
    nextSampleIndex := if sampledPointCount = 1 then (inputPointCount - 1) / 2 else 0
    sampleIntervalError := 0 }

/-- The step to the next sample, which the last iteration does not take. -/
def Sampling.advance (s : Sampling) : Sampling :=
  let s' :=
    if s.samplesVisited + 1 < s.sampledPointCount then
      let next := s.nextSampleIndex + s.baseSampleInterval
      let error := s.sampleIntervalError + s.sampleIntervalRemainder
      if s.sampleIntervalCount ≤ error then
        { s with nextSampleIndex := next + 1, sampleIntervalError := error - s.sampleIntervalCount }
      else { s with nextSampleIndex := next, sampleIntervalError := error }
    else s
  { s' with samplesVisited := s.samplesVisited + 1 }

/-- The loop; `n` iterations are left. -/
def sampleLoop (r : Request K) (offsets : PointFieldOffsets) :
    ℕ → Sampling → Workspace K → Workspace K
  | 0, _, w => w
  | n + 1, s, w => sampleLoop r offsets n s.advance (visit P r offsets w s.nextSampleIndex)

/-! ### The output -/

def makeField (name : String) (offset : UInt32) : PointField := ⟨name, offset, PointField.FLOAT32, 1⟩

def makeEmptyCloud (header : Header) : PointCloud2 :=
  { header := header
    height := 1
    width := 0
    fields := [makeField "x" 0, makeField "y" 4, makeField "z" 8]
    isBigendian := false
    pointStep := 12
    rowStep := 0
    data := []
    isDense := true }

/-- `memcpy` into a buffer that is long enough. -/
def writeAt (data : List UInt8) (position : ℕ) (record : List UInt8) : List UInt8 :=
  data.take position ++ record ++ data.drop (position + record.length)

/-- The twelve bytes of a point. -/
def pointRecord (point : Vector3 K) : List UInt8 :=
  bytes (P.narrow point.x) ++ bytes (P.narrow point.y) ++ bytes (P.narrow point.z)

def VoxelAccumulator.centre (voxel : VoxelAccumulator K) : Vector3 K :=
  let inverseCount := 1 / (voxel.count : K)
  ⟨voxel.x * inverseCount, voxel.y * inverseCount, voxel.z * inverseCount⟩

/-- The loop over the voxels from number `index` on. -/
def writeVoxels (pointStep : UInt32) (index : ℕ) (data : List UInt8) :
    List (VoxelAccumulator K) → List UInt8
  | [] => data
  | voxel :: voxels =>
    let data := writeAt data (index * pointStep.toNat) (pointRecord P voxel.centre)
    writeVoxels pointStep (index + 1) data voxels

/-- The cloud with a row of the given size. -/
def publishRow (outputHeader : Header) (inputPointCount sampledPointCount : UInt64)
    (voxels : List (VoxelAccumulator K)) (rowStep : UInt32) : Result :=
  let cloud := makeEmptyCloud outputHeader
  let width := UInt32.ofNat voxels.length
  let data := List.replicate rowStep.toNat 0
  { cloud :=
      { cloud with
        width := width
        rowStep := rowStep
        data := writeVoxels P cloud.pointStep 0 data voxels }
    inputPointCount := inputPointCount
    sampledPointCount := sampledPointCount
    retainedPointCount := UInt64.ofNat voxels.length }

def publish (outputHeader : Header) (inputPointCount sampledPointCount : UInt64)
    (voxels : List (VoxelAccumulator K)) : Result :=
  publishRow P outputHeader inputPointCount sampledPointCount voxels
    (UInt32.ofNat voxels.length * (makeEmptyCloud outputHeader).pointStep)

/-! ### The filter -/

def Config.valid (config : Config K) : Bool :=
  config.voxelSize.isFinite && decide (0 < config.voxelSize.value) &&
    config.minHeight.isFinite && config.maxHeight.isFinite &&
    decide (config.minHeight.value ≤ config.maxHeight.value) && config.maxInputPoints ≠ 0

/-- `PointCloudVoxelFilterWorkspace::filter`. A request that is refused early, or
has no points, leaves the workspace as it was. -/
def filter (r : Request K) (w : Workspace K) : Option Result × Workspace K :=
  if !r.config.valid || !hasValidLayout r.input then (none, w)
  else
    match getPointFieldOffsets r.input with
    | none => (none, w)
    | some offsets =>
      let inputPointCount := r.input.width.toUInt64 * r.input.height.toUInt64
      if inputPointCount = 0 then (some ⟨makeEmptyCloud r.outputHeader, 0, 0, 0⟩, w)
      else
        let sampledPointCount := sampleCount inputPointCount r.config.maxInputPoints
        let w := { w with voxelIndices := [], voxels := [], initialCapacityReserved := true }
        let w := sampleLoop P r offsets sampledPointCount.toNat
          (.start inputPointCount sampledPointCount) w
        if 4294967295 / 12 < w.voxels.length then (none, w)
        else (some (publish P r.outputHeader inputPointCount sampledPointCount w.voxels), w)

def filterPointCloudToVoxels (r : Request K) : Option Result := (filter P r .new).1

end X2Navigation.PointCloudVoxelFilter
