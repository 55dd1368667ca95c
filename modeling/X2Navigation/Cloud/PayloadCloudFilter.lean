import X2Navigation.Cloud.VoxelFilter
import X2Navigation.Server.Messages

/-! The payload filter: while the robot holds a box, the points inside that box are taken
out of the clouds, and what is left is flattened to one row. -/

namespace X2Navigation.PayloadCloudFilter

open PointCloudVoxelFilter (readFloat)

variable {K : Type*}

/-- The parameters of the node. -/
structure Box (K : Type*) where
  minX : Double K
  maxX : Double K
  minY : Double K
  maxY : Double K
  minZ : Double K
  maxZ : Double K

structure Node (K : Type*) where
  box : Box K
  state : ManipulationState

/-! ### The fields -/

/-- The first field of that name and type. -/
def fieldOffset (cloud : PointCloud2) (name : String) : Option UInt64 :=
  (cloud.fields.find? fun field => field.name = name ∧ field.datatype = PointField.FLOAT32).map
    (·.offset.toUInt64)

def fieldFits (input : PointCloud2) : Option UInt64 → Bool
  | none => false
  | some offset =>
    decide (offset ≤ input.pointStep.toUInt64) && decide (4 ≤ input.pointStep.toUInt64 - offset)

def fieldsFit (input : PointCloud2) : Bool :=
  fieldFits input (fieldOffset input "x") && fieldFits input (fieldOffset input "y") &&
    fieldFits input (fieldOffset input "z") && input.pointStep ≠ 0

/-- The offsets, read after `fieldsFit`. -/
structure Offsets where
  x : UInt64
  y : UInt64
  z : UInt64

def offsets (input : PointCloud2) : Offsets :=
  ⟨(fieldOffset input "x").getD 0, (fieldOffset input "y").getD 0, (fieldOffset input "z").getD 0⟩

/-! ### The loop -/

section Loop
variable [Field K] [LinearOrder K] (box : Box K)

def payload (x y z : Double K) : Bool :=
  x.isFinite && y.isFinite && z.isFinite &&
    Double.numGE x.value box.minX && Double.numLE x.value box.maxX &&
    Double.numGE y.value box.minY && Double.numLE y.value box.maxY &&
    Double.numGE z.value box.minZ && Double.numLE z.value box.maxZ

/-- The bytes from one iterator to another. -/
def slice (data : List UInt8) (position size : ℕ) : List UInt8 := (data.drop position).take size

/-- The body of the loops. -/
def visit (input output : PointCloud2) (row column : UInt64) : PointCloud2 :=
  let offset := row * input.rowStep.toUInt64 + column * input.pointStep.toUInt64
  if input.data.length < (offset + input.pointStep.toUInt64).toNat then output
  else
    let x : Double K := readFloat input.data (offset + (offsets input).x)
    let y : Double K := readFloat input.data (offset + (offsets input).y)
    let z : Double K := readFloat input.data (offset + (offsets input).z)
    if payload box x y z then output
    else
      { output with
        data := output.data ++ slice input.data offset.toNat input.pointStep.toNat
        width := output.width + 1 }

/-- The values of a loop variable. -/
def counter (bound : UInt32) : List UInt64 := (List.range bound.toNat).map UInt64.ofNat

def loops (input output : PointCloud2) : PointCloud2 :=
  (counter input.height).foldl (fun output row =>
    (counter input.width).foldl (fun output column => visit box input output row column) output)
    output

end Loop

variable [Field K] [LinearOrder K]

/-- The callback of the cloud: what is published, if anything. -/
def filter (node : Node K) (input : PointCloud2) : Option PointCloud2 :=
  if node.state ≠ .holding then some input
  else if !fieldsFit input then none
  else
    let output := { input with height := 1, width := 0, rowStep := 0, data := [] }
    let output := loops node.box input output
    some { output with rowStep := output.width * output.pointStep }

end X2Navigation.PayloadCloudFilter
