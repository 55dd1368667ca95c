import X2Navigation.Cloud.PayloadCloudFilter
import X2Navigation.Numeric.Checked

/-! What the payload filter publishes while the robot holds a box: the records of the points
that are not inside the box, whole and in row-major order. The loops are given a second time
with every sum, product, move and read checked, and no check fails for a valid layout. -/

namespace X2Navigation.PayloadCloudFilter

open Checked
open PointCloudVoxelFilter (readFloat readFloat_congr)

variable {K : Type*} [Field K] [LinearOrder K]

/-! ### The specification -/

/-- The bytes of a point. -/
def record (input : PointCloud2) (row column : ℕ) : List UInt8 :=
  slice input.data (row * input.rowStep.toNat + column * input.pointStep.toNat)
    input.pointStep.toNat

def records (input : PointCloud2) : List (List UInt8) :=
  (List.range input.height.toNat).flatMap fun row =>
    (List.range input.width.toNat).map fun column => record input row column

/-- The coordinates in a record are finite and inside the box. -/
def isPayload (box : Box K) (offsets : Offsets) (record : List UInt8) : Bool :=
  payload box (readFloat record offsets.x) (readFloat record offsets.y)
    (readFloat record offsets.z)

def keptRecords (box : Box K) (input : PointCloud2) : List (List UInt8) :=
  (records input).filter fun record => !isPayload box (offsets input) record

/-- The sizes are what they should be; no product wraps. -/
structure ValidLayout (cloud : PointCloud2) : Prop where
  row : cloud.width.toNat * cloud.pointStep.toNat ≤ cloud.rowStep.toNat
  data : cloud.height.toNat * cloud.rowStep.toNat ≤ cloud.data.length
  size : cloud.data.length < 2 ^ 32

/-- The output is the input without the payload, in one row. -/
structure Removed (box : Box K) (input output : PointCloud2) : Prop where
  complete : ∀ record ∈ records input, record.length = input.pointStep.toNat
  data : output.data = (keptRecords box input).flatten
  width : output.width.toNat = (keptRecords box input).length
  rowStep : output.rowStep.toNat = output.width.toNat * output.pointStep.toNat
  size : output.data.length = output.rowStep.toNat
  rest : output =
    { input with
      height := 1
      width := output.width
      rowStep := output.rowStep
      data := output.data }

/-! ### The checked loops -/

/-- Four bytes are read at `offset + field`. -/
def readPosition? (input : PointCloud2) (offset field : UInt64) : Option UInt64 := do
  let pointData ← move? input.data.length 0 offset
  let position ← move? input.data.length pointData field
  readable? input.data.length position 4
  some position

def slice? (data : List UInt8) (position size : UInt64) : Option (List UInt8) := do
  let first ← move? data.length 0 position
  let _ ← move? data.length first size
  some (slice data first.toNat size.toNat)

def visit? (box : Box K) (input output : PointCloud2) (row column : UInt64) :
    Option PointCloud2 := do
  let rowOffset ← mul? row input.rowStep.toUInt64
  let columnOffset ← mul? column input.pointStep.toUInt64
  let offset ← add? rowOffset columnOffset
  let last ← add? offset input.pointStep.toUInt64
  if input.data.length < last.toNat then some output
  else do
    let x ← readPosition? input offset (offsets input).x
    let y ← readPosition? input offset (offsets input).y
    let z ← readPosition? input offset (offsets input).z
    if payload box (readFloat input.data x) (readFloat input.data y) (readFloat input.data z) then
      some output
    else do
      let record ← slice? input.data offset input.pointStep.toUInt64
      let width ← add32? output.width 1
      some { output with data := output.data ++ record, width := width }

def loops? (box : Box K) (input output : PointCloud2) : Option PointCloud2 :=
  (counter input.height).foldlM (fun output row =>
    (counter input.width).foldlM (fun output column => visit? box input output row column) output)
    output

/-- The field checks guard their one subtraction themselves. -/
def filter? (node : Node K) (input : PointCloud2) : Option (Option PointCloud2) :=
  if node.state ≠ .holding then some (some input)
  else if !fieldsFit input then some none
  else do
    let output := { input with height := 1, width := 0, rowStep := 0, data := [] }
    let output ← loops? node.box input output
    let rowStep ← mul32? output.width output.pointStep
    some (some { output with rowStep := rowStep })

/-! ### One point -/

/-- A field of four bytes ends inside the record. -/
structure Offsets.Fit (offsets : Offsets) (size : ℕ) : Prop where
  x : offsets.x.toNat + 4 ≤ size
  y : offsets.y.toNat + 4 ≤ size
  z : offsets.z.toNat + 4 ≤ size

theorem fieldFits_le {input : PointCloud2} {offset : Option UInt64}
    (h : fieldFits input offset = true) : (offset.getD 0).toNat + 4 ≤ input.pointStep.toNat := by
  cases offset with
  | none => cases h
  | some offset =>
    simp only [fieldFits, Bool.and_eq_true, decide_eq_true_eq] at h
    obtain ⟨hle, hfits⟩ := h
    have hfour : (4 : UInt64).toNat = 4 := rfl
    rw [UInt64.le_iff_toNat_le, UInt64.toNat_sub_of_le _ _ hle] at hfits
    rw [UInt64.le_iff_toNat_le] at hle
    rw [UInt32.toNat_toUInt64] at hle hfits
    rw [Option.getD_some]
    omega

theorem offsets_fit {input : PointCloud2} (h : fieldsFit input = true) :
    (offsets input).Fit input.pointStep.toNat := by
  simp only [fieldsFit, Bool.and_eq_true] at h
  exact ⟨fieldFits_le h.1.1.1, fieldFits_le h.1.1.2, fieldFits_le h.1.2⟩

omit [LinearOrder K] in
/-- A field is read from its record as from the buffer. -/
theorem readFloat_slice {data : List UInt8} {position field : UInt64} {size : ℕ}
    (hfits : position.toNat + field.toNat < 2 ^ 64) (hfield : field.toNat + 4 ≤ size) :
    readFloat (K := K) (slice data position.toNat size) field =
      readFloat data (position + field) := by
  apply readFloat_congr
  intro j hj
  rw [toNat_add hfits, slice, List.getElem?_take_of_lt (by omega), List.getElem?_drop,
    Nat.add_assoc]

/-- A record is added to the output. -/
def push (output : PointCloud2) (record : List UInt8) : PointCloud2 :=
  { output with data := output.data ++ record, width := output.width + 1 }

def keepRecord (box : Box K) (offsets : Offsets) (output : PointCloud2) (record : List UInt8) :
    PointCloud2 :=
  if isPayload box offsets record then output else push output record

section Point
variable {input : PointCloud2} {row column : ℕ}

/-- Where a record stands, in the arithmetic of the machine. -/
structure Located (input : PointCloud2) (row column : ℕ) : Prop where
  rowFits : (UInt64.ofNat row).toNat * input.rowStep.toUInt64.toNat < 2 ^ 64
  columnFits : (UInt64.ofNat column).toNat * input.pointStep.toUInt64.toNat < 2 ^ 64
  sumFits : (UInt64.ofNat row * input.rowStep.toUInt64).toNat +
    (UInt64.ofNat column * input.pointStep.toUInt64).toNat < 2 ^ 64
  offset : (UInt64.ofNat row * input.rowStep.toUInt64 +
    UInt64.ofNat column * input.pointStep.toUInt64).toNat =
      row * input.rowStep.toNat + column * input.pointStep.toNat
  inside : row * input.rowStep.toNat + column * input.pointStep.toNat + input.pointStep.toNat ≤
    input.data.length

theorem located (h : ValidLayout input) (hrow : row < input.height.toNat)
    (hcolumn : column < input.width.toNat) : Located input row column := by
  have hinside := (cell_le hrow hcolumn h.row).trans h.data
  have hsize := h.size
  have hheight := input.height.toNat_lt
  have hwidth := input.width.toNat_lt
  have hrowNat : (UInt64.ofNat row).toNat = row := UInt64.toNat_ofNat_of_lt' (by
    simp only [UInt64.size]; omega)
  have hcolumnNat : (UInt64.ofNat column).toNat = column := UInt64.toNat_ofNat_of_lt' (by
    simp only [UInt64.size]; omega)
  have hrowFits : (UInt64.ofNat row).toNat * input.rowStep.toUInt64.toNat < 2 ^ 64 := by
    rw [hrowNat, UInt32.toNat_toUInt64]
    omega
  have hcolumnFits : (UInt64.ofNat column).toNat * input.pointStep.toUInt64.toNat < 2 ^ 64 := by
    rw [hcolumnNat, UInt32.toNat_toUInt64]
    omega
  have hrowOffset : (UInt64.ofNat row * input.rowStep.toUInt64).toNat =
      row * input.rowStep.toNat := by
    rw [toNat_mul hrowFits, hrowNat, UInt32.toNat_toUInt64]
  have hcolumnOffset : (UInt64.ofNat column * input.pointStep.toUInt64).toNat =
      column * input.pointStep.toNat := by
    rw [toNat_mul hcolumnFits, hcolumnNat, UInt32.toNat_toUInt64]
  have hsumFits : (UInt64.ofNat row * input.rowStep.toUInt64).toNat +
      (UInt64.ofNat column * input.pointStep.toUInt64).toNat < 2 ^ 64 := by
    rw [hrowOffset, hcolumnOffset]
    omega
  refine ⟨hrowFits, hcolumnFits, hsumFits, ?_, hinside⟩
  rw [toNat_add hsumFits, hrowOffset, hcolumnOffset]

variable {offset : UInt64}

theorem readPosition_eq {field : UInt64} (hsize : input.data.length < 2 ^ 32)
    (hinside : offset.toNat + input.pointStep.toNat ≤ input.data.length)
    (hfield : field.toNat + 4 ≤ input.pointStep.toNat) :
    readPosition? input offset field = some (offset + field) := by
  have hfits : offset.toNat + field.toNat < 2 ^ 64 := by omega
  have hposition := toNat_add hfits
  unfold readPosition?
  rw [move_eq (by rw [UInt64.toNat_zero]; omega) (by rw [UInt64.toNat_zero]; omega)]
  rw [UInt64.zero_add, Option.bind_eq_bind, Option.bind_some, move_eq hfits (by omega)]
  rw [Option.bind_some, readable_eq (by omega)]
  rfl

theorem slice_eq (hsize : input.data.length < 2 ^ 32)
    (hinside : offset.toNat + input.pointStep.toNat ≤ input.data.length) :
    slice? input.data offset input.pointStep.toUInt64 =
      some (slice input.data offset.toNat input.pointStep.toNat) := by
  unfold slice?
  rw [move_eq (by rw [UInt64.toNat_zero]; omega) (by rw [UInt64.toNat_zero]; omega)]
  rw [UInt64.zero_add, Option.bind_eq_bind, Option.bind_some]
  rw [move_eq (by rw [UInt32.toNat_toUInt64]; omega) (by rw [UInt32.toNat_toUInt64]; omega)]
  rw [Option.bind_some, UInt32.toNat_toUInt64]

/-- An iteration looks at one record and keeps it whole or not at all. -/
theorem visit_eq (box : Box K) (h : ValidLayout input) (hfields : fieldsFit input = true)
    (hrow : row < input.height.toNat) (hcolumn : column < input.width.toNat)
    (output : PointCloud2) :
    visit box input output (.ofNat row) (.ofNat column) =
      keepRecord box (offsets input) output (record input row column) := by
  have hlocated := located h hrow hcolumn
  have hfit := offsets_fit hfields
  have hsize := h.size
  have hinside := hlocated.inside
  have hrecord : record input row column = slice input.data
      (UInt64.ofNat row * input.rowStep.toUInt64 +
        UInt64.ofNat column * input.pointStep.toUInt64).toNat input.pointStep.toNat := by
    rw [hlocated.offset]
    rfl
  have hoffset := hlocated.offset
  unfold visit keepRecord isPayload
  dsimp only
  rw [hrecord]
  generalize UInt64.ofNat row * input.rowStep.toUInt64 +
    UInt64.ofNat column * input.pointStep.toUInt64 = offset at hoffset
  have hlast : (offset + input.pointStep.toUInt64).toNat = offset.toNat + input.pointStep.toNat := by
    rw [toNat_add (by rw [UInt32.toNat_toUInt64]; omega), UInt32.toNat_toUInt64]
  have hx := hfit.x
  have hy := hfit.y
  have hz := hfit.z
  rw [if_neg (by rw [hlast]; omega), readFloat_slice (by omega) hfit.x,
    readFloat_slice (by omega) hfit.y, readFloat_slice (by omega) hfit.z]
  rfl

theorem visit_checked (box : Box K) (h : ValidLayout input) (hfields : fieldsFit input = true)
    (hrow : row < input.height.toNat) (hcolumn : column < input.width.toNat)
    {output : PointCloud2} (hwidth : output.width.toNat + 1 < 2 ^ 32) :
    visit? box input output (.ofNat row) (.ofNat column) =
      some (visit box input output (.ofNat row) (.ofNat column)) := by
  have hlocated := located h hrow hcolumn
  have hfit := offsets_fit hfields
  have hsize := h.size
  have hinside := hlocated.inside
  have hoffset := hlocated.offset
  have hadd : add32? output.width 1 = some (output.width + 1) := add32_eq hwidth
  unfold visit? visit
  rw [mul_eq hlocated.rowFits, mul_eq hlocated.columnFits]
  dsimp only [Option.bind_eq_bind, Option.bind_some]
  rw [add_eq hlocated.sumFits, Option.bind_some]
  generalize UInt64.ofNat row * input.rowStep.toUInt64 +
    UInt64.ofNat column * input.pointStep.toUInt64 = offset at hoffset
  have hlast : offset.toNat + input.pointStep.toUInt64.toNat < 2 ^ 64 := by
    rw [UInt32.toNat_toUInt64]
    omega
  have hrecord : offset.toNat + input.pointStep.toNat ≤ input.data.length := by omega
  rw [add_eq hlast, Option.bind_some]
  split
  · rfl
  · rw [readPosition_eq hsize hrecord hfit.x, readPosition_eq hsize hrecord hfit.y,
      readPosition_eq hsize hrecord hfit.z]
    dsimp only [Option.bind_some]
    split
    · rfl
    · rw [slice_eq hsize hrecord, hadd]
      rfl

end Point

/-! ### The loops -/

theorem foldl_counter {α : Type*} (f : α → UInt64 → α) (bound : UInt32) (a : α) :
    (counter bound).foldl f a =
      (List.range bound.toNat).foldl (fun a k => f a (.ofNat k)) a := List.foldl_map

theorem foldlM_counter {α : Type} (f? : α → UInt64 → Option α) (bound : UInt32) (a : α) :
    (counter bound).foldlM f? a =
      (List.range bound.toNat).foldlM (fun a k => f? a (.ofNat k)) a := List.foldlM_map

section Loops
variable {input : PointCloud2}

theorem foldl_keepRecord (box : Box K) (offsets : Offsets) (records : List (List UInt8))
    (output : PointCloud2) :
    records.foldl (keepRecord box offsets) output =
      (records.filter fun record => !isPayload box offsets record).foldl push output := by
  induction records generalizing output with
  | nil => rfl
  | cons record records ih =>
    rw [List.foldl_cons, ih, List.filter_cons, keepRecord]
    cases isPayload box offsets record with
    | false => rfl
    | true => rfl

theorem foldl_push (records : List (List UInt8)) (output : PointCloud2) :
    records.foldl push output =
      { output with
        data := output.data ++ records.flatten
        width := output.width + .ofNat records.length } := by
  induction records generalizing output with
  | nil => simp
  | cons record records ih =>
    rw [List.foldl_cons, ih]
    simp only [push, List.flatten_cons, List.append_assoc, List.length_cons, PointCloud2.mk.injEq,
      and_true, true_and]
    rw [UInt32.add_assoc, Nat.add_comm, UInt32.ofNat_add]
    rfl

/-- The loops run over the records in row-major order. -/
theorem loops_eq (box : Box K) (h : ValidLayout input) (hfields : fieldsFit input = true)
    (output : PointCloud2) :
    loops box input output = (keptRecords box input).foldl push output := by
  rw [keptRecords, ← foldl_keepRecord, records, List.foldl_flatMap]
  unfold loops
  rw [foldl_counter]
  apply List.foldl_ext
  intro output row hrow
  rw [foldl_counter, List.foldl_map]
  apply List.foldl_ext
  intro output column hcolumn
  exact visit_eq box h hfields (List.mem_range.mp hrow) (List.mem_range.mp hcolumn) output

theorem length_records (input : PointCloud2) :
    (records input).length = input.height.toNat * input.width.toNat := by
  simp [records, List.length_flatMap]

theorem length_record (h : ValidLayout input) :
    ∀ record ∈ records input, record.length = input.pointStep.toNat := by
  intro r hr
  obtain ⟨row, hrow, hr⟩ := List.mem_flatMap.mp hr
  obtain ⟨column, hcolumn, rfl⟩ := List.mem_map.mp hr
  have hinside := (located h (List.mem_range.mp hrow) (List.mem_range.mp hcolumn)).inside
  rw [record, slice, List.length_take, List.length_drop]
  omega

theorem pointStep_pos (hfields : fieldsFit input = true) : 4 ≤ input.pointStep.toNat := by
  have hfit := (offsets_fit hfields).x
  omega

/-- There are fewer points than bytes. -/
theorem points_le (h : ValidLayout input) (hfields : fieldsFit input = true) :
    input.height.toNat * input.width.toNat ≤ input.data.length := by
  have hstep := pointStep_pos hfields
  calc input.height.toNat * input.width.toNat
      ≤ input.height.toNat * (input.width.toNat * input.pointStep.toNat) :=
        Nat.mul_le_mul_left _ (Nat.le_mul_of_pos_right _ (by omega))
    _ ≤ input.height.toNat * input.rowStep.toNat := Nat.mul_le_mul_left _ h.row
    _ ≤ input.data.length := h.data

theorem width_visit_le (box : Box K) (h : ValidLayout input) (hfields : fieldsFit input = true)
    {row column : ℕ} (hrow : row < input.height.toNat) (hcolumn : column < input.width.toNat)
    (output : PointCloud2) :
    (visit box input output (.ofNat row) (.ofNat column)).width.toNat ≤ output.width.toNat + 1 := by
  rw [visit_eq box h hfields hrow hcolumn, keepRecord]
  split
  · omega
  · rw [push, UInt32.toNat_add]
    exact Nat.mod_le _ _

/-- The counter of the points stays behind the number of iterations. -/
theorem loops_checked (box : Box K) (h : ValidLayout input) (hfields : fieldsFit input = true)
    {output : PointCloud2} (hwidth : output.width = 0) :
    loops? box input output = some (loops box input output) := by
  have hpoints := points_le h hfields
  have hsize := h.size
  unfold loops? loops
  rw [foldlM_counter, foldl_counter]
  refine (foldlM_range (fun row (output : PointCloud2) =>
    output.width.toNat ≤ row * input.width.toNat) _ ?_ ?_).1
  · intro row hrow output hrows
    have hnext : (row + 1) * input.width.toNat ≤ input.height.toNat * input.width.toNat :=
      Nat.mul_le_mul_right _ hrow
    rw [Nat.add_one_mul] at hnext ⊢
    rw [foldlM_counter, foldl_counter]
    refine foldlM_range (fun column (output : PointCloud2) =>
      output.width.toNat ≤ row * input.width.toNat + column) _ ?_ hrows
    intro column hcolumn output hcolumns
    have hlt : output.width.toNat + 1 < 2 ^ 32 := by omega
    refine ⟨visit_checked box h hfields hrow hcolumn hlt, ?_⟩
    exact (width_visit_le box h hfields hrow hcolumn output).trans (by omega)
  · rw [hwidth, UInt32.toNat_zero]
    exact Nat.zero_le _

end Loops

/-! ### What is published -/

section Filter
variable {node : Node K} {input output : PointCloud2}

/-- The cloud of one row that holds some records. -/
def flattened (input : PointCloud2) (records : List (List UInt8)) : PointCloud2 :=
  { input with
    height := 1
    width := .ofNat records.length
    rowStep := .ofNat records.length * input.pointStep
    data := records.flatten }

theorem filter_eq (hstate : node.state = .holding) (hfields : fieldsFit input = true)
    (h : ValidLayout input) :
    filter node input = some (flattened input (keptRecords node.box input)) := by
  unfold filter
  rw [if_neg (by rw [hstate]; decide), if_neg (by rw [hfields]; decide)]
  dsimp only
  rw [loops_eq node.box h hfields, foldl_push]
  simp only [UInt32.zero_add, List.nil_append]
  rfl

theorem length_flatten_records (h : ValidLayout input) (box : Box K) :
    (keptRecords box input).flatten.length =
      (keptRecords box input).length * input.pointStep.toNat := by
  rw [List.length_flatten, List.sum_eq_card_nsmul _ input.pointStep.toNat, List.length_map]
  · rfl
  · intro n hn
    obtain ⟨record, hrecord, rfl⟩ := List.mem_map.mp hn
    exact length_record h record (List.mem_filter.mp hrecord).1

theorem flatten_le (h : ValidLayout input) (box : Box K) :
    (keptRecords box input).length * input.pointStep.toNat ≤ input.data.length := by
  have hkept : (keptRecords box input).length ≤ input.height.toNat * input.width.toNat := by
    rw [← length_records]
    exact List.length_filter_le _ _
  calc (keptRecords box input).length * input.pointStep.toNat
      ≤ input.height.toNat * input.width.toNat * input.pointStep.toNat :=
        Nat.mul_le_mul_right _ hkept
    _ = input.height.toNat * (input.width.toNat * input.pointStep.toNat) := Nat.mul_assoc _ _ _
    _ ≤ input.height.toNat * input.rowStep.toNat := Nat.mul_le_mul_left _ h.row
    _ ≤ input.data.length := h.data

/-- Neither the counter nor the size of the row wraps. -/
theorem kept_fits (h : ValidLayout input) (hfields : fieldsFit input = true) (box : Box K) :
    (UInt32.ofNat (keptRecords box input).length).toNat = (keptRecords box input).length ∧
      (UInt32.ofNat (keptRecords box input).length).toNat * input.pointStep.toNat < 2 ^ 32 := by
  have hsize := h.size
  have hstep := pointStep_pos hfields
  have hle := flatten_le h box
  have hcount : (keptRecords box input).length ≤
      (keptRecords box input).length * input.pointStep.toNat :=
    Nat.le_mul_of_pos_right _ (by omega)
  have hwidth : (UInt32.ofNat (keptRecords box input).length).toNat =
      (keptRecords box input).length :=
    UInt32.toNat_ofNat_of_lt' (by simp only [UInt32.size]; omega)
  refine ⟨hwidth, ?_⟩
  rw [hwidth]
  omega

theorem removed (h : ValidLayout input) (hfields : fieldsFit input = true) (box : Box K) :
    Removed box input (flattened input (keptRecords box input)) := by
  obtain ⟨hwidth, hfits⟩ := kept_fits h hfields box
  have hproduct := toNat_mul32 hfits
  constructor
  · exact length_record h
  · rfl
  · exact hwidth
  · exact hproduct
  · exact (length_flatten_records h box).trans (by rw [← hwidth]; exact hproduct.symm)
  · rfl

theorem filter_checked (hstate : node.state = .holding) (hfields : fieldsFit input = true)
    (h : ValidLayout input) : filter? node input = some (filter node input) := by
  have hholding : ¬node.state ≠ .holding := not_not.mpr hstate
  have hfit : ¬(!fieldsFit input) = true := by
    rw [hfields]
    decide
  have hfits := (kept_fits h hfields node.box).2
  unfold filter? filter
  rw [if_neg hholding, if_neg hholding, if_neg hfit, if_neg hfit]
  dsimp only [Option.bind_eq_bind]
  rw [loops_checked node.box h hfields rfl, Option.bind_some]
  rw [loops_eq node.box h hfields, foldl_push]
  simp only [UInt32.zero_add]
  rw [mul32_eq hfits, Option.bind_some]

/-! ### A second pass -/

/-- Records of one size are found again where they were put. -/
theorem slice_flatten {size : ℕ} {records : List (List UInt8)} {k : ℕ} {record : List UInt8}
    (hsize : ∀ record ∈ records, record.length = size) (h : records[k]? = some record) :
    slice records.flatten (k * size) size = record := by
  induction records generalizing k with
  | nil => cases h
  | cons first records ih =>
    obtain ⟨hfirst, hrest⟩ := List.forall_mem_cons.mp hsize
    rw [List.flatten_cons]
    cases k with
    | zero =>
      obtain rfl := Option.some.inj h
      rw [slice, Nat.zero_mul, List.drop_zero, ← hfirst, List.take_left]
    | succ k =>
      have hskip : (k + 1) * size = first.length + k * size := by
        rw [hfirst, Nat.add_one_mul, Nat.add_comm]
      rw [slice, hskip, List.drop_length_add_append]
      exact ih hrest h

/-- The records of the output are those that were kept. -/
theorem records_flattened (h : ValidLayout input) (hfields : fieldsFit input = true) (box : Box K) :
    records (flattened input (keptRecords box input)) = keptRecords box input := by
  have hwidth := (kept_fits h hfields box).1
  have hcomplete : ∀ record ∈ keptRecords box input, record.length = input.pointStep.toNat :=
    fun record hrecord => length_record h record (List.mem_filter.mp hrecord).1
  have hone : (flattened input (keptRecords box input)).height.toNat = 1 := rfl
  have hcount : (flattened input (keptRecords box input)).width.toNat =
      (keptRecords box input).length := hwidth
  unfold records
  rw [hone, hcount, List.range_one, List.flatMap_singleton]
  apply List.ext_getElem
  · rw [List.length_map, List.length_range]
  intro k hk hk'
  rw [List.getElem_map, List.getElem_range, record, Nat.zero_mul, Nat.zero_add]
  exact slice_flatten hcomplete (List.getElem?_eq_getElem hk')

theorem fieldsFit_flattened (records : List (List UInt8)) (hfields : fieldsFit input = true) :
    fieldsFit (flattened input records) = true := hfields

theorem validLayout_flattened (h : ValidLayout input) (hfields : fieldsFit input = true)
    (box : Box K) : ValidLayout (flattened input (keptRecords box input)) := by
  have hremoved := removed h hfields box
  have hrow := hremoved.rowStep
  constructor
  · exact hrow.ge
  · rw [hremoved.size]
    exact (Nat.one_mul _).le
  · have hle := flatten_le h box
    have hlen := length_flatten_records h box
    have hsize := h.size
    change (keptRecords box input).flatten.length < 2 ^ 32
    omega

/-- What is left has no payload. -/
theorem keptRecords_flattened (h : ValidLayout input) (hfields : fieldsFit input = true)
    (box : Box K) :
    keptRecords box (flattened input (keptRecords box input)) = keptRecords box input := by
  rw [keptRecords, records_flattened h hfields]
  apply List.filter_eq_self.mpr
  intro record hrecord
  exact (List.mem_filter.mp hrecord).2

/-- While the robot holds a box, a cloud with a valid layout loses the points in the box and
nothing else, every access is in bounds, and a second pass changes nothing. -/
theorem filter_removes (node : Node K) (input : PointCloud2) (hstate : node.state = .holding)
    (hfields : fieldsFit input = true) (h : ValidLayout input) :
    ∃ output, filter? node input = some (some output) ∧ filter node input = some output ∧
      Removed node.box input output ∧ filter node output = some output := by
  have hfilter := filter_eq hstate hfields h
  refine ⟨flattened input (keptRecords node.box input), ?_, hfilter, removed h hfields _, ?_⟩
  · rw [filter_checked hstate hfields h, hfilter]
  · have hlayout := validLayout_flattened h hfields node.box
    have hagain := filter_eq hstate (fieldsFit_flattened _ hfields) hlayout
    rw [hagain, keptRecords_flattened h hfields]
    rfl

end Filter

/-! ### Three points -/

/-- A box around the point `(1, 0, 0)`. -/
def sampleNode : Node ℚ :=
  ⟨⟨.finite (1 / 2), .finite 2, .finite (-1), .finite 1, .finite (-1), .finite 1⟩, .holding⟩

/-- Two rows of two points with a number behind each, padded to 40 bytes: one point is in the
box, one is no number. -/
def sampleCloud : PointCloud2 where
  header := ⟨⟨1, 0⟩, "lidar"⟩
  height := 2
  width := 2
  fields := [⟨"x", 0, 7, 1⟩, ⟨"y", 4, 7, 1⟩, ⟨"z", 8, 7, 1⟩, ⟨"intensity", 12, 7, 1⟩]
  isBigendian := false
  pointStep := 16
  rowStep := 40
  data := [0x3F800000, 0, 0, 1, 0x40800000, 0, 0, 2, 0, 0, 0x7FC00000, 0, 0, 3, 0x40A00000, 0, 0, 4,
    0, 0].flatMap bytes
  isDense := false

theorem filter_removes_sample : ∃ output,
    filter? sampleNode sampleCloud = some (some output) ∧
      filter sampleNode sampleCloud = some output ∧
      Removed sampleNode.box sampleCloud output ∧ filter sampleNode output = some output :=
  filter_removes sampleNode sampleCloud rfl (by decide) ⟨by decide, by decide, by decide⟩

/-- Three records are left. -/
example : (filter sampleNode sampleCloud).map (fun output => (output.width, output.data)) =
    some (3, [0x40800000, 0, 0, 2, 0x7FC00000, 0, 0, 3, 0x40A00000, 0, 0, 4].flatMap bytes) := by
  decide +kernel

end X2Navigation.PayloadCloudFilter
