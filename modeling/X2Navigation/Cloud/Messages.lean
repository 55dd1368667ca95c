import X2Navigation.Numeric.Double
import X2Navigation.Odometry.Messages

/-! Point cloud messages as they come off the wire: a flat buffer of bytes and
the layout it claims to have. Nothing here is validated. -/

namespace X2Navigation

/-- `sensor_msgs/PointField`. -/
structure PointField where
  name : String
  offset : UInt32
  datatype : UInt8
  count : UInt32
  deriving DecidableEq

def PointField.FLOAT32 : UInt8 := 7

/-- `sensor_msgs/PointCloud2`. -/
structure PointCloud2 where
  header : Header
  height : UInt32
  width : UInt32
  fields : List PointField
  isBigendian : Bool
  pointStep : UInt32
  rowStep : UInt32
  data : List UInt8
  isDense : Bool
  deriving DecidableEq

/-- What escapes a function of the standard library or of rclcpp. -/
inductive StdException
  | outOfRange
  | runtimeError
  | overflowError
  | underflowError
  deriving DecidableEq

/-- `rclcpp::Time` of a message, in nanoseconds; it refuses negative seconds. -/
def Time.rclcpp (t : Time) : Except StdException TimePoint :=
  if t.sec < 0 then .error .runtimeError
  else .ok (t.sec.toInt * 1000000000 + t.nanosec.toNat)

/-- `rclcpp::Time::operator+=` with a duration. -/
def TimePoint.plus (t : TimePoint) (duration : Int64) : Except StdException TimePoint :=
  let sum : ℤ := t + duration.toInt
  if Int64.maxValue.toInt < sum then .error .overflowError
  else if sum < Int64.minValue.toInt then .error .underflowError
  else .ok sum

/-- The conversion of an `rclcpp::Time` back to a message. -/
def TimePoint.toMessage (t : TimePoint) : Time :=
  ⟨Int32.ofInt (t / 1000000000), UInt32.ofNat (t % 1000000000).toNat⟩

end X2Navigation
