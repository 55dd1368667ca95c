import X2Navigation.Odometry.Messages

/-! The FAST-LIO odometry adapter: pose, velocity and both covariances of the
tracking sensor, carried over to the robot base it is mounted on. -/

namespace X2Navigation

open Matrix Rigid

section
variable {K : Type*} [CommRing K]

/-- The orientation is taken as it comes, normalized or not. -/
def fromMsg (pose : Pose K) : Isometry3 K :=
  ⟨toRotationMatrix pose.orientation, pose.position.toFun⟩

def toMsg (E : Eigen K) (T : Isometry3 K) : Pose K :=
  ⟨Vector3.ofFun T.translation, E.quaternion T.linear⟩

/-- The rows are position and attitude in fixed odom axes. The attitude columns
are right perturbations in the tracking frame. -/
def poseJacobian (trackingOffsetInOdom : Fin 3 → K) (trackingToOdom : Matrix (Fin 3) (Fin 3) K) :
    Matrix Axes Axes K :=
  fromBlocks 1 (skew trackingOffsetInOdom * trackingToOdom) 0 trackingToOdom

def twistJacobian (translation : Fin 3 → K) (rotation : Matrix (Fin 3) (Fin 3) K) :
    Matrix Axes Axes K :=
  fromBlocks rotation (-skew translation * rotation) 0 rotation

end

section
variable {K : Type*} [Field K] [LT K] [DecidableLT K]

def baseFromTracking (E : Eigen K) (mount : Transform K) : Isometry3 K :=
  ⟨toRotationMatrix (E.normalized mount.rotation), mount.translation.toFun⟩

def transformFastLioOdometry (E : Eigen K) (input : Odometry K)
    (baseFromTrackingMsg : TransformStamped K) (baseFrame : String) : Odometry K :=
  let odomToTracking := fromMsg input.pose.pose
  let mount := baseFromTracking E baseFromTrackingMsg.transform
  let odomToBase := odomToTracking * mount.inverse
  let poseJacobian := poseJacobian (odomToBase.linear *ᵥ mount.translation) odomToTracking.linear
  let trackingLinear := input.twist.twist.linear.toFun
  let trackingAngular := input.twist.twist.angular.toFun
  let baseAngular := mount.linear *ᵥ trackingAngular
  let baseLinear := mount.linear *ᵥ trackingLinear - baseAngular ⨯₃ mount.translation
  let twistJacobian := twistJacobian mount.translation mount.linear
  { header := input.header
    childFrameId := baseFrame
    pose :=
      { pose := toMsg E odomToBase
        covariance := covarianceArray
          (poseJacobian * covarianceMatrix input.pose.covariance * poseJacobian.transpose) }
    twist :=
      { twist := ⟨Vector3.ofFun baseLinear, Vector3.ofFun baseAngular⟩
        covariance := covarianceArray
          (twistJacobian * covarianceMatrix input.twist.covariance * twistJacobian.transpose) } }

end

end X2Navigation
