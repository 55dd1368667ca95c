import X2Navigation.Numeric.EvenSpread
import X2Navigation.Numeric.Checked
import X2Navigation.Numeric.Decimal
import X2Navigation.Numeric.Binary64
import X2Navigation.Numeric.Arithmetic
import X2Navigation.Rigid.Motion
import X2Navigation.Rigid.Exponential
import X2Navigation.Rigid.Conversions
import X2Navigation.Rigid.Doubles
import X2Navigation.Command.NavigationCommandGate
import X2Navigation.Command.GateHistory
import X2Navigation.Command.VelocityCommand
import X2Navigation.Command.VelocityBridge
import X2Navigation.Odometry.Messages
import X2Navigation.Odometry.Transform
import X2Navigation.Odometry.TwistCovariance
import X2Navigation.Odometry.Transport
import X2Navigation.Odometry.PoseJacobian
import X2Navigation.Odin.Adapter
import X2Navigation.Odin.FailClosed
import X2Navigation.Odin.Reconstruction
import X2Navigation.Odin.LocalQueue
import X2Navigation.Odin.Overflow
import X2Navigation.Docking.Geometry
import X2Navigation.Docking.HolonomicFineAlign
import X2Navigation.Docking.Motion
import X2Navigation.Docking.Steering
import X2Navigation.Docking.Envelope
import X2Navigation.Docking.Heading
import X2Navigation.Docking.StoppedAxes
import X2Navigation.Server.Parameters
import X2Navigation.Docking.WaitingBand
import X2Navigation.Interaction.Discipline
import X2Navigation.Docking.Settling
import X2Navigation.Docking.Dwell
import X2Navigation.Docking.Tracker
import X2Navigation.Docking.Acquisition
import X2Navigation.Server.Messages
import X2Navigation.Server.Profiles
import X2Navigation.Server.BoxInstance
import X2Navigation.Server.Interface
import X2Navigation.Server.Operations
import X2Navigation.Server.Conduct
import X2Navigation.Server.Duties
import X2Navigation.Server.Contract
import X2Navigation.Interaction.World
import X2Navigation.Server.NavigationAbort
import X2Navigation.Server.Completion
import X2Navigation.Docking.PlanarPose
import X2Navigation.Docking.ExactTracking
import X2Navigation.Docking.Contraction
import X2Navigation.Docking.TagProjection
import X2Navigation.Server.Retreat
import X2Navigation.Server.Bookkeeping
import X2Navigation.Server.State
import X2Navigation.Server.Tick
import X2Navigation.Server.System
import X2Navigation.Server.Ownership
import X2Navigation.Server.Restraint
import X2Navigation.Server.CommandOrigin
import X2Navigation.Server.Provenance
import X2Navigation.Server.RetryDiscipline
import X2Navigation.Server.DockHistory
import X2Navigation.Server.Stopwatch
import X2Navigation.Server.OpenLoop
import X2Navigation.Cloud.Messages
import X2Navigation.Traced.Conveyor
import X2Navigation.Costmap.PointCloudObstacleLayer
import X2Navigation.Costmap.CloudQueue
import X2Navigation.Grouping.FirstAppearance
import X2Navigation.Numeric.Binary32
import X2Navigation.Cloud.VoxelFilter
import X2Navigation.Cloud.Downsampling
import X2Navigation.Cloud.LidarCloudThrottle
import X2Navigation.Temporal.Since
import X2Navigation.Temporal.Latch
import X2Navigation.Docking.AxisTrace
import X2Navigation.Server.Activation
import X2Navigation.Server.Attempts
import X2Navigation.Stamps.Escapes
import X2Navigation.Startup.ReadinessHold
import X2Navigation.Startup.LocalizationGate
import X2Navigation.Cloud.PayloadCloudFilter
import X2Navigation.Cloud.PayloadRemoval
import X2Navigation.Cloud.UniformSampling
import X2Navigation.Cloud.Idempotence
import X2Navigation.Cloud.InBounds
import X2Navigation.Cloud.HandOff
import X2Navigation.Cloud.VoxelKeyRange
import X2Navigation.Numeric.Truncation
import X2Navigation.Timing.Periods
import X2Navigation.Server.Periods
import X2Navigation.Traced.Bus
import X2Navigation.Interaction.Memory
import X2Navigation.Interaction.Termination
import X2Navigation.Odin.Readiness
import X2Navigation.Odin.Recovery
import X2Navigation.Odin.DeadReckoning
import X2Navigation.Nodes.System
import X2Navigation.Nodes.Heartbeat
import X2Navigation.Nodes.StartupRequest
import X2Navigation.Nodes.DirectAlignment
import X2Navigation.Numeric.SignificantDigits
import X2Navigation.Text.Numeral
import X2Navigation.Text.GeneralFormat
import X2Navigation.Text.Json
import X2Navigation.Command.VelocityJson
import X2Navigation.Server.Evidence
import X2Navigation.Server.Reasons
import X2Navigation.Server.Justification
import X2Navigation.Server.Testimony
import X2Navigation.Server.Deadlines
import X2Navigation.Server.Turns
import X2Navigation.Server.Checks
import X2Navigation.Server.Attestation
import X2Navigation.Server.Reaction
import X2Navigation.Routing.Pipeline
import X2Navigation.Launch.CommandTopics
