import BlochSphere.Scalar
import BlochSphere.Scalar.Binary64
import BlochSphere.Amplitude
import BlochSphere.Vec3
import BlochSphere.Quat
import BlochSphere.Easing
import BlochSphere.Gate
import BlochSphere.Gate.Code
import BlochSphere.Gate.Parse
import BlochSphere.Fault
import BlochSphere.Qubit
import BlochSphere.Qubit.Sample
import BlochSphere.Qubit.Display
import BlochSphere.Random
import BlochSphere.Text.Utf8
import BlochSphere.Text.Blank
import BlochSphere.Text.Printable
import BlochSphere.Text.Quoted
import BlochSphere.Decimal.Fixed
import BlochSphere.Decimal.Shortest
import BlochSphere.Rotation
import BlochSphere.Schedule
import BlochSphere.Frame
import BlochSphere.Renderer
import BlochSphere.Duration
import BlochSphere.Metrics
import BlochSphere.Animator
import BlochSphere.Broadcast
import BlochSphere.Config
import BlochSphere.View
import BlochSphere.Session
import BlochSphere.Duration.Parse
import BlochSphere.Yaml.Scalar
import BlochSphere.Yaml.Name
import BlochSphere.Yaml.Stream
import BlochSphere.Yaml.Node
import BlochSphere.Text.Base64
import BlochSphere.Yaml.Timestamp
import BlochSphere.Yaml.Value
import BlochSphere.Config.File
import BlochSphere.CommandLine
import BlochSphere.Canvas
import BlochSphere.Canvas.Footer
import BlochSphere.Terminal
import BlochSphere.Main
import BlochSphere.Proofs.Quat
import BlochSphere.Proofs.Animation.Step
import BlochSphere.Proofs.Animation.Trace
import BlochSphere.Proofs.Bloch
import BlochSphere.Proofs.Scalar.UnitInterval
import BlochSphere.Proofs.Animation.Stage
import BlochSphere.Proofs.Animation.Order
import BlochSphere.Proofs.Animation.Callback
import BlochSphere.Proofs.Animation.Commit
import BlochSphere.Proofs.View
import BlochSphere.Proofs.Animation.Trail
import BlochSphere.Proofs.Scalar.WholeNumbers
import BlochSphere.Proofs.Animation.Keyframe
import BlochSphere.Proofs.Animation.Marker
import BlochSphere.Proofs.Broadcast
import BlochSphere.Proofs.Canvas
import BlochSphere.Proofs.Feed
import BlochSphere.Proofs.Animation.Renewal
import BlochSphere.Proofs.Reset
import BlochSphere.Proofs.Rejection
import BlochSphere.Proofs.Broadcast.Outcome
import BlochSphere.Proofs.Broadcast.Sound
import BlochSphere.Proofs.Broadcast.Station
import BlochSphere.Proofs.Broadcast.Mailbox
import BlochSphere.Proofs.Broadcast.Closing
import BlochSphere.Proofs.Broadcast.Account
import BlochSphere.Proofs.Engine.Visits
import BlochSphere.Proofs.Engine.Sphere
import BlochSphere.Proofs.Schedule
import BlochSphere.Proofs.Schedule.Ticker
import BlochSphere.Proofs.Easing
import BlochSphere.Proofs.Animation.Elapsed
import BlochSphere.Proofs.Animation.Showing
import BlochSphere.Proofs.Animation.Progress
import BlochSphere.Proofs.Tally
import BlochSphere.Proofs.Broadcast.Failure
import BlochSphere.Proofs.Quat.Sweep
import BlochSphere.Proofs.Animation.Drain
import BlochSphere.Proofs.Scalar.Rounding
import BlochSphere.Proofs.Qubit.Sample
import BlochSphere.Proofs.Qubit.Impossible
import BlochSphere.Proofs.Qubit.Estimate
import BlochSphere.Proofs.Metrics.Percentile
import BlochSphere.Proofs.Scalar.Nearest
import BlochSphere.Proofs.Scalar.Value
import BlochSphere.Proofs.Scalar.Steps
import BlochSphere.Proofs.Engine.Path
import BlochSphere.Proofs.Engine.Reached
import BlochSphere.Proofs.Metrics.Average
import BlochSphere.Proofs.Qubit.Unitary
import BlochSphere.Proofs.Gate.Language
import BlochSphere.Proofs.Decimal.Shortest
import BlochSphere.Proofs.Scalar.Magnitude
import BlochSphere.Proofs.Decimal.Positional
import BlochSphere.Proofs.Qubit.Display
import BlochSphere.Proofs.CommandLine
import BlochSphere.Proofs.Terminal
import BlochSphere.Proofs.Animation.Event
import BlochSphere.Proofs.Animation.Fading
import BlochSphere.Proofs.Canvas.Layout
import BlochSphere.Proofs.Canvas.Sphere
import BlochSphere.Proofs.Canvas.Labels
