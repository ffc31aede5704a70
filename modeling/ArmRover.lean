import ArmRover.Arm.Feedback
import ArmRover.Arm.Forward
import ArmRover.Arm.Inverse
import ArmRover.Arm.Joints
import ArmRover.Arm.Planar
import ArmRover.Arm.Reach
import ArmRover.Arm.Trajectory
import ArmRover.Clock.Basic
import ArmRover.Clock.Pool
import ArmRover.Command
import ArmRover.CommandLine.Argument
import ArmRover.CommandLine.Help
import ArmRover.CommandLine.Options
import ArmRover.CommandLine.Run
import ArmRover.Decimal.Binary
import ArmRover.Decimal.Fixed
import ArmRover.Decimal.Shortest
import ArmRover.Execution.Basic
import ArmRover.Execution.Step
import ArmRover.Fault
import ArmRover.Fault.Message
import ArmRover.Geometry.Point
import ArmRover.Geometry.Transform
import ArmRover.Main
import ArmRover.Map.Fusion
import ArmRover.Map.Grid
import ArmRover.Program.Call
import ArmRover.Program.Comment
import ArmRover.Program.Light
import ArmRover.Program.Reader
import ArmRover.Rover.Drive
import ArmRover.Rover.Sensors
import ArmRover.Scalar.Basic
import ArmRover.Scalar.Binary64
import ArmRover.Settings.Basic
import ArmRover.Settings.Sections
import ArmRover.Simulation.Basic
import ArmRover.Simulation.Report
import ArmRover.Station.Basic
import ArmRover.Text.Blank
import ArmRover.Text.Digit
import ArmRover.Text.Lines
import ArmRover.Text.Numeral
import ArmRover.Text.Printable
import ArmRover.Value.Basic
import ArmRover.Value.Measure
import ArmRover.Value.Number
import ArmRover.Value.Reader
import ArmRover.Value.Text
import ArmRover.World.Obstacle
import ArmRover.World.Ray
import ArmRover.World.Reader
import ArmRover.World.Vantage
import ArmRover.Proofs.Action
import ArmRover.Proofs.Clock.Shift
import ArmRover.Proofs.Station.Echo
import ArmRover.Proofs.Execution.Echo
import ArmRover.Proofs.Simulation.Echo
import ArmRover.Proofs.Simulation.Request
import ArmRover.Proofs.Settings.Standard
import ArmRover.Proofs.Simulation.Reset
import ArmRover.Proofs.Station.Resting
import ArmRover.Proofs.Station.Picture
import ArmRover.Proofs.Program.Grammar
import ArmRover.Proofs.Program.Recognition
import ArmRover.Proofs.Program.Comments
import ArmRover.Proofs.Program.Occurrences
import ArmRover.Proofs.Clock.Journal
import ArmRover.Proofs.Clock.Outlast
import ArmRover.Proofs.Clock.Tasks
import ArmRover.Proofs.Execution.Effect
import ArmRover.Proofs.Simulation.Orderly
import ArmRover.Proofs.Arm.Answers
import ArmRover.Proofs.Execution.Sleeps
import ArmRover.Proofs.Execution.Plan
import ArmRover.Proofs.Simulation.Settling
import ArmRover.Proofs.Simulation.Course
import ArmRover.Proofs.Simulation.Asleep
import ArmRover.Proofs.Simulation.Punctual
import ArmRover.Proofs.Simulation.Finish
import ArmRover.Proofs.Simulation.Steady
import ArmRover.Proofs.Scalar.Finite
import ArmRover.Proofs.Value.Amount
import ArmRover.Proofs.Map.Cells
import ArmRover.Proofs.Map.Squares
import ArmRover.Proofs.Map.Fusion
import ArmRover.Proofs.Map.Drawing
import ArmRover.Proofs.Map.Tiles
import ArmRover.Proofs.Map.Reuse
import ArmRover.Proofs.World.Hit
import ArmRover.Proofs.World.Boxes
import ArmRover.Proofs.World.Circles
import ArmRover.Proofs.World.Sight
import ArmRover.Proofs.Map.Truth
import ArmRover.Proofs.Scalar.Order
import ArmRover.Proofs.Arm.Limits
import ArmRover.Proofs.Arm.Search
import ArmRover.Proofs.Arm.Directions
import ArmRover.Proofs.Arm.Links
import ArmRover.Proofs.Arm.Sweep
import ArmRover.Proofs.Arm.Straight
import ArmRover.Proofs.Arm.Folded
import ArmRover.Proofs.Arm.Forward
import ArmRover.Proofs.Arm.Alternation
import ArmRover.Proofs.Arm.RoundTrip
import ArmRover.Proofs.Geometry.Homogeneous
import ArmRover.Proofs.Arm.Agreement
import ArmRover.Proofs.Station.Gates
import ArmRover.Proofs.Simulation.Bystander
import ArmRover.Proofs.Simulation.Skipped
import ArmRover.Proofs.Simulation.CleanSlate
import ArmRover.Proofs.Program.Legible
import ArmRover.Proofs.Program.OneScan
import ArmRover.Proofs.Program.Words
import ArmRover.Proofs.Program.Spans
import ArmRover.Proofs.Program.Printing
import ArmRover.Proofs.Simulation.Single
import ArmRover.Proofs.Station.Distance
import ArmRover.Proofs.Execution.Handout
import ArmRover.Proofs.Simulation.Account
import ArmRover.Proofs.Simulation.Past
import ArmRover.Proofs.Simulation.Measured
import ArmRover.Proofs.Simulation.Always
import ArmRover.Proofs.Simulation.Limits
import ArmRover.Proofs.Arm.Turning
import ArmRover.Proofs.Arm.Way
import ArmRover.Proofs.Execution.Posture
import ArmRover.Proofs.Execution.Sights
import ArmRover.Proofs.Execution.Snapshots
import ArmRover.Proofs.Simulation.Recorded
import ArmRover.Proofs.Simulation.ArmProgram
import ArmRover.Proofs.Geometry.Points
import ArmRover.Proofs.World.Range
import ArmRover.Proofs.World.Nearest
import ArmRover.Proofs.Rover.Velocity
import ArmRover.Proofs.Rover.Advance
import ArmRover.Proofs.Rover.Telemetry
import ArmRover.Proofs.Rover.Coasting
import ArmRover.Proofs.Rover.Path
import ArmRover.Proofs.Rover.Operations
import ArmRover.Proofs.Rover.Unfailing
import ArmRover.Proofs.Simulation.Runaway
import ArmRover.Proofs.Simulation.Envelope
import ArmRover.Proofs.Faults
import ArmRover.Proofs.Station.Faults
import ArmRover.Proofs.Execution.Faults
import ArmRover.Proofs.Simulation.Faults
import ArmRover.Proofs.Simulation.Until
import ArmRover.Proofs.Simulation.Passage
import ArmRover.Proofs.Simulation.Driving
import ArmRover.Proofs.Execution.Preview
import ArmRover.Proofs.Simulation.Preview
import ArmRover.Proofs.Execution.Movement
import ArmRover.Proofs.Simulation.Movement
import ArmRover.Proofs.Arm.Advance
import ArmRover.Proofs.Arm.Stroke
import ArmRover.Proofs.Arm.Velocities
import ArmRover.Proofs.Rover.Window
import ArmRover.Proofs.Simulation.Effort
import ArmRover.Proofs.Arm.Level
import ArmRover.Proofs.Arm.Candidates
import ArmRover.Proofs.Arm.Ring
import ArmRover.Proofs.Arm.Easing
import ArmRover.Proofs.Program.Orders
import ArmRover.Proofs.Program.Settled
import ArmRover.Proofs.Decimal.Rounding
import ArmRover.Proofs.Decimal.Unpacked
import ArmRover.Proofs.Decimal.Packed
import ArmRover.Proofs.Decimal.Scientific
import ArmRover.Proofs.Program.Numerals
import ArmRover.Proofs.Program.Colours
import ArmRover.Proofs.Settings.Overrides
import ArmRover.Proofs.Program.Lights
import ArmRover.Proofs.Arm.Reach
import ArmRover.Proofs.Arm.Bend
