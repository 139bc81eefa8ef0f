import SmoothMotion.Lib.Tree
import SmoothMotion.Lib.IStream
import SmoothMotion.Lib.Loop
import SmoothMotion.Lib.Grid
import SmoothMotion.Lib.Array3
import SmoothMotion.Lib.Hierarchy
import SmoothMotion.Lib.Rotation
import SmoothMotion.Lib.CSharp
import SmoothMotion.Unity.Transform
import SmoothMotion.Unity.Bone
import SmoothMotion.Unity.Controller
import SmoothMotion.Unity.Exporter
import SmoothMotion.Solver.ReadFile
import SmoothMotion.Solver.Format
import SmoothMotion.Pipeline.Input
import SmoothMotion.Solver.Problem
import SmoothMotion.Solver.Functors
import SmoothMotion.Solver.Builders
import SmoothMotion.Solver.Evaluation
import SmoothMotion.Solver.Objective
import SmoothMotion.Solver.Tiling
import SmoothMotion.Solver.CleanStart
import SmoothMotion.Pipeline.Edges
import SmoothMotion.Pipeline.Depths
import SmoothMotion.Unity.Animator
import SmoothMotion.Unity.Loading
import SmoothMotion.Unity.Schedule
import SmoothMotion.Unity.Playback
import SmoothMotion.Pipeline.Output
import SmoothMotion.Solver.Residuals
import SmoothMotion.Solver.Assigned
import SmoothMotion.Lib.Cycle
import SmoothMotion.Unity.Interpolation
import SmoothMotion.Unity.Sampling
import SmoothMotion.Unity.Faults
import SmoothMotion.Unity.Phase
import SmoothMotion.Unity.Acceptance
import SmoothMotion.Lib.OStream
import SmoothMotion.Pipeline.Precision
import SmoothMotion.Unity.ConstraintMatrix
import SmoothMotion.Lib.While
import SmoothMotion.Solver.Strategy
import SmoothMotion.Solver.Minimizer
import SmoothMotion.Solver.Iterations
import SmoothMotion.Solver.Descent
import SmoothMotion.Solver.Radius
import SmoothMotion.Lib.LeastSquares
import SmoothMotion.Solver.ExactSteps
import SmoothMotion.Lib.Slices
import SmoothMotion.Solver.Registry
import SmoothMotion.Solver.Program
import SmoothMotion.Solver.Solve
import SmoothMotion.Solver.NeverWorse
import SmoothMotion.Solver.Saved
import SmoothMotion.Pipeline.WholeRun
import SmoothMotion.Solver.Certificates
import SmoothMotion.Solver.Derivatives
import SmoothMotion.Pipeline.Planes
import SmoothMotion.Solver.FrameByFrame
import SmoothMotion.Solver.Differences
import SmoothMotion.Lib.RigidMotion
import SmoothMotion.Pipeline.Together
import SmoothMotion.Solver.Moved
import SmoothMotion.Pipeline.Unchanged
