-- SUMMARY: TrustRegionMinimizer::Minimize: one iteration with all its ways out, and the loop of iterations.
import SmoothMotion.Lib.While
import SmoothMotion.Solver.Strategy

/-!
# The trust region minimiser

`Minimize` looks for a step from the current point, judges it by what the linear
model promised and what the cost did, and keeps the best point it has seen. Every
iteration carries a number, so their bound is the rank of the loop. The problem is
not constrained and has no inner iterations, which is how the program calls it.
-/

namespace Ceres

variable {K : Type} [Scalar K] {m n : Nat}

/-! ## What the minimiser is given -/

/-- The fields of `Solver::Options` the minimiser and its strategy read. -/
structure Options (K : Type) where
  maxNumIterations : Nat
  maxNumConsecutiveInvalidSteps : Nat
  useNonmonotonicSteps : Bool
  maxConsecutiveNonmonotonicSteps : Nat
  functionTolerance : K
  gradientTolerance : K
  parameterTolerance : K
  minRelativeDecrease : K
  initialTrustRegionRadius : K
  maxTrustRegionRadius : K
  minTrustRegionRadius : K
  minLmDiagonal : K
  maxLmDiagonal : K
  jacobiScaling : Bool

/-- `Options()`. -/
def Options.default : Options K where
  maxNumIterations := 50
  maxNumConsecutiveInvalidSteps := 5
  useNonmonotonicSteps := false
  maxConsecutiveNonmonotonicSteps := 5
  functionTolerance := 1e-6
  gradientTolerance := 1e-10
  parameterTolerance := 1e-8
  minRelativeDecrease := 1e-3
  initialTrustRegionRadius := 1e4
  maxTrustRegionRadius := 1e16
  minTrustRegionRadius := 1e-32
  minLmDiagonal := 1e-6
  maxLmDiagonal := 1e32
  jacobiScaling := true

/-- `CommonOptionsAreValid` and `TrustRegionOptionsAreValid` on these fields. -/
structure Options.IsValid (options : Options K) : Prop where
  functionTolerance : 0 ≤ options.functionTolerance
  gradientTolerance : 0 ≤ options.gradientTolerance
  parameterTolerance : 0 ≤ options.parameterTolerance
  initialTrustRegionRadius : 0 < options.initialTrustRegionRadius
  minTrustRegionRadius : 0 < options.minTrustRegionRadius
  maxTrustRegionRadius : 0 < options.maxTrustRegionRadius
  min_le_max : options.minTrustRegionRadius ≤ options.maxTrustRegionRadius
  min_le_initial : options.minTrustRegionRadius ≤ options.initialTrustRegionRadius
  initial_le_max : options.initialTrustRegionRadius ≤ options.maxTrustRegionRadius
  minRelativeDecrease : 0 ≤ options.minRelativeDecrease
  minLmDiagonal : 0 ≤ options.minLmDiagonal
  maxLmDiagonal : 0 ≤ options.maxLmDiagonal
  minLmDiagonal_le : options.minLmDiagonal ≤ options.maxLmDiagonal
  maxConsecutiveNonmonotonicSteps :
    options.useNonmonotonicSteps → 0 < options.maxConsecutiveNonmonotonicSteps

/-- What a successful `Evaluate` writes. -/
structure Evaluation (K : Type) (m n : Nat) where
  cost : K
  residuals : Fin m → K
  gradient : Fin n → K
  jacobian : Matrix (Fin m) (Fin n) K

/-- `Evaluate` for the cost alone and for everything; `none` is a return value of
    `false`. The cost does not depend on what else is asked for. -/
structure Evaluator (K : Type) (m n : Nat) where
  cost : (Fin n → K) → Except Fault (Option K)
  evaluate : (Fin n → K) → Except Fault (Option (Evaluation K m n))
  cost_eq : ∀ {x e}, evaluate x = .ok (some e) → cost x = .ok (some e.cost)

/-- What `Minimize` runs in: the options, the evaluator, the linear solver, and of
    the machine the largest `double`, the quotients by zero and the clock. -/
structure Environment (K : Type) (m n : Nat) where
  options : Options K
  evaluator : Evaluator K m n
  linearSolver : LinearSolver K m n
  maxDouble : K
  overZero : K → Ratio K
  /-- `max_solver_time_in_seconds` has passed when this iteration begins. -/
  timeIsUp : Nat → Bool

/-! ## What the minimiser keeps -/

/-- The fields of `IterationSummary` the trust region minimiser writes. -/
structure IterationSummary (K : Type) where
  iteration : Nat
  stepIsValid : Bool
  stepIsNonmonotonic : Bool
  stepIsSuccessful : Bool
  cost : K
  costChange : K
  gradientMaxNorm : K
  gradientNorm : K
  stepNorm : K
  relativeDecrease : Ratio K
  trustRegionRadius : K

/-- `IterationSummary()` for an iteration. -/
def IterationSummary.new (iteration : Nat) : IterationSummary K where
  iteration := iteration
  stepIsValid := false
  stepIsNonmonotonic := false
  stepIsSuccessful := false
  cost := 0
  costChange := 0
  gradientMaxNorm := 0
  gradientNorm := 0
  stepNorm := 0
  relativeDecrease := .finite 0
  trustRegionRadius := 0

/-- The best point, and the costs steps that may go up are judged by. -/
structure Iterates (K : Type) (n : Nat) where
  xMin : Fin n → K
  minimumCost : K
  referenceCost : K
  candidateCost : K
  accumulatedReferenceModelCostChange : K
  accumulatedCandidateModelCostChange : K
  numConsecutiveNonmonotonicSteps : Nat

/-- The variables of the loop. `iterationSummary` is the last summary pushed, and
    `earlier` are those before it. -/
structure State (K : Type) (m n : Nat) where
  initialCost : K
  x : Fin n → K
  cost : K
  residuals : Fin m → K
  jacobian : Matrix (Fin m) (Fin n) K
  scale : Fin n → K
  strategy : LevenbergMarquardtStrategy K n
  iterates : Iterates K n
  numConsecutiveInvalidSteps : Nat
  numSuccessfulSteps : Nat
  numUnsuccessfulSteps : Nat
  earlier : List (IterationSummary K)
  iterationSummary : IterationSummary K

/-- `summary->iterations`. -/
def State.iterations (s : State K m n) : List (IterationSummary K) :=
  s.earlier ++ [s.iterationSummary]

inductive TerminationType where
  | convergence
  | noConvergence
  | failure
deriving DecidableEq, Repr

/-- Where `Minimize` returns. -/
inductive Reason where
  | initialEvaluationFailed
  | evaluationFailed
  | linearSolverFailed
  | tooManyInvalidSteps
  | maxNumIterations
  | maxSolverTime
  | gradientTolerance
  | parameterTolerance
  | functionTolerance
  | minTrustRegionRadius
deriving DecidableEq, Repr

def Reason.terminationType : Reason → TerminationType
  | .initialEvaluationFailed => .failure
  | .evaluationFailed => .failure
  | .linearSolverFailed => .failure
  | .tooManyInvalidSteps => .failure
  | .maxNumIterations => .noConvergence
  | .maxSolverTime => .noConvergence
  | .gradientTolerance => .convergence
  | .parameterTolerance => .convergence
  | .functionTolerance => .convergence
  | .minTrustRegionRadius => .convergence

/-- The summary, and the parameters as `Minimize` leaves them. -/
structure Summary (K : Type) (n : Nat) where
  reason : Reason
  parameters : Fin n → K
  initialCost : K
  numSuccessfulSteps : Nat
  numUnsuccessfulSteps : Nat
  iterations : List (IterationSummary K)

/-- `IsSolutionUsable`. -/
def Summary.isSolutionUsable (summary : Summary K n) : Bool :=
  summary.reason.terminationType = .convergence || summary.reason.terminationType = .noConvergence

/-- `SetSummaryFinalCost`. -/
def Summary.finalCost (summary : Summary K n) : K :=
  summary.iterations.foldl (fun final it => min it.cost final) summary.initialCost

/-- The summary at a return from inside the loop. -/
def State.summary (s : State K m n) (reason : Reason) : Summary K n where
  reason := reason
  parameters := s.iterates.xMin
  initialCost := s.initialCost
  numSuccessfulSteps := s.numSuccessfulSteps
  numUnsuccessfulSteps := s.numUnsuccessfulSteps
  iterations := s.iterations

/-! ## Vectors -/

/-- `norm()`. -/
def euclideanNorm (v : Fin n → K) : K := Scalar.sqrt (dotProduct v v)

/-- `lpNorm<Eigen::Infinity>()`. -/
def maxNorm (v : Fin n → K) : K := (List.ofFn fun i => |v i|).foldr max 0

/-- The step along the negative gradient, as the minimiser measures it. -/
def gradientStep (x gradient : Fin n → K) : Fin n → K := x - (x + -gradient)

def scaleColumns (jacobian : Matrix (Fin m) (Fin n) K) (scale : Fin n → K) :
    Matrix (Fin m) (Fin n) K :=
  fun r c => jacobian r c * scale c

def estimateScale (jacobian : Matrix (Fin m) (Fin n) K) : Fin n → K :=
  fun c => 1 / (1 + Scalar.sqrt (squaredColumnNorm jacobian c))

/-- `cost - new_model_cost`. -/
def modelCostChange (jacobian : Matrix (Fin m) (Fin n) K) (residuals : Fin m → K)
    (step : Fin n → K) : K :=
  -dotProduct (jacobian.mulVec step) (residuals + fun r => jacobian.mulVec step r / (2 : Nat))

/-! ## One iteration -/

/-- The best, reference and candidate iterates after a step to `x` was accepted. -/
def Iterates.update (options : Options K) (it : Iterates K n) (x : Fin n → K)
    (cost modelCostChange : K) : Iterates K n :=
  let candidateChange := it.accumulatedCandidateModelCostChange + modelCostChange
  let referenceChange := it.accumulatedReferenceModelCostChange + modelCostChange
  if cost < it.minimumCost then
    { it with
      xMin := x
      minimumCost := cost
      candidateCost := cost
      accumulatedReferenceModelCostChange := referenceChange
      accumulatedCandidateModelCostChange := 0
      numConsecutiveNonmonotonicSteps := 0 }
  else
    let candidateCost := if it.candidateCost < cost then cost else it.candidateCost
    let candidateChange := if it.candidateCost < cost then 0 else candidateChange
    let steps := it.numConsecutiveNonmonotonicSteps + 1
    -- after too many steps up, the reference is reset to force the cost down
    let reset := steps = options.maxConsecutiveNonmonotonicSteps
    { it with
      candidateCost := candidateCost
      accumulatedCandidateModelCostChange := candidateChange
      numConsecutiveNonmonotonicSteps := steps
      referenceCost := if reset then candidateCost else it.referenceCost
      accumulatedReferenceModelCostChange := if reset then candidateChange else referenceChange }

namespace State

/-- The end of an iteration whose step was not taken. -/
def unsuccessful (s : State K m n) (it : IterationSummary K)
    (strategy : LevenbergMarquardtStrategy K n) (numConsecutiveInvalidSteps : Nat) : State K m n :=
  { s with
    strategy := strategy
    numConsecutiveInvalidSteps := numConsecutiveInvalidSteps
    numUnsuccessfulSteps := s.numUnsuccessfulSteps + 1
    earlier := s.iterations
    iterationSummary := { it with cost := s.cost, trustRegionRadius := strategy.radius } }

/-- After an unsuccessful iteration the radius may have collapsed. -/
def checkRadius (s : State K m n) (options : Options K) : Pass (State K m n) (Summary K n) :=
  if s.iterationSummary.trustRegionRadius < options.minTrustRegionRadius then
    .leave (s.summary .minTrustRegionRadius)
  else .again s

/-- No step was computed, or the linear model promises to get worse. -/
def invalidStep (s : State K m n) (options : Options K)
    (strategy : LevenbergMarquardtStrategy K n) : Pass (State K m n) (Summary K n) :=
  let numConsecutiveInvalidSteps := s.numConsecutiveInvalidSteps + 1
  if options.maxNumConsecutiveInvalidSteps ≤ numConsecutiveInvalidSteps then
    .leave (s.summary .tooManyInvalidSteps)
  else
    let it := { IterationSummary.new (s.iterationSummary.iteration + 1) with
      gradientMaxNorm := s.iterationSummary.gradientMaxNorm
      gradientNorm := s.iterationSummary.gradientNorm }
    (s.unsuccessful it strategy.stepIsInvalid numConsecutiveInvalidSteps).checkRadius options

end State

namespace Environment

variable (env : Environment K m n)

/-- The summary of an iteration with a valid step to a point of cost `newCost`. -/
def judge (s : State K m n) (xPlusDelta : Fin n → K) (newCost modelCostChange : K) :
    IterationSummary K :=
  let costChange := s.cost - newCost
  let relativeDecrease := Ratio.div env.overZero costChange modelCostChange
  let historicalRelativeDecrease := Ratio.div env.overZero (s.iterates.referenceCost - newCost)
    (s.iterates.accumulatedReferenceModelCostChange + modelCostChange)
  let decrease :=
    if env.options.useNonmonotonicSteps then relativeDecrease.max historicalRelativeDecrease
    else relativeDecrease
  let threshold := .finite env.options.minRelativeDecrease
  let isSuccessful := threshold.lt decrease
  { IterationSummary.new (s.iterationSummary.iteration + 1) with
    stepIsValid := true
    stepIsSuccessful := isSuccessful
    stepIsNonmonotonic := isSuccessful && relativeDecrease.le threshold
    costChange := costChange
    stepNorm := euclideanNorm (s.x - xPlusDelta)
    relativeDecrease := decrease }

/-- The state after a step to `x`, where `e` was evaluated. -/
def moved (s : State K m n) (strategy : LevenbergMarquardtStrategy K n) (it : IterationSummary K)
    (x : Fin n → K) (e : Evaluation K m n) (modelCostChange : K) : State K m n :=
  { s with
    x := x
    cost := e.cost
    residuals := e.residuals
    jacobian := if env.options.jacobiScaling then scaleColumns e.jacobian s.scale else e.jacobian
    strategy := strategy
    iterates := s.iterates.update env.options x e.cost modelCostChange
    numConsecutiveInvalidSteps := 0
    numSuccessfulSteps := s.numSuccessfulSteps + 1
    earlier := s.iterations
    iterationSummary := { it with
      cost := e.cost
      gradientMaxNorm := maxNorm (gradientStep x e.gradient)
      gradientNorm := euclideanNorm (gradientStep x e.gradient)
      trustRegionRadius := strategy.radius } }

/-- The step is taken: everything is evaluated at the new point. -/
def acceptStep (s : State K m n) (strategy : LevenbergMarquardtStrategy K n)
    (it : IterationSummary K) (x : Fin n → K) (modelCostChange : K) :
    Except Fault (Pass (State K m n) (Summary K n)) := do
  let strategy ← strategy.stepAccepted it.relativeDecrease
  match ← env.evaluator.evaluate x with
  | none =>
    return .leave { s.summary .evaluationFailed with
      numSuccessfulSteps := s.numSuccessfulSteps + 1 }
  | some e =>
    let s := env.moved s strategy it x e modelCostChange
    if s.iterationSummary.gradientMaxNorm ≤ env.options.gradientTolerance then
      return .leave (s.summary .gradientTolerance)
    else return .again s

/-- A step the linear model promises to gain `modelCostChange` by. -/
def validStep (s : State K m n) (strategy : LevenbergMarquardtStrategy K n)
    (trustRegionStep : Fin n → K) (modelCostChange : K) :
    Except Fault (Pass (State K m n) (Summary K n)) := do
  let xPlusDelta := s.x + fun c => trustRegionStep c * s.scale c
  -- a step that fails to evaluate counts as one of the largest cost
  let newCost := (← env.evaluator.cost xPlusDelta).getD env.maxDouble
  let it := env.judge s xPlusDelta newCost modelCostChange
  if it.stepNorm ≤ env.options.parameterTolerance *
      (euclideanNorm s.x + env.options.parameterTolerance) then
    return .leave (s.summary .parameterTolerance)
  else if |it.costChange| < env.options.functionTolerance * s.cost then
    return .leave (s.summary .functionTolerance)
  else if it.stepIsSuccessful then env.acceptStep s strategy it xPlusDelta modelCostChange
  else return (s.unsuccessful it strategy.stepRejected 0).checkRadius env.options

/-- The body of the loop. -/
def iteration (s : State K m n) : Except Fault (Pass (State K m n) (Summary K n)) :=
  if env.options.maxNumIterations ≤ s.iterationSummary.iteration then
    .ok (.leave (s.summary .maxNumIterations))
  else if env.timeIsUp s.iterationSummary.iteration then .ok (.leave (s.summary .maxSolverTime))
  else
    let (strategy, computed) := s.strategy.computeStep env.linearSolver s.jacobian s.residuals
    match computed with
    | .fatalError => .ok (.leave (s.summary .linearSolverFailed))
    | .failure => .ok (s.invalidStep env.options strategy)
    | .step trustRegionStep =>
      let change := modelCostChange s.jacobian s.residuals trustRegionStep
      if change < 0 then .ok (s.invalidStep env.options strategy)
      else env.validStep s strategy trustRegionStep change

/-! ## The whole minimisation -/

/-- What precedes the loop. -/
def begin (strategy : LevenbergMarquardtStrategy K n) (parameters : Fin n → K) :
    Except Fault (Pass (State K m n) (Summary K n)) := do
  match ← env.evaluator.evaluate parameters with
  | none => return .leave ⟨.initialEvaluationFailed, parameters, -1, 0, 0, []⟩
  | some e =>
    let step := gradientStep parameters e.gradient
    let it := { IterationSummary.new 0 with
      cost := e.cost
      gradientMaxNorm := maxNorm step
      gradientNorm := euclideanNorm step
      trustRegionRadius := strategy.radius }
    if maxNorm step ≤ env.options.gradientTolerance then
      return .leave ⟨.gradientTolerance, parameters, e.cost, 0, 0, [it]⟩
    else
      let scale := if env.options.jacobiScaling then estimateScale e.jacobian else fun _ => 1
      return .again {
        initialCost := e.cost
        x := parameters
        cost := e.cost
        residuals := e.residuals
        jacobian := if env.options.jacobiScaling then scaleColumns e.jacobian scale else e.jacobian
        scale := scale
        strategy := strategy
        iterates := ⟨parameters, e.cost, e.cost, e.cost, 0, 0, 0⟩
        numConsecutiveInvalidSteps := 0
        numSuccessfulSteps := 0
        numUnsuccessfulSteps := 0
        earlier := []
        iterationSummary := it }

/-- The iterations that are left. -/
def remaining (s : State K m n) : Nat := env.options.maxNumIterations - s.iterationSummary.iteration

end Environment

end Ceres
