-- SUMMARY: Solver::Solve on a problem: the evaluator of the reduced program, the minimisation, and what it leaves in the user's array.
import SmoothMotion.Solver.Descent
import SmoothMotion.Solver.Program

/-!
# Solving a problem

`Solve` checks the options, reduces the problem, minimises from the values in the
user's array, and writes the result back if it can be used. The sparse linear
solver, the order it likes the blocks in and the clock are the machine's.
-/

namespace Ceres

variable {K : Type} [Scalar K]

/-! ## ProgramEvaluator -/

/-- A block that cannot be evaluated makes `Evaluate` return `false`. -/
def catchInvalid {α : Type} : Except Fault α → Except Fault (Option α)
  | .ok a => .ok (some a)
  | .error .invalidEvaluation => .ok none
  | .error fault => .error fault

def blockResiduals (memory q : List K) (rb : ResidualBlock (CostFunctor K)) :
    Except Fault (List K) := do
  residualsAt memory rb.costFunction (← readVector3At q rb.parameterBlock.values)

/-- The residuals of all blocks, one block behind the other. -/
def residualVector (memory q : List K) (p : Problem (CostFunctor K)) : Except Fault (List K) := do
  return (← p.residualBlocks.mapM (blockResiduals memory q)).flatten

/-- The columns of the Jacobian of a block. -/
def blockJacobian (memory q : List K) (rb : ResidualBlock (CostFunctor K)) :
    Except Fault (List (List K)) := do
  let x ← readVector3At q rb.parameterBlock.values
  (List.range 3).mapM (jacobianColumn memory rb.costFunction x)

/-- The rows of a block in the whole Jacobian: zero beside the block it is on. -/
def blockRows (memory q : List K) (blocks : List ParameterBlock)
    (rb : ResidualBlock (CostFunctor K)) : Except Fault (List (List K)) := do
  let columns ← blockJacobian memory q rb
  return (List.range rb.costFunction.numResiduals).map fun r => blocks.flatMap fun b =>
    if rb.parameterBlock = b then columns.map fun column => column.getD r 0
    else List.replicate b.size 0

/-- The rows of the Jacobian. -/
def jacobianRows (memory q : List K) (p : Problem (CostFunctor K)) :
    Except Fault (List (List K)) := do
  return (← p.residualBlocks.mapM (blockRows memory q p.parameterBlocks)).flatten

def numResiduals (p : Problem (CostFunctor K)) : Nat :=
  (p.residualBlocks.map fun rb => rb.costFunction.numResiduals).sum

variable {m n : Nat}

/-- The cost at a state. -/
def programCost (memory : List K) (p : Problem (CostFunctor K)) (x : Fin n → K) : Except Fault K := do
  let q ← p.copyToUserState (List.ofFn x) memory
  cost memory q p

/-- Everything at a state. -/
def programEvaluate (memory : List K) (p : Problem (CostFunctor K)) (x : Fin n → K) :
    Except Fault (Evaluation K m n) := do
  let q ← p.copyToUserState (List.ofFn x) memory
  let cost ← cost memory q p
  let residuals ← residualVector memory q p
  let gradient ← gradient memory q p
  let rows ← jacobianRows memory q p
  return { cost
           residuals := fun r => residuals.getD r 0
           gradient := fun c => (gradient.flatMap Vector3d.toList).getD c 0
           jacobian := fun r c => (rows.getD r []).getD c 0 }

theorem catchInvalid_eq_some {α : Type} {x : Except Fault α} {a : α} :
    catchInvalid x = .ok (some a) ↔ x = .ok a := by
  cases x with
  | ok a' => simp [catchInvalid]
  | error fault => cases fault <;> simp [catchInvalid]

/-- `ProgramEvaluator` on a program whose functors read `memory`. -/
def programEvaluator (memory : List K) (p : Problem (CostFunctor K)) :
    Evaluator K (numResiduals p) p.numParameters where
  cost x := catchInvalid (programCost memory p x)
  evaluate x := catchInvalid (programEvaluate memory p x)
  cost_eq := by
    intro x e h
    rw [catchInvalid_eq_some] at h
    obtain ⟨q, hq, h⟩ := Except.bind_eq_ok h
    obtain ⟨c, hc, h⟩ := Except.bind_eq_ok h
    obtain ⟨residuals, -, h⟩ := Except.bind_eq_ok h
    obtain ⟨gradient, -, h⟩ := Except.bind_eq_ok h
    obtain ⟨rows, -, h⟩ := Except.bind_eq_ok h
    cases h
    rw [catchInvalid_eq_some]
    simp only [programCost, hq, Except.ok_bind, hc]

/-! ## Solve -/

/-- What the machine and the libraries add to the options. -/
structure Machine (K : Type) where
  linearSolver : (m n : Nat) → LinearSolver K m n
  reorder : List ParameterBlock → List ParameterBlock
  reorder_perm : ∀ blocks, (reorder blocks).Perm blocks
  maxDouble : K
  overZero : K → Ratio K
  timeIsUp : Nat → Bool

/-- What a minimisation of a program runs in. -/
def Machine.environment (machine : Machine K) (options : Options K) (memory : List K)
    (p : Problem (CostFunctor K)) : Environment K (numResiduals p) p.numParameters where
  options := options
  evaluator := programEvaluator memory p
  linearSolver := machine.linearSolver _ _
  maxDouble := machine.maxDouble
  overZero := machine.overZero
  timeIsUp := machine.timeIsUp

/-- `Minimize` of the reduced program `p`, from the user's values on. -/
def minimizeProgram (machine : Machine K) (options : Options K) (p : Problem (CostFunctor K))
    (memory : List K) : Except Fault (List K) := do
  let parameters ← p.parameterBlocksToStateVector memory
  let strategy ← LevenbergMarquardtStrategy.create options.initialTrustRegionRadius
    options.maxTrustRegionRadius options.minLmDiagonal options.maxLmDiagonal
  let summary ← (machine.environment options memory p).minimize strategy
    fun c => parameters.getD c 0
  if summary.isSolutionUsable then p.copyToUserState (List.ofFn summary.parameters) memory
  else return memory

instance (options : Options K) : Decidable options.IsValid :=
  decidable_of_iff
    (0 ≤ options.functionTolerance ∧ 0 ≤ options.gradientTolerance ∧
      0 ≤ options.parameterTolerance ∧ 0 < options.initialTrustRegionRadius ∧
      0 < options.minTrustRegionRadius ∧ 0 < options.maxTrustRegionRadius ∧
      options.minTrustRegionRadius ≤ options.maxTrustRegionRadius ∧
      options.minTrustRegionRadius ≤ options.initialTrustRegionRadius ∧
      options.initialTrustRegionRadius ≤ options.maxTrustRegionRadius ∧
      0 ≤ options.minRelativeDecrease ∧ 0 ≤ options.minLmDiagonal ∧ 0 ≤ options.maxLmDiagonal ∧
      options.minLmDiagonal ≤ options.maxLmDiagonal ∧
      (options.useNonmonotonicSteps → 0 < options.maxConsecutiveNonmonotonicSteps))
    ⟨fun ⟨h₁, h₂, h₃, h₄, h₅, h₆, h₇, h₈, h₉, h₁₀, h₁₁, h₁₂, h₁₃, h₁₄⟩ =>
      ⟨h₁, h₂, h₃, h₄, h₅, h₆, h₇, h₈, h₉, h₁₀, h₁₁, h₁₂, h₁₃, h₁₄⟩,
    fun ⟨h₁, h₂, h₃, h₄, h₅, h₆, h₇, h₈, h₉, h₁₀, h₁₁, h₁₂, h₁₃, h₁₄⟩ =>
      ⟨h₁, h₂, h₃, h₄, h₅, h₆, h₇, h₈, h₉, h₁₀, h₁₁, h₁₂, h₁₃, h₁₄⟩⟩

/-- `Solve`: the user's array behind it. -/
def solve (machine : Machine K) (options : Options K) (p : Problem (CostFunctor K))
    (memory : List K) : Except Fault (List K) :=
  if options.IsValid then
    let reduced := p.reduced machine.reorder
    if reduced.parameterBlocks = [] then .ok memory
    else minimizeProgram machine options reduced memory
  else .ok memory

end Ceres
