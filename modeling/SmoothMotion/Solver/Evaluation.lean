-- SUMMARY: How Ceres evaluates a problem at a candidate: residuals, cost, central differences and gradient.
import SmoothMotion.Solver.Functors

/-!
# Evaluating a problem

A candidate gives every parameter block its values; the functors, however, keep
reading the user's array `memory`. A block whose functor left a residual
unwritten cannot be evaluated. Derivatives are central differences.
-/

namespace Ceres

variable {K : Type} [Scalar K]

/-- `IsEvaluationValid`: all residuals were written. -/
def validate : Residual K → Except Fault (List K)
  | [] => .ok []
  | none :: _ => .error .invalidEvaluation
  | some r :: residual => do return r :: (← validate residual)

omit [Scalar K] in
theorem validate_map_some (residuals : List K) : validate (residuals.map some) = .ok residuals := by
  induction residuals with
  | nil => rfl
  | cons r residuals ih =>
    simp only [List.map_cons, validate, ih, Except.ok_bind]
    rfl

/-- The residuals of a functor at `x`. -/
def residualsAt (memory : List K) (f : CostFunctor K) (x : Vector3d K) : Except Fault (List K) := do
  validate (← f.evaluate memory x)

/-! ## Central differences -/

/-- `x(j) + d`. -/
def shift (x : Vector3d K) (j : Nat) (d : K) : Vector3d K :=
  match j with
  | 0 => { x with x := x.x + d }
  | 1 => { x with y := x.y + d }
  | _ => { x with z := x.z + d }

def relativeStepSize : K := 1 / 10 ^ 6

def stepSize (x : Vector3d K) : List K := x.toList.map fun c => |c| * relativeStepSize

/-- The step for parameter `j`. A parameter that is zero takes the mean step of
    the block. -/
def delta (x : Vector3d K) (j : Nat) : K :=
  let fallback := if (stepSize x).sum = 0 then relativeStepSize else (stepSize x).sum / 3
  let step := (stepSize x).getD j 0
  if step = 0 then fallback else step

/-- `EvaluateJacobianForParameterBlock` with `CENTRAL`, column `j`. -/
def jacobianColumn (memory : List K) (f : CostFunctor K) (x : Vector3d K) (j : Nat) :
    Except Fault (List K) := do
  let forward ← residualsAt memory f (shift x j (delta x j))
  let backward ← residualsAt memory f (shift x j (-delta x j))
  return List.zipWith (fun a b => (a - b) * (1 / delta x j / 2)) forward backward

/-! ## Blocks and problems -/

/-- What the functor of a block writes at the candidate `q`. -/
def evaluateBlock (memory q : List K) (rb : ResidualBlock (CostFunctor K)) :
    Except Fault (Residual K) := do
  rb.costFunction.evaluate memory (← readVector3At q rb.parameterBlock.values)

/-- Half the sum of the squares. -/
def blockCost (memory q : List K) (rb : ResidualBlock (CostFunctor K)) : Except Fault K := do
  let x ← readVector3At q rb.parameterBlock.values
  let residuals ← residualsAt memory rb.costFunction x
  return 1 / 2 * (residuals.map fun r => r * r).sum

/-- One entry of the transposed Jacobian times the residuals. -/
def gradientEntry (memory : List K) (f : CostFunctor K) (x : Vector3d K) (j : Nat) :
    Except Fault K := do
  let residuals ← residualsAt memory f x
  let column ← jacobianColumn memory f x j
  return (List.zipWith (· * ·) column residuals).sum

def blockGradient (memory q : List K) (rb : ResidualBlock (CostFunctor K)) :
    Except Fault (Vector3d K) := do
  let x ← readVector3At q rb.parameterBlock.values
  return ⟨← gradientEntry memory rb.costFunction x 0, ← gradientEntry memory rb.costFunction x 1,
    ← gradientEntry memory rb.costFunction x 2⟩

/-- The sum over all residual blocks. -/
def cost (memory q : List K) (p : Problem (CostFunctor K)) : Except Fault K :=
  p.residualBlocks.foldlM (fun total rb => do return total + (← blockCost memory q rb)) 0

/-- For every parameter block the sum over the residual blocks on it. -/
def gradient (memory q : List K) (p : Problem (CostFunctor K)) : Except Fault (List (Vector3d K)) :=
  p.parameterBlocks.mapM fun block =>
    (p.residualBlocks.filter fun rb => rb.parameterBlock = block).foldlM
      (fun total rb => do return total + (← blockGradient memory q rb)) ⟨0, 0, 0⟩

/-! ## Where all residuals vanish -/

/-- The functor can be evaluated everywhere, and its residuals at `x` are zero. -/
structure Resting (memory : List K) (f : CostFunctor K) (x : Vector3d K) : Prop where
  total : ∀ y, ∃ residuals, residualsAt memory f y = .ok residuals ∧
    residuals.length = f.numResiduals
  zero : residualsAt memory f x = .ok (List.replicate f.numResiduals 0)

variable {memory q : List K} {f : CostFunctor K} {x : Vector3d K}

theorem Resting.gradientEntry_eq (h : Resting memory f x) (j : Nat) :
    gradientEntry memory f x j = .ok 0 := by
  obtain ⟨forward, hforward, -⟩ := h.total (shift x j (delta x j))
  obtain ⟨backward, hbackward, -⟩ := h.total (shift x j (-delta x j))
  have hproducts : ∀ (column : List K) (n : Nat),
      (List.zipWith (· * ·) column (List.replicate n 0)).sum = 0 := by
    intro column n
    induction n generalizing column with
    | zero => simp
    | succ n ih =>
      cases column with
      | nil => simp
      | cons c column => simpa [List.replicate_succ] using ih column
  simp only [gradientEntry, jacobianColumn, h.zero, hforward, hbackward, Except.ok_bind]
  exact congrArg Except.ok (hproducts _ _)

section Block

variable {rb : ResidualBlock (CostFunctor K)}

theorem Resting.blockGradient_eq (h : Resting memory rb.costFunction x)
    (hx : readVector3At q rb.parameterBlock.values = .ok x) :
    blockGradient memory q rb = .ok ⟨0, 0, 0⟩ := by
  simp only [blockGradient, hx, Except.ok_bind, h.gradientEntry_eq]
  rfl

theorem Resting.blockCost_eq (h : Resting memory rb.costFunction x)
    (hx : readVector3At q rb.parameterBlock.values = .ok x) : blockCost memory q rb = .ok 0 := by
  simp only [blockCost, hx, Except.ok_bind, h.zero]
  simp [pure, Except.pure]

end Block

variable {p : Problem (CostFunctor K)}

/-- Every block of the problem rests at the candidate. -/
def AllResting (memory q : List K) (p : Problem (CostFunctor K)) : Prop :=
  ∀ rb ∈ p.residualBlocks, ∃ x, readVector3At q rb.parameterBlock.values = .ok x ∧
    Resting memory rb.costFunction x

theorem AllResting.cost_eq (h : AllResting memory q p) : cost memory q p = .ok 0 := by
  have hsum : ∀ rbs : List (ResidualBlock (CostFunctor K)), (∀ rb ∈ rbs, rb ∈ p.residualBlocks) →
      rbs.foldlM (fun total rb => do return total + (← blockCost memory q rb)) (0 : K) =
        (.ok 0 : Except Fault K) := by
    intro rbs hrbs
    induction rbs with
    | nil => rfl
    | cons rb rbs ih =>
      obtain ⟨x, hx, hrest⟩ := h rb (hrbs rb (by simp))
      have htail := ih fun rb' hrb' => hrbs rb' (by simp [hrb'])
      simp only [List.foldlM_cons, hrest.blockCost_eq hx, Except.ok_bind]
      simpa using htail
  exact hsum p.residualBlocks fun _ hrb => hrb

theorem AllResting.gradient_eq (h : AllResting memory q p) :
    gradient memory q p = .ok (List.replicate p.parameterBlocks.length ⟨0, 0, 0⟩) := by
  have hsum : ∀ rbs : List (ResidualBlock (CostFunctor K)), (∀ rb ∈ rbs, rb ∈ p.residualBlocks) →
      rbs.foldlM (fun total rb => do return total + (← blockGradient memory q rb))
        (⟨0, 0, 0⟩ : Vector3d K) = (.ok ⟨0, 0, 0⟩ : Except Fault (Vector3d K)) := by
    intro rbs hrbs
    induction rbs with
    | nil => rfl
    | cons rb rbs ih =>
      obtain ⟨x, hx, hrest⟩ := h rb (hrbs rb (by simp))
      have htail := ih fun rb' hrb' => hrbs rb' (by simp [hrb'])
      have hzero : (⟨0, 0, 0⟩ : Vector3d K) + ⟨0, 0, 0⟩ = ⟨0, 0, 0⟩ := by ext <;> simp
      simp only [List.foldlM_cons, hrest.blockGradient_eq hx, Except.ok_bind, pure_bind, hzero]
      exact htail
  have hblocks : ∀ blocks : List ParameterBlock, blocks.mapM (fun block =>
      (p.residualBlocks.filter fun rb => rb.parameterBlock = block).foldlM
        (fun total rb => do return total + (← blockGradient memory q rb)) (⟨0, 0, 0⟩ : Vector3d K)) =
      (.ok (List.replicate blocks.length ⟨0, 0, 0⟩) : Except Fault (List (Vector3d K))) := by
    intro blocks
    induction blocks with
    | nil => rfl
    | cons block blocks ih =>
      have hhead := hsum (p.residualBlocks.filter fun rb => rb.parameterBlock = block)
        fun rb hrb => List.mem_of_mem_filter hrb
      simp only [List.mapM_cons, hhead, ih, Except.ok_bind]
      rfl
  exact hblocks p.parameterBlocks

end Ceres
