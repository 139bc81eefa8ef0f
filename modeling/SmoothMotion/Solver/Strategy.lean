-- SUMMARY: LevenbergMarquardtStrategy: the damped step of an iteration and the radius of the trust region.
import Mathlib.Data.Matrix.Mul
import SmoothMotion.Lib.Vector3
import SmoothMotion.Solver.Problem

/-!
# The Levenberg-Marquardt strategy

The strategy damps the linear problem of an iteration by the diagonal of `J'J`
over the radius, and shrinks or grows the radius by what became of the step. The
linear solver itself is not part of the repository: it is a parameter. The whole
numbers the source multiplies and divides by are cast into the field.
-/

namespace Ceres

variable {K : Type} [Scalar K] {m n : Nat}

/-! ## Quotients -/

/-- What a quotient of two numbers is as a `double`. -/
inductive Ratio (K : Type) where
  | finite (value : K)
  | positiveInfinity
  | negativeInfinity
  | notANumber
deriving DecidableEq

namespace Ratio

/-- `a / b`. Exact numbers have no signed zero, so `overZero` says what `a / 0` is. -/
def div (overZero : K → Ratio K) (a b : K) : Ratio K :=
  if b = 0 then overZero a else finite (a / b)

/-- `a < b` on doubles. -/
def lt : Ratio K → Ratio K → Bool
  | finite a, finite b => a < b
  | finite _, positiveInfinity => true
  | negativeInfinity, finite _ => true
  | negativeInfinity, positiveInfinity => true
  | _, _ => false

/-- `a <= b` on doubles. -/
def le : Ratio K → Ratio K → Bool
  | finite a, finite b => a ≤ b
  | negativeInfinity, negativeInfinity => true
  | positiveInfinity, positiveInfinity => true
  | a, b => a.lt b

/-- `std::max`. -/
def max (a b : Ratio K) : Ratio K := if a.lt b then b else a

/-- What lies above a number lies above all smaller ones. -/
theorem lt_of_le {a b : K} {r : Ratio K} (hle : b ≤ a) (h : (finite a).lt r = true) :
    (finite b).lt r = true := by
  cases r with
  | finite c => simpa [lt] using hle.trans_lt (by simpa [lt] using h)
  | positiveInfinity => rfl
  | negativeInfinity => exact h
  | notANumber => exact h

theorem div_of_ne_zero {overZero : K → Ratio K} {a b : K} (hb : b ≠ 0) :
    div overZero a b = finite (a / b) := if_neg hb

end Ratio

/-! ## Linear solvers -/

inductive LinearSolverTerminationType where
  | success
  | noConvergence
  | failure
  | fatalError
deriving DecidableEq, Repr

/-- What a linear solver leaves; `step` is `none` when an entry is not finite. -/
structure LinearSolverSummary (K : Type) (n : Nat) where
  terminationType : LinearSolverTerminationType
  step : Option (Fin n → K)

/-- `Solve(jacobian, residuals, D)`: least squares for `J y = r`, damped by `D`. -/
abbrev LinearSolver (K : Type) (m n : Nat) :=
  Matrix (Fin m) (Fin n) K → (Fin m → K) → (Fin n → K) → LinearSolverSummary K n

/-- The sum of the squares of each column. -/
def squaredColumnNorm (jacobian : Matrix (Fin m) (Fin n) K) (c : Fin n) : K :=
  ∑ r, jacobian r c * jacobian r c

/-! ## The strategy -/

structure LevenbergMarquardtStrategy (K : Type) (n : Nat) where
  radius : K
  maxRadius : K
  minDiagonal : K
  maxDiagonal : K
  decreaseFactor : K
  reuseDiagonal : Bool
  diagonal : Fin n → K

/-- What `ComputeStep` reports. -/
inductive ComputedStep (K : Type) (n : Nat) where
  | fatalError
  | failure
  | step (trustRegionStep : Fin n → K)

namespace LevenbergMarquardtStrategy

/-- The constructor and its checks. -/
def create (initialRadius maxRadius minDiagonal maxDiagonal : K) :
    Except Fault (LevenbergMarquardtStrategy K n) := do
  if ¬ 0 < minDiagonal then throw (.checkFailed "min_diagonal_ > 0.0")
  if ¬ minDiagonal ≤ maxDiagonal then throw (.checkFailed "min_diagonal_ <= max_diagonal_")
  if ¬ 0 < maxRadius then throw (.checkFailed "max_radius_ > 0.0")
  return { radius := initialRadius, maxRadius, minDiagonal, maxDiagonal, decreaseFactor := (2 : Nat),
           reuseDiagonal := false, diagonal := fun _ => 0 }

/-- The diagonal a step is damped with. -/
def dampingDiagonal (s : LevenbergMarquardtStrategy K n) (jacobian : Matrix (Fin m) (Fin n) K) :
    Fin n → K :=
  if s.reuseDiagonal then s.diagonal
  else fun c => min (max (squaredColumnNorm jacobian c) s.minDiagonal) s.maxDiagonal

/-- `lm_diagonal_`. -/
def lmDiagonal (s : LevenbergMarquardtStrategy K n) (jacobian : Matrix (Fin m) (Fin n) K) :
    Fin n → K :=
  fun c => Scalar.sqrt (s.dampingDiagonal jacobian c / s.radius)

def computeStep (s : LevenbergMarquardtStrategy K n) (linearSolver : LinearSolver K m n)
    (jacobian : Matrix (Fin m) (Fin n) K) (residuals : Fin m → K) :
    LevenbergMarquardtStrategy K n × ComputedStep K n :=
  let summary := linearSolver jacobian residuals (s.lmDiagonal jacobian)
  let computed :=
    if summary.terminationType = .fatalError then .fatalError
    else if summary.terminationType = .failure then .failure
    else match summary.step with
      | none => .failure
      | some y => .step (-y)
  ({ s with diagonal := s.dampingDiagonal jacobian, reuseDiagonal := true }, computed)

/-- `max(1/3, 1 - (2 q - 1)^3)`; an infinite quality leaves the first. -/
def shrinkage (stepQuality : Ratio K) : K :=
  match stepQuality with
  | .finite q => max (1 / (3 : Nat)) (1 - ((2 : Nat) * q - 1) ^ 3)
  | _ => 1 / (3 : Nat)

def stepAccepted (s : LevenbergMarquardtStrategy K n) (stepQuality : Ratio K) :
    Except Fault (LevenbergMarquardtStrategy K n) :=
  if (Ratio.finite 0).lt stepQuality then
    .ok { s with
      radius := min s.maxRadius (s.radius / shrinkage stepQuality)
      decreaseFactor := (2 : Nat)
      reuseDiagonal := false }
  else .error (.checkFailed "step_quality > 0.0")

/-- The quality of a rejected step is not looked at. -/
def stepRejected (s : LevenbergMarquardtStrategy K n) : LevenbergMarquardtStrategy K n :=
  { s with
    radius := s.radius / s.decreaseFactor
    decreaseFactor := s.decreaseFactor * (2 : Nat)
    reuseDiagonal := true }

/-- An invalid step counts as rejected. -/
def stepIsInvalid (s : LevenbergMarquardtStrategy K n) : LevenbergMarquardtStrategy K n :=
  s.stepRejected

end LevenbergMarquardtStrategy

end Ceres
