-- SUMMARY: Linear least squares with a damped step: the normal equations, what their solution gains, and that it is the best damped step.
import Mathlib.LinearAlgebra.Matrix.DotProduct
import Mathlib.Tactic.Linarith
import Mathlib.Tactic.FieldSimp

/-!
# Damped least squares

Half the squared length of `r + J δ` is a quadratic model of a cost. A step that
solves the normal equations damped by `D` lowers the model by a sum of squares,
and no other step is better once the damping counts.
-/

namespace LeastSquares

open Matrix

variable {K : Type} [Field K] [LinearOrder K] [IsStrictOrderedRing K] {ι κ : Type} [Fintype ι]
  [Fintype κ] {J : Matrix ι κ K} {r : ι → K} {D δ : κ → K}

/-- Half the squared length of `v`. -/
def halfSquare (v : ι → K) : K := v ⬝ᵥ v / (2 : Nat)

omit [LinearOrder K] [IsStrictOrderedRing K] in
theorem halfSquare_eq (v : ι → K) : halfSquare v = v ⬝ᵥ v / 2 := rfl

/-- The model of the cost at the step `δ`. -/
def model (J : Matrix ι κ K) (r : ι → K) (δ : κ → K) : K := halfSquare (r + J *ᵥ δ)

/-- The step solves `(J'J + D'D) δ = -J'r`. -/
def NormalEquations (J : Matrix ι κ K) (r : ι → K) (D δ : κ → K) : Prop :=
  Jᵀ *ᵥ (J *ᵥ δ) + D * (D * δ) = -(Jᵀ *ᵥ r)

theorem halfSquare_nonneg (v : ι → K) : 0 ≤ halfSquare v := by
  have hsum : 0 ≤ v ⬝ᵥ v := Finset.sum_nonneg fun i _ => mul_self_nonneg (v i)
  rw [halfSquare_eq]
  linarith

theorem halfSquare_eq_zero {v : ι → K} : halfSquare v = 0 ↔ v = 0 := by
  simp [halfSquare_eq]

theorem halfSquare_add (v w : ι → K) :
    halfSquare (v + w) = halfSquare v + v ⬝ᵥ w + halfSquare w := by
  simp only [halfSquare_eq, add_dotProduct, dotProduct_add, dotProduct_comm w v]
  ring

omit [LinearOrder K] [IsStrictOrderedRing K] in
/-- The normal equations, seen along any direction. -/
theorem NormalEquations.along (h : NormalEquations J r D δ) (v : κ → K) :
    (J *ᵥ v) ⬝ᵥ (J *ᵥ δ) + (D * v) ⬝ᵥ (D * δ) = -((J *ᵥ v) ⬝ᵥ r) := by
  have hdot := congrArg (v ⬝ᵥ ·) h
  have hdamping : v ⬝ᵥ (D * (D * δ)) = (D * v) ⬝ᵥ (D * δ) := by
    apply Finset.sum_congr rfl
    intro i _
    simp only [Pi.mul_apply]
    ring
  have htranspose : ∀ w : ι → K, v ⬝ᵥ (Jᵀ *ᵥ w) = (J *ᵥ v) ⬝ᵥ w := by
    intro w
    rw [dotProduct_mulVec, vecMul_transpose]
  simp only [dotProduct_add, dotProduct_neg, htranspose, hdamping] at hdot
  exact hdot

/-- What the model loses along a step that solves the normal equations. -/
theorem NormalEquations.model_decrease (h : NormalEquations J r D δ) :
    halfSquare r - model J r δ = halfSquare (J *ᵥ δ) + 2 * halfSquare (D * δ) := by
  have halong := h.along δ
  have hcross : r ⬝ᵥ (J *ᵥ δ) = -((J *ᵥ δ) ⬝ᵥ (J *ᵥ δ)) - (D * δ) ⬝ᵥ (D * δ) := by
    rw [dotProduct_comm]
    linarith
  rw [model, halfSquare_add, hcross]
  simp only [halfSquare_eq]
  ring

/-- Where no direction is left undamped, only the zero step gains nothing. -/
theorem NormalEquations.model_decrease_pos (h : NormalEquations J r D δ) (hD : ∀ i, D i ≠ 0)
    (hδ : δ ≠ 0) : 0 < halfSquare r - model J r δ := by
  have hdamped : D * δ ≠ 0 := by
    obtain ⟨i, hi⟩ := Function.ne_iff.mp hδ
    exact Function.ne_iff.mpr ⟨i, mul_ne_zero (hD i) hi⟩
  have hpos : 0 < halfSquare (D * δ) :=
    lt_of_le_of_ne (halfSquare_nonneg _) fun hzero => hdamped (halfSquare_eq_zero.mp hzero.symm)
  rw [h.model_decrease]
  linarith [halfSquare_nonneg (J *ᵥ δ)]

/-- With the damping added to the model, no step is better than one that solves the
    normal equations. -/
theorem NormalEquations.minimal (h : NormalEquations J r D δ) (δ' : κ → K) :
    model J r δ + halfSquare (D * δ) ≤ model J r δ' + halfSquare (D * δ') := by
  have hsplit : δ' = δ + (δ' - δ) := by simp
  have hmodel : model J r δ' =
      model J r δ + (r + J *ᵥ δ) ⬝ᵥ (J *ᵥ (δ' - δ)) + halfSquare (J *ᵥ (δ' - δ)) := by
    rw [model, hsplit, mulVec_add, ← add_assoc, halfSquare_add]
    simp [model]
  have hdamping : halfSquare (D * δ') =
      halfSquare (D * δ) + (D * δ) ⬝ᵥ (D * (δ' - δ)) + halfSquare (D * (δ' - δ)) := by
    rw [← halfSquare_add, ← mul_add, ← hsplit]
  have halong := h.along (δ' - δ)
  have hcross : (r + J *ᵥ δ) ⬝ᵥ (J *ᵥ (δ' - δ)) + (D * δ) ⬝ᵥ (D * (δ' - δ)) = 0 := by
    rw [add_dotProduct, dotProduct_comm r, dotProduct_comm (J *ᵥ δ), dotProduct_comm (D * δ)]
    linarith
  rw [hmodel, hdamping]
  linarith [halfSquare_nonneg (J *ᵥ (δ' - δ)), halfSquare_nonneg (D * (δ' - δ))]

end LeastSquares
