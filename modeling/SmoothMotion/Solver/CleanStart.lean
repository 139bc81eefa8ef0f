-- SUMMARY: At the input itself every length residual is zero, and without penetration the solver leaves the positions as they are.
import SmoothMotion.Solver.Main
import SmoothMotion.Solver.Objective

open Decimal

/-!
# Starting from a clean animation

The rest lengths are computed from the positions the functors later read, so at
the input every length residual is a difference of equal lengths. If moreover
no position lies beyond a plane, every residual is zero; then so are the cost
and the gradient, whatever the derivatives are.
-/

namespace CleanStart

variable {K : Type} [Scalar K] {frames bones : Int32} {B F : Nat} {x₀ : List K}
  {parents : List Int32} {colliders : List (Collider K)}

/-- No bone lies beyond a plane in any frame. -/
def NoPenetration (colliders : List (Collider K)) (x₀ : List K) (B F : Nat) : Prop :=
  ∀ b f, b < B → f < F → ∀ collider ∈ colliders, ¬ collider.Penetrates (positionAt x₀ F b f)

/-! ## The length residuals -/

theorem seenChildrenError_self (platform : Platform) (parents : List Int32) (x₀ : List K)
    (F b f : Nat) : Objective.seenChildrenError platform parents x₀ x₀ F b f = 0 := by
  simp [Objective.seenChildrenError, Objective.restLength]

theorem seenParentError_self (parents : List Int32) (x₀ : List K) (F b f : Nat) :
    Objective.seenParentError parents x₀ x₀ F b f = 0 := by
  simp [Objective.seenParentError, Objective.restLength]

/-! ## Blocks at rest -/

/-- A functor whose colliders do not penetrate `x` and whose other residuals can
    be computed everywhere and are zero at `x`. -/
theorem resting_of_evaluate {memory : List K} {f : CostFunctor K} {x : Vector3d K}
    (hcolliders : f.colliders ≠ []) (hx : ∀ collider ∈ f.colliders, ¬ collider.Penetrates x)
    (rest : Vector3d K → List K) (hlength : ∀ y, (rest y).length + 1 = f.numResiduals)
    (heval : ∀ y, f.evaluate memory y = .ok (f.penetration y :: (rest y).map some))
    (hzero : rest x = List.replicate (f.numResiduals - 1) 0) : Ceres.Resting memory f x := by
  have hresiduals : ∀ y r, f.penetration y = some r →
      Ceres.residualsAt memory f y = .ok (r :: rest y) := by
    intro y r hr
    unfold Ceres.residualsAt
    rw [heval y, Except.ok_bind, hr, ← List.map_cons, Ceres.validate_map_some]
  constructor
  · intro y
    obtain ⟨collider, -, hvalue⟩ := CostFunctor.penetration_eq_some hcolliders
    exact ⟨_, hresiduals y _ (hvalue y), hlength y⟩
  · rw [hresiduals x 0 (CostFunctor.penetration_eq_zero hcolliders hx), hzero,
      ← List.replicate_succ]
    have hpos := hlength x
    congr
    omega

/-- A tiling of functors at rest at their own positions is at rest. -/
theorem allResting_tiled {g : Nat → Nat → CostFunctor K} (hx₀ : B * F * 3 ≤ x₀.length)
    (hrest : ∀ b f, b < B → f < F → Ceres.Resting x₀ (g b f) (positionAt x₀ F b f)) :
    Ceres.AllResting x₀ x₀ (Problem.tiled (perCell B F g)) := by
  intro rb hrb
  obtain ⟨b, f, hb, hf, rfl⟩ := mem_residualBlocks_tiled hrb
  exact ⟨positionAt x₀ F b f, readVector3At_cell hx₀ hb hf, hrest b f hb hf⟩

section Builders

variable (hcolliders : colliders ≠ []) (hclean : NoPenetration colliders x₀ B F)
  (hx₀ : x₀.length = B * F * 3)
include hcolliders hclean hx₀

theorem allResting_basic :
    Ceres.AllResting x₀ x₀ (Problem.tiled (perCell B F fun _ _ => .basic ⟨colliders⟩)) := by
  apply allResting_tiled hx₀.ge
  intro b f hb hf
  exact resting_of_evaluate hcolliders (hclean b f hb hf) (fun _ => []) (fun _ => rfl)
    (fun y => CostFunctor.evaluate_basic x₀ y _) rfl

theorem allResting_length (hparents : parents.length = B) (hrange : ParentsInRange B parents) :
    Ceres.AllResting x₀ x₀ (Problem.tiled (perCell B F fun b f =>
      .length (lengthFunctor colliders F x₀ (parentOf parents b) b f))) := by
  apply allResting_tiled hx₀.ge
  intro b f hb hf
  refine resting_of_evaluate hcolliders (hclean b f hb hf)
    (fun y => [(positionAt x₀ F (parentOf parents b) f - y).norm -
      Objective.restLength x₀ F (parentOf parents b) b f]) (fun _ => rfl) ?_ ?_
  · exact evaluate_lengthFunctor colliders (hrange.parentOf_lt hparents hb) hf hx₀.ge
  · exact congrArg (fun r => [r]) (seenParentError_self parents x₀ F b f)

theorem allResting_children (platform : Platform) (hparents : parents.length = B) :
    Ceres.AllResting x₀ x₀ (Problem.tiled (perCell B F fun b f =>
      .children (childrenFunctor platform colliders F x₀ parents b f))) := by
  apply allResting_tiled hx₀.ge
  intro b f hb hf
  refine resting_of_evaluate hcolliders (hclean b f hb hf)
    (fun y => [(boneDepths platform parents).getD b 0 * ((childrenOf parents b).map fun c =>
      (positionAt x₀ F c f - y).norm - Objective.restLength x₀ F c b f).sum]) (fun _ => rfl)
      ?_ ?_
  · exact evaluate_childrenFunctor platform colliders hparents hf hx₀.ge
  · exact congrArg (fun r => [r]) (seenChildrenError_self platform parents x₀ F b f)

end Builders

/-! ## The clean start -/

/-- All residuals, the cost and the gradient at the input are zero. -/
structure StartsAtRest (x₀ : List K) (B F : Nat) (problem : Problem (CostFunctor K)) : Prop where
  residuals : ∀ rb ∈ problem.residualBlocks, ∃ x,
    readVector3At x₀ rb.parameterBlock.values = .ok x ∧
      Ceres.residualsAt x₀ rb.costFunction x = .ok (List.replicate rb.costFunction.numResiduals 0)
  cost : Ceres.cost x₀ x₀ problem = .ok 0
  gradient : Ceres.gradient x₀ x₀ problem = .ok (List.replicate (B * F) ⟨0, 0, 0⟩)

theorem StartsAtRest.of_allResting {g : Nat → Nat → CostFunctor K}
    (h : Ceres.AllResting x₀ x₀ (Problem.tiled (perCell B F g))) :
    StartsAtRest x₀ B F (Problem.tiled (perCell B F g)) where
  residuals := by
    intro rb hrb
    obtain ⟨x, hx, hrest⟩ := h rb hrb
    exact ⟨x, hx, hrest.zero⟩
  cost := h.cost_eq
  gradient := by
    rw [h.gradient_eq]
    simp [Problem.tiled, length_perCell]

/-- Ceres leaves an array at which the gradient is zero as it is. -/
def StaysAtZeroGradient (solve : Problem (CostFunctor K) → List K → Except Fault (List K)) : Prop :=
  ∀ problem x n, Ceres.gradient x x problem = .ok (List.replicate n ⟨0, 0, 0⟩) →
    solve problem x = .ok x

/-- For all three builders the length residuals are zero at the input, and for a
    clean animation all residuals, the cost and the gradient. The program then
    saves the positions it has read. -/
theorem clean_animation_starts_at_rest (platform : Platform) (hcolliders : colliders ≠ [])
    (hB : bones.toInt = B) (hF : frames.toInt = F) (hparents : parents.length = B)
    (hrange : ParentsInRange B parents) (hx₀ : x₀.length = B * F * 3) :
    (∃ problem, basicCollisionAvoidance colliders frames bones = .ok problem ∧
      (NoPenetration colliders x₀ B F → StartsAtRest x₀ B F problem)) ∧
    (∃ problem, maintainBoneLength colliders frames bones x₀ parents = .ok problem ∧
      Objective.ComputesAt x₀ x₀ B F (fun _ _ => 0) problem ∧
      (NoPenetration colliders x₀ B F → StartsAtRest x₀ B F problem)) ∧
    (∃ problem, maintainBoneLengthChildrenFunction platform colliders frames bones x₀ parents =
        .ok problem ∧
      Objective.ComputesAt x₀ x₀ B F (fun _ _ => 0) problem ∧
      (NoPenetration colliders x₀ B F → StartsAtRest x₀ B F problem)) ∧
    ∀ solve showDouble memory filename file opens,
      readFile file memory 0 = .ok ⟨colliders, x₀, frames, bones, parents⟩ →
      NoPenetration colliders x₀ B F → StaysAtZeroGradient solve →
      CeresWrapper.main platform solve showDouble memory filename file opens =
        CeresWrapper.saveFile showDouble filename opens x₀ frames := by
  have hchildren := maintainBoneLengthChildrenFunction_eq platform colliders hB hF hparents hx₀.ge
  refine ⟨⟨_, basicCollisionAvoidance_eq colliders hB hF, ?_⟩,
    ⟨_, maintainBoneLength_eq colliders hB hF hparents hrange hx₀.ge, ?_, ?_⟩,
    ⟨_, hchildren, ?_, ?_⟩, ?_⟩
  · intro hclean
    exact .of_allResting (allResting_basic hcolliders hclean hx₀)
  · rw [(Objective.computesAt_lengthFunctor colliders hparents hrange hx₀ hx₀).iff_eq]
    exact fun b f _ _ => seenParentError_self parents x₀ F b f
  · intro hclean
    exact .of_allResting (allResting_length hcolliders hclean hx₀ hparents hrange)
  · rw [(Objective.computesAt_childrenFunctor platform colliders hparents hx₀ hx₀).iff_eq]
    exact fun b f _ _ => seenChildrenError_self platform parents x₀ F b f
  · intro hclean
    exact .of_allResting (allResting_children hcolliders hclean hx₀ platform hparents)
  · intro solve showDouble memory filename file opens hread hclean hsolve
    have hrest := allResting_children hcolliders hclean hx₀ platform hparents
    have hsolved := hsolve _ x₀ (B * F) (StartsAtRest.of_allResting hrest).gradient
    simp only [CeresWrapper.main, hread, Except.mapError, Except.ok_bind, hchildren, hsolved]

/-- Two bones above the plane `y = -1`, saved as they were read by a solver that
    stays where the gradient is zero. -/
theorem clean_animation_starts_at_rest_two :
    CeresWrapper.main win64 (fun _ x => .ok x) (fun q : ℚ => showInt q.num) Uninitialised.zeros
        "walk" (some "2 1 1 0 0 0 5 0 0 0 -1 0 0 1 0 0 0 ".toList) true =
      .ok "1 0 0 0 5 0 0".toList := by
  have hread : readFile (some "2 1 1 0 0 0 5 0 0 0 -1 0 0 1 0 0 0 ".toList) Uninitialised.zeros 0 =
      .ok ⟨[⟨⟨0, -1, 0⟩, ⟨0, 1, 0⟩⟩], [0, 0, 0, 5, 0, 0], 1, 2, [0, 0]⟩ := by decide +kernel
  have hrange : ParentsInRange 2 [0, 0] := by
    intro parent hparent
    simp only [List.mem_cons, List.not_mem_nil, or_false, or_self] at hparent
    subst hparent
    decide
  have hclean : NoPenetration [⟨⟨0, -1, 0⟩, ⟨0, 1, 0⟩⟩] ([0, 0, 0, 5, 0, 0] : List ℚ) 2 1 := by
    have hpoints : ∀ b < 2, ∀ f < 1, ∀ collider ∈ [(⟨⟨0, -1, 0⟩, ⟨0, 1, 0⟩⟩ : Collider ℚ)],
        ¬ 0 < (collider.planePosition - positionAt ([0, 0, 0, 5, 0, 0] : List ℚ) 1 b f).dot
          collider.planeNormal := by decide +kernel
    exact fun b f hb hf => hpoints b hb f hf
  obtain ⟨-, -, -, hmain⟩ := clean_animation_starts_at_rest win64
    (List.cons_ne_nil (⟨⟨0, -1, 0⟩, ⟨0, 1, 0⟩⟩ : Collider ℚ) []) (by rfl : (2 : Int32).toInt = (2 : Nat))
    (by rfl : (1 : Int32).toInt = (1 : Nat)) (by rfl : ([0, 0] : List Int32).length = 2) hrange
    (by rfl : ([0, 0, 0, 5, 0, 0] : List ℚ).length = 2 * 1 * 3)
  rw [hmain (fun _ x => .ok x) (fun q : ℚ => showInt q.num) Uninitialised.zeros "walk" _ true hread
    hclean fun _ _ _ _ => rfl]
  decide +kernel

end CleanStart
