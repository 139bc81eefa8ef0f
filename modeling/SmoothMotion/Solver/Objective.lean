-- SUMMARY: Which lengths the solver sees at a candidate: exactly when the length residuals are the length errors of the candidate itself.
import SmoothMotion.Solver.Builders
import SmoothMotion.Solver.Evaluation

/-!
# The objective at a candidate

A block takes the position of its own bone from the candidate, but those of the
children, or of the parent, from the array the problem was built on. The length
it sees is the candidate's only as far as the other end of the bone is as far
away in both.
-/

namespace Objective

variable {K : Type} [Scalar K] {frames bones : Int32} {B F : Nat} {x₀ q : List K}
  {parents : List Int32}

/-- At the candidate `q` the second residual of the block of bone `b` at frame
    `f` is `error b f`. -/
def ComputesAt (x₀ q : List K) (B F : Nat) (error : Nat → Nat → K)
    (problem : Problem (CostFunctor K)) : Prop :=
  ∀ b f, b < B → f < F → ∃ rb r₀, problem.residualBlocks[b * F + f]? = some rb ∧
    Ceres.evaluateBlock x₀ q rb = .ok [r₀, some (error b f)]

/-! ## The length errors of a candidate -/

/-- The length of the bone from `b` to `c` in the input. -/
def restLength (x₀ : List K) (F c b f : Nat) : K :=
  (positionAt x₀ F c f - positionAt x₀ F b f).norm

/-- The error of the bones from `b` to its children, weighted by the depth. -/
def childrenError (platform : Platform) (parents : List Int32) (x₀ q : List K) (F b f : Nat) : K :=
  (boneDepths platform parents).getD b 0 * ((childrenOf parents b).map fun c =>
    (positionAt q F c f - positionAt q F b f).norm - restLength x₀ F c b f).sum

/-- The error of the bone from `b` to its parent. -/
def parentError (parents : List Int32) (x₀ q : List K) (F b f : Nat) : K :=
  (positionAt q F (parentOf parents b) f - positionAt q F b f).norm -
    restLength x₀ F (parentOf parents b) b f

/-- The same errors with the other end of the bone where it was in the input. -/
def seenChildrenError (platform : Platform) (parents : List Int32) (x₀ q : List K) (F b f : Nat) :
    K :=
  (boneDepths platform parents).getD b 0 * ((childrenOf parents b).map fun c =>
    (positionAt x₀ F c f - positionAt q F b f).norm - restLength x₀ F c b f).sum

def seenParentError (parents : List Int32) (x₀ q : List K) (F b f : Nat) : K :=
  (positionAt x₀ F (parentOf parents b) f - positionAt q F b f).norm -
    restLength x₀ F (parentOf parents b) b f

/-! ## The lengths the blocks compute -/

/-- A block computes one value. -/
theorem ComputesAt.iff_eq {problem : Problem (CostFunctor K)} {value error : Nat → Nat → K}
    (h : ComputesAt x₀ q B F value problem) :
    ComputesAt x₀ q B F error problem ↔ ∀ b f, b < B → f < F → value b f = error b f := by
  unfold ComputesAt
  refine forall₄_congr fun b f hb hf => ?_
  obtain ⟨rb, r₀, hrb, heval⟩ := h b f hb hf
  constructor
  · rintro ⟨rb', r₀', hrb', heval'⟩
    rw [hrb, Option.some.injEq] at hrb'
    rw [← hrb', heval] at heval'
    simp only [Except.ok.injEq, List.cons.injEq, Option.some.injEq] at heval'
    exact heval'.2.1
  · intro hvalue
    exact ⟨rb, r₀, hrb, hvalue ▸ heval⟩

theorem evaluateBlock_tiled (memory : List K) (g : Nat → Nat → CostFunctor K) {b f : Nat}
    (hq : B * F * 3 ≤ q.length) (hb : b < B) (hf : f < F) :
    ∃ rb, (Problem.tiled (perCell B F g)).residualBlocks[b * F + f]? = some rb ∧
      Ceres.evaluateBlock memory q rb = (g b f).evaluate memory (positionAt q F b f) := by
  refine ⟨⟨g b f, Problem.tile (b * F + f)⟩, getElem?_residualBlocks_perCell hb hf, ?_⟩
  unfold Ceres.evaluateBlock
  rw [readVector3At_cell hq hb hf, Except.ok_bind]

/-- What the blocks of `MaintainBoneLengthChildrenFunction` compute. -/
theorem computesAt_childrenFunctor (platform : Platform) (colliders : List (Collider K))
    (hparents : parents.length = B) (hx₀ : x₀.length = B * F * 3) (hq : q.length = B * F * 3) :
    ComputesAt x₀ q B F (seenChildrenError platform parents x₀ q F)
      (Problem.tiled (perCell B F fun b f =>
        .children (childrenFunctor platform colliders F x₀ parents b f))) := by
  intro b f hb hf
  obtain ⟨rb, hrb, heval⟩ := evaluateBlock_tiled x₀
    (fun b f => .children (childrenFunctor platform colliders F x₀ parents b f)) hq.ge hb hf
  rw [evaluate_childrenFunctor platform colliders hparents hf hx₀.ge] at heval
  exact ⟨rb, _, hrb, heval⟩

/-- What the blocks of `MaintainBoneLength` compute. -/
theorem computesAt_lengthFunctor (colliders : List (Collider K)) (hparents : parents.length = B)
    (hrange : ParentsInRange B parents) (hx₀ : x₀.length = B * F * 3) (hq : q.length = B * F * 3) :
    ComputesAt x₀ q B F (seenParentError parents x₀ q F)
      (Problem.tiled (perCell B F fun b f =>
        .length (lengthFunctor colliders F x₀ (parentOf parents b) b f))) := by
  intro b f hb hf
  obtain ⟨rb, hrb, heval⟩ := evaluateBlock_tiled x₀
    (fun b f => .length (lengthFunctor colliders F x₀ (parentOf parents b) b f)) hq.ge hb hf
  rw [evaluate_lengthFunctor colliders (hrange.parentOf_lt hparents hb) hf hx₀.ge] at heval
  exact ⟨rb, _, hrb, heval⟩

/-! ## When they are the candidate's -/

/-- Two sums of differences with the same lengths agree when the distances add up
    to the same. -/
private theorem weighted_eq_iff {α : Type} {depth : K} (hdepth : depth ≠ 0) (l : List α)
    (d e length : α → K) :
    depth * (l.map fun a => d a - length a).sum = depth * (l.map fun a => e a - length a).sum ↔
      (l.map d).sum = (l.map e).sum := by
  have hd : (l.map fun a => d a - length a).sum + (l.map length).sum = (l.map d).sum := by
    simp [← List.sum_map_add]
  have he : (l.map fun a => e a - length a).sum + (l.map length).sum = (l.map e).sum := by
    simp [← List.sum_map_add]
  rw [mul_right_inj' hdepth, ← hd, ← he, add_left_inj]

private theorem depth_ne_zero (platform : Platform) {b : Nat} (hb : b < parents.length) :
    (((boneDepths platform parents).getD b 0 : Nat) : K) ≠ 0 := by
  have hlt : b < (boneDepths platform parents).length := by rwa [length_boneDepths]
  rw [List.getD_eq_getElem _ _ hlt, Nat.cast_ne_zero]
  exact (boneDepths_pos platform parents _ (List.getElem_mem hlt)).ne'

/-- At a candidate the length residuals are its length errors if and only if, for
    every bone and frame, the positions in the input of the children (of the
    parent) are as far from the candidate position of the bone as their candidate
    positions, in the sum over the children. -/
theorem lengthResiduals_at_candidate_iff (platform : Platform) (colliders : List (Collider K))
    (hB : bones.toInt = B) (hF : frames.toInt = F) (hparents : parents.length = B)
    (hx₀ : x₀.length = B * F * 3) (hq : q.length = B * F * 3) :
    (∃ problem, maintainBoneLengthChildrenFunction platform colliders frames bones x₀ parents =
        .ok problem ∧
      (ComputesAt x₀ q B F (childrenError platform parents x₀ q F) problem ↔
        ∀ b f, b < B → f < F →
          ((childrenOf parents b).map fun c =>
              (positionAt x₀ F c f - positionAt q F b f).norm).sum =
            ((childrenOf parents b).map fun c =>
              (positionAt q F c f - positionAt q F b f).norm).sum)) ∧
    (ParentsInRange B parents →
      ∃ problem, maintainBoneLength colliders frames bones x₀ parents = .ok problem ∧
      (ComputesAt x₀ q B F (parentError parents x₀ q F) problem ↔
        ∀ b f, b < B → f < F →
          (positionAt x₀ F (parentOf parents b) f - positionAt q F b f).norm =
            (positionAt q F (parentOf parents b) f - positionAt q F b f).norm)) := by
  constructor
  · refine ⟨_, maintainBoneLengthChildrenFunction_eq platform colliders hB hF hparents hx₀.ge, ?_⟩
    rw [(computesAt_childrenFunctor platform colliders hparents hx₀ hq).iff_eq]
    refine forall₄_congr fun b f hb hf => ?_
    exact weighted_eq_iff (depth_ne_zero platform (by omega)) _ _ _ _
  · intro hrange
    refine ⟨_, maintainBoneLength_eq colliders hB hF hparents hrange hx₀.ge, ?_⟩
    rw [(computesAt_lengthFunctor colliders hparents hrange hx₀ hq).iff_eq]
    refine forall₄_congr fun b f hb hf => ?_
    exact sub_left_inj

/-! ## Two bones moved together -/

/-- A root and its child, five apart. -/
def twoPositions : List ℚ := [0, 0, 0, 5, 0, 0]

/-- The same two bones, both moved by five. -/
def movedTogether : List ℚ := [-5, 0, 0, 0, 0, 0]

/-- The candidate has no length error, the solver sees one of ten. -/
theorem lengthResiduals_movedTogether :
    ∃ problem, maintainBoneLengthChildrenFunction win64 [⟨⟨0, 0, 0⟩, ⟨0, 1, 0⟩⟩] 1 2 twoPositions
        [0, 0] = .ok problem ∧
      childrenError win64 [0, 0] twoPositions movedTogether 1 0 0 = 0 ∧
      (∃ rb r₀, problem.residualBlocks[0]? = some rb ∧
        Ceres.evaluateBlock twoPositions movedTogether rb = .ok [r₀, some 10]) ∧
      ¬ ComputesAt twoPositions movedTogether 2 1
        (childrenError win64 [0, 0] twoPositions movedTogether 1) problem := by
  have hparents : ([0, 0] : List Int32).length = 2 := rfl
  have hx₀ : twoPositions.length = 2 * 1 * 3 := rfl
  have hq : movedTogether.length = 2 * 1 * 3 := rfl
  have hcomputes := computesAt_childrenFunctor win64 [⟨⟨0, 0, 0⟩, ⟨0, 1, 0⟩⟩] hparents hx₀ hq
  have herror : childrenError win64 [0, 0] twoPositions movedTogether 1 0 0 = 0 := by
    decide +kernel
  refine ⟨_, maintainBoneLengthChildrenFunction_eq win64 _ rfl rfl hparents hx₀.ge, herror, ?_, ?_⟩
  · obtain ⟨rb, r₀, hrb, heval⟩ := hcomputes 0 0 (by decide) (by decide)
    have hseen : seenChildrenError win64 [0, 0] twoPositions movedTogether 1 0 0 = 10 := by
      decide +kernel
    exact ⟨rb, r₀, hrb, hseen ▸ heval⟩
  · intro h
    have heq := (hcomputes.iff_eq.mp h) 0 0 (by decide) (by decide)
    rw [herror] at heq
    revert heq
    decide +kernel

/-- The condition at work on them. -/
theorem lengthResiduals_at_candidate_iff_movedTogether :
    (∃ problem, maintainBoneLengthChildrenFunction win64 [] 1 2 twoPositions [0, 0] = .ok problem ∧
      (ComputesAt twoPositions movedTogether 2 1
          (childrenError win64 [0, 0] twoPositions movedTogether 1) problem ↔
        ∀ b f, b < 2 → f < 1 →
          ((childrenOf [0, 0] b).map fun c =>
              (positionAt twoPositions 1 c f - positionAt movedTogether 1 b f).norm).sum =
            ((childrenOf [0, 0] b).map fun c =>
              (positionAt movedTogether 1 c f - positionAt movedTogether 1 b f).norm).sum)) ∧
    (ParentsInRange 2 [0, 0] →
      ∃ problem, maintainBoneLength [] 1 2 twoPositions [0, 0] = .ok problem ∧
      (ComputesAt twoPositions movedTogether 2 1
          (parentError [0, 0] twoPositions movedTogether 1) problem ↔
        ∀ b f, b < 2 → f < 1 →
          (positionAt twoPositions 1 (parentOf [0, 0] b) f -
              positionAt movedTogether 1 b f).norm =
            (positionAt movedTogether 1 (parentOf [0, 0] b) f -
              positionAt movedTogether 1 b f).norm)) :=
  lengthResiduals_at_candidate_iff win64 [] rfl rfl rfl rfl rfl

end Objective
