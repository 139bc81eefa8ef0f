-- SUMMARY: The residual blocks tile the parameter array, and the blocks of one frame depend on that frame only.
import SmoothMotion.Solver.Builders

/-!
# Tiling and frames

Bone and frame together count through the array in blocks of three, so the
blocks cover it exactly once and Ceres never sees two that overlap. The other
positions a block uses are blocks of the same frame: two arrays that agree on a
frame give the same blocks for it.
-/

namespace Problem

variable {φ : Type}

/-- There is one block of three for every bone and frame, no offset of the array
    is in two of them, and together they are the whole array. -/
structure Tiles (B F : Nat) (problem : Problem φ) : Prop where
  count : problem.residualBlocks.length = B * F
  size : ∀ rb ∈ problem.residualBlocks, rb.parameterBlock.size = 3
  disjoint : problem.residualBlocks.Pairwise fun rb rb' =>
    rb.parameterBlock.region.Disjoint rb'.parameterBlock.region
  covers : (problem.residualBlocks.flatMap fun rb => rb.parameterBlock.region) =
    (List.range (B * F * 3)).map Nat.cast

theorem Tiles.of_tiled {B F : Nat} {fs : List φ} (h : fs.length = B * F) :
    Tiles B F (tiled fs) where
  count := by rw [length_residualBlocks_tiled, h]
  size := by
    intro rb hrb
    obtain ⟨k, hk⟩ := List.mem_iff_getElem?.mp hrb
    rw [getElem?_residualBlocks_tiled] at hk
    obtain ⟨f, -, rfl⟩ := Option.map_eq_some_iff.mp hk
    rfl
  disjoint := pairwise_disjoint_tiled fs
  covers := by rw [regions_tiled, h]

end Problem

section Frames

variable {K : Type} [Scalar K] {frames bones : Int32} {B F : Nat} {x₀ x₀' : List K}
  {parents : List Int32}

/-- The children captured for bone `b` at frame `f` are the blocks registered for
    them at the same frame. -/
def CapturesOwnFrame (parents : List Int32) (F b f : Nat) (problem : Problem (CostFunctor K)) :
    Prop :=
  ∃ functor, problem.residualBlocks[b * F + f]? =
      some ⟨.children functor, Problem.tile (b * F + f)⟩ ∧
    functor.childrenPositions.map some = (childrenOf parents b).map fun c =>
      problem.residualBlocks[c * F + f]?.map fun rb => rb.parameterBlock.values

theorem capturesOwnFrame_tiled (platform : Platform) (colliders : List (Collider K))
    (hparents : parents.length = B) {b f : Nat} (hb : b < B) (hf : f < F) :
    CapturesOwnFrame parents F b f (Problem.tiled (perCell B F fun b f =>
      .children (childrenFunctor platform colliders F x₀ parents b f))) := by
  have hcell : ∀ c, c < B → (Problem.tiled (perCell B F fun b f =>
      .children (childrenFunctor platform colliders F x₀ parents b f))).residualBlocks[c * F + f]? =
      some ⟨.children (childrenFunctor platform colliders F x₀ parents c f),
        Problem.tile (c * F + f)⟩ :=
    fun c hc => getElem?_residualBlocks_perCell hc hf
  refine ⟨_, hcell b hb, ?_⟩
  rw [childrenFunctor, List.map_map]
  apply List.map_congr_left
  intro c hc
  obtain ⟨hlt, -⟩ := mem_childrenOf.mp hc
  rw [hcell c (hparents ▸ hlt)]
  rfl

/-- The arrays agree on frame `f` of every bone. -/
def SameFrame (B F f : Nat) (x₀ x₀' : List K) : Prop :=
  ∀ b k, b < B → k < 3 → x₀[(b * F + f) * 3 + k]? = x₀'[(b * F + f) * 3 + k]?

theorem SameFrame.positionAt_eq {f : Nat} (h : SameFrame B F f x₀ x₀') {b : Nat} (hb : b < B) :
    positionAt x₀ F b f = positionAt x₀' F b f :=
  vectorAt_congr fun k hk => h b k hb hk

/-- The functors of a frame are built from that frame. -/
theorem SameFrame.childrenFunctor_eq {f : Nat} (h : SameFrame B F f x₀ x₀')
    (hparents : parents.length = B) (platform : Platform) (colliders : List (Collider K)) {b : Nat}
    (hb : b < B) : childrenFunctor platform colliders F x₀ parents b f =
      childrenFunctor platform colliders F x₀' parents b f := by
  have hlengths : ((childrenOf parents b).map fun c =>
      (positionAt x₀ F c f - positionAt x₀ F b f).norm) =
      (childrenOf parents b).map fun c => (positionAt x₀' F c f - positionAt x₀' F b f).norm := by
    apply List.map_congr_left
    intro c hc
    obtain ⟨hlt, -⟩ := mem_childrenOf.mp hc
    rw [h.positionAt_eq hb, h.positionAt_eq (hparents ▸ hlt)]
  rw [childrenFunctor, childrenFunctor, hlengths]

/-- What they compute depends on that frame only. -/
theorem SameFrame.evaluate_eq {f : Nat} (h : SameFrame B F f x₀ x₀')
    (hparents : parents.length = B) (hx₀ : x₀.length = B * F * 3) (hx₀' : x₀'.length = B * F * 3)
    (hf : f < F) (platform : Platform) (colliders : List (Collider K)) {b : Nat} (x : Vector3d K) :
    CostFunctor.evaluate x₀ x
        (.children (childrenFunctor platform colliders F x₀ parents b f)) =
      CostFunctor.evaluate x₀' x
        (.children (childrenFunctor platform colliders F x₀ parents b f)) := by
  have hsum : ((childrenOf parents b).map fun c => (positionAt x₀ F c f - x).norm -
      (positionAt x₀ F c f - positionAt x₀ F b f).norm) =
      (childrenOf parents b).map fun c => (positionAt x₀' F c f - x).norm -
        (positionAt x₀ F c f - positionAt x₀ F b f).norm := by
    apply List.map_congr_left
    intro c hc
    obtain ⟨hlt, -⟩ := mem_childrenOf.mp hc
    rw [h.positionAt_eq (hparents ▸ hlt)]
  rw [evaluate_childrenFunctor platform colliders hparents hf hx₀.ge,
    evaluate_childrenFunctor platform colliders hparents hf hx₀'.ge, hsum]

/-- `BasicCollisionAvoidance` and `MaintainBoneLengthChildrenFunction` tile the
    array. The children captured for a block are blocks of its own frame, and a
    second array that agrees on a frame gives the same blocks for it, with the
    same residuals at every point. -/
theorem blocks_tile_and_frames_separate (platform : Platform) (colliders : List (Collider K))
    (hB : bones.toInt = B) (hF : frames.toInt = F) (hparents : parents.length = B)
    (hx₀ : x₀.length = B * F * 3) :
    (∃ problem, basicCollisionAvoidance colliders frames bones = .ok problem ∧
      problem.Tiles B F ∧
      ∀ rb ∈ problem.residualBlocks, ∀ (memory memory' : List K) (x : Vector3d K),
        rb.costFunction.evaluate memory x = rb.costFunction.evaluate memory' x) ∧
    (∃ problem, maintainBoneLengthChildrenFunction platform colliders frames bones x₀ parents =
        .ok problem ∧
      problem.Tiles B F ∧
      (∀ b f, b < B → f < F → CapturesOwnFrame parents F b f problem) ∧
      ∀ f x₀', f < F → x₀'.length = B * F * 3 → SameFrame B F f x₀ x₀' →
        ∃ problem', maintainBoneLengthChildrenFunction platform colliders frames bones x₀' parents =
            .ok problem' ∧
          ∀ b, b < B → ∃ rb, problem.residualBlocks[b * F + f]? = some rb ∧
            problem'.residualBlocks[b * F + f]? = some rb ∧
            ∀ x, rb.costFunction.evaluate x₀ x = rb.costFunction.evaluate x₀' x) := by
  constructor
  · refine ⟨_, basicCollisionAvoidance_eq colliders hB hF, .of_tiled (length_perCell B F _), ?_⟩
    intro rb hrb memory memory' x
    obtain ⟨b, f, -, -, rfl⟩ := mem_residualBlocks_tiled hrb
    rfl
  · refine ⟨_, maintainBoneLengthChildrenFunction_eq platform colliders hB hF hparents hx₀.ge,
      .of_tiled (length_perCell B F _), ?_, ?_⟩
    · intro b f hb hf
      exact capturesOwnFrame_tiled platform colliders hparents hb hf
    · intro f x₀' hf hx₀' hsame
      refine ⟨_, maintainBoneLengthChildrenFunction_eq platform colliders hB hF hparents hx₀'.ge, ?_⟩
      intro b hb
      refine ⟨⟨.children (childrenFunctor platform colliders F x₀ parents b f),
        Problem.tile (b * F + f)⟩, getElem?_residualBlocks_perCell hb hf, ?_, fun x => ?_⟩
      · rw [hsame.childrenFunctor_eq hparents platform colliders hb]
        exact getElem?_residualBlocks_perCell hb hf
      · exact hsame.evaluate_eq hparents hx₀ hx₀' hf platform colliders x

/-- Two bones and two frames: the blocks tile the twelve numbers, and those of
    frame `0` do not notice a change of frame `1`. -/
theorem blocks_tile_and_frames_separate_two :
    ∃ problem problem',
      maintainBoneLengthChildrenFunction win64 [] 2 2
        ([0, 0, 0, 0, 0, 0, 5, 0, 0, 5, 0, 0] : List ℚ) [0, 0] = .ok problem ∧
      maintainBoneLengthChildrenFunction win64 [] 2 2
        ([0, 0, 0, 7, 7, 7, 5, 0, 0, 9, 9, 9] : List ℚ) [0, 0] = .ok problem' ∧
      problem.Tiles 2 2 ∧
      ∀ b, b < 2 → ∃ rb, problem.residualBlocks[b * 2 + 0]? = some rb ∧
        problem'.residualBlocks[b * 2 + 0]? = some rb := by
  obtain ⟨-, problem, hproblem, htiles, -, hframes⟩ := blocks_tile_and_frames_separate
    win64 [] (by rfl : (2 : Int32).toInt = (2 : Nat)) (by rfl : (2 : Int32).toInt = (2 : Nat))
    (by rfl : ([0, 0] : List Int32).length = 2)
    (by rfl : ([0, 0, 0, 0, 0, 0, 5, 0, 0, 5, 0, 0] : List ℚ).length = 2 * 2 * 3)
  have hsame : SameFrame 2 2 0 ([0, 0, 0, 0, 0, 0, 5, 0, 0, 5, 0, 0] : List ℚ)
      [0, 0, 0, 7, 7, 7, 5, 0, 0, 9, 9, 9] := by
    have hcells : ∀ b < 2, ∀ k < 3,
        ([0, 0, 0, 0, 0, 0, 5, 0, 0, 5, 0, 0] : List ℚ)[(b * 2 + 0) * 3 + k]? =
          ([0, 0, 0, 7, 7, 7, 5, 0, 0, 9, 9, 9] : List ℚ)[(b * 2 + 0) * 3 + k]? := by decide
    exact fun b k hb hk => hcells b hb k hk
  obtain ⟨problem', hproblem', hblocks⟩ := hframes 0 _ (by decide) rfl hsame
  refine ⟨problem, problem', hproblem, hproblem', htiles, fun b hb => ?_⟩
  obtain ⟨rb, hrb, hrb', -⟩ := hblocks b hb
  exact ⟨rb, hrb, hrb'⟩

end Frames
