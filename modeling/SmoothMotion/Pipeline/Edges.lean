-- SUMMARY: Which pairs of bones the solver constrains: the edges of the skeleton, and the root as its own child.
import SmoothMotion.Pipeline.Input
import SmoothMotion.Solver.Builders

open Decimal

/-!
# From the skeleton to the constraints

The file lists the root as its own parent, for lack of another index. The
depths take a parent that is not listed yet for no parent; the search for
children does not, and finds the root among its own children.
-/

namespace Edges

/-! ## Pairs found by searching a list of parents -/

/-- Searching a list of parents for the children of every node finds every node
    once, under its parent. -/
theorem flatMap_children_perm {n : Nat} (parent : Nat → Nat) (hparent : ∀ c, c < n → parent c < n) :
    ((List.range n).flatMap fun b =>
        ((List.range n).filter fun c => parent c = b).map fun c => (b, c)).Perm
      ((List.range n).map fun c => (parent c, c)) := by
  have hpiece : ∀ b, (((List.range n).filter fun c => parent c = b).map fun c => (b, c)).Nodup :=
    fun b => (List.nodup_range.filter _).map fun c c' h => (Prod.mk.inj h).2
  have hdisjoint : (List.range n).Pairwise fun b b' =>
      (((List.range n).filter fun c => parent c = b).map fun c => (b, c)).Disjoint
        (((List.range n).filter fun c => parent c = b').map fun c => (b', c)) := by
    refine List.nodup_range.imp fun hne e he he' => hne ?_
    obtain ⟨c, -, rfl⟩ := List.mem_map.mp he
    obtain ⟨c', -, heq⟩ := List.mem_map.mp he'
    exact (Prod.mk.inj heq).1.symm
  refine (List.perm_ext_iff_of_nodup (List.nodup_flatMap.mpr ⟨fun b _ => hpiece b, hdisjoint⟩)
    (List.nodup_range.map fun c c' h => (Prod.mk.inj h).2)).mpr ?_
  rintro ⟨b, c⟩
  simp only [List.mem_flatMap, List.mem_map, List.mem_filter, List.mem_range, decide_eq_true_eq,
    Prod.mk.injEq]
  constructor
  · rintro ⟨b', -, c', ⟨hc, hparent⟩, rfl, rfl⟩
    exact ⟨c', hc, hparent, rfl⟩
  · rintro ⟨c', hc, rfl, rfl⟩
    exact ⟨parent c', hparent c' hc, c', ⟨hc, rfl⟩, rfl, rfl⟩

section Skeleton

variable {ι K : Type} [DecidableEq ι] [Scalar K]

/-- The edges of the skeleton, as pairs of indices in the list of bones. -/
def treeEdges (sk : Skeleton ι K) : List (Nat × Nat) :=
  sk.tree.edges.map fun edge => (sk.tree.preorder.idxOf edge.1, sk.tree.preorder.idxOf edge.2)

/-- Every bone but the root is listed once, with the index the exporter writes
    for its parent. -/
theorem treeEdges_eq (sk : Skeleton ι K) :
    treeEdges sk = (List.range (sk.tree.preorder.length - 1)).map fun i =>
      (Exporter.parentNumber sk (i + 1), i + 1) := by
  have hedge : ∀ i (hi : i + 1 < sk.tree.preorder.length),
      ((sk.tree.parent sk.tree.preorder[i + 1]).map (·, sk.tree.preorder[i + 1])).map (fun edge =>
        (sk.tree.preorder.idxOf edge.1, sk.tree.preorder.idxOf edge.2)) =
      some (Exporter.parentNumber sk (i + 1), i + 1) := by
    intro i hi
    obtain ⟨p, -, hp, -⟩ := RoseTree.exists_parent_idxOf_lt sk.distinct hi (Nat.succ_pos i)
    have hnumber : Exporter.parentNumber sk (i + 1) = sk.tree.preorder.idxOf p := by
      simp [Exporter.parentNumber, List.getElem?_eq_getElem hi, Skeleton.parent, hp]
    rw [hp, hnumber]
    simp [sk.distinct.idxOf_getElem]
  let indices : ι → Option (Nat × Nat) := fun a =>
    ((sk.tree.parent a).map (·, a)).map fun edge =>
      (sk.tree.preorder.idxOf edge.1, sk.tree.preorder.idxOf edge.2)
  have htail : sk.tree.preorder.tail.map indices =
      (List.range (sk.tree.preorder.length - 1)).map fun i =>
        some (Exporter.parentNumber sk (i + 1), i + 1) := by
    apply List.ext_getElem (by simp)
    intro i hi hi'
    simp only [List.length_map, List.length_tail] at hi
    simpa [indices] using hedge i (by omega)
  calc treeEdges sk
      = (sk.tree.preorder.tail.map indices).filterMap id := by
        unfold treeEdges
        rw [RoseTree.edges_eq sk.distinct, List.map_filterMap, List.filterMap_map]
        rfl
    _ = _ := by
        rw [htail, List.filterMap_map]
        exact congrFun List.filterMap_eq_map' _

/-- The bones with the parents the exporter writes: the edges, and the root with
    itself. -/
theorem parentNumbers_eq (sk : Skeleton ι K) :
    ((List.range sk.tree.preorder.length).map fun c => (Exporter.parentNumber sk c, c)) =
      (0, 0) :: treeEdges sk := by
  obtain ⟨n, hn⟩ := Nat.exists_eq_add_of_lt sk.tree.preorder_length_pos
  rw [treeEdges_eq, hn, List.range_succ_eq_map, List.map_cons, Exporter.parentNumber_zero,
    List.map_map]
  simp

end Skeleton

/-! ## What the solver captures -/

section Captured

variable {K : Type} [Scalar K]

/-- The bone whose position lies at an offset of an array for `F` frames. -/
def boneAt (F : Nat) (offset : Int) : Nat := offset.toNat / 3 / F

/-- The pairs of a bone and a child whose position and rest length are captured
    for it at frame `f`. -/
def capturedPairs (problem : Problem (CostFunctor K)) (B F f : Nat) : List (Nat × Nat) :=
  (List.range B).flatMap fun b =>
    match problem.residualBlocks[b * F + f]? with
    | some ⟨.children functor, _⟩ =>
      (functor.childrenPositions.zip functor.sqBoneLengths).map fun child => (b, boneAt F child.1)
    | _ => []

theorem boneAt_tile {F c f : Nat} (hf : f < F) :
    boneAt F (Problem.tile (c * F + f)).values = c := by
  have hthree : (c * F + f) * 3 / 3 = c * F + f := Nat.mul_div_cancel _ (by omega)
  unfold boneAt Problem.tile
  rw [Int.toNat_natCast, hthree, Grid.index_div hf]

theorem capturedPairs_tiled (platform : Platform) (colliders : List (Collider K)) {B F f : Nat}
    (x₀ : List K) (parents : List Int32) (hf : f < F) :
    capturedPairs (Problem.tiled (perCell B F fun b f =>
        .children (childrenFunctor platform colliders F x₀ parents b f))) B F f =
      (List.range B).flatMap fun b => (childrenOf parents b).map fun c => (b, c) := by
  unfold capturedPairs
  apply List.flatMap_congr
  intro b hb
  rw [getElem?_residualBlocks_perCell (List.mem_range.mp hb) hf]
  simp only [childrenFunctor, List.zip_map', List.map_map]
  apply List.map_congr_left
  intro c _
  simp [boneAt_tile hf]

/-- Where the parents are numbers, the search compares these. -/
theorem childrenOf_eq {parents : List Int32} {n : Nat} {parent : Nat → Nat}
    (h : parents.map Int32.toInt = (List.range n).map fun c => (parent c : Int)) (b : Nat) :
    childrenOf parents b = (List.range n).filter fun c => parent c = b := by
  have hlength : parents.length = n := by simpa using congrArg List.length h
  unfold childrenOf
  rw [hlength]
  apply List.filter_congr
  intro c hc
  have hlt : c < parents.length := by rw [hlength]; exact List.mem_range.mp hc
  have hget : (parents.map Int32.toInt)[c]? = some (parent c : Int) := by
    rw [h, List.getElem?_map, List.getElem?_range (List.mem_range.mp hc)]
    rfl
  rw [List.getElem?_map, List.getElem?_eq_getElem hlt, Option.map_some, Option.some.injEq] at hget
  rw [List.getElem?_eq_getElem hlt, Option.any_some, hget]
  simp

end Captured

/-! ## The exported skeleton -/

section Exported

variable {ι K : Type} [DecidableEq ι] [Scalar K] {sk : Skeleton ι K}
  {c : SmoothMotionController ι K} {showFloat : K → Text}
  {constraints : List (PlaneCollisionConstraint K)}

/-- At every frame of every exported skeleton the captured pairs are the edges of
    the tree and, once more, the root as its own child. So they are the edges at
    every frame only if there is no frame. -/
theorem capturedPairs_exported (platform : Platform) (h : c.Tagged sk)
    (hbones : c.bones.length < 2 ^ 31) (hconstraints : constraints.length < 2 ^ 31)
    (hfit : 3 * c.bones.length * c.numFrames < 2 ^ 31)
    (hshow : ∀ v ∈ Exporter.exportedNumbers c constraints,
      IStream.doubleToken K (showFloat v) = some v)
    (memory : Uninitialised K) (frames : Int32) :
    ∃ text input problem, Exporter.writeToFile showFloat sk c constraints = .ok (text, []) ∧
      readFile (some text) memory frames = .ok input ∧
      maintainBoneLengthChildrenFunction platform input.colliders input.frames input.numBones
        input.positions input.parents = .ok problem ∧
      (∀ f, f < c.numFrames →
        (capturedPairs problem c.bones.length c.numFrames f).Perm ((0, 0) :: treeEdges sk)) ∧
      ((∀ f, f < c.numFrames →
        (capturedPairs problem c.bones.length c.numFrames f).Perm (treeEdges sk)) ↔
          c.numFrames = 0) := by
  obtain ⟨input, hread, hback⟩ := Exporter.readFile_terminated_fileTokens h hbones hconstraints
    hfit hshow memory frames
  have hparents := hback.parents_toInt h hbones
  have hlength : input.parents.length = c.bones.length := by
    simpa using congrArg List.length hparents
  have hpositions : input.positions.length = c.bones.length * c.numFrames * 3 := by
    rw [hback.positions, Exporter.length_positionNumbers h]
  refine ⟨_, input, _, Exporter.writeToFile_eq h constraints, hread,
    maintainBoneLengthChildrenFunction_eq platform input.colliders hback.numBones hback.frames
      hlength hpositions.ge, ?_⟩
  have hparent : ∀ b, b < c.bones.length → Exporter.parentNumber sk b < c.bones.length := by
    intro b hb
    have hle := Exporter.parentNumber_le (by rw [← h.length_eq]; exact hb)
    omega
  have hperm : ∀ f, f < c.numFrames →
      (capturedPairs (Problem.tiled (perCell c.bones.length c.numFrames fun b f =>
        .children (childrenFunctor platform input.colliders c.numFrames input.positions
          input.parents b f))) c.bones.length c.numFrames f).Perm ((0, 0) :: treeEdges sk) := by
    intro f hf
    rw [capturedPairs_tiled platform input.colliders input.positions input.parents hf,
      ← parentNumbers_eq, ← h.length_eq]
    simp only [childrenOf_eq hparents]
    exact flatMap_children_perm (Exporter.parentNumber sk) hparent
  refine ⟨hperm, fun hedges => ?_, fun hzero f hf => by omega⟩
  by_contra hne
  have hpos : 0 < c.numFrames := Nat.pos_of_ne_zero hne
  have hlengths := ((hperm 0 hpos).symm.trans (hedges 0 hpos)).length_eq
  simp at hlengths

end Exported

/-! ## A root with one child -/

/-- The one edge is captured, and the root with itself. -/
theorem capturedPairs_twoBones :
    treeEdges twoBones = [(0, 1)] ∧
    ∃ input problem,
      Exporter.writeToFile (fun q : ℚ => showInt q.num) twoBones restingController [] =
        .ok ("2 1 0 0 0 0 5 0 0 0 0 ".toList, []) ∧
      readFile (some "2 1 0 0 0 0 5 0 0 0 0 ".toList) Uninitialised.zeros 0 = .ok input ∧
      maintainBoneLengthChildrenFunction win64 input.colliders input.frames input.numBones
        input.positions input.parents = .ok problem ∧
      capturedPairs problem 2 1 0 = [(0, 0), (0, 1)] ∧
      ¬ (capturedPairs problem 2 1 0).Perm (treeEdges twoBones) := by
  have hedges : treeEdges twoBones = [(0, 1)] := by decide
  have hproblem := maintainBoneLengthChildrenFunction_eq win64 ([] : List (Collider ℚ))
    (by rfl : (2 : Int32).toInt = (2 : Nat)) (by rfl : (1 : Int32).toInt = (1 : Nat))
    (by rfl : ([0, 0] : List Int32).length = 2)
    (by decide : 2 * 1 * 3 ≤ ([0, 0, 0, 5, 0, 0] : List ℚ).length)
  have hchildren : ((List.range 2).flatMap fun b => (childrenOf [0, 0] b).map fun c => (b, c)) =
      [(0, 0), (0, 1)] := by decide
  have hpairs := (capturedPairs_tiled win64 ([] : List (Collider ℚ)) [0, 0, 0, 5, 0, 0] [0, 0]
    (by decide : 0 < 1)).trans hchildren
  refine ⟨hedges, ⟨[], [0, 0, 0, 5, 0, 0], 1, 2, [0, 0]⟩, _, ?_, by decide +kernel, hproblem,
    hpairs, ?_⟩
  · rw [Exporter.writeToFile_eq restingController_tagged]
    decide +kernel
  · rw [hpairs, hedges]
    decide

/-- What holds of every skeleton, of this one. -/
theorem capturedPairs_exported_twoBones :
    ∃ text input problem,
      Exporter.writeToFile (fun q : ℚ => showInt q.num) twoBones restingController [] =
        .ok (text, []) ∧
      readFile (some text) Uninitialised.zeros 0 = .ok input ∧
      maintainBoneLengthChildrenFunction win64 input.colliders input.frames input.numBones
        input.positions input.parents = .ok problem ∧
      (∀ f, f < 1 → (capturedPairs problem 2 1 f).Perm ((0, 0) :: treeEdges twoBones)) ∧
      ((∀ f, f < 1 → (capturedPairs problem 2 1 f).Perm (treeEdges twoBones)) ↔ 1 = 0) := by
  have hshow : ∀ v ∈ Exporter.exportedNumbers restingController [],
      IStream.doubleToken ℚ ((fun q : ℚ => showInt q.num) v) = some v := by
    decide +kernel
  exact capturedPairs_exported win64 restingController_tagged (by decide) (by decide) (by decide)
    hshow Uninitialised.zeros 0

end Edges
