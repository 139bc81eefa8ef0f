-- SUMMARY: The depths of the bones: what the one pass over the parents computes, for exported skeletons and for any list of parents.
import SmoothMotion.Pipeline.Input
import SmoothMotion.Solver.Builders

open Decimal

/-!
# Depths

The depth of a bone is looked up at its parent, among the depths that are there
already; whatever does not point into those counts as no parent. For a skeleton
in preorder every parent is there already, so the pass counts ancestors.
-/

/-! ## An `int` as an index -/

namespace Platform

variable (platform : Platform) {n : Int32}

theorem toSize_of_nonneg (h : 0 ≤ n.toInt) : platform.toSize n = n.toInt.toNat := by
  have hlt : n.toInt < 2 ^ platform.sizeBits :=
    calc n.toInt < 2 ^ 31 := Int32.toInt_lt n
      _ ≤ 2 ^ platform.sizeBits :=
        pow_le_pow_right₀ (by decide) (le_trans (by decide) platform.int_le)
  unfold toSize
  rw [Int.emod_eq_of_lt h hlt]

/-- A negative `int` is beyond every index. -/
theorem le_toSize_of_neg (h : n.toInt < 0) : 2 ^ 31 ≤ platform.toSize n := by
  have hbits : (2 : Int) ^ 32 ≤ 2 ^ platform.sizeBits :=
    pow_le_pow_right₀ (by decide) platform.int_le
  have hmin : -2 ^ 31 ≤ n.toInt := Int32.le_toInt n
  have hwrap : n.toInt % 2 ^ platform.sizeBits = n.toInt + 2 ^ platform.sizeBits := by
    rw [← Int.add_emod_right, Int.emod_eq_of_lt] <;> omega
  unfold toSize
  omega

/-- What the unsigned comparison lets through. -/
theorem toSize_lt_iff {b : Nat} (hb : b ≤ 2 ^ 31) :
    platform.toSize n < b ↔ 0 ≤ n.toInt ∧ n.toInt < b := by
  rcases lt_or_ge n.toInt 0 with hneg | hpos
  · have := platform.le_toSize_of_neg hneg
    omega
  · rw [platform.toSize_of_nonneg hpos]
    omega

end Platform

/-! ## Any list of parents -/

section Parents

variable (platform : Platform) (parents : List Int32)

/-- The pass over the parents with every lookup checked. -/
def checkedDepths : Except Fault (List Nat) :=
  forRange parents.length
    (fun bone boneDepths => do
      let parent ← readAt parents bone
      if boneDepths.length ≤ platform.toSize parent then return boneDepths ++ [1]
      else return boneDepths ++ [(← readAt boneDepths (platform.toSize parent)) + 1])
    []

/-- No lookup leaves the part already filled. -/
theorem checkedDepths_eq : checkedDepths platform parents = .ok (boneDepths platform parents) := by
  unfold checkedDepths
  refine (forRange_eq (fun b => boneDepths platform (parents.take b)) fun b hb => ?_).trans ?_
  · rw [readAt_of_lt hb, Except.ok_bind, List.take_succ_eq_append_getElem hb, boneDepths_concat]
    unfold nextDepth
    split
    · rfl
    · next hlookup =>
      rw [readAt_of_lt (by omega), Except.ok_bind]
      rfl
  · rw [List.take_length]

variable {b : Nat}

/-- The depth of a bone, from those in front of it. -/
theorem getElem?_boneDepths : (boneDepths platform parents)[b]? =
    parents[b]?.map (nextDepth platform ((boneDepths platform parents).take b)) := by
  rcases Nat.lt_or_ge b parents.length with hb | hb
  · have hsucc := boneDepths_concat platform (parents.take b) parents[b]
    rw [← List.take_succ_eq_append_getElem hb, boneDepths_take platform hb,
      boneDepths_take platform hb.le] at hsucc
    have hlength : ((boneDepths platform parents).take b).length = b := by simp; omega
    rw [← List.getElem?_take_of_lt (Nat.lt_succ_self b), hsucc, List.getElem?_append_right hlength.le,
      hlength, Nat.sub_self, List.getElem?_eq_getElem hb]
    rfl
  · rw [List.getElem?_eq_none (by simpa using hb), List.getElem?_eq_none hb]
    rfl

/-- A bone lies one below its parent if that stands in front of it, and is taken
    for a root otherwise. -/
theorem getElem?_boneDepths_eq {parent : Int32} (hparent : parents[b]? = some parent)
    (hb : b ≤ 2 ^ 31) : (boneDepths platform parents)[b]? =
      if 0 ≤ parent.toInt ∧ parent.toInt < b then
        (boneDepths platform parents)[parent.toInt.toNat]?.map (· + 1)
      else some 1 := by
  have hlt : b < parents.length := (List.getElem?_eq_some_iff.mp hparent).1
  have hlength : ((boneDepths platform parents).take b).length = b := by simp; omega
  rw [getElem?_boneDepths, hparent, Option.map_some]
  unfold nextDepth
  split
  · next hle =>
    rw [hlength, ← Nat.not_lt, platform.toSize_lt_iff hb] at hle
    rw [if_neg hle]
  · next hlookup =>
    rw [Nat.not_le, hlength, platform.toSize_lt_iff hb] at hlookup
    have hindex : parent.toInt.toNat < (boneDepths platform parents).length := by
      rw [length_boneDepths]
      omega
    rw [if_pos hlookup, List.getElem?_eq_getElem hindex]
    simp [platform.toSize_of_nonneg hlookup.1]

theorem boneDepths_le {d : Nat} (hd : (boneDepths platform parents)[b]? = some d) : d ≤ b + 1 := by
  induction b using Nat.strongRecOn generalizing d with
  | ind b ih =>
    rw [getElem?_boneDepths] at hd
    obtain ⟨parent, hparent, rfl⟩ := Option.map_eq_some_iff.mp hd
    have hlt : b < parents.length := (List.getElem?_eq_some_iff.mp hparent).1
    unfold nextDepth
    split
    · omega
    · next hlookup =>
      have hindex : platform.toSize parent < b := by simp at hlookup; omega
      have habove := ih _ hindex (List.getElem?_eq_getElem (by simp; omega))
      rw [List.getElem_take]
      omega

end Parents

/-! ## The depths in the functors -/

/-- The functors of bone `b` are weighted by `depth b`. -/
def WeightedBy {K : Type} (problem : Problem (CostFunctor K)) (B F : Nat) (depth : Nat → Nat) :
    Prop :=
  ∀ b f, b < B → f < F → ∃ functor, problem.residualBlocks[b * F + f]? =
    some ⟨.children functor, Problem.tile (b * F + f)⟩ ∧ functor.skeletonDepth = depth b

theorem weightedBy_tiled {K : Type} [Scalar K] (platform : Platform) (colliders : List (Collider K))
    (B F : Nat) (parameters : List K) (parents : List Int32) :
    WeightedBy (Problem.tiled (perCell B F fun b f =>
        .children (childrenFunctor platform colliders F parameters parents b f))) B F
      fun b => (boneDepths platform parents).getD b 0 :=
  fun _ _ hb hf => ⟨_, getElem?_residualBlocks_perCell hb hf, rfl⟩

/-! ## Exported skeletons -/

namespace Exporter

variable {ι K : Type} [DecidableEq ι] [Scalar K] {sk : Skeleton ι K}
  {c : SmoothMotionController ι K} {showFloat : K → Text}
  {constraints : List (PlaneCollisionConstraint K)}

/-- The number of Transforms from the root down to bone `b`. -/
def depthInTree (sk : Skeleton ι K) (b : Nat) : Nat :=
  1 + ((sk.tree.preorder[b]?.map sk.tree.ancestors).getD []).length

theorem depthInTree_zero (sk : Skeleton ι K) : depthInTree sk 0 = 1 := by
  unfold depthInTree
  rw [RoseTree.preorder_eq_cons]
  simp [RoseTree.ancestors_root sk.distinct]

/-- A bone lies one below its parent. -/
theorem depthInTree_succ {b : Nat} (hb : b < sk.tree.preorder.length) (hpos : 0 < b) :
    depthInTree sk b = depthInTree sk (parentNumber sk b) + 1 := by
  obtain ⟨p, hmem, hp, -⟩ := RoseTree.exists_parent_idxOf_lt sk.distinct hb hpos
  have hnumber : parentNumber sk b = sk.tree.preorder.idxOf p := by
    simp [parentNumber, List.getElem?_eq_getElem hb, Skeleton.parent, hp]
  have hidx : sk.tree.preorder[sk.tree.preorder.idxOf p]? = some p := by
    rw [List.getElem?_eq_getElem (List.idxOf_lt_length_of_mem hmem), List.getElem_idxOf]
  have habove := RoseTree.ancestors_of_parent sk.distinct (List.getElem_mem hb) hp
  unfold depthInTree
  rw [hnumber, hidx, List.getElem?_eq_getElem hb]
  simp [habove]
  omega

/-- With the indices of the parents the pass counts the Transforms on the way up. -/
theorem boneDepths_parentNumbers (platform : Platform)
    (hbones : sk.tree.preorder.length < 2 ^ 31) {b : Nat} (hb : b < sk.tree.preorder.length) :
    (boneDepths platform ((List.range sk.tree.preorder.length).map fun b =>
      Int32.ofInt (parentNumber sk b)))[b]? = some (depthInTree sk b) := by
  induction b using Nat.strongRecOn with
  | ind b ih =>
    have hle := parentNumber_le hb
    have hint : (Int32.ofInt (parentNumber sk b)).toInt = parentNumber sk b :=
      Int32.toInt_ofInt_of_le (by omega) (by omega)
    have hparent : ((List.range sk.tree.preorder.length).map fun b =>
        Int32.ofInt (parentNumber sk b))[b]? = some (Int32.ofInt (parentNumber sk b)) := by
      rw [List.getElem?_map, List.getElem?_range hb]
      rfl
    rw [getElem?_boneDepths_eq platform _ hparent (by omega), hint]
    rcases Nat.eq_zero_or_pos b with rfl | hpos
    · rw [if_neg (by omega), depthInTree_zero]
    · have hlt := parentNumber_lt hb hpos
      rw [if_pos (by omega), Int.toNat_natCast, ih _ hlt (by omega), depthInTree_succ hb hpos]
      rfl

/-- The text has a blank for every number, and its length is an `int`. -/
theorem counts_lt (h : c.Tagged sk)
    (hsize : (IStream.terminated (fileTokens showFloat sk c constraints)).length < 2 ^ 31) :
    c.bones.length < 2 ^ 31 ∧ constraints.length < 2 ^ 31 ∧
      3 * c.bones.length * c.numFrames < 2 ^ 31 := by
  have htokens := IStream.length_le_length_terminated (fileTokens showFloat sk c constraints)
  have hlength : (fileTokens showFloat sk c constraints).length =
      c.bones.length * c.numFrames * 3 + constraints.length * 6 + c.bones.length + 3 := by
    simp [fileTokens, exportedNumbers, length_positionNumbers h, length_colliderNumbers,
      Nat.add_assoc]
  have hproduct : 3 * c.bones.length * c.numFrames = c.bones.length * c.numFrames * 3 := by ring
  omega

/-- In the problem built from an exported file every bone is weighted by its
    depth in the tree. Whatever the parents are, the pass looks up only depths that
    are there already, and gives bone `b` a depth between `1` and `b + 1`. -/
theorem boneDepths_exported (platform : Platform) (h : c.Tagged sk) {text : Text}
    {entries : List LogEntry} (hwrite : writeToFile showFloat sk c constraints = .ok (text, entries))
    (hsize : text.length < 2 ^ 31)
    (hvalid : ∀ v ∈ exportedNumbers c constraints, (IStream.doubleToken K (showFloat v)).isSome)
    (memory : Uninitialised K) (frames : Int32) :
    (∃ input problem, readFile (some text) memory frames = .ok input ∧
      maintainBoneLengthChildrenFunction platform input.colliders input.frames input.numBones
        input.positions input.parents = .ok problem ∧
      boneDepths platform input.parents =
        sk.tree.preorder.map (fun i => 1 + (sk.tree.ancestors i).length) ∧
      WeightedBy problem c.bones.length c.numFrames (depthInTree sk)) ∧
    ∀ parents : List Int32, checkedDepths platform parents = .ok (boneDepths platform parents) ∧
      ∀ b, b < parents.length →
        ∃ d, (boneDepths platform parents)[b]? = some d ∧ 1 ≤ d ∧ d ≤ b + 1 := by
  rw [writeToFile_eq h, Except.ok.injEq, Prod.mk.injEq] at hwrite
  obtain ⟨rfl, -⟩ := hwrite
  obtain ⟨hbones, hconstraints, hfit⟩ := counts_lt h hsize
  constructor
  · obtain ⟨input, hread, hspells, hnumBones, hframes, -, hparents⟩ :=
      readFile_spells h hbones hconstraints hfit hvalid memory frames
    have hlength : input.parents.length = c.bones.length := by simp [hparents]
    have hpositions : input.positions.length = c.bones.length * c.numFrames * 3 := by
      have hspelled := congrArg List.length hspells.positions
      simpa [length_sectionTokens h, Nat.add_assoc] using hspelled
    have hdepth : ∀ b, b < sk.tree.preorder.length →
        (boneDepths platform input.parents)[b]? = some (depthInTree sk b) := by
      intro b hb
      rw [hparents, h.length_eq]
      exact boneDepths_parentNumbers platform (h.length_eq ▸ hbones) hb
    refine ⟨input, _, hread, maintainBoneLengthChildrenFunction_eq platform input.colliders hnumBones
      hframes hlength hpositions.ge, ?_, ?_⟩
    · apply List.ext_getElem?
      intro b
      rcases Nat.lt_or_ge b sk.tree.preorder.length with hb | hb
      · rw [hdepth b hb, List.getElem?_map, List.getElem?_eq_getElem hb]
        simp [depthInTree, List.getElem?_eq_getElem hb]
      · rw [List.getElem?_eq_none (by simpa [hlength, h.length_eq] using hb),
          List.getElem?_eq_none (by simpa using hb)]
    · intro b f hb hf
      obtain ⟨functor, hblock, hweight⟩ := weightedBy_tiled platform input.colliders _ _
        input.positions input.parents b f hb hf
      refine ⟨functor, hblock, hweight.trans ?_⟩
      simp [hdepth b (h.length_eq ▸ hb)]
  · intro parents
    refine ⟨checkedDepths_eq platform parents, fun b hb => ?_⟩
    have hb' : b < (boneDepths platform parents).length := by rwa [length_boneDepths]
    exact ⟨_, List.getElem?_eq_getElem hb', boneDepths_pos platform parents _ (List.getElem_mem hb'),
      boneDepths_le platform parents (List.getElem?_eq_getElem hb')⟩

/-- A root with one child. -/
theorem boneDepths_exported_twoBones :
    (∃ input problem, readFile (some "2 1 0 0 0 0 5 0 0 0 0 ".toList) Uninitialised.zeros 0 =
        .ok input ∧
      maintainBoneLengthChildrenFunction win64 input.colliders input.frames input.numBones
        input.positions input.parents = .ok problem ∧
      boneDepths win64 input.parents =
        twoBones.tree.preorder.map (fun i => 1 + (twoBones.tree.ancestors i).length) ∧
      WeightedBy problem 2 1 (depthInTree twoBones)) ∧
    ∀ parents : List Int32, checkedDepths win64 parents = .ok (boneDepths win64 parents) ∧
      ∀ b, b < parents.length →
        ∃ d, (boneDepths win64 parents)[b]? = some d ∧ 1 ≤ d ∧ d ≤ b + 1 := by
  have hwrite : writeToFile (fun q : ℚ => showInt q.num) twoBones restingController [] =
      .ok ("2 1 0 0 0 0 5 0 0 0 0 ".toList, []) := by
    rw [writeToFile_eq restingController_tagged]
    decide +kernel
  have hvalid : ∀ v ∈ exportedNumbers restingController [],
      (IStream.doubleToken ℚ ((fun q : ℚ => showInt q.num) v)).isSome := by decide +kernel
  exact boneDepths_exported win64 restingController_tagged hwrite (by decide) hvalid
    Uninitialised.zeros 0

end Exporter
