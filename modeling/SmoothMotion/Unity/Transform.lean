-- SUMMARY: Unity's Transforms as far as the scripts use them: local poses, world position and rotation, and the assignments to them.
import SmoothMotion.Lib.Hierarchy
import SmoothMotion.Lib.Rotation
import SmoothMotion.Lib.Tree

/-!
# Transforms

A Transform has a local position, rotation and scale relative to its parent.
Its world position is the local one taken through the spaces of all parents,
its world rotation the product of the rotations along the way. Assigning a
world value writes the local value that gives it, and nothing else: the nodes
below keep their local data and so move along.
-/

structure LocalTransform (K : Type) [Scalar K] where
  localPosition : Vector3d K
  localRotation : Rotation K
  localScale : Vector3d K

namespace LocalTransform

variable {K : Type} [Scalar K]

/-- A point of the node's own space in the space of its parent. -/
def toParent (t : LocalTransform K) (p : Vector3d K) : Vector3d K :=
  t.localPosition + t.localRotation • t.localScale.scale p

def fromParent (t : LocalTransform K) (p : Vector3d K) : Vector3d K :=
  t.localScale.unscale.scale (t.localRotation⁻¹ • (p - t.localPosition))

/-- The transform can be undone. -/
def Invertible (t : LocalTransform K) : Prop := t.localScale.Invertible

theorem toParent_fromParent {t : LocalTransform K} (h : t.Invertible) (p : Vector3d K) :
    t.toParent (t.fromParent p) = p := by
  simp [toParent, fromParent, Vector3d.scale_unscale h]

end LocalTransform

/-! ## Chains of parents -/

section Chain

variable {K : Type} [Scalar K]

/-- A point of the space below the chain, in world space; the outermost parent
    comes first. -/
def transformPoint (chain : List (LocalTransform K)) (p : Vector3d K) : Vector3d K :=
  chain.foldr LocalTransform.toParent p

def inverseTransformPoint (chain : List (LocalTransform K)) (p : Vector3d K) : Vector3d K :=
  chain.foldl (fun p t => t.fromParent p) p

def chainRotation (chain : List (LocalTransform K)) : Rotation K :=
  (chain.map LocalTransform.localRotation).prod

theorem transformPoint_inverse {chain : List (LocalTransform K)} (h : ∀ t ∈ chain, t.Invertible)
    (p : Vector3d K) : transformPoint chain (inverseTransformPoint chain p) = p := by
  induction chain generalizing p with
  | nil => rfl
  | cons t chain ih =>
    have hchain := ih (fun t ht => h t (by simp [ht])) (t.fromParent p)
    simp only [transformPoint, inverseTransformPoint, List.foldr_cons, List.foldl_cons] at hchain ⊢
    rw [hchain]
    exact LocalTransform.toParent_fromParent (h t (by simp)) p

end Chain

/-! ## Skeletons -/

/-- The tree below `SkeletonRoot`, whose nodes are distinct Transforms with the
    names of their game objects, and the transforms of the scene above it. -/
structure Skeleton (ι K : Type) [Scalar K] where
  tree : RoseTree ι
  distinct : tree.preorder.Nodup
  name : ι → String
  outer : List (LocalTransform K)

/-- The local data of every Transform. -/
abbrev Pose (ι K : Type) [Scalar K] := ι → LocalTransform K

/-- `transform.localScale = s`. -/
def Pose.setLocalScale {ι K : Type} [DecidableEq ι] [Scalar K] (pose : Pose ι K) (i : ι)
    (s : Vector3d K) : Pose ι K :=
  Function.update pose i { pose i with localScale := s }

namespace Skeleton

variable {ι K : Type} [DecidableEq ι] [Scalar K] (sk : Skeleton ι K)

/-- The transforms above a node. -/
def chain (pose : Pose ι K) (i : ι) : List (LocalTransform K) :=
  sk.outer ++ (sk.tree.ancestors i).map pose

/-- `transform.parent`; what `SkeletonRoot` hangs from is no bone. -/
def parent (i : ι) : Option ι := sk.tree.parent i

/-- `transform.position`. -/
def position (pose : Pose ι K) (i : ι) : Vector3d K :=
  transformPoint (sk.chain pose i) (pose i).localPosition

/-- `transform.rotation`. -/
def rotation (pose : Pose ι K) (i : ι) : Rotation K :=
  chainRotation (sk.chain pose i) * (pose i).localRotation

/-- `transform.position = v`. -/
def setPosition (pose : Pose ι K) (i : ι) (v : Vector3d K) : Pose ι K :=
  Function.update pose i
    { pose i with localPosition := inverseTransformPoint (sk.chain pose i) v }

/-- `transform.rotation = q`. -/
def setRotation (pose : Pose ι K) (i : ι) (q : Rotation K) : Pose ι K :=
  Function.update pose i
    { pose i with localRotation := (chainRotation (sk.chain pose i))⁻¹ * q }

/-! ## Placing a node as a whole -/

/-- The local data that gives position `v`, rotation `q` and local scale `s`
    below the chain. -/
def placed (chain : List (LocalTransform K)) (v : Vector3d K) (q : Rotation K) (s : Vector3d K) :
    LocalTransform K where
  localPosition := inverseTransformPoint chain v
  localRotation := (chainRotation chain)⁻¹ * q
  localScale := s

variable {sk}

theorem not_mem_ancestors_self {i : ι} (hi : i ∈ sk.tree.preorder) : i ∉ sk.tree.ancestors i := by
  obtain ⟨l₁, l₂, hsplit⟩ := List.append_of_mem hi
  have hnd := sk.distinct
  rw [hsplit, List.nodup_append] at hnd
  intro hmem
  exact hnd.2.2 i (RoseTree.ancestors_before sk.distinct hsplit i hmem) i (by simp) rfl

/-- What stands above a node does not change when the node itself is written. -/
theorem chain_update {pose : Pose ι K} {i : ι} (hi : i ∈ sk.tree.preorder)
    (t : LocalTransform K) : sk.chain (Function.update pose i t) i = sk.chain pose i := by
  have hmap : (sk.tree.ancestors i).map (Function.update pose i t) =
      (sk.tree.ancestors i).map pose := by
    refine List.map_congr_left fun a ha => ?_
    have : a ≠ i := fun heq => not_mem_ancestors_self hi (heq ▸ ha)
    simp [this]
  unfold chain
  rw [hmap]

/-- The three assignments together write one node. -/
theorem set_eq_placed (pose : Pose ι K) {i : ι} (hi : i ∈ sk.tree.preorder) (v : Vector3d K)
    (q : Rotation K) (s : Vector3d K) :
    Pose.setLocalScale (sk.setRotation (sk.setPosition pose i v) i q) i s =
      Function.update pose i (placed (sk.chain pose i) v q s) := by
  simp only [Pose.setLocalScale, setRotation, setPosition, chain_update hi, Function.update_idem,
    Function.update_self, placed]

theorem position_of_placed {pose : Pose ι K} {i : ι} {v : Vector3d K} {q : Rotation K}
    {s : Vector3d K} (h : pose i = placed (sk.chain pose i) v q s)
    (hinv : ∀ t ∈ sk.chain pose i, t.Invertible) : sk.position pose i = v := by
  unfold position
  rw [h]
  exact transformPoint_inverse hinv v

theorem rotation_of_placed {pose : Pose ι K} {i : ι} {v : Vector3d K} {q : Rotation K}
    {s : Vector3d K} (h : pose i = placed (sk.chain pose i) v q s) : sk.rotation pose i = q := by
  unfold rotation
  rw [h]
  exact mul_inv_cancel_left _ q

/-- In preorder every ancestor comes before the nodes below it. -/
theorem ancestorsFirst (sk : Skeleton ι K) :
    Hierarchy.AncestorsFirst sk.tree.ancestors sk.tree.preorder :=
  fun _ _ _ hsplit => RoseTree.ancestors_before sk.distinct hsplit

theorem mem_of_mem_ancestors {i a : ι} (hi : i ∈ sk.tree.preorder) (ha : a ∈ sk.tree.ancestors i) :
    a ∈ sk.tree.preorder := by
  obtain ⟨l₁, l₂, hsplit⟩ := List.append_of_mem hi
  rw [hsplit]
  exact List.mem_append_left _ (sk.ancestorsFirst l₁ i l₂ hsplit a ha)

theorem chain_invertible {pose : Pose ι K} {i : ι} (houter : ∀ t ∈ sk.outer, t.Invertible)
    (habove : ∀ a ∈ sk.tree.ancestors i, (pose a).Invertible) :
    ∀ t ∈ sk.chain pose i, t.Invertible := by
  intro t ht
  rcases List.mem_append.mp ht with ht | ht
  · exact houter t ht
  · obtain ⟨a, ha, rfl⟩ := List.mem_map.mp ht
    exact habove a ha

end Skeleton
