-- SUMMARY: A rigid motion of the whole scene changes no cost: optimal arrays are moved to optimal arrays.
import SmoothMotion.Lib.RigidMotion
import SmoothMotion.Solver.FrameByFrame

/-!
# Moving the scene

The objective is made of distances and of depths behind planes. When positions and
planes are moved together, every functor that is built for the moved positions costs
at a moved candidate what the old one cost.
-/

/-! ## Moved data -/

section Moved

variable {K : Type} [Scalar K] (m : RigidMotion K)

def Collider.moved (c : Collider K) : Collider K :=
  ⟨m.apply c.planePosition, m.rotation • c.planeNormal⟩

theorem Collider.intersectsPlane_moved (c : Collider K) (x : Vector3d K) :
    (c.moved m).intersectsPlane (m.apply x) = c.intersectsPlane x := by
  simp only [Collider.intersectsPlane, Collider.moved, m.apply_sub_apply, Rotation.dot_smul]

/-- The array with the first `n` positions moved. -/
def movedArray (n : Nat) (x : List K) : List K := arrayOf n fun k => m.apply (vectorAt x k)

theorem length_movedArray (n : Nat) (x : List K) : (movedArray m n x).length = n * 3 :=
  length_arrayOf _ _

theorem positionAt_movedArray {B F b f : Nat} (x : List K) (hb : b < B) (hf : f < F) :
    positionAt (movedArray m (B * F) x) F b f = m.apply (positionAt x F b f) :=
  vectorAt_arrayOf _ (Grid.index_lt hb hf)

theorem CostFunctor.penetration_moved {f f' : CostFunctor K}
    (hcolliders : f'.colliders = f.colliders.map (Collider.moved m)) (hweight : f'.weight = f.weight)
    (x : Vector3d K) : f'.penetration (m.apply x) = f.penetration x := by
  unfold CostFunctor.penetration
  rw [hcolliders, hweight, List.getLast?_map, Option.map_map]
  simp only [Function.comp_def, Collider.intersectsPlane_moved]

end Moved

namespace Ceres

variable {K : Type} [Scalar K] {x₀ q : List K} {B F : Nat} {parents : List Int32}

/-! ## Two tilings of the same cells -/

omit [Scalar K] in
theorem residualBlocks_perCell (g : Nat → Nat → CostFunctor K) :
    (Problem.tiled (perCell B F g)).residualBlocks =
      (List.range (B * F)).map fun k => ⟨g (k / F) (k % F), Problem.tile k⟩ := by
  apply List.ext_getElem?
  intro k
  rcases Nat.lt_or_ge k (B * F) with hk | hk
  · have hF : 0 < F := Nat.pos_of_mul_pos_left (by omega : 0 < B * F)
    have hb : k / F < B := Nat.div_lt_of_lt_mul (by rwa [Nat.mul_comm])
    have hcell := getElem?_residualBlocks_perCell (g := g) hb (Nat.mod_lt k hF)
    rw [Nat.div_add_mod'] at hcell
    rw [hcell, List.getElem?_map, List.getElem?_range hk]
    rfl
  · rw [List.getElem?_eq_none (by simpa [Problem.length_residualBlocks_tiled, length_perCell] using hk),
      List.getElem?_eq_none (by simpa using hk)]

theorem foldlM_congr {α β ε : Type} {f g : β → α → Except ε β} {l : List α}
    (h : ∀ a ∈ l, ∀ b, f b a = g b a) (b : β) : l.foldlM f b = l.foldlM g b := by
  induction l generalizing b with
  | nil => rfl
  | cons a l ih =>
    rw [List.foldlM_cons, List.foldlM_cons, h a (by simp)]
    exact congrArg _ (funext fun b' => ih (fun a' ha' => h a' (by simp [ha'])) b')

section Tilings

variable {x₀' q' : List K} {g g' : Nat → Nat → CostFunctor K} (hq : q.length = B * F * 3)
  (hq' : q'.length = B * F * 3)
include hq hq'

/-- Tilings whose functors cost the same at the candidates cost the same. -/
theorem cost_perCell_congr
    (h : ∀ b f, b < B → f < F → costAt x₀ (g b f) (positionAt q F b f) =
      costAt x₀' (g' b f) (positionAt q' F b f)) :
    cost x₀ q (Problem.tiled (perCell B F g)) = cost x₀' q' (Problem.tiled (perCell B F g')) := by
  unfold cost
  rw [residualBlocks_perCell, residualBlocks_perCell, List.foldlM_map, List.foldlM_map]
  refine foldlM_congr (fun k hk total => ?_) 0
  have hlt : k < B * F := List.mem_range.mp hk
  have hF : 0 < F := Nat.pos_of_mul_pos_left (by omega : 0 < B * F)
  have hb : k / F < B := Nat.div_lt_of_lt_mul (by rwa [Nat.mul_comm])
  have hcell := h (k / F) (k % F) hb (Nat.mod_lt k hF)
  rw [positionAt, positionAt, Nat.div_add_mod'] at hcell
  rw [blockCost_eq, blockCost_eq, readVector3At_tile (by omega), readVector3At_tile (by omega),
    Except.ok_bind, Except.ok_bind, hcell]

/-- If moreover all positions correspond, so do the optimal arrays. -/
theorem optimal_perCell_congr {move : Vector3d K → Vector3d K} (hmove : Function.Surjective move)
    (hpositions : ∀ b f, b < B → f < F → positionAt q' F b f = move (positionAt q F b f))
    (h : ∀ b f x, b < B → f < F → costAt x₀ (g b f) x = costAt x₀' (g' b f) (move x)) :
    Optimal x₀ q (Problem.tiled (perCell B F g)) ↔
      Optimal x₀' q' (Problem.tiled (perCell B F g')) := by
  rw [optimal_perCell_iff hq, optimal_perCell_iff hq']
  refine forall₄_congr fun b f hb hf => ?_
  rw [hpositions b f hb hf]
  constructor
  · rintro ⟨c, hc, hmin⟩
    refine ⟨c, (h b f _ hb hf).symm.trans hc, fun v' c' _ hc' => ?_⟩
    obtain ⟨v, rfl⟩ := hmove v'
    exact hmin v c' trivial ((h b f v hb hf).trans hc')
  · rintro ⟨c, hc, hmin⟩
    refine ⟨c, (h b f _ hb hf).trans hc, fun v c' _ hc' => ?_⟩
    exact hmin (move v) c' trivial ((h b f v hb hf).symm.trans hc')

end Tilings

/-! ## The moved functors -/

section Functors

variable (m : RigidMotion K) (colliders : List (Collider K))

theorem costAt_basic_moved (x : Vector3d K) :
    costAt x₀ (.basic ⟨colliders⟩) x = costAt (movedArray m (B * F) x₀)
      (.basic ⟨colliders.map (Collider.moved m)⟩) (m.apply x) := by
  refine costAt_congr ?_
  have hpenetration : CostFunctor.penetration (.basic ⟨colliders.map (Collider.moved m)⟩)
      (m.apply x) = CostFunctor.penetration (.basic ⟨colliders⟩) x :=
    CostFunctor.penetration_moved m (by rfl) (by rfl) x
  rw [CostFunctor.evaluate_basic, CostFunctor.evaluate_basic, hpenetration]

theorem costAt_length_moved (hx₀ : x₀.length = B * F * 3) {p b f : Nat} (hp : p < B) (hb : b < B)
    (hf : f < F) (x : Vector3d K) :
    costAt x₀ (.length (lengthFunctor colliders F x₀ p b f)) x =
      costAt (movedArray m (B * F) x₀) (.length (lengthFunctor (colliders.map (Collider.moved m)) F
        (movedArray m (B * F) x₀) p b f)) (m.apply x) := by
  refine costAt_congr ?_
  have hpenetration : CostFunctor.penetration (.length (lengthFunctor
      (colliders.map (Collider.moved m)) F (movedArray m (B * F) x₀) p b f)) (m.apply x) =
      CostFunctor.penetration (.length (lengthFunctor colliders F x₀ p b f)) x :=
    CostFunctor.penetration_moved m (by rfl) (by rfl) x
  rw [evaluate_lengthFunctor colliders hp hf hx₀.ge,
    evaluate_lengthFunctor _ hp hf (length_movedArray m (B * F) x₀).ge, hpenetration,
    positionAt_movedArray m x₀ hp hf, positionAt_movedArray m x₀ hb hf, m.norm_apply_sub_apply,
    m.norm_apply_sub_apply]

theorem costAt_children_moved (platform : Platform) (hparents : parents.length = B)
    (hx₀ : x₀.length = B * F * 3) {b f : Nat} (hb : b < B) (hf : f < F) (x : Vector3d K) :
    costAt x₀ (.children (childrenFunctor platform colliders F x₀ parents b f)) x =
      costAt (movedArray m (B * F) x₀) (.children (childrenFunctor platform
        (colliders.map (Collider.moved m)) F (movedArray m (B * F) x₀) parents b f))
          (m.apply x) := by
  refine costAt_congr ?_
  have hchildren : ((childrenOf parents b).map fun c =>
      (positionAt (movedArray m (B * F) x₀) F c f - m.apply x).norm -
        (positionAt (movedArray m (B * F) x₀) F c f -
          positionAt (movedArray m (B * F) x₀) F b f).norm) =
      (childrenOf parents b).map fun c => (positionAt x₀ F c f - x).norm -
        (positionAt x₀ F c f - positionAt x₀ F b f).norm := by
    apply List.map_congr_left
    intro c hc
    obtain ⟨hlt, -⟩ := mem_childrenOf.mp hc
    rw [positionAt_movedArray m x₀ (hparents ▸ hlt) hf, positionAt_movedArray m x₀ hb hf,
      m.norm_apply_sub_apply, m.norm_apply_sub_apply]
  have hpenetration : CostFunctor.penetration (.children (childrenFunctor platform
      (colliders.map (Collider.moved m)) F (movedArray m (B * F) x₀) parents b f)) (m.apply x) =
      CostFunctor.penetration (.children (childrenFunctor platform colliders F x₀ parents b f)) x :=
    CostFunctor.penetration_moved m (by rfl) (by rfl) x
  rw [evaluate_childrenFunctor platform colliders hparents hf hx₀.ge,
    evaluate_childrenFunctor platform _ hparents hf (length_movedArray m (B * F) x₀).ge, hchildren,
    hpenetration]

end Functors

/-! ## The builders -/

/-- The second problem is the first one after a rigid motion: moved candidates cost the
    same, and are optimal exactly if they were. -/
structure MovedAlong (m : RigidMotion K) (B F : Nat) (x₀ : List K)
    (p p' : Problem (CostFunctor K)) : Prop where
  cost : ∀ q, q.length = B * F * 3 →
    Ceres.cost (movedArray m (B * F) x₀) (movedArray m (B * F) q) p' = Ceres.cost x₀ q p
  optimal : ∀ q, q.length = B * F * 3 →
    (Optimal (movedArray m (B * F) x₀) (movedArray m (B * F) q) p' ↔ Optimal x₀ q p)

theorem MovedAlong.of_costAt (m : RigidMotion K) {g g' : Nat → Nat → CostFunctor K}
    (h : ∀ b f x, b < B → f < F →
      costAt x₀ (g b f) x = costAt (movedArray m (B * F) x₀) (g' b f) (m.apply x)) :
    MovedAlong m B F x₀ (Problem.tiled (perCell B F g)) (Problem.tiled (perCell B F g')) where
  cost := by
    intro q hq
    refine (cost_perCell_congr hq (length_movedArray m _ q) fun b f hb hf => ?_).symm
    rw [positionAt_movedArray m q hb hf]
    exact h b f _ hb hf
  optimal := by
    intro q hq
    exact (optimal_perCell_congr hq (length_movedArray m _ q) m.apply_surjective
      (fun b f hb hf => positionAt_movedArray m q hb hf) h).symm

/-- For all three builders: a clip and its planes that are moved rigidly give a problem
    in which every moved array costs what it cost before, and is optimal if it was. -/
theorem builders_movedAlong {frames bones : Int32} (platform : Platform) (m : RigidMotion K)
    (colliders : List (Collider K)) (hB : bones.toInt = B) (hF : frames.toInt = F)
    (hparents : parents.length = B) (hrange : ParentsInRange B parents)
    (hx₀ : x₀.length = B * F * 3) :
    (∃ p p', basicCollisionAvoidance colliders frames bones = .ok p ∧
      basicCollisionAvoidance (colliders.map (Collider.moved m)) frames bones = .ok p' ∧
      MovedAlong m B F x₀ p p') ∧
    (∃ p p', maintainBoneLength colliders frames bones x₀ parents = .ok p ∧
      maintainBoneLength (colliders.map (Collider.moved m)) frames bones
        (movedArray m (B * F) x₀) parents = .ok p' ∧
      MovedAlong m B F x₀ p p') ∧
    ∃ p p', maintainBoneLengthChildrenFunction platform colliders frames bones x₀ parents = .ok p ∧
      maintainBoneLengthChildrenFunction platform (colliders.map (Collider.moved m)) frames bones
        (movedArray m (B * F) x₀) parents = .ok p' ∧
      MovedAlong m B F x₀ p p' := by
  have hmoved := length_movedArray m (B * F) x₀
  refine ⟨⟨_, _, basicCollisionAvoidance_eq colliders hB hF, basicCollisionAvoidance_eq _ hB hF, ?_⟩,
    ⟨_, _, maintainBoneLength_eq colliders hB hF hparents hrange hx₀.ge,
      maintainBoneLength_eq _ hB hF hparents hrange hmoved.ge, ?_⟩,
    ⟨_, _, maintainBoneLengthChildrenFunction_eq platform colliders hB hF hparents hx₀.ge,
      maintainBoneLengthChildrenFunction_eq platform _ hB hF hparents hmoved.ge, ?_⟩⟩
  · exact .of_costAt m fun _ _ x _ _ => costAt_basic_moved m colliders x
  · exact .of_costAt m fun b f x hb hf =>
      costAt_length_moved m colliders hx₀ (hrange.parentOf_lt hparents hb) hb hf x
  · exact .of_costAt m fun b f x hb hf =>
      costAt_children_moved m colliders platform hparents hx₀ hb hf x

/-- Two bones and the ground, ten to the side. -/
theorem builders_movedAlong_twoBones :
    let m : RigidMotion ℚ := ⟨1, ⟨10, 0, 0⟩⟩
    let x₀ : List ℚ := [0, 0, 0, 0, 5, 0]
    let colliders : List (Collider ℚ) := [⟨⟨0, 0, 0⟩, ⟨0, 1, 0⟩⟩]
    ∃ p p', maintainBoneLengthChildrenFunction win64 colliders 1 2 x₀ [0, 0] = .ok p ∧
      maintainBoneLengthChildrenFunction win64 (colliders.map (Collider.moved m)) 1 2
        (movedArray m 2 x₀) [0, 0] = .ok p' ∧
      MovedAlong m 2 1 x₀ p p' := by
  intro m x₀ colliders
  have hrange : ParentsInRange 2 [0, 0] := by
    intro parent hparent
    simp only [List.mem_cons, List.not_mem_nil, or_false, or_self] at hparent
    subst hparent
    decide
  have hx₀ : x₀.length = 2 * 1 * 3 := rfl
  exact (builders_movedAlong win64 m colliders (by rfl : (2 : Int32).toInt = (2 : Nat))
    (by rfl : (1 : Int32).toInt = (1 : Nat)) rfl hrange hx₀).2.2

end Ceres
