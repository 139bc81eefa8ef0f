-- SUMMARY: The objective falls apart into its blocks, and so into frames: an array is optimal exactly if every frame of it is optimal alone, and every bone without children free in front of the last plane.
import SmoothMotion.Lib.Separable
import SmoothMotion.Solver.CleanStart
import SmoothMotion.Solver.Registry

/-!
# Frame by frame

A functor takes the candidate of its own block only; the other bones it reads where
they were. So nothing in the objective ties one block to another, let alone one
frame to the next, and an optimum of a clip is made of optima of its frames. A bone
without children is tied to nothing but the planes.
-/

/-! ## Arrays that agree on a block -/

section Overwrite

variable {α : Type} {q q' : List α} {b : ParameterBlock}

/-- The array with new values on the region of a block. -/
def overwrite (q : List α) (b : ParameterBlock) (g : Nat → α) : List α :=
  q.mapIdx fun i a => if (i : Int) ∈ b.region then g i else a

@[simp] theorem length_overwrite (q : List α) (b : ParameterBlock) (g : Nat → α) :
    (overwrite q b g).length = q.length := by
  simp [overwrite]

theorem getElem?_overwrite_of_mem {g : Nat → α} {i : Nat} (hi : (i : Int) ∈ b.region)
    (hlt : i < q.length) : (overwrite q b g)[i]? = some (g i) := by
  simp [overwrite, hi, List.getElem?_eq_getElem hlt]

theorem getElem?_overwrite_of_not_mem {g : Nat → α} {i : Nat} (hi : (i : Int) ∉ b.region) :
    (overwrite q b g)[i]? = q[i]? := by
  rw [overwrite, List.getElem?_mapIdx]
  cases q[i]? with
  | none => rfl
  | some a => simp [hi]

/-- What is read at a block depends on its region only. -/
theorem readVector3At_congr (hsize : b.size = 3)
    (h : ∀ i : Nat, (i : Int) ∈ b.region → q[i]? = q'[i]?) :
    readVector3At q b.values = readVector3At q' b.values := by
  have hread : ∀ k : Nat, k < 3 → readAt q (b.values + k) = readAt q' (b.values + k) := by
    intro k hk
    unfold readAt
    split
    · rfl
    · have hmem : (((b.values + k).toNat : Nat) : Int) ∈ b.region := by
        rw [Int.toNat_of_nonneg (by omega)]
        exact ParameterBlock.mem_region.mpr ⟨k, hsize ▸ hk, rfl⟩
      rw [h _ hmem]
  have h0 := hread 0 (by omega)
  have h1 := hread 1 (by omega)
  have h2 := hread 2 (by omega)
  simp only [Nat.cast_zero, add_zero, Nat.cast_one, Nat.cast_ofNat] at h0 h1 h2
  simp only [readVector3At, h0, h1, h2]

end Overwrite

/-! ## Arrays of positions -/

section ArrayOf

variable {K : Type} [Zero K]

/-- The array of `n` positions. -/
def arrayOf (n : Nat) (position : Nat → Vector3d K) : List K :=
  (List.range n).flatMap fun k => (position k).toList

omit [Zero K] in
theorem length_arrayOf (n : Nat) (position : Nat → Vector3d K) :
    (arrayOf n position).length = n * 3 := by
  rw [arrayOf, Grid.length_flatMap (w := 3) (by simp), List.length_range]

theorem vectorAt_arrayOf {n k : Nat} (position : Nat → Vector3d K) (hk : k < n) :
    vectorAt (arrayOf n position) k = position k := by
  refine vectorAt_eq fun j hj => ?_
  rw [arrayOf, Grid.getElem?_flatMap (w := 3) (by simp) hj, List.getElem?_range hk, Option.bind_some]

end ArrayOf

namespace Ceres

variable {K : Type} [Scalar K] {memory q : List K} {p : Problem (CostFunctor K)}

/-! ## Block by block -/

/-- The array can be evaluated, and none of its length costs less. -/
def Optimal (memory q : List K) (p : Problem (CostFunctor K)) : Prop :=
  Separable.Best (fun q' : List K => q'.length = q.length) (fun q => cost memory q p) q

/-- What a functor costs at a position. -/
def costAt (memory : List K) (f : CostFunctor K) (x : Vector3d K) : Except Fault K := do
  let residuals ← residualsAt memory f x
  return 1 / (2 : Nat) * (residuals.map fun r => r * r).sum

theorem blockCost_eq (rb : ResidualBlock (CostFunctor K)) : blockCost memory q rb =
    readVector3At q rb.parameterBlock.values >>= costAt memory rb.costFunction := rfl

/-- An array that costs nothing is optimal. -/
theorem Optimal.of_cost_eq_zero (h : cost memory q p = .ok 0) : Optimal memory q p := by
  refine ⟨0, h, fun q' c' _ hc' => ?_⟩
  have htotal : Separable.total (fun rb q => blockCost memory q rb) p.residualBlocks q' = .ok c' :=
    hc'
  obtain ⟨hgiven, rfl⟩ := Separable.total_eq_ok_iff.mp htotal
  refine List.sum_nonneg fun v hv => ?_
  obtain ⟨rb, hrb, rfl⟩ := List.mem_map.mp hv
  obtain ⟨c, hc⟩ := hgiven rb hrb
  rw [hc]
  obtain ⟨x, -, hc⟩ := Except.bind_eq_ok hc
  obtain ⟨residuals, -, hc⟩ := Except.bind_eq_ok hc
  cases hc
  have hsquares : 0 ≤ (residuals.map fun r => r * r).sum := by
    refine List.sum_nonneg fun s hs => ?_
    obtain ⟨r, -, rfl⟩ := List.mem_map.mp hs
    exact mul_self_nonneg r
  exact mul_nonneg (by norm_num) hsquares

/-- One block can take its position from another array while the others keep theirs. -/
theorem splices_blocks (hsizes : ∀ rb ∈ p.residualBlocks, rb.parameterBlock.size = 3)
    (hdisjoint : p.residualBlocks.Pairwise fun rb rb' =>
      rb.parameterBlock.region.Disjoint rb'.parameterBlock.region) :
    Separable.Splices (fun q' : List K => q'.length = q.length)
      (fun rb q => blockCost memory q rb) p.residualBlocks q := by
  intro l₁ rb l₂ q' hsplit hlength
  rw [hsplit] at hsizes hdisjoint
  obtain ⟨-, hbehind, hacross⟩ := List.pairwise_append.mp hdisjoint
  refine ⟨overwrite q rb.parameterBlock fun i => q'.getD i 0, by simp, ?_, ?_⟩
  · have htaken : ∀ i : Nat, (i : Int) ∈ rb.parameterBlock.region →
        (overwrite q rb.parameterBlock fun i => q'.getD i 0)[i]? = q'[i]? := by
      intro i hi
      rcases Nat.lt_or_ge i q.length with hlt | hge
      · rw [getElem?_overwrite_of_mem hi hlt, List.getElem?_eq_getElem (hlength ▸ hlt),
          List.getD_eq_getElem _ _ (hlength ▸ hlt)]
      · rw [List.getElem?_eq_none (by simpa using hge), List.getElem?_eq_none (hlength ▸ hge)]
    simp only [blockCost_eq, readVector3At_congr (hsizes rb (by simp)) htaken]
  · intro rb' hrb'
    have hapart : ∀ i, i ∈ rb'.parameterBlock.region → i ∉ rb.parameterBlock.region := by
      intro i hi hi'
      rcases List.mem_append.mp hrb' with hrb' | hrb'
      · exact hacross rb' hrb' rb List.mem_cons_self hi hi'
      · exact (List.pairwise_cons.mp hbehind).1 rb' hrb' hi' hi
    have hmem : rb' ∈ l₁ ++ rb :: l₂ := by
      rcases List.mem_append.mp hrb' with hrb' | hrb'
      · exact List.mem_append_left _ hrb'
      · exact List.mem_append_right _ (List.mem_cons_of_mem _ hrb')
    have hread := readVector3At_congr (hsizes rb' hmem) fun i hi =>
      getElem?_overwrite_of_not_mem (q := q) (g := fun i => q'.getD i 0) (hapart i hi)
    simp only [blockCost_eq, hread]

/-- The array with the position of cell `n` replaced. -/
def moveTo (q : List K) (n : Nat) (v : Vector3d K) : List K :=
  overwrite q (Problem.tile n) fun i => v.toList.getD (i - n * 3) 0

@[simp] theorem length_moveTo (q : List K) (n : Nat) (v : Vector3d K) :
    (moveTo q n v).length = q.length := length_overwrite _ _ _

theorem vectorAt_moveTo {n : Nat} (h : n * 3 + 3 ≤ q.length) (v : Vector3d K) :
    vectorAt (moveTo q n v) n = v := by
  refine vectorAt_eq fun k hk => ?_
  have hmem : ((n * 3 + k : Nat) : Int) ∈ (Problem.tile n).region :=
    ParameterBlock.mem_region.mpr ⟨k, hk, by simp [Problem.tile]⟩
  rw [moveTo, getElem?_overwrite_of_mem hmem (by omega), Nat.add_sub_cancel_left,
    List.getD_eq_getElem _ _ (by simpa using hk), List.getElem?_eq_getElem (by simpa using hk)]

theorem vectorAt_moveTo_of_ne {n m : Nat} (hne : m ≠ n) (v : Vector3d K) :
    vectorAt (moveTo q n v) m = vectorAt q m := by
  refine vectorAt_congr fun k hk => getElem?_overwrite_of_not_mem fun hmem => ?_
  obtain ⟨j, hj, hjk⟩ := ParameterBlock.mem_region.mp hmem
  simp only [Problem.tile] at hj hjk
  omega

/-- On the block of cell `n` the array is best if its position is. -/
theorem best_blockCost_iff {f : CostFunctor K} {n : Nat} (h : n * 3 + 3 ≤ q.length) :
    Separable.Best (fun q' : List K => q'.length = q.length)
        (fun q => blockCost memory q ⟨f, Problem.tile n⟩) q ↔
      Separable.Best (fun _ => True) (costAt memory f) (vectorAt q n) := by
  have hcost : ∀ q' : List K, q'.length = q.length →
      blockCost memory q' ⟨f, Problem.tile n⟩ = costAt memory f (vectorAt q' n) := by
    intro q' hq'
    rw [blockCost_eq, readVector3At_tile (hq' ▸ h), Except.ok_bind]
  constructor
  · rintro ⟨c, hc, hmin⟩
    refine ⟨c, (hcost q rfl).symm.trans hc, fun v c' _ hc' => ?_⟩
    have hlength : (moveTo q n v).length = q.length := length_moveTo q n v
    refine hmin (moveTo q n v) c' hlength ((hcost _ hlength).trans ?_)
    rw [vectorAt_moveTo h, hc']
  · rintro ⟨c, hc, hmin⟩
    refine ⟨c, (hcost q rfl).trans hc, fun q' c' hq' hc' => ?_⟩
    exact hmin _ c' trivial ((hcost q' hq').symm.trans hc')

/-- An array is optimal for a tiling if and only if the position of every bone at
    every frame is for its own functor. -/
theorem optimal_perCell_iff {B F : Nat} {g : Nat → Nat → CostFunctor K}
    (hq : q.length = B * F * 3) : Optimal memory q (Problem.tiled (perCell B F g)) ↔
      ∀ b f, b < B → f < F →
        Separable.Best (fun _ => True) (costAt memory (g b f)) (positionAt q F b f) := by
  have hsizes : ∀ rb ∈ (Problem.tiled (perCell B F g)).residualBlocks,
      rb.parameterBlock.size = 3 := by
    intro rb hrb
    obtain ⟨b, f, -, -, rfl⟩ := mem_residualBlocks_tiled hrb
    rfl
  have hblocks : Optimal memory q (Problem.tiled (perCell B F g)) ↔ _ :=
    Separable.best_total_iff (splices_blocks hsizes (Problem.pairwise_disjoint_tiled _))
  rw [hblocks]
  have hinside : ∀ b f, b < B → f < F → (b * F + f) * 3 + 3 ≤ q.length := by
    intro b f hb hf
    have hcell := Grid.index_lt hb hf
    omega
  constructor
  · intro h b f hb hf
    have hmem := List.mem_of_getElem? (getElem?_residualBlocks_perCell (g := g) hb hf)
    exact (best_blockCost_iff (hinside b f hb hf)).mp (h _ hmem)
  · intro h rb hrb
    obtain ⟨b, f, hb, hf, rfl⟩ := mem_residualBlocks_tiled hrb
    exact (best_blockCost_iff (hinside b f hb hf)).mpr (h b f hb hf)

/-! ## Frame by frame -/

section Frames

variable {B F : Nat} {x₀ : List K} {parents : List Int32}

/-- The array of frame `f` alone. -/
def frameOf (x : List K) (B F f : Nat) : List K := arrayOf B fun b => positionAt x F b f

theorem length_frameOf (x : List K) (B F f : Nat) : (frameOf x B F f).length = B * 1 * 3 := by
  rw [frameOf, length_arrayOf, Nat.mul_one]

/-- It holds the positions of that frame. -/
theorem positionAt_frameOf (x : List K) {b : Nat} (hb : b < B) (f : Nat) :
    positionAt (frameOf x B F f) 1 b 0 = positionAt x F b f := by
  rw [positionAt, Nat.mul_one, Nat.add_zero, frameOf, vectorAt_arrayOf _ hb]

/-- If the functors of a frame cost the same when the frame is alone, a clip is
    optimal exactly if all its frames are. -/
theorem optimal_frames_iff {g : Nat → Nat → CostFunctor K} (alone : Nat → Nat → CostFunctor K)
    (hq : q.length = B * F * 3)
    (hcost : ∀ b f, b < B → f < F →
      costAt x₀ (g b f) = costAt (frameOf x₀ B F f) (alone f b)) :
    Optimal x₀ q (Problem.tiled (perCell B F g)) ↔ ∀ f < F,
      Optimal (frameOf x₀ B F f) (frameOf q B F f)
        (Problem.tiled (perCell B 1 fun b _ => alone f b)) := by
  rw [optimal_perCell_iff hq]
  constructor
  · intro h f hf
    rw [optimal_perCell_iff (length_frameOf q B F f)]
    intro b i hb hi
    obtain rfl : i = 0 := by omega
    rw [positionAt_frameOf q hb, ← hcost b f hb hf]
    exact h b f hb hf
  · intro h b f hb hf
    have hcell := (optimal_perCell_iff (length_frameOf q B F f)).mp (h f hf) b 0 hb Nat.one_pos
    rwa [positionAt_frameOf q hb, ← hcost b f hb hf] at hcell

theorem costAt_congr {memory' : List K} {f f' : CostFunctor K} {x x' : Vector3d K}
    (h : f.evaluate memory x = f'.evaluate memory' x') : costAt memory f x = costAt memory' f' x' := by
  simp only [costAt, residualsAt, h]

theorem costAt_lengthFunctor (colliders : List (Collider K)) (hx₀ : x₀.length = B * F * 3)
    {p b f : Nat} (hp : p < B) (hb : b < B) (hf : f < F) :
    costAt x₀ (.length (lengthFunctor colliders F x₀ p b f)) =
      costAt (frameOf x₀ B F f) (.length (lengthFunctor colliders 1 (frameOf x₀ B F f) p b 0)) := by
  funext x
  refine costAt_congr ?_
  rw [evaluate_lengthFunctor colliders hp hf hx₀.ge,
    evaluate_lengthFunctor colliders hp Nat.one_pos (length_frameOf x₀ B F f).ge,
    positionAt_frameOf x₀ hp, positionAt_frameOf x₀ hb]
  rfl

theorem costAt_childrenFunctor (platform : Platform) (colliders : List (Collider K))
    (hparents : parents.length = B) (hx₀ : x₀.length = B * F * 3) {b f : Nat} (hb : b < B)
    (hf : f < F) :
    costAt x₀ (.children (childrenFunctor platform colliders F x₀ parents b f)) =
      costAt (frameOf x₀ B F f)
        (.children (childrenFunctor platform colliders 1 (frameOf x₀ B F f) parents b 0)) := by
  funext x
  refine costAt_congr ?_
  have hchildren : ((childrenOf parents b).map fun c =>
      (positionAt (frameOf x₀ B F f) 1 c 0 - x).norm -
        (positionAt (frameOf x₀ B F f) 1 c 0 - positionAt (frameOf x₀ B F f) 1 b 0).norm) =
      (childrenOf parents b).map fun c => (positionAt x₀ F c f - x).norm -
        (positionAt x₀ F c f - positionAt x₀ F b f).norm := by
    apply List.map_congr_left
    intro c hc
    obtain ⟨hlt, -⟩ := mem_childrenOf.mp hc
    rw [positionAt_frameOf x₀ hb, positionAt_frameOf x₀ (hparents ▸ hlt)]
  rw [evaluate_childrenFunctor platform colliders hparents hf hx₀.ge,
    evaluate_childrenFunctor platform colliders hparents Nat.one_pos (length_frameOf x₀ B F f).ge,
    hchildren]
  rfl

/-! ## The builders -/

/-- For all three builders: an array is optimal for a clip if and only if every frame
    of it is optimal for the clip that is made of this frame alone. -/
theorem optimal_iff_frames {frames bones : Int32} (platform : Platform)
    (colliders : List (Collider K)) (hB : bones.toInt = B) (hF : frames.toInt = F)
    (hparents : parents.length = B) (hrange : ParentsInRange B parents)
    (hx₀ : x₀.length = B * F * 3) (hq : q.length = B * F * 3) :
    (∃ p alone, basicCollisionAvoidance colliders frames bones = .ok p ∧
      basicCollisionAvoidance colliders 1 bones = .ok alone ∧
      (Optimal x₀ q p ↔ ∀ f < F, Optimal (frameOf x₀ B F f) (frameOf q B F f) alone)) ∧
    (∃ p, ∃ alone : Nat → Problem (CostFunctor K),
      maintainBoneLength colliders frames bones x₀ parents = .ok p ∧
      (∀ f < F, maintainBoneLength colliders 1 bones (frameOf x₀ B F f) parents = .ok (alone f)) ∧
      (Optimal x₀ q p ↔ ∀ f < F, Optimal (frameOf x₀ B F f) (frameOf q B F f) (alone f))) ∧
    ∃ p, ∃ alone : Nat → Problem (CostFunctor K),
      maintainBoneLengthChildrenFunction platform colliders frames bones x₀ parents = .ok p ∧
      (∀ f < F, maintainBoneLengthChildrenFunction platform colliders 1 bones (frameOf x₀ B F f)
        parents = .ok (alone f)) ∧
      (Optimal x₀ q p ↔ ∀ f < F, Optimal (frameOf x₀ B F f) (frameOf q B F f) (alone f)) := by
  have hone : (1 : Int32).toInt = (1 : Nat) := rfl
  refine ⟨⟨_, _, basicCollisionAvoidance_eq colliders hB hF,
      basicCollisionAvoidance_eq colliders hB hone, ?_⟩,
    ⟨_, _, maintainBoneLength_eq colliders hB hF hparents hrange hx₀.ge, fun f _ =>
      maintainBoneLength_eq colliders hB hone hparents hrange (length_frameOf x₀ B F f).ge, ?_⟩,
    ⟨_, _, maintainBoneLengthChildrenFunction_eq platform colliders hB hF hparents hx₀.ge, fun f _ =>
      maintainBoneLengthChildrenFunction_eq platform colliders hB hone hparents
        (length_frameOf x₀ B F f).ge, ?_⟩⟩
  · exact optimal_frames_iff (fun _ _ => .basic ⟨colliders⟩) hq fun b f _ _ =>
      funext fun x => costAt_congr rfl
  · refine optimal_frames_iff (fun f b => .length
      (lengthFunctor colliders 1 (frameOf x₀ B F f) (parentOf parents b) b 0)) hq fun b f hb hf => ?_
    exact costAt_lengthFunctor colliders hx₀ (hrange.parentOf_lt hparents hb) hb hf
  · refine optimal_frames_iff (fun f b => .children
      (childrenFunctor platform colliders 1 (frameOf x₀ B F f) parents b 0)) hq fun b f hb hf => ?_
    exact costAt_childrenFunctor platform colliders hparents hx₀ hb hf

/-- One bone and two frames, in front of the plane `y = 0` and behind it. -/
theorem optimal_iff_frames_oneBone :
    let x₀ : List ℚ := [0, 1, 0, 0, -1, 0]
    let q : List ℚ := [0, 1, 0, 0, 2, 0]
    let colliders : List (Collider ℚ) := [⟨⟨0, 0, 0⟩, ⟨0, 1, 0⟩⟩]
    ∃ p, ∃ alone : Nat → Problem (CostFunctor ℚ),
      maintainBoneLengthChildrenFunction win64 colliders 2 1 x₀ [0] = .ok p ∧
      (∀ f < 2, maintainBoneLengthChildrenFunction win64 colliders 1 1 (frameOf x₀ 1 2 f) [0] =
        .ok (alone f)) ∧
      (Optimal x₀ q p ↔ ∀ f < 2, Optimal (frameOf x₀ 1 2 f) (frameOf q 1 2 f) (alone f)) := by
  intro x₀ q colliders
  have hrange : ParentsInRange 1 [0] := by
    intro parent hparent
    obtain rfl : parent = 0 := List.mem_singleton.mp hparent
    decide
  have hx₀ : x₀.length = 1 * 2 * 3 := rfl
  have hq : q.length = 1 * 2 * 3 := rfl
  exact (optimal_iff_frames win64 colliders (by rfl : (1 : Int32).toInt = (1 : Nat))
    (by rfl : (2 : Int32).toInt = (2 : Nat)) rfl hrange hx₀ hq).2.2

/-! ## Bones without children -/

/-- Nothing but the last plane counts for the functor of such a bone. -/
theorem costAt_childless (platform : Platform) {colliders : List (Collider K)}
    (hcolliders : colliders ≠ []) (hparents : parents.length = B) (hx₀ : x₀.length = B * F * 3)
    {b f : Nat} (hf : f < F) (hchildless : childrenOf parents b = []) (v : Vector3d K) :
    costAt x₀ (.children (childrenFunctor platform colliders F x₀ parents b f)) v =
      .ok (1 / 2 * ((colliders.getLast hcolliders).intersectsPlane v * 1000) ^ 2) := by
  have hpenetration : CostFunctor.penetration
      (.children (childrenFunctor platform colliders F x₀ parents b f)) v =
        some ((colliders.getLast hcolliders).intersectsPlane v * 1000) := by
    unfold CostFunctor.penetration
    simp [CostFunctor.colliders, CostFunctor.weight, childrenFunctor,
      List.getLast?_eq_some_getLast hcolliders]
  rw [costAt, residualsAt, evaluate_childrenFunctor platform colliders hparents hf hx₀.ge,
    hpenetration, hchildless]
  simp [validate, pure, Except.pure, sq]

/-- Every position in front of the last plane is as good as any other. -/
theorem best_childless_iff (platform : Platform) {colliders : List (Collider K)}
    (hcolliders : colliders ≠ []) (hparents : parents.length = B) (hx₀ : x₀.length = B * F * 3)
    {b f : Nat} (hf : f < F) (hchildless : childrenOf parents b = []) (v : Vector3d K) :
    Separable.Best (fun _ => True)
        (costAt x₀ (.children (childrenFunctor platform colliders F x₀ parents b f))) v ↔
      ¬ (colliders.getLast hcolliders).Penetrates v := by
  have hcost := costAt_childless platform hcolliders hparents hx₀ hf hchildless
  rw [← Collider.intersectsPlane_eq_zero_iff]
  constructor
  · rintro ⟨c, hc, hmin⟩
    have hzero : (colliders.getLast hcolliders).intersectsPlane
        (colliders.getLast hcolliders).planePosition = 0 := by
      rw [Collider.intersectsPlane_eq_zero_iff]
      simp [Collider.Penetrates, Vector3d.dot]
    have hle := hmin _ _ trivial (hcost (colliders.getLast hcolliders).planePosition)
    rw [hcost v, Except.ok.injEq] at hc
    rw [← hc, hzero] at hle
    have hsquare : ((colliders.getLast hcolliders).intersectsPlane v * 1000) ^ 2 = 0 := by
      nlinarith [sq_nonneg ((colliders.getLast hcolliders).intersectsPlane v * 1000)]
    simpa using hsquare
  · intro hzero
    refine ⟨_, hcost v, fun v' c' _ hc' => ?_⟩
    rw [hcost v', Except.ok.injEq] at hc'
    rw [hzero, ← hc']
    nlinarith [sq_nonneg ((colliders.getLast hcolliders).intersectsPlane v' * 1000)]

/-- In an optimal array every bone without children is in front of the last plane, at
    every frame; and wherever else in front of it the bone is put, even in this one
    frame, the array stays optimal. Its parent does not hold it. -/
theorem optimal_childless {frames bones : Int32} (platform : Platform)
    {colliders : List (Collider K)} (hcolliders : colliders ≠ []) (hB : bones.toInt = B)
    (hF : frames.toInt = F) (hparents : parents.length = B) (hx₀ : x₀.length = B * F * 3)
    (hq : q.length = B * F * 3) {problem : Problem (CostFunctor K)}
    (hbuilt : maintainBoneLengthChildrenFunction platform colliders frames bones x₀ parents =
      .ok problem)
    (hoptimal : Optimal x₀ q problem) {b f : Nat} (hb : b < B) (hf : f < F)
    (hchildless : childrenOf parents b = []) :
    ¬ (colliders.getLast hcolliders).Penetrates (positionAt q F b f) ∧
      ∀ v, ¬ (colliders.getLast hcolliders).Penetrates v →
        Optimal x₀ (moveTo q (b * F + f) v) problem := by
  rw [maintainBoneLengthChildrenFunction_eq platform colliders hB hF hparents hx₀.ge,
    Except.ok.injEq] at hbuilt
  subst hbuilt
  have hbest := (optimal_perCell_iff hq).mp hoptimal
  have hiff := best_childless_iff platform hcolliders hparents hx₀ hf hchildless
  refine ⟨(hiff _).mp (hbest b f hb hf), fun v hv => ?_⟩
  rw [optimal_perCell_iff (by simpa using hq)]
  intro b' f' hb' hf'
  by_cases hcell : b' * F + f' = b * F + f
  · have hinside : (b * F + f) * 3 + 3 ≤ q.length := by
      have hlt := Grid.index_lt hb hf
      omega
    have hbone : b' = b := by
      rw [← Grid.index_div (i := b') hf', hcell, Grid.index_div hf]
    subst hbone
    obtain rfl : f' = f := by omega
    rw [positionAt, vectorAt_moveTo hinside]
    exact (hiff v).mpr hv
  · rw [positionAt, vectorAt_moveTo_of_ne hcell]
    exact hbest b' f' hb' hf'

/-- A root on the ground and its child above it, which may go anywhere above. -/
theorem optimal_childless_twoBones :
    let x₀ : List ℚ := [0, 0, 0, 0, 5, 0]
    let colliders : List (Collider ℚ) := [⟨⟨0, 0, 0⟩, ⟨0, 1, 0⟩⟩]
    ∃ problem, maintainBoneLengthChildrenFunction win64 colliders 1 2 x₀ [0, 0] = .ok problem ∧
      Optimal x₀ (moveTo x₀ 1 ⟨70, 80, 90⟩) problem := by
  intro x₀ colliders
  have hB : (2 : Int32).toInt = (2 : Nat) := rfl
  have hF : (1 : Int32).toInt = (1 : Nat) := rfl
  have hparents : ([0, 0] : List Int32).length = 2 := rfl
  have hx₀ : x₀.length = 2 * 1 * 3 := rfl
  have hbuilt := maintainBoneLengthChildrenFunction_eq win64 colliders hB hF hparents hx₀.ge
  have hclean : CleanStart.NoPenetration colliders x₀ 2 1 := by
    have hpoints : ∀ b < 2, ∀ f < 1, ∀ collider ∈ colliders,
        ¬ 0 < (collider.planePosition - positionAt x₀ 1 b f).dot collider.planeNormal := by
      decide +kernel
    exact fun b f hb hf => hpoints b hb f hf
  have hoptimal := Optimal.of_cost_eq_zero
    (CleanStart.allResting_children (List.cons_ne_nil _ _) hclean hx₀ win64 hparents).cost_eq
  have hfront : ¬ (colliders.getLast (List.cons_ne_nil _ _)).Penetrates ⟨70, 80, 90⟩ := by
    simp only [Collider.Penetrates]
    decide +kernel
  exact ⟨_, hbuilt, (optimal_childless win64 (List.cons_ne_nil _ _) hB hF hparents hx₀ hx₀ hbuilt
    hoptimal (b := 1) (f := 0) (by decide) (by decide) rfl).2 _ hfront⟩

end Frames

end Ceres
