-- SUMMARY: The three problem builders of the solver, and the problems they build in closed form.
import SmoothMotion.Solver.Functors

/-!
# Building the problems

Each builder goes over bones and frames in the order in which the positions lie
in the array, and adds one residual block for each. What the functors capture
is taken from the array as it is then: pointers to the positions of other bones
in the same frame, and the distances to them.
-/

/-- The width of `size_t`; an `int` converted to it keeps its value or wraps. -/
structure Platform where
  sizeBits : Nat
  int_le : 32 ≤ sizeBits

/-- The conversion of an `int` to `size_t`. -/
def Platform.toSize (platform : Platform) (n : Int32) : Nat :=
  (n.toInt % 2 ^ platform.sizeBits).toNat

/-- The 64-bit build. -/
def win64 : Platform := ⟨64, by decide⟩

section Build

variable {K : Type} [Scalar K]

/-- The problem of `BasicCollisionAvoidance`. -/
def basicCollisionAvoidance (colliders : List (Collider K)) (frames bones : Int32) :
    Except Fault (Problem (CostFunctor K)) :=
  let cost_function := CostFunctor.basic ⟨colliders⟩
  forRange (bones.toInt * frames.toInt).toNat
    (fun position problem => problem.addResidualBlock cost_function 3 (position * 3 : Nat))
    Problem.empty

/-- The problem of `MaintainBoneLength`. -/
def maintainBoneLength (colliders : List (Collider K)) (frames bones : Int32)
    (parameters : List K) (parents : List Int32) : Except Fault (Problem (CostFunctor K)) :=
  forRange bones.toInt.toNat
    (fun bone problem => forRange frames.toInt.toNat
      (fun frame problem => do
        let position := (bone * frames.toInt + frame) * 3
        let parentPosition := ((← readAt parents bone).toInt * frames.toInt + frame) * 3
        let bonePosition ← readVector3At parameters position
        let parentBonePosition ← readVector3At parameters parentPosition
        let boneLength := (parentBonePosition - bonePosition).norm
        problem.addResidualBlock (.length ⟨colliders, parentPosition, boneLength⟩) 3 position)
      problem)
    Problem.empty

/-- What is pushed onto `boneDepths` for a bone with this parent. -/
def nextDepth (platform : Platform) (boneDepths : List Nat) (parent : Int32) : Nat :=
  if h : boneDepths.length ≤ platform.toSize parent then 1
  else boneDepths[platform.toSize parent] + 1

/-- The search for the children of `bone`: what ends up in `childrenPositions` and
    `boneLengths`. -/
def findChildren (frames bones : Int32) (parameters : List K) (parents : List Int32)
    (bone frame : Nat) (bonePosition : Vector3d K) : Except Fault (List Int × List K) :=
  forRange bones.toInt.toNat
    (fun child (childrenPositions, boneLengths) => do
      if (← readAt parents child).toInt = bone then
        let childPosition := (child * frames.toInt + frame) * 3
        let childBone ← readVector3At parameters childPosition
        return (childrenPositions ++ [childPosition],
          boneLengths ++ [(childBone - bonePosition).norm])
      else return (childrenPositions, boneLengths))
    ([], [])

/-- The problem of `MaintainBoneLengthChildrenFunction`. -/
def maintainBoneLengthChildrenFunction (platform : Platform) (colliders : List (Collider K))
    (frames bones : Int32) (parameters : List K) (parents : List Int32) :
    Except Fault (Problem (CostFunctor K)) := do
  let (_, problem) ← forRange bones.toInt.toNat
    (fun bone (boneDepths, problem) => do
      let parent ← readAt parents bone
      let boneDepths := boneDepths ++ [nextDepth platform boneDepths parent]
      let problem ← forRange frames.toInt.toNat
        (fun frame problem => do
          let position := (bone * frames.toInt + frame) * 3
          let bonePosition ← readVector3At parameters position
          let (childrenPositions, boneLengths) ←
            findChildren frames bones parameters parents bone frame bonePosition
          let depth ← readAt boneDepths bone
          problem.addResidualBlock
            (.children ⟨colliders, childrenPositions, boneLengths, depth⟩) 3 position)
        problem
      return (boneDepths, problem))
    (([] : List Nat), Problem.empty)
  return problem

end Build

/-! ## What the builders capture -/

section Capture

/-- The depths of the bones, in the order of the bones. -/
def boneDepths (platform : Platform) (parents : List Int32) : List Nat :=
  parents.foldl (fun depths parent => depths ++ [nextDepth platform depths parent]) []

/-- The parent a bone is listed with, where that is the index of a bone. -/
def parentOf (parents : List Int32) (bone : Nat) : Nat := (parents.getD bone 0).toInt.toNat

/-- Every parent is the index of one of the `B` bones. -/
def ParentsInRange (B : Nat) (parents : List Int32) : Prop :=
  ∀ parent ∈ parents, 0 ≤ parent.toInt ∧ parent.toInt < B

/-- The bones listed as having `bone` as their parent. -/
def childrenOf (parents : List Int32) (bone : Nat) : List Nat :=
  (List.range parents.length).filter fun child =>
    parents[child]?.any fun parent => parent.toInt = (bone : Int)

variable {K : Type} [Scalar K]

/-- The position of bone `b` at frame `f` in an array for `F` frames. -/
def positionAt (parameters : List K) (F b f : Nat) : Vector3d K := vectorAt parameters (b * F + f)

/-- The functor `MaintainBoneLength` builds for bone `b` with parent `p` at frame `f`. -/
def lengthFunctor (colliders : List (Collider K)) (F : Nat) (parameters : List K) (p b f : Nat) :
    MaintainBoneLengthFunction K where
  colliders
  parentPosition := (Problem.tile (p * F + f)).values
  sqBoneLength := (positionAt parameters F p f - positionAt parameters F b f).norm

/-- The functor `MaintainBoneLengthChildrenFunction` builds for bone `b` at frame `f`. -/
def childrenFunctor (platform : Platform) (colliders : List (Collider K)) (F : Nat)
    (parameters : List K) (parents : List Int32) (b f : Nat) : MaintainBoneLengthChildren K where
  colliders
  childrenPositions := (childrenOf parents b).map fun c => (Problem.tile (c * F + f)).values
  sqBoneLengths := (childrenOf parents b).map fun c =>
    (positionAt parameters F c f - positionAt parameters F b f).norm
  skeletonDepth := (boneDepths platform parents).getD b 0

/-- One cost functor for every bone and frame. -/
def perCell (B F : Nat) (f : Nat → Nat → CostFunctor K) : List (CostFunctor K) :=
  (List.range B).flatMap fun bone => (List.range F).map fun frame => f bone frame

omit [Scalar K] in
theorem length_perCell (B F : Nat) (f : Nat → Nat → CostFunctor K) :
    (perCell B F f).length = B * F := by
  unfold perCell
  rw [Grid.length_flatMap (w := F) (by simp), List.length_range]

omit [Scalar K] in
theorem getElem?_perCell {B F b fr : Nat} (f : Nat → Nat → CostFunctor K) (hb : b < B)
    (hfr : fr < F) : (perCell B F f)[b * F + fr]? = some (f b fr) := by
  unfold perCell
  rw [Grid.getElem?_flatMap (by simp) hfr, List.getElem?_range hb, Option.bind_some,
    List.getElem?_map, List.getElem?_range hfr]
  rfl

end Capture

section Tiled

variable {K : Type} {B F : Nat} {g : Nat → Nat → CostFunctor K}

theorem getElem?_residualBlocks_perCell {b f : Nat} (hb : b < B) (hf : f < F) :
    (Problem.tiled (perCell B F g)).residualBlocks[b * F + f]? =
      some ⟨g b f, Problem.tile (b * F + f)⟩ := by
  rw [Problem.getElem?_residualBlocks_tiled, getElem?_perCell g hb hf]
  rfl

/-- Every block is that of a bone and a frame. -/
theorem mem_residualBlocks_tiled {rb : ResidualBlock (CostFunctor K)}
    (h : rb ∈ (Problem.tiled (perCell B F g)).residualBlocks) :
    ∃ b f, b < B ∧ f < F ∧ rb = ⟨g b f, Problem.tile (b * F + f)⟩ := by
  obtain ⟨k, hk⟩ := List.mem_iff_getElem?.mp h
  obtain ⟨hlt, -⟩ := List.getElem?_eq_some_iff.mp hk
  rw [Problem.length_residualBlocks_tiled, length_perCell] at hlt
  have hF : 0 < F := Nat.pos_of_mul_pos_left (by omega : 0 < B * F)
  have hb : k / F < B := Nat.div_lt_of_lt_mul (by rwa [Nat.mul_comm])
  have hf : k % F < F := Nat.mod_lt k hF
  have hindex : k / F * F + k % F = k := Nat.div_add_mod' k F
  rw [← hindex, getElem?_residualBlocks_perCell hb hf] at hk
  exact ⟨k / F, k % F, hb, hf, (Option.some.inj hk).symm⟩

end Tiled

/-! ## The depths -/

section Depths

variable (platform : Platform)

/-- Pushing depths leaves the ones already there. -/
private theorem pushDepths_append (parents : List Int32) (depths : List Nat) :
    ∃ pushed, parents.foldl (fun depths parent => depths ++ [nextDepth platform depths parent])
      depths = depths ++ pushed ∧ pushed.length = parents.length := by
  induction parents generalizing depths with
  | nil => exact ⟨[], by simp, rfl⟩
  | cons parent parents ih =>
    obtain ⟨pushed, hpushed, hlength⟩ := ih (depths ++ [nextDepth platform depths parent])
    refine ⟨nextDepth platform depths parent :: pushed, ?_, by simp [hlength]⟩
    rw [List.foldl_cons, hpushed, List.append_assoc]
    rfl

@[simp] theorem length_boneDepths (parents : List Int32) :
    (boneDepths platform parents).length = parents.length := by
  obtain ⟨pushed, hpushed, hlength⟩ := pushDepths_append platform parents []
  unfold boneDepths
  rw [hpushed, List.nil_append, hlength]

theorem boneDepths_concat (parents : List Int32) (parent : Int32) :
    boneDepths platform (parents ++ [parent]) =
      boneDepths platform parents ++ [nextDepth platform (boneDepths platform parents) parent] := by
  unfold boneDepths
  rw [List.foldl_append]
  rfl

/-- The depth of a bone does not depend on the bones behind it. -/
theorem boneDepths_take {parents : List Int32} {n : Nat} (hn : n ≤ parents.length) :
    boneDepths platform (parents.take n) = (boneDepths platform parents).take n := by
  obtain ⟨pushed, hpushed, -⟩ :=
    pushDepths_append platform (parents.drop n) (boneDepths platform (parents.take n))
  have hall : boneDepths platform parents = boneDepths platform (parents.take n) ++ pushed := by
    conv_lhs => rw [boneDepths, ← List.take_append_drop n parents, List.foldl_append]
    exact hpushed
  rw [hall, List.take_left']
  simp [hn]

theorem nextDepth_pos (depths : List Nat) (parent : Int32) :
    0 < nextDepth platform depths parent := by
  unfold nextDepth
  split <;> omega

/-- No bone has depth `0`. -/
theorem boneDepths_pos (parents : List Int32) : ∀ d ∈ boneDepths platform parents, 0 < d := by
  induction parents using List.reverseRecOn with
  | nil => simp [boneDepths]
  | append_singleton parents parent ih =>
    intro d hd
    rw [boneDepths_concat, List.mem_append, List.mem_singleton] at hd
    rcases hd with hd | rfl
    · exact ih d hd
    · exact nextDepth_pos platform _ _

end Depths

/-! ## The problems in closed form -/

section Closed

variable {K : Type} [Scalar K] {frames bones : Int32} {B F : Nat} {parameters : List K}
  {parents : List Int32}

theorem ParentsInRange.parentOf_spec (hrange : ParentsInRange B parents) {b : Nat}
    (hb : b < parents.length) :
    parents[b].toInt = (parentOf parents b : Int) ∧ parentOf parents b < B := by
  have hparent := hrange parents[b] (List.getElem_mem hb)
  unfold parentOf
  rw [List.getD_eq_getElem _ _ hb]
  omega

theorem ParentsInRange.parentOf_lt (hrange : ParentsInRange B parents) (hlength : parents.length = B)
    {b : Nat} (hb : b < B) : parentOf parents b < B :=
  (hrange.parentOf_spec (by omega)).2

/-- The source's index of bone `b` at frame `f`. -/
theorem position_eq (hF : frames.toInt = F) (b f : Nat) :
    ((b : Int) * frames.toInt + f) * 3 = (Problem.tile (b * F + f)).values := by
  rw [hF, Problem.tile]
  push_cast
  rfl

/-- Every position of the array can be read. -/
theorem readVector3At_cell {b f : Nat} (hparameters : B * F * 3 ≤ parameters.length) (hb : b < B)
    (hf : f < F) :
    readVector3At parameters (Problem.tile (b * F + f)).values =
      .ok (positionAt parameters F b f) := by
  have hcell := Grid.index_lt hb hf
  exact readVector3At_tile (by omega)

omit [Scalar K] in
private theorem perCell_succ (b F : Nat) (f : Nat → Nat → CostFunctor K) :
    perCell (b + 1) F f = perCell b F f ++ (List.range F).map (f b) := by
  unfold perCell
  rw [List.range_succ, List.flatMap_append, List.flatMap_singleton]

omit [Scalar K] in
theorem basicCollisionAvoidance_eq (colliders : List (Collider K)) (hB : bones.toInt = B)
    (hF : frames.toInt = F) :
    basicCollisionAvoidance colliders frames bones =
      .ok (Problem.tiled (perCell B F fun _ _ => .basic ⟨colliders⟩)) := by
  have hcount : (bones.toInt * frames.toInt).toNat = B * F := by
    rw [hB, hF, ← Nat.cast_mul, Int.toNat_natCast]
  have hcells : (List.range (B * F)).map (fun _ => CostFunctor.basic ⟨colliders⟩) =
      perCell B F fun _ _ => CostFunctor.basic ⟨colliders⟩ := by
    rw [← Grid.flatMap_index, List.map_flatMap, perCell]
    simp only [List.map_map]
    rfl
  unfold basicCollisionAvoidance
  rw [hcount, ← hcells]
  apply Problem.forRange_addResidualBlock []
  intro k problem _
  simp [Problem.tile]

theorem maintainBoneLength_eq (colliders : List (Collider K)) (hB : bones.toInt = B)
    (hF : frames.toInt = F) (hlength : parents.length = B) (hparents : ParentsInRange B parents)
    (hparameters : B * F * 3 ≤ parameters.length) :
    maintainBoneLength colliders frames bones parameters parents =
      .ok (Problem.tiled (perCell B F fun b f =>
        .length (lengthFunctor colliders F parameters (parentOf parents b) b f))) := by
  let functor : Nat → Nat → CostFunctor K := fun b f =>
    .length (lengthFunctor colliders F parameters (parentOf parents b) b f)
  have hbones : bones.toInt.toNat = B := by rw [hB, Int.toNat_natCast]
  have hframes : frames.toInt.toNat = F := by rw [hF, Int.toNat_natCast]
  unfold maintainBoneLength
  rw [hbones, hframes]
  apply forRange_eq fun b => Problem.tiled (perCell b F functor)
  intro b hb
  have hread : readAt parents b = .ok parents[b] := readAt_of_lt (by omega)
  have hparent := hparents.parentOf_spec (b := b) (by omega)
  rw [perCell_succ]
  apply Problem.forRange_addResidualBlock
  intro f problem hf
  have hposition := position_eq hF (parentOf parents b) f
  rw [← hparent.1] at hposition
  rw [length_perCell, position_eq hF b f]
  simp only [hread, Except.ok_bind, hposition, readVector3At_cell hparameters hb hf,
    readVector3At_cell hparameters hparent.2 hf]
  rfl

/-- The search finds the children in the order of the bones. -/
theorem findChildren_eq (hB : bones.toInt = B) (hF : frames.toInt = F)
    (hparents : parents.length = B) (hparameters : B * F * 3 ≤ parameters.length) {f : Nat}
    (hf : f < F) (b : Nat) (bonePosition : Vector3d K) :
    findChildren frames bones parameters parents b f bonePosition =
      .ok ((childrenOf parents b).map (fun c => (Problem.tile (c * F + f)).values),
        (childrenOf parents b).map fun c => (positionAt parameters F c f - bonePosition).norm) := by
  have hcount : bones.toInt.toNat = parents.length := by rw [hB, hparents, Int.toNat_natCast]
  let isChild : Nat → Bool := fun c => parents[c]?.any fun parent => parent.toInt = (b : Int)
  let found : Nat → List Int × List K := fun i =>
    (((List.range i).filter isChild).map (fun c => (Problem.tile (c * F + f)).values),
      ((List.range i).filter isChild).map fun c => (positionAt parameters F c f - bonePosition).norm)
  unfold findChildren
  rw [hcount]
  apply forRange_eq found
  intro c hc
  have hread : readAt parents c = .ok parents[c] := readAt_of_lt hc
  have hchild : isChild c = decide (parents[c].toInt = (b : Int)) := by
    simp [isChild, List.getElem?_eq_getElem hc]
  simp only [hread, Except.ok_bind]
  split
  · next heq =>
    rw [position_eq hF, readVector3At_cell hparameters (hparents ▸ hc) hf]
    simp only [found, List.range_succ, List.filter_append, List.map_append, Except.ok_bind]
    simp [hchild, heq]
    rfl
  · next hne =>
    simp only [found, List.range_succ, List.filter_append, List.map_append]
    simp [hchild, hne]
    rfl

theorem maintainBoneLengthChildrenFunction_eq (platform : Platform) (colliders : List (Collider K))
    (hB : bones.toInt = B) (hF : frames.toInt = F) (hparents : parents.length = B)
    (hparameters : B * F * 3 ≤ parameters.length) :
    maintainBoneLengthChildrenFunction platform colliders frames bones parameters parents =
      .ok (Problem.tiled (perCell B F fun b f =>
        .children (childrenFunctor platform colliders F parameters parents b f))) := by
  let functor : Nat → Nat → CostFunctor K := fun b f =>
    .children (childrenFunctor platform colliders F parameters parents b f)
  have hbones : bones.toInt.toNat = B := by rw [hB, Int.toNat_natCast]
  have hframes : frames.toInt.toNat = F := by rw [hF, Int.toNat_natCast]
  have hloop : ∀ body, (∀ b, b < B → body b (boneDepths platform (parents.take b),
      Problem.tiled (perCell b F functor)) = .ok (boneDepths platform (parents.take (b + 1)),
      Problem.tiled (perCell (b + 1) F functor))) →
      forRange B body ([], Problem.empty) = Except.ok (ε := Fault)
        (boneDepths platform (parents.take B), Problem.tiled (perCell B F functor)) :=
    fun body hbody => forRange_eq (fun b => (boneDepths platform (parents.take b),
      Problem.tiled (perCell b F functor))) hbody
  unfold maintainBoneLengthChildrenFunction
  rw [hbones, hframes, hloop]
  · rfl
  intro b hb
  have hread : readAt parents b = .ok parents[b] := readAt_of_lt (by omega)
  have hdepths : boneDepths platform (parents.take b) ++
      [nextDepth platform (boneDepths platform (parents.take b)) parents[b]] =
      boneDepths platform (parents.take (b + 1)) := by
    rw [List.take_succ_eq_append_getElem (by omega), boneDepths_concat]
  have hdepth : readAt (boneDepths platform (parents.take (b + 1))) b =
      .ok ((boneDepths platform parents).getD b 0) := by
    rw [boneDepths_take platform (by omega), readAt_of_lt (by simp; omega),
      List.getElem_take, List.getD_eq_getElem _ _ (by simp; omega)]
  simp only [hread, Except.ok_bind, hdepths, hdepth]
  rw [perCell_succ, Problem.forRange_addResidualBlock (perCell b F functor) (functor b)]
  · rfl
  intro f problem hf
  rw [length_perCell, position_eq hF b f]
  simp only [readVector3At_cell hparameters hb hf, Except.ok_bind,
    findChildren_eq hB hF hparents hparameters hf]
  rfl

/-! ## What the built functors compute -/

theorem mem_childrenOf {b c : Nat} :
    c ∈ childrenOf parents b ↔ ∃ hc : c < parents.length, parents[c].toInt = (b : Int) := by
  simp only [childrenOf, List.mem_filter, List.mem_range]
  constructor
  · rintro ⟨hc, hparent⟩
    exact ⟨hc, by simpa [List.getElem?_eq_getElem hc] using hparent⟩
  · rintro ⟨hc, hparent⟩
    exact ⟨hc, by simpa [List.getElem?_eq_getElem hc] using hparent⟩

theorem evaluate_lengthFunctor (colliders : List (Collider K)) {memory : List K} {p b f : Nat}
    (hp : p < B) (hf : f < F) (hmemory : B * F * 3 ≤ memory.length) (x : Vector3d K) :
    CostFunctor.evaluate memory x (.length (lengthFunctor colliders F parameters p b f)) =
      .ok [CostFunctor.penetration (.length (lengthFunctor colliders F parameters p b f)) x,
        some ((positionAt memory F p f - x).norm -
          (positionAt parameters F p f - positionAt parameters F b f).norm)] := by
  have hcell := Grid.index_lt hp hf
  exact CostFunctor.evaluate_length x rfl (by omega)

theorem evaluate_childrenFunctor (platform : Platform) (colliders : List (Collider K))
    {memory : List K} {b f : Nat} (hparents : parents.length = B) (hf : f < F)
    (hmemory : B * F * 3 ≤ memory.length) (x : Vector3d K) :
    CostFunctor.evaluate memory x
        (.children (childrenFunctor platform colliders F parameters parents b f)) =
      .ok [CostFunctor.penetration
          (.children (childrenFunctor platform colliders F parameters parents b f)) x,
        some ((boneDepths platform parents).getD b 0 * ((childrenOf parents b).map fun c =>
          (positionAt memory F c f - x).norm -
            (positionAt parameters F c f - positionAt parameters F b f).norm).sum)] := by
  let cells := (childrenOf parents b).map fun c => c * F + f
  let lengths := fun n => (vectorAt parameters n - positionAt parameters F b f).norm
  have hcells : ∀ n ∈ cells, n * 3 + 3 ≤ memory.length := by
    intro n hn
    obtain ⟨c, hc, rfl⟩ := List.mem_map.mp hn
    obtain ⟨hlt, -⟩ := mem_childrenOf.mp hc
    have hcell := Grid.index_lt (hparents ▸ hlt) hf
    omega
  have hpositions : (childrenFunctor platform colliders F parameters parents b f).childrenPositions =
      cells.map fun n => (Problem.tile n).values := by
    simp [cells, childrenFunctor]
  have hlengths : (childrenFunctor platform colliders F parameters parents b f).sqBoneLengths =
      cells.map lengths := by
    simp [cells, lengths, childrenFunctor, positionAt]
  rw [CostFunctor.evaluate_children x hpositions hlengths hcells, List.map_map]
  rfl

end Closed
