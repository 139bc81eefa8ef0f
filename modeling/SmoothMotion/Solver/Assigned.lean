-- SUMMARY: Which residuals the registered functors assign: all of them at every point, once there is a collider.
import SmoothMotion.Solver.Builders
import SmoothMotion.Solver.Evaluation
import SmoothMotion.Solver.WellFormed

open Decimal

/-!
# Assigned residuals

Ceres rejects an evaluation that leaves a residual unassigned. What a functor
reads through its pointers its builder has read before, so it never leaves the
array; but without a collider nothing assigns the first residual.
-/

namespace CostFunctor

variable {K : Type} [Scalar K]

/-- All a functor reads besides its own block is in an array of that length. -/
def ReadsWithin (length : Nat) : CostFunctor K → Prop
  | .basic _ => True
  | .length f => InArray length f.parentPosition
  | .children f => (∀ pointer ∈ f.childrenPositions, InArray length pointer) ∧
      f.sqBoneLengths.length = f.childrenPositions.length

omit [Scalar K] in
private theorem exists_read {memory : List K} {pointers : List Int}
    (h : ∀ pointer ∈ pointers, InArray memory.length pointer) :
    ∃ positions : List (Vector3d K), List.Forall₂
      (fun pointer v => readVector3At memory pointer = .ok v) pointers positions := by
  induction pointers with
  | nil => exact ⟨[], .nil⟩
  | cons pointer pointers ih =>
    obtain ⟨v, hv⟩ := readVector3At_ok_iff.mpr (h pointer (by simp))
    obtain ⟨positions, hread⟩ := ih fun p hp => h p (by simp [hp])
    exact ⟨v :: positions, .cons hv hread⟩

/-- Within its array a functor returns, and assigns all but the first residual in
    any case. -/
theorem evaluate_of_readsWithin {f : CostFunctor K} {memory : List K}
    (h : f.ReadsWithin memory.length) (x : Vector3d K) :
    ∃ rest : List K, f.evaluate memory x = .ok (f.penetration x :: rest.map some) ∧
      rest.length + 1 = f.numResiduals := by
  cases f with
  | basic f => exact ⟨[], evaluate_basic memory x f, rfl⟩
  | length f =>
    obtain ⟨parent, hparent⟩ := readVector3At_ok_iff.mpr h
    refine ⟨[(parent - x).norm - f.sqBoneLength], ?_, rfl⟩
    simp [evaluate, numResiduals, MaintainBoneLengthFunction.operator, assignPenetration_eq, hparent,
      penetration, colliders, weight]
  | children f =>
    obtain ⟨hpointers, hlength⟩ := h
    obtain ⟨positions, hread⟩ := exists_read hpointers
    have hloop := addLengthDifferences_read x f.skeletonDepth hread
      (hlength.trans hread.length_eq) 0
    refine ⟨[0 + f.skeletonDepth * (lengthErrors x positions f.sqBoneLengths).sum], ?_, rfl⟩
    simp [evaluate, numResiduals, MaintainBoneLengthChildren.operator, assignPenetration_eq, hloop,
      penetration, colliders, weight]

/-- The evaluation is valid at every point, whatever an array of that length holds. -/
def Evaluable (length : Nat) (f : CostFunctor K) : Prop :=
  ∀ memory : List K, memory.length = length → ∀ x, ∃ residuals,
    Ceres.residualsAt memory f x = .ok residuals ∧ residuals.length = f.numResiduals

/-- A functor assigns all its residuals exactly if it has a collider. -/
theorem evaluable_iff {f : CostFunctor K} {length : Nat} (h : f.ReadsWithin length) :
    f.Evaluable length ↔ f.colliders ≠ [] := by
  constructor
  · intro hevaluable hnone
    have hlength : (List.replicate length (0 : K)).length = length := List.length_replicate
    obtain ⟨residuals, hresiduals, -⟩ := hevaluable _ hlength ⟨0, 0, 0⟩
    obtain ⟨rest, hrest, -⟩ := evaluate_of_readsWithin (hlength.symm ▸ h) ⟨0, 0, 0⟩
    simp [Ceres.residualsAt, hrest, penetration, hnone, Ceres.validate] at hresiduals
  · intro hcolliders memory hlength x
    obtain ⟨rest, hrest, hcount⟩ := evaluate_of_readsWithin (hlength.symm ▸ h) x
    obtain ⟨collider, -, hvalue⟩ := penetration_eq_some hcolliders
    have hall : some (collider.intersectsPlane x * f.weight) :: rest.map some =
        (collider.intersectsPlane x * f.weight :: rest).map some := rfl
    refine ⟨collider.intersectsPlane x * f.weight :: rest, ?_, hcount⟩
    rw [Ceres.residualsAt, hrest, Except.ok_bind, hvalue x, hall, Ceres.validate_map_some]

end CostFunctor

/-! ## What the builders register -/

section Registered

variable {K : Type} [Scalar K] {colliders : List (Collider K)} {frames bones : Int32}
  {parameters : List K} {parents : List Int32}

/-- What is true of every functor a builder registers. -/
structure Registered (colliders : List (Collider K)) (frames bones : Int32) (length : Nat)
    (f : CostFunctor K) : Prop where
  colliders : f.colliders = colliders
  readsWithin : f.ReadsWithin length
  bones : 0 < bones.toInt
  frames : 0 < frames.toInt

/-- All functors of the problem. -/
def AllRegistered (colliders : List (Collider K)) (frames bones : Int32) (length : Nat)
    (problem : Problem (CostFunctor K)) : Prop :=
  ∀ rb ∈ problem.residualBlocks, Registered colliders frames bones length rb.costFunction

omit [Scalar K] in
theorem allRegistered_empty (length : Nat) :
    AllRegistered colliders frames bones length Problem.empty := by
  intro rb hrb
  cases hrb

omit [Scalar K] in
theorem AllRegistered.addResidualBlock {length : Nat} {p p' : Problem (CostFunctor K)}
    (h : AllRegistered colliders frames bones length p) {f : CostFunctor K} {size : Nat} {x0 : Int}
    (hadd : p.addResidualBlock f size x0 = .ok p')
    (hf : Registered colliders frames bones length f) :
    AllRegistered colliders frames bones length p' := by
  obtain ⟨block, hblocks⟩ := Problem.residualBlocks_addResidualBlock hadd
  intro rb hrb
  rw [hblocks, List.mem_append, List.mem_singleton] at hrb
  rcases hrb with hrb | rfl
  · exact h rb hrb
  · exact hf

omit [Scalar K] in
theorem basicCollisionAvoidance_registered {problem : Problem (CostFunctor K)}
    (hbones : 0 ≤ bones.toInt) (length : Nat)
    (h : basicCollisionAvoidance colliders frames bones = .ok problem) :
    AllRegistered colliders frames bones length problem := by
  refine forRange_ok (fun _ p => AllRegistered colliders frames bones length p) ?_
    (allRegistered_empty length) h
  intro position p p' hposition hp hadd
  have hproduct : 0 < bones.toInt * frames.toInt := by omega
  have hpos : 0 < bones.toInt := lt_of_le_of_ne hbones fun hzero => by simp [← hzero] at hproduct
  exact hp.addResidualBlock hadd ⟨rfl, trivial, hpos, (pos_iff_pos_of_mul_pos hproduct).mp hpos⟩

theorem maintainBoneLength_registered {problem : Problem (CostFunctor K)}
    (h : maintainBoneLength colliders frames bones parameters parents = .ok problem) :
    AllRegistered colliders frames bones parameters.length problem := by
  refine forRange_ok (fun _ p => AllRegistered colliders frames bones parameters.length p) ?_
    (allRegistered_empty _) h
  intro bone p p' hbone hp hrow
  refine forRange_ok (fun _ p => AllRegistered colliders frames bones parameters.length p) ?_ hp hrow
  intro frame p p' hframe hp hbody
  obtain ⟨parent, -, hbody⟩ := Except.bind_eq_ok hbody
  obtain ⟨bonePosition, -, hbody⟩ := Except.bind_eq_ok hbody
  obtain ⟨parentBonePosition, hparent, hadd⟩ := Except.bind_eq_ok hbody
  exact hp.addResidualBlock hadd
    ⟨rfl, readVector3At_ok_iff.mp ⟨_, hparent⟩, by omega, by omega⟩

/-- The search keeps pointers it has read through, each with a length. -/
theorem findChildren_readsWithin {bone frame : Nat} {bonePosition : Vector3d K}
    {childrenPositions : List Int} {boneLengths : List K}
    (h : findChildren frames bones parameters parents bone frame bonePosition =
      .ok (childrenPositions, boneLengths)) :
    (∀ pointer ∈ childrenPositions, InArray parameters.length pointer) ∧
      boneLengths.length = childrenPositions.length := by
  refine forRange_ok (fun _ (found : List Int × List K) =>
    (∀ pointer ∈ found.1, InArray parameters.length pointer) ∧ found.2.length = found.1.length)
    ?_ ⟨by simp, rfl⟩ h
  rintro child ⟨pointers, lengths⟩ found hchild ⟨hpointers, hlength⟩ hbody
  obtain ⟨parent, -, hbody⟩ := Except.bind_eq_ok hbody
  split at hbody
  · obtain ⟨childBone, hread, hbody⟩ := Except.bind_eq_ok hbody
    cases hbody
    refine ⟨?_, by simp [hlength]⟩
    intro pointer hpointer
    rcases List.mem_append.mp hpointer with hpointer | hpointer
    · exact hpointers pointer hpointer
    · rw [List.mem_singleton.mp hpointer]
      exact readVector3At_ok_iff.mp ⟨_, hread⟩
  · cases hbody
    exact ⟨hpointers, hlength⟩

theorem maintainBoneLengthChildrenFunction_registered {platform : Platform}
    {problem : Problem (CostFunctor K)}
    (h : maintainBoneLengthChildrenFunction platform colliders frames bones parameters parents =
      .ok problem) : AllRegistered colliders frames bones parameters.length problem := by
  obtain ⟨⟨depths, p⟩, hloop, h⟩ := Except.bind_eq_ok h
  cases h
  refine forRange_ok (fun _ (a : List Nat × Problem (CostFunctor K)) =>
    AllRegistered colliders frames bones parameters.length a.2) ?_ (allRegistered_empty _) hloop
  rintro bone ⟨depths, p⟩ a' hbone hp hbody
  obtain ⟨parent, -, hbody⟩ := Except.bind_eq_ok hbody
  obtain ⟨p', hrow, hbody⟩ := Except.bind_eq_ok hbody
  cases hbody
  refine forRange_ok (fun _ p => AllRegistered colliders frames bones parameters.length p) ?_ hp hrow
  intro frame p p' hframe hp hbody
  obtain ⟨bonePosition, -, hbody⟩ := Except.bind_eq_ok hbody
  obtain ⟨⟨childrenPositions, boneLengths⟩, hfound, hbody⟩ := Except.bind_eq_ok hbody
  obtain ⟨depth, -, hadd⟩ := Except.bind_eq_ok hbody
  exact hp.addResidualBlock hadd ⟨rfl, findChildren_readsWithin hfound, by omega, by omega⟩

end Registered

/-! ## What `ReadFile` accepts -/

section Accepted

variable {K : Type} [Scalar K]

/-- One of the three builders returns this problem for the input. -/
def BuiltFrom (platform : Platform) (input : Input K) (problem : Problem (CostFunctor K)) : Prop :=
  basicCollisionAvoidance input.colliders input.frames input.numBones = .ok problem ∨
    maintainBoneLength input.colliders input.frames input.numBones input.positions input.parents =
      .ok problem ∨
    maintainBoneLengthChildrenFunction platform input.colliders input.frames input.numBones
      input.positions input.parents = .ok problem

theorem BuiltFrom.allRegistered {platform : Platform} {input : Input K}
    {problem : Problem (CostFunctor K)} (h : BuiltFrom platform input problem)
    (hbones : 0 ≤ input.numBones.toInt) :
    AllRegistered input.colliders input.frames input.numBones input.positions.length problem := by
  rcases h with h | h | h
  · exact basicCollisionAvoidance_registered hbones _ h
  · exact maintainBoneLength_registered h
  · exact maintainBoneLengthChildrenFunction_registered h

/-- For every file that is accepted, the functors of all three builders assign all
    their residuals at every point, if and only if the file has a collider, or no
    block is registered, for lack of bones or of frames. -/
theorem residuals_assigned_iff (platform : Platform) {text : Text} {memory : Uninitialised K}
    {frames₀ : Int32} {input : Input K} (h : readFile (some text) memory frames₀ = .ok input) :
    (∀ problem, BuiltFrom platform input problem →
        ∀ rb ∈ problem.residualBlocks, rb.costFunction.Evaluable input.positions.length) ↔
      (header text).1.numColliders ≠ 0 ∨ (header text).1.numBones.toInt ≤ 0 ∨
        (header text).1.frames.toInt ≤ 0 := by
  obtain ⟨hB, hF, -, hlength, -, hcolliders⟩ := readFile_returns h
  rw [← hB] at hlength ⊢
  rw [← hF]
  have hbones : 0 ≤ input.numBones.toInt := by omega
  constructor
  · intro hall
    by_contra hnot
    simp only [not_or, ne_eq, not_not, not_le] at hnot
    obtain ⟨hnone, hpos, hframes⟩ := hnot
    have hempty : input.colliders = [] := by
      have hcount := hcolliders.resolve_left hpos.ne'
      have hzero : (0 : Int32).toInt = 0 := rfl
      rw [hnone, hzero, Int.natCast_eq_zero] at hcount
      exact List.eq_nil_of_length_eq_zero hcount
    -- the first bone and the first frame have a block
    have hbuilt := basicCollisionAvoidance_eq input.colliders (Int.toNat_of_nonneg hbones).symm
      (Int.toNat_of_nonneg hframes.le).symm
    have hblock := List.mem_of_getElem? (getElem?_residualBlocks_perCell (K := K)
      (g := fun _ _ => .basic ⟨input.colliders⟩) (b := 0) (f := 0)
      (by omega : 0 < input.numBones.toInt.toNat) (by omega : 0 < input.frames.toInt.toNat))
    have hreads : CostFunctor.ReadsWithin input.positions.length
        (.basic ⟨input.colliders⟩ : CostFunctor K) := trivial
    exact (CostFunctor.evaluable_iff hreads).mp (hall _ (.inl hbuilt) _ hblock) hempty
  · intro hcondition problem hbuilt rb hrb
    have hregistered := hbuilt.allRegistered hbones rb hrb
    have hpos := hregistered.bones
    have hframes := hregistered.frames
    rw [CostFunctor.evaluable_iff hregistered.readsWithin, hregistered.colliders]
    rcases hcondition with hsome | hnone | hnone
    · intro hempty
      have hcount := hcolliders.resolve_left hpos.ne'
      rw [hempty] at hcount
      exact hsome (Int32.toInt_inj.mp hcount.symm)
    · omega
    · omega

/-- A bone, a frame and no collider: the file is accepted, and the functor that
    `main` registers leaves its first residual unassigned. -/
theorem residuals_unassigned_oneBone :
    ∃ input problem, readFile (some "1 1 0 1 2 3 0 ".toList) Uninitialised.zeros 0 = .ok input ∧
      maintainBoneLengthChildrenFunction win64 input.colliders input.frames input.numBones
        input.positions input.parents = .ok problem ∧
      ∃ rb ∈ problem.residualBlocks,
        rb.costFunction.evaluate input.positions ⟨1, 2, 3⟩ = .ok [none, some 0] ∧
        ¬ rb.costFunction.Evaluable input.positions.length := by
  have hread : readFile (some "1 1 0 1 2 3 0 ".toList) Uninitialised.zeros 0 =
      .ok ⟨[], [1, 2, 3], 1, 1, [0]⟩ := by decide +kernel
  have hparents : ([0] : List Int32).length = 1 := rfl
  have hbuilt := maintainBoneLengthChildrenFunction_eq win64 ([] : List (Collider ℚ))
    (by rfl : (1 : Int32).toInt = (1 : Nat)) (by rfl : (1 : Int32).toInt = (1 : Nat)) hparents
    (by decide : 1 * 1 * 3 ≤ ([1, 2, 3] : List ℚ).length)
  have hblock := List.mem_of_getElem? (getElem?_residualBlocks_perCell (b := 0) (f := 0)
    (g := fun b f => .children (childrenFunctor win64 [] 1 ([1, 2, 3] : List ℚ) [0] b f))
    (by decide : 0 < 1) (by decide : 0 < 1))
  have heval : CostFunctor.evaluate ([1, 2, 3] : List ℚ) ⟨1, 2, 3⟩
      (.children (childrenFunctor win64 [] 1 [1, 2, 3] [0] 0 0)) = .ok [none, some 0] := by
    decide +kernel
  refine ⟨_, _, hread, hbuilt, _, hblock, heval, fun hevaluable => ?_⟩
  obtain ⟨residuals, hresiduals, -⟩ := hevaluable [1, 2, 3] rfl ⟨1, 2, 3⟩
  rw [Ceres.residualsAt, heval] at hresiduals
  cases hresiduals

/-- The same bone with a collider. -/
theorem residuals_assigned_iff_oneCollider :
    (∀ problem, BuiltFrom win64
          (⟨[⟨⟨0, 0, 0⟩, ⟨0, 1, 0⟩⟩], [1, 2, 3], 1, 1, [0]⟩ : Input ℚ) problem →
        ∀ rb ∈ problem.residualBlocks, rb.costFunction.Evaluable 3) ↔
      (header "1 1 1 1 2 3 0 0 0 0 1 0 0 ".toList).1.numColliders ≠ 0 ∨
        (header "1 1 1 1 2 3 0 0 0 0 1 0 0 ".toList).1.numBones.toInt ≤ 0 ∨
        (header "1 1 1 1 2 3 0 0 0 0 1 0 0 ".toList).1.frames.toInt ≤ 0 := by
  have hread : readFile (some "1 1 1 1 2 3 0 0 0 0 1 0 0 ".toList) Uninitialised.zeros 0 =
      .ok ⟨[⟨⟨0, 0, 0⟩, ⟨0, 1, 0⟩⟩], [1, 2, 3], 1, 1, [0]⟩ := by decide +kernel
  exact residuals_assigned_iff win64 hread

end Accepted
