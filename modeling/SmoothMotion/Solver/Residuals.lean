-- SUMMARY: What it means that a residual of the three functors is zero.
import SmoothMotion.Solver.Functors

/-!
# Residuals

The first residual is assigned by the loop over the colliders, once for each of
them: without colliders never, and with several the last one wins. The second
adds up signed errors, of all children in one number.
-/

namespace CostFunctor

variable {K : Type} [Scalar K]

/-! ## The collision residual -/

/-- Whatever a functor reads, its first residual is what the colliders left. -/
theorem head?_evaluate {memory : List K} {x : Vector3d K} {f : CostFunctor K}
    {residual : Residual K} (h : f.evaluate memory x = .ok residual) :
    residual.head? = some (f.penetration x) := by
  cases f with
  | basic f =>
    rw [evaluate_basic] at h
    cases h
    rfl
  | length f =>
    obtain ⟨parent, -, h⟩ := Except.bind_eq_ok h
    cases h
    simp [numResiduals, assignPenetration_eq, penetration, colliders, weight]
  | children f =>
    obtain ⟨total, -, h⟩ := Except.bind_eq_ok h
    cases h
    simp [numResiduals, assignPenetration_eq, penetration, colliders, weight]

theorem weight_pos (f : CostFunctor K) : 0 < f.weight := by
  cases f with
  | basic f => exact one_pos
  | length f => exact one_pos
  | children f => exact Nat.ofNat_pos

/-- It is zero exactly in front of the last plane. -/
theorem penetration_eq_zero_iff {f : CostFunctor K} (hcolliders : f.colliders ≠ [])
    (x : Vector3d K) :
    f.penetration x = some 0 ↔ ¬ (f.colliders.getLast hcolliders).Penetrates x := by
  unfold penetration
  rw [List.getLast?_eq_some_getLast hcolliders, Option.map_some, Option.some.injEq, mul_eq_zero,
    or_iff_left f.weight_pos.ne', Collider.intersectsPlane_eq_zero_iff]

/-- For each of the three functors: that the first residual is zero exactly if no
    collider is penetrated holds at the points that are in the last collider as
    soon as they are in any. -/
theorem collision_residual_iff {memory : List K} {x : Vector3d K} {f : CostFunctor K}
    {residual : Residual K} (hcolliders : f.colliders ≠ [])
    (h : f.evaluate memory x = .ok residual) :
    (residual[0]? = some (some 0) ↔ ∀ collider ∈ f.colliders,
        (collider.planePosition - x).dot collider.planeNormal ≤ 0) ↔
      ((∃ collider ∈ f.colliders, collider.Penetrates x) →
        (f.colliders.getLast hcolliders).Penetrates x) := by
  have hlast : f.colliders.getLast hcolliders ∈ f.colliders := List.getLast_mem hcolliders
  have hnone : (∀ collider ∈ f.colliders,
      (collider.planePosition - x).dot collider.planeNormal ≤ 0) ↔
      ¬ ∃ collider ∈ f.colliders, collider.Penetrates x := by
    simp only [Collider.Penetrates, not_exists, not_and, not_lt]
  rw [← List.head?_eq_getElem?, head?_evaluate h, Option.some.injEq,
    penetration_eq_zero_iff hcolliders, hnone]
  constructor
  · intro hiff hany
    by_contra hnot
    exact hiff.mp hnot hany
  · intro hcover
    refine ⟨fun hnot hany => hnot (hcover hany), fun hnot hpenetrates => hnot ⟨_, hlast, hpenetrates⟩⟩

/-- Two planes with the point between them: it is in the first collider only. -/
def twoPlanes : List (Collider ℚ) := [⟨⟨0, 1, 0⟩, ⟨0, 1, 0⟩⟩, ⟨⟨0, -1, 0⟩, ⟨0, 1, 0⟩⟩]

/-- All three functors report no penetration there. -/
theorem collision_residual_twoPlanes :
    evaluate [0, 0, 0] ⟨0, 0, 0⟩ (.basic ⟨twoPlanes⟩) = .ok [some 0] ∧
      evaluate [0, 0, 0] ⟨0, 0, 0⟩ (.length ⟨twoPlanes, 0, 0⟩) = .ok [some 0, some 0] ∧
      evaluate [0, 0, 0] ⟨0, 0, 0⟩ (.children ⟨twoPlanes, [], [], 1⟩) = .ok [some 0, some 0] ∧
      ¬ ∀ collider ∈ twoPlanes, (collider.planePosition - ⟨0, 0, 0⟩).dot collider.planeNormal ≤ 0 := by
  refine ⟨by decide +kernel, by decide +kernel, by decide +kernel, fun h => ?_⟩
  have hfirst := h ⟨⟨0, 1, 0⟩, ⟨0, 1, 0⟩⟩ (by simp [twoPlanes])
  revert hfirst
  decide +kernel

/-- The condition at work on the same two planes. -/
theorem collision_residual_iff_twoPlanes :
    (([some 0] : Residual ℚ)[0]? = some (some 0) ↔ ∀ collider ∈ twoPlanes,
        (collider.planePosition - ⟨0, 0, 0⟩).dot collider.planeNormal ≤ 0) ↔
      ((∃ collider ∈ twoPlanes, collider.Penetrates ⟨0, 0, 0⟩) →
        (twoPlanes.getLast (by simp [twoPlanes])).Penetrates ⟨0, 0, 0⟩) := by
  have heval : evaluate [] ⟨0, 0, 0⟩ (.basic ⟨twoPlanes⟩) = .ok [some 0] := by decide +kernel
  exact collision_residual_iff (f := .basic ⟨twoPlanes⟩) (by simp [colliders, twoPlanes]) heval

/-! ## The length residual -/

section Children

variable {memory : List K}

/-- How much the children that are too far away exceed their rest lengths. -/
def excess (errors : List K) : K := (errors.map fun e => max e 0).sum

/-- How much the children that are too near fall short of them. -/
def shortfall (errors : List K) : K := (errors.map fun e => max (-e) 0).sum

theorem sum_eq_excess_sub_shortfall (errors : List K) :
    errors.sum = excess errors - shortfall errors := by
  induction errors with
  | nil => simp [excess, shortfall]
  | cons e errors ih =>
    simp only [excess, shortfall, List.map_cons, List.sum_cons] at ih ⊢
    rw [ih, add_sub_add_comm, max_zero_sub_eq_self]

/-- A sum of parts that are not negative vanishes with all of them. -/
private theorem sum_map_eq_zero_iff {part : K → K} (hpart : ∀ e, 0 ≤ part e) (errors : List K) :
    (errors.map part).sum = 0 ↔ ∀ e ∈ errors, part e = 0 := by
  induction errors with
  | nil => simp
  | cons e errors ih =>
    have hrest : 0 ≤ (errors.map part).sum := List.sum_nonneg (by simpa using fun e _ => hpart e)
    rw [List.map_cons, List.sum_cons, add_eq_zero_iff_of_nonneg (hpart e) hrest, ih,
      List.forall_mem_cons]

/-- No child exceeds and none falls short exactly if all are at rest. -/
theorem excess_shortfall_eq_zero_iff (errors : List K) :
    excess errors = 0 ∧ shortfall errors = 0 ↔ ∀ e ∈ errors, e = 0 := by
  unfold excess shortfall
  rw [sum_map_eq_zero_iff fun e => le_max_right e 0,
    sum_map_eq_zero_iff fun e => le_max_right (-e) 0, ← forall₂_and]
  refine forall₂_congr fun e _ => ?_
  constructor
  · rintro ⟨hle, hge⟩
    exact le_antisymm (max_eq_right_iff.mp hle) (by simpa using hge)
  · rintro rfl
    simp

/-- That the second residual is zero exactly if every child is at its rest length
    holds unless what some children exceed their rest lengths by is what the others
    fall short of theirs. -/
theorem length_residual_iff {f : MaintainBoneLengthChildren K} {positions : List (Vector3d K)}
    (hread : List.Forall₂ (fun pointer v => readVector3At memory pointer = .ok v)
      f.childrenPositions positions)
    (hlength : f.sqBoneLengths.length = positions.length) (hdepth : 1 ≤ f.skeletonDepth)
    (x : Vector3d K) :
    ∃ residual, evaluate memory x (.children f) = .ok residual ∧
      ((residual[1]? = some (some 0) ↔ ∀ (i : Nat) position length, positions[i]? = some position →
          f.sqBoneLengths[i]? = some length → (position - x).norm = length) ↔
        (excess (lengthErrors x positions f.sqBoneLengths) =
            shortfall (lengthErrors x positions f.sqBoneLengths) →
          excess (lengthErrors x positions f.sqBoneLengths) = 0)) := by
  have hloop := addLengthDifferences_read x f.skeletonDepth hread hlength 0
  rw [zero_add] at hloop
  have heval : evaluate memory x (.children f) = .ok [penetration (.children f) x,
      some (f.skeletonDepth * (lengthErrors x positions f.sqBoneLengths).sum)] := by
    simp [evaluate, numResiduals, MaintainBoneLengthChildren.operator, assignPenetration_eq,
      hloop, penetration, colliders, weight]
  have hrest : (∀ (i : Nat) position length, positions[i]? = some position →
      f.sqBoneLengths[i]? = some length → (position - x).norm = length) ↔
      ∀ e ∈ lengthErrors x positions f.sqBoneLengths, e = 0 := by
    unfold lengthErrors
    simp only [List.mem_iff_getElem?, List.getElem?_zipWith_eq_some]
    constructor
    · rintro h e ⟨i, position, length, hposition, hlength, rfl⟩
      exact sub_eq_zero.mpr (h i position length hposition hlength)
    · intro h i position length hposition hlength
      exact sub_eq_zero.mp (h _ ⟨i, position, length, hposition, hlength, rfl⟩)
  have hweight : (f.skeletonDepth : K) ≠ 0 := Nat.cast_ne_zero.mpr (by omega)
  refine ⟨_, heval, ?_⟩
  rw [hrest, ← excess_shortfall_eq_zero_iff]
  simp only [List.getElem?_cons_succ, List.getElem?_cons_zero, Option.some.injEq, mul_eq_zero, hweight,
    false_or, sum_eq_excess_sub_shortfall, sub_eq_zero]
  constructor
  · exact fun h heq => (h.mp heq).1
  · intro h
    exact ⟨fun heq => ⟨h heq, heq ▸ h heq⟩, fun hzero => hzero.1.trans hzero.2.symm⟩

/-- Two children, one a unit too far away and one a unit too near. -/
def unevenChildren : MaintainBoneLengthChildren ℚ where
  colliders := [⟨⟨0, 0, 0⟩, ⟨0, 1, 0⟩⟩]
  childrenPositions := [0, 3]
  sqBoneLengths := [1, 2]
  skeletonDepth := 1

/-- Their errors hide each other. -/
theorem length_residual_unevenChildren :
    evaluate [2, 0, 0, 0, 1, 0] ⟨0, 0, 0⟩ (.children unevenChildren) = .ok [some 0, some 0] ∧
      ((⟨2, 0, 0⟩ : Vector3d ℚ) - ⟨0, 0, 0⟩).norm ≠ 1 ∧
      ((⟨0, 1, 0⟩ : Vector3d ℚ) - ⟨0, 0, 0⟩).norm ≠ 2 := by
  decide +kernel

/-- The condition at work on them. -/
theorem length_residual_iff_unevenChildren :
    ∃ residual, evaluate [2, 0, 0, 0, 1, 0] ⟨0, 0, 0⟩ (.children unevenChildren) = .ok residual ∧
      ((residual[1]? = some (some 0) ↔ ∀ (i : Nat) (position : Vector3d ℚ) (length : ℚ),
          ([⟨2, 0, 0⟩, ⟨0, 1, 0⟩] : List (Vector3d ℚ))[i]? = some position →
          ([1, 2] : List ℚ)[i]? = some length → (position - ⟨0, 0, 0⟩).norm = length) ↔
        (excess (lengthErrors ⟨0, 0, 0⟩ [⟨2, 0, 0⟩, ⟨0, 1, 0⟩] [1, 2]) =
            shortfall (lengthErrors (⟨0, 0, 0⟩ : Vector3d ℚ) [⟨2, 0, 0⟩, ⟨0, 1, 0⟩] [1, 2]) →
          excess (lengthErrors (⟨0, 0, 0⟩ : Vector3d ℚ) [⟨2, 0, 0⟩, ⟨0, 1, 0⟩] [1, 2]) = 0)) := by
  have hread : List.Forall₂
      (fun pointer v => readVector3At ([2, 0, 0, 0, 1, 0] : List ℚ) pointer = .ok v)
      unevenChildren.childrenPositions [⟨2, 0, 0⟩, ⟨0, 1, 0⟩] :=
    .cons (by decide +kernel) (.cons (by decide +kernel) .nil)
  exact length_residual_iff hread (by decide) (by decide) ⟨0, 0, 0⟩

end Children

end CostFunctor
