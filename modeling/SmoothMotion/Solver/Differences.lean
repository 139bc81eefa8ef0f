-- SUMMARY: What central differences make of a penetration: in every coordinate a share of the plane's normal, all of it deep behind the plane and nothing in front.
import Mathlib.Tactic.FieldSimp
import Mathlib.Tactic.Linarith
import SmoothMotion.Solver.Assigned
import SmoothMotion.Solver.Evaluation

/-!
# Central differences of a penetration

The depth behind a plane is linear, but the penetration is cut off at zero, so it has
no derivative on the plane. The difference that is taken instead never overshoots:
it is the derivative of the depth, scaled down by how much of the way between the two
points lies behind the plane.
-/

/-! ## The ramp -/

namespace Ramp

variable {K : Type} [Field K] [LinearOrder K] [IsStrictOrderedRing K]

/-- How much of the way from `a - u` to `a + u` is above zero. -/
def share (a u : K) : K :=
  if u = 0 then if 0 < a then 1 else 0 else (max (a + u) 0 - max (a - u) 0) / ((2 : Nat) * u)

omit [IsStrictOrderedRing K] in
theorem share_eq (a u : K) : share a u = if u = 0 then if 0 < a then 1 else 0
    else (max (a + u) 0 - max (a - u) 0) / (2 * u) := rfl

theorem share_mul (a u : K) : share a u * (2 * u) = max (a + u) 0 - max (a - u) 0 := by
  rw [share_eq]
  split
  · next h => simp [h]
  · next h => exact div_mul_cancel₀ _ (mul_ne_zero two_ne_zero h)

/-- The way the ramp goes up is not longer than the way. -/
theorem max_sub_max_le {a b : K} (h : a ≤ b) : 0 ≤ max b 0 - max a 0 ∧ max b 0 - max a 0 ≤ b - a := by
  constructor
  · exact sub_nonneg.mpr (max_le_max_right 0 h)
  · rcases le_total b 0 with hb | hb
    · rw [max_eq_right hb, max_eq_right (h.trans hb), sub_zero]
      exact sub_nonneg.mpr h
    · rw [max_eq_left hb]
      exact sub_le_sub_left (le_max_left a 0) b

theorem share_bounds (a u : K) : 0 ≤ share a u ∧ share a u ≤ 1 := by
  rw [share_eq]
  split
  · split
    · exact ⟨zero_le_one, le_rfl⟩
    · exact ⟨le_rfl, zero_le_one⟩
  · next h =>
    rcases lt_or_gt_of_ne h with hneg | hpos
    · obtain ⟨hlow, hhigh⟩ := max_sub_max_le (by linarith : a + u ≤ a - u)
      rw [div_le_one_of_neg (by linarith)]
      exact ⟨div_nonneg_of_nonpos (by linarith) (by linarith), by linarith⟩
    · obtain ⟨hlow, hhigh⟩ := max_sub_max_le (by linarith : a - u ≤ a + u)
      rw [div_le_one (by linarith)]
      exact ⟨div_nonneg hlow (by linarith), by linarith⟩

/-- All of it, if even the lower end is above zero. -/
theorem share_of_lt {a u : K} (h : |u| < a) : share a u = 1 := by
  obtain ⟨hlow, hhigh⟩ := abs_lt.mp h
  rw [share_eq]
  split
  · next hu => rw [if_pos (by linarith)]
  · next hu =>
    rw [max_eq_left (by linarith), max_eq_left (by linarith), div_eq_one_iff_eq (by simpa using hu)]
    ring

theorem share_of_le {a u : K} (h : a ≤ -|u|) : share a u = 0 := by
  have hlow := neg_abs_le u
  have hhigh := le_abs_self u
  rw [share_eq]
  split
  · next hu => rw [if_neg (by linarith [abs_nonneg u])]
  · rw [max_eq_right (by linarith), max_eq_right (by linarith), sub_zero, zero_div]

end Ramp

namespace Ceres

variable {K : Type} [Scalar K] {memory : List K} {f : CostFunctor K}

/-! ## The step -/

/-- A parameter is never moved by zero: no difference is divided by it. -/
theorem delta_pos (x : Vector3d K) (j : Nat) : 0 < delta x j := by
  have hsize : ∀ c : K, 0 ≤ |c| * relativeStepSize := fun c =>
    mul_nonneg (abs_nonneg c) (by simp [relativeStepSize])
  have hsteps : ∀ step ∈ stepSize x, 0 ≤ step := by
    intro step hstep
    obtain ⟨c, -, rfl⟩ := List.mem_map.mp hstep
    exact hsize c
  have hsum : 0 ≤ (stepSize x).sum := List.sum_nonneg hsteps
  have hstep : 0 ≤ (stepSize x).getD j 0 := by
    rcases Nat.lt_or_ge j (stepSize x).length with hlt | hge
    · rw [List.getD_eq_getElem _ _ hlt]
      exact hsteps _ (List.getElem_mem hlt)
    · rw [List.getD_eq_default _ _ hge]
  have hfallback : 0 < if (stepSize x).sum = 0 then relativeStepSize else (stepSize x).sum / 3 := by
    split
    · simp [relativeStepSize]
    · next hne => exact div_pos (lt_of_le_of_ne hsum (Ne.symm hne)) three_pos
  simp only [delta]
  split
  · exact hfallback
  · next hne => exact lt_of_le_of_ne hstep (Ne.symm hne)

/-! ## The collision residual -/

theorem intersectsPlane_eq_max (c : Collider K) (x : Vector3d K) :
    c.intersectsPlane x = max ((c.planePosition - x).dot c.planeNormal) 0 := by
  simp only [Collider.intersectsPlane]
  split
  · next h => exact (max_eq_right h.le).symm
  · next h => exact (max_eq_left (not_lt.mp h)).symm

/-- The depth changes by the normal's component. -/
theorem dot_shift (p x n : Vector3d K) {j : Nat} (hj : j < 3) (d : K) :
    (p - shift x j d).dot n = (p - x).dot n - d * n.toList.getD j 0 := by
  obtain rfl | rfl | rfl : j = 0 ∨ j = 1 ∨ j = 2 := by omega
  all_goals
    simp only [shift, Vector3d.dot, Vector3d.toList, Vector3d.sub_x, Vector3d.sub_y, Vector3d.sub_z,
      List.getD_cons_zero, List.getD_cons_succ]
    ring

/-- The residuals of a functor with a collider begin with its penetration. -/
theorem residualsAt_cons (h : f.ReadsWithin memory.length) (hcolliders : f.colliders ≠ [])
    (x : Vector3d K) : ∃ rest, residualsAt memory f x =
      .ok ((f.colliders.getLast hcolliders).intersectsPlane x * f.weight :: rest) ∧
        rest.length + 1 = f.numResiduals := by
  obtain ⟨rest, hrest, hlength⟩ := CostFunctor.evaluate_of_readsWithin h x
  have hfirst : f.penetration x =
      some ((f.colliders.getLast hcolliders).intersectsPlane x * f.weight) := by
    unfold CostFunctor.penetration
    rw [List.getLast?_eq_some_getLast hcolliders, Option.map_some]
  refine ⟨rest, ?_, hlength⟩
  rw [residualsAt, hrest, Except.ok_bind, hfirst, ← List.map_cons, validate_map_some]

/-- The share of the normal's component `j` that the difference takes at `x`. -/
def normalShare (c : Collider K) (x : Vector3d K) (j : Nat) : K :=
  Ramp.share ((c.planePosition - x).dot c.planeNormal) (delta x j * c.planeNormal.toList.getD j 0)

/-- The difference quotient of the penetration. -/
theorem difference_eq (c : Collider K) (x : Vector3d K) {j : Nat} (hj : j < 3) (w : K) :
    (c.intersectsPlane (shift x j (delta x j)) * w -
        c.intersectsPlane (shift x j (-delta x j)) * w) * (1 / delta x j / 2) =
      -(normalShare c x j * (w * c.planeNormal.toList.getD j 0)) := by
  have hdelta := (delta_pos x j).ne'
  have hshare := Ramp.share_mul ((c.planePosition - x).dot c.planeNormal)
    (delta x j * c.planeNormal.toList.getD j 0)
  rw [intersectsPlane_eq_max, intersectsPlane_eq_max, dot_shift _ _ _ hj, dot_shift _ _ _ hj,
    neg_mul, sub_neg_eq_add, normalShare]
  have hdifference : ∀ a b : K, a * w - b * w = -((b - a) * w) := fun a b => by ring
  rw [hdifference, ← hshare]
  field_simp

/-- For all three functors, at every position and in every coordinate: the derivative
    of the collision residual is taken, and it is a share of the exact derivative of
    the depth behind the last plane. The share is one where the position is deeper
    than the difference reaches, and zero where it is as far in front. -/
theorem collision_derivative (h : f.ReadsWithin memory.length) (hcolliders : f.colliders ≠ [])
    (x : Vector3d K) {j : Nat} (hj : j < 3) :
    let plane := f.colliders.getLast hcolliders
    let depth := (plane.planePosition - x).dot plane.planeNormal
    let n := plane.planeNormal.toList.getD j 0
    ∃ column θ, jacobianColumn memory f x j = .ok column ∧ column.length = f.numResiduals ∧
      column[0]? = some (-(θ * (f.weight * n))) ∧ 0 ≤ θ ∧ θ ≤ 1 ∧
      (|delta x j * n| < depth → θ = 1) ∧ (depth ≤ -|delta x j * n| → θ = 0) := by
  intro plane depth n
  obtain ⟨forward, hforward, hforwardLength⟩ :=
    residualsAt_cons h hcolliders (shift x j (delta x j))
  obtain ⟨backward, hbackward, hbackwardLength⟩ :=
    residualsAt_cons h hcolliders (shift x j (-delta x j))
  obtain ⟨hlow, hhigh⟩ := Ramp.share_bounds depth (delta x j * n)
  have hcolumn : jacobianColumn memory f x j =
      .ok (List.zipWith (fun a b => (a - b) * (1 / delta x j / 2))
        (plane.intersectsPlane (shift x j (delta x j)) * f.weight :: forward)
        (plane.intersectsPlane (shift x j (-delta x j)) * f.weight :: backward)) := by
    rw [jacobianColumn, hforward, Except.ok_bind, hbackward]
    rfl
  refine ⟨_, normalShare plane x j, hcolumn, ?_, ?_, hlow, hhigh, Ramp.share_of_lt,
    Ramp.share_of_le⟩
  · simp only [List.length_zipWith, List.length_cons]
    omega
  · rw [List.zipWith_cons_cons, List.getElem?_cons_zero, difference_eq plane x hj f.weight]

/-- Two units above the ground the difference in height does not reach it; two units
    below, it is all of the derivative. -/
theorem collision_derivative_ground :
    (∃ (column : List ℚ) (θ : ℚ),
      jacobianColumn [] (.basic ⟨[⟨⟨0, 0, 0⟩, ⟨0, 1, 0⟩⟩]⟩) (⟨0, 2, 0⟩ : Vector3d ℚ) 1 =
          .ok column ∧
        column[0]? = some (-(θ * (1 * (1 : ℚ)))) ∧ θ = 0) ∧
    ∃ (column : List ℚ) (θ : ℚ),
      jacobianColumn [] (.basic ⟨[⟨⟨0, 0, 0⟩, ⟨0, 1, 0⟩⟩]⟩) (⟨0, -2, 0⟩ : Vector3d ℚ) 1 =
          .ok column ∧
        column[0]? = some (-(θ * (1 * (1 : ℚ)))) ∧ θ = 1 := by
  have hreads : CostFunctor.ReadsWithin ([] : List ℚ).length
      (.basic ⟨[⟨⟨0, 0, 0⟩, ⟨0, 1, 0⟩⟩]⟩ : CostFunctor ℚ) := trivial
  constructor
  · obtain ⟨column, θ, hcolumn, -, hfirst, -, -, -, hzero⟩ := collision_derivative hreads
      (List.cons_ne_nil _ _) (⟨0, 2, 0⟩ : Vector3d ℚ) (j := 1) (by decide)
    exact ⟨column, θ, hcolumn, hfirst, hzero (by decide +kernel)⟩
  · obtain ⟨column, θ, hcolumn, -, hfirst, -, -, hone, -⟩ := collision_derivative hreads
      (List.cons_ne_nil _ _) (⟨0, -2, 0⟩ : Vector3d ℚ) (j := 1) (by decide)
    exact ⟨column, θ, hcolumn, hfirst, hone (by decide +kernel)⟩

/-! ## The way out -/

/-- The gradient of the first functor at `x`, entry by entry. -/
theorem gradientEntry_basic (memory : List K) {self : BasicCollisionResolutionFunction K}
    (hcolliders : self.colliders ≠ []) (x : Vector3d K) {j : Nat} (hj : j < 3) :
    let plane := self.colliders.getLast hcolliders
    gradientEntry memory (.basic self) x j =
      .ok (-(normalShare plane x j * plane.planeNormal.toList.getD j 0) * plane.intersectsPlane x) := by
  intro plane
  have hreads : CostFunctor.ReadsWithin memory.length (.basic self) := trivial
  have hresiduals : ∀ y, residualsAt memory (.basic self) y = .ok [plane.intersectsPlane y] := by
    intro y
    obtain ⟨rest, hrest, hlength⟩ := residualsAt_cons hreads hcolliders y
    have hempty : rest = [] := List.eq_nil_of_length_eq_zero (Nat.succ.inj hlength)
    rw [hrest, hempty]
    exact congrArg (fun r => Except.ok [r]) (mul_one _)
  have hdifference := difference_eq plane x hj 1
  rw [mul_one, mul_one, one_mul] at hdifference
  simp only [gradientEntry, jacobianColumn, hresiduals, Except.ok_bind, pure, Except.pure,
    List.zipWith_cons_cons, List.zipWith_nil_left, List.sum_singleton, hdifference]

/-- The shares of all three coordinates. -/
def normalShares (c : Collider K) (x : Vector3d K) : Vector3d K :=
  ⟨normalShare c x 0, normalShare c x 1, normalShare c x 2⟩

theorem blockGradient_basic (memory q : List K) {self : BasicCollisionResolutionFunction K}
    (hcolliders : self.colliders ≠ []) {b : ParameterBlock} {x : Vector3d K}
    (hx : readVector3At q b.values = .ok x) :
    let plane := self.colliders.getLast hcolliders
    blockGradient memory q ⟨.basic self, b⟩ = .ok (Vector3d.smul (-plane.intersectsPlane x)
      ((normalShares plane x).scale plane.planeNormal)) := by
  intro plane
  have hentry : ∀ j < 3, gradientEntry memory (.basic self) x j = .ok (-plane.intersectsPlane x *
      (normalShare plane x j * plane.planeNormal.toList.getD j 0)) := by
    intro j hj
    rw [gradientEntry_basic memory hcolliders x hj, neg_mul_comm, mul_comm]
  rw [blockGradient, hx, Except.ok_bind, hentry 0 (by decide), hentry 1 (by decide),
    hentry 2 (by decide)]
  rfl

/-- Of `BasicCollisionAvoidance` no descent direction leads deeper behind the plane: the
    gradient points against the normal, and away from the plane it is exactly the
    depth times the normal, or zero. -/
theorem basic_gradient (memory q : List K) {self : BasicCollisionResolutionFunction K}
    (hcolliders : self.colliders ≠ []) {b : ParameterBlock} {x : Vector3d K}
    (hx : readVector3At q b.values = .ok x) :
    let plane := self.colliders.getLast hcolliders
    let depth := (plane.planePosition - x).dot plane.planeNormal
    ∃ g, blockGradient memory q ⟨.basic self, b⟩ = .ok g ∧ g.dot plane.planeNormal ≤ 0 ∧
      (depth ≤ 0 → g = ⟨0, 0, 0⟩) ∧
      ((∀ j < 3, |delta x j * plane.planeNormal.toList.getD j 0| < depth) →
        g = Vector3d.smul (-depth) plane.planeNormal) := by
  intro plane depth
  have hmax : plane.intersectsPlane x = max depth 0 := intersectsPlane_eq_max plane x
  refine ⟨_, blockGradient_basic memory q hcolliders hx, ?_, ?_, ?_⟩
  · have hshare : ∀ j, 0 ≤ normalShare plane x j := fun j => (Ramp.share_bounds _ _).1
    have hdot : (Vector3d.smul (-plane.intersectsPlane x)
        ((normalShares plane x).scale plane.planeNormal)).dot plane.planeNormal =
        -(plane.intersectsPlane x * (normalShare plane x 0 * plane.planeNormal.x ^ 2 +
          normalShare plane x 1 * plane.planeNormal.y ^ 2 +
          normalShare plane x 2 * plane.planeNormal.z ^ 2)) := by
      simp only [Vector3d.dot, Vector3d.smul, Vector3d.scale, normalShares]
      ring
    rw [hdot, neg_nonpos, hmax]
    have hx := mul_nonneg (hshare 0) (sq_nonneg plane.planeNormal.x)
    have hy := mul_nonneg (hshare 1) (sq_nonneg plane.planeNormal.y)
    have hz := mul_nonneg (hshare 2) (sq_nonneg plane.planeNormal.z)
    exact mul_nonneg (le_max_right depth 0) (by linarith)
  · intro hfront
    rw [hmax, max_eq_right hfront]
    ext <;> simp [Vector3d.smul]
  · intro hdeep
    have hshare : ∀ j < 3, normalShare plane x j = 1 := fun j hj => Ramp.share_of_lt (hdeep j hj)
    have hdepth : 0 ≤ depth := ((abs_nonneg _).trans_lt (hdeep 0 (by decide))).le
    rw [hmax, max_eq_left hdepth, normalShares, hshare 0 (by decide), hshare 1 (by decide),
      hshare 2 (by decide)]
    have hone : (⟨1, 1, 1⟩ : Vector3d K).scale plane.planeNormal = plane.planeNormal := by
      ext <;> simp [Vector3d.scale]
    exact congrArg (Vector3d.smul (-depth)) hone

/-- A point two units below the ground is sent straight up. -/
theorem basic_gradient_below : ∃ g : Vector3d ℚ,
    blockGradient [0, -2, 0] [0, -2, 0] ⟨.basic ⟨[⟨⟨0, 0, 0⟩, ⟨0, 1, 0⟩⟩]⟩, ⟨0, 3⟩⟩ = .ok g ∧
      g = ⟨0, -2, 0⟩ := by
  have hread : readVector3At ([0, -2, 0] : List ℚ) (⟨0, 3⟩ : ParameterBlock).values =
      .ok ⟨0, -2, 0⟩ := by decide +kernel
  let self : BasicCollisionResolutionFunction ℚ := ⟨[⟨⟨0, 0, 0⟩, ⟨0, 1, 0⟩⟩]⟩
  obtain ⟨g, hg, -, -, hdeep⟩ := basic_gradient [0, -2, 0] [0, -2, 0]
    (List.cons_ne_nil _ _ : self.colliders ≠ []) hread
  refine ⟨g, hg, (hdeep ?_).trans (by decide +kernel)⟩
  decide +kernel

end Ceres
