-- SUMMARY: With a linear solver that solves the damped normal equations, every step is valid and the cost goes down with every step taken.
import Mathlib.Algebra.BigOperators.Field
import SmoothMotion.Lib.LeastSquares
import SmoothMotion.Solver.Radius

/-!
# Steps from an exact linear solver

The damping of the Levenberg-Marquardt strategy never vanishes, so the damped
normal equations have a solution along which the linear model improves. The
minimiser then has no invalid steps, and without nonmonotonic steps the point it
is at is always the best one.
-/

namespace Ceres

variable {K : Type} [Scalar K] {m n : Nat} {env : Environment K m n}
  {strategy : LevenbergMarquardtStrategy K n} {parameters : Fin n → K} {s s' : State K m n}
  {δ : Fin n → K} {e : Evaluation K m n}

/-- The solver solves the damped normal equations whenever no direction is undamped. -/
def LinearSolver.Exact (linearSolver : LinearSolver K m n) : Prop :=
  ∀ J r D, (∀ c, 0 < D c) → ∃ y, linearSolver J r D = ⟨.success, some y⟩ ∧
    LeastSquares.NormalEquations J r D (-y)

/-- A square root that keeps positive numbers positive. -/
def SqrtPositive (K : Type) [Scalar K] : Prop := ∀ a : K, 0 < a → 0 < Scalar.sqrt a

/-- `model_cost_change` is what the linear model says. -/
theorem modelCostChange_eq (J : Matrix (Fin m) (Fin n) K) (r : Fin m → K) (δ : Fin n → K) :
    modelCostChange J r δ = LeastSquares.halfSquare r - LeastSquares.model J r δ := by
  have hhalf : dotProduct (J.mulVec δ) (fun i => J.mulVec δ i / 2) =
      LeastSquares.halfSquare (J.mulVec δ) := by
    simp only [LeastSquares.halfSquare_eq, dotProduct, Finset.sum_div]
    exact Finset.sum_congr rfl fun i _ => (mul_div_assoc _ _ _).symm
  have hchange : modelCostChange J r δ =
      -dotProduct (J.mulVec δ) (r + fun i => J.mulVec δ i / 2) := rfl
  rw [hchange, dotProduct_add, hhalf, LeastSquares.model, LeastSquares.halfSquare_add,
    dotProduct_comm r]
  ring

/-! ## The damping -/

/-- The strategy damps every direction. -/
structure Damps (strategy : LevenbergMarquardtStrategy K n) : Prop where
  minDiagonal : 0 < strategy.minDiagonal
  min_le_max : strategy.minDiagonal ≤ strategy.maxDiagonal
  diagonal : strategy.reuseDiagonal → ∀ c, 0 < strategy.diagonal c

theorem Damps.dampingDiagonal_pos (h : Damps strategy) (J : Matrix (Fin m) (Fin n) K)
    (c : Fin n) : 0 < strategy.dampingDiagonal J c := by
  unfold LevenbergMarquardtStrategy.dampingDiagonal
  split
  · rename_i hreuse
    exact h.diagonal hreuse c
  · exact lt_min (lt_max_of_lt_right h.minDiagonal) (h.minDiagonal.trans_le h.min_le_max)

theorem Damps.lmDiagonal_pos (hsqrt : SqrtPositive K) (h : Damps strategy)
    (hradius : 0 < strategy.radius) (J : Matrix (Fin m) (Fin n) K) (c : Fin n) :
    0 < strategy.lmDiagonal J c :=
  hsqrt _ (div_pos (h.dampingDiagonal_pos J c) hradius)

theorem Environment.Creates.damps (hcreate : env.Creates strategy) : Damps strategy := by
  obtain ⟨rfl, hmin, hle, -⟩ := LevenbergMarquardtStrategy.create_eq_ok hcreate
  exact ⟨hmin, hle, fun hreuse => by cases hreuse⟩

theorem Damps.unsuccessful (h : Damps s.strategy) (hstep : Unsuccessful env s s') :
    Damps s'.strategy := by
  rw [hstep.strategy, State.computed_fst]
  exact ⟨h.minDiagonal, h.min_le_max, fun _ => h.dampingDiagonal_pos s.jacobian⟩

theorem Damps.accepted (h : Damps s.strategy) (hstep : Accepted env s s' δ e) :
    Damps s'.strategy := by
  rw [LevenbergMarquardtStrategy.stepAccepted_eq_ok hstep.strategy, State.computed_fst]
  exact ⟨h.minDiagonal, h.min_le_max, fun hreuse => by cases hreuse⟩

/-! ## The step -/

/-- `δ` is the step of the strategy at `s`, and solves the damped normal equations. -/
structure Solves (env : Environment K m n) (s : State K m n) (δ : Fin n → K) : Prop where
  computed : (s.computed env).2 = .step δ
  normal : LeastSquares.NormalEquations s.jacobian s.residuals
    (s.strategy.lmDiagonal s.jacobian) δ
  damped : ∀ c, 0 < s.strategy.lmDiagonal s.jacobian c

theorem Damps.solves (hsqrt : SqrtPositive K) (hexact : env.linearSolver.Exact)
    (h : Damps s.strategy) (hradius : 0 < s.strategy.radius) : ∃ δ, Solves env s δ := by
  have hdamped := h.lmDiagonal_pos hsqrt hradius s.jacobian
  obtain ⟨y, hsolve, hnormal⟩ :=
    hexact s.jacobian s.residuals (s.strategy.lmDiagonal s.jacobian) hdamped
  refine ⟨-y, ?_, hnormal, hdamped⟩
  simp [State.computed, LevenbergMarquardtStrategy.computeStep, hsolve]

theorem Solves.modelCostChange_nonneg (h : Solves env s δ) :
    0 ≤ modelCostChange s.jacobian s.residuals δ := by
  rw [modelCostChange_eq, h.normal.model_decrease]
  linarith [LeastSquares.halfSquare_nonneg (s.jacobian.mulVec δ),
    LeastSquares.halfSquare_nonneg (s.strategy.lmDiagonal s.jacobian * δ)]

theorem Solves.valid (h : Solves env s δ) : ¬ s.Invalid env := by
  rintro (hfailure | ⟨δ', hstep, hnegative⟩)
  · rw [h.computed] at hfailure
    cases hfailure
  · rw [h.computed] at hstep
    cases hstep
    exact hnegative.not_ge h.modelCostChange_nonneg

/-! ## The cost of accepted steps -/

theorem euclideanNorm_nonneg (hsqrt : SqrtPositive K) (v : Fin n → K) : 0 ≤ euclideanNorm v := by
  have hsum : 0 ≤ dotProduct v v := Finset.sum_nonneg fun i _ => mul_self_nonneg (v i)
  obtain hzero | hpos := hsum.eq_or_lt
  · have hsqrt_zero := Scalar.sqrt_mul_self (0 : K) le_rfl
    rw [zero_mul] at hsqrt_zero
    rw [euclideanNorm, ← hzero, hsqrt_zero]
  · exact (hsqrt _ hpos).le

/-- A step far enough to be judged is not zero. -/
theorem Accepted.step_ne_zero (hsqrt : SqrtPositive K) (hvalid : env.options.IsValid)
    (h : Accepted env s s' δ e) : δ ≠ 0 := by
  rintro rfl
  have hmoved := h.moved
  have hstay : s.x - s'.x = 0 := by
    rw [h.x]
    ext c
    simp
  have hnorm : euclideanNorm (0 : Fin n → K) = 0 := by
    have hsqrt_zero := Scalar.sqrt_mul_self (0 : K) le_rfl
    simpa [euclideanNorm] using hsqrt_zero
  have htolerance : 0 ≤ env.options.parameterTolerance *
      (euclideanNorm s.x + env.options.parameterTolerance) :=
    mul_nonneg hvalid.parameterTolerance
      (add_nonneg (euclideanNorm_nonneg hsqrt _) hvalid.parameterTolerance)
  rw [hstay, hnorm] at hmoved
  exact hmoved.not_ge htolerance

/-- Without nonmonotonic steps, a step that solves the normal equations is only taken
    if it gains more than the required part of what the model promises. -/
theorem Accepted.gain (hsqrt : SqrtPositive K) (hvalid : env.options.IsValid)
    (hmonotonic : env.options.useNonmonotonicSteps = false) (hsolves : Solves env s δ)
    (h : Accepted env s s' δ e) : 0 < modelCostChange s.jacobian s.residuals δ ∧
    env.options.minRelativeDecrease * modelCostChange s.jacobian s.residuals δ <
      s.cost - s'.cost := by
  have hpos : 0 < modelCostChange s.jacobian s.residuals δ := by
    rw [modelCostChange_eq]
    exact hsolves.normal.model_decrease_pos (fun c => (hsolves.damped c).ne')
      (h.step_ne_zero hsqrt hvalid)
  have henough := h.enough
  rw [h.relativeDecrease] at henough
  simp only [Environment.judge, hmonotonic, Bool.false_eq_true, if_false,
    Ratio.div_of_ne_zero hpos.ne', Ratio.lt, decide_eq_true_eq] at henough
  rw [h.cost]
  exact ⟨hpos, (lt_div_iff₀ hpos).mp henough⟩

theorem Accepted.cost_lt (hsqrt : SqrtPositive K) (hvalid : env.options.IsValid)
    (hmonotonic : env.options.useNonmonotonicSteps = false) (hsolves : Solves env s δ)
    (h : Accepted env s s' δ e) : s'.cost < s.cost := by
  obtain ⟨hpos, hgain⟩ := h.gain hsqrt hvalid hmonotonic hsolves
  linarith [mul_nonneg hvalid.minRelativeDecrease hpos.le]

/-! ## Whole runs -/

/-- The costs never go up, and go down at each successful iteration. -/
def Descending (iterations : List (IterationSummary K)) : Prop :=
  iterations.Pairwise fun it it' =>
    it'.cost ≤ it.cost ∧ (it'.stepIsSuccessful = true → it'.cost < it.cost)

/-- The point is the best one, no iteration cost less, and no step was invalid. -/
structure Descends (s : State K m n) : Prop where
  damps : Damps s.strategy
  xMin : s.iterates.xMin = s.x
  minimumCost : s.iterates.minimumCost = s.cost
  least : ∀ it ∈ s.iterations, s.cost ≤ it.cost
  descending : Descending s.iterations
  valid : s.numConsecutiveInvalidSteps = 0

theorem Begun.descends (hcreate : env.Creates strategy) (h : Begun env strategy parameters s e) :
    Descends s where
  damps := by
    rw [h.strategy]
    exact hcreate.damps
  xMin := by rw [h.iterates, h.x]
  minimumCost := by rw [h.iterates, h.cost]
  least := by simp [State.iterations, h.earlier, h.iterationCost, h.cost]
  descending := by simp [Descending, State.iterations, h.earlier]
  valid := h.numConsecutiveInvalidSteps

/-- The iterations of the next state, whose cost is no higher. -/
theorem Descends.snoc (h : Descends s) (hearlier : s'.earlier = s.iterations)
    (hcost : s'.iterationSummary.cost = s'.cost) (hle : s'.cost ≤ s.cost)
    (hlt : s'.iterationSummary.stepIsSuccessful = true → s'.cost < s.cost) :
    (∀ it ∈ s'.iterations, s'.cost ≤ it.cost) ∧ Descending s'.iterations := by
  rw [State.iterations, hearlier]
  constructor
  · intro it hit
    rw [List.mem_append, List.mem_singleton] at hit
    rcases hit with hmem | rfl
    · exact hle.trans (h.least it hmem)
    · exact hcost.ge
  · rw [Descending, List.pairwise_append]
    refine ⟨h.descending, List.pairwise_singleton _ _, ?_⟩
    intro it hit it' hit'
    rw [List.mem_singleton] at hit'
    subst hit'
    rw [hcost]
    exact ⟨hle.trans (h.least it hit), fun hsuccess => (hlt hsuccess).trans_le (h.least it hit)⟩

theorem Descends.unsuccessful (hvalid : ¬ s.Invalid env) (h : Descends s)
    (hstep : Unsuccessful env s s') : Descends s' := by
  have hcost : s'.iterationSummary.cost = s'.cost := by rw [hstep.iterationCost, hstep.cost]
  have hstepValid : s'.iterationSummary.stepIsValid = true := by
    by_contra hinvalid
    exact hvalid (hstep.invalid (Bool.eq_false_of_not_eq_true hinvalid))
  obtain ⟨hleast, hdescending⟩ := h.snoc hstep.earlier hcost hstep.cost.le
    fun hsuccess => by simp [hstep.stepIsSuccessful] at hsuccess
  exact { damps := h.damps.unsuccessful hstep, xMin := by rw [hstep.iterates, hstep.x, h.xMin],
          minimumCost := by rw [hstep.iterates, hstep.cost, h.minimumCost], least := hleast,
          descending := hdescending,
          valid := by rw [hstep.numConsecutiveInvalidSteps, hstepValid, if_pos rfl] }

theorem Descends.accepted (hlt : s'.cost < s.cost) (h : Descends s)
    (hstep : Accepted env s s' δ e) : Descends s' := by
  have hcost : s'.iterationSummary.cost = s'.cost := by rw [hstep.iterationCost, hstep.cost]
  obtain ⟨hleast, hdescending⟩ := h.snoc hstep.earlier hcost hlt.le fun _ => hlt
  obtain ⟨hminimum, hxMin⟩ := Iterates.update_minimumCost env.options s.iterates s'.x e.cost
    (modelCostChange s.jacobian s.residuals δ)
  have hbetter : e.cost < s.iterates.minimumCost := by rwa [h.minimumCost, ← hstep.cost]
  rw [← hstep.iterates] at hminimum hxMin
  exact { damps := h.damps.accepted hstep, xMin := by rw [hxMin, if_pos hbetter],
          minimumCost := by rw [hminimum, min_eq_left hbetter.le, hstep.cost], least := hleast,
          descending := hdescending, valid := hstep.numConsecutiveInvalidSteps }

theorem Solves.unique {δ' : Fin n → K} (h : Solves env s δ)
    (hcomputed : (s.computed env).2 = .step δ') : δ' = δ := by
  rw [h.computed] at hcomputed
  exact (ComputedStep.step.inj hcomputed).symm

theorem Environment.Reaches.damps (hcreate : env.Creates strategy)
    (h : env.Reaches strategy parameters s) : Damps s.strategy :=
  h.invariant (fun _ _ hbegun => hbegun.strategy ▸ hcreate.damps)
    (fun _ _ _ hdamps h _ => hdamps.unsuccessful h) (fun _ _ _ _ _ hdamps h _ => hdamps.accepted h)

section Exact

variable (hvalid : env.options.IsValid) (hcreate : env.Creates strategy)
  (hsqrt : SqrtPositive K) (hexact : env.linearSolver.Exact)
  (hmonotonic : env.options.useNonmonotonicSteps = false)
include hvalid hcreate hsqrt hexact

theorem Environment.Reaches.solves (h : env.Reaches strategy parameters s) :
    ∃ δ, Solves env s δ :=
  (h.damps hcreate).solves hsqrt hexact (h.bounded hvalid hcreate).pos

include hmonotonic

theorem Environment.Reaches.descends (h : env.Reaches strategy parameters s) : Descends s := by
  let Inv : State K m n → Prop := fun s => Descends s ∧ Bounded env.options s
  have hinv : Inv s := by
    apply h.invariant
    · intro s e hbegun
      exact ⟨hbegun.descends hcreate, hbegun.bounded hvalid hcreate⟩
    · rintro s s' - ⟨hdescends, hbounded⟩ hstep hradius
      obtain ⟨δ, hsolves⟩ := hdescends.damps.solves hsqrt hexact hbounded.pos
      exact ⟨hdescends.unsuccessful hsolves.valid hstep, hbounded.unsuccessful hstep hradius⟩
    · rintro s s' δ e - ⟨hdescends, hbounded⟩ hstep -
      obtain ⟨δ', hsolves⟩ := hdescends.damps.solves hsqrt hexact hbounded.pos
      obtain rfl := hsolves.unique hstep.computed
      have hlt := hstep.cost_lt hsqrt hvalid hmonotonic hsolves
      exact ⟨hdescends.accepted hlt hstep, hbounded.accepted hvalid hstep⟩
  exact hinv.1

end Exact

/-- With an exact linear solver and no nonmonotonic steps, in every state of a
    minimisation the step is the best damped step of the linear model and does not
    make it worse, the point is the best one so far, and the costs have gone down
    at each successful iteration. The minimiser gives up neither on the linear
    solver nor on invalid steps. -/
theorem exact_steps_descend (hvalid : env.options.IsValid) (hcreate : env.Creates strategy)
    (hsqrt : SqrtPositive K) (hexact : env.linearSolver.Exact)
    (hmonotonic : env.options.useNonmonotonicSteps = false)
    (h : env.Reaches strategy parameters s) :
    (∃ δ, (s.computed env).2 = .step δ ∧ 0 ≤ modelCostChange s.jacobian s.residuals δ ∧
      ∀ δ', LeastSquares.model s.jacobian s.residuals δ +
          LeastSquares.halfSquare (s.strategy.lmDiagonal s.jacobian * δ) ≤
        LeastSquares.model s.jacobian s.residuals δ' +
          LeastSquares.halfSquare (s.strategy.lmDiagonal s.jacobian * δ')) ∧
    s.iterates.xMin = s.x ∧ Descending s.iterations ∧
    ∀ summary, env.iteration s = .ok (.leave summary) →
      summary.reason ≠ .linearSolverFailed ∧ summary.reason ≠ .tooManyInvalidSteps := by
  have hdescends := h.descends hvalid hcreate hsqrt hexact hmonotonic
  obtain ⟨δ, hsolves⟩ := h.solves hvalid hcreate hsqrt hexact
  refine ⟨⟨δ, hsolves.computed, hsolves.modelCostChange_nonneg, hsolves.normal.minimal⟩,
    hdescends.xMin, hdescends.descending, ?_⟩
  intro summary hleave
  cases iterated_iteration hleave with
  | linearSolverFailed hfatal =>
    rw [hsolves.computed] at hfatal
    cases hfatal
  | tooManyInvalidSteps hinvalid _ => exact absurd hinvalid hsolves.valid
  | maxNumIterations _ => exact ⟨nofun, nofun⟩
  | maxSolverTime _ => exact ⟨nofun, nofun⟩
  | minTrustRegionRadius _ _ _ => exact ⟨nofun, nofun⟩
  | parameterTolerance _ _ => exact ⟨nofun, nofun⟩
  | functionTolerance _ _ _ => exact ⟨nofun, nofun⟩
  | gradientTolerance _ _ _ => exact ⟨nofun, nofun⟩
  | evaluationFailed _ _ => exact ⟨nofun, nofun⟩

/-! ## The fit of one number -/

theorem fit_exact : fit.linearSolver.Exact := by
  intro J r D hD
  refine ⟨_, rfl, ?_⟩
  ext c
  obtain rfl : c = 0 := Subsingleton.elim _ _
  have hpos : 0 < J 0 0 * J 0 0 + D 0 * D 0 :=
    add_pos_of_nonneg_of_pos (mul_self_nonneg _) (mul_pos (hD 0) (hD 0))
  have hne : J 0 0 ^ 2 + D 0 ^ 2 ≠ 0 := by simpa [sq] using hpos.ne'
  simp only [Pi.add_apply, Pi.mul_apply, Pi.neg_apply, Matrix.mulVec, dotProduct,
    Matrix.transpose_apply, Finset.univ_unique, Fin.default_eq_zero, Finset.sum_singleton]
  field_simp
  ring

theorem sqrtPositive_rat : SqrtPositive ℚ := by
  intro a ha
  have hnum : 0 < Int.sqrt a.num := by
    have hpos : 0 < a.num.toNat := by simpa using ha
    exact Int.natCast_pos.mpr (Nat.sqrt_pos.mpr hpos)
  have hden : 0 < Nat.sqrt a.den := Nat.sqrt_pos.mpr a.den_pos
  change 0 < mkRat (Int.sqrt a.num) (Nat.sqrt a.den)
  rw [Rat.mkRat_eq_div]
  exact div_pos (by exact_mod_cast hnum) (by exact_mod_cast hden)

theorem exact_steps_descend_fit : ∃ s, fit.Reaches fitStrategy (fun _ => 3) s ∧
    s.iterates.xMin = s.x ∧ Descending s.iterations := by
  obtain ⟨s, hreaches⟩ := fit_reaches
  obtain ⟨-, hxMin, hdescending, -⟩ := exact_steps_descend Options.isValid_default fit_creates
    sqrtPositive_rat fit_exact rfl hreaches
  exact ⟨s, hreaches, hxMin, hdescending⟩

end Ceres
