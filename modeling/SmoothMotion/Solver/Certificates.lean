-- SUMMARY: What the reason of a return says about the parameters that are returned.
import SmoothMotion.Solver.ExactSteps

/-!
# Reasons

A minimisation ends for one of ten reasons. With an exact linear solver and steps
that never go up, each of them is true of the parameters that come with it, and two
of the failures are not among them.
-/

namespace Ceres

variable {K : Type} [Scalar K] {m n : Nat} {env : Environment K m n}
  {strategy : LevenbergMarquardtStrategy K n} {parameters : Fin n → K} {s : State K m n}
  {summary : Summary K n}

/-- A step the strategy computes at a state of the run, and where it leads. -/
def StepFrom (env : Environment K m n) (strategy : LevenbergMarquardtStrategy K n)
    (parameters x x' : Fin n → K) : Prop :=
  ∃ s δ, env.Reaches strategy parameters s ∧ s.x = x ∧
    (s.computed env).2 = .step δ ∧ x' = x + fun c => δ c * s.scale c

/-- What a reason says about the parameters, the final cost and the last iteration. -/
def Summary.Certified (summary : Summary K n) (env : Environment K m n)
    (strategy : LevenbergMarquardtStrategy K n) (parameters : Fin n → K) : Prop :=
  match summary.reason with
  | .initialEvaluationFailed =>
    summary.parameters = parameters ∧ env.evaluator.evaluate parameters = .ok none
  | .evaluationFailed => ∃ x, StepFrom env strategy parameters summary.parameters x ∧
      env.evaluator.evaluate x = .ok none
  | .linearSolverFailed => False
  | .tooManyInvalidSteps => False
  | .maxNumIterations => ∃ it, summary.iterations.getLast? = some it ∧
      env.options.maxNumIterations ≤ it.iteration
  | .maxSolverTime => ∃ it, summary.iterations.getLast? = some it ∧
      env.timeIsUp it.iteration = true
  | .gradientTolerance => ∃ e, env.evaluator.evaluate summary.parameters = .ok (some e) ∧
      maxNorm e.gradient ≤ env.options.gradientTolerance
  | .parameterTolerance => ∃ x, StepFrom env strategy parameters summary.parameters x ∧
      euclideanNorm (summary.parameters - x) ≤ env.options.parameterTolerance *
        (euclideanNorm summary.parameters + env.options.parameterTolerance)
  | .functionTolerance => ∃ x cost, StepFrom env strategy parameters summary.parameters x ∧
      env.evaluator.cost x = .ok cost ∧ |summary.finalCost - cost.getD env.maxDouble| <
        env.options.functionTolerance * summary.finalCost
  | .minTrustRegionRadius => ∃ it, summary.iterations.getLast? = some it ∧
      it.trustRegionRadius < env.options.minTrustRegionRadius

theorem gradientStep_eq (x gradient : Fin n → K) : gradientStep x gradient = gradient := by
  ext c
  simp [gradientStep]

omit [Scalar K] in
theorem getLast?_iterations (s : State K m n) :
    s.iterations.getLast? = some s.iterationSummary := by
  simp [State.iterations]

section Exact

variable (hvalid : env.options.IsValid) (hcreate : env.Creates strategy)
  (hsqrt : SqrtPositive K) (hexact : env.linearSolver.Exact)
  (hmonotonic : env.options.useNonmonotonicSteps = false)
include hvalid hcreate hsqrt hexact hmonotonic

/-- Whatever reason a minimisation gives for its end, it is true of what is returned. -/
theorem minimize_certified (h : env.minimize strategy parameters = .ok summary) :
    summary.Certified env strategy parameters := by
  obtain hbegin | ⟨s, hreaches, hiterated⟩ := minimize_cases h
  · obtain ⟨hevaluate, heq⟩ | ⟨e, it, hevaluate, hgradient, heq, -⟩ | ⟨s, e, heq, -⟩ :=
      begin_cases hbegin
    · cases heq
      exact ⟨rfl, hevaluate⟩
    · cases heq
      rw [gradientStep_eq] at hgradient
      exact ⟨e, hevaluate, hgradient⟩
    · cases heq
  · have hdescends := hreaches.descends hvalid hcreate hsqrt hexact hmonotonic
    obtain ⟨δ', hsolves⟩ := hreaches.solves hvalid hcreate hsqrt hexact
    have hparameters : ∀ reason, (s.summary reason).parameters = s.x := fun _ => hdescends.xMin
    have hfinal : ∀ reason, (s.summary reason).finalCost = s.cost := by
      intro reason
      rw [← hdescends.minimumCost, ← hreaches.best.least]
      rfl
    have hstep : ∀ δ, (s.computed env).2 = .step δ →
        StepFrom env strategy parameters s.iterates.xMin (s.x + fun c => δ c * s.scale c) := by
      intro δ hcomputed
      rw [hdescends.xMin]
      exact ⟨s, δ, hreaches, rfl, hcomputed, rfl⟩
    cases hiterated with
    | maxNumIterations hmax => exact ⟨_, getLast?_iterations s, hmax⟩
    | maxSolverTime htime => exact ⟨_, getLast?_iterations s, htime⟩
    | linearSolverFailed hfatal =>
      rw [hsolves.computed] at hfatal
      cases hfatal
    | tooManyInvalidSteps hinvalid _ => exact absurd hinvalid hsolves.valid
    | @minTrustRegionRadius s' _ hstep hradius =>
      refine ⟨_, getLast?_iterations s', ?_⟩
      rw [hstep.iterationRadius]
      exact hradius
    | parameterTolerance hcomputed hshort =>
      refine ⟨_, hstep _ hcomputed, ?_⟩
      rw [hparameters]
      exact hshort
    | functionTolerance hcomputed hcost hflat =>
      refine ⟨_, _, hstep _ hcomputed, hcost, ?_⟩
      rw [hfinal]
      exact hflat
    | @gradientTolerance s' δ e _ hstep hgradient =>
      obtain rfl := hsolves.unique hstep.computed
      have hlt := hstep.cost_lt hsqrt hvalid hmonotonic hsolves
      have hmoved := (hdescends.accepted hlt hstep).xMin
      have hevaluate := hstep.evaluate
      rw [← hmoved] at hevaluate
      rw [gradientStep_eq] at hgradient
      exact ⟨e, hevaluate, hgradient⟩
    | evaluationFailed hcomputed hfailed => exact ⟨_, hstep _ hcomputed, hfailed⟩

end Exact

/-- The fit of one number ends for a step too short, and it is. -/
theorem minimize_certified_fit : ∃ summary,
    fit.minimize fitStrategy (fun _ => 3) = .ok summary ∧ summary.reason = .parameterTolerance ∧
      summary.Certified fit fitStrategy (fun _ => 3) := by
  obtain ⟨summary, hrun, hreason⟩ := fit_returns
  exact ⟨summary, hrun, hreason, minimize_certified Options.isValid_default fit_creates
    sqrtPositive_rat fit_exact rfl hrun⟩

end Ceres
