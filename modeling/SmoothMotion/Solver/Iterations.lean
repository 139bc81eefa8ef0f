-- SUMMARY: What an iteration of the minimiser can do: the step is not taken, the step is taken, or the loop is left with one of its summaries.
import SmoothMotion.Solver.Minimizer

/-!
# Iterations

An iteration that goes on either keeps the point and shrinks the radius, or moves
to a point it has evaluated. One that returns reports the state it started from,
or the one after its step. All results about runs are derived from this
inversion.
-/

namespace Ceres

variable {K : Type} [Scalar K] {m n : Nat}

/-- What the strategy computes at a state. -/
def State.computed (s : State K m n) (env : Environment K m n) :
    LevenbergMarquardtStrategy K n × ComputedStep K n :=
  s.strategy.computeStep env.linearSolver s.jacobian s.residuals

/-- There is no step, or the linear model gets worse along it. -/
def State.Invalid (s : State K m n) (env : Environment K m n) : Prop :=
  (s.computed env).2 = .failure ∨
    ∃ δ, (s.computed env).2 = .step δ ∧ modelCostChange s.jacobian s.residuals δ < 0

/-- From `s` to `s'` no step was taken. -/
structure Unsuccessful (env : Environment K m n) (s s' : State K m n) : Prop where
  initialCost : s'.initialCost = s.initialCost
  x : s'.x = s.x
  cost : s'.cost = s.cost
  residuals : s'.residuals = s.residuals
  jacobian : s'.jacobian = s.jacobian
  scale : s'.scale = s.scale
  iterates : s'.iterates = s.iterates
  numSuccessfulSteps : s'.numSuccessfulSteps = s.numSuccessfulSteps
  numUnsuccessfulSteps : s'.numUnsuccessfulSteps = s.numUnsuccessfulSteps + 1
  numConsecutiveInvalidSteps : s'.numConsecutiveInvalidSteps =
    if s'.iterationSummary.stepIsValid then 0 else s.numConsecutiveInvalidSteps + 1
  earlier : s'.earlier = s.iterations
  iteration : s'.iterationSummary.iteration = s.iterationSummary.iteration + 1
  iterationCost : s'.iterationSummary.cost = s.cost
  iterationRadius : s'.iterationSummary.trustRegionRadius = s'.strategy.radius
  stepIsSuccessful : s'.iterationSummary.stepIsSuccessful = false
  invalid : s'.iterationSummary.stepIsValid = false → s.Invalid env
  strategy : s'.strategy = (s.computed env).1.stepRejected

/-- From `s` to `s'` a step was taken, to a point evaluated as `e`. -/
structure Accepted (env : Environment K m n) (s s' : State K m n) (δ : Fin n → K)
    (e : Evaluation K m n) : Prop where
  computed : (s.computed env).2 = .step δ
  modelCostChange_nonneg : 0 ≤ modelCostChange s.jacobian s.residuals δ
  evaluate : env.evaluator.evaluate s'.x = .ok (some e)
  moved : env.options.parameterTolerance * (euclideanNorm s.x + env.options.parameterTolerance) <
    euclideanNorm (s.x - s'.x)
  initialCost : s'.initialCost = s.initialCost
  x : s'.x = s.x + fun c => δ c * s.scale c
  cost : s'.cost = e.cost
  residuals : s'.residuals = e.residuals
  jacobian : s'.jacobian =
    if env.options.jacobiScaling then scaleColumns e.jacobian s.scale else e.jacobian
  scale : s'.scale = s.scale
  iterates : s'.iterates =
    s.iterates.update env.options s'.x e.cost (modelCostChange s.jacobian s.residuals δ)
  numSuccessfulSteps : s'.numSuccessfulSteps = s.numSuccessfulSteps + 1
  numUnsuccessfulSteps : s'.numUnsuccessfulSteps = s.numUnsuccessfulSteps
  numConsecutiveInvalidSteps : s'.numConsecutiveInvalidSteps = 0
  earlier : s'.earlier = s.iterations
  iteration : s'.iterationSummary.iteration = s.iterationSummary.iteration + 1
  iterationCost : s'.iterationSummary.cost = e.cost
  stepIsSuccessful : s'.iterationSummary.stepIsSuccessful = true
  relativeDecrease : s'.iterationSummary.relativeDecrease =
    (env.judge s s'.x e.cost (modelCostChange s.jacobian s.residuals δ)).relativeDecrease
  enough : (Ratio.finite env.options.minRelativeDecrease).lt
    s'.iterationSummary.relativeDecrease = true
  strategy : (s.computed env).1.stepAccepted s'.iterationSummary.relativeDecrease = .ok s'.strategy

/-- All ways through the body of the loop. -/
inductive Iterated (env : Environment K m n) (s : State K m n) :
    Pass (State K m n) (Summary K n) → Prop where
  | maxNumIterations (h : env.options.maxNumIterations ≤ s.iterationSummary.iteration) :
      Iterated env s (.leave (s.summary .maxNumIterations))
  | maxSolverTime (h : env.timeIsUp s.iterationSummary.iteration = true) :
      Iterated env s (.leave (s.summary .maxSolverTime))
  | linearSolverFailed (h : (s.computed env).2 = .fatalError) :
      Iterated env s (.leave (s.summary .linearSolverFailed))
  | tooManyInvalidSteps (h : s.Invalid env)
      (hmany : env.options.maxNumConsecutiveInvalidSteps ≤ s.numConsecutiveInvalidSteps + 1) :
      Iterated env s (.leave (s.summary .tooManyInvalidSteps))
  | unsuccessful {s' : State K m n}
      (hbelow : s.iterationSummary.iteration < env.options.maxNumIterations)
      (h : Unsuccessful env s s')
      (hradius : env.options.minTrustRegionRadius ≤ s'.strategy.radius) :
      Iterated env s (.again s')
  | minTrustRegionRadius {s' : State K m n}
      (hbelow : s.iterationSummary.iteration < env.options.maxNumIterations)
      (h : Unsuccessful env s s')
      (hradius : s'.strategy.radius < env.options.minTrustRegionRadius) :
      Iterated env s (.leave (s'.summary .minTrustRegionRadius))
  | parameterTolerance {δ : Fin n → K} (h : (s.computed env).2 = .step δ)
      (hshort : euclideanNorm (s.x - (s.x + fun c => δ c * s.scale c)) ≤
        env.options.parameterTolerance * (euclideanNorm s.x + env.options.parameterTolerance)) :
      Iterated env s (.leave (s.summary .parameterTolerance))
  | functionTolerance {δ : Fin n → K} {newCost : Option K} (h : (s.computed env).2 = .step δ)
      (hcost : env.evaluator.cost (s.x + fun c => δ c * s.scale c) = .ok newCost)
      (hflat : |s.cost - newCost.getD env.maxDouble| < env.options.functionTolerance * s.cost) :
      Iterated env s (.leave (s.summary .functionTolerance))
  | accepted {s' : State K m n} {δ : Fin n → K} {e : Evaluation K m n}
      (hbelow : s.iterationSummary.iteration < env.options.maxNumIterations)
      (h : Accepted env s s' δ e)
      (hgradient : env.options.gradientTolerance < maxNorm (gradientStep s'.x e.gradient)) :
      Iterated env s (.again s')
  | gradientTolerance {s' : State K m n} {δ : Fin n → K} {e : Evaluation K m n}
      (hbelow : s.iterationSummary.iteration < env.options.maxNumIterations)
      (h : Accepted env s s' δ e)
      (hgradient : maxNorm (gradientStep s'.x e.gradient) ≤ env.options.gradientTolerance) :
      Iterated env s (.leave (s'.summary .gradientTolerance))
  | evaluationFailed {δ : Fin n → K} (h : (s.computed env).2 = .step δ)
      (hfailed : env.evaluator.evaluate (s.x + fun c => δ c * s.scale c) = .ok none) :
      Iterated env s (.leave
        { s.summary .evaluationFailed with numSuccessfulSteps := s.numSuccessfulSteps + 1 })

variable {env : Environment K m n} {s : State K m n} {pass : Pass (State K m n) (Summary K n)}

/-- An unsuccessful iteration ends with the check of the radius. -/
theorem Iterated.of_checkRadius {s' : State K m n}
    (hbelow : s.iterationSummary.iteration < env.options.maxNumIterations)
    (h : Unsuccessful env s s') : Iterated env s (s'.checkRadius env.options) := by
  unfold State.checkRadius
  rw [h.iterationRadius]
  split
  · rename_i hsmall
    exact .minTrustRegionRadius hbelow h hsmall
  · rename_i hlarge
    exact .unsuccessful hbelow h (not_lt.mp hlarge)

theorem iterated_invalidStep (hbelow : s.iterationSummary.iteration < env.options.maxNumIterations)
    (h : s.Invalid env) : Iterated env s (s.invalidStep env.options (s.computed env).1) := by
  by_cases hmany : env.options.maxNumConsecutiveInvalidSteps ≤ s.numConsecutiveInvalidSteps + 1
  · simp only [State.invalidStep, if_pos hmany]
    exact .tooManyInvalidSteps h hmany
  · simp only [State.invalidStep, if_neg hmany]
    apply Iterated.of_checkRadius hbelow
    exact { initialCost := rfl, x := rfl, cost := rfl, residuals := rfl, jacobian := rfl,
            scale := rfl, iterates := rfl, numSuccessfulSteps := rfl, numUnsuccessfulSteps := rfl,
            numConsecutiveInvalidSteps := rfl, earlier := rfl, iteration := rfl,
            iterationCost := rfl, iterationRadius := rfl, stepIsSuccessful := rfl,
            invalid := fun _ => h, strategy := rfl }

section ValidStep

variable {δ : Fin n → K} (hcomputed : (s.computed env).2 = .step δ)
  (hchange : 0 ≤ modelCostChange s.jacobian s.residuals δ)
  (hbelow : s.iterationSummary.iteration < env.options.maxNumIterations)
include hcomputed hchange hbelow

theorem iterated_acceptStep {newCost : Option K}
    (hcost : env.evaluator.cost (s.x + fun c => δ c * s.scale c) = .ok newCost)
    (hmoved : env.options.parameterTolerance *
        (euclideanNorm s.x + env.options.parameterTolerance) <
      euclideanNorm (s.x - (s.x + fun c => δ c * s.scale c)))
    (henough : (Ratio.finite env.options.minRelativeDecrease).lt
      (env.judge s (s.x + fun c => δ c * s.scale c) (newCost.getD env.maxDouble)
        (modelCostChange s.jacobian s.residuals δ)).relativeDecrease = true)
    (h : env.acceptStep s (s.computed env).1
      (env.judge s (s.x + fun c => δ c * s.scale c) (newCost.getD env.maxDouble)
        (modelCostChange s.jacobian s.residuals δ))
      (s.x + fun c => δ c * s.scale c) (modelCostChange s.jacobian s.residuals δ) = .ok pass) :
    Iterated env s pass := by
  obtain ⟨strategy, hstrategy, h⟩ := Except.bind_eq_ok h
  obtain ⟨evaluation, hevaluate, h⟩ := Except.bind_eq_ok h
  cases evaluation with
  | none =>
    cases h
    exact .evaluationFailed hcomputed hevaluate
  | some e =>
    have hnew : newCost = some e.cost := by
      have hsame := env.evaluator.cost_eq hevaluate
      rw [hcost] at hsame
      exact Except.ok.inj hsame
    subst hnew
    have haccepted : Accepted env s (env.moved s strategy
        (env.judge s (s.x + fun c => δ c * s.scale c) e.cost
          (modelCostChange s.jacobian s.residuals δ))
        (s.x + fun c => δ c * s.scale c) e (modelCostChange s.jacobian s.residuals δ)) δ e :=
      { computed := hcomputed, modelCostChange_nonneg := hchange, evaluate := hevaluate,
        moved := hmoved, initialCost := rfl, x := rfl, cost := rfl, residuals := rfl,
        jacobian := rfl, scale := rfl, iterates := rfl, numSuccessfulSteps := rfl,
        numUnsuccessfulSteps := rfl, numConsecutiveInvalidSteps := rfl, earlier := rfl,
        iteration := rfl, iterationCost := rfl, stepIsSuccessful := henough,
        relativeDecrease := rfl, enough := henough, strategy := hstrategy }
    simp only at h
    split at h
    · rename_i hgradient
      cases h
      exact .gradientTolerance hbelow haccepted hgradient
    · rename_i hgradient
      cases h
      exact .accepted hbelow haccepted (not_le.mp hgradient)

theorem iterated_validStep
    (h : env.validStep s (s.computed env).1 δ (modelCostChange s.jacobian s.residuals δ) =
      .ok pass) : Iterated env s pass := by
  obtain ⟨newCost, hcost, h⟩ := Except.bind_eq_ok h
  simp only at h
  split at h
  · rename_i hshort
    cases h
    exact .parameterTolerance hcomputed hshort
  · rename_i hmoved
    split at h
    · rename_i hflat
      cases h
      exact .functionTolerance hcomputed hcost hflat
    · split at h
      · rename_i henough
        exact iterated_acceptStep hcomputed hchange hbelow hcost (not_le.mp hmoved) henough h
      · rename_i hfew
        cases h
        apply Iterated.of_checkRadius hbelow
        exact { initialCost := rfl, x := rfl, cost := rfl, residuals := rfl, jacobian := rfl,
                scale := rfl, iterates := rfl, numSuccessfulSteps := rfl,
                numUnsuccessfulSteps := rfl, numConsecutiveInvalidSteps := rfl, earlier := rfl,
                iteration := rfl, iterationCost := rfl, iterationRadius := rfl,
                stepIsSuccessful := Bool.eq_false_of_not_eq_true hfew,
                invalid := fun hvalid => by simp [State.unsuccessful, Environment.judge] at hvalid,
                strategy := rfl }

end ValidStep

/-- Every way the body of the loop ends is one of these. -/
theorem iterated_iteration (h : env.iteration s = .ok pass) : Iterated env s pass := by
  unfold Environment.iteration at h
  split at h
  · rename_i hmax
    cases h
    exact .maxNumIterations hmax
  · rename_i hbelow
    rw [not_le] at hbelow
    split at h
    · rename_i htime
      cases h
      exact .maxSolverTime htime
    · split at h
      rename_i strategy computed hstep
      have hcomputed : s.computed env = (strategy, computed) := hstep
      have hstrategy : strategy = (s.computed env).1 := by rw [hcomputed]
      have hresult : (s.computed env).2 = computed := by rw [hcomputed]
      subst hstrategy
      cases computed with
      | fatalError =>
        cases h
        exact .linearSolverFailed hresult
      | failure =>
        cases h
        exact iterated_invalidStep hbelow (.inl hresult)
      | step δ =>
        simp only at h
        split at h
        · rename_i hnegative
          cases h
          exact iterated_invalidStep hbelow (.inr ⟨δ, hresult, hnegative⟩)
        · rename_i hchange
          exact iterated_validStep hresult (not_lt.mp hchange) hbelow h

/-! ## The loop -/

theorem ranks_iteration (env : Environment K m n) : Ranks env.iteration env.remaining := by
  intro s s' h
  have hdrop : s.iterationSummary.iteration < env.options.maxNumIterations ∧
      s'.iterationSummary.iteration = s.iterationSummary.iteration + 1 := by
    cases iterated_iteration h with
    | unsuccessful hbelow h _ => exact ⟨hbelow, h.iteration⟩
    | accepted hbelow h _ => exact ⟨hbelow, h.iteration⟩
  unfold Environment.remaining
  omega

/-- `Minimize`. -/
def Environment.minimize (env : Environment K m n) (strategy : LevenbergMarquardtStrategy K n)
    (parameters : Fin n → K) : Except Fault (Summary K n) := do
  match ← env.begin strategy parameters with
  | .leave summary => return summary
  | .again s => whileTrue env.iteration env.remaining (ranks_iteration env) s

/-- A minimisation from `parameters` has come to the head of the loop with `s`. -/
def Environment.Reaches (env : Environment K m n) (strategy : LevenbergMarquardtStrategy K n)
    (parameters : Fin n → K) (s : State K m n) : Prop :=
  ∃ s₀, env.begin strategy parameters = .ok (.again s₀) ∧ Passes env.iteration s₀ s

variable {strategy : LevenbergMarquardtStrategy K n} {parameters : Fin n → K}
  {summary : Summary K n}

/-- A state at which the loop begins, and the evaluation it begins with. -/
structure Begun (env : Environment K m n) (strategy : LevenbergMarquardtStrategy K n)
    (parameters : Fin n → K) (s : State K m n) (e : Evaluation K m n) : Prop where
  evaluate : env.evaluator.evaluate parameters = .ok (some e)
  gradient : env.options.gradientTolerance < maxNorm (gradientStep parameters e.gradient)
  initialCost : s.initialCost = e.cost
  x : s.x = parameters
  cost : s.cost = e.cost
  residuals : s.residuals = e.residuals
  jacobian : s.jacobian =
    if env.options.jacobiScaling then scaleColumns e.jacobian s.scale else e.jacobian
  scale : s.scale = if env.options.jacobiScaling then estimateScale e.jacobian else fun _ => 1
  strategy : s.strategy = strategy
  iterates : s.iterates = ⟨parameters, e.cost, e.cost, e.cost, 0, 0, 0⟩
  numConsecutiveInvalidSteps : s.numConsecutiveInvalidSteps = 0
  numSuccessfulSteps : s.numSuccessfulSteps = 0
  numUnsuccessfulSteps : s.numUnsuccessfulSteps = 0
  earlier : s.earlier = []
  iteration : s.iterationSummary.iteration = 0
  iterationCost : s.iterationSummary.cost = e.cost
  stepIsSuccessful : s.iterationSummary.stepIsSuccessful = false

/-- The first evaluation fails, finds the gradient small, or the loop begins. -/
theorem begin_cases {pass : Pass (State K m n) (Summary K n)}
    (h : env.begin strategy parameters = .ok pass) :
    (env.evaluator.evaluate parameters = .ok none ∧
      pass = .leave ⟨.initialEvaluationFailed, parameters, -1, 0, 0, []⟩) ∨
    (∃ e it, env.evaluator.evaluate parameters = .ok (some e) ∧
      maxNorm (gradientStep parameters e.gradient) ≤ env.options.gradientTolerance ∧
      pass = .leave ⟨.gradientTolerance, parameters, e.cost, 0, 0, [it]⟩ ∧
      it.iteration = 0 ∧ it.cost = e.cost ∧ it.stepIsSuccessful = false) ∨
    ∃ s e, pass = .again s ∧ Begun env strategy parameters s e := by
  obtain ⟨evaluation, hevaluate, h⟩ := Except.bind_eq_ok h
  cases evaluation with
  | none =>
    cases h
    exact .inl ⟨hevaluate, rfl⟩
  | some e =>
    simp only at h
    split at h
    · rename_i hgradient
      cases h
      exact .inr (.inl ⟨e, _, hevaluate, hgradient, rfl, rfl, rfl, rfl⟩)
    · rename_i hgradient
      cases h
      exact .inr (.inr ⟨_, e, rfl,
        { evaluate := hevaluate, gradient := not_le.mp hgradient, initialCost := rfl, x := rfl,
          cost := rfl, residuals := rfl, jacobian := rfl, scale := rfl, strategy := rfl,
          iterates := rfl, numConsecutiveInvalidSteps := rfl, numSuccessfulSteps := rfl,
          numUnsuccessfulSteps := rfl, earlier := rfl, iteration := rfl, iterationCost := rfl,
          stepIsSuccessful := rfl }⟩)

/-- A minimisation that returns, returns before the loop or from a state of it. -/
theorem minimize_cases (h : env.minimize strategy parameters = .ok summary) :
    env.begin strategy parameters = .ok (.leave summary) ∨
    ∃ s, env.Reaches strategy parameters s ∧ Iterated env s (.leave summary) := by
  obtain ⟨pass, hbegin, h⟩ := Except.bind_eq_ok h
  cases pass with
  | leave r =>
    cases h
    exact .inl hbegin
  | again s₀ =>
    obtain ⟨s, hpasses, hleave⟩ := whileTrue_eq_ok h
    exact .inr ⟨s, ⟨s₀, hbegin, hpasses⟩, iterated_iteration hleave⟩

/-- A run is at its first state, or has come one step further: induction over the
    states it comes to. -/
theorem Environment.Reaches.induction {Inv : State K m n → Prop}
    (hbegun : ∀ s e, env.Reaches strategy parameters s → Begun env strategy parameters s e → Inv s)
    (hunsuccessful : ∀ s s', env.Reaches strategy parameters s →
      s.iterationSummary.iteration < env.options.maxNumIterations → Inv s →
      Unsuccessful env s s' → env.options.minTrustRegionRadius ≤ s'.strategy.radius → Inv s')
    (haccepted : ∀ s s' δ e, env.Reaches strategy parameters s' →
      s.iterationSummary.iteration < env.options.maxNumIterations → Inv s → Accepted env s s' δ e →
      env.options.gradientTolerance < maxNorm (gradientStep s'.x e.gradient) → Inv s')
    {s : State K m n} (h : env.Reaches strategy parameters s) : Inv s := by
  obtain ⟨s₀, hbegin, hpasses⟩ := h
  have hreaches : env.Reaches strategy parameters s₀ := ⟨s₀, hbegin, .refl⟩
  have hinit : Inv s₀ := by
    obtain ⟨-, heq⟩ | ⟨e, it, -, -, heq, -⟩ | ⟨s, e, heq, hbegun'⟩ := begin_cases hbegin
    · cases heq
    · cases heq
    · cases heq
      exact hbegun s₀ e hreaches hbegun'
  have hboth : env.Reaches strategy parameters s ∧ Inv s := by
    apply hpasses.invariant _ ⟨hreaches, hinit⟩
    rintro s s' ⟨⟨s₁, hbegin₁, hpasses₁⟩, hinv⟩ hbody
    have hnext : env.Reaches strategy parameters s' := ⟨s₁, hbegin₁, hpasses₁.tail hbody⟩
    refine ⟨hnext, ?_⟩
    cases iterated_iteration hbody with
    | unsuccessful hbelow h hradius =>
      exact hunsuccessful s s' ⟨s₁, hbegin₁, hpasses₁⟩ hbelow hinv h hradius
    | accepted hbelow h hgradient => exact haccepted s s' _ _ hnext hbelow hinv h hgradient
  exact hboth.2

/-- What the first state has and every step keeps, holds in every state of a run. -/
theorem Environment.Reaches.invariant {Inv : State K m n → Prop}
    (hbegun : ∀ s e, Begun env strategy parameters s e → Inv s)
    (hunsuccessful : ∀ s s', s.iterationSummary.iteration < env.options.maxNumIterations →
      Inv s → Unsuccessful env s s' → env.options.minTrustRegionRadius ≤ s'.strategy.radius →
      Inv s')
    (haccepted : ∀ s s' δ e, s.iterationSummary.iteration < env.options.maxNumIterations →
      Inv s → Accepted env s s' δ e →
      env.options.gradientTolerance < maxNorm (gradientStep s'.x e.gradient) → Inv s')
    {s : State K m n} (h : env.Reaches strategy parameters s) : Inv s :=
  h.induction (fun s e _ => hbegun s e) (fun s s' _ => hunsuccessful s s')
    fun s s' δ e _ => haccepted s s' δ e

end Ceres
