-- SUMMARY: What a whole minimisation keeps: the best point with the least cost it has seen, and the numbers of its iterations.
import SmoothMotion.Solver.Iterations

/-!
# Runs of the minimiser

Whatever the linear solver answers, and whether or not steps may go up, the
minimiser ends with the point of the least cost among all it has moved to, and
its summary adds up.
-/

namespace Ceres

variable {K : Type} [Scalar K] {m n : Nat} {env : Environment K m n}
  {strategy : LevenbergMarquardtStrategy K n} {parameters : Fin n → K} {s : State K m n}
  {summary : Summary K n}

/-! ## The least cost -/

/-- The least cost of some iterations, or `initial`. -/
def leastCost (initial : K) (iterations : List (IterationSummary K)) : K :=
  iterations.foldl (fun final it => min it.cost final) initial

theorem leastCost_snoc (initial : K) (iterations : List (IterationSummary K))
    (it : IterationSummary K) :
    leastCost initial (iterations ++ [it]) = min it.cost (leastCost initial iterations) := by
  simp [leastCost]

theorem leastCost_le (initial : K) (iterations : List (IterationSummary K)) :
    leastCost initial iterations ≤ initial ∧ ∀ it ∈ iterations, leastCost initial iterations ≤ it.cost := by
  induction iterations using List.reverseRecOn with
  | nil => simp [leastCost]
  | append_singleton iterations it ih =>
    rw [leastCost_snoc]
    refine ⟨(min_le_right _ _).trans ih.1, ?_⟩
    intro it' hit'
    rw [List.mem_append, List.mem_singleton] at hit'
    rcases hit' with hmem | rfl
    · exact (min_le_right _ _).trans (ih.2 it' hmem)
    · exact min_le_left _ _

/-! ## The best point -/

/-- The minimum of the costs so far belongs to the point that is kept. -/
structure Best (env : Environment K m n) (parameters : Fin n → K) (s : State K m n) : Prop where
  initial : env.evaluator.cost parameters = .ok (some s.initialCost)
  evaluated : env.evaluator.cost s.x = .ok (some s.cost)
  minimum : env.evaluator.cost s.iterates.xMin = .ok (some s.iterates.minimumCost)
  minimum_le : s.iterates.minimumCost ≤ s.cost
  least : leastCost s.initialCost s.iterations = s.iterates.minimumCost

theorem Begun.best {e : Evaluation K m n} (h : Begun env strategy parameters s e) :
    Best env parameters s := by
  have hcost := env.evaluator.cost_eq h.evaluate
  constructor
  · rw [h.initialCost, hcost]
  · rw [h.x, h.cost, hcost]
  · rw [h.iterates, hcost]
  · rw [h.iterates, h.cost]
  · simp [leastCost, State.iterations, h.earlier, h.iterationCost, h.initialCost, h.iterates]

theorem Best.unsuccessful {s' : State K m n} (hbest : Best env parameters s)
    (h : Unsuccessful env s s') : Best env parameters s' where
  initial := by rw [h.initialCost, hbest.initial]
  evaluated := by rw [h.x, h.cost, hbest.evaluated]
  minimum := by rw [h.iterates, hbest.minimum]
  minimum_le := by
    rw [h.iterates, h.cost]
    exact hbest.minimum_le
  least := by
    rw [State.iterations, h.earlier, leastCost_snoc, h.initialCost, hbest.least, h.iterationCost,
      h.iterates]
    exact min_eq_right hbest.minimum_le

theorem Iterates.update_minimumCost (options : Options K) (it : Iterates K n) (x : Fin n → K)
    (cost change : K) :
    (it.update options x cost change).minimumCost = min cost it.minimumCost ∧
    (it.update options x cost change).xMin = if cost < it.minimumCost then x else it.xMin := by
  unfold Iterates.update
  by_cases hbetter : cost < it.minimumCost
  · simp only [if_pos hbetter]
    exact ⟨(min_eq_left hbetter.le).symm, trivial⟩
  · simp only [if_neg hbetter]
    exact ⟨(min_eq_right (not_lt.mp hbetter)).symm, trivial⟩

theorem Best.accepted {s' : State K m n} {δ : Fin n → K} {e : Evaluation K m n}
    (hbest : Best env parameters s) (h : Accepted env s s' δ e) : Best env parameters s' := by
  have hcost := env.evaluator.cost_eq h.evaluate
  obtain ⟨hminimum, hxMin⟩ := Iterates.update_minimumCost env.options s.iterates s'.x e.cost
    (modelCostChange s.jacobian s.residuals δ)
  rw [← h.iterates] at hminimum hxMin
  constructor
  · rw [h.initialCost, hbest.initial]
  · rw [h.cost, hcost]
  · rw [hminimum, hxMin]
    split
    · rename_i hbetter
      rw [hcost, min_eq_left hbetter.le]
    · rename_i hworse
      rw [hbest.minimum, min_eq_right (not_lt.mp hworse)]
  · rw [hminimum, h.cost]
    exact min_le_left _ _
  · rw [State.iterations, h.earlier, leastCost_snoc, h.initialCost, hbest.least, h.iterationCost,
      hminimum]

theorem Environment.Reaches.best (h : env.Reaches strategy parameters s) :
    Best env parameters s :=
  h.invariant (fun _ _ hbegun => hbegun.best) (fun _ _ _ hbest h _ => hbest.unsuccessful h)
    (fun _ _ _ _ _ hbest h _ => hbest.accepted h)

/-! ## What is returned -/

/-- A return reports the state the iteration started from, or the one after its
    step; only a step that cannot be evaluated again is counted without a summary. -/
theorem Iterated.summary_cases (h : Iterated env s (.leave summary)) :
    (∃ s' reason, (s' = s ∨ Unsuccessful env s s' ∨ ∃ δ e, Accepted env s s' δ e) ∧
      summary = s'.summary reason ∧ reason ≠ .initialEvaluationFailed ∧
      reason ≠ .evaluationFailed ∧
      (s' = s ∨ s.iterationSummary.iteration < env.options.maxNumIterations)) ∨
    summary = { s.summary .evaluationFailed with
      numSuccessfulSteps := s.numSuccessfulSteps + 1 } := by
  cases h with
  | minTrustRegionRadius hbelow h _ =>
    exact .inl ⟨_, _, .inr (.inl h), rfl, by decide, by decide, .inr hbelow⟩
  | gradientTolerance hbelow h _ =>
    exact .inl ⟨_, _, .inr (.inr ⟨_, _, h⟩), rfl, by decide, by decide, .inr hbelow⟩
  | evaluationFailed _ _ => exact .inr rfl
  | maxNumIterations _ => exact .inl ⟨s, _, .inl rfl, rfl, by decide, by decide, .inl rfl⟩
  | maxSolverTime _ => exact .inl ⟨s, _, .inl rfl, rfl, by decide, by decide, .inl rfl⟩
  | linearSolverFailed _ => exact .inl ⟨s, _, .inl rfl, rfl, by decide, by decide, .inl rfl⟩
  | tooManyInvalidSteps _ _ => exact .inl ⟨s, _, .inl rfl, rfl, by decide, by decide, .inl rfl⟩
  | parameterTolerance _ _ => exact .inl ⟨s, _, .inl rfl, rfl, by decide, by decide, .inl rfl⟩
  | functionTolerance _ _ _ => exact .inl ⟨s, _, .inl rfl, rfl, by decide, by decide, .inl rfl⟩

/-- The parameters a summary comes with have the least of all costs in it. -/
structure Summary.KeepsBest (summary : Summary K n) (env : Environment K m n)
    (parameters : Fin n → K) : Prop where
  initial : env.evaluator.cost parameters = .ok (some summary.initialCost)
  final : env.evaluator.cost summary.parameters = .ok (some summary.finalCost)
  final_le_initial : summary.finalCost ≤ summary.initialCost
  final_le : ∀ it ∈ summary.iterations, summary.finalCost ≤ it.cost

theorem Best.keepsBest (h : Best env parameters s)
    (hinitial : summary.initialCost = s.initialCost)
    (hparameters : summary.parameters = s.iterates.xMin)
    (hiterations : summary.iterations = s.iterations) : summary.KeepsBest env parameters := by
  have hfinal : summary.finalCost = s.iterates.minimumCost := by
    rw [← h.least, ← hinitial, ← hiterations]
    rfl
  have hle := leastCost_le summary.initialCost summary.iterations
  exact { initial := hinitial ▸ h.initial, final := by rw [hparameters, hfinal, h.minimum],
          final_le_initial := hle.1, final_le := hle.2 }

/-- Either the first evaluation fails, and the parameters stay what they were, or the
    best of them are kept. -/
theorem minimize_outcome (h : env.minimize strategy parameters = .ok summary) :
    (summary.reason = .initialEvaluationFailed ∧ summary.parameters = parameters) ∨
      summary.KeepsBest env parameters := by
  obtain hbegin | ⟨s, hreaches, hiterated⟩ := minimize_cases h
  · obtain ⟨-, heq⟩ | ⟨e, it, hevaluate, -, heq, -, hit, -⟩ | ⟨s, e, heq, -⟩ := begin_cases hbegin
    · cases heq
      exact .inl ⟨rfl, rfl⟩
    · cases heq
      have hcost := env.evaluator.cost_eq hevaluate
      have hfinal : min it.cost e.cost = e.cost := by rw [hit, min_self]
      exact .inr { initial := hcost, final := hcost.trans (by simp [Summary.finalCost, hfinal]),
                   final_le_initial := by simp [Summary.finalCost],
                   final_le := by simp [Summary.finalCost, hit] }
    · cases heq
  · have hbest := hreaches.best
    right
    obtain ⟨s', reason, hs', rfl, -⟩ | rfl := hiterated.summary_cases
    · have hbest' : Best env parameters s' := by
        obtain rfl | hun | ⟨δ, e, hacc⟩ := hs'
        · exact hbest
        · exact hbest.unsuccessful hun
        · exact hbest.accepted hacc
      exact hbest'.keepsBest rfl rfl rfl
    · exact hbest.keepsBest rfl rfl rfl

/-- Unless the first evaluation fails, the parameters `Minimize` leaves cost what its
    summary gives as the final cost, no more than at the start and no more than at
    any iteration. -/
theorem minimize_keepsBest (h : env.minimize strategy parameters = .ok summary)
    (hreason : summary.reason ≠ .initialEvaluationFailed) : summary.KeepsBest env parameters :=
  (minimize_outcome h).resolve_left fun hfailed => hreason hfailed.1

/-! ## A fit of one number -/

/-- Fitting `x` to `1`: the residual is `x - 1`. -/
def fitEvaluator : Evaluator ℚ 1 1 where
  cost x := .ok (some ((x 0 - 1) ^ 2 / 2))
  evaluate x := .ok (some ⟨(x 0 - 1) ^ 2 / 2, fun _ => x 0 - 1, fun _ => x 0 - 1, fun _ _ => 1⟩)
  cost_eq := by
    rintro x e h
    cases h
    rfl

/-- The fit under the default options, with the exact solution of each linear problem. -/
def fit : Environment ℚ 1 1 where
  options := .default
  evaluator := fitEvaluator
  linearSolver J r D := ⟨.success, some fun c => J 0 0 * r 0 / (J 0 0 * J 0 0 + D c * D c)⟩
  maxDouble := 10 ^ 308
  overZero a :=
    if 0 < a then .positiveInfinity else if a < 0 then .negativeInfinity else .notANumber
  timeIsUp _ := false

/-- The strategy the default options create. -/
def fitStrategy : LevenbergMarquardtStrategy ℚ 1 where
  radius := 1e4
  maxRadius := 1e16
  minDiagonal := 1e-6
  maxDiagonal := 1e32
  decreaseFactor := 2
  reuseDiagonal := false
  diagonal := fun _ => 0

/-- From `3` on, the fit ends for a step too short. -/
theorem fit_returns : ∃ summary, fit.minimize fitStrategy (fun _ => 3) = .ok summary ∧
    summary.reason = .parameterTolerance := by
  have hrun : (fit.minimize fitStrategy fun _ => 3).map (·.reason) = .ok .parameterTolerance := by
    decide +kernel
  cases h : fit.minimize fitStrategy fun _ => 3 with
  | error fault => simp [h, Except.map] at hrun
  | ok summary =>
    rw [h] at hrun
    exact ⟨summary, rfl, Except.ok.inj hrun⟩

/-- The fit from `3` on keeps its best point. -/
theorem minimize_keepsBest_fit : ∃ summary, fit.minimize fitStrategy (fun _ => 3) = .ok summary ∧
    summary.KeepsBest fit (fun _ => 3) := by
  obtain ⟨summary, hrun, hreason⟩ := fit_returns
  exact ⟨summary, hrun, minimize_keepsBest hrun (by rw [hreason]; decide)⟩

/-! ## The numbers of the iterations -/

/-- Iterations are numbered from zero, and each one but the first is counted as
    successful or as unsuccessful. -/
structure Counted (options : Options K) (s : State K m n) : Prop where
  numbers : s.iterations.map (·.iteration) = List.range (s.iterationSummary.iteration + 1)
  successful : s.iterations.countP (·.stepIsSuccessful) = s.numSuccessfulSteps
  total : s.iterationSummary.iteration = s.numSuccessfulSteps + s.numUnsuccessfulSteps
  bounded : s.iterationSummary.iteration ≤ options.maxNumIterations

theorem Begun.counted {e : Evaluation K m n} (h : Begun env strategy parameters s e) :
    Counted env.options s where
  numbers := by simp [State.iterations, h.earlier, h.iteration]
  successful := by
    simp [State.iterations, h.earlier, h.stepIsSuccessful, h.numSuccessfulSteps]
  total := by rw [h.iteration, h.numSuccessfulSteps, h.numUnsuccessfulSteps]
  bounded := by
    rw [h.iteration]
    exact Nat.zero_le _

omit [Scalar K] in
/-- A state with one more iteration behind it. -/
theorem Counted.snoc {s' : State K m n} (h : Counted env.options s)
    (hbelow : s.iterationSummary.iteration < env.options.maxNumIterations)
    (hearlier : s'.earlier = s.iterations)
    (hiteration : s'.iterationSummary.iteration = s.iterationSummary.iteration + 1)
    (hsuccessful : s'.numSuccessfulSteps =
      s.numSuccessfulSteps + if s'.iterationSummary.stepIsSuccessful then 1 else 0)
    (htotal : s'.numSuccessfulSteps + s'.numUnsuccessfulSteps =
      s.numSuccessfulSteps + s.numUnsuccessfulSteps + 1) : Counted env.options s' where
  numbers := by
    rw [State.iterations, hearlier, List.map_append, h.numbers, hiteration]
    simp [hiteration, List.range_succ]
  successful := by
    rw [State.iterations, hearlier, List.countP_append, h.successful, hsuccessful,
      List.countP_singleton]
  total := by rw [hiteration, h.total, htotal]
  bounded := by
    rw [hiteration]
    exact hbelow

theorem Counted.unsuccessful {s' : State K m n} (h : Counted env.options s)
    (hbelow : s.iterationSummary.iteration < env.options.maxNumIterations)
    (hstep : Unsuccessful env s s') : Counted env.options s' := by
  apply h.snoc hbelow hstep.earlier hstep.iteration
  · rw [hstep.numSuccessfulSteps, hstep.stepIsSuccessful]
    rfl
  · rw [hstep.numSuccessfulSteps, hstep.numUnsuccessfulSteps, Nat.add_assoc]

theorem Counted.accepted {s' : State K m n} {δ : Fin n → K} {e : Evaluation K m n}
    (h : Counted env.options s)
    (hbelow : s.iterationSummary.iteration < env.options.maxNumIterations)
    (hstep : Accepted env s s' δ e) : Counted env.options s' := by
  apply h.snoc hbelow hstep.earlier hstep.iteration
  · rw [hstep.numSuccessfulSteps, hstep.stepIsSuccessful]
    rfl
  · rw [hstep.numSuccessfulSteps, hstep.numUnsuccessfulSteps]
    omega

theorem Environment.Reaches.counted (h : env.Reaches strategy parameters s) :
    Counted env.options s :=
  h.invariant (fun _ _ hbegun => hbegun.counted)
    (fun _ _ hbelow hcounted h _ => hcounted.unsuccessful hbelow h)
    (fun _ _ _ _ hbelow hcounted h _ => hcounted.accepted hbelow h)

/-- The summary adds up: its iterations are numbered in a row and not more than
    allowed, and it counts their outcomes. A step to a point that cannot be evaluated is
    counted as successful, but its iteration is not pushed. -/
structure Summary.AddsUp (summary : Summary K n) (options : Options K) : Prop where
  numbers : summary.iterations.map (·.iteration) = List.range summary.iterations.length
  atMost : summary.iterations.length ≤ options.maxNumIterations + 1
  successful : summary.iterations.countP (·.stepIsSuccessful) =
    summary.numSuccessfulSteps - if summary.reason = .evaluationFailed then 1 else 0
  total : summary.numSuccessfulSteps + summary.numUnsuccessfulSteps + 1 =
    summary.iterations.length + (if summary.reason = .evaluationFailed then 1 else 0) +
      if summary.reason = .initialEvaluationFailed then 1 else 0

omit [Scalar K] in
theorem Counted.length_eq {options : Options K} (h : Counted options s) :
    s.iterations.length = s.iterationSummary.iteration + 1 := by
  have hlength := congrArg List.length h.numbers
  simpa using hlength

omit [Scalar K] in
theorem Counted.addsUp {options : Options K} {reason : Reason} (h : Counted options s)
    (hfirst : reason ≠ .initialEvaluationFailed) (hlast : reason ≠ .evaluationFailed) :
    (s.summary reason).AddsUp options where
  numbers := by simpa [State.summary, h.length_eq] using h.numbers
  atMost := by
    have hbounded := h.bounded
    simp only [State.summary, h.length_eq]
    omega
  successful := by simpa [State.summary, hlast] using h.successful
  total := by simp [State.summary, hfirst, hlast, h.length_eq, h.total]

theorem minimize_addsUp (h : env.minimize strategy parameters = .ok summary) :
    summary.AddsUp env.options := by
  obtain hbegin | ⟨s, hreaches, hiterated⟩ := minimize_cases h
  · obtain ⟨-, heq⟩ | ⟨e, it, -, -, heq, hnumber, -, hsuccess⟩ | ⟨s, e, heq, -⟩ :=
      begin_cases hbegin
    · cases heq
      exact ⟨rfl, Nat.zero_le _, rfl, rfl⟩
    · cases heq
      exact ⟨by simp [hnumber], by simp, by simp [hsuccess], rfl⟩
    · cases heq
  · have hcounted := hreaches.counted
    obtain ⟨s', reason, hs', rfl, hfirst, hlast, hbelow⟩ | rfl := hiterated.summary_cases
    · obtain rfl | hun | ⟨δ, e, hacc⟩ := hs'
      · exact hcounted.addsUp hfirst hlast
      · obtain rfl | hbelow := hbelow
        · exact hcounted.addsUp hfirst hlast
        · exact (hcounted.unsuccessful hbelow hun).addsUp hfirst hlast
      · obtain rfl | hbelow := hbelow
        · exact hcounted.addsUp hfirst hlast
        · exact (hcounted.accepted hbelow hacc).addsUp hfirst hlast
    · have hsum : (s.summary .maxNumIterations).AddsUp env.options :=
        hcounted.addsUp (by decide) (by decide)
      exact { numbers := hsum.numbers, atMost := hsum.atMost,
              successful := by simpa [State.summary] using hcounted.successful,
              total := by simp [State.summary, hcounted.length_eq, hcounted.total]; omega }

/-! ## Every minimisation returns -/

/-- Evaluating never ends the process. -/
structure Evaluator.Total (evaluator : Evaluator K m n) : Prop where
  cost : ∀ x, ∃ c, evaluator.cost x = .ok c
  evaluate : ∀ x, ∃ e, evaluator.evaluate x = .ok e

theorem LevenbergMarquardtStrategy.stepAccepted_ok (strategy : LevenbergMarquardtStrategy K n)
    {quality : Ratio K} {threshold : K} (hthreshold : 0 ≤ threshold)
    (h : (Ratio.finite threshold).lt quality = true) :
    ∃ strategy', strategy.stepAccepted quality = .ok strategy' := by
  unfold LevenbergMarquardtStrategy.stepAccepted
  rw [if_pos (Ratio.lt_of_le hthreshold h)]
  exact ⟨_, rfl⟩

theorem acceptStep_ok (htotal : env.evaluator.Total) (hvalid : env.options.IsValid)
    (s : State K m n) (strategy : LevenbergMarquardtStrategy K n) {it : IterationSummary K}
    (henough : (Ratio.finite env.options.minRelativeDecrease).lt it.relativeDecrease = true)
    (x : Fin n → K) (change : K) : ∃ pass, env.acceptStep s strategy it x change = .ok pass := by
  obtain ⟨strategy', hstrategy⟩ :=
    strategy.stepAccepted_ok hvalid.minRelativeDecrease henough
  obtain ⟨e, he⟩ := htotal.evaluate x
  simp only [Environment.acceptStep, hstrategy, he, Except.ok_bind]
  cases e with
  | none => exact ⟨_, rfl⟩
  | some e =>
    simp only
    split
    · exact ⟨_, rfl⟩
    · exact ⟨_, rfl⟩

theorem iteration_ok (htotal : env.evaluator.Total) (hvalid : env.options.IsValid)
    (s : State K m n) : ∃ pass, env.iteration s = .ok pass := by
  unfold Environment.iteration
  split
  · exact ⟨_, rfl⟩
  · split
    · exact ⟨_, rfl⟩
    · split
      rename_i strategy computed hstep
      cases computed with
      | fatalError => exact ⟨_, rfl⟩
      | failure => exact ⟨_, rfl⟩
      | step δ =>
        simp only
        split
        · exact ⟨_, rfl⟩
        · obtain ⟨newCost, hcost⟩ := htotal.cost (s.x + fun c => δ c * s.scale c)
          simp only [Environment.validStep, hcost, Except.ok_bind]
          split
          · exact ⟨_, rfl⟩
          · split
            · exact ⟨_, rfl⟩
            · split
              · rename_i hsuccess
                exact acceptStep_ok htotal hvalid s strategy (by exact hsuccess) _ _
              · exact ⟨_, rfl⟩

/-- Under valid options no check of the minimiser fails. -/
theorem minimize_ok (htotal : env.evaluator.Total) (hvalid : env.options.IsValid)
    (strategy : LevenbergMarquardtStrategy K n) (parameters : Fin n → K) :
    ∃ summary, env.minimize strategy parameters = .ok summary := by
  have hbegin : ∃ pass, env.begin strategy parameters = .ok pass := by
    obtain ⟨e, he⟩ := htotal.evaluate parameters
    simp only [Environment.begin, he, Except.ok_bind]
    cases e with
    | none => exact ⟨_, rfl⟩
    | some e =>
      simp only
      split
      · exact ⟨_, rfl⟩
      · exact ⟨_, rfl⟩
  obtain ⟨pass, hbegin⟩ := hbegin
  simp only [Environment.minimize, hbegin, Except.ok_bind]
  cases pass with
  | leave summary => exact ⟨summary, rfl⟩
  | again s =>
    have hloop : ∃ summary, whileTrue env.iteration env.remaining (ranks_iteration env) s =
        .ok summary ∧ True := by
      let Inv : State K m n → Prop := fun _ => True
      have hinit : Inv s := trivial
      refine whileTrue_total ?_ hinit
      intro s _
      obtain ⟨pass, hpass⟩ := iteration_ok htotal hvalid s
      cases pass with
      | again s' => exact .inl ⟨s', hpass, trivial⟩
      | leave r => exact .inr ⟨r, hpass, trivial⟩
    obtain ⟨summary, hrun, -⟩ := hloop
    exact ⟨summary, hrun⟩

/-- Under valid options, if evaluating does not end the process, `Minimize` returns,
    and its summary adds up. -/
theorem minimize_returns (htotal : env.evaluator.Total) (hvalid : env.options.IsValid)
    (strategy : LevenbergMarquardtStrategy K n) (parameters : Fin n → K) :
    ∃ summary, env.minimize strategy parameters = .ok summary ∧ summary.AddsUp env.options := by
  obtain ⟨summary, h⟩ := minimize_ok htotal hvalid strategy parameters
  exact ⟨summary, h, minimize_addsUp h⟩

theorem fitEvaluator_total : fitEvaluator.Total := ⟨fun _ => ⟨_, rfl⟩, fun _ => ⟨_, rfl⟩⟩

/-- The default options pass their checks. -/
theorem Options.isValid_default : (Options.default : Options K).IsValid where
  functionTolerance := by simp only [default]; positivity
  gradientTolerance := by simp only [default]; positivity
  parameterTolerance := by simp only [default]; positivity
  initialTrustRegionRadius := by simp only [default]; positivity
  minTrustRegionRadius := by simp only [default]; positivity
  maxTrustRegionRadius := by simp only [default]; positivity
  min_le_max := by simp only [default]; norm_num
  min_le_initial := by simp only [default]; norm_num
  initial_le_max := by simp only [default]; norm_num
  minRelativeDecrease := by simp only [default]; positivity
  minLmDiagonal := by simp only [default]; positivity
  maxLmDiagonal := by simp only [default]; positivity
  minLmDiagonal_le := by simp only [default]; norm_num
  maxConsecutiveNonmonotonicSteps := by simp [default]

theorem minimize_returns_fit : ∃ summary, fit.minimize fitStrategy (fun _ => 3) = .ok summary ∧
    summary.AddsUp fit.options :=
  minimize_returns fitEvaluator_total Options.isValid_default fitStrategy fun _ => 3

end Ceres
