-- SUMMARY: The radius of the trust region over a whole minimisation, and how many unsuccessful iterations can follow each other.
import Mathlib.Tactic.Positivity
import Mathlib.Tactic.NormNum
import Mathlib.Tactic.FieldSimp
import SmoothMotion.Solver.Descent

/-!
# The radius of the trust region

An accepted step at most triples the radius and leaves it below its maximum. The
`k`-th unsuccessful iteration in a row divides it by `2 ^ k`, so `k` of them
divide it by `2 ^ (k * (k + 1) / 2)`, and the loop ends once they have taken it
below its minimum.
-/

namespace Ceres

variable {K : Type} [Scalar K] {m n : Nat} {env : Environment K m n}
  {strategy : LevenbergMarquardtStrategy K n} {parameters : Fin n → K} {s s' : State K m n}

namespace LevenbergMarquardtStrategy

@[simp] theorem radius_stepRejected (s : LevenbergMarquardtStrategy K n) :
    s.stepRejected.radius = s.radius / s.decreaseFactor := rfl

@[simp] theorem decreaseFactor_stepRejected (s : LevenbergMarquardtStrategy K n) :
    s.stepRejected.decreaseFactor = s.decreaseFactor * 2 := rfl

@[simp] theorem maxRadius_stepRejected (s : LevenbergMarquardtStrategy K n) :
    s.stepRejected.maxRadius = s.maxRadius := rfl

theorem third_le_shrinkage (quality : Ratio K) : 1 / 3 ≤ shrinkage quality := by
  cases quality with
  | finite q => exact le_max_left _ _
  | positiveInfinity => exact le_rfl
  | negativeInfinity => exact le_rfl
  | notANumber => exact le_rfl

/-- What `StepAccepted` makes of the radius. -/
theorem stepAccepted_eq_ok {s s' : LevenbergMarquardtStrategy K n} {quality : Ratio K}
    (h : s.stepAccepted quality = .ok s') :
    s' = { s with
      radius := min s.maxRadius (s.radius / shrinkage quality)
      decreaseFactor := 2
      reuseDiagonal := false } := by
  unfold stepAccepted at h
  split at h
  · cases h
    rfl
  · cases h

theorem create_eq_ok {initialRadius maxRadius minDiagonal maxDiagonal : K}
    (h : create initialRadius maxRadius minDiagonal maxDiagonal = .ok strategy) :
    strategy = ⟨initialRadius, maxRadius, minDiagonal, maxDiagonal, 2, false, fun _ => 0⟩ ∧
      0 < minDiagonal ∧ minDiagonal ≤ maxDiagonal ∧ 0 < maxRadius := by
  unfold create at h
  by_cases hmin : 0 < minDiagonal <;> by_cases hle : minDiagonal ≤ maxDiagonal <;>
    by_cases hmax : 0 < maxRadius <;> simp [hmin, hle, hmax, throw, throwThe, MonadExceptOf.throw,
      bind, Except.bind, pure, Except.pure] at h
  exact ⟨h.symm, hmin, hle, hmax⟩

end LevenbergMarquardtStrategy

/-- Computing a step changes the diagonal and nothing else. -/
theorem State.computed_fst (s : State K m n) (env : Environment K m n) :
    (s.computed env).1 = { s.strategy with
      diagonal := s.strategy.dampingDiagonal s.jacobian
      reuseDiagonal := true } := rfl

/-! ## Unsuccessful iterations in a row -/

/-- How many iterations at the end were unsuccessful; the first one has no step. -/
def streak (iterations : List (IterationSummary K)) : Nat :=
  (iterations.reverse.takeWhile fun it => !it.stepIsSuccessful && it.iteration != 0).length

omit [Scalar K] in
theorem streak_snoc (iterations : List (IterationSummary K)) (it : IterationSummary K) :
    streak (iterations ++ [it]) =
      if !it.stepIsSuccessful && it.iteration != 0 then streak iterations + 1 else 0 := by
  simp only [streak, List.reverse_append, List.reverse_singleton, List.singleton_append,
    List.takeWhile_cons]
  split
  · rfl
  · rfl

theorem Unsuccessful.streak_eq (h : Unsuccessful env s s') :
    streak s'.iterations = streak s.iterations + 1 := by
  rw [State.iterations, h.earlier, streak_snoc]
  simp [h.stepIsSuccessful, h.iteration]

theorem Accepted.streak_eq {δ : Fin n → K} {e : Evaluation K m n} (h : Accepted env s s' δ e) :
    streak s'.iterations = 0 := by
  rw [State.iterations, streak_snoc]
  simp [h.stepIsSuccessful]

/-! ## The radius -/

/-- The triangular numbers grow by what `StepRejected` adds to the exponent. -/
theorem triangular_succ (k : Nat) : (k + 1) * (k + 2) / 2 = k * (k + 1) / 2 + (k + 1) := by
  have hproduct : (k + 1) * (k + 2) = k * (k + 1) + (k + 1) * 2 := by ring
  rw [hproduct, Nat.add_mul_div_right _ _ (by omega)]

/-- With what the streak has taken from it the radius stays the same. -/
theorem Unsuccessful.radius_mul (h : Unsuccessful env s s')
    (hfactor : s.strategy.decreaseFactor = 2 ^ (streak s.iterations + 1)) :
    s'.strategy.radius * 2 ^ (streak s'.iterations * (streak s'.iterations + 1) / 2) =
      s.strategy.radius * 2 ^ (streak s.iterations * (streak s.iterations + 1) / 2) := by
  have hstrategy := h.strategy
  rw [State.computed_fst] at hstrategy
  rw [hstrategy, LevenbergMarquardtStrategy.radius_stepRejected, h.streak_eq, triangular_succ,
    pow_add, hfactor]
  field_simp

/-- The radius with what the streak of unsuccessful iterations has taken from it. -/
structure Bounded (options : Options K) (s : State K m n) : Prop where
  maxRadius : s.strategy.maxRadius = options.maxTrustRegionRadius
  decreaseFactor : s.strategy.decreaseFactor = 2 ^ (streak s.iterations + 1)
  pos : 0 < s.strategy.radius
  atLeast : 0 < streak s.iterations → options.minTrustRegionRadius ≤ s.strategy.radius
  shrunk : s.strategy.radius * 2 ^ (streak s.iterations * (streak s.iterations + 1) / 2) ≤
    options.maxTrustRegionRadius

/-- The strategy of a minimisation is the one its options create. -/
def Environment.Creates (env : Environment K m n) (strategy : LevenbergMarquardtStrategy K n) :
    Prop :=
  LevenbergMarquardtStrategy.create env.options.initialTrustRegionRadius
    env.options.maxTrustRegionRadius env.options.minLmDiagonal env.options.maxLmDiagonal =
    .ok strategy

theorem Begun.streak_eq {e : Evaluation K m n} (h : Begun env strategy parameters s e) :
    streak s.iterations = 0 := by
  simp [State.iterations, h.earlier, streak, h.iteration]

theorem Begun.bounded {e : Evaluation K m n} (hvalid : env.options.IsValid)
    (hcreate : env.Creates strategy) (h : Begun env strategy parameters s e) :
    Bounded env.options s := by
  obtain ⟨rfl, -⟩ := LevenbergMarquardtStrategy.create_eq_ok hcreate
  have hstreak := h.streak_eq
  constructor
  · rw [h.strategy]
  · rw [h.strategy, hstreak]
    norm_num
  · rw [h.strategy]
    exact hvalid.initialTrustRegionRadius
  · intro hnone
    exact absurd hstreak hnone.ne'
  · rw [h.strategy, hstreak]
    simpa using hvalid.initial_le_max

theorem Bounded.unsuccessful (h : Bounded env.options s) (hstep : Unsuccessful env s s')
    (hradius : env.options.minTrustRegionRadius ≤ s'.strategy.radius) :
    Bounded env.options s' := by
  have hstreak := hstep.streak_eq
  have hstrategy := hstep.strategy
  rw [State.computed_fst] at hstrategy
  constructor
  · rw [hstrategy, LevenbergMarquardtStrategy.maxRadius_stepRejected, h.maxRadius]
  · rw [hstrategy, LevenbergMarquardtStrategy.decreaseFactor_stepRejected, hstreak,
      pow_succ _ (streak s.iterations + 1), ← h.decreaseFactor]
  · rw [hstrategy, LevenbergMarquardtStrategy.radius_stepRejected, h.decreaseFactor]
    have hpos := h.pos
    positivity
  · exact fun _ => hradius
  · rw [hstep.radius_mul h.decreaseFactor]
    exact h.shrunk

/-- What an accepted step makes of the strategy. -/
theorem Accepted.strategy_eq {δ : Fin n → K} {e : Evaluation K m n} (h : Accepted env s s' δ e) :
    s'.strategy.maxRadius = s.strategy.maxRadius ∧ s'.strategy.decreaseFactor = 2 ∧
    ∃ shrinkage, 1 / 3 ≤ shrinkage ∧
      s'.strategy.radius = min s.strategy.maxRadius (s.strategy.radius / shrinkage) := by
  have hstrategy := LevenbergMarquardtStrategy.stepAccepted_eq_ok h.strategy
  rw [State.computed_fst] at hstrategy
  rw [hstrategy]
  exact ⟨rfl, rfl, _, LevenbergMarquardtStrategy.third_le_shrinkage _, rfl⟩

theorem Bounded.accepted {δ : Fin n → K} {e : Evaluation K m n} (hvalid : env.options.IsValid)
    (h : Bounded env.options s) (hstep : Accepted env s s' δ e) : Bounded env.options s' := by
  obtain ⟨hmax, hfactor, shrinkage, hshrinkage, hradius⟩ := hstep.strategy_eq
  have hstreak := hstep.streak_eq
  have hpos : 0 < shrinkage := by linarith [show (0 : K) < 1 / 3 by positivity]
  constructor
  · rw [hmax, h.maxRadius]
  · rw [hfactor, hstreak]
    norm_num
  · rw [hradius, h.maxRadius]
    exact lt_min hvalid.maxTrustRegionRadius (div_pos h.pos hpos)
  · intro hnone
    exact absurd hstreak hnone.ne'
  · rw [hradius, hstreak, h.maxRadius]
    simp

theorem Environment.Reaches.bounded (hvalid : env.options.IsValid) (hcreate : env.Creates strategy)
    (h : env.Reaches strategy parameters s) : Bounded env.options s :=
  h.invariant (fun _ _ hbegun => hbegun.bounded hvalid hcreate)
    (fun _ _ _ hbounded h hradius => hbounded.unsuccessful h hradius)
    (fun _ _ _ _ _ hbounded h _ => hbounded.accepted hvalid h)

/-- The unsuccessful iterations at the end of `s` have begun at `s₀`, and this is what
    they have made of its radius. -/
structure StreakFrom (s₀ s : State K m n) : Prop where
  none : streak s₀.iterations = 0
  earlier : s₀.iterations <+: s.iterations
  length : s.iterations.length = s₀.iterations.length + streak s.iterations
  radius : s.strategy.radius * 2 ^ (streak s.iterations * (streak s.iterations + 1) / 2) =
    s₀.strategy.radius

theorem StreakFrom.refl (h : streak s.iterations = 0) : StreakFrom s s where
  none := h
  earlier := List.prefix_rfl
  length := by omega
  radius := by simp [h]

theorem StreakFrom.unsuccessful {s₀ : State K m n} (h : StreakFrom s₀ s)
    (hbounded : Bounded env.options s) (hstep : Unsuccessful env s s') : StreakFrom s₀ s' := by
  have hstreak := hstep.streak_eq
  have hiterations : s'.iterations = s.iterations ++ [s'.iterationSummary] := by
    rw [State.iterations, hstep.earlier]
  refine ⟨h.none, ?_, ?_, ?_⟩
  · rw [hiterations]
    exact h.earlier.trans (List.prefix_append _ _)
  · rw [hstreak, hiterations, List.length_append, List.length_singleton, h.length, Nat.add_assoc]
  · rw [hstep.radius_mul hbounded.decreaseFactor, h.radius]

/-- A streak has begun at the first state or behind the last accepted step. -/
theorem Environment.Reaches.streakFrom (hvalid : env.options.IsValid)
    (hcreate : env.Creates strategy) (h : env.Reaches strategy parameters s) :
    ∃ s₀, env.Reaches strategy parameters s₀ ∧ StreakFrom s₀ s := by
  apply h.induction
  · intro s e hreaches hbegun
    exact ⟨s, hreaches, .refl hbegun.streak_eq⟩
  · rintro s s' hreaches - ⟨s₀, hreaches₀, hfrom⟩ hstep -
    exact ⟨s₀, hreaches₀, hfrom.unsuccessful (hreaches.bounded hvalid hcreate) hstep⟩
  · rintro s s' δ e hreaches' - - hstep -
    exact ⟨s', hreaches', .refl hstep.streak_eq⟩

/-- At the head of every iteration the radius is positive and not above its maximum. A
    streak of `k` unsuccessful iterations has divided the radius it began with by
    `2 ^ (k * (k + 1) / 2)`, and has not taken it below its minimum; an accepted step
    can. Under the default options at most 17 iterations in a row are unsuccessful
    there. -/
theorem radius_stays_bounded (hvalid : env.options.IsValid) (hcreate : env.Creates strategy)
    (h : env.Reaches strategy parameters s) :
    0 < s.strategy.radius ∧ s.strategy.radius ≤ env.options.maxTrustRegionRadius ∧
    (0 < streak s.iterations → env.options.minTrustRegionRadius ≤ s.strategy.radius) ∧
    (∃ s₀, env.Reaches strategy parameters s₀ ∧ StreakFrom s₀ s) ∧
    s.strategy.radius * 2 ^ (streak s.iterations * (streak s.iterations + 1) / 2) ≤
      env.options.maxTrustRegionRadius ∧
    env.options.minTrustRegionRadius * 2 ^ (streak s.iterations * (streak s.iterations + 1) / 2) ≤
      env.options.maxTrustRegionRadius ∧
    (env.options = .default → streak s.iterations ≤ 17) := by
  have hbounded := h.bounded hvalid hcreate
  have hpower : (1 : K) ≤ 2 ^ (streak s.iterations * (streak s.iterations + 1) / 2) :=
    one_le_pow₀ (by norm_num)
  have hcollapse : env.options.minTrustRegionRadius *
      2 ^ (streak s.iterations * (streak s.iterations + 1) / 2) ≤
        env.options.maxTrustRegionRadius := by
    by_cases hstreak : 0 < streak s.iterations
    · exact (mul_le_mul_of_nonneg_right (hbounded.atLeast hstreak) (by positivity)).trans
        hbounded.shrunk
    · obtain hzero : streak s.iterations = 0 := by omega
      simpa [hzero] using hvalid.min_le_max
  refine ⟨hbounded.pos, (le_mul_of_one_le_right hbounded.pos.le hpower).trans hbounded.shrunk,
    hbounded.atLeast, h.streakFrom hvalid hcreate, hbounded.shrunk, hcollapse, ?_⟩
  intro hdefault
  by_contra hmany
  have hlong : 18 * 19 ≤ streak s.iterations * (streak s.iterations + 1) := by
    have hk : 18 ≤ streak s.iterations := by omega
    exact Nat.mul_le_mul hk (Nat.succ_le_succ hk)
  have hexponent : 171 ≤ streak s.iterations * (streak s.iterations + 1) / 2 := by omega
  have hlarge : (2 : K) ^ 171 ≤ 2 ^ (streak s.iterations * (streak s.iterations + 1) / 2) :=
    pow_le_pow_right₀ (by norm_num) hexponent
  rw [hdefault] at hcollapse
  have hscaled : (1e-32 : K) * 2 ^ 171 ≤ 1e16 :=
    (mul_le_mul_of_nonneg_left hlarge (by norm_num)).trans hcollapse
  norm_num at hscaled

/-! ## The fit of one number -/

theorem fit_creates : fit.Creates fitStrategy := by
  have hmin : (0 : ℚ) < 1e-6 := by norm_num
  have hle : (1e-6 : ℚ) ≤ 1e32 := by norm_num
  have hmax : (0 : ℚ) < 1e16 := by norm_num
  simp only [Environment.Creates, LevenbergMarquardtStrategy.create, fit, Options.default, hmin,
    hle, hmax, not_true_eq_false, if_false]
  rfl

/-- The fit from `3` on enters the loop. -/
theorem fit_reaches : ∃ s, fit.Reaches fitStrategy (fun _ => 3) s := by
  obtain ⟨summary, hrun, hreason⟩ := fit_returns
  obtain hbegin | ⟨s, hreaches, -⟩ := minimize_cases hrun
  · obtain ⟨-, heq⟩ | ⟨e, it, -, -, heq, -⟩ | ⟨s, e, heq, -⟩ := begin_cases hbegin
    · cases heq
      cases hreason
    · cases heq
      cases hreason
    · cases heq
  · exact ⟨s, hreaches⟩

theorem radius_stays_bounded_fit : ∃ s, fit.Reaches fitStrategy (fun _ => 3) s ∧
    0 < s.strategy.radius ∧ s.strategy.radius ≤ 1e16 ∧
    (0 < streak s.iterations → 1e-32 ≤ s.strategy.radius) ∧ streak s.iterations ≤ 17 := by
  obtain ⟨s, hreaches⟩ := fit_reaches
  obtain ⟨hpos, hmax, hmin, -, -, -, hstreak⟩ :=
    radius_stays_bounded Options.isValid_default fit_creates hreaches
  exact ⟨s, hreaches, hpos, hmax, hmin, hstreak rfl⟩

end Ceres
