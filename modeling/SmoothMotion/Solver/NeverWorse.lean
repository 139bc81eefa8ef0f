-- SUMMARY: Solving leaves in the user's array no values that cost more, and nothing changed outside the blocks.
import SmoothMotion.Solver.Assigned
import SmoothMotion.Solver.Solve

/-!
# Solving never makes it worse

The functors of a problem that is registered inside the array never read outside
it, so an evaluation fails at most for residuals that nobody wrote. The minimiser
then returns, and what is written back costs no more than what was there.
-/

open Decimal

/-! ## Evaluations that fail at most for their residuals -/

/-- The only failure is an invalid evaluation. -/
def OnlyInvalid {α : Type} (x : Except Fault α) : Prop :=
  ∀ fault, x = .error fault → fault = .invalidEvaluation

namespace OnlyInvalid

variable {α β : Type}

theorem ok (a : α) : OnlyInvalid (.ok a) := nofun

theorem of_eq_ok {x : Except Fault α} {a : α} (h : x = .ok a) : OnlyInvalid x := h ▸ ok a

theorem bind {x : Except Fault α} {f : α → Except Fault β} (hx : OnlyInvalid x)
    (hf : ∀ a, x = .ok a → OnlyInvalid (f a)) : OnlyInvalid (x >>= f) := by
  intro fault h
  rcases Except.bind_eq_error h with hfault | ⟨a, ha, hfault⟩
  · exact hx fault hfault
  · exact hf a ha fault hfault

theorem mapM {f : α → Except Fault β} {l : List α} (h : ∀ a ∈ l, OnlyInvalid (f a)) :
    OnlyInvalid (l.mapM f) := by
  induction l with
  | nil => exact ok []
  | cons a l ih =>
    rw [List.mapM_cons]
    refine (h a (by simp)).bind fun b _ => ?_
    exact (ih fun a' ha' => h a' (by simp [ha'])).bind fun _ _ => ok _

theorem foldlM {f : β → α → Except Fault β} {l : List α}
    (h : ∀ b, ∀ a ∈ l, OnlyInvalid (f b a)) (b : β) : OnlyInvalid (l.foldlM f b) := by
  induction l generalizing b with
  | nil => exact ok b
  | cons a l ih =>
    rw [List.foldlM_cons]
    exact (h b a (by simp)).bind fun b' _ => ih (fun b a' ha' => h b a' (by simp [ha'])) b'

/-- `Evaluate` returns, with or without success. -/
theorem catchInvalid {x : Except Fault α} (h : OnlyInvalid x) :
    ∃ a, Ceres.catchInvalid x = .ok a := by
  cases x with
  | ok a => exact ⟨some a, rfl⟩
  | error fault =>
    rw [h fault rfl]
    exact ⟨none, rfl⟩

end OnlyInvalid

/-! ## Problems inside the array -/

namespace Problem

variable {K : Type} {p p' : Problem (CostFunctor K)} {length : Nat}

/-- Registered block by block, with all blocks and all the functors read in an array
    of that length. -/
structure Placed (length : Nat) (p : Problem (CostFunctor K)) : Prop where
  built : p.Built
  blocks : ∀ b ∈ p.parameterBlocks, b.size = 3 ∧ b.Inside length
  reads : ∀ rb ∈ p.residualBlocks, rb.costFunction.ReadsWithin length

theorem placed_empty (length : Nat) : (empty : Problem (CostFunctor K)).Placed length :=
  ⟨.empty, by simp [empty], by simp [empty]⟩

theorem Placed.addResidualBlock (h : p.Placed length) {f : CostFunctor K} {x0 : Int}
    (hx0 : InArray length x0) (hf : f.ReadsWithin length)
    (hadd : p.addResidualBlock f 3 x0 = .ok p') : p'.Placed length := by
  obtain ⟨rb, hrb⟩ := residualBlocks_addResidualBlock hadd
  refine ⟨h.built.addResidualBlock hadd, ?_, ?_⟩
  · intro b hb
    rcases h.built.ordered.mem_addResidualBlock hadd hb with hb | rfl
    · exact h.blocks b hb
    · unfold InArray at hx0
      refine ⟨rfl, ?_⟩
      simp only [ParameterBlock.Inside]
      omega
  · intro rb' hrb'
    rw [hrb, List.mem_append, List.mem_singleton] at hrb'
    rcases hrb' with hrb' | rfl
    · exact h.reads rb' hrb'
    · exact hf

/-- A residual block is on three numbers of the array. -/
theorem Placed.inArray (h : p.Placed length) {rb : ResidualBlock (CostFunctor K)}
    (hrb : rb ∈ p.residualBlocks) : InArray length rb.parameterBlock.values := by
  obtain ⟨hsize, hinside⟩ := h.blocks _ (h.built.ordered.registered rb hrb)
  unfold ParameterBlock.Inside at hinside
  constructor <;> omega

section Reduced

variable {reorder : List ParameterBlock → List ParameterBlock}
  (hreorder : ∀ blocks, (reorder blocks).Perm blocks) {memory : List K}
include hreorder

theorem Placed.inside_reduced (h : p.Placed length) :
    ∀ b ∈ (p.reduced reorder).parameterBlocks, b.Inside length :=
  reduced_inside hreorder fun b hb => (h.blocks b hb).2

/-- Every state is laid out in the array, and what is in no block is kept. -/
theorem Placed.copyToUserState (h : p.Placed memory.length)
    (x : Fin (p.reduced reorder).numParameters → K) :
    ∃ q, (p.reduced reorder).copyToUserState (List.ofFn x) memory = .ok q ∧
      q.length = memory.length ∧
      ∀ i : Nat, (∀ b ∈ p.usedBlocks, (i : Int) ∉ b.region) → q[i]? = memory[i]? := by
  have hlength : (p.reduced reorder).numParameters ≤ (List.ofFn x).length := by simp
  obtain ⟨hcopy, hkept, hframe⟩ := copyToUserState_eq (h.inside_reduced hreorder) hlength
  exact ⟨_, hcopy, hkept, fun i hout =>
    hframe i fun b hb => hout b ((mem_reduced hreorder).mp hb)⟩

/-- The state that is read is laid out as it was. -/
theorem Placed.parameterBlocksToStateVector (h : p.Placed memory.length) :
    ∃ state, (p.reduced reorder).parameterBlocksToStateVector memory = .ok state ∧
      state.length = (p.reduced reorder).numParameters ∧
      (p.reduced reorder).copyToUserState state memory = .ok memory := by
  have hinside := h.inside_reduced hreorder
  have hfit := fit_extents hinside
  have hlength := Extent.length_gather hfit
  refine ⟨_, parameterBlocksToStateVector_eq hinside, hlength, ?_⟩
  rw [(copyToUserState_eq hinside hlength.ge).1, Extent.scatter_gather hfit]

end Reduced

end Problem

/-! ## The evaluator of a placed problem -/

namespace Ceres

variable {K : Type} [Scalar K] {p : Problem (CostFunctor K)} {memory q : List K}

omit [Scalar K] in
theorem onlyInvalid_validate (residual : Residual K) : OnlyInvalid (validate residual) := by
  induction residual with
  | nil => exact .ok []
  | cons r residual ih =>
    cases r with
    | none =>
      intro fault h
      cases h
      rfl
    | some r => exact ih.bind fun _ _ => .ok _

theorem onlyInvalid_residualsAt {f : CostFunctor K} (h : f.ReadsWithin memory.length)
    (x : Vector3d K) : OnlyInvalid (residualsAt memory f x) := by
  obtain ⟨rest, hrest, -⟩ := CostFunctor.evaluate_of_readsWithin h x
  rw [residualsAt, hrest]
  exact onlyInvalid_validate _

theorem onlyInvalid_jacobianColumn {f : CostFunctor K} (h : f.ReadsWithin memory.length)
    (x : Vector3d K) (j : Nat) : OnlyInvalid (jacobianColumn memory f x j) :=
  (onlyInvalid_residualsAt h _).bind fun _ _ => (onlyInvalid_residualsAt h _).bind fun _ _ => .ok _

theorem onlyInvalid_gradientEntry {f : CostFunctor K} (h : f.ReadsWithin memory.length)
    (x : Vector3d K) (j : Nat) : OnlyInvalid (gradientEntry memory f x j) :=
  (onlyInvalid_residualsAt h _).bind fun _ _ =>
    (onlyInvalid_jacobianColumn h _ _).bind fun _ _ => .ok _

section Placed

variable {reorder : List ParameterBlock → List ParameterBlock} (h : p.Placed memory.length)
  (hq : q.length = memory.length)
include h hq

omit [Scalar K] in
/-- At its block's values a functor can only lack a residual. -/
theorem onlyInvalid_at {α : Type} {rb : ResidualBlock (CostFunctor K)} (hrb : rb ∈ p.residualBlocks)
    {f : Vector3d K → Except Fault α}
    (hf : rb.costFunction.ReadsWithin memory.length → ∀ x, OnlyInvalid (f x)) :
    OnlyInvalid (readVector3At q rb.parameterBlock.values >>= f) := by
  obtain ⟨x, hx⟩ := readVector3At_ok_iff.mpr (hq ▸ h.inArray hrb)
  exact (OnlyInvalid.of_eq_ok hx).bind fun y _ => hf (h.reads rb hrb) y

theorem onlyInvalid_cost : OnlyInvalid (cost memory q (p.reduced reorder)) := by
  refine OnlyInvalid.foldlM (fun total rb hrb => ?_) 0
  have hblock : OnlyInvalid (blockCost memory q rb) := onlyInvalid_at h hq hrb fun hreads x =>
    (onlyInvalid_residualsAt hreads x).bind fun _ _ => .ok _
  exact hblock.bind fun _ _ => .ok _

theorem onlyInvalid_residualVector : OnlyInvalid (residualVector memory q (p.reduced reorder)) := by
  refine (OnlyInvalid.mapM fun rb hrb => ?_).bind fun _ _ => .ok _
  exact onlyInvalid_at h hq hrb fun hreads x => onlyInvalid_residualsAt hreads x

theorem onlyInvalid_gradient : OnlyInvalid (gradient memory q (p.reduced reorder)) := by
  refine OnlyInvalid.mapM fun b _ => OnlyInvalid.foldlM (fun total rb hrb => ?_) _
  have hblock : OnlyInvalid (blockGradient memory q rb) :=
    onlyInvalid_at h hq (List.mem_of_mem_filter hrb) fun hreads x =>
      (onlyInvalid_gradientEntry hreads x 0).bind fun _ _ =>
        (onlyInvalid_gradientEntry hreads x 1).bind fun _ _ =>
          (onlyInvalid_gradientEntry hreads x 2).bind fun _ _ => .ok _
  exact hblock.bind fun _ _ => .ok _

theorem onlyInvalid_jacobianRows : OnlyInvalid (jacobianRows memory q (p.reduced reorder)) := by
  refine (OnlyInvalid.mapM fun rb hrb => ?_).bind fun _ _ => .ok _
  have hblock : OnlyInvalid (blockJacobian memory q rb) := onlyInvalid_at h hq hrb fun hreads x =>
    OnlyInvalid.mapM fun j _ => onlyInvalid_jacobianColumn hreads x j
  exact hblock.bind fun _ _ => .ok _

end Placed

/-! ## Solving a placed problem -/

section Solve

variable {machine : Machine K} {options : Options K} {memory' : List K}

theorem total_programEvaluator (h : p.Placed memory.length) :
    (programEvaluator memory (p.reduced machine.reorder)).Total := by
  constructor
  · intro x
    obtain ⟨q, hq, hlength, -⟩ := h.copyToUserState machine.reorder_perm x
    have hcost : OnlyInvalid (programCost memory (p.reduced machine.reorder) x) := by
      rw [programCost, hq]
      exact onlyInvalid_cost h hlength
    exact hcost.catchInvalid
  · intro x
    obtain ⟨q, hq, hlength, -⟩ := h.copyToUserState machine.reorder_perm x
    have heverything : OnlyInvalid (programEvaluate (m := numResiduals p) memory
        (p.reduced machine.reorder) x) := by
      rw [programEvaluate, hq]
      exact (onlyInvalid_cost h hlength).bind fun _ _ =>
        (onlyInvalid_residualVector h hlength).bind fun _ _ =>
          (onlyInvalid_gradient h hlength).bind fun _ _ =>
            (onlyInvalid_jacobianRows h hlength).bind fun _ _ => .ok _
    exact heverything.catchInvalid

/-- The strategy is created unless the least diagonal is zero. -/
theorem create_ok_iff {n : Nat} (hvalid : options.IsValid) :
    (∃ strategy : LevenbergMarquardtStrategy K n, LevenbergMarquardtStrategy.create
      options.initialTrustRegionRadius options.maxTrustRegionRadius options.minLmDiagonal
      options.maxLmDiagonal = .ok strategy) ↔ options.minLmDiagonal ≠ 0 := by
  simp only [LevenbergMarquardtStrategy.create, hvalid.minLmDiagonal_le,
    hvalid.maxTrustRegionRadius, not_true_eq_false, if_false]
  split
  · rename_i hzero
    have hmin : options.minLmDiagonal = 0 := le_antisymm (not_lt.mp hzero) hvalid.minLmDiagonal
    simp [hmin, throw, throwThe, MonadExceptOf.throw]
  · rename_i hpos
    exact ⟨fun _ => (not_not.mp hpos).ne', fun _ => ⟨_, rfl⟩⟩

omit [Scalar K] in
theorem ofFn_getD [Zero K] {state : List K} {n : Nat} (h : state.length = n) :
    List.ofFn (fun c : Fin n => state.getD c 0) = state := by
  subst h
  apply List.ext_getElem (by simp)
  intro i hi hi'
  simp

/-- What solving leaves: nothing new, or values that cost no more. -/
structure NoWorse (p : Problem (CostFunctor K)) (memory memory' : List K) : Prop where
  length : memory'.length = memory.length
  frame : ∀ i : Nat, (∀ b ∈ p.usedBlocks, (i : Int) ∉ b.region) → memory'[i]? = memory[i]?
  cost : memory' = memory ∨ ∃ c c', Ceres.cost memory memory p = .ok c ∧
    Ceres.cost memory memory' p = .ok c' ∧ c' ≤ c

theorem NoWorse.refl (p : Problem (CostFunctor K)) (memory : List K) : NoWorse p memory memory :=
  ⟨rfl, fun _ _ => rfl, .inl rfl⟩

/-- The minimisation is run, and its result written back or dropped. -/
theorem minimizeProgram_noWorse (h : p.Placed memory.length) (hvalid : options.IsValid)
    (hmin : options.minLmDiagonal ≠ 0) (machine : Machine K) :
    ∃ memory', minimizeProgram machine options (p.reduced machine.reorder) memory = .ok memory' ∧
      NoWorse p memory memory' := by
  obtain ⟨state, hstate, hlength, hback⟩ := h.parameterBlocksToStateVector machine.reorder_perm
  obtain ⟨strategy, hstrategy⟩ := (create_ok_iff hvalid).mpr hmin
  have hreturns : ∃ summary, (machine.environment options memory
      (p.reduced machine.reorder)).minimize strategy (fun c => state.getD c 0) = .ok summary :=
    minimize_ok (total_programEvaluator h) hvalid strategy _
  obtain ⟨summary, hrun⟩ := hreturns
  obtain ⟨memory', hcopy, hkept, hframe⟩ := h.copyToUserState machine.reorder_perm summary.parameters
  simp only [minimizeProgram, hstate, hstrategy, hrun, Except.ok_bind]
  by_cases husable : summary.isSolutionUsable = true
  · rw [if_pos husable]
    refine ⟨memory', hcopy, hkept, hframe, .inr ?_⟩
    obtain ⟨hfailed, -⟩ | hbest := minimize_outcome hrun
    · simp [Summary.isSolutionUsable, hfailed, Reason.terminationType] at husable
    · have hinitial := catchInvalid_eq_some.mp hbest.initial
      have hfinal := catchInvalid_eq_some.mp hbest.final
      simp only [programCost, ofFn_getD hlength, hback, hcopy, Except.ok_bind] at hinitial hfinal
      exact ⟨_, _, hinitial, hfinal, hbest.final_le_initial⟩
  · rw [if_neg husable]
    exact ⟨memory, rfl, .refl p memory⟩

omit [Scalar K] in
/-- The reduced program has no blocks exactly if no block is used. -/
theorem reduced_eq_nil_iff {reorder : List ParameterBlock → List ParameterBlock}
    (hreorder : ∀ blocks, (reorder blocks).Perm blocks) :
    (p.reduced reorder).parameterBlocks = [] ↔ p.usedBlocks = [] := by
  rw [← List.perm_nil, ← List.perm_nil]
  exact ⟨(hreorder p.usedBlocks).symm.trans, (hreorder p.usedBlocks).trans⟩

theorem solve_eq (machine : Machine K) (options : Options K) (p : Problem (CostFunctor K))
    (memory : List K) :
    solve machine options p memory =
      if options.IsValid ∧ p.usedBlocks ≠ [] then
        minimizeProgram machine options (p.reduced machine.reorder) memory
      else .ok memory := by
  have hempty := reduced_eq_nil_iff (p := p) machine.reorder_perm
  by_cases hvalid : options.IsValid
  · by_cases hused : p.usedBlocks = []
    · simp only [solve, if_pos hvalid, if_pos (hempty.mpr hused)]
      rw [if_neg fun h => h.2 hused]
    · simp only [solve, if_pos hvalid, if_neg (mt hempty.mp hused)]
      rw [if_pos ⟨hvalid, hused⟩]
  · simp only [solve, if_neg hvalid]
    rw [if_neg fun h => hvalid h.1]

theorem solve_ok (h : p.Placed memory.length) (hmin : options.minLmDiagonal ≠ 0)
    (machine : Machine K) :
    ∃ memory', solve machine options p memory = .ok memory' ∧ NoWorse p memory memory' := by
  rw [solve_eq]
  split
  · rename_i hrun
    exact minimizeProgram_noWorse h hrun.1 hmin machine
  · exact ⟨memory, rfl, .refl p memory⟩

/-- For every problem registered in the array, every machine and all modelled options:
    `Solve` returns unless the options are valid and their least diagonal is zero, which the
    strategy does not take. What it leaves in the array differs at most in the
    blocks, and costs no more than what was there. -/
theorem solve_noWorse (h : p.Placed memory.length) (machine : Machine K) (options : Options K) :
    ((∃ memory', solve machine options p memory = .ok memory') ↔
      ¬ (options.IsValid ∧ options.minLmDiagonal = 0 ∧ p.usedBlocks ≠ [])) ∧
    ∀ memory', solve machine options p memory = .ok memory' → NoWorse p memory memory' := by
  by_cases hmin : options.minLmDiagonal = 0
  · rw [solve_eq]
    split
    · rename_i hrun
      have hstops : ¬ ∃ memory', minimizeProgram machine options (p.reduced machine.reorder)
          memory = .ok memory' := by
        rintro ⟨memory', h⟩
        obtain ⟨state, -, h⟩ := Except.bind_eq_ok h
        obtain ⟨strategy, hstrategy, -⟩ := Except.bind_eq_ok h
        exact (create_ok_iff hrun.1).mp ⟨strategy, hstrategy⟩ hmin
      exact ⟨iff_of_false hstops (not_not.mpr ⟨hrun.1, hmin, hrun.2⟩),
        fun memory' h => absurd ⟨memory', h⟩ hstops⟩
    · rename_i hrun
      refine ⟨iff_of_true ⟨memory, rfl⟩ fun h => hrun ⟨h.1, h.2.2⟩, ?_⟩
      rintro memory' ⟨⟩
      exact .refl p memory
  · obtain ⟨memory', hsolve, hnoWorse⟩ := solve_ok h hmin machine
    rw [hsolve]
    refine ⟨iff_of_true ⟨memory', rfl⟩ fun h => hmin h.2.1, ?_⟩
    rintro memory'' ⟨⟩
    exact hnoWorse

/-! ## One plane -/

/-- A machine whose linear solver divides by the damped diagonal, which solves the
    linear problem of a Jacobian with orthogonal columns. -/
def diagonalMachine : Machine ℚ where
  linearSolver _ _ J r D := ⟨.success, some fun c =>
    (∑ i, J i c * r i) / (squaredColumnNorm J c + D c * D c)⟩
  reorder := id
  reorder_perm _ := .refl _
  maxDouble := 10 ^ 308
  overZero a :=
    if 0 < a then .positiveInfinity else if a < 0 then .negativeInfinity else .notANumber
  timeIsUp _ := false

/-- A point and the plane `y = 0`. -/
def onePlane : Problem (CostFunctor ℚ) := Problem.tiled [.basic ⟨[⟨⟨0, 0, 0⟩, ⟨0, 1, 0⟩⟩]⟩]

theorem placed_onePlane : onePlane.Placed 3 := by
  have hadd : (Problem.empty : Problem (CostFunctor ℚ)).addResidualBlock
      (.basic ⟨[⟨⟨0, 0, 0⟩, ⟨0, 1, 0⟩⟩]⟩) 3 0 = .ok onePlane := rfl
  have hreads : CostFunctor.ReadsWithin 3
      (.basic ⟨[⟨⟨0, 0, 0⟩, ⟨0, 1, 0⟩⟩]⟩ : CostFunctor ℚ) := trivial
  exact (Problem.placed_empty 3).addResidualBlock ⟨by decide, by decide⟩ hreads hadd

/-- From behind the plane the point is moved to where it costs no more. -/
theorem solve_noWorse_onePlane :
    ∃ memory', solve diagonalMachine .default onePlane [0, -1, 0] = .ok memory' ∧
      NoWorse onePlane [0, -1, 0] memory' := by
  have hplaced : onePlane.Placed ([0, -1, 0] : List ℚ).length := placed_onePlane
  obtain ⟨hreturns, hnoWorse⟩ := solve_noWorse hplaced diagonalMachine Options.default
  have hmin : (Options.default : Options ℚ).minLmDiagonal ≠ 0 := by decide +kernel
  obtain ⟨memory', hsolve⟩ := hreturns.mpr fun h => hmin h.2.1
  exact ⟨memory', hsolve, hnoWorse memory' hsolve⟩

end Solve

end Ceres
