-- SUMMARY: What the program saves when it solves with Ceres: positions that cost no more, and for a clean file or one without colliders those it has read.
import SmoothMotion.Solver.CleanStart
import SmoothMotion.Solver.NeverWorse

/-!
# What the program saves

`main` solves the problem of the children functors under the default options. Its
problem is registered in the array of positions, whatever the file says, so all
that holds of solving holds of what is saved.
-/

open Decimal

/-! ## The problem of the program -/

section Builder

variable {K : Type} [Scalar K] {platform : Platform} {colliders : List (Collider K)}
  {frames bones : Int32} {parameters : List K} {parents : List Int32}
  {problem : Problem (CostFunctor K)}

/-- The builder has read every position it registers a block at. -/
theorem maintainBoneLengthChildrenFunction_placed
    (h : maintainBoneLengthChildrenFunction platform colliders frames bones parameters parents =
      .ok problem) : problem.Placed parameters.length := by
  obtain ⟨⟨depths, p⟩, hloop, h⟩ := Except.bind_eq_ok h
  cases h
  refine forRange_ok (fun _ (a : List Nat × Problem (CostFunctor K)) =>
    a.2.Placed parameters.length) ?_ (Problem.placed_empty _) hloop
  rintro bone ⟨depths, p⟩ a' hbone hp hbody
  obtain ⟨parent, -, hbody⟩ := Except.bind_eq_ok hbody
  obtain ⟨p', hrow, hbody⟩ := Except.bind_eq_ok hbody
  cases hbody
  refine forRange_ok (fun _ p => p.Placed parameters.length) ?_ hp hrow
  intro frame p p' hframe hp hbody
  obtain ⟨bonePosition, hposition, hbody⟩ := Except.bind_eq_ok hbody
  obtain ⟨⟨childrenPositions, boneLengths⟩, hfound, hbody⟩ := Except.bind_eq_ok hbody
  obtain ⟨depth, -, hadd⟩ := Except.bind_eq_ok hbody
  have hinside : InArray parameters.length ((bone * frames.toInt + frame) * 3) :=
    readVector3At_ok_iff.mp ⟨bonePosition, hposition⟩
  have hreads : CostFunctor.ReadsWithin parameters.length
      (.children ⟨colliders, childrenPositions, boneLengths, depth⟩) :=
    findChildren_readsWithin hfound
  exact hp.addResidualBlock hinside hreads hadd

end Builder

/-! ## Minimisations that end where they begin -/

namespace Ceres

variable {K : Type} [Scalar K] {p : Problem (CostFunctor K)} {memory : List K}
  {machine : Machine K} {options : Options K}

/-- If `Minimize` leaves before its loop, whatever the strategy, the array stays. -/
theorem solve_of_begin (h : p.Placed memory.length) (hmin : options.minLmDiagonal ≠ 0)
    (hbegin : ∀ strategy x, options.IsValid → p.usedBlocks ≠ [] →
      (p.reduced machine.reorder).copyToUserState (List.ofFn x) memory = .ok memory →
      ∃ summary, (machine.environment options memory (p.reduced machine.reorder)).begin strategy x =
        .ok (.leave summary) ∧ summary.parameters = x) :
    solve machine options p memory = .ok memory := by
  rw [solve_eq]
  split
  · rename_i hrun
    obtain ⟨state, hstate, hlength, hback⟩ := h.parameterBlocksToStateVector machine.reorder_perm
    obtain ⟨strategy, hstrategy⟩ := (create_ok_iff hrun.1).mpr hmin
    have hstarts := hback
    rw [← ofFn_getD hlength] at hstarts
    obtain ⟨summary, hsummary, hparameters⟩ := hbegin strategy _ hrun.1 hrun.2 hstarts
    simp only [minimizeProgram, Environment.minimize, hstate, hstrategy, hsummary, Except.ok_bind,
      pure_bind, hparameters]
    split
    · exact hstarts
    · rfl
  · rfl

/-- Without colliders no block can be evaluated. -/
theorem solve_without_colliders (h : p.Placed memory.length) (hmin : options.minLmDiagonal ≠ 0)
    (hnone : ∀ rb ∈ p.residualBlocks, rb.costFunction.colliders = []) (machine : Machine K) :
    solve machine options p memory = .ok memory := by
  refine solve_of_begin h hmin fun strategy x _ hused hstarts => ?_
  obtain ⟨b, hb⟩ := List.exists_mem_of_ne_nil _ hused
  have hany := (List.mem_filter.mp hb).2
  cases hblocks : p.residualBlocks with
  | nil => simp [hblocks] at hany
  | cons rb rest =>
    have hrb : rb ∈ p.residualBlocks := by simp [hblocks]
    obtain ⟨y, hy⟩ := readVector3At_ok_iff.mpr (h.inArray hrb)
    obtain ⟨residuals, hresiduals, -⟩ := CostFunctor.evaluate_of_readsWithin (h.reads rb hrb) y
    have hinvalid : residualsAt memory rb.costFunction y = .error .invalidEvaluation := by
      rw [residualsAt, hresiduals]
      simp [CostFunctor.penetration, hnone rb hrb, validate]
    have hcost : cost memory memory (p.reduced machine.reorder) = .error .invalidEvaluation := by
      simp only [cost, Problem.reduced, hblocks, List.foldlM_cons, blockCost, hy, hinvalid,
        Except.ok_bind, Except.error_bind]
    have heverything : (programEvaluator memory (p.reduced machine.reorder)).evaluate x =
        .ok none := by
      simp only [programEvaluator, programEvaluate, hstarts, hcost, Except.ok_bind,
        Except.error_bind, catchInvalid]
    exact ⟨_, congrArg (fun e => e >>= _) heverything, rfl⟩

theorem exists_bind {α β : Type} {x : Except Fault α} {f : α → Except Fault β}
    (hx : ∃ a, x = .ok a) (hf : ∀ a, ∃ b, f a = .ok b) : ∃ b, (x >>= f) = .ok b := by
  obtain ⟨a, rfl⟩ := hx
  exact hf a

theorem exists_mapM {α β : Type} {f : α → Except Fault β} {l : List α}
    (h : ∀ a ∈ l, ∃ b, f a = .ok b) : ∃ bs, l.mapM f = .ok bs := by
  induction l with
  | nil => exact ⟨[], rfl⟩
  | cons a l ih =>
    obtain ⟨b, hb⟩ := h a (by simp)
    obtain ⟨bs, hbs⟩ := ih fun a' ha' => h a' (by simp [ha'])
    exact ⟨b :: bs, by simp only [List.mapM_cons, hb, hbs, Except.ok_bind]; rfl⟩

/-- Where all blocks rest everything can be evaluated, and the gradient is zero. -/
theorem AllResting.programEvaluate {m : Nat} (h : AllResting memory memory p)
    {x : Fin p.numParameters → K} (hx : p.copyToUserState (List.ofFn x) memory = .ok memory) :
    ∃ e : Evaluation K m p.numParameters, programEvaluate memory p x = .ok e ∧ e.gradient = 0 := by
  have hresiduals : ∃ residuals, residualVector memory memory p = .ok residuals := by
    refine exists_bind (exists_mapM fun rb hrb => ?_) fun blocks => ⟨_, rfl⟩
    obtain ⟨y, hy, hrest⟩ := h rb hrb
    exact exists_bind ⟨y, hy⟩ fun y => (hrest.total y).imp fun _ h => h.1
  have hrows : ∃ rows, jacobianRows memory memory p = .ok rows := by
    refine exists_bind (exists_mapM fun rb hrb => ?_) fun blocks => ⟨_, rfl⟩
    obtain ⟨y, hy, hrest⟩ := h rb hrb
    have hcolumns : ∃ columns, blockJacobian memory memory rb = .ok columns := by
      refine exists_bind ⟨y, hy⟩ fun y => exists_mapM fun j _ => ?_
      exact exists_bind ((hrest.total _).imp fun _ h => h.1) fun _ =>
        exists_bind ((hrest.total _).imp fun _ h => h.1) fun _ => ⟨_, rfl⟩
    exact exists_bind hcolumns fun _ => ⟨_, rfl⟩
  obtain ⟨residuals, hresiduals⟩ := hresiduals
  obtain ⟨rows, hrows⟩ := hrows
  simp only [Ceres.programEvaluate, hx, h.cost_eq, hresiduals, h.gradient_eq, hrows, Except.ok_bind]
  refine ⟨_, rfl, funext fun c => ?_⟩
  have hzero : ∀ g ∈ (List.replicate p.parameterBlocks.length (⟨0, 0, 0⟩ : Vector3d K)).flatMap
      Vector3d.toList, g = 0 := by
    simp [Vector3d.toList]
  simp only [List.getD_eq_getElem?_getD, Pi.zero_apply]
  cases hget : ((List.replicate p.parameterBlocks.length (⟨0, 0, 0⟩ : Vector3d K)).flatMap
      Vector3d.toList)[c.val]? with
  | none => rfl
  | some g => exact hzero g (List.mem_of_getElem? hget)

theorem maxNorm_zero {n : Nat} : maxNorm (0 : Fin n → K) = 0 := by
  have hfold : ∀ k : Nat, (List.replicate k (0 : K)).foldr max 0 = 0 := by
    intro k
    induction k with
    | zero => rfl
    | succ k ih => simp [List.replicate_succ, ih]
  simpa [maxNorm, List.ofFn_const] using hfold n

/-- Where all blocks rest the minimisation converges at once. -/
theorem solve_at_rest (h : p.Placed memory.length) (hmin : options.minLmDiagonal ≠ 0)
    (hrest : AllResting memory memory p) (machine : Machine K) :
    solve machine options p memory = .ok memory := by
  refine solve_of_begin h hmin fun strategy x hvalid _ hstarts => ?_
  have hreduced : AllResting memory memory (p.reduced machine.reorder) := hrest
  obtain ⟨e, he, hgradient⟩ := hreduced.programEvaluate hstarts
  have hevaluate : (machine.environment options memory (p.reduced machine.reorder)).evaluator.evaluate
      x = .ok (some e) := catchInvalid_eq_some.mpr he
  have hstep : gradientStep x e.gradient = 0 := by simp [gradientStep, hgradient]
  have hsmall : maxNorm (gradientStep x e.gradient) ≤ options.gradientTolerance := by
    rw [hstep, maxNorm_zero]
    exact hvalid.gradientTolerance
  simp only [Environment.begin, hevaluate, Except.ok_bind]
  rw [if_pos (by exact hsmall)]
  exact ⟨_, rfl, rfl⟩

end Ceres

namespace CeresWrapper

open Ceres

variable {K : Type} [Scalar K] {platform : Platform} {memory : Uninitialised K}
  {file : Option Text} {input : Input K} {problem : Problem (CostFunctor K)}

/-- The rest of `main`, once the problem is built. -/
theorem main_eq {solve : Problem (CostFunctor K) → List K → Except Fault (List K)}
    {parameters : List K} (hread : readFile file memory 0 = .ok input)
    (hbuilt : maintainBoneLengthChildrenFunction platform input.colliders input.frames
      input.numBones input.positions input.parents = .ok problem)
    (hsolve : solve problem input.positions = .ok parameters) (showDouble : K → Text)
    (filename : String) (opens : Bool) :
    main platform solve showDouble memory filename file opens =
      saveFile showDouble filename opens parameters input.frames := by
  simp only [main, hread, hbuilt, hsolve, Except.mapError, Except.ok_bind]

theorem minLmDiagonal_default : (Options.default : Options K).minLmDiagonal ≠ 0 := by
  norm_num [Options.default]

/-- For every file that is read and built, `main` returns from Ceres under the default
    options. What it saves is in as many numbers and costs no more than the
    positions it has read. -/
theorem main_noWorse (hread : readFile file memory 0 = .ok input)
    (hbuilt : maintainBoneLengthChildrenFunction platform input.colliders input.frames
      input.numBones input.positions input.parents = .ok problem)
    (machine : Machine K) (showDouble : K → Text) (filename : String) (opens : Bool) :
    ∃ parameters,
      main platform (solve machine .default) showDouble memory filename file opens =
        saveFile showDouble filename opens parameters input.frames ∧
      NoWorse problem input.positions parameters := by
  have hplaced := maintainBoneLengthChildrenFunction_placed hbuilt
  obtain ⟨parameters, hsolve, hnoWorse⟩ := solve_ok hplaced minLmDiagonal_default machine
  exact ⟨parameters, main_eq hread hbuilt hsolve showDouble filename opens, hnoWorse⟩

/-- A bone behind the plane `y = 0`. -/
theorem main_noWorse_oneBone :
    ∃ problem parameters, maintainBoneLengthChildrenFunction win64
        [(⟨⟨0, 0, 0⟩, ⟨0, 1, 0⟩⟩ : Collider ℚ)] 1 1 [0, -1, 0] [0] = .ok problem ∧
      main win64 (solve diagonalMachine .default) (fun q => showInt q.num) Uninitialised.zeros "walk"
          (some "1 1 1 0 -1 0 0 0 0 0 1 0 0 ".toList) true =
        saveFile (fun q => showInt q.num) "walk" true parameters 1 ∧
      NoWorse problem [0, -1, 0] parameters := by
  have hread : readFile (some "1 1 1 0 -1 0 0 0 0 0 1 0 0 ".toList) Uninitialised.zeros 0 =
      .ok ⟨[⟨⟨0, 0, 0⟩, ⟨0, 1, 0⟩⟩], [0, -1, 0], 1, 1, [0]⟩ := by decide +kernel
  have hparents : ([0] : List Int32).length = 1 := rfl
  have hbuilt := maintainBoneLengthChildrenFunction_eq win64 [(⟨⟨0, 0, 0⟩, ⟨0, 1, 0⟩⟩ : Collider ℚ)]
    (by rfl : (1 : Int32).toInt = (1 : Nat)) (by rfl : (1 : Int32).toInt = (1 : Nat)) hparents
    (by decide : 1 * 1 * 3 ≤ ([0, -1, 0] : List ℚ).length)
  obtain ⟨parameters, hmain, hnoWorse⟩ := main_noWorse hread hbuilt diagonalMachine
    (fun q => showInt q.num) "walk" true
  exact ⟨_, parameters, hbuilt, hmain, hnoWorse⟩

/-- A file without colliders is saved as it was read, whatever is done about the
    lengths of its bones. -/
theorem main_without_colliders (hread : readFile file memory 0 = .ok input)
    (hbuilt : maintainBoneLengthChildrenFunction platform input.colliders input.frames
      input.numBones input.positions input.parents = .ok problem)
    (hnone : input.colliders = []) (machine : Machine K) (showDouble : K → Text)
    (filename : String) (opens : Bool) :
    main platform (solve machine .default) showDouble memory filename file opens =
      saveFile showDouble filename opens input.positions input.frames := by
  have hplaced := maintainBoneLengthChildrenFunction_placed hbuilt
  have hregistered := maintainBoneLengthChildrenFunction_registered hbuilt
  have hsolve := solve_without_colliders hplaced minLmDiagonal_default
    (fun rb hrb => (hregistered rb hrb).colliders.trans hnone) machine
  exact main_eq hread hbuilt hsolve showDouble filename opens

/-- A bone and no collider. -/
theorem main_without_colliders_oneBone :
    main win64 (solve diagonalMachine .default) (fun q => showInt q.num) Uninitialised.zeros "walk"
        (some "1 1 0 1 2 3 0 ".toList) true =
      saveFile (fun q => showInt q.num) "walk" true ([1, 2, 3] : List ℚ) 1 := by
  have hread : readFile (some "1 1 0 1 2 3 0 ".toList) Uninitialised.zeros 0 =
      .ok ⟨[], [1, 2, 3], 1, 1, [0]⟩ := by decide +kernel
  have hparents : ([0] : List Int32).length = 1 := rfl
  have hbuilt := maintainBoneLengthChildrenFunction_eq win64 ([] : List (Collider ℚ))
    (by rfl : (1 : Int32).toInt = (1 : Nat)) (by rfl : (1 : Int32).toInt = (1 : Nat)) hparents
    (by decide : 1 * 1 * 3 ≤ ([1, 2, 3] : List ℚ).length)
  exact main_without_colliders hread hbuilt rfl diagonalMachine (fun q => showInt q.num) "walk" true

/-- A clean animation is saved as it was read. -/
theorem main_clean {B F : Nat} (hread : readFile file memory 0 = .ok input)
    (hcolliders : input.colliders ≠ []) (hB : input.numBones.toInt = B)
    (hF : input.frames.toInt = F) (hparents : input.parents.length = B)
    (hpositions : input.positions.length = B * F * 3)
    (hclean : CleanStart.NoPenetration input.colliders input.positions B F)
    (platform : Platform) (machine : Machine K) (showDouble : K → Text) (filename : String)
    (opens : Bool) :
    main platform (solve machine .default) showDouble memory filename file opens =
      saveFile showDouble filename opens input.positions input.frames := by
  have hbuilt := maintainBoneLengthChildrenFunction_eq platform input.colliders hB hF hparents
    hpositions.ge
  have hrest := CleanStart.allResting_children hcolliders hclean hpositions platform hparents
  have hsolve := solve_at_rest (maintainBoneLengthChildrenFunction_placed hbuilt)
    minLmDiagonal_default hrest machine
  exact main_eq hread hbuilt hsolve showDouble filename opens

/-- A bone above the plane `y = 0`. -/
theorem main_clean_oneBone :
    main win64 (solve diagonalMachine .default) (fun q => showInt q.num) Uninitialised.zeros "walk"
        (some "1 1 1 0 2 0 0 0 0 0 1 0 0 ".toList) true =
      saveFile (fun q => showInt q.num) "walk" true ([0, 2, 0] : List ℚ) 1 := by
  have hread : readFile (some "1 1 1 0 2 0 0 0 0 0 1 0 0 ".toList) Uninitialised.zeros 0 =
      .ok ⟨[⟨⟨0, 0, 0⟩, ⟨0, 1, 0⟩⟩], [0, 2, 0], 1, 1, [0]⟩ := by decide +kernel
  have hclean : CleanStart.NoPenetration [⟨⟨0, 0, 0⟩, ⟨0, 1, 0⟩⟩] ([0, 2, 0] : List ℚ) 1 1 := by
    have hpoints : ∀ b < 1, ∀ f < 1, ∀ collider ∈ [(⟨⟨0, 0, 0⟩, ⟨0, 1, 0⟩⟩ : Collider ℚ)],
        ¬ 0 < (collider.planePosition - positionAt ([0, 2, 0] : List ℚ) 1 b f).dot
          collider.planeNormal := by decide +kernel
    exact fun b f hb hf => hpoints b hb f hf
  exact main_clean hread (List.cons_ne_nil _ _) rfl rfl rfl rfl hclean win64 diagonalMachine
    (fun q => showInt q.num) "walk" true

end CeresWrapper
