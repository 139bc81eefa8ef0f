-- SUMMARY: What one evaluation gives fits together: the cost is half the square of the residuals, the gradient the transposed Jacobian times them.
import Mathlib.Algebra.BigOperators.Fin
import Mathlib.Algebra.BigOperators.Ring.List
import SmoothMotion.Lib.Grid
import SmoothMotion.Lib.LeastSquares
import SmoothMotion.Lib.Separable
import SmoothMotion.Solver.NeverWorse

/-!
# Derivatives

One evaluation adds up the cost of a block and copies its residuals, and it writes
the derivatives of a block twice: into the Jacobian, at the rows of its residuals
and the columns of its parameters, and into the gradient, at its parameters only.
The minimiser takes its model from the ones and its decisions from the others, so
they have to agree.
-/

/-! ## Sums over lists -/

section Lists

variable {α β K : Type}

/-- The value of a computation that returns. -/
def valueD (d : β) (x : Except Fault β) : β := x.toOption.getD d

theorem valueD_ok (d b : β) : valueD d (.ok b) = b := rfl

theorem mapM_eq_map (d : β) {f : α → Except Fault β} {l : List α} {bs : List β}
    (h : l.mapM f = .ok bs) :
    bs = l.map (fun a => valueD d (f a)) ∧ ∀ a ∈ l, f a = .ok (valueD d (f a)) := by
  induction l generalizing bs with
  | nil =>
    cases h
    exact ⟨rfl, by simp⟩
  | cons a l ih =>
    rw [List.mapM_cons] at h
    obtain ⟨b, hb, h⟩ := Except.bind_eq_ok h
    obtain ⟨bs', hbs, h⟩ := Except.bind_eq_ok h
    cases h
    obtain ⟨rfl, hall⟩ := ih hbs
    refine ⟨by rw [List.map_cons, hb, valueD_ok], ?_⟩
    intro a' ha'
    rcases List.mem_cons.mp ha' with rfl | ha'
    · rw [hb, valueD_ok]
    · exact hall a' ha'

/-- Products of what several lists make up together. -/
theorem sum_zipWith_flatMap [Semiring K] {l : List α} {f g : α → List K}
    (h : ∀ a ∈ l, (f a).length = (g a).length) :
    (List.zipWith (· * ·) (l.flatMap f) (l.flatMap g)).sum =
      (l.map fun a => (List.zipWith (· * ·) (f a) (g a)).sum).sum := by
  induction l with
  | nil => rfl
  | cons a l ih =>
    rw [List.flatMap_cons, List.flatMap_cons, List.zipWith_append (h a (by simp)), List.sum_append,
      ih fun a' ha' => h a' (by simp [ha']), List.map_cons, List.sum_cons]

theorem sum_getD_mul [Semiring K] {xs ys : List K} {m : Nat} (hx : xs.length = m)
    (hy : ys.length = m) :
    ∑ r : Fin m, xs.getD r 0 * ys.getD r 0 = (List.zipWith (· * ·) xs ys).sum := by
  subst hx
  rw [← List.sum_ofFn]
  congr 1
  apply List.ext_getElem
  · simp [hy]
  · intro i hi hi'
    have hi'' : i < ys.length := by simpa [hy] using hi'
    simp [List.getElem?_eq_getElem hi'']

theorem sum_zipWith_zero [Semiring K] {γ : Type} (l : List γ) (ys : List K) :
    (List.zipWith (· * ·) (l.map fun _ => (0 : K)) ys).sum = 0 := by
  induction l generalizing ys with
  | nil => simp
  | cons a l ih =>
    cases ys with
    | nil => simp
    | cons y ys => simpa using ih ys

theorem sum_map_ite_filter [AddMonoid K] (l : List α) (p : α → Prop) [DecidablePred p] (g : α → K) :
    (l.map fun a => if p a then g a else 0).sum = ((l.filter p).map g).sum := by
  induction l with
  | nil => rfl
  | cons a l ih =>
    by_cases ha : p a
    · simp [ha, ih]
    · simp [ha, ih]

/-- Entry `c` of a transposed product, piece by piece. -/
theorem sum_flatten_getD [Semiring K] {l : List α} {rows : α → List (List K)} {ys : α → List K}
    {count : α → Nat} (hrows : ∀ a ∈ l, (rows a).length = count a)
    (hys : ∀ a ∈ l, (ys a).length = count a) (c : Nat) :
    ∑ r : Fin (l.map count).sum,
        ((l.map rows).flatten.getD r []).getD c 0 * (l.map ys).flatten.getD r 0 =
      (l.map fun a => (List.zipWith (· * ·) ((rows a).map fun row => row.getD c 0) (ys a)).sum).sum := by
  have hentry : ∀ (rows : List (List K)) (r : Nat),
      (rows.getD r []).getD c 0 = (rows.map fun row => row.getD c 0).getD r 0 := by
    intro rows r
    simp only [List.getD_eq_getElem?_getD, List.getElem?_map]
    cases rows[r]? <;> rfl
  simp only [hentry, ← List.flatMap_def, List.map_flatMap]
  rw [sum_getD_mul, sum_zipWith_flatMap]
  · intro a ha
    rw [List.length_map, hrows a ha, hys a ha]
  · rw [List.length_flatMap]
    exact congrArg List.sum (List.map_congr_left fun a ha => by rw [List.length_map, hrows a ha])
  · rw [List.length_flatMap, List.map_congr_left hys]

end Lists

namespace Ceres

variable {K : Type} [Scalar K] {memory q : List K} {p : Problem (CostFunctor K)}

/-! ## One block -/

omit [Scalar K] in
theorem length_validate {residual : Residual K} {residuals : List K}
    (h : validate residual = .ok residuals) : residuals.length = residual.length := by
  induction residual generalizing residuals with
  | nil =>
    cases h
    rfl
  | cons r residual ih =>
    cases r with
    | none => cases h
    | some r =>
      obtain ⟨residuals', hrest, h⟩ := Except.bind_eq_ok h
      cases h
      simp [ih hrest]

omit [Scalar K] in
theorem length_assignPenetration (value : Collider K → K) (colliders : List (Collider K))
    (residual : Residual K) :
    (assignPenetration value colliders residual).length = residual.length := by
  induction colliders generalizing residual with
  | nil => rfl
  | cons collider colliders ih =>
    have hrest := ih (residual.set 0 (some (value collider)))
    rw [List.length_set] at hrest
    exact hrest

theorem length_residualsAt {f : CostFunctor K} {x : Vector3d K} {residuals : List K}
    (h : residualsAt memory f x = .ok residuals) : residuals.length = f.numResiduals := by
  obtain ⟨residual, hresidual, h⟩ := Except.bind_eq_ok h
  rw [length_validate h]
  cases f with
  | basic f =>
    cases hresidual
    simp [BasicCollisionResolutionFunction.operator, length_assignPenetration]
  | length f =>
    obtain ⟨parent, -, hresidual⟩ := Except.bind_eq_ok hresidual
    cases hresidual
    simp [length_assignPenetration]
  | children f =>
    obtain ⟨total, -, hresidual⟩ := Except.bind_eq_ok hresidual
    cases hresidual
    simp [length_assignPenetration]

theorem length_jacobianColumn {f : CostFunctor K} {x : Vector3d K} {j : Nat} {column : List K}
    (h : jacobianColumn memory f x j = .ok column) : column.length = f.numResiduals := by
  obtain ⟨forward, hforward, h⟩ := Except.bind_eq_ok h
  obtain ⟨backward, hbackward, h⟩ := Except.bind_eq_ok h
  cases h
  simp [length_residualsAt hforward, length_residualsAt hbackward]

/-- The three columns of a block. -/
theorem blockJacobian_eq {rb : ResidualBlock (CostFunctor K)} {columns : List (List K)}
    {x : Vector3d K} (hx : readVector3At q rb.parameterBlock.values = .ok x)
    (h : blockJacobian memory q rb = .ok columns) :
    columns.length = 3 ∧
      ∀ j < 3, jacobianColumn memory rb.costFunction x j = .ok (columns.getD j []) := by
  rw [blockJacobian, hx] at h
  obtain ⟨rfl, hall⟩ := mapM_eq_map [] h
  refine ⟨by simp, fun j hj => ?_⟩
  rw [List.getD_eq_getElem _ _ (by simpa using hj), List.getElem_map, List.getElem_range]
  exact hall j (List.mem_range.mpr hj)

theorem length_blockJacobian {rb : ResidualBlock (CostFunctor K)} {residuals : List K}
    {columns : List (List K)} (hresiduals : blockResiduals memory q rb = .ok residuals)
    (hcolumns : blockJacobian memory q rb = .ok columns) :
    columns.length = 3 ∧ ∀ j < 3, (columns.getD j []).length = residuals.length := by
  obtain ⟨x, hx, hresiduals⟩ := Except.bind_eq_ok hresiduals
  obtain ⟨hlength, hcolumn⟩ := blockJacobian_eq hx hcolumns
  refine ⟨hlength, fun j hj => ?_⟩
  rw [length_jacobianColumn (hcolumn j hj), length_residualsAt hresiduals]

/-- The gradient of a block is made of its columns and its residuals. -/
theorem blockGradient_eq {rb : ResidualBlock (CostFunctor K)} {residuals : List K}
    {columns : List (List K)} {g : Vector3d K} (hresiduals : blockResiduals memory q rb = .ok residuals)
    (hcolumns : blockJacobian memory q rb = .ok columns)
    (hgradient : blockGradient memory q rb = .ok g) {j : Nat} (hj : j < 3) :
    g.toList.getD j 0 = (List.zipWith (· * ·) (columns.getD j []) residuals).sum := by
  obtain ⟨x, hx, hresiduals⟩ := Except.bind_eq_ok hresiduals
  obtain ⟨-, hcolumn⟩ := blockJacobian_eq hx hcolumns
  have hentry : ∀ j < 3, gradientEntry memory rb.costFunction x j =
      .ok (List.zipWith (· * ·) (columns.getD j []) residuals).sum := by
    intro j hj
    simp only [gradientEntry, hresiduals, hcolumn j hj, Except.ok_bind]
    rfl
  simp only [blockGradient, hx, Except.ok_bind, hentry 0 (by decide), hentry 1 (by decide),
    hentry 2 (by decide)] at hgradient
  cases hgradient
  obtain rfl | rfl | rfl : j = 0 ∨ j = 1 ∨ j = 2 := by omega
  all_goals rfl

/-! ## All blocks -/

/-- A component of a sum of vectors. -/
theorem foldlM_add {α : Type} {g : α → Except Fault (Vector3d K)} {l : List α} {z v : Vector3d K}
    (h : l.foldlM (fun total a => do return total + (← g a)) z = .ok v) {j : Nat} (hj : j < 3) :
    (∀ a ∈ l, g a = .ok (valueD ⟨0, 0, 0⟩ (g a))) ∧
      v.toList.getD j 0 =
        z.toList.getD j 0 + (l.map fun a => (valueD ⟨0, 0, 0⟩ (g a)).toList.getD j 0).sum := by
  induction l generalizing z with
  | nil =>
    cases h
    simp
  | cons a l ih =>
    rw [List.foldlM_cons] at h
    obtain ⟨z', hz', h⟩ := Except.bind_eq_ok h
    obtain ⟨w, hw, hz'⟩ := Except.bind_eq_ok hz'
    cases hz'
    obtain ⟨hall, hsum⟩ := ih h
    have hadd : (z + w).toList.getD j 0 = z.toList.getD j 0 + w.toList.getD j 0 := by
      obtain rfl | rfl | rfl : j = 0 ∨ j = 1 ∨ j = 2 := by omega
      all_goals rfl
    refine ⟨?_, ?_⟩
    · intro a' ha'
      rcases List.mem_cons.mp ha' with rfl | ha'
      · rw [hw, valueD_ok]
      · exact hall a' ha'
    · rw [hsum, hadd, List.map_cons, List.sum_cons, hw, valueD_ok, add_assoc]

/-- An entry of a row, at parameter `j` of block `b`. -/
theorem row_getD {blocks : List ParameterBlock} (hsizes : ∀ b ∈ blocks, b.size = 3)
    {columns : List (List K)} (hcolumns : columns.length = 3) (on b : ParameterBlock) (r : Nat)
    {k j : Nat} (hb : blocks[k]? = some b) (hj : j < 3) :
    (blocks.flatMap fun b => if on = b then columns.map fun column => column.getD r 0
      else List.replicate b.size 0).getD (k * 3 + j) 0 =
      if on = b then (columns.getD j []).getD r 0 else 0 := by
  have hpieces : ∀ b ∈ blocks, (if on = b then columns.map fun column => column.getD r 0
      else List.replicate b.size 0).length = 3 := by
    intro b hb
    split
    · simpa using hcolumns
    · simpa using hsizes b hb
  rw [List.getD_eq_getElem?_getD, Grid.getElem?_flatMap hpieces hj, hb, Option.bind_some]
  split
  · have hcolumn : columns.getD j [] = columns[j] := List.getD_eq_getElem _ _ (by omega)
    rw [List.getElem?_map, List.getElem?_eq_getElem (by omega), hcolumn]
    rfl
  · rw [List.getElem?_replicate]
    split <;> rfl

/-- The part of a block in one entry of the transposed product. -/
theorem sum_blockRows {blocks : List ParameterBlock} (hsizes : ∀ b ∈ blocks, b.size = 3)
    {columns : List (List K)} (hcolumns : columns.length = 3) (on b : ParameterBlock)
    {residuals : List K} {k j : Nat} (hb : blocks[k]? = some b) (hj : j < 3)
    (hlength : (columns.getD j []).length = residuals.length) :
    (List.zipWith (· * ·)
      (((List.range residuals.length).map fun r =>
        blocks.flatMap fun b => if on = b then columns.map fun column => column.getD r 0
          else List.replicate b.size 0).map fun row => row.getD (k * 3 + j) 0) residuals).sum =
      if on = b then (List.zipWith (· * ·) (columns.getD j []) residuals).sum else 0 := by
  have hentries : (((List.range residuals.length).map fun r =>
      blocks.flatMap fun b => if on = b then columns.map fun column => column.getD r 0
        else List.replicate b.size 0).map fun row => row.getD (k * 3 + j) 0) =
      (List.range residuals.length).map fun r =>
        if on = b then (columns.getD j []).getD r 0 else 0 := by
    rw [List.map_map]
    apply List.map_congr_left
    intro r _
    exact row_getD hsizes hcolumns on b r hb hj
  rw [hentries]
  split
  · generalize columns.getD j [] = column at hlength
    have hcolumn : (List.range residuals.length).map (fun r => column.getD r 0) = column := by
      apply List.ext_getElem (by simpa using hlength.symm)
      intro r hr hr'
      simp [List.getElem?_eq_getElem hr']
    rw [hcolumn]
  · exact sum_zipWith_zero _ residuals

/-- A block whose rows were written: its columns, its residuals, and the rows they make. -/
theorem blockRows_eq {rb : ResidualBlock (CostFunctor K)} {rows : List (List K)} {residuals : List K}
    (hresiduals : blockResiduals memory q rb = .ok residuals)
    (h : blockRows memory q p.parameterBlocks rb = .ok rows) :
    ∃ columns, blockJacobian memory q rb = .ok columns ∧
      rows = (List.range residuals.length).map fun r => p.parameterBlocks.flatMap fun b =>
        if rb.parameterBlock = b then columns.map fun column => column.getD r 0
        else List.replicate b.size 0 := by
  obtain ⟨columns, hcolumns, h⟩ := Except.bind_eq_ok h
  obtain ⟨x, -, hresiduals⟩ := Except.bind_eq_ok hresiduals
  cases h
  exact ⟨columns, hcolumns, by rw [length_residualsAt hresiduals]⟩

/-- The costs of the blocks add up. -/
theorem cost_eq_sum {c : K} (h : cost memory q p = .ok c) :
    c = 1 / 2 * (p.residualBlocks.map fun rb =>
      ((valueD [] (blockResiduals memory q rb)).map fun r => r * r).sum).sum := by
  have htotal : Separable.total (fun rb q => blockCost memory q rb) p.residualBlocks q = .ok c := h
  obtain ⟨hgiven, rfl⟩ := Separable.total_eq_ok_iff.mp htotal
  rw [← List.sum_map_mul_left]
  congr 1
  apply List.map_congr_left
  intro rb hrb
  obtain ⟨v, hv⟩ := hgiven rb hrb
  rw [hv]
  obtain ⟨x, hx, hv⟩ := Except.bind_eq_ok hv
  obtain ⟨residuals, hresiduals, hv⟩ := Except.bind_eq_ok hv
  cases hv
  have hblock : blockResiduals memory q rb = .ok residuals := by
    rw [blockResiduals, hx]
    exact hresiduals
  rw [hblock]
  rfl

/-- Whenever everything is evaluated, the cost is `r' r / 2` and the gradient `J' r`. -/
structure Evaluation.Consistent {m n : Nat} (e : Evaluation K m n) : Prop where
  cost : e.cost = LeastSquares.halfSquare e.residuals
  gradient : e.gradient = e.jacobian.transpose.mulVec e.residuals

section Evaluate

variable {x : Fin p.numParameters → K} {e : Evaluation K (numResiduals p) p.numParameters}

/-- Half the square of all residuals is what the blocks cost together. -/
theorem programEvaluate_cost (h : programEvaluate memory p x = .ok e) :
    e.cost = LeastSquares.halfSquare e.residuals := by
  obtain ⟨q, -, h⟩ := Except.bind_eq_ok h
  obtain ⟨c, hc, h⟩ := Except.bind_eq_ok h
  obtain ⟨residuals, hresiduals, h⟩ := Except.bind_eq_ok h
  obtain ⟨gradient, -, h⟩ := Except.bind_eq_ok h
  obtain ⟨rows, -, h⟩ := Except.bind_eq_ok h
  cases h
  obtain ⟨_, hresiduals', heq⟩ := Except.bind_eq_ok hresiduals
  cases heq
  obtain ⟨rfl, hresidualsOf⟩ := mapM_eq_map [] hresiduals'
  have hcount : ∀ rb ∈ p.residualBlocks,
      (valueD [] (blockResiduals memory q rb)).length = rb.costFunction.numResiduals := by
    intro rb hrb
    obtain ⟨x, -, hx⟩ := Except.bind_eq_ok (hresidualsOf rb hrb)
    exact length_residualsAt hx
  have hlength : (p.residualBlocks.flatMap fun rb =>
      valueD [] (blockResiduals memory q rb)).length = numResiduals p := by
    rw [List.length_flatMap, numResiduals, List.map_congr_left hcount]
  have hsquares := sum_getD_mul hlength hlength
  rw [sum_zipWith_flatMap fun _ _ => rfl] at hsquares
  have hcost := cost_eq_sum hc
  simp only [← List.flatMap_def]
  rw [LeastSquares.halfSquare_eq, dotProduct, hsquares, hcost]
  simp only [List.zipWith_self]
  ring

/-- An entry of the gradient is that of its block, which adds up what the residual
    blocks on it have in the column of the Jacobian. -/
theorem programEvaluate_gradient (hsizes : ∀ b ∈ p.parameterBlocks, b.size = 3)
    (h : programEvaluate memory p x = .ok e) :
    e.gradient = e.jacobian.transpose.mulVec e.residuals := by
  obtain ⟨q, -, h⟩ := Except.bind_eq_ok h
  obtain ⟨cost, -, h⟩ := Except.bind_eq_ok h
  obtain ⟨residuals, hresiduals, h⟩ := Except.bind_eq_ok h
  obtain ⟨gradient, hgradient, h⟩ := Except.bind_eq_ok h
  obtain ⟨rows, hrows, h⟩ := Except.bind_eq_ok h
  cases h
  obtain ⟨_, hresiduals', heq⟩ := Except.bind_eq_ok hresiduals
  cases heq
  obtain ⟨_, hrows', heq⟩ := Except.bind_eq_ok hrows
  cases heq
  obtain ⟨rfl, hresidualsOf⟩ := mapM_eq_map [] hresiduals'
  obtain ⟨rfl, hrowsOf⟩ := mapM_eq_map [] hrows'
  obtain ⟨rfl, hgradientOf⟩ := mapM_eq_map ⟨0, 0, 0⟩ hgradient
  funext c
  have htotal : p.numParameters = p.parameterBlocks.length * 3 := by
    have hsize : p.parameterBlocks.map (Extent.size ∘ ParameterBlock.extent) =
        p.parameterBlocks.map fun _ => 3 := List.map_congr_left hsizes
    rw [Problem.numParameters, Extent.total, List.map_map, hsize]
    simp
  have hk : c.val / 3 < p.parameterBlocks.length := by omega
  have hj : c.val % 3 < 3 := Nat.mod_lt _ (by decide)
  have hindex : c.val / 3 * 3 + c.val % 3 = c.val := Nat.div_add_mod' _ _
  have hb := List.getElem?_eq_getElem hk
  have hlength : ∀ rb ∈ p.residualBlocks,
      (valueD [] (blockResiduals memory q rb)).length = rb.costFunction.numResiduals := by
    intro rb hrb
    obtain ⟨x, -, hx⟩ := Except.bind_eq_ok (hresidualsOf rb hrb)
    exact length_residualsAt hx
  have hblock := fun rb (hrb : rb ∈ p.residualBlocks) =>
    blockRows_eq (hresidualsOf rb hrb) (hrowsOf rb hrb)
  have hrowLength : ∀ rb ∈ p.residualBlocks,
      (valueD [] (blockRows memory q p.parameterBlocks rb)).length =
        rb.costFunction.numResiduals := by
    intro rb hrb
    obtain ⟨columns, -, hrows⟩ := hblock rb hrb
    have hcount := congrArg List.length hrows
    rw [List.length_map, List.length_range] at hcount
    exact hcount.trans (hlength rb hrb)
  have hright := sum_flatten_getD hrowLength hlength c.val
  obtain ⟨hon, hleft⟩ := foldlM_add (hgradientOf _ (List.getElem_mem hk)) hj
  have hpart : ∀ rb ∈ p.residualBlocks,
      (List.zipWith (· * ·) ((valueD [] (blockRows memory q p.parameterBlocks rb)).map fun row =>
        row.getD c.val 0) (valueD [] (blockResiduals memory q rb))).sum =
      if rb.parameterBlock = p.parameterBlocks[c.val / 3] then
        (valueD ⟨0, 0, 0⟩ (blockGradient memory q rb)).toList.getD (c.val % 3) 0 else 0 := by
    intro rb hrb
    obtain ⟨columns, hcolumns, hrows⟩ := hblock rb hrb
    obtain ⟨hthree, hcolumnLength⟩ := length_blockJacobian (hresidualsOf rb hrb) hcolumns
    have hsum := sum_blockRows hsizes hthree rb.parameterBlock _ hb hj (hcolumnLength _ hj)
    rw [hindex, ← hrows] at hsum
    rw [hsum]
    split
    · rename_i hsame
      have hmem : rb ∈ p.residualBlocks.filter fun rb =>
          rb.parameterBlock = p.parameterBlocks[c.val / 3] :=
        List.mem_filter.mpr ⟨hrb, by simpa using hsame⟩
      exact (blockGradient_eq (hresidualsOf rb hrb) hcolumns (hon rb hmem) hj).symm
    · rfl
  rw [List.map_congr_left hpart, sum_map_ite_filter] at hright
  refine Eq.trans ?_ hright.symm
  have hzero : (⟨0, 0, 0⟩ : Vector3d K).toList.getD (c.val % 3) 0 = 0 := by
    obtain hc | hc | hc : c.val % 3 = 0 ∨ c.val % 3 = 1 ∨ c.val % 3 = 2 := by omega
    all_goals rw [hc]; rfl
  rw [hzero, zero_add] at hleft
  rw [← hleft]
  have hlength : ∀ v ∈ p.parameterBlocks.map fun b => valueD ⟨0, 0, 0⟩ ((p.residualBlocks.filter
      fun rb => rb.parameterBlock = b).foldlM (fun total rb => do
        return total + (← blockGradient memory q rb)) ⟨0, 0, 0⟩), (Vector3d.toList v).length = 3 :=
    fun v _ => v.length_toList
  have hentry := Grid.getElem?_flatMap hlength (i := c.val / 3) hj
  rw [hindex, List.getElem?_map, hb] at hentry
  simp only [List.getD_eq_getElem?_getD]
  exact congrArg (Option.getD · 0) hentry

end Evaluate

/-! ## The evaluator of a placed problem -/

/-- Whatever order the machine likes the blocks in, every evaluation that succeeds is
    consistent, and a candidate has the same cost when only the cost is asked for. -/
theorem programEvaluator_consistent (h : p.Placed memory.length) (machine : Machine K)
    {x : Fin (p.reduced machine.reorder).numParameters → K}
    {e : Evaluation K (numResiduals (p.reduced machine.reorder))
      (p.reduced machine.reorder).numParameters}
    (he : (programEvaluator memory (p.reduced machine.reorder)).evaluate x = .ok (some e)) :
    e.Consistent ∧
      (programEvaluator memory (p.reduced machine.reorder)).cost x =
        .ok (some (LeastSquares.halfSquare e.residuals)) := by
  have hsizes : ∀ b ∈ (p.reduced machine.reorder).parameterBlocks, b.size = 3 := by
    intro b hb
    have hused := (Problem.mem_reduced machine.reorder_perm).mp hb
    exact (h.blocks b (List.mem_of_mem_filter hused)).1
  have hevaluate := catchInvalid_eq_some.mp he
  have hcost := programEvaluate_cost hevaluate
  refine ⟨⟨hcost, programEvaluate_gradient hsizes hevaluate⟩, ?_⟩
  rw [← hcost]
  exact (programEvaluator memory (p.reduced machine.reorder)).cost_eq he

/-- The point behind the plane `y = 0`. -/
theorem programEvaluator_consistent_onePlane :
    ∃ e, (programEvaluator [0, -1, 0] (onePlane.reduced diagonalMachine.reorder)).evaluate
        (fun _ => -1) = .ok (some e) ∧ e.Consistent := by
  have hplaced : onePlane.Placed ([0, -1, 0] : List ℚ).length := placed_onePlane
  have hsome : ((programEvaluator [0, -1, 0] (onePlane.reduced diagonalMachine.reorder)).evaluate
      fun _ => -1).toOption.join.isSome = true := by decide +kernel
  cases he : (programEvaluator [0, -1, 0] (onePlane.reduced diagonalMachine.reorder)).evaluate
      (fun _ => -1) with
  | error fault =>
    rw [he] at hsome
    cases hsome
  | ok e =>
    cases e with
    | none =>
      rw [he] at hsome
      cases hsome
    | some e => exact ⟨e, rfl, (programEvaluator_consistent hplaced diagonalMachine he).1⟩

end Ceres
