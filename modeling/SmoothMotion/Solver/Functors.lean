-- SUMMARY: The three cost functors: what they keep from the time the problem was built, and what they write to their residuals.
import Mathlib.Data.List.GetD
import SmoothMotion.Lib.Loop
import SmoothMotion.Solver.Collider
import SmoothMotion.Solver.Problem

/-!
# Cost functors

A functor gets the candidate position `x` of its own bone. The positions of
other bones it reads through pointers into the user's array, here offsets into
`memory`. A residual that is not written stays what it was, which is nothing:
every collider overwrites residual `0`, and without colliders it is not written
at all.
-/

/-! ## Reading the user's array -/

section Memory

variable {α : Type}

/-- `p[i]`. -/
def readAt (memory : List α) (i : Int) : Except Fault α :=
  if i < 0 then .error .outOfBounds
  else match memory[i.toNat]? with
    | none => .error .outOfBounds
    | some a => .ok a

theorem readAt_of_lt {memory : List α} {i : Nat} (h : i < memory.length) :
    readAt memory i = .ok memory[i] := by
  simp [readAt, List.getElem?_eq_getElem h]

/-- `Vector3d(p[i], p[i + 1], p[i + 2])`. -/
def readVector3At (memory : List α) (i : Int) : Except Fault (Vector3d α) := do
  return ⟨← readAt memory i, ← readAt memory (i + 1), ← readAt memory (i + 2)⟩

/-- The three numbers from this index on are in an array of that length. -/
def InArray (length : Nat) (index : Int) : Prop := 0 ≤ index ∧ index + 2 < length

theorem readAt_ok_iff {memory : List α} {i : Int} :
    (∃ a, readAt memory i = .ok a) ↔ 0 ≤ i ∧ i < memory.length := by
  unfold readAt
  split
  · simp
    omega
  · rcases Nat.lt_or_ge i.toNat memory.length with hlt | hge
    · rw [List.getElem?_eq_getElem hlt]
      simp
      omega
    · rw [List.getElem?_eq_none hge]
      simp
      omega

theorem readVector3At_ok_iff {memory : List α} {i : Int} :
    (∃ v, readVector3At memory i = .ok v) ↔ InArray memory.length i := by
  constructor
  · rintro ⟨v, hv⟩
    obtain ⟨x, hx, hv⟩ := Except.bind_eq_ok hv
    obtain ⟨y, -, hv⟩ := Except.bind_eq_ok hv
    obtain ⟨z, hz, -⟩ := Except.bind_eq_ok hv
    have hfirst := readAt_ok_iff.mp ⟨x, hx⟩
    have hlast := readAt_ok_iff.mp ⟨z, hz⟩
    exact ⟨hfirst.1, hlast.2⟩
  · rintro ⟨hpos, hlt⟩
    obtain ⟨x, hx⟩ := readAt_ok_iff.mpr ⟨hpos, (by omega : i < memory.length)⟩
    obtain ⟨y, hy⟩ := readAt_ok_iff.mpr
      ⟨(by omega : 0 ≤ i + 1), (by omega : i + 1 < memory.length)⟩
    obtain ⟨z, hz⟩ := readAt_ok_iff.mpr ⟨(by omega : 0 ≤ i + 2), hlt⟩
    exact ⟨⟨x, y, z⟩, by simp only [readVector3At, hx, hy, hz, Except.ok_bind]; rfl⟩

/-- The vector in block `n` of an array of blocks of three. -/
def vectorAt [Zero α] (memory : List α) (n : Nat) : Vector3d α :=
  ⟨memory.getD (n * 3) 0, memory.getD (n * 3 + 1) 0, memory.getD (n * 3 + 2) 0⟩

theorem readVector3At_tile [Zero α] {memory : List α} {n : Nat} (h : n * 3 + 3 ≤ memory.length) :
    readVector3At memory (Problem.tile n).values = .ok (vectorAt memory n) := by
  have hx : readAt memory (n * 3 : Nat) = .ok memory[n * 3] := readAt_of_lt (by omega)
  have hy : readAt memory ((n * 3 + 1 : Nat) : Int) = .ok memory[n * 3 + 1] := readAt_of_lt (by omega)
  have hz : readAt memory ((n * 3 + 2 : Nat) : Int) = .ok memory[n * 3 + 2] := readAt_of_lt (by omega)
  rw [Nat.cast_add, Nat.cast_one] at hy
  rw [Nat.cast_add, Nat.cast_ofNat] at hz
  simp only [readVector3At, Problem.tile, hx, hy, hz, Except.ok_bind, vectorAt]
  rw [List.getD_eq_getElem _ _ (by omega), List.getD_eq_getElem _ _ (by omega),
    List.getD_eq_getElem _ _ (by omega)]
  rfl

theorem getElem?_block [Zero α] {memory : List α} {n k : Nat} (h : n * 3 + 3 ≤ memory.length)
    (hk : k < 3) : memory[n * 3 + k]? = (vectorAt memory n).toList[k]? := by
  have hget : ∀ j, j < memory.length → memory[j]? = some (memory.getD j 0) := by
    intro j hj
    simp [List.getElem?_eq_getElem hj]
  rw [hget _ (by omega)]
  obtain rfl | rfl | rfl : k = 0 ∨ k = 1 ∨ k = 2 := by omega
  all_goals rfl

/-- The vectors of a block are determined by its three numbers. -/
theorem vectorAt_congr [Zero α] {memory memory' : List α} {n : Nat}
    (h : ∀ k, k < 3 → memory[n * 3 + k]? = memory'[n * 3 + k]?) :
    vectorAt memory n = vectorAt memory' n := by
  have h0 := h 0 (by omega)
  rw [Nat.add_zero] at h0
  simp only [vectorAt, List.getD_eq_getElem?_getD, h0, h 1 (by omega), h 2 (by omega)]

theorem vectorAt_eq [Zero α] {memory : List α} {n : Nat} {v : Vector3d α}
    (h : ∀ k, k < 3 → memory[n * 3 + k]? = v.toList[k]?) : vectorAt memory n = v := by
  have h0 := h 0 (by omega)
  rw [Nat.add_zero] at h0
  simp only [vectorAt, List.getD_eq_getElem?_getD, h0, h 1 (by omega), h 2 (by omega)]
  rfl

end Memory

/-! ## The functors -/

/-- The residuals of a block: nothing where none was written. -/
abbrev Residual (K : Type) := List (Option K)

structure BasicCollisionResolutionFunction (K : Type) where
  colliders : List (Collider K)

structure MaintainBoneLengthFunction (K : Type) where
  colliders : List (Collider K)
  parentPosition : Int
  sqBoneLength : K

structure MaintainBoneLengthChildren (K : Type) where
  colliders : List (Collider K)
  childrenPositions : List Int
  sqBoneLengths : List K
  skeletonDepth : Nat

section Operators

variable {K : Type} [Scalar K]

/-- The loop over the colliders, with what it assigns to `residual[0]`. -/
def assignPenetration (value : Collider K → K) (colliders : List (Collider K))
    (residual : Residual K) : Residual K :=
  colliders.foldl (fun residual collider => residual.set 0 (some (value collider))) residual

def BasicCollisionResolutionFunction.operator (self : BasicCollisionResolutionFunction K)
    (x : Vector3d K) (residual : Residual K) : Residual K :=
  assignPenetration (fun collider => collider.intersectsPlane x) self.colliders residual

def MaintainBoneLengthFunction.operator (self : MaintainBoneLengthFunction K) (memory : List K)
    (x : Vector3d K) (residual : Residual K) : Except Fault (Residual K) := do
  let residual := assignPenetration (fun collider => collider.intersectsPlane x) self.colliders residual
  let parentPosition ← readVector3At memory self.parentPosition
  let boneLength := (parentPosition - x).norm
  let diff := boneLength - self.sqBoneLength
  return residual.set 1 (some diff)

/-- The loop over the children from the value `residual` of `residual[1]` on. -/
def addLengthDifferences (memory : List K) (x : Vector3d K) (skeletonDepth : Nat) :
    List Int → List K → K → Except Fault K
  | [], _, residual => .ok residual
  | _ :: _, [], _ => .error .outOfBounds
  | childPosition :: childrenPositions, sqBoneLength :: sqBoneLengths, residual => do
    let child ← readVector3At memory childPosition
    let boneLength := (child - x).norm
    let diff := boneLength - sqBoneLength
    addLengthDifferences memory x skeletonDepth childrenPositions sqBoneLengths
      (residual + diff * skeletonDepth)

def MaintainBoneLengthChildren.operator (self : MaintainBoneLengthChildren K) (memory : List K)
    (x : Vector3d K) (residual : Residual K) : Except Fault (Residual K) := do
  let residual :=
    assignPenetration (fun collider => collider.intersectsPlane x * 1000) self.colliders residual
  let total ← addLengthDifferences memory x self.skeletonDepth self.childrenPositions
    self.sqBoneLengths 0
  return residual.set 1 (some total)

end Operators

/-- The functor of a cost function. -/
inductive CostFunctor (K : Type) where
  | basic (f : BasicCollisionResolutionFunction K)
  | length (f : MaintainBoneLengthFunction K)
  | children (f : MaintainBoneLengthChildren K)

namespace CostFunctor

variable {K : Type} [Scalar K]

def numResiduals : CostFunctor K → Nat
  | .basic _ => 1
  | .length _ => 2
  | .children _ => 2

def colliders : CostFunctor K → List (Collider K)
  | .basic f => f.colliders
  | .length f => f.colliders
  | .children f => f.colliders

/-- What a penetration is multiplied by. -/
def weight : CostFunctor K → K
  | .basic _ => 1
  | .length _ => 1
  | .children _ => 1000

/-- What a functor leaves in its residuals at the candidate position `x`. -/
def evaluate (memory : List K) (x : Vector3d K) (f : CostFunctor K) : Except Fault (Residual K) :=
  let residual := List.replicate f.numResiduals none
  match f with
  | .basic f => .ok (f.operator x residual)
  | .length f => f.operator memory x residual
  | .children f => f.operator memory x residual

end CostFunctor

/-! ## What the residuals are -/

section Values

variable {K : Type} [Scalar K]

omit [Scalar K] in
/-- Only the last collider is left in `residual[0]`. -/
theorem assignPenetration_eq (value : Collider K → K) (colliders : List (Collider K))
    (r₀ : Option K) (residual : Residual K) :
    assignPenetration value colliders (r₀ :: residual) =
      ((colliders.getLast?.map value).or r₀) :: residual := by
  induction colliders generalizing r₀ with
  | nil => rfl
  | cons collider colliders ih =>
    have hrest := ih (some (value collider))
    simp only [assignPenetration, List.foldl_cons, List.set_cons_zero] at hrest ⊢
    rw [hrest, List.getLast?_cons]
    cases colliders.getLast? <;> rfl

/-- What the children contribute: for each how much further away it is than at rest. -/
def lengthErrors (x : Vector3d K) (positions : List (Vector3d K)) (lengths : List K) : List K :=
  List.zipWith (fun position length => (position - x).norm - length) positions lengths

/-- The loop over the children adds up their weighted errors. -/
theorem addLengthDifferences_read {memory : List K} (x : Vector3d K) (depth : Nat)
    {pointers : List Int} {positions : List (Vector3d K)} {lengths : List K}
    (hread : List.Forall₂ (fun pointer v => readVector3At memory pointer = .ok v) pointers positions)
    (hlength : lengths.length = positions.length) (residual : K) :
    addLengthDifferences memory x depth pointers lengths residual =
      .ok (residual + depth * (lengthErrors x positions lengths).sum) := by
  induction hread generalizing lengths residual with
  | nil => simp [addLengthDifferences, lengthErrors]
  | @cons pointer v pointers positions hfirst hrest ih =>
    cases lengths with
    | nil => simp at hlength
    | cons length lengths =>
      have htail := ih (Nat.succ.inj hlength) (residual + ((v - x).norm - length) * depth)
      simp only [addLengthDifferences, hfirst, Except.ok_bind, htail, lengthErrors,
        List.zipWith_cons_cons, List.sum_cons]
      congr 1
      ring

/-- With every pointer inside the array the loop over the children adds up the
    weighted differences of the lengths. -/
theorem addLengthDifferences_eq {memory : List K} (x : Vector3d K) (depth : Nat)
    {cells : List Nat} (lengths : Nat → K) (hcells : ∀ n ∈ cells, n * 3 + 3 ≤ memory.length)
    (residual : K) :
    addLengthDifferences memory x depth (cells.map fun n => (Problem.tile n).values)
        (cells.map lengths) residual =
      .ok (residual +
        depth * (cells.map fun n => (vectorAt memory n - x).norm - lengths n).sum) := by
  have hread : List.Forall₂ (fun pointer v => readVector3At memory pointer = .ok v)
      (cells.map fun n => (Problem.tile n).values) (cells.map (vectorAt memory)) := by
    rw [List.forall₂_map_left_iff, List.forall₂_map_right_iff, List.forall₂_same]
    exact fun n hn => readVector3At_tile (hcells n hn)
  rw [addLengthDifferences_read x depth hread (by simp)]
  simp [lengthErrors, List.zipWith_map]

/-- The first residual of a functor, if a collider has written it. -/
def CostFunctor.penetration (f : CostFunctor K) (x : Vector3d K) : Option K :=
  f.colliders.getLast?.map fun collider => collider.intersectsPlane x * f.weight

theorem CostFunctor.evaluate_basic (memory : List K) (x : Vector3d K)
    (f : BasicCollisionResolutionFunction K) :
    evaluate memory x (.basic f) = .ok [penetration (.basic f) x] := by
  simp [evaluate, numResiduals, BasicCollisionResolutionFunction.operator, assignPenetration_eq,
    penetration, colliders, weight]

theorem CostFunctor.evaluate_length {memory : List K} (x : Vector3d K)
    {f : MaintainBoneLengthFunction K} {n : Nat} (hparent : f.parentPosition = (Problem.tile n).values)
    (hn : n * 3 + 3 ≤ memory.length) :
    evaluate memory x (.length f) =
      .ok [penetration (.length f) x, some ((vectorAt memory n - x).norm - f.sqBoneLength)] := by
  simp [evaluate, numResiduals, MaintainBoneLengthFunction.operator, assignPenetration_eq, hparent,
    readVector3At_tile hn, penetration, colliders, weight]

theorem CostFunctor.evaluate_children {memory : List K} (x : Vector3d K)
    {f : MaintainBoneLengthChildren K} {cells : List Nat} {lengths : Nat → K}
    (hpositions : f.childrenPositions = cells.map fun n => (Problem.tile n).values)
    (hlengths : f.sqBoneLengths = cells.map lengths)
    (hcells : ∀ n ∈ cells, n * 3 + 3 ≤ memory.length) :
    evaluate memory x (.children f) =
      .ok [penetration (.children f) x, some (f.skeletonDepth *
        (cells.map fun n => (vectorAt memory n - x).norm - lengths n).sum)] := by
  have hloop := addLengthDifferences_eq x f.skeletonDepth lengths hcells 0
  rw [zero_add] at hloop
  simp [evaluate, numResiduals, MaintainBoneLengthChildren.operator, assignPenetration_eq,
    hpositions, hlengths, hloop, penetration, colliders, weight]

/-- Some collider writes the first residual, at every point. -/
theorem CostFunctor.penetration_eq_some {f : CostFunctor K} (h : f.colliders ≠ []) :
    ∃ collider ∈ f.colliders, ∀ x, f.penetration x = some (collider.intersectsPlane x * f.weight) := by
  refine ⟨f.colliders.getLast h, List.getLast_mem h, fun x => ?_⟩
  unfold penetration
  rw [List.getLast?_eq_some_getLast h, Option.map_some]

/-- Beyond no plane it is zero. -/
theorem CostFunctor.penetration_eq_zero {f : CostFunctor K} (h : f.colliders ≠ []) {x : Vector3d K}
    (hx : ∀ collider ∈ f.colliders, ¬ collider.Penetrates x) : f.penetration x = some 0 := by
  obtain ⟨collider, hmem, hvalue⟩ := penetration_eq_some h
  rw [hvalue x, (collider.intersectsPlane_eq_zero_iff x).mpr (hx collider hmem), zero_mul]

end Values
