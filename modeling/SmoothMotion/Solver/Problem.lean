-- SUMMARY: ceres::Problem: registering residual blocks on regions of the user's array, with the check that regions do not overlap.
import Mathlib.Algebra.Order.Ring.Int
import Mathlib.Data.List.Nodup
import Mathlib.Data.List.TakeWhile
import SmoothMotion.Lib.Grid
import SmoothMotion.Lib.Loop

/-!
# Registering residual blocks

A parameter block is a region of the user's array; here it is given by its
offset and its size. `Problem` keeps the blocks in a map ordered by address and
refuses a new block that overlaps its neighbours in the map. When every block
lies behind all earlier ones, this never happens, and residual block `k` is on
parameter block `k`.
-/

/-- How a solver run ends before its result. -/
inductive Fault where
  | outOfBounds
  | checkFailed (message : String)
  | invalidEvaluation
deriving DecidableEq, Repr

/-- A region of doubles, from an offset in the user's array on. -/
structure ParameterBlock where
  values : Int
  size : Nat
deriving DecidableEq, Repr

/-- The offsets a block covers. -/
def ParameterBlock.region (b : ParameterBlock) : List Int :=
  (List.range b.size).map fun k => b.values + k

/-- A cost function and the one block it is evaluated on. -/
structure ResidualBlock (φ : Type) where
  costFunction : φ
  parameterBlock : ParameterBlock

/-- The map, the blocks in the order they were added, and the residual blocks. -/
structure Problem (φ : Type) where
  parameterBlockMap : List ParameterBlock
  parameterBlocks : List ParameterBlock
  residualBlocks : List (ResidualBlock φ)

def regionsAlias (a : Int) (sizeA : Nat) (b : Int) (sizeB : Nat) : Bool :=
  if a < b then b < a + sizeA else a < b + sizeB

def checkForNoAliasing (existing new : ParameterBlock) : Except Fault Unit :=
  if regionsAlias existing.values existing.size new.values new.size then
    .error (.checkFailed "Aliasing detected between existing parameter block")
  else .ok ()

namespace Problem

variable {φ : Type}

def empty : Problem φ := ⟨[], [], []⟩

/-- `InternalAddParameterBlock`. -/
def addParameterBlock (p : Problem φ) (values : Int) (size : Nat) :
    Except Fault (Problem φ × ParameterBlock) :=
  match p.parameterBlockMap.find? fun b => b.values = values with
  | some block =>
    if size = block.size then .ok (p, block)
    else .error (.checkFailed "Tried adding a parameter block with the same double pointer, twice")
  | none => do
    let block : ParameterBlock := ⟨values, size⟩
    -- `lower_bound(values)` splits the map
    let before := p.parameterBlockMap.takeWhile fun b => b.values < values
    let after := p.parameterBlockMap.dropWhile fun b => b.values < values
    before.getLast?.forM fun previous => checkForNoAliasing previous block
    after.head?.forM fun lb => checkForNoAliasing lb block
    return ({ p with
      parameterBlockMap := before ++ block :: after
      parameterBlocks := p.parameterBlocks ++ [block] }, block)

/-- `AddResidualBlock(cost_function, NULL, x0)` for a cost function of one block
    of `size` parameters. -/
def addResidualBlock (p : Problem φ) (costFunction : φ) (size : Nat) (x0 : Int) :
    Except Fault (Problem φ) := do
  let (p, block) ← p.addParameterBlock x0 size
  return { p with residualBlocks := p.residualBlocks ++ [⟨costFunction, block⟩] }

/-- A registered block is the last one, and the ones before it are kept. -/
theorem residualBlocks_addResidualBlock {p p' : Problem φ} {costFunction : φ} {size : Nat} {x0 : Int}
    (h : p.addResidualBlock costFunction size x0 = .ok p') :
    ∃ block, p'.residualBlocks = p.residualBlocks ++ [⟨costFunction, block⟩] := by
  obtain ⟨⟨p₁, block⟩, hblock, h⟩ := Except.bind_eq_ok h
  have hkept : p₁.residualBlocks = p.residualBlocks := by
    unfold addParameterBlock at hblock
    split at hblock
    · split at hblock
      · cases hblock
        rfl
      · cases hblock
    · obtain ⟨_, -, hblock⟩ := Except.bind_eq_ok hblock
      obtain ⟨_, -, hblock⟩ := Except.bind_eq_ok hblock
      cases hblock
      rfl
  cases h
  exact ⟨block, by rw [hkept]⟩

/-! ## Tilings -/

/-- Block `k` of a row of blocks of three. -/
def tile (k : Nat) : ParameterBlock := ⟨(k * 3 : Nat), 3⟩

/-- The problem in which cost function `k` is on block `k` of a row of blocks. -/
def tiled (fs : List φ) : Problem φ where
  parameterBlockMap := (List.range fs.length).map tile
  parameterBlocks := (List.range fs.length).map tile
  residualBlocks := fs.mapIdx fun k f => ⟨f, tile k⟩

theorem tile_values_lt {j n : Nat} (h : j < n) : (tile j).values < (tile n).values := by
  simp only [tile]
  omega

theorem checkForNoAliasing_tile {j n : Nat} (h : j < n) :
    checkForNoAliasing (tile j) (tile n) = .ok () := by
  have hlt : (tile j).values < (tile n).values := tile_values_lt h
  have hend : ¬ (tile n).values < (tile j).values + (tile j).size := by
    simp only [tile]
    omega
  have hapart : regionsAlias (tile j).values (tile j).size (tile n).values (tile n).size = false := by
    unfold regionsAlias
    rw [if_pos hlt, decide_eq_false hend]
  unfold checkForNoAliasing
  rw [hapart]
  rfl

/-- The next block lies behind all blocks in the map. -/
theorem addParameterBlock_tiled (fs : List φ) :
    (tiled fs).addParameterBlock (tile fs.length).values 3 =
      .ok ({ tiled fs with
              parameterBlockMap := (List.range (fs.length + 1)).map tile
              parameterBlocks := (List.range (fs.length + 1)).map tile }, tile fs.length) := by
  have hlt : ∀ b ∈ (List.range fs.length).map tile, b.values < (tile fs.length).values := by
    intro b hb
    obtain ⟨j, hj, rfl⟩ := List.mem_map.mp hb
    exact tile_values_lt (List.mem_range.mp hj)
  have hnew : ((List.range fs.length).map tile).find?
      (fun b => b.values = (tile fs.length).values) = none := by
    rw [List.find?_eq_none]
    intro b hb
    simpa using (hlt b hb).ne
  have hbefore : ((List.range fs.length).map tile).takeWhile
      (fun b => b.values < (tile fs.length).values) = (List.range fs.length).map tile := by
    rw [List.takeWhile_eq_self_iff]
    simpa using hlt
  have hafter : ((List.range fs.length).map tile).dropWhile
      (fun b => b.values < (tile fs.length).values) = [] := by
    rw [List.dropWhile_eq_nil_iff]
    simpa using hlt
  have hprevious : (((List.range fs.length).map tile).getLast?.forM
      fun previous => checkForNoAliasing previous (tile fs.length)) = .ok () := by
    cases hlast : ((List.range fs.length).map tile).getLast? with
    | none => rfl
    | some previous =>
      obtain ⟨j, hj, rfl⟩ := List.mem_map.mp (List.mem_of_getLast? hlast)
      exact checkForNoAliasing_tile (List.mem_range.mp hj)
  have hblock : (⟨(tile fs.length).values, 3⟩ : ParameterBlock) = tile fs.length := rfl
  simp only [addParameterBlock, tiled, hnew, hbefore, hafter, hblock, hprevious, Except.ok_bind,
    List.range_succ, List.map_append]
  rfl

theorem addResidualBlock_tiled (fs : List φ) (f : φ) :
    (tiled fs).addResidualBlock f 3 (tile fs.length).values = .ok (tiled (fs ++ [f])) := by
  simp only [addResidualBlock, addParameterBlock_tiled, Except.ok_bind]
  simp [tiled, List.mapIdx_append]
  rfl

/-- A loop that adds a cost function on each next block. -/
theorem forRange_addResidualBlock {n : Nat} {body : Nat → Problem φ → Except Fault (Problem φ)}
    (fs : List φ) (f : Nat → φ)
    (hbody : ∀ k p, k < n → body k p = p.addResidualBlock (f k) 3 (tile (fs.length + k)).values) :
    forRange n body (tiled fs) = .ok (tiled (fs ++ (List.range n).map f)) := by
  have hstep : ∀ k, k < n → body k (tiled (fs ++ (List.range k).map f)) =
      .ok (tiled (fs ++ (List.range (k + 1)).map f)) := by
    intro k hk
    have hlength : (fs ++ (List.range k).map f).length = fs.length + k := by simp
    rw [hbody k _ hk, ← hlength, addResidualBlock_tiled, List.range_succ, List.map_append,
      List.append_assoc]
    rfl
  simpa using forRange_eq (fun k => tiled (fs ++ (List.range k).map f)) hstep

/-! ## What a tiling covers -/

theorem length_residualBlocks_tiled (fs : List φ) :
    (tiled fs).residualBlocks.length = fs.length := by
  simp [tiled]

theorem getElem?_residualBlocks_tiled (fs : List φ) (k : Nat) :
    (tiled fs).residualBlocks[k]? = fs[k]?.map fun f => ⟨f, tile k⟩ := by
  simp [tiled]

/-- The regions of a tiling, one after the other, are the array from its first to
    its last offset. -/
theorem regions_tiled (fs : List φ) :
    ((tiled fs).residualBlocks.flatMap fun rb => rb.parameterBlock.region) =
      (List.range (fs.length * 3)).map Nat.cast := by
  have hblocks : (tiled fs).residualBlocks.map (·.parameterBlock) =
      (List.range fs.length).map tile := by
    apply List.ext_getElem (by simp [tiled])
    intro k _ _
    simp [tiled]
  have hregion : ∀ k, (tile k).region = ((List.range 3).map fun j => k * 3 + j).map Nat.cast := by
    intro k
    simp only [ParameterBlock.region, tile, List.map_map]
    rfl
  rw [← List.flatMap_map, hblocks, List.flatMap_map, ← Grid.flatMap_index, List.map_flatMap]
  simp only [hregion]

/-- No offset is in two of them. -/
theorem pairwise_disjoint_tiled (fs : List φ) :
    (tiled fs).residualBlocks.Pairwise fun rb rb' =>
      rb.parameterBlock.region.Disjoint rb'.parameterBlock.region := by
  have hnodup : ((tiled fs).residualBlocks.flatMap fun rb => rb.parameterBlock.region).Nodup := by
    rw [regions_tiled]
    exact List.nodup_range.map Nat.cast_injective
  exact (List.nodup_flatMap.mp hnodup).2

end Problem
