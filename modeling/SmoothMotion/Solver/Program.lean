-- SUMMARY: ceres::Program: the state vector of a problem's blocks, its way from the user's array and back, and ProgramEvaluator.
import SmoothMotion.Lib.Slices
import SmoothMotion.Solver.Evaluation
import SmoothMotion.Solver.Minimizer
import SmoothMotion.Solver.Registry

/-!
# The program of a problem

The minimiser works on one vector, in which the parameter blocks lie one behind
the other. It is read from the user's array before the minimisation and written
back after it. In between the functors read the blocks from that vector, and
everything else still from the array.
-/

/-! ## Blocks in the array -/

namespace ParameterBlock

/-- The block is in an array of that length. -/
def Inside (length : Nat) (b : ParameterBlock) : Prop :=
  0 ≤ b.values ∧ b.values + b.size ≤ length

instance (length : Nat) (b : ParameterBlock) : Decidable (b.Inside length) :=
  inferInstanceAs (Decidable (_ ∧ _))

def extent (b : ParameterBlock) : Extent := ⟨b.values.toNat, b.size⟩

variable {b b' : ParameterBlock} {length : Nat}

theorem Inside.stop_le (h : b.Inside length) : b.extent.stop ≤ length := by
  unfold Inside at h
  simp only [extent, Extent.stop]
  omega

theorem Apart.extent (h : b.Apart b') (hb : b.Inside length) (hb' : b'.Inside length) :
    b.extent.Apart b'.extent := by
  unfold Apart Before at h
  unfold Inside at hb hb'
  simp only [ParameterBlock.extent, Extent.Apart, Extent.stop]
  omega

end ParameterBlock

namespace Problem

open ParameterBlock

variable {φ : Type}

/-- The blocks that some residual block is on. -/
def usedBlocks (p : Problem φ) : List ParameterBlock :=
  p.parameterBlocks.filter fun b => p.residualBlocks.any fun rb => rb.parameterBlock = b

/-- The program that is solved: without the blocks in no residual, and in the order
    that suits the linear solver. -/
def reduced (p : Problem φ) (reorder : List ParameterBlock → List ParameterBlock) : Problem φ :=
  { p with parameterBlocks := reorder p.usedBlocks }

def numParameters (p : Problem φ) : Nat := Extent.total (p.parameterBlocks.map extent)

/-! ## The state vector -/

section StateVector

variable {K : Type}

/-- `GetState` of a block that is at the user's values. -/
def getState (memory : List K) (b : ParameterBlock) : Except Fault (List K) :=
  if b.Inside memory.length then .ok (b.extent.slice memory) else .error .outOfBounds

/-- `ParameterBlocksToStateVector`. -/
def parameterBlocksToStateVector (p : Problem φ) (memory : List K) : Except Fault (List K) := do
  return (← p.parameterBlocks.mapM (getState memory)).flatten

/-- The next block takes its values from the front of what is left of `state`. -/
def copyStates : List ParameterBlock → List K → List K → Except Fault (List K)
  | [], _, memory => .ok memory
  | b :: blocks, state, memory =>
    if b.Inside memory.length then
      copyStates blocks (state.drop b.size) (b.extent.splice memory (state.take b.size))
    else .error .outOfBounds

/-- `StateVectorToParameterBlocks`, and then `CopyParameterBlockStateToUserState`. -/
def copyToUserState (p : Problem φ) (state memory : List K) : Except Fault (List K) :=
  copyStates p.parameterBlocks state memory

variable {p : Problem φ} {memory state : List K} {blocks : List ParameterBlock}

theorem parameterBlocksToStateVector_eq (h : ∀ b ∈ p.parameterBlocks, b.Inside memory.length) :
    p.parameterBlocksToStateVector memory =
      .ok (Extent.gather memory (p.parameterBlocks.map extent)) := by
  have hstates : ∀ blocks : List ParameterBlock, (∀ b ∈ blocks, b.Inside memory.length) →
      blocks.mapM (getState memory) = .ok (blocks.map fun b => b.extent.slice memory) := by
    intro blocks hblocks
    induction blocks with
    | nil => rfl
    | cons b blocks ih =>
      have hhead : getState memory b = .ok (b.extent.slice memory) := if_pos (hblocks b (by simp))
      have htail := ih fun b' hb' => hblocks b' (by simp [hb'])
      simp only [List.mapM_cons, hhead, htail, Except.ok_bind]
      rfl
  simp only [parameterBlocksToStateVector, hstates _ h, Except.ok_bind]
  rw [Extent.gather, List.flatMap_map, List.flatMap_def]
  rfl

theorem copyStates_eq (h : ∀ b ∈ blocks, b.Inside memory.length)
    (hstate : Extent.total (blocks.map extent) ≤ state.length) :
    copyStates blocks state memory = .ok (Extent.scatter (blocks.map extent) state memory) := by
  induction blocks generalizing state memory with
  | nil => rfl
  | cons b blocks ih =>
    have hinside := h b (by simp)
    simp only [Extent.total, List.map_cons, List.sum_cons] at hstate
    have hlength : (b.extent.splice memory (state.take b.size)).length = memory.length :=
      Extent.length_splice hinside.stop_le (by simp [extent] at hstate ⊢; omega)
    have hrest : Extent.total (blocks.map extent) ≤ (state.drop b.size).length := by
      simp [Extent.total, extent] at hstate ⊢
      omega
    rw [copyStates, if_pos hinside, ih (fun b' hb' => hlength ▸ h b' (by simp [hb'])) hrest]
    rfl

theorem fit_extents {length : Nat} (h : ∀ b ∈ blocks, b.Inside length) :
    Extent.Fit length (blocks.map extent) := by
  intro e he
  obtain ⟨b, hb, rfl⟩ := List.mem_map.mp he
  exact (h b hb).stop_le

/-- What is in no block is not written. -/
theorem copyToUserState_eq (h : ∀ b ∈ p.parameterBlocks, b.Inside memory.length)
    (hstate : p.numParameters ≤ state.length) :
    p.copyToUserState state memory =
        .ok (Extent.scatter (p.parameterBlocks.map extent) state memory) ∧
      (Extent.scatter (p.parameterBlocks.map extent) state memory).length = memory.length ∧
      ∀ i : Nat, (∀ b ∈ p.parameterBlocks, (i : Int) ∉ b.region) →
        (Extent.scatter (p.parameterBlocks.map extent) state memory)[i]? = memory[i]? := by
  have hfit := fit_extents h
  refine ⟨copyStates_eq h hstate, Extent.length_scatter hfit hstate, ?_⟩
  intro i hout
  apply Extent.getElem?_scatter hfit hstate
  intro e he
  obtain ⟨b, hb, rfl⟩ := List.mem_map.mp he
  have hinside := h b hb
  have hnot := hout b hb
  unfold Inside at hinside
  rw [mem_region] at hnot
  by_contra hin
  simp only [extent, Extent.stop] at hin
  exact hnot ⟨i - b.values.toNat, by omega, by omega⟩

/-! ## There and back -/

variable {reorder : List ParameterBlock → List ParameterBlock}

theorem mem_reduced (hreorder : ∀ blocks, (reorder blocks).Perm blocks) {b : ParameterBlock} :
    b ∈ (p.reduced reorder).parameterBlocks ↔ b ∈ p.usedBlocks :=
  (hreorder p.usedBlocks).mem_iff

theorem reduced_inside (hreorder : ∀ blocks, (reorder blocks).Perm blocks) {length : Nat}
    (hinside : ∀ b ∈ p.parameterBlocks, b.Inside length) :
    ∀ b ∈ (p.reduced reorder).parameterBlocks, b.Inside length := by
  intro b hb
  exact hinside b (List.mem_of_mem_filter ((mem_reduced hreorder).mp hb))

/-- The blocks of the reduced program do not overlap in the array. -/
theorem Built.pairwise_reduced (h : p.Built) (hreorder : ∀ blocks, (reorder blocks).Perm blocks)
    {length : Nat} (hinside : ∀ b ∈ p.parameterBlocks, b.Inside length) :
    ((p.reduced reorder).parameterBlocks.map extent).Pairwise Extent.Apart := by
  have hordered := h.ordered
  have hall : p.parameterBlocks.Pairwise Apart :=
    hordered.perm.pairwise (hordered.sorted.imp .inl) fun hb => Or.symm hb
  have hused : p.usedBlocks.Pairwise Apart := hall.sublist List.filter_sublist
  have hreduced : (p.reduced reorder).parameterBlocks.Pairwise Apart :=
    (hreorder p.usedBlocks).symm.pairwise hused fun hb => Or.symm hb
  have hin := reduced_inside hreorder hinside
  rw [List.pairwise_map]
  exact hreduced.imp_of_mem fun hb hb' hapart => hapart.extent (hin _ hb) (hin _ hb')

/-- For any sequence of registrations inside the array, and any order of the blocks:
    the state vector that is read is written back without a change; a state vector
    that is written is read again; and writing one leaves alone all that is in no
    block. -/
theorem stateVector_roundTrip (h : p.Built) (hreorder : ∀ blocks, (reorder blocks).Perm blocks)
    (hinside : ∀ b ∈ p.parameterBlocks, b.Inside memory.length)
    (hstate : state.length = (p.reduced reorder).numParameters) :
    ∃ state₀ memory', (p.reduced reorder).parameterBlocksToStateVector memory = .ok state₀ ∧
      (p.reduced reorder).copyToUserState state₀ memory = .ok memory ∧
      (p.reduced reorder).copyToUserState state memory = .ok memory' ∧
      (p.reduced reorder).parameterBlocksToStateVector memory' = .ok state ∧
      memory'.length = memory.length ∧
      ∀ i : Nat, (∀ b ∈ p.usedBlocks, (i : Int) ∉ b.region) → memory'[i]? = memory[i]? := by
  have hin := reduced_inside hreorder hinside
  have hfit := fit_extents hin
  have hapart := h.pairwise_reduced hreorder hinside
  obtain ⟨hcopy, hlength, hframe⟩ := copyToUserState_eq hin hstate.ge
  refine ⟨_, _, parameterBlocksToStateVector_eq hin, ?_, hcopy, ?_, hlength, ?_⟩
  · rw [(copyToUserState_eq hin (Extent.length_gather hfit).ge).1, Extent.scatter_gather hfit]
  · rw [parameterBlocksToStateVector_eq (by rwa [hlength]), Extent.gather_scatter hfit hapart hstate]
  · intro i hout
    exact hframe i fun b hb => hout b ((mem_reduced hreorder).mp hb)

/-- Two blocks with a gap between them, solved in the opposite order. -/
theorem stateVector_roundTrip_twoBlocks :
    ∃ (p : Problem Unit) (state₀ : List Nat) (memory' : List Nat),
      p.parameterBlocks = [⟨4, 3⟩, ⟨0, 3⟩] ∧
      (p.reduced List.reverse).parameterBlocksToStateVector [0, 1, 2, 3, 4, 5, 6, 7] = .ok state₀ ∧
      (p.reduced List.reverse).copyToUserState [10, 11, 12, 14, 15, 16] [0, 1, 2, 3, 4, 5, 6, 7] =
        .ok memory' ∧
      (p.reduced List.reverse).parameterBlocksToStateVector memory' =
        .ok [10, 11, 12, 14, 15, 16] ∧
      memory'[3]? = some 3 := by
  have hfirst : (empty : Problem Unit).addResidualBlock () 3 4 =
      .ok ⟨[⟨4, 3⟩], [⟨4, 3⟩], [⟨(), ⟨4, 3⟩⟩]⟩ := rfl
  have hsecond : (⟨[⟨4, 3⟩], [⟨4, 3⟩], [⟨(), ⟨4, 3⟩⟩]⟩ : Problem Unit).addResidualBlock () 3 0 =
      .ok ⟨[⟨0, 3⟩, ⟨4, 3⟩], [⟨4, 3⟩, ⟨0, 3⟩], [⟨(), ⟨4, 3⟩⟩, ⟨(), ⟨0, 3⟩⟩]⟩ := rfl
  have hbuilt := (Built.empty.addResidualBlock hfirst).addResidualBlock hsecond
  have hinside : ∀ b ∈ [(⟨4, 3⟩ : ParameterBlock), ⟨0, 3⟩],
      b.Inside [0, 1, 2, 3, 4, 5, 6, 7].length := by decide
  have hstate : [10, 11, 12, 14, 15, 16].length = _ := rfl
  obtain ⟨state₀, memory', hread, -, hwrite, hagain, -, hframe⟩ := stateVector_roundTrip hbuilt
    (fun blocks => List.reverse_perm blocks) hinside hstate
  exact ⟨_, state₀, memory', rfl, hread, hwrite, hagain, hframe 3 (by decide)⟩

end StateVector

end Problem
