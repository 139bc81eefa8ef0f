-- SUMMARY: The .SMInput file across the two programs: what the exporter writes is what the solver reads.
import SmoothMotion.Lib.Grid
import SmoothMotion.Solver.Format
import SmoothMotion.Unity.Exporter

open Decimal

/-!
# From the exporter to the solver

The writer and the reader agree on five sections of variable length. Behind the
three counts the exporter's tokens are exactly as many numbers as `ReadFile`
computes from the counts, so it reads each section to its end.
-/

namespace Exporter

variable {ι K : Type} [DecidableEq ι] [Scalar K] {sk : Skeleton ι K}
  {c : SmoothMotionController ι K} {showFloat : K → Text}
  {constraints : List (PlaneCollisionConstraint K)}

/-- What the solver is to make of a plane constraint. -/
def toCollider (k : PlaneCollisionConstraint K) : Collider K := ⟨k.planePosition, k.worldNormal⟩

/-! ## The sections -/

omit [DecidableEq ι] in
theorem length_bonePositions (h : c.Tagged sk) {bone : SmoothMotionBone ι K}
    (hbone : bone ∈ c.bones) :
    (bone.stored.flatMap fun info => info.position.toList).length = c.numFrames * 3 := by
  rw [Grid.length_flatMap fun info _ => Vector3d.length_toList info.position, h.stored bone hbone]

omit [DecidableEq ι] in
theorem length_positionNumbers (h : c.Tagged sk) :
    (positionNumbers c).length = c.bones.length * c.numFrames * 3 := by
  unfold positionNumbers
  rw [Grid.length_flatMap fun bone hbone => length_bonePositions h hbone, Nat.mul_assoc]

theorem length_colliderNumbers (constraints : List (PlaneCollisionConstraint K)) :
    (colliderNumbers constraints).length = constraints.length * 6 :=
  Grid.length_flatMap fun k _ => (toCollider k).length_toList

theorem colliderNumbers_eq (constraints : List (PlaneCollisionConstraint K)) :
    colliderNumbers constraints = (constraints.map toCollider).flatMap Collider.toList := by
  rw [List.flatMap_map]
  rfl

omit [DecidableEq ι] in
/-- Component `k` of bone `b` at frame `f` stands at `(b * F + f) * 3 + k`. -/
theorem getElem?_positionNumbers (h : c.Tagged sk) {b f k : Nat} (hf : f < c.numFrames)
    (hk : k < 3) : (positionNumbers c)[(b * c.numFrames + f) * 3 + k]? =
      c.bones[b]?.bind fun bone => bone.stored[f]?.bind fun info => info.position.toList[k]? := by
  have hcell : f * 3 + k < c.numFrames * 3 := Grid.index_lt hf hk
  have hindex : (b * c.numFrames + f) * 3 + k = b * (c.numFrames * 3) + (f * 3 + k) := by ring
  unfold positionNumbers
  rw [hindex, Grid.getElem?_flatMap (fun bone hbone => length_bonePositions h hbone) hcell]
  congr 1
  funext bone
  exact Grid.getElem?_flatMap (fun info _ => Vector3d.length_toList info.position) hk

/-- The tokens behind the three counts. -/
def sectionTokens (showFloat : K → Text) (sk : Skeleton ι K) (c : SmoothMotionController ι K)
    (constraints : List (PlaneCollisionConstraint K)) : List Text :=
  (exportedNumbers c constraints).map showFloat ++
    (List.range c.bones.length).map fun b => showInt (parentNumber sk b)

theorem length_sectionTokens (h : c.Tagged sk) :
    (sectionTokens showFloat sk c constraints).length =
      c.bones.length * c.numFrames * 3 + constraints.length * 6 + c.bones.length := by
  simp [sectionTokens, exportedNumbers, length_positionNumbers h, length_colliderNumbers,
    Nat.add_assoc]

/-- The tokens of the three sections, one by one. -/
theorem sectionTokens_split (showFloat : K → Text) (constraints : List (PlaneCollisionConstraint K))
    (h : c.Tagged sk) :
    (sectionTokens showFloat sk c constraints).take (c.bones.length * c.numFrames * 3) =
        (positionNumbers c).map showFloat ∧
      ((sectionTokens showFloat sk c constraints).drop (c.bones.length * c.numFrames * 3)).take
        (constraints.length * 6) = (colliderNumbers constraints).map showFloat ∧
      (sectionTokens showFloat sk c constraints).drop
        (c.bones.length * c.numFrames * 3 + constraints.length * 6) =
          (List.range c.bones.length).map fun b => showInt (parentNumber sk b) := by
  have hpositions : ((positionNumbers c).map showFloat).length =
      c.bones.length * c.numFrames * 3 := by rw [List.length_map, length_positionNumbers h]
  have hcolliders : ((colliderNumbers constraints).map showFloat).length =
      constraints.length * 6 := by rw [List.length_map, length_colliderNumbers]
  unfold sectionTokens exportedNumbers
  rw [List.map_append, List.append_assoc]
  refine ⟨List.take_left' hpositions, ?_, ?_⟩
  · rw [List.drop_left' hpositions]
    exact List.take_left' hcolliders
  · rw [← List.drop_drop, List.drop_left' hpositions]
    exact List.drop_left' hcolliders

/-- A bone's parent index fits an `int` if the number of bones does. -/
theorem intToken_parentNumber (h : c.Tagged sk) (hbones : c.bones.length < 2 ^ 31) {b : Nat}
    (hb : b < c.bones.length) :
    IStream.intToken (showInt (parentNumber sk b)) = some (Int32.ofInt (parentNumber sk b)) := by
  have hle : parentNumber sk b ≤ b := parentNumber_le (h.length_eq ▸ hb)
  apply IStream.intToken_showInt
  · have : Int32.minValue.toInt < 0 := by decide
    omega
  · have : Int32.maxValue.toInt = 2 ^ 31 - 1 := by decide
    omega

/-! ## The round trip -/

section RoundTrip

omit [DecidableEq ι] [Scalar K] in
private theorem map_doubleToken_showFloat [Field K] {numbers : List K}
    (hshow : ∀ v ∈ numbers, IStream.doubleToken K (showFloat v) = some v) :
    (numbers.map showFloat).map (IStream.doubleToken K) = numbers.map some := by
  rw [List.map_map]
  exact List.map_congr_left hshow

/-- The tokens of the file are numerals in the range the reader asks for. -/
theorem inRange_sectionTokens (h : c.Tagged sk) (hbones : c.bones.length < 2 ^ 31)
    (hvalid : ∀ v ∈ exportedNumbers c constraints, (IStream.doubleToken K (showFloat v)).isSome) :
    InRange K c.bones.length c.numFrames constraints.length
      (sectionTokens showFloat sk c constraints) := by
  obtain ⟨hpositions, hcolliders, hparents⟩ :=
    sectionTokens_split showFloat constraints h
  constructor
  · intro tok htok
    rw [List.take_add, hpositions, hcolliders, ← List.map_append] at htok
    obtain ⟨v, hv, rfl⟩ := List.mem_map.mp htok
    exact hvalid v hv
  · intro tok htok
    rw [hparents] at htok
    obtain ⟨b, hb, rfl⟩ := List.mem_map.mp (List.mem_of_mem_take htok)
    rw [intToken_parentNumber h hbones (List.mem_range.mp hb)]
    rfl

/-- Every exported file is read, whatever values its numerals have: the counts,
    the parents, and the numbers that are spelled. -/
theorem readFile_spells (h : c.Tagged sk) (hbones : c.bones.length < 2 ^ 31)
    (hconstraints : constraints.length < 2 ^ 31) (hfit : 3 * c.bones.length * c.numFrames < 2 ^ 31)
    (hvalid : ∀ v ∈ exportedNumbers c constraints, (IStream.doubleToken K (showFloat v)).isSome)
    (memory : Uninitialised K) (frames : Int32) :
    ∃ input, readFile (some (IStream.terminated (fileTokens showFloat sk c constraints))) memory
        frames = .ok input ∧
      input.Spells c.bones.length c.numFrames constraints.length
        (sectionTokens showFloat sk c constraints) ∧
      input.numBones.toInt = c.bones.length ∧ input.frames.toInt = c.numFrames ∧
      input.colliders.length = constraints.length ∧
      input.parents = (List.range c.bones.length).map fun b => Int32.ofInt (parentNumber sk b) := by
  have hmin : Int32.minValue.toInt = -2 ^ 31 := by decide
  have hmax : Int32.maxValue.toInt = 2 ^ 31 - 1 := by decide
  have hframes : c.numFrames < 2 ^ 31 :=
    calc c.numFrames ≤ 3 * c.bones.length * c.numFrames :=
          Nat.le_mul_of_pos_left _ (Nat.mul_pos (by decide) h.bones_length_pos)
      _ < 2 ^ 31 := hfit
  have hcount : ∀ {n : Nat}, n < 2 ^ 31 → IStream.intToken (showInt n) = some (Int32.ofInt n) ∧
      (Int32.ofInt n).toInt = n := by
    intro n hn
    refine ⟨IStream.intToken_showInt (by omega) (by omega), ?_⟩
    exact Int32.toInt_ofInt_of_le (by omega) (by omega)
  obtain ⟨hbTok, hB⟩ := hcount hbones
  obtain ⟨hfTok, hF⟩ := hcount hframes
  obtain ⟨hcTok, hC⟩ := hcount hconstraints
  have htokens := IStream.Tokens.of_terminated (fileTokens showFloat sk c constraints)
  obtain ⟨s, hs, hheader⟩ := readFile_header memory frames htokens hbTok hfTok hcTok
  obtain ⟨input, hread, hspells, hnumBones, hnumFrames, hlength⟩ := readSections_full memory hB hF hC
    hfit (length_sectionTokens h).ge (inRange_sectionTokens h hbones hvalid) hs
  refine ⟨input, hheader.trans hread, hspells, by rw [hnumBones, hB], by rw [hnumFrames, hF],
    hlength, ?_⟩
  have hnumbers := hspells.parents
  rw [(sectionTokens_split showFloat constraints h).2.2, List.take_of_length_le (by simp),
    List.map_map] at hnumbers
  apply List.map_injective_iff.mpr (Option.some_injective Int32)
  rw [hnumbers, List.map_map]
  apply List.map_congr_left
  intro b hb
  exact intToken_parentNumber h hbones (List.mem_range.mp hb)

/-- The parents in the file are the indices themselves. -/
theorem parents_toInt (h : c.Tagged sk) (hbones : c.bones.length < 2 ^ 31) :
    ((List.range c.bones.length).map fun b => Int32.ofInt (parentNumber sk b)).map Int32.toInt =
      (List.range c.bones.length).map fun b => (parentNumber sk b : Int) := by
  rw [List.map_map]
  apply List.map_congr_left
  intro b hb
  have hlt : b < sk.tree.preorder.length := by rw [← h.length_eq]; exact List.mem_range.mp hb
  have hle := parentNumber_le hlt
  rw [← h.length_eq] at hlt
  exact Int32.toInt_ofInt_of_le (by omega) (by omega)

/-- What `ReadFile` returns for the file the exporter wrote. -/
structure ReadBack (sk : Skeleton ι K) (c : SmoothMotionController ι K)
    (constraints : List (PlaneCollisionConstraint K)) (input : Input K) : Prop where
  numBones : input.numBones.toInt = c.bones.length
  frames : input.frames.toInt = c.numFrames
  colliders : input.colliders = constraints.map toCollider
  positions : input.positions = positionNumbers c
  parents : input.parents =
    (List.range c.bones.length).map fun b => Int32.ofInt (parentNumber sk b)

/-- The parents read back are the indices themselves. -/
theorem ReadBack.parents_toInt {input : Input K} (hback : ReadBack sk c constraints input)
    (h : c.Tagged sk) (hbones : c.bones.length < 2 ^ 31) :
    input.parents.map Int32.toInt =
      (List.range c.bones.length).map fun b => (parentNumber sk b : Int) := by
  rw [hback.parents]
  exact Exporter.parents_toInt h hbones

/-- The exporter's text is read back section by section. -/
theorem readFile_terminated_fileTokens (h : c.Tagged sk) (hbones : c.bones.length < 2 ^ 31)
    (hconstraints : constraints.length < 2 ^ 31) (hfit : 3 * c.bones.length * c.numFrames < 2 ^ 31)
    (hshow : ∀ v ∈ exportedNumbers c constraints, IStream.doubleToken K (showFloat v) = some v)
    (memory : Uninitialised K) (frames : Int32) :
    ∃ input, readFile (some (IStream.terminated (fileTokens showFloat sk c constraints))) memory
      frames = .ok input ∧ ReadBack sk c constraints input := by
  have hvalid : ∀ v ∈ exportedNumbers c constraints, (IStream.doubleToken K (showFloat v)).isSome :=
    fun v hv => Option.isSome_of_mem (hshow v hv)
  obtain ⟨input, hread, hspells, hnumBones, hnumFrames, hlength, hparents⟩ :=
    readFile_spells h hbones hconstraints hfit hvalid memory frames
  obtain ⟨hpositions, hcolliders, -⟩ := sectionTokens_split showFloat constraints h
  have hsome : Function.Injective (some : K → Option K) := Option.some_injective K
  refine ⟨input, hread, ⟨hnumBones, hnumFrames, ?_, ?_, hparents⟩⟩
  · -- as many colliders as numbers for them, so the numbers determine the colliders
    have hnumbers := hspells.colliders
    rw [hcolliders, map_doubleToken_showFloat fun v hv => hshow v (List.mem_append_right _ hv),
      colliderNumbers_eq] at hnumbers
    exact Grid.flatMap_inj Collider.toList_injective Collider.length_toList
      (by rw [hlength, List.length_map]) (List.map_injective_iff.mpr hsome hnumbers)
  · have hnumbers := hspells.positions
    rw [hpositions, map_doubleToken_showFloat fun v hv => hshow v (List.mem_append_left _ hv)]
      at hnumbers
    exact List.map_injective_iff.mpr hsome hnumbers

/-- Every exported file is read back: the counts, the colliders in their order,
    every component of every stored position at its index, and for every bone
    the index of its parent. No bone is reported as lacking its parent. -/
theorem readFile_writeToFile (h : c.Tagged sk) (hbones : c.bones.length < 2 ^ 31)
    (hconstraints : constraints.length < 2 ^ 31) (hfit : 3 * c.bones.length * c.numFrames < 2 ^ 31)
    (hshow : ∀ v ∈ exportedNumbers c constraints, IStream.doubleToken K (showFloat v) = some v)
    (memory : Uninitialised K) (frames : Int32) :
    ∃ text input, writeToFile showFloat sk c constraints = .ok (text, []) ∧
      readFile (some text) memory frames = .ok input ∧
      input.numBones.toInt = c.bones.length ∧ input.frames.toInt = c.numFrames ∧
      input.colliders = constraints.map (fun k => ⟨k.planePosition, k.worldNormal⟩) ∧
      input.positions.length = c.bones.length * c.numFrames * 3 ∧
      (∀ b f k, b < c.bones.length → f < c.numFrames → k < 3 →
        input.positions[(b * c.numFrames + f) * 3 + k]? =
          c.bones[b]?.bind fun bone => bone.stored[f]?.bind fun info => info.position.toList[k]?) ∧
      input.parents.map Int32.toInt =
        (List.range c.bones.length).map fun b => (parentNumber sk b : Int) := by
  obtain ⟨input, hread, hback⟩ :=
    readFile_terminated_fileTokens h hbones hconstraints hfit hshow memory frames
  refine ⟨_, input, writeToFile_eq h constraints, hread, hback.numBones, hback.frames,
    hback.colliders, ?_, ?_, hback.parents_toInt h hbones⟩
  · rw [hback.positions, length_positionNumbers h]
  · intro b f k _ hf hk
    rw [hback.positions, getElem?_positionNumbers h hf hk]

end RoundTrip

/-- The round trip of two bones and the plane `y = 0`. -/
theorem readFile_writeToFile_twoBones :
    ∃ text input,
      writeToFile (fun q : ℚ => showInt q.num) twoBones restingController
        [⟨⟨0, 0, 0⟩, 1, ⟨0, 1, 0⟩⟩] = .ok (text, []) ∧
      readFile (some text) Uninitialised.zeros 0 = .ok input ∧
      input.numBones.toInt = 2 ∧ input.frames.toInt = 1 ∧
      input.colliders = [⟨⟨0, 0, 0⟩, (1 : Rotation ℚ) • (⟨0, 1, 0⟩ : Vector3d ℚ)⟩] ∧
      input.positions.length = 2 * 1 * 3 ∧
      (∀ b f k, b < 2 → f < 1 → k < 3 →
        input.positions[(b * 1 + f) * 3 + k]? =
          restingController.bones[b]?.bind fun bone =>
            bone.stored[f]?.bind fun info => info.position.toList[k]?) ∧
      input.parents.map Int32.toInt =
        (List.range 2).map fun b => (parentNumber twoBones b : Int) := by
  have hshow : ∀ v ∈ exportedNumbers restingController [⟨⟨0, 0, 0⟩, 1, ⟨0, 1, 0⟩⟩],
      IStream.doubleToken ℚ ((fun q : ℚ => showInt q.num) v) = some v := by
    have hnumbers : exportedNumbers restingController [⟨⟨0, 0, 0⟩, 1, ⟨0, 1, 0⟩⟩] =
        [0, 0, 0, 5, 0, 0, 0, 0, 0, 0, 1, 0] := by
      simp [exportedNumbers, positionNumbers, colliderNumbers, restingController,
        SmoothMotionBone.stored, PlaneCollisionConstraint.worldNormal, Vector3d.toList]
    rw [hnumbers]
    decide +kernel
  exact readFile_writeToFile restingController_tagged (by decide) (by decide) (by decide) hshow
    Uninitialised.zeros 0

end Exporter
