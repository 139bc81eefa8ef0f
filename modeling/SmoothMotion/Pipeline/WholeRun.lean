-- SUMMARY: The whole way of an animation: exported, solved, saved and loaded, with what the bones end up at.
import SmoothMotion.Pipeline.Input
import SmoothMotion.Pipeline.Output
import SmoothMotion.Pipeline.Precision
import SmoothMotion.Solver.Saved

open CSharp Decimal

/-!
# The whole way

The three programs are run one after the other: the exporter writes the file that
the solver reads, and the animator reads the file that the solver writes. No stage
fails, and every stored position becomes the solver's, to six digits.
-/

variable {ι K : Type} [Scalar K]

/-- The stored positions of `c'` are the numbers of the array, as they are printed. -/
structure ShowsArray (tieUp : Int → Bool) (parameters : List K)
    (c c' : SmoothMotionController ι K) : Prop where
  length : c'.bones.length = c.bones.length
  stored : ∀ b f bone info, c.bones[b]? = some bone → bone.stored[f]? = some info →
    ∃ bone' v, c'.bones[b]? = some bone' ∧ bone'.stored.length = bone.stored.length ∧
      bone'.stored[f]? = some { info with position := v } ∧
      ∀ k, k < 3 → v.toList[k]? =
        (parameters[(b * c.numFrames + f) * 3 + k]?).map (OStream.rounded tieUp)

namespace Animator

/-- What was printed by the solver's stream is accepted, and loaded rounded to its digits. -/
theorem accepted_printed (runtime : Runtime K) (tieUp : Int → Bool)
    {c : SmoothMotionController ι K} {parameters : List K} {frames : Int32}
    (hstored : ∀ bone ∈ c.bones, bone.stored.length = c.numFrames) (hpos : 0 < c.numFrames)
    (hframes : frames.toInt = c.numFrames)
    (hlength : parameters.length = 3 * c.bones.length * c.numFrames) :
    ∃ vectors, accepted runtime c
        (some (CeresWrapper.saveText (OStream.showDouble tieUp) parameters frames)) = some vectors ∧
      ShowsArray tieUp parameters c (loaded c vectors) := by
  have haccepted := accepted_parsed runtime hpos hframes hlength
    (fun v _ => CeresWrapper.blank_not_mem_showDouble tieUp v)
    (fun v _ => CeresWrapper.parse_showDouble runtime tieUp v)
  refine ⟨_, haccepted, length_loaded_bones, ?_⟩
  intro b f bone info hbone hinfo
  obtain ⟨hb, hf⟩ := SmoothMotionController.cell_lt hstored hbone hinfo
  have hcell := Grid.index_lt hb hf
  have hblock : (b * c.numFrames + f) * 3 + 3 ≤
      (parameters.map (OStream.rounded tieUp)).length := by
    rw [List.length_map, hlength, Nat.mul_assoc]
    omega
  refine ⟨_, _, by rw [getElem?_loaded_bones, hbone, Option.map_some], by simp,
    SmoothMotionBone.getElem?_overridden_stored _ _ _ hinfo hf, fun k hk => ?_⟩
  rw [← List.getElem?_map, getElem?_block hblock hk]
  simp [vectorFor, hcell]

end Animator

/-- For every tracked skeleton, if the counts are `int`s and the exporter's numerals
    say what they print: exporting, solving under the default options and loading
    all succeed, whatever the machine. The bones then show the solver's array, in
    place of positions that cost no less. -/
theorem whole_run [DecidableEq ι] {sk : Skeleton ι K} {s : Scene ι K}
    {constraints : List (PlaneCollisionConstraint K)} {showFloat : K → Text}
    (h : s.controller.Tagged sk) (hpos : 0 < s.controller.numFrames)
    (hbones : s.controller.bones.length < 2 ^ 31) (hconstraints : constraints.length < 2 ^ 31)
    (hfit : 3 * s.controller.bones.length * s.controller.numFrames < 2 ^ 31)
    (hshow : ∀ v ∈ Exporter.exportedNumbers s.controller constraints,
      IStream.doubleToken K (showFloat v) = some v)
    (platform : Platform) (machine : Ceres.Machine K) (runtime : Runtime K) (tieUp : Int → Bool)
    (memory : Uninitialised K) (filename : String) :
    ∃ exported input problem parameters saved s',
      Exporter.writeToFile showFloat sk s.controller constraints = .ok (exported, []) ∧
      readFile (some exported) memory 0 = .ok input ∧
      input.positions = Exporter.positionNumbers s.controller ∧
      maintainBoneLengthChildrenFunction platform input.colliders input.frames input.numBones
        input.positions input.parents = .ok problem ∧
      Ceres.NoWorse problem input.positions parameters ∧
      CeresWrapper.main platform (Ceres.solve machine .default) (OStream.showDouble tieUp) memory
        filename (some exported) true = .ok saved ∧
      (Animator.readFromFile runtime (some saved)).exec s = (.ok (), s') ∧ s'.log = s.log ∧
      ShowsArray tieUp parameters s.controller s'.controller := by
  obtain ⟨input, hread, hback⟩ :=
    Exporter.readFile_terminated_fileTokens h hbones hconstraints hfit hshow memory 0
  have hpositions : input.positions.length =
      s.controller.bones.length * s.controller.numFrames * 3 := by
    rw [hback.positions, Exporter.length_positionNumbers h]
  have hparents : input.parents.length = s.controller.bones.length := by simp [hback.parents]
  have hbuilt := maintainBoneLengthChildrenFunction_eq platform input.colliders hback.numBones
    hback.frames hparents hpositions.ge
  obtain ⟨parameters, hsolve, hnoWorse⟩ := Ceres.solve_ok
    (maintainBoneLengthChildrenFunction_placed hbuilt) CeresWrapper.minLmDiagonal_default machine
  have hmain := CeresWrapper.main_eq hread hbuilt hsolve (OStream.showDouble tieUp) filename true
  have hlength : parameters.length =
      3 * s.controller.bones.length * s.controller.numFrames := by
    rw [hnoWorse.length, hpositions]
    ring
  obtain ⟨vectors, haccepted, hshows⟩ :=
    Animator.accepted_printed runtime tieUp h.stored hpos hback.frames hlength
  exact ⟨_, input, _, parameters, _, _, Exporter.writeToFile_eq h constraints, hread,
    hback.positions, hbuilt, hnoWorse, hmain, Animator.readFromFile_loaded h.stored haccepted, rfl,
    hshows⟩

/-- Two bones and the plane `y = 0`, the whole way. -/
theorem whole_run_twoBones :
    ∃ exported input problem parameters saved s',
      Exporter.writeToFile (fun q : ℚ => showInt q.num) twoBones restingController
        [⟨⟨0, 0, 0⟩, 1, ⟨0, 1, 0⟩⟩] = .ok (exported, []) ∧
      readFile (some exported) Uninitialised.zeros 0 = .ok input ∧
      input.positions = Exporter.positionNumbers restingController ∧
      maintainBoneLengthChildrenFunction win64 input.colliders input.frames input.numBones
        input.positions input.parents = .ok problem ∧
      Ceres.NoWorse problem input.positions parameters ∧
      CeresWrapper.main win64 (Ceres.solve Ceres.diagonalMachine .default)
        (OStream.showDouble CeresWrapper.toEven) Uninitialised.zeros "walk" (some exported) true =
          .ok saved ∧
      (Animator.readFromFile Runtime.whole (some saved)).exec
        (Scene.initial restingController restingPose) = (.ok (), s') ∧ s'.log = [] ∧
      ShowsArray CeresWrapper.toEven parameters restingController s'.controller := by
  have hshow : ∀ v ∈ Exporter.exportedNumbers restingController [⟨⟨0, 0, 0⟩, 1, ⟨0, 1, 0⟩⟩],
      IStream.doubleToken ℚ ((fun q : ℚ => showInt q.num) v) = some v := by
    have hnumbers : Exporter.exportedNumbers restingController [⟨⟨0, 0, 0⟩, 1, ⟨0, 1, 0⟩⟩] =
        [0, 0, 0, 5, 0, 0, 0, 0, 0, 0, 1, 0] := by
      simp [Exporter.exportedNumbers, Exporter.positionNumbers, Exporter.colliderNumbers,
        restingController, SmoothMotionBone.stored, PlaneCollisionConstraint.worldNormal,
        Vector3d.toList]
    rw [hnumbers]
    decide +kernel
  have hpos : 0 < restingController.numFrames := by decide
  have hbones : restingController.bones.length < 2 ^ 31 := by decide
  have hfit : 3 * restingController.bones.length * restingController.numFrames < 2 ^ 31 := by decide
  exact whole_run (s := Scene.initial restingController restingPose) restingController_tagged hpos
    hbones (by simp) hfit hshow win64 Ceres.diagonalMachine Runtime.whole
    CeresWrapper.toEven Uninitialised.zeros "walk"
