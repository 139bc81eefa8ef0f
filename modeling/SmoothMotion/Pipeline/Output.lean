-- SUMMARY: The .SMOutput file: what SaveFile writes, ReadFromFile loads, number for number.
import SmoothMotion.Solver.Main
import SmoothMotion.Unity.Loading

open CSharp Decimal

/-!
# The output file

`SaveFile` writes the number of frames and then the array, each number with a
blank in front of it; `ReadFromFile` splits at the blanks and takes the values
three at a time. Both ends count in vectors: vector `b * frames + f` is the
position of bone `b` at frame `f`, for the solver by its formula and for the
animator by its running counter.
-/

namespace CeresWrapper

variable {K : Type} [Scalar K] {showDouble : K → Text}

omit [Scalar K] in
/-- The blanks separate the numbers, and end none. -/
theorem splitOn_saveText {parameters : List K} (frames : Int32)
    (hblank : ∀ v ∈ parameters, ' ' ∉ showDouble v) :
    (saveText showDouble parameters frames).splitOn ' ' =
      showInt frames.toInt :: parameters.map showDouble := by
  have hsplit : ∀ (parameters : List K) (tok : Text), ' ' ∉ tok →
      (∀ v ∈ parameters, ' ' ∉ showDouble v) →
      (tok ++ parameters.flatMap fun v => ' ' :: showDouble v).splitOn ' ' =
        tok :: parameters.map showDouble := by
    intro parameters
    induction parameters with
    | nil =>
      intro tok htok _
      simpa using List.splitOn_eq_singleton htok
    | cons v parameters ih =>
      intro tok htok hblank
      have hrest := ih (showDouble v) (hblank v (by simp)) fun w hw => hblank w (by simp [hw])
      rw [List.flatMap_cons, List.cons_append, List.splitOn_append_cons_self_of_not_mem htok, hrest]
      rfl
  have hlocal : Scanner.Local false scanInt := scanInt_local
  have hframes : ' ' ∉ showInt frames.toInt := fun hmem =>
    absurd (hlocal.numeralChar (intNumeral_showInt frames.toInt) ' ' hmem) (by decide)
  exact hsplit parameters _ hframes hblank

omit [Scalar K] in
/-- A numeral holds no blank. -/
theorem blank_not_mem {v : K} {q : ℚ} (h : numeral (showDouble v) = some q) :
    ' ' ∉ showDouble v :=
  fun hmem => absurd (scanDecimal_local.numeralChar h ' ' hmem) (by decide)

end CeresWrapper

namespace Animator

variable {ι K : Type} [Scalar K]

section RoundTrip

variable {runtime : Runtime K} {showDouble : K → Text} {parsed : K → K} {parameters : List K}
  {frames : Int32}

/-- The vectors of the text are those of the numbers it is parsed to. -/
theorem parsePositions_saved {n : Nat} (hlength : parameters.length = 3 * n)
    (hparse : ∀ v ∈ parameters, runtime.parse (showDouble v) = .ok (parsed v)) :
    parsePositions runtime (showInt frames.toInt :: parameters.map showDouble) =
      .ok ((List.range n).map (vectorAt (parameters.map parsed))) := by
  have hvalue : ∀ i, i < parameters.length →
      ((showInt frames.toInt :: parameters.map showDouble)[i + 1]?).map runtime.parse =
        some (.ok ((parameters.map parsed).getD i 0)) := by
    intro i hi
    simp [List.getElem?_eq_getElem hi, hparse parameters[i] (List.getElem_mem hi)]
  refine parsePositions_ok_iff.mpr ⟨by simp [hlength], fun k v hv => ?_⟩
  obtain ⟨hk, rfl⟩ := List.getElem?_eq_some_iff.mp hv
  simp only [List.length_map, List.length_range] at hk
  simp only [List.getElem_map, List.getElem_range, vectorAt, Nat.mul_comm k 3]
  exact ⟨hvalue (3 * k) (by omega), hvalue (3 * k + 1) (by omega), hvalue (3 * k + 2) (by omega)⟩

/-- What the solver saves for these counts is loaded as it is parsed. -/
theorem accepted_parsed (runtime : Runtime K) {c : SmoothMotionController ι K} (hpos : 0 < c.numFrames)
    (hframes : frames.toInt = c.numFrames)
    (hlength : parameters.length = 3 * c.bones.length * c.numFrames)
    (hblank : ∀ v ∈ parameters, ' ' ∉ showDouble v)
    (hparse : ∀ v ∈ parameters, runtime.parse (showDouble v) = .ok (parsed v)) :
    accepted runtime c (some (CeresWrapper.saveText showDouble parameters frames)) =
      some ((List.range (c.bones.length * c.numFrames)).map (vectorAt (parameters.map parsed))) := by
  have hvalues := CeresWrapper.splitOn_saveText frames hblank
  have hint : int32Parse (showInt frames.toInt) = .ok frames.toInt :=
    int32Parse_showInt frames.minValue_le_toInt frames.toInt_le
  rw [accepted_eq_some_iff, hvalues]
  refine ⟨?_, parsePositions_saved (by rw [hlength, Nat.mul_assoc]) hparse, hpos.ne', ?_⟩
  · rw [List.headD_cons, hint, hframes]
  · rw [List.length_map, List.length_range, Nat.mul_div_cancel _ hpos]

/-- What is printed exactly is loaded as it was. -/
theorem accepted_saved (runtime : Runtime K) {c : SmoothMotionController ι K} (hpos : 0 < c.numFrames)
    (hframes : frames.toInt = c.numFrames)
    (hlength : parameters.length = 3 * c.bones.length * c.numFrames)
    (hshow : ∀ v ∈ parameters, numeralIn K (showDouble v) = some v) :
    accepted runtime c (some (CeresWrapper.saveText showDouble parameters frames)) =
      some ((List.range (c.bones.length * c.numFrames)).map (vectorAt parameters)) := by
  have hparse : ∀ v ∈ parameters, runtime.parse (showDouble v) = .ok (id v) := by
    intro v hv
    obtain ⟨q, hq, hcast⟩ := Option.map_eq_some_iff.mp (hshow v hv)
    rw [runtime.parse_numeral _ q hq, hcast, id]
  have hblank : ∀ v ∈ parameters, ' ' ∉ showDouble v := by
    intro v hv
    obtain ⟨q, hq, -⟩ := Option.map_eq_some_iff.mp (hshow v hv)
    exact CeresWrapper.blank_not_mem hq
  simpa using accepted_parsed runtime hpos hframes hlength hblank hparse

/-- What `SaveFile` writes, `ReadFromFile` loads without a warning: every stored
    position becomes the vector at which the solver has this bone and frame, and
    rotations and scales stay. -/
theorem readFromFile_saveFile {s : Scene ι K} (filename : String)
    (hstored : ∀ bone ∈ s.controller.bones, bone.stored.length = s.controller.numFrames)
    (hpos : 0 < s.controller.numFrames) (hframes : frames.toInt = s.controller.numFrames)
    (hlength : parameters.length = 3 * s.controller.bones.length * s.controller.numFrames)
    (hshow : ∀ v ∈ parameters, numeralIn K (showDouble v) = some v) :
    ∃ text s', CeresWrapper.saveFile showDouble filename true parameters frames = .ok text ∧
      (readFromFile runtime (some text)).exec s = (.ok (), s') ∧ s'.log = s.log ∧
      s'.controller.bones.length = s.controller.bones.length ∧
      ∀ b f bone info, s.controller.bones[b]? = some bone → bone.stored[f]? = some info →
        ∃ bone' v, s'.controller.bones[b]? = some bone' ∧
          bone'.stored.length = bone.stored.length ∧
          bone'.stored[f]? = some { info with position := v } ∧
          (∀ k, k < 3 → parameters[(b * s.controller.numFrames + f) * 3 + k]? = v.toList[k]?) ∧
          readVector3At parameters ((b * frames.toInt + f) * 3) = .ok v := by
  have haccepted := accepted_saved runtime hpos hframes hlength hshow
  refine ⟨_, _, rfl, readFromFile_loaded hstored haccepted, rfl, length_loaded_bones, ?_⟩
  intro b f bone info hbone hinfo
  obtain ⟨hb, hf⟩ := SmoothMotionController.cell_lt hstored hbone hinfo
  have hcell := Grid.index_lt hb hf
  have hblock : (b * s.controller.numFrames + f) * 3 + 3 ≤ parameters.length := by
    rw [hlength, Nat.mul_assoc]
    omega
  have hvector : vectorFor ((List.range (s.controller.bones.length * s.controller.numFrames)).map
      (vectorAt parameters)) s.controller.numFrames b f = positionAt parameters
        s.controller.numFrames b f := by
    simp [vectorFor, positionAt, hcell]
  refine ⟨_, positionAt parameters s.controller.numFrames b f,
    by rw [getElem?_loaded_bones, hbone, Option.map_some], by simp, ?_,
    fun k hk => getElem?_block hblock hk, ?_⟩
  · rw [SmoothMotionBone.getElem?_overridden_stored _ _ _ hinfo hf, hvector]
  · rw [hframes]
    exact readVector3At_tile hblock

end RoundTrip

/-- The two bones with a frame more. -/
def twoFrames : SmoothMotionController Nat ℚ :=
  { restingController with
    bones := restingController.bones.map fun bone =>
      { bone with frames := some (bone.stored ++ bone.stored) }
    numFrames := 2 }

/-- Twelve numbers for two bones and two frames. -/
theorem readFromFile_saveFile_twoBones :
    ∃ text s', CeresWrapper.saveFile Runtime.whole.showFloat "clip" true
        [7, 8, 9, 4, 5, 6, 1, 2, 3, -4, -5, -6] 2 = .ok text ∧
      (readFromFile Runtime.whole (some text)).exec
        (Scene.initial twoFrames restingPose) = (.ok (), s') ∧ s'.log = [] ∧
      s'.controller.bones.length = 2 ∧
      ∀ (b f : Nat) bone info, twoFrames.bones[b]? = some bone → bone.stored[f]? = some info →
        ∃ bone' v, s'.controller.bones[b]? = some bone' ∧
          bone'.stored.length = bone.stored.length ∧
          bone'.stored[f]? = some { info with position := v } ∧
          (∀ k, k < 3 →
            ([7, 8, 9, 4, 5, 6, 1, 2, 3, -4, -5, -6] : List ℚ)[(b * 2 + f) * 3 + k]? =
              v.toList[k]?) ∧
          readVector3At ([7, 8, 9, 4, 5, 6, 1, 2, 3, -4, -5, -6] : List ℚ)
            ((b * (2 : Int32).toInt + f) * 3) = .ok v :=
  readFromFile_saveFile "clip" (by decide +kernel) (by decide) (by decide) (by decide)
    (by decide +kernel)

end Animator
