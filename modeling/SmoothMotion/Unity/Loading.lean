-- SUMMARY: What loading a solution does to the stored frames: every position is overridden, or nothing changes.
import SmoothMotion.Lib.Grid
import SmoothMotion.Unity.Animator

open CSharp Decimal

/-!
# Loading a solution

The overriding loops run through the vectors of the file with a counter that is
never compared with anything. That the counter stands at vector
`b * numFrames + f` when frame `f` of bone `b` is overridden, and that there is
such a vector and such a frame, follows from the counts that were checked
before the loops started.
-/

namespace Animator

variable {ι K : Type} [Scalar K]

/-! ## The overriding loops -/

/-- The vector for frame `f` of bone `b` in a list with `frames` vectors for
    every bone. -/
def vectorFor (vectors : List (Vector3d K)) (frames b f : Nat) : Vector3d K :=
  vectors.getD (b * frames + f) ⟨0, 0, 0⟩

/-- The bones when everything in front of frame `f` of bone `b` is overridden. -/
def overriddenTo (bones : List (SmoothMotionBone ι K)) (vectors : List (Vector3d K))
    (frames b f : Nat) : List (SmoothMotionBone ι K) :=
  bones.mapIdx fun i bone => bone.overridden (vectorFor vectors frames i)
    (if i < b then frames else if i = b then f else 0)

section OverriddenTo

variable {bones : List (SmoothMotionBone ι K)} {vectors : List (Vector3d K)} {frames b f : Nat}

@[simp] theorem overriddenTo_start : overriddenTo bones vectors frames 0 0 = bones := by
  apply List.ext_getElem?
  intro i
  simp [overriddenTo]

/-- After the last frame of a bone comes the first one of the next. -/
theorem overriddenTo_row :
    overriddenTo bones vectors frames b frames = overriddenTo bones vectors frames (b + 1) 0 := by
  apply List.ext_getElem?
  intro i
  have hcount : (if i < b then frames else if i = b then frames else 0) =
      if i < b + 1 then frames else if i = b + 1 then 0 else 0 := by
    split_ifs <;> omega
  simp only [overriddenTo, List.getElem?_mapIdx, hcount]

theorem getElem?_overriddenTo {bone : SmoothMotionBone ι K} (hbone : bones[b]? = some bone) :
    (overriddenTo bones vectors frames b f)[b]? =
      some (bone.overridden (vectorFor vectors frames b) f) := by
  simp [overriddenTo, hbone]

/-- Overriding frame `f` of bone `b`. -/
theorem overriddenTo_set {bone : SmoothMotionBone ι K} (hbone : bones[b]? = some bone)
    (hf : f < bone.stored.length) :
    (overriddenTo bones vectors frames b f).set b
        ((bone.overridden (vectorFor vectors frames b) f).withPosition f
          (vectorFor vectors frames b f)) =
      overriddenTo bones vectors frames b (f + 1) := by
  rw [SmoothMotionBone.overridden_withPosition _ _ hf]
  apply List.ext_getElem?
  intro i
  by_cases hi : b = i
  · subst hi
    have hlen : b < (overriddenTo bones vectors frames b f).length := by
      unfold overriddenTo
      rw [List.length_mapIdx]
      exact (List.getElem?_eq_some_iff.mp hbone).1
    rw [List.getElem?_set_self hlen, getElem?_overriddenTo hbone]
  · have hne : i ≠ b := Ne.symm hi
    rw [List.getElem?_set_ne hi]
    simp [overriddenTo, hne]

end OverriddenTo

/-- One iteration, when all before it have been made. -/
theorem overrideFrame_exec {s : Scene ι K} {vectors : List (Vector3d K)} {b f : Nat}
    (hstored : ∀ bone ∈ s.controller.bones, bone.stored.length = s.controller.numFrames)
    (hcount : s.controller.bones.length * s.controller.numFrames ≤ vectors.length)
    (hb : b < s.controller.bones.length) (hf : f < s.controller.numFrames) :
    (overrideFrame vectors b f (b * s.controller.numFrames + f)).exec
        (s.withBones (overriddenTo s.controller.bones vectors s.controller.numFrames b f)) =
      (.ok (b * s.controller.numFrames + (f + 1)),
        s.withBones (overriddenTo s.controller.bones vectors s.controller.numFrames b (f + 1))) := by
  have hbone : s.controller.bones[b]? = some s.controller.bones[b] := List.getElem?_eq_getElem hb
  have hlen : f < s.controller.bones[b].stored.length := by
    rw [hstored _ (List.getElem_mem hb)]
    exact hf
  have hposition : b * s.controller.numFrames + f < vectors.length :=
    (Grid.index_lt hb hf).trans_le hcount
  have hvector : vectors[b * s.controller.numFrames + f]? =
      some (vectorFor vectors s.controller.numFrames b f) := by
    simp [vectorFor, List.getElem?_eq_getElem hposition]
  have hlen' : f < (s.controller.bones[b].overridden
      (vectorFor vectors s.controller.numFrames b) f).stored.length := by
    simpa using hlen
  have hoverride := SmoothMotionBone.overridePosition_of_lt
    (vectorFor vectors s.controller.numFrames b f) hlen'
  unfold overrideFrame
  rw [Script.exec_bind_ok (Script.exec_get _), Scene.withBones_bones,
    index_ofNat (getElem?_overriddenTo hbone), index_ofNat hvector]
  simp only [Script.exec_bind, Script.exec_ofExcept, hoverride, Script.exec_modify,
    Script.exec_pure, Scene.withBones_bones, overriddenTo_set hbone hlen,
    Scene.withBones_withBones, Scene.logged_nil]
  rfl

/-! ## The loaded controller -/

/-- The controller with all positions overridden. -/
def loaded (c : SmoothMotionController ι K) (vectors : List (Vector3d K)) :
    SmoothMotionController ι K :=
  { c with bones := overriddenTo c.bones vectors c.numFrames c.bones.length 0 }

section Loaded

variable {c : SmoothMotionController ι K} {vectors : List (Vector3d K)}

@[simp] theorem loaded_numFrames : (loaded c vectors).numFrames = c.numFrames := rfl

@[simp] theorem length_loaded_bones : (loaded c vectors).bones.length = c.bones.length := by
  simp [loaded, overriddenTo]

theorem getElem?_loaded_bones (b : Nat) :
    (loaded c vectors).bones[b]? = (c.bones[b]?).map fun bone =>
      bone.overridden (vectorFor vectors c.numFrames b) c.numFrames := by
  unfold loaded overriddenTo
  rw [List.getElem?_mapIdx]
  cases hbone : c.bones[b]? with
  | none => rfl
  | some bone => simp [(List.getElem?_eq_some_iff.mp hbone).1]

/-- Loading adds no frames. -/
theorem loaded_stored (hstored : ∀ bone ∈ c.bones, bone.stored.length = c.numFrames) :
    ∀ bone ∈ (loaded c vectors).bones, bone.stored.length = c.numFrames := by
  intro bone hbone
  obtain ⟨b, hb⟩ := List.mem_iff_getElem?.mp hbone
  rw [getElem?_loaded_bones] at hb
  obtain ⟨bone₀, hbone₀, rfl⟩ := Option.map_eq_some_iff.mp hb
  rw [SmoothMotionBone.overridden_stored_length]
  exact hstored bone₀ (List.mem_of_getElem? hbone₀)

/-- Loading moves no bone and no frame. -/
theorem loaded_tagged {sk : Skeleton ι K} (h : c.Tagged sk) : (loaded c vectors).Tagged sk where
  transforms := by
    rw [← h.transforms]
    apply List.ext_getElem?
    intro b
    rw [List.getElem?_map, List.getElem?_map, getElem?_loaded_bones, Option.map_map]
    rfl
  stored := loaded_stored h.stored

end Loaded

/-- With enough vectors, and `NumFrames` stored frames in every bone, the loops
    override every position and report nothing. -/
theorem overridePositions_exec {s : Scene ι K} {vectors : List (Vector3d K)}
    (hstored : ∀ bone ∈ s.controller.bones, bone.stored.length = s.controller.numFrames)
    (hcount : s.controller.bones.length * s.controller.numFrames ≤ vectors.length) :
    (overridePositions vectors s.controller.numFrames).exec s =
      (.ok (), { s with controller := loaded s.controller vectors }) := by
  let bonesAt (b f : Nat) : Scene ι K :=
    s.withBones (overriddenTo s.controller.bones vectors s.controller.numFrames b f)
  have hrow : ∀ b, b < s.controller.bones.length →
      (forRange s.controller.numFrames (overrideFrame vectors b)
        (b * s.controller.numFrames)).exec (bonesAt b 0) =
        (.ok ((b + 1) * s.controller.numFrames), bonesAt (b + 1) 0) := by
    intro b hb
    have hrun := forRange_exec (fun f => b * s.controller.numFrames + f) (bonesAt b)
      fun f hf => overrideFrame_exec hstored hcount hb hf
    rw [Nat.succ_mul]
    simp only [bonesAt, overriddenTo_row] at hrun ⊢
    exact hrun
  have hall := forRange_exec
    (fun b => b * s.controller.numFrames) (fun b => bonesAt b 0) hrow
  simp only [bonesAt, overriddenTo_start, Scene.withBones_self, Nat.zero_mul] at hall
  unfold overridePositions
  rw [Script.exec_bind_ok (Script.exec_get s), Int.toNat_natCast, Script.exec_bind_ok hall]
  rfl

/-! ## What a call leaves -/

/-- `c'` is `c` with every stored position replaced by the vector that the
    values have for this bone and frame. -/
structure LoadedFrom (runtime : Runtime K) (values : List Text)
    (c c' : SmoothMotionController ι K) : Prop where
  numFrames : c'.numFrames = c.numFrames
  length : c'.bones.length = c.bones.length
  stored : ∀ b bone, c.bones[b]? = some bone → ∃ bone', c'.bones[b]? = some bone' ∧
    bone'.stored.length = bone.stored.length ∧
    ∀ f info, bone.stored[f]? = some info → ∃ v, IsVector runtime values (b * c.numFrames + f) v ∧
      bone'.stored[f]? = some { info with position := v }

/-- The vectors of a file that is loaded are as many as its counts need. -/
theorem accepted_length {runtime : Runtime K} {c : SmoothMotionController ι K} {content : Text}
    {vectors : List (Vector3d K)} (h : accepted runtime c (some content) = some vectors) :
    c.bones.length * c.numFrames ≤ vectors.length := by
  obtain ⟨-, -, -, hbones⟩ := accepted_eq_some_iff.mp h
  rw [← hbones]
  exact Nat.div_mul_le_self _ _

theorem loaded_loadedFrom {runtime : Runtime K} {c : SmoothMotionController ι K} {content : Text}
    {vectors : List (Vector3d K)} (hstored : ∀ bone ∈ c.bones, bone.stored.length = c.numFrames)
    (h : accepted runtime c (some content) = some vectors) :
    LoadedFrom runtime (content.splitOn ' ') c (loaded c vectors) where
  numFrames := rfl
  length := length_loaded_bones
  stored := by
    obtain ⟨-, hvectors, -, -⟩ := accepted_eq_some_iff.mp h
    intro b bone hbone
    refine ⟨_, by rw [getElem?_loaded_bones, hbone, Option.map_some], by simp, ?_⟩
    intro f info hinfo
    obtain ⟨hb, hf⟩ := SmoothMotionController.cell_lt hstored hbone hinfo
    have hlt : b * c.numFrames + f < vectors.length :=
      (Grid.index_lt hb hf).trans_le (accepted_length h)
    refine ⟨_, ?_, SmoothMotionBone.getElem?_overridden_stored _ _ _ hinfo hf⟩
    apply (parsePositions_ok_iff.mp hvectors).2
    simp [vectorFor, List.getElem?_eq_getElem hlt]

/-- A file that is loaded: the call returns, and only the stored frames are
    touched. -/
theorem readFromFile_loaded {runtime : Runtime K} {content : Text} {s : Scene ι K}
    {vectors : List (Vector3d K)}
    (hstored : ∀ bone ∈ s.controller.bones, bone.stored.length = s.controller.numFrames)
    (h : accepted runtime s.controller (some content) = some vectors) :
    (readFromFile runtime (some content)).exec s =
      (.ok (), { s with controller := loaded s.controller vectors }) := by
  rw [readFromFile_of_accepted h]
  exact overridePositions_exec hstored (accepted_length h)

/-- A call loads the file, or leaves no trace but warnings. -/
theorem readFromFile_cases {runtime : Runtime K} {s : Scene ι K}
    (hstored : ∀ bone ∈ s.controller.bones, bone.stored.length = s.controller.numFrames)
    (file : Option Text) :
    (accepted runtime s.controller file = none ∧
      ∃ result entries, (readFromFile runtime file).exec s = (result, s.logged entries) ∧
        result ≠ .error .argumentOutOfRange ∧ ∀ entry ∈ entries, ∃ text, entry = .warning text) ∨
    ∃ vectors, accepted runtime s.controller file = some vectors ∧
      (readFromFile runtime file).exec s =
        (.ok (), { s with controller := loaded s.controller vectors }) := by
  cases haccepted : accepted runtime s.controller file with
  | none => exact .inl ⟨rfl, readFromFile_of_not_accepted haccepted⟩
  | some vectors =>
    cases file with
    | none => cases haccepted
    | some content => exact .inr ⟨vectors, rfl, readFromFile_loaded hstored haccepted⟩

end Animator
