-- SUMMARY: SmoothMotionController: tagging the bones of a skeleton and sampling the clip, and the state it is initialised in.
import Mathlib.Algebra.Order.Monoid.WithTop
import SmoothMotion.Unity.Bone

/-!
# The controller

`Start` tags every Transform below `SkeletonRoot` in preorder and then samples
the clip frame by frame, each sample appending one frame to every bone. What
the later stages rely on is `Tagged`: the bones are the skeleton in preorder,
and they all hold `NumFrames` frames.
-/

structure SmoothMotionController (ι K : Type) [Scalar K] where
  bones : List (SmoothMotionBone ι K)
  numFrames : Nat
  samplingFPS : Int
  initialised : Bool

/-- The clip being sampled: its length, and the pose it gives at a time. -/
structure AnimationClip (ι K : Type) [Scalar K] where
  length : K
  sampleAnimation : K → Pose ι K → Pose ι K

namespace SmoothMotionController

variable {ι K : Type} [Scalar K]

/-! ## Tagging -/

mutual
/-- `TagBonesDeep(node)`: the list of bones grows by the node and by what is
    below each of its children. -/
def tagBonesDeep : RoseTree ι → List (SmoothMotionBone ι K) → List (SmoothMotionBone ι K)
  | .node value children, bones => tagChildren children (bones ++ [⟨value, none⟩])

def tagChildren : List (RoseTree ι) → List (SmoothMotionBone ι K) → List (SmoothMotionBone ι K)
  | [], bones => bones
  | child :: children, bones => tagChildren children (tagBonesDeep child bones)
end

mutual
private theorem tagBonesDeep_eq_append (up : List ι) :
    (t : RoseTree ι) → ∀ bones : List (SmoothMotionBone ι K),
      tagBonesDeep t bones = bones ++ (t.listing up).map fun entry => ⟨entry.1, none⟩
  | .node value children => by
      intro bones
      rw [tagBonesDeep, RoseTree.listing, tagChildren_eq_append (up ++ [value]) children]
      simp

private theorem tagChildren_eq_append (up : List ι) :
    (ts : List (RoseTree ι)) → ∀ bones : List (SmoothMotionBone ι K),
      tagChildren ts bones = bones ++ (RoseTree.listingAll up ts).map fun entry => ⟨entry.1, none⟩
  | [] => by
      intro bones
      simp [tagChildren, RoseTree.listingAll]
  | child :: children => by
      intro bones
      rw [tagChildren, tagBonesDeep_eq_append up child, tagChildren_eq_append up children,
        RoseTree.listingAll]
      simp
end

/-- The bones are tagged in preorder, without frames. -/
theorem tagBonesDeep_eq (t : RoseTree ι) :
    tagBonesDeep t [] = t.preorder.map fun i => (⟨i, none⟩ : SmoothMotionBone ι K) := by
  rw [tagBonesDeep_eq_append [] t, RoseTree.preorder, List.map_map]
  rfl

/-! ## Sampling -/

section Sampling

variable [DecidableEq ι]

/-- `1f / SamplingFPS`, which is infinite for `SamplingFPS = 0`. -/
def frameTime (samplingFPS : Int) : WithTop K :=
  if samplingFPS = 0 then ⊤ else ((1 / samplingFPS : K) : WithTop K)

/-- What the sampling loop changes: the pose, the bones and `NumFrames`. -/
structure Sampling (ι K : Type) [Scalar K] where
  pose : Pose ι K
  bones : List (SmoothMotionBone ι K)
  numFrames : Nat

/-- The body of the sampling loop at `time`. -/
def sampleFrame (sk : Skeleton ι K) (clip : AnimationClip ι K) (time : K) (s : Sampling ι K) :
    Sampling ι K :=
  let pose := clip.sampleAnimation time s.pose
  { pose, bones := s.bones.map (·.saveFramePosition sk pose), numFrames := s.numFrames + 1 }

/-- The sampling loop, with an iteration for every unit of fuel; nothing if the
    fuel runs out before the clip does. -/
def sampleLoop (sk : Skeleton ι K) (clip : AnimationClip ι K) (step : WithTop K) :
    (fuel : Nat) → (time : WithTop K) → Sampling ι K → Option (Sampling ι K)
  | _, none, s => some s
  | 0, some time, s => if time < clip.length then none else some s
  | fuel + 1, some time, s =>
    if time < clip.length then
      sampleLoop sk clip step fuel ((time : WithTop K) + step) (sampleFrame sk clip time s)
    else some s

def getBonePositions (sk : Skeleton ι K) (clip : AnimationClip ι K) (samplingFPS : Int)
    (bones : List (SmoothMotionBone ι K)) (pose : Pose ι K) (fuel : Nat) :
    Option (Sampling ι K) :=
  sampleLoop sk clip (frameTime samplingFPS) fuel ((0 : K) : WithTop K) ⟨pose, bones, 0⟩

/-- `Start`: the initialised controller and the pose the last sample left. -/
def start (sk : Skeleton ι K) (clip : AnimationClip ι K) (samplingFPS : Int) (pose : Pose ι K)
    (fuel : Nat) : Option (SmoothMotionController ι K × Pose ι K) := do
  let bones := tagBonesDeep sk.tree []
  let sampled ← getBonePositions sk clip samplingFPS bones pose fuel
  return ({ bones := sampled.bones, numFrames := sampled.numFrames, samplingFPS,
            initialised := true }, sampled.pose)

end Sampling

/-! ## The initialised controller -/

/-- The bones are the Transforms of the skeleton as `TagBonesDeep` lists them,
    and each holds `NumFrames` frames. -/
structure Tagged (sk : Skeleton ι K) (c : SmoothMotionController ι K) : Prop where
  transforms : c.bones.map (·.transform) =
    (tagBonesDeep sk.tree ([] : List (SmoothMotionBone ι K))).map (·.transform)
  stored : ∀ bone ∈ c.bones, bone.stored.length = c.numFrames

section Tagged

variable {sk : Skeleton ι K} {c : SmoothMotionController ι K}

theorem Tagged.transforms_eq (h : c.Tagged sk) :
    c.bones.map (·.transform) = sk.tree.preorder := by
  rw [h.transforms, tagBonesDeep_eq, List.map_map]
  exact List.map_id _

theorem Tagged.length_eq (h : c.Tagged sk) : c.bones.length = sk.tree.preorder.length := by
  rw [← h.transforms_eq, List.length_map]

theorem Tagged.bones_length_pos (h : c.Tagged sk) : 0 < c.bones.length := by
  rw [h.length_eq]
  exact sk.tree.preorder_length_pos

theorem Tagged.transform_eq (h : c.Tagged sk) {b : Nat} (hb : b < c.bones.length)
    (hb' : b < sk.tree.preorder.length) : c.bones[b].transform = sk.tree.preorder[b] := by
  simp only [← h.transforms_eq, List.getElem_map]

/-- A stored frame belongs to one of the bones and is one of the `NumFrames`. -/
theorem cell_lt (hstored : ∀ bone ∈ c.bones, bone.stored.length = c.numFrames) {b f : Nat}
    {bone : SmoothMotionBone ι K} {info : FrameInfo K} (hbone : c.bones[b]? = some bone)
    (hinfo : bone.stored[f]? = some info) : b < c.bones.length ∧ f < c.numFrames := by
  constructor
  · exact (List.getElem?_eq_some_iff.mp hbone).1
  · rw [← hstored bone (List.mem_of_getElem? hbone)]
    exact (List.getElem?_eq_some_iff.mp hinfo).1

end Tagged

section Start

variable [DecidableEq ι] {sk : Skeleton ι K} {clip : AnimationClip ι K}

/-- The bones are the given Transforms and hold as many frames as were counted. -/
private def Sampling.Counted (transforms : List ι) (s : Sampling ι K) : Prop :=
  s.bones.map (·.transform) = transforms ∧ ∀ bone ∈ s.bones, bone.stored.length = s.numFrames

private theorem sampleFrame_counted {transforms : List ι} {s : Sampling ι K} (time : K)
    (h : s.Counted transforms) : (sampleFrame sk clip time s).Counted transforms := by
  obtain ⟨htransforms, hstored⟩ := h
  constructor
  · simp only [sampleFrame, List.map_map]
    exact htransforms
  · intro bone hbone
    obtain ⟨bone₀, hmem, rfl⟩ := List.mem_map.mp hbone
    simp [sampleFrame, hstored bone₀ hmem]

private theorem sampleLoop_counted {step : WithTop K} {transforms : List ι} {fuel : Nat}
    {time : WithTop K} {s s' : Sampling ι K} (h : sampleLoop sk clip step fuel time s = some s')
    (hs : s.Counted transforms) : s'.Counted transforms := by
  induction fuel generalizing time s with
  | zero =>
    cases time with
    | top =>
      obtain rfl : s = s' := by simpa [sampleLoop] using h
      exact hs
    | coe time =>
      simp only [sampleLoop] at h
      split at h
      · cases h
      · cases h
        exact hs
  | succ fuel ih =>
    cases time with
    | top =>
      obtain rfl : s = s' := by simpa [sampleLoop] using h
      exact hs
    | coe time =>
      simp only [sampleLoop] at h
      split at h
      · exact ih h (sampleFrame_counted time hs)
      · cases h
        exact hs

/-- Whatever the clip and the sampling rate, the controller that `Start`
    initialises is tagged. -/
theorem start_tagged {samplingFPS : Int} {pose pose' : Pose ι K} {fuel : Nat}
    {c : SmoothMotionController ι K}
    (h : start sk clip samplingFPS pose fuel = some (c, pose')) : c.Tagged sk := by
  obtain ⟨sampled, hsampled, hc⟩ := Option.bind_eq_some_iff.mp h
  simp only [pure, Option.some.injEq, Prod.mk.injEq] at hc
  obtain ⟨rfl, -⟩ := hc
  have hinit : Sampling.Counted (sk.tree.preorder)
      (⟨pose, tagBonesDeep sk.tree [], 0⟩ : Sampling ι K) := by
    rw [tagBonesDeep_eq]
    constructor
    · simp [Function.comp_def]
    · simp [SmoothMotionBone.stored]
  obtain ⟨htransforms, hstored⟩ := sampleLoop_counted hsampled hinit
  refine ⟨?_, hstored⟩
  rw [htransforms, tagBonesDeep_eq]
  simp [Function.comp_def]

theorem start_initialised {samplingFPS : Int} {pose pose' : Pose ι K} {fuel : Nat}
    {c : SmoothMotionController ι K}
    (h : start sk clip samplingFPS pose fuel = some (c, pose')) :
    c.initialised = true ∧ c.samplingFPS = samplingFPS := by
  obtain ⟨sampled, -, hc⟩ := Option.bind_eq_some_iff.mp h
  cases hc
  exact ⟨rfl, rfl⟩

end Start

end SmoothMotionController

/-! ## A small skeleton -/

/-- A root with one child. -/
def twoBones : Skeleton Nat ℚ where
  tree := .node 0 [.node 1 []]
  distinct := by decide
  name i := if i = 0 then "root" else "child"
  outer := []

/-- The child five units from the root. -/
def restingPose : Pose Nat ℚ := fun i => ⟨⟨if i = 0 then 0 else 5, 0, 0⟩, 1, ⟨1, 1, 1⟩⟩

/-- A clip in which nothing moves. -/
def restingClip : AnimationClip Nat ℚ where
  length := 1 / 2
  sampleAnimation _ _ := restingPose

/-- The controller with the frame sampled at time `0`. -/
def restingController : SmoothMotionController Nat ℚ where
  bones := [⟨0, some [⟨⟨0, 0, 0⟩, ⟨1, 1, 1⟩, 1⟩]⟩, ⟨1, some [⟨⟨5, 0, 0⟩, ⟨1, 1, 1⟩, 1⟩]⟩]
  numFrames := 1
  samplingFPS := 1
  initialised := true

theorem restingController_start (pose : Pose Nat ℚ) :
    SmoothMotionController.start twoBones restingClip 1 pose 1 =
      some (restingController, restingPose) := by
  have hstep : SmoothMotionController.frameTime (1 : Int) = ((1 : ℚ) : WithTop ℚ) := by
    simp [SmoothMotionController.frameTime]
  have hnodes : SmoothMotionController.tagBonesDeep twoBones.tree [] =
      [⟨0, none⟩, (⟨1, none⟩ : SmoothMotionBone Nat ℚ)] := rfl
  have hfirst : (0 : ℚ) < restingClip.length := by decide +kernel
  have hlast : ¬ (1 : ℚ) < restingClip.length := by decide +kernel
  have hsample : SmoothMotionController.sampleFrame twoBones restingClip 0
      ⟨pose, [⟨0, none⟩, ⟨1, none⟩], 0⟩ = ⟨restingPose, restingController.bones, 1⟩ := by
    have hroot : twoBones.chain restingPose 0 = [] := rfl
    have hchild : twoBones.chain restingPose 1 = [⟨⟨0, 0, 0⟩, 1, ⟨1, 1, 1⟩⟩] := rfl
    have hpose : restingClip.sampleAnimation 0 pose = restingPose := rfl
    have hposition : (⟨0, 0, 0⟩ + ⟨5, 0, 0⟩ : Vector3d ℚ) = ⟨5, 0, 0⟩ := by decide +kernel
    simp only [SmoothMotionController.sampleFrame, hpose, List.map_cons, List.map_nil,
      SmoothMotionBone.saveFramePosition, SmoothMotionBone.createFrameInfo, Skeleton.position,
      Skeleton.rotation, hroot, hchild]
    simp [restingController, restingPose, SmoothMotionBone.stored, transformPoint, chainRotation,
      LocalTransform.toParent, Vector3d.scale, hposition]
  simp only [SmoothMotionController.start, SmoothMotionController.getBonePositions, hstep, hnodes]
  simp [SmoothMotionController.sampleLoop, hfirst, hlast, hsample, restingController]

theorem restingController_tagged : restingController.Tagged twoBones :=
  SmoothMotionController.start_tagged (restingController_start restingPose)
