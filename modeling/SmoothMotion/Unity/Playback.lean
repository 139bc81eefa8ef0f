-- SUMMARY: Playback: the animator's loop places every bone where its own frame says, whatever the pose was before.
import SmoothMotion.Unity.Animator

open CSharp

/-!
# Playback

`SetFrame` writes one Transform so that its world position and rotation are the
interpolated ones under the present pose of the Transforms above it, which
moves everything below. As the bones come in preorder, nothing above a bone is
written after it, so the loop as a whole is an assignment in a hierarchy with
ancestors first.
-/

namespace Animator

variable {ι K : Type} [DecidableEq ι] [Scalar K]

/-- The interpolated frame of the bone on Transform `i`. -/
def frameOf (bones : List (SmoothMotionBone ι K)) (frame : K) (i : ι) : FrameInfo K :=
  ((bones.find? fun bone => bone.transform = i).bind fun bone =>
    (bone.frameAt frame).toOption).getD ⟨⟨0, 0, 0⟩, ⟨0, 0, 0⟩, 1⟩

/-- The local data that `SetFrame` gives Transform `i` below these Transforms. -/
def solveFrame (sk : Skeleton ι K) (bones : List (SmoothMotionBone ι K)) (frame : K) (i : ι)
    (above : List (LocalTransform K)) : LocalTransform K :=
  Skeleton.placed (sk.outer ++ above) (frameOf bones frame i).position
    (frameOf bones frame i).rotation (frameOf bones frame i).scale

section SetFrames

variable {sk : Skeleton ι K} {bones : List (SmoothMotionBone ι K)} {frame : K}

/-- No two bones are on one Transform. -/
theorem frameOf_eq (hsingle : Set.InjOn (·.transform) {bone | bone ∈ bones})
    {bone : SmoothMotionBone ι K} (hbone : bone ∈ bones) {info : FrameInfo K}
    (hinfo : bone.frameAt frame = .ok info) : frameOf bones frame bone.transform = info := by
  have hfind : bones.find? (fun other => other.transform = bone.transform) = some bone := by
    cases hfound : bones.find? fun other => other.transform = bone.transform with
    | none =>
      have hnone := List.find?_eq_none.mp hfound bone hbone
      simp at hnone
    | some other =>
      have hsame : other.transform = bone.transform := by simpa using List.find?_some hfound
      rw [hsingle (List.mem_of_find?_eq_some hfound) hbone hsame]
  unfold frameOf
  rw [hfind, Option.bind_some, hinfo]
  rfl

/-- `SetFrame` is the assignment to the bone's Transform. -/
theorem setFrame_eq_assign (hsingle : Set.InjOn (·.transform) {bone | bone ∈ bones})
    {bone : SmoothMotionBone ι K} (hbone : bone ∈ bones)
    (hnode : bone.transform ∈ sk.tree.preorder) {info : FrameInfo K}
    (hinfo : bone.frameAt frame = .ok info) (pose : Pose ι K) :
    bone.setFrame sk frame pose =
      .ok (Hierarchy.assign sk.tree.ancestors (solveFrame sk bones frame) pose bone.transform) := by
  rw [SmoothMotionBone.setFrame_eq hinfo hnode, Hierarchy.assign, solveFrame,
    frameOf_eq hsingle hbone hinfo]
  rfl

/-- The loop over the bones is an assignment to their Transforms, one after the
    other. -/
theorem setFrames_eq_foldl {all : List (SmoothMotionBone ι K)}
    (hsingle : Set.InjOn (·.transform) {bone | bone ∈ all})
    (hnodes : ∀ bone ∈ all, bone.transform ∈ sk.tree.preorder)
    (hframes : ∀ bone ∈ all, ∃ info, bone.frameAt frame = .ok info)
    (hbones : ∀ bone ∈ bones, bone ∈ all) (s : Scene ι K) :
    (setFrames sk frame bones).exec s = (.ok (), { s with
      pose := (bones.map (·.transform)).foldl
        (Hierarchy.assign sk.tree.ancestors (solveFrame sk all frame)) s.pose }) := by
  induction bones generalizing s with
  | nil => rfl
  | cons bone bones ih =>
    have hmem : bone ∈ all := hbones bone (by simp)
    obtain ⟨info, hinfo⟩ := hframes bone hmem
    have hset := setFrame_eq_assign hsingle hmem (hnodes bone hmem) hinfo s.pose
    have hrest := ih (fun other hother => hbones other (by simp [hother])) { s with
      pose := Hierarchy.assign sk.tree.ancestors (solveFrame sk all frame) s.pose bone.transform }
    unfold setFrames
    rw [Script.exec_bind_ok (Script.exec_get s)]
    simpa [Script.exec_bind, hset] using hrest

/-- A Transform that fits has the data `SetFrame` would give it. -/
theorem placed_of_fitted (hsingle : Set.InjOn (·.transform) {bone | bone ∈ bones})
    {pose : Pose ι K} {bone : SmoothMotionBone ι K} (hbone : bone ∈ bones) {info : FrameInfo K}
    (hinfo : bone.frameAt frame = .ok info)
    (h : Hierarchy.Fitted sk.tree.ancestors (solveFrame sk bones frame) pose bone.transform) :
    pose bone.transform =
      Skeleton.placed (sk.chain pose bone.transform) info.position info.rotation info.scale := by
  unfold Hierarchy.Fitted solveFrame at h
  rw [frameOf_eq hsingle hbone hinfo] at h
  exact h

/-- After the loop every bone of a tagged tree has the world position and the
    world rotation of its own interpolated frame, whatever the pose was before.
    The Transforms above `SkeletonRoot`, and the interpolated scales of the bones
    that have others below them, have to be invertible. -/
theorem setFrames_places
    (htransforms : bones.map (·.transform) = (SmoothMotionController.tagBonesDeep sk.tree
      ([] : List (SmoothMotionBone ι K))).map (·.transform))
    (hstored : ∀ bone ∈ bones, bone.stored ≠ []) (hframe : 0 ≤ frame)
    (houter : ∀ t ∈ sk.outer, t.Invertible)
    (hscale : ∀ bone ∈ bones, (∃ i, bone.transform ∈ sk.tree.ancestors i) →
      ∀ info, bone.frameAt frame = .ok info → info.scale.Invertible) (s : Scene ι K) :
    ∃ pose, (setFrames sk frame bones).exec s = (.ok (), { s with pose }) ∧
      ∀ bone ∈ bones, ∃ info, bone.frameAt frame = .ok info ∧
        sk.position pose bone.transform = info.position ∧
        sk.rotation pose bone.transform = info.rotation := by
  have hpreorder : bones.map (·.transform) = sk.tree.preorder := by
    rw [htransforms, SmoothMotionController.tagBonesDeep_eq, List.map_map]
    exact List.map_id _
  have hsingle : Set.InjOn (·.transform) {bone | bone ∈ bones} :=
    List.inj_on_of_nodup_map (hpreorder ▸ sk.distinct)
  have hnodes : ∀ bone ∈ bones, bone.transform ∈ sk.tree.preorder :=
    fun bone hbone => hpreorder ▸ List.mem_map_of_mem hbone
  have hframes : ∀ bone ∈ bones, ∃ info, bone.frameAt frame = .ok info :=
    fun bone hbone => SmoothMotionBone.frameAt_ok (hstored bone hbone) hframe
  have hfitted : ∀ i ∈ sk.tree.preorder, Hierarchy.Fitted sk.tree.ancestors
      (solveFrame sk bones frame) _ i :=
    Hierarchy.foldl_assign_fitted sk.ancestorsFirst.listed s.pose
  have hrun := setFrames_eq_foldl hsingle hnodes hframes (fun _ h => h) s
  rw [hpreorder] at hrun
  refine ⟨_, hrun, fun bone hbone => ?_⟩
  have hplaced : ∀ other ∈ bones, ∀ info, other.frameAt frame = .ok info → _ :=
    fun other hother info hinfo => placed_of_fitted hsingle hother hinfo
      (hfitted _ (hnodes other hother))
  obtain ⟨info, hinfo⟩ := hframes bone hbone
  have hhere := hplaced bone hbone info hinfo
  refine ⟨info, hinfo, Skeleton.position_of_placed hhere
    (Skeleton.chain_invertible houter fun a ha => ?_), Skeleton.rotation_of_placed hhere⟩
  have hmem : a ∈ bones.map (·.transform) :=
    hpreorder ▸ Skeleton.mem_of_mem_ancestors (hnodes bone hbone) ha
  obtain ⟨above, habove, rfl⟩ := List.mem_map.mp hmem
  obtain ⟨info', hinfo'⟩ := hframes above habove
  rw [hplaced above habove info' hinfo']
  exact hscale above habove ⟨bone.transform, ha⟩ info' hinfo'

end SetFrames

/-- Half a frame into the resting clip, from a pose with everything at the origin. -/
theorem setFrames_places_twoBones :
    ∃ pose, (setFrames twoBones (1 / 2) restingController.bones).exec
        (Scene.initial restingController fun _ => ⟨⟨0, 0, 0⟩, 1, ⟨1, 1, 1⟩⟩) =
        (.ok (), { Scene.initial restingController fun _ => ⟨⟨0, 0, 0⟩, 1, ⟨1, 1, 1⟩⟩ with pose }) ∧
      ∀ bone ∈ restingController.bones, ∃ info, bone.frameAt (1 / 2) = .ok info ∧
        twoBones.position pose bone.transform = info.position ∧
        twoBones.rotation pose bone.transform = info.rotation := by
  refine setFrames_places restingController_tagged.transforms ?_ (by norm_num) ?_ ?_ _
  · intro bone hbone hempty
    have hstored := restingController_tagged.stored bone hbone
    rw [hempty] at hstored
    cases hstored
  · simp [twoBones]
  · intro bone hbone _ info hinfo
    have hscales : ∀ bone ∈ restingController.bones,
        (bone.frameAt (1 / 2)).map (·.scale) = .ok ⟨1, 1, 1⟩ := by decide +kernel
    have hscale := hscales bone hbone
    rw [hinfo] at hscale
    simp only [Except.map, Except.ok.injEq] at hscale
    rw [hscale]
    exact ⟨one_ne_zero, one_ne_zero, one_ne_zero⟩

end Animator
