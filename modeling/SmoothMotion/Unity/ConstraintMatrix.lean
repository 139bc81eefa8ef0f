-- SUMMARY: ConstraintMatrix: the distances between all bones at every frame, measured while the bones are being posed.
import SmoothMotion.Lib.Array3
import SmoothMotion.Unity.Interpolation
import SmoothMotion.Unity.Playback

open CSharp

/-!
# The separation matrix

An entry is measured right after its two bones were posed, and posing the second
one moves the first if that is below it. What saves the entry is the order of the
loops: the first row of a frame poses the bones one by one, ancestors first, and
from then on posing any of them at this frame changes nothing.
-/

structure ConstraintMatrix (K : Type) (count frames : Nat) where
  seperations : Array3 K count count frames

namespace ConstraintMatrix

variable {ι K : Type} [DecidableEq ι] [Scalar K]

/-- The body of the loops: both bones are posed, one after the other, and then
    measured. -/
def seperation (sk : Skeleton ι K) (boneX boneY : SmoothMotionBone ι K) (frame : K) :
    Script Exn (Pose ι K) K := do
  set (← liftExcept (boneX.setFrame sk frame (← get)))
  set (← liftExcept (boneY.setFrame sk frame (← get)))
  let pose ← get
  return (sk.position pose boneX.transform - sk.position pose boneY.transform).norm

/-- The constructor. There are no arrays of a negative size. -/
def new (sk : Skeleton ι K) (bones : List (SmoothMotionBone ι K)) (frames : Int) :
    Script Exn (Pose ι K) (ConstraintMatrix K bones.length frames.toNat) := do
  if frames < 0 then throw .overflow
  else
    let seperations ← forFin frames.toNat (fun frame => forFin bones.length fun x =>
      forFin bones.length fun y seperations => do
        return seperations.set x y frame (← seperation sk bones[x] bones[y] (frame : Nat)))
      (Array3.replicate 0)
    return ⟨seperations⟩

/-! ## Lists of bones -/

/-- Bones of one skeleton, no two on one Transform, ancestors before descendants,
    each with a stored frame. -/
structure BoneList (sk : Skeleton ι K) (bones : List (SmoothMotionBone ι K)) : Prop where
  nodes : ∀ bone ∈ bones, bone.transform ∈ sk.tree.preorder
  single : Set.InjOn (·.transform) {bone | bone ∈ bones}
  ancestorsFirst : Hierarchy.ListedFirst sk.tree.ancestors (bones.map (·.transform))
  stored : ∀ bone ∈ bones, bone.stored ≠ []

/-- The bones that `Start` tags are such a list if the clip has a frame. -/
theorem BoneList.of_tagged {sk : Skeleton ι K}
    {c : SmoothMotionController ι K} (h : c.Tagged sk) (hframes : 0 < c.numFrames) :
    BoneList sk c.bones where
  nodes bone hbone := h.transforms_eq ▸ List.mem_map_of_mem hbone
  single := List.inj_on_of_nodup_map (h.transforms_eq ▸ sk.distinct)
  ancestorsFirst := h.transforms_eq ▸ sk.ancestorsFirst.listed
  stored bone hbone hempty := by
    have hstored := h.stored bone hbone
    rw [hempty, List.length_nil] at hstored
    omega

/-- What stands above the bones can be undone: the Transforms above the root, those
    that are no bones of the list in the pose before, and the bones at the frames
    they are posed at. -/
structure InvertibleAbove (sk : Skeleton ι K) (bones : List (SmoothMotionBone ι K)) (frames : Int)
    (pose : Pose ι K) : Prop where
  outer : ∀ t ∈ sk.outer, t.Invertible
  others : ∀ bone ∈ bones, ∀ i ∈ sk.tree.ancestors bone.transform,
    i ∉ bones.map (·.transform) → (pose i).Invertible
  bones : ∀ bone ∈ bones, ∀ above ∈ bones, above.transform ∈ sk.tree.ancestors bone.transform →
    ∀ frame : Nat, frame < frames → ∀ info,
      above.stored[frame % above.stored.length]? = some info → info.scale.Invertible

/-- Bones that `Start` tagged are all there is above them; the pose before does not
    matter. -/
theorem InvertibleAbove.of_tagged {sk : Skeleton ι K} {c : SmoothMotionController ι K}
    (h : c.Tagged sk) (houter : ∀ t ∈ sk.outer, t.Invertible)
    (hscales : ∀ bone ∈ c.bones, ∀ info ∈ bone.stored, info.scale.Invertible) (frames : Int)
    (pose : Pose ι K) : InvertibleAbove sk c.bones frames pose where
  outer := houter
  others bone hbone i hi hlisted := by
    have hnode : bone.transform ∈ sk.tree.preorder := h.transforms_eq ▸ List.mem_map_of_mem hbone
    rw [h.transforms_eq] at hlisted
    exact absurd (Skeleton.mem_of_mem_ancestors hnode hi) hlisted
  bones _ _ above habove _ _ _ info hinfo := hscales above habove info (List.mem_of_getElem? hinfo)

/-! ## Posing the bones of a list -/

section Fitted

variable {sk : Skeleton ι K} {bones : List (SmoothMotionBone ι K)}

/-- The first `k` bones of the list stand as `SetFrame(frame)` would place them. -/
def FittedTo (sk : Skeleton ι K) (bones : List (SmoothMotionBone ι K)) (frame k : Nat)
    (pose : Pose ι K) : Prop :=
  Hierarchy.FittedUpTo sk.tree.ancestors (Animator.solveFrame sk bones (frame : K))
    (bones.map (·.transform)) k pose

/-- Posing a bone that fits, or the next one. -/
theorem FittedTo.setFrame (hbones : BoneList sk bones) {frame j k : Nat} (hj : j < bones.length)
    (hjk : j ≤ k) {pose : Pose ι K} (h : FittedTo sk bones frame k pose) :
    ∃ pose', bones[j].setFrame sk (frame : K) pose = .ok pose' ∧
      FittedTo sk bones frame (max k (j + 1)) pose' ∧
      ∀ i ∉ bones.map (·.transform), pose' i = pose i := by
  have hmem : bones[j] ∈ bones := List.getElem_mem hj
  obtain ⟨info, -, hinfo⟩ := SmoothMotionBone.frameAt_natCast (hbones.stored _ hmem) frame
  have hset := Animator.setFrame_eq_assign hbones.single hmem (hbones.nodes _ hmem) hinfo pose
  have hj' : j < (bones.map (·.transform)).length := by rwa [List.length_map]
  have hassign := Hierarchy.FittedUpTo.assign hbones.ancestorsFirst hj' hjk h
  rw [List.getElem_map] at hassign
  refine ⟨_, hset, hassign, fun i hi => Hierarchy.assign_of_ne fun heq => hi ?_⟩
  rw [heq]
  exact List.mem_map_of_mem hmem

/-- Each of these bones has the local data of its stored frame. -/
theorem FittedTo.placed (hbones : BoneList sk bones) {frame j k : Nat} {pose : Pose ι K}
    (h : FittedTo sk bones frame k pose) (hj : j < bones.length) (hjk : j < k) :
    ∃ info, bones[j].stored[frame % bones[j].stored.length]? = some info ∧
      pose bones[j].transform =
        Skeleton.placed (sk.chain pose bones[j].transform) info.position info.rotation
          info.scale := by
  have hmem : bones[j] ∈ bones := List.getElem_mem hj
  have hfirst : bones[j].transform ∈ (bones.map (·.transform)).take k :=
    List.mem_take_iff_getElem.mpr ⟨j, by simpa using ⟨hjk, hj⟩, by simp⟩
  obtain ⟨info, hstored, hinfo⟩ := SmoothMotionBone.frameAt_natCast (hbones.stored _ hmem) frame
  exact ⟨info, hstored, Animator.placed_of_fitted hbones.single hmem hinfo (h _ hfirst)⟩

/-- Each of these bones stands at its stored position: of what is above it, the bones
    of the list were posed before it, and the rest is as it was. -/
theorem FittedTo.position_eq (hbones : BoneList sk bones) {frames : Int} {initial pose : Pose ι K}
    (habove : InvertibleAbove sk bones frames initial) {frame j k : Nat} (hframe : frame < frames)
    (hj : j < bones.length) (hjk : j < k) (h : FittedTo sk bones frame k pose)
    (hothers : ∀ i ∉ bones.map (·.transform), pose i = initial i) :
    ∃ info, bones[j].stored[frame % bones[j].stored.length]? = some info ∧
      sk.position pose bones[j].transform = info.position := by
  obtain ⟨info, hstored, hplaced⟩ := h.placed hbones hj hjk
  refine ⟨info, hstored, Skeleton.position_of_placed hplaced
    (Skeleton.chain_invertible habove.outer fun a ha => ?_)⟩
  by_cases hlisted : a ∈ bones.map (·.transform)
  · have hj' : j < (bones.map (·.transform)).length := by rwa [List.length_map]
    have hbefore := hbones.ancestorsFirst.mem_take hj' (by rwa [List.getElem_map]) hlisted
    obtain ⟨l, hl, rfl⟩ := List.mem_take_iff_getElem.mp hbefore
    have hlj : l < j := by omega
    obtain ⟨info', hstored', hplaced'⟩ := h.placed hbones (by omega) (hlj.trans hjk)
    rw [List.getElem_map] at ha ⊢
    rw [hplaced']
    exact habove.bones _ (List.getElem_mem hj) _ (List.getElem_mem _) ha frame hframe info' hstored'
  · rw [hothers a hlisted]
    exact habove.others _ (List.getElem_mem hj) a ha hlisted

end Fitted

/-! ## What is measured -/

/-- The distance between the stored positions of two bones at a frame, which goes
    around the stored frames of each. -/
def Distance (boneX boneY : SmoothMotionBone ι K) (frame : Nat) (value : K) : Prop :=
  ∃ infoX infoY, boneX.stored[frame % boneX.stored.length]? = some infoX ∧
    boneY.stored[frame % boneY.stored.length]? = some infoY ∧
    value = (infoX.position - infoY.position).norm

omit [DecidableEq ι] in
theorem Distance.symm_eq {boneX boneY : SmoothMotionBone ι K} {frame : Nat} {value value' : K}
    (h : Distance boneX boneY frame value) (h' : Distance boneY boneX frame value') :
    value = value' := by
  obtain ⟨infoX, infoY, hX, hY, rfl⟩ := h
  obtain ⟨infoY', infoX', hY', hX', rfl⟩ := h'
  rw [hX, Option.some.injEq] at hX'
  rw [hY, Option.some.injEq] at hY'
  rw [hX', hY', Vector3d.norm_sub_comm]

omit [DecidableEq ι] in
theorem Distance.self_eq {bone : SmoothMotionBone ι K} {frame : Nat} {value : K}
    (h : Distance bone bone frame value) : value = 0 := by
  obtain ⟨info, info', hinfo, hinfo', rfl⟩ := h
  rw [hinfo, Option.some.injEq] at hinfo'
  rw [hinfo', Vector3d.norm_sub_self]

theorem seperation_exec {sk : Skeleton ι K} {boneX boneY : SmoothMotionBone ι K} {frame : K}
    {pose pose₁ pose₂ : Pose ι K} (hX : boneX.setFrame sk frame pose = .ok pose₁)
    (hY : boneY.setFrame sk frame pose₁ = .ok pose₂) :
    (seperation sk boneX boneY frame).exec pose =
      (.ok (sk.position pose₂ boneX.transform - sk.position pose₂ boneY.transform).norm, pose₂) := by
  simp only [seperation, Script.exec_bind, Script.exec_get, Script.exec_ofExcept, Script.exec_set,
    Script.exec_pure, hX, hY]

section Seperations

variable {sk : Skeleton ι K} {bones : List (SmoothMotionBone ι K)} {frames : Int}
  {initial : Pose ι K}

/-- Where the loops come to bones `x` and `y` at `frame`: in the first row the bones
    before `y` fit, in the later ones all of them. -/
structure Reached (sk : Skeleton ι K) (bones : List (SmoothMotionBone ι K)) (initial : Pose ι K)
    (frame x y : Nat) (pose : Pose ι K) : Prop where
  fitted : FittedTo sk bones frame (if x = 0 then y else bones.length) pose
  others : ∀ i ∉ bones.map (·.transform), pose i = initial i

/-- One pass through the body. -/
theorem Reached.seperation (hbones : BoneList sk bones)
    (habove : InvertibleAbove sk bones frames initial) {frame : Nat} (hframe : frame < frames)
    (x y : Fin bones.length) {pose : Pose ι K} (h : Reached sk bones initial frame x y pose) :
    ∃ value pose', (seperation sk bones[x] bones[y] (frame : K)).exec pose = (.ok value, pose') ∧
      Reached sk bones initial frame x (y + 1) pose' ∧
      Distance bones[x] bones[y] frame value := by
  have hx : (x : Nat) ≤ if (x : Nat) = 0 then (y : Nat) else bones.length := by
    split <;> omega
  have hy : (y : Nat) ≤ if (x : Nat) = 0 then (y : Nat) else bones.length := by
    split <;> omega
  have hnext : (if (x : Nat) = 0 then (y : Nat) + 1 else bones.length) ≤
      max (if (x : Nat) = 0 then (y : Nat) else bones.length) (y + 1) := by
    split <;> omega
  obtain ⟨pose₁, hset₁, hfitted₁, hothers₁⟩ := h.fitted.setFrame hbones x.isLt hx
  obtain ⟨pose₂, hset₂, hfitted₂, hothers₂⟩ := hfitted₁.setFrame hbones y.isLt (by omega)
  have hothers : ∀ i ∉ bones.map (·.transform), pose₂ i = initial i := fun i hi => by
    rw [hothers₂ i hi, hothers₁ i hi, h.others i hi]
  obtain ⟨infoX, hX, hpositionX⟩ :=
    hfitted₂.position_eq hbones habove hframe x.isLt (by omega) hothers
  obtain ⟨infoY, hY, hpositionY⟩ :=
    hfitted₂.position_eq hbones habove hframe y.isLt (by omega) hothers
  refine ⟨_, pose₂, seperation_exec hset₁ hset₂, ⟨hfitted₂.mono (by omega), hothers⟩,
    infoX, infoY, hX, hY, ?_⟩
  simp only [Fin.getElem_fin, hpositionX, hpositionY]

/-- Every entry of the matrix is the distance between the stored positions of its
    two bones at its frame, whatever the pose was before, although the bones move
    while the matrix is filled; so it is symmetric with a zero diagonal. -/
theorem new_seperations (hbones : BoneList sk bones) (hframes : 0 ≤ frames)
    (habove : InvertibleAbove sk bones frames initial) :
    ∃ matrix pose, (new sk bones frames).exec initial = (.ok matrix, pose) ∧
      (∀ x y (frame : Fin frames.toNat), Distance bones[x] bones[y] frame
        (matrix.seperations.get x y frame)) ∧
      (∀ x y frame, matrix.seperations.get x y frame = matrix.seperations.get y x frame) ∧
      ∀ x frame, matrix.seperations.get x x frame = 0 := by
  obtain ⟨seperations, pose, hrun, hdistance⟩ := Array3.fill_script
    (fun (frame : Fin frames.toNat) x y => seperation sk bones[x] bones[y] ((frame : Nat) : K))
    (Reached sk bones initial) (fun x y frame => Distance bones[x] bones[y] frame)
    (fun frame x y pose h => h.seperation hbones habove (by omega) x y)
    (fun frame x pose h => ⟨by simpa using h.fitted, h.others⟩)
    (fun frame pose h => ⟨by simp [FittedTo, Hierarchy.FittedUpTo], h.others⟩)
    (s := initial) ⟨by simp [FittedTo, Hierarchy.FittedUpTo], fun _ _ => rfl⟩ (Array3.replicate 0)
  refine ⟨⟨seperations⟩, pose, ?_, hdistance, fun x y frame =>
    (hdistance x y frame).symm_eq (hdistance y x frame), fun x frame =>
    (hdistance x x frame).self_eq⟩
  unfold new
  rw [if_neg (not_lt.mpr hframes), Script.exec_bind_ok hrun]
  rfl

end Seperations

example : ((new twoBones restingController.bones 2).exec fun _ => ⟨⟨7, 0, 0⟩, 1, ⟨1, 1, 1⟩⟩).1.map
    (fun matrix => matrix.seperations.get ⟨1, by decide⟩ ⟨0, by decide⟩ ⟨1, by decide⟩) = .ok 5 := by
  decide +kernel

/-- The bones of the resting clip, from a pose with everything at the origin; the
    second frame is their only one again. -/
theorem new_seperations_twoBones :
    ∃ matrix pose, (new twoBones restingController.bones 2).exec
        (fun _ => ⟨⟨0, 0, 0⟩, 1, ⟨1, 1, 1⟩⟩) = (.ok matrix, pose) ∧
      (∀ x y (frame : Fin (2 : Int).toNat),
        Distance restingController.bones[x] restingController.bones[y] frame
          (matrix.seperations.get x y frame)) ∧
      (∀ x y frame, matrix.seperations.get x y frame = matrix.seperations.get y x frame) ∧
      ∀ x frame, matrix.seperations.get x x frame = 0 := by
  have hscales : ∀ bone ∈ restingController.bones, ∀ info ∈ bone.stored,
      info.scale = ⟨1, 1, 1⟩ := by decide +kernel
  refine new_seperations (BoneList.of_tagged restingController_tagged (by decide)) (by decide)
    (InvertibleAbove.of_tagged restingController_tagged (by simp [twoBones])
      (fun bone hbone info hinfo => ?_) 2 _)
  rw [hscales bone hbone info hinfo]
  exact ⟨one_ne_zero, one_ne_zero, one_ne_zero⟩

end ConstraintMatrix
