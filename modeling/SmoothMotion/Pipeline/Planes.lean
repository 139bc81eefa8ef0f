-- SUMMARY: What the planes of a scene keep: between frames that are in front of them no bone gets behind one, in any run.
import Mathlib.Data.List.GetD
import SmoothMotion.Pipeline.Input
import SmoothMotion.Unity.Faults
import SmoothMotion.Unity.Phase
import SmoothMotion.Unity.Playback

open CSharp Decimal

/-!
# Bones in front of planes

A plane is avoided if every position that is ever shown is in front of it. The
solver sees the stored frames only; but the animator moves straight from one to
the next, and the front of a plane is convex. So the frames, as they are recorded
or loaded, decide for all positions in between.
-/

namespace Collider

variable {K : Type} [Scalar K]

/-- In front of a plane, and on it, is a convex set. -/
theorem convex_not_penetrates (c : Collider K) : Cycle.Convex fun v => ¬ c.Penetrates v := by
  intro a b t h₀ h₁ ha hb
  simp only [Penetrates, not_lt] at ha hb ⊢
  have hsplit : (c.planePosition - (a + Vector3d.smul t (b - a))).dot c.planeNormal =
      (1 - t) * (c.planePosition - a).dot c.planeNormal +
        t * (c.planePosition - b).dot c.planeNormal := by
    simp only [Vector3d.dot, Vector3d.smul, Vector3d.sub_x, Vector3d.sub_y, Vector3d.sub_z,
      Vector3d.add_x, Vector3d.add_y, Vector3d.add_z]
    ring
  rw [hsplit]
  exact add_nonpos (mul_nonpos_of_nonneg_of_nonpos (sub_nonneg.mpr h₁) ha)
    (mul_nonpos_of_nonneg_of_nonpos h₀ hb)

end Collider

namespace SmoothMotionController

variable {ι K : Type} [Scalar K]

/-- A scale that mirrors and flattens nothing. -/
def Positive (v : Vector3d K) : Prop := 0 < v.x ∧ 0 < v.y ∧ 0 < v.z

theorem convex_positive : Cycle.Convex (Positive : Vector3d K → Prop) :=
  fun _ _ _ h₀ h₁ ha hb => ⟨Cycle.lt_add_smul h₀ h₁ ha.1 hb.1, Cycle.lt_add_smul h₀ h₁ ha.2.1 hb.2.1,
    Cycle.lt_add_smul h₀ h₁ ha.2.2 hb.2.2⟩

theorem Positive.invertible {v : Vector3d K} (h : Positive v) : v.Invertible :=
  ⟨h.1.ne', h.2.1.ne', h.2.2.ne'⟩

/-- All stored positions are in this set. -/
def StoresIn (P : Vector3d K → Prop) (c : SmoothMotionController ι K) : Prop :=
  ∀ bone ∈ c.bones, ∀ info ∈ bone.stored, P info.position

/-- No stored scale mirrors or flattens anything. -/
def PositiveScales (c : SmoothMotionController ι K) : Prop :=
  ∀ bone ∈ c.bones, ∀ info ∈ bone.stored, Positive info.scale

variable {P : Vector3d K → Prop} {c : SmoothMotionController ι K}

/-- What is stored after loading: the frame that was, moved to its vector. -/
theorem mem_stored_loaded (hstored : ∀ bone ∈ c.bones, bone.stored.length = c.numFrames)
    {vectors : List (Vector3d K)} (hcount : c.bones.length * c.numFrames ≤ vectors.length)
    {bone' : SmoothMotionBone ι K} (hbone' : bone' ∈ (Animator.loaded c vectors).bones)
    {info' : FrameInfo K} (hinfo' : info' ∈ bone'.stored) :
    info'.position ∈ vectors ∧ ∃ bone ∈ c.bones, ∃ info ∈ bone.stored, info'.scale = info.scale := by
  obtain ⟨b, hb⟩ := List.mem_iff_getElem?.mp hbone'
  rw [Animator.getElem?_loaded_bones] at hb
  obtain ⟨bone, hbone, rfl⟩ := Option.map_eq_some_iff.mp hb
  obtain ⟨f, hf⟩ := List.mem_iff_getElem?.mp hinfo'
  rw [SmoothMotionBone.overridden_stored, List.getElem?_mapIdx] at hf
  obtain ⟨info, hinfo, rfl⟩ := Option.map_eq_some_iff.mp hf
  obtain ⟨hb, hf⟩ := cell_lt hstored hbone hinfo
  have hlt : b * c.numFrames + f < vectors.length := (Grid.index_lt hb hf).trans_le hcount
  rw [if_pos hf]
  refine ⟨?_, bone, List.mem_of_getElem? hbone, info, List.mem_of_getElem? hinfo, rfl⟩
  simp only [Animator.vectorFor, List.getD_eq_getElem _ _ hlt]
  exact List.getElem_mem hlt

theorem StoresIn.loaded (hstored : ∀ bone ∈ c.bones, bone.stored.length = c.numFrames)
    {vectors : List (Vector3d K)} (hcount : c.bones.length * c.numFrames ≤ vectors.length)
    (hvectors : ∀ v ∈ vectors, P v) : (Animator.loaded c vectors).StoresIn P :=
  fun _ hbone' _ hinfo' => hvectors _ (mem_stored_loaded hstored hcount hbone' hinfo').1

/-- Loading keeps the scales. -/
theorem PositiveScales.loaded (h : c.PositiveScales)
    (hstored : ∀ bone ∈ c.bones, bone.stored.length = c.numFrames) {vectors : List (Vector3d K)}
    (hcount : c.bones.length * c.numFrames ≤ vectors.length) :
    (Animator.loaded c vectors).PositiveScales := by
  intro bone' hbone' info' hinfo'
  obtain ⟨-, bone, hbone, info, hinfo, hscale⟩ := mem_stored_loaded hstored hcount hbone' hinfo'
  exact hscale ▸ h bone hbone info hinfo

/-- What is convex and holds of a part of every stored frame, holds in between. -/
theorem interpolate_stored (hP : Cycle.Convex P) {bone : SmoothMotionBone ι K}
    (hstored : bone.stored ≠ []) {part : FrameInfo K → Vector3d K}
    (h : ∀ info ∈ bone.stored, P (part info)) (x : K) :
    P (Cycle.interpolate (bone.stored.map part) x) := by
  refine hP.interpolate (by simpa using hstored) ?_ x
  rintro v hv
  obtain ⟨info, hinfo, rfl⟩ := List.mem_map.mp hv
  exact h info hinfo

section Shown

variable {bone : SmoothMotionBone ι K} (hbone : bone ∈ c.bones) (hstored : bone.stored ≠ []) {x : K}
  (hx : 0 ≤ x) {info : FrameInfo K} (hinfo : bone.frameAt x = .ok info)
include hbone hstored hx hinfo

/-- The frame that is shown is in the set if the stored ones are. -/
theorem StoresIn.frameAt (h : c.StoresIn P) (hP : Cycle.Convex P) : P info.position := by
  obtain ⟨info', hinfo', hposition, -⟩ := SmoothMotionBone.frameAt_interpolate hstored hx
  obtain rfl : info' = info := Except.ok.inj (hinfo'.symm.trans hinfo)
  exact hposition ▸ interpolate_stored hP hstored (h bone hbone) x

theorem PositiveScales.frameAt (h : c.PositiveScales) : Positive info.scale := by
  obtain ⟨info', hinfo', -, hscale⟩ := SmoothMotionBone.frameAt_interpolate hstored hx
  obtain rfl : info' = info := Except.ok.inj (hinfo'.symm.trans hinfo)
  exact hscale ▸ interpolate_stored convex_positive hstored (h bone hbone) x

end Shown

end SmoothMotionController

namespace Animator

variable {ι K : Type} [DecidableEq ι] [Scalar K] {sk : Skeleton ι K}

/-- Posing the bones of a tagged tree leaves on each of them the local data that give
    it its frame below the pose of the Transforms above. -/
theorem setFrames_fits {c : SmoothMotionController ι K} (h : c.Tagged sk) {frame : K}
    (hframes : ∀ bone ∈ c.bones, ∃ info, bone.frameAt frame = .ok info) {s s' : Scene ι K}
    (hrun : (setFrames sk frame c.bones).exec s = (.ok (), s')) :
    ∀ bone ∈ c.bones, ∀ info, bone.frameAt frame = .ok info →
      s'.pose bone.transform =
        Skeleton.placed (sk.chain s'.pose bone.transform) info.position info.rotation info.scale := by
  have hpreorder : c.bones.map (·.transform) = sk.tree.preorder := h.transforms_eq
  have hsingle : Set.InjOn (·.transform) {bone | bone ∈ c.bones} :=
    List.inj_on_of_nodup_map (hpreorder ▸ sk.distinct)
  have hnodes : ∀ bone ∈ c.bones, bone.transform ∈ sk.tree.preorder :=
    fun bone hbone => hpreorder ▸ List.mem_map_of_mem hbone
  have hassigned := setFrames_eq_foldl hsingle hnodes hframes (fun _ h => h) s
  obtain ⟨-, rfl⟩ := Prod.mk.inj (hrun.symm.trans hassigned)
  intro bone hbone info hinfo
  refine placed_of_fitted hsingle hbone hinfo ?_
  rw [hpreorder]
  exact Hierarchy.foldl_assign_fitted sk.ancestorsFirst.listed s.pose _ (hnodes bone hbone)

end Animator

namespace Scene

variable {ι K : Type} [DecidableEq ι] [Scalar K] {runtime : Runtime K} {sk : Skeleton ι K}
  {constraints : List (PlaneCollisionConstraint K)} {P : Vector3d K → Prop} {s : Scene ι K}

/-- A call that does not lead out of the set: the frame stays at zero or above, and a
    solution that is loaded is in the set. -/
def StaysIn (runtime : Runtime K) (P : Vector3d K → Prop) (s : Scene ι K) : Event K → Prop
  | .exporterUpdate => True
  | .animatorUpdate file deltaTime slowMotion =>
    0 ≤ s.frame + deltaTime * s.controller.samplingFPS * slowMotion ∧
      (s.animatorInitialised = false → ∀ vectors,
        Animator.accepted runtime s.controller file = some vectors → ∀ v ∈ vectors, P v)

/-- What such calls keep. -/
structure In (sk : Skeleton ι K) (P : Vector3d K → Prop) (s : Scene ι K) : Prop where
  tagged : s.controller.Tagged sk
  initialised : s.controller.initialised = true
  stores : s.controller.StoresIn P
  scales : s.controller.PositiveScales
  frame : 0 ≤ s.frame

/-- A call of the animator leaves the frame, or adds its share. -/
theorem step_frame (runtime : Runtime K) (constraints : List (PlaneCollisionConstraint K))
    (h : s.controller.Tagged sk) (hinitialised : s.controller.initialised = true)
    (file : Option Text) (deltaTime slowMotion : K) :
    let s' := step runtime sk constraints s (.animatorUpdate file deltaTime slowMotion)
    s'.frame = s.frame ∨ s'.frame = s.frame + deltaTime * s.controller.samplingFPS * slowMotion := by
  intro s'
  have hs' : s' = ((Animator.update runtime sk file deltaTime slowMotion).exec s).2 := rfl
  rw [Animator.update_exec sk hinitialised] at hs'
  obtain ⟨result, controller, animatorInitialised, log, hload, hcontroller⟩ :=
    initialise_exec runtime h file
  have hfps : controller.samplingFPS = s.controller.samplingFPS := by
    rcases hcontroller with rfl | ⟨-, vectors, -, rfl⟩
    · rfl
    · rfl
  cases result with
  | error e =>
    rw [Script.exec_bind_error hload] at hs'
    exact .inl (by rw [hs'])
  | ok u =>
    obtain ⟨result, pose, hplay⟩ := play_exec sk deltaTime slowMotion
      { s with controller, animatorInitialised, log }
    rw [Script.exec_bind_ok hload, hplay] at hs'
    exact .inr (by rw [hs', ← hfps])

theorem In.step (h : In sk P s) {e : Event K} (he : StaysIn runtime P s e) :
    In sk P (step runtime sk constraints s e) := by
  have htagged := step_tagged runtime constraints h.tagged e
  have hinitialised := (step_counts runtime constraints h.tagged e).2.2.trans h.initialised
  cases e with
  | exporterUpdate =>
    rcases step_exporterUpdate runtime constraints h.tagged with hstep | ⟨-, hstep⟩
    · rw [hstep]
      exact h
    · rw [hstep]
      exact ⟨h.tagged, h.initialised, h.stores, h.scales, h.frame⟩
  | animatorUpdate file deltaTime slowMotion =>
    obtain ⟨hframe, hload⟩ := he
    obtain ⟨hstores, hscales⟩ :
        (Scene.step runtime sk constraints s
          (.animatorUpdate file deltaTime slowMotion)).controller.StoresIn P ∧
        (Scene.step runtime sk constraints s
          (.animatorUpdate file deltaTime slowMotion)).controller.PositiveScales := by
      obtain ⟨controller, pose, animatorInitialised, frame, log, hstep, hcontroller⟩ :=
        step_animatorUpdate runtime constraints h.tagged file deltaTime slowMotion
      rw [hstep]
      rcases hcontroller with rfl | ⟨hfirst, vectors, haccepted, rfl⟩
      · exact ⟨h.stores, h.scales⟩
      · cases file with
        | none => cases haccepted
        | some content =>
          have hcount := Animator.accepted_length haccepted
          exact ⟨.loaded h.tagged.stored hcount (hload hfirst vectors haccepted),
            h.scales.loaded h.tagged.stored hcount⟩
    refine ⟨htagged, hinitialised, hstores, hscales, ?_⟩
    · rcases step_frame runtime constraints h.tagged h.initialised file deltaTime slowMotion with
        hsame | hadded
      · exact hsame ▸ h.frame
      · exact hadded ▸ hframe

/-- A completed call of the animator poses every bone in the set. -/
theorem In.poses (h : In sk P s) (hP : Cycle.Convex P) (houter : ∀ t ∈ sk.outer, t.Invertible)
    {file : Option Text} {deltaTime slowMotion : K}
    (he : StaysIn runtime P s (.animatorUpdate file deltaTime slowMotion))
    (hok : result runtime sk constraints s (.animatorUpdate file deltaTime slowMotion) = .ok ()) :
    let s' := Scene.step runtime sk constraints s (.animatorUpdate file deltaTime slowMotion)
    ∀ bone ∈ s'.controller.bones, P (sk.position s'.pose bone.transform) := by
  have hin : In sk P (Scene.step runtime sk constraints s (.animatorUpdate file deltaTime slowMotion)) :=
    h.step he
  obtain ⟨s₁, pose, log, hs₁, hframes, hstep⟩ := step_of_completed h.tagged h.initialised hok
  rw [hstep] at hin ⊢
  have hnonneg : 0 ≤ s₁.frame := hin.frame
  have hstores : s₁.controller.StoresIn P := hin.stores
  have hscales : s₁.controller.PositiveScales := hin.scales
  have htagged : s₁.controller.Tagged sk := hin.tagged
  have hne : ∀ bone ∈ s₁.controller.bones, bone.stored ≠ [] := by
    intro bone hbone hempty
    obtain ⟨first, bones, hbones⟩ :=
      List.exists_cons_of_ne_nil (List.ne_nil_of_length_pos htagged.bones_length_pos)
    -- all bones have as many frames, so the first one has none to show
    have hnone : first.stored = [] := by
      rw [← List.length_eq_zero_iff, htagged.stored first (hbones ▸ List.mem_cons_self),
        ← htagged.stored bone hbone, hempty, List.length_nil]
    have hfirst : ¬ ∃ info, first.frameAt s₁.frame = .ok info := by
      rw [SmoothMotionBone.frameAt_ok_iff]
      exact fun hframe => hframe.1 hnone
    obtain ⟨e, s', hfault, -⟩ := Animator.setFrames_fault sk bones hfirst s₁
    rw [← hbones, hframes] at hfault
    cases hfault
  have hframe : ∀ bone ∈ s₁.controller.bones, ∃ info, bone.frameAt s₁.frame = .ok info :=
    fun bone hbone => SmoothMotionBone.frameAt_ok (hne bone hbone) hnonneg
  have hfits := Animator.setFrames_fits htagged hframe hframes
  have hpreorder : s₁.controller.bones.map (·.transform) = sk.tree.preorder := htagged.transforms_eq
  intro s' bone hbone
  obtain ⟨info, hinfo⟩ := hframe bone hbone
  have habove : ∀ i ∈ sk.tree.ancestors bone.transform, (pose i).Invertible := by
    intro i hi
    have hmem : i ∈ s₁.controller.bones.map (·.transform) :=
      hpreorder ▸ Skeleton.mem_of_mem_ancestors (hpreorder ▸ List.mem_map_of_mem hbone) hi
    obtain ⟨above, habove, rfl⟩ := List.mem_map.mp hmem
    obtain ⟨info', hinfo'⟩ := hframe above habove
    have hplaced : pose above.transform = Skeleton.placed (sk.chain pose above.transform)
        info'.position info'.rotation info'.scale := hfits above habove info' hinfo'
    rw [hplaced]
    exact (hscales.frameAt habove (hne above habove) hnonneg hinfo').invertible
  have hposition := Skeleton.position_of_placed (hfits bone hbone info hinfo)
    (Skeleton.chain_invertible houter habove)
  exact hposition ▸ hstores.frameAt hbone (hne bone hbone) hnonneg hinfo hP

/-! ## The planes of the scene -/

/-- Behind none of the planes. -/
def InFront (constraints : List (PlaneCollisionConstraint K)) (v : Vector3d K) : Prop :=
  ∀ k ∈ constraints, ¬ (Exporter.toCollider k).Penetrates v

theorem convex_inFront (constraints : List (PlaneCollisionConstraint K)) :
    Cycle.Convex (InFront constraints) :=
  Cycle.Convex.forall fun k _ => (Exporter.toCollider k).convex_not_penetrates

/-- In every run in which the frame stays at zero or above, if all recorded frames are
    in front of the planes and a solution is only loaded if it is: whenever the
    animator has posed the bones, not one of them is behind a plane, on stored
    frames and in between, for every speed and however the time is split. The
    recorded scales are positive, and the Transforms above the skeleton invertible:
    otherwise a bone cannot be put where its frame says. -/
theorem playback_inFront {clip : AnimationClip ι K} {samplingFPS : Int} {pose pose' : Pose ι K}
    {fuel : Nat} {c : SmoothMotionController ι K}
    (hstart : SmoothMotionController.start sk clip samplingFPS pose fuel = some (c, pose'))
    (houter : ∀ t ∈ sk.outer, t.Invertible) (hscales : c.PositiveScales)
    (hrecorded : c.StoresIn (InFront constraints))
    (hreach : Reachable runtime sk constraints (StaysIn runtime (InFront constraints))
      (initial c pose') s)
    {file : Option Text} {deltaTime slowMotion : K}
    (he : StaysIn runtime (InFront constraints) s (.animatorUpdate file deltaTime slowMotion))
    (hok : result runtime sk constraints s (.animatorUpdate file deltaTime slowMotion) = .ok ()) :
    let s' := step runtime sk constraints s (.animatorUpdate file deltaTime slowMotion)
    ∀ bone ∈ s'.controller.bones, ∀ k ∈ constraints,
      (k.planePosition - sk.position s'.pose bone.transform).dot k.worldNormal ≤ 0 := by
  have hinitial : In sk (InFront constraints) (initial c pose') :=
    ⟨SmoothMotionController.start_tagged hstart,
      (SmoothMotionController.start_initialised hstart).1, hrecorded, hscales, le_rfl⟩
  have hin : In sk (InFront constraints) s := hreach.invariant hinitial fun _ _ h he => h.step he
  intro s' bone hbone k hk
  exact not_lt.mp (hin.poses (convex_inFront constraints) houter he hok bone hbone k hk)

section TwoBones

/-- The plane `y = 0`. -/
theorem inFront_ground {v : Vector3d ℚ} (hv : 0 ≤ v.y) : InFront [⟨⟨0, 0, 0⟩, 1, ⟨0, 1, 0⟩⟩] v := by
  intro k hk
  obtain rfl : k = ⟨⟨0, 0, 0⟩, 1, ⟨0, 1, 0⟩⟩ := List.mem_singleton.mp hk
  simpa [Collider.Penetrates, Exporter.toCollider, PlaneCollisionConstraint.worldNormal,
    Vector3d.dot] using hv

theorem restingController_ground : ∀ bone ∈ restingController.bones, ∀ info ∈ bone.stored,
    info.position.y = 0 := by
  simp [restingController, SmoothMotionBone.stored]

theorem restingController_storesIn :
    restingController.StoresIn (InFront [⟨⟨0, 0, 0⟩, 1, ⟨0, 1, 0⟩⟩]) :=
  fun bone hbone info hinfo => inFront_ground (restingController_ground bone hbone info hinfo).ge

theorem restingController_scales : restingController.PositiveScales := by
  simp [SmoothMotionController.PositiveScales, SmoothMotionController.Positive, restingController,
    SmoothMotionBone.stored]

end TwoBones

/-- Two bones on the plane `y = 0`, moved up by a solution. -/
theorem playback_inFront_twoBones :
    let constraints : List (PlaneCollisionConstraint ℚ) := [⟨⟨0, 0, 0⟩, 1, ⟨0, 1, 0⟩⟩]
    let s' := step Runtime.whole twoBones constraints (initial restingController restingPose)
      (.animatorUpdate (some "1 7 8 9 4 5 6".toList) (1 / 2) 3)
    ∀ bone ∈ s'.controller.bones, ∀ k ∈ constraints,
      (k.planePosition - twoBones.position s'.pose bone.transform).dot k.worldNormal ≤ 0 := by
  intro constraints
  have haccepted : Animator.accepted Runtime.whole restingController
      (some "1 7 8 9 4 5 6".toList) = some [⟨7, 8, 9⟩, ⟨4, 5, 6⟩] := by decide +kernel
  have hstays : StaysIn Runtime.whole (InFront constraints) (initial restingController restingPose)
      (.animatorUpdate (some "1 7 8 9 4 5 6".toList) (1 / 2) 3) := by
    have hframe : (0 : ℚ) ≤ 0 + 1 / 2 * (1 : Int) * 3 := by norm_num
    refine ⟨hframe, fun _ vectors hvectors v hv => inFront_ground ?_⟩
    obtain rfl := Option.some.inj (haccepted.symm.trans hvectors)
    simp only [List.mem_cons, List.not_mem_nil, or_false] at hv
    rcases hv with rfl | rfl
    · norm_num
    · norm_num
  have hok : result Runtime.whole twoBones constraints (initial restingController restingPose)
      (.animatorUpdate (some "1 7 8 9 4 5 6".toList) (1 / 2) 3) = .ok () := by decide +kernel
  have hrecorded : restingController.StoresIn (InFront constraints) := restingController_storesIn
  exact playback_inFront (restingController_start restingPose) (by simp [twoBones])
    restingController_scales hrecorded .refl hstays hok

end Scene
