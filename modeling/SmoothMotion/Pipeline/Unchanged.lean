-- SUMMARY: Clean animations: whatever the order of the programs, the solver leaves them alone, they are shown as they were recorded, to six digits, and no bone gets behind a plane.
import SmoothMotion.Pipeline.Planes
import SmoothMotion.Pipeline.Together

open CSharp Decimal

/-!
# Clean animations

A recording that is nowhere behind a plane costs nothing, and there is nothing to
do for the solver: the array it saves is the one it was given. The recording can
still change, because the stream prints six digits; but not by more than that, and
only once, as it is exported and loaded only once. If it is still in front of the
planes then, so is everything that is ever shown of it.
-/

/-- The vector as the solver's stream prints it. -/
def Vector3d.rounded {K : Type} [Scalar K] (tieUp : Int → Bool) (v : Vector3d K) : Vector3d K :=
  ⟨OStream.rounded tieUp v.x, OStream.rounded tieUp v.y, OStream.rounded tieUp v.z⟩

namespace Together

variable {ι K : Type} [DecidableEq ι] [Scalar K] {runtime : Runtime K} {sk : Skeleton ι K}
  {constraints : List (PlaneCollisionConstraint K)} {c : SmoothMotionController ι K}

/-- No bone is stored behind a plane. -/
def Clean (constraints : List (PlaneCollisionConstraint K)) (c : SmoothMotionController ι K) : Prop :=
  c.StoresIn (Scene.InFront constraints)

omit [DecidableEq ι] in
/-- The solver has the stored positions where the animator has them. -/
theorem positionAt_positionNumbers (h : c.Tagged sk) {b f : Nat} {bone : SmoothMotionBone ι K}
    {info : FrameInfo K} (hbone : c.bones[b]? = some bone) (hinfo : bone.stored[f]? = some info) :
    positionAt (Exporter.positionNumbers c) c.numFrames b f = info.position := by
  obtain ⟨-, hf⟩ := SmoothMotionController.cell_lt h.stored hbone hinfo
  refine vectorAt_eq fun k hk => ?_
  rw [Exporter.getElem?_positionNumbers h hf hk, hbone, Option.bind_some, hinfo, Option.bind_some]

omit [DecidableEq ι] in
theorem Clean.noPenetration (hclean : Clean constraints c) (h : c.Tagged sk) :
    CleanStart.NoPenetration (constraints.map Exporter.toCollider) (Exporter.positionNumbers c)
      c.bones.length c.numFrames := by
  intro b f hb hf collider hcollider
  obtain ⟨k, hk, rfl⟩ := List.mem_map.mp hcollider
  have hbone : c.bones[b]? = some c.bones[b] := List.getElem?_eq_getElem hb
  have hmem : c.bones[b] ∈ c.bones := List.getElem_mem hb
  have hlt : f < c.bones[b].stored.length := by rw [h.stored _ hmem]; exact hf
  rw [positionAt_positionNumbers h hbone (List.getElem?_eq_getElem hlt)]
  exact hclean _ hmem _ (List.getElem_mem hlt) k hk

/-- A clean animation solves itself. -/
theorem Solution.eq_of_clean {parameters : List K} (hsolution : Solution sk constraints c parameters)
    (h : c.Tagged sk) (hclean : Clean constraints c) : parameters = Exporter.positionNumbers c := by
  obtain ⟨problem, ⟨platform, frames, bones, hframes, hbones, hbuilt⟩, machine, hsolve⟩ := hsolution
  have hplaced := maintainBoneLengthChildrenFunction_placed hbuilt
  have hpositions := Exporter.length_positionNumbers h
  suffices hsame : Ceres.solve machine .default problem (Exporter.positionNumbers c) =
      .ok (Exporter.positionNumbers c) from Except.ok.inj (hsolve.symm.trans hsame)
  by_cases hnone : constraints.map Exporter.toCollider = []
  · exact Ceres.solve_without_colliders hplaced CeresWrapper.minLmDiagonal_default
      (fun rb hrb => (maintainBoneLengthChildrenFunction_registered hbuilt rb hrb).colliders.trans
        hnone) machine
  · have hparents : ((List.range c.bones.length).map fun b =>
        Int32.ofInt (Exporter.parentNumber sk b)).length = c.bones.length := by simp
    have htiled := maintainBoneLengthChildrenFunction_eq platform
      (constraints.map Exporter.toCollider) hbones hframes hparents hpositions.ge
    obtain rfl := Except.ok.inj (hbuilt.symm.trans htiled)
    have hrest := CleanStart.allResting_children hnone (hclean.noPenetration h) hpositions platform
      hparents
    exact Ceres.solve_at_rest hplaced CeresWrapper.minLmDiagonal_default hrest machine

omit [DecidableEq ι] in
/-- An array of the stored positions shows each of them, as it is printed. -/
theorem rounded_of_showsArray (h : c.Tagged sk) {tieUp : Int → Bool}
    {c' : SmoothMotionController ι K}
    (hshows : ShowsArray tieUp (Exporter.positionNumbers c) c c') {b f : Nat}
    {bone : SmoothMotionBone ι K} {info : FrameInfo K} (hbone : c.bones[b]? = some bone)
    (hinfo : bone.stored[f]? = some info) :
    ∃ bone', c'.bones[b]? = some bone' ∧ bone'.stored.length = bone.stored.length ∧
      bone'.stored[f]? = some { info with position := info.position.rounded tieUp } := by
  obtain ⟨-, hf⟩ := SmoothMotionController.cell_lt h.stored hbone hinfo
  obtain ⟨bone', v, hbone', hlength, hinfo', hcomponents⟩ := hshows.stored b f bone info hbone hinfo
  have hcomponent : ∀ k, k < 3 → v.toList[k]? = (info.position.rounded tieUp).toList[k]? := by
    intro k hk
    rw [hcomponents k hk, Exporter.getElem?_positionNumbers h hf hk, hbone, Option.bind_some, hinfo,
      Option.bind_some]
    obtain rfl | rfl | rfl : k = 0 ∨ k = 1 ∨ k = 2 := by omega
    all_goals rfl
  have hv : v = info.position.rounded tieUp := by
    ext
    · exact Option.some.inj (hcomponent 0 (by omega))
    · exact Option.some.inj (hcomponent 1 (by omega))
    · exact Option.some.inj (hcomponent 2 (by omega))
  exact ⟨bone', hbone', hlength, hv ▸ hinfo'⟩

omit [DecidableEq ι] in
theorem rounded_of_hasDigits (tieUp : Int → Bool) {v : Vector3d K}
    (h : ∀ x ∈ v.toList, Rounding.HasDigits 10 6 x) : v.rounded tieUp = v := by
  have hx := (OStream.rounded_eq_iff tieUp v.x).mpr (h v.x (by simp [Vector3d.toList]))
  have hy := (OStream.rounded_eq_iff tieUp v.y).mpr (h v.y (by simp [Vector3d.toList]))
  have hz := (OStream.rounded_eq_iff tieUp v.z).mpr (h v.z (by simp [Vector3d.toList]))
  exact Vector3d.ext hx hy hz

/-- If no recorded position is behind a plane, then in every order of actions from the
    start: whatever solver has run, the `.SMOutput` file holds the recorded positions,
    and the animator shows them, or what six digits leave of them. Where they have no
    more digits nothing changes. -/
theorem run_clean {clip : AnimationClip ι K} {samplingFPS : Int} {pose pose' : Pose ι K}
    {fuel : Nat} (hstart : SmoothMotionController.start sk clip samplingFPS pose fuel = some (c, pose'))
    (hexportable : Exportable runtime constraints c) (hclean : Clean constraints c)
    (actions : List (Action K)) :
    let s := run runtime sk constraints (initial c pose') actions
    (∀ text, s.outputFile = some text → ∃ tieUp, ∃ frames : Int32, frames.toInt = c.numFrames ∧
      text = CeresWrapper.saveText (OStream.showDouble tieUp) (Exporter.positionNumbers c) frames) ∧
    ∀ (b f : Nat) bone info, c.bones[b]? = some bone → bone.stored[f]? = some info →
      ∃ bone' v, s.scene.controller.bones[b]? = some bone' ∧
        bone'.stored.length = bone.stored.length ∧
        bone'.stored[f]? = some { info with position := v } ∧
        (v = info.position ∨ ∃ tieUp, v = info.position.rounded tieUp) ∧
        ((∀ x ∈ info.position.toList, Rounding.HasDigits 10 6 x) → v = info.position) := by
  intro s
  have hc : c.Tagged sk := SmoothMotionController.start_tagged hstart
  have hsound : Sound runtime sk constraints c pose' s := run_sound hc hexportable
    (sound_initial hc (SmoothMotionController.start_initialised hstart).1 pose') actions
  constructor
  · intro text htext
    rcases hsound.solved with hnone | ⟨-, parameters, tieUp, frames, hsolution, hframes, hsaved⟩
    · exact absurd (hnone.symm.trans htext) (by simp)
    · obtain rfl := hsolution.eq_of_clean hc hclean
      exact ⟨tieUp, frames, hframes, Option.some.inj (htext.symm.trans hsaved)⟩
  · intro b f bone info hbone hinfo
    rcases hsound.loaded with ⟨-, hcontroller⟩ | ⟨-, -, parameters, tieUp, hsolution, hshows⟩
    · rw [hcontroller]
      exact ⟨bone, info.position, hbone, rfl, hinfo, .inl rfl, fun _ => rfl⟩
    · obtain rfl := hsolution.eq_of_clean hc hclean
      obtain ⟨bone', hbone', hlength, hinfo'⟩ := rounded_of_showsArray hc hshows hbone hinfo
      exact ⟨bone', _, hbone', hlength, hinfo', .inr ⟨tieUp, rfl⟩,
        fun hdigits => rounded_of_hasDigits tieUp hdigits⟩

/-- Two bones on the plane `y = 0`, solved twice and shown. -/
theorem run_clean_twoBones :
    let s := run Runtime.whole twoBones [⟨⟨0, 0, 0⟩, 1, ⟨0, 1, 0⟩⟩]
      (initial restingController restingPose)
      [.exporterUpdate, .solverRun walkSolver, .solverRun walkSolver, .animatorUpdate 1 1]
    ∀ (b f : Nat) bone info, restingController.bones[b]? = some bone → bone.stored[f]? = some info →
      ∃ bone' v, s.scene.controller.bones[b]? = some bone' ∧
        bone'.stored.length = bone.stored.length ∧
        bone'.stored[f]? = some { info with position := v } ∧
        (v = info.position ∨ ∃ tieUp, v = info.position.rounded tieUp) ∧
        ((∀ x ∈ info.position.toList, Rounding.HasDigits 10 6 x) → v = info.position) := by
  exact (run_clean (restingController_start restingPose) exportable_resting
    Scene.restingController_storesIn
    [.exporterUpdate, .solverRun walkSolver, .solverRun walkSolver, .animatorUpdate 1 1]).2

/-! ## In front of the planes -/

omit [DecidableEq ι] in
/-- The vectors of the printed array are the stored positions, as they are printed. -/
theorem vectorAt_rounded (h : c.Tagged sk) (tieUp : Int → Bool) {n : Nat}
    (hn : n < c.bones.length * c.numFrames) :
    ∃ bone ∈ c.bones, ∃ info ∈ bone.stored,
      vectorAt ((Exporter.positionNumbers c).map (OStream.rounded tieUp)) n =
        info.position.rounded tieUp := by
  have hF : 0 < c.numFrames := Nat.pos_of_mul_pos_left (by omega : 0 < c.bones.length * c.numFrames)
  have hb : n / c.numFrames < c.bones.length := Nat.div_lt_of_lt_mul (by rwa [Nat.mul_comm])
  have hf : n % c.numFrames < c.numFrames := Nat.mod_lt n hF
  have hbone : c.bones[n / c.numFrames]? = some c.bones[n / c.numFrames] :=
    List.getElem?_eq_getElem hb
  have hmem : c.bones[n / c.numFrames] ∈ c.bones := List.getElem_mem hb
  have hlt : n % c.numFrames < c.bones[n / c.numFrames].stored.length := by
    rw [h.stored _ hmem]; exact hf
  refine ⟨_, hmem, _, List.getElem_mem hlt, vectorAt_eq fun k hk => ?_⟩
  have hcomponent := Exporter.getElem?_positionNumbers h (b := n / c.numFrames) hf hk
  rw [Nat.div_add_mod', hbone, Option.bind_some, List.getElem?_eq_getElem hlt, Option.bind_some]
    at hcomponent
  rw [List.getElem?_map, hcomponent]
  obtain rfl | rfl | rfl : k = 0 ∨ k = 1 ∨ k = 2 := by omega
  all_goals rfl

/-- The recording is in front of the planes, and still is when it is printed. -/
structure StaysClean (constraints : List (PlaneCollisionConstraint K))
    (c : SmoothMotionController ι K) : Prop where
  clean : Clean constraints c
  printed : ∀ tieUp, ∀ bone ∈ c.bones, ∀ info ∈ bone.stored,
    Scene.InFront constraints (info.position.rounded tieUp)

/-- Time does not run backwards. -/
def Forward (c : SmoothMotionController ι K) : Action K → Prop
  | .animatorUpdate deltaTime slowMotion => 0 ≤ deltaTime * c.samplingFPS * slowMotion
  | _ => True

section InFront

variable {pose : Pose ι K} {s : Together ι K} (h : c.Tagged sk)
  (hexportable : Exportable runtime constraints c) (hclean : StaysClean constraints c)
include h hexportable hclean

/-- What is loaded is in front of the planes. -/
theorem Sound.accepted_inFront (hs : Sound runtime sk constraints c pose s)
    (hfirst : s.scene.animatorInitialised = false) {vectors : List (Vector3d K)}
    (haccepted : Animator.accepted runtime s.scene.controller s.outputFile = some vectors) :
    ∀ v ∈ vectors, Scene.InFront constraints v := by
  obtain ⟨-, hcontroller⟩ := hs.loaded.resolve_right fun hloaded => by simp [hfirst] at hloaded
  rw [hcontroller] at haccepted
  rcases hs.solved with hnone | ⟨-, parameters, tieUp, frames, hsolution, hframes, hsaved⟩
  · rw [hnone] at haccepted
    cases haccepted
  · have hparsed := Animator.accepted_parsed runtime hexportable.frames hframes
      (hsolution.solves.length h)
      (fun v _ => CeresWrapper.blank_not_mem_showDouble tieUp v)
      (fun v _ => CeresWrapper.parse_showDouble runtime tieUp v)
    rw [← hsaved] at hparsed
    obtain rfl := Option.some.inj (hparsed.symm.trans haccepted)
    obtain rfl := hsolution.eq_of_clean h hclean.clean
    intro v hv
    obtain ⟨n, hn, rfl⟩ := List.mem_map.mp hv
    obtain ⟨bone, hbone, info, hinfo, hrounded⟩ := vectorAt_rounded h tieUp (List.mem_range.mp hn)
    rw [hrounded]
    exact hclean.printed tieUp bone hbone info hinfo

/-- What is kept besides: the counts, and that the scene is in front of the planes. -/
structure Clear (sk : Skeleton ι K) (constraints : List (PlaneCollisionConstraint K))
    (c : SmoothMotionController ι K) (s : Together ι K) : Prop where
  inFront : Scene.In sk (Scene.InFront constraints) s.scene
  frames : s.scene.controller.numFrames = c.numFrames
  fps : s.scene.controller.samplingFPS = c.samplingFPS

/-- A call of the animator leads out of nothing. -/
theorem Clear.staysIn (hclear : Clear sk constraints c s) (hs : Sound runtime sk constraints c pose s)
    {deltaTime slowMotion : K} (hforward : Forward c (.animatorUpdate deltaTime slowMotion)) :
    Scene.StaysIn runtime (Scene.InFront constraints) s.scene
      (.animatorUpdate s.outputFile deltaTime slowMotion) := by
  refine ⟨?_, fun hfirst _ haccepted => hs.accepted_inFront h hexportable hclean hfirst haccepted⟩
  rw [hclear.fps]
  exact add_nonneg hclear.inFront.frame hforward

theorem Clear.step (hclear : Clear sk constraints c s) (hs : Sound runtime sk constraints c pose s)
    {a : Action K} (hforward : Forward c a) :
    Clear sk constraints c (s.step runtime sk constraints a) := by
  have hscene : ∀ e, Scene.StaysIn runtime (Scene.InFront constraints) s.scene e →
      (s.step runtime sk constraints a).scene = s.scene.step runtime sk constraints e →
      Clear sk constraints c (s.step runtime sk constraints a) := by
    intro e hstays hstep
    obtain ⟨hframes, hfps, -⟩ := Scene.step_counts runtime constraints hclear.inFront.tagged e
    exact ⟨hstep ▸ hclear.inFront.step hstays, hstep ▸ hframes.trans hclear.frames,
      hstep ▸ hfps.trans hclear.fps⟩
  cases a with
  | exporterUpdate => exact hscene .exporterUpdate trivial rfl
  | solverRun solver =>
    unfold Together.step
    simp only
    split
    · exact ⟨hclear.inFront, hclear.frames, hclear.fps⟩
    · exact hclear
  | animatorUpdate deltaTime slowMotion =>
    exact hscene _ (hclear.staysIn h hexportable hclean hs hforward) rfl

omit hclean in
/-- With a solution the animator poses the bones. -/
theorem Clear.completes (hclear : Clear sk constraints c s)
    (hs : Sound runtime sk constraints c pose s) (hsome : s.outputFile ≠ none)
    {deltaTime slowMotion : K} (hforward : Forward c (.animatorUpdate deltaTime slowMotion)) :
    s.scene.result runtime sk constraints (.animatorUpdate s.outputFile deltaTime slowMotion) =
      .ok () := by
  obtain ⟨controller, hinitialise, hsound, hframes, hfps⟩ :=
    hs.initialise h hexportable.frames hsome
  have hframe : Animator.HasFrame controller
      (s.scene.frame + deltaTime * controller.samplingFPS * slowMotion) := by
    rw [Animator.HasFrame, hframes, hclear.frames, hfps, hclear.fps]
    exact ⟨hexportable.frames, .inl (add_nonneg hclear.inFront.frame hforward)⟩
  have hresult : s.scene.result runtime sk constraints
      (.animatorUpdate s.outputFile deltaTime slowMotion) =
        ((Animator.update runtime sk s.outputFile deltaTime slowMotion).exec s.scene).1 := rfl
  rw [hresult, Animator.update_exec sk hs.initialised, Script.exec_bind_ok hinitialise]
  rcases Animator.play_result hsound.tagged deltaTime slowMotion with
    ⟨-, s', hplay⟩ | ⟨hnone, -⟩
  · rw [hplay]
  · exact absurd hframe hnone

end InFront

/-- If the recording is in front of all planes, with its digits and with the six that
    are printed, then in every order of actions that never goes back in time: a call of
    the animator finds no solution and touches nothing, or it poses the bones, and not
    one of them is behind a plane, on stored frames and in between. The recorded
    scales are positive, and the Transforms above the skeleton invertible. -/
theorem run_inFront {clip : AnimationClip ι K} {samplingFPS : Int} {pose pose' : Pose ι K}
    {fuel : Nat} (hstart : SmoothMotionController.start sk clip samplingFPS pose fuel = some (c, pose'))
    (hexportable : Exportable runtime constraints c) (hclean : StaysClean constraints c)
    (hscales : c.PositiveScales) (houter : ∀ t ∈ sk.outer, t.Invertible) (actions : List (Action K))
    (hforward : ∀ a ∈ actions, Forward c a) {deltaTime slowMotion : K}
    (hlast : Forward c (.animatorUpdate deltaTime slowMotion)) :
    let s := run runtime sk constraints (initial c pose') actions
    let s' := s.step runtime sk constraints (.animatorUpdate deltaTime slowMotion)
    let result := s.scene.result runtime sk constraints
      (.animatorUpdate s.outputFile deltaTime slowMotion)
    s.outputFile = none ∧ result = .error .fileNotFound ∧ s' = s ∨
      s.outputFile ≠ none ∧ result = .ok () ∧
        ∀ bone ∈ s'.scene.controller.bones, ∀ k ∈ constraints,
          (k.planePosition - sk.position s'.scene.pose bone.transform).dot k.worldNormal ≤ 0 := by
  intro s s' result
  have hc : c.Tagged sk := SmoothMotionController.start_tagged hstart
  have hinitialised := (SmoothMotionController.start_initialised hstart).1
  obtain ⟨hsound, hclear⟩ : Sound runtime sk constraints c pose' s ∧ Clear sk constraints c s :=
    run_keeps hc hexportable actions
      (fun a ha s hs hclear => hclear.step hc hexportable hclean hs (hforward a ha))
      (sound_initial hc hinitialised pose') ⟨⟨hc, hinitialised, hclean.clean, hscales, le_rfl⟩, rfl, rfl⟩
  by_cases hnone : s.outputFile = none
  · have hmissing := hsound.missing hnone deltaTime slowMotion
    have hstep : s' = { s with scene :=
        ((Animator.update runtime sk s.outputFile deltaTime slowMotion).exec s.scene).2 } := rfl
    exact .inl ⟨hnone, congrArg Prod.fst hmissing, by rw [hstep, hmissing]⟩
  · have hok := hclear.completes hc hexportable hsound hnone hlast
    have hstays := hclear.staysIn hc hexportable hclean hsound hlast
    refine .inr ⟨hnone, hok, fun bone hbone k hk => not_lt.mp ?_⟩
    exact hclear.inFront.poses (Scene.convex_inFront constraints) houter hstays hok bone hbone k hk

/-- Two bones on the plane `y = 0`: before the solver, and one and a half frames after. -/
theorem run_inFront_twoBones :
    let s := run Runtime.whole twoBones [⟨⟨0, 0, 0⟩, 1, ⟨0, 1, 0⟩⟩]
      (initial restingController restingPose)
      [.animatorUpdate 1 1, .exporterUpdate, .solverRun walkSolver]
    let s' := s.step Runtime.whole twoBones [⟨⟨0, 0, 0⟩, 1, ⟨0, 1, 0⟩⟩]
      (.animatorUpdate (1 / 2) 3)
    let result := s.scene.result Runtime.whole twoBones [⟨⟨0, 0, 0⟩, 1, ⟨0, 1, 0⟩⟩]
      (.animatorUpdate s.outputFile (1 / 2) 3)
    s.outputFile = none ∧ result = .error .fileNotFound ∧ s' = s ∨
      s.outputFile ≠ none ∧ result = .ok () ∧
        ∀ bone ∈ s'.scene.controller.bones,
          ∀ k ∈ ([⟨⟨0, 0, 0⟩, 1, ⟨0, 1, 0⟩⟩] : List (PlaneCollisionConstraint ℚ)),
            (k.planePosition - twoBones.position s'.scene.pose bone.transform).dot k.worldNormal ≤
              0 := by
  have hclean : StaysClean [⟨⟨0, 0, 0⟩, 1, ⟨0, 1, 0⟩⟩] restingController := by
    refine ⟨Scene.restingController_storesIn, fun tieUp bone hbone info hinfo => ?_⟩
    have hheight := Scene.restingController_ground bone hbone info hinfo
    have hzero : OStream.rounded tieUp (0 : ℚ) = 0 :=
      (OStream.rounded_eq_iff tieUp 0).mpr (Rounding.hasDigits_zero (by norm_num))
    exact Scene.inFront_ground (by rw [Vector3d.rounded, hheight, hzero])
  have hforward : ∀ a ∈ ([.animatorUpdate 1 1, .exporterUpdate, .solverRun walkSolver] :
      List (Action ℚ)), Forward restingController a := by
    simp [Forward, restingController]
  exact run_inFront (restingController_start restingPose) exportable_resting hclean
    Scene.restingController_scales (by simp [twoBones])
    [.animatorUpdate 1 1, .exporterUpdate, .solverRun walkSolver] hforward
    (by simp [Forward, restingController])

end Together
