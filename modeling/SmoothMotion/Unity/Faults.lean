-- SUMMARY: Which Updates of the animator fault, call by call and over whole runs.
import SmoothMotion.Unity.Interpolation
import SmoothMotion.Unity.Schedule

open CSharp Decimal

/-!
# Faults

An Update of the animator may throw because of its file: there is none, or a
number in it is none. It faults if it divides by zero, follows a null reference
or leaves a list. All frames lists of a reachable scene have one length, so one
bone decides for all whether `SetFrame` faults, and that depends on `_frame`
alone: the remainder keeps its sign.
-/

namespace Animator

variable {ι K : Type} [Scalar K]

/-! ## One call -/

/-- A file at which `ReadFromFile` stops before it has compared the number of
    bones: there is none, or a number it reads is none. -/
def Unreadable (runtime : Runtime K) (c : SmoothMotionController ι K) : Option Text → Prop
  | none => True
  | some content =>
    match int32Parse ((content.splitOn ' ').headD []) with
    | .error _ => True
    | .ok frames =>
      frames = c.numFrames ∧ ∃ e, parsePositions runtime (content.splitOn ' ') = .error e

/-- How the reading ends: by an exception about the file, or regularly, or, if
    the clip had no frame and the file has none either, by the division. -/
theorem readFromFile_result (runtime : Runtime K) {s : Scene ι K}
    (hstored : ∀ bone ∈ s.controller.bones, bone.stored.length = s.controller.numFrames)
    (file : Option Text) :
    (Unreadable runtime s.controller file ∧
      ∃ e s', (readFromFile runtime file).exec s = (.error e, s') ∧ e.isFault = false) ∨
    ¬ Unreadable runtime s.controller file ∧
      ((∃ s', (readFromFile runtime file).exec s = (.ok (), s')) ∨
        s.controller.numFrames = 0 ∧
          ∃ s', (readFromFile runtime file).exec s = (.error .divideByZero, s')) := by
  cases file with
  | none => exact .inl ⟨trivial, .fileNotFound, s, rfl, rfl⟩
  | some content =>
    rw [readFromFile_exec]
    unfold Unreadable
    simp only
    cases hframes : int32Parse ((content.splitOn ' ').headD []) with
    | error e =>
      exact .inl ⟨trivial, e, s, rfl, isFault_of_input (int32Parse_error hframes)⟩
    | ok frames =>
      by_cases hcount : frames = s.controller.numFrames
      · simp only [hcount, ne_eq, not_true_eq_false, if_false, true_and]
        cases hvectors : parsePositions runtime (content.splitOn ' ') with
        | error e =>
          exact .inl ⟨⟨e, rfl⟩, e, s, rfl, isFault_of_input (parsePositions_error hvectors)⟩
        | ok vectors =>
          refine .inr ⟨by simp, ?_⟩
          simp only
          split
          · next hzero => exact .inr ⟨hzero, s, rfl⟩
          · split
            · exact .inl ⟨_, rfl⟩
            · next hbones =>
              rw [not_not] at hbones
              have hlength : s.controller.bones.length * s.controller.numFrames ≤ vectors.length := by
                rw [← hbones]
                exact Nat.div_mul_le_self _ _
              exact .inl ⟨_, overridePositions_exec hstored hlength⟩
      · exact .inr ⟨fun h => hcount h.1, .inl ⟨_, if_pos hcount⟩⟩

section SetFrames

variable [DecidableEq ι] {sk : Skeleton ι K} {frame : K} {bones : List (SmoothMotionBone ι K)}

/-- The loop over the bones ends regularly if every bone has its frame. -/
theorem setFrames_ok (h : ∀ bone ∈ bones, ∃ info, bone.frameAt frame = .ok info) (s : Scene ι K) :
    ∃ s', (setFrames sk frame bones).exec s = (.ok (), s') := by
  induction bones generalizing s with
  | nil => exact ⟨s, rfl⟩
  | cons bone bones ih =>
    obtain ⟨info, hinfo⟩ := h bone (by simp)
    have hset : ∃ pose, bone.setFrame sk frame s.pose = .ok pose := by
      unfold SmoothMotionBone.setFrame
      rw [hinfo]
      exact ⟨_, rfl⟩
    obtain ⟨pose, hpose⟩ := hset
    obtain ⟨s', hrest⟩ := ih (fun other hother => h other (by simp [hother])) { s with pose }
    refine ⟨s', ?_⟩
    unfold setFrames
    rw [Script.exec_bind_ok (Script.exec_get s)]
    simpa [Script.exec_bind, hpose] using hrest

/-- It faults if the first bone has no frame. -/
theorem setFrames_fault (sk : Skeleton ι K) (bones : List (SmoothMotionBone ι K))
    {bone : SmoothMotionBone ι K} (h : ¬ ∃ info, bone.frameAt frame = .ok info) (s : Scene ι K) :
    ∃ e s', (setFrames sk frame (bone :: bones)).exec s = (.error e, s') ∧ e.isFault = true := by
  cases hframe : bone.frameAt frame with
  | ok info => exact absurd ⟨info, hframe⟩ h
  | error e =>
    have hset : bone.setFrame sk frame s.pose = .error e := by
      unfold SmoothMotionBone.setFrame
      rw [hframe]
      rfl
    refine ⟨e, s, ?_, SmoothMotionBone.frameAt_error hframe⟩
    unfold setFrames
    rw [Script.exec_bind_ok (Script.exec_get s)]
    simp [Script.exec_bind, hset]

end SetFrames

/-- The same for the part of `Update` that reads the file once. -/
theorem initialise_result (runtime : Runtime K) {s : Scene ι K}
    (hstored : ∀ bone ∈ s.controller.bones, bone.stored.length = s.controller.numFrames)
    (file : Option Text) :
    ((s.animatorInitialised = false ∧ Unreadable runtime s.controller file) ∧
      ∃ e s', (initialise runtime file).exec s = (.error e, s') ∧ e.isFault = false) ∨
    ¬ (s.animatorInitialised = false ∧ Unreadable runtime s.controller file) ∧
      ((∃ s', (initialise runtime file).exec s = (.ok (), s')) ∨
        s.controller.numFrames = 0 ∧
          ∃ s', (initialise runtime file).exec s = (.error .divideByZero, s')) := by
  cases hflag : s.animatorInitialised with
  | true => exact .inr ⟨by simp, .inl ⟨_, initialise_again hflag file⟩⟩
  | false =>
    rw [initialise_first hflag]
    simp only [true_and]
    rcases readFromFile_result runtime hstored file with
      ⟨hfile, e, s', hread, he⟩ | ⟨hfile, ⟨s', hread⟩ | ⟨hzero, s', hread⟩⟩
    · exact .inl ⟨hfile, e, s', Script.exec_bind_error hread _, he⟩
    · exact .inr ⟨hfile, .inl ⟨_, Script.exec_bind_ok hread _⟩⟩
    · exact .inr ⟨hfile, .inr ⟨hzero, s', Script.exec_bind_error hread _⟩⟩

/-- There is a frame to show: the clip had one, and `frame` is not negative, or
    a whole number of turns. -/
def HasFrame (c : SmoothMotionController ι K) (frame : K) : Prop :=
  0 < c.numFrames ∧ (0 ≤ frame ∨ ∃ m : Int, frame = m * c.numFrames)

theorem frameAt_ok_iff_hasFrame {c : SmoothMotionController ι K}
    (hstored : ∀ bone ∈ c.bones, bone.stored.length = c.numFrames) {frame : K}
    {bone : SmoothMotionBone ι K} (hbone : bone ∈ c.bones) :
    (∃ info, bone.frameAt frame = .ok info) ↔ HasFrame c frame := by
  rw [SmoothMotionBone.frameAt_ok_iff, ← List.length_pos_iff, hstored bone hbone]
  rfl

/-- The bones are posed if there is a frame, and else the first of them faults. -/
theorem play_result [DecidableEq ι] {sk : Skeleton ι K} {s : Scene ι K}
    (h : s.controller.Tagged sk) (deltaTime slowMotion : K) :
    (HasFrame s.controller (s.frame + deltaTime * s.controller.samplingFPS * slowMotion) ∧
      ∃ s', (play sk deltaTime slowMotion).exec s = (.ok (), s')) ∨
    ¬ HasFrame s.controller (s.frame + deltaTime * s.controller.samplingFPS * slowMotion) ∧
      ∃ e s', (play sk deltaTime slowMotion).exec s = (.error e, s') ∧ e.isFault = true := by
  by_cases hframe :
      HasFrame s.controller (s.frame + deltaTime * s.controller.samplingFPS * slowMotion)
  · have hbones : ∀ bone ∈ s.controller.bones, ∃ info, bone.frameAt _ = .ok info :=
      fun bone hbone => (frameAt_ok_iff_hasFrame h.stored hbone).mpr hframe
    exact .inl ⟨hframe, setFrames_ok hbones _⟩
  · obtain ⟨bone, bones, hbones⟩ :=
      List.exists_cons_of_ne_nil (List.ne_nil_of_length_pos h.bones_length_pos)
    have hfirst : ¬ ∃ info, bone.frameAt _ = .ok info :=
      (frameAt_ok_iff_hasFrame h.stored (hbones ▸ List.mem_cons_self)).not.mpr hframe
    obtain ⟨e, s', hfault, he⟩ := setFrames_fault sk bones hfirst
      { s with frame := s.frame + deltaTime * s.controller.samplingFPS * slowMotion }
    rw [← hbones] at hfault
    exact .inr ⟨hframe, e, s', hfault, he⟩

end Animator

namespace Scene

variable {ι K : Type} [DecidableEq ι] [Scalar K]

section Calls

variable (runtime : Runtime K) (sk : Skeleton ι K) (constraints : List (PlaneCollisionConstraint K))

def Faults (s : Scene ι K) (e : Event K) : Prop :=
  ∃ exn, result runtime sk constraints s e = .error exn ∧ exn.isFault = true

end Calls

/-- A call that does not fault: it ends with the reading of its file already, or
    there is a frame to show when the time has passed. -/
def Playable (runtime : Runtime K) (s : Scene ι K) : Event K → Prop
  | .exporterUpdate => True
  | .animatorUpdate file deltaTime slowMotion =>
    (s.animatorInitialised = false ∧ Animator.Unreadable runtime s.controller file) ∨
      Animator.HasFrame s.controller
        (s.frame + deltaTime * s.controller.samplingFPS * slowMotion)

variable {runtime : Runtime K} {sk : Skeleton ι K} {constraints : List (PlaneCollisionConstraint K)}
  {s : Scene ι K}

/-- Which calls fault, in any scene with bones of one length. -/
theorem not_faults_iff (h : s.controller.Tagged sk) (hinitialised : s.controller.initialised = true)
    (e : Event K) : ¬ Faults runtime sk constraints s e ↔ Playable runtime s e := by
  cases e with
  | exporterUpdate =>
    unfold Faults
    simp [result_exporterUpdate runtime constraints h, Playable]
  | animatorUpdate file deltaTime slowMotion =>
    unfold Faults Playable
    rw [result_animatorUpdate runtime constraints hinitialised]
    rcases Animator.initialise_result runtime h.stored file with
      ⟨hunreadable, e, s', hread, he⟩ | ⟨hreadable, ⟨s', hread⟩ | ⟨hzero, s', hread⟩⟩
    · simp [hread, he, hunreadable]
    · obtain ⟨result', controller, animatorInitialised, log, hscene, hcontroller⟩ :=
        initialise_exec runtime h file
      obtain ⟨-, rfl⟩ := Prod.mk.inj (hread.symm.trans hscene)
      have hsame : controller.Tagged sk ∧ controller.numFrames = s.controller.numFrames ∧
          controller.samplingFPS = s.controller.samplingFPS := by
        rcases hcontroller with rfl | ⟨-, vectors, -, rfl⟩
        · exact ⟨h, rfl, rfl⟩
        · exact ⟨Animator.loaded_tagged h, rfl, rfl⟩
      obtain ⟨htagged, hframes, hfps⟩ := hsame
      have hplay := Animator.play_result
        (s := { s with controller, animatorInitialised, log }) htagged deltaTime slowMotion
      simp only [Animator.HasFrame, hframes, hfps] at hplay ⊢
      simp only [hread, hreadable, false_or]
      rcases hplay with ⟨hframe, s', hplay⟩ | ⟨hframe, e, s', hplay, he⟩
      · simp [hplay, hframe]
      · simp [hplay, he, hframe]
    · simp [hread, hreadable, Animator.HasFrame, hzero, Exn.isFault]

/-! ## Whole runs -/

/-- No call of a run faults exactly if every call of it is playable in the scene
    it finds. -/
theorem run_faults_iff {clip : AnimationClip ι K} {samplingFPS : Int} {pose pose' : Pose ι K}
    {fuel : Nat} {c : SmoothMotionController ι K}
    (hstart : SmoothMotionController.start sk clip samplingFPS pose fuel = some (c, pose'))
    (events : List (Event K)) :
    (∀ before e, before ++ [e] <+: events →
        ¬ Faults runtime sk constraints (run runtime sk constraints (initial c pose') before) e) ↔
      ∀ before e, before ++ [e] <+: events →
        Playable runtime (run runtime sk constraints (initial c pose') before) e := by
  have htagged : c.Tagged sk := SmoothMotionController.start_tagged hstart
  have hinitialised : c.initialised = true := (SmoothMotionController.start_initialised hstart).1
  have hcall : ∀ before e,
      ¬ Faults runtime sk constraints (run runtime sk constraints (initial c pose') before) e ↔
        Playable runtime (run runtime sk constraints (initial c pose') before) e := by
    intro before e
    have hreach := run_reachable runtime sk constraints (initial c pose') before
    exact not_faults_iff (hreach.tagged htagged) ((hreach.counts htagged).2.2.trans hinitialised) e
  simp only [hcall]

/-- Half a second of a file for other frames, and then the file of the exporter. -/
theorem run_faults_iff_twoBones :
    let events := [.animatorUpdate (some "5".toList) (1 / 2) 1, .exporterUpdate]
    (∀ before e, before ++ [e] <+: events →
        ¬ Faults Runtime.whole twoBones []
          (run Runtime.whole twoBones [] (initial restingController restingPose) before) e) ↔
      ∀ before e, before ++ [e] <+: events → Playable Runtime.whole
        (run Runtime.whole twoBones [] (initial restingController restingPose) before) e :=
  run_faults_iff (restingController_start restingPose) _

/-- A clip of length zero. -/
def emptyClip : AnimationClip Nat ℚ where
  length := 0
  sampleAnimation _ _ := restingPose

/-- Its controller: tagged bones without frames. -/
def emptyController : SmoothMotionController Nat ℚ where
  bones := SmoothMotionController.tagBonesDeep twoBones.tree []
  numFrames := 0
  samplingFPS := 1
  initialised := true

theorem emptyController_start (pose : Pose Nat ℚ) :
    SmoothMotionController.start twoBones emptyClip 1 pose 1 = some (emptyController, pose) := by
  have hempty : ¬ (0 : ℚ) < emptyClip.length := by decide +kernel
  simp only [SmoothMotionController.start, SmoothMotionController.getBonePositions]
  simp [SmoothMotionController.sampleLoop, hempty, emptyController]

/-- Playing backwards leaves the list; a clip of length zero has no list, and a
    file of no frames divides by its count. -/
theorem run_faults_backwards :
    (SmoothMotionController.start twoBones restingClip 1 restingPose 1 =
        some (restingController, restingPose) ∧
      result Runtime.whole twoBones [] (initial restingController restingPose)
        (.animatorUpdate (some "5".toList) (1 / 2) (-1)) = .error .argumentOutOfRange) ∧
    SmoothMotionController.start twoBones emptyClip 1 restingPose 1 =
        some (emptyController, restingPose) ∧
      result Runtime.whole twoBones [] (initial emptyController restingPose)
        (.animatorUpdate (some "5".toList) (1 / 2) 1) = .error .nullReference ∧
      result Runtime.whole twoBones [] (initial emptyController restingPose)
        (.animatorUpdate (some "0".toList) (1 / 2) 1) = .error .divideByZero := by
  refine ⟨⟨restingController_start restingPose, ?_⟩, emptyController_start restingPose, ?_, ?_⟩
  · decide +kernel
  · decide +kernel
  · decide +kernel

end Scene
