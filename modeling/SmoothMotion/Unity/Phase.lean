-- SUMMARY: What a run of completed Updates shows: interpolation on the cycle of frames at a phase that depends on the total time alone.
import SmoothMotion.Unity.Interpolation
import SmoothMotion.Unity.Schedule

open CSharp Decimal

/-!
# Phase

Every completed Update of the animator adds its share of the time to `_frame`,
and the first of them settles which positions are stored. So at constant speed a
run shows what its total time and its first file say, however the time is split.
-/

namespace Animator

variable {ι K : Type} [Scalar K]

/-- The controller after a reading that did not throw. -/
def loadedFrom (runtime : Runtime K) (c : SmoothMotionController ι K) (file : Option Text) :
    SmoothMotionController ι K :=
  match accepted runtime c file with
  | none => c
  | some vectors => loaded c vectors

@[simp] theorem loadedFrom_samplingFPS (runtime : Runtime K) (c : SmoothMotionController ι K)
    (file : Option Text) : (loadedFrom runtime c file).samplingFPS = c.samplingFPS := by
  unfold loadedFrom
  cases accepted runtime c file <;> rfl

/-- A completed reading, and what it leaves. -/
theorem initialise_ok {runtime : Runtime K} {s s' : Scene ι K}
    (hstored : ∀ bone ∈ s.controller.bones, bone.stored.length = s.controller.numFrames)
    {file : Option Text} (h : (initialise runtime file).exec s = (.ok (), s')) :
    ∃ log, s' = { s with
      controller := if s.animatorInitialised then s.controller
        else loadedFrom runtime s.controller file
      animatorInitialised := true
      log } := by
  cases hflag : s.animatorInitialised with
  | true =>
    rw [initialise_again hflag] at h
    cases h
    exact ⟨s.log, by simp [← hflag]⟩
  | false =>
    rw [initialise_first hflag] at h
    unfold loadedFrom
    rcases readFromFile_cases hstored file with
      ⟨haccepted, result, entries, hread, -⟩ | ⟨vectors, haccepted, hread⟩
    · cases result with
      | error e =>
        rw [Script.exec_bind_error hread] at h
        cases h
      | ok u =>
        rw [Script.exec_bind_ok hread] at h
        cases h
        exact ⟨s.log ++ entries, by simp [haccepted, Scene.logged]⟩
    · rw [Script.exec_bind_ok hread] at h
      cases h
      exact ⟨s.log, by simp [haccepted]⟩

end Animator

/-! ## Runs at constant speed -/

namespace Event

variable {K : Type} [Scalar K]

/-- The time a call reports; the exporter asks for none. -/
def deltaTime : Event K → K
  | .exporterUpdate => 0
  | .animatorUpdate _ deltaTime _ => deltaTime

/-- The file a call of the animator finds. -/
def file : Event K → Option (Option Text)
  | .exporterUpdate => none
  | .animatorUpdate file _ _ => some file

/-- Time does not run backwards, and the speed is the given one. -/
def AtSpeed (slowMotion : K) : Event K → Prop
  | .exporterUpdate => True
  | .animatorUpdate _ deltaTime slowMotion' => 0 ≤ deltaTime ∧ slowMotion' = slowMotion

end Event

namespace Scene

variable {ι K : Type} [DecidableEq ι] [Scalar K]

def totalTime (events : List (Event K)) : K := (events.map Event.deltaTime).sum

@[simp] theorem totalTime_snoc (events : List (Event K)) (e : Event K) :
    totalTime (events ++ [e]) = totalTime events + e.deltaTime := by
  simp [totalTime]

/-- The file of the first call of the animator. -/
def firstFile (events : List (Event K)) : Option (Option Text) := events.findSome? Event.file

omit [Scalar K] in
@[simp] theorem firstFile_snoc (events : List (Event K)) (e : Event K) :
    firstFile (events ++ [e]) = (firstFile events).or e.file := by
  simp [firstFile, List.findSome?_append]

theorem totalTime_nonneg {slowMotion : K} {events : List (Event K)}
    (h : ∀ e ∈ events, e.AtSpeed slowMotion) : 0 ≤ totalTime events := by
  refine List.sum_nonneg fun d hd => ?_
  obtain ⟨e, he, rfl⟩ := List.mem_map.mp hd
  cases e with
  | exporterUpdate => exact le_rfl
  | animatorUpdate file deltaTime slowMotion' => exact (h _ he).1

section Runs

variable (runtime : Runtime K) (sk : Skeleton ι K) (constraints : List (PlaneCollisionConstraint K))

/-- No call of the run throws. -/
def Completed (s : Scene ι K) (events : List (Event K)) : Prop :=
  ∀ before e, before ++ [e] <+: events →
    result runtime sk constraints (run runtime sk constraints s before) e = .ok ()

end Runs

variable {runtime : Runtime K} {sk : Skeleton ι K} {constraints : List (PlaneCollisionConstraint K)}
  {s : Scene ι K}

theorem completed_nil : Completed runtime sk constraints s [] := by
  intro before e hinit
  simp at hinit

theorem completed_snoc {events : List (Event K)} {e : Event K} :
    Completed runtime sk constraints s (events ++ [e]) ↔ Completed runtime sk constraints s events ∧
      result runtime sk constraints (run runtime sk constraints s events) e = .ok () := by
  constructor
  · intro h
    exact ⟨fun before e hinit => h before e (hinit.trans (List.prefix_append _ _)),
      h events e (List.prefix_refl _)⟩
  · rintro ⟨hbefore, hlast⟩ before e' hinit
    rcases List.prefix_concat_iff.mp hinit with hwhole | hinit
    · obtain ⟨rfl, hsame⟩ := List.append_inj' hwhole rfl
      cases hsame
      exact hlast
    · exact hbefore before e' hinit

/-- What a completed call of the animator leaves: the time is added, and the
    bones have been posed at the new frame. -/
theorem step_of_completed (h : s.controller.Tagged sk) (hinitialised : s.controller.initialised = true)
    {file : Option Text} {deltaTime slowMotion : K}
    (hok : result runtime sk constraints s (.animatorUpdate file deltaTime slowMotion) = .ok ()) :
    ∃ s₁ pose log,
      s₁ = { s with
        controller := if s.animatorInitialised then s.controller
          else Animator.loadedFrom runtime s.controller file
        animatorInitialised := true
        frame := s.frame + deltaTime * s.controller.samplingFPS * slowMotion
        log } ∧
      (Animator.setFrames sk s₁.frame s₁.controller.bones).exec s₁ = (.ok (), { s₁ with pose }) ∧
      step runtime sk constraints s (.animatorUpdate file deltaTime slowMotion) = { s₁ with pose } := by
  have hupdate : (Animator.update runtime sk file deltaTime slowMotion).exec s =
      (.ok (), step runtime sk constraints s (.animatorUpdate file deltaTime slowMotion)) :=
    Prod.ext hok rfl
  rw [Animator.update_exec sk hinitialised] at hupdate
  obtain ⟨u, s₀, hread, hplay⟩ := Script.exec_bind_eq_ok hupdate
  obtain ⟨log, rfl⟩ := Animator.initialise_ok h.stored hread
  have hfps : (if s.animatorInitialised then s.controller
      else Animator.loadedFrom runtime s.controller file).samplingFPS =
        s.controller.samplingFPS := by
    split
    · rfl
    · exact Animator.loadedFrom_samplingFPS runtime s.controller file
  generalize (if s.animatorInitialised then s.controller
    else Animator.loadedFrom runtime s.controller file) = controller at hplay hfps ⊢
  rw [← hfps]
  obtain ⟨result', pose, hpose⟩ := setFrames_exec sk
    (s.frame + deltaTime * controller.samplingFPS * slowMotion) controller.bones
    { s with
      controller
      animatorInitialised := true
      frame := s.frame + deltaTime * controller.samplingFPS * slowMotion
      log }
  obtain ⟨rfl, hstep⟩ := Prod.mk.inj (hpose.symm.trans hplay)
  exact ⟨_, pose, log, rfl, hpose, hstep.symm⟩

/-! ## What a run has done -/

/-- What a completed run at constant speed has done to a scene with controller
    `c`: the first file is read, and the total time has passed. -/
structure Phased (runtime : Runtime K) (sk : Skeleton ι K) (c : SmoothMotionController ι K)
    (slowMotion : K) (events : List (Event K)) (s : Scene ι K) : Prop where
  tagged : s.controller.Tagged sk
  initialised : s.controller.initialised = true
  samplingFPS : s.controller.samplingFPS = c.samplingFPS
  animatorInitialised : s.animatorInitialised = (firstFile events).isSome
  controller : s.controller =
    (firstFile events).elim c (Animator.loadedFrom runtime c)
  frame : s.frame = totalTime events * c.samplingFPS * slowMotion

section Phased

variable {c : SmoothMotionController ι K} {slowMotion : K} {events : List (Event K)}

/-- The exporter has no part in it. -/
theorem Phased.exporterUpdate (h : Phased runtime sk c slowMotion events s) :
    Phased runtime sk c slowMotion (events ++ [.exporterUpdate])
      (step runtime sk constraints s .exporterUpdate) := by
  have hsame : Phased runtime sk c slowMotion (events ++ [.exporterUpdate]) s :=
    { h with
      animatorInitialised := by simp [h.animatorInitialised, Event.file]
      controller := by simp [h.controller, Event.file]
      frame := by simp [h.frame, Event.deltaTime] }
  rcases step_exporterUpdate runtime constraints h.tagged with hstep | ⟨-, hstep⟩
  · rw [hstep]
    exact hsame
  · rw [hstep]
    exact { hsame with }

/-- The first call of the animator reads its file, and every call adds its time. -/
theorem Phased.animatorUpdate (h : Phased runtime sk c slowMotion events s) {file : Option Text}
    {deltaTime : K}
    (hok : result runtime sk constraints s (.animatorUpdate file deltaTime slowMotion) = .ok ()) :
    Phased runtime sk c slowMotion (events ++ [.animatorUpdate file deltaTime slowMotion])
      (step runtime sk constraints s (.animatorUpdate file deltaTime slowMotion)) := by
  obtain ⟨-, hfps, hinitialised⟩ :=
    step_counts runtime constraints h.tagged (.animatorUpdate file deltaTime slowMotion)
  have htagged :=
    step_tagged runtime constraints h.tagged (.animatorUpdate file deltaTime slowMotion)
  obtain ⟨s₁, pose, log, rfl, -, hstep⟩ := step_of_completed h.tagged h.initialised hok
  refine ⟨htagged, hinitialised.trans h.initialised, hfps.trans h.samplingFPS, ?_, ?_, ?_⟩
  · rw [hstep, firstFile_snoc]
    cases firstFile events <;> rfl
  · rw [hstep, firstFile_snoc]
    simp only [h.animatorInitialised, h.controller]
    cases firstFile events <;> rfl
  · rw [hstep, totalTime_snoc]
    simp only [h.frame, h.samplingFPS, Event.deltaTime]
    ring

end Phased

theorem run_phased {c : SmoothMotionController ι K} (h : c.Tagged sk)
    (hinitialised : c.initialised = true) {pose : Pose ι K} {slowMotion : K}
    {events : List (Event K)} (hspeed : ∀ e ∈ events, e.AtSpeed slowMotion)
    (hcompleted : Completed runtime sk constraints (initial c pose) events) :
    Phased runtime sk c slowMotion events (run runtime sk constraints (initial c pose) events) := by
  induction events using List.reverseRecOn with
  | nil => exact ⟨h, hinitialised, rfl, rfl, rfl, by simp [run, initial, totalTime]⟩
  | append_singleton events e ih =>
    obtain ⟨hbefore, hlast⟩ := completed_snoc.mp hcompleted
    have hphased := ih (fun e he => hspeed e (List.mem_append_left _ he)) hbefore
    rw [run_snoc]
    cases e with
    | exporterUpdate => exact hphased.exporterUpdate
    | animatorUpdate file deltaTime slowMotion' =>
      obtain ⟨-, rfl⟩ := hspeed _ (List.mem_append_right _ (List.mem_singleton_self _))
      exact hphased.animatorUpdate hlast

/-- After a completed run at constant speed the bones are posed at the phase that
    the total time gives: the last call has put them there, from the pose before it,
    on the cycle of their stored frames, between the frame below the phase and the
    one after it. A whole turn more shows the same, and so does every other run with
    this first file and this total time. -/
theorem run_shows_phase {clip : AnimationClip ι K} {samplingFPS : Int} {pose pose' : Pose ι K}
    {fuel : Nat} {c : SmoothMotionController ι K}
    (hstart : SmoothMotionController.start sk clip samplingFPS pose fuel = some (c, pose'))
    (hfps : 1 ≤ samplingFPS) {slowMotion : K} (hslow : 0 ≤ slowMotion) {events : List (Event K)}
    (hspeed : ∀ e ∈ events, e.AtSpeed slowMotion)
    (hcompleted : Completed runtime sk constraints (initial c pose') events) :
    let s := run runtime sk constraints (initial c pose') events
    let p := totalTime events * samplingFPS * slowMotion
    s.frame = p ∧
      (∀ before file deltaTime, events = before ++ [.animatorUpdate file deltaTime slowMotion] →
        (Animator.setFrames sk p s.controller.bones).exec
          { s with pose := (run runtime sk constraints (initial c pose') before).pose } =
            (.ok (), s)) ∧
      (∀ bone ∈ s.controller.bones, bone.stored ≠ [] →
        bone.Shows sk p p ∧ bone.Shows sk (p + bone.stored.length) p) ∧
      ∀ events' : List (Event K), (∀ e ∈ events', e.AtSpeed slowMotion) →
        Completed runtime sk constraints (initial c pose') events' →
        firstFile events' = firstFile events → totalTime events' = totalTime events →
        (run runtime sk constraints (initial c pose') events').controller = s.controller ∧
          (run runtime sk constraints (initial c pose') events').frame = s.frame := by
  have htagged : c.Tagged sk := SmoothMotionController.start_tagged hstart
  obtain ⟨hinitialised, hcfps⟩ := SmoothMotionController.start_initialised hstart
  have hphased := run_phased htagged hinitialised hspeed hcompleted
  have hframe := hphased.frame
  rw [hcfps] at hframe
  have hphase : 0 ≤ totalTime events * samplingFPS * slowMotion :=
    mul_nonneg (mul_nonneg (totalTime_nonneg hspeed) (Int.cast_nonneg (by omega))) hslow
  refine ⟨hframe, ?_, fun bone _ hstored => ?_, ?_⟩
  · rintro before file deltaTime rfl
    obtain ⟨hbefore, hlast⟩ := completed_snoc.mp hcompleted
    have hprevious := run_phased htagged hinitialised
      (fun e he => hspeed e (List.mem_append_left _ he)) hbefore
    obtain ⟨s₁, pose, log, rfl, hframes, hstep⟩ :=
      step_of_completed hprevious.tagged hprevious.initialised hlast
    rw [← hframe, run_snoc, hstep]
    exact hframes
  · exact ⟨SmoothMotionBone.setFrame_shows sk hstored hphase,
      SmoothMotionBone.setFrame_shows_turn sk hstored hphase⟩
  · intro events' hspeed' hcompleted' hfile htime
    have hphased' := run_phased htagged hinitialised hspeed' hcompleted'
    rw [hphased'.controller, hphased'.frame, hphased.controller, hphased.frame, hfile, htime]
    exact ⟨rfl, rfl⟩

/-- Half a second, with a solution to load, and then a quarter more. -/
theorem run_shows_phase_twoBones :
    let events : List (Event ℚ) := [.animatorUpdate (some "1 7 8 9 4 5 6".toList) (1 / 2) 3,
      .animatorUpdate none (1 / 4) 3]
    let s := run Runtime.whole twoBones [] (initial restingController restingPose) events
    let p := totalTime events * (1 : Int) * 3
    s.frame = p ∧
      (∀ before file deltaTime, events = before ++ [.animatorUpdate file deltaTime 3] →
        (Animator.setFrames twoBones p s.controller.bones).exec
          { s with pose :=
            (run Runtime.whole twoBones [] (initial restingController restingPose) before).pose } =
              (.ok (), s)) ∧
      (∀ bone ∈ s.controller.bones, bone.stored ≠ [] →
        bone.Shows twoBones p p ∧ bone.Shows twoBones (p + bone.stored.length) p) ∧
      ∀ events' : List (Event ℚ), (∀ e ∈ events', e.AtSpeed 3) →
        Completed Runtime.whole twoBones [] (initial restingController restingPose) events' →
        firstFile events' = firstFile events → totalTime events' = totalTime events →
        (run Runtime.whole twoBones [] (initial restingController restingPose) events').controller =
            s.controller ∧
          (run Runtime.whole twoBones [] (initial restingController restingPose) events').frame =
            s.frame := by
  have hcompleted : Completed Runtime.whole twoBones [] (initial restingController restingPose)
      (([] ++ [.animatorUpdate (some "1 7 8 9 4 5 6".toList) (1 / 2) 3]) ++
        [.animatorUpdate none (1 / 4) 3]) :=
    completed_snoc.mpr ⟨completed_snoc.mpr ⟨completed_nil, by decide +kernel⟩, by decide +kernel⟩
  refine run_shows_phase (restingController_start restingPose) le_rfl (by norm_num) ?_ hcompleted
  simp [Event.AtSpeed]

end Scene
