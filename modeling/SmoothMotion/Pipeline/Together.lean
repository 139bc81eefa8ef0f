-- SUMMARY: Exporter, solver and animator as one system: in whatever order they run, only the recorded positions are solved, and only a solution of them is shown.
import SmoothMotion.Pipeline.WholeRun
import SmoothMotion.Unity.Schedule

open CSharp Decimal

/-!
# The three programs together

The exporter and the animator run in the game, the solver runs on its own, and they
meet in two files only. Nobody waits for anybody: the animator fails until there is a
file to load, the solver until there is one to solve. What keeps a solution from
being exported and solved again is that the animator needs a solution first, which
needs an export first, and that the exporter writes but once.
-/

/-- A run of the solver: the machine and the stream it has, and if it may write. -/
structure SolverRun (K : Type) [Scalar K] where
  platform : Platform
  machine : Ceres.Machine K
  tieUp : Int → Bool
  memory : Uninitialised K
  filename : String
  opens : Bool

/-- What the run saves, given the `.SMInput` file. -/
def SolverRun.main {K : Type} [Scalar K] (run : SolverRun K) (file : Option Text) :
    Except CeresWrapper.Stop Text :=
  CeresWrapper.main run.platform (Ceres.solve run.machine .default) (OStream.showDouble run.tieUp)
    run.memory run.filename file run.opens

/-- A scene, and the `.SMOutput` file beside it. -/
structure Together (ι K : Type) [Scalar K] where
  scene : Scene ι K
  outputFile : Option Text

inductive Together.Action (K : Type) [Scalar K] where
  | exporterUpdate
  | solverRun (run : SolverRun K)
  | animatorUpdate (deltaTime slowMotion : K)

namespace Together

variable {ι K : Type} [DecidableEq ι] [Scalar K]

section Runs

variable (runtime : Runtime K) (sk : Skeleton ι K) (constraints : List (PlaneCollisionConstraint K))

def step (s : Together ι K) : Action K → Together ι K
  | .exporterUpdate => { s with scene := s.scene.step runtime sk constraints .exporterUpdate }
  | .solverRun run =>
    match run.main s.scene.inputFile with
    | .ok saved => { s with outputFile := some saved }
    | .error _ => s
  | .animatorUpdate deltaTime slowMotion =>
    { s with scene :=
        s.scene.step runtime sk constraints (.animatorUpdate s.outputFile deltaTime slowMotion) }

def run (s : Together ι K) (actions : List (Action K)) : Together ι K :=
  actions.foldl (step runtime sk constraints) s

end Runs

/-- The controller has just started, and nothing was ever solved. -/
def initial (c : SmoothMotionController ι K) (pose : Pose ι K) : Together ι K :=
  ⟨Scene.initial c pose, none⟩

/-- The problem that the solver builds for the positions stored in `c`. -/
def Poses (sk : Skeleton ι K) (constraints : List (PlaneCollisionConstraint K))
    (c : SmoothMotionController ι K) (problem : Problem (CostFunctor K)) : Prop :=
  ∃ (platform : Platform) (frames bones : Int32),
    frames.toInt = c.numFrames ∧ bones.toInt = c.bones.length ∧
    maintainBoneLengthChildrenFunction platform (constraints.map Exporter.toCollider) frames bones
      (Exporter.positionNumbers c)
      ((List.range c.bones.length).map fun b => Int32.ofInt (Exporter.parentNumber sk b)) =
        .ok problem

/-- What some machine makes of this problem. -/
def Solution (sk : Skeleton ι K) (constraints : List (PlaneCollisionConstraint K))
    (c : SmoothMotionController ι K) (parameters : List K) : Prop :=
  ∃ problem, Poses sk constraints c problem ∧ ∃ machine : Ceres.Machine K,
    Ceres.solve machine .default problem (Exporter.positionNumbers c) = .ok parameters

/-- An array that costs no more in this problem than the positions stored in `c`. -/
def Solves (sk : Skeleton ι K) (constraints : List (PlaneCollisionConstraint K))
    (c : SmoothMotionController ι K) (parameters : List K) : Prop :=
  ∃ problem, Poses sk constraints c problem ∧
    Ceres.NoWorse problem (Exporter.positionNumbers c) parameters

/-- The file the exporter writes for `c`. -/
def exported (runtime : Runtime K) (sk : Skeleton ι K)
    (constraints : List (PlaneCollisionConstraint K)) (c : SmoothMotionController ι K) : Text :=
  IStream.terminated (Exporter.fileTokens runtime.showFloat sk c constraints)

/-- The clip and the planes fit into the counters, and a number is printed so that it
    can be read back. -/
structure Exportable (runtime : Runtime K) (constraints : List (PlaneCollisionConstraint K))
    (c : SmoothMotionController ι K) : Prop where
  frames : 0 < c.numFrames
  bones : c.bones.length < 2 ^ 31
  planes : constraints.length < 2 ^ 31
  fit : 3 * c.bones.length * c.numFrames < 2 ^ 31
  readBack : ∀ v ∈ Exporter.exportedNumbers c constraints,
    IStream.doubleToken K (runtime.showFloat v) = some v

variable {runtime : Runtime K} {sk : Skeleton ι K} {constraints : List (PlaneCollisionConstraint K)}
  {c : SmoothMotionController ι K}

/-! ## A run of the solver -/

theorem Solution.solves {parameters : List K} (h : Solution sk constraints c parameters) :
    Solves sk constraints c parameters := by
  obtain ⟨problem, hposes, machine, hsolve⟩ := h
  obtain ⟨platform, frames, bones, hframes, hbones, hbuilt⟩ := hposes
  obtain ⟨parameters', hsolve', hnoWorse⟩ := Ceres.solve_ok
    (maintainBoneLengthChildrenFunction_placed hbuilt) CeresWrapper.minLmDiagonal_default machine
  obtain rfl : parameters' = parameters := Except.ok.inj (hsolve'.symm.trans hsolve)
  exact ⟨problem, ⟨platform, frames, bones, hframes, hbones, hbuilt⟩, hnoWorse⟩

theorem Solves.length {parameters : List K} (h : Solves sk constraints c parameters)
    (htagged : c.Tagged sk) : parameters.length = 3 * c.bones.length * c.numFrames := by
  obtain ⟨problem, -, hnoWorse⟩ := h
  rw [hnoWorse.length, Exporter.length_positionNumbers htagged]
  ring

theorem main_none (run : SolverRun K) : ∃ stop, run.main none = .error stop := ⟨_, rfl⟩

/-- On the exported file it saves a solution, if it may. -/
theorem main_exported (h : c.Tagged sk) (hexportable : Exportable runtime constraints c)
    (run : SolverRun K) :
    (run.opens = false ∧ ∃ stop, run.main (some (exported runtime sk constraints c)) = .error stop) ∨
    run.opens = true ∧ ∃ parameters, ∃ frames : Int32, Solution sk constraints c parameters ∧
      frames.toInt = c.numFrames ∧
      run.main (some (exported runtime sk constraints c)) =
        .ok (CeresWrapper.saveText (OStream.showDouble run.tieUp) parameters frames) := by
  obtain ⟨input, hread, hback⟩ := Exporter.readFile_terminated_fileTokens h hexportable.bones
    hexportable.planes hexportable.fit hexportable.readBack run.memory 0
  have hpositions : input.positions.length = c.bones.length * c.numFrames * 3 := by
    rw [hback.positions, Exporter.length_positionNumbers h]
  have hparents : input.parents.length = c.bones.length := by simp [hback.parents]
  obtain ⟨problem, hbuilt⟩ : ∃ problem, maintainBoneLengthChildrenFunction run.platform
      input.colliders input.frames input.numBones input.positions input.parents = .ok problem :=
    ⟨_, maintainBoneLengthChildrenFunction_eq run.platform input.colliders hback.numBones
      hback.frames hparents hpositions.ge⟩
  obtain ⟨parameters, hsolve, -⟩ := Ceres.solve_ok
    (maintainBoneLengthChildrenFunction_placed hbuilt) CeresWrapper.minLmDiagonal_default run.machine
  have hposes : Poses sk constraints c problem := by
    refine ⟨run.platform, input.frames, input.numBones, hback.frames, hback.numBones, ?_⟩
    rw [← hback.colliders, ← hback.positions, ← hback.parents]
    exact hbuilt
  have hmain := CeresWrapper.main_eq hread hbuilt hsolve (OStream.showDouble run.tieUp)
    run.filename run.opens
  cases hopens : run.opens with
  | false =>
    rw [hopens] at hmain
    exact .inl ⟨rfl, _, by rw [SolverRun.main, hopens]; exact hmain⟩
  | true =>
    rw [hopens] at hmain
    refine .inr ⟨rfl, parameters, input.frames, ?_, hback.frames, ?_⟩
    · exact ⟨problem, hposes, run.machine, hback.positions ▸ hsolve⟩
    · rw [SolverRun.main, hopens]
      exact hmain

/-! ## What every order of actions keeps -/

/-- A state of the system that started with controller `c` and this pose. -/
structure Sound (runtime : Runtime K) (sk : Skeleton ι K)
    (constraints : List (PlaneCollisionConstraint K)) (c : SmoothMotionController ι K)
    (pose : Pose ι K) (s : Together ι K) : Prop where
  tagged : s.scene.controller.Tagged sk
  initialised : s.scene.controller.initialised = true
  exported : s.scene.exporterInitialised = false ∧ s.scene.inputFile = none ∨
    s.scene.exporterInitialised = true ∧
      s.scene.inputFile = some (exported runtime sk constraints c)
  solved : s.outputFile = none ∨ s.scene.exporterInitialised = true ∧
    ∃ parameters tieUp, ∃ frames : Int32, Solution sk constraints c parameters ∧
      frames.toInt = c.numFrames ∧
      s.outputFile = some (CeresWrapper.saveText (OStream.showDouble tieUp) parameters frames)
  loaded : s.scene.animatorInitialised = false ∧ s.scene.controller = c ∨
    s.scene.animatorInitialised = true ∧ s.outputFile ≠ none ∧
      ∃ parameters tieUp, Solution sk constraints c parameters ∧
        ShowsArray tieUp parameters c s.scene.controller
  waiting : s.outputFile = none → s.scene.pose = pose ∧ s.scene.frame = 0

theorem sound_initial (h : c.Tagged sk) (hinitialised : c.initialised = true) (pose : Pose ι K) :
    Sound runtime sk constraints c pose (initial c pose) :=
  ⟨h, hinitialised, .inl ⟨rfl, rfl⟩, .inl rfl, .inl ⟨rfl, rfl⟩, fun _ => ⟨rfl, rfl⟩⟩

section Steps

variable {pose : Pose ι K} {s : Together ι K}

/-- The exporter writes before there is anything to load. -/
theorem Sound.exporterUpdate (h : Sound runtime sk constraints c pose s) :
    Sound runtime sk constraints c pose (s.step runtime sk constraints .exporterUpdate) ∧
      (s.step runtime sk constraints .exporterUpdate).scene.exporterInitialised = true := by
  have hsame : s.scene.exporterInitialised = true →
      (Exporter.update runtime sk constraints).exec s.scene = (.ok (), s.scene) := by
    intro hflag
    unfold Exporter.update
    rw [Script.exec_bind_ok (Script.exec_get _), h.initialised, hflag]
    rfl
  have hstep : s.step runtime sk constraints .exporterUpdate =
      { s with scene := ((Exporter.update runtime sk constraints).exec s.scene).2 } := rfl
  rw [hstep]
  rcases h.exported with ⟨hflag, hinput⟩ | ⟨hflag, hinput⟩
  · -- nothing is solved yet, so nothing is loaded, and `c` is exported
    have hnone : s.outputFile = none := by
      rcases h.solved with hnone | ⟨hexported, -⟩
      · exact hnone
      · exact absurd (hflag.symm.trans hexported) (by simp)
    have hcontroller : s.scene.animatorInitialised = false ∧ s.scene.controller = c := by
      rcases h.loaded with hwaits | ⟨-, hsome, -⟩
      · exact hwaits
      · exact absurd hnone hsome
    have hwrites : (Exporter.update runtime sk constraints).exec s.scene =
        (.ok (), { s.scene with
          exporterInitialised := true
          inputFile := some (IStream.terminated
            (Exporter.fileTokens runtime.showFloat sk s.scene.controller constraints)) }) := by
      unfold Exporter.update
      rw [Script.exec_bind_ok (Script.exec_get _), h.initialised, hflag]
      simp [Script.exec_bind, Exporter.writeToFile_eq h.tagged]
    rw [hwrites]
    refine ⟨⟨h.tagged, h.initialised, .inr ⟨rfl, ?_⟩, .inl hnone, .inl hcontroller, h.waiting⟩, rfl⟩
    rw [hcontroller.2]
    rfl
  · rw [hsame hflag]
    exact ⟨h, hflag⟩

theorem Sound.solverRun (h : Sound runtime sk constraints c pose s) (hc : c.Tagged sk)
    (hexportable : Exportable runtime constraints c) (run : SolverRun K) :
    Sound runtime sk constraints c pose (s.step runtime sk constraints (.solverRun run)) ∧
      (s.scene.exporterInitialised = true → run.opens = true →
        (s.step runtime sk constraints (.solverRun run)).outputFile ≠ none) := by
  have hrun : s.step runtime sk constraints (.solverRun run) =
      match run.main s.scene.inputFile with
      | .ok saved => { s with outputFile := some saved }
      | .error _ => s := rfl
  rcases h.exported with ⟨hflag, hinput⟩ | ⟨hflag, hinput⟩
  · obtain ⟨stop, hstop⟩ := main_none run
    rw [hrun, hinput, hstop]
    exact ⟨h, fun hexported => absurd (hflag.symm.trans hexported) (by simp)⟩
  · rw [hrun, hinput]
    rcases main_exported hc hexportable run with
      ⟨hcloses, stop, hstop⟩ | ⟨-, parameters, frames, hsolution, hframes, hsaved⟩
    · rw [hstop]
      exact ⟨h, fun _ hopens => absurd (hcloses.symm.trans hopens) (by simp)⟩
    · rw [hsaved]
      refine ⟨⟨h.tagged, h.initialised, h.exported, .inr ⟨hflag, parameters, run.tieUp, frames,
        hsolution, hframes, rfl⟩, ?_, by simp⟩, by simp⟩
      exact h.loaded.imp_right fun ⟨hloaded, _, hshows⟩ => ⟨hloaded, by simp, hshows⟩

/-- Once there is a solution, posing the bones is harmless. -/
theorem Sound.posed (h : Sound runtime sk constraints c pose s) (hsome : s.outputFile ≠ none)
    (pose' : Pose ι K) (frame : K) :
    Sound runtime sk constraints c pose { s with scene := { s.scene with pose := pose', frame } } :=
  ⟨h.tagged, h.initialised, h.exported, h.solved, h.loaded, fun hnone => absurd hnone hsome⟩

/-- The first solution that is found is loaded. -/
theorem Sound.load (h : Sound runtime sk constraints c pose s) (hc : c.Tagged sk)
    (hpos : 0 < c.numFrames) (hsome : s.outputFile ≠ none)
    (hfirst : s.scene.animatorInitialised = false) :
    ∃ vectors, (Animator.initialise runtime s.outputFile).exec s.scene =
        (.ok (), { s.scene with
          controller := Animator.loaded s.scene.controller vectors, animatorInitialised := true }) ∧
      Sound runtime sk constraints c pose
        { s with scene := { s.scene with
          controller := Animator.loaded s.scene.controller vectors, animatorInitialised := true } } := by
  obtain ⟨hexported, parameters, tieUp, frames, hsolution, hframes, hsaved⟩ :=
    h.solved.resolve_left hsome
  obtain ⟨-, hcontroller⟩ := h.loaded.resolve_right fun hloaded => by simp [hfirst] at hloaded
  obtain ⟨vectors, haccepted, hshows⟩ :=
    Animator.accepted_printed runtime tieUp hc.stored hpos hframes
      (hsolution.solves.length hc)
  rw [← hcontroller] at haccepted
  have hread := Animator.readFromFile_loaded h.tagged.stored haccepted
  refine ⟨vectors, ?_, Animator.loaded_tagged h.tagged,
    h.initialised, h.exported, h.solved, .inr ⟨rfl, hsome, parameters, tieUp, hsolution, ?_⟩,
    fun hnone => absurd hnone hsome⟩
  · rw [Animator.initialise_first hfirst, hsaved, Script.exec_bind_ok hread]
    rfl
  · rw [hcontroller]
    exact hshows

/-- With a solution the animator gets as far as playing, in a scene that differs in
    what was loaded only. -/
theorem Sound.initialise (h : Sound runtime sk constraints c pose s) (hc : c.Tagged sk)
    (hpos : 0 < c.numFrames) (hsome : s.outputFile ≠ none) :
    ∃ controller, (Animator.initialise runtime s.outputFile).exec s.scene =
        (.ok (), { s.scene with controller, animatorInitialised := true }) ∧
      Sound runtime sk constraints c pose
        { s with scene := { s.scene with controller, animatorInitialised := true } } ∧
      controller.numFrames = s.scene.controller.numFrames ∧
      controller.samplingFPS = s.scene.controller.samplingFPS := by
  rcases h.loaded with ⟨hfirst, -⟩ | ⟨hflag, -, -⟩
  · obtain ⟨vectors, hinitialise, hsound⟩ := h.load hc hpos hsome hfirst
    exact ⟨_, hinitialise, hsound, rfl, rfl⟩
  · have hsame : { s.scene with animatorInitialised := true } = s.scene := by rw [← hflag]
    refine ⟨s.scene.controller, ?_, ?_, rfl, rfl⟩
    · rw [hsame]
      exact Animator.initialise_again hflag _
    · rw [hsame]
      exact h

/-- Without one it fails and touches nothing. -/
theorem Sound.missing (h : Sound runtime sk constraints c pose s) (hnone : s.outputFile = none)
    (deltaTime slowMotion : K) :
    (Animator.update runtime sk s.outputFile deltaTime slowMotion).exec s.scene =
      (.error .fileNotFound, s.scene) := by
  have hfirst : s.scene.animatorInitialised = false := by
    rcases h.loaded with ⟨hfirst, -⟩ | ⟨-, hsome, -⟩
    · exact hfirst
    · exact absurd hnone hsome
  have hmissing : (Animator.initialise runtime s.outputFile).exec s.scene =
      (.error .fileNotFound, s.scene) := by
    rw [Animator.initialise_first hfirst, hnone]
    simp [Animator.readFromFile, readAllText, Script.exec_bind]
  rw [Animator.update_exec sk h.initialised, Script.exec_bind_error hmissing]

/-- The animator fails and touches nothing, or it has loaded a solution and plays. -/
theorem Sound.animatorUpdate (h : Sound runtime sk constraints c pose s) (hc : c.Tagged sk)
    (hpos : 0 < c.numFrames) (deltaTime slowMotion : K) :
    Sound runtime sk constraints c pose
        (s.step runtime sk constraints (.animatorUpdate deltaTime slowMotion)) ∧
      (s.outputFile ≠ none →
        (s.step runtime sk constraints
          (.animatorUpdate deltaTime slowMotion)).scene.animatorInitialised = true) := by
  have hstep : s.step runtime sk constraints (.animatorUpdate deltaTime slowMotion) =
      { s with scene :=
        ((Animator.update runtime sk s.outputFile deltaTime slowMotion).exec s.scene).2 } := rfl
  rw [hstep]
  by_cases hnone : s.outputFile = none
  · rw [h.missing hnone]
    exact ⟨h, fun hsome => absurd hnone hsome⟩
  · obtain ⟨controller, hinitialise, hsound, -⟩ := h.initialise hc hpos hnone
    obtain ⟨result, pose', hplay⟩ := Scene.play_exec sk deltaTime slowMotion
      { s.scene with controller, animatorInitialised := true }
    rw [Animator.update_exec sk h.initialised, Script.exec_bind_ok hinitialise, hplay]
    exact ⟨hsound.posed hnone pose' _, fun _ => rfl⟩

end Steps

/-! ## Whole runs -/

section Whole

variable {pose : Pose ι K} (h : c.Tagged sk) (hexportable : Exportable runtime constraints c)
include h hexportable

theorem Sound.step {s : Together ι K} (hs : Sound runtime sk constraints c pose s) (a : Action K) :
    Sound runtime sk constraints c pose (s.step runtime sk constraints a) := by
  cases a with
  | exporterUpdate => exact hs.exporterUpdate.1
  | solverRun run => exact (hs.solverRun h hexportable run).1
  | animatorUpdate deltaTime slowMotion =>
    exact (hs.animatorUpdate h hexportable.frames deltaTime slowMotion).1

/-- What no action of the run takes away from a sound state stays for good. -/
theorem run_keeps {P : Together ι K → Prop} (actions : List (Action K))
    (hP : ∀ a ∈ actions, ∀ s, Sound runtime sk constraints c pose s → P s →
      P (s.step runtime sk constraints a))
    {s : Together ι K} (hs : Sound runtime sk constraints c pose s) (hstart : P s) :
    Sound runtime sk constraints c pose (run runtime sk constraints s actions) ∧
      P (run runtime sk constraints s actions) := by
  induction actions generalizing s with
  | nil => exact ⟨hs, hstart⟩
  | cons a actions ih =>
    exact ih (fun b hb => hP b (List.mem_cons_of_mem a hb)) (hs.step h hexportable a)
      (hP a List.mem_cons_self s hs hstart)

theorem run_sound {s : Together ι K} (hs : Sound runtime sk constraints c pose s)
    (actions : List (Action K)) :
    Sound runtime sk constraints c pose (run runtime sk constraints s actions) :=
  (run_keeps h hexportable (P := fun _ => True) actions (fun _ _ _ _ _ => trivial) hs trivial).1

omit h hexportable in
/-- What is exported stays exported. -/
theorem exported_stays (s : Together ι K) (a : Action K) (hs : Sound runtime sk constraints c pose s)
    (hflag : s.scene.exporterInitialised = true) :
    (s.step runtime sk constraints a).scene.exporterInitialised = true := by
  cases a with
  | exporterUpdate => exact hs.exporterUpdate.2
  | solverRun run =>
    unfold Together.step
    simp only
    split
    · exact hflag
    · exact hflag
  | animatorUpdate deltaTime slowMotion =>
    obtain ⟨_, _, _, _, _, hstep, -⟩ := Scene.step_animatorUpdate runtime constraints hs.tagged
      s.outputFile deltaTime slowMotion
    unfold Together.step
    simp only [hstep]
    exact hflag

omit h hexportable in
theorem solved_stays (s : Together ι K) (a : Action K) (hsome : s.outputFile ≠ none) :
    (s.step runtime sk constraints a).outputFile ≠ none := by
  cases a with
  | exporterUpdate => exact hsome
  | solverRun run =>
    unfold Together.step
    simp only
    split
    · simp
    · exact hsome
  | animatorUpdate deltaTime slowMotion => exact hsome

theorem loaded_stays (s : Together ι K) (a : Action K) (hs : Sound runtime sk constraints c pose s)
    (hflag : s.scene.animatorInitialised = true) :
    (s.step runtime sk constraints a).scene.animatorInitialised = true := by
  have hsome : s.outputFile ≠ none := by
    rcases hs.loaded with ⟨hfirst, -⟩ | ⟨-, hsome, -⟩
    · exact absurd (hfirst.symm.trans hflag) (by simp)
    · exact hsome
  cases a with
  | exporterUpdate =>
    rcases Scene.step_exporterUpdate runtime constraints hs.tagged with hstep | ⟨-, hstep⟩
    · unfold Together.step
      simp only [hstep]
      exact hflag
    · unfold Together.step
      simp only [hstep]
      exact hflag
  | solverRun run =>
    unfold Together.step
    simp only
    split
    · exact hflag
    · exact hflag
  | animatorUpdate deltaTime slowMotion =>
    exact (hs.animatorUpdate h hexportable.frames deltaTime slowMotion).2 hsome

end Whole

/-- In every order of actions from the start of a scene that nothing was solved for:
    the only input file is that of the recorded clip. As long as there is no solution,
    nothing is loaded and no bone is posed. When the animator has loaded, all
    positions it shows are those of one array that costs no more than the recorded
    ones, to six digits. -/
theorem run_shows_solution {clip : AnimationClip ι K} {samplingFPS : Int} {pose pose' : Pose ι K}
    {fuel : Nat} (hstart : SmoothMotionController.start sk clip samplingFPS pose fuel = some (c, pose'))
    (hexportable : Exportable runtime constraints c) (actions : List (Action K)) :
    let s := run runtime sk constraints (initial c pose') actions
    (s.scene.inputFile = none ∨ s.scene.inputFile = some (exported runtime sk constraints c)) ∧
      (s.outputFile = none →
        s.scene.controller = c ∧ s.scene.pose = pose' ∧ s.scene.frame = 0) ∧
      (s.scene.animatorInitialised = false → s.scene.controller = c) ∧
      (s.scene.animatorInitialised = true → ∃ parameters tieUp,
        Solves sk constraints c parameters ∧ ShowsArray tieUp parameters c s.scene.controller) := by
  intro s
  have hc : c.Tagged sk := SmoothMotionController.start_tagged hstart
  have hsound : Sound runtime sk constraints c pose' s := run_sound hc hexportable
    (sound_initial hc (SmoothMotionController.start_initialised hstart).1 pose') actions
  refine ⟨?_, fun hnone => ?_, fun hfirst => ?_, fun hflag => ?_⟩
  · exact hsound.exported.imp (·.2) (·.2)
  · rcases hsound.loaded with ⟨-, hcontroller⟩ | ⟨-, hsome, -⟩
    · exact ⟨hcontroller, hsound.waiting hnone⟩
    · exact absurd hnone hsome
  · rcases hsound.loaded with ⟨-, hcontroller⟩ | ⟨hflag, -⟩
    · exact hcontroller
    · exact absurd (hfirst.symm.trans hflag) (by simp)
  · rcases hsound.loaded with ⟨hfirst, -⟩ | ⟨-, -, hshows⟩
    · exact absurd (hfirst.symm.trans hflag) (by simp)
    · exact hshows.imp fun _ h => h.imp fun _ h => ⟨h.1.solves, h.2⟩

section TwoBones

/-- A solver for the two resting bones. -/
def walkSolver : SolverRun ℚ where
  platform := win64
  machine := Ceres.diagonalMachine
  tieUp := CeresWrapper.toEven
  memory := Uninitialised.zeros
  filename := "walk"
  opens := true

theorem exportable_resting :
    Exportable Runtime.whole [⟨⟨0, 0, 0⟩, 1, ⟨0, 1, 0⟩⟩] restingController where
  frames := by decide
  bones := by decide
  planes := by decide
  fit := by decide
  readBack := by
    have hnumbers : Exporter.exportedNumbers restingController [⟨⟨0, 0, 0⟩, 1, ⟨0, 1, 0⟩⟩] =
        [0, 0, 0, 5, 0, 0, 0, 0, 0, 0, 1, 0] := by
      simp [Exporter.exportedNumbers, Exporter.positionNumbers, Exporter.colliderNumbers,
        restingController, SmoothMotionBone.stored, PlaneCollisionConstraint.worldNormal,
        Vector3d.toList]
    rw [hnumbers]
    decide +kernel

end TwoBones

/-- The animator before the solver, and the exporter once more after both. -/
theorem run_shows_solution_twoBones :
    let constraints : List (PlaneCollisionConstraint ℚ) := [⟨⟨0, 0, 0⟩, 1, ⟨0, 1, 0⟩⟩]
    let s := run Runtime.whole twoBones constraints (initial restingController restingPose)
      [.animatorUpdate 1 1, .exporterUpdate, .solverRun walkSolver, .animatorUpdate 1 1,
        .exporterUpdate]
    (s.scene.inputFile = none ∨
        s.scene.inputFile = some (exported Runtime.whole twoBones constraints restingController)) ∧
      (s.scene.animatorInitialised = true → ∃ parameters tieUp,
        Solves twoBones constraints restingController parameters ∧
          ShowsArray tieUp parameters restingController s.scene.controller) := by
  intro constraints
  obtain ⟨hinput, -, -, hshows⟩ := run_shows_solution (restingController_start restingPose)
    exportable_resting [.animatorUpdate 1 1, .exporterUpdate, .solverRun walkSolver,
      .animatorUpdate 1 1, .exporterUpdate]
  exact ⟨hinput, hshows⟩

/-- Whatever else happens before, between and after: once the exporter, a solver that
    may write and the animator have acted in this order, a solution is loaded. -/
theorem run_loads {clip : AnimationClip ι K} {samplingFPS : Int} {pose pose' : Pose ι K}
    {fuel : Nat} (hstart : SmoothMotionController.start sk clip samplingFPS pose fuel = some (c, pose'))
    (hexportable : Exportable runtime constraints c) {solver : SolverRun K}
    (hopens : solver.opens = true) (deltaTime slowMotion : K)
    (before betweenExport betweenSolve after : List (Action K)) :
    let s := run runtime sk constraints (initial c pose') (before ++ .exporterUpdate ::
      (betweenExport ++ .solverRun solver ::
        (betweenSolve ++ .animatorUpdate deltaTime slowMotion :: after)))
    s.scene.animatorInitialised = true := by
  have hc : c.Tagged sk := SmoothMotionController.start_tagged hstart
  have hinitial : Sound runtime sk constraints c pose' (initial c pose') :=
    sound_initial hc (SmoothMotionController.start_initialised hstart).1 pose'
  simp only [run, List.foldl_append, List.foldl_cons]
  have hbefore := run_sound hc hexportable hinitial before
  obtain ⟨hsound, hexported⟩ := run_keeps hc hexportable
    (P := fun s => s.scene.exporterInitialised = true) betweenExport
    (fun a _ s hs => exported_stays s a hs) hbefore.exporterUpdate.1 hbefore.exporterUpdate.2
  obtain ⟨hsound, hsolved⟩ := run_keeps hc hexportable (P := fun s => s.outputFile ≠ none)
    betweenSolve (fun a _ s _ => solved_stays s a) (hsound.solverRun hc hexportable solver).1
    ((hsound.solverRun hc hexportable solver).2 hexported hopens)
  have hload := hsound.animatorUpdate hc hexportable.frames deltaTime slowMotion
  exact (run_keeps hc hexportable (P := fun s => s.scene.animatorInitialised = true)
    after (fun a _ s hs => loaded_stays hc hexportable s a hs) hload.1
    (hload.2 hsolved)).2

/-- The animator tries in vain, and then once more. -/
theorem run_loads_twoBones :
    (run Runtime.whole twoBones [⟨⟨0, 0, 0⟩, 1, ⟨0, 1, 0⟩⟩] (initial restingController restingPose)
      ([.animatorUpdate 1 1] ++ .exporterUpdate :: ([.animatorUpdate 1 1] ++
        .solverRun walkSolver :: ([] ++ .animatorUpdate 1 1 :: [])))).scene.animatorInitialised =
      true :=
  run_loads (restingController_start restingPose) exportable_resting rfl 1 1 [.animatorUpdate 1 1]
    [.animatorUpdate 1 1] [] []

end Together
