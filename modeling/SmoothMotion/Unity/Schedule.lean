-- SUMMARY: Runs of a scene: the Updates of exporter and animator in any order, and what every reachable scene satisfies.
import Mathlib.Logic.Relation
import SmoothMotion.Unity.Exporter
import SmoothMotion.Unity.Loading

open CSharp Decimal

/-!
# Schedules

Unity calls the two Updates in an order of its own, once a frame, and the file
that the animator reads may be another one at every call. A scene is reachable
if some order of calls leads to it from the scene in which the controller has
just started. An exception costs the rest of the call, not the run.
-/

/-- `SmoothMotionAnimationExporter.Update`. -/
def Exporter.update {ι K : Type} [DecidableEq ι] [Scalar K] (runtime : Runtime K)
    (sk : Skeleton ι K) (constraints : List (PlaneCollisionConstraint K)) :
    Script Exn (Scene ι K) Unit := do
  let s ← get
  if s.controller.initialised = false then return ()
  else if s.exporterInitialised = false then
    let (output, entries) ←
      liftExcept (writeToFile runtime.showFloat sk s.controller constraints)
    modify fun s => { s.logged entries with inputFile := some output }
    modify fun s => { s with exporterInitialised := true }

/-- A call of one of the Updates, with what it finds outside the scene. -/
inductive Event (K : Type) where
  | exporterUpdate
  | animatorUpdate (file : Option Text) (deltaTime slowMotion : K)

namespace Scene

variable {ι K : Type} [DecidableEq ι] [Scalar K]

section Runs

variable (runtime : Runtime K) (sk : Skeleton ι K) (constraints : List (PlaneCollisionConstraint K))

/-- The scene after the call, whether it returns or throws. -/
def step (s : Scene ι K) : Event K → Scene ι K
  | .exporterUpdate => ((Exporter.update runtime sk constraints).exec s).2
  | .animatorUpdate file deltaTime slowMotion =>
    ((Animator.update runtime sk file deltaTime slowMotion).exec s).2

/-- How the call ends. -/
def result (s : Scene ι K) : Event K → Except Exn Unit
  | .exporterUpdate => ((Exporter.update runtime sk constraints).exec s).1
  | .animatorUpdate file deltaTime slowMotion =>
    ((Animator.update runtime sk file deltaTime slowMotion).exec s).1

/-- The scene after the calls, one after the other. -/
def run (s : Scene ι K) (events : List (Event K)) : Scene ι K :=
  events.foldl (step runtime sk constraints) s

/-- The scenes that runs of allowed calls lead to. -/
def Reachable (allowed : Scene ι K → Event K → Prop) : Scene ι K → Scene ι K → Prop :=
  Relation.ReflTransGen fun s s' => ∃ e, allowed s e ∧ step runtime sk constraints s e = s'

end Runs

variable {runtime : Runtime K} {sk : Skeleton ι K} {constraints : List (PlaneCollisionConstraint K)}
  {allowed : Scene ι K → Event K → Prop} {s₀ s s' : Scene ι K}

/-- What holds at the start and what allowed calls preserve holds of every
    reachable scene. -/
theorem Reachable.invariant {P : Scene ι K → Prop}
    (hreach : Reachable runtime sk constraints allowed s₀ s) (hinit : P s₀)
    (hstep : ∀ s e, P s → allowed s e → P (step runtime sk constraints s e)) : P s := by
  induction hreach with
  | refl => exact hinit
  | tail _ hlast ih =>
    obtain ⟨e, hallowed, rfl⟩ := hlast
    exact hstep _ e ih hallowed

/-- One more call. -/
theorem Reachable.call (hreach : Reachable runtime sk constraints allowed s₀ s) {e : Event K}
    (he : allowed s e) : Reachable runtime sk constraints allowed s₀ (step runtime sk constraints s e) :=
  hreach.tail ⟨e, he, rfl⟩

@[simp] theorem run_snoc (events : List (Event K)) (e : Event K) :
    run runtime sk constraints s (events ++ [e]) =
      step runtime sk constraints (run runtime sk constraints s events) e := by
  simp [run]

variable (runtime sk constraints s) in
theorem run_reachable (events : List (Event K)) :
    Reachable runtime sk constraints (fun _ _ => True) s (run runtime sk constraints s events) := by
  induction events using List.reverseRecOn with
  | nil => exact .refl
  | append_singleton events e ih =>
    rw [run_snoc]
    exact ih.call trivial

/-! ## What one call can do -/

section Calls

variable (runtime constraints)

/-- The exporter writes once, and touches nothing but its file and its flag. -/
theorem exporter_update_exec (h : s.controller.Tagged sk) :
    (Exporter.update runtime sk constraints).exec s = (.ok (), s) ∨
      s.exporterInitialised = false ∧
      (Exporter.update runtime sk constraints).exec s = (.ok (), { s with
          exporterInitialised := true
          inputFile := some (IStream.terminated
            (Exporter.fileTokens runtime.showFloat sk s.controller constraints)) }) := by
  unfold Exporter.update
  rw [Script.exec_bind_ok (Script.exec_get s)]
  cases s.controller.initialised with
  | false => exact .inl rfl
  | true =>
    cases hflag : s.exporterInitialised with
    | true => exact .inl rfl
    | false =>
      refine .inr ⟨rfl, ?_⟩
      simp [Script.exec_bind, Exporter.writeToFile_eq h, logged]

theorem step_exporterUpdate (h : s.controller.Tagged sk) :
    step runtime sk constraints s .exporterUpdate = s ∨
      s.exporterInitialised = false ∧
      step runtime sk constraints s .exporterUpdate =
        { s with
          exporterInitialised := true
          inputFile := some (IStream.terminated
            (Exporter.fileTokens runtime.showFloat sk s.controller constraints)) } := by
  rcases exporter_update_exec runtime constraints h with hupdate | ⟨hflag, hupdate⟩
  · exact .inl (congrArg Prod.snd hupdate)
  · exact .inr ⟨hflag, congrArg Prod.snd hupdate⟩

theorem result_exporterUpdate (h : s.controller.Tagged sk) :
    result runtime sk constraints s .exporterUpdate = .ok () := by
  rcases exporter_update_exec runtime constraints h with hupdate | ⟨-, hupdate⟩
  · exact congrArg Prod.fst hupdate
  · exact congrArg Prod.fst hupdate

/-- A call of the animator throws what its first part throws, or else what its
    second part does. -/
theorem result_animatorUpdate (hinitialised : s.controller.initialised = true)
    (file : Option Text) (deltaTime slowMotion : K) :
    result runtime sk constraints s (.animatorUpdate file deltaTime slowMotion) =
      match (Animator.initialise runtime file).exec s with
      | (.ok _, s') => ((Animator.play sk deltaTime slowMotion).exec s').1
      | (.error e, _) => .error e := by
  change ((Animator.update runtime sk file deltaTime slowMotion).exec s).1 = _
  rw [Animator.update_exec sk hinitialised, Script.exec_bind]
  rcases (Animator.initialise runtime file).exec s with ⟨e | u, s'⟩
  · rfl
  · rfl

/-- Posing the bones writes nothing but the pose. -/
theorem setFrames_exec (sk : Skeleton ι K) (frame : K) (bones : List (SmoothMotionBone ι K)) (s : Scene ι K) :
    ∃ result pose, (Animator.setFrames sk frame bones).exec s = (result, { s with pose }) := by
  induction bones generalizing s with
  | nil => exact ⟨.ok (), s.pose, rfl⟩
  | cons bone bones ih =>
    unfold Animator.setFrames
    rw [Script.exec_bind_ok (Script.exec_get s)]
    cases hset : bone.setFrame sk frame s.pose with
    | error e => exact ⟨.error e, s.pose, by simp [Script.exec_bind]⟩
    | ok pose =>
      obtain ⟨result, pose', hrest⟩ := ih { s with pose }
      exact ⟨result, pose', by simpa [Script.exec_bind] using hrest⟩

theorem play_exec (sk : Skeleton ι K) (deltaTime slowMotion : K) (s : Scene ι K) :
    ∃ result pose, (Animator.play sk deltaTime slowMotion).exec s = (result, { s with
      pose
      frame := s.frame + deltaTime * s.controller.samplingFPS * slowMotion }) :=
  setFrames_exec sk (s.frame + deltaTime * s.controller.samplingFPS * slowMotion)
    s.controller.bones
    { s with frame := s.frame + deltaTime * s.controller.samplingFPS * slowMotion }

omit [DecidableEq ι] in
/-- What the first call may do before it poses the bones. -/
theorem initialise_exec (h : s.controller.Tagged sk) (file : Option Text) :
    ∃ result controller animatorInitialised log,
      (Animator.initialise runtime file).exec s =
        (result, { s with controller, animatorInitialised, log }) ∧
      (controller = s.controller ∨
        s.animatorInitialised = false ∧ ∃ vectors,
          Animator.accepted runtime s.controller file = some vectors ∧
          controller = Animator.loaded s.controller vectors) := by
  cases hflag : s.animatorInitialised with
  | true => exact ⟨_, _, _, _, Animator.initialise_again hflag file, .inl rfl⟩
  | false =>
    rw [Animator.initialise_first hflag]
    rcases Animator.readFromFile_cases h.stored file with
      ⟨-, result, entries, hread, -⟩ | ⟨vectors, haccepted, hread⟩
    · cases result with
      | error e => exact ⟨_, _, _, _, Script.exec_bind_error hread _, .inl rfl⟩
      | ok u => exact ⟨_, _, _, _, Script.exec_bind_ok hread _, .inl rfl⟩
    · exact ⟨_, _, _, _, Script.exec_bind_ok hread _, .inr ⟨rfl, vectors, haccepted, rfl⟩⟩

/-- The animator may load the solution, and otherwise leaves the controller and
    the exporter's part of the scene alone. -/
theorem step_animatorUpdate (h : s.controller.Tagged sk) (file : Option Text)
    (deltaTime slowMotion : K) :
    ∃ controller pose animatorInitialised frame log,
      step runtime sk constraints s (.animatorUpdate file deltaTime slowMotion) =
        { s with controller, pose, animatorInitialised, frame, log } ∧
      (controller = s.controller ∨
        s.animatorInitialised = false ∧ ∃ vectors,
          Animator.accepted runtime s.controller file = some vectors ∧
          controller = Animator.loaded s.controller vectors) := by
  unfold step
  cases hinitialised : s.controller.initialised with
  | false =>
    exact ⟨s.controller, s.pose, s.animatorInitialised, s.frame, s.log,
      by simp [Animator.update, Script.exec_bind, hinitialised], .inl rfl⟩
  | true =>
    simp only [Animator.update_exec sk hinitialised]
    obtain ⟨result, controller, animatorInitialised, log, hload, hcontroller⟩ :=
      initialise_exec runtime h file
    cases result with
    | error e =>
      exact ⟨controller, s.pose, animatorInitialised, s.frame, log,
        by rw [Script.exec_bind_error hload], hcontroller⟩
    | ok u =>
      obtain ⟨result, pose, hplay⟩ := play_exec sk deltaTime slowMotion
        { s with controller, animatorInitialised, log }
      exact ⟨controller, pose, animatorInitialised,
        s.frame + deltaTime * controller.samplingFPS * slowMotion, log,
        by rw [Script.exec_bind_ok hload, hplay], hcontroller⟩

/-! ## Every reachable scene is tagged -/

/-- A call leaves the controller alone or loads a solution into it. -/
theorem step_controller (h : s.controller.Tagged sk) (e : Event K) :
    (step runtime sk constraints s e).controller = s.controller ∨
      ∃ vectors, (step runtime sk constraints s e).controller =
        Animator.loaded s.controller vectors := by
  cases e with
  | exporterUpdate =>
    rcases step_exporterUpdate runtime constraints h with hstep | ⟨-, hstep⟩
    · rw [hstep]
      exact .inl rfl
    · rw [hstep]
      exact .inl rfl
  | animatorUpdate file deltaTime slowMotion =>
    obtain ⟨controller, pose, animatorInitialised, frame, log, hstep, hcontroller⟩ :=
      step_animatorUpdate runtime constraints h file deltaTime slowMotion
    rw [hstep]
    rcases hcontroller with rfl | ⟨-, vectors, -, rfl⟩
    · exact .inl rfl
    · exact .inr ⟨vectors, rfl⟩

theorem step_tagged (h : s.controller.Tagged sk) (e : Event K) :
    (step runtime sk constraints s e).controller.Tagged sk := by
  rcases step_controller runtime constraints h e with hsame | ⟨vectors, hloaded⟩
  · rwa [hsame]
  · rw [hloaded]
    exact Animator.loaded_tagged h

/-- No call changes the number of frames, the sampling rate or the flag. -/
theorem step_counts (h : s.controller.Tagged sk) (e : Event K) :
    (step runtime sk constraints s e).controller.numFrames = s.controller.numFrames ∧
      (step runtime sk constraints s e).controller.samplingFPS = s.controller.samplingFPS ∧
      (step runtime sk constraints s e).controller.initialised = s.controller.initialised := by
  rcases step_controller runtime constraints h e with hsame | ⟨vectors, hloaded⟩
  · rw [hsame]
    exact ⟨rfl, rfl, rfl⟩
  · rw [hloaded]
    exact ⟨rfl, rfl, rfl⟩

end Calls

theorem Reachable.tagged (hreach : Reachable runtime sk constraints allowed s₀ s)
    (h : s₀.controller.Tagged sk) : s.controller.Tagged sk :=
  hreach.invariant (P := fun s => s.controller.Tagged sk) h
    fun _ e h _ => step_tagged runtime constraints h e

theorem Reachable.counts (hreach : Reachable runtime sk constraints allowed s₀ s)
    (h : s₀.controller.Tagged sk) : s.controller.numFrames = s₀.controller.numFrames ∧
      s.controller.samplingFPS = s₀.controller.samplingFPS ∧
      s.controller.initialised = s₀.controller.initialised := by
  refine (hreach.invariant (P := fun s => s.controller.Tagged sk ∧
    s.controller.numFrames = s₀.controller.numFrames ∧
    s.controller.samplingFPS = s₀.controller.samplingFPS ∧
    s.controller.initialised = s₀.controller.initialised) ⟨h, rfl, rfl, rfl⟩ ?_).2
  rintro s e ⟨htagged, hframes, hfps, hinitialised⟩ -
  obtain ⟨hframes', hfps', hinitialised'⟩ := step_counts runtime constraints htagged e
  exact ⟨step_tagged runtime constraints htagged e, hframes'.trans hframes, hfps'.trans hfps,
    hinitialised'.trans hinitialised⟩

/-- In every run of the scene that `Start` leaves, whatever the file holds then,
    `ReadFromFile` changes no stored frame, or replaces every stored position by
    the file's and nothing else. No index is out of range, and no bone reports
    that its frames were exceeded. -/
theorem readFromFile_atomic {clip : AnimationClip ι K} {samplingFPS : Int} {pose pose' : Pose ι K}
    {fuel : Nat} {c : SmoothMotionController ι K}
    (hstart : SmoothMotionController.start sk clip samplingFPS pose fuel = some (c, pose'))
    (hreach : Reachable runtime sk constraints allowed (initial c pose') s) (file : Option Text) :
    ∃ result s', (Animator.readFromFile runtime file).exec s = (result, s') ∧
      (s'.controller = s.controller ∨ ∃ content, file = some content ∧
        Animator.LoadedFrom runtime (content.splitOn ' ') s.controller s'.controller) ∧
      result ≠ .error .argumentOutOfRange ∧
      ∃ entries, s'.log = s.log ++ entries ∧
        .error "Failed to override bone position, exceeded framecount" ∉ entries := by
  have htagged : s.controller.Tagged sk :=
    hreach.tagged (SmoothMotionController.start_tagged hstart)
  rcases Animator.readFromFile_cases htagged.stored file with
    ⟨-, result, entries, hread, hresult, hwarnings⟩ | ⟨vectors, haccepted, hread⟩
  · refine ⟨result, _, hread, .inl rfl, hresult, entries, rfl, fun hmem => ?_⟩
    obtain ⟨text, htext⟩ := hwarnings _ hmem
    cases htext
  · cases file with
    | none => cases haccepted
    | some content =>
      exact ⟨.ok (), _, hread,
        .inr ⟨content, rfl, Animator.loaded_loadedFrom htagged.stored haccepted⟩, by simp,
        [], by simp, by simp⟩

/-- A file for two bones and one frame. -/
theorem readFromFile_atomic_twoBones :
    ∃ result s', (Animator.readFromFile Runtime.whole
        (some "1 7 8 9 4 5 6".toList)).exec (initial restingController restingPose) = (result, s') ∧
      (s'.controller = restingController ∨ ∃ content, some "1 7 8 9 4 5 6".toList = some content ∧
        Animator.LoadedFrom Runtime.whole (content.splitOn ' ')
          restingController s'.controller) ∧
      result ≠ .error .argumentOutOfRange ∧
      ∃ entries, s'.log = [] ++ entries ∧
        .error "Failed to override bone position, exceeded framecount" ∉ entries :=
  readFromFile_atomic (restingController_start restingPose)
    (Relation.ReflTransGen.refl : Reachable _ twoBones [] (fun _ _ => True) _ _)
    (some "1 7 8 9 4 5 6".toList)

/-! ## The exported file -/

omit [DecidableEq ι] in
/-- After a load the stored positions are the vectors that were loaded. -/
theorem positionNumbers_loaded {c : SmoothMotionController ι K} {vectors : List (Vector3d K)}
    (hstored : ∀ bone ∈ c.bones, bone.stored.length = c.numFrames)
    (hcount : c.bones.length * c.numFrames ≤ vectors.length) :
    Exporter.positionNumbers (Animator.loaded c vectors) =
      (vectors.take (c.bones.length * c.numFrames)).flatMap Vector3d.toList := by
  have hpositions : Exporter.positionNumbers (Animator.loaded c vectors) =
      ((Animator.loaded c vectors).bones.flatMap fun bone =>
        bone.stored.map (·.position)).flatMap Vector3d.toList := by
    simp only [Exporter.positionNumbers, List.flatMap_assoc, List.flatMap_map]
  have hlength : ∀ bone ∈ (Animator.loaded c vectors).bones,
      (bone.stored.map (·.position)).length = c.numFrames := by
    intro bone hbone
    rw [List.length_map]
    exact Animator.loaded_stored hstored bone hbone
  rw [hpositions]
  congr 1
  apply List.ext_getElem?
  intro k
  by_cases hk : k < c.bones.length * c.numFrames
  · have hpos : 0 < c.numFrames := Nat.pos_of_ne_zero fun hzero => by simp [hzero] at hk
    have hb : k / c.numFrames < c.bones.length := (Nat.div_lt_iff_lt_mul hpos).mpr hk
    have hf : k % c.numFrames < c.numFrames := Nat.mod_lt _ hpos
    have hbone : c.bones[k / c.numFrames]? = some c.bones[k / c.numFrames] :=
      List.getElem?_eq_getElem hb
    have hlen : k % c.numFrames < c.bones[k / c.numFrames].stored.length := by
      rw [hstored _ (List.getElem_mem hb)]
      exact hf
    have hinfo := List.getElem?_eq_getElem hlen
    rw [List.getElem?_take_of_lt hk, ← Nat.div_add_mod' k c.numFrames,
      Grid.getElem?_flatMap hlength hf, Animator.getElem?_loaded_bones, hbone, Option.map_some,
      Option.bind_some, List.getElem?_map,
      SmoothMotionBone.getElem?_overridden_stored _ _ _ hinfo hf, Option.map_some,
      Animator.vectorFor, Nat.div_add_mod']
    simp [List.getElem?_eq_getElem (hk.trans_le hcount)]
  · rw [List.getElem?_eq_none, List.getElem?_eq_none]
    · simp
      omega
    · rw [Grid.length_flatMap hlength, Animator.length_loaded_bones]
      omega

/-- A call that leaves the positions to be exported as they were sampled: the
    file is written already, the animator has loaded already, or what it may load
    now prints as the stored positions print. -/
def Harmless (runtime : Runtime K) (s : Scene ι K) : Event K → Prop
  | .exporterUpdate => True
  | .animatorUpdate file _ _ =>
    s.exporterInitialised = true ∨ s.animatorInitialised = true ∨
      ∀ vectors, Animator.accepted runtime s.controller file = some vectors →
        ((vectors.take (s.controller.bones.length * s.controller.numFrames)).flatMap
          Vector3d.toList).map runtime.showFloat =
            (Exporter.positionNumbers s.controller).map runtime.showFloat

/-- A scene in a run of harmless calls that started with controller `c`: the file
    is written for `c`, or it will be. -/
structure Exports (runtime : Runtime K) (sk : Skeleton ι K)
    (constraints : List (PlaneCollisionConstraint K)) (c : SmoothMotionController ι K)
    (s : Scene ι K) : Prop where
  tagged : s.controller.Tagged sk
  written : s.inputFile = none ∨ s.inputFile =
    some (IStream.terminated (Exporter.fileTokens runtime.showFloat sk c constraints))
  pending : s.exporterInitialised = false →
    Exporter.fileTokens runtime.showFloat sk s.controller constraints =
      Exporter.fileTokens runtime.showFloat sk c constraints

/-- A load that prints as the stored positions do leaves the text of the file. -/
theorem fileTokens_loaded {c : SmoothMotionController ι K} {vectors : List (Vector3d K)}
    (hstored : ∀ bone ∈ c.bones, bone.stored.length = c.numFrames)
    (hcount : c.bones.length * c.numFrames ≤ vectors.length)
    (hprint : ((vectors.take (c.bones.length * c.numFrames)).flatMap Vector3d.toList).map
      runtime.showFloat = (Exporter.positionNumbers c).map runtime.showFloat) :
    Exporter.fileTokens runtime.showFloat sk (Animator.loaded c vectors) constraints =
      Exporter.fileTokens runtime.showFloat sk c constraints := by
  simp only [Exporter.fileTokens, Exporter.exportedNumbers, List.map_append,
    positionNumbers_loaded hstored hcount, hprint, Animator.length_loaded_bones,
    Animator.loaded_numFrames]

theorem step_exports {c : SmoothMotionController ι K} (h : Exports runtime sk constraints c s)
    {e : Event K} (he : Harmless runtime s e) :
    Exports runtime sk constraints c (step runtime sk constraints s e) := by
  have htagged := step_tagged runtime constraints h.tagged e
  cases e with
  | exporterUpdate =>
    rcases step_exporterUpdate runtime constraints h.tagged with
      hstep | ⟨hflag, hstep⟩
    · rw [hstep]
      exact h
    · rw [hstep] at htagged ⊢
      refine ⟨htagged, .inr ?_, by simp⟩
      rw [h.pending hflag]
  | animatorUpdate file deltaTime slowMotion =>
    obtain ⟨controller, pose, animatorInitialised, frame, log, hstep, hcontroller⟩ :=
      step_animatorUpdate runtime constraints h.tagged file deltaTime
        slowMotion
    rw [hstep] at htagged ⊢
    refine ⟨htagged, h.written, fun hflag => ?_⟩
    rcases hcontroller with rfl | ⟨hfirst, vectors, haccepted, rfl⟩
    · exact h.pending hflag
    · rcases he with hwritten | hloaded | hprint
      · cases hflag.symm.trans hwritten
      · cases hfirst.symm.trans hloaded
      · cases file with
        | none => cases haccepted
        | some content =>
          refine Eq.trans ?_ (h.pending hflag)
          exact fileTokens_loaded h.tagged.stored (Animator.accepted_length haccepted)
            (hprint vectors haccepted)

/-- In every run of harmless calls the exporter writes what it would have written
    at once: the positions that were sampled from the clip. -/
theorem inputFile_of_harmless {clip : AnimationClip ι K} {samplingFPS : Int}
    {pose pose' : Pose ι K} {fuel : Nat} {c : SmoothMotionController ι K}
    (hstart : SmoothMotionController.start sk clip samplingFPS pose fuel = some (c, pose'))
    (hreach : Reachable runtime sk constraints (Harmless runtime) (initial c pose') s) :
    s.inputFile = none ∨ ∃ text,
      Exporter.writeToFile runtime.showFloat sk c constraints = .ok (text, []) ∧
        s.inputFile = some text := by
  have htagged : c.Tagged sk := SmoothMotionController.start_tagged hstart
  have hinit : Exports runtime sk constraints c (initial c pose') := ⟨htagged, .inl rfl, fun _ => rfl⟩
  have hexports : Exports runtime sk constraints c s :=
    hreach.invariant hinit fun _ _ h he => step_exports h he
  rcases hexports.written with hnone | hsome
  · exact .inl hnone
  · exact .inr ⟨_, Exporter.writeToFile_eq htagged constraints, hsome⟩

/-- The exporter before the animator. -/
theorem inputFile_of_harmless_exportedFirst :
    let s := step Runtime.whole twoBones []
      (step Runtime.whole twoBones []
        (initial restingController restingPose) .exporterUpdate)
      (.animatorUpdate (some "1 9 9 9 9 9 9".toList) 0 1)
    s.inputFile = none ∨ ∃ text,
      Exporter.writeToFile Runtime.whole.showFloat twoBones restingController [] =
        .ok (text, []) ∧ s.inputFile = some text := by
  have hfirst : Harmless Runtime.whole
      (initial restingController restingPose) .exporterUpdate := trivial
  have hsecond : Harmless Runtime.whole
      (step Runtime.whole twoBones []
        (initial restingController restingPose) .exporterUpdate)
      (.animatorUpdate (some "1 9 9 9 9 9 9".toList) 0 1) := .inl (by decide +kernel)
  have hreach : Reachable Runtime.whole twoBones [] (Harmless Runtime.whole)
      (initial restingController restingPose) _ := (Reachable.call .refl hfirst).call hsecond
  exact inputFile_of_harmless (restingController_start restingPose) hreach

/-- The animator before the exporter, with a solution of an earlier run at hand:
    the file that is written holds the solution, not the samples. -/
theorem inputFile_after_load :
    SmoothMotionController.start twoBones restingClip 1 restingPose 1 =
      some (restingController, restingPose) ∧
    Exporter.writeToFile Runtime.whole.showFloat twoBones restingController [] =
      .ok ("2 1 0 0 0 0 5 0 0 0 0 ".toList, []) ∧
    ∃ s, Reachable Runtime.whole twoBones [] (fun _ _ => True)
        (initial restingController restingPose) s ∧
      s.inputFile = some "2 1 0 9 9 9 9 9 9 0 0 ".toList := by
  refine ⟨restingController_start restingPose, ?_, _, Reachable.call (Reachable.call .refl
    (e := .animatorUpdate (some "1 9 9 9 9 9 9".toList) 0 1) trivial)
    (e := .exporterUpdate) trivial, ?_⟩
  · rw [Exporter.writeToFile_eq restingController_tagged]
    decide +kernel
  · decide +kernel

end Scene
