-- SUMMARY: SmoothMotionAnimator: loading a solution into the stored frames, and posing the bones.
import SmoothMotion.Unity.Scene

open CSharp Decimal

/-!
# The animator

`ReadFromFile` parses the whole file before it touches a bone, and touches a bone
only if the numbers suffice for all of them. So it either leaves the stored
frames as they are or overrides every position; `accepted` says which, from the
content of the file and the counts of the controller.
-/

namespace Animator

variable {ι K : Type} [Scalar K]

/-! ## Loading -/

/-- `new Vector3(Parse(values[i-2]), Parse(values[i-1]), Parse(values[i]))`. -/
def parseVector (runtime : Runtime K) (values : List Text) (i : Int) : Except Exn (Vector3d K) := do
  let x ← runtime.parse (← index values (i - 2))
  let y ← runtime.parse (← index values (i - 1))
  let z ← runtime.parse (← index values i)
  return ⟨x, y, z⟩

/-- The loop that parses `values` from index `1` on, three at a time. -/
def parsePositions (runtime : Runtime K) (values : List Text) : Except Exn (List (Vector3d K)) :=
  forStep 3 values.length 3
    (fun i bonePositions => do return bonePositions ++ [← parseVector runtime values i]) []

/-- The body of the inner loop: `bone.OverridePosition(bonePositions[position], frame)`. -/
def overrideFrame (bonePositions : List (Vector3d K)) (b frame position : Nat) :
    Script Exn (Scene ι K) Nat := do
  let s ← get
  let bone ← liftExcept (index s.controller.bones (b : Int))
  let v ← liftExcept (index bonePositions (position : Int))
  let (bone, entries) ← liftExcept (bone.overridePosition v frame)
  modify fun s => (s.withBones (s.controller.bones.set b bone)).logged entries
  return position + 1

/-- The loops that override the positions, with the running `position`. -/
def overridePositions (bonePositions : List (Vector3d K)) (frames : Int) :
    Script Exn (Scene ι K) Unit := do
  let s ← get
  let _ ← forRange s.controller.bones.length
    (fun b position => forRange frames.toNat (overrideFrame bonePositions b) position) 0
  return ()

def differentFrames : LogEntry := .warning
  "Loaded file has a different number of frames from currently selected animation, aborting"

def differentBones : LogEntry := .warning
  "Loaded file has a different number of bones from currently selected animation, aborting"

/-- `ReadFromFile` on the content of the file, if there is one. -/
def readFromFile (runtime : Runtime K) (file : Option Text) : Script Exn (Scene ι K) Unit := do
  let content ← liftExcept (readAllText file)
  let values := content.splitOn ' '
  let frames ← liftExcept (index values 0 >>= int32Parse)
  let s ← get
  if frames ≠ s.controller.numFrames then
    modify fun s => s.logged [differentFrames]
  else
    let bonePositions ← liftExcept (parsePositions runtime values)
    let count ← liftExcept (intDiv bonePositions.length frames)
    if count ≠ s.controller.bones.length then
      modify fun s => s.logged [differentBones]
    else overridePositions bonePositions frames

/-! ## Playing -/

section Play

variable [DecidableEq ι]

/-- The loop over the bones. -/
def setFrames (sk : Skeleton ι K) (frame : K) :
    List (SmoothMotionBone ι K) → Script Exn (Scene ι K) Unit
  | [] => return ()
  | bone :: bones => do
    let s ← get
    let pose ← liftExcept (bone.setFrame sk frame s.pose)
    modify fun s => { s with pose }
    setFrames sk frame bones

/-- The part of `Update` that loads the solution once. -/
def initialise (runtime : Runtime K) (file : Option Text) : Script Exn (Scene ι K) Unit := do
  let s ← get
  if s.animatorInitialised = false then
    readFromFile runtime file
    modify fun s => { s with animatorInitialised := true }

/-- The part of `Update` that advances the frame and poses the bones. -/
def play (sk : Skeleton ι K) (deltaTime slowMotion : K) : Script Exn (Scene ι K) Unit := do
  modify fun s => { s with frame := s.frame + deltaTime * s.controller.samplingFPS * slowMotion }
  let s ← get
  setFrames sk s.frame s.controller.bones

/-- `Update`, on the present content of the file and for the given time since
    the last frame. -/
def update (runtime : Runtime K) (sk : Skeleton ι K) (file : Option Text)
    (deltaTime slowMotion : K) : Script Exn (Scene ι K) Unit := do
  let s ← get
  if s.controller.initialised = false then return ()
  else
    initialise runtime file
    play sk deltaTime slowMotion

end Play

/-! ## The vectors of a file -/

/-- Vector `k` of the values: the numbers `3 * k + 1` to `3 * k + 3`. -/
structure IsVector (runtime : Runtime K) (values : List Text) (k : Nat) (v : Vector3d K) : Prop where
  x : (values[3 * k + 1]?).map runtime.parse = some (.ok v.x)
  y : (values[3 * k + 2]?).map runtime.parse = some (.ok v.y)
  z : (values[3 * k + 3]?).map runtime.parse = some (.ok v.z)

section Parse

variable {runtime : Runtime K} {values : List Text}

/-- What one iteration reads. -/
private theorem parseVector_eq {k : Nat} (hk : 3 * k + 3 < values.length) :
    parseVector runtime values ((3 + k * 3 : Nat) : Int) = do
      let x ← runtime.parse values[3 * k + 1]
      let y ← runtime.parse values[3 * k + 2]
      let z ← runtime.parse values[3 * k + 3]
      return ⟨x, y, z⟩ := by
  have hx : ((3 + k * 3 : Nat) : Int) - 2 = (3 * k + 1 : Nat) := by omega
  have hy : ((3 + k * 3 : Nat) : Int) - 1 = (3 * k + 2 : Nat) := by omega
  have hz : ((3 + k * 3 : Nat) : Int) = (3 * k + 3 : Nat) := by omega
  unfold parseVector
  rw [hx, hy, hz, index_ofNat (List.getElem?_eq_getElem (by omega)),
    index_ofNat (List.getElem?_eq_getElem (by omega)), index_ofNat (List.getElem?_eq_getElem hk)]
  rfl

theorem parseVector_ok_iff {k : Nat} (hk : 3 * k + 3 < values.length) {v : Vector3d K} :
    parseVector runtime values ((3 + k * 3 : Nat) : Int) = .ok v ↔ IsVector runtime values k v := by
  have hget : ∀ j, (hj : j < values.length) → ∀ a,
      (values[j]?).map runtime.parse = some (.ok a) ↔ runtime.parse values[j] = .ok a := by
    intro j hj a
    simp [List.getElem?_eq_getElem hj]
  rw [parseVector_eq hk]
  constructor
  · intro h
    obtain ⟨x, hx, h⟩ := Except.bind_eq_ok h
    obtain ⟨y, hy, h⟩ := Except.bind_eq_ok h
    obtain ⟨z, hz, h⟩ := Except.bind_eq_ok h
    cases h
    exact ⟨(hget _ _ _).mpr hx, (hget _ _ _).mpr hy, (hget _ _ _).mpr hz⟩
  · rintro ⟨hx, hy, hz⟩
    rw [hget _ (by omega)] at hx hy hz
    simp only [hx, hy, hz, Except.ok_bind]
    rfl

/-- The loop makes one iteration for every three values after the first. -/
private theorem parsePositions_eq (runtime : Runtime K) (values : List Text) :
    parsePositions runtime values = forRange ((values.length - 1) / 3)
      (fun k bonePositions => do
        return bonePositions ++ [← parseVector runtime values ((3 + k * 3 : Nat) : Int)]) [] := by
  have hcount : (values.length - 3 + 3 - 1) / 3 = (values.length - 1) / 3 := by omega
  unfold parsePositions forStep
  rw [hcount]

/-- The vectors of a file that parses: all of them, in order. -/
theorem parsePositions_ok_iff {vectors : List (Vector3d K)} :
    parsePositions runtime values = .ok vectors ↔
      vectors.length = (values.length - 1) / 3 ∧
        ∀ k v, vectors[k]? = some v → IsVector runtime values k v := by
  rw [parsePositions_eq]
  constructor
  · intro h
    let Inv : Nat → List (Vector3d K) → Prop := fun i vs =>
      vs.length = i ∧ ∀ k v, vs[k]? = some v → IsVector runtime values k v
    refine forRange_ok Inv ?_ ⟨rfl, by simp⟩ h
    rintro i vs vs' hi ⟨hlen, hvs⟩ hbody
    obtain ⟨v, hv, hbody⟩ := Except.bind_eq_ok hbody
    cases hbody
    refine ⟨by simp [hlen], fun k w hw => ?_⟩
    rw [List.getElem?_append] at hw
    split at hw
    · exact hvs k w hw
    · obtain rfl : k = i := by
        by_contra hne
        rw [List.getElem?_eq_none (by simp; omega)] at hw
        cases hw
      rw [hlen, Nat.sub_self] at hw
      cases hw
      exact (parseVector_ok_iff (by omega)).mp hv
  · rintro ⟨hlen, hvectors⟩
    refine (forRange_eq (fun i => vectors.take i) fun i hi => ?_).trans ?_
    · have hv : vectors[i]? = some vectors[i] := List.getElem?_eq_getElem (by omega)
      rw [(parseVector_ok_iff (by omega)).mpr (hvectors i _ hv),
        List.take_succ_eq_append_getElem (by omega)]
      rfl
    · rw [← hlen, List.take_length]

/-- What parsing throws is about a number: no index is out of range. -/
theorem parsePositions_error {e : Exn} (h : parsePositions runtime values = .error e) :
    e = .format ∨ e = .overflow := by
  rw [parsePositions_eq] at h
  refine forRange_error (P := fun e => e = .format ∨ e = .overflow) ?_ h
  intro k bonePositions e hk hbody
  rw [parseVector_eq (by omega)] at hbody
  rcases Except.bind_eq_error hbody with hbody | ⟨_, -, hbody⟩
  · rcases Except.bind_eq_error hbody with hparse | ⟨_, -, hbody⟩
    · exact runtime.parse_throws _ e hparse
    rcases Except.bind_eq_error hbody with hparse | ⟨_, -, hbody⟩
    · exact runtime.parse_throws _ e hparse
    rcases Except.bind_eq_error hbody with hparse | ⟨_, -, hbody⟩
    · exact runtime.parse_throws _ e hparse
    cases hbody
  · cases hbody

end Parse

/-! ## Which files are loaded -/

/-- The vectors of the file, if the file is loaded into a controller with these
    counts. -/
def accepted (runtime : Runtime K) (c : SmoothMotionController ι K) (file : Option Text) :
    Option (List (Vector3d K)) := do
  let content ← file
  let values := content.splitOn ' '
  let frames ← (int32Parse (values.headD [])).toOption
  let vectors ← (parsePositions runtime values).toOption
  if frames = c.numFrames ∧ c.numFrames ≠ 0 ∧ vectors.length / c.numFrames = c.bones.length then
    some vectors
  else none

theorem accepted_eq_some_iff {runtime : Runtime K} {c : SmoothMotionController ι K}
    {content : Text} {vectors : List (Vector3d K)} :
    accepted runtime c (some content) = some vectors ↔
      int32Parse ((content.splitOn ' ').headD []) = .ok (c.numFrames : Int) ∧
        parsePositions runtime (content.splitOn ' ') = .ok vectors ∧
        c.numFrames ≠ 0 ∧ vectors.length / c.numFrames = c.bones.length := by
  simp only [accepted, Option.bind_eq_bind, Option.bind_some]
  cases int32Parse ((content.splitOn ' ').headD []) with
  | error e => simp [Except.toOption]
  | ok frames =>
    cases parsePositions runtime (content.splitOn ' ') with
    | error e => simp [Except.toOption]
    | ok vectors' =>
      simp only [Except.toOption, Option.bind_some, Except.ok.injEq, Option.ite_none_right_eq_some,
        Option.some.injEq]
      constructor
      · rintro ⟨⟨hframes, hzero, hbones⟩, rfl⟩
        exact ⟨hframes, rfl, hzero, hbones⟩
      · rintro ⟨hframes, rfl, hzero, hbones⟩
        exact ⟨⟨hframes, hzero, hbones⟩, rfl⟩

theorem int32Parse_error {text : Text} {e : Exn} (h : int32Parse text = .error e) :
    e = .format ∨ e = .overflow := by
  unfold int32Parse at h
  split at h
  · cases h
    exact .inl rfl
  · split at h
    · cases h
      exact .inr rfl
    · cases h

/-- `Split` gives at least one value. -/
theorem index_splitOn_zero (content : Text) :
    index (content.splitOn ' ') 0 = .ok ((content.splitOn ' ').headD []) := by
  have hne : content.splitOn ' ' ≠ [] := List.splitOnP_ne_nil _ _
  obtain ⟨value, values, hsplit⟩ := List.exists_cons_of_ne_nil hne
  rw [hsplit]
  rfl

/-- What a call does up to the point where it starts to override. -/
theorem readFromFile_exec (runtime : Runtime K) (content : Text) (s : Scene ι K) :
    (readFromFile runtime (some content)).exec s =
      match int32Parse ((content.splitOn ' ').headD []) with
      | .error e => (.error e, s)
      | .ok frames =>
        if frames ≠ s.controller.numFrames then (.ok (), s.logged [differentFrames])
        else
          match parsePositions runtime (content.splitOn ' ') with
          | .error e => (.error e, s)
          | .ok vectors =>
            if s.controller.numFrames = 0 then (.error .divideByZero, s)
            else if vectors.length / s.controller.numFrames ≠ s.controller.bones.length then
              (.ok (), s.logged [differentBones])
            else (overridePositions vectors s.controller.numFrames).exec s := by
  simp only [readFromFile, readAllText, Script.exec_bind, Script.exec_ofExcept,
    index_splitOn_zero, Except.ok_bind]
  cases hframes : int32Parse ((content.splitOn ' ').headD []) with
  | error e => rfl
  | ok frames =>
    simp only [Script.exec_get]
    by_cases hcount : frames = s.controller.numFrames
    · simp only [hcount, ne_eq, not_true_eq_false, if_false, Script.exec_bind, Script.exec_ofExcept]
      cases hvectors : parsePositions runtime (content.splitOn ' ') with
      | error e => rfl
      | ok vectors =>
        by_cases hzero : s.controller.numFrames = 0
        · simp [intDiv, hzero]
        · have hn : (s.controller.numFrames : Int) ≠ 0 := by omega
          have hdiv : (vectors.length : Int).tdiv s.controller.numFrames =
              (vectors.length / s.controller.numFrames : Nat) := rfl
          simp only [intDiv, if_neg hn, hdiv, if_neg hzero, Nat.cast_inj]
          split <;> rfl
    · simp [hcount]

/-- A file that is not loaded leaves no trace but a warning. -/
theorem readFromFile_of_not_accepted {runtime : Runtime K} {file : Option Text} {s : Scene ι K}
    (h : accepted runtime s.controller file = none) :
    ∃ result entries, (readFromFile runtime file).exec s = (result, s.logged entries) ∧
      result ≠ .error .argumentOutOfRange ∧ ∀ entry ∈ entries, ∃ text, entry = .warning text := by
  have hthrow : ∀ e : Exn, (e = .format ∨ e = .overflow) →
      (Except.error e : Except Exn Unit) ≠ .error .argumentOutOfRange := by
    rintro e (rfl | rfl) <;> simp
  cases file with
  | none =>
    refine ⟨.error .fileNotFound, [], ?_, by simp, by simp⟩
    simp [readFromFile, readAllText, Script.exec_bind]
  | some content =>
    rw [readFromFile_exec]
    cases hframes : int32Parse ((content.splitOn ' ').headD []) with
    | error e => exact ⟨.error e, [], by simp, hthrow e (int32Parse_error hframes), by simp⟩
    | ok frames =>
      simp only
      split
      · exact ⟨.ok (), [differentFrames], rfl, by simp, by simp [differentFrames]⟩
      · next hcount =>
        rw [not_not] at hcount
        cases hvectors : parsePositions runtime (content.splitOn ' ') with
        | error e => exact ⟨.error e, [], by simp, hthrow e (parsePositions_error hvectors), by simp⟩
        | ok vectors =>
          simp only
          split
          · exact ⟨.error .divideByZero, [], by simp, by simp, by simp⟩
          · next hzero =>
            split
            · exact ⟨.ok (), [differentBones], rfl, by simp, by simp [differentBones]⟩
            · next hbones =>
              rw [not_not] at hbones
              have hloaded : accepted runtime s.controller (some content) = some vectors :=
                accepted_eq_some_iff.mpr ⟨hcount ▸ hframes, hvectors, hzero, hbones⟩
              rw [h] at hloaded
              cases hloaded

/-- A file that is loaded overrides the positions, and nothing comes before. -/
theorem readFromFile_of_accepted {runtime : Runtime K} {content : Text} {s : Scene ι K}
    {vectors : List (Vector3d K)}
    (h : accepted runtime s.controller (some content) = some vectors) :
    (readFromFile runtime (some content)).exec s =
      (overridePositions vectors s.controller.numFrames).exec s := by
  obtain ⟨hframes, hvectors, hzero, hbones⟩ := accepted_eq_some_iff.mp h
  rw [readFromFile_exec, hframes, hvectors]
  simp [hzero, hbones]

/-! ## The parts of a call -/

section Update

variable {runtime : Runtime K} {s : Scene ι K}

theorem initialise_again (h : s.animatorInitialised = true) (file : Option Text) :
    (initialise runtime file).exec s = (.ok (), s) := by
  unfold initialise
  rw [Script.exec_bind_ok (Script.exec_get s), h]
  rfl

theorem initialise_first (h : s.animatorInitialised = false) (file : Option Text) :
    (initialise runtime file).exec s = (do
      readFromFile runtime file
      modify fun s => { s with animatorInitialised := true } : Script Exn (Scene ι K) Unit).exec s := by
  unfold initialise
  rw [Script.exec_bind_ok (Script.exec_get s), if_pos h]

/-- First the file, then the pose. -/
theorem update_exec [DecidableEq ι] (sk : Skeleton ι K) (h : s.controller.initialised = true)
    (file : Option Text) (deltaTime slowMotion : K) :
    (update runtime sk file deltaTime slowMotion).exec s = (do
      initialise runtime file
      play sk deltaTime slowMotion : Script Exn (Scene ι K) Unit).exec s := by
  unfold update
  rw [Script.exec_bind_ok (Script.exec_get s), h, if_neg (by simp)]

end Update

end Animator
