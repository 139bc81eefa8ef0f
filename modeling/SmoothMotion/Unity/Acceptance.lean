-- SUMMARY: How much data a file must have to be applied: two integer divisions decide, and only part of what they let pass is of the right size.
import SmoothMotion.Unity.Schedule

open CSharp Decimal

/-!
# Acceptance by size

`ReadFromFile` groups the numbers by three and drops what is left over, and then
divides the number of vectors by the number of frames and drops what is left
over again. So a file is applied if its numbers are enough for all bones and not
yet enough for one bone more.
-/

namespace Animator

variable {ι K : Type} [Scalar K]

/-! ## Reading a file of numbers -/

/-- A file of numbers parses. -/
theorem parsePositions_of_numbers {runtime : Runtime K} {values : List Text}
    (h : ∀ value ∈ values.tail, ∃ x, runtime.parse value = .ok x) :
    ∃ vectors, parsePositions runtime values = .ok vectors ∧
      vectors.length = (values.length - 1) / 3 := by
  let number (j : Nat) : K := (runtime.parse (values.getD j [])).toOption.getD 0
  have hnumber : ∀ j, j + 1 < values.length →
      (values[j + 1]?).map runtime.parse = some (.ok (number (j + 1))) := by
    intro j hj
    have hvalue : values[j + 1]? = some values[j + 1] := List.getElem?_eq_getElem hj
    have hmem : values[j + 1] ∈ values.tail := by
      apply List.mem_of_getElem? (i := j)
      rw [List.getElem?_tail, hvalue]
    obtain ⟨x, hx⟩ := h _ hmem
    simp [number, List.getD_eq_getElem?_getD, hvalue, hx, Except.toOption]
  refine ⟨(List.range ((values.length - 1) / 3)).map fun k =>
    ⟨number (3 * k + 1), number (3 * k + 2), number (3 * k + 3)⟩, ?_, by simp⟩
  rw [parsePositions_ok_iff]
  refine ⟨by simp, fun k v hv => ?_⟩
  rw [List.getElem?_map] at hv
  obtain ⟨k', hk', rfl⟩ := Option.map_eq_some_iff.mp hv
  obtain ⟨hk, hsame⟩ := List.getElem?_eq_some_iff.mp hk'
  simp only [List.getElem_range] at hsame
  subst hsame
  rw [List.length_range] at hk
  exact ⟨hnumber _ (by omega), hnumber _ (by omega), hnumber _ (by omega)⟩

/-- What the two divisions check. -/
theorem div_three_div_eq_iff {m n frames : Nat} (hframes : 0 < frames) :
    m / 3 / frames = n ↔ 3 * n * frames ≤ m ∧ m < 3 * (n + 1) * frames := by
  have hlow : 3 * n * frames = n * (3 * frames) := by ring
  have hhigh : 3 * (n + 1) * frames = n * (3 * frames) + 3 * frames := by ring
  rw [Nat.div_div_eq_div_mul, Nat.div_eq_iff (by omega), hlow, hhigh]
  omega

/-- How the reading of a file of numbers ends. -/
theorem readFromFile_numbers {runtime : Runtime K} {s : Scene ι K} {content : Text}
    (hstored : ∀ bone ∈ s.controller.bones, bone.stored.length = s.controller.numFrames)
    (hframes : 0 < s.controller.numFrames)
    (hnumeric : ∀ value ∈ (content.splitOn ' ').tail, ∃ x, runtime.parse value = .ok x) :
    (∃ e, int32Parse ((content.splitOn ' ').headD []) = .error e ∧
      (readFromFile runtime (some content)).exec s = (.error e, s)) ∨
    ∃ k, int32Parse ((content.splitOn ' ').headD []) = .ok k ∧
      if k = s.controller.numFrames ∧
          ((content.splitOn ' ').length - 1) / 3 / s.controller.numFrames =
            s.controller.bones.length then
        ∃ c, (readFromFile runtime (some content)).exec s = (.ok (), { s with controller := c }) ∧
          LoadedFrom runtime (content.splitOn ' ') s.controller c
      else ∃ text, (readFromFile runtime (some content)).exec s =
        (.ok (), s.logged [.warning text]) := by
  obtain ⟨vectors, hvectors, hlength⟩ := parsePositions_of_numbers hnumeric
  cases hfirst : int32Parse ((content.splitOn ' ').headD []) with
  | error e =>
    refine .inl ⟨e, rfl, ?_⟩
    rw [readFromFile_exec, hfirst]
  | ok k =>
    refine .inr ⟨k, rfl, ?_⟩
    split
    · next hcheck =>
      obtain ⟨rfl, hbones⟩ := hcheck
      have haccepted : accepted runtime s.controller (some content) = some vectors :=
        accepted_eq_some_iff.mpr ⟨hfirst, hvectors, hframes.ne', hlength ▸ hbones⟩
      exact ⟨_, readFromFile_loaded hstored haccepted, loaded_loadedFrom hstored haccepted⟩
    · next hcheck =>
      rw [readFromFile_exec, hfirst]
      simp only [hvectors, hframes.ne', if_false]
      rw [hlength]
      split
      · exact ⟨_, rfl⟩
      · next hcount =>
        rw [not_not] at hcount
        rw [if_pos fun hbones => hcheck ⟨hcount, hbones⟩]
        exact ⟨_, rfl⟩

/-! ## Files of exactly the right size -/

/-- The value is the number of frames, as the animator reads it or as a decimal
    numeral. -/
def IsCount (value : Text) (frames : Nat) : Prop :=
  int32Parse value = .ok (frames : Int) ∨ numeral value = some (frames : ℚ)

section Size

variable (runtime : Runtime K) (s : Scene ι K) (content : Text)

/-- The file is applied: every stored position is replaced, and nothing is
    logged. -/
def Applied : Prop :=
  ∃ c, (readFromFile runtime (some content)).exec s = (.ok (), { s with controller := c }) ∧
    LoadedFrom runtime (content.splitOn ' ') s.controller c

/-- The file is rejected with a warning, and nothing else changes. -/
def Rejected : Prop :=
  ∃ text, (readFromFile runtime (some content)).exec s = (.ok (), s.logged [.warning text])

/-- How many numbers follow the first. -/
def amount : Nat := (content.splitOn ' ').length - 1

/-- Exactly the files of the right size are applied, and the others rejected. -/
structure ExactSize : Prop where
  applied : Applied runtime s content ↔
    IsCount ((content.splitOn ' ').headD []) s.controller.numFrames ∧
      amount content = 3 * s.controller.bones.length * s.controller.numFrames
  rejected : amount content ≠ 3 * s.controller.bones.length * s.controller.numFrames →
    Rejected runtime s content

/-- Where the code does so: the first value is another count, or the amount does
    not lie strictly between enough numbers for all bones and enough for one more;
    a first value that is no `int` must not be the count in disguise, and the
    amount has to be right then. -/
def SizeSettled (c : SmoothMotionController ι K) : Prop :=
  match int32Parse ((content.splitOn ' ').headD []) with
  | .ok k => k = c.numFrames → amount content ≤ 3 * c.bones.length * c.numFrames ∨
      3 * (c.bones.length + 1) * c.numFrames ≤ amount content
  | .error _ => numeral ((content.splitOn ' ').headD []) ≠ some (c.numFrames : ℚ) ∧
      amount content = 3 * c.bones.length * c.numFrames

variable {runtime s content}

theorem isCount_iff {value : Text} {k : Int} (h : int32Parse value = .ok k) (frames : Nat) :
    IsCount value frames ↔ k = frames := by
  constructor
  · rintro (hint | hnumeral)
    · exact Except.ok.inj (h.symm.trans hint)
    · have hvalue := int32Parse_numeral h hnumeral
      exact_mod_cast hvalue.symm
  · rintro rfl
    exact .inl h

/-- A warning leaves another log than the loops do. -/
theorem not_applied_of_rejected (h : Rejected runtime s content) : ¬ Applied runtime s content := by
  rintro ⟨c, happlied, -⟩
  obtain ⟨text, hrejected⟩ := h
  have hlog := congrArg (fun r => r.2.log) (happlied.symm.trans hrejected)
  simp [Scene.logged] at hlog

/-- A reading that throws neither applies nor rejects. -/
theorem exactSize_of_throws (happlied : ¬ Applied runtime s content)
    (hrejected : ¬ Rejected runtime s content) : ExactSize runtime s content ↔
      ¬ IsCount ((content.splitOn ' ').headD []) s.controller.numFrames ∧
        amount content = 3 * s.controller.bones.length * s.controller.numFrames := by
  constructor
  · intro h
    have hamount : amount content = 3 * s.controller.bones.length * s.controller.numFrames :=
      by_contra fun hne => hrejected (h.rejected hne)
    exact ⟨fun hcount => happlied (h.applied.mpr ⟨hcount, hamount⟩), hamount⟩
  · rintro ⟨hcount, hamount⟩
    exact ⟨iff_of_false happlied fun h => hcount h.1, fun hne => absurd hamount hne⟩

theorem exactSize_of_applied (happlied : Applied runtime s content)
    (hcount : IsCount ((content.splitOn ' ').headD []) s.controller.numFrames) :
    ExactSize runtime s content ↔
      amount content = 3 * s.controller.bones.length * s.controller.numFrames := by
  constructor
  · intro h
    exact (h.applied.mp happlied).2
  · intro hamount
    exact ⟨iff_of_true happlied ⟨hcount, hamount⟩, fun hne => absurd hamount hne⟩

theorem exactSize_of_rejected (hrejected : Rejected runtime s content) :
    ExactSize runtime s content ↔
      ¬ (IsCount ((content.splitOn ' ').headD []) s.controller.numFrames ∧
        amount content = 3 * s.controller.bones.length * s.controller.numFrames) := by
  have happlied := not_applied_of_rejected hrejected
  constructor
  · intro h hsize
    exact happlied (h.applied.mpr hsize)
  · intro hsize
    exact ⟨iff_of_false happlied hsize, fun _ => hrejected⟩

theorem exactSize_iff
    (hstored : ∀ bone ∈ s.controller.bones, bone.stored.length = s.controller.numFrames)
    (hframes : 0 < s.controller.numFrames)
    (hnumeric : ∀ value ∈ (content.splitOn ' ').tail, ∃ x, runtime.parse value = .ok x) :
    ExactSize runtime s content ↔ SizeSettled content s.controller := by
  unfold SizeSettled
  rcases readFromFile_numbers hstored hframes hnumeric with ⟨e, hfirst, hread⟩ | ⟨k, hfirst, hread⟩
  · have happlied : ¬ Applied runtime s content := by
      rintro ⟨c, happlied, -⟩
      simp [hread] at happlied
    have hrejected : ¬ Rejected runtime s content := by
      rintro ⟨text, hrejected⟩
      simp [hread] at hrejected
    rw [exactSize_of_throws happlied hrejected, IsCount, hfirst]
    simp
  · have hdiv : amount content / 3 / s.controller.numFrames = s.controller.bones.length ↔ _ :=
      div_three_div_eq_iff hframes
    have hnext : 3 * s.controller.bones.length * s.controller.numFrames <
        3 * (s.controller.bones.length + 1) * s.controller.numFrames :=
      Nat.mul_lt_mul_of_pos_right (by omega) hframes
    rw [hfirst]
    split at hread
    · next hcheck =>
      -- both checks pass: the file is applied, and its size decides
      obtain ⟨rfl, hbones⟩ := hcheck
      have hrange := hdiv.mp hbones
      rw [exactSize_of_applied hread ((isCount_iff hfirst _).mpr rfl)]
      constructor
      · intro hamount _
        exact .inl hamount.le
      · intro h
        have hout := h rfl
        omega
    · next hcheck =>
      -- a check fails: the file is rejected, which is wrong for the right size only
      have hrange : k = s.controller.numFrames → ¬ _ := fun hk h => hcheck ⟨hk, hdiv.mpr h⟩
      rw [exactSize_of_rejected hread, isCount_iff hfirst]
      constructor
      · intro _ hk
        have hout := hrange hk
        omega
      · rintro _ ⟨hk, hamount⟩
        have hout := hrange hk
        omega

end Size

end Animator

namespace Scene

variable {ι K : Type} [DecidableEq ι] [Scalar K] {runtime : Runtime K} {sk : Skeleton ι K}
  {constraints : List (PlaneCollisionConstraint K)} {s : Scene ι K}

/-- In every run of the scene that `Start` leaves: when exactly the files of the
    right size are applied, and all others rejected. -/
theorem readFromFile_exactSize_iff {allowed : Scene ι K → Event K → Prop}
    {clip : AnimationClip ι K} {samplingFPS : Int} {pose pose' : Pose ι K} {fuel : Nat}
    {c : SmoothMotionController ι K}
    (hstart : SmoothMotionController.start sk clip samplingFPS pose fuel = some (c, pose'))
    (hreach : Reachable runtime sk constraints allowed (initial c pose') s)
    (hframes : 1 ≤ s.controller.numFrames) {content : Text}
    (hnumeric : ∀ value ∈ (content.splitOn ' ').tail, ∃ x, runtime.parse value = .ok x) :
    Animator.ExactSize runtime s content ↔ Animator.SizeSettled content s.controller :=
  Animator.exactSize_iff (hreach.tagged (SmoothMotionController.start_tagged hstart)).stored
    hframes hnumeric

/-- Two bones and one frame: six numbers. -/
theorem readFromFile_exactSize_iff_twoBones :
    Animator.ExactSize Runtime.whole (initial restingController restingPose)
        "1 7 8 9 4 5 6".toList ↔
      Animator.SizeSettled "1 7 8 9 4 5 6".toList restingController := by
  refine readFromFile_exactSize_iff (restingController_start restingPose)
    (Relation.ReflTransGen.refl : Reachable _ twoBones [] (fun _ _ => True) _ _) le_rfl ?_
  have hparse : ∀ value ∈ ("1 7 8 9 4 5 6".toList.splitOn ' ').tail,
      (Runtime.whole.parse value).toOption.isSome = true := by decide +kernel
  intro value hvalue
  have hvalue := hparse value hvalue
  cases hresult : Runtime.whole.parse value with
  | ok x => exact ⟨x, rfl⟩
  | error e => simp [hresult, Except.toOption] at hvalue

/-- A seventh number, the start of a vector for no bone, and the file is applied
    all the same. -/
theorem readFromFile_partialVector :
    let file := "1 7 8 9 4 5 6 1".toList
    let scene := initial restingController restingPose
    ((Animator.readFromFile Runtime.whole (some file)).exec scene).2.controller.bones.map
        (fun bone => bone.stored.map (·.position)) = [[⟨7, 8, 9⟩], [⟨4, 5, 6⟩]] ∧
      ¬ Animator.ExactSize Runtime.whole scene file := by
  refine ⟨by decide +kernel, fun h => ?_⟩
  have hamount : Animator.amount "1 7 8 9 4 5 6 1".toList ≠
      3 * restingController.bones.length * restingController.numFrames := by decide +kernel
  obtain ⟨text, hread⟩ := h.rejected hamount
  have hlog : ((Animator.readFromFile Runtime.whole (some "1 7 8 9 4 5 6 1".toList)).exec
      (initial restingController restingPose)).2.log = [] := by decide +kernel
  rw [hread] at hlog
  cases hlog

end Scene
