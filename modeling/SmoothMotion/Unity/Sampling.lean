-- SUMMARY: How often the sampling loop runs, which sample every stored frame is from, and that no run changes the number of frames.
import SmoothMotion.Unity.Schedule

open CSharp Decimal

/-!
# Sampling

The loop of `GetBonePositions` adds up frame times in one variable and counts
frames in another. In exact arithmetic sample `k` is taken at `k / SamplingFPS`,
so the loop stops with the first `k` that reaches the length of the clip. Every
sample appends one frame to every bone, and no Update appends or removes one.
-/

namespace SmoothMotionController

variable {ι K : Type} [DecidableEq ι] [Scalar K]

/-- The loop variables before sample `k`, if the clip is long enough. -/
def sampledTo (sk : Skeleton ι K) (clip : AnimationClip ι K) (samplingFPS : Int) (pose : Pose ι K) :
    Nat → Sampling ι K
  | 0 => ⟨pose, tagBonesDeep sk.tree [], 0⟩
  | k + 1 => sampleFrame sk clip (k / samplingFPS : K) (sampledTo sk clip samplingFPS pose k)

section SampledTo

variable {sk : Skeleton ι K} {clip : AnimationClip ι K} {samplingFPS : Int} {pose : Pose ι K}

@[simp] theorem sampledTo_numFrames (k : Nat) :
    (sampledTo sk clip samplingFPS pose k).numFrames = k := by
  induction k with
  | zero => rfl
  | succ k ih => exact congrArg (· + 1) ih

/-- Frame `k` of every bone is from sample `k`. -/
theorem sampledTo_stored (k : Nat) : ∀ bone ∈ (sampledTo sk clip samplingFPS pose k).bones,
    bone.stored = (List.range k).map fun j =>
      bone.createFrameInfo sk (sampledTo sk clip samplingFPS pose (j + 1)).pose := by
  induction k with
  | zero =>
    intro bone hbone
    simp only [sampledTo, tagBonesDeep_eq] at hbone
    obtain ⟨i, -, rfl⟩ := List.mem_map.mp hbone
    rfl
  | succ k ih =>
    intro bone hbone
    obtain ⟨bone₀, hmem, rfl⟩ := List.mem_map.mp hbone
    rw [SmoothMotionBone.saveFramePosition_stored, ih bone₀ hmem, List.range_succ, List.map_append]
    rfl

end SampledTo

/-! ## The loop -/

section Loop

variable {sk : Skeleton ι K} {clip : AnimationClip ι K} {samplingFPS : Int} {pose : Pose ι K}

/-- The frame times add up to the time of the next sample. -/
theorem time_add_frameTime (hfps : 1 ≤ samplingFPS) (k : Nat) :
    ((k / samplingFPS : K) : WithTop K) + frameTime samplingFPS =
      (((k + 1 : Nat) / samplingFPS : K) : WithTop K) := by
  have hne : samplingFPS ≠ 0 := by omega
  unfold frameTime
  rw [if_neg hne, ← WithTop.coe_add, ← add_div, Nat.cast_succ]

omit [DecidableEq ι] in
/-- The samples that lie in the clip are the first `⌈length * SamplingFPS⌉`. -/
theorem time_lt_length_iff (hfps : 1 ≤ samplingFPS) (k : Nat) :
    (k / samplingFPS : K) < clip.length ↔ (k : Int) < ⌈clip.length * samplingFPS⌉ := by
  have hpos : (0 : K) < samplingFPS := Int.cast_pos.mpr (by omega)
  rw [Int.lt_ceil, Int.cast_natCast, div_lt_iff₀ hpos]

/-- Induction on the fuel, from any sample on. -/
theorem sampleLoop_eq (sk : Skeleton ι K) (pose : Pose ι K) (hfps : 1 ≤ samplingFPS) {fuel k : Nat}
    (hk : k ≤ ⌈clip.length * samplingFPS⌉.toNat)
    (hfuel : ⌈clip.length * samplingFPS⌉.toNat ≤ fuel + k) :
    sampleLoop sk clip (frameTime samplingFPS) fuel ((k / samplingFPS : K) : WithTop K)
        (sampledTo sk clip samplingFPS pose k) =
      some (sampledTo sk clip samplingFPS pose ⌈clip.length * samplingFPS⌉.toNat) := by
  induction fuel generalizing k with
  | zero =>
    have hend : ¬ (k / samplingFPS : K) < clip.length := by
      rw [time_lt_length_iff hfps]
      omega
    obtain rfl : k = ⌈clip.length * samplingFPS⌉.toNat := by omega
    exact if_neg hend
  | succ fuel ih =>
    by_cases hlt : (k / samplingFPS : K) < clip.length
    · have hnext := ih (k := k + 1) (by rw [time_lt_length_iff hfps] at hlt; omega) (by omega)
      rw [← time_add_frameTime hfps] at hnext
      exact (if_pos hlt).trans hnext
    · have hend := hlt
      rw [time_lt_length_iff hfps] at hend
      obtain rfl : k = ⌈clip.length * samplingFPS⌉.toNat := by omega
      exact if_neg hlt

/-- With enough fuel `Start` returns what the samples in the clip leave. -/
theorem start_eq (sk : Skeleton ι K) (pose : Pose ι K) (hfps : 1 ≤ samplingFPS) {fuel : Nat}
    (hfuel : ⌈clip.length * samplingFPS⌉.toNat ≤ fuel) :
    start sk clip samplingFPS pose fuel =
      some ({ bones := (sampledTo sk clip samplingFPS pose ⌈clip.length * samplingFPS⌉.toNat).bones
              numFrames := ⌈clip.length * samplingFPS⌉.toNat, samplingFPS, initialised := true },
        (sampledTo sk clip samplingFPS pose ⌈clip.length * samplingFPS⌉.toNat).pose) := by
  have hloop := sampleLoop_eq sk pose hfps (Nat.zero_le _) hfuel
  simp only [Nat.cast_zero, zero_div] at hloop
  have hinit : sampledTo sk clip samplingFPS pose 0 = ⟨pose, tagBonesDeep sk.tree [], 0⟩ := rfl
  rw [hinit] at hloop
  simp only [start, getBonePositions, hloop]
  simp

end Loop

end SmoothMotionController

/-! ## Every reachable scene -/

namespace Scene

variable {ι K : Type} [DecidableEq ι] [Scalar K]

/-- For a clip of positive length the loop ends after `⌈length * SamplingFPS⌉`
    samples. The bones are the Transforms of the skeleton; frame `k` of each of them is
    from the sample at `k / SamplingFPS`, and in every run of Updates every bone keeps as
    many frames as were sampled: `GetFrameInfo` does not wrap around. -/
theorem frames_counted (runtime : Runtime K) (sk : Skeleton ι K)
    (constraints : List (PlaneCollisionConstraint K)) {clip : AnimationClip ι K}
    {samplingFPS : Int} (hlength : 0 < clip.length) (hfps : 1 ≤ samplingFPS) (pose : Pose ι K) :
    ∃ c pose', (∃ enough, ∀ fuel ≥ enough,
        SmoothMotionController.start sk clip samplingFPS pose fuel = some (c, pose')) ∧
      c.Tagged sk ∧ (c.numFrames : Int) = ⌈clip.length * samplingFPS⌉ ∧
      (∀ bone ∈ c.bones, bone.stored.length = c.numFrames ∧
        ∀ k, k < c.numFrames → bone.stored[k]? = some (bone.createFrameInfo sk
          (clip.sampleAnimation (k / samplingFPS : K)
            (SmoothMotionController.sampledTo sk clip samplingFPS pose k).pose))) ∧
      ∀ s, Reachable runtime sk constraints (fun _ _ => True) (initial c pose') s →
        s.controller.Tagged sk ∧ s.controller.numFrames = c.numFrames ∧
        ∀ bone ∈ s.controller.bones, bone.stored.length = s.controller.numFrames ∧
          ∀ f : Nat, f < s.controller.numFrames →
            ∃ info, bone.stored[f]? = some info ∧ bone.getFrameInfo f = .ok info := by
  have hceil : 0 ≤ ⌈clip.length * (samplingFPS : K)⌉ :=
    Int.ceil_nonneg (mul_nonneg hlength.le (Int.cast_nonneg (by omega)))
  have hstart : ∀ fuel ≥ ⌈clip.length * (samplingFPS : K)⌉.toNat, _ = some (_, _) :=
    fun fuel => SmoothMotionController.start_eq sk pose hfps
  have htagged := SmoothMotionController.start_tagged (hstart _ le_rfl)
  refine ⟨_, _, ⟨_, hstart⟩, htagged, Int.toNat_of_nonneg hceil, ?_, ?_⟩
  · intro bone hbone
    refine ⟨htagged.stored bone hbone, fun k hk => ?_⟩
    rw [SmoothMotionController.sampledTo_stored _ bone hbone, List.getElem?_map,
      List.getElem?_range hk]
    rfl
  · intro s hreach
    have hcounted := hreach.tagged htagged
    refine ⟨hcounted, (hreach.counts htagged).1, fun bone hbone => ?_⟩
    have hstored := hcounted.stored bone hbone
    refine ⟨hstored, fun f hf => ?_⟩
    rw [← hstored] at hf
    exact ⟨_, List.getElem?_eq_getElem hf, SmoothMotionBone.getFrameInfo_of_lt hf⟩

/-- Half a second of the resting clip, at one frame a second. -/
theorem frames_counted_restingClip :
    ∃ c pose', (∃ enough, ∀ fuel ≥ enough,
        SmoothMotionController.start twoBones restingClip 1 restingPose fuel = some (c, pose')) ∧
      c.Tagged twoBones ∧ (c.numFrames : Int) = ⌈restingClip.length * ((1 : Int) : ℚ)⌉ ∧
      (∀ bone ∈ c.bones, bone.stored.length = c.numFrames ∧
        ∀ k, k < c.numFrames → bone.stored[k]? = some (bone.createFrameInfo twoBones
          (restingClip.sampleAnimation (k / (1 : Int) : ℚ)
            (SmoothMotionController.sampledTo twoBones restingClip 1 restingPose k).pose))) ∧
      ∀ s, Reachable Runtime.whole twoBones [] (fun _ _ => True) (initial c pose') s →
        s.controller.Tagged twoBones ∧ s.controller.numFrames = c.numFrames ∧
        ∀ bone ∈ s.controller.bones, bone.stored.length = s.controller.numFrames ∧
          ∀ f : Nat, f < s.controller.numFrames →
            ∃ info, bone.stored[f]? = some info ∧ bone.getFrameInfo f = .ok info :=
  frames_counted Runtime.whole twoBones [] (by decide +kernel) (by decide) restingPose

end Scene
