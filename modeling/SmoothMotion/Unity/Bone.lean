-- SUMMARY: SmoothMotionBone: the frames stored for one bone, and reading, saving, overriding and posing them.
import SmoothMotion.Lib.CSharp
import SmoothMotion.Lib.Loop
import SmoothMotion.Unity.Transform

open CSharp

/-- What the scripts write to Unity's console. -/
inductive LogEntry where
  | warning (text : String)
  | error (text : String)
deriving DecidableEq, Repr

structure FrameInfo (K : Type) [Scalar K] where
  position : Vector3d K
  scale : Vector3d K
  rotation : Rotation K

/-- The component on one Transform. The list is null until the first frame is
    saved. -/
structure SmoothMotionBone (ι K : Type) [Scalar K] where
  transform : ι
  frames : Option (List (FrameInfo K))

/-- `Vector3.Lerp`. -/
def Vector3d.lerp {K : Type} [Scalar K] (a b : Vector3d K) (t : K) : Vector3d K :=
  a + Vector3d.smul (max 0 (min 1 t)) (b - a)

namespace SmoothMotionBone

variable {ι K : Type} [Scalar K]

/-- The stored frames, none for a list that is still null. -/
def stored (bone : SmoothMotionBone ι K) : List (FrameInfo K) := bone.frames.getD []

def getFrameInfo (bone : SmoothMotionBone ι K) (frame : Int) : Except Exn (FrameInfo K) := do
  let frames ← deref bone.frames
  index frames (← intRem frame frames.length)

/-- The part of `SetFrame` that reads the list: the frame between the two
    stored frames around `frame`. -/
def frameAt (bone : SmoothMotionBone ι K) (frame : K) : Except Exn (FrameInfo K) := do
  let frames ← deref bone.frames
  let frame := fmod frame frames.length
  let previous ← index frames ⌊frame⌋
  let next ← index frames (← intRem ⌈frame⌉ frames.length)
  let lerpFraction := fmod frame 1
  return {
    position := previous.position.lerp next.position lerpFraction
    scale := previous.scale.lerp next.scale lerpFraction
    rotation := Rotation.lerp previous.rotation next.rotation lerpFraction }

section Posing

variable [DecidableEq ι]

def setFrame (sk : Skeleton ι K) (bone : SmoothMotionBone ι K) (frame : K) (pose : Pose ι K) :
    Except Exn (Pose ι K) := do
  let info ← bone.frameAt frame
  let pose := sk.setPosition pose bone.transform info.position
  let pose := sk.setRotation pose bone.transform info.rotation
  return pose.setLocalScale bone.transform info.scale

def createFrameInfo (sk : Skeleton ι K) (bone : SmoothMotionBone ι K) (pose : Pose ι K) :
    FrameInfo K where
  position := sk.position pose bone.transform
  scale := (pose bone.transform).localScale
  rotation := sk.rotation pose bone.transform

def saveFramePosition (sk : Skeleton ι K) (pose : Pose ι K) (bone : SmoothMotionBone ι K) :
    SmoothMotionBone ι K :=
  { bone with frames := some (bone.stored ++ [bone.createFrameInfo sk pose]) }

@[simp] theorem saveFramePosition_stored (sk : Skeleton ι K) (pose : Pose ι K)
    (bone : SmoothMotionBone ι K) :
    (bone.saveFramePosition sk pose).stored = bone.stored ++ [bone.createFrameInfo sk pose] := rfl

/-- `SetFrame` on a node of the skeleton writes the whole node. -/
theorem setFrame_eq {sk : Skeleton ι K} {bone : SmoothMotionBone ι K} {frame : K}
    {info : FrameInfo K} (hinfo : bone.frameAt frame = .ok info)
    (hbone : bone.transform ∈ sk.tree.preorder) (pose : Pose ι K) :
    bone.setFrame sk frame pose =
      .ok (Function.update pose bone.transform
        (Skeleton.placed (sk.chain pose bone.transform) info.position info.rotation info.scale)) := by
  simp only [setFrame, hinfo, Except.ok_bind, ← Skeleton.set_eq_placed pose hbone]
  rfl

end Posing

def overridePosition (bone : SmoothMotionBone ι K) (position : Vector3d K) (frame : Int) :
    Except Exn (SmoothMotionBone ι K × List LogEntry) := do
  let frames ← deref bone.frames
  if frames.length ≤ frame then
    return (bone, [.error "Failed to override bone position, exceeded framecount"])
  else
    let frameinfo ← index frames frame
    return ({ bone with frames := some (frames.set frame.toNat { frameinfo with position }) }, [])

/-! ## Reading and overriding within the stored frames -/

/-- A bone with stored frames has a list. -/
theorem frames_eq_some {bone : SmoothMotionBone ι K} (h : bone.stored ≠ []) :
    bone.frames = some bone.stored := by
  cases hframes : bone.frames with
  | none => simp [stored, hframes] at h
  | some frames => simp [stored, hframes]

/-- Within the stored frames nothing wraps around. -/
theorem getFrameInfo_of_lt {bone : SmoothMotionBone ι K} {f : Nat} (h : f < bone.stored.length) :
    bone.getFrameInfo f = .ok bone.stored[f] := by
  have hframes : bone.frames = some bone.stored :=
    frames_eq_some (List.ne_nil_of_length_pos (by omega))
  simp only [getFrameInfo, hframes, deref, Except.ok_bind, intRem_of_lt h]
  exact index_ofNat (List.getElem?_eq_getElem h)

/-- The two stored frames around `frame` exist if the remainder is not negative. -/
theorem frameAt_ok_of_fmod {bone : SmoothMotionBone ι K} {frame : K} (h : bone.stored ≠ [])
    (hnonneg : 0 ≤ fmod frame bone.stored.length)
    (hlt : fmod frame bone.stored.length < bone.stored.length) :
    ∃ info, bone.frameAt frame = .ok info := by
  have hlen : 0 < bone.stored.length := List.length_pos_of_ne_nil h
  obtain ⟨m, hm⟩ := Int.eq_ofNat_of_zero_le (Int.floor_nonneg.mpr hnonneg)
  obtain ⟨k, hk⟩ := Int.eq_ofNat_of_zero_le (Int.ceil_nonneg hnonneg)
  have hfloor : m < bone.stored.length := by
    have hfloor' : ⌊fmod frame bone.stored.length⌋ < (bone.stored.length : Int) :=
      Int.floor_lt.mpr (by exact_mod_cast hlt)
    omega
  have hprevious : index bone.stored (m : Int) = .ok bone.stored[m] :=
    index_ofNat (List.getElem?_eq_getElem hfloor)
  have hrem : k % bone.stored.length < bone.stored.length := Nat.mod_lt _ hlen
  have hnext : index bone.stored ((k % bone.stored.length : Nat) : Int) =
      .ok bone.stored[k % bone.stored.length] :=
    index_ofNat (List.getElem?_eq_getElem hrem)
  simp only [frameAt, frames_eq_some h, deref, Except.ok_bind, hm, hk, hprevious,
    intRem_natCast hlen, hnext]
  exact ⟨_, rfl⟩

/-- From frame zero on the two stored frames around `frame` exist. -/
theorem frameAt_ok {bone : SmoothMotionBone ι K} {frame : K} (h : bone.stored ≠ [])
    (hframe : 0 ≤ frame) : ∃ info, bone.frameAt frame = .ok info := by
  have hcount : (0 : K) < bone.stored.length :=
    Nat.cast_pos.mpr (List.length_pos_of_ne_nil h)
  exact frameAt_ok_of_fmod h (fmod_nonneg hframe hcount) (fmod_lt hframe hcount)

/-- The bone with the position of one frame replaced. -/
def withPosition (bone : SmoothMotionBone ι K) (f : Nat) (position : Vector3d K) :
    SmoothMotionBone ι K :=
  { bone with frames := some (bone.stored.modify f fun info => { info with position }) }

@[simp] theorem withPosition_stored (bone : SmoothMotionBone ι K) (f : Nat) (v : Vector3d K) :
    (bone.withPosition f v).stored =
      bone.stored.modify f fun info => { info with position := v } := rfl

theorem overridePosition_of_lt {bone : SmoothMotionBone ι K} {f : Nat} (v : Vector3d K)
    (h : f < bone.stored.length) :
    bone.overridePosition v f = .ok (bone.withPosition f v, []) := by
  have hframes : bone.frames = some bone.stored :=
    frames_eq_some (List.ne_nil_of_length_pos (by omega))
  have hcount : ¬ (bone.stored.length : Int) ≤ f := by omega
  have hindex : index bone.stored (f : Int) = .ok bone.stored[f] :=
    index_ofNat (List.getElem?_eq_getElem h)
  simp only [overridePosition, hframes, deref, Except.ok_bind, if_neg hcount, hindex]
  simp [withPosition, List.modify_eq_set_getElem?, List.getElem?_eq_getElem h]
  rfl

/-! ## Overriding the first frames -/

/-- The bone with the positions of its first `k` frames replaced. -/
def overridden (bone : SmoothMotionBone ι K) (positions : Nat → Vector3d K) (k : Nat) :
    SmoothMotionBone ι K :=
  { bone with frames := bone.frames.map fun frames => frames.mapIdx fun f info =>
      if f < k then { info with position := positions f } else info }

section Overridden

variable (bone : SmoothMotionBone ι K) (positions : Nat → Vector3d K) (k : Nat)

theorem overridden_stored : (bone.overridden positions k).stored = bone.stored.mapIdx fun f info =>
    if f < k then { info with position := positions f } else info := by
  cases hframes : bone.frames with
  | none => simp [overridden, stored, hframes]
  | some frames => simp [overridden, stored, hframes]

@[simp] theorem overridden_stored_length :
    (bone.overridden positions k).stored.length = bone.stored.length := by
  rw [overridden_stored, List.length_mapIdx]

theorem getElem?_overridden_stored {f : Nat} {info : FrameInfo K} (hinfo : bone.stored[f]? = some info)
    (hf : f < k) :
    (bone.overridden positions k).stored[f]? = some { info with position := positions f } := by
  simp [overridden_stored, hinfo, hf]

@[simp] theorem overridden_zero : bone.overridden positions 0 = bone := by
  have hsame : (fun frames : List (FrameInfo K) => frames.mapIdx fun f info =>
      if f < 0 then { info with position := positions f } else info) = id := by
    funext frames
    apply List.ext_getElem?
    intro f
    simp
  unfold overridden
  rw [hsame, Option.map_id]
  rfl

/-- The next frame. -/
theorem overridden_withPosition {k : Nat} (h : k < bone.stored.length) :
    (bone.overridden positions k).withPosition k (positions k) =
      bone.overridden positions (k + 1) := by
  have hframes : bone.frames = some bone.stored :=
    frames_eq_some (List.ne_nil_of_length_pos (by omega))
  have hmodify : ((bone.overridden positions k).stored.modify k fun info =>
      { info with position := positions k }) = bone.stored.mapIdx fun f info =>
        if f < k + 1 then { info with position := positions f } else info := by
    apply List.ext_getElem?
    intro f
    rw [List.getElem?_modify, overridden_stored, List.getElem?_mapIdx, List.getElem?_mapIdx]
    rcases Nat.lt_trichotomy f k with hlt | rfl | hgt
    · have hne : k ≠ f := by omega
      have hlt' : f < k + 1 := by omega
      simp [hne, hlt, hlt']
    · cases bone.stored[f]? <;> simp
    · have hne : k ≠ f := by omega
      have hle : ¬ f < k := by omega
      have hle' : ¬ f < k + 1 := by omega
      simp [hne, hle, hle']
  unfold withPosition
  rw [hmodify]
  simp only [overridden, hframes, Option.map_some]

end Overridden

end SmoothMotionBone
