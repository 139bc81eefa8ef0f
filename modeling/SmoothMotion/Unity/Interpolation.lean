-- SUMMARY: SetFrame on the cycle of stored frames: where it has a frame to show, and which.
import SmoothMotion.Lib.Cycle
import SmoothMotion.Unity.Bone

open CSharp

/-!
# Interpolated frames

`SetFrame` reduces the frame by a remainder that keeps its sign, takes the floor
and the ceiling of what is left, wraps the ceiling around once more, and takes
the fraction by a second remainder. From frame zero on this is interpolation on
the cycle of the stored frames; below zero there is no frame, but at whole
turns.
-/

theorem Vector3d.lerp_of_mem {K : Type} [Scalar K] {t : K} (h₀ : 0 ≤ t) (h₁ : t ≤ 1)
    (a b : Vector3d K) : a.lerp b t = a + Vector3d.smul t (b - a) := by
  unfold Vector3d.lerp
  rw [min_eq_right h₁, max_eq_right h₀]

namespace SmoothMotionBone

variable {ι K : Type} [Scalar K] {bone : SmoothMotionBone ι K} {x : K}

/-- The two frames `SetFrame` looks up, and where it stands between them. -/
theorem frameAt_eq (h : bone.stored ≠ []) (hx : 0 ≤ x) :
    ∃ previous next, bone.stored[Cycle.place bone.stored.length ⌊x⌋]? = some previous ∧
      (Int.fract x ≠ 0 →
        bone.stored[Cycle.place bone.stored.length (⌊x⌋ + 1)]? = some next) ∧
      bone.frameAt x = .ok {
        position := previous.position.lerp next.position (Int.fract x)
        scale := previous.scale.lerp next.scale (Int.fract x)
        rotation := Rotation.lerp previous.rotation next.rotation (Int.fract x) } := by
  have hn : 0 < bone.stored.length := List.length_pos_of_ne_nil h
  have hr : 0 ≤ fmod x bone.stored.length := fmod_nonneg hx (Nat.cast_pos.mpr hn)
  have hfloor : ⌊fmod x bone.stored.length⌋ = Cycle.place bone.stored.length ⌊x⌋ := by
    rw [floor_fmod_natCast hx hn, Cycle.place_coe hn]
  have hfract := fract_fmod_natCast hx hn
  have hprevious := List.getElem?_eq_getElem (Cycle.place_lt hn ⌊x⌋)
  by_cases hwhole : Int.fract x = 0
  · -- on a frame: the ceiling is the floor, which is a place already
    have hceil : ⌈fmod x bone.stored.length⌉ = Cycle.place bone.stored.length ⌊x⌋ := by
      rw [ceil_of_fract_eq_zero (by rw [hfract, hwhole]), hfloor]
    refine ⟨_, bone.stored.get ⟨_, Cycle.place_lt hn ⌊x⌋⟩, hprevious,
      fun hne => absurd hwhole hne, ?_⟩
    simp only [frameAt, frames_eq_some h, deref, Except.ok_bind, hfloor, hceil,
      intRem_of_lt (Cycle.place_lt hn ⌊x⌋), index_ofNat hprevious, fmod_one hr, hfract]
    rfl
  · -- between two frames: the ceiling is one more, and may be a whole turn
    have hceil : ⌈fmod x bone.stored.length⌉ = (Cycle.place bone.stored.length ⌊x⌋ + 1 : Nat) := by
      rw [ceil_of_fract_ne_zero (by rwa [hfract]), hfloor, Nat.cast_succ]
    have hnext := List.getElem?_eq_getElem (Cycle.place_lt hn (⌊x⌋ + 1))
    refine ⟨_, _, hprevious, fun _ => hnext, ?_⟩
    simp only [frameAt, frames_eq_some h, deref, Except.ok_bind, hfloor, hceil,
      intRem_natCast hn, Cycle.place_succ hn, index_ofNat hprevious, index_ofNat hnext, fmod_one hr,
      hfract]
    rfl

/-- From frame zero on, position and scale are the interpolated ones. -/
theorem frameAt_interpolate (h : bone.stored ≠ []) (hx : 0 ≤ x) :
    ∃ info, bone.frameAt x = .ok info ∧
      info.position = Cycle.interpolate (bone.stored.map (·.position)) x ∧
      info.scale = Cycle.interpolate (bone.stored.map (·.scale)) x := by
  obtain ⟨previous, next, hprevious, hnext, hframe⟩ := frameAt_eq h hx
  have hlerp := fun a b : Vector3d K =>
    Vector3d.lerp_of_mem (Int.fract_nonneg x) (Int.fract_lt_one x).le a b
  have hinterpolate : ∀ part : FrameInfo K → Vector3d K,
      (part previous).lerp (part next) (Int.fract x) =
        Cycle.interpolate (bone.stored.map part) x := by
    intro part
    rw [hlerp]
    unfold Cycle.interpolate
    simp only [List.length_map, List.getD_eq_getElem?_getD, List.getElem?_map, hprevious,
      Option.map_some, Option.getD_some, Int.self_sub_floor]
    by_cases hwhole : Int.fract x = 0
    · rw [hwhole, Cycle.add_smul_zero, Cycle.add_smul_zero]
    · rw [hnext hwhole, Option.map_some, Option.getD_some]
  exact ⟨_, hframe, hinterpolate (·.position), hinterpolate (·.scale)⟩

/-- At a whole frame it is the stored frame, wrapped around. -/
theorem frameAt_natCast (h : bone.stored ≠ []) (f : Nat) :
    ∃ info, bone.stored[f % bone.stored.length]? = some info ∧ bone.frameAt (f : K) = .ok info := by
  obtain ⟨previous, next, hprevious, -, hframe⟩ := frameAt_eq h (Nat.cast_nonneg (α := K) f)
  have hplace : Cycle.place bone.stored.length ⌊(f : K)⌋ = f % bone.stored.length := by
    rw [Int.floor_natCast, Cycle.place, ← Int.natCast_mod, Int.toNat_natCast]
  have hlerp : ∀ a b : Vector3d K, a.lerp b 0 = a := by
    intro a b
    rw [Vector3d.lerp_of_mem le_rfl zero_le_one, Cycle.add_smul_zero]
  refine ⟨previous, hplace ▸ hprevious, ?_⟩
  rw [hframe, Int.fract_natCast, hlerp, hlerp, Rotation.lerp_zero]

/-- `SetFrame(frame)` passes on the position and the scale at phase `p`. -/
def Shows [DecidableEq ι] (sk : Skeleton ι K) (bone : SmoothMotionBone ι K) (frame p : K) : Prop :=
  ∃ rotation, ∀ pose, bone.setFrame sk frame pose = .ok
    ((sk.setRotation
      (sk.setPosition pose bone.transform (Cycle.interpolate (bone.stored.map (·.position)) p))
      bone.transform rotation).setLocalScale bone.transform
        (Cycle.interpolate (bone.stored.map (·.scale)) p))

theorem setFrame_shows [DecidableEq ι] (sk : Skeleton ι K) (h : bone.stored ≠ []) (hx : 0 ≤ x) :
    bone.Shows sk x x := by
  obtain ⟨info, hinfo, hposition, hscale⟩ := frameAt_interpolate h hx
  refine ⟨info.rotation, fun pose => ?_⟩
  rw [← hposition, ← hscale]
  unfold setFrame
  rw [hinfo]
  rfl

/-- A turn more shows the same. -/
theorem setFrame_shows_turn [DecidableEq ι] (sk : Skeleton ι K) (h : bone.stored ≠ []) (hx : 0 ≤ x) :
    bone.Shows sk (x + bone.stored.length) x := by
  have hturn : ∀ part : FrameInfo K → Vector3d K,
      Cycle.interpolate (bone.stored.map part) (x + bone.stored.length) =
        Cycle.interpolate (bone.stored.map part) x := by
    intro part
    have hadd := Cycle.interpolate_add_turn (bone.stored.map part) x
    rwa [List.length_map] at hadd
  have hshows := setFrame_shows sk h (add_nonneg hx (Nat.cast_nonneg (α := K) bone.stored.length))
  unfold Shows at hshows ⊢
  simpa only [hturn] using hshows

/-! ## Where there is no frame -/

/-- A null list, a frame below zero or an empty list. -/
theorem frameAt_error {e : Exn} (h : bone.frameAt x = .error e) : e.isFault = true := by
  unfold frameAt at h
  rcases Except.bind_eq_error h with h | ⟨frames, -, h⟩
  · rw [deref_error h]
    rfl
  rcases Except.bind_eq_error h with h | ⟨previous, -, h⟩
  · rw [index_error h]
    rfl
  rcases Except.bind_eq_error h with h | ⟨i, -, h⟩
  · rw [intRem_error h]
    rfl
  rcases Except.bind_eq_error h with h | ⟨next, -, h⟩
  · rw [index_error h]
    rfl
  cases h

/-- `SetFrame` has a frame from zero on, and at whole turns below. -/
theorem frameAt_ok_iff : (∃ info, bone.frameAt x = .ok info) ↔
    bone.stored ≠ [] ∧ (0 ≤ x ∨ ∃ m : Int, x = m * bone.stored.length) := by
  constructor
  · rintro ⟨info, hinfo⟩
    obtain ⟨frames, hframes, hinfo⟩ := Except.bind_eq_ok hinfo
    obtain ⟨previous, hprevious, -⟩ := Except.bind_eq_ok hinfo
    have hstored : bone.stored = frames := by
      cases hlist : bone.frames with
      | none =>
        rw [hlist] at hframes
        cases hframes
      | some list =>
        rw [hlist] at hframes
        cases hframes
        unfold stored
        rw [hlist, Option.getD_some]
    obtain ⟨hfloor, hne⟩ := index_nonneg hprevious
    have hn : (0 : K) < frames.length := Nat.cast_pos.mpr (List.length_pos_of_ne_nil hne)
    rw [hstored]
    exact ⟨hne, (fmod_nonneg_iff hn).mp (Int.floor_nonneg.mp hfloor)⟩
  · rintro ⟨hne, hx | ⟨m, rfl⟩⟩
    · exact frameAt_ok hne hx
    · have hn : (0 : K) < bone.stored.length := Nat.cast_pos.mpr (List.length_pos_of_ne_nil hne)
      have hzero := fmod_intCast_mul m hn
      exact frameAt_ok_of_fmod hne hzero.ge (by rwa [hzero])

end SmoothMotionBone
